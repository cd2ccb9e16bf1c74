import Netmeter.RollupFaults
import Netmeter.Traffic
import Netmeter.ClockRuns
import Netmeter.Import
import Netmeter.ImportWrites
import Netmeter.Retention
import Netmeter.Windows
import Netmeter.BudgetViews
import Netmeter.BudgetFlags
import Netmeter.UserAgent
import Netmeter.Delivery
import Netmeter.Anchor
import Netmeter.Complete
import Netmeter.Fallback
import Netmeter.PerApp
import Netmeter.Endpoints
import Netmeter.Sanity
import Netmeter.NftRepair
import Netmeter.ConfigFile
import Netmeter.MonthEntry
import Netmeter.HourBuckets
import Netmeter.CaptureChurn
import Netmeter.Nesting
import Netmeter.ProcNetDev
import Netmeter.KernelAddress
import Netmeter.Applet
import Netmeter.ScheduleRuns
import Netmeter.LevelSums
import Netmeter.SocketHolders
import Netmeter.CaptureLosses
import Netmeter.LiveRuns
import Netmeter.Status
import Netmeter.ConfigRuns
import Netmeter.Labels
import Netmeter.Patterns
import Netmeter.CountedOnce
import Netmeter.Readings
import Netmeter.Coverage
import Netmeter.LanRuns
import Netmeter.ExportText
