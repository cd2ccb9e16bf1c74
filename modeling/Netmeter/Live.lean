import Netmeter.TopApps
import Netmeter.UserAgent
set_option autoImplicit false

/-!
`live.rs`: the dashboard loop. Keys between two ticks, then a tick that reads the
counters, refreshes the slow figures every fifth time and draws. Rates are binary64,
and sums of `u64` wrap.
-/

namespace Netmeter
open Keyed Ranking Binary64

instance addCommMonoidU64 : AddCommMonoid UInt64 where
  add_assoc := UInt64.add_assoc
  zero_add := UInt64.zero_add
  add_zero := UInt64.add_zero
  add_comm := UInt64.add_comm
  nsmul := nsmulRec

structure Figures where
  dayTot : ℤ × ℤ := (0,0)
  weekTot : ℤ × ℤ := (0,0)
  monthUsed : ℤ := 0
  monthSplit : Counts := 0
  apps : List AppRow := []

structure Dashboard where
  dec : Bool
  intervalMs : UInt64 := 1000
  histDown : List UInt64 := List.replicate 120 0
  histUp : List UInt64 := List.replicate 120 0
  prev : Table String (UInt64 × UInt64)
  prevLan : Option (UInt64 × UInt64)
  lanRate : String := "…"
  session : Table String (UInt64 × UInt64) := ∅
  tickN : ℕ := 0
  figures : Figures := {}

/-- What one tick reads; `now_ts()` is read anew by each query. -/
structure Look where
  cur : Table String (UInt64 × UInt64)
  lanNow : Option (UInt64 × UInt64)
  tableExists : Bool
  db : Option Db
  dayNow : ℤ
  weekNow : ℤ
  budgetNow : ℤ
  appsNow : ℤ
  uptime : ℕ

structure LiveRow where
  iface : String
  down : UInt64
  up : UInt64
  sessionRx : UInt64
  sessionTx : UInt64
  deriving DecidableEq

def LiveRow.rate (r : LiveRow) : ℕ := (r.down + r.up).toNat

def Dashboard.key (d : Dashboard) : KeyCode → Option Dashboard
  | .char 'q' => none
  | .esc => none
  | .char 'u' => some { d with dec := !d.dec }
  | .char '+' => some { d with intervalMs := max (d.intervalMs - 250) 250 }
  | .char '=' => some { d with intervalMs := max (d.intervalMs - 250) 250 }
  | .char '-' => some { d with intervalMs := min (d.intervalMs + 250) 5000 }
  | _ => some d

def querySince (db : Db) (start : ℤ) : ℤ × ℤ :=
  let sums := db.windowSum start
  (sums.rx, sums.tx)

def queryWeekTotal (tz : TimeZone) (now : ℤ) (db : Db) : ℤ × ℤ := querySince db (floorWeek tz now)

def figuresOf (cfg : Config) (tz : TimeZone) (o : Look) : Figures :=
  match o.db with
  | none => {}
  | some db =>
    { dayTot := querySince db (floorDay tz o.dayNow)
      weekTot := queryWeekTotal tz o.weekNow db
      monthUsed := (queryBudget cfg tz o.budgetNow db).1
      monthSplit := (queryBudget cfg tz o.budgetNow db).2
      apps := todayTopApps tz o.appsNow 12 db }

/-- `x as u64` for an `f64` that is not negative. -/
def ratAsU64 (q : ℚ) : UInt64 := .ofNat (min ⌊q⌋.toNat (2 ^ 64 - 1))

def Dashboard.perSec (d : Dashboard) : ℚ := f64 (1000 / d.intervalMs.toNat)

def atRate (bytes : UInt64) (perSec : ℚ) : ℚ := f64 (f64 bytes.toNat * perSec)

def fmtRate (bps : UInt64) (perSec : ℚ) (dec : Bool) : String :=
  fmtBytes (ratAsI64 (atRate bps perSec)) dec ++ "/s"

def Dashboard.lanText (d : Dashboard) (o : Look) : String :=
  match d.prevLan, o.lanNow with
  | some (pr,pt), some (nr,nt) =>
    "+" ++ fmtRate (satSub nr pr) d.perSec d.dec ++ "/+" ++
      fmtRate (satSub nt pt) d.perSec d.dec ++ "B"
  | _, _ => if o.tableExists then d.lanRate else "n/a TOTAL-only"

def Dashboard.growth (cfg : Config) (filter : Option String) (d : Dashboard) (iface : String)
    (now : UInt64 × UInt64) : Option (UInt64 × UInt64) :=
  if cfg.excluded iface then none
  else if filter.any (iface ≠ ·) then none
  else (d.prev.lookup iface).map (fun old => (satSub now.1 old.1, satSub now.2 old.2))

def Dashboard.grown (cfg : Config) (filter : Option String) (d : Dashboard) (o : Look) :
    Table String (UInt64 × UInt64) :=
  o.cur.filterMapVal (d.growth cfg filter)

def Dashboard.sessionAfter (cfg : Config) (filter : Option String) (d : Dashboard) (o : Look) :
    Table String (UInt64 × UInt64) :=
  d.session.addAll (d.grown cfg filter o).rows

def Dashboard.liveRow (d : Dashboard) (session : Table String (UInt64 × UInt64))
    (e : String × (UInt64 × UInt64)) : LiveRow :=
  let s := (session.lookup e.1).getD (0,0)
  ⟨e.1, ratAsU64 (atRate e.2.1 d.perSec), ratAsU64 (atRate e.2.2 d.perSec), s.1, s.2⟩

def Dashboard.rows (cfg : Config) (filter : Option String) (d : Dashboard) (o : Look) :
    List LiveRow :=
  ranked LiveRow.rate
    ((d.grown cfg filter o).rows.map (d.liveRow (d.sessionAfter cfg filter o)))

def pushHist (hist : List UInt64) (x : UInt64) : List UInt64 :=
  (hist ++ [x]).drop ((hist ++ [x]).length - 120)

def Dashboard.tick (cfg : Config) (tz : TimeZone) (filter : Option String) (d : Dashboard)
    (o : Look) : Dashboard :=
  let rows := d.rows cfg filter o
  { d with
    tickN := d.tickN + 1
    lanRate := d.lanText o
    prevLan := o.lanNow
    session := d.sessionAfter cfg filter o
    prev := o.cur
    histDown := pushHist d.histDown (rows.map LiveRow.down).sum
    histUp := pushHist d.histUp (rows.map LiveRow.up).sum
    figures := if (d.tickN + 1) % 5 = 1 then figuresOf cfg tz o else d.figures }

inductive GaugeColor where
  | red | yellow | green
  deriving DecidableEq, Repr

/-- The strip at the bottom: the budget as a gauge, or the month. -/
inductive Strip where
  | gauge (title : String) (percent : ℕ) (color : GaugeColor)
  | month (text : String)
  deriving DecidableEq

structure LiveFrame where
  title : String
  header : List String
  ifacesTitle : String
  ifaces : List (List String)
  usage : List (List String)
  apps : List (List String)
  speedDown : String
  sparkDown : List UInt64
  speedUp : String
  sparkUp : List UInt64
  strip : Strip
  deriving DecidableEq

def fixedText (places : ℕ) (q : ℚ) : String :=
  (if q < 0 then "-" else "") ++
    decimalText places (Scaled.mantissa Scaled.roundHalfEven places |q|).toNat

def maxRow (rows : List LiveRow) : ℕ := ((rows.map LiveRow.rate).max?).getD 1

def rowShare (maxRow : ℕ) (r : LiveRow) : ℕ := share r.rate maxRow

def ifaceCells (dec : Bool) (maxRow : ℕ) (r : LiveRow) : List String :=
  [r.iface, fmtBytes (asI64 r.down) dec ++ "/s", fmtBytes (asI64 r.up) dec ++ "/s",
    bar (f64 ((rowShare maxRow r : ℚ) / 10)) 10, fmtBytes (asI64 (r.sessionRx + r.sessionTx)) dec]

def usageRow (label : String) (dt : ℤ × ℤ) (dec : Bool) : List String :=
  [label, fmtBytes dt.1 dec, fmtBytes dt.2 dec, fmtBytes (dt.1 + dt.2) dec]

/-- Below zero without a budget. -/
def budgetFrac (cfg : Config) (used : ℤ) : ℚ :=
  match cfg.effectiveBudget with
  | some (_, gb) => f64 (f64 used / f64 (gb * 1073741824))
  | none => -1

def percent (frac : ℚ) : ℕ := ⌊f64 (max 0 (min frac 1) * 100)⌋.toNat

def gaugeColor (pct : ℕ) : GaugeColor :=
  if 100 ≤ pct then .red else if 80 ≤ pct then .yellow else .green

def strip (cfg : Config) (dec : Bool) (f : Figures) : Strip :=
  let s := f.monthSplit
  let frac := budgetFrac cfg f.monthUsed
  if 0 ≤ frac then
    let adverb := ((cfg.effectiveBudget.map (fun b => periodAdverb b.1)).getD "monthly")
    let gb := (cfg.effectiveBudget.map Prod.snd).getD 0
    .gauge (" " ++ adverb ++ " " ++ fixedText 1 (f64 (f64 f.monthUsed / 1073741824)) ++ "/" ++
      fixedText 0 gb ++ " GiB │ WAN " ++ fmtBytes (s.wanRx + s.wanTx) dec ++ " ")
      (percent frac) (gaugeColor (percent frac))
  else
    .month (" month " ++ fmtBytes f.monthUsed dec ++ " (▼" ++ fmtBytes s.rx dec ++ " ▲" ++
      fmtBytes s.tx dec ++ ") │ LAN " ++ fmtBytes s.lanRx dec ++ "/" ++ fmtBytes s.lanTx dec ++
      " │ WAN " ++ fmtBytes s.wanRx dec ++ "/" ++ fmtBytes s.wanTx dec ++
      " │ `sudo netmeter config set budget_gb 50` for a budget bar")

/-- The frame of a tick, from its rows and the state after it. -/
def Dashboard.frame (cfg : Config) (d : Dashboard) (rows : List LiveRow) (uptime : ℕ) :
    LiveFrame :=
  let down := (rows.map LiveRow.down).sum
  let up := (rows.map LiveRow.up).sum
  let f := d.figures
  let s := f.monthSplit
  let sess : UInt64 × UInt64 :=
    ((d.session.rows.map (·.2.1)).sum, (d.session.rows.map (·.2.2)).sum)
  { title := " netmeter (" ++ toString d.intervalMs.toNat ++ "ms) "
    header := [" ▼ ", fmtRate down 1 d.dec ++ " ", " ▲ ", fmtRate up 1 d.dec ++ " ", " │ LAN ",
      d.lanRate ++ " ", "│ sess ",
      "▼" ++ fmtBytes (asI64 sess.1) d.dec ++ " ▲" ++ fmtBytes (asI64 sess.2) d.dec ++ " ",
      "│ today ",
      "▼" ++ fmtBytes f.dayTot.1 d.dec ++ " ▲" ++ fmtBytes f.dayTot.2 d.dec ++ " ", "│ month ",
      fmtBytes f.monthUsed d.dec]
    ifacesTitle := " interfaces (" ++ toString rows.length ++ ") — up " ++ toString uptime ++ "s "
    ifaces := rows.map (ifaceCells d.dec (maxRow rows))
    usage := [usageRow "TODAY" f.dayTot d.dec, usageRow "WEEK" f.weekTot d.dec,
      usageRow "MONTH" (s.rx,s.tx) d.dec, usageRow "LAN-M" (s.lanRx,s.lanTx) d.dec,
      usageRow "WAN-M" (s.wanRx,s.wanTx) d.dec]
    apps := f.apps.map (fun r => [r.1, fmtBytes r.2.1 d.dec, fmtBytes r.2.2 d.dec])
    speedDown := " ▼ speed " ++ fmtRate down 1 d.dec ++ " "
    sparkDown := d.histDown
    speedUp := " ▲ speed " ++ fmtRate up 1 d.dec ++ " "
    sparkUp := d.histUp
    strip := strip cfg d.dec f }

end Netmeter
