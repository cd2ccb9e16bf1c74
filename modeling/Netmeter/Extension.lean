import Netmeter.Anchor
import Netmeter.BudgetKeys
import Netmeter.BudgetViews
set_option autoImplicit false

/-!
The GNOME extension over the JSON of the CLI: today's figures come from `today`,
or are summed from the hourly rows where the command is missing.
-/

namespace Netmeter
open Keyed Transaction Floor Gregorian

@[ext] structure Totals where
  rx : ℤ := 0
  tx : ℤ := 0
  total : ℤ := 0
  lanRx : ℤ := 0
  lanTx : ℤ := 0
  wanRx : ℤ := 0
  wanTx : ℤ := 0
  deriving DecidableEq, Repr

structure JsonRow extends Totals where
  ts : ℤ
  date : String
  iface : String
  deriving DecidableEq, Repr

def apiVersion : ℤ := 1

/-- `show --json`; without a database it leaves the period out. -/
structure ShowJson where
  apiVersion : ℤ
  period : Option String
  rows : List JsonRow

structure TodayJson extends Totals where
  apiVersion : ℤ

structure StatusJson where
  version : String
  daemonActive : Bool
  nftSplit : Bool

structure AppJson where
  app : String
  rx : ℤ
  tx : ℤ
  total : ℤ

structure TopAppsJson where
  apiVersion : ℤ
  rows : List AppJson

/-! ## The CLI side -/

def fmtDate (tz : TimeZone) (ts : ℤ) (withTime : Bool) : String :=
  let dt := tz.toZoned ts
  if withTime then dateText dt.date ++ " " ++ padZero 2 dt.hour ++ ":00" else dateText dt.date

def Row.json (tz : TimeZone) (period : Period) (r : Row) : JsonRow where
  ts := r.ts
  date := fmtDate tz r.ts (period = .hour)
  iface := r.iface
  rx := r.rx
  tx := r.tx
  total := r.total
  lanRx := r.lanRx
  lanTx := r.lanTx
  wanRx := r.wanRx
  wanTx := r.wanTx

def cmdShowJson (civil : String → Option Date) (tz : TimeZone) (period : Period)
    (start : Option String) (now : ℤ) (iface : Option String) (db : Option Db) :
    Except DateError ShowJson :=
  match db with
  | none => .ok ⟨apiVersion, none, []⟩
  | some db => (cmdShow civil tz period start now iface db).map (fun rows =>
      ⟨apiVersion, some period.view, rows.map (Row.json tz period)⟩)

def cmdTodayJson (tz : TimeZone) (now : ℤ) (db : Option Db) : TodayJson :=
  match db with
  | none => { apiVersion := apiVersion }
  | some db =>
    -- raw samples from local midnight to now, aggregated across interfaces
    let rows := queryRange db .samples (floorDay tz now) (now + 1) none
    let rx := (rows.map (·.rx)).sum
    let tx := (rows.map (·.tx)).sum
    let lanRx := (rows.map (·.lanRx)).sum
    let lanTx := (rows.map (·.lanTx)).sum
    { apiVersion := apiVersion
      rx := rx
      tx := tx
      total := rx + tx
      lanRx := lanRx
      lanTx := lanTx
      wanRx := max (rx - lanRx) 0
      wanTx := max (tx - lanTx) 0 }

/-! ## `dataSource.js` -/

def Totals.addRow (totals : Totals) (row : JsonRow) : Totals where
  rx := totals.rx + row.rx
  tx := totals.tx + row.tx
  total := totals.total + row.total
  lanRx := totals.lanRx + row.lanRx
  lanTx := totals.lanTx + row.lanTx
  wanRx := totals.wanRx + row.wanRx
  wanTx := totals.wanTx + row.wanTx

def sumRows (rows : List JsonRow) : Totals := rows.foldl Totals.addRow {}

def lastRow (rows : List JsonRow) : Option JsonRow := rows.getLast?

def todayLocalStr (tz : TimeZone) (now : ℤ) : String :=
  let d := (tz.toZoned now).date
  toString d.year ++ "-" ++ padZero 2 d.month ++ "-" ++ padZero 2 d.day

def startsWith (s pre : String) : Bool := pre.toList.isPrefixOf s.toList

structure Replies where
  status : Option StatusJson
  today : Option TodayJson
  hourly : Option ShowJson
  monthly : Option ShowJson
  apps : Option TopAppsJson

/-- All queries at one time; netmeter may not know the `today` command. -/
def fetchAll (status : Option StatusJson) (apps : Option TopAppsJson) (hasToday : Bool)
    (civil : String → Option Date) (tz : TimeZone) (now : ℤ) (db : Option Db) : Replies where
  status := status
  today := if hasToday then some (cmdTodayJson tz now db) else none
  hourly := (cmdShowJson civil tz .hour none now none db).toOption
  monthly := (cmdShowJson civil tz .month none now none db).toOption
  apps := apps

structure Model where
  installed : Bool
  daemonActive : Bool
  split : Bool
  version : Option String
  day : Option Totals
  month : Option JsonRow
  topApps : List AppJson

def buildModel (installed : Bool) (tz : TimeZone) (now : ℤ) (p : Replies) : Model where
  installed := installed
  daemonActive := p.status.any (·.daemonActive)
  split := p.status.any (·.nftSplit)
  version := p.status.map (·.version)
  day :=
    match p.today with
    | some today => some today.toTotals
    | none => p.hourly.map (fun hourly =>
        sumRows (hourly.rows.filter (fun r => startsWith r.date (todayLocalStr tz now))))
  month := p.monthly.bind (fun monthly => lastRow monthly.rows)
  topApps := match p.apps with
    | some apps => apps.rows
    | none => []

theorem year_utc {ts : ℤ} (hlo : -31536000 ≤ ts) (hhi : ts ≤ 253402207200) :
    1969 ≤ (TimeZone.utc.toZoned ts).date.year ∧ (TimeZone.utc.toZoned ts).date.year < 10000 := by
  have h1969 : yearStart 1969 = -365 := by decide
  have h10000 : yearStart 10000 = 2932897 := by decide
  refine Date.year_bounds ?_ ?_
  · show _ ≤ (Date.ofDays (ts / 86400)).toDays
    rw [Date.toDays_ofDays]
    omega
  · show (Date.ofDays (ts / 86400)).toDays < _
    rw [Date.toDays_ofDays]
    omega

theorem todayLocalStr_eq {now : ℤ} (hlo : 0 ≤ now) (hhi : now ≤ 253402207200) :
    todayLocalStr .utc now = dateText (TimeZone.utc.toZoned now).date := by
  obtain ⟨hyear, -⟩ := year_utc (show -31536000 ≤ now by omega) hhi
  unfold todayLocalStr dateText
  dsimp only
  obtain ⟨y, hy⟩ := Int.eq_ofNat_of_zero_le (show 0 ≤ (TimeZone.utc.toZoned now).date.year by omega)
  have hpad : toString y = padZero 4 y := toString_eq_padZero (by norm_num) (by omega)
  rw [hy, Int.toNat_natCast, ← hpad]
  rfl

theorem startsWith_fmtDate {d : Date} {ts : ℤ} (hd : 0 ≤ d.year) (hd' : d.year < 10000)
    (hlo : -31536000 ≤ ts) (hhi : ts ≤ 253402207200) (withTime : Bool) :
    startsWith (fmtDate .utc ts withTime) (dateText d) = true ↔
      (TimeZone.utc.toZoned ts).date = d := by
  obtain ⟨hyear, hyear'⟩ := year_utc hlo hhi
  have hpre : (dateText (TimeZone.utc.toZoned ts).date).toList <+:
      (fmtDate .utc ts withTime).toList := by
    unfold fmtDate
    dsimp only
    split
    · simp only [String.toList_append, List.append_assoc]
      exact List.prefix_append _ _
    · exact List.prefix_rfl
  unfold startsWith
  rw [List.isPrefixOf_iff_prefix]
  constructor
  · intro h
    have hlen : (dateText d).toList.length =
        (dateText (TimeZone.utc.toZoned ts).date).toList.length := by
      rw [length_dateText hd', length_dateText hyear']
    have htext := (List.prefix_of_prefix_length_le h hpre hlen.le).eq_of_length hlen
    exact (dateText_injective hd (by omega) (String.toList_injective htext)).symm
  · rintro rfl
    exact hpre

theorem startsWith_today (now : WallClock) {ts : ℤ} (hlo : -31536000 ≤ ts)
    (hle : ts ≤ now.secs) (withTime : Bool) :
    startsWith (fmtDate .utc ts withTime) (todayLocalStr .utc now.secs) = true ↔
      floorDay .utc now.secs ≤ ts := by
  have hv := now.valid
  obtain ⟨hyear, hyear'⟩ := year_utc (show -31536000 ≤ now.secs by omega) hv.2
  rw [todayLocalStr_eq hv.1 hv.2, startsWith_fmtDate (by omega) hyear' hlo (by omega),
    floorDay_utc]
  constructor
  · intro h
    have hdays := congrArg Date.toDays h
    simp only [TimeZone.utc, DateTime.ofSeconds, Date.toDays_ofDays] at hdays
    omega
  · intro h
    show Date.ofDays (ts / 86400) = Date.ofDays (now.secs / 86400)
    congr 1
    omega

def Counts.totals (c : Counts) : Totals := ⟨c.rx, c.tx, c.total, c.lanRx, c.lanTx, c.wanRx, c.wanTx⟩

theorem foldl_addRow (tz : TimeZone) (period : Period) {rows : List Row}
    (h : ∀ r ∈ rows, r.toCounts.Capped) {c : Counts} (hc : c.Capped) :
    (rows.map (Row.json tz period)).foldl Totals.addRow c.totals =
      (c + (rows.map Row.toCounts).sum).totals := by
  induction rows generalizing c with
  | nil => simp
  | cons r rows ih =>
    have hr := h r List.mem_cons_self
    have hstep : c.totals.addRow (r.json tz period) = (c + r.toCounts).totals := by
      obtain ⟨hrx, htx⟩ := hc
      obtain ⟨hrx', htx'⟩ := hr
      simp only [Counts.totals, Totals.addRow, Row.json, Counts.total, Counts.wanRx,
        Counts.wanTx, Counts.rx_add, Counts.tx_add, Counts.lanRx_add, Counts.lanTx_add,
        Totals.mk.injEq, true_and]
      omega
    rw [List.map_cons, List.foldl_cons, hstep,
      ih (fun r' hr' => h r' (List.mem_cons_of_mem _ hr')) (hc.add hr), List.map_cons,
      List.sum_cons, add_assoc]

theorem sumRows_json (tz : TimeZone) (period : Period) {rows : List Row}
    (h : ∀ r ∈ rows, r.toCounts.Capped) :
    sumRows (rows.map (Row.json tz period)) = (rows.map Row.toCounts).sum.totals := by
  have hfold := foldl_addRow tz period h (c := 0) ⟨le_rfl, le_rfl⟩
  rwa [zero_add] at hfold

theorem value_pairs (rows : List Row) (p : ℤ → Bool) :
    value (total p (pairs rows)) = ((rows.filter (fun r => p r.ts)).map Row.toCounts).sum := by
  rw [value_total, pairs, List.filter_map, List.map_map]
  rfl

variable {cfg : Config} {start : ℤ} {s : State} {db : Db} {now : ℤ}

theorem map_sum_rows (φ : Counts →+ ℤ) (rows : List Row) :
    φ (rows.map Row.toCounts).sum = (rows.map (fun r => φ r.toCounts)).sum := by
  rw [map_list_sum, List.map_map]
  rfl

theorem cmdTodayJson_totals (tz : TimeZone) (hpast : ∀ x ∈ db.samples.rows, x.1.ts ≤ now) :
    (cmdTodayJson tz now (some db)).toTotals =
      (value (total (fun k => floorDay tz now ≤ k.ts) db.samples.rows)).totals := by
  generalize hrows : queryRange db .samples (floorDay tz now) (now + 1) none = rows
  have hvalue : value (total (fun k => floorDay tz now ≤ k.ts) db.samples.rows) =
      (rows.map Row.toCounts).sum := by
    have hall := value_pairs rows (fun _ => true)
    rw [List.filter_true] at hall
    rw [← hall, ← hrows, total_queryRange]
    refine congrArg value (total_congr (fun x hx => ?_))
    have hlt : x.1.ts < now + 1 := by
      have := hpast x hx
      omega
    simp [matchesIface, hlt]
  have hrx : (rows.map Row.toCounts).sum.rx = (rows.map (·.rx)).sum :=
    map_sum_rows Counts.rxHom rows
  have htx : (rows.map Row.toCounts).sum.tx = (rows.map (·.tx)).sum :=
    map_sum_rows Counts.txHom rows
  have hlanRx : (rows.map Row.toCounts).sum.lanRx = (rows.map (·.lanRx)).sum :=
    map_sum_rows Counts.lanRxHom rows
  have hlanTx : (rows.map Row.toCounts).sum.lanTx = (rows.map (·.lanTx)).sum :=
    map_sum_rows Counts.lanTxHom rows
  rw [hvalue]
  simp only [cmdTodayJson, Counts.totals, Counts.total, Counts.wanRx, Counts.wanTx, hrows, hrx,
    htx, hlanRx, hlanTx]

theorem hour_ts {now : ℤ} {iface : Option String} {r : Row}
    (hr : r ∈ showRows .utc .hour now iface db) : now - 90000 < r.ts ∧ r.ts ≤ now := by
  obtain ⟨x, hx, hts⟩ := (exists_shown_iff .utc .hour now iface db r.ts).mp ⟨r, hr, rfl⟩
  obtain ⟨-, hlo, hhi, -⟩ := mem_shownInput.mp hx
  rw [show Period.hour.span = 86400 from rfl] at hlo
  rw [shownStart, if_neg (by decide)] at hts
  rcases shownTable_or .hour now iface db with h | h
  · rw [h] at hts
    change floorHour .utc x.1.ts = r.ts at hts
    rw [floorHour_utc] at hts
    omega
  · rw [h] at hts
    change x.1.ts = r.ts at hts
    omega

/-- Retention deletes no hourly row since `start`. -/
def Unpruned (cfg : Config) (start : ℤ) (s : State) : Event → Prop
  | .retain now => ∀ x ∈ s.db.hourly.rows, start ≤ x.1.ts →
      retentionCut now.secs cfg.retentionDaysHourly ≤ x.1.ts
  | _ => True

theorem bookedFrom_hourly (s : State) (e : Event) (h : s.db.BookedFrom start .hourly)
    (he : (Undisturbed cfg start s e ∧ NewerTicks cfg start s e) ∧ Unpruned cfg start s e) :
    (step cfg .utc s e).db.BookedFrom start .hourly := by
  cases e with
  | tick r => exact bookedFrom_tick h he.1.2
  | rollup f => exact bookedFrom_rollup h he.1.1
  | retain now =>
    refine bookedFrom_retain (fun k hk => ?_) h he.1.1
    show (s.db.hourly.filter _).cell k = s.db.hourly.cell k
    rw [Table.cell_filter]
    split
    · rfl
    · next hcut =>
      -- a row below the cut would lie since `start`
      rw [← Table.total_key]
      refine (total_eq_zero.mpr (fun x hx => ?_)).symm
      rw [decide_eq_false_iff_not]
      rintro rfl
      exact hcut (decide_eq_true (he.2 x hx hk))
  | restart => exact h

theorem filter_today (now : WallClock) (db : Db) :
    ((showRows .utc .hour now.secs none db).map (Row.json .utc .hour)).filter
        (fun r => startsWith r.date (todayLocalStr .utc now.secs)) =
      ((showRows .utc .hour now.secs none db).filter
        (fun r => floorDay .utc now.secs ≤ r.ts)).map (Row.json .utc .hour) := by
  rw [List.filter_map]
  refine congrArg (List.map _) (List.filter_congr (fun r hr => ?_))
  obtain ⟨hlo, hle⟩ := hour_ts hr
  have hv := now.valid
  have htoday := startsWith_today now (by omega) hle (decide (Period.hour = .hour))
  exact Bool.eq_iff_iff.mpr (htoday.trans decide_eq_true_iff.symm)

theorem sumRows_today {now : WallClock} (hcapped : db.All Counts.Capped)
    (hbooked : db.BookedFrom (floorDay .utc now.secs) .hourly)
    (hall : upTo db.lastRollupTs db.samples.rows = db.samples.rows)
    (hpast : ∀ x ∈ db.samples.rows, x.1.ts ≤ now.secs) :
    sumRows (((showRows .utc .hour now.secs none db).map (Row.json .utc .hour)).filter
        (fun r => startsWith r.date (todayLocalStr .utc now.secs))) =
      (cmdTodayJson .utc now.secs (some db)).toTotals := by
  have hrows := capped_showRows hcapped .utc .hour now.secs none
  have htotal : total (fun t => floorDay .utc now.secs ≤ t)
      (pairs (showRows .utc .hour now.secs none db)) =
      total (fun k => floorDay .utc now.secs ≤ k.ts) db.samples.rows :=
    total_showRows .hour hbooked hall hpast
  rw [filter_today, sumRows_json .utc .hour (fun r hr => hrows r (List.mem_of_mem_filter hr)),
    cmdTodayJson_totals .utc hpast,
    ← value_pairs _ (fun t => decide (floorDay .utc now.secs ≤ t))]
  exact congrArg (fun c => (value c).totals) htotal

/-- With the watermark at the newest sample and every tick since midnight later
than the watermark it found, the extension shows the same figures whether or not
netmeter knows `today`. -/
theorem fallback_agrees_today (cfg : Config) (es : List Event) (now : WallClock)
    (installed : Bool) (status : Option StatusJson) (apps : Option TopAppsJson)
    (civil : String → Option Date)
    (hrun : Along (step cfg .utc)
      (fun s e => (Undisturbed cfg (floorDay .utc now.secs) s e ∧
        NewerTicks cfg (floorDay .utc now.secs) s e) ∧
        Unpruned cfg (floorDay .utc now.secs) s e) State.init es)
    (hpast : ∀ x ∈ (es.foldl (step cfg .utc) State.init).db.samples.rows, x.1.ts ≤ now.secs)
    (hcaught : (es.foldl (step cfg .utc) State.init).db.samples.rows ≠ [] →
      (es.foldl (step cfg .utc) State.init).db.lastRollupTs =
        some (maxTs (es.foldl (step cfg .utc) State.init).db.samples.rows)) :
    let db := (es.foldl (step cfg .utc) State.init).db
    (buildModel installed .utc now.secs
        (fetchAll status apps false civil .utc now.secs (some db))).day =
      (buildModel installed .utc now.secs
        (fetchAll status apps true civil .utc now.secs (some db))).day := by
  intro db
  have hbooked : db.BookedFrom (floorDay .utc now.secs) .hourly :=
    along_invariant (fun s : State => s.db.BookedFrom (floorDay .utc now.secs) .hourly)
      bookedFrom_hourly bookedFrom_init hrun
  exact congrArg some
    (sumRows_today (capped_run cfg .utc es) hbooked (upTo_caughtUp hcaught) hpast)

def IsRecording : Event → Prop
  | .tick _ => True
  | .rollup _ => True
  | _ => False

/-- A rollup, and a tick after the clock stepped back three seconds: `today` counts
the late sample, no hourly row does. -/
theorem not_fallback_agrees_today :
    ¬ ∀ (cfg : Config) (es : List Event) (now : WallClock) (installed : Bool)
      (status : Option StatusJson) (apps : Option TopAppsJson) (civil : String → Option Date),
      (∀ e ∈ es, IsRecording e) →
      Along (step cfg .utc) (Undisturbed cfg (floorDay .utc now.secs)) State.init es →
      let db := (es.foldl (step cfg .utc) State.init).db
      (∀ x ∈ db.samples.rows, x.1.ts ≤ now.secs) →
      (db.samples.rows ≠ [] → db.lastRollupTs = some (maxTs db.samples.rows)) →
      (buildModel installed .utc now.secs
          (fetchAll status apps false civil .utc now.secs (some db))).day =
        (buildModel installed .utc now.secs
          (fetchAll status apps true civil .utc now.secs (some db))).day := by
  intro h
  have hd := h dayBudget
    [.tick (rxReading 1800000000 1000), .tick (rxReading 1800000005 1300),
      .rollup noFaults, .tick (rxReading 1800000002 1350)]
    (.at 1800000005) true none none (fun _ => none)
    (by simp [IsRecording])
    ⟨trivial, trivial, undisturbed_noFaults _ _ _, trivial, trivial⟩
    (by decide +kernel) (by decide +kernel)
  exact absurd hd (by decide +kernel)

theorem dayRun_unpruned (start : ℤ) : Along (step dayBudget .utc)
    (fun s e => (Undisturbed dayBudget start s e ∧ NewerTicks dayBudget start s e) ∧
      Unpruned dayBudget start s e) State.init dayRun := by
  obtain ⟨hfirst, hsecond, hrollup, -⟩ := dayRun_newerTicks start
  exact ⟨⟨hfirst, trivial⟩, ⟨hsecond, trivial⟩, ⟨hrollup, trivial⟩, trivial⟩

theorem fallback_agrees_today_day :
    (buildModel true .utc 1800000005 (fetchAll none none false (fun _ => none) .utc 1800000005
        (some (dayRun.foldl (step dayBudget .utc) State.init).db))).day =
      (buildModel true .utc 1800000005 (fetchAll none none true (fun _ => none) .utc 1800000005
        (some (dayRun.foldl (step dayBudget .utc) State.init).db))).day :=
  fallback_agrees_today dayBudget dayRun (.at 1800000005) true none none (fun _ => none)
    (dayRun_unpruned _) (by decide +kernel) (by decide +kernel)

end Netmeter
