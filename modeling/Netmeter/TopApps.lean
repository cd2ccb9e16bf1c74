import Netmeter.Lib.Ranking
import Netmeter.Extension
import Netmeter.Fmtx
set_option autoImplicit false

/-!
The rankings: `top-apps`, the `top-proc` viewer and the apps of the live dashboard
over `proc_hourly`, and `top` over samples and days.
-/

namespace Netmeter
open Keyed Ranking Binary64

def padRight (w : ℕ) (s : String) : String :=
  s ++ String.ofList (List.replicate (w - s.length) ' ')

def padLeft (w : ℕ) (s : String) : String :=
  String.ofList (List.replicate (w - s.length) ' ') ++ s

def talkerLine (w : ℕ) (name down up tot : String) : String :=
  padRight w name ++ " " ++ padLeft 10 down ++ " " ++ padLeft 10 up ++ " " ++ padLeft 10 tot

def bytesLine (w : ℕ) (dec : Bool) (name : String) (rx tx : ℤ) : String :=
  talkerLine w name (fmtBytes rx dec) (fmtBytes tx dec) (fmtBytes (rx + tx) dec)

abbrev AppRow := String × (ℤ × ℤ)

def AppRow.total (r : AppRow) : ℤ := r.2.1 + r.2.2

def periodLabel : Window → String
  | .day => "today"
  | .week => "since Monday"
  | .month => "this month"

def appRows (tz : TimeZone) (now : ℤ) (period : Window) (limit : ℕ) (db : Db) : List AppRow :=
  queryProc db (windowFloor tz now period) limit

def maxTot (rows : List AppRow) : ℤ := (rows.head?.map AppRow.total).getD 1

/-- Tenths of the biggest total; the quotient of two zeros is no tenth. -/
def share (tot maxTot : ℤ) : ℕ := (round (f64 (f64 (f64 tot / f64 maxTot) * 10))).toNat

def shareBar (maxTot : ℤ) (r : AppRow) : String := bar (f64 ((share r.total maxTot : ℚ) / 10)) 10

def AppRow.json (r : AppRow) : AppJson := ⟨r.1, r.2.1, r.2.2, r.total⟩

def cmdTopAppsJson (tz : TimeZone) (now : ℤ) (period : Window) (limit : ℕ) (db : Option Db) :
    TopAppsJson :=
  ⟨apiVersion, match db with
    | none => []
    | some db => (appRows tz now period limit db).map AppRow.json⟩

structure Printed where
  stdout : List String := []
  stderr : List String := []

def AppRow.line (dec : Bool) (maxTot : ℤ) (r : AppRow) : String :=
  bytesLine 24 dec r.1 r.2.1 r.2.2 ++ "  " ++ shareBar maxTot r

def cmdTopApps (dec : Bool) (tz : TimeZone) (now : ℤ) (period : Window) (limit : ℕ)
    (db : Option Db) : Printed :=
  match db with
  | none => { stderr := ["no data yet — is the daemon running with proc_recording on?"] }
  | some db =>
    let rows := appRows tz now period limit db
    { stdout :=
        (talkerLine 24 "APP" "DOWN" "UP" "TOTAL" ++ "  " ++ periodLabel period) ::
          rows.map (AppRow.line dec (maxTot rows)) }

structure ProcView where
  dec : Bool
  period : Window
  deriving DecidableEq

inductive KeyCode where
  | char (c : Char)
  | esc
  | other
  deriving DecidableEq

def ProcView.key (v : ProcView) : KeyCode → Option ProcView
  | .char 'q' => none
  | .esc => none
  | .char 'u' => some { v with dec := !v.dec }
  | .char '1' => some { v with period := .day }
  | .char '2' => some { v with period := .week }
  | .char '3' => some { v with period := .month }
  | _ => some v

structure ProcFrame where
  header : String
  body : List (List String)
  deriving DecidableEq

def todayTopApps (tz : TimeZone) (now : ℤ) (n : ℕ) (db : Db) : List AppRow :=
  appRows tz now .day n db

def ProcView.rows (v : ProcView) (tz : TimeZone) (now : ℤ) (db : Option Db) : List AppRow :=
  match db with
  | none => []
  | some db =>
    match v.period with
    | .day => todayTopApps tz now 25 db
    | p => appRows tz now p 25 db

def ProcView.frame (v : ProcView) (tz : TimeZone) (now : ℤ) (db : Option Db) : ProcFrame :=
  let rows := v.rows tz now db
  { header := fmtBytes (rows.map AppRow.total).sum v.dec ++ " " ++ "│ " ++ periodLabel v.period ++
      " │ 1 day │ 2 week │ 3 month "
    body := rows.map (fun r => [r.1, fmtBytes r.2.1 v.dec, fmtBytes r.2.2 v.dec,
      fmtBytes r.total v.dec, shareBar (maxTot rows) r]) }

def ifaceTotals (db : Db) : List (String × Counts) :=
  (Table.group (db.samples.rows.map (fun r => (r.1.name,r.2)))).rows

def topIface (limit : ℕ) (db : Db) : List (String × Counts) :=
  let rows := ranked (fun r => r.2.rx + r.2.tx) (ifaceTotals db)
  if wrapI64 limit < 0 then rows else rows.take limit

def topDay (limit : ℕ) (db : Db) : List Row :=
  (ranked (fun r : Row => r.total) (queryRange db (.rollup .daily) 0 (2 ^ 63 - 1) none)).take limit

inductive TopBy where
  | iface | day

def cmdTop (dec : Bool) (tz : TimeZone) (by' : TopBy) (limit : ℕ) (db : Option Db) : Printed :=
  match db with
  | none =>
    { stdout := [talkerLine 12 "IFACE" "DOWN" "UP" "TOTAL"]
      stderr := ["no data yet — start the daemon first"] }
  | some db =>
    match by' with
    | .day =>
      { stdout := talkerLine 12 "DATE" "DOWN" "UP" "TOTAL" ::
          (topDay limit db).map (fun r => bytesLine 12 dec (fmtDate tz r.ts false) r.rx r.tx) }
    | .iface =>
      { stdout := talkerLine 12 "IFACE" "DOWN" "UP" "TOTAL" ::
          (topIface limit db).map (fun r => bytesLine 12 dec r.1 r.2.rx r.2.tx) }

theorem share_le {tot m : ℤ} (htot : 0 ≤ tot) (h : tot ≤ m) : share tot m ≤ 10 := by
  have hnum : (0 : ℚ) ≤ f64 tot := f64_nonneg (by exact_mod_cast htot)
  have hnum_le : f64 tot ≤ f64 m := f64_mono (by exact_mod_cast htot) (by exact_mod_cast h)
  have hquot : f64 (f64 tot / f64 m) ≤ 1 := by
    have hle : f64 tot / f64 m ≤ 1 := div_le_one_of_le₀ hnum_le (hnum.trans hnum_le)
    exact rounds_f64.one ▸ f64_mono (div_nonneg hnum (hnum.trans hnum_le)) hle
  have hten : f64 (f64 (f64 tot / f64 m) * 10) ≤ ((10 : ℤ) : ℚ) := by
    have hnonneg : 0 ≤ f64 (f64 tot / f64 m) :=
      f64_nonneg (div_nonneg hnum (hnum.trans hnum_le))
    have hmono := f64_mono (mul_nonneg hnonneg (by norm_num : (0 : ℚ) ≤ 10))
      (mul_le_mul_of_nonneg_right hquot (by norm_num : (0 : ℚ) ≤ 10))
    rw [one_mul] at hmono
    exact hmono.trans (le_of_eq (f64_natCast (n := 10) (by norm_num)))
  have hround := Scaled.nearest_round.mono hten
  rw [round_intCast] at hround
  unfold share
  omega

theorem share_self {m : ℤ} (h : 0 < m) : share m m = 10 := by
  have hm : (0 : ℚ) < m := by exact_mod_cast h
  have hpos : 0 < f64 m :=
    (mul_pos (by norm_num : (0 : ℚ) < 1 - 1 / 2 ^ 53) hm).trans_le (rounds_f64.lower hm.le)
  have hten : f64 10 = (10 : ℤ) := f64_natCast (n := 10) (by norm_num)
  rw [share, div_self hpos.ne', rounds_f64.one, one_mul, hten, round_intCast]
  rfl

theorem barFill_share {n : ℕ} (h : n ≤ 10) : barFill (f64 ((n : ℚ) / 10)) 10 = n := by
  interval_cases n <;> decide +kernel

/-- Nothing is recorded for an app that carried nothing. -/
def Carried (v : ℤ × ℤ) : Prop := 0 ≤ v.1 ∧ 0 ≤ v.2 ∧ 0 < v.1 + v.2

theorem carried_add (a b : ℤ × ℤ) (ha : Carried a) (hb : Carried b) : Carried (a + b) := by
  obtain ⟨ha1, ha2, ha3⟩ := ha
  obtain ⟨hb1, hb2, hb3⟩ := hb
  refine ⟨add_nonneg ha1 hb1, add_nonneg ha2 hb2, ?_⟩
  show 0 < a.1 + b.1 + (a.2 + b.2)
  omega

def ProcCarried (db : Db) : Prop := ∀ r ∈ db.procHourly.rows, Carried r.2

theorem procRows_carried {hour : ℤ} {deltas : Table String (ℕ × ℕ)} :
    ∀ r ∈ procRows hour deltas, Carried r.2 := by
  intro r hr
  obtain ⟨e, -, he⟩ := List.mem_filterMap.mp hr
  split at he
  · next hany =>
    obtain rfl := Option.some.inj he
    refine ⟨Int.natCast_nonneg _, Int.natCast_nonneg _, ?_⟩
    show (0 : ℤ) < (e.2.1 : ℤ) + (e.2.2 : ℤ)
    omega
  · cases he

theorem procCarried_step (cfg : Config) (tz : TimeZone) (s : State) (e : Event)
    (h : ProcCarried s.db) : ProcCarried (step cfg tz s e).db := by
  cases e with
  | tick r =>
    cases hgap : gapBranch cfg r with
    | true =>
      rw [step, tick_gap hgap]
      exact h
    | false =>
      have hproc := (ticked hgap tz s).proc
      unfold ProcCarried
      rw [step, hproc]
      split
      · intro x hx
        have hcell : (s.db.procHourly.addAll (procRows _ r.procDeltas)).cell x.1 = x.2 :=
          Table.cell_eq_coe.mpr hx
        rw [← Table.total_key, Table.total_addAll, ← total_append] at hcell
        refine total_closed (Q := Carried) carried_add (fun y hy _ => ?_) hcell
        rcases List.mem_append.mp hy with hy | hy
        · exact h y hy
        · exact procRows_carried y hy
      · exact h
  | rollup f =>
    unfold ProcCarried
    rw [step, procHourly_rollupCall]
    exact h
  | retain now => exact fun r hr => h r (List.mem_of_mem_filter hr)
  | restart => exact h

def appTotal (db : Db) (start : ℤ) (app : String) : WithZero (ℤ × ℤ) :=
  total (fun k => start ≤ k.ts && k.name = app) db.procHourly.rows

section
variable {db : Db} {start : ℤ} {limit : ℕ}

theorem queryProc_eq (hlimit : limit < 2 ^ 63) :
    queryProc db start limit = (ranked AppRow.total (procTotals db start)).take limit := by
  have hpos : ¬ wrapI64 limit < 0 := by
    rw [wrapI64_of_bounds (by omega)]
    omega
  unfold queryProc
  rw [if_neg hpos]
  rfl

theorem procTotals_carried (h : ProcCarried db) {r : AppRow} (hr : r ∈ procTotals db start) :
    Carried r.2 :=
  total_closed (Q := Carried) carried_add (fun x hx _ => h x hx) (mem_procTotals.mp hr)

/-- A ranking of the apps of a window, its biggest ones first. -/
structure RanksApps (db : Db) (start : ℤ) (limit : ℕ) (rows : List AppRow) : Prop where
  sums : ∀ r ∈ rows, appTotal db start r.1 = (r.2 : WithZero (ℤ × ℤ))
  once : (rows.map (·.1)).Nodup
  length : rows.length = min limit (procTotals db start).length
  sorted : rows.Pairwise (fun a b => b.total ≤ a.total)
  rest : ∀ app (v : ℤ × ℤ), appTotal db start app = (v : WithZero (ℤ × ℤ)) →
    app ∉ rows.map (·.1) → ∀ r ∈ rows, v.1 + v.2 ≤ r.total
  bars : ∀ r ∈ rows, share r.total (maxTot rows) ≤ 10 ∧
    barFill (f64 ((share r.total (maxTot rows) : ℚ) / 10)) 10 = share r.total (maxTot rows)
  full : ∀ r, rows.head? = some r → share r.total (maxTot rows) = 10

theorem ranksApps (h : ProcCarried db) (hlimit : limit < 2 ^ 63) :
    RanksApps db start limit (queryProc db start limit) := by
  rw [queryProc_eq hlimit]
  have htop := top_take AppRow.total (procTotals db start) limit
  have hnodup : (((ranked AppRow.total (procTotals db start)).take limit).map (·.1)).Nodup :=
    nodup_take (Table.keys_nodup _) limit
  generalize (ranked AppRow.total (procTotals db start)).take limit = shown at htop hnodup ⊢
  have hmax : ∀ r ∈ shown, r.total ≤ maxTot shown := by
    intro r hr
    cases shown with
    | nil => cases hr
    | cons a rest => exact le_head htop.sorted hr
  constructor
  · exact fun r hr => mem_procTotals.mp (htop.mem r hr)
  · exact hnodup
  · exact htop.length
  · exact htop.sorted
  · intro app v hv hout r hr
    refine htop.rest (app,v) (mem_procTotals.mpr hv) (fun hin => hout ?_) r hr
    exact List.mem_map_of_mem hin
  · intro r hr
    have hpos : 0 < r.total := (procTotals_carried h (htop.mem r hr)).2.2
    have hle := share_le hpos.le (hmax r hr)
    exact ⟨hle, barFill_share hle⟩
  · intro r hr
    have hpos : 0 < r.total := (procTotals_carried h (htop.mem r (List.mem_of_head? hr))).2.2
    have htot : maxTot shown = r.total := by
      rw [maxTot, hr]
      rfl
    rw [htot, share_self hpos]

end

def twoApps : List Event :=
  [.tick { rxReading 1750000000 0 with
    procDeltas := (Table.set ∅ "ssh" (20, 0)).set "curl" (700, 300) }]

theorem mem_ifaceTotals {db : Db} {i : String} {c : Counts} : (i,c) ∈ ifaceTotals db ↔
    total (fun k => k.name = i) db.samples.rows = (c : WithZero Counts) := by
  unfold ifaceTotals
  rw [← Table.cell_eq_coe, Table.cell_group, total_rekey (fun k : Key => k.name)]

def twoIfaces : Db :=
  { Db.init with
    samples := Table.group [(⟨1750000000, "eth0"⟩, ⟨1000, 0, 0, 0⟩),
      (⟨1750000000, "wlan0"⟩, ⟨2000, 300, 0, 0⟩), (⟨1750086400, "eth0"⟩, ⟨5000, 0, 0, 0⟩)]
    daily := Table.group [(⟨1749945600, "eth0"⟩, ⟨1000, 0, 0, 0⟩),
      (⟨1749945600, "wlan0"⟩, ⟨2000, 300, 0, 0⟩), (⟨1750032000, "eth0"⟩, ⟨5000, 0, 0, 0⟩)] }

end Netmeter
