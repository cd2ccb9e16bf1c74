import Netmeter.Show
set_option autoImplicit false

/-!
The dates of the command line, and `export`: the raw samples between two of them.
-/

namespace Netmeter
open Keyed Gregorian

inductive DateError where
  | text (context : String)
  | range
  deriving DecidableEq, Repr

theorem midnight_valid : 0 < 24 ∧ 0 < 60 ∧ 0 < 60 := by decide

def midnight (tz : TimeZone) (d : Date) : ℤ := tz.toTimestamp ⟨d, 0, 0, 0, midnight_valid⟩

/-- The instants a `jiff::Timestamp` can hold. -/
def TimestampRange (ts : ℤ) : Prop := -377705023201 ≤ ts ∧ ts ≤ 253402207200

instance (ts : ℤ) : Decidable (TimestampRange ts) := inferInstanceAs (Decidable (_ ∧ _))

/-- `parse_date`; `civil` is jiff's parser of dates. -/
def parseDate (civil : String → Option Date) (tz : TimeZone) (s : String) :
    Except DateError ℤ :=
  match civil s with
  | some d => if TimestampRange (midnight tz d) then .ok (midnight tz d + 86400) else .error .range
  | none => .error (.text "expected --from YYYY-MM-DD")

structure ExportRow where
  ts : ℤ
  rx : ℤ
  tx : ℤ
  lanRx : ℤ
  lanTx : ℤ
  wanRx : ℤ
  wanTx : ℤ
  deriving DecidableEq, Repr

def Row.export (r : Row) : ExportRow :=
  ⟨r.ts, r.rx, r.tx, r.lanRx, r.lanTx, r.wanRx, r.wanTx⟩

/-- The rows `export` writes; without a database there are none. -/
def cmdExport (civil : String → Option Date) (tz : TimeZone) (start stop : String)
    (db : Option Db) : Except DateError (List ExportRow) :=
  match parseDate civil tz start, parseDate civil tz stop with
  | .error e, _ => .error e
  | .ok _, .error e => .error e
  | .ok f, .ok t =>
    match db with
    | none => .ok []
    | some db => .ok ((queryRange db .samples f (t + 86400) none).map Row.export)

def isoDate (s : String) : Option Date :=
  let digit (c : Char) : ℤ := c.toNat - 48
  match s.toList with
  | [y1, y2, y3, y4, '-', m1, m2, '-', d1, d2] =>
    if [y1, y2, y3, y4, m1, m2, d1, d2].all Char.isDigit then
      Date.new (1000 * digit y1 + 100 * digit y2 + 10 * digit y3 + digit y4)
        (10 * digit m1 + digit m2) (10 * digit d1 + digit d2)
    else none
  | _ => none

def isoDay (s : String) : Date := (isoDate s).getD (Date.ofDays 0)

example : parseDate isoDate .utc "2026-09-01" = .ok 1788307200 := by decide +kernel

theorem midnight_utc (d : Date) : midnight .utc d = 86400 * d.toDays := by
  simp [midnight, TimeZone.utc, DateTime.toSeconds]

/-- One row for each timestamp of `[lo, hi)` with a sample, in ascending order,
each with the sums over the interfaces at its timestamp. -/
structure ExportsRange (db : Db) (lo hi : ℤ) (rows : List ExportRow) : Prop where
  ascending : rows.Pairwise (fun a b => a.ts < b.ts)
  timestamps : ∀ ts, (∃ r ∈ rows, r.ts = ts) ↔
    (lo ≤ ts ∧ ts < hi) ∧ ∃ x ∈ db.samples.rows, x.1.ts = ts
  sums : ∀ r ∈ rows, (⟨r.rx, r.tx, r.lanRx, r.lanTx⟩ : Counts) =
    ((db.samples.rows.filter (fun x => x.1.ts = r.ts)).map (·.2)).sum

theorem exportsRange_queryRange (db : Db) (lo hi : ℤ) :
    ExportsRange db lo hi ((queryRange db .samples lo hi none).map Row.export) := by
  have htimes : ∀ ts, (∃ r ∈ queryRange db .samples lo hi none, r.ts = ts) ↔
      (lo ≤ ts ∧ ts < hi) ∧ ∃ x ∈ db.samples.rows, x.1.ts = ts := by
    intro ts
    have htotal := total_queryRange db .samples lo hi none (fun t => t = ts)
    have hne : (∃ r ∈ queryRange db .samples lo hi none, r.ts = ts) ↔
        total (fun t => t = ts) (pairs (queryRange db .samples lo hi none)) ≠ 0 := by
      rw [total_ne_zero]
      simp [pairs]
    rw [hne, htotal, total_ne_zero]
    constructor
    · rintro ⟨x, hx, hp⟩
      simp only [matchesIface, Bool.true_and, Bool.and_eq_true, decide_eq_true_eq] at hp
      obtain ⟨⟨hlo, hhi⟩, rfl⟩ := hp
      exact ⟨⟨hlo, hhi⟩, x, hx, rfl⟩
    · rintro ⟨⟨hlo, hhi⟩, x, hx, rfl⟩
      exact ⟨x, hx, by simp [matchesIface, hlo, hhi]⟩
  constructor
  · exact List.pairwise_map.mpr (queryRange_ascending db .samples lo hi none)
  · intro ts
    rw [← htimes ts]
    simp [Row.export]
  · intro r hr
    obtain ⟨row, hrow, rfl⟩ := List.mem_map.mp hr
    have hsum := value_total (fun k : Key => k.ts = row.ts) db.samples.rows
    have hcell : total (fun k : Key => k.ts = row.ts) db.samples.rows = row.toCounts :=
      total_of_mem_queryRange hrow
    rw [hcell] at hsum
    exact hsum

theorem cmdExport_ok {civil : String → Option Date} {tz : TimeZone} {start stop : String}
    {A B : Date} (hA : civil start = some A) (hB : civil stop = some B) (db : Db)
    (rows : List ExportRow) :
    cmdExport civil tz start stop (some db) = .ok rows ↔
      TimestampRange (midnight tz A) ∧ TimestampRange (midnight tz B) ∧
        rows = (queryRange db .samples (midnight tz A + 86400) (midnight tz B + 86400 + 86400)
          none).map Row.export := by
  unfold cmdExport parseDate
  rw [hA, hB]
  dsimp only
  by_cases hrA : TimestampRange (midnight tz A)
  · by_cases hrB : TimestampRange (midnight tz B)
    · simp [hrA, hrB, eq_comm]
    · simp [hrA, hrB]
  · simp [hrA]

/-- `export` delivers the days from `A` to `B` exactly when both dates are instants
and neither the first day nor the day after the last holds a sample: the helper
that parses a date moves both ends of the range one day on. -/
theorem export_days_iff (civil : String → Option Date) (start stop : String) (A B : Date)
    (db : Db) (hA : civil start = some A) (hB : civil stop = some B)
    (hle : A.toDays ≤ B.toDays) :
    (∃ rows, cmdExport civil .utc start stop (some db) = .ok rows ∧
      ExportsRange db (midnight .utc A) (midnight .utc B + 86400) rows) ↔
    TimestampRange (midnight .utc A) ∧ TimestampRange (midnight .utc B) ∧
      ∀ x ∈ db.samples.rows,
        ¬ (midnight .utc A ≤ x.1.ts ∧ x.1.ts < midnight .utc A + 86400) ∧
        ¬ (midnight .utc B + 86400 ≤ x.1.ts ∧ x.1.ts < midnight .utc B + 2 * 86400) := by
  have hmid : midnight .utc A ≤ midnight .utc B := by
    rw [midnight_utc, midnight_utc]
    omega
  have hout := exportsRange_queryRange db (midnight .utc A + 86400)
    (midnight .utc B + 86400 + 86400)
  constructor
  · rintro ⟨rows, hrun, hrows⟩
    obtain ⟨hrA, hrB, rfl⟩ := (cmdExport_ok hA hB db rows).mp hrun
    refine ⟨hrA, hrB, fun x hx => ?_⟩
    have hsame := (hout.timestamps x.1.ts).symm.trans (hrows.timestamps x.1.ts)
    have hmem : ∃ y ∈ db.samples.rows, y.1.ts = x.1.ts := ⟨x, hx, rfl⟩
    simp only [hmem, and_true] at hsame
    omega
  · rintro ⟨hrA, hrB, hsafe⟩
    refine ⟨_, (cmdExport_ok hA hB db _).mpr ⟨hrA, hrB, rfl⟩, hout.ascending, fun ts => ?_,
      hout.sums⟩
    rw [hout.timestamps ts]
    refine and_congr_left (fun ⟨x, hx, hts⟩ => ?_)
    have := hsafe x hx
    omega

def septemberDb : Db :=
  { Db.init with samples := Table.set ∅ ⟨1788264000,"eth0"⟩ ⟨1000, 100, 0, 0⟩ }

/-- It is missing from an export of the first week of September. -/
theorem not_export_days :
    ¬ ∀ (civil : String → Option Date) (start stop : String) (A B : Date) (db : Db),
      civil start = some A → civil stop = some B → A.toDays ≤ B.toDays →
      ∃ rows, cmdExport civil .utc start stop (some db) = .ok rows ∧
        ExportsRange db (midnight .utc A) (midnight .utc B + 86400) rows := by
  intro h
  obtain ⟨rows, hrun, hrows⟩ := h isoDate "2026-09-01" "2026-09-07" (isoDay "2026-09-01")
    (isoDay "2026-09-07") septemberDb (by decide +kernel) (by decide +kernel) (by decide +kernel)
  have hnil : cmdExport isoDate .utc "2026-09-01" "2026-09-07" (some septemberDb) = .ok [] := by
    decide +kernel
  obtain rfl := Except.ok.inj (hnil.symm.trans hrun)
  obtain ⟨r, hr, -⟩ := (hrows.timestamps 1788264000).mpr
    ⟨by decide +kernel, ⟨⟨1788264000,"eth0"⟩, ⟨1000, 100, 0, 0⟩⟩, by decide +kernel, rfl⟩
  simp at hr

theorem export_days_iff_august :
    (∃ rows, cmdExport isoDate .utc "2026-08-20" "2026-08-30" (some septemberDb) = .ok rows ∧
      ExportsRange septemberDb (midnight .utc (isoDay "2026-08-20"))
        (midnight .utc (isoDay "2026-08-30") + 86400) rows) :=
  (export_days_iff isoDate "2026-08-20" "2026-08-30" (isoDay "2026-08-20")
    (isoDay "2026-08-30") septemberDb (by decide +kernel) (by decide +kernel)
    (by decide +kernel)).mpr ⟨by decide +kernel, by decide +kernel, by decide +kernel⟩

end Netmeter
