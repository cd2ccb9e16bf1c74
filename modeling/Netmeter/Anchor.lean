import Netmeter.Provenance
set_option autoImplicit false

/-!
`show --from`: the end of the anchor day against the buckets that are printed.
-/

namespace Netmeter
open Keyed Floor

/-- No bucket that starts at `last` or later is counted, and every bucket that
starts in the span before it is. -/
structure Anchored (tz : TimeZone) (period : Period) (last : ℤ) (iface : Option String) (db : Db) :
    Prop where
  noLater : ∀ x ∈ shownInput period last iface db,
    bucketStart tz period (shownTable period last iface db) x.1.ts < last
  complete : ∀ x ∈ (db.table (shownTable period last iface db)).rows,
    matchesIface iface x.1 = true →
    last - period.span ≤ bucketStart tz period (shownTable period last iface db) x.1.ts →
    bucketStart tz period (shownTable period last iface db) x.1.ts < last →
    x ∈ shownInput period last iface db

theorem Period.span_pos (period : Period) : 0 < period.span := by
  cases period <;> decide

def Period.starts : Period → Set ℤ
  | .hour => hourStarts
  | .day => dayStarts
  | .week => dayStarts
  | .month => monthStarts

theorem isFloor_sampleFloor (period : Period) :
    IsFloor period.starts (period.sampleFloor .utc) := by
  cases period
  · exact isFloor_hour
  · exact isFloor_day
  · exact isFloor_day
  · exact isFloor_monthStarts

theorem bucketStart_le (period : Period) (src : Source) (ts : ℤ) :
    bucketStart .utc period src ts ≤ ts := by
  cases src with
  | samples => exact (isFloor_sampleFloor period).le ts
  | rollup L => exact le_rfl

theorem last_le_bucketStart {period : Period} {src : Source} {last ts : ℤ}
    (hlast : last ∈ dayStarts) (hts : last < ts) (hmonth : ¬ (src = .samples ∧ period = .month)) :
    last ≤ bucketStart .utc period src ts := by
  cases src with
  | rollup L => exact hts.le
  | samples =>
    have hstart : last ∈ period.starts := by
      cases period
      · exact dayStarts_subset hlast
      · exact hlast
      · exact hlast
      · exact absurd ⟨rfl, rfl⟩ hmonth
    exact (isFloor_sampleFloor period).greatest last hstart ts hts.le

theorem mem_shownInput {period : Period} {last : ℤ} {iface : Option String} {db : Db}
    {x : Sample} : x ∈ shownInput period last iface db ↔
      x ∈ (db.table (shownTable period last iface db)).rows ∧
        last - period.span ≤ x.1.ts ∧ x.1.ts ≤ last ∧ matchesIface iface x.1 = true := by
  unfold shownInput inView
  simp [and_assoc]

theorem anchored_iff (period : Period) {last : ℤ} (hlast : last ∈ dayStarts)
    (iface : Option String) (db : Db) :
    Anchored .utc period last iface db ↔
      (∀ x ∈ (db.table (shownTable period last iface db)).rows, matchesIface iface x.1 = true →
        x.1.ts = last → bucketStart .utc period (shownTable period last iface db) last ≠ last) ∧
      (shownTable period last iface db = .samples → period = .month →
        ∀ x ∈ db.samples.rows, matchesIface iface x.1 = true → last < x.1.ts →
          ¬ (last - period.span ≤ floorMonth .utc x.1.ts ∧ floorMonth .utc x.1.ts < last)) := by
  have hspan := period.span_pos
  constructor
  · rintro ⟨hlater, hcomplete⟩
    refine ⟨fun x hx hmatch hts he => ?_, fun hsrc hperiod x hx hmatch hts ⟨hlo, hhi⟩ => ?_⟩
    · have hmem : x ∈ shownInput period last iface db :=
        mem_shownInput.mpr ⟨hx, by omega, hts.le, hmatch⟩
      have hbucket := hlater x hmem
      rw [hts, he] at hbucket
      exact lt_irrefl _ hbucket
    · subst hperiod
      rw [hsrc] at hcomplete
      have hmem := mem_shownInput.mp (hcomplete x hx hmatch hlo hhi)
      omega
  · rintro ⟨hboundary, htail⟩
    refine ⟨fun x hx => ?_, fun x hx hmatch hlo hhi => mem_shownInput.mpr ⟨hx, ?_, ?_, hmatch⟩⟩
    · obtain ⟨hrow, -, hts, hmatch⟩ := mem_shownInput.mp hx
      have hle := bucketStart_le period (shownTable period last iface db) x.1.ts
      by_contra hge
      have he : x.1.ts = last := by omega
      exact hboundary x hrow hmatch he (by rw [he] at hge hle; omega)
    · exact hlo.trans (bucketStart_le ..)
    · by_contra hgt
      rw [not_le] at hgt
      by_cases hmonth : shownTable period last iface db = .samples ∧ period = .month
      · obtain ⟨hsrc, rfl⟩ := hmonth
        rw [hsrc] at hx hlo hhi
        exact htail hsrc rfl x hx hmatch hgt ⟨hlo, hhi⟩
      · exact absurd hhi (not_lt.mpr (last_le_bucketStart hlast hgt hmonth))

theorem cmdShow_from {civil : String → Option Gregorian.Date} {tz : TimeZone} {s : String}
    {D : Gregorian.Date} (hD : civil s = some D) (period : Period) (now : ℤ)
    (iface : Option String) (db : Db) (rows : List Row) :
    cmdShow civil tz period (some s) now iface db = .ok rows ↔
      TimestampRange (midnight tz D) ∧
        rows = showRows tz period (midnight tz D + 86400) iface db := by
  simp only [cmdShow, parseDate, hD]
  by_cases h : TimestampRange (midnight tz D)
  · simp [h, Except.map, eq_comm]
  · simp [h, Except.map]

/-- `show --from D` prints the sums of the buckets of its span and of no later one
exactly when `D` is an instant and the view is right at the midnight after `D`. -/
theorem show_anchor_iff (civil : String → Option Gregorian.Date) (s : String)
    (D : Gregorian.Date) (period : Period) (now : ℤ) (iface : Option String) (db : Db)
    (hD : civil s = some D) :
    let last := midnight .utc D + 86400
    let src := shownTable period last iface db
    (∃ rows, cmdShow civil .utc period (some s) now iface db = .ok rows ∧
      pairs rows = (Table.group ((shownInput period last iface db).map
        (fun x => (shownStart .utc period src x.1.ts, x.2)))).rows ∧
      Anchored .utc period last iface db) ↔
    TimestampRange (midnight .utc D) ∧
      (∀ x ∈ (db.table src).rows, matchesIface iface x.1 = true → x.1.ts = last →
        bucketStart .utc period src last ≠ last) ∧
      (src = .samples → period = .month →
        ∀ x ∈ db.samples.rows, matchesIface iface x.1 = true → last < x.1.ts →
          ¬ (last - period.span ≤ floorMonth .utc x.1.ts ∧ floorMonth .utc x.1.ts < last)) := by
  intro last src
  have hlast : last ∈ dayStarts := ⟨D.toDays + 1, by
    show midnight .utc D + 86400 = _
    rw [midnight_utc]
    ring⟩
  have hanchor := anchored_iff period hlast iface db
  constructor
  · rintro ⟨rows, hrun, -, h⟩
    exact ⟨((cmdShow_from hD period now iface db rows).mp hrun).1, hanchor.mp h⟩
  · rintro ⟨hrange, h⟩
    exact ⟨_, (cmdShow_from hD period now iface db _).mpr ⟨hrange, rfl⟩,
      pairs_showRows .utc period last iface db, hanchor.mpr h⟩

def twoDaysDb : Db :=
  { Db.init with
    daily := (Table.set ∅ ⟨1788220800,"eth0"⟩ ⟨1000, 100, 0, 0⟩).set ⟨1788307200,"eth0"⟩
      ⟨7, 7, 0, 0⟩ }

/-- The row of 2 September is printed when the view is anchored at the 1st. -/
theorem not_show_anchor :
    ¬ ∀ (civil : String → Option Gregorian.Date) (s : String) (D : Gregorian.Date)
      (period : Period) (now : ℤ) (iface : Option String) (db : Db), civil s = some D →
      let last := midnight .utc D + 86400
      ∃ rows, cmdShow civil .utc period (some s) now iface db = .ok rows ∧
        pairs rows = (Table.group ((shownInput period last iface db).map
          (fun x => (shownStart .utc period (shownTable period last iface db) x.1.ts, x.2)))).rows ∧
        Anchored .utc period last iface db := by
  intro h
  obtain ⟨-, -, -, hanchored⟩ := h isoDate "2026-09-01" (isoDay "2026-09-01") .day 0 none twoDaysDb
    (by decide +kernel)
  have hd := hanchored.noLater (⟨1788307200,"eth0"⟩, ⟨7, 7, 0, 0⟩) (by decide +kernel)
  exact absurd hd (by decide +kernel)

theorem show_anchor_iff_next :
    ∃ rows, cmdShow isoDate .utc .day (some "2026-09-02") 0 none twoDaysDb = .ok rows ∧
      pairs rows = (Table.group ((shownInput .day (midnight .utc (isoDay "2026-09-02") + 86400) none
        twoDaysDb).map (fun x => (shownStart .utc .day (shownTable .day
          (midnight .utc (isoDay "2026-09-02") + 86400) none twoDaysDb) x.1.ts, x.2)))).rows ∧
      Anchored .utc .day (midnight .utc (isoDay "2026-09-02") + 86400) none twoDaysDb :=
  (show_anchor_iff isoDate "2026-09-02" (isoDay "2026-09-02") .day 0 none twoDaysDb
    (by decide +kernel)).mpr ⟨by decide +kernel, by decide +kernel, by decide +kernel⟩

end Netmeter
