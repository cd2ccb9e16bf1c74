import Netmeter.Extension
set_option autoImplicit false

/-!
"This month" in the extension's menu is the last row of the month view: whether
that row is about this month.
-/

namespace Netmeter
open Keyed Transaction Floor

def InYear (now ts : ℤ) : Prop := now - 365 * 86400 ≤ ts ∧ ts ≤ now

/-- The table the view reads, `monthly` when it has a row in the range, else the
samples, reaches into the month of `now` or has no row in the range. -/
def MonthCovered (now : ℤ) (db : Db) : Prop :=
  (∃ x ∈ db.monthly.rows, x.1.ts = floorMonth .utc now) ∨
    (∀ x ∈ db.monthly.rows, ¬ InYear now x.1.ts) ∧
      ((∃ x ∈ db.samples.rows, floorMonth .utc now ≤ x.1.ts ∧ x.1.ts ≤ now) ∨
        ∀ x ∈ db.samples.rows, ¬ InYear now x.1.ts)

variable {cfg : Config} {db : Db} {L : Level} {S : Set ℤ} {now m : ℤ}

theorem aligned_rollupCall {bucket : Level → ℤ → ℤ} (hb : ∀ ts, bucket L ts ∈ S)
    (h : ∀ x ∈ (db.level L).rows, x.1.ts ∈ S) (f : Faults) :
    ∀ x ∈ ((rollupCall bucket f db).level L).rows, x.1.ts ∈ S := by
  rcases rollupCall_cases bucket f db with ⟨-, he⟩ | ⟨-, he⟩
  · intro x hx
    rw [he, Db.level_folded] at hx
    obtain ⟨y, hy, hkey⟩ := Table.exists_of_mem_addAll hx
    rw [← hkey]
    rcases List.mem_append.mp hy with hy | hy
    · split at hy
      · simp at hy
      · exact h y hy
    · obtain ⟨z, -, rfl⟩ := List.mem_map.mp hy
      exact hb z.1.ts
  · rw [he]
    exact h

theorem monthly_step (cfg : Config) (s : State) (e : Event)
    (h : ∀ x ∈ s.db.monthly.rows, x.1.ts ∈ monthStarts) :
    ∀ x ∈ (step cfg .utc s e).db.monthly.rows, x.1.ts ∈ monthStarts := by
  cases e with
  | tick r =>
    cases hgap : gapBranch cfg r with
    | true => rwa [step, tick_gap hgap]
    | false =>
      have hlevel := (ticked hgap .utc s).level .monthly
      change (tick cfg .utc s r).db.monthly = s.db.monthly at hlevel
      rwa [step, hlevel]
  | rollup f => exact aligned_rollupCall (L := .monthly) isFloor_monthStarts.mem h f
  | retain now => exact h
  | restart => exact h

theorem monthly_run (cfg : Config) (es : List Event) :
    ∀ x ∈ (es.foldl (step cfg .utc) State.init).db.monthly.rows, x.1.ts ∈ monthStarts :=
  invariant (fun s : State => ∀ x ∈ s.db.monthly.rows, x.1.ts ∈ monthStarts)
    (monthly_step cfg) (by simp [State.init, Db.init]) es

theorem getLast_ts_iff {rows : List Row} (hasc : rows.Pairwise (fun a b => a.ts < b.ts))
    (hle : ∀ r ∈ rows, r.ts ≤ m) :
    (∀ r ∈ rows.getLast?, r.ts = m) ↔ rows = [] ∨ ∃ r ∈ rows, r.ts = m := by
  cases rows using List.reverseRecOn with
  | nil => simp
  | append_singleton init last =>
    have hlt := (List.pairwise_append.mp hasc).2.2
    rw [List.getLast?_append, List.getLast?_singleton]
    constructor
    · intro h
      exact .inr ⟨last, by simp, h last (by simp)⟩
    · rintro (h | ⟨r, hr, hm⟩) r' hr'
      · simp at h
      · obtain rfl : last = r' := by simpa using hr'
        have hlast : last.ts ≤ m := hle last (by simp)
        rcases List.mem_append.mp hr with hr | hr
        · -- a row before the last starts earlier
          have := hlt r hr last (by simp)
          omega
        · obtain rfl := List.mem_singleton.mp hr
          exact hm

theorem floorMonth_in_year (now : ℤ) : InYear now (floorMonth .utc now) := by
  have hlt := sub_floorMonth_lt now
  exact ⟨by omega, isFloor_monthStarts.le now⟩

theorem mem_monthInput {x : Sample} : x ∈ shownInput .month now none db ↔
    x ∈ (db.table (shownTable .month now none db)).rows ∧ InYear now x.1.ts := by
  rw [mem_shownInput]
  simp [matchesIface, InYear, Period.span]

theorem shownTable_month (now : ℤ) (db : Db) :
    shownTable .month now none db = .samples ↔ ∀ x ∈ db.monthly.rows, ¬ InYear now x.1.ts := by
  rw [← rolledRows_eq_nil .utc .month now none db]
  have hquery := queryRange_eq_nil db (.rollup .monthly) .month now none
  refine Iff.trans hquery (forall_congr' (fun x => imp_congr_right (fun _ => ?_)))
  rw [← Bool.not_eq_true]
  simp [inView, InYear, matchesIface, Period.span]

theorem shown_month {src : Source} (ts : ℤ) :
    shownStart .utc .month src ts = bucketStart .utc .month src ts := by
  rw [shownStart, if_neg (by decide)]

theorem showRows_month_le (now : ℤ) (hmonthly : ∀ x ∈ db.monthly.rows, x.1.ts ∈ monthStarts) :
    ∀ r ∈ showRows .utc .month now none db, r.ts ≤ floorMonth .utc now := by
  intro r hr
  obtain ⟨x, hx, hts⟩ := (exists_shown_iff .utc .month now none db r.ts).mp ⟨r, hr, rfl⟩
  obtain ⟨hrow, -, hle⟩ := mem_monthInput.mp hx
  rw [← hts, shown_month]
  rcases shownTable_or .month now none db with h | h
  · rw [h]
    exact isFloor_monthStarts.mono hle
  · rw [h] at hrow ⊢
    exact isFloor_monthStarts.greatest _ (hmonthly x hrow) now hle

theorem floorMonth_eq_iff {ts : ℤ} (hle : ts ≤ now) :
    floorMonth .utc ts = floorMonth .utc now ↔ floorMonth .utc now ≤ ts := by
  have hmem := isFloor_monthStarts.mem now
  rw [← isFloor_monthStarts.le_iff hmem]
  have hmono := isFloor_monthStarts.mono hle
  exact ⟨fun h => h.ge, fun h => le_antisymm hmono h⟩

theorem showRows_month_iff (now : ℤ) (db : Db) :
    (showRows .utc .month now none db = [] ∨
        ∃ r ∈ showRows .utc .month now none db, r.ts = floorMonth .utc now) ↔
      MonthCovered now db := by
  have hnow := floorMonth_in_year now
  rw [showRows_nil_iff, exists_shown_iff]
  unfold MonthCovered
  rw [← shownTable_month]
  simp only [List.eq_nil_iff_forall_not_mem, mem_monthInput, shown_month]
  rcases shownTable_or .month now none db with h | h
  · -- no row of `monthly` is in the range, so none is this month's
    have hnone := (shownTable_month now db).mp h
    have hmonth : ¬ ∃ x ∈ db.monthly.rows, x.1.ts = floorMonth .utc now := by
      rintro ⟨x, hx, hts⟩
      exact hnone x hx (hts ▸ hnow)
    rw [or_iff_right hmonth, h, and_iff_right rfl, or_comm]
    refine or_congr (exists_congr (fun x => ?_)) (forall_congr' (fun x => not_and))
    rw [and_assoc]
    refine and_congr_right (fun _ => ⟨?_, ?_⟩)
    · rintro ⟨⟨-, hle⟩, hts⟩
      exact ⟨(floorMonth_eq_iff hle).mp hts, hle⟩
    · rintro ⟨hstart, hle⟩
      exact ⟨⟨hnow.1.trans hstart, hle⟩, (floorMonth_eq_iff hle).mpr hstart⟩
  · have hsome : ¬ shownTable .month now none db = .samples := by simp [h]
    have hview : ¬ ∀ x : Sample, ¬ (x ∈ (db.table (shownTable .month now none db)).rows ∧
        InYear now x.1.ts) := by
      intro hall
      refine hsome ((shownTable_month now db).mpr (fun x hx hy => hall x ⟨?_, hy⟩))
      rwa [h]
    rw [or_iff_right hview, or_iff_left (fun hs => hsome hs.1), h]
    refine exists_congr (fun x => ?_)
    constructor
    · rintro ⟨⟨hx, -⟩, hts⟩
      exact ⟨hx, hts⟩
    · rintro ⟨hx, hts⟩
      exact ⟨⟨hx, hts ▸ hnow⟩, hts⟩

/-- In every state the daemon reaches, the month entry is absent or about this
month exactly when the month is covered. -/
theorem month_entry_iff (cfg : Config) (es : List Event) (now : ℤ) (installed hasToday : Bool)
    (status : Option StatusJson) (apps : Option TopAppsJson)
    (civil : String → Option Gregorian.Date) :
    let db := (es.foldl (step cfg .utc) State.init).db
    (∀ row ∈ (buildModel installed .utc now
        (fetchAll status apps hasToday civil .utc now (some db))).month,
      row.ts = floorMonth .utc now) ↔ MonthCovered now db := by
  intro db
  have hle := showRows_month_le now (monthly_run cfg es)
  have hasc := ascending_of_pairs (pairs_showRows .utc .month now none db)
  have hlast : (buildModel installed .utc now
      (fetchAll status apps hasToday civil .utc now (some db))).month =
      (showRows .utc .month now none db).getLast?.map (Row.json .utc .month) :=
    List.getLast?_map
  rw [hlast, ← showRows_month_iff, ← getLast_ts_iff hasc hle]
  simp [Row.json]

/-- The first hour of February, not rolled up yet: the entry is January's row. -/
theorem not_month_entry :
    ¬ ∀ (cfg : Config) (es : List Event) (now : WallClock) (installed hasToday : Bool)
      (status : Option StatusJson) (apps : Option TopAppsJson)
      (civil : String → Option Gregorian.Date),
      let db := (es.foldl (step cfg .utc) State.init).db
      ∀ row ∈ (buildModel installed .utc now.secs
          (fetchAll status apps hasToday civil .utc now.secs (some db))).month,
        row.ts = floorMonth .utc now.secs := by
  intro h
  have hd := h dayBudget (dayRun ++ [.tick (rxReading 1801440600 1400)]) (.at 1801440605) true true
    none none (fun _ => none)
  exact absurd hd (by decide +kernel)

end Netmeter
