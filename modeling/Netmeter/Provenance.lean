import Netmeter.Export
set_option autoImplicit false

/-!
Where the rows of `show` come from: the table it reads, the rows of it in the
view, and the bucket each of them is counted in.
-/

namespace Netmeter
open Keyed

def cmdShow (civil : String → Option Gregorian.Date) (tz : TimeZone) (period : Period)
    (start : Option String) (now : ℤ) (iface : Option String) (db : Db) :
    Except DateError (List Row) :=
  match start with
  | none => .ok (showRows tz period now iface db)
  | some s => (parseDate civil tz s).map (fun last => showRows tz period last iface db)

def inView (period : Period) (last : ℤ) (iface : Option String) (k : Key) : Bool :=
  last - period.span ≤ k.ts && k.ts < last + 1 && matchesIface iface k

/-- The rollup table of the period when it has a row in the view, else the samples. -/
def shownTable (period : Period) (last : ℤ) (iface : Option String) (db : Db) : Source :=
  if (db.level period.level).rows.any (fun x => inView period last iface x.1)
  then .rollup period.level else .samples

def shownInput (period : Period) (last : ℤ) (iface : Option String) (db : Db) : List Sample :=
  (db.table (shownTable period last iface db)).rows.filter (fun x => inView period last iface x.1)

def bucketStart (tz : TimeZone) (period : Period) : Source → ℤ → ℤ
  | .samples, ts => period.sampleFloor tz ts
  | .rollup _, ts => ts

/-- The start of the printed row a bucket is counted in: its week in the week view. -/
def shownStart (tz : TimeZone) (period : Period) (src : Source) (ts : ℤ) : ℤ :=
  if period = .week then floorWeek tz (bucketStart tz period src ts)
  else bucketStart tz period src ts

theorem ascending_of_pairs {rows : List Row} {t : Table ℤ Counts} (h : pairs rows = t.rows) :
    rows.Pairwise (fun a b => a.ts < b.ts) := by
  have hsorted := t.sorted
  rw [← h, pairs, List.pairwise_map] at hsorted
  exact hsorted

theorem bucketRows_ascending (floor : ℤ → ℤ) (rows : List Row) :
    (bucketRows floor rows).Pairwise (fun a b => a.ts < b.ts) :=
  ascending_of_pairs (pairs_bucketRows floor rows)

theorem pairs_eq_group {rows : List Row} (hasc : rows.Pairwise (fun a b => a.ts < b.ts))
    {items : List (ℤ × Counts)}
    (h : ∀ t, total (fun t' => t' = t) (pairs rows) = total (fun t' => t' = t) items) :
    pairs rows = (Table.group items).rows := by
  have ht : (⟨pairs rows, List.pairwise_map.mpr hasc⟩ : Table ℤ Counts) = Table.group items :=
    Table.ext_cell (fun t => by rw [← Table.total_key, Table.cell_group]; exact h t)
  exact congrArg Table.rows ht

theorem total_shown (tz : TimeZone) (period : Period) (last : ℤ) (iface : Option String) (db : Db)
    (src : Source) (t : ℤ) :
    total (fun t' => t' = t) (((db.table src).rows.filter
        (fun x => inView period last iface x.1)).map
          (fun x => (shownStart tz period src x.1.ts, x.2))) =
      total (fun t' => shownStart tz period src t' = t)
        (pairs (queryRange db src (last - period.span) (last + 1) iface)) := by
  rw [total_rekey (fun k : Key => shownStart tz period src k.ts),
    total_filter (fun k : Key => decide (shownStart tz period src k.ts = t))
      (fun k => inView period last iface k), total_queryRange]
  exact total_congr (fun x _ => by simp [inView, Bool.and_assoc])

theorem eq_nil_iff_total (rows : List Row) :
    rows = [] ↔ total (fun _ => true) (pairs rows) = 0 := by
  rw [total_eq_zero]
  cases rows with
  | nil => simp [pairs]
  | cons r rows => exact iff_of_false (by simp) (fun h => by simpa using h _ List.mem_cons_self)

theorem queryRange_eq_nil (db : Db) (src : Source) (period : Period) (last : ℤ)
    (iface : Option String) :
    queryRange db src (last - period.span) (last + 1) iface = [] ↔
      ∀ x ∈ (db.table src).rows, inView period last iface x.1 = false := by
  rw [eq_nil_iff_total, total_queryRange, total_eq_zero]
  refine forall_congr' (fun x => imp_congr_right (fun _ => ?_))
  simp [inView, Bool.and_assoc]

theorem bucketRows_eq_nil {floor : ℤ → ℤ} {rows : List Row} :
    bucketRows floor rows = [] ↔ rows = [] := by
  rw [eq_nil_iff_total, total_bucketRows, ← eq_nil_iff_total]

theorem rolledRows_eq_nil (tz : TimeZone) (period : Period) (last : ℤ) (iface : Option String)
    (db : Db) : rolledRows tz period (last - period.span) (last + 1) iface db = [] ↔
      shownTable period last iface db = .samples := by
  have hrows : rolledRows tz period (last - period.span) (last + 1) iface db = [] ↔
      queryRange db (.rollup period.level) (last - period.span) (last + 1) iface = [] := by
    unfold rolledRows
    split
    · exact bucketRows_eq_nil
    · rfl
  rw [hrows, queryRange_eq_nil]
  unfold shownTable
  change (∀ x ∈ (db.level period.level).rows, _) ↔ _
  by_cases h : (db.level period.level).rows.any (fun x => inView period last iface x.1)
  · rw [if_pos h]
    obtain ⟨x, hx, hp⟩ := List.any_eq_true.mp h
    exact iff_of_false (fun hall => by simp [hall x hx] at hp) (by simp)
  · rw [if_neg h]
    refine iff_of_true (fun x hx => ?_) rfl
    exact Bool.eq_false_iff.mpr (fun hp => h (List.any_eq_true.mpr ⟨x, hx, hp⟩))

theorem shownTable_or (period : Period) (last : ℤ) (iface : Option String) (db : Db) :
    shownTable period last iface db = .samples ∨
      shownTable period last iface db = .rollup period.level := by
  unfold shownTable
  split
  · exact .inr rfl
  · exact .inl rfl

/-- What `show` prints are the sums, bucket by bucket, of the rows in its view. -/
theorem pairs_showRows (tz : TimeZone) (period : Period) (last : ℤ) (iface : Option String)
    (db : Db) :
    pairs (showRows tz period last iface db) =
      (Table.group ((shownInput period last iface db).map (fun x =>
        (shownStart tz period (shownTable period last iface db) x.1.ts, x.2)))).rows := by
  have hrolled := rolledRows_eq_nil tz period last iface db
  unfold showRows shownInput
  dsimp only
  rcases shownTable_or period last iface db with h | h
  · rw [hrolled.mpr h, h, List.isEmpty_nil, if_pos rfl]
    unfold bucketSamples
    dsimp only
    split
    · next hweek =>
      refine pairs_eq_group (bucketRows_ascending _ _) (fun t => ?_)
      rw [total_shown, total_bucketRows, total_bucketRows]
      simp only [shownStart, hweek, if_true, bucketStart]
    · next hweek =>
      refine pairs_eq_group (bucketRows_ascending _ _) (fun t => ?_)
      rw [total_shown, total_bucketRows]
      simp only [shownStart, hweek, if_false, bucketStart]
  · have hrows : rolledRows tz period (last - period.span) (last + 1) iface db ≠ [] := by
      rw [ne_eq, hrolled, h]
      simp
    rw [if_neg (by simpa [List.isEmpty_iff] using hrows), h]
    unfold rolledRows
    dsimp only
    split
    · next hweek =>
      refine pairs_eq_group (bucketRows_ascending _ _) (fun t => ?_)
      rw [total_shown, total_bucketRows]
      simp only [shownStart, hweek, if_true, bucketStart]
    · next hweek =>
      refine pairs_eq_group (queryRange_ascending _ _ _ _ _) (fun t => ?_)
      rw [total_shown]
      simp only [shownStart, hweek, if_false, bucketStart]

theorem exists_shown_iff (tz : TimeZone) (period : Period) (last : ℤ) (iface : Option String)
    (db : Db) (b : ℤ) : (∃ r ∈ showRows tz period last iface db, r.ts = b) ↔
      ∃ x ∈ shownInput period last iface db,
        shownStart tz period (shownTable period last iface db) x.1.ts = b := by
  have hpairs : total (fun t => t = b) (pairs (showRows tz period last iface db)) =
      total (fun k => shownStart tz period (shownTable period last iface db) k.ts = b)
        (shownInput period last iface db) := by
    rw [pairs_showRows, Table.total_group,
      total_rekey (fun k : Key => shownStart tz period (shownTable period last iface db) k.ts)]
  have hne := iff_of_eq (congrArg (· ≠ 0) hpairs)
  rw [total_ne_zero, total_ne_zero] at hne
  simpa [pairs] using hne

theorem showRows_nil_iff (tz : TimeZone) (period : Period) (last : ℤ) (iface : Option String)
    (db : Db) : showRows tz period last iface db = [] ↔ shownInput period last iface db = [] := by
  rw [List.eq_nil_iff_forall_not_mem, List.eq_nil_iff_forall_not_mem]
  constructor
  · intro h x hx
    obtain ⟨r, hr, -⟩ := (exists_shown_iff tz period last iface db _).mpr ⟨x, hx, rfl⟩
    exact h r hr
  · intro h r hr
    obtain ⟨x, hx, -⟩ := (exists_shown_iff tz period last iface db r.ts).mp ⟨r, hr, rfl⟩
    exact h x hx

end Netmeter
