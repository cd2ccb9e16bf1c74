import Mathlib
set_option autoImplicit false

/-!
Relational tables with a primary key, and additive aggregation over them.
A cell of an additive table lives in `WithZero M`: `0` is "no row", so that one
sum states both which rows exist and what they hold.
-/

namespace Keyed

section Totals
variable {κ ι M : Type}

section Semigroup
variable [AddCommSemigroup M]

/-- The sum of the values whose key satisfies `p`, or `0` when there is none. -/
def total (p : κ → Bool) (l : List (κ × M)) : WithZero M :=
  ((l.filter (fun r => p r.1)).map (fun r => (r.2 : WithZero M))).sum

@[simp] theorem total_nil (p : κ → Bool) : total p ([] : List (κ × M)) = 0 := rfl

@[simp] theorem total_cons (p : κ → Bool) (r : κ × M) (l : List (κ × M)) :
    total p (r :: l) = (if p r.1 then (r.2 : WithZero M) else 0) + total p l := by
  by_cases h : p r.1 <;> simp [total, h]

@[simp] theorem total_append (p : κ → Bool) (l l' : List (κ × M)) :
    total p (l ++ l') = total p l + total p l' := by
  simp [total]

theorem total_congr {p q : κ → Bool} {l : List (κ × M)} (h : ∀ r ∈ l, p r.1 = q r.1) :
    total p l = total q l := by
  induction l with
  | nil => rfl
  | cons r l ih =>
    rw [total_cons, total_cons, h r (by simp), ih (fun s hs => h s (by simp [hs]))]

theorem total_perm (p : κ → Bool) {l l' : List (κ × M)} (h : l.Perm l') :
    total p l = total p l' :=
  ((h.filter _).map _).sum_eq

theorem total_filter (p q : κ → Bool) (l : List (κ × M)) :
    total p (l.filter (fun r => q r.1)) = total (fun k => q k && p k) l := by
  induction l with
  | nil => rfl
  | cons r l ih => by_cases hq : q r.1 <;> simp [hq, ih]

theorem total_split (p q : κ → Bool) (l : List (κ × M)) :
    total p l = total (fun k => p k && q k) l + total (fun k => p k && !q k) l := by
  induction l with
  | nil => simp
  | cons r l ih =>
    rw [total_cons, total_cons, total_cons, ih]
    by_cases hp : p r.1 <;> by_cases hq : q r.1 <;> simp [hp, hq, add_assoc, add_left_comm]

theorem total_rekey (g : κ → ι) (p : ι → Bool) (l : List (κ × M)) :
    total p (l.map (fun r => (g r.1, r.2))) = total (fun k => p (g k)) l := by
  induction l with
  | nil => rfl
  | cons r l ih => simp [ih]

theorem coe_add_ne_zero (c : M) (d : WithZero M) : (c : WithZero M) + d ≠ 0 := by
  cases d with
  | zero => simp
  | coe d => rw [← WithZero.coe_add]; exact WithZero.coe_ne_zero

theorem total_false (l : List (κ × M)) : total (fun _ => false) l = 0 := by
  simp [total]

theorem total_labels [DecidableEq ι] (p : κ → Bool) (label : κ → ι) {names : List ι}
    (hn : names.Nodup) {l : List (κ × M)} (hl : ∀ r ∈ l, label r.1 ∈ names) :
    (names.map (fun n => total (fun k => p k && label k = n) l)).sum = total p l := by
  have hgroup : ∀ names : List ι, names.Nodup →
      (names.map (fun n => total (fun k => p k && label k = n) l)).sum =
        total (fun k => p k && decide (label k ∈ names)) l := by
    intro names hn
    induction names with
    | nil => simp [total_false]
    | cons n names ih =>
      obtain ⟨hnot, hn⟩ := List.nodup_cons.mp hn
      rw [List.map_cons, List.sum_cons, ih hn,
        total_split (fun k => p k && decide (label k ∈ n :: names)) (fun k => label k = n)]
      congr 1
      · refine total_congr (fun r _ => ?_)
        by_cases h : label r.1 = n <;> simp [h]
      · refine total_congr (fun r _ => ?_)
        by_cases h : label r.1 = n
        · simp [h, hnot]
        · simp [h]
  rw [hgroup names hn]
  exact total_congr (fun r hr => by simp [hl r hr])

theorem total_eq_zero {p : κ → Bool} {l : List (κ × M)} :
    total p l = 0 ↔ ∀ r ∈ l, p r.1 = false := by
  induction l with
  | nil => simp
  | cons r l ih =>
    by_cases hp : p r.1
    · simp [hp, coe_add_ne_zero]
    · simp [hp, ih]

theorem total_ne_zero {p : κ → Bool} {l : List (κ × M)} :
    total p l ≠ 0 ↔ ∃ r ∈ l, p r.1 = true := by
  rw [ne_eq, total_eq_zero]
  simp

theorem total_closed {Q : M → Prop} (hadd : ∀ a b, Q a → Q b → Q (a + b)) {p : κ → Bool}
    {l : List (κ × M)} (h : ∀ r ∈ l, p r.1 = true → Q r.2) {c : M}
    (hc : total p l = (c : WithZero M)) : Q c := by
  induction l generalizing c with
  | nil => exact absurd hc.symm WithZero.coe_ne_zero
  | cons r l ih =>
    have hl : ∀ s ∈ l, p s.1 = true → Q s.2 := fun s hs => h s (by simp [hs])
    by_cases hp : p r.1
    · have hr : Q r.2 := h r (by simp) hp
      cases ht : total p l with
      | zero =>
        simp [hp, ht] at hc
        exact hc ▸ hr
      | coe d =>
        simp only [total_cons, hp, if_true, ht, ← WithZero.coe_add, WithZero.coe_inj] at hc
        exact hc ▸ hadd _ _ hr (ih hl ht)
    · simp [hp] at hc
      exact ih hl hc

end Semigroup

section Value
variable [AddCommMonoid M]

/-- `COALESCE(SUM(..), 0)`: the value of a cell, `0` where there is none. -/
def value (c : WithZero M) : M := Option.getD c 0

@[simp] theorem value_zero : value (0 : WithZero M) = 0 := rfl

@[simp] theorem value_coe (c : M) : value (c : WithZero M) = c := rfl

@[simp] theorem value_add (c d : WithZero M) : value (c + d) = value c + value d := by
  cases c with
  | zero => simp
  | coe c =>
    cases d with
    | zero => simp
    | coe d => rw [← WithZero.coe_add]; rfl

theorem value_total (p : κ → Bool) (l : List (κ × M)) :
    value (total p l) = ((l.filter (fun r => p r.1)).map (·.2)).sum := by
  induction l with
  | nil => rfl
  | cons r l ih => by_cases hp : p r.1 <;> simp [hp, ih]

theorem map_value_total {N : Type} [AddCommMonoid N] (φ : M →+ N) (p : κ → Bool)
    (l : List (κ × M)) :
    φ (value (total p l)) = ((l.filter (fun r => p r.1)).map (fun r => φ r.2)).sum := by
  rw [value_total, map_list_sum, List.map_map]
  rfl

end Value
end Totals

/-- Rows in strictly ascending key order: a primary key, in index order. -/
@[ext] structure Table (κ ν : Type) [LinearOrder κ] where
  rows : List (κ × ν)
  sorted : rows.Pairwise (fun a b => a.1 < b.1)

variable {κ ι ν μ M : Type} [LinearOrder κ] [LinearOrder ι]

instance : EmptyCollection (Table κ ν) := ⟨⟨[], .nil⟩⟩

instance : Inhabited (Table κ ν) := ⟨∅⟩

instance [DecidableEq ν] : DecidableEq (Table κ ν) := fun t t' =>
  decidable_of_iff (t.rows = t'.rows) Table.ext_iff.symm

def lookupRows (k : κ) : List (κ × ν) → Option ν
  | [] => none
  | (k',v) :: rest => if k' = k then some v else lookupRows k rest

def upsertRows (k : κ) (ins : ν) (upd : ν → ν) : List (κ × ν) → List (κ × ν)
  | [] => [(k,ins)]
  | (k',v) :: rest =>
    if k < k' then (k,ins) :: (k',v) :: rest
    else if k = k' then (k',upd v) :: rest
    else (k',v) :: upsertRows k ins upd rest

theorem upsertRows_keys (k : κ) (ins : ν) (upd : ν → ν) (l : List (κ × ν)) (r : κ × ν)
    (h : r ∈ upsertRows k ins upd l) : r.1 = k ∨ ∃ s ∈ l, s.1 = r.1 := by
  induction l with
  | nil => simp [upsertRows] at h; simp [h]
  | cons a l ih =>
    unfold upsertRows at h
    split at h
    · rcases List.mem_cons.mp h with h | h
      · exact .inl (by rw [h])
      · exact .inr ⟨r, h, rfl⟩
    · split at h
      · next hk =>
        rcases List.mem_cons.mp h with h | h
        · exact .inl (by rw [h, hk])
        · exact .inr ⟨r, by simp [h], rfl⟩
      · rcases List.mem_cons.mp h with h | h
        · exact .inr ⟨a, by simp, by rw [h]⟩
        · rcases ih h with h | ⟨s, hs, he⟩
          · exact .inl h
          · exact .inr ⟨s, by simp [hs], he⟩

theorem upsertRows_sorted (k : κ) (ins : ν) (upd : ν → ν) (l : List (κ × ν))
    (h : l.Pairwise (fun a b => a.1 < b.1)) :
    (upsertRows k ins upd l).Pairwise (fun a b => a.1 < b.1) := by
  induction l with
  | nil => simp [upsertRows]
  | cons a l ih =>
    obtain ⟨ha, hl⟩ := List.pairwise_cons.mp h
    unfold upsertRows
    split
    · next hk =>
      refine List.pairwise_cons.mpr ⟨fun r hr => ?_, h⟩
      rcases List.mem_cons.mp hr with rfl | hr
      · exact hk
      · exact hk.trans (ha r hr)
    · next hk =>
      split
      · next he => exact List.pairwise_cons.mpr ⟨fun r hr => ha r hr, hl⟩
      · next he =>
        have hlt : a.1 < k := lt_of_le_of_ne (not_lt.mp hk) (Ne.symm he)
        refine List.pairwise_cons.mpr ⟨fun r hr => ?_, ih hl⟩
        rcases upsertRows_keys k ins upd l r hr with hr | ⟨s, hs, hr⟩
        · rw [hr]; exact hlt
        · rw [← hr]; exact ha s hs

namespace Table

def lookup (t : Table κ ν) (k : κ) : Option ν := lookupRows k t.rows

/-- `INSERT .. ON CONFLICT(key) DO UPDATE`. -/
def upsert (t : Table κ ν) (k : κ) (ins : ν) (upd : ν → ν) : Table κ ν :=
  ⟨upsertRows k ins upd t.rows, upsertRows_sorted k ins upd t.rows t.sorted⟩

def set (t : Table κ ν) (k : κ) (v : ν) : Table κ ν := t.upsert k v (fun _ => v)

/-- `DELETE FROM t WHERE NOT keep`. -/
def filter (t : Table κ ν) (keep : κ → Bool) : Table κ ν :=
  ⟨t.rows.filter (fun r => keep r.1), t.sorted.filter _⟩

def mapVal (t : Table κ ν) (f : ν → μ) : Table κ μ :=
  ⟨t.rows.map (fun r => (r.1, f r.2)), List.pairwise_map.mpr t.sorted⟩

def filterMapVal (t : Table κ ν) (f : κ → ν → Option μ) : Table κ μ where
  rows := t.rows.filterMap (fun r => (f r.1 r.2).map (fun w => (r.1,w)))
  sorted := by
    refine List.Pairwise.filterMap _ (fun a b hab x hx y hy => ?_) t.sorted
    obtain ⟨-, -, rfl⟩ := Option.map_eq_some_iff.mp hx
    obtain ⟨-, -, rfl⟩ := Option.map_eq_some_iff.mp hy
    exact hab

@[simp] theorem rows_empty : (∅ : Table κ ν).rows = [] := rfl

@[simp] theorem rows_filter (t : Table κ ν) (keep : κ → Bool) :
    (t.filter keep).rows = t.rows.filter (fun r => keep r.1) := rfl

@[simp] theorem rows_mapVal (t : Table κ ν) (f : ν → μ) :
    (t.mapVal f).rows = t.rows.map (fun r => (r.1, f r.2)) := rfl

end Table

theorem lookupRows_eq_none {k : κ} {l : List (κ × ν)} (h : ∀ r ∈ l, r.1 ≠ k) :
    lookupRows k l = none := by
  induction l with
  | nil => rfl
  | cons a l ih =>
    have ha : a.1 ≠ k := h a (by simp)
    simp only [lookupRows, ha, if_false]
    exact ih (fun r hr => h r (by simp [hr]))

theorem mem_iff_lookupRows {k : κ} {v : ν} {l : List (κ × ν)}
    (h : l.Pairwise (fun a b => a.1 < b.1)) : (k,v) ∈ l ↔ lookupRows k l = some v := by
  induction l with
  | nil => simp [lookupRows]
  | cons a l ih =>
    obtain ⟨k',v'⟩ := a
    obtain ⟨ha, hl⟩ := List.pairwise_cons.mp h
    by_cases hk : k' = k
    · subst hk
      have hnot : ∀ w, (k',w) ∉ l := fun w hm => lt_irrefl k' (ha (k',w) hm)
      simp [lookupRows, hnot, eq_comm]
    · have hk' : k ≠ k' := fun e => hk e.symm
      simp [lookupRows, hk, hk', ih hl]

theorem lookupRows_upsertRows (k k' : κ) (ins : ν) (upd : ν → ν) (l : List (κ × ν))
    (h : l.Pairwise (fun a b => a.1 < b.1)) :
    lookupRows k' (upsertRows k ins upd l) =
      if k' = k then some (((lookupRows k l).map upd).getD ins) else lookupRows k' l := by
  induction l with
  | nil => by_cases hk : k' = k <;> simp [upsertRows, lookupRows, hk, Ne.symm]
  | cons a l ih =>
    obtain ⟨j,v⟩ := a
    obtain ⟨ha, hl⟩ := List.pairwise_cons.mp h
    by_cases hlt : k < j
    · -- the key is absent: every later row is above it
      have hnone : lookupRows k l = none :=
        lookupRows_eq_none (fun r hr => ne_of_gt (hlt.trans (ha r hr)))
      have hne : j ≠ k := ne_of_gt hlt
      by_cases hk : k' = k
      · subst hk
        simp [upsertRows, lookupRows, hlt, hne, hnone]
      · have hk' : k ≠ k' := fun e => hk e.symm
        simp [upsertRows, lookupRows, hlt, hk, hk']
    · by_cases he : k = j
      · subst he
        by_cases hk : k' = k
        · subst hk
          simp [upsertRows, lookupRows]
        · have hk' : k ≠ k' := fun e => hk e.symm
          simp [upsertRows, lookupRows, hk, hk']
      · have hj : j ≠ k := fun e => he e.symm
        by_cases hk : k' = k
        · subst hk
          simp [upsertRows, lookupRows, hlt, he, hj, ih hl]
        · by_cases hjk : j = k'
          · subst hjk
            simp [upsertRows, lookupRows, hlt, he, hj]
          · simp [upsertRows, lookupRows, hlt, he, hk, hjk, ih hl]

theorem upsertRows_perm {k : κ} {v : ν} {upd : ν → ν} {l : List (κ × ν)}
    (h : ∀ r ∈ l, r.1 ≠ k) : (upsertRows k v upd l).Perm ((k,v) :: l) := by
  induction l with
  | nil => exact List.Perm.refl _
  | cons a l ih =>
    have ha : k ≠ a.1 := Ne.symm (h a (by simp))
    unfold upsertRows
    split
    · exact List.Perm.refl _
    · exact ((ih (fun r hr => h r (by simp [hr]))).cons a).trans (List.Perm.swap _ _ _)

namespace Table

theorem mem_rows {t : Table κ ν} {k : κ} {v : ν} :
    (k,v) ∈ t.rows ↔ t.lookup k = some v := mem_iff_lookupRows t.sorted

@[simp] theorem lookup_empty (k : κ) : (∅ : Table κ ν).lookup k = none := rfl

theorem lookup_upsert (t : Table κ ν) (k k' : κ) (ins : ν) (upd : ν → ν) :
    (t.upsert k ins upd).lookup k' =
      if k' = k then some (((t.lookup k).map upd).getD ins) else t.lookup k' :=
  lookupRows_upsertRows k k' ins upd t.rows t.sorted

theorem lookup_set (t : Table κ ν) (k k' : κ) (v : ν) :
    (t.set k v).lookup k' = if k' = k then some v else t.lookup k' := by
  rw [set, lookup_upsert]
  cases t.lookup k <;> rfl

theorem lookup_filter (t : Table κ ν) (keep : κ → Bool) (k : κ) :
    (t.filter keep).lookup k = if keep k then t.lookup k else none := by
  ext v
  rw [← mem_rows, rows_filter, List.mem_filter, mem_rows]
  by_cases hk : keep k <;> simp [hk]

theorem lookup_mapVal (t : Table κ ν) (f : ν → μ) (k : κ) :
    (t.mapVal f).lookup k = (t.lookup k).map f := by
  ext v
  rw [← mem_rows, rows_mapVal, List.mem_map]
  constructor
  · rintro ⟨⟨k',w⟩, hm, he⟩
    obtain ⟨rfl, rfl⟩ := Prod.mk.inj he
    simp [mem_rows.mp hm]
  · intro h
    obtain ⟨w, hw, rfl⟩ := Option.map_eq_some_iff.mp h
    exact ⟨(k,w), mem_rows.mpr hw, rfl⟩

theorem lookup_filterMapVal (t : Table κ ν) (f : κ → ν → Option μ) (k : κ) :
    (t.filterMapVal f).lookup k = (t.lookup k).bind (f k) := by
  ext w
  rw [← mem_rows]
  constructor
  · intro h
    obtain ⟨⟨k',v⟩, hm, he⟩ := List.mem_filterMap.mp h
    obtain ⟨w', hw, he'⟩ := Option.map_eq_some_iff.mp he
    obtain ⟨rfl, rfl⟩ := Prod.mk.inj he'
    simp [mem_rows.mp hm, hw]
  · intro h
    obtain ⟨v, hv, hw⟩ := Option.bind_eq_some_iff.mp h
    exact List.mem_filterMap.mpr ⟨(k,v), mem_rows.mpr hv, by simp [hw]⟩

theorem mem_upsert {t : Table κ ν} {k : κ} {ins : ν} {upd : ν → ν} {r : κ × ν}
    (h : r ∈ (t.upsert k ins upd).rows) :
    r = (k,ins) ∨ (∃ v, (k,v) ∈ t.rows ∧ r = (k, upd v)) ∨ r ∈ t.rows := by
  obtain ⟨k',v⟩ := r
  rw [mem_rows, lookup_upsert] at h
  split at h
  · next hk =>
    subst hk
    cases hl : t.lookup k' with
    | none => exact .inl (by simpa [hl, eq_comm] using h)
    | some w => exact .inr (.inl ⟨w, mem_rows.mpr hl, by simpa [hl, eq_comm] using h⟩)
  · exact .inr (.inr (mem_rows.mpr h))

theorem keys_nodup (t : Table κ ν) : (t.rows.map (·.1)).Nodup :=
  (List.pairwise_map.mpr t.sorted).imp (fun h => h.ne)

theorem nodup (t : Table κ ν) : t.rows.Nodup :=
  t.sorted.imp (fun h e => by rw [e] at h; exact lt_irrefl _ h)

theorem ext_lookup {t t' : Table κ ν} (h : ∀ k, t.lookup k = t'.lookup k) : t = t' := by
  apply Table.ext
  have hp : t.rows.Perm t'.rows := by
    refine (List.perm_ext_iff_of_nodup t.nodup t'.nodup).mpr (fun r => ?_)
    obtain ⟨k,v⟩ := r
    rw [mem_rows, mem_rows, h]
  refine hp.eq_of_pairwise (fun a b _ _ hab hba => ?_) t.sorted t'.sorted
  exact absurd (hab.trans hba) (lt_irrefl _)

theorem mapVal_upsert (t : Table κ ν) (k : κ) (ins : ν) (upd : ν → ν) (f : ν → μ)
    (upd' : μ → μ) (h : ∀ v, f (upd v) = upd' (f v)) :
    (t.upsert k ins upd).mapVal f = (t.mapVal f).upsert k (f ins) upd' := by
  apply ext_lookup
  intro k'
  rw [lookup_mapVal, lookup_upsert, lookup_upsert, lookup_mapVal, lookup_mapVal]
  split
  · cases t.lookup k <;> simp [h]
  · rfl

def setAll (t : Table κ ν) (items : List (κ × ν)) : Table κ ν :=
  items.foldl (fun t r => t.set r.1 r.2) t

@[simp] theorem setAll_nil (t : Table κ ν) : t.setAll [] = t := rfl

@[simp] theorem setAll_cons (t : Table κ ν) (r : κ × ν) (items : List (κ × ν)) :
    t.setAll (r :: items) = (t.set r.1 r.2).setAll items := rfl

theorem mem_setAll {t : Table κ ν} {items : List (κ × ν)} {r : κ × ν}
    (h : r ∈ (t.setAll items).rows) : r ∈ t.rows ∨ r ∈ items := by
  induction items generalizing t with
  | nil => exact .inl h
  | cons a items ih =>
    rcases ih h with h | h
    · rcases mem_upsert h with rfl | ⟨v, -, rfl⟩ | h
      · exact .inr List.mem_cons_self
      · exact .inr List.mem_cons_self
      · exact .inl h
    · exact .inr (List.mem_cons_of_mem _ h)

def lastValue (k : κ) (items : List (κ × ν)) : Option ν :=
  ((items.filter (fun r => r.1 = k)).getLast?).map (·.2)

@[simp] theorem lastValue_nil (k : κ) : lastValue k ([] : List (κ × ν)) = none := rfl

theorem lastValue_append (k : κ) (l l' : List (κ × ν)) :
    lastValue k (l ++ l') = (lastValue k l').or (lastValue k l) := by
  unfold lastValue
  rw [List.filter_append, List.getLast?_append]
  cases (l'.filter (fun r => r.1 = k)).getLast? <;> rfl

theorem lastValue_singleton (k : κ) (r : κ × ν) :
    lastValue k [r] = if k = r.1 then some r.2 else none := by
  by_cases h : k = r.1 <;> simp [lastValue, h, Ne.symm]

/-- Upserts of whole rows: the last one of a key wins. -/
theorem lookup_setAll (t : Table κ ν) (items : List (κ × ν)) (k : κ) :
    (t.setAll items).lookup k = (lastValue k items).or (t.lookup k) := by
  induction items generalizing t with
  | nil => rfl
  | cons r items ih =>
    rw [setAll_cons, ih, lookup_set, show r :: items = [r] ++ items from rfl, lastValue_append,
      lastValue_singleton, Option.or_assoc]
    by_cases h : k = r.1 <;> simp [h]

theorem lastValue_eq_none {k : κ} {items : List (κ × ν)} (h : ∀ r ∈ items, r.1 ≠ k) :
    lastValue k items = none := by
  unfold lastValue
  rw [List.filter_eq_nil_iff.mpr (by simpa using h)]
  rfl

theorem mem_of_lastValue {k : κ} {v : ν} {items : List (κ × ν)}
    (h : lastValue k items = some v) : (k,v) ∈ items := by
  obtain ⟨r, hr, rfl⟩ := Option.map_eq_some_iff.mp h
  have hmem := List.mem_filter.mp (List.mem_of_getLast? hr)
  rw [← of_decide_eq_true hmem.2]
  exact hmem.1

theorem lastValue_rekey {g : ι → κ} (hg : Function.Injective g) (i : ι) (l : List (ι × ν)) :
    lastValue (g i) (l.map (fun r => (g r.1, r.2))) = lastValue i l := by
  unfold lastValue
  rw [List.filter_map, List.getLast?_map, Option.map_map]
  simp only [Function.comp_def, hg.eq_iff]

theorem lastValue_rows (t : Table κ ν) (k : κ) : lastValue k t.rows = t.lookup k := by
  obtain ⟨l, hl⟩ := t
  show lastValue k l = lookupRows k l
  induction l with
  | nil => rfl
  | cons a l ih =>
    obtain ⟨ha, hs⟩ := List.pairwise_cons.mp hl
    rw [show a :: l = [a] ++ l from rfl, lastValue_append, lastValue_singleton, ih hs]
    by_cases hk : k = a.1
    · have hnone : lookupRows k l = none :=
        lookupRows_eq_none (fun r hr => hk ▸ ne_of_gt (ha r hr))
      simp [lookupRows, hk, hk ▸ hnone]
    · have hk' : a.1 ≠ k := fun e => hk e.symm
      simp [lookupRows, hk, hk']

theorem setAll_perm {t : Table κ ν} {items : List (κ × ν)} (hkeys : (items.map (·.1)).Nodup)
    (hfresh : ∀ r ∈ t.rows, ∀ x ∈ items, r.1 ≠ x.1) :
    (t.setAll items).rows.Perm (t.rows ++ items) := by
  induction items generalizing t with
  | nil => simp
  | cons x items ih =>
    obtain ⟨hx, hitems⟩ := List.nodup_cons.mp hkeys
    have hset : (t.set x.1 x.2).rows.Perm (x :: t.rows) :=
      upsertRows_perm (fun r hr => hfresh r hr x (by simp))
    have hrest := ih (t := t.set x.1 x.2) hitems (fun r hr y hy e => by
      rcases List.mem_cons.mp (hset.mem_iff.mp hr) with rfl | hr
      · exact hx (List.mem_map.mpr ⟨y, hy, e.symm⟩)
      · exact hfresh r hr y (by simp [hy]) e)
    refine hrest.trans ((hset.append_right _).trans ?_)
    exact List.perm_middle.symm

end Table

namespace Table

/-- The cell of an additive table: `0` when the row does not exist. -/
def cell (t : Table κ M) (k : κ) : WithZero M := t.lookup k

@[simp] theorem cell_empty (k : κ) : (∅ : Table κ M).cell k = 0 := rfl

theorem cell_eq_coe {t : Table κ M} {k : κ} {c : M} :
    t.cell k = (c : WithZero M) ↔ (k,c) ∈ t.rows := mem_rows.symm

theorem ext_cell {t t' : Table κ M} (h : ∀ k, t.cell k = t'.cell k) : t = t' := ext_lookup h

theorem cell_filter (t : Table κ M) (keep : κ → Bool) (k : κ) :
    (t.filter keep).cell k = if keep k then t.cell k else 0 := by
  unfold cell
  rw [lookup_filter]
  rfl

section Additive
variable [AddCommSemigroup M]

/-- The accumulating upsert `SET v = v + excluded.v`. -/
def add (t : Table κ M) (k : κ) (c : M) : Table κ M := t.upsert k c (fun v => v + c)

def addAll (t : Table κ M) (items : List (κ × M)) : Table κ M :=
  items.foldl (fun t r => t.add r.1 r.2) t

/-- `SELECT key, SUM(..) .. GROUP BY key ORDER BY key`. -/
def group (items : List (κ × M)) : Table κ M := addAll ∅ items

theorem total_key (t : Table κ M) (k : κ) : total (fun k' => k' = k) t.rows = t.cell k := by
  obtain ⟨l, hl⟩ := t
  show total (fun k' => k' = k) l = lookupRows k l
  induction l with
  | nil => rfl
  | cons a l ih =>
    obtain ⟨ha, hs⟩ := List.pairwise_cons.mp hl
    by_cases hk : a.1 = k
    · subst hk
      have hz : total (fun k' => k' = a.1) l = 0 :=
        total_eq_zero.mpr (fun r hr => decide_eq_false (ne_of_gt (ha r hr)))
      rw [total_cons, hz]
      simp [lookupRows]
      rfl
    · rw [total_cons, ih hs, lookupRows, if_neg hk, if_neg (by simpa using hk)]
      exact zero_add (M := WithZero M) (lookupRows k l)

theorem total_upsertRows (p : κ → Bool) (k : κ) (c : M) (l : List (κ × M)) :
    total p (upsertRows k c (fun v => v + c) l) =
      total p l + if p k then (c : WithZero M) else 0 := by
  induction l with
  | nil => simp [upsertRows]
  | cons a l ih =>
    obtain ⟨j,v⟩ := a
    by_cases hlt : k < j
    · simp [upsertRows, hlt, add_comm]
    · by_cases he : k = j
      · subst he
        by_cases hp : p k <;> simp [upsertRows, hp, add_right_comm]
      · simp [upsertRows, hlt, he, ih, add_assoc]

theorem total_upsert_of_not {p : κ → Bool} {k : κ} (hp : p k = false) (t : Table κ M) (ins : M)
    (upd : M → M) : total p (t.upsert k ins upd).rows = total p t.rows := by
  show total p (upsertRows k ins upd t.rows) = _
  induction t.rows with
  | nil => simp [upsertRows, hp]
  | cons a l ih =>
    obtain ⟨j,v⟩ := a
    by_cases hlt : k < j
    · simp [upsertRows, hlt, hp]
    · by_cases he : k = j
      · subst he
        simp [upsertRows, hp]
      · simp [upsertRows, hlt, he, ih]

theorem total_setAll_of_not {p : κ → Bool} {items : List (κ × M)}
    (hp : ∀ r ∈ items, p r.1 = false) (t : Table κ M) :
    total p (t.setAll items).rows = total p t.rows := by
  induction items generalizing t with
  | nil => rfl
  | cons r items ih =>
    rw [setAll_cons, ih (fun x hx => hp x (List.mem_cons_of_mem _ hx))]
    exact total_upsert_of_not (hp r List.mem_cons_self) t r.2 _

@[simp] theorem total_add (t : Table κ M) (p : κ → Bool) (k : κ) (c : M) :
    total p (t.add k c).rows = total p t.rows + if p k then (c : WithZero M) else 0 :=
  total_upsertRows p k c t.rows

@[simp] theorem addAll_nil (t : Table κ M) : t.addAll [] = t := rfl

@[simp] theorem addAll_cons (t : Table κ M) (r : κ × M) (items : List (κ × M)) :
    t.addAll (r :: items) = (t.add r.1 r.2).addAll items := rfl

theorem addAll_append (t : Table κ M) (items items' : List (κ × M)) :
    t.addAll (items ++ items') = (t.addAll items).addAll items' := by
  simp [addAll, List.foldl_append]

@[simp] theorem total_addAll (t : Table κ M) (p : κ → Bool) (items : List (κ × M)) :
    total p (t.addAll items).rows = total p t.rows + total p items := by
  induction items generalizing t with
  | nil => simp
  | cons r items ih => simp [ih, add_assoc]

@[simp] theorem total_group (p : κ → Bool) (items : List (κ × M)) :
    total p (group items).rows = total p items := by
  simp [group]

theorem cell_addAll (t : Table κ M) (items : List (κ × M)) (k : κ) :
    (t.addAll items).cell k = t.cell k + total (fun k' => k' = k) items := by
  rw [← total_key, total_addAll, total_key]

theorem cell_group (items : List (κ × M)) (k : κ) :
    (group items).cell k = total (fun k' => k' = k) items := by
  simp [group, cell_addAll]

theorem exists_of_mem_addAll {t : Table κ M} {items : List (κ × M)} {x : κ × M}
    (hx : x ∈ (t.addAll items).rows) : ∃ y ∈ t.rows ++ items, y.1 = x.1 := by
  have hne : total (fun k => k = x.1) (t.addAll items).rows ≠ 0 :=
    total_ne_zero.mpr ⟨x, hx, decide_eq_true rfl⟩
  rw [total_addAll, ← total_append] at hne
  obtain ⟨y, hy, hkey⟩ := total_ne_zero.mp hne
  exact ⟨y, hy, of_decide_eq_true hkey⟩

/-- Folding a scratch map into a table adds what was folded into the map. -/
theorem addAll_group (t : Table κ M) (items : List (κ × M)) :
    t.addAll (group items).rows = t.addAll items :=
  ext_cell (fun k => by rw [cell_addAll, cell_addAll, total_group])

theorem addAll_eq_iff (t t' : Table κ M) (l l' : List (κ × M)) :
    t.addAll l = t'.addAll l' ↔ ∀ k, t.cell k + total (fun k' => k' = k) l =
      t'.cell k + total (fun k' => k' = k) l' := by
  constructor
  · intro h k
    rw [← cell_addAll, ← cell_addAll, h]
  · intro h
    exact ext_cell (fun k => by rw [cell_addAll, cell_addAll, h])

end Additive

section Weight
variable {W : Type} [AddCommMonoid W]

def weigh (w : ν → W) (t : Table κ ν) : W := (t.rows.map (fun r => w r.2)).sum

@[simp] theorem weigh_empty (w : ν → W) : weigh w (∅ : Table κ ν) = 0 := rfl

theorem weigh_upsert {w : ν → W} {d : W} {ins : ν} {upd : ν → ν} (hins : w ins = d)
    (hupd : ∀ v, w (upd v) = w v + d) (t : Table κ ν) (k : κ) :
    weigh w (t.upsert k ins upd) = weigh w t + d := by
  show ((upsertRows k ins upd t.rows).map _).sum = (t.rows.map _).sum + d
  induction t.rows with
  | nil => simp [upsertRows, hins]
  | cons a l ih =>
    obtain ⟨j,v⟩ := a
    by_cases hlt : k < j
    · simp [upsertRows, hlt, hins, add_comm]
    · by_cases he : k = j
      · simp [upsertRows, he, hupd, add_right_comm]
      · simp [upsertRows, hlt, he, ih, add_assoc]

theorem weigh_addAll [AddCommSemigroup M] {w : M → W} (hw : ∀ a b, w (a + b) = w a + w b)
    (t : Table κ M) (items : List (κ × M)) :
    weigh w (t.addAll items) = weigh w t + (items.map (fun r => w r.2)).sum := by
  induction items generalizing t with
  | nil => simp
  | cons r items ih =>
    have hadd : weigh w (t.add r.1 r.2) = weigh w t + w r.2 :=
      weigh_upsert rfl (fun v => hw v r.2) t r.1
    rw [addAll_cons, ih, hadd, List.map_cons, List.sum_cons, add_assoc]

end Weight

theorem value_cell [AddCommMonoid M] (t : Table κ M) (k : κ) :
    value (t.cell k) = (t.lookup k).getD 0 := rfl

end Table
end Keyed
