import Netmeter.Lib.Table
set_option autoImplicit false

/-!
Rows as part of what was written: an upsert keeps at most what it found and what it
brings, a filter splits the rows, and sums over a part stay below sums over the whole.
-/

namespace Keyed

section Tables
variable {κ ν : Type} [LinearOrder κ]

theorem upsertRows_subperm (k : κ) (v : ν) (l : List (κ × ν)) :
    (upsertRows k v (fun _ => v) l).Subperm ((k,v) :: l) := by
  induction l with
  | nil => exact List.Subperm.refl _
  | cons a l ih =>
    unfold upsertRows
    split
    · exact List.Subperm.refl _
    · split
      · next hk =>
        -- the old row gives way to the new one
        subst hk
        exact ((List.sublist_cons_self a l).cons_cons (a.1,v)).subperm
      · have hcons : (a :: upsertRows k v (fun _ => v) l).Subperm (a :: (k,v) :: l) :=
          (List.Subperm.refl [a]).append ih
        exact hcons.trans (List.Perm.swap (k,v) a l).subperm

namespace Table

theorem setAll_subperm (t : Table κ ν) (items : List (κ × ν)) :
    (t.setAll items).rows.Subperm (t.rows ++ items) := by
  induction items generalizing t with
  | nil =>
    rw [List.append_nil]
    exact List.Subperm.refl _
  | cons r items ih =>
    have hset : (t.set r.1 r.2).rows.Subperm (r :: t.rows) := upsertRows_subperm r.1 r.2 t.rows
    refine (ih (t.set r.1 r.2)).trans ((hset.append (List.Subperm.refl items)).trans ?_)
    exact List.perm_middle.symm.subperm

theorem setAll_empty_perm {l l' : List (κ × ν)} (hkeys : (l.map (·.1)).Nodup) (h : l.Perm l') :
    Table.setAll ∅ l = Table.setAll ∅ l' := by
  have hkeys' : (l'.map (·.1)).Nodup := (h.map _).nodup_iff.mp hkeys
  have hrows := Table.setAll_perm (t := ∅) hkeys (by simp)
  have hrows' := Table.setAll_perm (t := ∅) hkeys' (by simp)
  refine ext_lookup (fun k => ?_)
  ext v
  rw [← mem_rows, ← mem_rows, hrows.mem_iff, hrows'.mem_iff]
  exact h.mem_iff

theorem lookup_setAll_empty {l : List (κ × ν)} (hkeys : (l.map (·.1)).Nodup) {k : κ} {v : ν} :
    (Table.setAll ∅ l).lookup k = some v ↔ (k,v) ∈ l := by
  rw [← mem_rows, (Table.setAll_perm (t := ∅) hkeys (by simp)).mem_iff]
  simp

theorem lookup_setAll_fun [DecidableEq κ] (f : κ → ν) (keys : List κ) (k : κ) :
    (Table.setAll ∅ (keys.map (fun i => (i, f i)))).lookup k =
      if k ∈ keys then some (f k) else none := by
  have hgen : ∀ t : Table κ ν, (t.setAll (keys.map (fun i => (i, f i)))).lookup k =
      if k ∈ keys then some (f k) else t.lookup k := by
    induction keys with
    | nil => simp
    | cons i keys ih =>
      intro t
      rw [List.map_cons, setAll_cons, ih, lookup_set]
      by_cases hi : k = i
      · subst hi
        simp
      · simp [hi]
  exact hgen ∅

end Table
end Tables

section Parts
variable {α : Type}

/-- A part of the rows that meet `p`, beside the rows that do not. -/
theorem append_filter_subperm {p : α → Bool} {part l : List α} (hpart : part.Sublist l)
    (h : ∀ a ∈ part, p a = true) : (part ++ l.filter (fun a => !p a)).Subperm l := by
  have hfilter : part.filter p = part := List.filter_eq_self.mpr h
  have hsub : part.Sublist (l.filter p) := hfilter ▸ hpart.filter p
  exact (hsub.append (List.Sublist.refl _)).subperm.trans (List.filter_append_perm p l).subperm

variable {M : Type} [AddCommMonoid M] [PartialOrder M] [IsOrderedAddMonoid M]

theorem sum_map_le_of_subperm {w : α → M} {l l' : List α} (h : l.Subperm l')
    (hw : ∀ a ∈ l', 0 ≤ w a) : (l.map w).sum ≤ (l'.map w).sum := by
  obtain ⟨part, hperm, hsub⟩ := h
  rw [← (hperm.map w).sum_eq]
  refine (hsub.map w).sum_le_sum (fun x hx => ?_)
  obtain ⟨a, ha, rfl⟩ := List.mem_map.mp hx
  exact hw a ha

end Parts
end Keyed
