import Netmeter.Lib.Table
set_option autoImplicit false

/-! Tables filled by `entry(k).or_insert(v)`: the first value of a key stays. -/

namespace Keyed

variable {κ ν : Type} [LinearOrder κ]

def firstValue (k : κ) (items : List (κ × ν)) : Option ν :=
  (items.find? (fun r => r.1 = k)).map (·.2)

namespace Table

def keepAll (t : Table κ ν) (items : List (κ × ν)) : Table κ ν :=
  items.foldl (fun t r => t.upsert r.1 r.2 id) t

theorem keepAll_append (t : Table κ ν) (items items' : List (κ × ν)) :
    t.keepAll (items ++ items') = (t.keepAll items).keepAll items' := by
  simp [keepAll, List.foldl_append]

theorem lookup_keepAll (t : Table κ ν) (items : List (κ × ν)) (k : κ) :
    (t.keepAll items).lookup k = (t.lookup k).or (firstValue k items) := by
  induction items generalizing t with
  | nil => simp [keepAll, firstValue]
  | cons r items ih =>
    show ((t.upsert r.1 r.2 id).keepAll items).lookup k = _
    rw [ih, lookup_upsert]
    unfold firstValue
    by_cases h : r.1 = k
    · subst h
      cases t.lookup r.1 <;> simp
    · have h' : k ≠ r.1 := fun e => h e.symm
      simp [h, h']

end Table

theorem mem_of_firstValue {k : κ} {v : ν} {items : List (κ × ν)}
    (h : firstValue k items = some v) : (k,v) ∈ items := by
  obtain ⟨r, hr, rfl⟩ := Option.map_eq_some_iff.mp h
  have hk : r.1 = k := by simpa using List.find?_some hr
  exact hk ▸ List.mem_of_find?_eq_some hr

theorem firstValue_isSome {k : κ} {items : List (κ × ν)} :
    (firstValue k items).isSome ↔ ∃ r ∈ items, r.1 = k := by
  simp [firstValue]

end Keyed
