import Netmeter.Lib.Table
set_option autoImplicit false

/-!
A table that sums another one over coarser keys, kept so by adding the same items
to both and by dropping rows of the finer one.
-/

namespace Keyed

variable {κ ι M : Type} [LinearOrder κ] [AddCommMonoid M]

/-- Every cell of `coarse` that `p` picks sums the rows of `fine` that `h` sends to it. -/
def Regroups (h : κ → κ) (p : κ → Prop) (fine coarse : Table κ M) : Prop :=
  ∀ k, p k → coarse.cell k = total (fun k' => h k' = k) fine.rows

def rekeyed (f : ι → κ) (items : List (ι × M)) : List (κ × M) := items.map (fun r => (f r.1, r.2))

variable {h : κ → κ} {p : κ → Prop} {fine coarse : Table κ M}

theorem regroups_empty : Regroups h p (∅ : Table κ M) ∅ := fun _ _ => rfl

theorem Regroups.addAll (hsum : Regroups h p fine coarse) {f g : ι → κ}
    (hfg : ∀ i, h (f i) = g i) (items : List (ι × M)) :
    Regroups h p (fine.addAll (rekeyed f items)) (coarse.addAll (rekeyed g items)) := by
  intro k hk
  rw [Table.cell_addAll, Table.total_addAll, hsum k hk, rekeyed, rekeyed, total_rekey f,
    total_rekey g]
  simp only [hfg]

theorem Regroups.filter (hsum : Regroups h p fine coarse) {keep : κ → Bool}
    (hkeep : ∀ k, p (h k) → keep k = true) : Regroups h p (fine.filter keep) coarse := by
  intro k hk
  rw [hsum k hk, Table.rows_filter, total_filter]
  refine total_congr (fun r _ => ?_)
  by_cases hr : h r.1 = k
  · simp [hr, hkeep r.1 (hr ▸ hk)]
  · simp [hr]

end Keyed
