import Mathlib
set_option autoImplicit false

/-!
Rounding down onto a set of boundaries. `IsFloor S f` says that `f t` is the
greatest boundary at or below `t`; what follows rests on the Galois law
`s ≤ f t ↔ s ≤ t`.
-/

namespace Floor

variable {α : Type} [LinearOrder α]

structure IsFloor (S : Set α) (f : α → α) : Prop where
  mem : ∀ t, f t ∈ S
  le : ∀ t, f t ≤ t
  greatest : ∀ s ∈ S, ∀ t, s ≤ t → s ≤ f t

namespace IsFloor
variable {S S' : Set α} {f f' : α → α}

theorem le_iff (h : IsFloor S f) {s t : α} (hs : s ∈ S) : s ≤ f t ↔ s ≤ t :=
  ⟨fun hst => hst.trans (h.le t), h.greatest s hs t⟩

theorem mono (h : IsFloor S f) {s t : α} (hst : s ≤ t) : f s ≤ f t :=
  h.greatest _ (h.mem s) t ((h.le s).trans hst)

theorem fixed (h : IsFloor S f) {s : α} (hs : s ∈ S) : f s = s :=
  le_antisymm (h.le s) (h.greatest s hs s le_rfl)

theorem idem (h : IsFloor S f) (t : α) : f (f t) = f t := h.fixed (h.mem t)

/-- A floor onto fewer boundaries goes through the finer one. -/
theorem nest (h : IsFloor S f) (h' : IsFloor S' f') (hsub : S' ⊆ S) (t : α) :
    f' (f t) = f' t :=
  le_antisymm (h'.mono (h.le t))
    (h'.greatest _ (h'.mem t) _ (h.greatest _ (hsub (h'.mem t)) t (h'.le t)))

end IsFloor

theorem isFloor_multiples {w : ℤ} (hw : 0 < w) (c : ℤ) :
    IsFloor {s : ℤ | ∃ k, s = w * k + c} (fun t => t - (t - c) % w) where
  mem t := ⟨(t - c) / w, by have := Int.mul_ediv_add_emod (t - c) w; omega⟩
  le t := by have := Int.emod_nonneg (t - c) (by omega : w ≠ 0); omega
  greatest s hs t hst := by
    obtain ⟨k, rfl⟩ := hs
    have hle : k ≤ (t - c) / w := by
      rw [Int.le_ediv_iff_mul_le hw]
      linarith [mul_comm w k]
    have hmul : w * k ≤ w * ((t - c) / w) := mul_le_mul_of_nonneg_left hle hw.le
    have hdiv := Int.mul_ediv_add_emod (t - c) w
    omega

end Floor
