import Mathlib
set_option autoImplicit false

/-!
Numerals of a fixed width, most significant digit first: as lists they are ordered
as their numbers are.
-/

namespace FixedWidth

section Lex
variable {α β : Type} [LinearOrder α] [LinearOrder β]

/-- Behind prefixes of one length the order of two lists is that of the prefixes,
then that of what follows. -/
theorem append_lt_append {l l' : List α} (h : l.length = l'.length) (m m' : List α) :
    l ++ m < l' ++ m' ↔ l < l' ∨ l = l' ∧ m < m' := by
  induction l generalizing l' with
  | nil =>
    obtain rfl := List.length_eq_zero_iff.mp h.symm
    simp
  | cons a l ih =>
    cases l' with
    | nil => simp at h
    | cons b l' =>
      rw [List.cons_append, List.cons_append, List.cons_lt_cons_iff, List.cons_lt_cons_iff,
        ih (Nat.succ.inj h), List.cons.injEq]
      tauto

theorem map_lt_map {f : α → β} {l l' : List α}
    (hf : ∀ a ∈ l, ∀ b ∈ l', f a < f b ↔ a < b) (hinj : ∀ a ∈ l, ∀ b ∈ l', f a = f b ↔ a = b) :
    l.map f < l'.map f ↔ l < l' := by
  induction l generalizing l' with
  | nil => cases l' <;> simp
  | cons a l ih =>
    cases l' with
    | nil => simp
    | cons b l' =>
      have hrest := ih (fun x hx y hy => hf x (.tail _ hx) y (.tail _ hy))
        (fun x hx y hy => hinj x (.tail _ hx) y (.tail _ hy))
      rw [List.map_cons, List.map_cons, List.cons_lt_cons_iff, List.cons_lt_cons_iff, hrest,
        hf a (.head _) b (.head _), hinj a (.head _) b (.head _)]

end Lex

/-- The last `w` digits of `n` in base `b`. -/
def fixed (b : ℕ) : ℕ → ℕ → List ℕ
  | 0, _ => []
  | w + 1, n => n / b ^ w % b :: fixed b w n

variable {b w m n : ℕ}

@[simp] theorem length_fixed (b w n : ℕ) : (fixed b w n).length = w := by
  induction w with
  | zero => rfl
  | succ w ih => rw [fixed, List.length_cons, ih]

theorem lt_of_mem_fixed (hb : 0 < b) {d : ℕ} (h : d ∈ fixed b w n) : d < b := by
  induction w with
  | zero => simp [fixed] at h
  | succ w ih =>
    rcases List.mem_cons.mp h with rfl | h
    · exact Nat.mod_lt _ hb
    · exact ih h

theorem fixed_zero (b w : ℕ) : fixed b w 0 = List.replicate w 0 := by
  induction w with
  | zero => rfl
  | succ w ih => rw [fixed, ih, Nat.zero_div, Nat.zero_mod, List.replicate_succ]

theorem fixed_concat (b w n : ℕ) : fixed b (w + 1) n = fixed b w (n / b) ++ [n % b] := by
  induction w with
  | zero => simp [fixed]
  | succ w ih =>
    rw [fixed, ih, fixed, List.cons_append, Nat.div_div_eq_div_mul, pow_succ']

theorem lex_lt {q q' r r' k : ℕ} (hr : r < k) (hr' : r' < k) :
    q < q' ∨ q = q' ∧ r < r' ↔ k * q + r < k * q' + r' := by
  rcases lt_trichotomy q q' with h | rfl | h
  · have hmul := Nat.mul_le_mul_left k h
    rw [Nat.mul_succ] at hmul
    exact iff_of_true (.inl h) (by omega)
  · simp
  · have hmul := Nat.mul_le_mul_left k h
    rw [Nat.mul_succ] at hmul
    exact iff_of_false (by omega) (by omega)

theorem fixed_lt_mod (hb : 0 < b) (w m n : ℕ) :
    fixed b w m < fixed b w n ↔ m % b ^ w < n % b ^ w := by
  induction w with
  | zero => simp [fixed, Nat.mod_one]
  | succ w ih =>
    have hpow : 0 < b ^ w := Nat.pow_pos hb
    have hsplit : ∀ k, k % b ^ (w + 1) = b ^ w * (k / b ^ w % b) + k % b ^ w := by
      intro k
      rw [pow_succ, Nat.mod_mul, Nat.add_comm]
    rw [fixed, fixed, List.cons_lt_cons_iff, ih, hsplit, hsplit]
    exact lex_lt (Nat.mod_lt _ hpow) (Nat.mod_lt _ hpow)

theorem fixed_lt (hb : 0 < b) (hm : m < b ^ w) (hn : n < b ^ w) :
    fixed b w m < fixed b w n ↔ m < n := by
  rw [fixed_lt_mod hb, Nat.mod_eq_of_lt hm, Nat.mod_eq_of_lt hn]

end FixedWidth
