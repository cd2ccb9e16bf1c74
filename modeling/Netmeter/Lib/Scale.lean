import Mathlib
set_option autoImplicit false

/-!
Numbers written as a rounded mantissa and a power of a base: the loop that picks
the power in an arithmetic that rounds, rounding to a nearest integer, and what the
written form stands for.
-/

namespace Scaled

/-- An arithmetic that rounds what is not negative, off by the fraction `ε` at most. -/
structure Rounds (ε : ℚ) (fl : ℚ → ℚ) : Prop where
  small : 0 ≤ ε ∧ ε ≤ 1
  mono : ∀ {p q}, 0 ≤ p → p ≤ q → fl p ≤ fl q
  lower : ∀ {q}, 0 ≤ q → (1 - ε) * q ≤ fl q
  upper : ∀ {q}, 0 ≤ q → fl q ≤ (1 + ε) * q
  one : fl 1 = 1

/-- Divide by the base while a further power is left and the value reaches it. -/
def scale (fl : ℚ → ℚ) (base : ℚ) : ℕ → ℚ → ℕ → ℚ × ℕ
  | 0, v, u => (v,u)
  | left+1, v, u => if base ≤ v then scale fl base left (fl (v / base)) (u+1) else (v,u)

section
variable {ε : ℚ} {fl : ℚ → ℚ} {base : ℚ}

theorem Rounds.nonneg (hfl : Rounds ε fl) {q : ℚ} (hq : 0 ≤ q) : 0 ≤ fl q :=
  (mul_nonneg (sub_nonneg.mpr hfl.small.2) hq).trans (hfl.lower hq)

theorem scale_nonneg (hfl : Rounds ε fl) (hb : 0 < base) {v : ℚ} (hv : 0 ≤ v) (left u : ℕ) :
    0 ≤ (scale fl base left v u).1 := by
  induction left generalizing v u with
  | zero => exact hv
  | succ left ih =>
    unfold scale
    split
    · exact ih (hfl.nonneg (div_nonneg hv hb.le)) (u+1)
    · exact hv

theorem le_scale (fl : ℚ → ℚ) (base : ℚ) (left : ℕ) (v : ℚ) (u : ℕ) :
    u ≤ (scale fl base left v u).2 := by
  induction left generalizing v u with
  | zero => exact le_rfl
  | succ left ih =>
    unfold scale
    split
    · exact (Nat.le_succ u).trans (ih (fl (v / base)) (u+1))
    · exact le_rfl

theorem scale_le (fl : ℚ → ℚ) (base : ℚ) (left : ℕ) (v : ℚ) (u : ℕ) :
    (scale fl base left v u).2 ≤ u + left := by
  induction left generalizing v u with
  | zero => exact le_rfl
  | succ left ih =>
    unfold scale
    split
    · have hle := ih (fl (v / base)) (u+1)
      omega
    · show u ≤ u + (left + 1)
      omega

theorem scale_value (hfl : Rounds ε fl) (hb : 0 < base) {v : ℚ} (hv : 0 ≤ v) (left u : ℕ) :
    (1 - ε) ^ ((scale fl base left v u).2 - u) * (v * base ^ u) ≤
        (scale fl base left v u).1 * base ^ (scale fl base left v u).2 ∧
      (scale fl base left v u).1 * base ^ (scale fl base left v u).2 ≤
        (1 + ε) ^ ((scale fl base left v u).2 - u) * (v * base ^ u) := by
  induction left generalizing v u with
  | zero => simp [scale]
  | succ left ih =>
    unfold scale
    split
    · have hquot : 0 ≤ v / base := div_nonneg hv hb.le
      obtain ⟨hlo, hhi⟩ := ih (hfl.nonneg hquot) (u+1)
      have hunit := le_scale fl base left (fl (v / base)) (u+1)
      generalize scale fl base left (fl (v / base)) (u+1) = s at hlo hhi hunit ⊢
      have hsub : s.2 - u = s.2 - (u+1) + 1 := by omega
      have hpow : 0 ≤ base ^ (u+1) := (pow_pos hb _).le
      have hvalue : v / base * base ^ (u+1) = v * base ^ u := by
        rw [pow_succ]
        field_simp
      have hdown : (1 - ε) * (v * base ^ u) ≤ fl (v / base) * base ^ (u+1) := by
        rw [← hvalue, ← mul_assoc]
        exact mul_le_mul_of_nonneg_right (hfl.lower hquot) hpow
      have hup : fl (v / base) * base ^ (u+1) ≤ (1 + ε) * (v * base ^ u) := by
        rw [← hvalue, ← mul_assoc]
        exact mul_le_mul_of_nonneg_right (hfl.upper hquot) hpow
      constructor
      · rw [hsub, pow_succ, mul_assoc]
        exact (mul_le_mul_of_nonneg_left hdown
          (pow_nonneg (sub_nonneg.mpr hfl.small.2) _)).trans hlo
      · rw [hsub, pow_succ, mul_assoc]
        exact hhi.trans (mul_le_mul_of_nonneg_left hup
          (pow_nonneg (by linarith [hfl.small.1]) _))
    · simp

theorem scale_lt {left : ℕ} {v : ℚ} {u : ℕ} (h : (scale fl base left v u).2 < u + left) :
    (scale fl base left v u).1 < base := by
  induction left generalizing v u with
  | zero => exact absurd h (lt_irrefl u)
  | succ left ih =>
    unfold scale at h ⊢
    split
    · next hle =>
      rw [if_pos hle] at h
      exact ih (by omega)
    · next hlt => exact not_le.mp hlt

theorem scale_start {left : ℕ} {v : ℚ} {u : ℕ} (h : (scale fl base left v u).2 = u) :
    (scale fl base left v u).1 = v := by
  cases left with
  | zero => rfl
  | succ left =>
    unfold scale at h ⊢
    split
    · next hle =>
      rw [if_pos hle] at h
      have hunit := le_scale fl base left (fl (v / base)) (u+1)
      omega
    · rfl

theorem one_le_scale (hfl : Rounds ε fl) (hb : 0 < base) {left : ℕ} {v : ℚ} {u : ℕ}
    (h : u < (scale fl base left v u).2) : 1 ≤ (scale fl base left v u).1 := by
  induction left generalizing v u with
  | zero => exact absurd h (lt_irrefl u)
  | succ left ih =>
    unfold scale at h ⊢
    split
    · next hle =>
      rw [if_pos hle] at h
      have hone : 1 ≤ fl (v / base) := by
        have hquot : 1 ≤ v / base := (one_le_div hb).mpr hle
        exact hfl.one ▸ hfl.mono zero_le_one hquot
      rcases Nat.lt_or_ge (u+1) (scale fl base left (fl (v / base)) (u+1)).2 with hlt | hge
      · exact ih hlt
      · -- no further division: the mantissa is the quotient itself
        rw [scale_start (le_antisymm hge (le_scale fl base left _ (u+1)))]
        exact hone
    · next hlt =>
      rw [if_neg hlt] at h
      exact absurd h (lt_irrefl u)

/-- A larger value has at least the power of a smaller one, and the mantissas of
equal powers are in order. -/
theorem scale_mono (hfl : Rounds ε fl) (hb : 0 < base) {v w : ℚ} (hv : 0 ≤ v) (h : v ≤ w)
    (left u : ℕ) :
    (scale fl base left v u).2 < (scale fl base left w u).2 ∨
      (scale fl base left v u).2 = (scale fl base left w u).2 ∧
        (scale fl base left v u).1 ≤ (scale fl base left w u).1 := by
  induction left generalizing v w u with
  | zero => exact .inr ⟨rfl, h⟩
  | succ left ih =>
    unfold scale
    by_cases hw : base ≤ w
    · rw [if_pos hw]
      by_cases hle : base ≤ v
      · rw [if_pos hle]
        have hquot : 0 ≤ v / base := div_nonneg hv hb.le
        exact ih (hfl.nonneg hquot) (hfl.mono hquot (div_le_div_of_nonneg_right h hb.le)) (u+1)
      · rw [if_neg hle]
        exact .inl (le_scale fl base left (fl (w / base)) (u+1))
    · rw [if_neg hw, if_neg (fun hle => hw (hle.trans h))]
      exact .inr ⟨rfl, h⟩

/-- A further power makes no difference where it is not reached. -/
theorem scale_left {left : ℕ} {v : ℚ} {u : ℕ} (h : (scale fl base (left+1) v u).2 ≤ u + left) :
    scale fl base left v u = scale fl base (left+1) v u := by
  induction left generalizing v u with
  | zero =>
    unfold scale at h ⊢
    split
    · next hle =>
      rw [if_pos hle] at h
      exact absurd h (by simp [scale])
    · rfl
  | succ left ih =>
    rw [scale] at h
    conv_rhs => rw [scale]
    rw [scale]
    split
    · next hle =>
      rw [if_pos hle] at h
      exact ih (by omega)
    · rfl

end

/-- A rounding to a nearest integer, whichever way it breaks ties. -/
structure Nearest (r : ℚ → ℤ) : Prop where
  mono : Monotone r
  near : ∀ q, |(r q : ℚ) - q| ≤ 1 / 2

theorem Nearest.int {r : ℚ → ℤ} (h : Nearest r) (n : ℤ) : r n = n := by
  have hn := abs_le.mp (h.near n)
  have hlt : ((r n - n : ℤ) : ℚ) < (1 : ℤ) := by push_cast; linarith [hn.2]
  have hgt : ((-1 : ℤ) : ℚ) < ((r n - n : ℤ) : ℚ) := by push_cast; linarith [hn.1]
  have h1 := Int.cast_lt.mp hlt
  have h2 := Int.cast_lt.mp hgt
  omega

/-- Ties go to the even neighbour. -/
def roundHalfEven (q : ℚ) : ℤ :=
  if q - ⌊q⌋ < 1 / 2 then ⌊q⌋
  else if 1 / 2 < q - ⌊q⌋ then ⌊q⌋ + 1
  else if ⌊q⌋ % 2 = 0 then ⌊q⌋ else ⌊q⌋ + 1

theorem roundHalfEven_mem (q : ℚ) : ⌊q⌋ ≤ roundHalfEven q ∧ roundHalfEven q ≤ ⌊q⌋ + 1 := by
  unfold roundHalfEven
  split
  · exact ⟨le_rfl, by omega⟩
  · split
    · exact ⟨by omega, le_rfl⟩
    · split
      · exact ⟨le_rfl, by omega⟩
      · exact ⟨by omega, le_rfl⟩

theorem nearest_roundHalfEven : Nearest roundHalfEven where
  mono p q hpq := by
    have hfloor : ⌊p⌋ ≤ ⌊q⌋ := Int.floor_mono hpq
    rcases hfloor.lt_or_eq with hlt | heq
    · have hp := (roundHalfEven_mem p).2
      have hq := (roundHalfEven_mem q).1
      omega
    · -- one integer part: the fractions are in order
      have hfrac : p - ⌊q⌋ ≤ q - ⌊q⌋ := by linarith
      unfold roundHalfEven
      rw [heq]
      split
      · split
        · exact le_rfl
        · split
          · omega
          · split <;> omega
      · next hp =>
        rw [if_neg (fun hq => hp (lt_of_le_of_lt hfrac hq))]
        split
        · next hp' => rw [if_pos (lt_of_lt_of_le hp' hfrac)]
        · split
          · next heven =>
            split <;> omega
          · next hodd =>
            split <;> omega
  near q := by
    have hlo := Int.floor_le q
    have hhi := Int.lt_floor_add_one q
    rw [abs_le]
    unfold roundHalfEven
    split
    · constructor <;> linarith
    · split
      · push_cast
        constructor <;> linarith
      · split
        · constructor <;> linarith
        · push_cast
          constructor <;> linarith

theorem nearest_round : Nearest (round : ℚ → ℤ) where
  mono p q hpq := by
    rw [round_eq, round_eq]
    exact Int.floor_mono (by linarith)
  near q := by
    rw [abs_sub_comm]
    exact abs_sub_round q

def mantissa (r : ℚ → ℤ) (places : ℕ) (v : ℚ) : ℤ := r (v * 10 ^ places)

/-- What a mantissa of so many places and a power of the base stand for. -/
def quantity (base : ℚ) (places : ℕ) (n : ℤ) (u : ℕ) : ℚ := n / 10 ^ places * base ^ u

section
variable {base : ℚ} {r : ℚ → ℤ} (hr : Nearest r)
include hr

theorem mantissa_nonneg {v : ℚ} (hv : 0 ≤ v) (places : ℕ) : 0 ≤ mantissa r places v := by
  have h := hr.mono (show ((0 : ℤ) : ℚ) ≤ v * 10 ^ places by push_cast; positivity)
  rwa [hr.int] at h

theorem mantissa_le {v : ℚ} {c : ℕ} (h : v ≤ c) (places : ℕ) :
    mantissa r places v ≤ c * 10 ^ places := by
  have hle : v * 10 ^ places ≤ ((c * 10 ^ places : ℤ) : ℚ) := by
    push_cast
    exact mul_le_mul_of_nonneg_right h (by positivity)
  have hround := hr.mono hle
  rwa [hr.int] at hround

theorem le_mantissa {v : ℚ} {c : ℕ} (h : (c : ℚ) ≤ v) (places : ℕ) :
    c * 10 ^ places ≤ mantissa r places v := by
  have hle : ((c * 10 ^ places : ℤ) : ℚ) ≤ v * 10 ^ places := by
    push_cast
    exact mul_le_mul_of_nonneg_right h (by positivity)
  have hround := hr.mono hle
  rwa [hr.int] at hround

theorem abs_quantity_sub_le (hb : 0 < base) (places : ℕ) (v : ℚ) (u : ℕ) :
    |quantity base places (mantissa r places v) u - v * base ^ u| ≤
      base ^ u / (2 * 10 ^ places) := by
  have hten : (0 : ℚ) < 10 ^ places := by positivity
  have hpow : 0 < base ^ u := pow_pos hb u
  have hdiff : quantity base places (mantissa r places v) u - v * base ^ u =
      (mantissa r places v - v * 10 ^ places) * (base ^ u / 10 ^ places) := by
    unfold quantity
    field_simp
  have hscale : 0 ≤ base ^ u / 10 ^ places := (div_pos hpow hten).le
  calc |quantity base places (mantissa r places v) u - v * base ^ u|
      = |(mantissa r places v : ℚ) - v * 10 ^ places| * (base ^ u / 10 ^ places) := by
        rw [hdiff, abs_mul, abs_of_nonneg hscale]
    _ ≤ 1 / 2 * (base ^ u / 10 ^ places) :=
        mul_le_mul_of_nonneg_right (hr.near _) hscale
    _ = base ^ u / (2 * 10 ^ places) := by
        field_simp

/-- A mantissa up to the base is written as the next power at most. -/
theorem quantity_le_pow {c : ℕ} (hc : 0 < c) {v : ℚ} (h : v ≤ c) (places u : ℕ) :
    quantity c places (mantissa r places v) u ≤ c ^ (u+1) := by
  have hc' : (0 : ℚ) < c := by exact_mod_cast hc
  have hcast : ((mantissa r places v : ℤ) : ℚ) ≤ c * 10 ^ places := by
    exact_mod_cast mantissa_le hr h places
  calc (mantissa r places v : ℚ) / 10 ^ places * c ^ u
      ≤ (c : ℚ) * c ^ u := by
        refine mul_le_mul_of_nonneg_right ?_ (by positivity)
        rw [div_le_iff₀ (by positivity)]
        exact hcast
    _ = c ^ (u+1) := by ring

/-- A mantissa from one on is written as its own power at least. -/
theorem pow_le_quantity {c : ℕ} {v : ℚ} (h : 1 ≤ v) (places u : ℕ) :
    (c : ℚ) ^ u ≤ quantity c places (mantissa r places v) u := by
  have hlower := le_mantissa hr (show ((1 : ℕ) : ℚ) ≤ v by exact_mod_cast h) places
  rw [Nat.cast_one, one_mul] at hlower
  have hcast : (10 : ℚ) ^ places ≤ (mantissa r places v : ℤ) := by exact_mod_cast hlower
  refine le_mul_of_one_le_left (by positivity) ?_
  rw [one_le_div (by positivity)]
  exact hcast

/-- Written values are in order when the values are: a smaller power never shows
more than the next one does. -/
theorem quantity_mono {ε : ℚ} {fl : ℚ → ℚ} (hfl : Rounds ε fl) {c : ℕ} (hc : 0 < c) {v w : ℚ}
    (hv : 0 ≤ v) (h : v ≤ w) (left : ℕ) (places : ℕ → ℕ) :
    quantity c (places (scale fl c left v 0).2)
        (mantissa r (places (scale fl c left v 0).2) (scale fl c left v 0).1)
        (scale fl c left v 0).2 ≤
      quantity c (places (scale fl c left w 0).2)
        (mantissa r (places (scale fl c left w 0).2) (scale fl c left w 0).1)
        (scale fl c left w 0).2 := by
  have hc' : (0 : ℚ) < c := by exact_mod_cast hc
  have hone : (1 : ℚ) ≤ c := by exact_mod_cast hc
  have hlast := scale_le fl (c : ℚ) left w 0
  rcases scale_mono hfl hc' hv h left 0 with hlt | ⟨hunit, hle⟩
  · have hsmall : (scale fl (c : ℚ) left v 0).1 ≤ c := (scale_lt (by omega)).le
    have hbig : 1 ≤ (scale fl (c : ℚ) left w 0).1 := one_le_scale hfl hc' (by omega)
    exact (quantity_le_pow hr hc hsmall _ _).trans
      ((pow_le_pow_right₀ hone (by omega)).trans (pow_le_quantity hr hbig _ _))
  · rw [hunit]
    unfold quantity mantissa
    have hround := hr.mono (mul_le_mul_of_nonneg_right hle
      (show (0 : ℚ) ≤ 10 ^ places (scale fl c left w 0).2 by positivity))
    refine mul_le_mul_of_nonneg_right
      (div_le_div_of_nonneg_right ?_ (by positivity)) (by positivity)
    exact_mod_cast hround

end

end Scaled
