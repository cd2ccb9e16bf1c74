import Mathlib
set_option autoImplicit false

/-!
Truncated proportional shares of a pool over weighted claimants, some of whom
take their whole weight first: what the shares add up to.
-/

namespace Shares

/-- The whole units of `pool` that fall to weight `p` of `tot`, never more than
`p` itself; whoever has claimed takes all of `p`. -/
def share (pool tot : ℤ) (claimed : Bool) (p : ℤ) : ℤ :=
  if claimed then p else min (pool * p / tot) p

variable {α : Type} {pool tot p : ℤ}

theorem share_nonneg (hpool : 0 ≤ pool) (htot : 0 < tot) (hp : 0 ≤ p) (claimed : Bool) :
    0 ≤ share pool tot claimed p := by
  unfold share
  split
  · exact hp
  · exact le_min (Int.ediv_nonneg (mul_nonneg hpool hp) htot.le) hp

theorem share_le (pool tot p : ℤ) (claimed : Bool) : share pool tot claimed p ≤ p := by
  unfold share
  split
  · exact le_rfl
  · exact min_le_right _ _

theorem mul_share_le (htot : 0 < tot) : tot * share pool tot false p ≤ pool * p :=
  calc tot * share pool tot false p ≤ tot * (pool * p / tot) :=
        mul_le_mul_of_nonneg_left (min_le_left _ _) htot.le
    _ ≤ pool * p := Int.mul_ediv_self_le htot.ne'

theorem le_mul_share (htot : 0 < tot) (hp : 0 ≤ p) (claimed : Bool) :
    min pool tot * p ≤ tot * (share pool tot claimed p + if claimed then 0 else 1) := by
  have hcap : min pool tot * p ≤ tot * p := mul_le_mul_of_nonneg_right (min_le_right _ _) hp
  cases claimed with
  | true => simpa [share] using hcap
  | false =>
    unfold share
    simp only [Bool.false_eq_true, if_false]
    rcases min_cases (pool * p / tot) p with ⟨hmin, -⟩ | ⟨hmin, -⟩
    · have hpool : min pool tot * p ≤ pool * p := mul_le_mul_of_nonneg_right (min_le_left _ _) hp
      have hdiv : pool * p < tot * (pool * p / tot + 1) := Int.lt_mul_ediv_self_add htot |>.trans_eq
        (by ring)
      rw [hmin]
      exact hpool.trans hdiv.le
    · rw [hmin]
      exact hcap.trans (mul_le_mul_of_nonneg_left (by omega) htot.le)

variable (claimed : α → Bool) (weight : α → ℤ)

theorem sum_unclaimed_le (hpool : 0 ≤ pool) (htot : 0 < tot) {l : List α}
    (hw : ∀ a ∈ l, 0 ≤ weight a) (hsum : (l.map weight).sum ≤ tot) :
    ((l.filter (fun a => !claimed a)).map (fun a => share pool tot (claimed a) (weight a))).sum ≤
      pool := by
  have hmul : ∀ l : List α, (∀ a ∈ l, 0 ≤ weight a) →
      tot * ((l.filter (fun a => !claimed a)).map
        (fun a => share pool tot (claimed a) (weight a))).sum ≤ pool * (l.map weight).sum := by
    intro l
    induction l with
    | nil => simp
    | cons a l ih =>
      intro hw
      have hrest := ih (fun b hb => hw b (List.mem_cons_of_mem a hb))
      have ha := mul_nonneg hpool (hw a List.mem_cons_self)
      cases hc : claimed a with
      | true =>
        simp only [List.filter_cons, hc, Bool.not_true, Bool.false_eq_true, if_false,
          List.map_cons, List.sum_cons, mul_add]
        omega
      | false =>
        have hshare : tot * share pool tot false (weight a) ≤ pool * weight a := mul_share_le htot
        simp only [List.filter_cons, hc, Bool.not_false, if_true, List.map_cons, List.sum_cons,
          mul_add]
        omega
  have hle := (hmul l hw).trans (mul_le_mul_of_nonneg_left hsum hpool)
  rw [mul_comm pool tot] at hle
  exact le_of_mul_le_mul_left hle htot

theorem le_sum_share (htot : 0 < tot) {l : List α} (hw : ∀ a ∈ l, 0 ≤ weight a)
    (hsum : (l.map weight).sum = tot) :
    min pool tot - (l.filter (fun a => !claimed a)).length ≤
      (l.map (fun a => share pool tot (claimed a) (weight a))).sum := by
  have hmul : ∀ l : List α, (∀ a ∈ l, 0 ≤ weight a) →
      min pool tot * (l.map weight).sum ≤
        tot * ((l.map (fun a => share pool tot (claimed a) (weight a))).sum +
          (l.filter (fun a => !claimed a)).length) := by
    intro l
    induction l with
    | nil => simp
    | cons a l ih =>
      intro hw
      have hrest := ih (fun b hb => hw b (List.mem_cons_of_mem a hb))
      have ha : min pool tot * weight a ≤
          tot * (share pool tot (claimed a) (weight a) + if claimed a then 0 else 1) :=
        le_mul_share htot (hw a List.mem_cons_self) (claimed a)
      cases hc : claimed a with
      | true =>
        simp only [hc, if_true, add_zero] at ha
        simp only [List.filter_cons, hc, Bool.not_true, Bool.false_eq_true, if_false,
          List.map_cons, List.sum_cons, mul_add] at hrest ⊢
        omega
      | false =>
        simp only [hc, Bool.false_eq_true, if_false] at ha
        simp only [List.filter_cons, hc, Bool.not_false, if_true, List.map_cons, List.sum_cons,
          List.length_cons, mul_add, Nat.cast_add, Nat.cast_one, mul_one] at ha hrest ⊢
        omega
  have hle := hmul l hw
  rw [hsum, mul_comm] at hle
  have := le_of_mul_le_mul_left hle htot
  omega

end Shares
