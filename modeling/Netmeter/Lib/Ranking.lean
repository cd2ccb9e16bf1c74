import Mathlib
set_option autoImplicit false

/-! The heaviest items first, and the top of such a ranking. -/

namespace Ranking

variable {α β : Type} [LinearOrder β] {w : α → β} {l : List α}

/-- Heaviest first, equals in the order they came. -/
def ranked (w : α → β) (l : List α) : List α := l.mergeSort (fun a b => w b ≤ w a)

theorem ranked_perm (w : α → β) (l : List α) : (ranked w l).Perm l := List.mergeSort_perm l _

theorem mem_ranked {a : α} : a ∈ ranked w l ↔ a ∈ l := (ranked_perm w l).mem_iff

theorem length_ranked (w : α → β) (l : List α) : (ranked w l).length = l.length :=
  (ranked_perm w l).length_eq

theorem ranked_sorted (w : α → β) (l : List α) :
    (ranked w l).Pairwise (fun a b => w b ≤ w a) := by
  have htrans : ∀ a b c : α, decide (w b ≤ w a) = true → decide (w c ≤ w b) = true →
      decide (w c ≤ w a) = true := by
    intro a b c hab hbc
    simp only [decide_eq_true_eq] at *
    exact hbc.trans hab
  have htotal : ∀ a b : α, (decide (w b ≤ w a) || decide (w a ≤ w b)) = true := by
    intro a b
    simpa using le_total (w b) (w a)
  have h := List.pairwise_mergeSort htrans htotal l
  exact h.imp (fun hab => by simpa using hab)

theorem take_sorted (w : α → β) (l : List α) (n : ℕ) :
    ((ranked w l).take n).Pairwise (fun a b => w b ≤ w a) :=
  (ranked_sorted w l).sublist (List.take_sublist n _)

theorem mem_of_mem_take {a : α} {n : ℕ} (h : a ∈ (ranked w l).take n) : a ∈ l :=
  mem_ranked.mp (List.mem_of_mem_take h)

theorem le_of_not_mem_take {a b : α} {n : ℕ} (ha : a ∈ (ranked w l).take n) (hb : b ∈ l)
    (hout : b ∉ (ranked w l).take n) : w b ≤ w a := by
  have hsplit := List.take_append_drop n (ranked w l)
  have hb' : b ∈ (ranked w l).drop n := by
    have hmem := mem_ranked (w := w).mpr hb
    rw [← hsplit] at hmem
    exact (List.mem_append.mp hmem).resolve_left hout
  have hsorted := ranked_sorted w l
  rw [← hsplit, List.pairwise_append] at hsorted
  exact hsorted.2.2 a ha b hb'

theorem le_head {a : α} {rest : List α} {b : α}
    (h : (a :: rest).Pairwise (fun a b => w b ≤ w a)) (hb : b ∈ a :: rest) : w b ≤ w a := by
  rcases List.mem_cons.mp hb with rfl | hb
  · exact le_rfl
  · exact List.rel_of_pairwise_cons h hb

/-- The `n` heaviest of `l`, heaviest first. -/
structure Top (w : α → β) (l : List α) (n : ℕ) (shown : List α) : Prop where
  mem : ∀ a ∈ shown, a ∈ l
  length : shown.length = min n l.length
  sorted : shown.Pairwise (fun a b => w b ≤ w a)
  rest : ∀ b ∈ l, b ∉ shown → ∀ a ∈ shown, w b ≤ w a

theorem top_take (w : α → β) (l : List α) (n : ℕ) : Top w l n ((ranked w l).take n) where
  mem _ ha := mem_of_mem_take ha
  length := by rw [List.length_take, length_ranked]
  sorted := take_sorted w l n
  rest _ hb hout _ ha := le_of_not_mem_take ha hb hout

theorem nodup_take {κ : Type} {key : α → κ} (h : (l.map key).Nodup) (n : ℕ) :
    (((ranked w l).take n).map key).Nodup := by
  have hall : ((ranked w l).map key).Nodup := ((ranked_perm w l).map key).nodup_iff.mpr h
  exact hall.sublist ((List.take_sublist n _).map key)

end Ranking
