import Mathlib
set_option autoImplicit false

/-!
Packet filters: chains of rules at hooks, with named counters. What a rule does with a
packet, and what the counters hold after a stream of packets.
-/

namespace PacketFilter

inductive Verdict where
  | accept
  | drop
  deriving DecidableEq, Repr

/-- A match that fails ends its rule, a counter counts the packet, a verdict ends the
chain. -/
inductive Stmt (μ κ : Type) where
  | test (m : μ)
  | counter (c : κ)
  | verdict (v : Verdict)
  deriving DecidableEq, Repr

structure Chain (η μ κ : Type) where
  name : String
  hook : η
  policy : Verdict
  rules : List (List (Stmt μ κ))
  deriving DecidableEq, Repr

section Semantics
variable {η μ κ π : Type} (holds : μ → π → Bool) (p : π)

/-- The counters that a packet passes in a rule, and the verdict it meets there. -/
def runRule : List (Stmt μ κ) → List κ × Option Verdict
  | [] => ([], none)
  | .test m :: rest => if holds m p then runRule rest else ([], none)
  | .counter c :: rest => (c :: (runRule rest).1, (runRule rest).2)
  | .verdict v :: _ => ([], some v)

def runRules : List (List (Stmt μ κ)) → List κ × Option Verdict
  | [] => ([], none)
  | rule :: rules =>
    match runRule holds p rule with
    | (passed, some v) => (passed, some v)
    | (passed, none) => (passed ++ (runRules rules).1, (runRules rules).2)

def Chain.run (c : Chain η μ κ) : List κ × Verdict :=
  ((runRules holds p c.rules).1, (runRules holds p c.rules).2.getD c.policy)

/-- The chains at a hook in turn; a drop ends it, an accept goes on to the next chain. -/
def runHook [DecidableEq η] (hook : η) : List (Chain η μ κ) → List κ × Verdict
  | [] => ([], .accept)
  | c :: cs =>
    if c.hook = hook then
      match c.run holds p with
      | (passed, .drop) => (passed, .drop)
      | (passed, .accept) => (passed ++ (runHook hook cs).1, (runHook hook cs).2)
    else runHook hook cs

def count [DecidableEq κ] (length : π → ℕ) (passed : List κ) (counters : κ → ℕ) : κ → ℕ :=
  fun c => counters c + passed.count c * length p

end Semantics

def tally {μ κ : Type} (m : μ) (c : κ) : List (Stmt μ κ) :=
  [.test m, .counter c, .verdict .accept]

section Tallies
variable {η μ κ π : Type} {holds : μ → π → Bool} {p : π}

theorem runRule_tally (m : μ) (c : κ) :
    runRule holds p (tally m c) = if holds m p then ([c], some .accept) else ([], none) := rfl

theorem runRules_tallies (l : List (μ × κ)) :
    runRules holds p (l.map (fun x => tally x.1 x.2)) =
      match l.find? (fun x => holds x.1 p) with
      | some x => ([x.2], some .accept)
      | none => ([], none) := by
  induction l with
  | nil => rfl
  | cons x l ih =>
    rw [List.map_cons, runRules, runRule_tally, List.find?_cons]
    cases holds x.1 p with
    | true => rfl
    | false =>
      dsimp only [Bool.false_eq_true, if_false]
      rw [ih]
      rfl

theorem Chain.run_tallies {c : Chain η μ κ} {l : List (μ × κ)} (hpolicy : c.policy = .accept)
    (hrules : c.rules = l.map (fun x => tally x.1 x.2)) :
    c.run holds p = (((l.find? (fun x => holds x.1 p)).map (·.2)).toList, .accept) := by
  rw [Chain.run, hrules, runRules_tallies, hpolicy]
  cases l.find? (fun x => holds x.1 p) <;> rfl

end Tallies

section Hooks
variable {η μ κ π : Type} [DecidableEq η] {holds : μ → π → Bool} {p : π} {hook : η}

theorem runHook_other {c : Chain η μ κ} (h : c.hook ≠ hook) (cs : List (Chain η μ κ)) :
    runHook holds p hook (c :: cs) = runHook holds p hook cs := if_neg h

theorem runHook_accept {c : Chain η μ κ} {passed : List κ} (h : c.hook = hook)
    (hrun : c.run holds p = (passed, .accept)) (cs : List (Chain η μ κ)) :
    runHook holds p hook (c :: cs) =
      (passed ++ (runHook holds p hook cs).1, (runHook holds p hook cs).2) := by
  rw [runHook, if_pos h, hrun]

end Hooks

section Streams
variable {η κ π : Type} [DecidableEq κ] {length : π → ℕ} {passed : η × π → List κ}

theorem foldl_count (counters : κ → ℕ) (stream : List (η × π)) (c : κ) :
    stream.foldl (fun counters x => count x.2 length (passed x) counters) counters c =
      counters c + (stream.map (fun x => (passed x).count c * length x.2)).sum := by
  induction stream generalizing counters with
  | nil => simp
  | cons x stream ih =>
    rw [List.foldl_cons, ih, List.map_cons, List.sum_cons, count, Nat.add_assoc]

/-- Where each packet passes a counter once or not at all, the counter grows by the
lengths of those that pass it. -/
theorem foldl_count_once {c : κ} {counted : η × π → Bool}
    (h : ∀ x, (passed x).count c = if counted x then 1 else 0) (counters : κ → ℕ)
    (stream : List (η × π)) :
    stream.foldl (fun counters x => count x.2 length (passed x) counters) counters c =
      counters c + ((stream.filter counted).map (fun x => length x.2)).sum := by
  rw [foldl_count]
  congr 1
  induction stream with
  | nil => rfl
  | cons x stream ih =>
    rw [List.map_cons, List.sum_cons, ih, h, List.filter_cons]
    cases counted x <;> simp

end Streams

end PacketFilter
