import Mathlib
set_option autoImplicit false

/-!
A transaction as a script of labelled statements, each of which may fail, and
runs of a deterministic step function whose events meet a condition in the
state they find.
-/

namespace Transaction

variable {σ S E : Type}

abbrev Script (σ S : Type) := List (σ × (S → S))

def apply (sc : Script σ S) (s : S) : S := sc.foldl (fun s a => a.2 s) s

/-- Statements run in order; the first one that fails aborts the script. -/
def run (fails : σ → Bool) : Script σ S → S → Except σ S
  | [], s => .ok s
  | (stmt,act) :: rest, s => if fails stmt then .error stmt else run fails rest (act s)

def succeeds (fails : σ → Bool) (sc : Script σ S) : Prop := ∀ a ∈ sc, fails a.1 = false

/-- A dropped transaction is rolled back: the caller is left with the old state. -/
def orRollback {ε : Type} (s : S) : Except ε S → S
  | .ok s' => s'
  | .error _ => s

@[simp] theorem apply_nil (s : S) : apply ([] : Script σ S) s = s := rfl

@[simp] theorem apply_cons (a : σ × (S → S)) (sc : Script σ S) (s : S) :
    apply (a :: sc) s = apply sc (a.2 s) := rfl

@[simp] theorem apply_append (sc sc' : Script σ S) (s : S) :
    apply (sc ++ sc') s = apply sc' (apply sc s) := by
  simp [apply, List.foldl_append]

theorem apply_mapIdx {α : Type} (label : ℕ → σ) (act : α → S → S) (l : List α) (s : S) :
    apply (l.mapIdx (fun i e => (label i, act e))) s = l.foldl (fun s e => act e s) s := by
  induction l generalizing label s with
  | nil => rfl
  | cons e l ih =>
    rw [List.mapIdx_cons, apply_cons, List.foldl_cons]
    exact ih (fun i => label (i+1)) (act e s)

theorem run_of_succeeds {fails : σ → Bool} {sc : Script σ S} (h : succeeds fails sc) (s : S) :
    run fails sc s = .ok (apply sc s) := by
  induction sc generalizing s with
  | nil => rfl
  | cons a sc ih =>
    have ha : fails a.1 = false := h a (by simp)
    simp only [run, ha, apply_cons]
    exact ih (fun b hb => h b (by simp [hb])) (a.2 s)

theorem run_of_not_succeeds {fails : σ → Bool} {sc : Script σ S} (h : ¬ succeeds fails sc)
    (s : S) : ∃ stmt, run fails sc s = .error stmt := by
  induction sc generalizing s with
  | nil => exact absurd (fun a ha => absurd ha (by simp)) h
  | cons a sc ih =>
    by_cases ha : fails a.1
    · exact ⟨a.1, by simp [run, ha]⟩
    · have hsc : ¬ succeeds fails sc := fun hs => h (fun b hb => by
        rcases List.mem_cons.mp hb with rfl | hb
        · simpa using ha
        · exact hs b hb)
      obtain ⟨stmt, hrun⟩ := ih hsc (a.2 s)
      exact ⟨stmt, by simp [run, ha, hrun]⟩

theorem orRollback_run (fails : σ → Bool) (sc : Script σ S) (s : S) :
    succeeds fails sc ∧ orRollback s (run fails sc s) = apply sc s ∨
      ¬ succeeds fails sc ∧ orRollback s (run fails sc s) = s := by
  by_cases h : succeeds fails sc
  · exact .inl ⟨h, by rw [run_of_succeeds h]; rfl⟩
  · obtain ⟨stmt, hrun⟩ := run_of_not_succeeds h s
    exact .inr ⟨h, by rw [hrun]; rfl⟩

/-- Every event of the run meets `ok` in the state it finds. -/
def Along (step : S → E → S) (ok : S → E → Prop) : S → List E → Prop
  | _, [] => True
  | s, e :: es => ok s e ∧ Along step ok (step s e) es

theorem along_invariant {step : S → E → S} {ok : S → E → Prop} (inv : S → Prop)
    (hstep : ∀ s e, inv s → ok s e → inv (step s e)) {s : S} {es : List E}
    (hs : inv s) (h : Along step ok s es) : inv (es.foldl step s) := by
  induction es generalizing s with
  | nil => exact hs
  | cons e es ih =>
    obtain ⟨he, hes⟩ := h
    exact ih (hstep s e hs he) hes

theorem invariant {step : S → E → S} (inv : S → Prop) (hstep : ∀ s e, inv s → inv (step s e))
    {s : S} (hs : inv s) (es : List E) : inv (es.foldl step s) := by
  induction es generalizing s with
  | nil => exact hs
  | cons e es ih => exact ih (hstep s e hs)

/-- A flag that every step keeps, and that certain events set, is set after a run
exactly when it was before or one of them occurred. -/
theorem latch {step : S → E → S} (inv flag : S → Prop) (sets : E → Prop)
    (hinv : ∀ s e, inv s → inv (step s e))
    (hflag : ∀ s e, inv s → (flag (step s e) ↔ flag s ∨ sets e)) {s : S} (hs : inv s)
    (es : List E) : flag (es.foldl step s) ↔ flag s ∨ ∃ e ∈ es, sets e := by
  induction es generalizing s with
  | nil => simp
  | cons e es ih =>
    rw [List.foldl_cons, ih (hinv s e hs), hflag s e hs, or_assoc]
    simp

theorem along_append {step : S → E → S} {ok : S → E → Prop} {s : S} {es es' : List E} :
    Along step ok s (es ++ es') ↔
      Along step ok s es ∧ Along step ok (es.foldl step s) es' := by
  induction es generalizing s with
  | nil => simp [Along]
  | cons e es ih => simp [Along, ih, and_assoc]

/-- Where each step keeps `inv` exactly when its event is admissible, `inv` holds
all along exactly the admissible runs. -/
theorem along_iff_prefixes {step : S → E → S} {ok : S → E → Prop} (aux inv : S → Prop)
    (haux : ∀ s e, aux s → aux (step s e))
    (hiff : ∀ s e, aux s → inv s → (inv (step s e) ↔ ok s e)) {s : S} {es : List E}
    (ha : aux s) (hs : inv s) :
    (∀ pre, pre <+: es → inv (pre.foldl step s)) ↔ Along step ok s es := by
  induction es generalizing s with
  | nil =>
    refine iff_of_true (fun pre h => ?_) trivial
    rw [List.prefix_nil.mp h]
    exact hs
  | cons e es ih =>
    constructor
    · intro h
      have he : inv (step s e) := h [e] ⟨es, rfl⟩
      refine ⟨(hiff s e ha hs).mp he, (ih (haux s e ha) he).mp (fun pre hp => ?_)⟩
      exact h (e :: pre) (List.cons_prefix_cons.mpr ⟨rfl, hp⟩)
    · rintro ⟨he, hes⟩ pre hp
      cases pre with
      | nil => exact hs
      | cons x pre =>
        obtain ⟨rfl, hrest⟩ := List.cons_prefix_cons.mp hp
        exact (ih (haux s x ha) ((hiff s x ha hs).mpr he)).mpr hes pre hrest

end Transaction
