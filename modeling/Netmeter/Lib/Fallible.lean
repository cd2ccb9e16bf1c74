import Mathlib
set_option autoImplicit false

/-!
Runs of a step function that may fail, and what holds of the state they reach
together with a summary of the events that led there.
-/

namespace Fallible

variable {ε S E H : Type}

/-- Every event of the run meets `ok` in the state it finds, as far as the steps
succeed. -/
def Along (step : S → E → Except ε S) (ok : S → E → Prop) : S → List E → Prop
  | _, [] => True
  | s, e :: es => ok s e ∧ ∀ s', step s e = .ok s' → Along step ok s' es

theorem along_cons {step : S → E → Except ε S} {ok : S → E → Prop} {s s' : S} {e : E}
    {es : List E} (hstep : step s e = .ok s') (he : ok s e) (h : Along step ok s' es) :
    Along step ok s (e :: es) := by
  refine ⟨he, fun t ht => ?_⟩
  obtain rfl := Except.ok.inj (hstep.symm.trans ht)
  exact h

theorem along_invariant {step : S → E → Except ε S} {ok : S → E → Prop} (note : H → E → H)
    (inv : H → S → Prop)
    (hstep : ∀ past s e, inv past s → ok s e → ∃ s', step s e = .ok s' ∧ inv (note past e) s')
    {past : H} {s : S} {es : List E} (hs : inv past s) (h : Along step ok s es) :
    ∃ s', es.foldlM step s = .ok s' ∧ inv (es.foldl note past) s' := by
  induction es generalizing past s with
  | nil => exact ⟨s, rfl, hs⟩
  | cons e es ih =>
    obtain ⟨he, hes⟩ := h
    obtain ⟨s', hok, hs'⟩ := hstep past s e hs he
    obtain ⟨t, hrun, ht⟩ := ih hs' (hes s' hok)
    refine ⟨t, ?_, ht⟩
    rw [List.foldlM_cons, hok]
    exact hrun

end Fallible
