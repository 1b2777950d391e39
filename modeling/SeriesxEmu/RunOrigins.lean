import SeriesxEmu.Runs
import Mathlib.Data.List.Induction

/-!
# Where a value of a run comes from

A part of the state is blank at first, and every step keeps it, blanks it or makes it. When it is
not blank in the end, then some step of the run has made it, and it has stayed since.
-/

namespace SeriesxEmu.Runs

variable {σ α β : Type} {step : σ → α → Option σ}

/-- The run has made the value with an action from this state, and no later state has another one. -/
def Made (step : σ → α → Option σ) (view : σ → β) (makes : σ → α → β → Prop) (state : σ) (actions : List α)
    (value : β) : Prop :=
  ∃ before action after mid, actions = before ++ action :: after ∧ run step state before = some mid ∧
    makes mid action value ∧ ∀ done rest, after = done ++ rest → ∀ later,
      run step state (before ++ action :: done) = some later → view later = value

/-- A step that keeps the value keeps its origin. -/
theorem Made.snoc {view : σ → β} {makes : σ → α → β → Prop} {state final : σ} {actions : List α} {last : α} {value : β}
    (made : Made step view makes state actions value) (completed : run step state (actions ++ [last]) = some final)
    (kept : view final = value) : Made step view makes state (actions ++ [last]) value := by
  obtain ⟨before, action, after, mid, rfl, reached, origin, since⟩ := made
  refine ⟨before, action, after ++ [last], mid, by rw [List.append_assoc, List.cons_append], reached, origin,
    fun done rest split later ran => ?_⟩
  rcases List.eq_nil_or_concat rest with rfl | ⟨others, tail, rfl⟩
  · rw [List.append_nil] at split
    rw [← split, ← List.cons_append, ← List.append_assoc] at ran
    obtain rfl := Option.some.inj (completed.symm.trans ran)
    exact kept
  · rw [List.concat_eq_append, ← List.append_assoc] at split
    exact since done others (List.append_inj_left' split rfl) later ran

/-- **Origins.** What is not blank in the end has been made. -/
theorem origin {invariant : σ → Prop} {view : σ → β} {blank : β → Prop} {makes : σ → α → β → Prop}
    (kept : ∀ state action next, invariant state → step state action = some next → invariant next)
    (each : ∀ state action next, invariant state → step state action = some next →
      view next = view state ∨ blank (view next) ∨ makes state action (view next))
    {state final : σ} {actions : List α} (holds : invariant state) (initial : blank (view state))
    (completed : run step state actions = some final) (shown : ¬ blank (view final)) :
    Made step view makes state actions (view final) := by
  induction actions using List.reverseRecOn generalizing final with
  | nil =>
    obtain rfl : state = final := Option.some.inj completed
    exact absurd initial shown
  | append_singleton actions last inductionHypothesis =>
    obtain ⟨mid, reached, lastStep⟩ := (run_append state final actions [last]).mp completed
    obtain ⟨next, stepped, ended⟩ := (run_cons mid final last []).mp lastStep
    obtain rfl : next = final := Option.some.inj ended
    rcases each mid last next (run_preserves kept state mid actions holds reached) stepped with same | blanked | made
    · rw [same] at shown ⊢
      exact (inductionHypothesis reached shown).snoc completed same
    · exact absurd blanked shown
    · refine ⟨actions, last, [], mid, rfl, reached, made, fun done rest split later ran => ?_⟩
      obtain ⟨rfl, rfl⟩ := List.nil_eq_append_iff.mp split
      exact congrArg view (Option.some.inj (ran.symm.trans completed))

end SeriesxEmu.Runs
