import SeriesxEmu.Runs

/-!
# Levels of a run

The steps of a run are paid for from a level that the states have. Where a step that is repeated always
lowers the level, it can be repeated until it is undefined, and what it keeps is kept to that state.
-/

namespace SeriesxEmu.Runs

variable {σ α : Type} {step : σ → α → Option σ} {level gain : σ → Nat} {cost credit : σ → α → Nat}

/-- The levels pay for the cost of a run, what the states gain and the credit of the steps included. -/
theorem total_paid
    (paid : ∀ state action next, step state action = some next →
      cost state action + level next + gain state ≤ level state + gain next + credit state action)
    (state final : σ) (actions : List α) (completed : run step state actions = some final) :
    total step cost state actions + level final + gain state ≤
      level state + gain final + total step credit state actions := by
  induction actions generalizing state with
  | nil =>
    have same : state = final := Option.some.inj completed
    simp only [total, same]
    omega
  | cons action rest inductionHypothesis =>
    obtain ⟨next, stepped, remaining⟩ := (run_cons state final action rest).mp completed
    have first := paid state action next stepped
    have later := inductionHypothesis next remaining
    simp only [total, stepped]
    omega

/-- An action that lowers the level is repeated until it is undefined. -/
theorem repeated {β : Type} {invariant : σ → Prop} {view : σ → β} {action : α}
    (lowers : ∀ state next, invariant state → step state action = some next →
      invariant next ∧ level next < level state ∧ view next = view state)
    (state : σ) (initial : invariant state) :
    ∃ count final, run step state (List.replicate count action) = some final ∧ step final action = none ∧
      count + level final ≤ level state ∧ invariant final ∧ view final = view state := by
  -- the level bounds the turns that are left
  induction bound : level state using Nat.strong_induction_on generalizing state with
  | _ height inductionHypothesis =>
    cases stepped : step state action with
    | none => exact ⟨0, state, rfl, stepped, by omega, initial, rfl⟩
    | some next =>
      obtain ⟨keeps, lower, same⟩ := lowers state next initial stepped
      obtain ⟨count, final, completed, stuck, few, kept, viewed⟩ :=
        inductionHypothesis (level next) (bound ▸ lower) next keeps rfl
      refine ⟨count + 1, final, ?_, stuck, by omega, kept, viewed.trans same⟩
      rw [List.replicate_succ]
      exact (run_cons state final action _).mpr ⟨next, stepped, completed⟩

end SeriesxEmu.Runs
