import Mathlib.Data.Nat.Basic
import Mathlib.Tactic.ByContra

/-!
# Steps in batches

A machine takes steps until one of them gives a result. Another machine takes turns, each of which
does what one step or several do. Then both give the same results.
-/

namespace SeriesxEmu.Batches

variable {State Batch Result : Type} {step : State → Except Result State} {turn : Batch → Except Result Batch}

/-- So many steps; no result when they do not suffice. -/
def iterate (step : State → Except Result State) : Nat → State → Option Result
  | 0, _ => none
  | steps + 1, state =>
    match step state with
    | .ok next => iterate step steps next
    | .error result => some result

/-- What is left to do after a turn. -/
def resumeFrom (step : State → Except Result State) (view : Batch → State) (more : Nat) :
    Except Result Batch → Option Result
  | .ok next => iterate step more (view next)
  | .error result => some result

/-- A turn does what some steps do: none of them gives a result early. -/
def Covers (step : State → Except Result State) (view : Batch → State) (state : State)
    (turned : Except Result Batch) : Prop :=
  ∃ early, iterate step early state = none ∧
    ∀ more, iterate step (early + 1 + more) state = resumeFrom step view more turned

/-- More steps do not change a result. -/
theorem iterate_more {steps : Nat} {state : State} {result : Result} (found : iterate step steps state = some result)
    (more : Nat) : iterate step (steps + more) state = some result := by
  induction steps generalizing state with
  | zero => cases found
  | succ steps inductionHypothesis =>
    rw [Nat.succ_add, iterate]
    rw [iterate] at found
    cases stepped : step state with
    | ok next =>
      rw [stepped] at found
      exact inductionHypothesis found
    | error given =>
      rw [stepped] at found
      exact found

/-- A turn that does what one step does. -/
theorem Covers.one {view : Batch → State} {state : State} {turned : Except Result Batch}
    (same : step state = turned.map view) : Covers step view state turned := by
  refine ⟨0, rfl, fun more => ?_⟩
  rw [Nat.zero_add, Nat.add_comm, iterate, same]
  cases turned <;> rfl

/-- A step before the others. -/
theorem Covers.cons {view : Batch → State} {state next : State} {turned : Except Result Batch}
    (stepped : step state = .ok next) (rest : Covers step view next turned) : Covers step view state turned := by
  obtain ⟨early, unfinished, covers⟩ := rest
  refine ⟨early + 1, ?_, fun more => ?_⟩
  · rw [iterate, stepped]
    exact unfinished
  · rw [Nat.add_right_comm (early + 1), iterate, stepped, ← covers more, Nat.add_right_comm early]

/-- **Batches.** Turns that cover steps give the results that the steps give. -/
theorem results_iff {view : Batch → State} {invariant : Batch → Prop}
    (covers : ∀ batch, invariant batch → Covers step view (view batch) (turn batch))
    (kept : ∀ batch next, invariant batch → turn batch = .ok next → invariant next) {batch : Batch}
    (holds : invariant batch) (result : Result) :
    (∃ turns, iterate turn turns batch = some result) ↔ ∃ steps, iterate step steps (view batch) = some result := by
  constructor
  · rintro ⟨turns, found⟩
    induction turns generalizing batch with
    | zero => cases found
    | succ turns inductionHypothesis =>
      obtain ⟨early, -, each⟩ := covers batch holds
      rw [iterate] at found
      cases turned : turn batch with
      | ok next =>
        rw [turned] at found each
        obtain ⟨steps, rest⟩ := inductionHypothesis (kept batch next holds turned) found
        exact ⟨early + 1 + steps, (each steps).trans rest⟩
      | error given =>
        rw [turned] at found each
        exact ⟨early + 1 + 0, (each 0).trans found⟩
  · rintro ⟨steps, found⟩
    induction steps using Nat.strong_induction_on generalizing batch with
    | _ steps inductionHypothesis =>
      obtain ⟨early, unfinished, each⟩ := covers batch holds
      have late : early < steps := by
        by_contra soon
        have again := iterate_more found (early - steps)
        rw [Nat.add_sub_cancel' (Nat.not_lt.mp soon), unfinished] at again
        cases again
      obtain ⟨more, rfl⟩ := Nat.exists_eq_add_of_le (Nat.succ_le_of_lt late)
      have split := (each more).symm.trans found
      cases turned : turn batch with
      | ok next =>
        rw [turned] at split
        obtain ⟨turns, rest⟩ := inductionHypothesis more (by omega) (kept batch next holds turned) split
        refine ⟨turns + 1, ?_⟩
        rw [iterate, turned]
        exact rest
      | error given =>
        rw [turned] at split
        refine ⟨1, ?_⟩
        rw [iterate, turned]
        exact split

end SeriesxEmu.Batches
