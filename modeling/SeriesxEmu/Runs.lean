import Mathlib.Algebra.Order.Ring.Int
import Mathlib.Algebra.Group.Pi.Basic
import Mathlib.Data.List.Basic

/-!
# Finite runs of a partial step function

A run follows a list of actions from a state and stops without a result at the
first action whose step is undefined. A property of every visited state is
proved from a property of every step: either outright, or for those runs whose
steps all meet a condition on the state before them. When the condition is also
necessary at each single step, the two are equivalent over whole runs.
-/

namespace SeriesxEmu.Runs

variable {σ α : Type} {step : σ → α → Option σ}

/-- Follow the actions from left to right. -/
def run (step : σ → α → Option σ) : σ → List α → Option σ
  | state, [] => some state
  | state, action :: rest => (step state action).bind (fun next => run step next rest)

/-- Every step taken starts in a state that meets the condition for its action. -/
def Along (step : σ → α → Option σ) (condition : σ → α → Prop) : σ → List α → Prop
  | _, [] => True
  | state, action :: rest => condition state action ∧
      ∀ next, step state action = some next → Along step condition next rest

/-- Every state visited, the first one included, has the property. -/
def Visits (step : σ → α → Option σ) (property : σ → Prop) : σ → List α → Prop
  | state, [] => property state
  | state, action :: rest => property state ∧
      ∀ next, step state action = some next → Visits step property next rest

/-- Whether a concrete run meets a decidable condition can be evaluated. -/
instance Along.decidable {condition : σ → α → Prop} [∀ state action, Decidable (condition state action)] :
    ∀ state actions, Decidable (Along step condition state actions)
  | _, [] => inferInstanceAs (Decidable True)
  | state, action :: rest =>
    match stepped : step state action with
    | none => decidable_of_iff (condition state action)
        ⟨fun holds => ⟨holds, fun next same => by rw [stepped] at same; cases same⟩, And.left⟩
    | some next =>
      have later : Decidable (Along step condition next rest) := Along.decidable next rest
      decidable_of_iff (condition state action ∧ Along step condition next rest)
        ⟨fun holds => ⟨holds.1, fun other same => by
          rw [stepped] at same
          exact Option.some.inj same ▸ holds.2⟩, fun holds => ⟨holds.1, holds.2 next stepped⟩⟩

/-- A run of one more action passes through the state that action leads to. -/
theorem run_cons (state final : σ) (action : α) (rest : List α) :
    run step state (action :: rest) = some final ↔
      ∃ next, step state action = some next ∧ run step next rest = some final := by
  simp [run, Option.bind_eq_some_iff]

/-- Actions can be followed in two parts. -/
theorem run_append (state final : σ) (first second : List α) :
    run step state (first ++ second) = some final ↔
      ∃ middle, run step state first = some middle ∧ run step middle second = some final := by
  induction first generalizing state with
  | nil => simp [run]
  | cons action rest inductionHypothesis =>
    simp only [List.cons_append, run_cons, inductionHypothesis]
    constructor
    · rintro ⟨next, stepped, middle, before, after⟩
      exact ⟨middle, ⟨next, stepped, before⟩, after⟩
    · rintro ⟨middle, ⟨next, stepped, before⟩, after⟩
      exact ⟨next, stepped, middle, before, after⟩

/-- The condition is met along two parts of a run one after the other. -/
theorem along_append {condition : σ → α → Prop} (state : σ) (first second : List α)
    (early : Along step condition state first)
    (late : ∀ middle, run step state first = some middle → Along step condition middle second) :
    Along step condition state (first ++ second) := by
  induction first generalizing state with
  | nil => exact late state rfl
  | cons action rest inductionHypothesis =>
    refine ⟨early.1, fun next stepped => inductionHypothesis next (early.2 next stepped) ?_⟩
    intro middle completed
    exact late middle ((run_cons state middle action rest).mpr ⟨next, stepped, completed⟩)

/-- The invariant rule: what the first state has and every allowed step keeps
holds in the last state of the run. -/
theorem run_invariant {condition : σ → α → Prop} {invariant : σ → Prop}
    (preserved : ∀ state action next, invariant state → condition state action →
      step state action = some next → invariant next)
    (state final : σ) (actions : List α) (initial : invariant state)
    (allowed : Along step condition state actions)
    (completed : run step state actions = some final) : invariant final := by
  induction actions generalizing state with
  | nil =>
    have same : state = final := Option.some.inj completed
    exact same ▸ initial
  | cons action rest inductionHypothesis =>
    obtain ⟨next, stepped, remaining⟩ := (run_cons state final action rest).mp completed
    exact inductionHypothesis next (preserved state action next initial allowed.1 stepped)
      (allowed.2 next stepped) remaining

/-- The empty condition holds along every run. -/
theorem along_true (state : σ) (actions : List α) : Along step (fun _ _ => True) state actions := by
  induction actions generalizing state with
  | nil => trivial
  | cons action rest inductionHypothesis => exact ⟨trivial, fun next _ => inductionHypothesis next⟩

/-- A weaker condition holds along as well. -/
theorem along_mono {first second : σ → α → Prop} (weaker : ∀ state action, first state action → second state action)
    (state : σ) (actions : List α) (along : Along step first state actions) : Along step second state actions := by
  induction actions generalizing state with
  | nil => trivial
  | cons action rest inductionHypothesis =>
    exact ⟨weaker state action along.1, fun next stepped => inductionHypothesis next (along.2 next stepped)⟩

/-- Two conditions met along a run are met together. -/
theorem along_and {first second : σ → α → Prop} (state : σ) (actions : List α) (early : Along step first state actions)
    (late : Along step second state actions) :
    Along step (fun state action => first state action ∧ second state action) state actions := by
  induction actions generalizing state with
  | nil => trivial
  | cons action rest inductionHypothesis =>
    exact ⟨⟨early.1, late.1⟩, fun next stepped => inductionHypothesis next (early.2 next stepped) (late.2 next stepped)⟩

/-- The invariant rule for steps that need no condition. -/
theorem run_preserves {invariant : σ → Prop}
    (preserved : ∀ state action next, invariant state → step state action = some next → invariant next)
    (state final : σ) (actions : List α) (initial : invariant state)
    (completed : run step state actions = some final) : invariant final :=
  run_invariant (fun state action next holds _ => preserved state action next holds) state final actions
    initial (along_true state actions) completed

/-- What the steps of a run come to together, when each comes to something. -/
def total {β : Type} [AddMonoid β] (step : σ → α → Option σ) (cost : σ → α → β) : σ → List α → β
  | _, [] => 0
  | state, action :: rest => cost state action +
      match step state action with
      | none => 0
      | some next => total step cost next rest

/-- The total of a sum is the sum of the totals. -/
theorem total_add {β : Type} [AddCommMonoid β] (first second : σ → α → β) (state : σ) (actions : List α) :
    total step (fun state action => first state action + second state action) state actions =
      total step first state actions + total step second state actions := by
  induction actions generalizing state with
  | nil => exact (add_zero 0).symm
  | cons action rest inductionHypothesis =>
    simp only [total]
    cases step state action with
    | none => simp only [add_zero]
    | some next =>
      simp only [inductionHypothesis]
      exact add_add_add_comm _ _ _ _

/-- The invariant rule for an account: steps that meet a condition and keep the invariant
once their cost is added keep it over a run once all costs are added. -/
theorem run_total {β : Type} [AddMonoid β] {condition : σ → α → Prop} {cost : σ → α → β} {invariant : β → σ → Prop}
    (preserved : ∀ spent state action next, invariant spent state → condition state action →
      step state action = some next → invariant (spent + cost state action) next)
    (spent : β) (state final : σ) (actions : List α) (initial : invariant spent state)
    (allowed : Along step condition state actions) (completed : run step state actions = some final) :
    invariant (spent + total step cost state actions) final := by
  induction actions generalizing spent state with
  | nil =>
    have same : state = final := Option.some.inj completed
    rw [total, add_zero]
    exact same ▸ initial
  | cons action rest inductionHypothesis =>
    obtain ⟨next, stepped, remaining⟩ := (run_cons state final action rest).mp completed
    have later := inductionHypothesis (spent + cost state action) next
      (preserved spent state action next initial allowed.1 stepped) (allowed.2 next stepped) remaining
    simp only [total, stepped]
    rw [← add_assoc]
    exact later

/-- The invariant rule over the visited states. -/
theorem visits_of_along {condition : σ → α → Prop} {invariant : σ → Prop}
    (preserved : ∀ state action next, invariant state → condition state action →
      step state action = some next → invariant next)
    (state : σ) (actions : List α) (initial : invariant state)
    (allowed : Along step condition state actions) : Visits step invariant state actions := by
  induction actions generalizing state with
  | nil => exact initial
  | cons action rest inductionHypothesis =>
    refine ⟨initial, fun next stepped => ?_⟩
    exact inductionHypothesis next (preserved state action next initial allowed.1 stepped)
      (allowed.2 next stepped)

/-- A weaker property is visited as well. -/
theorem visits_mono {first second : σ → Prop} (weaker : ∀ state, first state → second state) (state : σ)
    (actions : List α) (visits : Visits step first state actions) : Visits step second state actions := by
  induction actions generalizing state with
  | nil => exact weaker state visits
  | cons action rest inductionHypothesis =>
    exact ⟨weaker state visits.1, fun next stepped => inductionHypothesis next (visits.2 next stepped)⟩

/-- What holds in every visited state holds in the last. -/
theorem visits_final {property : σ → Prop} {state final : σ} {actions : List α}
    (visits : Visits step property state actions) (completed : run step state actions = some final) :
    property final := by
  induction actions generalizing state with
  | nil =>
    cases completed
    exact visits
  | cons action rest inductionHypothesis =>
    obtain ⟨next, stepped, remaining⟩ := (run_cons state final action rest).mp completed
    exact inductionHypothesis (visits.2 next stepped) remaining

/-- A condition that decides at every step whether the property survives it decides over
whole runs whether every visited state has the property. -/
theorem visits_iff_along {condition : σ → α → Prop} {property : σ → Prop}
    (decides : ∀ state action next, property state → step state action = some next →
      (property next ↔ condition state action))
    (vacuous : ∀ state action, step state action = none → condition state action)
    (state : σ) (actions : List α) (initial : property state) :
    Visits step property state actions ↔ Along step condition state actions := by
  induction actions generalizing state with
  | nil => exact ⟨fun _ => trivial, fun _ => initial⟩
  | cons action rest inductionHypothesis =>
    cases stepped : step state action with
    | none => simp [Visits, Along, stepped, initial, vacuous state action stepped]
    | some next =>
      have here := decides state action next initial stepped
      constructor
      · rintro ⟨_, visits⟩
        have later := visits next stepped
        have holds : property next := by
          cases rest with
          | nil => exact later
          | cons _ _ => exact later.1
        refine ⟨here.mp holds, fun other same => ?_⟩
        rw [← Option.some.inj (stepped.symm.trans same)]
        exact (inductionHypothesis next holds).mp later
      · rintro ⟨allowed, along⟩
        refine ⟨initial, fun other same => ?_⟩
        rw [← Option.some.inj (stepped.symm.trans same)]
        exact (inductionHypothesis next (here.mpr allowed)).mpr (along next stepped)

/-- A property that carries a stronger one along is visited together with it. -/
theorem visits_strengthen {strong weak : σ → Prop} (implies : ∀ state, strong state → weak state)
    (carried : ∀ state action next, strong state → step state action = some next → weak next → strong next)
    (state : σ) (actions : List α) (initial : strong state) :
    Visits step weak state actions ↔ Visits step strong state actions := by
  refine ⟨fun visits => ?_, visits_mono implies state actions⟩
  induction actions generalizing state with
  | nil => exact initial
  | cons action rest inductionHypothesis =>
    refine ⟨initial, fun next stepped => ?_⟩
    have later := visits.2 next stepped
    have holds : weak next := by
      cases rest with
      | nil => exact later
      | cons _ _ => exact later.1
    exact inductionHypothesis next (carried state action next initial stepped holds) later

/-- What a step from one state with the property to the next has of its own. -/
theorem along_of_visits {property : σ → Prop} {condition : σ → α → Prop}
    (each : ∀ state action, property state → (∀ next, step state action = some next → property next) →
      condition state action)
    (state : σ) (actions : List α) (visits : Visits step property state actions) :
    Along step condition state actions := by
  induction actions generalizing state with
  | nil => trivial
  | cons action rest inductionHypothesis =>
    refine ⟨each state action visits.1 (fun next stepped => ?_), fun next stepped =>
      inductionHypothesis next (visits.2 next stepped)⟩
    have later := visits.2 next stepped
    cases rest with
    | nil => exact later
    | cons _ _ => exact later.1

/-! ## Runs with a record of what happened -/

/-- A step together with what an observer notes down about it. -/
def watch {γ : Type} (step : σ → α → Option σ) (record : σ → α → σ → γ → γ) (state : σ × γ) (action : α) :
    Option (σ × γ) :=
  (step state.1 action).map (fun next => (next, record state.1 action next state.2))

/-- Watching a run does not change what its steps are like. -/
theorem along_watch {γ : Type} {record : σ → α → σ → γ → γ} {condition : σ → α → Prop} (state : σ) (notes : γ)
    (actions : List α) :
    Along (watch step record) (fun watched action => condition watched.1 action) (state, notes) actions ↔
      Along step condition state actions := by
  induction actions generalizing state notes with
  | nil => exact Iff.rfl
  | cons action rest inductionHypothesis =>
    refine and_congr_right (fun _ => ⟨fun along next stepped => ?_, fun along next stepped => ?_⟩)
    · have taken : watch step record (state, notes) action = some (next, record state action next notes) := by
        rw [watch, stepped, Option.map_some]
      exact (inductionHypothesis next _).mp (along _ taken)
    · obtain ⟨after, taken, rfl⟩ := Option.map_eq_some_iff.mp stepped
      exact (inductionHypothesis after _).mpr (along after taken)

/-- The invariant rule for a state with the observer's notes. -/
theorem watch_invariant {γ : Type} {record : σ → α → σ → γ → γ} {condition : σ → α → Prop} {invariant : σ → γ → Prop}
    (preserved : ∀ state notes action next, invariant state notes → condition state action →
      step state action = some next → invariant next (record state action next notes))
    {state final : σ} {notes last : γ} {actions : List α} (initial : invariant state notes)
    (allowed : Along step condition state actions)
    (watched : run (watch step record) (state, notes) actions = some (final, last)) : invariant final last := by
  induction actions generalizing state notes with
  | nil =>
    cases watched
    exact initial
  | cons action rest inductionHypothesis =>
    obtain ⟨next, stepped, remaining⟩ := (run_cons _ _ action rest).mp watched
    obtain ⟨after, taken, rfl⟩ := Option.map_eq_some_iff.mp stepped
    exact inductionHypothesis (preserved state notes action after initial allowed.1 taken)
      (allowed.2 after taken) remaining

/-! ## Two step functions

A fine step function refines a coarse one when each of its steps, from a state with the
invariant and under the condition, is also a step of the coarse one. A whole run is then a run
of the coarse one, and what was counted along it is the same. -/

section Refinement

variable {fine coarse : σ → α → Option σ} {condition : σ → α → Prop} {invariant : σ → Prop}

/-- By induction on the actions: the fine step is the coarse one, so both go on in one state, and
that state has the invariant again. -/
theorem run_refines
    (refines : ∀ state action next, invariant state → condition state action →
      fine state action = some next → coarse state action = some next)
    (preserved : ∀ state action next, invariant state → coarse state action = some next → invariant next)
    {state final : σ} {actions : List α} (initial : invariant state) (allowed : Along fine condition state actions)
    (completed : run fine state actions = some final) :
    run coarse state actions = some final ∧ Along coarse condition state actions := by
  induction actions generalizing state with
  | nil => exact ⟨completed, trivial⟩
  | cons action rest inductionHypothesis =>
    obtain ⟨next, stepped, remaining⟩ := (run_cons state final action rest).mp completed
    have same := refines state action next initial allowed.1 stepped
    obtain ⟨later, along⟩ := inductionHypothesis (preserved state action next initial same)
      (allowed.2 next stepped) remaining
    refine ⟨(run_cons state final action rest).mpr ⟨next, same, later⟩, allowed.1, fun other taken => ?_⟩
    obtain rfl := Option.some.inj (same.symm.trans taken)
    exact along

/-- The observer of a fine run notes the same down as one of the coarse run. -/
theorem watch_refines {γ : Type} {record : σ → α → σ → γ → γ}
    (refines : ∀ state action next, invariant state → condition state action →
      fine state action = some next → coarse state action = some next)
    (preserved : ∀ state action next, invariant state → coarse state action = some next → invariant next)
    {state final : σ} {notes last : γ} {actions : List α} (initial : invariant state)
    (allowed : Along fine condition state actions)
    (watched : run (watch fine record) (state, notes) actions = some (final, last)) :
    run (watch coarse record) (state, notes) actions = some (final, last) ∧ Along coarse condition state actions := by
  have both := @run_refines (σ × γ) α (watch fine record) (watch coarse record)
    (fun watched action => condition watched.1 action) (fun watched => invariant watched.1)
    ?_ ?_ _ _ _ initial ((along_watch state notes actions).mpr allowed) watched
  · exact ⟨both.1, (along_watch state notes actions).mp both.2⟩
  · rintro ⟨before, kept⟩ action ⟨next, after⟩ holds met stepped
    obtain ⟨middle, taken, same⟩ := Option.map_eq_some_iff.mp stepped
    rw [watch, refines before action middle holds met taken, Option.map_some, same]
  · rintro ⟨before, kept⟩ action ⟨next, after⟩ holds stepped
    obtain ⟨middle, taken, same⟩ := Option.map_eq_some_iff.mp stepped
    obtain ⟨rfl, _⟩ := Prod.mk.inj same
    exact preserved before action middle holds taken

end Refinement

end SeriesxEmu.Runs
