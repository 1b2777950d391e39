import Mathlib.Data.List.Basic

/-!
# Computations that record their accesses

A traced computation performs accesses in order and then returns a value or fails.
A failure stops it: what would come next is neither performed nor returned. A
contract of such a computation bounds every access it performs, whatever the
outcome, and says what holds of the value it returns.
-/

namespace SeriesxEmu

/-- A computation with the accesses it performs, in order, and its value or the failure it ends
with. -/
structure Traced (Access Failure Value : Type) where
  accesses : List Access
  outcome : Except Failure Value

namespace Traced

variable {Access Failure α β : Type}

/-- Go on with the value, unless there is none. -/
def andThen (first : Traced Access Failure α) (next : α → Traced Access Failure β) : Traced Access Failure β :=
  match first.outcome with
  | .ok value => ⟨first.accesses ++ (next value).accesses, (next value).outcome⟩
  | .error failure => ⟨first.accesses, .error failure⟩

instance : Monad (Traced Access Failure) where
  pure value := ⟨[], .ok value⟩
  bind := andThen

/-- One access. -/
def perform (access : Access) : Traced Access Failure Unit := ⟨[access], .ok ()⟩

/-- The computation fails. -/
def fail (failure : Failure) : Traced Access Failure α := ⟨[], .error failure⟩

/-- Fail unless the condition holds. -/
def check (condition : Prop) [Decidable condition] (failure : Failure) : Traced Access Failure Unit :=
  if condition then pure () else fail failure

/-! ## What a sequence performs and returns -/

/-- A value is returned without an access. -/
@[simp] theorem accesses_pure (value : α) : (pure value : Traced Access Failure α).accesses = [] := rfl

/-- It is the outcome. -/
@[simp] theorem outcome_pure (value : α) : (pure value : Traced Access Failure α).outcome = .ok value := rfl

/-- An access is performed. -/
@[simp] theorem accesses_perform (access : Access) :
    (perform access : Traced Access Failure Unit).accesses = [access] := rfl

/-- It does not fail. -/
@[simp] theorem outcome_perform (access : Access) :
    (perform access : Traced Access Failure Unit).outcome = .ok () := rfl

/-- A failure performs nothing. -/
@[simp] theorem accesses_fail (failure : Failure) : (fail failure : Traced Access Failure α).accesses = [] := rfl

/-- It is the outcome. -/
@[simp] theorem outcome_fail (failure : Failure) :
    (fail failure : Traced Access Failure α).outcome = .error failure := rfl

/-- A check that holds does nothing. -/
theorem check_of {condition : Prop} [Decidable condition] (failure : Failure) (holds : condition) :
    (check condition failure : Traced Access Failure Unit) = pure () := if_pos holds

/-- One that does not fails. -/
theorem check_not {condition : Prop} [Decidable condition] (failure : Failure) (fails : ¬ condition) :
    (check condition failure : Traced Access Failure Unit) = fail failure := if_neg fails

/-- A first part that succeeds hands its value on. -/
theorem bind_of_ok {first : Traced Access Failure α} {next : α → Traced Access Failure β} {value : α}
    (returned : first.outcome = .ok value) :
    first >>= next = ⟨first.accesses ++ (next value).accesses, (next value).outcome⟩ := by
  simp only [bind, andThen, returned]

/-- A first part that fails is the whole. -/
theorem bind_of_error {first : Traced Access Failure α} {next : α → Traced Access Failure β} {failure : Failure}
    (failed : first.outcome = .error failure) : first >>= next = ⟨first.accesses, .error failure⟩ := by
  simp only [bind, andThen, failed]

/-- What follows a value is done with it. -/
@[simp] theorem pure_bind_eq (value : α) (next : α → Traced Access Failure β) :
    (pure value : Traced Access Failure α) >>= next = next value := rfl

/-- What follows a failure is not done. -/
@[simp] theorem fail_bind (failure : Failure) (next : α → Traced Access Failure β) :
    (fail failure : Traced Access Failure α) >>= next = fail failure := rfl

/-- A sequence succeeds if both parts do. -/
theorem outcome_bind {first : Traced Access Failure α} {next : α → Traced Access Failure β} {value : β} :
    (first >>= next).outcome = .ok value ↔
      ∃ middle, first.outcome = .ok middle ∧ (next middle).outcome = .ok value := by
  cases returned : first.outcome with
  | ok middle => simp [bind_of_ok returned]
  | error failure => simp [bind_of_error returned]

/-- It performs what the first part does, and what the second does if it comes to that. -/
theorem mem_bind {first : Traced Access Failure α} {next : α → Traced Access Failure β} {access : Access} :
    access ∈ (first >>= next).accesses ↔
      access ∈ first.accesses ∨ ∃ middle, first.outcome = .ok middle ∧ access ∈ (next middle).accesses := by
  cases returned : first.outcome with
  | ok middle => simp [bind_of_ok returned]
  | error failure => simp [bind_of_error returned]

/-- An access of a loop is made in the turn of one item, after the items before it. -/
theorem mem_foldlM {Item : Type} {body : α → Item → Traced Access Failure α} {items : List Item} {value : α}
    {access : Access} : access ∈ (items.foldlM body value).accesses ↔
      ∃ before item rest middle, items = before ++ item :: rest ∧
        (before.foldlM body value).outcome = .ok middle ∧ access ∈ (body middle item).accesses := by
  induction items generalizing value with
  | nil => simp
  | cons first others inductionHypothesis =>
    rw [List.foldlM_cons, mem_bind]
    constructor
    · rintro (now | ⟨next, passed, later⟩)
      · exact ⟨[], first, others, value, rfl, rfl, now⟩
      · obtain ⟨before, item, rest, middle, split, reached, performed⟩ := inductionHypothesis.mp later
        refine ⟨first :: before, item, rest, middle, by rw [split]; rfl, ?_, performed⟩
        rw [List.foldlM_cons, outcome_bind]
        exact ⟨next, passed, reached⟩
    · rintro ⟨before, item, rest, middle, split, reached, performed⟩
      cases before with
      | nil =>
        obtain ⟨rfl, rfl⟩ := List.cons.inj split
        cases reached
        exact Or.inl performed
      | cons head before =>
        obtain ⟨rfl, tail⟩ := List.cons.inj split
        rw [List.foldlM_cons, outcome_bind] at reached
        obtain ⟨next, passed, reached⟩ := reached
        exact Or.inr ⟨next, passed, inductionHypothesis.mpr ⟨before, item, rest, middle, tail, reached, performed⟩⟩

/-- A loop fails in the turn of one item, after the items before it. -/
theorem outcome_foldlM_error {Item : Type} {body : α → Item → Traced Access Failure α} {items : List Item}
    {value : α} {failure : Failure} (failed : (items.foldlM body value).outcome = .error failure) :
    ∃ before item rest middle, items = before ++ item :: rest ∧
      (before.foldlM body value).outcome = .ok middle ∧ (body middle item).outcome = .error failure := by
  induction items generalizing value with
  | nil => cases failed
  | cons first others inductionHypothesis =>
    rw [List.foldlM_cons] at failed
    cases turn : (body value first).outcome with
    | error other =>
      rw [bind_of_error turn] at failed
      exact ⟨[], first, others, value, rfl, rfl, turn.trans failed⟩
    | ok next =>
      rw [bind_of_ok turn] at failed
      obtain ⟨before, item, rest, middle, split, reached, last⟩ := inductionHypothesis failed
      refine ⟨first :: before, item, rest, middle, by rw [split]; rfl, ?_, last⟩
      rw [List.foldlM_cons, outcome_bind]
      exact ⟨next, turn, reached⟩

/-- One more turn of a loop. -/
theorem outcome_foldlM_snoc {Item : Type} {body : α → Item → Traced Access Failure α} {items : List Item}
    {item : Item} {value last : α} : ((items ++ [item]).foldlM body value).outcome = .ok last ↔
      ∃ middle, (items.foldlM body value).outcome = .ok middle ∧ (body middle item).outcome = .ok last := by
  induction items generalizing value with
  | nil =>
    simp [outcome_bind]
  | cons first rest inductionHypothesis =>
    rw [List.cons_append, List.foldlM_cons, outcome_bind, List.foldlM_cons]
    simp only [inductionHypothesis, outcome_bind]
    constructor
    · rintro ⟨next, passed, middle, reached, final⟩
      exact ⟨middle, ⟨next, passed, reached⟩, final⟩
    · rintro ⟨middle, ⟨next, passed, reached⟩, final⟩
      exact ⟨next, passed, middle, reached, final⟩

/-! ## Contracts -/

/-- Every access is admitted, and a returned value satisfies the postcondition. -/
def Ensures (admitted : Access → Prop) (post : α → Prop) (computation : Traced Access Failure α) : Prop :=
  (∀ access ∈ computation.accesses, admitted access) ∧ ∀ value, computation.outcome = .ok value → post value

variable {admitted : Access → Prop} {post : α → Prop} {after : β → Prop}

/-- A value ensures what holds of it. -/
theorem ensures_pure {value : α} (holds : post value) :
    Ensures admitted post (pure value : Traced Access Failure α) := by
  refine ⟨by simp, fun other same => ?_⟩
  cases same
  exact holds

/-- A failure ensures everything. -/
theorem ensures_fail (failure : Failure) : Ensures admitted post (fail failure : Traced Access Failure α) :=
  ⟨by simp, fun _ impossible => by cases impossible⟩

/-- An access that is admitted may be performed. -/
theorem ensures_perform {access : Access} (holds : admitted access) :
    Ensures admitted (fun _ => True) (perform access : Traced Access Failure Unit) :=
  ⟨by simpa using holds, fun _ _ => trivial⟩

/-- After a check its condition holds. -/
theorem ensures_check (condition : Prop) [Decidable condition] (failure : Failure) :
    Ensures admitted (fun _ => condition) (check condition failure : Traced Access Failure Unit) := by
  unfold check
  split
  · rename_i holds
    exact ensures_pure holds
  · exact ensures_fail failure

/-- The two parts of a sequence, the second one knowing what the first ensures. -/
theorem ensures_bind {first : Traced Access Failure α} {next : α → Traced Access Failure β}
    (firstEnsures : Ensures admitted post first)
    (nextEnsures : ∀ value, post value → Ensures admitted after (next value)) :
    Ensures admitted after (first >>= next) := by
  refine ⟨fun access performed => ?_, fun value returned => ?_⟩
  · rcases mem_bind.mp performed with early | ⟨middle, passed, late⟩
    · exact firstEnsures.1 access early
    · exact (nextEnsures middle (firstEnsures.2 middle passed)).1 access late
  · obtain ⟨middle, passed, last⟩ := outcome_bind.mp returned
    exact (nextEnsures middle (firstEnsures.2 middle passed)).2 value last

/-- A computation ensures what follows from what it ensures. -/
theorem Ensures.mono {weaker : α → Prop} {computation : Traced Access Failure α}
    (ensures : Ensures admitted post computation) (implies : ∀ value, post value → weaker value) :
    Ensures admitted weaker computation :=
  ⟨ensures.1, fun value returned => implies value (ensures.2 value returned)⟩

/-- A loop over a list keeps an invariant of the elements done and the value so far. -/
theorem ensures_foldlM {Item : Type} {body : α → Item → Traced Access Failure α}
    (invariant : List Item → α → Prop) (items : List Item)
    (each : ∀ before item value, item ∈ items → invariant before value →
      Ensures admitted (invariant (before ++ [item])) (body value item))
    (done : List Item) (value : α) (start : invariant done value) :
    Ensures admitted (invariant (done ++ items)) (items.foldlM body value) := by
  induction items generalizing done value with
  | nil => exact ensures_pure (by simpa using start)
  | cons item rest inductionHypothesis =>
    rw [List.foldlM_cons]
    refine ensures_bind (each done item value List.mem_cons_self start) (fun next holds => ?_)
    have later := inductionHypothesis
      (fun before other value member => each before other value (List.mem_cons_of_mem _ member))
      (done ++ [item]) next holds
    simpa using later

end Traced

end SeriesxEmu
