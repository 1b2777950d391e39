import SeriesxEmu.WaitAnswers
import SeriesxEmu.Words

/-!
# Who owns a mutant

A mutant of the handle table is free, or it is owned by one unfinished fiber as
many times as that fiber has acquired and not released it. A fiber that ends
while it owns the mutant leaves it abandoned, and the wait that acquires it next
is told so. While a fiber is being ended its mutants are freed one by one before
the fiber is finished; the invariant is relaxed for that stretch.
-/

namespace SeriesxEmu

open Scheduler GuestScheduler

/-- What an entry of the history adds to the hold of a fiber on an object. -/
def Event.holding (fiber : Nat) (ptr : Ptr) : Event → Int
  | .satisfied holder _ objects _ => if holder = fiber then objects.count ptr else 0
  | .owned holder mutant => if holder = fiber ∧ mutant = ptr then 1 else 0
  | .released holder object count => if holder = fiber ∧ object = ptr then -count else 0
  | _ => 0

/-- The acquisitions of a fiber, counting an initial ownership as one, minus its
releases. -/
def heldBy (history : List Event) (fiber : Nat) (ptr : Ptr) : Int :=
  (history.map (Event.holding fiber ptr)).sum

/-- The owner has ended while it owned the mutant, and no wait has acquired it since. -/
def orphaned (ptr : Ptr) : List Event → Bool
  | [] => false
  | .satisfied _ _ objects _ :: earlier => !objects.contains ptr && orphaned ptr earlier
  | .finished fiber :: earlier => decide (0 < heldBy earlier fiber ptr) || orphaned ptr earlier
  | _ :: earlier => orphaned ptr earlier

/-- What a fiber holds is counted entry by entry. -/
theorem heldBy_append (left right : List Event) (fiber : Nat) (ptr : Ptr) :
    heldBy (left ++ right) fiber ptr = heldBy left fiber ptr + heldBy right fiber ptr := by
  simp [heldBy]

/-- An entry that does not mention the object changes nobody's hold on it. -/
theorem holding_unmentioned {event : Event} {ptr : Ptr} (absent : ptr ∉ event.mentions) (fiber : Nat) :
    Event.holding fiber ptr event = 0 := by
  cases event with
  | satisfied holder mode objects status =>
    have unheld : objects.count ptr = 0 := List.count_eq_zero.mpr absent
    simp [Event.holding, unheld]
  | owned holder mutant =>
    have different : mutant ≠ ptr := fun same => absent (List.mem_singleton.mpr same.symm)
    simp [Event.holding, different]
  | released holder object count =>
    have different : object ≠ ptr := fun same => absent (List.mem_singleton.mpr same.symm)
    simp [Event.holding, different]
  | _ => rfl

/-- A mutant that the history does not mention is held by nobody. -/
theorem heldBy_unmentioned {history : List Event} {ptr : Ptr}
    (unmentioned : ∀ event ∈ history, ptr ∉ event.mentions) (fiber : Nat) : heldBy history fiber ptr = 0 := by
  rw [heldBy, List.map_congr_left (fun event member => holding_unmentioned (unmentioned event member) fiber)]
  simp

/-- Nor has it been left behind. -/
theorem orphaned_unmentioned {history : List Event} {ptr : Ptr}
    (unmentioned : ∀ event ∈ history, ptr ∉ event.mentions) : orphaned ptr history = false := by
  induction history with
  | nil => rfl
  | cons event earlier inductionHypothesis =>
    have rest := inductionHypothesis (fun other member => unmentioned other (List.mem_cons_of_mem event member))
    cases event with
    | satisfied fiber mode objects status => simp [orphaned, rest]
    | finished fiber =>
      have unheld := heldBy_unmentioned
        (fun other member => unmentioned other (List.mem_cons_of_mem _ member)) fiber
      simp [orphaned, rest, unheld]
    | _ => simpa [orphaned] using rest

/-- An entry that does not mention the object and ends no fiber orphans nothing. -/
theorem orphaned_cons {event : Event} {ptr : Ptr} (absent : ptr ∉ event.mentions)
    (alive : ∀ fiber, event ≠ .finished fiber) (earlier : List Event) :
    orphaned ptr (event :: earlier) = orphaned ptr earlier := by
  cases event with
  | satisfied fiber mode objects status =>
    have unheld : ptr ∉ objects := absent
    simp [orphaned, unheld]
  | finished fiber => exact absurd rfl (alive fiber)
  | _ => rfl

/-- Entries that do not mention a mutant, and in which nobody ends, leave it behind or not, as
before. -/
theorem orphaned_append {events : List Event} {ptr : Ptr} (absent : ∀ event ∈ events, ptr ∉ event.mentions)
    (alive : ∀ fiber, .finished fiber ∉ events) (earlier : List Event) :
    orphaned ptr (events ++ earlier) = orphaned ptr earlier := by
  induction events with
  | nil => rfl
  | cons event rest inductionHypothesis =>
    rw [List.cons_append, orphaned_cons (absent event List.mem_cons_self)]
    · exact inductionHypothesis (fun other member => absent other (List.mem_cons_of_mem event member))
        (fun fiber member => alive fiber (List.mem_cons_of_mem event member))
    · rintro fiber rfl
      exact alive fiber List.mem_cons_self

namespace XboxKrnl

variable {krnl next : XboxKrnl}

/-- A live mutant in the handle table; only `NtCreateMutant` makes one. -/
def TabledMutant (krnl : XboxKrnl) (ptr : Ptr) (object : DispatcherObject) : Prop :=
  (∃ slot, krnl.registry.table slot = some ptr) ∧ krnl.object? ptr = some object ∧ object.kind = .mutant

/-- Every mutant is free, or owned by exactly one unfinished fiber as often as the
history says; an abandoned mutant is free. -/
def MutantsOwned (krnl : XboxKrnl) : Prop :=
  ∀ ptr object, krnl.TabledMutant ptr object →
    ((object.mutant.signalState = 1 ∧ object.mutant.owner = 0) ∨
      (object.mutant.owner ≠ 0 ∧ ∃ fiber ∈ krnl.sched.threads, fiber.state ≠ .finished ∧
        krnl.tokenOf fiber.handle = object.mutant.owner ∧
        (∀ other ∈ krnl.sched.threads, krnl.tokenOf other.handle = object.mutant.owner → other = fiber) ∧
        object.mutant.signalState = 1 - heldBy krnl.history fiber.handle ptr ∧
        object.mutant.signalState ≤ 0)) ∧
    (object.mutant.abandoned = true → object.mutant.signalState = 1 ∧ object.mutant.owner = 0)

/-- The invariant of one mutant. While the running fiber is being ended, a mutant
that it has just left behind is not orphaned yet by the history. -/
structure Owned (krnl : XboxKrnl) (dying : Bool) (ptr : Ptr) (object : DispatcherObject) : Prop where
  free : object.mutant.owner = 0 → object.mutant.signalState = 1
  owner : object.mutant.owner ≠ 0 → object.mutant.abandoned = false ∧ ∃ fiber ∈ krnl.sched.threads,
    fiber.state ≠ .finished ∧ krnl.tokenOf fiber.handle = object.mutant.owner ∧
      object.mutant.signalState = 1 - heldBy krnl.history fiber.handle ptr ∧ object.mutant.signalState ≤ 0
  counts : ∀ handle, 0 ≤ heldBy krnl.history handle ptr
  holders : ∀ handle, 0 < heldBy krnl.history handle ptr →
    (object.mutant.owner ≠ 0 ∧ krnl.tokenOf handle = object.mutant.owner) ∨
    (∃ fiber ∈ krnl.sched.threads, fiber.handle = handle ∧ fiber.state = .finished) ∨
    (dying = true ∧ handle = krnl.currentHandle ∧ object.mutant.abandoned = true)
  orphan : object.mutant.abandoned = orphaned ptr krnl.history ∨
    (dying = true ∧ object.mutant.abandoned = true ∧ 0 < heldBy krnl.history krnl.currentHandle ptr)

/-- The invariant of all mutants in the handle table. -/
structure MutantsOk (dying : Bool) (krnl : XboxKrnl) : Prop where
  recorded : krnl.Recorded
  each : ∀ ptr object, krnl.TabledMutant ptr object → krnl.Owned dying ptr object

/-- The invariant says how mutants are owned. -/
theorem MutantsOk.owned (mutants : krnl.MutantsOk false) (ok : krnl.Ok) : krnl.MutantsOwned := by
  intro ptr object tabled
  have owned := mutants.each ptr object tabled
  by_cases zero : object.mutant.owner = 0
  · exact ⟨Or.inl ⟨owned.free zero, zero⟩, fun _ => ⟨owned.free zero, zero⟩⟩
  · obtain ⟨clean, fiber, member, unfinished, token, count, negative⟩ := owned.owner zero
    refine ⟨Or.inr ⟨zero, fiber, member, unfinished, token, fun other found same => ?_, count, negative⟩,
      fun abandoned => ?_⟩
    · have handles := ok.tokenOf_injective (by rw [same]; exact zero) (same.trans token.symm)
      exact ok.fibers.unique found member handles
    · rw [clean] at abandoned
      cases abandoned

/-! ## Effects that leave a mutant alone -/

/-- No other effect than an exit ends a fiber. -/
theorem events_alive {effect : Effect} (stays : effect.label ≠ .exiting) (fiber : Nat) :
    .finished fiber ∉ effect.events krnl := by
  intro member
  cases effect with
  | exit code => exact stays rfl
  | create made =>
    simp only [Effect.events, birth] at member
    split at member <;> (try split at member) <;> simp at member
  | resumeThread target =>
    simp only [Effect.events] at member
    split at member <;> simp at member
  | _ => simp [Effect.events] at member

/-- What concerns the mutant is as it was. -/
theorem Owned.idle {dying : Bool} {ptr : Ptr} {object after : DispatcherObject} (owned : krnl.Owned dying ptr object)
    (ok : krnl.Ok) {effect : Effect} (allowed : effect.Allowed krnl) (stays : effect.label ≠ .exiting)
    (same : after.mutant = object.mutant) (unmentioned : ∀ event ∈ effect.events krnl, ptr ∉ event.mentions)
    (current : dying = true → (effect.apply krnl).currentHandle = krnl.currentHandle) :
    (effect.apply krnl).Owned dying ptr after := by
  have held : ∀ handle, heldBy (effect.apply krnl).history handle ptr = heldBy krnl.history handle ptr := by
    intro handle
    rw [history_apply ok allowed, heldBy_append, heldBy_unmentioned unmentioned, Int.zero_add]
  have orphans : orphaned ptr (effect.apply krnl).history = orphaned ptr krnl.history := by
    rw [history_apply ok allowed]
    exact orphaned_append unmentioned (events_alive stays) krnl.history
  have tokens : ∀ handle, object.mutant.owner ≠ 0 → krnl.tokenOf handle = object.mutant.owner →
      (effect.apply krnl).tokenOf handle = object.mutant.owner := by
    intro handle owner token
    rcases Effect.tokenOf_apply ok allowed handle with kept | ⟨_, _, zero, _⟩
    · exact kept.trans token
    · exact absurd (token.symm.trans zero) owner
  refine ⟨?_, ?_, ?_, ?_, ?_⟩
  · rw [same]
    exact owned.free
  · rw [same]
    intro owner
    obtain ⟨clean, fiber, member, unfinished, token, count, negative⟩ := owned.owner owner
    obtain ⟨later, found, handle, state⟩ := Effect.fiber_lasts ok allowed stays member
    refine ⟨clean, later, found, fun finished => unfinished (state.mp finished), ?_, ?_, negative⟩
    · rw [handle]
      exact tokens _ owner token
    · rw [held, handle]
      exact count
  · intro handle
    rw [held]
    exact owned.counts handle
  · intro handle holds
    rw [held] at holds
    rw [same]
    rcases owned.holders handle holds with ⟨owner, token⟩ | ⟨fiber, member, here, finished⟩ | ⟨ending, here, left⟩
    · exact Or.inl ⟨owner, tokens handle owner token⟩
    · obtain ⟨later, found, kept, state⟩ := Effect.fiber_lasts ok allowed stays member
      exact Or.inr (Or.inl ⟨later, found, kept.trans here, state.mpr finished⟩)
    · exact Or.inr (Or.inr ⟨ending, here.trans (current ending).symm, left⟩)
  · rw [same, orphans]
    rcases owned.orphan with equal | ⟨ending, left, holds⟩
    · exact Or.inl equal
    · refine Or.inr ⟨ending, left, ?_⟩
      rw [held, current ending]
      exact holds

/-! ## Acquisition -/

/-- A mutant that is taken several times is owned as often. -/
theorem taken_mutant (krnl : XboxKrnl) (inFiber : krnl.currentHandle ≠ 0) (count : Nat) (object : DispatcherObject)
    (kind : object.kind = .mutant) :
    (krnl.takeOne^[count + 1] object).mutant =
      ⟨object.mutant.signalState - (count + 1), krnl.tokenOf krnl.currentHandle, false⟩ := by
  have kinds : ∀ times, (krnl.takeOne^[times] object).kind = .mutant := fun times =>
    (Effect.taken_part krnl DispatcherObject.kind
      (fun o => DispatcherObject.kind_of_shape (krnl.takeOne_shape o)) times object).trans kind
  induction count with
  | zero => simp [takeOne, kind, inFiber, takeMutant]
  | succ count inductionHypothesis =>
    have still := kinds (count + 1)
    rw [Function.iterate_succ_apply']
    simp only [takeOne, still, inFiber, ↓reduceIte, takeMutant, inductionHypothesis, MutantPart.mk.injEq,
      and_self, and_true]
    push_cast
    omega

/-- The running fiber holds a mutant that is satisfied for it as often as the signal
state says. -/
theorem Owned.held_current {ptr : Ptr} {object : DispatcherObject} (owned : krnl.Owned false ptr object)
    (ok : krnl.Ok) {fiber : Fiber} (running : krnl.currentFiber = some fiber)
    (live : krnl.object? ptr = some object) (kind : object.kind = .mutant)
    (satisfied : krnl.satisfiedAs krnl.currentHandle ptr = true) :
    object.mutant.signalState = 1 - heldBy krnl.history krnl.currentHandle ptr ∧
      ∀ handle, object.mutant.owner ≠ 0 → krnl.tokenOf handle = object.mutant.owner →
        handle = krnl.currentHandle := by
  obtain ⟨member, _, _, state⟩ := ok.running running
  have handle := currentHandle_of_fiber running
  by_cases zero : object.mutant.owner = 0
  · refine ⟨?_, fun _ owner => absurd zero owner⟩
    have free := owned.free zero
    have count := owned.counts krnl.currentHandle
    have unheld : ¬ 0 < heldBy krnl.history krnl.currentHandle ptr := by
      intro holds
      rcases owned.holders _ holds with ⟨owner, _⟩ | ⟨other, found, same, finished⟩ | ⟨ending, _⟩
      · exact owner zero
      · rw [ok.fibers.unique found member (same.trans handle)] at finished
        rw [finished] at state
        simp at state
      · cases ending
    omega
  · obtain ⟨_, holder, found, _, token, count, negative⟩ := owned.owner zero
    have self : object.mutant.owner = krnl.tokenOf krnl.currentHandle := by
      have held : ¬ 0 < object.mutant.signalState := by omega
      simpa [satisfiedAs, krnl.object_eq _ _ live, kind, held, zero] using satisfied
    have unique : ∀ other, krnl.tokenOf other = object.mutant.owner → other = krnl.currentHandle := fun other same =>
      ok.tokenOf_injective (by rw [same]; exact zero) (same.trans self)
    refine ⟨?_, fun other _ same => unique other same⟩
    rw [← unique _ token]
    exact count

/-- An acquisition adds to what the running fiber holds.

Proof: the mutant was free or the caller's own, so that nobody else holds it. The history gains one
acquisition for every time that the wait names it, and the count in the mutant falls by as many. -/
theorem Owned.acquire {ptr : Ptr} {object : DispatcherObject} (owned : krnl.Owned false ptr object)
    (ok : krnl.Ok) {mode : WaitMode} {ptrs : List Ptr} {status : Nat}
    (allowed : (Effect.acquire mode ptrs status).Allowed krnl) (live : krnl.object? ptr = some object)
    (kind : object.kind = .mutant) (inFiber : krnl.currentHandle ≠ 0) (named : ptr ∈ ptrs) :
    ((Effect.acquire mode ptrs status).apply krnl).Owned false ptr
      ((Effect.acquire mode ptrs status).rewrite krnl ptr object) := by
  obtain ⟨fiber, running, handle⟩ := currentFiber_of_handle inFiber
  obtain ⟨member, _, _, state⟩ := ok.running running
  have waitable := allowed.1
  have identified := allowed.2.1
  obtain ⟨count, unique⟩ := owned.held_current ok running live kind (waitable ptr named).2
  have token : krnl.tokenOf krnl.currentHandle ≠ 0 :=
    (ok.tokenOf_ne_zero _).mpr (identified ptr named (by rw [krnl.object_eq _ _ live]; exact kind) inFiber)
  have positive : 0 < ptrs.count ptr := List.count_pos_iff.mpr named
  obtain ⟨times, counted⟩ : ∃ times, ptrs.count ptr = times + 1 := ⟨ptrs.count ptr - 1, by omega⟩
  have usable : ∀ other, krnl.acquirable other = true := by simp [acquirable, XboxKrnl.inFiber, inFiber]
  have all : ptrs.filter krnl.acquirable = ptrs := List.filter_eq_self.mpr (fun other _ => usable other)
  have registry := Effect.registry_apply ok allowed rfl
  have history := history_apply ok allowed
  have threads := (Effect.leads ok (.acquire mode ptrs status) allowed (by cases mode <;> simp [Effect.label])).threads
  have part : ((Effect.acquire mode ptrs status).rewrite krnl ptr object).mutant = _ :=
    (congrArg (fun times => (krnl.takeOne^[times] object).mutant) counted).trans
      (krnl.taken_mutant inFiber times object kind)
  have held : ∀ other, heldBy ((Effect.acquire mode ptrs status).apply krnl).history other ptr =
      (if krnl.currentHandle = other then (times + 1 : Int) else 0) + heldBy krnl.history other ptr := by
    intro other
    rw [history, heldBy_append]
    simp [heldBy, Effect.events, Event.holding, all, counted]
  refine ⟨?_, ?_, ?_, ?_, ?_⟩
  · rw [part]
    exact fun zero => absurd zero token
  · rw [part]
    intro _
    refine ⟨rfl, fiber, by rw [threads]; exact member, ?_, ?_, ?_, ?_⟩
    · rcases state with ready | runs
      · rw [ready]; simp
      · rw [runs]; simp
    · rw [tokenOf_congr registry, ← handle]
    · rw [held, ← handle]
      simp only [↓reduceIte]
      omega
    · have before := owned.counts krnl.currentHandle
      simp only
      omega
  · intro other
    have before := owned.counts other
    rw [held]
    split <;> omega
  · intro other holds
    rw [held] at holds
    rw [part]
    by_cases same : krnl.currentHandle = other
    · left
      refine ⟨token, ?_⟩
      rw [tokenOf_congr registry, same]
    · rw [if_neg same, Int.zero_add] at holds
      rcases owned.holders other holds with ⟨owner, sameToken⟩ | ⟨ended, found, here, finished⟩ | ⟨ending, _⟩
      · exact absurd (unique other owner sameToken).symm same
      · exact Or.inr (Or.inl ⟨ended, by rw [threads]; exact found, here, finished⟩)
      · cases ending
  · left
    rw [part, history]
    simp [Effect.events, orphaned, all, named]

/-! ## Release -/

/-- The owner of a mutant, by its token. -/
theorem Owned.owner_handle {dying : Bool} {ptr : Ptr} {object : DispatcherObject}
    (owned : krnl.Owned dying ptr object) (ok : krnl.Ok) (owner : object.mutant.owner ≠ 0)
    (self : object.mutant.owner = krnl.tokenOf krnl.currentHandle) :
    object.mutant.abandoned = false ∧ (∃ fiber ∈ krnl.sched.threads, fiber.handle = krnl.currentHandle ∧
        fiber.state ≠ .finished) ∧
      object.mutant.signalState = 1 - heldBy krnl.history krnl.currentHandle ptr ∧ object.mutant.signalState ≤ 0 ∧
      ∀ handle, krnl.tokenOf handle = object.mutant.owner → handle = krnl.currentHandle := by
  obtain ⟨clean, fiber, member, unfinished, token, count, negative⟩ := owned.owner owner
  have unique : ∀ other, krnl.tokenOf other = object.mutant.owner → other = krnl.currentHandle := fun other same =>
    ok.tokenOf_injective (by rw [same]; exact owner) (same.trans self)
  have here := unique _ token
  rw [here] at count
  exact ⟨clean, ⟨fiber, member, here, unfinished⟩, count, negative, unique⟩

/-- A release by the owner takes one away, and the last one frees the mutant.

Proof: the owner is the fiber that runs, and it alone holds the mutant. The history and the count
each lose one; when the count says free, the history says that nobody holds it. -/
theorem Owned.release {ptr : Ptr} {object : DispatcherObject} (owned : krnl.Owned false ptr object)
    (ok : krnl.Ok) (allowed : (Effect.releaseMutant ptr).Allowed krnl)
    (owner : object.mutant.owner ≠ 0) (self : object.mutant.owner = krnl.tokenOf krnl.currentHandle) :
    ((Effect.releaseMutant ptr).apply krnl).Owned false ptr
      ((Effect.releaseMutant ptr).rewrite krnl ptr object) := by
  obtain ⟨clean, ⟨fiber, member, here, unfinished⟩, count, negative, unique⟩ := owned.owner_handle ok owner self
  have registry := Effect.registry_apply ok allowed rfl
  have history := history_apply ok allowed
  have held : ∀ other, heldBy ((Effect.releaseMutant ptr).apply krnl).history other ptr =
      (if krnl.currentHandle = other then -1 else 0) + heldBy krnl.history other ptr := by
    intro other
    rw [history, heldBy_append]
    simp [heldBy, Effect.events, Event.holding]
  have part : ((Effect.releaseMutant ptr).rewrite krnl ptr object).mutant =
      ⟨object.mutant.signalState + 1, if 0 < object.mutant.signalState + 1 then 0 else object.mutant.owner,
        object.mutant.abandoned⟩ := by
    simp only [Effect.rewrite, Effect.onlyAt, ↓reduceIte]
    split <;> rename_i freed <;> simp [putMutant, clearWaiters, freed]
  obtain ⟨later, found, handle, state⟩ := Effect.fiber_lasts ok allowed (by simp [Effect.label]) member
  refine ⟨?_, ?_, ?_, ?_, ?_⟩
  · rw [part]
    simp only
    split
    · intro _
      omega
    · exact fun zero => absurd zero owner
  · rw [part]
    simp only
    split
    · exact fun nonzero => absurd rfl nonzero
    · intro _
      refine ⟨clean, later, found, fun finished => unfinished (state.mp finished), ?_, ?_, by omega⟩
      · rw [tokenOf_congr registry, handle, here, ← self]
      · rw [held, handle, here]
        simp only [↓reduceIte]
        omega
  · intro other
    have before := owned.counts other
    rw [held]
    split
    · rename_i same
      subst same
      omega
    · omega
  · intro other holds
    rw [held] at holds
    rw [part]
    simp only
    by_cases same : krnl.currentHandle = other
    · subst same
      simp only [↓reduceIte] at holds
      have more : ¬ 0 < object.mutant.signalState + 1 := by omega
      left
      rw [if_neg more, tokenOf_congr registry]
      exact ⟨owner, self.symm⟩
    · rw [if_neg same, Int.zero_add] at holds
      rcases owned.holders other holds with ⟨_, token⟩ | ⟨ended, isThere, ofHandle, finished⟩ | ⟨ending, _⟩
      · exact absurd (unique other token).symm same
      · obtain ⟨still, stillFound, kept, stillState⟩ :=
          Effect.fiber_lasts ok allowed (by simp [Effect.label]) isThere
        exact Or.inr (Or.inl ⟨still, stillFound, kept.trans ofHandle, stillState.mpr finished⟩)
      · cases ending
  · left
    rw [part, history]
    rcases owned.orphan with equal | ⟨ending, _⟩
    · exact equal
    · cases ending

/-! ## Creation -/

/-- A new mutant is free, or owned once by its creator.

Proof: nothing in the history mentions an object that did not exist, so that the birth event alone
says who holds it. -/
theorem Owned.create (recorded : krnl.Recorded) (ok : krnl.Ok) {made : DispatcherObject}
    (allowed : (Effect.create made).Allowed krnl) (kind : made.kind = .mutant) :
    ((Effect.create made).apply krnl).Owned false krnl.heap.length
      { made with token := .object krnl.freshAddress } := by
  have unmentioned : ∀ event ∈ krnl.history, krnl.heap.length ∉ event.mentions := fun event member mentioned =>
    Nat.lt_irrefl _ (recorded event member _ mentioned)
  obtain ⟨clean, state⟩ := allowed.1.2.2 kind
  have history := history_apply ok allowed
  have held : ∀ handle, heldBy ((Effect.create made).apply krnl).history handle krnl.heap.length =
      if made.mutant.owner ≠ 0 ∧ krnl.currentHandle = handle then 1 else 0 := by
    intro handle
    rw [history, heldBy_append, heldBy_unmentioned unmentioned, Int.add_zero]
    simp only [Effect.events, birth, kind]
    by_cases zero : made.mutant.owner = 0
    · simp [zero, heldBy]
    · simp [zero, heldBy, Event.holding]
  have orphans : orphaned krnl.heap.length ((Effect.create made).apply krnl).history = false := by
    rw [history]
    have old := orphaned_unmentioned unmentioned
    simp only [Effect.events, birth, kind]
    split
    · simpa using old
    · simpa [orphaned] using old
  refine ⟨?_, ?_, ?_, ?_, ?_⟩
  · intro zero
    rcases state with ⟨free, _⟩ | ⟨_, owned, _⟩
    · exact free
    · exact absurd zero owned
  · intro owner
    rcases state with ⟨_, zero⟩ | ⟨taken, _, self⟩
    · exact absurd zero owner
    · have inFiber : krnl.currentHandle ≠ 0 := by
        intro host
        have token : krnl.tokenOf krnl.currentHandle ≠ 0 := by rw [← self]; exact owner
        obtain ⟨ptr, found⟩ := (ok.tokenOf_ne_zero _).mp token
        exact (live_of_identity ok.registry found).1 host
      obtain ⟨fiber, running, handle⟩ := currentFiber_of_handle inFiber
      obtain ⟨member, _, _, alive⟩ := ok.running running
      obtain ⟨later, found, sameHandle, sameState⟩ := Effect.fiber_lasts ok allowed (by simp [Effect.label]) member
      refine ⟨clean, later, found, fun finished => ?_, ?_, ?_, ?_⟩
      · rw [sameState.mp finished] at alive
        simp at alive
      · rw [sameHandle, ← handle]
        rcases Effect.tokenOf_apply ok allowed krnl.currentHandle with kept | ⟨other, _⟩
        · exact kept.trans self.symm
        · cases other
      · rw [held, sameHandle, ← handle]
        have bothTrue : made.mutant.owner ≠ 0 ∧ krnl.currentHandle = krnl.currentHandle := ⟨owner, rfl⟩
        rw [if_pos bothTrue]
        simpa using taken
      · simp [taken]
  · intro handle
    rw [held]
    split <;> omega
  · intro handle holds
    rw [held] at holds
    split at holds
    · rename_i both
      obtain ⟨owner, same⟩ := both
      left
      refine ⟨owner, ?_⟩
      rcases state with ⟨_, zero⟩ | ⟨_, _, self⟩
      · exact absurd zero owner
      · rw [← same]
        rcases Effect.tokenOf_apply ok allowed krnl.currentHandle with kept | ⟨other, _⟩
        · exact kept.trans self.symm
        · cases other
    · omega
  · exact Or.inl (clean.trans orphans.symm)

/-! ## The end of the owner -/

/-- An owner that ends leaves its mutant free and abandoned. -/
theorem Owned.abandon {ptr : Ptr} {object : DispatcherObject} (owned : krnl.Owned true ptr object)
    (ok : krnl.Ok) (allowed : (Effect.abandon ptr).Allowed krnl)
    (owner : object.mutant.owner ≠ 0) (self : object.mutant.owner = krnl.tokenOf krnl.currentHandle) :
    ((Effect.abandon ptr).apply krnl).Owned true ptr ((Effect.abandon ptr).rewrite krnl ptr object) := by
  obtain ⟨_, _, count, negative, unique⟩ := owned.owner_handle ok owner self
  have history := history_apply ok allowed
  have current := Effect.currentHandle_apply ok allowed (by simp [Effect.label]) rfl
  have part : ((Effect.abandon ptr).rewrite krnl ptr object).mutant = ⟨1, 0, true⟩ := by
    simp [Effect.rewrite, Effect.onlyAt, clearWaiters, abandonMutant]
  refine ⟨fun _ => by rw [part], fun owner => absurd (by rw [part]) owner, ?_, ?_, ?_⟩
  · rw [history]
    exact owned.counts
  · intro other holds
    rw [history] at holds
    rw [part, current]
    rcases owned.holders other holds with ⟨_, token⟩ | ⟨fiber, member, here, finished⟩ | ⟨_, here, _⟩
    · exact Or.inr (Or.inr ⟨rfl, unique other token, rfl⟩)
    · obtain ⟨still, found, kept, state⟩ := Effect.fiber_lasts ok allowed (by simp [Effect.label]) member
      exact Or.inr (Or.inl ⟨still, found, kept.trans here, state.mpr finished⟩)
    · exact Or.inr (Or.inr ⟨rfl, here, rfl⟩)
  · right
    rw [part, history, current]
    refine ⟨rfl, rfl, ?_⟩
    have holds : 0 < heldBy krnl.history krnl.currentHandle ptr := by omega
    exact holds

/-- The exit of the running fiber makes the history say what its end has left.

Proof: an exit is allowed only when the running fiber owns no mutant any more. The fibers other than
this one stay, and the owner of the mutant, if there is one, is among them. -/
theorem Owned.exit {ptr : Ptr} {object : DispatcherObject} (owned : krnl.Owned true ptr object) (ok : krnl.Ok)
    {code : Int} (allowed : (Effect.exit code).Allowed krnl) (live : krnl.object? ptr = some object)
    (kind : object.kind = .mutant) : ((Effect.exit code).apply krnl).Owned false ptr object := by
  obtain ⟨fiber, running, _⟩ := allowed.1
  have disowned := allowed.2 ptr object live kind
  obtain ⟨member, _, _, alive⟩ := ok.running running
  obtain ⟨index, switched, found⟩ := currentFiber_index running
  have handle := currentHandle_of_fiber running
  have registry := Effect.registry_apply ok allowed rfl
  have history : ((Effect.exit code).apply krnl).history = .finished krnl.currentHandle :: krnl.history := by
    rw [history_apply ok allowed]
    simp [Effect.events, switched]
  have threads : ((Effect.exit code).apply krnl).sched.threads = krnl.sched.threads.modify index (ended code) := by
    rw [(Effect.leads ok (.exit code) allowed (by simp [Effect.label])).threads]
    exact krnl.onCurrent_some switched _
  have held : ∀ other, heldBy ((Effect.exit code).apply krnl).history other ptr = heldBy krnl.history other ptr := by
    intro other
    rw [history]
    simp [heldBy, Event.holding]
  have others : ∀ other ∈ krnl.sched.threads, other.handle ≠ krnl.currentHandle →
      other ∈ ((Effect.exit code).apply krnl).sched.threads := by
    intro other isThere different
    obtain ⟨place, here⟩ := List.mem_iff_getElem?.mp isThere
    have apart : index ≠ place := by
      rintro rfl
      obtain rfl := Option.some.inj (found.symm.trans here)
      exact different handle.symm
    rw [threads]
    exact List.mem_of_getElem? (i := place) (by simp [apart, here])
  have itself : ended code fiber ∈ ((Effect.exit code).apply krnl).sched.threads := by
    rw [threads]
    exact List.mem_of_getElem? (i := index) (by simp [found])
  have left : 0 < heldBy krnl.history krnl.currentHandle ptr → object.mutant.abandoned = true := by
    intro holds
    rcases owned.holders _ holds with ⟨owner, token⟩ | ⟨other, isThere, same, finished⟩ | ⟨_, _, abandoned⟩
    · exact absurd token.symm (disowned owner)
    · rw [ok.fibers.unique isThere member (same.trans handle)] at finished
      rw [finished] at alive
      simp at alive
    · exact abandoned
  refine ⟨owned.free, ?_, ?_, ?_, ?_⟩
  · intro owner
    obtain ⟨clean, other, isThere, unfinished, token, count, negative⟩ := owned.owner owner
    have different : other.handle ≠ krnl.currentHandle := by
      intro same
      rw [same] at token
      exact disowned owner token.symm
    refine ⟨clean, other, others other isThere different, unfinished, ?_, ?_, negative⟩
    · rw [tokenOf_congr registry]
      exact token
    · rw [held]
      exact count
  · intro other
    rw [held]
    exact owned.counts other
  · intro other holds
    rw [held] at holds
    rcases owned.holders other holds with ⟨owner, token⟩ | ⟨ended, isThere, same, finished⟩ | ⟨_, same, _⟩
    · exact Or.inl ⟨owner, (tokenOf_congr registry other).trans token⟩
    · by_cases different : ended.handle = krnl.currentHandle
      · refine Or.inr (Or.inl ⟨_, itself, ?_, rfl⟩)
        exact handle.symm.trans (different.symm.trans same)
      · exact Or.inr (Or.inl ⟨ended, others ended isThere different, same, finished⟩)
    · exact Or.inr (Or.inl ⟨_, itself, handle.symm.trans same.symm, rfl⟩)
  · left
    rw [history]
    simp only [orphaned]
    rcases owned.orphan with equal | ⟨_, abandoned, holds⟩
    · by_cases holds : 0 < heldBy krnl.history krnl.currentHandle ptr
      · simp [holds, left holds]
      · simp [holds, equal]
    · simp [holds, abandoned]

/-! ## All mutants -/

/-- A mutant of the handle table was there before, or is being created. -/
theorem tabledMutant_origin (ok : krnl.Ok) {effect : Effect} (allowed : effect.Allowed krnl) {ptr : Ptr}
    {after : DispatcherObject} (tabled : (effect.apply krnl).TabledMutant ptr after) :
    (∃ object, krnl.TabledMutant ptr object ∧ after = effect.rewrite krnl ptr object) ∨
      ∃ made, effect = .create made ∧ made.kind = .mutant ∧ ptr = krnl.heap.length ∧
        after = { made with token := .object krnl.freshAddress } := by
  obtain ⟨⟨slot, found⟩, live, kind⟩ := tabled
  rcases Effect.object_origin ok allowed live with ⟨object, before, rfl⟩ | ⟨fresh, born⟩
  · refine Or.inl ⟨object, ⟨⟨slot, Effect.tabled_before ok allowed before found⟩, before, ?_⟩, rfl⟩
    exact (DispatcherObject.kind_of_shape (effect.rewrite_shape krnl ptr object)).symm.trans kind
  · cases effect with
    | create made => exact Or.inr ⟨made, rfl, by rw [born] at kind; exact kind, fresh, born⟩
    | identify =>
      rw [born] at kind
      cases kind
    | install made =>
      exfalso
      have nextOk := (Effect.install made).sound ok allowed
      have located : ptr ∈ ((Effect.install made).apply krnl).vaObjects := by
        rw [fresh]
        exact List.mem_append_right _ (List.mem_singleton.mpr rfl)
      exact (nextOk.registry.atAddress ptr located).2 slot found
    | createThread request base =>
      obtain ⟨place, made⟩ := born
      rw [made] at kind
      cases kind
    | _ => exact born.elim

/-- A release of a mutant in the handle table is one by its owner. -/
theorem release_owner (ok : krnl.Ok) {ptr : Ptr} {object : DispatcherObject} (tabled : krnl.TabledMutant ptr object)
    (allowed : (Effect.releaseMutant ptr).Allowed krnl) :
    object.mutant.owner ≠ 0 ∧ object.mutant.owner = krnl.tokenOf krnl.currentHandle := by
  obtain ⟨⟨slot, found⟩, live, _⟩ := tabled
  obtain ⟨other, again, _, located | owner⟩ := allowed
  · exact absurd found ((ok.registry.atAddress ptr located).2 slot)
  · obtain rfl := Option.some.inj (live.symm.trans again)
    exact owner

/-- The entries of an effect that does not act on the mutant do not mention it. -/
theorem mutant_unmentioned {effect : Effect} (allowed : effect.Allowed krnl) {ptr : Ptr} {object : DispatcherObject}
    (live : krnl.object? ptr = some object) (kind : object.kind = .mutant)
    (keeps : ∀ mode ptrs status, effect = .acquire mode ptrs status → krnl.currentHandle ≠ 0 → ptr ∉ ptrs)
    (holds : effect ≠ .releaseMutant ptr) : ∀ event ∈ effect.events krnl, ptr ∉ event.mentions := by
  intro event member mentioned
  rcases events_mention allowed member mentioned with
    ⟨mode, ptrs, status, same, named, usable⟩ | ⟨other, again, isEvent⟩ | same | ⟨adjustment, rfl⟩ | ⟨fresh, _⟩
  · refine keeps mode ptrs status same ?_ named
    simpa [acquirable, krnl.object_eq _ _ live, kind, inFiber] using usable
  · obtain rfl := Option.some.inj (live.symm.trans again)
    rw [kind] at isEvent
    cases isEvent
  · exact holds same
  · obtain ⟨other, again, isSemaphore, _⟩ := allowed
    obtain rfl := Option.some.inj (live.symm.trans again)
    rw [kind] at isSemaphore
    cases isSemaphore
  · exact absurd fresh (Nat.ne_of_lt (krnl.object?_inside _ _ live))

/-- No other effect changes the mutant. -/
theorem rewrite_mutant {effect : Effect} {ptr : Ptr} {object : DispatcherObject} (kind : object.kind = .mutant)
    (keeps : ∀ mode ptrs status, effect = .acquire mode ptrs status → krnl.currentHandle ≠ 0 → ptr ∉ ptrs)
    (holds : effect ≠ .releaseMutant ptr) (lives : effect ≠ .abandon ptr) :
    (effect.rewrite krnl ptr object).mutant = object.mutant := by
  have only : ∀ (target : Ptr) (change : DispatcherObject → DispatcherObject),
      (change object).mutant = object.mutant → (Effect.onlyAt target change ptr object).mutant = object.mutant :=
    fun target change same => Effect.onlyAt_holds (fun o => o.mutant = object.mutant) same rfl
  have elsewhere : ∀ (target : Ptr) (change : DispatcherObject → DispatcherObject), ptr ≠ target →
      (Effect.onlyAt target change ptr object).mutant = object.mutant := by
    intro target change different
    simp [Effect.onlyAt, different]
  cases effect with
  | acquire mode ptrs status =>
    by_cases host : krnl.currentHandle = 0
    · have fixed : krnl.takeOne object = object := by simp [takeOne, kind, host]
      simp only [Effect.rewrite]
      rw [Function.iterate_fixed fixed]
    · have absent : ptrs.count ptr = 0 := List.count_eq_zero.mpr (keeps mode ptrs status rfl host)
      simp [Effect.rewrite, absent]
  | releaseMutant target => exact elsewhere target _ (fun same => holds (by rw [same]))
  | abandon target => exact elsewhere target _ (fun same => lives (by rw [same]))
  | suspendSelf target out reply => exact only target _ rfl
  | adjust target change => exact only target _ (by cases change <;> rfl)
  | setEvent target => exact only target _ rfl
  | pulseEvent target => exact only target _ rfl
  | releaseSemaphore target adjustment => exact only target _ rfl
  | resumeThread target => exact only target _ rfl
  | wakeJoiner target => exact only target _ rfl
  | _ => rfl

/-- Effects that end no thread keep the strict invariant. -/
theorem MutantsOk.alive (mutants : krnl.MutantsOk false) (ok : krnl.Ok) {effect : Effect}
    (allowed : effect.Allowed krnl) (lives : effect.label ≠ .ending) (stays : effect.label ≠ .exiting) :
    (effect.apply krnl).MutantsOk false := by
  refine ⟨mutants.recorded.effect ok allowed, fun ptr after tabled => ?_⟩
  rcases tabledMutant_origin ok allowed tabled with ⟨object, before, rfl⟩ | ⟨made, rfl, kind, rfl, rfl⟩
  · have owned := mutants.each ptr object before
    by_cases acquires : ∃ mode ptrs status, effect = .acquire mode ptrs status ∧ krnl.currentHandle ≠ 0 ∧ ptr ∈ ptrs
    · obtain ⟨mode, ptrs, status, rfl, inFiber, named⟩ := acquires
      exact owned.acquire ok allowed before.2.1 before.2.2 inFiber named
    · by_cases releases : effect = .releaseMutant ptr
      · subst releases
        obtain ⟨owner, self⟩ := release_owner ok before allowed
        exact owned.release ok allowed owner self
      · have keeps : ∀ mode ptrs status, effect = .acquire mode ptrs status → krnl.currentHandle ≠ 0 → ptr ∉ ptrs :=
          fun mode ptrs status same inFiber named => acquires ⟨mode, ptrs, status, same, inFiber, named⟩
        have unmentioned := mutant_unmentioned allowed before.2.1 before.2.2 keeps releases
        have same : (effect.rewrite krnl ptr object).mutant = object.mutant :=
          rewrite_mutant before.2.2 keeps releases (by rintro rfl; exact lives rfl)
        exact owned.idle ok allowed stays same unmentioned (fun dying => by cases dying)
  · exact Owned.create mutants.recorded ok allowed kind

/-- What holds of all fibers holds of those that are not being ended. -/
theorem MutantsOk.relax (mutants : krnl.MutantsOk false) : krnl.MutantsOk true := by
  refine ⟨mutants.recorded, fun ptr object tabled => ?_⟩
  have owned := mutants.each ptr object tabled
  refine ⟨owned.free, owned.owner, owned.counts, fun handle holds => ?_, ?_⟩
  · rcases owned.holders handle holds with owner | finished | ⟨dying, _⟩
    · exact Or.inl owner
    · exact Or.inr (Or.inl finished)
    · cases dying
  · rcases owned.orphan with equal | ⟨dying, _⟩
    · exact Or.inl equal
    · cases dying

/-- While the running fiber is being ended, the relaxed invariant holds. -/
theorem MutantsOk.ending (mutants : krnl.MutantsOk true) (ok : krnl.Ok) {effect : Effect}
    (allowed : effect.Allowed krnl) (ending : effect.label = .ending) : (effect.apply krnl).MutantsOk true := by
  have stays : effect.label ≠ .exiting := by rw [ending]; simp
  have quiet : effect.label ≠ .loop := by rw [ending]; simp
  refine ⟨mutants.recorded.effect ok allowed, fun ptr after tabled => ?_⟩
  rcases tabledMutant_origin ok allowed tabled with ⟨object, before, rfl⟩ | ⟨made, rfl, _⟩
  · have owned := mutants.each ptr object before
    by_cases abandons : effect = .abandon ptr
    · subst abandons
      obtain ⟨other, again, _, self, owner⟩ := allowed
      obtain rfl := Option.some.inj (before.2.1.symm.trans again)
      exact owned.abandon ok ⟨object, again, before.2.2, self, owner⟩ owner self
    · have keeps : ∀ mode ptrs status, effect = .acquire mode ptrs status → krnl.currentHandle ≠ 0 → ptr ∉ ptrs := by
        rintro mode ptrs status rfl
        cases mode <;> simp [Effect.label] at ending
      have releases : effect ≠ .releaseMutant ptr := by
        rintro rfl
        cases ending
      have runs : effect.leaves = false := by
        obtain ⟨target, rfl | rfl | rfl⟩ := Effect.label_ending ending <;> rfl
      exact owned.idle ok allowed stays (rewrite_mutant before.2.2 keeps releases abandons)
        (mutant_unmentioned allowed before.2.1 before.2.2 keeps releases)
        (fun _ => Effect.currentHandle_apply ok allowed quiet runs)
  · cases ending

/-- When a fiber has ended, nothing is left of what it held. -/
theorem MutantsOk.exit (mutants : krnl.MutantsOk true) (ok : krnl.Ok) {code : Int}
    (allowed : (Effect.exit code).Allowed krnl) : ((Effect.exit code).apply krnl).MutantsOk false := by
  refine ⟨mutants.recorded.effect ok allowed, fun ptr after tabled => ?_⟩
  rcases tabledMutant_origin ok allowed tabled with ⟨object, before, same⟩ | ⟨made, other, _⟩
  · obtain rfl : after = object := same
    exact (mutants.each ptr after before).exit ok allowed before.2.1 before.2.2
  · cases other

/-! ## What waits report -/

/-- The object is a mutant that had been left behind when the entry was made. -/
def leftBehind (krnl : XboxKrnl) (earlier : List Event) (ptr : Ptr) : Bool :=
  (krnl.object ptr).kind == .mutant && orphaned ptr earlier

/-- The status of a wait, given which of its objects had been left behind:
STATUS_ABANDONED, plus the index of a WaitAny, if the one object had been; for a
WaitAll, STATUS_ABANDONED plus the position of the first one that had been. -/
def report (left : List Bool) : WaitMode → Nat
  | .single => if left.any id then kStatusAbandoned else kStatusSuccess
  | .any index => if left.any id then kStatusAbandoned + index else index
  | .all => ((left.findIdx? id).map (kStatusAbandoned + ·)).getD kStatusSuccess

/-- Every satisfied wait of a fiber on objects that are still in the handle table has
reported what the history says. -/
def Reported (krnl : XboxKrnl) : Prop :=
  ∀ later earlier fiber mode objects status,
    krnl.history = later ++ .satisfied fiber mode objects status :: earlier → fiber ≠ 0 →
    (∀ ptr ∈ objects, ∃ slot, krnl.registry.table slot = some ptr) →
    status = report (objects.map (krnl.leftBehind earlier)) mode

/-- A new entry about a satisfied wait is made by an acquisition, and is the only one. -/
theorem satisfied_new {effect : Effect} {later rest : List Event} {fiber : Nat} {mode : WaitMode}
    {objects : List Ptr} {status : Nat}
    (new : effect.events krnl = later ++ .satisfied fiber mode objects status :: rest) :
    rest = [] ∧ fiber = krnl.currentHandle ∧ ((∃ ptrs, effect = .acquire mode ptrs status ∧
      objects = ptrs.filter krnl.acquirable) ∨
      ∃ ptr, effect = .consume ptr ∧ mode = .single ∧ objects = [ptr] ∧ status = kStatusSuccess) := by
  have member : .satisfied fiber mode objects status ∈ effect.events krnl := by simp [new]
  have alone : ∀ {event : Event}, effect.events krnl = [event] → rest = [] := by
    intro event single
    have lengths := congrArg List.length (single.symm.trans new)
    simp only [List.length_cons, List.length_nil, List.length_append] at lengths
    exact List.eq_nil_of_length_eq_zero (by omega)
  cases effect with
  | acquire mode' ptrs status' =>
    refine ⟨alone rfl, ?_⟩
    simp only [Effect.events, List.mem_singleton, Event.satisfied.injEq] at member
    obtain ⟨rfl, rfl, rfl, rfl⟩ := member
    exact ⟨rfl, Or.inl ⟨ptrs, rfl, rfl⟩⟩
  | consume ptr =>
    refine ⟨alone rfl, ?_⟩
    simp only [Effect.events, List.mem_singleton, Event.satisfied.injEq] at member
    obtain ⟨rfl, rfl, rfl, rfl⟩ := member
    exact ⟨rfl, Or.inr ⟨ptr, rfl, rfl, rfl, rfl⟩⟩
  | create made =>
    simp only [Effect.events, birth] at member
    split at member <;> (try split at member) <;> simp at member
  | resumeThread target =>
    simp only [Effect.events] at member
    split at member <;> simp at member
  | exit code =>
    simp only [Effect.events] at member
    split at member <;> simp at member
  | _ => simp [Effect.events] at member

/-- An object of the handle table that is older than the effect was in it before. -/
theorem leftBehind_apply (ok : krnl.Ok) {effect : Effect} (allowed : effect.Allowed krnl) {ptr : Ptr}
    (old : ptr < krnl.heap.length) {slot : Nat} (tabled : (effect.apply krnl).registry.table slot = some ptr)
    (earlier : List Event) :
    krnl.registry.table slot = some ptr ∧
      (effect.apply krnl).leftBehind earlier ptr = krnl.leftBehind earlier ptr := by
  have nextOk := (effect.sound ok allowed).registry
  obtain ⟨shape, found, _⟩ := nextOk.tabled slot ptr tabled
  obtain ⟨after, live, _⟩ := (effect.apply krnl).of_shapes _ _ found
  rcases Effect.object_origin ok allowed live with ⟨object, before, rfl⟩ | ⟨fresh, _⟩
  · refine ⟨Effect.tabled_before ok allowed before tabled, ?_⟩
    have kinds := DispatcherObject.kind_of_shape (effect.rewrite_shape krnl ptr object)
    simp only [leftBehind, object_eq _ _ _ live, object_eq _ _ _ before, kinds]
  · exact absurd fresh (Nat.ne_of_lt old)

/-- The status of one acquisition by a fiber. -/
theorem acquireStatus_left (inFiber : krnl.currentHandle ≠ 0) {ptr : Ptr}
    (truthful : (krnl.object ptr).kind = .mutant →
      (krnl.object ptr).mutant.abandoned = orphaned ptr krnl.history) :
    krnl.acquireStatus ptr = if krnl.leftBehind krnl.history ptr then kStatusAbandoned else kStatusSuccess := by
  cases kind : (krnl.object ptr).kind with
  | mutant => simp [acquireStatus, leftBehind, kind, inFiber, truthful kind]
  | _ => simp [acquireStatus, leftBehind, kind]

/-- The status of a wait by a fiber. -/
theorem grantStatus_report (inFiber : krnl.currentHandle ≠ 0) {mode : WaitMode} {ptrs : List Ptr}
    (one : mode ≠ .all → ∃ ptr, ptrs = [ptr])
    (truthful : ∀ ptr ∈ ptrs, (krnl.object ptr).kind = .mutant →
      (krnl.object ptr).mutant.abandoned = orphaned ptr krnl.history) :
    krnl.grantStatus mode ptrs = report (ptrs.map (krnl.leftBehind krnl.history)) mode := by
  have status := fun ptr member => acquireStatus_left inFiber (truthful ptr member)
  cases mode with
  | single =>
    obtain ⟨ptr, rfl⟩ := one (by simp)
    simp [grantStatus, report, status ptr (by simp)]
  | any index =>
    obtain ⟨ptr, rfl⟩ := one (by simp)
    simp only [grantStatus, report, List.head?_cons, Option.map_some, status ptr (by simp), Option.some.injEq,
      List.map_cons, List.map_nil, List.any_cons, List.any_nil, id, Bool.or_false]
    cases krnl.leftBehind krnl.history ptr <;> simp [kStatusAbandoned, kStatusSuccess]
  | all =>
    have flags : ptrs.map (fun ptr => krnl.acquireStatus ptr != kStatusSuccess) =
        ptrs.map (krnl.leftBehind krnl.history) := by
      refine List.map_congr_left (fun ptr member => ?_)
      rw [status ptr member]
      cases krnl.leftBehind krnl.history ptr <;> simp [kStatusAbandoned, kStatusSuccess]
    have index : ptrs.findIdx? (fun ptr => krnl.acquireStatus ptr != kStatusSuccess) =
        (ptrs.map (krnl.leftBehind krnl.history)).findIdx? id := by
      rw [← flags, List.findIdx?_map]
      rfl
    simp only [grantStatus, report, index]

/-- An effect keeps the reports truthful.

Proof: an acquisition reports the flag of the mutant, and that says whether it was left behind. No
other effect reports anything. -/
theorem Reported.effect (reported : krnl.Reported) (recorded : krnl.Recorded) (ok : krnl.Ok) {effect : Effect}
    (allowed : effect.Allowed krnl)
    (truthful : (∃ mode ptrs status, effect = .acquire mode ptrs status) → ∀ ptr object,
      krnl.TabledMutant ptr object → object.mutant.abandoned = orphaned ptr krnl.history) :
    (effect.apply krnl).Reported := by
  intro later earlier fiber mode objects status parts inFiber tabled
  have same : (∀ ptr ∈ objects, ptr < krnl.heap.length) →
      objects.map ((effect.apply krnl).leftBehind earlier) = objects.map (krnl.leftBehind earlier) := by
    intro old
    refine List.map_congr_left (fun ptr member => ?_)
    obtain ⟨slot, found⟩ := tabled ptr member
    exact (leftBehind_apply ok allowed (old ptr member) found earlier).2
  have before : (∀ ptr ∈ objects, ptr < krnl.heap.length) →
      ∀ ptr ∈ objects, ∃ slot, krnl.registry.table slot = some ptr := by
    intro old ptr member
    obtain ⟨slot, found⟩ := tabled ptr member
    exact ⟨slot, (leftBehind_apply ok allowed (old ptr member) found earlier).1⟩
  have keeps : ∀ front, krnl.history = front ++ .satisfied fiber mode objects status :: earlier →
      status = report (objects.map ((effect.apply krnl).leftBehind earlier)) mode := by
    intro front split
    have old : ∀ ptr ∈ objects, ptr < krnl.heap.length := fun ptr member =>
      recorded (.satisfied fiber mode objects status) (by simp [split]) ptr member
    rw [same old]
    exact reported front earlier fiber mode objects status split inFiber (before old)
  rw [history_apply ok allowed] at parts
  rcases List.append_eq_append_iff.mp parts with ⟨front, _, split⟩ | ⟨rest, new, split⟩
  · exact keeps front split
  · cases rest with
    | nil => exact keeps [] split.symm
    | cons event rest =>
      obtain ⟨rfl, rfl⟩ := List.cons.inj split
      obtain ⟨rfl, rfl, ⟨ptrs, rfl, rfl⟩ | ⟨ptr, rfl, rfl, rfl, rfl⟩⟩ := satisfied_new new
      · have all : ptrs.filter krnl.acquirable = ptrs :=
          List.filter_eq_self.mpr (fun other _ => by simp [acquirable, XboxKrnl.inFiber, inFiber])
        rw [all] at same before ⊢
        have old : ∀ ptr ∈ ptrs, ptr < krnl.heap.length := fun ptr member => by
          obtain ⟨object, live⟩ := (allowed.1 ptr member).1.1
          exact krnl.object?_inside _ _ live
        rw [same old, allowed.2.2.1]
        refine grantStatus_report inFiber allowed.2.2.2 (fun ptr member kind => ?_)
        obtain ⟨object, live⟩ := (allowed.1 ptr member).1.1
        rw [krnl.object_eq _ _ live] at kind ⊢
        exact truthful ⟨mode, ptrs, status, rfl⟩ ptr object ⟨before old ptr member, live, kind⟩
      · obtain ⟨object, live, isEvent⟩ := allowed
        have old : ∀ other ∈ [ptr], other < krnl.heap.length := by
          intro other member
          obtain rfl := List.mem_singleton.mp member
          exact krnl.object?_inside _ _ live
        rw [same old]
        simp [report, leftBehind, krnl.object_eq _ _ live, isEvent]

/-! ## Whole runs -/

/-- The mutants are as the history says, and so was what waits have reported. -/
def MutantsTold (krnl : XboxKrnl) : Prop := krnl.MutantsOk false ∧ krnl.Reported

/-- The same while the running fiber is being ended. -/
def MutantsEnding (krnl : XboxKrnl) : Prop := krnl.MutantsOk true ∧ krnl.Reported

/-- The flag of a mutant says whether it was left behind. -/
theorem MutantsOk.truthful (mutants : krnl.MutantsOk false) {ptr : Ptr} {object : DispatcherObject}
    (tabled : krnl.TabledMutant ptr object) : object.mutant.abandoned = orphaned ptr krnl.history := by
  rcases (mutants.each ptr object tabled).orphan with equal | ⟨dying, _⟩
  · exact equal
  · cases dying

/-- Code that ends no fiber keeps the invariant. -/
theorem MutantsTold.path (told : krnl.MutantsTold) (ok : krnl.Ok) (path : Path aliveLabels krnl next) :
    next.MutantsTold := by
  refine Path.keeps (fun krnl effect ok told labeled allowed => ?_) path ok told
  have lives : effect.label ≠ .ending := fun ending => by simp [ending, aliveLabels] at labeled
  have stays : effect.label ≠ .exiting := fun exits => by simp [exits, aliveLabels] at labeled
  exact ⟨told.1.alive ok allowed lives stays,
    told.2.effect told.1.recorded ok allowed (fun _ ptr object tabled => told.1.truthful tabled)⟩

/-- Code that ends one keeps its relaxed form. -/
theorem MutantsEnding.path (ending : krnl.MutantsEnding) (ok : krnl.Ok) (path : Path [.ending] krnl next) :
    next.MutantsEnding := by
  refine Path.keeps (fun krnl effect ok ending labeled allowed => ?_) path ok ending
  have label := List.mem_singleton.mp labeled
  refine ⟨ending.1.ending ok allowed label, ending.2.effect ending.1.recorded ok allowed ?_⟩
  rintro ⟨mode, ptrs, status, rfl⟩
  cases mode <;> cases label

/-- So the end of a fiber keeps it in all. -/
theorem MutantsTold.ends (told : krnl.MutantsTold) (steady : krnl.Steady) {target : Option Ptr}
    (ends : krnl.Ends target next) : next.MutantsTold := by
  obtain ⟨last, code, path, _, allowed, _, rfl⟩ := steady.ends ends
  have lastOk := path.ok steady.ok
  have ending : last.MutantsEnding := MutantsEnding.path ⟨told.1.relax, told.2⟩ steady.ok path
  refine ⟨ending.1.exit lastOk allowed, ending.2.effect ending.1.recorded lastOk allowed ?_⟩
  rintro ⟨mode, ptrs, status, other⟩
  cases other

/-- So does every action. -/
theorem MutantsTold.step (told : krnl.MutantsTold) (steady : krnl.Steady) {action : Action}
    (stepped : krnl.step action = some next) : next.MutantsTold := by
  rcases steady.step_survives stepped with path | ⟨middle, target, path, running, ends⟩
  · exact told.path steady.ok path
  · exact (told.path steady.ok path).ends running ends

/-- So it holds in every reachable state. -/
theorem Reaches.mutantsTold {actions : List Action} (reached : krnl.Reaches actions) :
    krnl.Steady ∧ krnl.MutantsTold := by
  have start : ∀ ram addresses threadRunner kernelDataVa,
      (initial ram addresses threadRunner kernelDataVa).MutantsTold := by
    intro ram addresses threadRunner kernelDataVa
    refine ⟨⟨initial_recorded ram addresses threadRunner kernelDataVa, ?_⟩, ?_⟩
    · intro ptr object tabled
      obtain ⟨⟨slot, found⟩, _⟩ := tabled
      simp [initial, registry] at found
    · intro later earlier fiber mode objects status parts
      simp [initial] at parts
  exact reached.invariant start (fun krnl action next steady told stepped =>
    MutantsTold.step told steady stepped)

/-- The first fiber creates two mutants, owns one of them and ends; the second one
waits for both at once. -/
def waitsForBoth : List Action :=
  [.spawn 0 (some 0), .spawn 0 (some 0), .run, .turn, .call (.ntCreateMutant 16 0 1),
    .call (.ntCreateMutant 20 0 0), .finish 0, .turn, .call (.ntWaitForMultipleObjectsEx 2 16 0 0 0 0)]

/-- Every wait that has acquired a mutant has reported an abandoned mutant, with or
without an index, exactly if that mutant had been left behind. -/
def ReportedEach (krnl : XboxKrnl) : Prop :=
  ∀ later earlier fiber mode objects status,
    krnl.history = later ++ .satisfied fiber mode objects status :: earlier →
    ∀ ptr ∈ objects, ∀ object, krnl.TabledMutant ptr object →
      (kStatusAbandoned ≤ status ↔ orphaned ptr earlier = true)

end XboxKrnl

end SeriesxEmu
