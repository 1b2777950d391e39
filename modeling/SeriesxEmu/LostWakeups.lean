import SeriesxEmu.EventConservation
import SeriesxEmu.HandleClosing

/-!
# No wake-up is lost

A fiber blocked in a wait is left alone only while its wait is not satisfied. For a
multiple wait this holds at every moment: the fiber's channel is registered on
the objects it still needs, and whatever could satisfy one of them wakes the
fiber first. A single wait on a semaphore or a mutant may be satisfied for a
while, but then every unit of the object is on its way to a fiber that has been
woken and has not run yet; when no fiber is left to run, there is no such unit.
-/

namespace SeriesxEmu

open Scheduler GuestScheduler

/-! ## What a wake-up hands out -/

/-- A fiber that has been handed something keeps it while others are woken. -/
theorem handed_wakes {channel : Token → Prop} {before after : List Fiber} (woken : Wakes channel before after)
    (ptr : Ptr) : before.countP (Fiber.handed ptr) ≤ after.countP (Fiber.handed ptr) := by
  refine Counting.countP_pointwise (Fiber.handed ptr) after before (fun index fiber found handed => ?_)
  rcases woken.each index fiber found with same | ⟨blocked, _, _⟩
  · exact ⟨fiber, same, handed⟩
  · simp [Fiber.handed, blocked] at handed

/-- Each unit is handed to a fiber, as long as a fiber is left on the channel. -/
theorem handed_wakeUnits (token : Token) (units : Nat) (threads : List Fiber) {ptr : Ptr}
    (awaits : ∀ fiber ∈ threads, fiber.BlockedOn token → fiber.ctx.point.awaits ptr = true)
    (left : ∃ fiber ∈ wakeUnits token units threads, fiber.BlockedOn token) :
    threads.countP (Fiber.handed ptr) + units ≤ (wakeUnits token units threads).countP (Fiber.handed ptr) := by
  induction units generalizing threads with
  | zero => exact Nat.le_refl _
  | succ units inductionHypothesis =>
    have waiting : ∃ fiber ∈ threads, fiber.BlockedOn token := by
      obtain ⟨fiber, member, blocked⟩ := left
      obtain ⟨index, found⟩ := List.mem_iff_getElem?.mp member
      exact ⟨fiber, List.mem_of_getElem?
        ((wakeUnits_wakes token (units + 1) threads).still_blocked index fiber found blocked.1), blocked⟩
    obtain ⟨index, fiber, found, blocked, first⟩ := first_blocked token threads waiting
    have signaled := signalThreads_first token threads index fiber found blocked first
    have gained : (signalThreads token false threads).1.countP (Fiber.handed ptr) =
        threads.countP (Fiber.handed ptr) + 1 := by
      have counted := Counting.countP_modify (Fiber.handed ptr) (fun _ => fiber.wake) found
      have before : Fiber.handed ptr fiber = false := by simp [Fiber.handed, blocked.1]
      have after : Fiber.handed ptr fiber.wake = true := by
        have waits := awaits fiber (List.mem_of_getElem? found) blocked
        simpa [Fiber.handed, GuestThread.wake] using waits
      rw [before, after, ← List.set_eq_modify] at counted
      simpa [signaled] using counted
    have rest := inductionHypothesis (signalThreads token false threads).1 (fun other member waits => ?_) left
    · rw [gained] at rest
      rw [wakeUnits]
      omega
    · obtain ⟨position, here⟩ := List.mem_iff_getElem?.mp member
      exact awaits other (List.mem_of_getElem?
        ((signalThreads_wakes token false threads).still_blocked position other here waits.1)) waits

/-- A signal wakes the only fiber on a channel. -/
theorem unblocked_signal {token : Token} {threads : List Fiber}
    (alone : ∀ (index other : Nat) (fiber fiber' : Fiber), threads[index]? = some fiber →
      threads[other]? = some fiber' → fiber.BlockedOn token → fiber'.BlockedOn token → index = other) :
    ∀ fiber ∈ (signalThreads token false threads).1, ¬ fiber.BlockedOn token := by
  intro fiber member blocked
  obtain ⟨index, found⟩ := List.mem_iff_getElem?.mp member
  have earlier := (signalThreads_wakes token false threads).still_blocked index fiber found blocked.1
  obtain ⟨position, waiter, here, waits, first⟩ :=
    first_blocked token threads ⟨fiber, List.mem_of_getElem? earlier, blocked⟩
  have same := alone index position fiber waiter earlier here blocked waits
  subst same
  rw [signalThreads_first token threads index waiter here waits first] at found
  have inside := (List.getElem?_eq_some_iff.mp here).1
  obtain rfl : waiter.wake = fiber := by simpa [inside] using found
  simp [GuestThread.BlockedOn, GuestThread.wake] at blocked

/-- Every registered channel with one fiber on it is left by this fiber. -/
theorem unblocked_wakeEach {token : Token} (tokens : List Token) (threads : List Fiber)
    (registered : token ∈ tokens)
    (alone : ∀ (index other : Nat) (fiber fiber' : Fiber), threads[index]? = some fiber →
      threads[other]? = some fiber' → fiber.BlockedOn token → fiber'.BlockedOn token → index = other) :
    ∀ fiber ∈ wakeEach tokens threads, ¬ fiber.BlockedOn token := by
  induction tokens generalizing threads with
  | nil => cases registered
  | cons head rest inductionHypothesis =>
    intro fiber member blocked
    have woken := signalThreads_wakes head false threads
    by_cases here : head = token
    · subst here
      obtain ⟨index, found⟩ := List.mem_iff_getElem?.mp member
      have earlier := (wakeEach_wakes rest _).still_blocked index fiber found blocked.1
      exact unblocked_signal alone fiber (List.mem_of_getElem? earlier) blocked
    · have later : token ∈ rest := by
        rcases List.mem_cons.mp registered with same | later
        · exact absurd same.symm here
        · exact later
      exact inductionHypothesis (signalThreads head false threads).1 later
        (fun index other left right found found' waits waits' => alone index other left right
          (woken.still_blocked index left found waits.1) (woken.still_blocked other right found' waits'.1)
          waits waits') fiber member blocked

namespace XboxKrnl

variable {krnl next : XboxKrnl} {owed : Option Ptr}

/-! ## What keeps a fiber blocked -/

/-- The condition of the wait a fiber is suspended in, evaluated as that fiber. -/
def waitMet (krnl : XboxKrnl) (fiber : Fiber) : Bool :=
  match fiber.ctx.point with
  | .waitDispatch ptr _ => krnl.satisfiedAs fiber.handle ptr
  | .waitMultiple ptrs true _ => ptrs.all (krnl.satisfiedAs fiber.handle)
  | .waitMultiple ptrs false _ => ptrs.any (krnl.satisfiedAs fiber.handle)
  | _ => false

/-- No fiber is ready or running. -/
def Quiescent (krnl : XboxKrnl) : Prop :=
  ∀ fiber ∈ krnl.sched.threads, fiber.state ≠ .ready ∧ fiber.state ≠ .running

instance (krnl : XboxKrnl) : Decidable krnl.Quiescent :=
  inferInstanceAs (Decidable (∀ fiber ∈ _, _))

/-- The fibers that have been woken from a single wait on the object and have not run
yet, and with them the running fiber if it has just left such a wait. -/
def pending (krnl : XboxKrnl) (owed : Option Ptr) (ptr : Ptr) : Nat :=
  krnl.sched.threads.countP (Fiber.handed ptr) + if owed = some ptr then 1 else 0

/-- The object has no more units than the given number of fibers will take, and is not
the fiber's own mutant. -/
structure Absorbed (krnl : XboxKrnl) (fiber takers : Nat) (object : DispatcherObject) : Prop where
  event : object.kind = .event → object.event.signaled = false
  semaphore : object.kind = .semaphore → object.semaphore.count ≤ takers
  mutant : object.kind = .mutant → object.mutant.signalState ≤ takers
  owner : object.kind = .mutant → object.mutant.owner ≠ 0 → object.mutant.owner ≠ krnl.tokenOf fiber

/-- The object is not satisfied for the fiber, and will notify it. -/
def Watched (krnl : XboxKrnl) (fiber : Nat) (ptr : Ptr) : Prop :=
  krnl.Absorbed fiber 0 (krnl.object ptr) ∧ .multiWait fiber ∈ (krnl.object ptr).mwWaiters

/-- Why a blocked fiber is left alone. -/
def Justified (krnl : XboxKrnl) (owed : Option Ptr) (fiber : Fiber) : Prop :=
  match fiber.ctx.point with
  | .waitDispatch ptr _ => krnl.Absorbed fiber.handle (krnl.pending owed ptr) (krnl.object ptr)
  | .waitMultiple ptrs true _ => ∃ ptr ∈ ptrs, krnl.Watched fiber.handle ptr
  | .waitMultiple ptrs false _ => ∀ ptr ∈ ptrs, krnl.Watched fiber.handle ptr
  | _ => True

/-- The invariant: every blocked fiber waits for live objects that are not threads, and
is left alone for a reason. -/
structure Awake (krnl : XboxKrnl) (owed : Option Ptr) : Prop where
  channels : krnl.Channels
  native : ∀ fiber ∈ krnl.sched.threads, fiber.ctx.body = .native
  threadless : ∀ fiber ptr, ¬ krnl.TabledThread fiber ptr
  held : ∀ fiber ∈ krnl.sched.threads, fiber.state = .blockedWait → ∀ ptr ∈ fiber.ctx.point.waited,
    ∃ object, krnl.object? ptr = some object
  waits : ∀ fiber ∈ krnl.sched.threads, fiber.state = .blockedWait → krnl.Justified owed fiber

/-- Where everything is absorbed and nobody is to take it, nothing is left. -/
theorem Absorbed.unsatisfied {fiber : Nat} {ptr : Ptr} (absorbed : krnl.Absorbed fiber 0 (krnl.object ptr))
    (kind : (krnl.object ptr).kind ≠ .thread) : krnl.satisfiedAs fiber ptr = false := by
  cases here : (krnl.object ptr).kind with
  | event => simpa only [satisfiedAs, here] using absorbed.event here
  | semaphore =>
    have spent := absorbed.semaphore here
    simpa [satisfiedAs, here] using spent
  | mutant =>
    have spent := absorbed.mutant here
    have other := absorbed.owner here
    simp only [satisfiedAs, here, Bool.or_eq_false_iff, decide_eq_false_iff_not, Bool.and_eq_false_imp,
      bne_iff_ne, beq_eq_false_iff_ne]
    exact ⟨by simpa using spent, other⟩
  | thread => exact absurd here kind

/-- Where nothing is left, everything is absorbed. -/
theorem absorbed_of_unsatisfied {fiber : Nat} {ptr : Ptr} (unsatisfied : krnl.satisfiedAs fiber ptr = false)
    (takers : Nat) : krnl.Absorbed fiber takers (krnl.object ptr) := by
  unfold satisfiedAs at unsatisfied
  refine ⟨fun kind => ?_, fun kind => ?_, fun kind => ?_, fun kind => ?_⟩
  · simpa only [kind] using unsatisfied
  · have spent : (krnl.object ptr).semaphore.count ≤ 0 := by simpa [kind] using unsatisfied
    omega
  · have spent : (krnl.object ptr).mutant.signalState ≤ 0 := by
      simp only [kind, Bool.or_eq_false_iff, decide_eq_false_iff_not, Int.not_lt] at unsatisfied
      exact unsatisfied.1
    omega
  · simp only [kind, Bool.or_eq_false_iff, Bool.and_eq_false_imp, bne_iff_ne, beq_eq_false_iff_ne] at unsatisfied
    exact unsatisfied.2

/-- An event that is not signaled has nothing left. -/
theorem absorbed_event {fiber takers : Nat} {object : DispatcherObject} (kind : object.kind = .event)
    (unsignaled : object.event.signaled = false) : krnl.Absorbed fiber takers object :=
  ⟨fun _ => unsignaled, by simp [kind], by simp [kind], by simp [kind]⟩

/-- A semaphore has no more units left than there are takers. -/
theorem absorbed_semaphore {fiber takers : Nat} {object : DispatcherObject} (kind : object.kind = .semaphore)
    (bound : object.semaphore.count ≤ takers) : krnl.Absorbed fiber takers object :=
  ⟨by simp [kind], fun _ => bound, by simp [kind], by simp [kind]⟩

/-- A free mutant neither. -/
theorem absorbed_mutant {fiber takers : Nat} {object : DispatcherObject} (kind : object.kind = .mutant)
    (bound : object.mutant.signalState ≤ takers) (free : object.mutant.owner = 0) :
    krnl.Absorbed fiber takers object :=
  ⟨by simp [kind], by simp [kind], fun _ => bound, fun _ owned => absurd free owned⟩

/-! ## Effects that give the object nothing -/

/-- The object has gained no unit, its owner is the same or the running fiber, and only
the running fiber's own registration may be gone. -/
structure Calm (krnl : XboxKrnl) (object after : DispatcherObject) : Prop where
  kind : after.kind = object.kind
  event : after.event.signaled = true → object.event.signaled = true
  semaphore : after.semaphore.count ≤ object.semaphore.count
  mutant : 0 < after.mutant.signalState → after.mutant.signalState ≤ object.mutant.signalState
  owner : after.mutant.owner = object.mutant.owner ∨ after.mutant.owner = krnl.tokenOf krnl.currentHandle
  waiters : ∀ token ∈ object.mwWaiters, token ≠ .multiWait krnl.currentHandle → token ∈ after.mwWaiters

/-- An object that is left alone is calm. -/
theorem Calm.refl (object : DispatcherObject) : krnl.Calm object object :=
  ⟨rfl, id, Int.le_refl _, fun _ => Int.le_refl _, Or.inl rfl, fun _ member _ => member⟩

/-- Two calm changes are one. -/
theorem Calm.trans {first second third : DispatcherObject} (left : krnl.Calm first second)
    (right : krnl.Calm second third) : krnl.Calm first third := by
  refine ⟨right.kind.trans left.kind, fun signaled => left.event (right.event signaled),
    Int.le_trans right.semaphore left.semaphore, fun positive => ?_, ?_, fun token member other => ?_⟩
  · have bound := right.mutant positive
    exact Int.le_trans bound (left.mutant (by omega))
  · rcases right.owner with same | own
    · rw [same]
      exact left.owner
    · exact Or.inr own
  · exact right.waiters token (left.waiters token member other) other

/-- Taking an object gives it nothing. -/
theorem takeOne_calm (krnl : XboxKrnl) (object : DispatcherObject) : krnl.Calm object (krnl.takeOne object) := by
  unfold takeOne
  split
  · split
    · exact { Calm.refl object with event := fun signaled => by cases signaled }
    · exact Calm.refl object
  · split
    · exact Calm.refl object
    · refine { Calm.refl object with mutant := fun _ => ?_, owner := Or.inr rfl }
      simp only [takeMutant]
      omega
  · refine { Calm.refl object with semaphore := ?_ }
    simp only
    omega
  · exact Calm.refl object

/-- Taking it several times does not, either. -/
theorem taken_calm (krnl : XboxKrnl) (count : Nat) (object : DispatcherObject) :
    krnl.Calm object (krnl.takeOne^[count] object) := by
  induction count with
  | zero => exact Calm.refl object
  | succ count inductionHypothesis =>
    rw [Function.iterate_succ_apply']
    exact inductionHypothesis.trans (krnl.takeOne_calm _)

/-- The effects that may give the object a unit and notify its waiters. -/
def Loud (krnl : XboxKrnl) (ptr : Ptr) : Effect → Prop
  | .setEvent target => target = ptr
  | .pulseEvent target => target = ptr
  | .releaseMutant target => target = ptr ∧ 0 < (krnl.object ptr).mutant.signalState + 1
  | .releaseSemaphore target _ => target = ptr
  | .abandon target => target = ptr
  | _ => False

/-- An effect is calm about an object that is no thread, or it notifies the waiters.

Proof: by the effect. Whatever is aimed at another object is calm; what is aimed at this one either
adds no unit or is one of the five signals, of which a release of a mutant is loud only when it
frees it. -/
theorem calm_or_loud {effect : Effect} (allowed : effect.Allowed krnl) (keeps : effect.label ≠ .reset) {ptr : Ptr}
    {object : DispatcherObject} (live : krnl.object? ptr = some object) (kind : object.kind ≠ .thread) :
    krnl.Calm object (effect.rewrite krnl ptr object) ∨ krnl.Loud ptr effect := by
  have only : ∀ (target : Ptr) (change : DispatcherObject → DispatcherObject),
      krnl.Calm object (change object) → krnl.Calm object (Effect.onlyAt target change ptr object) :=
    fun target change here => Effect.onlyAt_holds (krnl.Calm object) here (Calm.refl object)
  have elsewhere : ∀ (target : Ptr) (change : DispatcherObject → DispatcherObject), ptr ≠ target →
      krnl.Calm object (Effect.onlyAt target change ptr object) := by
    intro target change different
    rw [Effect.onlyAt_elsewhere target change ptr different]
    exact Calm.refl object
  have loud : ∀ (target : Ptr) (change : DispatcherObject → DispatcherObject),
      krnl.Calm object (Effect.onlyAt target change ptr object) ∨ target = ptr := by
    intro target change
    by_cases same : target = ptr
    · exact Or.inr same
    · exact Or.inl (elsewhere target change (Ne.symm same))
  cases effect with
  | acquire mode ptrs status => exact Or.inl (krnl.taken_calm (ptrs.count ptr) object)
  | suspendSelf target out reply => exact Or.inl (only target _ { Calm.refl object with })
  | adjust target change =>
    refine Or.inl (only target _ ?_)
    cases change with
    | register =>
      exact { Calm.refl object with waiters := fun token member _ => List.mem_append_left _ member }
    | unregister =>
      refine { Calm.refl object with waiters := fun token member other => ?_ }
      exact List.mem_filter.mpr ⟨member, by simpa using other⟩
    | clear => exact { Calm.refl object with event := fun signaled => by cases signaled }
    | reset type signaled => exact absurd rfl keeps
    | suspend => exact { Calm.refl object with }
    | priority value => exact { Calm.refl object with }
    | missingCore => exact { Calm.refl object with }
    | stop => exact { Calm.refl object with }
  | setEvent target => exact loud target _
  | pulseEvent target => exact loud target _
  | releaseMutant target =>
    by_cases same : ptr = target
    · subst same
      by_cases freed : 0 < object.mutant.signalState + 1
      · exact Or.inr ⟨rfl, by rw [krnl.object_eq _ _ live]; exact freed⟩
      · left
        simp only [Effect.rewrite, Effect.onlyAt, freed, ↓reduceIte]
        refine { Calm.refl object with mutant := fun positive => absurd positive freed, owner := Or.inl ?_ }
        simp [putMutant, freed]
    · simp only [Effect.rewrite]
      exact Or.inl (elsewhere target _ same)
  | releaseSemaphore target adjustment => exact loud target _
  | resumeThread target =>
    simp only [Effect.rewrite]
    refine Or.inl (only target _ ?_)
    exact { Calm.refl object with }
  | abandon target => exact loud target (fun o => clearWaiters (abandonMutant o))
  | wakeJoiner target =>
    obtain ⟨found, there, isThread, _⟩ := allowed
    refine Or.inl (elsewhere target _ ?_)
    rintro rfl
    obtain rfl := Option.some.inj (live.symm.trans there)
    exact kind isThread
  | _ => exact Or.inl (Calm.refl object)

/-- After a calm change everything is still absorbed. -/
theorem Calm.absorbed {object after : DispatcherObject} (calm : krnl.Calm object after) (ok : krnl.Ok)
    {effect : Effect} (allowed : effect.Allowed krnl) {ptr : Ptr} (live : krnl.object? ptr = some object)
    {fiber takers more : Nat} (other : fiber ≠ krnl.currentHandle) (absorbed : krnl.Absorbed fiber takers object)
    (enough : takers ≤ more) : (effect.apply krnl).Absorbed fiber more after := by
  refine ⟨fun kind => ?_, fun kind => ?_, fun kind => ?_, fun kind owned own => ?_⟩
  · have unsignaled := absorbed.event (calm.kind.symm.trans kind)
    by_contra signaled
    rw [calm.event (by simpa using signaled)] at unsignaled
    cases unsignaled
  · have bound := absorbed.semaphore (calm.kind.symm.trans kind)
    have lower := calm.semaphore
    omega
  · have bound := absorbed.mutant (calm.kind.symm.trans kind)
    have lower := calm.mutant
    omega
  · have isMutant := calm.kind.symm.trans kind
    rcases calm.owner with same | taken
    · rw [same] at owned own
      have before := (Effect.owns_apply ok allowed fiber live isMutant).mp ⟨owned, own⟩
      exact absorbed.owner isMutant before.1 before.2
    · rcases Effect.tokenOf_apply ok allowed fiber with kept | ⟨_, running, _⟩
      · rw [kept, taken] at own
        rw [taken] at owned
        exact other (ok.tokenOf_injective owned own).symm
      · exact other running

/-! ## Effects that notify the waiters -/

/-- The fibers on the channel of an object that is no thread are those in a single wait
on it. -/
theorem Awake.awaits_of_channel (awake : krnl.Awake owed) (ok : krnl.Ok) {ptr : Ptr} {object : DispatcherObject}
    (live : krnl.object? ptr = some object) (kind : object.kind ≠ .thread) {fiber : Fiber}
    (member : fiber ∈ krnl.sched.threads) (blocked : fiber.BlockedOn object.token) :
    fiber.ctx.point.awaits ptr = true := by
  obtain ⟨state, channel⟩ := blocked
  have shape := krnl.shapes_eq _ _ live
  obtain ⟨addr, form⟩ := ok.registry.tokenForm ptr _ shape
  have own : fiber.waitToken = .object addr := channel.trans form
  have waits := (ok.fibers.each fiber member).waits state
  have held := awake.held fiber member state
  unfold Registry.Waits at waits
  split at waits
  · exact waits.elim
  · exact waits.elim
  · rw [own] at waits
    cases waits
  · rename_i target ticks point
    obtain ⟨found, there⟩ := held target (by simp [point, Point.waited])
    have same := waits.2 _ (krnl.shapes_eq _ _ there)
    have equal := ok.registry.tokens target ptr _ _ (krnl.shapes_eq _ _ there) shape (same.symm.trans channel)
    simp [point, Point.awaits, equal]
  · rw [own] at waits
    cases waits
  · obtain ⟨self, body, _⟩ := waits
    rw [awake.native fiber member] at body
    cases body
  · obtain ⟨identity, _, tokens⟩ := waits
    obtain ⟨_, ⟨other, there, isThread, _⟩, _⟩ := ok.registry.identities _ _ identity
    have equal := ok.registry.tokens _ ptr _ _ there shape ((tokens other there).symm.trans channel)
    rw [equal] at there
    obtain rfl := Option.some.inj (shape.symm.trans there)
    exact absurd isThread kind
  · rw [own] at waits
    cases waits

/-- A fiber in a multiple wait is alone on its channel. -/
theorem Ok.multiWait_alone (ok : krnl.Ok) (handle index other : Nat) (fiber fiber' : Fiber)
    (found : krnl.sched.threads[index]? = some fiber) (found' : krnl.sched.threads[other]? = some fiber')
    (blocked : fiber.BlockedOn (.multiWait handle)) (blocked' : fiber'.BlockedOn (.multiWait handle)) :
    index = other := by
  have named : ∀ waiter ∈ krnl.sched.threads, waiter.BlockedOn (.multiWait handle) → waiter.handle = handle := by
    rintro waiter member ⟨state, channel⟩
    have waits := (ok.fibers.each waiter member).waits state
    unfold Registry.Waits at waits
    rw [channel] at waits
    split at waits
    · exact waits.elim
    · exact waits.elim
    · cases waits
    · obtain ⟨⟨_, form⟩, _⟩ := waits
      cases form
    · exact (Token.multiWait.inj waits).symm
    · obtain ⟨_, _, ⟨_, form⟩, _⟩ := waits
      cases form
    · obtain ⟨_, ⟨_, form⟩, _⟩ := waits
      cases form
    · cases waits
  exact ok.fibers.distinct index other fiber fiber' found found'
    ((named fiber (List.mem_of_getElem? found) blocked).trans
      (named fiber' (List.mem_of_getElem? found') blocked').symm)

/-- A loud effect wakes fibers on the channel of the object, and then notifies every
registered waiter. -/
theorem Loud.threads (ok : krnl.Ok) {effect : Effect} (allowed : effect.Allowed krnl) {ptr : Ptr}
    (loud : krnl.Loud ptr effect) :
    ∃ threads, Wakes (· = (krnl.object ptr).token) krnl.sched.threads threads ∧
      (effect.apply krnl).sched.threads = wakeEach (krnl.object ptr).mwWaiters threads := by
  cases effect with
  | setEvent target =>
    obtain rfl : target = ptr := loud
    exact ⟨_, signalThreads_wakes _ _ _, (Effect.leads ok _ allowed (by simp [Effect.label])).threads⟩
  | pulseEvent target =>
    obtain rfl : target = ptr := loud
    exact ⟨_, signalThreads_wakes _ _ _, (Effect.leads ok _ allowed (by simp [Effect.label])).threads⟩
  | releaseMutant target =>
    obtain ⟨rfl, freed⟩ := loud
    have threads := (Effect.leads ok _ allowed (by simp [Effect.label])).threads
    simp only [Effect.threads, freed, ↓reduceIte] at threads
    exact ⟨_, wakeUnits_wakes _ _ _, threads⟩
  | releaseSemaphore target adjustment =>
    obtain rfl : target = ptr := loud
    exact ⟨_, wakeUnits_wakes _ _ _, (Effect.leads ok _ allowed (by simp [Effect.label])).threads⟩
  | abandon target =>
    obtain rfl : target = ptr := loud
    exact ⟨_, wakeUnits_wakes _ _ _, (Effect.leads ok _ allowed (by simp [Effect.label])).threads⟩
  | _ => exact loud.elim

/-- A fiber that is still blocked in a multiple wait was not registered on the object. -/
theorem Loud.unregistered (ok : krnl.Ok) {effect : Effect} (allowed : effect.Allowed krnl) {ptr : Ptr}
    (loud : krnl.Loud ptr effect) {fiber : Fiber} (member : fiber ∈ (effect.apply krnl).sched.threads)
    (blocked : fiber.BlockedOn (.multiWait fiber.handle)) :
    .multiWait fiber.handle ∉ (krnl.object ptr).mwWaiters := by
  intro registered
  obtain ⟨threads, woken, after⟩ := loud.threads ok allowed
  rw [after] at member
  refine unblocked_wakeEach _ threads registered ?_ fiber member blocked
  intro index other left right found found' waits waits'
  exact ok.multiWait_alone fiber.handle index other left right
    (woken.still_blocked index left found waits.1) (woken.still_blocked other right found' waits'.1) waits waits'

/-- Each unit of a wake-up is handed to a fiber, as long as one is left in a single wait
on the object. -/
theorem Awake.handed_wokenBy (awake : krnl.Awake owed) (ok : krnl.Ok) {ptr : Ptr} {object : DispatcherObject}
    (live : krnl.object? ptr = some object) (kind : object.kind ≠ .thread) (units : Nat) {fiber : Fiber}
    (member : fiber ∈ krnl.wokenBy ptr units) (blocked : fiber.BlockedOn object.token) :
    krnl.sched.threads.countP (Fiber.handed ptr) + units ≤ (krnl.wokenBy ptr units).countP (Fiber.handed ptr) := by
  have here := krnl.object_eq _ _ live
  have notified := wakeEach_wakes object.mwWaiters (wakeUnits object.token units krnl.sched.threads)
  unfold wokenBy at member ⊢
  rw [here] at member ⊢
  obtain ⟨index, found⟩ := List.mem_iff_getElem?.mp member
  have left := List.mem_of_getElem? (notified.still_blocked index fiber found blocked.1)
  exact Nat.le_trans (handed_wakeUnits object.token units krnl.sched.threads
    (fun other waiting waits => awake.awaits_of_channel ok live kind waiting waits) ⟨fiber, left, blocked⟩)
    (handed_wakes notified ptr)

/-- Setting an event that a fiber goes on waiting for has handed the signal to another. -/
theorem Ok.setSignal_false (ok : krnl.Ok) {ptr : Ptr} {object : DispatcherObject}
    (allowed : (Effect.setEvent ptr).Allowed krnl) (live : krnl.object? ptr = some object) {fiber : Fiber}
    (member : fiber ∈ ((Effect.setEvent ptr).apply krnl).sched.threads) (blocked : fiber.BlockedOn object.token) :
    krnl.setSignal object = false := by
  have threads : ((Effect.setEvent ptr).apply krnl).sched.threads = krnl.releasedBy object := by
    rw [(Effect.leads ok _ allowed (by simp [Effect.label])).threads, Effect.threads, krnl.object_eq _ _ live]
  rw [threads] at member
  obtain ⟨index, found⟩ := List.mem_iff_getElem?.mp member
  simp only [setSignal, Bool.or_eq_false_iff]
  constructor
  · by_contra notify
    rw [Bool.not_eq_false] at notify
    have left := (wakeEach_wakes object.mwWaiters _).still_blocked index fiber found blocked.1
    rw [notify] at left
    exact signalThreads_all object.token krnl.sched.threads fiber (List.mem_of_getElem? left) blocked
  · by_contra unwoken
    have spent : (signalThreads object.token false krnl.sched.threads).2 = 0 := by simpa using unwoken
    have earlier := (krnl.releasedBy_wakes object).still_blocked index fiber found blocked.1
    exact (signalThreads_zero object.token false krnl.sched.threads spent).2 fiber
      (List.mem_of_getElem? earlier) blocked

/-- A semaphore release wakes as many fibers as it leaves new units. -/
theorem unitsOf_enough {object : DispatcherObject} {adjustment : Int} {takers : Nat} (positive : 0 < adjustment)
    (small : adjustment < 2 ^ 31) (before : object.semaphore.count ≤ takers) :
    object.semaphore.count + adjustment ≤ takers + unitsOf object adjustment := by
  unfold unitsOf uint32
  by_cases negative : object.semaphore.count + adjustment < 0
  · omega
  · have least : 0 ≤ min adjustment (object.semaphore.count + adjustment) := by omega
    have most : min adjustment (object.semaphore.count + adjustment) < 2 ^ 32 := by omega
    rw [Int.emod_eq_of_lt least most]
    omega

/-- A loud effect after which a fiber is still in a single wait on the object has handed every new
unit to another one.

Proof: by the signal. An event that leaves a waiter blocked is not signaled afterwards; of a mutant
and of a semaphore as many fibers are woken as units are added, since a waiter is left. -/
theorem Loud.absorbed (awake : krnl.Awake owed) (ok : krnl.Ok) {effect : Effect} (allowed : effect.Allowed krnl)
    {ptr : Ptr} (loud : krnl.Loud ptr effect) {object : DispatcherObject} (live : krnl.object? ptr = some object)
    {fiber : Fiber} (member : fiber ∈ (effect.apply krnl).sched.threads) (blocked : fiber.BlockedOn object.token)
    (before : krnl.Absorbed fiber.handle (krnl.pending owed ptr) object) :
    (effect.apply krnl).Absorbed fiber.handle ((effect.apply krnl).pending owed ptr)
      (effect.rewrite krnl ptr object) := by
  have here := krnl.object_eq _ _ live
  have same : ∀ {found : DispatcherObject}, krnl.object? ptr = some found → found = object :=
    fun there => Option.some.inj (there.symm.trans live)
  cases effect with
  | setEvent target =>
    obtain rfl : target = ptr := loud
    have kind : object.kind = .event := by
      obtain ⟨found, there, kind⟩ := allowed
      exact same there ▸ kind
    have unsignaled := ok.setSignal_false allowed live member blocked
    simp only [Effect.rewrite, Effect.onlyAt, ↓reduceIte]
    exact absorbed_event kind unsignaled
  | pulseEvent target =>
    obtain rfl : target = ptr := loud
    obtain ⟨found, there, kind⟩ := allowed
    obtain rfl := same there
    simp only [Effect.rewrite, Effect.onlyAt, ↓reduceIte]
    exact absorbed_event kind rfl
  | releaseMutant target =>
    obtain ⟨rfl, freed⟩ := loud
    have threads := (Effect.leads ok _ allowed (by simp [Effect.label])).threads
    simp only [Effect.threads, freed, ↓reduceIte] at threads
    obtain ⟨found, there, kind, _⟩ := allowed
    obtain rfl := same there
    rw [here] at freed
    rw [threads] at member
    have handed := awake.handed_wokenBy ok live (by simp [kind]) 1 member blocked
    have bound := before.mutant kind
    simp only [Effect.rewrite, Effect.onlyAt, freed, ↓reduceIte]
    refine absorbed_mutant kind ?_ (by simp [clearWaiters, putMutant, freed])
    simp only [pending, threads] at bound ⊢
    simp only [clearWaiters, putMutant]
    omega
  | releaseSemaphore target adjustment =>
    obtain rfl : target = ptr := loud
    have threads := (Effect.leads ok _ allowed (by simp [Effect.label])).threads
    simp only [Effect.threads, here] at threads
    obtain ⟨found, there, kind, positive, small, _⟩ := allowed
    obtain rfl := same there
    rw [threads] at member
    have handed := awake.handed_wokenBy ok live (by simp [kind]) _ member blocked
    have enough := unitsOf_enough positive small (before.semaphore kind)
    simp only [Effect.rewrite, Effect.onlyAt, ↓reduceIte]
    refine absorbed_semaphore kind ?_
    simp only [pending, threads] at enough ⊢
    simp only [addUnits]
    omega
  | abandon target =>
    obtain rfl : target = ptr := loud
    have threads := (Effect.leads ok _ allowed (by simp [Effect.label])).threads
    simp only [Effect.threads] at threads
    obtain ⟨found, there, kind, _⟩ := allowed
    obtain rfl := same there
    rw [threads] at member
    have handed := awake.handed_wokenBy ok live (by simp [kind]) 1 member blocked
    simp only [Effect.rewrite, Effect.onlyAt, ↓reduceIte]
    refine absorbed_mutant kind ?_ rfl
    simp only [pending, threads, clearWaiters, abandonMutant]
    omega
  | _ => exact loud.elim

/-! ## The invariant over an effect -/

/-- The running fiber holds nothing it was handed in a wait. -/
def Settled (krnl : XboxKrnl) : Prop :=
  ∀ fiber, krnl.currentFiber = some fiber → ∀ ptr, Fiber.handed ptr fiber = false

/-- In a steady state nobody is owed a wake-up by half an operation. -/
theorem Steady.settled (steady : krnl.Steady) : krnl.Settled := by
  intro fiber running ptr
  simp [Fiber.handed, steady.guest fiber running, Point.awaits]

/-- Fibers that have been handed something keep it until they run. -/
theorem Ok.pending_apply (ok : krnl.Ok) (settled : krnl.Settled) {effect : Effect} (allowed : effect.Allowed krnl)
    (owed : Option Ptr) (ptr : Ptr) : krnl.pending owed ptr ≤ (effect.apply krnl).pending owed ptr := by
  refine Nat.add_le_add_right (Counting.countP_pointwise (Fiber.handed ptr) _ _ ?_) _
  intro index fiber found handed
  by_cases loop : effect.label = .loop
  · rcases Effect.label_loop loop with rfl | rfl
    · exact ⟨fiber, found, handed⟩
    · obtain ⟨passed, after, there, passes, rest⟩ := Effect.turn_fate found allowed
      have ready : fiber.state = .ready := by
        simp only [Fiber.handed, Bool.and_eq_true, beq_iff_eq] at handed
        exact handed.1.1
      obtain rfl : passed = fiber := by
        rcases passes with same | ⟨asleep | asleep, _⟩ | ⟨blocked, _⟩
        · exact same
        · rw [ready] at asleep
          cases asleep
        · rw [ready] at asleep
          cases asleep
        · rw [ready] at blocked
          cases blocked
      rcases rest with ⟨rfl, _⟩ | ⟨_, _, rfl⟩
      · exact ⟨after, there, handed⟩
      · refine ⟨_, there, ?_⟩
        have started : passed.started = true := by
          by_contra fresh
          have entry := ((ok.fibers.each passed (List.mem_of_getElem? found)).fresh (by simpa using fresh)).1
          simp [Fiber.handed, entry, Point.awaits] at handed
        simpa [Fiber.handed, switchedIn, started] using handed
  · obtain ⟨after, there, fate⟩ := Effect.fiber_fate ok allowed loop found
    refine ⟨after, there, ?_⟩
    rcases fate with ⟨switched, _⟩ | ⟨_, rfl | ⟨blocked, _⟩⟩
    · have running : krnl.currentFiber = some fiber := by simp [currentFiber, switched, found]
      rw [settled fiber running ptr] at handed
      cases handed
    · exact handed
    · simp [Fiber.handed, blocked] at handed

/-- The objects a suspended fiber waits for are no threads. -/
theorem Awake.waited_kind (awake : krnl.Awake owed) (ok : krnl.Ok) {fiber : Fiber}
    (member : fiber ∈ krnl.sched.threads) {ptr : Ptr} (named : ptr ∈ fiber.ctx.point.waited)
    {object : DispatcherObject} (live : krnl.object? ptr = some object) : object.kind ≠ .thread := by
  intro kind
  have shape := krnl.shapes_eq _ _ live
  rcases (ok.fibers.each fiber member).waited ptr named _ shape with tabled | located
  · exact awake.threadless object.thread.schedHandle ptr ⟨tabled, object, live, kind, rfl⟩
  · obtain ⟨⟨other, there, notThread⟩, _⟩ := ok.registry.atAddress ptr located
    obtain rfl := Option.some.inj (shape.symm.trans there)
    exact notThread kind

/-- Without an effect that creates a thread all fibers stay plain ones. -/
theorem Awake.native_apply (awake : krnl.Awake owed) (ok : krnl.Ok) {effect : Effect}
    (allowed : effect.Allowed krnl) (threadless : effect.label ≠ .thread) {after : Fiber}
    (member : after ∈ (effect.apply krnl).sched.threads) : after.ctx.body = .native := by
  obtain ⟨index, found⟩ := List.mem_iff_getElem?.mp member
  by_cases loop : effect.label = .loop
  · rcases Effect.label_loop loop with rfl | rfl
    · exact awake.native after member
    · obtain ⟨fiber, passed, before, passes, rest⟩ := Effect.turn_origin allowed found
      have same : after.ctx = fiber.ctx := by
        rcases rest with ⟨rfl, _⟩ | ⟨_, _, rfl⟩
        · exact passes.same.2.1
        · exact passes.same.2.1
      rw [same]
      exact awake.native fiber (List.mem_of_getElem? before)
  · rcases Effect.fiber_origin ok allowed loop found with ⟨fiber, before, fate⟩ | ⟨_, spawned⟩
    · have native := awake.native fiber (List.mem_of_getElem? before)
      rcases fate with ⟨switched, rfl⟩ | ⟨_, rfl | ⟨_, _, rfl⟩⟩
      · cases effect with
        | enter =>
          obtain ⟨other, running, _, body⟩ := allowed
          have own : krnl.currentFiber = some fiber := by simp [currentFiber, switched, before]
          obtain rfl := Option.some.inj (running.symm.trans own)
          rw [native] at body
          cases body
        | _ => exact native
      · exact native
      · exact native
    · cases effect with
      | createThread request base => exact absurd rfl threadless
      | spawn stackTopReserve base =>
        obtain rfl : after = _ := spawned
        rfl
      | _ => exact spawned.elim

/-- And there is no thread object in the table. -/
theorem Awake.threadless_apply (awake : krnl.Awake owed) (ok : krnl.Ok) {effect : Effect}
    (allowed : effect.Allowed krnl) (threadless : effect.label ≠ .thread) (fiber : Nat) (ptr : Ptr) :
    ¬ (effect.apply krnl).TabledThread fiber ptr := by
  intro tabled
  rcases Effect.tabledThread_origin ok allowed tabled with before | ⟨⟨request, base, rfl⟩, _⟩
  · exact awake.threadless fiber ptr before
  · exact threadless rfl

/-- A close destroys no object that a blocked fiber waits for. -/
def Spares (krnl : XboxKrnl) (effect : Effect) : Prop :=
  ∀ slot ptr, effect = .close slot ptr → ∀ fiber ∈ krnl.sched.threads, fiber.state = .blockedWait →
    ptr ∉ fiber.ctx.point.waited

/-- The object a blocked fiber waits for lives on. -/
theorem Awake.waited_fate (awake : krnl.Awake owed) (ok : krnl.Ok) {effect : Effect} (allowed : effect.Allowed krnl)
    (spares : krnl.Spares effect) {fiber : Fiber} (member : fiber ∈ krnl.sched.threads)
    (blocked : fiber.state = .blockedWait) {ptr : Ptr} (named : ptr ∈ fiber.ctx.point.waited) :
    ∃ object, krnl.object? ptr = some object ∧
      (effect.apply krnl).object? ptr = some (effect.rewrite krnl ptr object) := by
  obtain ⟨object, live⟩ := awake.held fiber member blocked ptr named
  rcases Effect.object_fate ok allowed live with later | ⟨slot, rfl⟩
  · exact ⟨object, live, later⟩
  · exact absurd named (spares slot ptr rfl fiber member blocked)

/-- An object that a fiber goes on waiting for in a multiple wait still watches. -/
theorem Watched.apply (awake : krnl.Awake owed) (ok : krnl.Ok) {effect : Effect} (allowed : effect.Allowed krnl)
    (keeps : effect.label ≠ .reset) (spares : krnl.Spares effect) {fiber : Fiber}
    (before : fiber ∈ krnl.sched.threads) (after : fiber ∈ (effect.apply krnl).sched.threads)
    (blocked : fiber.BlockedOn (.multiWait fiber.handle)) {ptr : Ptr} (named : ptr ∈ fiber.ctx.point.waited)
    (watched : krnl.Watched fiber.handle ptr) : (effect.apply krnl).Watched fiber.handle ptr := by
  obtain ⟨object, live, later⟩ := awake.waited_fate ok allowed spares before blocked.1 named
  obtain ⟨absorbed, registered⟩ := watched
  have other := ok.blocked_other before blocked.1
  rw [Watched, object_eq _ _ _ later]
  rcases calm_or_loud allowed keeps live (awake.waited_kind ok before named live) with calm | loud
  · rw [krnl.object_eq _ _ live] at absorbed registered
    exact ⟨calm.absorbed ok allowed live other absorbed (Nat.le_refl 0),
      calm.waiters _ registered (by simpa using other)⟩
  · exact absurd registered (loud.unregistered ok allowed after blocked)

/-- An effect of plain code gives the object no more units than are handed out. -/
theorem Awake.absorbed_apply (awake : krnl.Awake owed) (ok : krnl.Ok) (settled : krnl.Settled) {effect : Effect}
    (allowed : effect.Allowed krnl) (keeps : effect.label ≠ .reset) {fiber : Fiber}
    (before : fiber ∈ krnl.sched.threads) (after : fiber ∈ (effect.apply krnl).sched.threads)
    (blocked : fiber.state = .blockedWait) {ptr : Ptr} (awaits : fiber.ctx.point.awaits ptr = true)
    {object : DispatcherObject} (live : krnl.object? ptr = some object) (kind : object.kind ≠ .thread)
    (absorbed : krnl.Absorbed fiber.handle (krnl.pending owed ptr) object) :
    (effect.apply krnl).Absorbed fiber.handle ((effect.apply krnl).pending owed ptr)
      (effect.rewrite krnl ptr object) := by
  rcases calm_or_loud allowed keeps live kind with calm | loud
  · exact calm.absorbed ok allowed live (ok.blocked_other before blocked) absorbed
      (ok.pending_apply settled allowed owed ptr)
  · exact loud.absorbed awake ok allowed live after ⟨blocked, ok.awaits_channel before blocked awaits live⟩ absorbed

/-- A fiber blocks on what can be waited for. -/
theorem blocks_waitable {token : Token} {point : Point} (blocks : Effect.Blocks krnl token point) {ptr : Ptr}
    (named : ptr ∈ point.waited) : krnl.Waitable ptr := by
  cases point with
  | waitDispatch target ticks =>
    obtain rfl : ptr = target := by simpa [Point.waited] using named
    exact blocks.1
  | waitMultiple ptrs waitAll ticks => exact blocks.2.1 ptr named
  | _ => simp [Point.waited] at named

/-- Blocking changes no object. -/
theorem Ok.object_block (ok : krnl.Ok) {token : Token} {ticks : Nat} {point : Point}
    (allowed : (Effect.block token ticks point).Allowed krnl) (ptr : Ptr) :
    ((Effect.block token ticks point).apply krnl).object? ptr = krnl.object? ptr := by
  rcases Effect.objects ok _ allowed with same | ⟨_, born, _⟩ | ⟨_, _, other, _⟩
  · exact (same ptr).trans (congrFun Option.map_id _)
  · exact born.elim
  · cases other

/-- Blocking satisfies no wait. -/
theorem Ok.satisfiedAs_block (ok : krnl.Ok) {token : Token} {ticks : Nat} {point : Point}
    (allowed : (Effect.block token ticks point).Allowed krnl) (fiber : Nat) (ptr : Ptr) :
    ((Effect.block token ticks point).apply krnl).satisfiedAs fiber ptr = krnl.satisfiedAs fiber ptr := by
  have here : ((Effect.block token ticks point).apply krnl).object ptr = krnl.object ptr := by
    simp only [object, ok.object_block allowed]
  rw [satisfiedAs, here, tokenOf_congr (Effect.registry_apply ok allowed rfl), satisfiedAs]

/-- A fiber that has just blocked has found its wait unsatisfied, and is registered. -/
theorem Ok.block_justified (ok : krnl.Ok) {token : Token} {ticks : Nat} {point : Point}
    (allowed : (Effect.block token ticks point).Allowed krnl) {fiber : Fiber}
    (running : krnl.currentFiber = some fiber) (owed : Option Ptr) :
    ((Effect.block token ticks point).apply krnl).Justified owed
      ((Effect.block token ticks point).moves krnl fiber) := by
  have handle := currentHandle_of_fiber running
  have satisfied := ok.satisfiedAs_block allowed fiber.handle
  have objects : ∀ ptr, ((Effect.block token ticks point).apply krnl).object ptr = krnl.object ptr := by
    intro ptr
    simp only [object, ok.object_block allowed]
  obtain ⟨_, blocks⟩ := allowed
  cases point with
  | waitDispatch ptr wait =>
    obtain ⟨_, _, unsatisfied⟩ := blocks
    rw [handle, ← satisfied] at unsatisfied
    exact absorbed_of_unsatisfied unsatisfied _
  | waitMultiple ptrs waitAll wait =>
    obtain ⟨rfl, _, registers, unmet⟩ := blocks
    rw [handle] at registers unmet
    have watched : ∀ ptr ∈ ptrs, krnl.satisfiedAs fiber.handle ptr = false →
        ((Effect.block (.multiWait krnl.currentHandle) ticks (.waitMultiple ptrs waitAll wait)).apply krnl).Watched
          fiber.handle ptr := by
      intro ptr named unsatisfied
      refine ⟨absorbed_of_unsatisfied ((satisfied ptr).trans unsatisfied) 0, ?_⟩
      rw [objects]
      exact registers ptr named unsatisfied
    cases waitAll with
    | true =>
      obtain ⟨ptr, named, unsatisfied⟩ := unmet
      exact ⟨ptr, named, watched ptr named unsatisfied⟩
    | false => exact fun ptr named => watched ptr named (unmet ptr named)
  | _ => trivial

/-- The invariant is carried over an effect once the single waits are accounted for. -/
theorem Awake.carry (awake : krnl.Awake owed) (ok : krnl.Ok) {effect : Effect} (allowed : effect.Allowed krnl)
    (keeps : effect.label ≠ .reset) (threadless : effect.label ≠ .thread) (spares : krnl.Spares effect)
    {more : Option Ptr} (single : ∀ fiber ∈ krnl.sched.threads, fiber ∈ (effect.apply krnl).sched.threads →
      fiber.state = .blockedWait → ∀ ptr object, fiber.ctx.point.awaits ptr = true →
      krnl.object? ptr = some object → object.kind ≠ .thread →
      krnl.Absorbed fiber.handle (krnl.pending owed ptr) object →
      (effect.apply krnl).Absorbed fiber.handle ((effect.apply krnl).pending more ptr)
        (effect.rewrite krnl ptr object)) : (effect.apply krnl).Awake more := by
  refine ⟨awake.channels.effect ok allowed, fun _ member => awake.native_apply ok allowed threadless member,
    awake.threadless_apply ok allowed threadless, fun after member blocked ptr named => ?_,
    fun after member blocked => ?_⟩
  · rcases Effect.blocked_origin ok allowed member blocked with old | ⟨fiber, _, rfl, ⟨token, ticks, point, rfl⟩ |
      ⟨target, out, reply, rfl⟩⟩
    · obtain ⟨_, _, later⟩ := awake.waited_fate ok allowed spares old blocked named
      exact ⟨_, later⟩
    · rw [ok.object_block allowed]
      exact (blocks_waitable allowed.2 named).1
    · simp [Effect.moves, blockedAt, Point.waited] at named
  · rcases Effect.blocked_origin ok allowed member blocked with old | ⟨fiber, running, rfl,
      ⟨token, ticks, point, rfl⟩ | ⟨target, out, reply, rfl⟩⟩
    · have justified := awake.waits after old blocked
      have waits := (ok.fibers.each after old).waits blocked
      unfold Registry.Waits at waits
      unfold Justified at justified ⊢
      split at justified
      · rename_i ptr ticks point
        have named : ptr ∈ after.ctx.point.waited := by simp [point, Point.waited]
        obtain ⟨object, live, later⟩ := awake.waited_fate ok allowed spares old blocked named
        rw [krnl.object_eq _ _ live] at justified
        rw [object_eq _ _ _ later]
        exact single after old member blocked ptr object (by simp [point, Point.awaits]) live
          (awake.waited_kind ok old named live) justified
      · rename_i ptrs ticks point
        rw [point] at waits
        obtain ⟨ptr, named, watched⟩ := justified
        exact ⟨ptr, named, watched.apply awake ok allowed keeps spares old member ⟨blocked, waits⟩
          (by simpa [point, Point.waited] using named)⟩
      · rename_i ptrs ticks point
        rw [point] at waits
        intro ptr named
        exact (justified ptr named).apply awake ok allowed keeps spares old member ⟨blocked, waits⟩
          (by simpa [point, Point.waited] using named)
      · trivial
    · exact ok.block_justified allowed running more
    · trivial

/-- The effects of plain code keep the invariant. -/
theorem Awake.effect (awake : krnl.Awake owed) (ok : krnl.Ok) (settled : krnl.Settled) {effect : Effect}
    (allowed : effect.Allowed krnl) (keeps : effect.label ≠ .reset) (threadless : effect.label ≠ .thread)
    (spares : krnl.Spares effect) : (effect.apply krnl).Awake owed :=
  awake.carry ok allowed keeps threadless spares (fun _ before after blocked _ _ awaits live kind absorbed =>
    awake.absorbed_apply ok settled allowed keeps before after blocked awaits live kind absorbed)

/-- Code that resets no event, creates no thread and closes no handle keeps the invariant. -/
theorem Awake.path (awake : krnl.Awake owed) (steady : krnl.Steady) {labels : List Label}
    (path : Path labels krnl next) (keeps : .reset ∉ labels) (threadless : .thread ∉ labels)
    (opens : .close ∉ labels) (quiet : .loop ∉ labels) : next.Awake owed := by
  have both : next.Awake owed ∧ next.Steady := by
    induction path with
    | refl => exact ⟨awake, steady⟩
    | tail _ last inductionHypothesis =>
      obtain ⟨effect, labeled, allowed, rfl⟩ := last
      obtain ⟨before, earlier⟩ := inductionHypothesis
      have differs : ∀ label, label ∉ labels → effect.label ≠ label :=
        fun label absent same => absent (same ▸ labeled)
      refine ⟨before.effect earlier.ok earlier.settled allowed (differs _ keeps) (differs _ threadless) ?_,
        Effect.steady earlier allowed (differs _ quiet)⟩
      rintro slot ptr rfl
      exact absurd labeled opens
  exact both.1

/-! ## A fiber that was handed something -/

/-- Only the single waits depend on what is owed. -/
theorem Awake.settle (awake : krnl.Awake owed) {other : Option Ptr}
    (single : ∀ fiber ptr, krnl.Absorbed fiber (krnl.pending owed ptr) (krnl.object ptr) →
      krnl.Absorbed fiber (krnl.pending other ptr) (krnl.object ptr)) : krnl.Awake other := by
  refine { awake with waits := fun fiber member blocked => ?_ }
  have justified := awake.waits fiber member blocked
  unfold Justified at justified ⊢
  split at justified
  · exact single _ _ justified
  · exact justified
  · exact justified
  · trivial

/-- What was handed out by an object that the running fiber does not find satisfied is gone. -/
theorem Awake.forget {ptr : Ptr} (awake : krnl.Awake (some ptr))
    (unsatisfied : krnl.satisfiedAs krnl.currentHandle ptr = false) : krnl.Awake none := by
  refine awake.settle (fun fiber target absorbed => ?_)
  by_cases same : ptr = target
  · subst same
    have empty := absorbed_of_unsatisfied unsatisfied (krnl.pending none ptr)
    exact ⟨empty.event, empty.semaphore, empty.mutant, absorbed.owner⟩
  · simpa [pending, same] using absorbed

/-- An event owes nothing. -/
theorem Awake.forget_event {ptr : Ptr} (awake : krnl.Awake (some ptr)) (kind : (krnl.object ptr).kind = .event) :
    krnl.Awake none := by
  refine awake.settle (fun fiber target absorbed => ?_)
  by_cases same : ptr = target
  · subst same
    exact absorbed_event kind (absorbed.event kind)
  · simpa [pending, same] using absorbed

/-- A fiber that was handed something leaves its wait with it. -/
theorem Awake.proceed {ptr : Ptr} (awake : krnl.Awake none) (ok : krnl.Ok) (allowed : (Effect.proceed).Allowed krnl)
    {fiber : Fiber} (running : krnl.currentFiber = some fiber) (handed : Fiber.handed ptr fiber = true) :
    ((Effect.proceed).apply krnl).Awake (some ptr) := by
  obtain ⟨index, switched, found⟩ := currentFiber_index running
  have threads := (Effect.leads ok .proceed allowed (by simp [Effect.label])).threads
  have listed : ((Effect.proceed).apply krnl).sched.threads =
      krnl.sched.threads.modify index ((Effect.proceed).moves krnl) := threads.trans (krnl.onCurrent_some switched _)
  have enough : ∀ target, krnl.pending none target ≤ ((Effect.proceed).apply krnl).pending (some ptr) target := by
    intro target
    have counted := Counting.countP_modify (Fiber.handed target) ((Effect.proceed).moves krnl) found
    have used : Fiber.handed target ((Effect.proceed).moves krnl fiber) = false := by
      simp [Effect.moves, Fiber.handed, Point.awaits]
    rw [used, if_neg Bool.false_ne_true, ← listed] at counted
    by_cases same : ptr = target
    · simp only [pending, same, ↓reduceIte, reduceCtorEq]
      split at counted <;> omega
    · have other : Fiber.handed target fiber = false := by
        by_contra also
        simp only [Fiber.handed, Bool.and_eq_true, Bool.not_eq_false] at handed also
        cases point : fiber.ctx.point with
        | waitDispatch object ticks =>
          have first : object = ptr := by simpa [point, Point.awaits] using handed.2
          have second : object = target := by simpa [point, Point.awaits] using also.2
          exact same (first.symm.trans second)
        | _ => simp [point, Point.awaits] at handed
      simp only [other, Bool.false_eq_true, ↓reduceIte] at counted
      simp only [pending, reduceCtorEq, ↓reduceIte]
      omega
  refine awake.carry ok allowed (by simp [Effect.label]) (by simp [Effect.label]) (fun _ _ other => by cases other) ?_
  intro waiter before _ blocked target object _ live _ absorbed
  exact (Calm.refl object).absorbed ok allowed live (ok.blocked_other before blocked) absorbed (enough target)

/-- A fiber takes the unit it was handed. -/
theorem Awake.acquire {ptr : Ptr} {status : Nat} (awake : krnl.Awake (some ptr)) (ok : krnl.Ok)
    (allowed : (Effect.acquire .single [ptr] status).Allowed krnl) (inFiber : krnl.currentHandle ≠ 0) :
    ((Effect.acquire .single [ptr] status).apply krnl).Awake none := by
  have threads : ((Effect.acquire .single [ptr] status).apply krnl).sched.threads = krnl.sched.threads :=
    (Effect.leads ok _ allowed (by simp [Effect.label])).threads
  refine awake.carry ok allowed (by simp [Effect.label]) (by simp [Effect.label]) (fun _ _ other => by cases other) ?_
  intro waiter before _ blocked target object _ live _ absorbed
  have other := ok.blocked_other before blocked
  by_cases same : ptr = target
  · subst same
    have calm := (krnl.takeOne_calm object).absorbed ok allowed live other absorbed (Nat.le_refl _)
    have kinds := (krnl.takeOne_calm object).kind
    have once : (Effect.acquire .single [ptr] status).rewrite krnl ptr object = krnl.takeOne object := by
      simp [Effect.rewrite]
    simp only [pending, ↓reduceIte] at absorbed
    rw [once]
    refine ⟨calm.event, fun kind => ?_, fun kind => ?_, calm.owner⟩
    · rw [kinds] at kind
      have bound := absorbed.semaphore kind
      simp only [takeOne, kind, pending, threads, reduceCtorEq, ↓reduceIte]
      omega
    · rw [kinds] at kind
      have bound := absorbed.mutant kind
      simp only [takeOne, kind, inFiber, takeMutant, pending, threads, reduceCtorEq, ↓reduceIte]
      omega
  · have untaken : (Effect.acquire .single [ptr] status).rewrite krnl target object = object := by
      simp [Effect.rewrite, same]
    rw [untaken]
    refine (Calm.refl object).absorbed ok allowed live other absorbed ?_
    simp [pending, threads, same]

/-- The fiber uses what it was handed, or finds that it is gone and waits again. -/
theorem Awake.redispatch {ptr : Ptr} (awake : krnl.Awake (some ptr)) (steady : krnl.Steady)
    (waitable : krnl.Waitable ptr) (inFiber : krnl.currentHandle ≠ 0) (ticks : Nat) :
    (krnl.resumeDispatch ptr ticks true).1.Awake none := by
  have labels : Path [.waiting, .acquiring, .consume] krnl (krnl.resumeDispatch ptr ticks true).1 :=
    (steady.resumeDispatch waitable ticks).path
  by_cases kind : (krnl.object ptr).kind = .event
  · exact (awake.forget_event kind).path steady labels (by simp) (by simp) (by simp) (by simp)
  · simp only [XboxKrnl.resumeDispatch, Bool.not_true, Bool.false_eq_true, ↓reduceIte, kind]
    obtain ⟨middle, path, ⟨same, unmet⟩ | ⟨status, caller, allowed, applied⟩⟩ :=
      steady.dispatchEnds waitable false ticks
    · rw [same]
      exact (awake.forget unmet).path steady path (by simp) (by simp) (by simp) (by simp)
    · rw [applied]
      have before := awake.path steady path (by simp) (by simp) (by simp) (by simp)
      exact before.acquire (path.ok steady.ok) allowed (by rw [caller]; exact inFiber)

/-- The resumption of a fiber that was handed something. -/
theorem Awake.resume_handed {ptr : Ptr} (awake : krnl.Awake none) (ok : krnl.Ok) {fiber : Fiber}
    (running : krnl.currentFiber = some fiber) (handed : Fiber.handed ptr fiber = true)
    (resumed : krnl.resume = some next) : next.Awake none := by
  obtain ⟨ticks, point, woken⟩ : ∃ ticks, fiber.ctx.point = .waitDispatch ptr ticks ∧ fiber.waitTimedOut = false := by
    simp only [Fiber.handed, Bool.and_eq_true, Bool.not_eq_eq_eq_not, Bool.not_true] at handed
    cases point : fiber.ctx.point with
    | waitDispatch object ticks =>
      obtain rfl : object = ptr := by simpa [point, Point.awaits] using handed.2
      exact ⟨ticks, rfl, handed.1.2⟩
    | _ => simp [point, Point.awaits] at handed
  have proceeds : (Effect.proceed).Allowed krnl := ⟨fiber, running, fun entry => by rw [point] at entry; cases entry⟩
  have steady := ok.proceeded proceeds
  have left := awake.proceed ok proceeds running handed
  have applied : (Effect.proceed).apply krnl = krnl.setPoint .guest := rfl
  rw [applied] at steady left
  obtain ⟨usable, rfl⟩ := resume_waitDispatch running point resumed
  have waitable := ok.setPoint_waitable running (by simp [point, Point.waited]) (usable woken)
  have path : Path [.waiting, .acquiring, .consume] (krnl.setPoint .guest) _ :=
    (steady.resumeDispatch waitable ticks).path
  rw [woken]
  exact (left.redispatch steady waitable (ok.setPoint_handle running) ticks).path (path.steady steady (by simp))
    (deliver_path _ _) (by simp) (by simp) (by simp) (by simp)

/-- A turn of the loop keeps everybody awake who should be.

Proof: the fiber that is switched in had been handed something, or looks at its objects itself. -/
theorem Awake.turn (awake : krnl.Awake none) (steady : krnl.Steady) (stepped : krnl.step .turn = some next) :
    next.Awake none := by
  obtain ⟨idle, outcome⟩ := turn_cases stepped
  have turned : ((Effect.turn).apply krnl).Awake none := by
    refine awake.effect steady.ok steady.settled idle (by simp [Effect.label]) (by simp [Effect.label]) ?_
    rintro slot ptr other
    cases other
  rcases outcome with ⟨rfl, _⟩ | ⟨fiber, running, resumed⟩
  · exact turned
  · have ok := Effect.sound steady.ok .turn idle
    by_cases handed : ∃ ptr, Fiber.handed ptr fiber = true
    · obtain ⟨ptr, handed⟩ := handed
      exact turned.resume_handed ok running handed resumed
    · have settled : ((Effect.turn).apply krnl).Settled := by
        intro current again ptr
        obtain rfl := Option.some.inj (running.symm.trans again)
        by_contra also
        exact handed ⟨ptr, by simpa using also⟩
      obtain ⟨effect, labeled, allowed, entered, rest⟩ := ok.resumes_first (ok.resume running resumed)
      have begun : (effect.apply ((Effect.turn).apply krnl)).Awake none := by
        refine turned.effect ok settled allowed (by simp [labeled]) (by simp [labeled]) ?_
        rintro slot ptr rfl
        cases labeled
      rcases rest with path | ⟨va, _, _, result⟩
      · exact begun.path entered path (by simp [wakeLabels, proceedLabels]) (by simp [wakeLabels, proceedLabels])
          (by simp [wakeLabels, proceedLabels]) (by simp [wakeLabels, proceedLabels])
      · exact begun.path entered (entered.contended result) (by simp) (by simp) (by simp) (by simp)

/-! ## Whole runs -/

/-- The action neither initialises an event in guest memory again nor creates a system
thread: waits are on events, mutants and semaphores. -/
def plain : Action → Bool
  | .call (.keInitializeEvent _ _ _) => false
  | .call (.psCreateSystemThreadEx _) => false
  | _ => true

/-- `NtClose` is not applied to an object that a blocked fiber waits for. -/
def ClosesUnwaited (krnl : XboxKrnl) (action : Action) : Prop :=
  ∀ ptr ∈ ((closedBy action).bind krnl.findObjectByHandle).toList, ∀ fiber ∈ krnl.sched.threads,
    fiber.state = .blockedWait → ptr ∉ fiber.ctx.point.waited

instance (krnl : XboxKrnl) (action : Action) : Decidable (krnl.ClosesUnwaited action) :=
  inferInstanceAs (Decidable (∀ _ ∈ _, _))

/-- A plain action neither resets an event nor creates a thread. -/
theorem plain_labels {action : Action} (isPlain : plain action = true) :
    .reset ∉ actionLabels action ∧ .thread ∉ actionLabels action := by
  cases action with
  | call call =>
    cases call with
    | keInitializeEvent event type state => cases isPlain
    | psCreateSystemThreadEx request => cases isPlain
    | _ => simp [actionLabels, labelsOf]
  | turn => simp [actionLabels, resumeLabels, wakeLabels, proceedLabels]
  | _ => simp [actionLabels]

/-- So does every plain action. -/
theorem Awake.step (awake : krnl.Awake none) (steady : krnl.Steady) {action : Action} (isPlain : plain action = true)
    (unwaited : krnl.ClosesUnwaited action) (stepped : krnl.step action = some next) : next.Awake none := by
  obtain ⟨keeps, threadless⟩ := plain_labels isPlain
  by_cases closes : .close ∈ actionLabels action
  · obtain ⟨handle, rfl⟩ := closedBy_of_label closes
    rcases ntClose_cases stepped with ⟨_, path⟩ | ⟨ptr, ram, found, allowed, path⟩
    · exact awake.path steady path (by simp) (by simp) (by simp) (by simp)
    · have begins : Path [.waiting] krnl { krnl with ram } :=
        Path.one (.compute ram krnl.filetime) (by simp [Effect.label]) trivial
      have begun := awake.path steady begins (by simp) (by simp) (by simp) (by simp)
      have begunSteady := begins.steady steady (by simp)
      have closed := begun.effect begunSteady.ok begunSteady.settled allowed (by simp [Effect.label])
        (by simp [Effect.label]) (by
          rintro slot target same fiber member blocked
          obtain ⟨_, rfl⟩ := Effect.close.inj same
          exact unwaited ptr (by simp [closedBy, found]) fiber member blocked)
      exact closed.path (Effect.steady begunSteady allowed (by simp [Effect.label])) path (by simp) (by simp)
        (by simp) (by simp)
  · cases action with
    | turn => exact awake.turn steady stepped
    | run =>
      obtain ⟨idle, _, rfl⟩ := run_cases stepped
      exact awake.effect steady.ok steady.settled (show (Effect.enterLoop).Allowed krnl from idle)
        (by simp [Effect.label]) (by simp [Effect.label]) (fun _ _ other => by cases other)
    | call call =>
      refine awake.path steady (steady.step stepped).1 keeps threadless closes ?_
      cases call <;> simp [actionLabels, labelsOf]
    | _ => exact awake.path steady (steady.step stepped).1 keeps threadless closes (by simp [actionLabels])

/-- At first nobody waits. -/
theorem initial_awake (ram : XbeRam) (addresses : Nat → Nat) (threadRunner : Bool) (kernelDataVa : Nat) :
    (initial ram addresses threadRunner kernelDataVa).Awake none := by
  refine ⟨fun ptr object live => ?_, fun fiber member => ?_, fun fiber ptr tabled => ?_, fun fiber member => ?_,
    fun fiber member => ?_⟩
  · simp [initial, object?] at live
  · cases member
  · obtain ⟨_, object, live, _⟩ := tabled
    simp [initial, object?] at live
  · cases member
  · cases member

/-- In a state without a ready or running fiber every blocked fiber waits for something
that has not happened: over every run on events, mutants and semaphores that closes no
object while a fiber waits for it.

Proof: the invariant says of a blocked fiber that what was handed to others still covers its object.
In a quiescent state nothing is handed to anyone, so the object itself is unsatisfied. -/
theorem no_lost_wakeups {actions : List Action}
    (reached : krnl.ReachesUnder (fun krnl action => plain action = true ∧ krnl.ClosesUnwaited action) actions)
    (quiescent : krnl.Quiescent) :
    ∀ fiber ∈ krnl.sched.threads, fiber.state = .blockedWait → krnl.waitMet fiber = false := by
  have invariant : krnl.Steady ∧ krnl.Awake none :=
    reached.invariant initial_awake (fun _ _ _ steady awake condition stepped =>
      Awake.step awake steady condition.1 condition.2 stepped)
  obtain ⟨steady, awake⟩ := invariant
  have unhanded : ∀ ptr, krnl.pending none ptr = 0 := by
    intro ptr
    have spent : krnl.sched.threads.countP (Fiber.handed ptr) = 0 := by
      refine List.countP_eq_zero.mpr (fun fiber member handed => ?_)
      simp only [Fiber.handed, Bool.and_eq_true, beq_iff_eq] at handed
      exact (quiescent fiber member).1 handed.1.1
    simp [pending, spent]
  intro fiber member blocked
  have unsatisfied : ∀ ptr ∈ fiber.ctx.point.waited, krnl.Absorbed fiber.handle 0 (krnl.object ptr) →
      krnl.satisfiedAs fiber.handle ptr = false := by
    intro ptr named absorbed
    obtain ⟨object, live⟩ := awake.held fiber member blocked ptr named
    refine absorbed.unsatisfied ?_
    rw [krnl.object_eq _ _ live]
    exact awake.waited_kind steady.ok member named live
  have justified := awake.waits fiber member blocked
  unfold Justified at justified
  unfold waitMet
  split at justified
  · rename_i ptr ticks point
    rw [unhanded] at justified
    exact unsatisfied ptr (by simp [point, Point.waited]) justified
  · rename_i ptrs ticks point
    obtain ⟨ptr, named, watched⟩ := justified
    simp only [List.all_eq_false]
    exact ⟨ptr, named, by simp [unsatisfied ptr (by simpa [point, Point.waited] using named) watched.1]⟩
  · rename_i ptrs ticks point
    simp only [List.any_eq_false]
    intro ptr named
    simp [unsatisfied ptr (by simpa [point, Point.waited] using named) (justified ptr named).1]
  · rfl

/-- A fiber waits for a semaphore; another one releases a unit, takes it itself and ends,
and the first one finds nothing and waits again. -/
def overtakenWaiter : List Action :=
  [.call (.ntCreateSemaphore 16 0 0 2), .spawn 0 (some 4096), .spawn 0 (some 8192), .run, .turn,
    .call (.ntWaitForSingleObject 4 0 0), .turn, .call (.ntReleaseSemaphore 4 1 0),
    .call (.ntWaitForSingleObject 4 0 0), .finish 0, .turn]

/-- A waiter that has been overtaken is blocked, and its wait is not met. -/
theorem overtakenWaiter_unmet :
    (after true overtakenWaiter).sched.threads.map GuestThread.state = [.blockedWait, .finished] ∧
      ∀ fiber ∈ (after true overtakenWaiter).sched.threads, fiber.state = .blockedWait →
        (after true overtakenWaiter).waitMet fiber = false :=
  ⟨by decide +kernel, no_lost_wakeups (reachesUnder_after _ true overtakenWaiter (by decide +kernel)
    (by decide +kernel)) (by decide +kernel)⟩

end XboxKrnl

end SeriesxEmu
