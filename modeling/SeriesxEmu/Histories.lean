import SeriesxEmu.SystemPaths

/-!
# Tokens, finished fibers, waits in progress and the history

Facts that invariants over the history need. The token of a fiber changes only
when its identity is made, and is then one that no mutant is owned by. Only an
exit finishes a fiber. Until a wait acquires something it changes no object but in its list of
registered multi-waiters. And the history only mentions objects that have been
allocated, so it says nothing yet about an object that is created next.
-/

namespace SeriesxEmu

open Scheduler GuestScheduler XboxKrnl

namespace Effect

variable {krnl : XboxKrnl}

/-! ## Tokens -/

/-- Only making an identity changes the set of identities. -/
theorem fiberThreads_apply (ok : krnl.Ok) {effect : Effect} (allowed : effect.Allowed krnl)
    (other : effect ≠ .identify) :
    (effect.apply krnl).registry.fiberThreads = krnl.registry.fiberThreads := by
  by_cases keeps : effect.registers = false
  · rw [registry_apply ok allowed keeps]
  · cases effect with
    | identify => exact absurd rfl other
    | create object =>
      obtain ⟨_, _, _, inserted, _⟩ := krnl.insert_allocated ok.registry object
      have stored : (krnl.allocate object).1.insertObject (krnl.allocate object).2 = _ := inserted
      simp only [Effect.apply, stored]
      rfl
    | install object => rfl
    | createThread request base =>
      obtain ⟨_, _, _, created, _⟩ := krnl.createThread_eq ok.registry request base allowed
      simp only [Effect.apply, created]
      rfl
    | spend identifiers handles => rfl
    | close slot ptr => rfl
    | spawn stackTopReserve base => rfl
    | _ => exact absurd rfl keeps

/-- A fiber keeps its token, or its identity is being made. -/
theorem tokenOf_apply (ok : krnl.Ok) {effect : Effect} (allowed : effect.Allowed krnl) (fiber : Nat) :
    (effect.apply krnl).tokenOf fiber = krnl.tokenOf fiber ∨
      (effect = .identify ∧ fiber = krnl.currentHandle ∧ krnl.tokenOf fiber = 0 ∧
        (effect.apply krnl).tokenOf fiber = krnl.nextThreadId) := by
  have nextOk := effect.sound ok allowed
  by_cases token : krnl.tokenOf fiber = 0
  · have absent : krnl.fiberThread? fiber = none := by
      cases found : krnl.fiberThread? fiber with
      | none => rfl
      | some ptr => exact absurd token ((ok.tokenOf_ne_zero fiber).mpr ⟨ptr, found⟩)
    by_cases made : effect = .identify ∧ fiber = krnl.currentHandle
    · obtain ⟨rfl, rfl⟩ := made
      exact Or.inr ⟨rfl, rfl, token, tokenOf_identify absent nextOk⟩
    · left
      have still : (effect.apply krnl).fiberThread? fiber = none := by
        rw [fiberThread?_eq_none] at absent ⊢
        intro ptr member
        by_cases identifies : effect = .identify
        · subst identifies
          obtain ⟨_, unidentified, _⟩ := allowed
          simp only [Effect.apply, krnl.registry_identify _ unidentified, List.mem_append,
            List.mem_singleton, Prod.mk.injEq] at member
          rcases member with old | ⟨same, _⟩
          · exact absent ptr old
          · exact made ⟨rfl, same⟩
        · rw [fiberThreads_apply ok allowed identifies] at member
          exact absent ptr member
      rw [tokenOf_none _ _ still, token]
  · left
    by_cases closes : ∃ slot ptr, effect = .close slot ptr
    · obtain ⟨slot, ptr, rfl⟩ := closes
      exact ok.tokenOf_close allowed fiber token
    · have extension := extends_apply ok allowed (fun slot ptr same => closes ⟨slot, ptr, same⟩)
      exact ok.tokenOf_extend extension nextOk.registry fiber token

/-- The test whether a fiber owns a mutant has the same outcome before and after. -/
theorem owns_apply (ok : krnl.Ok) {effect : Effect} (allowed : effect.Allowed krnl) (fiber : Nat) {ptr : Ptr}
    {object : DispatcherObject} (live : krnl.object? ptr = some object) (kind : object.kind = .mutant) :
    (object.mutant.owner ≠ 0 ∧ object.mutant.owner = (effect.apply krnl).tokenOf fiber) ↔
      (object.mutant.owner ≠ 0 ∧ object.mutant.owner = krnl.tokenOf fiber) := by
  rcases tokenOf_apply ok allowed fiber with same | ⟨_, _, zero, fresh⟩
  · rw [same]
  · have below := ok.owner_below live kind
    rw [zero, fresh]
    constructor
    · rintro ⟨_, same⟩
      exact absurd same (Nat.ne_of_lt below)
    · rintro ⟨owned, same⟩
      exact absurd same owned

/-! ## Finished fibers -/

/-- An effect of an ending stops a thread object, abandons a mutant or wakes a joiner. -/
theorem label_ending {effect : Effect} (ending : effect.label = .ending) :
    ∃ ptr, effect = .adjust ptr .stop ∨ effect = .abandon ptr ∨ effect = .wakeJoiner ptr := by
  unfold label at ending
  split at ending <;>
    first
      | exact ⟨_, Or.inl rfl⟩
      | exact ⟨_, Or.inr (Or.inl rfl)⟩
      | exact ⟨_, Or.inr (Or.inr rfl)⟩
      | cases ending

/-- No effect but the exit finishes a fiber. -/
theorem moves_unfinished {effect : Effect} (allowed : effect.Allowed krnl) (stays : effect.label ≠ .exiting)
    (fiber : Fiber) (finished : (effect.moves krnl fiber).state = .finished) : fiber.state = .finished := by
  cases effect with
  | block token ticks point => cases finished
  | suspendSelf ptr out reply => cases finished
  | exit code => exact absurd rfl stays
  | pause state wakeTick joinTarget point =>
    obtain ⟨_, ⟨rfl, _⟩ | ⟨rfl | rfl | rfl, _⟩⟩ := allowed <;> cases finished
  | _ => exact finished

/-- A finished fiber was finished before, unless it has just ended. -/
theorem finished_origin (ok : krnl.Ok) {effect : Effect} (allowed : effect.Allowed krnl)
    (stays : effect.label ≠ .exiting) {after : Fiber} (member : after ∈ (effect.apply krnl).sched.threads)
    (finished : after.state = .finished) :
    ∃ fiber ∈ krnl.sched.threads, fiber.state = .finished ∧ fiber.handle = after.handle := by
  obtain ⟨index, found⟩ := List.mem_iff_getElem?.mp member
  by_cases loop : effect.label = .loop
  · rcases label_loop loop with rfl | rfl
    · exact ⟨after, member, finished, rfl⟩
    · obtain ⟨fiber, passed, before, passes, ⟨rfl, _⟩ | ⟨_, ready, rfl⟩⟩ := turn_origin allowed found
      · have same := passes.unready (by simp [finished])
        exact ⟨after, same ▸ List.mem_of_getElem? before, finished, rfl⟩
      · simp only [XboxKrnl.switchedIn, ready] at finished
        split at finished <;> cases finished
  · rcases fiber_origin ok allowed loop found with ⟨fiber, before, fate⟩ | ⟨_, spawned⟩
    · refine ⟨fiber, List.mem_of_getElem? before, ?_⟩
      rcases fate with ⟨_, rfl⟩ | ⟨_, rfl | ⟨_, _, rfl⟩⟩
      · exact ⟨moves_unfinished allowed stays fiber finished, (effect.moves_handle krnl fiber).symm⟩
      · exact ⟨finished, rfl⟩
      · cases finished
    · cases effect with
      | createThread request base =>
        obtain rfl : after = _ := spawned
        cases finished
      | spawn stackTopReserve base =>
        obtain rfl : after = _ := spawned
        cases finished
      | _ => exact spawned.elim

/-- A fiber keeps its handle, and is finished afterwards exactly if it was before. -/
theorem fiber_lasts (ok : krnl.Ok) {effect : Effect} (allowed : effect.Allowed krnl)
    (stays : effect.label ≠ .exiting) {fiber : Fiber} (member : fiber ∈ krnl.sched.threads) :
    ∃ after ∈ (effect.apply krnl).sched.threads, after.handle = fiber.handle ∧
      (after.state = .finished ↔ fiber.state = .finished) := by
  obtain ⟨index, found⟩ := List.mem_iff_getElem?.mp member
  by_cases loop : effect.label = .loop
  · rcases label_loop loop with rfl | rfl
    · exact ⟨fiber, member, rfl, Iff.rfl⟩
    · obtain ⟨passed, after, later, passes, moved⟩ := turn_fate found allowed
      refine ⟨after, List.mem_of_getElem? later, ?_⟩
      rcases moved with ⟨rfl, _⟩ | ⟨_, ready, rfl⟩
      · refine ⟨passes.same.1, ?_⟩
        rcases passes with rfl | ⟨asleep | asleep, rfl⟩ | ⟨blocked, rfl⟩
        · exact Iff.rfl
        · simp [asleep]
        · simp [asleep]
        · simp [blocked]
      · refine ⟨passes.same.1, ?_⟩
        have running : (switchedIn passed).state ≠ .finished := by
          simp only [switchedIn, ready]
          split <;> simp
        rcases passes with rfl | ⟨asleep | asleep, rfl⟩ | ⟨blocked, rfl⟩
        · simp [running, ready]
        · simp [running, asleep]
        · simp [running, asleep]
        · simp [running, blocked]
  · obtain ⟨after, later, fate⟩ := fiber_fate ok allowed loop found
    refine ⟨after, List.mem_of_getElem? later, ?_⟩
    rcases fate with ⟨switched, rfl⟩ | ⟨_, rfl | ⟨blocked, _, rfl⟩⟩
    · refine ⟨effect.moves_handle krnl fiber, moves_unfinished allowed stays fiber, fun finished => ?_⟩
      obtain ⟨other, again, _, state⟩ := ok.current index switched
      obtain rfl := Option.some.inj (found.symm.trans again)
      rw [finished] at state
      simp at state
    · exact ⟨rfl, Iff.rfl⟩
    · exact ⟨rfl, by simp [GuestThread.wake, blocked]⟩

/-! ## Waits in progress -/

/-- A wait that acquires nothing changes at most the list of multi-waiters. -/
theorem rewrite_waiting {effect : Effect} (waiting : effect.label = .waiting) (ptr : Ptr)
    (object : DispatcherObject) : clearWaiters (effect.rewrite krnl ptr object) = clearWaiters object := by
  have only : ∀ (target : Ptr) (change : DispatcherObject → DispatcherObject),
      clearWaiters (change object) = clearWaiters object →
      clearWaiters (onlyAt target change ptr object) = clearWaiters object :=
    fun target change same => onlyAt_holds (fun o => clearWaiters o = clearWaiters object) same rfl
  cases effect with
  | acquire mode ptrs status => cases mode <;> simp [label] at waiting
  | adjust target change =>
    refine only target _ ?_
    cases change with
    | register => rfl
    | unregister => rfl
    | _ => simp [label] at waiting
  | suspendSelf target out reply => simp [label] at waiting
  | setEvent target => simp [label] at waiting
  | pulseEvent target => simp [label] at waiting
  | releaseMutant target => simp [label] at waiting
  | releaseSemaphore target adjustment => simp [label] at waiting
  | resumeThread target => simp [label] at waiting
  | abandon target => simp [label] at waiting
  | wakeJoiner target => simp [label] at waiting
  | _ => rfl

end Effect

namespace XboxKrnl

variable {krnl next : XboxKrnl}

/-- Two objects that differ in their multi-waiters only. -/
theorem parts_of_cleared {left right : DispatcherObject} (same : clearWaiters left = clearWaiters right) :
    left.kind = right.kind ∧ left.event = right.event ∧ left.mutant = right.mutant ∧
      left.semaphore = right.semaphore ∧ left.thread = right.thread := by
  simp only [clearWaiters, DispatcherObject.mk.injEq] at same
  obtain ⟨kind, _, _, _, event, mutant, semaphore, thread⟩ := same
  exact ⟨kind, event, mutant, semaphore, thread⟩

/-- The state of the objects, as far as waits look at it, is the same; so is the
running fiber, unless it has blocked. -/
structure Undisturbed (krnl next : XboxKrnl) : Prop where
  objects : ∀ ptr object, krnl.object? ptr = some object →
    ∃ after, next.object? ptr = some after ∧ clearWaiters after = clearWaiters object
  owns : ∀ fiber ptr object, krnl.object? ptr = some object → object.kind = .mutant →
    ((object.mutant.owner ≠ 0 ∧ object.mutant.owner = next.tokenOf fiber) ↔
      (object.mutant.owner ≠ 0 ∧ object.mutant.owner = krnl.tokenOf fiber))
  handle : next.currentHandle = krnl.currentHandle ∨ next.currentHandle = 0

/-- A state does not disturb itself. -/
theorem Undisturbed.refl (krnl : XboxKrnl) : krnl.Undisturbed krnl :=
  ⟨fun _ object live => ⟨object, live, rfl⟩, fun _ _ _ _ _ => Iff.rfl, Or.inl rfl⟩

/-- Two changes that disturb nothing disturb nothing together. -/
theorem Undisturbed.trans {last : XboxKrnl} (first : krnl.Undisturbed next) (second : next.Undisturbed last) :
    krnl.Undisturbed last := by
  refine ⟨fun ptr object live => ?_, fun fiber ptr object live kind => ?_, ?_⟩
  · obtain ⟨middle, liveMiddle, same⟩ := first.objects ptr object live
    obtain ⟨after, liveAfter, again⟩ := second.objects ptr middle liveMiddle
    exact ⟨after, liveAfter, again.trans same⟩
  · obtain ⟨middle, liveMiddle, same⟩ := first.objects ptr object live
    obtain ⟨kinds, _, mutants, _⟩ := parts_of_cleared same
    have later := second.owns fiber ptr middle liveMiddle (kinds.trans kind)
    rw [mutants] at later
    exact later.trans (first.owns fiber ptr object live kind)
  · rcases second.handle with same | zero
    · rw [same]
      exact first.handle
    · exact Or.inr zero

/-- An effect of waiting disturbs no wait that is in progress. -/
theorem Undisturbed.effect (ok : krnl.Ok) {effect : Effect} (allowed : effect.Allowed krnl)
    (waiting : effect.label = .waiting) : krnl.Undisturbed (effect.apply krnl) := by
  have quiet : effect.label ≠ .loop := by rw [waiting]; simp
  refine ⟨fun ptr object live => ?_, fun fiber ptr object live kind =>
    Effect.owns_apply ok allowed fiber live kind, ?_⟩
  · rcases Effect.object_fate ok allowed live with later | ⟨slot, rfl⟩
    · exact ⟨_, later, Effect.rewrite_waiting waiting ptr object⟩
    · simp [Effect.label] at waiting
  · by_cases leaves : effect.leaves = true
    · have current := (effect.leads ok allowed quiet).current
      rw [leaves] at current
      exact Or.inr (by simp [currentHandle, GuestScheduler.currentHandle, current])
    · exact Or.inl (Effect.currentHandle_apply ok allowed quiet (by simpa using leaves))

/-- Neither does a path of them. -/
theorem Path.undisturbed (path : Path [.waiting] krnl next) (ok : krnl.Ok) : krnl.Undisturbed next := by
  induction path with
  | refl => exact Undisturbed.refl krnl
  | tail earlier last inductionHypothesis =>
    obtain ⟨effect, labeled, allowed, rfl⟩ := last
    exact inductionHypothesis.trans
      (Undisturbed.effect (Path.ok earlier ok) allowed (List.mem_singleton.mp labeled))

/-- The outcome of `dispatcher_satisfied` for any fiber is the same. -/
theorem Undisturbed.satisfied (undisturbed : krnl.Undisturbed next) (fiber : Nat) {ptr : Ptr}
    {object : DispatcherObject} (live : krnl.object? ptr = some object) :
    next.satisfiedAs fiber ptr = krnl.satisfiedAs fiber ptr := by
  obtain ⟨after, liveAfter, same⟩ := undisturbed.objects ptr object live
  obtain ⟨kinds, events, mutants, semaphores, threads⟩ := parts_of_cleared same
  simp only [satisfiedAs, object_eq _ _ _ liveAfter, object_eq _ _ _ live, kinds, events, mutants,
    semaphores, threads]
  split
  · rfl
  · rename_i kind
    congr 1
    rw [Bool.eq_iff_iff]
    simpa using undisturbed.owns fiber ptr object live kind
  · rfl
  · rfl

/-- What is satisfied for the host is satisfied for every fiber. -/
theorem Ok.satisfied_host (ok : krnl.Ok) (fiber : Nat) {ptr : Ptr} (satisfied : krnl.satisfiedAs 0 ptr = true) :
    krnl.satisfiedAs fiber ptr = true := by
  have zero : krnl.tokenOf 0 = 0 := by
    by_contra token
    obtain ⟨self, found⟩ := (ok.tokenOf_ne_zero 0).mp token
    exact (live_of_identity ok.registry found).1 rfl
  simp only [satisfiedAs] at satisfied ⊢
  split at satisfied
  · exact satisfied
  · have free : 0 < (krnl.object ptr).mutant.signalState := by
      by_contra held
      simp only [held, decide_false, zero, Bool.false_or, Bool.and_eq_true, bne_iff_ne, ne_eq,
        beq_iff_eq] at satisfied
      exact satisfied.1 satisfied.2
    simp [free]
  · exact satisfied
  · exact satisfied

/-- An acquisition that ends a wait finds satisfied what was satisfied at its start. -/
theorem Undisturbed.satisfied_start (undisturbed : krnl.Undisturbed next) (nextOk : next.Ok) {ptr : Ptr}
    {object : DispatcherObject} (live : krnl.object? ptr = some object)
    (satisfied : next.satisfiedAs next.currentHandle ptr = true) :
    krnl.satisfiedAs krnl.currentHandle ptr = true := by
  rw [← undisturbed.satisfied krnl.currentHandle live]
  rcases undisturbed.handle with same | zero
  · rw [← same]
    exact satisfied
  · rw [zero] at satisfied
    exact nextOk.satisfied_host _ satisfied

end XboxKrnl

/-! ## The history -/

/-- The objects an entry of the history mentions. -/
def Event.mentions : Event → List Ptr
  | .satisfied _ _ objects _ => objects
  | .owned _ mutant => [mutant]
  | .counted semaphore _ _ => [semaphore]
  | .released _ object _ => [object]
  | _ => []

namespace XboxKrnl

variable {krnl next : XboxKrnl}

/-- The history mentions only objects that have been allocated. -/
def Recorded (krnl : XboxKrnl) : Prop :=
  ∀ event ∈ krnl.history, ∀ ptr ∈ event.mentions, ptr < krnl.heap.length

/-- The effects whose entries mention an object. -/
theorem events_mention {effect : Effect} (allowed : effect.Allowed krnl) {event : Event}
    (new : event ∈ effect.events krnl) {ptr : Ptr} (mentioned : ptr ∈ event.mentions) :
    (∃ mode ptrs status, effect = .acquire mode ptrs status ∧ ptr ∈ ptrs ∧ krnl.acquirable ptr = true) ∨
      (∃ object, krnl.object? ptr = some object ∧ object.kind = .event) ∨ effect = .releaseMutant ptr ∨
      (∃ adjustment, effect = .releaseSemaphore ptr adjustment) ∨
      (ptr = krnl.heap.length ∧ ∃ made, effect = .create made) := by
  cases effect with
  | consume target =>
    obtain rfl := List.mem_singleton.mp new
    obtain rfl := List.mem_singleton.mp mentioned
    exact Or.inr (Or.inl allowed)
  | acquire mode ptrs status =>
    obtain rfl := List.mem_singleton.mp new
    obtain ⟨named, usable⟩ := List.mem_filter.mp mentioned
    exact Or.inl ⟨mode, ptrs, status, rfl, named, usable⟩
  | releaseMutant target =>
    obtain rfl := List.mem_singleton.mp new
    obtain rfl := List.mem_singleton.mp mentioned
    exact Or.inr (Or.inr (Or.inl rfl))
  | releaseSemaphore target adjustment =>
    obtain rfl := List.mem_singleton.mp new
    obtain rfl := List.mem_singleton.mp mentioned
    exact Or.inr (Or.inr (Or.inr (Or.inl ⟨adjustment, rfl⟩)))
  | create made =>
    refine Or.inr (Or.inr (Or.inr (Or.inr ⟨?_, made, rfl⟩)))
    simp only [Effect.events, birth] at new
    split at new
    · split at new
      · cases new
      · obtain rfl := List.mem_singleton.mp new
        exact List.mem_singleton.mp mentioned
    · obtain rfl := List.mem_singleton.mp new
      exact List.mem_singleton.mp mentioned
    · cases new
  | deliver reply =>
    obtain rfl := List.mem_singleton.mp new
    cases mentioned
  | ran threadHandle =>
    obtain rfl := List.mem_singleton.mp new
    cases mentioned
  | createThread request base =>
    obtain rfl := List.mem_singleton.mp new
    cases mentioned
  | resumeThread target =>
    simp only [Effect.events] at new
    split at new
    · obtain rfl := List.mem_singleton.mp new
      cases mentioned
    · cases new
  | exit code =>
    simp only [Effect.events] at new
    split at new
    · obtain rfl := List.mem_singleton.mp new
      cases mentioned
    · cases new
  | _ => cases new

/-- The objects that new entries mention are live, or made by the effect. -/
theorem events_live {effect : Effect} (allowed : effect.Allowed krnl) {event : Event}
    (new : event ∈ effect.events krnl) {ptr : Ptr} (mentioned : ptr ∈ event.mentions) :
    (∃ object, krnl.object? ptr = some object) ∨ ptr = krnl.heap.length ∧ ∃ made, effect = .create made := by
  rcases events_mention allowed new mentioned with
    ⟨mode, ptrs, status, rfl, named, _⟩ | ⟨object, live, _⟩ | rfl | ⟨adjustment, rfl⟩ | made
  · exact Or.inl (allowed.1 ptr named).1.1
  · exact Or.inl ⟨object, live⟩
  · obtain ⟨object, live, _⟩ := allowed
    exact Or.inl ⟨object, live⟩
  · obtain ⟨object, live, _⟩ := allowed
    exact Or.inl ⟨object, live⟩
  · exact Or.inr made

/-- The heap never shrinks. -/
theorem heap_grows (ok : krnl.Ok) {effect : Effect} (allowed : effect.Allowed krnl) :
    krnl.heap.length ≤ (effect.apply krnl).heap.length := by
  by_cases closes : ∃ slot ptr, effect = .close slot ptr
  · obtain ⟨slot, ptr, rfl⟩ := closes
    simp [Effect.apply, closeSlot]
  · exact (Effect.extends_apply ok allowed (fun slot ptr same => closes ⟨slot, ptr, same⟩)).size

/-- The history after any effect. -/
theorem history_apply (ok : krnl.Ok) {effect : Effect} (allowed : effect.Allowed krnl) :
    (effect.apply krnl).history = effect.events krnl ++ krnl.history := by
  by_cases loop : effect.label = .loop
  · rcases Effect.label_loop loop with rfl | rfl <;> rfl
  · exact (effect.leads ok allowed loop).history

/-- The history stays recorded after an effect. -/
theorem Recorded.effect (recorded : krnl.Recorded) (ok : krnl.Ok) {effect : Effect}
    (allowed : effect.Allowed krnl) : (effect.apply krnl).Recorded := by
  have grows := heap_grows ok allowed
  intro event member ptr mentioned
  rw [history_apply ok allowed] at member
  rcases List.mem_append.mp member with new | old
  · rcases events_live allowed new mentioned with ⟨object, live⟩ | ⟨rfl, object, rfl⟩
    · exact Nat.lt_of_lt_of_le (krnl.object?_inside _ _ live) grows
    · obtain ⟨_, _, _, inserted, _⟩ := krnl.insert_allocated ok.registry object
      have stored : (krnl.allocate object).1.insertObject (krnl.allocate object).2 = _ := inserted
      simp only [Effect.apply, stored]
      simp [allocate]
  · exact Nat.lt_of_lt_of_le (recorded event old ptr mentioned) grows

/-- It is recorded in every reachable state. -/
theorem Reaches.recorded {actions : List Action} (reached : krnl.Reaches actions) : krnl.Recorded := by
  have invariant : krnl.Steady ∧ krnl.Recorded := reached.invariant ?_ ?_
  · exact invariant.2
  · intro ram addresses threadRunner kernelDataVa event member
    cases member
  · intro krnl action next steady recorded stepped
    exact Path.keeps (fun _ _ ok holds _ allowed => Recorded.effect holds ok allowed) (steady.step stepped).1
      steady.ok recorded

/-- It is recorded at the start. -/
theorem initial_recorded (ram : XbeRam) (addresses : Nat → Nat) (threadRunner : Bool) (kernelDataVa : Nat) :
    (initial ram addresses threadRunner kernelDataVa).Recorded := by
  intro event member
  cases member

end XboxKrnl

end SeriesxEmu
