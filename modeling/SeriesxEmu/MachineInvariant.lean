import SeriesxEmu.Effects
import Mathlib.Logic.Function.Iterate

/-!
# The invariant of the machine

The registries are sound, suspended fibers wait where they should, the running
fiber is neither blocked nor finished, and a mutant is owned by the identity of
some fiber. The rules of this module say how the invariant survives a change of
a given shape: one object changes and waiters wake, the running fiber moves on,
a new object is registered.
-/

namespace SeriesxEmu

open Scheduler GuestScheduler

namespace XboxKrnl

/-- The invariant of the machine between two effects. -/
structure Ok (krnl : XboxKrnl) : Prop where
  registry : krnl.registry.Ok
  fibers : krnl.registry.Fibers krnl.sched.threads
  current : ∀ index, krnl.sched.current = some index → ∃ fiber, krnl.sched.threads[index]? = some fiber ∧
    fiber.started = true ∧ (fiber.state = .ready ∨ fiber.state = .running)
  owners : ∀ ptr object, krnl.object? ptr = some object → object.kind = .mutant →
    object.mutant.owner ≠ 0 → ∃ fiber, krnl.tokenOf fiber = object.mutant.owner

variable {krnl : XboxKrnl}

/-! ## The running fiber -/

/-- The current handle is that of the running fiber. -/
theorem currentHandle_eq (krnl : XboxKrnl) :
    krnl.currentHandle = (krnl.currentFiber.map GuestThread.handle).getD 0 := by
  unfold currentHandle GuestScheduler.currentHandle currentFiber
  cases krnl.sched.current <;> rfl

/-- If a fiber runs, it is its handle. -/
theorem currentHandle_of_fiber {fiber : Fiber} (running : krnl.currentFiber = some fiber) :
    krnl.currentHandle = fiber.handle := by
  rw [currentHandle_eq, running]
  rfl

/-- The running fiber is at the place that the scheduler says. -/
theorem currentFiber_index {fiber : Fiber} (running : krnl.currentFiber = some fiber) :
    ∃ index, krnl.sched.current = some index ∧ krnl.sched.threads[index]? = some fiber :=
  Option.bind_eq_some_iff.mp running

/-- The running fiber is sound and has been started. -/
theorem Ok.running (ok : krnl.Ok) {fiber : Fiber} (running : krnl.currentFiber = some fiber) :
    fiber ∈ krnl.sched.threads ∧ krnl.registry.FiberOk fiber ∧ fiber.started = true ∧
      (fiber.state = .ready ∨ fiber.state = .running) := by
  obtain ⟨index, switched, found⟩ := currentFiber_index running
  obtain ⟨fiber', found', started, state⟩ := ok.current index switched
  obtain rfl := Option.some.inj (found.symm.trans found')
  have member := List.mem_of_getElem? found
  exact ⟨member, ok.fibers.each fiber member, started, state⟩

/-- A context is inside a fiber exactly when its handle is not zero. -/
theorem currentFiber_of_handle (inFiber : krnl.currentHandle ≠ 0) :
    ∃ fiber, krnl.currentFiber = some fiber ∧ krnl.currentHandle = fiber.handle := by
  cases running : krnl.currentFiber with
  | none => simp [currentHandle_eq, running] at inFiber
  | some fiber => exact ⟨fiber, rfl, currentHandle_of_fiber running⟩

/-- Its handle is not zero. -/
theorem Ok.currentHandle_ne_zero (ok : krnl.Ok) {fiber : Fiber}
    (running : krnl.currentFiber = some fiber) : krnl.currentHandle ≠ 0 := by
  rw [currentHandle_of_fiber running]
  exact (ok.running running).2.1.positive

/-- A fiber runs exactly if the current handle is not zero. -/
theorem Ok.current_isSome (ok : krnl.Ok) : krnl.sched.current.isSome = true ↔ krnl.currentHandle ≠ 0 := by
  constructor
  · intro switched
    obtain ⟨index, switched⟩ := Option.isSome_iff_exists.mp switched
    obtain ⟨fiber, found, _⟩ := ok.current index switched
    have running : krnl.currentFiber = some fiber := by simp [currentFiber, switched, found]
    exact ok.currentHandle_ne_zero running
  · intro inFiber
    obtain ⟨fiber, running, _⟩ := currentFiber_of_handle inFiber
    obtain ⟨index, switched, _⟩ := currentFiber_index running
    simp [switched]

/-- A fiber at another place than the running one has another handle. -/
theorem Ok.handle_other (ok : krnl.Ok) {index : Nat} {fiber : Fiber}
    (found : krnl.sched.threads[index]? = some fiber) (elsewhere : krnl.sched.current ≠ some index) :
    fiber.handle ≠ krnl.currentHandle := by
  intro same
  have positive := (ok.fibers.each fiber (List.mem_of_getElem? found)).positive
  obtain ⟨current, running, handle⟩ := currentFiber_of_handle (same ▸ positive)
  obtain ⟨position, switched, here⟩ := currentFiber_index running
  have equal := ok.fibers.distinct index position fiber current found here (same.trans handle)
  exact elsewhere (equal ▸ switched)

/-- A blocked fiber is not the running one. -/
theorem Ok.blocked_other (ok : krnl.Ok) {fiber : Fiber} (member : fiber ∈ krnl.sched.threads)
    (blocked : fiber.state = .blockedWait) : fiber.handle ≠ krnl.currentHandle := by
  intro same
  have fiberOk := ok.fibers.each fiber member
  obtain ⟨current, running, handle⟩ := currentFiber_of_handle (same ▸ fiberOk.positive)
  obtain ⟨here, _, _, state⟩ := ok.running running
  obtain rfl := ok.fibers.unique member here (same.trans handle)
  rw [blocked] at state
  rcases state with state | state <;> cases state

/-! ## Effects that keep the registry -/

/-- The token of a fiber is read off the registry. -/
theorem tokenOf_congr {next : XboxKrnl} (same : next.registry = krnl.registry) (fiber : Nat) :
    next.tokenOf fiber = krnl.tokenOf fiber := by
  rw [tokenOf, tokenOf, same]

/-- So is the shape of an object. -/
theorem shape_congr {next : XboxKrnl} (same : next.registry = krnl.registry) {ptr : Ptr}
    {after before : DispatcherObject} (live : next.object? ptr = some after)
    (liveBefore : krnl.object? ptr = some before) : after.shape = before.shape := by
  have shapes := next.shapes_eq ptr after live
  rw [same, krnl.shapes_eq ptr before liveBefore] at shapes
  exact (Option.some.inj shapes).symm

/-- And its kind. -/
theorem kind_congr {next : XboxKrnl} (same : next.registry = krnl.registry) {ptr : Ptr}
    {after before : DispatcherObject} (live : next.object? ptr = some after)
    (liveBefore : krnl.object? ptr = some before) : after.kind = before.kind :=
  DispatcherObject.kind_of_shape (shape_congr same live liveBefore)

/-- The owner of a mutant after an effect: the owner before, or a token. -/
def OwnersFrom (krnl next : XboxKrnl) : Prop :=
  ∀ ptr object, next.object? ptr = some object → object.kind = .mutant → object.mutant.owner ≠ 0 →
    (∃ earlier, krnl.object? ptr = some earlier ∧ earlier.kind = .mutant ∧
      earlier.mutant.owner = object.mutant.owner) ∨
    ∃ fiber, krnl.tokenOf fiber = object.mutant.owner

/-- Every owner of a mutant is a fiber's token, as before. -/
theorem OwnersFrom.owners {next : XboxKrnl} (ok : krnl.Ok) (kept : krnl.OwnersFrom next)
    (ptr : Ptr) (object : DispatcherObject) (live : next.object? ptr = some object)
    (kind : object.kind = .mutant) (owned : object.mutant.owner ≠ 0) :
    ∃ fiber, krnl.tokenOf fiber = object.mutant.owner := by
  rcases kept ptr object live kind owned with ⟨earlier, before, kindBefore, same⟩ | token
  · rw [← same] at owned ⊢
    exact ok.owners ptr earlier before kindBefore owned
  · exact token

/-- Where no object changes, no owner does. -/
theorem OwnersFrom.of_heap {next : XboxKrnl} (same : next.heap = krnl.heap) : krnl.OwnersFrom next := by
  intro ptr object live kind _
  refine Or.inl ⟨object, ?_, kind, rfl⟩
  rw [object?, same] at live
  exact live

/-- The effect keeps the registry, moves the fibers along and leaves the running
fiber running, or switches it out. -/
theorem Ok.transport {next : XboxKrnl} (ok : krnl.Ok) (same : next.registry = krnl.registry)
    (fibers : krnl.registry.Fibers next.sched.threads)
    (current : ∀ index, next.sched.current = some index → ∃ fiber, next.sched.threads[index]? = some fiber ∧
      fiber.started = true ∧ (fiber.state = .ready ∨ fiber.state = .running))
    (kept : krnl.OwnersFrom next) : next.Ok := by
  refine ⟨same ▸ ok.registry, same ▸ fibers, current, fun ptr object live kind owned => ?_⟩
  obtain ⟨fiber, token⟩ := kept.owners ok ptr object live kind owned
  exact ⟨fiber, (tokenOf_congr same fiber).trans token⟩

/-- Waking fibers does not touch the running one. -/
theorem Ok.current_wakes (ok : krnl.Ok) {channel : Token → Prop} {threads : List Fiber}
    (woken : Wakes channel krnl.sched.threads threads) (index : Nat)
    (switched : krnl.sched.current = some index) :
    ∃ fiber, threads[index]? = some fiber ∧ krnl.sched.threads[index]? = some fiber ∧
      fiber.started = true ∧ (fiber.state = .ready ∨ fiber.state = .running) := by
  obtain ⟨fiber, found, started, state⟩ := ok.current index switched
  rcases woken.each index fiber found with same | ⟨blocked, _, _⟩
  · exact ⟨fiber, same, found, started, state⟩
  · rw [blocked] at state
    simp at state

/-- The common case: one object changes and waiters wake. -/
theorem Ok.update (ok : krnl.Ok) {ptr : Ptr} {object : DispatcherObject}
    (live : krnl.object? ptr = some object) (change : DispatcherObject → DispatcherObject)
    (shape : (change object).shape = object.shape)
    (owner : (change object).mutant.owner = object.mutant.owner ∨ (change object).mutant.owner = 0 ∨
      ∃ fiber, krnl.tokenOf fiber = (change object).mutant.owner)
    {channel : Token → Prop} {threads : List Fiber}
    (woken : Wakes channel krnl.sched.threads threads) (ram : XbeRam) (history : List Event) :
    (krnl.updated ptr change threads ram history).Ok := by
  refine ok.transport ?_ (ok.fibers.wakes woken) ?_ ?_
  · refine krnl.registry_updated ptr change threads ram history (fun other found => ?_)
    obtain rfl := Option.some.inj (live.symm.trans found)
    exact shape
  · intro index switched
    obtain ⟨fiber, found, _, state⟩ := ok.current_wakes woken index switched
    exact ⟨fiber, found, state⟩
  · intro other object' found kind owned
    rw [object?_updated] at found
    split at found
    · rename_i same
      subst same
      rw [live, Option.map_some] at found
      obtain rfl := Option.some.inj found
      have kindBefore : object.kind = .mutant :=
        (DispatcherObject.kind_of_shape shape).symm.trans kind
      rcases owner with same | zero | token
      · exact Or.inl ⟨object, live, kindBefore, same.symm⟩
      · exact absurd zero owned
      · exact Or.inr token
    · exact Or.inl ⟨object', found, kind, rfl⟩

/-- The common case without wake-ups. -/
theorem Ok.modify (ok : krnl.Ok) {ptr : Ptr} {object : DispatcherObject}
    (live : krnl.object? ptr = some object) (change : DispatcherObject → DispatcherObject)
    (shape : (change object).shape = object.shape)
    (owner : (change object).mutant.owner = object.mutant.owner) : (krnl.modify ptr change).Ok :=
  ok.update live change shape (Or.inl owner) (Wakes.refl (fun _ => False) _) krnl.ram krnl.history

/-- Only the thread list changes, by wake-ups. -/
theorem Ok.wake (ok : krnl.Ok) {channel : Token → Prop} {threads : List Fiber}
    (woken : Wakes channel krnl.sched.threads threads) :
    { krnl with sched := { krnl.sched with threads } }.Ok := by
  refine ok.transport rfl (ok.fibers.wakes woken) ?_ (OwnersFrom.of_heap rfl)
  intro index switched
  obtain ⟨fiber, found, _, state⟩ := ok.current_wakes woken index switched
  exact ⟨fiber, found, state⟩

/-- The history does not matter. -/
theorem Ok.note (ok : krnl.Ok) (history : List Event) : { krnl with history }.Ok :=
  ok.transport rfl ok.fibers ok.current (OwnersFrom.of_heap rfl)

/-- The running fiber changes and is switched out. -/
theorem Ok.switchOut (ok : krnl.Ok) {index : Nat} {fiber : Fiber}
    (found : krnl.sched.threads[index]? = some fiber) (change : Fiber → Fiber)
    (handle : (change fiber).handle = fiber.handle) (fiberOk : krnl.registry.FiberOk (change fiber))
    (runs : ∀ ptr, krnl.registry.ThreadOf fiber.handle ptr →
      Registry.Runs fiber ptr → Registry.Runs (change fiber) ptr) :
    { krnl with sched := (krnl.sched.modifyThread index change).switchToScheduler }.Ok :=
  ok.transport rfl (ok.fibers.modify index fiber found change handle fiberOk runs)
    (fun _ switched => by cases switched) (OwnersFrom.of_heap rfl)

/-- The running fiber changes and stays switched in. -/
theorem Ok.change (ok : krnl.Ok) {index : Nat} {fiber : Fiber}
    (switched : krnl.sched.current = some index)
    (found : krnl.sched.threads[index]? = some fiber) (change : Fiber → Fiber)
    (handle : (change fiber).handle = fiber.handle) (fiberOk : krnl.registry.FiberOk (change fiber))
    (runs : ∀ ptr, krnl.registry.ThreadOf fiber.handle ptr →
      Registry.Runs fiber ptr → Registry.Runs (change fiber) ptr)
    (started : (change fiber).started = fiber.started) (state : (change fiber).state = fiber.state) :
    { krnl with sched := krnl.sched.modifyThread index change }.Ok := by
  refine ok.transport rfl (ok.fibers.modify index fiber found change handle fiberOk runs) ?_
    (OwnersFrom.of_heap rfl)
  intro other again
  obtain rfl := Option.some.inj (switched.symm.trans again)
  obtain ⟨fiber', found', wasStarted, wasState⟩ := ok.current index switched
  obtain rfl := Option.some.inj (found.symm.trans found')
  refine ⟨change fiber, ?_, started.trans wasStarted, by rw [state]; exact wasState⟩
  simp [GuestScheduler.modifyThread, found]

/-! ## Tokens -/

/-- A fiber without an identity has no token. -/
theorem tokenOf_none (krnl : XboxKrnl) (fiber : Nat) (absent : krnl.fiberThread? fiber = none) :
    krnl.tokenOf fiber = 0 := by
  have missing : krnl.fiberThreads.find? (fun entry => entry.1 == fiber) = none :=
    Option.map_eq_none_iff.mp absent
  simp [tokenOf, Registry.tokenOf, registry, missing]

/-- The token of a fiber is the identifier of its identity. -/
theorem tokenOf_some (krnl : XboxKrnl) (fiber : Nat) (ptr : Ptr) (object : DispatcherObject)
    (found : krnl.fiberThread? fiber = some ptr) (live : krnl.object? ptr = some object) :
    krnl.tokenOf fiber = object.thread.threadId := by
  obtain ⟨entry, here, same⟩ := Option.map_eq_some_iff.mp found
  simp [tokenOf, Registry.tokenOf, registry, here, same, live, DispatcherObject.shape]

/-- A fiber has a token exactly when it has an identity. -/
theorem Ok.tokenOf_ne_zero (ok : krnl.Ok) (fiber : Nat) :
    krnl.tokenOf fiber ≠ 0 ↔ ∃ ptr, krnl.fiberThread? fiber = some ptr := by
  constructor
  · intro token
    cases found : krnl.fiberThread? fiber with
    | none => exact absurd (krnl.tokenOf_none fiber found) token
    | some ptr => exact ⟨ptr, rfl⟩
  · rintro ⟨ptr, found⟩
    obtain ⟨_, object, live, kind, _⟩ := live_of_identity ok.registry found
    rw [krnl.tokenOf_some fiber ptr object found live]
    have positive := (ok.registry.threadIds ptr _ (krnl.shapes_eq _ _ live) kind).1
    exact Nat.pos_iff_ne_zero.mp positive

/-- Tokens tell fibers apart. -/
theorem Ok.tokenOf_injective (ok : krnl.Ok) {fiber other : Nat} (token : krnl.tokenOf fiber ≠ 0)
    (same : krnl.tokenOf fiber = krnl.tokenOf other) : fiber = other := by
  obtain ⟨ptr, found⟩ := (ok.tokenOf_ne_zero fiber).mp token
  obtain ⟨ptr', found'⟩ := (ok.tokenOf_ne_zero other).mp (same ▸ token)
  obtain ⟨_, object, live, kind, handle⟩ := live_of_identity ok.registry found
  obtain ⟨_, object', live', kind', handle'⟩ := live_of_identity ok.registry found'
  rw [krnl.tokenOf_some _ _ _ found live, krnl.tokenOf_some _ _ _ found' live'] at same
  have equal := ok.registry.idsDistinct ptr ptr' _ _ (krnl.shapes_eq _ _ live)
    (krnl.shapes_eq _ _ live') kind kind' same
  subst equal
  obtain rfl := Option.some.inj (live.symm.trans live')
  exact handle.symm.trans handle'

/-- Asking for the own token changes nothing when there is one. -/
theorem Ok.currentThreadToken_identified (ok : krnl.Ok)
    (identified : krnl.currentHandle ≠ 0 → ∃ ptr, krnl.fiberThread? krnl.currentHandle = some ptr) :
    krnl.currentThreadToken = (krnl, krnl.tokenOf krnl.currentHandle) := by
  unfold currentThreadToken
  split
  · rename_i host
    have absent : krnl.fiberThread? krnl.currentHandle = none := by
      cases found : krnl.fiberThread? krnl.currentHandle with
      | none => rfl
      | some ptr => exact absurd host (live_of_identity ok.registry found).1
    rw [krnl.tokenOf_none _ absent]
  · rename_i inFiber
    obtain ⟨ptr, found⟩ := identified inFiber
    obtain ⟨_, object, live, _⟩ := live_of_identity ok.registry found
    simp [ensureThreadObject, found, krnl.object_eq _ _ live, krnl.tokenOf_some _ _ _ found live]

/-! ## Acquisition -/

/-- What one acquisition by the calling context does to an object. -/
def takeOne (krnl : XboxKrnl) (object : DispatcherObject) : DispatcherObject :=
  match object.kind with
  | .event =>
    if object.event.type = kEventSync then { object with event := { object.event with signaled := false } }
    else object
  | .mutant =>
    if krnl.currentHandle = 0 then object else takeMutant (krnl.tokenOf krnl.currentHandle) object
  | .semaphore => { object with semaphore := { object.semaphore with count := object.semaphore.count - 1 } }
  | .thread => object

/-- A change that does nothing to an object does nothing. -/
theorem modify_noop (krnl : XboxKrnl) (ptr : Ptr) (object : DispatcherObject)
    (live : krnl.object? ptr = some object) (change : DispatcherObject → DispatcherObject)
    (same : change object = object) : krnl.modify ptr change = krnl := by
  have cell := krnl.heap_cell ptr object live
  have kept : krnl.heap.modify ptr (Option.map change) = krnl.heap := by
    apply List.ext_getElem?
    intro other
    rw [List.getElem?_modify]
    by_cases here : ptr = other
    · subst here
      simp [cell, same]
    · simp [here]
  rw [XboxKrnl.modify, kept]

/-- Two changes that agree on an object change it alike. -/
theorem modify_congr (krnl : XboxKrnl) (ptr : Ptr) (object : DispatcherObject)
    (live : krnl.object? ptr = some object) (change change' : DispatcherObject → DispatcherObject)
    (same : change object = change' object) : krnl.modify ptr change = krnl.modify ptr change' := by
  have cell := krnl.heap_cell ptr object live
  have kept : krnl.heap.modify ptr (Option.map change) = krnl.heap.modify ptr (Option.map change') := by
    apply List.ext_getElem?
    intro other
    rw [List.getElem?_modify, List.getElem?_modify]
    by_cases here : ptr = other
    · subst here
      simp [cell, same]
    · simp [here]
  rw [XboxKrnl.modify, XboxKrnl.modify, kept]

/-- `dispatcher_acquire` changes one object and its mirror in memory. -/
theorem Ok.dispatcherAcquire_eq (ok : krnl.Ok) (ptr : Ptr) (object : DispatcherObject)
    (live : krnl.object? ptr = some object)
    (identified : object.kind = .mutant → krnl.currentHandle ≠ 0 →
      ∃ self, krnl.fiberThread? krnl.currentHandle = some self) :
    (∃ ram, (krnl.dispatcherAcquire ptr).1 = { krnl.modify ptr krnl.takeOne with ram }) ∧
      (krnl.dispatcherAcquire ptr).2 = krnl.acquireStatus ptr := by
  have here := krnl.object_eq ptr object live
  cases kind : object.kind with
  | event =>
    by_cases sync : object.event.type = kEventSync
    · have same := krnl.modify_congr ptr object live
        (fun o => { o with event := { o.event with signaled := false } }) krnl.takeOne
        (by simp [takeOne, kind, sync])
      simp [dispatcherAcquire, here, kind, sync, mirrorSignalState, acquireStatus, same]
    · have same := krnl.modify_noop ptr object live krnl.takeOne (by simp [takeOne, kind, sync])
      refine ⟨⟨krnl.ram, ?_⟩, by simp [dispatcherAcquire, here, kind, sync, acquireStatus]⟩
      simp [dispatcherAcquire, here, kind, sync, same]
  | mutant =>
    have self := ok.currentThreadToken_identified (identified kind)
    by_cases host : krnl.currentHandle = 0
    · have zero : krnl.tokenOf krnl.currentHandle = 0 := by
        have result := congrArg Prod.snd self
        simpa [currentThreadToken, host] using result.symm
      have same := krnl.modify_noop ptr object live krnl.takeOne (by simp [takeOne, kind, host])
      refine ⟨⟨krnl.ram, ?_⟩, ?_⟩
      · simp only [dispatcherAcquire, here, kind, self, zero, ↓reduceIte]
        rw [same]
      · rw [host] at zero
        simp only [dispatcherAcquire, here, kind, self, host, zero, ↓reduceIte, acquireStatus]
    · have token : krnl.tokenOf krnl.currentHandle ≠ 0 :=
        (ok.tokenOf_ne_zero _).mpr (identified kind host)
      have same := krnl.modify_congr ptr object live (takeMutant (krnl.tokenOf krnl.currentHandle))
        krnl.takeOne (by simp [takeOne, kind, host])
      cases abandoned : object.mutant.abandoned <;>
        simp [dispatcherAcquire, here, kind, self, token, abandoned, mirrorHeader, mirrorSignalState,
          acquireStatus, same, host]
  | semaphore =>
    have same := krnl.modify_congr ptr object live
      (fun o => { o with semaphore := { o.semaphore with count := o.semaphore.count - 1 } }) krnl.takeOne
      (by simp [takeOne, kind])
    simp [dispatcherAcquire, here, kind, mirrorSignalState, acquireStatus, same]
  | thread =>
    have same := krnl.modify_noop ptr object live krnl.takeOne (by simp [takeOne, kind])
    refine ⟨⟨krnl.ram, ?_⟩, by simp [dispatcherAcquire, here, kind, acquireStatus]⟩
    simp [dispatcherAcquire, here, kind, same]

/-- Taking an object keeps its shape. -/
theorem takeOne_shape (krnl : XboxKrnl) (object : DispatcherObject) :
    (krnl.takeOne object).shape = object.shape := by
  unfold takeOne
  split <;> (try split) <;> rfl

/-- The owner of a mutant stays, or the running fiber is it now. -/
theorem takeOne_owner (krnl : XboxKrnl) (object : DispatcherObject) :
    (krnl.takeOne object).mutant.owner = object.mutant.owner ∨
      krnl.tokenOf krnl.currentHandle = (krnl.takeOne object).mutant.owner := by
  unfold takeOne
  split <;> (try split) <;> simp [takeMutant]

/-- The first object of a set has been taken, and the rest of it can be taken after that. -/
structure Took (krnl : XboxKrnl) (ptr : Ptr) (rest : List Ptr) (next : XboxKrnl) : Prop where
  acquired : krnl.dispatcherAcquire ptr = (next, krnl.acquireStatus ptr)
  stored : ∃ ram, next = { krnl.modify ptr krnl.takeOne with ram }
  ok : next.Ok
  registry : next.registry = krnl.registry
  live : ∀ other ∈ rest, ∃ object, next.object? other = some object
  kind : ∀ other ∈ rest, (next.object other).kind = (krnl.object other).kind

/-- Taking the first object of a set keeps the machine sound.

Proof: an auto-reset event and a semaphore only lose a unit; a mutant gets the running fiber as its
owner, which has an identity by then. -/
theorem Ok.took (ok : krnl.Ok) {ptr : Ptr} {rest : List Ptr}
    (live : ∀ other ∈ ptr :: rest, ∃ object, krnl.object? other = some object)
    (identified : ∀ other ∈ ptr :: rest, (krnl.object other).kind = .mutant → krnl.currentHandle ≠ 0 →
      ∃ self, krnl.fiberThread? krnl.currentHandle = some self) : ∃ next, krnl.Took ptr rest next := by
  obtain ⟨object, here⟩ := live ptr List.mem_cons_self
  have needs : object.kind = .mutant → krnl.currentHandle ≠ 0 →
      ∃ self, krnl.fiberThread? krnl.currentHandle = some self := by
    intro kind
    refine identified ptr List.mem_cons_self ?_
    rw [krnl.object_eq _ _ here]
    exact kind
  obtain ⟨⟨ram, first⟩, status⟩ := ok.dispatcherAcquire_eq ptr object here needs
  have registry : ({ krnl.modify ptr krnl.takeOne with ram } : XboxKrnl).registry = krnl.registry :=
    krnl.registry_modify ptr krnl.takeOne (fun object _ => krnl.takeOne_shape object)
  have lives : ∀ other ∈ rest, ∃ object,
      ({ krnl.modify ptr krnl.takeOne with ram } : XboxKrnl).object? other = some object := by
    intro other member
    obtain ⟨before, found⟩ := live other (List.mem_cons_of_mem ptr member)
    have read := krnl.object?_modify ptr other krnl.takeOne
    rw [found] at read
    split at read
    · exact ⟨_, read⟩
    · exact ⟨_, read⟩
  refine ⟨_, Prod.ext first status, ⟨ram, rfl⟩, ?_, registry, lives, fun other member => ?_⟩
  · refine ok.update here krnl.takeOne (krnl.takeOne_shape object) ?_ (Wakes.refl (fun _ => False) _) ram krnl.history
    rcases krnl.takeOne_owner object with same | token
    · exact Or.inl same
    · exact Or.inr (Or.inr ⟨_, token⟩)
  · obtain ⟨before, found⟩ := live other (List.mem_cons_of_mem ptr member)
    obtain ⟨after, foundAfter⟩ := lives other member
    rw [object_eq _ _ _ foundAfter, krnl.object_eq _ _ found]
    exact kind_congr registry foundAfter found

/-- The whole acquisition loop: each object is taken as often as it is named. -/
theorem Ok.taken_eq (ok : krnl.Ok) (ptrs : List Ptr)
    (live : ∀ ptr ∈ ptrs, ∃ object, krnl.object? ptr = some object)
    (identified : ∀ ptr ∈ ptrs, (krnl.object ptr).kind = .mutant → krnl.currentHandle ≠ 0 →
      ∃ self, krnl.fiberThread? krnl.currentHandle = some self) :
    (krnl.taken ptrs).Ok ∧
      (∃ ram heap, krnl.taken ptrs = { krnl with ram, heap }) ∧
      (krnl.taken ptrs).registry = krnl.registry ∧
      ∀ other, (krnl.taken ptrs).object? other =
        (krnl.object? other).map (krnl.takeOne^[ptrs.count other]) := by
  induction ptrs generalizing krnl with
  | nil =>
    refine ⟨ok, ⟨krnl.ram, krnl.heap, rfl⟩, rfl, fun other => ?_⟩
    simp [taken]
  | cons ptr rest inductionHypothesis =>
    obtain ⟨next, took⟩ := ok.took live identified
    have stepped : krnl.taken (ptr :: rest) = next.taken rest :=
      congrArg (fun first => XboxKrnl.taken first.1 rest) took.acquired
    obtain ⟨ram, rfl⟩ := took.stored
    have sameTake : ({ krnl.modify ptr krnl.takeOne with ram } : XboxKrnl).takeOne = krnl.takeOne := by
      funext other
      have token := tokenOf_congr took.registry krnl.currentHandle
      unfold takeOne
      split
      · rfl
      · exact ite_congr rfl (fun _ => rfl) (fun _ => congrArg (takeMutant · other) token)
      · rfl
      · rfl
    obtain ⟨lastOk, ⟨ram', heap', lastEq⟩, lastRegistry, lastObjects⟩ :=
      inductionHypothesis took.ok took.live (fun other member kind =>
        identified other (List.mem_cons_of_mem ptr member) ((took.kind other member).symm.trans kind))
    rw [stepped]
    refine ⟨lastOk, ⟨ram', heap', lastEq⟩, lastRegistry.trans took.registry, fun other => ?_⟩
    rw [lastObjects other, sameTake]
    have read : ({ krnl.modify ptr krnl.takeOne with ram } : XboxKrnl).object? other =
        if other = ptr then (krnl.object? other).map krnl.takeOne else krnl.object? other :=
      krnl.object?_modify ptr other krnl.takeOne
    rw [read]
    by_cases same : other = ptr
    · subst same
      simp only [↓reduceIte, Option.map_map, List.count_cons_self]
      congr 1
    · have different : (ptr == other) = false := by simp [Ne.symm same]
      simp [same, List.count_cons, different]

/-! ## New objects -/

/-- `insert_object` uses a slot that was empty. -/
theorem insertObject_spec (krnl : XboxKrnl) (ptr : Ptr)
    (free : ∀ slot ∈ krnl.freeSlots, krnl.registry.table slot = none ∧ slot < krnl.objects.length)
    (freeOnce : krnl.freeSlots.Nodup) :
    ∃ slot objects freeSlots, krnl.insertObject ptr = ({ krnl with objects, freeSlots }, 4 * (slot + 1)) ∧
      (fun index => (objects[index]?).join) = Function.update krnl.registry.table slot (some ptr) ∧
      krnl.registry.table slot = none ∧ slot < objects.length ∧ krnl.objects.length ≤ objects.length ∧
      (∀ other ∈ freeSlots, other ∈ krnl.freeSlots ∧ other ≠ slot) ∧ freeSlots.Nodup := by
  unfold insertObject
  cases last : krnl.freeSlots.getLast? with
  | some slot =>
    obtain ⟨front, split⟩ := List.getLast?_eq_some_iff.mp last
    have member : slot ∈ krnl.freeSlots := by simp [split]
    obtain ⟨empty, inside⟩ := free slot member
    have once := freeOnce
    rw [split] at once
    refine ⟨slot, krnl.objects.set slot (some ptr), krnl.freeSlots.dropLast, rfl, ?_, empty,
      by rw [List.length_set]; exact inside, by simp, ?_, ?_⟩
    · funext index
      simp only [Function.update_apply, List.getElem?_set]
      by_cases same : slot = index
      · subst same
        have bound : slot < krnl.objects.length := inside
        simp [bound]
      · simp [same, Ne.symm same, registry]
    · intro other found
      rw [split, List.dropLast_concat] at found
      refine ⟨by simp [split, found], ?_⟩
      rintro rfl
      exact (List.nodup_append.mp once).2.2 other found other (by simp) rfl
    · rw [split, List.dropLast_concat]
      exact (List.nodup_append.mp once).1
  | none =>
    have noFree : krnl.freeSlots = [] := List.getLast?_eq_none_iff.mp last
    refine ⟨krnl.objects.length, krnl.objects ++ [some ptr], krnl.freeSlots, rfl, ?_, ?_, by simp, by simp,
      by simp [noFree], by simp [noFree]⟩
    · funext index
      simp only [Function.update_apply, registry]
      by_cases same : index = krnl.objects.length
      · subst same
        simp
      · simp only [same, ↓reduceIte]
        rcases Nat.lt_or_gt_of_ne same with inside | outside
        · rw [List.getElem?_append_left inside]
        · rw [List.getElem?_eq_none (by simp; omega), List.getElem?_eq_none (by omega)]
    · simp [registry]

/-- The registry after an allocation. -/
theorem registry_allocate (krnl : XboxKrnl) (object : DispatcherObject) :
    (krnl.allocate object).1.registry =
      krnl.registry.allocate { object with token := .object krnl.freshAddress }.shape := by
  have shapes : (fun ptr => ((krnl.allocate object).1.object? ptr).map DispatcherObject.shape) =
      Function.update krnl.registry.shapes krnl.heap.length
        (some { object with token := .object krnl.freshAddress }.shape) := by
    funext ptr
    rw [object?_allocate, Function.update_apply]
    split <;> rfl
  unfold XboxKrnl.registry Registry.allocate
  simp only [shapes]
  simp [allocate, XboxKrnl.registry]

/-- A newly allocated object is told apart from all others. -/
theorem allocate_fresh (krnl : XboxKrnl) (object : DispatcherObject)
    (threadId : object.kind = .thread → 0 < object.thread.threadId ∧
      krnl.nextThreadId ≤ object.thread.threadId) :
    krnl.registry.Fresh { object with token := .object krnl.freshAddress }.shape := by
  refine ⟨⟨krnl.freshAddress, rfl⟩, ?_, threadId⟩
  intro ptr shape live
  obtain ⟨other, found, same⟩ := krnl.of_shapes ptr shape live
  have free := krnl.freshAddress_free ptr other found
  subst same
  exact free

end XboxKrnl

namespace Registry

variable {registry next : Registry}

/-- The fibers stay as they are while the registry grows. -/
theorem Fibers.extend {threads : List Fiber} (fibers : registry.Fibers threads)
    (extension : registry.Extends next)
    (entering : ∀ fiber ∈ threads, fiber.ctx.point = .entry →
      ∀ ptr, (fiber.handle, ptr) ∉ next.fiberThreads)
    (identified : ∀ handle ptr, (handle, ptr) ∈ next.fiberThreads → ∃ fiber ∈ threads, fiber.handle = handle)
    (tabled : ∀ slot ptr shape, next.table slot = some ptr → next.shapes ptr = some shape →
      shape.kind = .thread → registry.table slot = some ptr ∨
        ∃ fiber ∈ threads, fiber.handle = shape.thread.schedHandle ∧ Runs fiber ptr)
    (ok : registry.Ok) : next.Fibers threads := by
  refine ⟨fun fiber member => (fibers.each fiber member).extend extension (entering fiber member),
    fibers.distinct, identified, fun slot ptr shape found live kind => ?_⟩
  rcases tabled slot ptr shape found live kind with before | new
  · obtain ⟨earlier, known, _⟩ := ok.tabled slot ptr before
    have inside := ok.sized ptr earlier known
    rw [extension.shapes ptr inside] at live
    exact fibers.tabled slot ptr shape before live kind
  · exact new

end Registry

namespace XboxKrnl

variable {krnl : XboxKrnl}

/-- The token of a fiber is the same as long as its identity is. -/
theorem Ok.tokenOf_extend {next : XboxKrnl} (ok : krnl.Ok)
    (extension : krnl.registry.Extends next.registry) (nextOk : next.registry.Ok) (fiber : Nat)
    (token : krnl.tokenOf fiber ≠ 0) : next.tokenOf fiber = krnl.tokenOf fiber := by
  obtain ⟨ptr, found⟩ := (ok.tokenOf_ne_zero fiber).mp token
  obtain ⟨_, object, live, _⟩ := live_of_identity ok.registry found
  have member := extension.identities _ (krnl.fiberThread?_member _ _ found)
  have later := fiberThread?_of_member nextOk member
  have shapes := extension.shapes ptr (krnl.object?_inside _ _ live)
  rw [krnl.shapes_eq _ _ live] at shapes
  obtain ⟨object', live', same⟩ := next.of_shapes _ _ shapes
  rw [next.tokenOf_some _ _ _ later live', krnl.tokenOf_some _ _ _ found live]
  exact congrArg (fun shape => shape.thread.threadId) same

/-- The machine after an allocation that some registry takes in. -/
theorem Ok.grow {next : XboxKrnl} (ok : krnl.Ok) (object : DispatcherObject)
    (heap : next.heap = (krnl.allocate object).1.heap)
    (nextOk : next.registry.Ok) (extension : krnl.registry.Extends next.registry)
    (fibers : next.registry.Fibers next.sched.threads)
    (current : ∀ index, next.sched.current = some index → ∃ fiber, next.sched.threads[index]? = some fiber ∧
      fiber.started = true ∧ (fiber.state = .ready ∨ fiber.state = .running))
    (owner : object.kind = .mutant → object.mutant.owner ≠ 0 →
      ∃ fiber, krnl.tokenOf fiber = object.mutant.owner) : next.Ok := by
  refine ⟨nextOk, fibers, current, fun ptr found live kind owned => ?_⟩
  have read := krnl.object?_allocate object ptr
  have same : next.object? ptr = (krnl.allocate object).1.object? ptr := by rw [object?, object?, heap]
  rw [same, read] at live
  have token : ∃ fiber, krnl.tokenOf fiber = found.mutant.owner := by
    split at live
    · obtain rfl := Option.some.inj live
      exact owner kind owned
    · exact ok.owners ptr found live kind owned
  obtain ⟨fiber, token⟩ := token
  refine ⟨fiber, ?_⟩
  rw [ok.tokenOf_extend extension nextOk fiber (by rw [token]; exact owned), token]

end XboxKrnl

end SeriesxEmu
