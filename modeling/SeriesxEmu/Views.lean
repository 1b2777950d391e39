import SeriesxEmu.Paths

/-!
# What an effect does to the objects, the fibers and the history

Three views of every effect. An object that lives on is rewritten, and at most
one object is born or destroyed. A fiber stays as it is, is woken from one of
the channels the effect signals, or is the running one and moves on; at most one
fiber is spawned. The history grows by a few entries. Invariants of the machine
are proved from these views.
-/

namespace SeriesxEmu

open Scheduler GuestScheduler

namespace XboxKrnl

/-- The fiber as `thread_finish` marks it. -/
def ended (code : Int) (fiber : Fiber) : Fiber := { fiber with exitCode := code, state := .finished }

/-- The thread list with the running fiber changed. -/
def onCurrent (krnl : XboxKrnl) (change : Fiber → Fiber) : List Fiber :=
  match krnl.sched.current with
  | none => krnl.sched.threads
  | some index => krnl.sched.threads.modify index change

/-- A change of the running fiber, at its place. -/
theorem onCurrent_some (krnl : XboxKrnl) {index : Nat} (switched : krnl.sched.current = some index)
    (change : Fiber → Fiber) : krnl.onCurrent change = krnl.sched.threads.modify index change := by
  simp [onCurrent, switched]

end XboxKrnl

open XboxKrnl

namespace Effect

/-- The change of one object, as a change of all objects. -/
def onlyAt (target : Ptr) (change : DispatcherObject → DispatcherObject) (ptr : Ptr)
    (object : DispatcherObject) : DispatcherObject :=
  if ptr = target then change object else object

/-- What becomes of the object behind a pointer. -/
def rewrite (krnl : XboxKrnl) (ptr : Ptr) : Effect → DispatcherObject → DispatcherObject
  | .acquire _ ptrs _ => krnl.takeOne^[ptrs.count ptr]
  | .suspendSelf target _ _ => onlyAt target (Change.apply krnl .suspend) ptr
  | .adjust target change => onlyAt target (change.apply krnl) ptr
  | .setEvent target => onlyAt target (fun o => withSignal (krnl.setSignal o) o) ptr
  | .pulseEvent target => onlyAt target (withSignal false) ptr
  | .releaseMutant target => onlyAt target (fun o =>
      if 0 < o.mutant.signalState + 1 then clearWaiters (putMutant o) else putMutant o) ptr
  | .releaseSemaphore target adjustment =>
    onlyAt target (fun o => addUnits (o.semaphore.count + adjustment) o) ptr
  | .resumeThread target => onlyAt target (fun o =>
      { o with thread := { o.thread with suspendCount := o.thread.suspendCount - 1 } }) ptr
  | .abandon target => onlyAt target (fun o => clearWaiters (abandonMutant o)) ptr
  | .wakeJoiner target => onlyAt target clearWaiters ptr
  | _ => id

/-- The object that the effect makes. -/
def Births (krnl : XboxKrnl) (object : DispatcherObject) : Effect → Prop
  | .identify =>
    object = { krnl.newIdentity krnl.currentHandle with token := .object krnl.freshAddress }
  | .create made => object = { made with token := .object krnl.freshAddress }
  | .install made => object = { made with token := .object krnl.freshAddress }
  | .createThread request _ =>
    ∃ slot, object = { krnl.systemThread request slot with token := .object krnl.freshAddress }
  | _ => False

/-- The channels that the effect signals. -/
def Signals (krnl : XboxKrnl) (token : Token) : Effect → Prop
  | .setEvent ptr => token = (krnl.object ptr).token ∨ token ∈ (krnl.object ptr).mwWaiters
  | .pulseEvent ptr => token = (krnl.object ptr).token ∨ token ∈ (krnl.object ptr).mwWaiters
  | .releaseMutant ptr => token = (krnl.object ptr).token ∨ token ∈ (krnl.object ptr).mwWaiters
  | .releaseSemaphore ptr _ => token = (krnl.object ptr).token ∨ token ∈ (krnl.object ptr).mwWaiters
  | .resumeThread ptr => token = (krnl.object ptr).token
  | .abandon ptr => token = (krnl.object ptr).token ∨ token ∈ (krnl.object ptr).mwWaiters
  | .wakeJoiner ptr => token = (krnl.object ptr).token ∨ token ∈ (krnl.object ptr).mwWaiters
  | .leaveSection va => token = .criticalSection va
  | _ => False

/-- What becomes of the running fiber. -/
def moves (krnl : XboxKrnl) : Effect → Fiber → Fiber
  | .block token ticks point => blockedAt krnl.sched.tick token ticks point
  | .suspendSelf ptr out reply => blockedAt krnl.sched.tick (krnl.object ptr).token kNoTimeout
      (.suspended ptr out (krnl.object ptr).thread.suspendCount reply)
  | .enter => fun fiber => { fiber with ctx :=
      { body := .systhread (krnl.findThreadByFiber krnl.currentHandle), point := .guest } }
  | .proceed => fun fiber => { fiber with ctx := { fiber.ctx with point := .guest } }
  | .exit code => ended code
  | .pause state wakeTick joinTarget point => fun fiber =>
      { fiber with state, wakeTick, joinTarget, ctx := { fiber.ctx with point } }
  | _ => id

/-- The fiber that the effect spawns. -/
def Spawns (krnl : XboxKrnl) (fiber : Fiber) : Effect → Prop
  | .createThread request base =>
    fiber = spawnedFiber krnl.sched (.systhread none) request.tlsDataSize base
  | .spawn stackTopReserve base => fiber = spawnedFiber krnl.sched .native stackTopReserve base
  | _ => False

/-- The fibers as the effect leaves them; a turn of the run loop is left to
`loopTurn_cases`. -/
def threads (krnl : XboxKrnl) (effect : Effect) : List Fiber :=
  match effect with
  | .setEvent ptr => krnl.releasedBy (krnl.object ptr)
  | .pulseEvent ptr => krnl.releasedBy (krnl.object ptr)
  | .releaseMutant ptr =>
    if 0 < (krnl.object ptr).mutant.signalState + 1 then krnl.wokenBy ptr 1 else krnl.sched.threads
  | .releaseSemaphore ptr adjustment => krnl.wokenBy ptr (unitsOf (krnl.object ptr) adjustment)
  | .createThread request base =>
    krnl.sched.threads ++ [spawnedFiber krnl.sched (.systhread none) request.tlsDataSize base]
  | .resumeThread ptr =>
    if (krnl.object ptr).thread.suspendCount = 1 then
      (signalThreads (krnl.object ptr).token false krnl.sched.threads).1
    else krnl.sched.threads
  | .abandon ptr => krnl.wokenBy ptr 1
  | .wakeJoiner ptr => krnl.wokenBy ptr 1
  | .leaveSection va => (signalThreads (.criticalSection va) false krnl.sched.threads).1
  | .spawn stackTopReserve base =>
    krnl.sched.threads ++ [spawnedFiber krnl.sched .native stackTopReserve base]
  | .block _ _ _ => krnl.onCurrent (effect.moves krnl)
  | .suspendSelf _ _ _ => krnl.onCurrent (effect.moves krnl)
  | .enter => krnl.onCurrent (effect.moves krnl)
  | .proceed => krnl.onCurrent (effect.moves krnl)
  | .exit _ => krnl.onCurrent (effect.moves krnl)
  | .pause _ _ _ _ => krnl.onCurrent (effect.moves krnl)
  | _ => krnl.sched.threads

/-- The running fiber is switched out. -/
def leaves : Effect → Bool
  | .block _ _ _ => true
  | .suspendSelf _ _ _ => true
  | .exit _ => true
  | .pause _ _ _ _ => true
  | _ => false

/-- The entries the effect adds to the history, newest first. -/
def events (krnl : XboxKrnl) : Effect → List Event
  | .deliver reply => [.returned krnl.currentHandle reply]
  | .ran threadHandle => [.ran krnl.currentHandle threadHandle (krnl.threadStartInfo threadHandle)]
  | .consume ptr => [.satisfied krnl.currentHandle .single [ptr] kStatusSuccess]
  | .acquire mode ptrs status => [.satisfied krnl.currentHandle mode (ptrs.filter krnl.acquirable) status]
  | .releaseMutant ptr => [.released krnl.currentHandle ptr 1]
  | .releaseSemaphore ptr adjustment => [.released krnl.currentHandle ptr adjustment]
  | .create object => krnl.birth object krnl.heap.length
  | .createThread request _ => [.created krnl.sched.nextHandle
      (startInfo (newThread request krnl.nextThreadId).thread) (request.createSuspended % 2 == 1)]
  | .resumeThread ptr =>
    if (krnl.object ptr).thread.suspendCount = 1 then [.resumed (krnl.object ptr).thread.schedHandle] else []
  | .exit _ => if krnl.sched.current.isSome then [.finished krnl.currentHandle] else []
  | _ => []

variable {krnl : XboxKrnl}

/-! ## The views are right -/

/-- The thread list after an effect: fibers are woken, the running fiber moves on,
or a fiber is spawned. -/
theorem threads_cases (krnl : XboxKrnl) (effect : Effect) :
    (Wakes (fun token => effect.Signals krnl token) krnl.sched.threads (effect.threads krnl) ∧
        effect.moves krnl = id) ∨
      effect.threads krnl = krnl.onCurrent (effect.moves krnl) ∨
      ∃ fiber, effect.Spawns krnl fiber ∧ effect.threads krnl = krnl.sched.threads ++ [fiber] ∧
        effect.moves krnl = id := by
  cases effect with
  | setEvent ptr => exact Or.inl ⟨krnl.releasedBy_wakes _, rfl⟩
  | pulseEvent ptr => exact Or.inl ⟨krnl.releasedBy_wakes _, rfl⟩
  | releaseMutant ptr =>
    refine Or.inl ⟨?_, rfl⟩
    simp only [Effect.threads]
    split
    · exact krnl.wokenBy_wakes ptr 1
    · exact Wakes.refl _ _
  | releaseSemaphore ptr adjustment => exact Or.inl ⟨krnl.wokenBy_wakes ptr _, rfl⟩
  | resumeThread ptr =>
    refine Or.inl ⟨?_, rfl⟩
    simp only [Effect.threads]
    split
    · exact signalThreads_wakes _ _ _
    · exact Wakes.refl _ _
  | abandon ptr => exact Or.inl ⟨krnl.wokenBy_wakes ptr 1, rfl⟩
  | wakeJoiner ptr => exact Or.inl ⟨krnl.wokenBy_wakes ptr 1, rfl⟩
  | leaveSection va => exact Or.inl ⟨signalThreads_wakes _ _ _, rfl⟩
  | createThread request base => exact Or.inr (Or.inr ⟨_, rfl, rfl, rfl⟩)
  | spawn stackTopReserve base => exact Or.inr (Or.inr ⟨_, rfl, rfl, rfl⟩)
  | block token ticks point => exact Or.inr (Or.inl rfl)
  | suspendSelf ptr out reply => exact Or.inr (Or.inl rfl)
  | enter => exact Or.inr (Or.inl rfl)
  | proceed => exact Or.inr (Or.inl rfl)
  | exit code => exact Or.inr (Or.inl rfl)
  | pause state wakeTick joinTarget point => exact Or.inr (Or.inl rfl)
  | _ => exact Or.inl ⟨Wakes.refl _ _, rfl⟩

/-! ## Two normal forms

Most effects either change one object in place, or do nothing but move the running fiber on. The views of these are read
off the state that the effect leaves behind, so the proofs below have one case for each of the two forms. -/

/-- The effects that change one object in place, besides the two on suspended threads. -/
def updates : Effect → Bool
  | .adjust _ _ => true
  | .setEvent _ => true
  | .pulseEvent _ => true
  | .releaseMutant _ => true
  | .releaseSemaphore _ _ => true
  | .abandon _ => true
  | .wakeJoiner _ => true
  | _ => false

/-- The effects that change nothing but the running fiber. -/
def relocates : Effect → Bool
  | .block _ _ _ => true
  | .enter => true
  | .proceed => true
  | .exit _ => true
  | .pause _ _ _ _ => true
  | _ => false

/-- The effect is a change of its one object that keeps the object's shape, with fibers woken and
memory written. -/
structure Updated (krnl : XboxKrnl) (effect : Effect) (target : Ptr) (change : DispatcherObject → DispatcherObject) :
    Prop where
  applied : ∃ ram, effect.apply krnl =
    krnl.updated target change (effect.threads krnl) ram (effect.events krnl ++ krnl.history)
  shape : ∀ object, (change object).shape = object.shape
  rewritten : ∀ object, krnl.object? target = some object → effect.rewrite krnl target object = change object
  elsewhere : ∀ ptr, ptr ≠ target → effect.rewrite krnl ptr = id

/-- A change of one object changes that one. -/
theorem onlyAt_here (target : Ptr) (change : DispatcherObject → DispatcherObject) : onlyAt target change target = change := by
  funext object
  simp [onlyAt]

/-- It leaves the others alone. -/
theorem onlyAt_elsewhere (target : Ptr) (change : DispatcherObject → DispatcherObject) (ptr : Ptr)
    (different : ptr ≠ target) : onlyAt target change ptr = id := by
  funext object
  simp [onlyAt, different]

/-- An effect on one object updates it.

Proof: every kernel function of this kind has its own equation in `WakeUps`. The equation names the
fibers that are woken and the entries of the history through the object, which is the one that the
effect looks up. -/
theorem updated (effect : Effect) (allowed : effect.Allowed krnl) (single : effect.updates = true) :
    ∃ target change, Updated krnl effect target change := by
  cases effect with
  | adjust target change =>
    exact ⟨target, change.apply krnl, ⟨_, rfl⟩, fun _ => by cases change <;> rfl,
      fun _ _ => congrFun (onlyAt_here _ _) _, onlyAt_elsewhere target _⟩
  | setEvent target =>
    obtain ⟨object, live, _⟩ := allowed
    obtain ⟨ram, set⟩ := krnl.keSetEventCore_eq target object live
    refine ⟨target, withSignal (krnl.setSignal object), ⟨ram, ?_⟩, fun _ => rfl, fun other same => ?_,
      onlyAt_elsewhere target _⟩
    · simp only [Effect.threads, krnl.object_eq _ _ live]
      exact set
    · obtain rfl := Option.some.inj (live.symm.trans same)
      exact congrFun (onlyAt_here _ _) _
  | pulseEvent target =>
    obtain ⟨object, live, _⟩ := allowed
    obtain ⟨ram, pulsed⟩ := krnl.pulseEvent_eq target object live
    refine ⟨target, withSignal false, ⟨ram, ?_⟩, fun _ => rfl, fun _ _ => congrFun (onlyAt_here _ _) _,
      onlyAt_elsewhere target _⟩
    simp only [Effect.threads, krnl.object_eq _ _ live]
    exact pulsed
  | releaseMutant target =>
    obtain ⟨object, live, _⟩ := allowed
    have same {other : DispatcherObject} (found : krnl.object? target = some other) : other = object :=
      Option.some.inj (found.symm.trans live)
    by_cases freed : 0 < object.mutant.signalState + 1
    · obtain ⟨ram, released⟩ := krnl.releaseMutant_freed target object live freed
      refine ⟨target, fun o => clearWaiters (putMutant o), ⟨ram, ?_⟩, fun _ => rfl, fun other found => ?_,
        onlyAt_elsewhere target _⟩
      · simp only [Effect.threads, krnl.object_eq _ _ live, if_pos freed]
        exact released
      · rw [same found]
        simp only [rewrite, onlyAt, ↓reduceIte, if_pos freed]
    · obtain ⟨ram, released⟩ := krnl.releaseMutant_held target object live freed
      refine ⟨target, putMutant, ⟨ram, ?_⟩, fun _ => rfl, fun other found => ?_, onlyAt_elsewhere target _⟩
      · simp only [Effect.threads, krnl.object_eq _ _ live, if_neg freed]
        exact released
      · rw [same found]
        simp only [rewrite, onlyAt, ↓reduceIte, if_neg freed]
  | releaseSemaphore target adjustment =>
    obtain ⟨object, live, _⟩ := allowed
    obtain ⟨ram, released⟩ := krnl.releaseSemaphore_eq target object live adjustment
    refine ⟨target, addUnits (object.semaphore.count + adjustment), ⟨ram, ?_⟩, fun _ => rfl, fun other found => ?_,
      onlyAt_elsewhere target _⟩
    · simp only [Effect.threads, krnl.object_eq _ _ live]
      exact released
    · obtain rfl := Option.some.inj (live.symm.trans found)
      exact congrFun (onlyAt_here _ _) _
  | abandon target =>
    obtain ⟨object, live, kind, owner, _⟩ := allowed
    obtain ⟨ram, abandoned⟩ := krnl.abandon_owned _ target object live kind owner
    exact ⟨target, fun o => clearWaiters (abandonMutant o), ⟨ram, abandoned⟩, fun _ => rfl,
      fun other _ => congrFun (onlyAt_here target (fun o => clearWaiters (abandonMutant o))) other,
      onlyAt_elsewhere target _⟩
  | wakeJoiner target =>
    exact ⟨target, clearWaiters, ⟨krnl.ram, krnl.wakeObject_eq target 1⟩, fun _ => rfl,
      fun _ _ => congrFun (onlyAt_here _ _) _, onlyAt_elsewhere target _⟩
  | _ => cases single

/-- An effect on the running fiber leaves everything else alone. -/
theorem relocated (effect : Effect) (allowed : effect.Allowed krnl) (single : effect.relocates = true) :
    effect.apply krnl = { krnl with
      sched := { krnl.sched with
        threads := effect.threads krnl
        current := if effect.leaves then none else krnl.sched.current }
      history := effect.events krnl ++ krnl.history } := by
  cases effect with
  | block token ticks point =>
    obtain ⟨⟨fiber, running, _⟩, _⟩ := allowed
    obtain ⟨index, switched, _⟩ := currentFiber_index running
    simp only [Effect.apply, blockCurrent_eq switched, Effect.threads, krnl.onCurrent_some switched]
    rfl
  | enter =>
    obtain ⟨fiber, running, _⟩ := allowed
    obtain ⟨index, switched, _⟩ := currentFiber_index running
    simp only [Effect.apply, setPoint, setBody, switched, GuestScheduler.modifyThread, List.modify_modify_eq,
      Effect.threads, krnl.onCurrent_some switched]
    rw [← switched]
    rfl
  | proceed =>
    obtain ⟨fiber, running, _⟩ := allowed
    obtain ⟨index, switched, _⟩ := currentFiber_index running
    simp only [Effect.apply, setPoint, switched, Effect.threads, krnl.onCurrent_some switched]
    rw [← switched]
    rfl
  | exit code =>
    obtain ⟨⟨fiber, running, _⟩, _⟩ := allowed
    obtain ⟨index, switched, _⟩ := currentFiber_index running
    simp only [Effect.apply, switched, Effect.threads, krnl.onCurrent_some switched, Effect.events]
    rfl
  | pause state wakeTick joinTarget point =>
    obtain ⟨⟨fiber, running, _⟩, _⟩ := allowed
    obtain ⟨index, switched, _⟩ := currentFiber_index running
    simp only [Effect.apply, switched, Effect.threads, krnl.onCurrent_some switched]
    rfl
  | _ => cases single

/-- What remains of the state besides the objects: the fibers, which of them runs,
and the history. -/
structure Leads (krnl : XboxKrnl) (effect : Effect) (next : XboxKrnl) : Prop where
  threads : next.sched.threads = effect.threads krnl
  current : next.sched.current = if effect.leaves then none else krnl.sched.current
  history : next.history = effect.events krnl ++ krnl.history

/-- Every effect other than a step of the run loop leads to its own fibers and entries.

Proof: by the effect. Effects that rewrite one object, and effects that move the running fiber, each
have one equation for their result; the others are computed one by one. -/
theorem leads (ok : krnl.Ok) (effect : Effect) (allowed : effect.Allowed krnl) (quiet : effect.label ≠ .loop) :
    Leads krnl effect (effect.apply krnl) := by
  by_cases single : effect.updates = true
  · obtain ⟨target, change, ⟨ram, applied⟩, _⟩ := effect.updated allowed single
    have stays : effect.leaves = false := by cases effect <;> first | rfl | cases single
    rw [applied]
    exact ⟨rfl, by rw [stays]; rfl, rfl⟩
  by_cases moved : effect.relocates = true
  · rw [effect.relocated allowed moved]
    exact ⟨rfl, rfl, rfl⟩
  cases effect with
  | adjust | setEvent | pulseEvent | releaseMutant | releaseSemaphore | abandon | wakeJoiner => exact absurd rfl single
  | block | enter | proceed | exit | pause => exact absurd rfl moved
  | compute | deliver | ran | consume | install | spend | close | leaveSection => exact ⟨rfl, rfl, rfl⟩
  | identify =>
    obtain ⟨_, absent, _⟩ := allowed
    simp only [Effect.apply, krnl.ensureThreadObject_new _ absent]
    exact ⟨rfl, rfl, rfl⟩
  | acquire mode ptrs status =>
    obtain ⟨waitable, identified, _⟩ := allowed
    obtain ⟨_, ⟨ram, heap, taken⟩, registry, _⟩ :=
      ok.taken_eq ptrs (fun ptr member => (waitable ptr member).1.1) identified
    refine ⟨by simp only [Effect.apply, taken]; rfl, by simp only [Effect.apply, taken]; rfl, ?_⟩
    have handle : (krnl.taken ptrs).currentHandle = krnl.currentHandle := by rw [taken]; rfl
    have history : (krnl.taken ptrs).history = krnl.history := by rw [taken]
    have acquirable : ptrs.filter (krnl.taken ptrs).acquirable = ptrs.filter krnl.acquirable := by
      refine List.filter_congr (fun ptr member => ?_)
      obtain ⟨object, live⟩ := (waitable ptr member).1.1
      have same : (krnl.taken ptrs).registry.shapes ptr = some object.shape := by
        rw [registry]
        exact krnl.shapes_eq _ _ live
      obtain ⟨after, liveAfter, shape⟩ := (krnl.taken ptrs).of_shapes _ _ same
      simp only [XboxKrnl.acquirable, inFiber, handle, object_eq _ _ _ live, object_eq _ _ _ liveAfter,
        DispatcherObject.kind_of_shape shape]
    simp only [Effect.apply, XboxKrnl.noteSatisfied, XboxKrnl.note, handle, history, acquirable]
    rfl
  | suspendSelf ptr out reply =>
    obtain ⟨_, fiber, running, _⟩ := allowed
    obtain ⟨index, switched, _⟩ := currentFiber_index running
    have still : (krnl.modify ptr (Change.apply krnl .suspend)).sched.current = some index := switched
    simp only [Effect.apply, blockCurrent_eq still]
    exact ⟨(krnl.onCurrent_some switched _).symm, rfl, rfl⟩
  | create object =>
    obtain ⟨_, _, _, inserted, _⟩ := krnl.insert_allocated ok.registry object
    have stored : (krnl.allocate object).1.insertObject (krnl.allocate object).2 = _ := inserted
    simp only [Effect.apply, stored]
    exact ⟨rfl, rfl, rfl⟩
  | createThread request base =>
    obtain ⟨_, _, _, created, _⟩ := krnl.createThread_eq ok.registry request base allowed
    simp only [Effect.apply, created]
    exact ⟨rfl, rfl, rfl⟩
  | resumeThread ptr =>
    simp only [Effect.apply, XboxKrnl.resumeThread]
    split
    · rename_i positive
      split
      · have one : (krnl.object ptr).thread.suspendCount = 1 := by omega
        exact ⟨by simp only [Effect.threads, one, ↓reduceIte]; rfl, rfl,
          by simp only [Effect.events, one, ↓reduceIte]; rfl⟩
      · have more : (krnl.object ptr).thread.suspendCount ≠ 1 := by omega
        exact ⟨by simp only [Effect.threads, more, ↓reduceIte]; rfl, rfl,
          by simp only [Effect.events, more, ↓reduceIte]; rfl⟩
    · have zero : (krnl.object ptr).thread.suspendCount ≠ 1 := by omega
      exact ⟨by simp only [Effect.threads, zero, ↓reduceIte], rfl,
        by simp only [Effect.events, zero, ↓reduceIte]; rfl⟩
  | spawn stackTopReserve base =>
    simp only [Effect.apply, spawnReserved_eq krnl.sched _ _ _ allowed]
    exact ⟨rfl, rfl, rfl⟩
  | enterLoop => exact absurd rfl quiet
  | turn => exact absurd rfl quiet

/-- What becomes of one fiber under an effect. -/
def Fate (krnl : XboxKrnl) (effect : Effect) (index : Nat) (fiber after : Fiber) : Prop :=
  (krnl.sched.current = some index ∧ after = effect.moves krnl fiber) ∨
    (krnl.sched.current ≠ some index ∧ (after = fiber ∨
      (fiber.state = .blockedWait ∧ effect.Signals krnl fiber.waitToken ∧ after = fiber.wake)))

/-- Outside the loop, what becomes of a fiber at its place. -/
theorem fiber_fate (ok : krnl.Ok) {effect : Effect} (allowed : effect.Allowed krnl) (quiet : effect.label ≠ .loop)
    {index : Nat} {fiber : Fiber} (found : krnl.sched.threads[index]? = some fiber) :
    ∃ after, (effect.apply krnl).sched.threads[index]? = some after ∧ effect.Fate krnl index fiber after := by
  have threads := (effect.leads ok allowed quiet).threads
  rw [threads]
  rcases effect.threads_cases krnl with ⟨woken, still⟩ | moved | ⟨spawned, _, appended, still⟩
  · by_cases switched : krnl.sched.current = some index
    · obtain ⟨same, after, before, _⟩ := ok.current_wakes woken index switched
      obtain rfl := Option.some.inj (before.symm.trans found)
      exact ⟨same, after, Or.inl ⟨switched, by rw [still]; rfl⟩⟩
    · rcases woken.each index fiber found with same | ⟨blocked, signaled, changed⟩
      · exact ⟨fiber, same, Or.inr ⟨switched, Or.inl rfl⟩⟩
      · exact ⟨fiber.wake, changed, Or.inr ⟨switched, Or.inr ⟨blocked, signaled, rfl⟩⟩⟩
  · rw [moved, onCurrent]
    cases switched : krnl.sched.current with
    | none => exact ⟨fiber, found, Or.inr ⟨by rw [switched]; simp, Or.inl rfl⟩⟩
    | some position =>
      by_cases same : position = index
      · subst same
        exact ⟨effect.moves krnl fiber, by simp [found], Or.inl ⟨switched, rfl⟩⟩
      · exact ⟨fiber, by simp [same, found], Or.inr ⟨by simp [switched, same], Or.inl rfl⟩⟩
  · have inside := (List.getElem?_eq_some_iff.mp found).1
    rw [appended, List.getElem?_append_left inside]
    refine ⟨fiber, found, ?_⟩
    by_cases switched : krnl.sched.current = some index
    · exact Or.inl ⟨switched, by rw [still]; rfl⟩
    · exact Or.inr ⟨switched, Or.inl rfl⟩

/-- And where a fiber after an effect comes from: a place it had before, or a spawn. -/
theorem fiber_origin (ok : krnl.Ok) {effect : Effect} (allowed : effect.Allowed krnl)
    (quiet : effect.label ≠ .loop) {index : Nat} {after : Fiber}
    (found : (effect.apply krnl).sched.threads[index]? = some after) :
    (∃ fiber, krnl.sched.threads[index]? = some fiber ∧ effect.Fate krnl index fiber after) ∨
      (index = krnl.sched.threads.length ∧ effect.Spawns krnl after) := by
  have threads := (effect.leads ok allowed quiet).threads
  cases before : krnl.sched.threads[index]? with
  | some fiber =>
    obtain ⟨same, again, fate⟩ := fiber_fate ok allowed quiet before
    obtain rfl := Option.some.inj (found.symm.trans again)
    exact Or.inl ⟨fiber, rfl, fate⟩
  | none =>
    right
    have outside := List.getElem?_eq_none_iff.mp before
    have inside := (List.getElem?_eq_some_iff.mp found).1
    rw [threads] at found inside
    rcases effect.threads_cases krnl with ⟨woken, _⟩ | moved | ⟨spawned, spawns, appended, _⟩
    · rw [woken.length] at inside
      omega
    · have length : (krnl.onCurrent (effect.moves krnl)).length = krnl.sched.threads.length := by
        unfold onCurrent
        split <;> simp
      rw [moved, length] at inside
      omega
    · rw [appended] at found inside
      simp only [List.length_append, List.length_cons, List.length_nil] at inside
      have last : index = krnl.sched.threads.length := by omega
      subst last
      simp only [List.getElem?_concat_length, Option.some.injEq] at found
      exact ⟨rfl, found ▸ spawns⟩

/-- A spawned fiber has not started. -/
theorem spawned_fresh {effect : Effect} {fiber : Fiber} (spawned : effect.Spawns krnl fiber) :
    fiber.ctx.point = .entry ∧ fiber.state = .ready := by
  cases effect with
  | createThread request base =>
    obtain rfl : fiber = _ := spawned
    exact ⟨rfl, rfl⟩
  | spawn stackTopReserve base =>
    obtain rfl : fiber = _ := spawned
    exact ⟨rfl, rfl⟩
  | _ => exact spawned.elim

/-- A fiber after the wake passes of a turn. -/
def Passes (fiber passed : Fiber) : Prop :=
  passed = fiber ∨
    ((fiber.state = .sleeping ∨ fiber.state = .blockedJoin) ∧ passed = { fiber with state := .ready }) ∨
    (fiber.state = .blockedWait ∧ passed = { fiber with state := .ready, waitTimedOut := true })

/-- The passes keep handle, context and channel. -/
theorem Passes.same {fiber passed : Fiber} (passes : Passes fiber passed) :
    passed.handle = fiber.handle ∧ passed.ctx = fiber.ctx ∧ passed.waitToken = fiber.waitToken := by
  rcases passes with rfl | ⟨_, rfl⟩ | ⟨_, rfl⟩ <;> exact ⟨rfl, rfl, rfl⟩

/-- A fiber that a pass has not made ready is as it was. -/
theorem Passes.unready {fiber passed : Fiber} (passes : Passes fiber passed) (unready : passed.state ≠ .ready) :
    passed = fiber := by
  rcases passes with same | ⟨_, rfl⟩ | ⟨_, rfl⟩
  · exact same
  · exact absurd rfl unready
  · exact absurd rfl unready

/-- Two effects belong to the loop. -/
theorem label_loop {effect : Effect} (loop : effect.label = .loop) : effect = .enterLoop ∨ effect = .turn := by
  unfold Effect.label at loop
  split at loop <;> first | exact Or.inl rfl | exact Or.inr rfl | cases loop

/-- A turn of the run loop passes over every fiber and may switch one ready fiber in. -/
theorem turn_fate {index : Nat} {fiber : Fiber} (found : krnl.sched.threads[index]? = some fiber)
    (idle : krnl.sched.current = none) :
    ∃ passed after, ((Effect.turn).apply krnl).sched.threads[index]? = some after ∧ Passes fiber passed ∧
      ((after = passed ∧ ((Effect.turn).apply krnl).sched.current ≠ some index) ∨
        (((Effect.turn).apply krnl).sched.current = some index ∧ passed.state = .ready ∧
          after = switchedIn passed)) := by
  have passes := wakePass_cases krnl.sched fiber
  have position : krnl.sched.wakePasses[index]? =
      some (timeOutWait krnl.sched.tick (wakeSleeper krnl.sched.tick (krnl.sched.unblockJoin fiber))) := by
    simp [GuestScheduler.wakePasses, found]
  rcases loopTurn_cases krnl.sched with ⟨inLoop, deadlocked, tick, turned, _⟩ |
    ⟨inLoop, deadlocked, tick, turned, _⟩ | ⟨switched, ready, here, state, _, turned⟩
  · simp only [Effect.apply, turned]
    exact ⟨fiber, fiber, found, Or.inl rfl, Or.inl ⟨rfl, by simp [idle]⟩⟩
  · simp only [Effect.apply, turned]
    exact ⟨_, _, position, passes, Or.inl ⟨rfl, by simp [idle]⟩⟩
  · simp only [Effect.apply, turned]
    by_cases same : switched = index
    · subst same
      obtain rfl := Option.some.inj (position.symm.trans here)
      exact ⟨_, _, by rw [List.getElem?_modify_eq, position]; rfl, passes, Or.inr ⟨rfl, state, rfl⟩⟩
    · exact ⟨_, _, by simpa [List.getElem?_modify, same] using position, passes, Or.inl ⟨rfl, by simp [same]⟩⟩

/-- A fiber that the wake passes leave alone stays as it is or is switched in. -/
theorem turn_kept {index : Nat} {fiber : Fiber} (found : krnl.sched.threads[index]? = some fiber)
    (idle : krnl.sched.current = none)
    (passed : timeOutWait krnl.sched.tick (wakeSleeper krnl.sched.tick (krnl.sched.unblockJoin fiber)) = fiber) :
    (((Effect.turn).apply krnl).sched.threads[index]? = some fiber ∧
        ((Effect.turn).apply krnl).sched.current ≠ some index) ∨
      (((Effect.turn).apply krnl).sched.threads[index]? = some (switchedIn fiber) ∧
        ((Effect.turn).apply krnl).sched.current = some index ∧ fiber.state = .ready) := by
  have position : krnl.sched.wakePasses[index]? = some fiber := by
    simp [GuestScheduler.wakePasses, found, passed]
  rcases loopTurn_cases krnl.sched with ⟨inLoop, deadlocked, tick, turned, _⟩ |
    ⟨inLoop, deadlocked, tick, turned, _⟩ | ⟨switched, ready, here, state, _, turned⟩
  · simp only [Effect.apply, turned]
    exact Or.inl ⟨found, by simp [idle]⟩
  · simp only [Effect.apply, turned]
    exact Or.inl ⟨position, by simp [idle]⟩
  · simp only [Effect.apply, turned]
    by_cases same : switched = index
    · subst same
      obtain rfl := Option.some.inj (position.symm.trans here)
      exact Or.inr ⟨by rw [List.getElem?_modify_eq, position]; rfl, rfl, state⟩
    · exact Or.inl ⟨by simpa [List.getElem?_modify, same] using position, by simp [same]⟩

/-- Where a fiber after a turn comes from, and what it is if it has been switched in. -/
theorem turn_origin {index : Nat} {after : Fiber} (idle : krnl.sched.current = none)
    (found : ((Effect.turn).apply krnl).sched.threads[index]? = some after) :
    ∃ fiber passed, krnl.sched.threads[index]? = some fiber ∧ Passes fiber passed ∧
      ((after = passed ∧ ((Effect.turn).apply krnl).sched.current ≠ some index) ∨
        (((Effect.turn).apply krnl).sched.current = some index ∧ passed.state = .ready ∧
          after = switchedIn passed)) := by
  have length : ((Effect.turn).apply krnl).sched.threads.length = krnl.sched.threads.length := by
    simp only [Effect.apply]
    rcases loopTurn_cases krnl.sched with ⟨_, _, _, turned, _⟩ | ⟨_, _, _, turned, _⟩ | ⟨_, _, _, _, _, turned⟩ <;>
      simp [turned, GuestScheduler.wakePasses]
  have inside := (List.getElem?_eq_some_iff.mp found).1
  rw [length] at inside
  obtain ⟨passed, same, again, passes, rest⟩ := turn_fate (List.getElem?_eq_getElem inside) idle
  obtain rfl := Option.some.inj (found.symm.trans again)
  exact ⟨_, passed, List.getElem?_eq_getElem inside, passes, rest⟩

/-- A blocked fiber was blocked before, or it is the running one and has just blocked. -/
theorem blocked_origin (ok : krnl.Ok) {effect : Effect} (allowed : effect.Allowed krnl) {after : Fiber}
    (member : after ∈ (effect.apply krnl).sched.threads) (blocked : after.state = .blockedWait) :
    after ∈ krnl.sched.threads ∨ ∃ fiber, krnl.currentFiber = some fiber ∧ after = effect.moves krnl fiber ∧
      ((∃ token ticks point, effect = .block token ticks point) ∨
        ∃ ptr out reply, effect = .suspendSelf ptr out reply) := by
  obtain ⟨index, found⟩ := List.mem_iff_getElem?.mp member
  by_cases loop : effect.label = .loop
  · rcases label_loop loop with rfl | rfl
    · exact Or.inl member
    · obtain ⟨fiber, passed, before, passes, rest⟩ := turn_origin allowed found
      rcases rest with ⟨rfl, _⟩ | ⟨_, ready, rfl⟩
      · rw [passes.unready (by simp [blocked])]
        exact Or.inl (List.mem_of_getElem? before)
      · simp only [switchedIn, ready] at blocked
        split at blocked <;> cases blocked
  · rcases fiber_origin ok allowed loop found with ⟨fiber, before, fate⟩ | ⟨_, spawned⟩
    · rcases fate with ⟨switched, rfl⟩ | ⟨_, rfl | ⟨_, _, rfl⟩⟩
      · obtain ⟨current, here, _, state⟩ := ok.current index switched
        obtain rfl := Option.some.inj (before.symm.trans here)
        have running : krnl.currentFiber = some fiber := by simp [currentFiber, switched, before]
        have unblocked : fiber.state ≠ .blockedWait := by
          rcases state with state | state <;> simp [state]
        cases effect with
        | block token ticks point => exact Or.inr ⟨fiber, running, rfl, Or.inl ⟨token, ticks, point, rfl⟩⟩
        | suspendSelf ptr out reply => exact Or.inr ⟨fiber, running, rfl, Or.inr ⟨ptr, out, reply, rfl⟩⟩
        | exit code => simp [Effect.moves, ended] at blocked
        | pause state wakeTick joinTarget point =>
          obtain ⟨_, ⟨rfl, _⟩ | ⟨rfl | rfl | rfl, _⟩⟩ := allowed <;> cases blocked
        | _ => exact absurd blocked unblocked
      · exact Or.inl (List.mem_of_getElem? before)
      · cases blocked
    · rw [(spawned_fresh spawned).2] at blocked
      cases blocked

/-- An object that is rewritten in place, seen from the whole heap. -/
theorem rewrites_updated {effect : Effect} {next : XboxKrnl} {target : Ptr}
    {change : DispatcherObject → DispatcherObject} {threads : List Fiber} {ram : XbeRam} {history : List Event}
    (applied : next = krnl.updated target change threads ram history)
    (here : ∀ object, krnl.object? target = some object → effect.rewrite krnl target object = change object)
    (elsewhere : ∀ ptr, ptr ≠ target → effect.rewrite krnl ptr = id) (ptr : Ptr) :
    next.object? ptr = (krnl.object? ptr).map (effect.rewrite krnl ptr) := by
  rw [applied, object?_updated]
  by_cases same : ptr = target
  · subst same
    cases live : krnl.object? ptr with
    | none => simp
    | some object => simp [here object live]
  · simp [same, elsewhere ptr same]

/-- What is found after a change of one object, as a rewrite. -/
theorem object?_modified (target : Ptr) (change : DispatcherObject → DispatcherObject) (ptr : Ptr) :
    (krnl.modify target change).object? ptr = (krnl.object? ptr).map (onlyAt target change ptr) := by
  rw [object?_modify]
  split
  · rename_i same
    subst same
    congr 1
    funext object
    simp [onlyAt]
  · rename_i different
    simp [onlyAt_elsewhere target change ptr different]

/-- What is found when no object changes. -/
theorem untouched {next : XboxKrnl} (same : next.heap = krnl.heap) (ptr : Ptr) :
    next.object? ptr = (krnl.object? ptr).map id := by
  rw [object?, object?, same, Option.map_id, id]

/-- The objects after an effect: rewritten, with one more of them, or with one less. -/
theorem objects (ok : krnl.Ok) (effect : Effect) (allowed : effect.Allowed krnl) :
    (∀ ptr, (effect.apply krnl).object? ptr = (krnl.object? ptr).map (effect.rewrite krnl ptr)) ∨
      (∃ object, effect.Births krnl object ∧ ∀ ptr, (effect.apply krnl).object? ptr =
        if ptr = krnl.heap.length then some object else krnl.object? ptr) ∨
      ∃ slot target, effect = .close slot target ∧ ∀ ptr, (effect.apply krnl).object? ptr =
        if ptr = target then none else krnl.object? ptr := by
  by_cases single : effect.updates = true
  · obtain ⟨target, change, ⟨ram, applied⟩, _, rewritten, elsewhere⟩ := effect.updated allowed single
    exact Or.inl (rewrites_updated applied rewritten elsewhere)
  by_cases moved : effect.relocates = true
  · have kept : ∀ ptr, effect.rewrite krnl ptr = id := fun ptr => by cases effect <;> first | rfl | cases moved
    refine Or.inl (fun ptr => ?_)
    rw [kept, effect.relocated allowed moved]
    exact untouched rfl ptr
  cases effect with
  | adjust | setEvent | pulseEvent | releaseMutant | releaseSemaphore | abandon | wakeJoiner => exact absurd rfl single
  | block | enter | proceed | exit | pause => exact absurd rfl moved
  | compute | deliver | ran | consume | spend | leaveSection | spawn | enterLoop | turn => exact Or.inl (untouched rfl)
  | identify =>
    obtain ⟨_, absent, _⟩ := allowed
    exact Or.inr (Or.inl ⟨_, rfl, object?_identify absent⟩)
  | acquire mode ptrs status =>
    obtain ⟨waitable, identified, _⟩ := allowed
    exact Or.inl (ok.taken_eq ptrs (fun ptr member => (waitable ptr member).1.1) identified).2.2.2
  | suspendSelf target out reply =>
    obtain ⟨_, fiber, running, _⟩ := allowed
    obtain ⟨index, switched, _⟩ := currentFiber_index running
    have still : (krnl.modify target (Change.apply krnl .suspend)).sched.current = some index := switched
    simp only [Effect.apply, blockCurrent_eq still]
    exact Or.inl (object?_modified target (Change.apply krnl .suspend))
  | create object =>
    obtain ⟨_, _, _, inserted, _⟩ := krnl.insert_allocated ok.registry object
    have stored : (krnl.allocate object).1.insertObject (krnl.allocate object).2 = _ := inserted
    simp only [Effect.apply, stored]
    exact Or.inr (Or.inl ⟨_, rfl, krnl.object?_allocate object⟩)
  | install object => exact Or.inr (Or.inl ⟨_, rfl, krnl.object?_allocate object⟩)
  | createThread request base =>
    obtain ⟨slot, _, _, created, _⟩ := krnl.createThread_eq ok.registry request base allowed
    simp only [Effect.apply, created]
    exact Or.inr (Or.inl ⟨_, ⟨slot, rfl⟩, krnl.object?_allocate (krnl.systemThread request slot)⟩)
  | close slot target => exact Or.inr (Or.inr ⟨slot, target, rfl, krnl.object?_close slot target⟩)
  | resumeThread target =>
    left
    rcases krnl.resumeThread_eq target with ⟨same, zero⟩ | ⟨threads, history, resumed, _⟩
    · intro ptr
      simp only [Effect.apply, same]
      by_cases here : ptr = target
      · subst here
        obtain ⟨object, live, _⟩ := allowed
        -- Nobody is suspended, so lowering the count changes nothing.
        have lowered : ({ object with thread := { object.thread with suspendCount := 0 } } :
            DispatcherObject) = object := by rw [← zero, krnl.object_eq _ _ live]
        rw [krnl.object_eq _ _ live] at zero
        simp [rewrite, onlyAt, live, zero, lowered]
      · simp [rewrite, onlyAt_elsewhere target _ ptr here]
    · exact rewrites_updated resumed (fun object live => by simp [rewrite, onlyAt, krnl.object_eq _ _ live])
        (onlyAt_elsewhere target _)

/-- The birth of an object rewrites none of the others. -/
theorem Births.rewrite_eq {effect : Effect} {object : DispatcherObject} (born : effect.Births krnl object)
    (ptr : Ptr) : effect.rewrite krnl ptr = id := by
  cases effect <;> first | rfl | exact born.elim

/-- Where an object comes from. -/
theorem object_origin (ok : krnl.Ok) {effect : Effect} (allowed : effect.Allowed krnl) {ptr : Ptr}
    {object : DispatcherObject} (live : (effect.apply krnl).object? ptr = some object) :
    (∃ earlier, krnl.object? ptr = some earlier ∧ object = effect.rewrite krnl ptr earlier) ∨
      (ptr = krnl.heap.length ∧ effect.Births krnl object) := by
  rcases effect.objects ok allowed with rewritten | ⟨made, born, read⟩ | ⟨slot, target, rfl, read⟩
  · rw [rewritten] at live
    obtain ⟨earlier, before, same⟩ := Option.map_eq_some_iff.mp live
    exact Or.inl ⟨earlier, before, same.symm⟩
  · rw [read] at live
    split at live
    · rename_i same
      obtain rfl := Option.some.inj live
      exact Or.inr ⟨same, born⟩
    · exact Or.inl ⟨object, live, by rw [born.rewrite_eq]; rfl⟩
  · rw [read] at live
    split at live
    · cases live
    · exact Or.inl ⟨object, live, rfl⟩

/-- What becomes of an object. -/
theorem object_fate (ok : krnl.Ok) {effect : Effect} (allowed : effect.Allowed krnl) {ptr : Ptr}
    {object : DispatcherObject} (live : krnl.object? ptr = some object) :
    (effect.apply krnl).object? ptr = some (effect.rewrite krnl ptr object) ∨
      ∃ slot, effect = .close slot ptr := by
  rcases effect.objects ok allowed with rewritten | ⟨made, born, read⟩ | ⟨slot, target, rfl, read⟩
  · left
    rw [rewritten, live]
    rfl
  · left
    have old : ptr ≠ krnl.heap.length := Nat.ne_of_lt (krnl.object?_inside _ _ live)
    rw [read, if_neg old, live, born.rewrite_eq]
    rfl
  · rw [read]
    by_cases same : ptr = target
    · exact Or.inr ⟨slot, by rw [same]⟩
    · left
      rw [if_neg same, live]
      rfl

/-! ## The registries -/

/-- The effect registers or destroys an object, or counts a handle. -/
def registers : Effect → Bool
  | .identify => true
  | .create _ => true
  | .install _ => true
  | .createThread _ _ => true
  | .spend _ _ => true
  | .close _ _ => true
  | .spawn _ _ => true
  | _ => false

/-- An effect that registers nothing leaves the registries alone. -/
theorem registry_apply (ok : krnl.Ok) {effect : Effect} (allowed : effect.Allowed krnl)
    (keeps : effect.registers = false) : (effect.apply krnl).registry = krnl.registry := by
  by_cases single : effect.updates = true
  · obtain ⟨target, change, ⟨ram, applied⟩, shape, _⟩ := effect.updated allowed single
    rw [applied]
    exact krnl.registry_updated target _ _ _ _ (fun object _ => shape object)
  by_cases moved : effect.relocates = true
  · rw [effect.relocated allowed moved]
    rfl
  cases effect with
  | adjust | setEvent | pulseEvent | releaseMutant | releaseSemaphore | abandon | wakeJoiner => exact absurd rfl single
  | block | enter | proceed | exit | pause => exact absurd rfl moved
  | identify | create | install | createThread | spend | close | spawn => cases keeps
  | compute | deliver | ran | consume | leaveSection | enterLoop => rfl
  | acquire mode ptrs status =>
    obtain ⟨waitable, identified, _⟩ := allowed
    exact (ok.taken_eq ptrs (fun ptr member => (waitable ptr member).1.1) identified).2.2.1
  | suspendSelf ptr out reply =>
    obtain ⟨_, fiber, running, _⟩ := allowed
    obtain ⟨index, switched, _⟩ := currentFiber_index running
    have still : (krnl.modify ptr (Change.apply krnl .suspend)).sched.current = some index := switched
    simp only [Effect.apply, blockCurrent_eq still]
    exact krnl.registry_modify ptr (Change.apply krnl .suspend) (fun _ _ => rfl)
  | resumeThread ptr =>
    rcases krnl.resumeThread_eq ptr with ⟨same, _⟩ | ⟨threads, history, resumed, _⟩
    · simp only [Effect.apply, same]
    · simp only [Effect.apply, resumed]
      exact krnl.registry_updated ptr _ _ _ _ (fun _ _ => rfl)
  | turn =>
    simp only [Effect.apply]
    rcases loopTurn_cases krnl.sched with ⟨_, _, _, turned, _⟩ | ⟨_, _, _, turned, _⟩ | ⟨_, _, _, _, _, turned⟩ <;>
      rw [turned] <;> rfl

/-- An object that lives on keeps its place in the registries. -/
theorem extends_apply (ok : krnl.Ok) {effect : Effect} (allowed : effect.Allowed krnl)
    (opens : ∀ slot ptr, effect ≠ .close slot ptr) : krnl.registry.Extends (effect.apply krnl).registry := by
  have unchanged : krnl.registry.Extends krnl.registry :=
    ⟨Nat.le_refl _, fun _ _ => rfl, fun _ _ found => found, fun _ found => found, fun _ found => found,
      Nat.le_refl _⟩
  have counted : ∀ nextThreadId nextHandle, krnl.registry.nextHandle ≤ nextHandle →
      krnl.registry.Extends { krnl.registry with nextThreadId, nextHandle } := fun _ _ more =>
    ⟨Nat.le_refl _, fun _ _ => rfl, fun _ _ found => found, fun _ found => found, fun _ found => found, more⟩
  by_cases keeps : effect.registers = false
  · rw [registry_apply ok allowed keeps]
    exact unchanged
  · cases effect with
    | identify =>
      obtain ⟨_, absent, _⟩ := allowed
      simp only [Effect.apply, krnl.registry_identify _ absent]
      refine ⟨Nat.le_succ _, fun ptr inside => ?_, fun slot ptr found => found, fun ptr found => found,
        fun entry found => List.mem_append_left _ found, Nat.le_refl _⟩
      exact Function.update_of_ne (Nat.ne_of_lt inside) _ _
    | create object =>
      obtain ⟨slot, objects, freeSlots, inserted, table, empty, _⟩ := krnl.insert_allocated ok.registry object
      have stored : (krnl.allocate object).1.insertObject (krnl.allocate object).2 = _ := inserted
      have registryEq := krnl.registry_tabledWith object slot objects freeSlots krnl.sched krnl.nextThreadId
        (krnl.birth object krnl.heap.length ++ krnl.history) table
      simp only [Effect.apply, stored]
      exact registryEq ▸ extends_tabling krnl.registry _ slot objects.length freeSlots krnl.nextThreadId
        krnl.sched.nextHandle empty (Nat.le_refl _)
    | install object =>
      have registryEq := krnl.registry_allocate object
      refine ⟨?_, ?_, fun _ _ found => found, fun _ found => List.mem_append_left _ found, fun _ found => found,
        Nat.le_refl _⟩
      · simp [Effect.apply, allocate, registry]
      · intro ptr inside
        have shapes := congrArg (fun registry => registry.shapes ptr) registryEq
        refine shapes.trans ?_
        exact Function.update_of_ne (Nat.ne_of_lt inside) _ _
    | createThread request base =>
      obtain ⟨slot, objects, freeSlots, created, table, empty, _⟩ :=
        krnl.createThread_eq ok.registry request base allowed
      simp only [Effect.apply, created, krnl.registry_tabledWith _ slot _ _ _ _ _ table]
      exact extends_tabling krnl.registry _ slot objects.length freeSlots _ _ empty (Nat.le_succ _)
    | spend identifiers handles => exact counted _ _ (Nat.le_add_right _ _)
    | close slot ptr => exact absurd rfl (opens slot ptr)
    | spawn stackTopReserve base =>
      simp only [Effect.apply, spawnReserved_eq krnl.sched _ _ _ allowed]
      exact counted _ _ (Nat.le_succ _)
    | _ => exact absurd rfl keeps

/-- A part of an object that one acquisition leaves alone is left alone by all. -/
theorem taken_part {β : Type} (krnl : XboxKrnl) (part : DispatcherObject → β)
    (kept : ∀ object, part (krnl.takeOne object) = part object) (count : Nat) (object : DispatcherObject) :
    part (krnl.takeOne^[count] object) = part object := by
  induction count with
  | zero => rfl
  | succ count inductionHypothesis => rw [Function.iterate_succ_apply', kept, inductionHypothesis]

/-- Taking an object changes no part of a thread. -/
theorem takeOne_thread (krnl : XboxKrnl) (object : DispatcherObject) :
    (krnl.takeOne object).thread = object.thread := by
  unfold takeOne
  split <;> (try split) <;> rfl

/-- A property that the change keeps where it is made holds everywhere. -/
theorem onlyAt_holds (holds : DispatcherObject → Prop) {target ptr : Ptr}
    {change : DispatcherObject → DispatcherObject} {object : DispatcherObject}
    (here : holds (change object)) (elsewhere : holds object) : holds (onlyAt target change ptr object) := by
  unfold onlyAt
  split
  · exact here
  · exact elsewhere

/-- No effect changes the shape of an object that stays. -/
theorem rewrite_shape (krnl : XboxKrnl) (effect : Effect) (ptr : Ptr) (object : DispatcherObject) :
    (effect.rewrite krnl ptr object).shape = object.shape := by
  have only : ∀ (target : Ptr) (change : DispatcherObject → DispatcherObject),
      (change object).shape = object.shape → (onlyAt target change ptr object).shape = object.shape :=
    fun target change same => onlyAt_holds (fun o => o.shape = object.shape) same rfl
  cases effect with
  | acquire mode ptrs status =>
    exact taken_part krnl DispatcherObject.shape krnl.takeOne_shape (ptrs.count ptr) object
  | suspendSelf target out reply => exact only target _ rfl
  | adjust target change => exact only target _ (by cases change <;> rfl)
  | setEvent target => exact only target _ rfl
  | pulseEvent target => exact only target _ rfl
  | releaseMutant target =>
    refine only target _ ?_
    split <;> rfl
  | releaseSemaphore target adjustment => exact only target _ rfl
  | resumeThread target => exact only target _ rfl
  | abandon target => exact only target _ rfl
  | wakeJoiner target => exact only target _ rfl
  | _ => rfl

/-- The effect that changes the thread part of an object, if there is one. -/
def adjusts : Effect → Option Ptr
  | .suspendSelf target _ _ => some target
  | .adjust target _ => some target
  | .resumeThread target => some target
  | _ => none

/-- The thread part of an object is changed by the effects that adjust it. -/
theorem rewrite_thread (krnl : XboxKrnl) {effect : Effect} {ptr : Ptr} (elsewhere : effect.adjusts ≠ some ptr)
    (object : DispatcherObject) : (effect.rewrite krnl ptr object).thread = object.thread := by
  have only : ∀ (target : Ptr) (change : DispatcherObject → DispatcherObject),
      (change object).thread = object.thread → (onlyAt target change ptr object).thread = object.thread :=
    fun target change here => onlyAt_holds (fun o => o.thread = object.thread) here rfl
  have other : ∀ (target : Ptr) (change : DispatcherObject → DispatcherObject), some target ≠ some ptr →
      (onlyAt target change ptr object).thread = object.thread := by
    intro target change different
    rw [onlyAt, if_neg (fun same => different (congrArg some same.symm))]
  cases effect with
  | acquire mode ptrs status =>
    exact taken_part krnl DispatcherObject.thread (takeOne_thread krnl) (ptrs.count ptr) object
  | suspendSelf target out reply => exact other target _ elsewhere
  | adjust target change => exact other target _ elsewhere
  | setEvent target => exact only target _ rfl
  | pulseEvent target => exact only target _ rfl
  | releaseMutant target =>
    refine only target _ ?_
    split <;> rfl
  | releaseSemaphore target adjustment => exact only target _ rfl
  | resumeThread target => exact other target _ elsewhere
  | abandon target => exact only target _ rfl
  | wakeJoiner target => exact only target _ rfl
  | _ => rfl

/-- Only the end of a thread stops its object. -/
theorem rewrite_running (krnl : XboxKrnl) {effect : Effect} {ptr : Ptr} (stays : effect ≠ .adjust ptr .stop)
    (object : DispatcherObject) :
    (effect.rewrite krnl ptr object).thread.running = object.thread.running := by
  by_cases here : effect.adjusts = some ptr
  · cases effect with
    | suspendSelf target out reply =>
      obtain rfl := Option.some.inj here
      simp [rewrite, onlyAt, Change.apply]
    | adjust target change =>
      obtain rfl := Option.some.inj here
      cases change with
      | stop => exact absurd rfl stays
      | _ => simp [rewrite, onlyAt, Change.apply, addWaiter, removeWaiter]
    | resumeThread target =>
      obtain rfl := Option.some.inj here
      simp [rewrite, onlyAt]
    | _ => cases here
  · rw [rewrite_thread krnl here]

/-- No effect starts a thread object again. -/
theorem rewrite_stopped (krnl : XboxKrnl) (effect : Effect) (ptr : Ptr) {object : DispatcherObject}
    (stopped : object.thread.running = false) : (effect.rewrite krnl ptr object).thread.running = false := by
  by_cases stops : effect = .adjust ptr .stop
  · subst stops
    simp [rewrite, onlyAt, Change.apply]
  · rw [rewrite_running krnl stops]
    exact stopped

/-- A live object that was there before is where it was. -/
theorem tabled_before (ok : krnl.Ok) {effect : Effect} (allowed : effect.Allowed krnl) {slot : Nat} {ptr : Ptr}
    {object : DispatcherObject} (live : krnl.object? ptr = some object)
    (tabled : (effect.apply krnl).registry.table slot = some ptr) : krnl.registry.table slot = some ptr := by
  by_cases closing : ∃ place target, effect = .close place target
  · obtain ⟨place, target, rfl⟩ := closing
    simp only [Effect.apply, registry_close, Registry.close, Function.update_apply] at tabled
    split at tabled
    · cases tabled
    · exact tabled
  · have extension := extends_apply ok allowed (fun place target same => closing ⟨place, target, same⟩)
    have nextOk := (effect.sound ok allowed).registry
    rcases ok.registry.owned ptr _ (krnl.shapes_eq _ _ live) with ⟨place, found⟩ | located | ⟨fiber, identity⟩
    · rw [nextOk.tabledOnce slot place ptr tabled (extension.table place ptr found)]
      exact found
    · exact absurd tabled ((nextOk.atAddress ptr (extension.addresses ptr located)).2 slot)
    · exact absurd tabled ((nextOk.identities fiber ptr (extension.identities _ identity)).2.2 slot)

/-- An object of the handle table that lives on stays where it is. -/
theorem tabled_after (ok : krnl.Ok) {effect : Effect} (allowed : effect.Allowed krnl) {slot : Nat} {ptr : Ptr}
    (tabled : krnl.registry.table slot = some ptr) {object : DispatcherObject}
    (live : (effect.apply krnl).object? ptr = some object) :
    (effect.apply krnl).registry.table slot = some ptr := by
  by_cases closing : ∃ place target, effect = .close place target
  · obtain ⟨place, target, rfl⟩ := closing
    have other : place ≠ slot := by
      rintro rfl
      have found : krnl.registry.table place = some target := allowed
      obtain rfl := Option.some.inj (found.symm.trans tabled)
      simp only [Effect.apply, krnl.object?_close, ↓reduceIte] at live
      cases live
    simp only [Effect.apply, registry_close, Registry.close]
    rw [Function.update_of_ne (Ne.symm other)]
    exact tabled
  · have extension := extends_apply ok allowed (fun place target same => closing ⟨place, target, same⟩)
    exact extension.table slot ptr tabled

/-- The thread object of a system thread was in the handle table before, or the
thread has just been created. -/
theorem tabledThread_origin (ok : krnl.Ok) {effect : Effect} (allowed : effect.Allowed krnl) {fiber : Nat}
    {ptr : Ptr} (tabled : (effect.apply krnl).TabledThread fiber ptr) :
    krnl.TabledThread fiber ptr ∨ ((∃ request base, effect = .createThread request base) ∧
      ptr = krnl.heap.length ∧ fiber = krnl.sched.nextHandle) := by
  obtain ⟨⟨slot, found⟩, object, live, kind, handle⟩ := tabled
  rcases object_origin ok allowed live with ⟨earlier, before, rfl⟩ | ⟨same, born⟩
  · have shape := effect.rewrite_shape krnl ptr earlier
    refine Or.inl ⟨⟨slot, tabled_before ok allowed before found⟩, earlier, before, ?_, ?_⟩
    · exact (DispatcherObject.kind_of_shape shape).symm.trans kind
    · rw [← handle]
      exact (congrArg (fun shape => shape.thread.schedHandle) shape).symm
  · right
    cases effect with
    | identify =>
      have nextOk := (Effect.identify.sound ok allowed).registry
      obtain ⟨_, absent, _⟩ := allowed
      have entry : (krnl.currentHandle, ptr) ∈ ((Effect.identify).apply krnl).registry.fiberThreads := by
        simp [Effect.apply, krnl.registry_identify _ absent, same]
      exact absurd found ((nextOk.identities _ _ entry).2.2 slot)
    | create made =>
      obtain rfl : object = { made with token := .object krnl.freshAddress } := born
      exact absurd kind allowed.1.1
    | install made =>
      obtain rfl : object = { made with token := .object krnl.freshAddress } := born
      exact absurd kind allowed.1
    | createThread request base =>
      obtain ⟨place, made⟩ := born
      refine ⟨⟨request, base, rfl⟩, same, ?_⟩
      rw [← handle, made]
      rfl
    | _ => exact born.elim

/-- The thread object of a system thread stays in the handle table until it is closed. -/
theorem tabledThread_apply (ok : krnl.Ok) {effect : Effect} (allowed : effect.Allowed krnl) {fiber : Nat}
    {ptr : Ptr} (opens : ∀ slot, effect ≠ .close slot ptr) (tabled : krnl.TabledThread fiber ptr) :
    (effect.apply krnl).TabledThread fiber ptr := by
  obtain ⟨⟨slot, found⟩, object, live, kind, handle⟩ := tabled
  rcases object_fate ok allowed live with later | ⟨place, closes⟩
  · have shape := effect.rewrite_shape krnl ptr object
    exact ⟨⟨slot, tabled_after ok allowed found later⟩, _, later, (DispatcherObject.kind_of_shape shape).trans kind,
      (congrArg (fun shape => shape.thread.schedHandle) shape).trans handle⟩
  · exact absurd closes (opens place)

/-! ## The running fiber -/

/-- The running fiber after an effect: none if it leaves, and moved on otherwise. -/
theorem currentFiber_apply (ok : krnl.Ok) {effect : Effect} (allowed : effect.Allowed krnl)
    (quiet : effect.label ≠ .loop) :
    (effect.apply krnl).currentFiber =
      if effect.leaves then none else krnl.currentFiber.map (effect.moves krnl) := by
  have current := (effect.leads ok allowed quiet).current
  unfold currentFiber
  rw [current]
  cases effect.leaves with
  | true => rfl
  | false =>
    simp only [Bool.false_eq_true, ↓reduceIte]
    cases switched : krnl.sched.current with
    | none => rfl
    | some index =>
      obtain ⟨fiber, found, _⟩ := ok.current index switched
      obtain ⟨after, later, ⟨_, moved⟩ | ⟨other, _⟩⟩ := fiber_fate ok allowed quiet found
      · simp [later, found, moved]
      · exact absurd switched other

/-- An effect that does not switch the running fiber out leaves it in guest code. -/
theorem moves_guest (krnl : XboxKrnl) (effect : Effect) (stays : effect.leaves = false) (fiber : Fiber)
    (guest : fiber.ctx.point = .guest) : (effect.moves krnl fiber).ctx.point = .guest := by
  cases effect <;> first | exact guest | rfl | cases stays

/-- Moving on keeps the handle. -/
theorem moves_handle (krnl : XboxKrnl) (effect : Effect) (fiber : Fiber) :
    (effect.moves krnl fiber).handle = fiber.handle := by
  cases effect <;> rfl

/-- Every effect outside the loop leads to a steady state. -/
theorem steady (steady : krnl.Steady) {effect : Effect} (allowed : effect.Allowed krnl)
    (quiet : effect.label ≠ .loop) : (effect.apply krnl).Steady := by
  refine ⟨effect.sound steady.ok allowed, fun after running => ?_⟩
  rw [currentFiber_apply steady.ok allowed quiet] at running
  split at running
  · cases running
  · rename_i stays
    obtain ⟨fiber, before, same⟩ := Option.map_eq_some_iff.mp running
    rw [← same]
    exact effect.moves_guest krnl (by simpa using stays) fiber (steady.guest fiber before)

/-- A fiber that does not leave runs on under its handle. -/
theorem currentHandle_apply (ok : krnl.Ok) {effect : Effect} (allowed : effect.Allowed krnl)
    (quiet : effect.label ≠ .loop) (stays : effect.leaves = false) :
    (effect.apply krnl).currentHandle = krnl.currentHandle := by
  rw [currentHandle_eq, currentHandle_eq, currentFiber_apply ok allowed quiet, stays]
  cases krnl.currentFiber with
  | none => rfl
  | some fiber => simp [effect.moves_handle]

end Effect

/-- So every path outside the loop leads to a steady state. -/
theorem Path.steady {labels : List Label} {krnl next : XboxKrnl} (path : Path labels krnl next)
    (start : krnl.Steady) (quiet : .loop ∉ labels) : next.Steady := by
  induction path with
  | refl => exact start
  | tail _ last inductionHypothesis =>
    obtain ⟨effect, labeled, allowed, rfl⟩ := last
    exact Effect.steady inductionHypothesis allowed (fun loop => quiet (loop ▸ labeled))

end SeriesxEmu
