import SeriesxEmu.Fibers
import SeriesxEmu.System
import Mathlib.Logic.Relation

/-!
# The effects kernel code is made of

Every action of the machine is a sequence of a few kinds of effects. An effect
carries the condition under which kernel code has it, so an invariant of the
machine is proved once for each effect and not once for each kernel call. The
conditions say what the code has checked just before: that an object is live,
that a wait is or is not satisfied, that a release is the caller's to make.
-/

namespace SeriesxEmu

open Scheduler GuestScheduler

/-- The identifier of the identity of a fiber; zero when it has none. -/
def Registry.tokenOf (registry : Registry) (fiber : Nat) : Nat :=
  (((registry.fiberThreads.find? (fun entry => entry.1 == fiber)).bind
    (fun entry => registry.shapes entry.2)).map (fun shape => shape.thread.threadId)).getD 0

/-- A change of one object that wakes nobody. -/
inductive Change where
  | register
  | unregister
  | clear
  | reset (type : Nat) (signaled : Bool)
  | suspend
  | priority (value : Int)
  | missingCore
  | stop

/-- An effect of kernel code. -/
inductive Effect where
  | compute (ram : XbeRam) (filetime : Nat)
  | deliver (reply : Reply)
  | ran (threadHandle : Nat)
  | consume (ptr : Ptr)
  | identify
  | acquire (mode : WaitMode) (ptrs : List Ptr) (status : Nat)
  | block (token : Token) (ticks : Nat) (point : Point)
  | suspendSelf (ptr : Ptr) (out : Nat) (reply : Reply)
  | adjust (ptr : Ptr) (change : Change)
  | setEvent (ptr : Ptr)
  | pulseEvent (ptr : Ptr)
  | releaseMutant (ptr : Ptr)
  | releaseSemaphore (ptr : Ptr) (adjustment : Int)
  | create (object : DispatcherObject)
  | install (object : DispatcherObject)
  | createThread (request : ThreadRequest) (base : Nat)
  | spend (identifiers handles : Nat)
  | close (slot : Nat) (ptr : Ptr)
  | resumeThread (ptr : Ptr)
  | enter
  | proceed
  | abandon (ptr : Ptr)
  | wakeJoiner (ptr : Ptr)
  | exit (code : Int)
  | leaveSection (va : Nat)
  | pause (state : State) (wakeTick joinTarget : Nat) (point : Point)
  | spawn (stackTopReserve base : Nat)
  | enterLoop
  | turn

namespace XboxKrnl

/-- The identifier of the identity of a fiber; zero when it has none. -/
def tokenOf (krnl : XboxKrnl) (fiber : Nat) : Nat := krnl.registry.tokenOf fiber

/-- `dispatcher_satisfied` as the given fiber evaluates it. -/
def satisfiedAs (krnl : XboxKrnl) (fiber : Nat) (ptr : Ptr) : Bool :=
  let object := krnl.object ptr
  match object.kind with
  | .event => object.event.signaled
  | .mutant => decide (0 < object.mutant.signalState) ||
      (object.mutant.owner != 0 && object.mutant.owner == krnl.tokenOf fiber)
  | .semaphore => decide (0 < object.semaphore.count)
  | .thread => !object.thread.running

/-- The status `dispatcher_acquire` returns to the caller. -/
def acquireStatus (krnl : XboxKrnl) (ptr : Ptr) : Nat :=
  let object := krnl.object ptr
  match object.kind with
  | .mutant =>
    if krnl.currentHandle = 0 then kStatusInvalidParameter
    else if object.mutant.abandoned then kStatusAbandoned else kStatusSuccess
  | _ => kStatusSuccess

/-- The status of a wait that acquires the objects. -/
def grantStatus (krnl : XboxKrnl) (mode : WaitMode) (ptrs : List Ptr) : Nat :=
  match mode with
  | .single => (ptrs.head?.map krnl.acquireStatus).getD kStatusSuccess
  | .any index =>
    if (ptrs.head?.map krnl.acquireStatus) = some kStatusAbandoned then kStatusAbandoned + index else index
  | .all => ((ptrs.findIdx? (fun ptr => krnl.acquireStatus ptr != kStatusSuccess)).map
      (kStatusAbandoned + ·)).getD kStatusSuccess

/-- The objects after the acquisition loop. -/
def taken (krnl : XboxKrnl) (ptrs : List Ptr) : XboxKrnl :=
  ptrs.foldl (fun krnl ptr => (krnl.dispatcherAcquire ptr).1) krnl

/-- The object can be named by a wait call: by handle or by guest address. -/
def Waitable (krnl : XboxKrnl) (ptr : Ptr) : Prop :=
  (∃ object, krnl.object? ptr = some object) ∧
    ((∃ slot, krnl.registry.table slot = some ptr) ∨ ptr ∈ krnl.vaObjects)

/-- The history entries that the creation of a handle-table object leaves. -/
def birth (krnl : XboxKrnl) (object : DispatcherObject) (ptr : Ptr) : List Event :=
  match object.kind with
  | .mutant => if object.mutant.owner = 0 then [] else [.owned krnl.currentHandle ptr]
  | .semaphore => [.counted ptr object.semaphore.count object.semaphore.limit]
  | _ => []

/-- The thread object and the fiber of an accepted `PsCreateSystemThreadEx`. -/
def createThread (krnl : XboxKrnl) (request : ThreadRequest) (base : Nat) : XboxKrnl :=
  let (sched, fiber) := krnl.sched.spawnReserved { body := .systhread none, point := .entry }
    request.tlsDataSize (some base)
  let object := newThread request krnl.nextThreadId
  let (allocated, ptr) := { krnl with sched, nextThreadId := krnl.nextThreadId + 2 }.allocate
    { object with thread := { object.thread with schedHandle := fiber } }
  let (inserted, handle) := allocated.insertObject ptr
  (inserted.modify ptr (fun o => { o with thread := { o.thread with objectHandle := handle } })).note
    (.created fiber (startInfo object.thread) (request.createSuspended % 2 == 1))

end XboxKrnl

namespace Change

/-- The change of one object. -/
def apply (krnl : XboxKrnl) : Change → DispatcherObject → DispatcherObject
  | .register => XboxKrnl.addWaiter (.multiWait krnl.currentHandle)
  | .unregister => XboxKrnl.removeWaiter (.multiWait krnl.currentHandle)
  | .clear => fun o => { o with event := { o.event with signaled := false } }
  | .reset type signaled => fun o => { o with event := { type, signaled } }
  | .suspend => fun o =>
    { o with thread := { o.thread with suspendCount := (o.thread.suspendCount + 1) % 2 ^ 32 } }
  | .priority value => fun o => { o with thread := { o.thread with basePriority := value } }
  | .missingCore => fun o => { o with thread := { o.thread with runnableMissingCore := true } }
  | .stop => fun o => { o with thread := { o.thread with running := false } }

/-- When kernel code makes the change to the object. -/
def Allowed (krnl : XboxKrnl) (ptr : Ptr) (object : DispatcherObject) : Change → Prop
  | .register => krnl.currentHandle ≠ 0
  | .unregister => krnl.currentHandle ≠ 0
  | .clear => object.kind = .event
  | .reset _ _ => object.kind = .event ∧ ptr ∈ krnl.vaObjects
  | .suspend => object.kind = .thread ∧ object.thread.running = false
  | .priority _ => object.kind = .thread
  | .missingCore => object.kind = .thread
  | .stop => object.kind = .thread ∧ object.thread.schedHandle = krnl.currentHandle

end Change

namespace Effect

open XboxKrnl

/-- The state after an effect. -/
def apply (krnl : XboxKrnl) : Effect → XboxKrnl
  | .compute ram filetime => { krnl with ram, filetime }
  | .deliver reply => krnl.note (.returned krnl.currentHandle reply)
  | .ran threadHandle => krnl.note (.ran krnl.currentHandle threadHandle (krnl.threadStartInfo threadHandle))
  | .consume ptr => krnl.note (.satisfied krnl.currentHandle .single [ptr] kStatusSuccess)
  | .identify => (krnl.ensureThreadObject krnl.currentHandle).1
  | .acquire mode ptrs status => (krnl.taken ptrs).noteSatisfied mode ptrs status
  | .block token ticks point => krnl.blockCurrent token ticks point
  | .suspendSelf ptr out reply =>
    (krnl.modify ptr (Change.apply krnl .suspend)).blockCurrent (krnl.object ptr).token kNoTimeout
      (.suspended ptr out (krnl.object ptr).thread.suspendCount reply)
  | .adjust ptr change => krnl.modify ptr (change.apply krnl)
  | .setEvent ptr => (krnl.keSetEventCore ptr).1
  | .pulseEvent ptr => krnl.pulseEvent ptr
  | .releaseMutant ptr => krnl.releaseMutant ptr
  | .releaseSemaphore ptr adjustment => krnl.releaseSemaphore ptr adjustment
  | .create object =>
    let (allocated, ptr) := krnl.allocate object
    { (allocated.insertObject ptr).1 with history := krnl.birth object ptr ++ krnl.history }
  | .install object =>
    let (allocated, ptr) := krnl.allocate object
    { allocated with vaObjects := allocated.vaObjects ++ [ptr] }
  | .createThread request base => krnl.createThread request base
  | .spend identifiers handles =>
    { krnl with
      nextThreadId := krnl.nextThreadId + identifiers
      sched := { krnl.sched with nextHandle := krnl.sched.nextHandle + handles } }
  | .close slot ptr => krnl.closeSlot slot ptr
  | .resumeThread ptr => krnl.resumeThread ptr
  | .enter => (krnl.setPoint .guest).setBody (.systhread (krnl.findThreadByFiber krnl.currentHandle))
  | .proceed => krnl.setPoint .guest
  | .abandon ptr => krnl.abandon (krnl.tokenOf krnl.currentHandle) ptr
  | .wakeJoiner ptr => krnl.wakeObject ptr 1
  | .exit code =>
    match krnl.sched.current with
    | none => krnl
    | some index =>
      ({ krnl with sched := (krnl.sched.modifyThread index (fun thread =>
        { thread with exitCode := code, state := .finished })).switchToScheduler }).note
          (.finished krnl.currentHandle)
  | .leaveSection va => (krnl.signal (.criticalSection va) false).1
  | .pause state wakeTick joinTarget point =>
    match krnl.sched.current with
    | none => krnl
    | some index =>
      { krnl with sched := (krnl.sched.modifyThread index (fun thread =>
        { thread with state, wakeTick, joinTarget, ctx := { thread.ctx with point } })).switchToScheduler }
  | .spawn stackTopReserve base =>
    { krnl with sched := (krnl.sched.spawnReserved { body := .native, point := .entry }
      stackTopReserve (some base)).1 }
  | .enterLoop => { krnl with sched := { krnl.sched with inLoop := true } }
  | .turn => { krnl with sched := krnl.sched.loopTurn.1 }

/-- The state of a kernel object when a creation call registers it. -/
def Newborn (krnl : XboxKrnl) (object : DispatcherObject) : Prop :=
  object.kind ≠ .thread ∧ object.mwWaiters = [] ∧
    (object.kind = .mutant → object.mutant.abandoned = false ∧
      ((object.mutant.signalState = 1 ∧ object.mutant.owner = 0) ∨
        (object.mutant.signalState = 0 ∧ object.mutant.owner ≠ 0 ∧
          object.mutant.owner = krnl.tokenOf krnl.currentHandle)))

/-- What a fiber that blocks has found out, by the point it will continue at. -/
def Blocks (krnl : XboxKrnl) (token : Token) : Point → Prop
  | .entry => False
  | .guest => False
  | .returning _ => token = .delay
  | .waitDispatch ptr _ => krnl.Waitable ptr ∧ token = (krnl.object ptr).token ∧
      krnl.satisfiedAs krnl.currentHandle ptr = false
  | .waitMultiple ptrs waitAll _ => token = .multiWait krnl.currentHandle ∧
      (∀ ptr ∈ ptrs, krnl.Waitable ptr) ∧
      (∀ ptr ∈ ptrs, krnl.satisfiedAs krnl.currentHandle ptr = false → token ∈ (krnl.object ptr).mwWaiters) ∧
      (if waitAll then ∃ ptr ∈ ptrs, krnl.satisfiedAs krnl.currentHandle ptr = false
        else ∀ ptr ∈ ptrs, krnl.satisfiedAs krnl.currentHandle ptr = false)
  | .parked => ∃ fiber self object, krnl.currentFiber = some fiber ∧
      fiber.ctx.body = .systhread (some self) ∧ krnl.object? self = some object ∧
      token = object.token ∧ 0 < object.thread.suspendCount
  | .suspended _ _ _ _ => False
  | .csEnter va => token = .criticalSection va

/-- When kernel code has the effect. -/
def Allowed (krnl : XboxKrnl) : Effect → Prop
  | .compute _ _ => True
  | .deliver _ => True
  | .ran threadHandle => ∃ fiber, krnl.currentFiber = some fiber ∧ fiber.ctx.point = .guest ∧
      threadHandle = (fiber.ctx.body.captured.map (fun ptr => (krnl.object ptr).thread.objectHandle)).getD 0
  | .consume ptr => ∃ object, krnl.object? ptr = some object ∧ object.kind = .event
  | .identify => krnl.currentHandle ≠ 0 ∧ krnl.fiberThread? krnl.currentHandle = none ∧
      ∃ fiber, krnl.currentFiber = some fiber ∧ fiber.ctx.point = .guest
  | .acquire mode ptrs status =>
    (∀ ptr ∈ ptrs, krnl.Waitable ptr ∧ krnl.satisfiedAs krnl.currentHandle ptr = true) ∧
      (∀ ptr ∈ ptrs, (krnl.object ptr).kind = .mutant → krnl.currentHandle ≠ 0 →
        ∃ self, krnl.fiberThread? krnl.currentHandle = some self) ∧
      status = krnl.grantStatus mode ptrs ∧ (mode ≠ .all → ∃ ptr, ptrs = [ptr])
  | .block token _ point => (∃ fiber, krnl.currentFiber = some fiber ∧ fiber.ctx.point = .guest) ∧
      Blocks krnl token point
  | .suspendSelf ptr _ _ => krnl.fiberThread? krnl.currentHandle = some ptr ∧
      ∃ fiber, krnl.currentFiber = some fiber ∧ fiber.ctx.point = .guest
  | .adjust ptr change => ∃ object, krnl.object? ptr = some object ∧ change.Allowed krnl ptr object
  | .setEvent ptr => ∃ object, krnl.object? ptr = some object ∧ object.kind = .event
  | .pulseEvent ptr => ∃ object, krnl.object? ptr = some object ∧ object.kind = .event
  | .releaseMutant ptr => ∃ object, krnl.object? ptr = some object ∧ object.kind = .mutant ∧
      (ptr ∈ krnl.vaObjects ∨
        (object.mutant.owner ≠ 0 ∧ object.mutant.owner = krnl.tokenOf krnl.currentHandle))
  | .releaseSemaphore ptr adjustment => ∃ object, krnl.object? ptr = some object ∧
      object.kind = .semaphore ∧ 0 < adjustment ∧ adjustment < 2 ^ 31 ∧
      object.semaphore.count ≤ object.semaphore.limit - adjustment
  | .create object => Newborn krnl object ∧ (object.kind = .semaphore →
      0 ≤ object.semaphore.count ∧ object.semaphore.count ≤ object.semaphore.limit)
  | .install object => Newborn krnl object
  | .createThread request _ => request.tlsDataSize ≤ kStackSize - kMinUsable
  | .spend _ _ => True
  | .close slot ptr => krnl.registry.table slot = some ptr
  | .resumeThread ptr => ∃ object, krnl.object? ptr = some object ∧ object.kind = .thread
  | .enter => ∃ fiber, krnl.currentFiber = some fiber ∧ fiber.ctx.point = .entry ∧
      fiber.ctx.body = .systhread none
  | .proceed => ∃ fiber, krnl.currentFiber = some fiber ∧
      (fiber.ctx.point = .entry → fiber.ctx.body = .native)
  | .abandon ptr => ∃ object, krnl.object? ptr = some object ∧ object.kind = .mutant ∧
      object.mutant.owner = krnl.tokenOf krnl.currentHandle ∧ object.mutant.owner ≠ 0
  | .wakeJoiner ptr => ∃ object, krnl.object? ptr = some object ∧ object.kind = .thread ∧
      object.thread.schedHandle = krnl.currentHandle
  | .exit _ => (∃ fiber, krnl.currentFiber = some fiber ∧ fiber.ctx.point = .guest) ∧
      ∀ ptr object, krnl.object? ptr = some object → object.kind = .mutant →
        object.mutant.owner ≠ 0 → object.mutant.owner ≠ krnl.tokenOf krnl.currentHandle
  | .leaveSection _ => True
  | .pause state _ _ point => (∃ fiber, krnl.currentFiber = some fiber ∧ fiber.ctx.point = .guest) ∧
      ((state = .ready ∧ ∃ reply, point = .returning reply) ∨
        ((state = .ready ∨ state = .sleeping ∨ state = .blockedJoin) ∧ point = .guest))
  | .spawn stackTopReserve _ => stackTopReserve ≤ kStackSize - kMinUsable
  | .enterLoop => krnl.sched.current = none
  | .turn => krnl.sched.current = none

end Effect

end SeriesxEmu
