import SeriesxEmu.Dispatcher

/-!
# The kernel calls on threads, dispatcher objects and critical sections

One constructor of `Call` for each export that touches the scheduler or a
dispatcher object, with its arguments in prototype order, and one function for
each case of the dispatch switch. An argument is the 32-bit word the guest
passes. The exports left out only read and write guest memory.
-/

namespace SeriesxEmu

open Scheduler

/-- The largest set of a multiple wait. -/
def kMaxWaitObjects : Nat := 64

/-- `LockCount` in an `RTL_CRITICAL_SECTION`. -/
def kCsLockCount : Nat := 0x10

/-- `RecursionCount`. -/
def kCsRecursion : Nat := 0x14

/-- `OwningThread`, a fiber handle. -/
def kCsOwningThread : Nat := 0x18

/-- The bytes of a section that the kernel uses. -/
def kCsSize : Nat := 0x1C

/-- The arguments of `PsCreateSystemThreadEx`, with the stack region the host maps
for the new fiber (none when the mapping fails). -/
structure ThreadRequest where
  threadHandle : Nat
  extensionSize : Nat := 0
  kernelStackSize : Nat := 0
  tlsDataSize : Nat := 0
  threadId : Nat := 0
  startRoutine : Nat
  startContext : Nat := 0
  createSuspended : Nat := 0
  debuggerThread : Nat := 0
  systemRoutine : Nat := 0
  region : Option Nat := some 0
deriving DecidableEq, Repr

/-- A call of an export on threads, objects or critical sections, with its arguments. -/
inductive Call where
  | keDelayExecutionThread (waitMode alertable interval : Nat)
  | keInitializeEvent (event type state : Nat)
  | keSetEvent (event increment wait : Nat)
  | keResetEvent (event : Nat)
  | keWaitForSingleObject (object reason mode alertable timeout : Nat)
  | ntCreateEvent (eventHandle attributes type state : Nat)
  | ntSetEvent (handle previousState : Nat)
  | ntClearEvent (handle : Nat)
  | ntPulseEvent (handle previousState : Nat)
  | ntWaitForSingleObject (handle alertable timeout : Nat)
  | ntWaitForSingleObjectEx (handle mode alertable timeout : Nat)
  | ntWaitForMultipleObjectsEx (count handles waitType mode alertable timeout : Nat)
  | ntCreateMutant (mutantHandle attributes initialOwner : Nat)
  | ntReleaseMutant (handle previousCount : Nat)
  | ntQueryMutant (handle information : Nat)
  | keInitializeMutant (mutant initialOwner : Nat)
  | keReleaseMutant (mutant increment abandoned wait : Nat)
  | ntCreateSemaphore (semaphoreHandle attributes initial maximum : Nat)
  | ntReleaseSemaphore (handle releaseCount previousCount : Nat)
  | ntQuerySemaphore (handle information : Nat)
  | keInitializeSemaphore (semaphore count limit : Nat)
  | keReleaseSemaphore (semaphore increment adjustment wait : Nat)
  | keGetCurrentThread
  | keSetBasePriorityThread (thread increment : Nat)
  | psCreateSystemThreadEx (request : ThreadRequest)
  | psTerminateSystemThread (exitStatus : Nat)
  | ntClose (handle : Nat)
  | ntResumeThread (handle previousSuspendCount : Nat)
  | keResumeThread (thread : Nat)
  | ntSuspendThread (handle previousSuspendCount : Nat)
  | keSuspendThread (thread : Nat)
  | ntYieldExecution
  | rtlInitializeCriticalSection (va : Nat)
  | rtlEnterCriticalSection (va : Nat)
  | rtlLeaveCriticalSection (va : Nat)
  | rtlTryEnterCriticalSection (va : Nat)
deriving DecidableEq, Repr

/-- `REJECT()`. -/
def reject : Reply := { value := kStatusInvalidParameter, ok := false }

/-- `VOID_FAIL()`. -/
def voidFail : Reply := { value := 0, ok := false }

/-- The reply of a call that has nothing else to say. -/
def success : Reply := { value := kStatusSuccess }

/-- The reply of a wait call: only an invalid parameter clears `ok`. -/
def waitReply (status : Nat) : Reply :=
  { value := status, ok := status != kStatusInvalidParameter }

namespace XboxKrnl

/-- `ram_.write32`. -/
def write32 (krnl : XboxKrnl) (va value : Nat) : XboxKrnl :=
  { krnl with ram := krnl.ram.write32 va value }

/-- An optional result: written only through a writable pointer. -/
def writeOut (krnl : XboxKrnl) (out value : Nat) : XboxKrnl :=
  if out ≠ 0 ∧ krnl.ram.writable out 4 then krnl.write32 out value else krnl

/-- `refresh_data`. -/
def refreshData (krnl : XboxKrnl) : XboxKrnl :=
  if krnl.kernelDataVa ≠ 0 then krnl.write32 (at32 krnl.kernelDataVa 8) (krnl.sched.tick % 2 ^ 32)
  else krnl

/-- A pool object of the handle table: allocate, insert, store the handle. -/
def createObject (krnl : XboxKrnl) (out : Nat) (object : DispatcherObject) : XboxKrnl × Ptr :=
  let (allocated, ptr) := krnl.allocate object
  let (inserted, handle) := allocated.insertObject ptr
  (inserted.write32 out handle, ptr)

/-- An object registered at a guest address, with its header written. -/
def registerObject (krnl : XboxKrnl) (object : DispatcherObject) : XboxKrnl :=
  let (allocated, ptr) := krnl.allocate object
  ({ allocated with vaObjects := allocated.vaObjects ++ [ptr] }).mirrorHeader ptr

/-- The live object of the given kind behind a handle. -/
def ofKind (krnl : XboxKrnl) (kind : Kind) (found : Option Ptr) : Option Ptr :=
  found.filter (fun ptr => (krnl.object ptr).kind == kind)

/-- `KeDelayExecutionThread`: an interval that has passed already is no reason to block. -/
def keDelayExecutionThread (krnl : XboxKrnl) (interval : Nat) : XboxKrnl × Option Reply :=
  let quad := if interval = 0 then some 0 else krnl.ram.read64 interval
  match quad with
  | none => (krnl, some reject)
  | some word =>
    let (immediate, ticks) := intervalToTicks (int64 word) krnl.filetime
    if immediate then (krnl, some success)
    else if !krnl.inFiber then (krnl, some reject)
    else (krnl.blockCurrent .delay ticks (.returning success), none)

/-- `KeInitializeEvent`: an event that is there already is initialised anew. -/
def keInitializeEvent (krnl : XboxKrnl) (va type state : Nat) : XboxKrnl × Reply :=
  if kEventSync < type then (krnl, reject)
  else if !krnl.ram.writable va 16 then (krnl, reject)
  else
    match krnl.findObjectByVa va with
    | some ptr =>
      if (krnl.object ptr).kind ≠ .event then (krnl, reject)
      else
        ((krnl.modify ptr (fun o => { o with event := { type, signaled := state % 2 == 1 } })).mirrorHeader
          ptr, { value := 0 })
    | none =>
      (krnl.registerObject { kind := .event, guestVa := va, event := { type, signaled := state % 2 == 1 } },
        { value := 0 })

/-- The three `Ke` calls on an event at a guest address share their lookup. -/
def keEvent (krnl : XboxKrnl) (va : Nat) (operation : XboxKrnl → Ptr → XboxKrnl × Nat) :
    XboxKrnl × Reply :=
  match krnl.ofKind .event (krnl.findObjectByVa va) with
  | none => (krnl, reject)
  | some ptr =>
    let (updated, previous) := operation krnl ptr
    (updated, { value := previous })

/-- `KeSetEvent`, which returns the previous state. -/
def keSetEvent (krnl : XboxKrnl) (va : Nat) : XboxKrnl × Reply := krnl.keEvent va keSetEventCore

/-- `KeResetEvent`. -/
def keResetEvent (krnl : XboxKrnl) (va : Nat) : XboxKrnl × Reply := krnl.keEvent va keResetEventCore

/-- The common end of the three single-wait calls. -/
def waitForSingle (krnl : XboxKrnl) (found : Option Ptr) (timeout : Nat) : XboxKrnl × Option Reply :=
  match found with
  | none => (krnl, some reject)
  | some ptr =>
    match krnl.readTimeout timeout with
    | none => (krnl, some reject)
    | some (immediate, ticks) =>
      let (waited, status) := krnl.waitDispatch ptr immediate ticks
      (waited, status.map waitReply)

/-- `KeWaitForSingleObject`, on a guest address. -/
def keWaitForSingleObject (krnl : XboxKrnl) (va timeout : Nat) : XboxKrnl × Option Reply :=
  krnl.waitForSingle (krnl.findObjectByVa va) timeout

/-- `NtWaitForSingleObject` and its `Ex` variant, on a handle. -/
def ntWaitForSingleObject (krnl : XboxKrnl) (handle timeout : Nat) : XboxKrnl × Option Reply :=
  krnl.waitForSingle (krnl.findObjectByHandle handle) timeout

/-- The handles of a multiple wait, looked up one after the other. -/
def readHandles (krnl : XboxKrnl) (array count : Nat) : Option (List Ptr) :=
  (List.range count).mapM (fun index => do
    let handle ← krnl.ram.read32 (at32 array (4 * index))
    krnl.findObjectByHandle handle)

/-- `NtWaitForMultipleObjectsEx`: every handle is looked up before the wait begins. -/
def ntWaitForMultipleObjectsEx (krnl : XboxKrnl) (count handles waitType timeout : Nat) :
    XboxKrnl × Option Reply :=
  if count = 0 ∨ kMaxWaitObjects < count then (krnl, some reject)
  else if !krnl.ram.readable handles (4 * count) then (krnl, some reject)
  else if 1 < waitType then (krnl, some reject)
  else
    match krnl.readTimeout timeout with
    | none => (krnl, some reject)
    | some (immediate, ticks) =>
      match krnl.readHandles handles count with
      | none => (krnl, some reject)
      | some ptrs =>
        let (waited, status) := krnl.waitMultiple ptrs (waitType == 0) immediate ticks
        (waited, status.map waitReply)

/-- `NtCreateEvent`. -/
def ntCreateEvent (krnl : XboxKrnl) (out type state : Nat) : XboxKrnl × Reply :=
  if kEventSync < type then (krnl, reject)
  else if !krnl.ram.writable out 4 then (krnl, reject)
  else
    ((krnl.createObject out { kind := .event, event := { type, signaled := state % 2 == 1 } }).1, success)

/-- `NtSetEvent`. -/
def ntSetEvent (krnl : XboxKrnl) (handle out : Nat) : XboxKrnl × Reply :=
  match krnl.ofKind .event (krnl.findObjectByHandle handle) with
  | none => (krnl, reject)
  | some ptr =>
    let (updated, previous) := krnl.keSetEventCore ptr
    (updated.writeOut out previous, success)

/-- `NtClearEvent`. -/
def ntClearEvent (krnl : XboxKrnl) (handle : Nat) : XboxKrnl × Reply :=
  match krnl.ofKind .event (krnl.findObjectByHandle handle) with
  | none => (krnl, reject)
  | some ptr => (krnl.storeSignaled ptr false, success)

/-- The pulse itself: release the waiters and leave the event reset. -/
def pulseEvent (krnl : XboxKrnl) (ptr : Ptr) : XboxKrnl :=
  let object := krnl.object ptr
  let released := (krnl.signal object.token (object.event.type == kEventNotify)).1
  (released.storeSignaled ptr false).wakeObject ptr 0

/-- `NtPulseEvent`. -/
def ntPulseEvent (krnl : XboxKrnl) (handle out : Nat) : XboxKrnl × Reply :=
  match krnl.ofKind .event (krnl.findObjectByHandle handle) with
  | none => (krnl, reject)
  | some ptr =>
    ((krnl.pulseEvent ptr).writeOut out (if (krnl.object ptr).event.signaled then 1 else 0), success)

/-- A mutant in the state the two creation calls give it. -/
def newMutant (guestVa : Nat) (owner : Option Nat) : DispatcherObject :=
  match owner with
  | some token => { kind := .mutant, guestVa, mutant := { signalState := 0, owner := token } }
  | none => { kind := .mutant, guestVa }

/-- `NtCreateMutant`. The identity of an initial owner is made before the mutant. -/
def ntCreateMutant (krnl : XboxKrnl) (out initialOwner : Nat) : XboxKrnl × Reply :=
  if !krnl.ram.writable out 4 then (krnl, reject)
  else if initialOwner % 2 = 1 then
    if !krnl.inFiber then (krnl, reject)
    else
      let (identified, token) := krnl.currentThreadToken
      let (created, ptr) := identified.createObject out (newMutant 0 (some token))
      (created.note (.owned created.currentHandle ptr), success)
  else ((krnl.createObject out (newMutant 0 none)).1, success)

/-- One release: the mutant is free again when its state becomes positive. -/
def putMutant (object : DispatcherObject) : DispatcherObject :=
  let state := object.mutant.signalState + 1
  { object with mutant :=
      { object.mutant with signalState := state, owner := if 0 < state then 0 else object.mutant.owner } }

/-- The release shared by both flavours. -/
def releaseMutant (krnl : XboxKrnl) (ptr : Ptr) : XboxKrnl :=
  let released := (krnl.modify ptr putMutant).note (.released krnl.currentHandle ptr 1)
  let woken :=
    if 0 < (krnl.object ptr).mutant.signalState + 1 then released.wakeObject ptr 1 else released
  woken.mirrorSignalState ptr

/-- `NtReleaseMutant`: only the owner may. -/
def ntReleaseMutant (krnl : XboxKrnl) (handle out : Nat) : XboxKrnl × Reply :=
  match krnl.ofKind .mutant (krnl.findObjectByHandle handle) with
  | none => (krnl, reject)
  | some ptr =>
    let (identified, self) := krnl.currentThreadToken
    let owner := (krnl.object ptr).mutant.owner
    if owner = 0 ∨ owner ≠ self then (identified, reject)
    else
      ((identified.releaseMutant ptr).writeOut out (uint32 (krnl.object ptr).mutant.signalState), success)

/-- `NtQueryMutant`: the count, whether the caller is the owner, and whether it was abandoned. -/
def ntQueryMutant (krnl : XboxKrnl) (handle information : Nat) : XboxKrnl × Reply :=
  match krnl.ofKind .mutant (krnl.findObjectByHandle handle) with
  | none => (krnl, reject)
  | some ptr =>
    if !krnl.ram.writable information 8 then (krnl, reject)
    else
      let mutant := (krnl.object ptr).mutant
      let (identified, owned) :=
        if mutant.owner ≠ 0 then
          let (identified, token) := krnl.currentThreadToken
          (identified, mutant.owner == token)
        else (krnl, false)
      let counted := identified.ram.write32 information (uint32 mutant.signalState)
      let marked := (counted.writeBytes (at32 information 4) [if owned then 1 else 0]).1
      let ram := (marked.writeBytes (at32 information 5) [if mutant.abandoned then 1 else 0]).1
      ({ identified with ram }, success)

/-- `KeInitializeMutant`. -/
def keInitializeMutant (krnl : XboxKrnl) (va initialOwner : Nat) : XboxKrnl × Reply :=
  if !krnl.ram.writable va 28 then (krnl, reject)
  else if initialOwner % 2 = 1 then
    if !krnl.inFiber then (krnl, reject)
    else
      let (identified, token) := krnl.currentThreadToken
      (identified.registerObject (newMutant va (some token)), { value := 0 })
  else (krnl.registerObject (newMutant va none), { value := 0 })

/-- The kernel flavour makes no ownership check. -/
def keReleaseMutant (krnl : XboxKrnl) (va : Nat) : XboxKrnl × Reply :=
  match krnl.ofKind .mutant (krnl.findObjectByVa va) with
  | none => (krnl, reject)
  | some ptr =>
    (krnl.releaseMutant ptr, { value := uint32 (krnl.object ptr).mutant.signalState })

/-- `NtCreateSemaphore`: a positive limit, and a count within it. -/
def ntCreateSemaphore (krnl : XboxKrnl) (out initial maximum : Nat) : XboxKrnl × Reply :=
  if !krnl.ram.writable out 4 then (krnl, reject)
  else if int32 maximum ≤ 0 ∨ int32 initial < 0 ∨ int32 maximum < int32 initial then (krnl, reject)
  else
    let (created, ptr) := krnl.createObject out
      { kind := .semaphore, semaphore := { count := int32 initial, limit := int32 maximum } }
    (created.note (.counted ptr (int32 initial) (int32 maximum)), success)

/-- An accepted release: the count grows, and up to that many waiters wake. -/
def releaseSemaphore (krnl : XboxKrnl) (ptr : Ptr) (adjustment : Int) : XboxKrnl :=
  let count := (krnl.object ptr).semaphore.count + adjustment
  let released := (krnl.modify ptr (fun o => { o with semaphore := { o.semaphore with count } })).note
    (.released krnl.currentHandle ptr adjustment)
  (released.wakeObject ptr (uint32 (min adjustment count))).mirrorSignalState ptr

/-- The checks and the release shared by both flavours: the previous count when
the release is accepted. -/
def adjustSemaphore (krnl : XboxKrnl) (found : Option Ptr) (word : Nat) : Option (XboxKrnl × Int) :=
  match krnl.ofKind .semaphore found with
  | none => none
  | some ptr =>
    let semaphore := (krnl.object ptr).semaphore
    if int32 word ≤ 0 then none
    else if semaphore.limit - int32 word < semaphore.count then none
    else some (krnl.releaseSemaphore ptr (int32 word), semaphore.count)

/-- What an accepted release does. -/
theorem adjustSemaphore_cases {krnl next : XboxKrnl} {found : Option Ptr} {word : Nat} {previous : Int}
    (adjusted : krnl.adjustSemaphore found word = some (next, previous)) :
    ∃ ptr, krnl.ofKind .semaphore found = some ptr ∧ 0 < int32 word ∧
      (krnl.object ptr).semaphore.count ≤ (krnl.object ptr).semaphore.limit - int32 word ∧
      next = krnl.releaseSemaphore ptr (int32 word) := by
  unfold adjustSemaphore at adjusted
  split at adjusted
  · cases adjusted
  · rename_i ptr isKind
    simp only at adjusted
    split at adjusted
    · cases adjusted
    · rename_i positive
      split at adjusted
      · cases adjusted
      · rename_i fits
        obtain ⟨rfl, _⟩ := Prod.mk.inj (Option.some.inj adjusted)
        exact ⟨ptr, isKind, Int.lt_of_not_ge positive, Int.le_of_not_gt fits, rfl⟩

/-- `NtReleaseSemaphore`. -/
def ntReleaseSemaphore (krnl : XboxKrnl) (handle releaseCount out : Nat) : XboxKrnl × Reply :=
  match krnl.adjustSemaphore (krnl.findObjectByHandle handle) releaseCount with
  | none => (krnl, reject)
  | some (released, previous) => (released.writeOut out (uint32 previous), success)

/-- `NtQuerySemaphore`: the count and the limit. -/
def ntQuerySemaphore (krnl : XboxKrnl) (handle information : Nat) : XboxKrnl × Reply :=
  match krnl.ofKind .semaphore (krnl.findObjectByHandle handle) with
  | none => (krnl, reject)
  | some ptr =>
    if !krnl.ram.writable information 8 then (krnl, reject)
    else
      let semaphore := (krnl.object ptr).semaphore
      let counted := krnl.write32 information (uint32 semaphore.count)
      (counted.write32 (at32 information 4) (uint32 semaphore.limit), success)

/-- `KeInitializeSemaphore`, without a check of its numbers. -/
def keInitializeSemaphore (krnl : XboxKrnl) (va count limit : Nat) : XboxKrnl × Reply :=
  if !krnl.ram.writable va 20 then (krnl, reject)
  else
    (krnl.registerObject
      { kind := .semaphore, guestVa := va, semaphore := { count := int32 count, limit := int32 limit } },
      { value := 0 })

/-- `KeReleaseSemaphore`, which returns the previous count. -/
def keReleaseSemaphore (krnl : XboxKrnl) (va adjustment : Nat) : XboxKrnl × Reply :=
  match krnl.adjustSemaphore (krnl.findObjectByVa va) adjustment with
  | none => (krnl, reject)
  | some (released, previous) => (released, { value := uint32 previous })

/-- `KeGetCurrentThread` returns the token of the caller. -/
def keGetCurrentThread (krnl : XboxKrnl) : XboxKrnl × Reply :=
  let (identified, token) := krnl.currentThreadToken
  (identified, { value := token })

/-- `KeSetBasePriorityThread` returns the previous priority. -/
def keSetBasePriorityThread (krnl : XboxKrnl) (thread increment : Nat) : XboxKrnl × Reply :=
  match krnl.findThreadById thread with
  | none => (krnl, reject)
  | some ptr =>
    (krnl.modify ptr (fun o => { o with thread := { o.thread with basePriority := int32 increment } }),
      { value := uint32 (krnl.object ptr).thread.basePriority })

/-- The thread object `PsCreateSystemThreadEx` fills in before it spawns. -/
def newThread (request : ThreadRequest) (threadId : Nat) : DispatcherObject :=
  { kind := .thread
    thread :=
      { startRoutine := request.startRoutine, startContext := request.startContext,
        systemRoutine := request.systemRoutine, kernelStackSize := request.kernelStackSize,
        tlsDataSize := request.tlsDataSize, suspendCount := request.createSuspended % 2, threadId,
        running := true } }

/-- A rejected spawn destroys the object again, but its identifier is spent. The fiber's
handle is stored whole; `inWords` keeps the 32 bits that the source keeps. -/
def psCreateSystemThreadEx (krnl : XboxKrnl) (request : ThreadRequest) : XboxKrnl × Reply :=
  if !krnl.ram.writable request.threadHandle 4 then (krnl, reject)
  else
    let (sched, fiber) := krnl.sched.spawnReserved { body := .systhread none, point := .entry }
      request.tlsDataSize request.region
    let spawned := { krnl with sched, nextThreadId := krnl.nextThreadId + 2 }
    if fiber = 0 then (spawned, reject)
    else
      let object := newThread request krnl.nextThreadId
      let (allocated, ptr) := spawned.allocate
        { object with thread := { object.thread with schedHandle := fiber } }
      let (inserted, handle) := allocated.insertObject ptr
      let filled := (inserted.modify ptr (fun o =>
        { o with thread := { o.thread with objectHandle := handle } })).note
          (.created fiber (startInfo object.thread) (request.createSuspended % 2 == 1))
      ((filled.write32 request.threadHandle handle).writeOut request.threadId handle, success)

/-- `PsTerminateSystemThread` does not return to a system thread. -/
def psTerminateSystemThread (krnl : XboxKrnl) (exitStatus : Nat) : XboxKrnl × Option Reply :=
  match krnl.findThreadByFiber krnl.currentHandle with
  | none => (krnl, some reject)
  | some ptr => ((krnl.finishThreadObject ptr).threadFinish (int32 exitStatus), none)

/-- The object is destroyed and its slot recycled. -/
def closeSlot (krnl : XboxKrnl) (slot : Nat) (ptr : Ptr) : XboxKrnl :=
  { krnl with
    heap := krnl.heap.set ptr none
    objects := krnl.objects.set slot none
    freeSlots := krnl.freeSlots ++ [slot] }

/-- `NtClose`. -/
def ntClose (krnl : XboxKrnl) (handle : Nat) : XboxKrnl × Reply :=
  match krnl.findObjectByHandle handle with
  | none => (krnl, reject)
  | some ptr => (krnl.closeSlot (handle / 4 - 1) ptr, success)

/-- Take one from a positive suspend count; the last one unparks the fiber. -/
def resumeThread (krnl : XboxKrnl) (ptr : Ptr) : XboxKrnl :=
  let count := (krnl.object ptr).thread.suspendCount
  if 0 < count then
    let lowered := krnl.modify ptr (fun o =>
      { o with thread := { o.thread with suspendCount := count - 1 } })
    if count - 1 = 0 then
      ((lowered.note (.resumed (krnl.object ptr).thread.schedHandle)).signal (krnl.object ptr).token
        false).1
    else lowered
  else krnl

/-- `NtResumeThread`, on a handle. -/
def ntResumeThread (krnl : XboxKrnl) (handle out : Nat) : XboxKrnl × Reply :=
  match krnl.ofKind .thread (krnl.findObjectByHandle handle) with
  | none => (krnl, reject)
  | some ptr => ((krnl.resumeThread ptr).writeOut out (krnl.object ptr).thread.suspendCount, success)

/-- `KeResumeThread`, on a token. -/
def keResumeThread (krnl : XboxKrnl) (thread : Nat) : XboxKrnl × Reply :=
  match krnl.ofKind .thread (krnl.findThreadById thread) with
  | none => (krnl, reject)
  | some ptr => (krnl.resumeThread ptr, { value := (krnl.object ptr).thread.suspendCount })

/-- Both suspend calls: a started fiber can only be suspended by itself. The
point is where a fiber that suspends itself continues. -/
def suspendThread (krnl : XboxKrnl) (found : Option Ptr) (point : Ptr → Nat → Point) :
    XboxKrnl × Option (Option Nat) :=
  match krnl.ofKind .thread found with
  | none => (krnl, none)
  | some ptr =>
    let (identified, self) := krnl.currentThreadToken
    let object := krnl.object ptr
    let isSelf := object.thread.threadId == self
    if !isSelf && object.thread.running && object.thread.schedHandle != 0 then (identified, none)
    else
      let previous := object.thread.suspendCount
      let raised := identified.modify ptr (fun o =>
        { o with thread := { o.thread with suspendCount := (previous + 1) % 2 ^ 32 } })
      if isSelf then (raised.blockCurrent object.token kNoTimeout (point ptr previous), some none)
      else (raised, some (some previous))

/-- `NtSuspendThread`, on a handle. A thread that suspends itself is answered when it is resumed. -/
def ntSuspendThread (krnl : XboxKrnl) (handle out : Nat) : XboxKrnl × Option Reply :=
  match krnl.suspendThread (krnl.findObjectByHandle handle)
      (fun ptr previous => .suspended ptr out previous success) with
  | (rejected, none) => (rejected, some reject)
  | (blocked, some none) => (blocked, none)
  | (raised, some (some previous)) => (raised.writeOut out previous, some success)

/-- `KeSuspendThread`, on a token. -/
def keSuspendThread (krnl : XboxKrnl) (thread : Nat) : XboxKrnl × Option Reply :=
  match krnl.suspendThread (krnl.findThreadById thread)
      (fun ptr previous => .suspended ptr 0 previous { value := previous }) with
  | (rejected, none) => (rejected, some reject)
  | (blocked, some none) => (blocked, none)
  | (raised, some (some previous)) => (raised, some { value := previous })

/-- `NtYieldExecution` yields the thread that is found under the caller's handle. -/
def ntYieldExecution (krnl : XboxKrnl) : XboxKrnl × Option Reply :=
  match krnl.sched.find krnl.currentHandle with
  | none => (krnl, some success)
  | some index =>
    ({ krnl with sched := krnl.sched.threadYield index (fun ctx => { ctx with point := .returning success }) },
      none)

/-- `cs_init`: the embedded event header, then the three fields. -/
def csInit (krnl : XboxKrnl) (va : Nat) : XboxKrnl × Reply :=
  if !krnl.ram.writable va kCsSize then (krnl, voidFail)
  else
    let ram := writeDispatcherHeader krnl.ram { kind := .event, guestVa := va }
    let counted := { krnl with ram }.write32 (at32 va kCsLockCount) (uint32 (-1))
    ((counted.write32 (at32 va kCsRecursion) 0).write32 (at32 va kCsOwningThread) 0, { value := 0 })

/-- The three fields of a critical section: lock count, recursion count, owner. -/
def csFields (krnl : XboxKrnl) (va : Nat) : Option (Int × Int × Nat) := do
  let lock ← krnl.ram.read32 (at32 va kCsLockCount)
  let recursion ← krnl.ram.read32 (at32 va kCsRecursion)
  let owner ← krnl.ram.read32 (at32 va kCsOwningThread)
  pure (int32 lock, int32 recursion, owner)

/-- `cs_enter` from the head of its loop. -/
def csEnter (krnl : XboxKrnl) (va : Nat) : XboxKrnl × Option Reply :=
  match krnl.csFields va with
  | none => (krnl, some voidFail)
  | some (lock, recursion, owner) =>
    let current := krnl.currentHandle
    if owner = current ∧ current ≠ 0 then
      (krnl.write32 (at32 va kCsRecursion) (uint32 (recursion + 1)), some { value := 0 })
    else if owner = 0 then
      ((krnl.write32 (at32 va kCsOwningThread) current).write32 (at32 va kCsRecursion) 1,
        some { value := 0 })
    else if !krnl.inFiber then (krnl, some voidFail)
    else
      let counted := krnl.write32 (at32 va kCsLockCount) (uint32 (lock + 1))
      (counted.blockCurrent (.criticalSection va) kNoTimeout (.csEnter va), none)

/-- `cs_leave`. -/
def csLeave (krnl : XboxKrnl) (va : Nat) : XboxKrnl × Reply :=
  match krnl.csFields va with
  | none => (krnl, voidFail)
  | some (lock, recursion, owner) =>
    if owner ≠ krnl.currentHandle then (krnl, voidFail)
    else if 1 < recursion then
      (krnl.write32 (at32 va kCsRecursion) (uint32 (recursion - 1)), { value := 0 })
    else
      let freed := (krnl.write32 (at32 va kCsOwningThread) 0).write32 (at32 va kCsRecursion) 0
      if 0 ≤ lock then
        let counted := freed.write32 (at32 va kCsLockCount) (uint32 (lock - 1))
        ((counted.signal (.criticalSection va) false).1, { value := 0 })
      else (freed, { value := 0 })

/-- `cs_try_enter`. -/
def csTryEnter (krnl : XboxKrnl) (va : Nat) : XboxKrnl × Reply :=
  match krnl.ram.read32 (at32 va kCsRecursion), krnl.ram.read32 (at32 va kCsOwningThread) with
  | some recursion, some owner =>
    let current := krnl.currentHandle
    if owner = current ∧ current ≠ 0 then
      (krnl.write32 (at32 va kCsRecursion) (uint32 (int32 recursion + 1)), { value := 1 })
    else if owner ≠ 0 then (krnl, { value := 0 })
    else
      ((krnl.write32 (at32 va kCsOwningThread) current).write32 (at32 va kCsRecursion) 1, { value := 1 })
  | _, _ => (krnl, { value := 0 })

/-- A call that always returns to its caller. -/
def returning (outcome : XboxKrnl × Reply) : XboxKrnl × Option Reply := (outcome.1, some outcome.2)

/-- The dispatch switch of `call` for decoded arguments: no reply when the calling
fiber has blocked or ended. -/
def exec (krnl : XboxKrnl) : Call → XboxKrnl × Option Reply
  | .keDelayExecutionThread _ _ interval => krnl.keDelayExecutionThread interval
  | .keInitializeEvent event type state => returning (krnl.keInitializeEvent event type state)
  | .keSetEvent event _ _ => returning (krnl.keSetEvent event)
  | .keResetEvent event => returning (krnl.keResetEvent event)
  | .keWaitForSingleObject object _ _ _ timeout => krnl.keWaitForSingleObject object timeout
  | .ntCreateEvent out _ type state => returning (krnl.ntCreateEvent out type state)
  | .ntSetEvent handle out => returning (krnl.ntSetEvent handle out)
  | .ntClearEvent handle => returning (krnl.ntClearEvent handle)
  | .ntPulseEvent handle out => returning (krnl.ntPulseEvent handle out)
  | .ntWaitForSingleObject handle _ timeout => krnl.ntWaitForSingleObject handle timeout
  | .ntWaitForSingleObjectEx handle _ _ timeout => krnl.ntWaitForSingleObject handle timeout
  | .ntWaitForMultipleObjectsEx count handles waitType _ _ timeout =>
    krnl.ntWaitForMultipleObjectsEx count handles waitType timeout
  | .ntCreateMutant out _ initialOwner => returning (krnl.ntCreateMutant out initialOwner)
  | .ntReleaseMutant handle out => returning (krnl.ntReleaseMutant handle out)
  | .ntQueryMutant handle information => returning (krnl.ntQueryMutant handle information)
  | .keInitializeMutant mutant initialOwner => returning (krnl.keInitializeMutant mutant initialOwner)
  | .keReleaseMutant mutant _ _ _ => returning (krnl.keReleaseMutant mutant)
  | .ntCreateSemaphore out _ initial maximum => returning (krnl.ntCreateSemaphore out initial maximum)
  | .ntReleaseSemaphore handle releaseCount out =>
    returning (krnl.ntReleaseSemaphore handle releaseCount out)
  | .ntQuerySemaphore handle information => returning (krnl.ntQuerySemaphore handle information)
  | .keInitializeSemaphore semaphore count limit =>
    returning (krnl.keInitializeSemaphore semaphore count limit)
  | .keReleaseSemaphore semaphore _ adjustment _ => returning (krnl.keReleaseSemaphore semaphore adjustment)
  | .keGetCurrentThread => returning krnl.keGetCurrentThread
  | .keSetBasePriorityThread thread increment => returning (krnl.keSetBasePriorityThread thread increment)
  | .psCreateSystemThreadEx request => returning (krnl.psCreateSystemThreadEx request)
  | .psTerminateSystemThread exitStatus => krnl.psTerminateSystemThread exitStatus
  | .ntClose handle => returning (krnl.ntClose handle)
  | .ntResumeThread handle out => returning (krnl.ntResumeThread handle out)
  | .keResumeThread thread => returning (krnl.keResumeThread thread)
  | .ntSuspendThread handle out => krnl.ntSuspendThread handle out
  | .keSuspendThread thread => krnl.keSuspendThread thread
  | .ntYieldExecution => krnl.ntYieldExecution
  | .rtlInitializeCriticalSection va => returning (krnl.csInit va)
  | .rtlEnterCriticalSection va => krnl.csEnter va
  | .rtlLeaveCriticalSection va => returning (krnl.csLeave va)
  | .rtlTryEnterCriticalSection va => returning (krnl.csTryEnter va)

end XboxKrnl

end SeriesxEmu
