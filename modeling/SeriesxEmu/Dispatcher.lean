import SeriesxEmu.Objects

/-!
# The wait core

Satisfied checks, acquisition, the single and the multiple wait, wake-ups and
thread termination. A wait is one function per stretch of kernel code between
two context switches: `waitDispatch` and `waitMultiple` run the loop of the
source from its head until the call returns or the fiber blocks, and the
`resume` functions run the code after `block_current` and enter the loop again.

The handlers keep raw object pointers across a switch. The functions here read
an object through a pointer that is live; the code that resumes a fiber checks
that before it calls them.
-/

namespace SeriesxEmu

open Scheduler

/-- `STATUS_SUCCESS`. -/
def kStatusSuccess : Nat := 0

/-- `STATUS_ABANDONED`. -/
def kStatusAbandoned : Nat := 0x80

/-- `STATUS_TIMEOUT`. -/
def kStatusTimeout : Nat := 0x102

/-- `STATUS_INVALID_PARAMETER`. -/
def kStatusInvalidParameter : Nat := 0xC000000D

/-- 32-bit address arithmetic. -/
def at32 (va offset : Nat) : Nat := (va + offset) % 2 ^ 32

/-- A 32-bit word read as a signed value. -/
def int32 (word : Nat) : Int :=
  if word % 2 ^ 32 < 2 ^ 31 then (word % 2 ^ 32 : Nat) else (word % 2 ^ 32 : Nat) - 2 ^ 32

/-- A 64-bit word read as a signed value. -/
def int64 (word : Nat) : Int :=
  if word % 2 ^ 64 < 2 ^ 63 then (word % 2 ^ 64 : Nat) else (word % 2 ^ 64 : Nat) - 2 ^ 64

/-- A signed value stored in a 32-bit word. -/
def uint32 (value : Int) : Nat := (value % 2 ^ 32).toNat

/-- `ceil_ms`, with the 64-bit sum and the 32-bit result of the source. -/
def ceilMs (units : Nat) : Nat := (units + 9999) % 2 ^ 64 / 10000 % 2 ^ 32

/-- `interval_to_ticks`: the `immediate` flag and the tick count. -/
def intervalToTicks (interval : Int) (now : Nat) : Bool × Nat :=
  if interval = 0 then (true, 0)
  else if 0 < interval then
    if interval.toNat ≤ now then (true, 0)
    else
      let ticks := ceilMs (interval.toNat - now)
      (ticks == 0, ticks)
  else
    let ticks := ceilMs (-interval).toNat
    (ticks == 0, ticks)

namespace DispatcherObject

/-- The `SignalState` field of the dispatcher header; thread objects have none. -/
def signalState (object : DispatcherObject) : Option Int :=
  match object.kind with
  | .event => some (if object.event.signaled then 1 else 0)
  | .mutant => some object.mutant.signalState
  | .semaphore => some object.semaphore.count
  | .thread => none

/-- The header's `Size` field, in units of eight bytes. -/
def headerSize (object : DispatcherObject) : Nat :=
  match object.kind with
  | .mutant => 4
  | .semaphore => 3
  | _ => 2

end DispatcherObject

/-- `write_dispatcher_header`: only objects at a guest address are mirrored. -/
def writeDispatcherHeader (ram : XbeRam) (object : DispatcherObject) : XbeRam :=
  if object.guestVa = 0 then ram
  else
    match object.signalState with
    | none => ram
    | some state =>
      let va := object.guestVa
      let headed := ((((ram.write32 va (object.headerSize * 2 ^ 16)).write32 (at32 va 4)
        (uint32 state)).write32 (at32 va 8) (at32 va 8)).write32 (at32 va 12) (at32 va 8))
      match object.kind with
      | .mutant =>
        let listed := (headed.write32 (at32 va 0x10) (at32 va 0x10)).write32 (at32 va 0x14) (at32 va 0x10)
        let ownedBy := listed.write32 (at32 va 0x18) object.mutant.owner
        (ownedBy.writeBytes (at32 va 0x1C) [if object.mutant.abandoned then 1 else 0]).1
      | .semaphore => headed.write32 (at32 va 0x10) (uint32 object.semaphore.limit)
      | _ => headed

/-- `write_signal_state`. -/
def writeSignalState (ram : XbeRam) (object : DispatcherObject) : XbeRam :=
  if object.guestVa = 0 then ram
  else
    match object.signalState with
    | none => ram
    | some state => ram.write32 (at32 object.guestVa 4) (uint32 state)

namespace XboxKrnl

/-- Mirror the current signal state of an object into guest memory. -/
def mirrorSignalState (krnl : XboxKrnl) (ptr : Ptr) : XboxKrnl :=
  { krnl with ram := writeSignalState krnl.ram (krnl.object ptr) }

/-- Mirror the whole header of an object into guest memory. -/
def mirrorHeader (krnl : XboxKrnl) (ptr : Ptr) : XboxKrnl :=
  { krnl with ram := writeDispatcherHeader krnl.ram (krnl.object ptr) }

/-- `block_current` from a fiber: the calling fiber is suspended at the given
point. Nothing happens in host context. -/
def blockCurrent (krnl : XboxKrnl) (token : Token) (ticks : Nat) (point : Point) : XboxKrnl :=
  match krnl.sched.current with
  | none => krnl
  | some index =>
    { krnl with sched := krnl.sched.threadBlock index token ticks (fun ctx => { ctx with point }) }

/-- `dispatcher_satisfied`. The ownership test of a mutant that is not free makes
the identity of the calling fiber. -/
def dispatcherSatisfied (krnl : XboxKrnl) (ptr : Ptr) : XboxKrnl × Bool :=
  let object := krnl.object ptr
  match object.kind with
  | .event => (krnl, object.event.signaled)
  | .mutant =>
    if 0 < object.mutant.signalState then (krnl, true)
    else if object.mutant.owner ≠ 0 then
      let (identified, token) := krnl.currentThreadToken
      (identified, object.mutant.owner == token)
    else (krnl, false)
  | .semaphore => (krnl, decide (0 < object.semaphore.count))
  | .thread => (krnl, !object.thread.running)

/-- The mutant as its new owner finds it. -/
def takeMutant (token : Nat) (object : DispatcherObject) : DispatcherObject :=
  { object with mutant :=
      { signalState := object.mutant.signalState - 1, owner := token, abandoned := false } }

/-- `dispatcher_acquire`. Only a fiber can own a mutant. -/
def dispatcherAcquire (krnl : XboxKrnl) (ptr : Ptr) : XboxKrnl × Nat :=
  let object := krnl.object ptr
  match object.kind with
  | .event =>
    if object.event.type = kEventSync then
      ((krnl.modify ptr (fun o => { o with event := { o.event with signaled := false } })).mirrorSignalState
        ptr, kStatusSuccess)
    else (krnl, kStatusSuccess)
  | .mutant =>
    let (identified, token) := krnl.currentThreadToken
    if token = 0 then (identified, kStatusInvalidParameter)
    else
      let taken := identified.modify ptr (takeMutant token)
      if object.mutant.abandoned then (taken.mirrorHeader ptr, kStatusAbandoned)
      else (taken.mirrorSignalState ptr, kStatusSuccess)
  | .semaphore =>
    ((krnl.modify ptr (fun o =>
      { o with semaphore := { o.semaphore with count := o.semaphore.count - 1 } })).mirrorSignalState
        ptr, kStatusSuccess)
  | .thread => (krnl, kStatusSuccess)

/-- The caller can consume the object: a mutant needs a fiber. -/
def acquirable (krnl : XboxKrnl) (ptr : Ptr) : Bool :=
  krnl.inFiber || (krnl.object ptr).kind != .mutant

/-- Record a satisfied wait of the calling context. -/
def noteSatisfied (krnl : XboxKrnl) (mode : WaitMode) (objects : List Ptr) (status : Nat) : XboxKrnl :=
  krnl.note (.satisfied krnl.currentHandle mode (objects.filter krnl.acquirable) status)

/-- `wait_dispatch` from the head of its loop: the status when it returns, and no
status when the fiber has blocked. -/
def waitDispatch (krnl : XboxKrnl) (ptr : Ptr) (immediate : Bool) (ticks : Nat) :
    XboxKrnl × Option Nat :=
  let (checked, satisfied) := krnl.dispatcherSatisfied ptr
  if satisfied then
    let (acquired, status) := checked.dispatcherAcquire ptr
    (acquired.noteSatisfied .single [ptr] status, some status)
  else if immediate then (checked, some kStatusTimeout)
  else if !checked.inFiber then (checked, some kStatusInvalidParameter)
  else
    (checked.blockCurrent (checked.object ptr).token ticks (.waitDispatch ptr ticks), none)

/-- `wait_dispatch` after `block_current`. A woken event wait is over; any other
woken wait evaluates its object again. -/
def resumeDispatch (krnl : XboxKrnl) (ptr : Ptr) (ticks : Nat) (woken : Bool) :
    XboxKrnl × Option Nat :=
  if !woken then (krnl, some kStatusTimeout)
  else if (krnl.object ptr).kind = .event then
    (krnl.noteSatisfied .single [ptr] kStatusSuccess, some kStatusSuccess)
  else krnl.waitDispatch ptr false ticks

/-- The check of a WaitAll set stops at the first unsatisfied object. -/
def allSatisfied : XboxKrnl → List Ptr → XboxKrnl × Bool
  | krnl, [] => (krnl, true)
  | krnl, ptr :: rest =>
    let (checked, satisfied) := krnl.dispatcherSatisfied ptr
    if satisfied then checked.allSatisfied rest else (checked, false)

/-- The acquisition loop of a WaitAll set, with the index of the next object and
the worst status so far. -/
def acquireAll : XboxKrnl → List Ptr → Nat → Nat → XboxKrnl × Nat
  | krnl, [], _, worst => (krnl, worst)
  | krnl, ptr :: rest, index, worst =>
    let (acquired, status) := krnl.dispatcherAcquire ptr
    acquired.acquireAll rest (index + 1)
      (if status ≠ kStatusSuccess ∧ worst = kStatusSuccess then kStatusAbandoned + index else worst)

/-- The scan of a WaitAny set: the first satisfied object with its index. -/
def firstSatisfied : XboxKrnl → List Ptr → Nat → XboxKrnl × Option (Nat × Ptr)
  | krnl, [], _ => (krnl, none)
  | krnl, ptr :: rest, index =>
    let (checked, satisfied) := krnl.dispatcherSatisfied ptr
    if satisfied then (checked, some (index, ptr)) else checked.firstSatisfied rest (index + 1)

/-- The object with one more waiter. -/
def addWaiter (token : Token) (object : DispatcherObject) : DispatcherObject :=
  { object with mwWaiters := object.mwWaiters ++ [token] }

/-- The object without a waiter. -/
def removeWaiter (token : Token) (object : DispatcherObject) : DispatcherObject :=
  { object with mwWaiters := object.mwWaiters.filter (· != token) }

/-- Register the multi-wait channel on every object that is not satisfied. -/
def registerWaiter (token : Token) : XboxKrnl → List Ptr → XboxKrnl
  | krnl, [] => krnl
  | krnl, ptr :: rest =>
    let (checked, satisfied) := krnl.dispatcherSatisfied ptr
    registerWaiter token (if satisfied then checked else checked.modify ptr (addWaiter token)) rest

/-- Remove the multi-wait channel from every object of the set. -/
def unregisterWaiter (krnl : XboxKrnl) (token : Token) (ptrs : List Ptr) : XboxKrnl :=
  ptrs.foldl (fun krnl ptr => krnl.modify ptr (removeWaiter token)) krnl

/-- The blocking end of the loop in `wait_multiple`. -/
def blockMultiple (krnl : XboxKrnl) (ptrs : List Ptr) (waitAll immediate : Bool) (ticks : Nat) :
    XboxKrnl × Option Nat :=
  if immediate then (krnl, some kStatusTimeout)
  else if !krnl.inFiber then (krnl, some kStatusInvalidParameter)
  else
    let token := Token.multiWait krnl.currentHandle
    ((registerWaiter token krnl ptrs).blockCurrent token ticks (.waitMultiple ptrs waitAll ticks), none)

/-- `wait_multiple` from the head of its loop. -/
def waitMultiple (krnl : XboxKrnl) (ptrs : List Ptr) (waitAll immediate : Bool) (ticks : Nat) :
    XboxKrnl × Option Nat :=
  if waitAll then
    let (checked, satisfied) := krnl.allSatisfied ptrs
    if satisfied then
      let (acquired, worst) := checked.acquireAll ptrs 0 kStatusSuccess
      (acquired.noteSatisfied .all ptrs worst, some worst)
    else checked.blockMultiple ptrs waitAll immediate ticks
  else
    match krnl.firstSatisfied ptrs 0 with
    | (checked, some (index, ptr)) =>
      let (acquired, status) := checked.dispatcherAcquire ptr
      let result := if status = kStatusAbandoned then kStatusAbandoned + index else index
      (acquired.noteSatisfied (.any index) [ptr] result, some result)
    | (checked, none) => checked.blockMultiple ptrs waitAll immediate ticks

/-- `wait_multiple` after `block_current`. -/
def resumeMultiple (krnl : XboxKrnl) (ptrs : List Ptr) (waitAll : Bool) (ticks : Nat) (woken : Bool) :
    XboxKrnl × Option Nat :=
  let unregistered := krnl.unregisterWaiter (.multiWait krnl.currentHandle) ptrs
  if !woken then (unregistered, some kStatusTimeout)
  else unregistered.waitMultiple ptrs waitAll false ticks

/-- Wake one single waiter for each unit, while there are any. -/
def signalUnits : XboxKrnl → Token → Nat → XboxKrnl
  | krnl, _, 0 => krnl
  | krnl, token, units + 1 =>
    match krnl.signal token false with
    | (unchanged, 0) => unchanged
    | (signaled, _) => signaled.signalUnits token units

/-- `wake_object`: single waiters by the unit, then every registered multi-waiter. -/
def wakeObject (krnl : XboxKrnl) (ptr : Ptr) (units : Nat) : XboxKrnl :=
  let signaled := krnl.signalUnits (krnl.object ptr).token units
  (krnl.object ptr).mwWaiters.foldl (fun krnl token => (krnl.signal token false).1)
    (signaled.modify ptr (fun o => { o with mwWaiters := [] }))

/-- The mutant as its exiting owner leaves it. -/
def abandonMutant (object : DispatcherObject) : DispatcherObject :=
  { object with mutant := { signalState := 1, owner := 0, abandoned := true } }

/-- The `abandon` step of `finish_thread_object`. -/
def abandon (token : Nat) (krnl : XboxKrnl) (ptr : Ptr) : XboxKrnl :=
  if (krnl.object ptr).kind = .mutant ∧ (krnl.object ptr).mutant.owner = token then
    ((krnl.modify ptr abandonMutant).mirrorSignalState ptr).wakeObject ptr 1
  else krnl

/-- The `running` flag is cleared: a terminated thread object is signaled. -/
def stopThread (krnl : XboxKrnl) (ptr : Ptr) : XboxKrnl :=
  krnl.modify ptr (fun o => { o with thread := { o.thread with running := false } })

/-- `finish_thread_object`. -/
def finishThreadObject (krnl : XboxKrnl) (ptr : Ptr) : XboxKrnl :=
  let token := (krnl.object ptr).thread.threadId
  ((krnl.objects.filterMap id ++ krnl.vaObjects).foldl (abandon token) (krnl.stopThread ptr)).wakeObject
    ptr 1

/-- `thread_finish` of the fiber switched in, with the kernel's finish hook as the
only observer. -/
def threadFinish (krnl : XboxKrnl) (code : Int) : XboxKrnl :=
  match krnl.sched.current with
  | none => krnl
  | some index =>
    let handle := krnl.currentHandle
    let ended := ({ krnl with sched := krnl.sched.modifyThread index (fun thread =>
      { thread with exitCode := code, state := .finished }) }).note (.finished handle)
    let observed :=
      match ended.findThreadByFiber handle with
      | some ptr => ended.finishThreadObject ptr
      | none => ended
    { observed with sched := observed.sched.switchToScheduler }

/-- Set the event's signal and mirror it. -/
def storeSignaled (krnl : XboxKrnl) (ptr : Ptr) (signaled : Bool) : XboxKrnl :=
  (krnl.modify ptr (fun o => { o with event := { o.event with signaled } })).mirrorSignalState ptr

/-- `ke_set_event`, with the previous state. -/
def keSetEventCore (krnl : XboxKrnl) (ptr : Ptr) : XboxKrnl × Nat :=
  let object := krnl.object ptr
  let previous := if object.event.signaled then 1 else 0
  let stored :=
    if object.event.type = kEventNotify then
      ((krnl.storeSignaled ptr true).signal object.token true).1
    else
      let (signaled, woken) := krnl.signal object.token false
      signaled.storeSignaled ptr (woken == 0)
  (stored.wakeObject ptr 0, previous)

/-- `ke_reset_event`, with the previous state. -/
def keResetEventCore (krnl : XboxKrnl) (ptr : Ptr) : XboxKrnl × Nat :=
  (krnl.storeSignaled ptr false, if (krnl.object ptr).event.signaled then 1 else 0)

/-- `read_timeout`: the `immediate` flag and the ticks, or nothing when the
interval cannot be read. -/
def readTimeout (krnl : XboxKrnl) (ptr : Nat) : Option (Bool × Nat) :=
  if ptr = 0 then some (false, kNoTimeout)
  else (krnl.ram.read64 ptr).map (fun word => intervalToTicks (int64 word) krnl.filetime)

/-- What `thread_start_info` reads from a thread object. -/
def startInfo (thread : ThreadPart) : StartInfo :=
  { startRoutine := thread.startRoutine, startContext := thread.startContext,
    systemRoutine := thread.systemRoutine, kernelStackSize := thread.kernelStackSize,
    tlsDataSize := thread.tlsDataSize }

/-- `thread_start_info`. -/
def threadStartInfo (krnl : XboxKrnl) (handle : Nat) : Option StartInfo :=
  match krnl.findObjectByHandle handle with
  | none => none
  | some ptr =>
    if (krnl.object ptr).kind ≠ .thread then none else some (startInfo (krnl.object ptr).thread)

end XboxKrnl

end SeriesxEmu
