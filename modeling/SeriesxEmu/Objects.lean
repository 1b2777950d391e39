import SeriesxEmu.Scheduler
import SeriesxEmu.XbeRam

/-!
# Dispatcher objects and their registries

Every waitable kernel object is one `DispatcherObject`. Objects live in a heap;
a pointer is the number of the allocation that made the object, so a pointer to
a freed object never denotes a later one. The address of an object is separate:
the host allocator chooses it, it may be one that was freed before, and it
differs from the address of every live object. A wait channel is made from the
address, not from the pointer.

Three registries own the objects: the handle table, the objects initialised at
a guest address, and the per-fiber identities made on first use. Handles and
thread identifiers are kept whole here, as unbounded naturals. The module `Words`
narrows them where the source does, and proves that the two machines agree as
long as what is given out fits in 32 bits.
-/

namespace SeriesxEmu

open Scheduler

/-- Wait channels by namespace. `encode` gives the 64-bit value of each: odd for an object, even and
below 2^33 for a critical section, and in one of the two high ranges for a multiple wait and the
delay. Host addresses have 47 bits and fiber handles 48, so two channels are equal exactly when
their values are. -/
inductive Token where
  | object (addr : Nat)
  | criticalSection (va : Nat)
  | multiWait (handle : Nat)
  | delay
deriving DecidableEq, Repr

/-- A fresh thread has `wait_token_` zero, which is the channel of address zero. -/
instance : Inhabited Token := ⟨.criticalSection 0⟩

/-- The base of the channels of multiple waits. -/
def kMwTokenBase : Nat := 0x51AC000000000000

/-- The channel of delays, which nobody signals. -/
def kDelayToken : Nat := 0x51AB000000000000

namespace Token

/-- `event_token`, `cs_token_of`, the multi-wait channel and the delay channel. -/
def encode : Token → Nat
  | .object addr => 2 * addr + 1
  | .criticalSection va => 2 * va
  | .multiWait handle => kMwTokenBase + handle
  | .delay => kDelayToken

end Token

/-- A pointer to a dispatcher object: the number of its allocation. -/
abbrev Ptr := Nat

/-- `DispatcherObject::Kind`. -/
inductive Kind where
  | event
  | mutant
  | semaphore
  | thread
deriving DecidableEq, Repr

/-- A manual-reset event. -/
def kEventNotify : Nat := 0

/-- An auto-reset event. -/
def kEventSync : Nat := 1

/-- The fields of an event. -/
structure EventPart where
  type : Nat := 0
  signaled : Bool := false
deriving DecidableEq, Repr

/-- `signalState` is one when free, zero when owned once and negative under
recursion. The field is an `int32_t`, and the machine of `Words` has no result
where it would overflow. -/
structure MutantPart where
  signalState : Int := 1
  owner : Nat := 0
  abandoned : Bool := false
deriving DecidableEq, Repr

/-- The fields of a semaphore. -/
structure SemaphorePart where
  count : Int := 0
  limit : Int := 0
deriving DecidableEq, Repr

/-- The fields of a thread object. Those for the start are copied when the thread is created. -/
structure ThreadPart where
  startRoutine : Nat := 0
  startContext : Nat := 0
  systemRoutine : Nat := 0
  kernelStackSize : Nat := 0
  tlsDataSize : Nat := 0
  schedHandle : Nat := 0
  objectHandle : Nat := 0
  threadId : Nat := 0
  suspendCount : Nat := 0
  basePriority : Int := 0
  running : Bool := false
  runnableMissingCore : Bool := false
deriving DecidableEq, Repr

/-- An object with the fields of all kinds, as in the source: its kind says which count. -/
structure DispatcherObject where
  kind : Kind := .event
  guestVa : Nat := 0
  token : Token := .object 0
  mwWaiters : List Token := []
  event : EventPart := {}
  mutant : MutantPart := {}
  semaphore : SemaphorePart := {}
  thread : ThreadPart := {}
deriving DecidableEq, Repr

instance : Inhabited DispatcherObject := ⟨{}⟩

/-- What a kernel call hands back: the value in EAX and the `ok` flag. -/
structure Reply where
  value : Nat
  ok : Bool := true
deriving DecidableEq, Repr

/-- The code a fiber runs: a function of the host program, or the body that
`PsCreateSystemThreadEx` gives its fiber, with the thread object that body has
captured (none before its first dispatch, or when it found none). -/
inductive Body where
  | native
  | systhread (self : Option Ptr)
deriving DecidableEq, Repr

/-- Where a fiber continues when it is switched in next. The object pointers are
those the suspended kernel code still holds. -/
inductive Point where
  | entry
  | guest
  | returning (reply : Reply)
  | waitDispatch (object : Ptr) (ticks : Nat)
  | waitMultiple (objects : List Ptr) (waitAll : Bool) (ticks : Nat)
  | parked
  | suspended (thread : Ptr) (previousOut previous : Nat) (reply : Reply)
  | csEnter (va : Nat)
deriving DecidableEq, Repr

/-- What a suspended fiber would find on its stack: its body, and where in the kernel it stands. -/
structure Context where
  body : Body
  point : Point
deriving DecidableEq, Repr

/-- A fiber of the kernel's scheduler. -/
abbrev Fiber := GuestThread Token Context

/-- `ThreadStartInfo`. -/
structure StartInfo where
  startRoutine : Nat
  startContext : Nat
  systemRoutine : Nat
  kernelStackSize : Nat
  tlsDataSize : Nat
deriving DecidableEq, Repr

/-- How a wait was satisfied: by a single wait, by the given index of a WaitAny
set, or by a whole WaitAll set. -/
inductive WaitMode where
  | single
  | any (index : Nat)
  | all
deriving DecidableEq, Repr

/-- One entry of the history. Fiber zero is the host. -/
inductive Event where
  /-- A wait of the fiber acquired the objects, in this order, and returned the status. -/
  | satisfied (fiber : Nat) (mode : WaitMode) (objects : List Ptr) (status : Nat)
  /-- A mutant was created with the fiber as its initial owner. -/
  | owned (fiber : Nat) (mutant : Ptr)
  /-- A semaphore was created with this initial count and this limit. -/
  | counted (semaphore : Ptr) (initial maximum : Int)
  /-- An accepted release of a mutant (one) or of a semaphore. -/
  | released (fiber : Nat) (object : Ptr) (count : Int)
  /-- The fiber has ended. -/
  | finished (fiber : Nat)
  /-- A system thread was created for the fiber, suspended or not, to start like this. -/
  | created (fiber : Nat) (start : StartInfo) (suspended : Bool)
  /-- A resume took the suspend count of the fiber's thread object from one to zero. -/
  | resumed (fiber : Nat)
  /-- The thread runner was called from the fiber with this thread handle, behind which
  it reads this start information. -/
  | ran (fiber : Nat) (threadHandle : Nat) (start : Option StartInfo)
  /-- A kernel call of the fiber returned. -/
  | returned (fiber : Nat) (reply : Reply)
deriving DecidableEq, Repr

/-- The kernel together with the scheduler and the memory it works on.

`addresses` is the host allocator's choice for each allocation in turn, and
`filetime` the host clock. `history` lists what has happened, newest first; no
function of the kernel reads it. -/
structure XboxKrnl where
  ram : XbeRam
  sched : GuestScheduler Token Context := {}
  heap : List (Option DispatcherObject) := []
  addresses : Nat → Nat := fun allocation => allocation
  objects : List (Option Ptr) := []
  freeSlots : List Nat := []
  vaObjects : List Ptr := []
  fiberThreads : List (Nat × Ptr) := []
  nextThreadId : Nat := 1
  threadRunner : Bool := true
  kernelDataVa : Nat := 0
  filetime : Nat := 0
  history : List Event := []

namespace XboxKrnl

/-- The object behind a pointer, or nothing when it has been freed. -/
def object? (krnl : XboxKrnl) (ptr : Ptr) : Option DispatcherObject := (krnl.heap[ptr]?).join

/-- The object behind a pointer that is known to be live. -/
def object (krnl : XboxKrnl) (ptr : Ptr) : DispatcherObject := (krnl.object? ptr).getD {}

/-- The object has not been destroyed. -/
def live (krnl : XboxKrnl) (ptr : Ptr) : Bool := (krnl.object? ptr).isSome

/-- An object is changed where it is. -/
def modify (krnl : XboxKrnl) (ptr : Ptr) (change : DispatcherObject → DispatcherObject) : XboxKrnl :=
  { krnl with heap := krnl.heap.modify ptr (Option.map change) }

/-- Some live object sits at the address. -/
def occupied (krnl : XboxKrnl) (addr : Nat) : Bool :=
  krnl.heap.any (fun cell => cell.any (fun object => object.token == .object addr))

/-- An address above those of all objects, for an allocator that repeats itself. -/
def spareAddress (krnl : XboxKrnl) : Nat :=
  krnl.heap.foldr (fun cell above =>
    match cell with
    | some object => max above (object.token.encode + 1)
    | none => above) 0

/-- The address of the next allocation: the allocator's choice, which is never
the address of a live object. -/
def freshAddress (krnl : XboxKrnl) : Nat :=
  let chosen := krnl.addresses krnl.heap.length
  if krnl.occupied chosen then krnl.spareAddress else chosen

/-- `make_unique` followed by `token = event_token(get())`. -/
def allocate (krnl : XboxKrnl) (object : DispatcherObject) : XboxKrnl × Ptr :=
  ({ krnl with heap := krnl.heap ++ [some { object with token := .object krnl.freshAddress }] },
    krnl.heap.length)

/-- An entry of the history. -/
def note (krnl : XboxKrnl) (event : Event) : XboxKrnl :=
  { krnl with history := event :: krnl.history }

/-- The handle of the running fiber, or zero. -/
def currentHandle (krnl : XboxKrnl) : Nat := krnl.sched.currentHandle

/-- A fiber runs, and not the host. -/
def inFiber (krnl : XboxKrnl) : Bool := krnl.currentHandle != 0

/-- The context of the fiber switched in; the host has none. -/
def currentFiber (krnl : XboxKrnl) : Option Fiber :=
  krnl.sched.current.bind (fun index => krnl.sched.threads[index]?)

/-- `sched_.signal`. -/
def signal (krnl : XboxKrnl) (token : Token) (all : Bool) : XboxKrnl × Nat :=
  let (sched, woken) := krnl.sched.signal token all
  ({ krnl with sched }, woken)

/-- `find_object_by_handle`: handles are four times the slot number plus four. -/
def findObjectByHandle (krnl : XboxKrnl) (handle : Nat) : Option Ptr :=
  if handle = 0 ∨ handle % 4 ≠ 0 then none else (krnl.objects[handle / 4 - 1]?).join

/-- `find_object_by_va`. -/
def findObjectByVa (krnl : XboxKrnl) (va : Nat) : Option Ptr :=
  krnl.vaObjects.find? (fun ptr => (krnl.object ptr).guestVa == va)

/-- `insert_object`. -/
def insertObject (krnl : XboxKrnl) (ptr : Ptr) : XboxKrnl × Nat :=
  match krnl.freeSlots.getLast? with
  | some slot =>
    ({ krnl with freeSlots := krnl.freeSlots.dropLast, objects := krnl.objects.set slot (some ptr) },
      4 * (slot + 1))
  | none =>
    ({ krnl with objects := krnl.objects ++ [some ptr] }, 4 * (krnl.objects.length + 1))

/-- The lookup in `fiber_threads_`. -/
def fiberThread? (krnl : XboxKrnl) (schedHandle : Nat) : Option Ptr :=
  (krnl.fiberThreads.find? (fun entry => entry.1 == schedHandle)).map Prod.snd

/-- `ensure_thread_object`: finds the identity of a fiber, or makes it with the next
identifier. The source stores 32 bits of the handle, as `inWords` does. -/
def ensureThreadObject (krnl : XboxKrnl) (schedHandle : Nat) : XboxKrnl × Ptr :=
  match krnl.fiberThread? schedHandle with
  | some ptr => (krnl, ptr)
  | none =>
    let (allocated, ptr) := krnl.allocate
      { kind := .thread, thread := { schedHandle, threadId := krnl.nextThreadId, running := true } }
    ({ allocated with
        nextThreadId := krnl.nextThreadId + 2
        fiberThreads := krnl.fiberThreads ++ [(schedHandle, ptr)] }, ptr)

/-- `find_thread_by_id`: the identities first, then the handle table, then the
objects at guest addresses. Identifiers are distinct, so the order inside a
registry does not matter. -/
def findThreadById (krnl : XboxKrnl) (threadId : Nat) : Option Ptr :=
  if threadId = 0 then none
  else
    let isThread := fun ptr =>
      (krnl.object ptr).kind == .thread && (krnl.object ptr).thread.threadId == threadId
    ((krnl.fiberThreads.map Prod.snd).find?
        (fun ptr => (krnl.object ptr).thread.threadId == threadId)).or
      (((krnl.objects.filterMap id).find? isThread).or (krnl.vaObjects.find? isThread))

/-- `find_thread_by_fiber`: the identity first, then the handle table. The callers
that narrow the handle before they look it up are in `Words`. -/
def findThreadByFiber (krnl : XboxKrnl) (schedHandle : Nat) : Option Ptr :=
  if schedHandle = 0 then none
  else
    ((krnl.fiberThread? schedHandle).filter
        (fun ptr => (krnl.object ptr).thread.schedHandle == schedHandle)).or
      ((krnl.objects.filterMap id).find? (fun ptr =>
        (krnl.object ptr).kind == .thread && (krnl.object ptr).thread.schedHandle == schedHandle))

/-- `current_thread_token`: makes the identity of the calling fiber on first use. -/
def currentThreadToken (krnl : XboxKrnl) : XboxKrnl × Nat :=
  if krnl.currentHandle = 0 then (krnl, 0)
  else
    let (identified, ptr) := krnl.ensureThreadObject krnl.currentHandle
    (identified, (identified.object ptr).thread.threadId)

end XboxKrnl

end SeriesxEmu
