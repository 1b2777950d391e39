import SeriesxEmu.MemMap
import Mathlib.Data.List.Count

/-!
# The asynchronous file queue

`IoQueue` copies slices of `Vfs` files into the memory map. Any number of clients
and one worker share the queue under a lock, so a critical section is one step; a
client whose `enqueue_wait` finds the queue full gives the lock up, and so does the
worker while it reads the file and writes the memory. Files and the layout of the
memory may change between any two steps.

The checks that `enqueue_common` makes before it takes the lock only ask for a
valid path and committed pages. A committed page stays committed, so they are made
here in the same step as the first critical section.
-/

namespace SeriesxEmu

/-! ## Files -/

/-- The 64 MB cap on a file. -/
def kMaxFile : Nat := 64 * 2 ^ 20

/-- `Vfs`: the files in the order they were created, by path. -/
structure Vfs where
  files : List (List Char × List UInt8) := []

namespace Vfs

/-- The text contains two dots in a row. -/
def twoDots : List Char → Bool
  | '.' :: '.' :: _ => true
  | _ :: rest => twoDots rest
  | [] => false

/-- `valid_path`: a drive `S`, `T` or `U`, a colon, a backslash and a nonempty rest. -/
def validPath : List Char → Bool
  | drive :: ':' :: '\\' :: rest =>
    (drive == 'S' || drive == 'T' || drive == 'U') && !rest.isEmpty && !twoDots rest &&
      rest.all (fun c => c != '\x00' && c != ':')
  | _ => false

/-- `find`. -/
def find (vfs : Vfs) (path : List Char) : Option (List UInt8) :=
  (vfs.files.find? (fun file => file.1 == path)).map Prod.snd

/-- `create_file`. -/
def createFile (vfs : Vfs) (path : List Char) (data : List UInt8) : Vfs × Bool :=
  if !validPath path || kMaxFile < data.length then (vfs, false)
  else if (vfs.find path).isSome then (vfs, false)
  else ({ files := vfs.files ++ [(path, data)] }, true)

/-- `write_file`. -/
def writeFile (vfs : Vfs) (path : List Char) (data : List UInt8) : Vfs × Bool :=
  if !validPath path || kMaxFile < data.length then (vfs, false)
  else
    match vfs.files.findIdx? (fun file => file.1 == path) with
    | some index => ({ files := vfs.files.set index (path, data) }, true)
    | none => ({ files := vfs.files ++ [(path, data)] }, true)

/-- `remove_file`. -/
def removeFile (vfs : Vfs) (path : List Char) : Vfs × Bool :=
  if !validPath path then (vfs, false)
  else ({ files := vfs.files.eraseP (fun file => file.1 == path) }, (vfs.find path).isSome)

/-- `read_slice`: the slice lies inside the file, or there is none. -/
def readSlice (vfs : Vfs) (path : List Char) (offset size : Nat) : Option (List UInt8) :=
  if !validPath path || size == 0 then none
  else
    match vfs.find path with
    | none => none
    | some data => if data.length < offset || data.length - offset < size then none
      else some ((data.drop offset).take size)

/-- The operations that change files. -/
inductive Op where
  | createFile (path : List Char) (data : List UInt8)
  | writeFile (path : List Char) (data : List UInt8)
  | removeFile (path : List Char)
deriving DecidableEq

/-- One operation on the files. -/
def exec (vfs : Vfs) : Op → Vfs × Bool
  | .createFile path data => vfs.createFile path data
  | .writeFile path data => vfs.writeFile path data
  | .removeFile path => vfs.removeFile path

end Vfs

/-! ## The queue -/

namespace IoQueue

/-- The status of a request. -/
inductive Status where
  | pending
  | inFlight
  | done
  | cancelled
  | error
deriving DecidableEq, Repr

/-- `IoQueue::Req`. -/
structure Req where
  path : List Char
  srcOffset : Nat
  size : Nat
  dest : Nat
  tag : Nat
  status : Status := .pending
deriving DecidableEq

/-- How many requests may be pending. -/
def kCapacity : Nat := 8

/-- How many pending requests open the gate. -/
def kAutoSubmit : Nat := kCapacity / 2

end IoQueue

open IoQueue

/-- What the lock protects. -/
structure IoQueue where
  reqs : List Req := []
  inFlight : Nat := 0
  submitted : Bool := false
  autoSubmit : Bool := true
  stopping : Bool := false

namespace IoQueue

/-- The request is pending. -/
def Req.isPending (req : Req) : Bool := req.status == .pending

/-- What `cancel` looks for. -/
def Req.pendingAs (tag : Nat) (req : Req) : Bool := req.tag == tag && req.status == .pending

/-- What the worker looks for when it has finished. -/
def Req.runningAs (tag : Nat) (req : Req) : Bool := req.tag == tag && req.status == .inFlight

/-- `pending_locked`. -/
def pendingLocked (queue : IoQueue) : Nat := queue.reqs.countP Req.isPending

/-- No slot is free. -/
def full (queue : IoQueue) : Bool := kCapacity ≤ queue.pendingLocked + queue.inFlight

/-- The loops that give the first request they look for a new status and stop there. -/
def setFirst (wanted : Req → Bool) (status : Status) : List Req → List Req
  | [] => []
  | req :: rest => if wanted req then { req with status } :: rest else req :: setFirst wanted status rest

/-- The end of `enqueue_common`: the request is stored as pending, and a backlog of half the
capacity opens the gate. -/
def push (queue : IoQueue) (req : Req) : IoQueue :=
  let reqs := queue.reqs ++ [{ req with status := .pending }]
  { queue with
    reqs
    submitted := queue.submitted || (queue.autoSubmit && kAutoSubmit ≤ reqs.countP Req.isPending) }

/-- `cancel`. -/
def cancel (queue : IoQueue) (tag : Nat) : IoQueue × Bool :=
  ({ queue with reqs := setFirst (Req.pendingAs tag) .cancelled queue.reqs }, queue.reqs.any (Req.pendingAs tag))

/-- `submit`. -/
def submit (queue : IoQueue) : IoQueue × Bool :=
  if queue.submitted || queue.pendingLocked == 0 then (queue, false) else ({ queue with submitted := true }, true)

/-- The condition that `wait_all` waits for. -/
def drained (queue : IoQueue) : Bool :=
  queue.inFlight == 0 && (!queue.submitted || queue.pendingLocked == 0)

/-- Where the worker is. It keeps its own copy of the request it has started. -/
inductive Worker where
  | waiting
  | reading (req : Req)
  | writing (req : Req) (data : List UInt8)
  | finishing (req : Req) (ok : Bool)
  | stopped
deriving DecidableEq

end IoQueue

/-- The queue with its worker, the callers that `enqueue_wait` has put to sleep, the
memory map and the files. -/
structure IoSystem where
  queue : IoQueue := {}
  worker : Worker := .waiting
  waiters : List Req := []
  mem : MemMap
  vfs : Vfs

namespace IoSystem

/-- `enqueue_common` up to its wait: the answer, or none when the caller goes to sleep. -/
def enqueueCommon (sys : IoSystem) (req : Req) (waitForSlot : Bool) : IoSystem × Option Bool :=
  if req.size == 0 || !Vfs.validPath req.path || !MemMap.inRange req.dest req.size ||
      !sys.mem.isCommitted req.dest req.size then (sys, some false)
  else if sys.queue.reqs.any (fun other => other.tag == req.tag) then (sys, some false)
  else if sys.queue.full then
    if waitForSlot then ({ sys with waiters := sys.waiters ++ [req] }, none) else (sys, some false)
  else ({ sys with queue := sys.queue.push req }, some true)

/-- A sleeping caller checks for a free slot again. There is no second look at the tags. -/
def wakeWaiter (sys : IoSystem) (index : Nat) : Option IoSystem :=
  match sys.waiters[index]? with
  | none => none
  | some req => if sys.queue.full then some sys
    else some { sys with queue := sys.queue.push req, waiters := sys.waiters.eraseIdx index }

/-- The worker takes the first pending request, or closes the gate when there is none. -/
def takeNext (sys : IoSystem) : IoSystem :=
  match sys.queue.reqs.find? Req.isPending with
  | none => { sys with queue := { sys.queue with submitted := false } }
  | some req =>
    { sys with
      queue := { sys.queue with
        reqs := setFirst Req.isPending .inFlight sys.queue.reqs
        inFlight := sys.queue.inFlight + 1 }
      worker := .reading { req with status := .inFlight } }

/-- The worker's last critical section for a request: its status, then the gate. -/
def finish (sys : IoSystem) (req : Req) (ok : Bool) : IoSystem :=
  let reqs := setFirst (Req.runningAs req.tag) (if ok then .done else .error) sys.queue.reqs
  { sys with
    queue := { sys.queue with
      reqs
      inFlight := sys.queue.inFlight - 1
      submitted := if reqs.countP Req.isPending = 0 then false else sys.queue.submitted }
    worker := .waiting }

/-- One step of `worker_main`: a critical section, the read or the write. There is none
while the gate is closed. -/
def workerStep (sys : IoSystem) : Option IoSystem :=
  match sys.worker with
  | .waiting =>
    if sys.queue.stopping then some { sys with worker := .stopped }
    else if sys.queue.submitted then some sys.takeNext
    else none
  | .reading req =>
    match sys.vfs.readSlice req.path req.srcOffset req.size with
    | some data => some { sys with worker := .writing req data }
    | none => some { sys with worker := .finishing req false }
  | .writing req data =>
    let (mem, ok) := sys.mem.writeBytes req.dest data
    some { sys with mem, worker := .finishing req ok }
  | .finishing req ok => some (sys.finish req ok)
  | .stopped => none

/-- What clients, the title and the worker can do next. `wake` is a sleeping caller,
`stop` the first half of the destructor. -/
inductive Action where
  | enqueue (path : List Char) (srcOffset size dest tag : Nat)
  | enqueueWait (path : List Char) (srcOffset size dest tag : Nat)
  | wake (index : Nat)
  | cancel (tag : Nat)
  | submit
  | setAutoSubmitEnabled (on : Bool)
  | stop
  | worker
  | files (op : Vfs.Op)
  | memory (op : MemMap.Op)
deriving DecidableEq

/-- One action, when it can be taken. -/
def step (sys : IoSystem) : Action → Option IoSystem
  | .enqueue path srcOffset size dest tag =>
    some (sys.enqueueCommon { path, srcOffset, size, dest, tag } false).1
  | .enqueueWait path srcOffset size dest tag =>
    some (sys.enqueueCommon { path, srcOffset, size, dest, tag } true).1
  | .wake index => sys.wakeWaiter index
  | .cancel tag => some { sys with queue := (sys.queue.cancel tag).1 }
  | .submit => some { sys with queue := sys.queue.submit.1 }
  | .setAutoSubmitEnabled on => some { sys with queue := { sys.queue with autoSubmit := on } }
  | .stop => some { sys with queue := { sys.queue with stopping := true } }
  | .worker => sys.workerStep
  | .files op => some { sys with vfs := (sys.vfs.exec op).1 }
  | .memory op => some { sys with mem := (sys.mem.exec op).1 }

end IoSystem

end SeriesxEmu
