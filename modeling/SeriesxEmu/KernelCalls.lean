import SeriesxEmu.System
import SeriesxEmu.ContiguousMemory
import SeriesxEmu.DebugPrint
import SeriesxEmu.Thunks
import SeriesxEmu.TimeFields

/-!
# The whole dispatch switch

`XboxKrnl::call` refreshes the tick counter, looks the ordinal up in the export table and switches on
it; each case first checks that it has enough arguments. A call is decoded here into a `Service`
with the arguments it reads. The calls on threads, dispatcher objects and critical sections are
those of `exec`; the others work on guest memory, on the pool of contiguous memory or on the debug
output, which `Kernel` adds to the state. The export table, the performance counter, the formatter
of the C library and the stack of a new fiber come from outside.
-/

namespace SeriesxEmu

open Scheduler

/-- The frequency that the title sees, in Hertz. -/
def kQpcFreq : Nat := 10000000

/-- What the kernel is given from outside. -/
structure Platform where
  findExport : Nat → Option Conv
  qpcNow : Nat
  printf : Host
  stackRegion : Option Nat

/-- The kernel with the members that only the other exports use. The sink of the debug output, when
there is one, is the list of the lines it has received. -/
structure Kernel where
  krnl : XboxKrnl
  mmLo : Nat := 0
  mmHi : Nat := 0
  memAllocs : List MemAlloc := []
  dbgSink : Option (List (List Char)) := none
  dbgLines : List (List Char) := []

/-- How a call leaves the kernel: without a reply when the calling fiber has blocked or ended. -/
structure Outcome where
  kernel : Kernel
  reply : Option Reply
  edx : Option Nat := none

/-! ## Exports that only touch guest memory -/

/-- `write64`: nothing is undone when the high part is refused. -/
def XbeRam.write64 (ram : XbeRam) (va value : Nat) : XbeRam × Bool :=
  match ram.writeBytes va (XbeRam.littleEndian value) with
  | (low, false) => (low, false)
  | (low, true) => low.writeBytes (at32 va 4) (XbeRam.littleEndian (value / 2 ^ 32))

/-- `memset` through a host pointer; there is no result when it faults. -/
def XbeRam.memset (ram : XbeRam) (addr : Nat) (byte : UInt8) (size : Nat) : Option XbeRam :=
  if ram.writable addr size then
    some { ram with bytes := fun address =>
      if addr ≤ address ∧ address < addr + size then byte else ram.bytes address }
  else none

/-- `memmove` between two host pointers; there is no result when it faults. -/
def XbeRam.memmove (ram : XbeRam) (destination source size : Nat) : Option XbeRam :=
  if ram.writable destination size ∧ ram.readable source size then
    some { ram with bytes := fun address =>
      if destination ≤ address ∧ address < destination + size then ram.bytes (source + (address - destination))
      else ram.bytes address }
  else none

/-- What the `Interlocked` exports share: the two checks, and the store of the word that the operation
makes of the old one, if it makes any. -/
def interlocked (ram : XbeRam) (va : Nat) (operation : Nat → Option Nat × Nat) : XbeRam × Reply :=
  match ram.read32 va with
  | none => (ram, reject)
  | some old =>
    if !ram.writable va 4 then (ram, reject)
    else
      let (word, value) := operation old
      ((word.map (ram.write32 va)).getD ram, { value })

/-- `InterlockedIncrement`. -/
def interlockedIncrement (ram : XbeRam) (addend : Nat) : XbeRam × Reply :=
  interlocked ram addend (fun old => (some ((old + 1) % 2 ^ 32), (old + 1) % 2 ^ 32))

/-- `InterlockedDecrement`. -/
def interlockedDecrement (ram : XbeRam) (addend : Nat) : XbeRam × Reply :=
  interlocked ram addend (fun old => (some ((old + 2 ^ 32 - 1) % 2 ^ 32), (old + 2 ^ 32 - 1) % 2 ^ 32))

/-- `InterlockedExchange`. -/
def interlockedExchange (ram : XbeRam) (target value : Nat) : XbeRam × Reply :=
  interlocked ram target (fun old => (some value, old))

/-- `InterlockedCompareExchange`. -/
def interlockedCompareExchange (ram : XbeRam) (dest exchange comparand : Nat) : XbeRam × Reply :=
  interlocked ram dest (fun old => (if old = comparand then some exchange else none, old))

/-- `InterlockedExchangeAdd`. -/
def interlockedExchangeAdd (ram : XbeRam) (addend increment : Nat) : XbeRam × Reply :=
  interlocked ram addend (fun old => (some ((old + increment) % 2 ^ 32), old))

/-- `KeQuerySystemTime`. -/
def keQuerySystemTime (ram : XbeRam) (filetime currentTime : Nat) : XbeRam × Reply :=
  match ram.write64 currentTime filetime with
  | (written, true) => (written, { value := 0 })
  | (written, false) => (written, reject)

/-- The two fill exports; no result when the fill faults. -/
def rtlFill (ram : XbeRam) (destination length : Nat) (byte : UInt8) : Option (XbeRam × Reply) :=
  if length = 0 then some (ram, { value := 0 })
  else if !ram.writable destination length then some (ram, reject)
  else
    match ram.hostPtr destination with
    | none => some (ram, { value := 0 })
    | some addr => (ram.memset addr byte length).map (fun filled => (filled, { value := 0 }))

/-- `RtlZeroMemory`. -/
def rtlZeroMemory (ram : XbeRam) (destination length : Nat) : Option (XbeRam × Reply) :=
  rtlFill ram destination length 0

/-- `RtlFillMemory`. -/
def rtlFillMemory (ram : XbeRam) (destination length fill : Nat) : Option (XbeRam × Reply) :=
  rtlFill ram destination length (UInt8.ofNat fill)

/-- No result when the copy faults, or when a host pointer is null. -/
def rtlMoveMemory (ram : XbeRam) (destination source length : Nat) : Option (XbeRam × Reply) :=
  if length = 0 then some (ram, { value := 0 })
  else if !ram.writable destination length || !ram.readable source length then some (ram, reject)
  else
    match ram.hostPtr destination, ram.hostPtr source with
    | some into, some origin => (ram.memmove into origin length).map (fun moved => (moved, { value := 0 }))
    | _, _ => none

/-! ## Decoding -/

/-- An export with the arguments it reads. -/
inductive Service where
  | dbgBreakPoint
  | dbgPrint (args : List Nat)
  | interlockedIncrement (addend : Nat)
  | interlockedDecrement (addend : Nat)
  | interlockedExchange (target value : Nat)
  | interlockedCompareExchange (dest exchange comparand : Nat)
  | interlockedExchangeAdd (addend increment : Nat)
  | keQueryPerformanceCounter
  | keQueryPerformanceFrequency
  | keQuerySystemTime (currentTime : Nat)
  | rtlTimeToTimeFields (time timeFields : Nat)
  | mmAllocateContiguousMemory (numberOfBytes : Nat)
  | mmAllocateContiguousMemoryEx (numberOfBytes lowest highest alignment protect : Nat)
  | mmFreeContiguousMemory (baseAddress : Nat)
  | mmQueryAllocationSize (baseAddress : Nat)
  | rtlZeroMemory (destination length : Nat)
  | rtlFillMemory (destination length fill : Nat)
  | rtlMoveMemory (destination source length : Nat)
  | dispatcher (call : Call)

/-- The switch up to the argument checks: nothing for an ordinal without a case, and nothing when `NEED`
fails. -/
def Service.select (platform : Platform) (ordinal : Nat) (args : List Nat) : Option Service :=
  let arg := fun index => args.getD index 0
  let need := fun count (service : Service) => if args.length < count then none else some service
  match ordinal with
  | 5 => some .dbgBreakPoint
  | 8 => need 1 (.dbgPrint args)
  | 53 => need 1 (.interlockedIncrement (arg 0))
  | 52 => need 1 (.interlockedDecrement (arg 0))
  | 54 => need 2 (.interlockedExchange (arg 0) (arg 1))
  | 51 => need 3 (.interlockedCompareExchange (arg 0) (arg 1) (arg 2))
  | 55 => need 2 (.interlockedExchangeAdd (arg 0) (arg 1))
  | 126 => some .keQueryPerformanceCounter
  | 127 => some .keQueryPerformanceFrequency
  | 128 => need 1 (.keQuerySystemTime (arg 0))
  | 99 => need 3 (.dispatcher (.keDelayExecutionThread (arg 0) (arg 1) (arg 2)))
  | 305 => need 2 (.rtlTimeToTimeFields (arg 0) (arg 1))
  | 108 => need 3 (.dispatcher (.keInitializeEvent (arg 0) (arg 1) (arg 2)))
  | 145 => need 3 (.dispatcher (.keSetEvent (arg 0) (arg 1) (arg 2)))
  | 138 => need 1 (.dispatcher (.keResetEvent (arg 0)))
  | 159 => need 5 (.dispatcher (.keWaitForSingleObject (arg 0) (arg 1) (arg 2) (arg 3) (arg 4)))
  | 189 => need 4 (.dispatcher (.ntCreateEvent (arg 0) (arg 1) (arg 2) (arg 3)))
  | 225 => need 2 (.dispatcher (.ntSetEvent (arg 0) (arg 1)))
  | 186 => need 1 (.dispatcher (.ntClearEvent (arg 0)))
  | 205 => need 2 (.dispatcher (.ntPulseEvent (arg 0) (arg 1)))
  | 233 => need 3 (.dispatcher (.ntWaitForSingleObject (arg 0) (arg 1) (arg 2)))
  | 234 => need 4 (.dispatcher (.ntWaitForSingleObjectEx (arg 0) (arg 1) (arg 2) (arg 3)))
  | 235 => need 6 (.dispatcher
      (.ntWaitForMultipleObjectsEx (arg 0) (arg 1) (arg 2) (arg 3) (arg 4) (arg 5)))
  | 192 => need 3 (.dispatcher (.ntCreateMutant (arg 0) (arg 1) (arg 2)))
  | 221 => need 2 (.dispatcher (.ntReleaseMutant (arg 0) (arg 1)))
  | 213 => need 2 (.dispatcher (.ntQueryMutant (arg 0) (arg 1)))
  | 110 => need 2 (.dispatcher (.keInitializeMutant (arg 0) (arg 1)))
  | 131 => need 4 (.dispatcher (.keReleaseMutant (arg 0) (arg 1) (arg 2) (arg 3)))
  | 193 => need 4 (.dispatcher (.ntCreateSemaphore (arg 0) (arg 1) (arg 2) (arg 3)))
  | 222 => need 3 (.dispatcher (.ntReleaseSemaphore (arg 0) (arg 1) (arg 2)))
  | 214 => need 2 (.dispatcher (.ntQuerySemaphore (arg 0) (arg 1)))
  | 112 => need 3 (.dispatcher (.keInitializeSemaphore (arg 0) (arg 1) (arg 2)))
  | 132 => need 4 (.dispatcher (.keReleaseSemaphore (arg 0) (arg 1) (arg 2) (arg 3)))
  | 104 => some (.dispatcher .keGetCurrentThread)
  | 143 => need 2 (.dispatcher (.keSetBasePriorityThread (arg 0) (arg 1)))
  | 255 => need 10 (.dispatcher (.psCreateSystemThreadEx
      { threadHandle := arg 0, extensionSize := arg 1, kernelStackSize := arg 2, tlsDataSize := arg 3,
        threadId := arg 4, startRoutine := arg 5, startContext := arg 6, createSuspended := arg 7,
        debuggerThread := arg 8, systemRoutine := arg 9, region := platform.stackRegion }))
  | 258 => need 1 (.dispatcher (.psTerminateSystemThread (arg 0)))
  | 187 => need 1 (.dispatcher (.ntClose (arg 0)))
  | 224 => need 2 (.dispatcher (.ntResumeThread (arg 0) (arg 1)))
  | 140 => need 1 (.dispatcher (.keResumeThread (arg 0)))
  | 231 => need 2 (.dispatcher (.ntSuspendThread (arg 0) (arg 1)))
  | 152 => need 1 (.dispatcher (.keSuspendThread (arg 0)))
  | 238 => some (.dispatcher .ntYieldExecution)
  | 165 => need 1 (.mmAllocateContiguousMemory (arg 0))
  | 166 => need 5 (.mmAllocateContiguousMemoryEx (arg 0) (arg 1) (arg 2) (arg 3) (arg 4))
  | 171 => need 1 (.mmFreeContiguousMemory (arg 0))
  | 180 => need 1 (.mmQueryAllocationSize (arg 0))
  | 320 => need 2 (.rtlZeroMemory (arg 0) (arg 1))
  | 284 => need 3 (.rtlFillMemory (arg 0) (arg 1) (arg 2))
  | 298 => need 3 (.rtlMoveMemory (arg 0) (arg 1) (arg 2))
  | 291 => need 1 (.dispatcher (.rtlInitializeCriticalSection (arg 0)))
  | 277 => need 1 (.dispatcher (.rtlEnterCriticalSection (arg 0)))
  | 294 => need 1 (.dispatcher (.rtlLeaveCriticalSection (arg 0)))
  | 306 => need 1 (.dispatcher (.rtlTryEnterCriticalSection (arg 0)))
  | _ => none

/-- The export table comes first: only a function is called. -/
def Service.decode (platform : Platform) (ordinal : Nat) (args : List Nat) : Option Service :=
  match platform.findExport ordinal with
  | none | some .data => none
  | some _ => select platform ordinal args

/-! ## Suspended calls -/

/-- The points of a fiber that is in a kernel call. -/
def Point.inCall : Point → Bool
  | .entry | .guest | .parked => false
  | _ => true

/-- The rest of a kernel call whose fiber is switched in again, up to its reply or to where the fiber
blocks once more. There is no result where `resume` has none, or outside a call. -/
def XboxKrnl.continueCall (krnl : XboxKrnl) (woken : Bool) : Point → Option (XboxKrnl × Option Reply)
  | .entry | .guest | .parked => none
  | .returning reply => some (krnl, some reply)
  | .waitDispatch ptr ticks =>
    if woken && !krnl.live ptr then none
    else
      let (resumed, status) := krnl.resumeDispatch ptr ticks woken
      some (resumed, status.map waitReply)
  | .waitMultiple ptrs waitAll ticks =>
    if !ptrs.all krnl.live then none
    else
      let (resumed, status) := krnl.resumeMultiple ptrs waitAll ticks woken
      some (resumed, status.map waitReply)
  | .suspended _ out previous reply => some (krnl.writeOut out previous, some reply)
  | .csEnter va => some (krnl.csEnter va)

/-- That is what `resume` does with a fiber that is in a call. -/
theorem XboxKrnl.resume_eq {krnl : XboxKrnl} {fiber : Fiber} (running : krnl.currentFiber = some fiber)
    (inCall : fiber.ctx.point.inCall = true) :
    krnl.resume = ((krnl.setPoint .guest).continueCall (!fiber.waitTimedOut) fiber.ctx.point).map
      (fun (after, reply) => after.deliver reply) := by
  unfold resume
  rw [running]
  cases point : fiber.ctx.point with
  | entry | guest | parked =>
    rw [point] at inCall
    cases inCall
  | returning reply | suspended thread out previous reply | csEnter va =>
    simp only [continueCall, point, Option.map_some]
  | waitDispatch ptr ticks | waitMultiple ptrs waitAll ticks =>
    simp only [continueCall, point]
    split <;> rfl

/-! ## The switch -/

namespace Kernel

/-- A line of debug output goes to the sink, or to `dbg_lines_` when there is none. -/
def record (kernel : Kernel) (line : List Char) : Kernel :=
  match kernel.dbgSink with
  | some received => { kernel with dbgSink := some (received ++ [line]) }
  | none => { kernel with dbgLines := kernel.dbgLines ++ [line] }

/-- The outcome of an export that only touches guest memory. -/
def withRam (kernel : Kernel) (result : XbeRam × Reply) : Outcome :=
  { kernel := { kernel with krnl := { kernel.krnl with ram := result.1 } }, reply := some result.2 }

/-- The allocator's view of the kernel. -/
def pool (kernel : Kernel) : MemoryPool :=
  { ram := kernel.krnl.ram, mmLo := kernel.mmLo, mmHi := kernel.mmHi, memAllocs := kernel.memAllocs }

/-- The outcome of an export that works on the pool. -/
def withPool (kernel : Kernel) (pool : MemoryPool) (reply : Reply) : Outcome :=
  { kernel := { kernel with krnl := { kernel.krnl with ram := pool.ram }, memAllocs := pool.memAllocs },
    reply := some reply }

/-- The cases of the switch. There is no outcome where the host faults, or where a lookup by handle
finds another thread than the caller. -/
def serve (platform : Platform) (kernel : Kernel) : Service → Option Outcome
  | .dbgBreakPoint => some { kernel := kernel.record "DbgBreakPoint".toList, reply := some { value := 0 } }
  | .dbgPrint args =>
    match dbgPrint platform.printf kernel.krnl.ram args with
    | none => some { kernel, reply := some voidFail }
    | some (line, value) => some { kernel := kernel.record line, reply := some { value } }
  | .interlockedIncrement addend => some (kernel.withRam (interlockedIncrement kernel.krnl.ram addend))
  | .interlockedDecrement addend => some (kernel.withRam (interlockedDecrement kernel.krnl.ram addend))
  | .interlockedExchange target value =>
    some (kernel.withRam (interlockedExchange kernel.krnl.ram target value))
  | .interlockedCompareExchange dest exchange comparand =>
    some (kernel.withRam (interlockedCompareExchange kernel.krnl.ram dest exchange comparand))
  | .interlockedExchangeAdd addend increment =>
    some (kernel.withRam (interlockedExchangeAdd kernel.krnl.ram addend increment))
  | .keQueryPerformanceCounter =>
    some { kernel, reply := some { value := platform.qpcNow % 2 ^ 32 },
           edx := some (platform.qpcNow / 2 ^ 32 % 2 ^ 32) }
  | .keQueryPerformanceFrequency =>
    some { kernel, reply := some { value := kQpcFreq % 2 ^ 32 }, edx := some (kQpcFreq / 2 ^ 32) }
  | .keQuerySystemTime currentTime =>
    some (kernel.withRam (keQuerySystemTime kernel.krnl.ram kernel.krnl.filetime currentTime))
  | .rtlTimeToTimeFields time fields =>
    match SeriesxEmu.rtlTimeToTimeFields kernel.krnl.ram time fields with
    | none => some { kernel, reply := some reject }
    | some ram => some (kernel.withRam (ram, { value := 0 }))
  | .mmAllocateContiguousMemory size =>
    (kernel.pool.mmAlloc size 0 0 0 kPageReadWrite).map
      (fun (pool, value) => kernel.withPool pool { value })
  | .mmAllocateContiguousMemoryEx size lowest highest alignment protect =>
    (kernel.pool.mmAlloc size lowest highest alignment protect).map
      (fun (pool, value) => kernel.withPool pool { value })
  | .mmFreeContiguousMemory va =>
    match kernel.pool.mmFree va with
    | (pool, freed) => some (kernel.withPool pool (if freed then { value := 0 } else voidFail))
  | .mmQueryAllocationSize va => some { kernel, reply := some { value := kernel.pool.mmSize va } }
  | .rtlZeroMemory destination length =>
    (rtlZeroMemory kernel.krnl.ram destination length).map kernel.withRam
  | .rtlFillMemory destination length fill =>
    (rtlFillMemory kernel.krnl.ram destination length fill).map kernel.withRam
  | .rtlMoveMemory destination source length =>
    (rtlMoveMemory kernel.krnl.ram destination source length).map kernel.withRam
  | .dispatcher call =>
    if kernel.krnl.findsItself || !XboxKrnl.looksItselfUp call then
      let (krnl, reply) := kernel.krnl.exec call
      some { kernel := { kernel with krnl }, reply }
    else none

/-- `XboxKrnl::call`, with the 32-bit words the guest passes. -/
def call (platform : Platform) (kernel : Kernel) (ordinal : Nat) (args : List UInt32) : Option Outcome :=
  let refreshed := { kernel with krnl := kernel.krnl.refreshData }
  match Service.decode platform ordinal (args.map UInt32.toNat) with
  | none => some { kernel := refreshed, reply := some voidFail }
  | some service => refreshed.serve platform service

end Kernel

end SeriesxEmu
