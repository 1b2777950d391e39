import SeriesxEmu.AliasWindows
import SeriesxEmu.XbeRam

/-!
# The command processor front end

`GpuStub` checks one packet at a time against the split of memory into a fast and a
slow pool and executes it on the memory map it is attached to. The GPU address of a
byte is its guest address. The counters keep their 64-bit arithmetic, and the value of
the host's counter at the call is an argument.
-/

namespace SeriesxEmu

/-- The fast pool; the slow one fills the rest. -/
def kFastSize : Nat := 10 * 2 ^ 30

/-- The two heap classes. -/
inductive XboxHeapClass where
  | gpuOptimal
  | standard
deriving DecidableEq, Repr

/-- An operand: its address, its heap class and its size. -/
structure XboxGpuAddr where
  gpa : Nat := 0
  heap : XboxHeapClass := .gpuOptimal
  size : Nat := 0
deriving DecidableEq, Repr

/-- `XboxPktType`. The enumeration has a fixed underlying type, so a packet can also
carry a value that is none of the enumerators. -/
inductive XboxPktType where
  | nop
  | fillMemory
  | copyMemory
  | clearRenderTarget
  | fenceSignal
  | flip
  | timestamp
  | other (value : Nat)
deriving DecidableEq, Repr

/-- The code of a packet type. -/
def XboxPktType.code : XboxPktType → Nat
  | .nop => 0
  | .fillMemory => 1
  | .copyMemory => 2
  | .clearRenderTarget => 3
  | .fenceSignal => 4
  | .flip => 5
  | .timestamp => 6
  | .other value => value

/-- A packet. -/
structure XboxPacket where
  type : XboxPktType := .nop
  dst : XboxGpuAddr := {}
  src : XboxGpuAddr := {}
  pattern : Nat := 0
  color : UInt8 × UInt8 × UInt8 × UInt8 := (0, 0, 0, 0)
  rtWidth : Nat := 0
  rtHeight : Nat := 0
  fenceValue : Nat := 0
deriving DecidableEq, Repr

/-- The GPU: its memory and its counters. -/
structure GpuStub where
  mem : Option MemMap := none
  submitted : Nat := 0
  lastLog : String := ""
  fenceSignalled : Nat := 0
  fenceCompleted : Nat := 0
  frameId : Nat := 0
  bytesFilled : Nat := 0
  bytesCopied : Nat := 0
  clears : Nat := 0
  errors : Nat := 0
  lastFlipQpc : Nat := 0
  timestamps : List Nat := []

namespace MemMap

/-- `is_fast`. -/
def isFast (addr : Nat) : Bool := addr < kFastSize

/-- `write32`. -/
def write32 (mem : MemMap) (addr value : Nat) : MemMap × Bool := mem.writeBytes addr (XbeRam.littleEndian value)

/-- The loops of `FillMemory` and `ClearRenderTarget`: one word after the other, up to the
first that is refused. -/
def fillWords (mem : MemMap) (addr value : Nat) : Nat → MemMap × Bool
  | 0 => (mem, true)
  | words + 1 =>
    match mem.write32 addr value with
    | (refused, false) => (refused, false)
    | (written, true) => written.fillWords (addr + 4) value words

end MemMap

namespace GpuStub

open MemMap

/-- `heap_ok`, for the memory that is attached. -/
def heapOk (addr : XboxGpuAddr) : Bool :=
  let fast := isFast addr.gpa && isFast (addr.gpa + addr.size - 1)
  addr.size != 0 && inRange addr.gpa addr.size &&
    match addr.heap with
    | .gpuOptimal => fast
    | .standard => !fast

/-- `commit_ok`. -/
def commitOk (mem : MemMap) (addr : XboxGpuAddr) : Bool := mem.isWritable addr.gpa addr.size

/-- What `ClearRenderTarget` clears: four bytes a pixel, in 64 bits. -/
def clearSize (pkt : XboxPacket) : Nat := pkt.rtWidth * pkt.rtHeight * 4 % 2 ^ 64

/-- The colour as one little-endian word. -/
def clearWord (pkt : XboxPacket) : Nat :=
  let (red, green, blue, alpha) := pkt.color
  red.toNat + green.toNat * 2 ^ 8 + blue.toNat * 2 ^ 16 + alpha.toNat * 2 ^ 24

/-- The checks of `FillMemory`. -/
def admitsFill (mem : MemMap) (pkt : XboxPacket) : Bool :=
  heapOk pkt.dst && commitOk mem pkt.dst && pkt.dst.size % 4 == 0

/-- The checks of `ClearRenderTarget`. -/
def admitsClear (mem : MemMap) (pkt : XboxPacket) : Bool :=
  pkt.rtWidth != 0 && pkt.rtHeight != 0 && clearSize pkt == pkt.dst.size && heapOk pkt.dst &&
    commitOk mem pkt.dst

/-- The checks of `CopyMemory`: source and destination may not overlap. -/
def admitsCopy (mem : MemMap) (pkt : XboxPacket) : Bool :=
  pkt.dst.size != 0 && pkt.dst.size == pkt.src.size && heapOk pkt.dst && heapOk pkt.src &&
    commitOk mem pkt.dst && mem.isReadable pkt.src.gpa pkt.src.size &&
    !(pkt.dst.gpa < pkt.src.gpa + pkt.src.size && pkt.src.gpa < pkt.dst.gpa + pkt.dst.size)

/-- A packet that is refused counts as an error. -/
def refuse (gpu : GpuStub) : GpuStub × Bool := ({ gpu with errors := (gpu.errors + 1) % 2 ^ 64 }, false)

/-- `fill_memory`. -/
def fillMemory (gpu : GpuStub) (pkt : XboxPacket) : GpuStub × Bool :=
  match gpu.mem with
  | none => gpu.refuse
  | some mem =>
    if admitsFill mem pkt then
      match mem.fillWords pkt.dst.gpa pkt.pattern ((pkt.dst.size + 3) / 4) with
      | (filled, true) =>
        ({ gpu with mem := some filled, bytesFilled := (gpu.bytesFilled + pkt.dst.size) % 2 ^ 64 }, true)
      | (partly, false) => { gpu with mem := some partly }.refuse
    else gpu.refuse

/-- `copy_memory`. -/
def copyMemory (gpu : GpuStub) (pkt : XboxPacket) : GpuStub × Bool :=
  match gpu.mem with
  | none => gpu.refuse
  | some mem =>
    if admitsCopy mem pkt then
      match mem.readBytes pkt.src.gpa pkt.src.size with
      | none => gpu.refuse
      | some bytes =>
        match mem.writeBytes pkt.dst.gpa bytes with
        | (copied, true) =>
          ({ gpu with mem := some copied, bytesCopied := (gpu.bytesCopied + pkt.dst.size) % 2 ^ 64 }, true)
        | (refused, false) => { gpu with mem := some refused }.refuse
    else gpu.refuse

/-- `clear_render_target`. -/
def clearRenderTarget (gpu : GpuStub) (pkt : XboxPacket) : GpuStub × Bool :=
  match gpu.mem with
  | none => gpu.refuse
  | some mem =>
    if admitsClear mem pkt then
      match mem.fillWords pkt.dst.gpa (clearWord pkt) ((clearSize pkt + 3) / 4) with
      | (cleared, true) =>
        ({ gpu with
            mem := some cleared
            clears := (gpu.clears + 1) % 2 ^ 64
            bytesFilled := (gpu.bytesFilled + clearSize pkt) % 2 ^ 64 }, true)
      | (partly, false) => { gpu with mem := some partly }.refuse
    else gpu.refuse

/-- A fence only moves forward, and what is signalled completes at once. -/
def fenceSignal (gpu : GpuStub) (pkt : XboxPacket) : GpuStub × Bool :=
  if gpu.fenceSignalled < pkt.fenceValue then
    ({ gpu with fenceSignalled := pkt.fenceValue, fenceCompleted := pkt.fenceValue }, true)
  else gpu.refuse

/-- The switch of `submit_xbox`. -/
def execute (gpu : GpuStub) (pkt : XboxPacket) (qpc : Nat) : GpuStub × Bool :=
  match pkt.type with
  | .nop => (gpu, true)
  | .flip => ({ gpu with frameId := (gpu.frameId + 1) % 2 ^ 64, lastFlipQpc := qpc }, true)
  | .timestamp => ({ gpu with timestamps := gpu.timestamps ++ [qpc] }, true)
  | .fenceSignal => gpu.fenceSignal pkt
  | .fillMemory => gpu.fillMemory pkt
  | .copyMemory => gpu.copyMemory pkt
  | .clearRenderTarget => gpu.clearRenderTarget pkt
  | .other _ => (gpu, false)

/-- The log line of a packet. -/
def logLine (gpu : GpuStub) (pkt : XboxPacket) (ok : Bool) : String :=
  "xgpu pkt#" ++ toString gpu.submitted ++ " op=" ++ toString pkt.type.code ++ (if ok then " ok" else " ERR") ++
    (if pkt.type = .fenceSignal then " fence=" ++ toString pkt.fenceValue else "") ++
    (if pkt.type = .flip then " frame=" ++ toString gpu.frameId else "")

/-- One more packet has come in. -/
def counted (gpu : GpuStub) : GpuStub := { gpu with submitted := (gpu.submitted + 1) % 2 ^ 64 }

/-- `submit_xbox`. -/
def submitXbox (gpu : GpuStub) (pkt : XboxPacket) (qpc : Nat) : GpuStub × Bool :=
  let (executed, ok) := gpu.counted.execute pkt qpc
  ({ executed with lastLog := executed.logLine pkt ok }, ok)

end GpuStub

end SeriesxEmu
