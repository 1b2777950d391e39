import SeriesxEmu.KernelExports
import SeriesxEmu.ThreadFrames

/-!
# Running guest code

`GuestCpu::run` starts the engine, which runs guest code until the code hook meets a marker, an
access fails, the exit sentinel is reached or the budget is used up. A call of the kernel is served
outside of the engine: the host runs `XboxKrnl::call`, performs the return itself and starts the
engine again at the return address.

The engine is a parameter: a round of it ends with registers and memory, and with the hooks it has
called on the way, in their order. The CPU is attached, and the memory is that of the kernel, which
the engine shares. What the kernel is given from outside may differ from call to call, and so may
what the other fibers make of a call that has left its fiber: they may never come back to it.
-/

namespace SeriesxEmu

/-- The registers that `run` and `handle_hle_call` touch. -/
inductive Reg where
  | eax
  | ecx
  | edx
  | esp
  | eip
deriving DecidableEq, Repr

/-- The `uc_mem_type` values that `mem_hook` tells apart. -/
inductive MemType where
  | readUnmapped
  | writeUnmapped
  | fetchUnmapped
  | writeProt
  | readProt
  | fetchProt
deriving DecidableEq, Repr

/-- A call of one of the two hooks; the memory hook also reads the instruction pointer. -/
inductive HookCall where
  | code (addr : Nat)
  | mem (type : MemType) (addr eip : Nat)
deriving DecidableEq, Repr

/-- How `uc_emu_start` comes back: `error` is the text of a result other than `UC_ERR_OK`. -/
structure Round (Engine : Type) where
  engine : Engine
  ram : XbeRam
  hooks : List HookCall := []
  error : Option String := none

/-- The engine with its registers; `start` is given the entry and the instruction count. -/
structure Emulator where
  Engine : Type
  reg : Engine → Reg → UInt32
  setReg : Engine → Reg → UInt32 → Engine
  start : Engine → XbeRam → Nat → Nat → Round Engine

/-! ## Faults -/

/-- `GuestFault::Kind`. -/
inductive FaultKind where
  | none
  | unmappedRead
  | unmappedWrite
  | unmappedFetch
  | writeProt
  | readProt
  | unimplementedImport
  | instructionLimit
  | emuError
deriving DecidableEq, Repr

/-- What is known of a fault. -/
structure GuestFault where
  kind : FaultKind := .none
  va : Nat := 0
  eip : Nat := 0
  ordinal : Nat := 0
  detail : String := ""
deriving DecidableEq, Repr

/-! ## The hooks -/

/-- The members of an attached `GuestCpu` that a run uses. -/
structure HleCpu (em : Emulator) where
  engine : em.Engine
  pendingOrdinal : Nat := 0
  pendingAddr : Nat := 0
  pendingRet : Nat := 0
  pendingEsp : Nat := 0
  fault : GuestFault := {}
  instructions : Nat := 0
  served : List Nat := []

namespace HleCpu

variable {em : Emulator}

/-- `reg`. -/
def reg (cpu : HleCpu em) (register : Reg) : Nat := (em.reg cpu.engine register).toNat

/-- `record_fault`: the first fault stays. -/
def recordFault (cpu : HleCpu em) (kind : FaultKind) (va eip : Nat) (why : String) : HleCpu em :=
  if cpu.fault.kind = .none then { cpu with fault := { cpu.fault with kind, va, eip, detail := why } } else cpu

/-- The low 64 KiB at the marker stand for kernel exports. -/
def isMarker (addr : Nat) : Bool := addr / 2 ^ 16 * 2 ^ 16 == kHleMarker

/-- The hook of an instruction: a marker is noted, everything else is counted. -/
def codeHook (cpu : HleCpu em) (addr : Nat) : HleCpu em :=
  let a := addr % 2 ^ 32
  if isMarker a then { cpu with pendingOrdinal := a % 2 ^ 16, pendingAddr := a }
  else { cpu with instructions := cpu.instructions + 1 }

/-- A fetch above 2 GiB is a call through a thunk that was not patched. -/
def memHook (cpu : HleCpu em) (type : MemType) (addr eip : Nat) : HleCpu em :=
  let va := addr % 2 ^ 32
  match type with
  | .readUnmapped => cpu.recordFault .unmappedRead va eip "guest read of unmapped memory"
  | .writeUnmapped => cpu.recordFault .unmappedWrite va eip "guest write to unmapped memory"
  | .fetchUnmapped =>
    if 0x80000000 ≤ addr then
      let ordinal := va % 2 ^ 31
      { cpu with
        fault := { cpu.fault with
          kind := .unimplementedImport, va, ordinal
          detail := "call through unimplemented kernel import: " ++ nameOf ordinal } }
    else cpu.recordFault .unmappedFetch va eip "guest fetch from unmapped memory"
  | .writeProt => cpu.recordFault .writeProt va eip "guest write to read-only memory"
  | .readProt => cpu.recordFault .readProt va eip "guest read of protected memory"
  | .fetchProt => cpu.recordFault .emuError va eip "guest memory fault"

/-- The hook that a call is for. -/
def hook (cpu : HleCpu em) : HookCall → HleCpu em
  | .code addr => cpu.codeHook addr
  | .mem type addr eip => cpu.memHook type addr eip

end HleCpu

/-! ## Kernel calls -/

/-- What the calls of a run meet outside, by their number: what the kernel is given, how a call that
has left its fiber comes back, if it does, and what the observer of the kernel has mapped and
unmapped meanwhile. -/
structure Surroundings (em : Emulator) where
  platform : Nat → Platform
  resumed : Nat → Kernel → Option (Kernel × Reply)
  remapped : Nat → em.Engine → em.Engine

namespace Surroundings

variable {em : Emulator}

/-- The platform of a call, with the export table of the repository. -/
def platformAt (world : Surroundings em) (index : Nat) : Platform :=
  { world.platform index with findExport := exportConv }

/-- The call of the kernel as its fiber sees it: the kernel afterwards, the reply and the high word.
No result when the call does not come back. -/
def answer (world : Surroundings em) (index : Nat) (kernel : Kernel) (ordinal : Nat) (args : List UInt32) :
    Option (Kernel × Reply × Nat) :=
  match kernel.call (world.platformAt index) ordinal args with
  | none => none
  | some outcome =>
    match outcome.reply with
    | some reply => some (outcome.kernel, reply, outcome.edx.getD 0)
    | none => (world.resumed index outcome.kernel).map (fun (after, reply) => (after, reply, 0))

end Surroundings

namespace HleCpu

variable {em : Emulator}

/-- The lambda `stack_arg` of `handle_hle_call`. -/
def stackArg (ram : XbeRam) (esp index : Nat) : UInt32 :=
  UInt32.ofNat ((ram.read32 ((esp + 4 + 4 * index) % 2 ^ 32)).getD 0)

/-- The fault of a call that is not served. -/
def missing (cpu : HleCpu em) (ordinal : Nat) : HleCpu em :=
  { cpu with
    fault := { kind := .unimplementedImport, va := cpu.pendingAddr, eip := cpu.reg .eip, ordinal
               detail := "kernel import not implemented: " ++ nameOf ordinal } }

/-- The virtual return. -/
def returnToCaller (cpu : HleCpu em) (ram : XbeRam) (entry : Export) (eax edx : Nat) : HleCpu em :=
  let esp := cpu.reg .esp
  let pendingRet := (ram.read32 esp).getD 0
  let pendingEsp := (esp + 4 + entry.stackBytes) % 2 ^ 32
  let replied := em.setReg cpu.engine .eax (UInt32.ofNat eax)
  let widened := if returns64 entry.ordinal then em.setReg replied .edx (UInt32.ofNat edx) else replied
  let popped := em.setReg widened .esp (UInt32.ofNat pendingEsp)
  { cpu with pendingRet, pendingEsp, engine := em.setReg popped .eip (UInt32.ofNat pendingRet) }

/-- `handle_hle_call`. -/
def handleHleCall (world : Surroundings em) (cpu : HleCpu em) (kernel : Kernel) (ordinal : Nat) :
    Option (HleCpu em × Kernel) :=
  match findExport ordinal with
  | none => some (cpu.missing ordinal, kernel)
  | some entry =>
    if entry.conv = .data then some (cpu.missing ordinal, kernel)
    else
      let args := entry.arguments (em.reg cpu.engine .ecx) (em.reg cpu.engine .edx)
        (stackArg kernel.krnl.ram (cpu.reg .esp))
      match world.answer cpu.served.length kernel ordinal args with
      | none => none
      | some (after, reply, edx) =>
        let mapped := { cpu with engine := world.remapped cpu.served.length cpu.engine }
        if reply.ok then some (mapped.returnToCaller after.krnl.ram entry reply.value edx, after)
        else some (mapped.missing ordinal, after)

/-! ## The loop -/

/-- How a pass of the loop ends: it goes on at an address, it returns, or the kernel call never
comes back. -/
inductive Turn (em : Emulator) where
  | again (cpu : HleCpu em) (kernel : Kernel) (eip : Nat)
  | returned (exited : Bool) (cpu : HleCpu em) (kernel : Kernel)
  | away

/-- The text of a run that spent its budget. -/
def didNotExit : String := "did not exit within the instruction budget"

/-- What the loop does after a round without a fault or an error. -/
def settle (world : Surroundings em) (cpu : HleCpu em) (kernel : Kernel) : Turn em :=
  if cpu.reg .eip = kExitVa then .returned true cpu kernel
  else if cpu.pendingOrdinal ≠ 0 then
    match handleHleCall world { cpu with pendingOrdinal := 0 } kernel cpu.pendingOrdinal with
    | none => .away
    | some (handled, after) =>
      let next := { handled with served := handled.served ++ [cpu.pendingOrdinal] }
      if next.fault.kind ≠ .none then .returned false next after
      else .again next after next.pendingRet
  else .returned false (cpu.recordFault .instructionLimit (cpu.reg .eip) (cpu.reg .eip) didNotExit) kernel

/-- One pass of the loop of `run`. -/
def turn (world : Surroundings em) (maxInstructions : Nat) (cpu : HleCpu em) (kernel : Kernel) (eip : Nat) : Turn em :=
  if maxInstructions ≤ cpu.instructions then
    .returned false (cpu.recordFault .instructionLimit (eip % 2 ^ 32) (cpu.reg .eip) didNotExit) kernel
  else
    let round := em.start cpu.engine kernel.krnl.ram eip (maxInstructions - cpu.instructions)
    let hooked := round.hooks.foldl hook { cpu with engine := round.engine }
    let shared := { kernel with krnl := { kernel.krnl with ram := round.ram } }
    if hooked.fault.kind ≠ .none then .returned false hooked shared
    else
      match round.error with
      | some detail =>
        let fault := { hooked.fault with kind := .emuError, va := hooked.reg .eip, eip := hooked.reg .eip, detail }
        .returned false { hooked with fault } shared
      | none => settle world hooked shared

/-- The loop, for so many passes; no result when they do not suffice. -/
def loop (world : Surroundings em) (maxInstructions : Nat) :
    Nat → HleCpu em → Kernel → Nat → Option (Turn em)
  | 0, _, _, _ => none
  | passes + 1, cpu, kernel, eip =>
    match turn world maxInstructions cpu kernel eip with
    | .again next after resumed => loop world maxInstructions passes next after resumed
    | ended => some ended

/-- What `run` resets before it enters the loop. -/
def begin (cpu : HleCpu em) (esp : Nat) : HleCpu em :=
  { cpu with fault := {}, served := [], instructions := 0, pendingOrdinal := 0
             engine := em.setReg cpu.engine .esp (UInt32.ofNat esp) }

/-- `run`. -/
def run (world : Surroundings em) (passes : Nat) (cpu : HleCpu em) (kernel : Kernel)
    (entryEip esp maxInstructions : Nat) : Option (Turn em) :=
  loop world maxInstructions passes (cpu.begin esp) kernel entryEip

end HleCpu

end SeriesxEmu
