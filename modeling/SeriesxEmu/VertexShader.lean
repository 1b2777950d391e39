import SeriesxEmu.BitFields
import SeriesxEmu.Scalars
import Mathlib.Data.Fin.VecNotation

/-!
# Vertex shader microcode

A vertex program is decoded from slots of four dwords and then interpreted against a file
of registers. The scalars are a parameter. An index outside of a register array has no
defined behaviour in the source, so it stops the interpreter here, apart from the errors
that it reports.
-/

namespace SeriesxEmu

universe u

/-- The operations of the inverse logic unit. -/
inductive VsIluOp where
  | nop | mov | rcp | rcc | rsq | exp | log | lit
deriving DecidableEq, Repr

/-- The operations of the multiply-add unit. -/
inductive VsMacOp where
  | nop | mov | mul | add | mad | dp3 | dph | dp4 | dst | min | max | slt | sge | arl
deriving DecidableEq, Repr

/-- The lane that an operand takes. -/
inductive VsSwizzle where
  | x | y | z | w
deriving DecidableEq, Repr

/-- Where an operand comes from: nowhere, a temporary, a vertex input or a constant. -/
inductive VsSrcFile where
  | none | r | v | c
deriving DecidableEq, Repr

/-- Where an output goes to: a constant or an output register. -/
inductive VsOutFile where
  | constant | register
deriving DecidableEq, Repr

/-! ## Codes -/

namespace VsIluOp

/-- The code of an ILU operation. -/
def code : VsIluOp → Nat
  | nop => 0 | mov => 1 | rcp => 2 | rcc => 3 | rsq => 4 | exp => 5 | log => 6 | lit => 7

/-- The ILU operation of a code of three bits. -/
def ofCode : Nat → VsIluOp
  | 1 => mov | 2 => rcp | 3 => rcc | 4 => rsq | 5 => exp | 6 => log | 7 => lit | _ => nop

end VsIluOp

namespace VsMacOp

/-- The code of a MAC operation. -/
def code : VsMacOp → Nat
  | nop => 0 | mov => 1 | mul => 2 | add => 3 | mad => 4 | dp3 => 5 | dph => 6 | dp4 => 7 | dst => 8 | min => 9
  | max => 10 | slt => 11 | sge => 12 | arl => 13

/-- The MAC operation of a code; the decoder refuses the codes above 13 before. -/
def ofCode : Nat → VsMacOp
  | 1 => mov | 2 => mul | 3 => add | 4 => mad | 5 => dp3 | 6 => dph | 7 => dp4 | 8 => dst | 9 => min
  | 10 => max | 11 => slt | 12 => sge | 13 => arl | _ => nop

end VsMacOp

namespace VsSwizzle

/-- The code of a lane. -/
def code : VsSwizzle → Fin 4
  | x => 0 | y => 1 | z => 2 | w => 3

/-- The lane of a code of two bits. -/
def ofCode : Nat → VsSwizzle
  | 1 => y | 2 => z | 3 => w | _ => x

end VsSwizzle

namespace VsSrcFile

/-- The code of a source file. -/
def code : VsSrcFile → Nat
  | none => 0 | r => 1 | v => 2 | c => 3

/-- The source file of a code of two bits. -/
def ofCode : Nat → VsSrcFile
  | 1 => r | 2 => v | 3 => c | _ => none

end VsSrcFile

namespace VsOutFile

/-- The code of an output file. -/
def code : VsOutFile → Nat
  | constant => 0 | register => 1

/-- The output file of a bit. -/
def ofCode : Nat → VsOutFile
  | 1 => register | _ => constant

end VsOutFile

/-! ## Slots and programs -/

/-- An operand: its file and number, its sign, and the lane that each lane takes. -/
structure VsSource where
  file : VsSrcFile := .none
  reg : Nat := 0
  negate : Bool := false
  swizzle : Fin 4 → VsSwizzle := ![.x, .y, .z, .w]

/-- One slot: both operations, the constant and the input they may name, three operands, and what is
written where. -/
structure VsSlot where
  ilu : VsIluOp := .nop
  mac : VsMacOp := .nop
  constIndex : Nat := 0
  inputIndex : Nat := 0
  a : VsSource := {}
  b : VsSource := {}
  c : VsSource := {}
  macMask : Nat := 0
  tempReg : Nat := 0
  iluMask : Nat := 0
  outMask : Nat := 0
  outFile : VsOutFile := .register
  outAddress : Nat := 0
  outFromIlu : Bool := false
  a0Relative : Bool := false
  final : Bool := false

/-- A decoded program, or why there is none. -/
structure VsProgram where
  slots : List VsSlot := []
  valid : Bool := false
  error : String := ""

/-! ## Decoding -/

/-- `mac_uses_a`. -/
def macUsesA : VsMacOp → Bool
  | .nop | .add => false
  | _ => true

/-- `mac_uses_b`. -/
def macUsesB : VsMacOp → Bool
  | .mov | .add | .arl => false
  | _ => true

/-- `mac_uses_c`. -/
def macUsesC : VsMacOp → Bool
  | .add | .mad => true
  | _ => false

/-- `valid_output_index`. -/
def validOutputIndex (index : Nat) : Bool := [0, 3, 4, 5, 6, 7, 8, 9, 10, 11, 12].contains index

/-- `valid_r_index`. -/
def validRIndex (file : VsSrcFile) (reg : Nat) : Bool := file != .r || reg ≤ 12

/-- The four dwords of a slot. -/
abbrev SlotWords := Fin 4 → BitVec 32

/-- `field`. -/
def field (w : SlotWords) (dw : Fin 4) (bit len : Nat) : Nat := (BitFields.field (w dw) bit len).toNat

/-- `file_ok`. -/
def VsSource.fileOk (source : VsSource) : Bool := source.file != .none && validRIndex source.file source.reg

namespace VsSlot

/-- `writes_temp`. -/
def writesTemp (slot : VsSlot) : Bool :=
  (slot.mac != .nop && slot.macMask != 0) || (slot.ilu != .nop && slot.iluMask != 0)

/-- The fields of a slot, before any check. -/
def ofWords (w : SlotWords) : VsSlot where
  ilu := .ofCode (field w 1 25 3)
  mac := .ofCode (field w 1 21 4)
  constIndex := field w 1 13 8
  inputIndex := field w 1 9 4
  a :=
    { file := .ofCode (field w 2 26 2)
      reg := field w 2 28 4
      negate := field w 1 8 1 != 0
      swizzle := ![.ofCode (field w 1 6 2), .ofCode (field w 1 4 2), .ofCode (field w 1 2 2), .ofCode (field w 1 0 2)] }
  b :=
    { file := .ofCode (field w 2 11 2)
      reg := field w 2 13 4
      negate := field w 2 25 1 != 0
      swizzle :=
        ![.ofCode (field w 2 23 2), .ofCode (field w 2 21 2), .ofCode (field w 2 19 2), .ofCode (field w 2 17 2)] }
  c :=
    { file := .ofCode (field w 3 28 2)
      reg := field w 2 0 2 <<< 2 ||| field w 3 30 2
      negate := field w 2 10 1 != 0
      swizzle := ![.ofCode (field w 2 8 2), .ofCode (field w 2 6 2), .ofCode (field w 2 4 2), .ofCode (field w 2 2 2)] }
  macMask := field w 3 24 4
  tempReg := field w 3 20 4
  iluMask := field w 3 16 4
  outMask := field w 3 12 4
  outFile := .ofCode (field w 3 11 1)
  outAddress := field w 3 3 8
  outFromIlu := field w 3 2 1 != 0
  a0Relative := field w 3 1 1 != 0
  final := field w 3 0 1 != 0

/-- The checks on the operands and the destinations of a slot: the first that fails. -/
def check (slot : VsSlot) : Option String :=
  if slot.ilu ≠ .nop ∧ slot.c.fileOk = false then some "ILU source C is not a usable register"
  else if slot.mac ≠ .nop ∧ macUsesA slot.mac = true ∧ slot.a.fileOk = false then
    some "MAC source A is not a usable register"
  else if slot.mac ≠ .nop ∧ macUsesB slot.mac = true ∧ slot.b.fileOk = false then
    some "MAC source B is not a usable register"
  else if slot.mac ≠ .nop ∧ macUsesC slot.mac = true ∧ slot.c.fileOk = false then
    some "MAC source C is not a usable register"
  else if slot.writesTemp = true ∧ 12 < slot.tempReg then some "temporary register index out of range"
  else if slot.outMask ≠ 0 ∧ slot.outFile = .constant ∧ 191 < slot.outAddress then
    some "writeable constant index out of range"
  else if slot.outMask ≠ 0 ∧ slot.outFile = .register ∧ validOutputIndex (slot.outAddress % 16) = false then
    some "output register reserved"
  else none

end VsSlot

/-- `vs_decode_slot`. -/
def vsDecodeSlot (w : SlotWords) : Except String VsSlot :=
  if 13 < field w 1 21 4 then .error "MAC opcode is reserved"
  else if 191 < field w 1 13 8 then .error "constant index out of range"
  else
    match (VsSlot.ofWords w).check with
    | some err => .error err
    | none => .ok (VsSlot.ofWords w)

/-- The words of the slot with the given number. -/
def slotWords (words : List (BitVec 32)) (index : Nat) : SlotWords := fun dw => words.getD (4 * index + dw) 0

/-- The loop of `vs_decode_program`, with the slots it may still take. -/
def decodeSlots (words : List (BitVec 32)) : Nat → Nat → List VsSlot → VsProgram
  | 0, _, slots => { slots, error := "final instruction marker missing" }
  | room + 1, index, slots =>
    match vsDecodeSlot (slotWords words index) with
    | .error err => { slots, error := "slot " ++ toString index ++ ": " ++ err }
    | .ok slot =>
      if slot.final then { slots := slots ++ [slot], valid := true }
      else decodeSlots words room (index + 1) (slots ++ [slot])

/-- `vs_decode_program`. -/
def vsDecodeProgram (words : Option (List (BitVec 32))) (slotCount : Nat) : VsProgram :=
  match words with
  | none => { error := "null program" }
  | some words => decodeSlots words (min slotCount 136) 0 []

/-! ## Registers -/

/-- A register of four lanes. -/
abbrev Vec4 (F : Type u) := Fin 4 → F

/-- The register file: inputs, constants, temporaries and outputs, and the address register. -/
structure VsRegisters (F : Type u) where
  v : Fin 16 → Vec4 F
  c : Fin 192 → Vec4 F
  r : Fin 12 → Vec4 F
  o : Fin 16 → Vec4 F
  a0 : BitVec 32 := 0

/-- How the interpreter ends early: an access outside of an array, or an error that it reports, with
the registers it leaves. -/
inductive VsStop (F : Type u) where
  | outOfBounds
  | error (text : String) (regs : VsRegisters F)

variable {F : Type u}

/-- Read an element of a register array. -/
def VsRegisters.read {n : Nat} (array : Fin n → Vec4 F) (index : Nat) : Except (VsStop F) (Vec4 F) :=
  if inside : index < n then .ok (array ⟨index, inside⟩) else .error .outOfBounds

/-- Change an element of a register array. -/
def VsRegisters.write {n : Nat} (array : Fin n → Vec4 F) (index : Nat) (change : Vec4 F → Vec4 F) :
    Except (VsStop F) (Fin n → Vec4 F) :=
  if inside : index < n then .ok (Function.update array ⟨index, inside⟩ (change (array ⟨index, inside⟩)))
  else .error .outOfBounds

section execution

variable [ScalarFunctions F]

open Scalar ScalarFunctions

/-- The value that arrays are initialised with. -/
def zero4 : Vec4 F := fun _ => literal 0

/-- `vs_init_registers`. -/
def vsInitRegisters : VsRegisters F where
  v := fun _ => zero4
  c := fun _ => zero4
  r := fun _ => zero4
  o := fun _ => ![literal 0, literal 0, literal 0, literal 1]

/-- `swizzle4`. -/
def swizzle4 (base : Vec4 F) (swizzle : Fin 4 → VsSwizzle) : Vec4 F := fun i => base (swizzle i).code

/-- `apply_mask`. -/
def applyMask (value : Vec4 F) (mask : Nat) (dst : Vec4 F) : Vec4 F := fun i =>
  if mask.testBit i then value i else dst i

/-- What an operand makes of the register it names. -/
def VsSource.operand (source : VsSource) (forceScalar : Bool) (base : Vec4 F) : Vec4 F :=
  let out := if forceScalar then fun _ => base (source.swizzle 0).code else swizzle4 base source.swizzle
  if source.negate then fun i => -out i else out

/-- The index of the constant that a slot reads, in 32 bits. -/
def VsSlot.constantIndex (slot : VsSlot) (a0 : BitVec 32) : Int :=
  if slot.a0Relative then (BitVec.ofNat 32 slot.constIndex + a0).toInt else (BitVec.ofNat 32 slot.constIndex).toInt

/-- The constant that a slot reads with an address register. -/
def VsSlot.readConstant (slot : VsSlot) (regs : VsRegisters F) (a0 : BitVec 32) : Except (VsStop F) (Vec4 F) :=
  if slot.constantIndex a0 < 0 ∨ 191 < slot.constantIndex a0 then
    .error (.error "relative constant index out of range" regs)
  else VsRegisters.read regs.c (slot.constantIndex a0).toNat

/-- The register that an operand names. -/
def sourceRegister (slot : VsSlot) (source : VsSource) (regs : VsRegisters F) : Except (VsStop F) (Vec4 F) :=
  match source.file with
  | .r => if source.reg = 12 then VsRegisters.read regs.o 0 else VsRegisters.read regs.r source.reg
  | .v => VsRegisters.read regs.v slot.inputIndex
  | .c => slot.readConstant regs regs.a0
  | .none => .error (.error "source operand has no register file" regs)

/-- `read_source`. -/
def readSource (slot : VsSlot) (source : VsSource) (regs : VsRegisters F) (forceScalar : Bool) :
    Except (VsStop F) (Vec4 F) := do
  let base ← sourceRegister slot source regs
  return source.operand forceScalar base

/-! ## The arithmetic units -/

/-- `mac_compute`. -/
def macCompute (op : VsMacOp) (a b c : Vec4 F) : Vec4 F :=
  match op with
  | .mov => a
  | .mul => fun i => a i * b i
  | .add => fun i => a i + c i
  | .mad => fun i => a i * b i + c i
  | .dp3 => fun _ => a 0 * b 0 + a 1 * b 1 + a 2 * b 2
  | .dph => fun _ => a 0 * b 0 + a 1 * b 1 + a 2 * b 2 + b 3
  | .dp4 => fun _ => a 0 * b 0 + a 1 * b 1 + a 2 * b 2 + a 3 * b 3
  | .dst => ![literal 1, a 1 * b 1, a 2, b 3]
  | .min => fun i => Scalar.min (a i) (b i)
  | .max => fun i => Scalar.max (a i) (b i)
  | .slt => fun i => if less (a i) (b i) then literal 1 else literal 0
  | .sge => fun i => if atLeast (a i) (b i) then literal 1 else literal 0
  | .nop | .arl => zero4

/-- `ilu_forces_scalar`. -/
def iluForcesScalar : VsIluOp → Bool
  | .rcp | .rcc | .rsq | .exp | .log => true
  | _ => false

/-- `ilu_compute`. -/
def iluCompute (op : VsIluOp) (c : Vec4 F) : Vec4 F :=
  match op with
  | .mov => c
  | .rcp => fun _ => literal 1 / c 0
  | .rcc =>
    let t := literal 1 / c 0
    if less (literal 0) t then fun _ => clamp t (literal 5.42101e-20) (literal 1.884467e+19)
    else fun _ => clamp t (-literal 1.884467e+19) (-literal 5.42101e-20)
  | .rsq =>
    if equal (c 0) (literal 0) then fun _ => infinity
    else if isInf (c 0) then fun _ => literal 0
    else fun _ => literal 1 / sqrt (fabs (c 0))
  | .exp => ![exp2 (floor (c 0)), c 0 - floor (c 0), exp2 (c 0), literal 1]
  | .log =>
    let tmp := fabs (c 0)
    if equal tmp (literal 0) then ![-infinity, literal 1, -infinity, literal 1]
    else ![floor (log2 tmp), tmp / exp2 (floor (log2 tmp)), log2 tmp, literal 1]
  | .lit =>
    let bound : F := literal 128 - literal (1 / 256)
    let sw := clamp (c 3) (-bound) bound
    let sx := Scalar.max (c 0) (literal 0)
    let sy := Scalar.max (c 1) (literal 0)
    ![literal 1, sx, if less (literal 0) sx then exp2 (sw * log2 sy) else literal 0, literal 1]
  | .nop => zero4

/-! ## Execution -/

/-- An operand of the MAC unit; one that is not used stays zero. -/
def readUsed (uses : Bool) (slot : VsSlot) (source : VsSource) (regs : VsRegisters F) : Except (VsStop F) (Vec4 F) :=
  if uses then readSource slot source regs false else .ok zero4

/-- The address that a slot loads. The bias rounds towards the value meant by normalised bytes. -/
def loadedAddress (a : Vec4 F) : BitVec 32 := toInt (floor (a 0 + literal 0.001))

/-- The MAC part of a slot: the result, and the registers with a loaded address. -/
def executeMac (slot : VsSlot) (regs : VsRegisters F) : Except (VsStop F) (Vec4 F × VsRegisters F) :=
  if slot.mac = .nop then .ok (zero4, regs)
  else do
    let a ← readUsed (macUsesA slot.mac) slot slot.a regs
    let b ← readUsed (macUsesB slot.mac) slot slot.b regs
    let c ← readUsed (macUsesC slot.mac) slot slot.c regs
    if slot.mac = .arl then return (a, { regs with a0 := loadedAddress a })
    else return (macCompute slot.mac a b c, regs)

/-- The ILU part of a slot. -/
def executeIlu (slot : VsSlot) (regs : VsRegisters F) : Except (VsStop F) (Vec4 F) :=
  if slot.ilu = .nop then .ok zero4
  else do
    let c ← readSource slot slot.c regs (iluForcesScalar slot.ilu)
    return iluCompute slot.ilu c

/-- `write_temp`. -/
def writeTemp (regs : VsRegisters F) (reg : Nat) (value : Vec4 F) (mask : Nat) :
    Except (VsStop F) (VsRegisters F) :=
  if reg = 12 then do return { regs with o := ← VsRegisters.write regs.o 0 (applyMask value mask) }
  else do return { regs with r := ← VsRegisters.write regs.r reg (applyMask value mask) }

/-- `write_output`. -/
def writeOutput (slot : VsSlot) (value : Vec4 F) (regs : VsRegisters F) : Except (VsStop F) (VsRegisters F) :=
  if slot.outFile = .constant then
    if 191 < slot.outAddress then .error (.error "writeable constant index out of range" regs)
    else do return { regs with c := ← VsRegisters.write regs.c slot.outAddress (applyMask value slot.outMask) }
  else if validOutputIndex (slot.outAddress % 16) = false then .error (.error "output register reserved" regs)
  else do return { regs with o := ← VsRegisters.write regs.o (slot.outAddress % 16) (applyMask value slot.outMask) }

/-- The temporary write of the MAC unit. An ILU in the same slot owns R1. -/
def writeMacTemp (slot : VsSlot) (result : Vec4 F) (regs : VsRegisters F) : Except (VsStop F) (VsRegisters F) :=
  if slot.mac ≠ .nop ∧ ¬ (slot.ilu ≠ .nop ∧ slot.tempReg = 1) ∧ slot.macMask ≠ 0 then
    writeTemp regs slot.tempReg result slot.macMask
  else .ok regs

/-- The temporary write of the ILU unit: R1 when it is paired. -/
def writeIluTemp (slot : VsSlot) (result : Vec4 F) (regs : VsRegisters F) : Except (VsStop F) (VsRegisters F) :=
  if slot.ilu ≠ .nop ∧ slot.iluMask ≠ 0 then
    writeTemp regs (if slot.mac ≠ .nop then 1 else slot.tempReg) result slot.iluMask
  else .ok regs

/-- The output write of a slot, from one of the two units. -/
def writeSlotOutput (slot : VsSlot) (macResult iluResult : Vec4 F) (regs : VsRegisters F) :
    Except (VsStop F) (VsRegisters F) :=
  if slot.outMask ≠ 0 ∧ slot.outFromIlu = true ∧ slot.ilu ≠ .nop then writeOutput slot iluResult regs
  else if slot.outMask ≠ 0 ∧ slot.outFromIlu = false ∧ slot.mac ≠ .nop then writeOutput slot macResult regs
  else .ok regs

/-- The writes of a slot, once both results are there. -/
def writeResults (slot : VsSlot) (macResult iluResult : Vec4 F) (regs : VsRegisters F) :
    Except (VsStop F) (VsRegisters F) := do
  let regs ← writeMacTemp slot macResult regs
  let regs ← writeIluTemp slot iluResult regs
  writeSlotOutput slot macResult iluResult regs

/-- The body of the loop of `vs_execute`. -/
def executeSlot (slot : VsSlot) (regs : VsRegisters F) : Except (VsStop F) (VsRegisters F) := do
  let (macResult, loaded) ← executeMac slot regs
  let iluResult ← executeIlu slot loaded
  writeResults slot macResult iluResult loaded

/-- The loop of `vs_execute`. -/
def executeSlots : List VsSlot → VsRegisters F → Except (VsStop F) (VsRegisters F)
  | [], regs => .ok regs
  | slot :: slots, regs => do executeSlots slots (← executeSlot slot regs)

/-- `vs_execute`. -/
def vsExecute (program : VsProgram) (regs : VsRegisters F) : Except (VsStop F) (VsRegisters F) :=
  if program.valid then executeSlots program.slots regs
  else .error (.error (if program.error = "" then "invalid program" else program.error) regs)

end execution

end SeriesxEmu
