import SeriesxEmu.Liveness
import SeriesxEmu.VertexPrograms

/-!
# What a vertex program reads and writes

The cells of a register file are the components of its registers and the address register. The fields of a
slot say which cells it reads and which it writes: the swizzles choose the components that are read, the masks
those that are written, and a relative constant may be any of them. Whatever else differs between two
register files, a program cannot tell.
-/

namespace SeriesxEmu

open Liveness

universe u

/-! ## Cells -/

/-- A component of a register, or the address register. -/
inductive VsCell where
  | v (reg : Fin 16) (lane : Fin 4)
  | c (reg : Fin 192) (lane : Fin 4)
  | r (reg : Fin 12) (lane : Fin 4)
  | o (reg : Fin 16) (lane : Fin 4)
  | a0
deriving DecidableEq

variable {F : Type u}

/-- The value of a cell. -/
def VsRegisters.cell (regs : VsRegisters F) : VsCell → F ⊕ BitVec 32
  | .v reg lane => .inl (regs.v reg lane)
  | .c reg lane => .inl (regs.c reg lane)
  | .r reg lane => .inl (regs.r reg lane)
  | .o reg lane => .inl (regs.o reg lane)
  | .a0 => .inr regs.a0

/-- The component that a cell is. -/
def VsCell.lane : VsCell → Fin 4
  | .v _ lane | .c _ lane | .r _ lane | .o _ lane => lane
  | .a0 => 0

/-- A vector is assigned to the components of some registers. -/
def VsRegisters.assign (regs : VsRegisters F) (cells : VsCell → Bool) (value : Vec4 F) : VsRegisters F where
  v := fun reg lane => if cells (.v reg lane) then value lane else regs.v reg lane
  c := fun reg lane => if cells (.c reg lane) then value lane else regs.c reg lane
  r := fun reg lane => if cells (.r reg lane) then value lane else regs.r reg lane
  o := fun reg lane => if cells (.o reg lane) then value lane else regs.o reg lane
  a0 := regs.a0

/-- The interpreter stops alike: out of bounds, or with the same text. -/
def VsStop.Alike : VsStop F → VsStop F → Prop
  | .outOfBounds, .outOfBounds => True
  | .error text _, .error other _ => text = other
  | _, _ => False

/-! ## The cells of a slot -/

/-- The components of a register that an operand takes. -/
def VsSource.lanes (source : VsSource) (forceScalar : Bool) (lane : Fin 4) : Bool :=
  if forceScalar then (source.swizzle 0).code == lane else decide (∃ i, (source.swizzle i).code = lane)

/-- The cells that an operand takes. -/
def VsSlot.operandCells (slot : VsSlot) (source : VsSource) (forceScalar : Bool) : VsCell → Bool
  | .v reg lane => source.file == .v && reg.val == slot.inputIndex && source.lanes forceScalar lane
  | .c reg lane => source.file == .c && (slot.a0Relative || (reg.val : Int) == slot.constantIndex 0) &&
      source.lanes forceScalar lane
  | .r reg lane => source.file == .r && reg.val == source.reg && source.lanes forceScalar lane
  | .o reg lane => source.file == .r && source.reg == 12 && reg == 0 && source.lanes forceScalar lane
  | .a0 => source.file == .c && slot.a0Relative

/-- The cells that a slot reads. -/
def VsSlot.reads (slot : VsSlot) (cell : VsCell) : Bool :=
  (slot.mac != .nop && ((macUsesA slot.mac && slot.operandCells slot.a false cell) ||
    (macUsesB slot.mac && slot.operandCells slot.b false cell) ||
    (macUsesC slot.mac && slot.operandCells slot.c false cell))) ||
  (slot.ilu != .nop && slot.operandCells slot.c (iluForcesScalar slot.ilu) cell)

/-- The cells of a temporary write. -/
def tempCells (reg mask : Nat) : VsCell → Bool
  | .r index lane => index.val == reg && mask.testBit lane
  | .o index lane => reg == 12 && index == 0 && mask.testBit lane
  | _ => false

/-- The cells of an output write. -/
def VsSlot.outputCells (slot : VsSlot) : VsCell → Bool
  | .c index lane => slot.outFile == .constant && index.val == slot.outAddress && slot.outMask.testBit lane
  | .o index lane => slot.outFile != .constant && index.val == slot.outAddress % 16 && slot.outMask.testBit lane
  | _ => false

/-- The cells of the three writes of a slot. -/
def VsSlot.macCells (slot : VsSlot) (cell : VsCell) : Bool :=
  decide (slot.mac ≠ .nop ∧ ¬ (slot.ilu ≠ .nop ∧ slot.tempReg = 1) ∧ slot.macMask ≠ 0) &&
    tempCells slot.tempReg slot.macMask cell

/-- The cells of the temporary that the ILU result is written to. -/
def VsSlot.iluCells (slot : VsSlot) (cell : VsCell) : Bool :=
  decide (slot.ilu ≠ .nop ∧ slot.iluMask ≠ 0) &&
    tempCells (if slot.mac ≠ .nop then 1 else slot.tempReg) slot.iluMask cell

/-- The cells of the output, if the unit it comes from does anything. -/
def VsSlot.outCells (slot : VsSlot) (cell : VsCell) : Bool :=
  decide (slot.outMask ≠ 0 ∧ (slot.outFromIlu = true ∧ slot.ilu ≠ .nop ∨ slot.outFromIlu = false ∧ slot.mac ≠ .nop)) &&
    slot.outputCells cell

/-- The address register is loaded by the slots that say so. -/
def VsSlot.addressCells (slot : VsSlot) (cell : VsCell) : Bool := slot.mac == .arl && cell == .a0

/-- The cells that a slot writes. -/
def VsSlot.writes (slot : VsSlot) (cell : VsCell) : Bool :=
  slot.addressCells cell || slot.macCells cell || slot.iluCells cell || slot.outCells cell

/-! ## Reading -/

variable {left right regs : VsRegisters F} {slot : VsSlot} {cells : VsCell → Bool} {lanes : Fin 4 → Bool}

/-- The components of a vector that matter are the same. -/
def SameLanes (lanes : Fin 4 → Bool) (left right : Vec4 F) : Prop := ∀ lane, lanes lane = true → left lane = right lane

/-- Reading arrays that agree on the lanes gives registers that do. -/
theorem read_matches {n : Nat} {array other : Fin n → Vec4 F} {index : Nat}
    (same : ∀ inside : index < n, SameLanes lanes (array ⟨index, inside⟩) (other ⟨index, inside⟩)) :
    Matches (SameLanes lanes) VsStop.Alike (VsRegisters.read array index) (VsRegisters.read other index) := by
  unfold VsRegisters.read
  split
  · exact .ok (same _)
  · exact .stop trivial

/-- The register that an operand names is the same in the components that the operand takes. -/
theorem sourceRegister_matches {source : VsSource} {forceScalar : Bool}
    (agree : Agree VsRegisters.cell (slot.operandCells source forceScalar) left right) :
    Matches (SameLanes (source.lanes forceScalar)) VsStop.Alike (sourceRegister slot source left)
      (sourceRegister slot source right) := by
  unfold sourceRegister
  cases file : source.file with
  | r =>
    dsimp only
    split
    · rename_i output
      refine read_matches (fun inside lane taken => ?_)
      have cell := agree (.o ⟨0, inside⟩ lane) (by simp [VsSlot.operandCells, file, output, taken])
      exact Sum.inl.inj cell
    · refine read_matches (fun inside lane taken => ?_)
      have cell := agree (.r ⟨source.reg, inside⟩ lane) (by simp [VsSlot.operandCells, file, taken])
      exact Sum.inl.inj cell
  | v =>
    refine read_matches (fun inside lane taken => ?_)
    have cell := agree (.v ⟨slot.inputIndex, inside⟩ lane) (by simp [VsSlot.operandCells, file, taken])
    exact Sum.inl.inj cell
  | c =>
    -- without a relative address the index does not depend on the address register
    have index : slot.constantIndex left.a0 = slot.constantIndex right.a0 := by
      cases relative : slot.a0Relative with
      | true =>
        have cell := agree .a0 (by simp [VsSlot.operandCells, file, relative])
        rw [Sum.inr.inj cell]
      | false => simp [VsSlot.constantIndex, relative]
    dsimp only
    unfold VsSlot.readConstant
    rw [index]
    split
    · exact .stop rfl
    · rename_i inRange
      refine read_matches (fun inside lane taken => ?_)
      have named :
          (slot.a0Relative || ((slot.constantIndex right.a0).toNat : Int) == slot.constantIndex 0) = true := by
        cases relative : slot.a0Relative with
        | true => rfl
        | false =>
          have same : slot.constantIndex right.a0 = slot.constantIndex 0 := by simp [VsSlot.constantIndex, relative]
          rw [same] at inRange ⊢
          simp only [Bool.false_or, beq_iff_eq]
          omega
      have cell := agree (.c ⟨(slot.constantIndex right.a0).toNat, inside⟩ lane)
        (by simp only [VsSlot.operandCells, file, named, taken]; rfl)
      exact Sum.inl.inj cell
  | none => exact .stop rfl

section execution

variable [ScalarFunctions F]

/-- Operands look at their lanes only. -/
theorem operand_same {source : VsSource} {forceScalar : Bool} {base other : Vec4 F}
    (same : SameLanes (source.lanes forceScalar) base other) :
    source.operand forceScalar base = source.operand forceScalar other := by
  have taken : (if forceScalar then fun _ => base (source.swizzle 0).code else swizzle4 base source.swizzle) =
      (if forceScalar then fun _ => other (source.swizzle 0).code else swizzle4 other source.swizzle) := by
    cases forceScalar with
    | true => exact funext (fun _ => same _ (by simp [VsSource.lanes]))
    | false => exact funext (fun i => same _ (by simp [VsSource.lanes]))
  unfold VsSource.operand
  rw [taken]

/-- An operand of registers that agree on its cells is the same. -/
theorem readSource_matches {source : VsSource} {forceScalar : Bool}
    (agree : Agree VsRegisters.cell (slot.operandCells source forceScalar) left right) :
    Matches Eq VsStop.Alike (readSource slot source left forceScalar) (readSource slot source right forceScalar) :=
  (sourceRegister_matches agree).bind (fun _ _ same => .ok (operand_same same))

/-- So is one that is read if the operation uses it. -/
theorem readUsed_matches {source : VsSource} {uses : Bool}
    (agree : Agree VsRegisters.cell (fun cell => uses && slot.operandCells source false cell) left right) :
    Matches Eq VsStop.Alike (readUsed uses slot source left) (readUsed uses slot source right) := by
  cases uses with
  | true => exact readSource_matches agree
  | false => exact .ok rfl

/-- The MAC unit has the same result, and the address registers agree if it loads them. -/
theorem executeMac_matches (read : ∀ cell, slot.reads cell = true → cells cell = true)
    (agree : Agree VsRegisters.cell cells left right) :
    Matches (fun first second => first.1 = second.1 ∧
        Agree VsRegisters.cell (fun cell => cells cell || slot.addressCells cell) first.2 second.2) VsStop.Alike
      (executeMac slot left) (executeMac slot right) := by
  unfold executeMac
  split
  · rename_i unused
    exact .ok ⟨rfl, agree.mono (by simp [VsSlot.addressCells, unused])⟩
  · rename_i used
    have operands : ∀ uses source, (∀ cell, (uses && slot.operandCells source false cell) = true →
        slot.reads cell = true) → Matches Eq VsStop.Alike (readUsed uses slot source left)
          (readUsed uses slot source right) :=
      fun uses source named => readUsed_matches (agree.mono (fun cell inside => read cell (named cell inside)))
    refine (operands _ _ ?_).bind ?_
    · intro cell named
      simp [VsSlot.reads, used, named]
    rintro a _ rfl
    refine (operands _ _ ?_).bind ?_
    · intro cell named
      simp [VsSlot.reads, used, named]
    rintro b _ rfl
    refine (operands _ _ ?_).bind ?_
    · intro cell named
      simp [VsSlot.reads, used, named]
    rintro c _ rfl
    split
    · rename_i loads
      have loaded : ∀ (regs : VsRegisters F) (cell : VsCell),
          VsRegisters.cell { regs with a0 := loadedAddress a } cell =
            if slot.addressCells cell then .inr (loadedAddress a) else regs.cell cell := by
        rintro regs (_ | _ | _ | _ | _) <;> simp [VsRegisters.cell, VsSlot.addressCells, loads]
      exact .ok ⟨rfl, agree.assign (loaded left) (loaded right)⟩
    · rename_i computes
      exact .ok ⟨rfl, agree.mono (by simp [VsSlot.addressCells, computes])⟩

/-- So is what the ILU computes. -/
theorem executeIlu_matches (read : ∀ cell, slot.reads cell = true → cells cell = true)
    (agree : Agree VsRegisters.cell cells left right) :
    Matches Eq VsStop.Alike (executeIlu slot left) (executeIlu slot right) := by
  unfold executeIlu
  split
  · exact .ok rfl
  · rename_i used
    refine (readSource_matches (agree.mono (fun cell named => read cell ?_))).bind ?_
    · simp [VsSlot.reads, used, named]
    · rintro c _ rfl
      exact .ok rfl

/-! ## Writing -/

omit [ScalarFunctions F] in
/-- A cell after an assignment. -/
theorem assign_cell (regs : VsRegisters F) {written : VsCell → Bool} (value : Vec4 F) (address : written .a0 = false)
    (cell : VsCell) : (regs.assign written value).cell cell =
      if written cell then .inl (value cell.lane) else regs.cell cell := by
  cases cell with
  | a0 => simp [VsRegisters.cell, VsRegisters.assign, address]
  | v reg lane | c reg lane | r reg lane | o reg lane =>
    simp only [VsRegisters.cell, VsRegisters.assign, VsCell.lane]
    split <;> rfl

omit [ScalarFunctions F] in
/-- One register is changed in the components of a mask. -/
theorem write_eq {n index : Nat} (array : Fin n → Vec4 F) (value : Vec4 F) (mask : Nat) :
    VsRegisters.write array index (applyMask value mask) =
      if index < n then
        .ok (fun reg lane => if reg.val == index && mask.testBit lane then value lane else array reg lane)
      else .error .outOfBounds := by
  unfold VsRegisters.write
  split
  · rename_i inside
    congr 1
    funext reg lane
    by_cases same : reg = ⟨index, inside⟩
    · simp [same, applyMask]
    · have other : reg.val ≠ index := fun equal => same (Fin.ext equal)
      simp [Function.update_of_ne same, other]
  · rfl

omit [ScalarFunctions F] in
/-- A temporary write assigns to its cells. -/
theorem writeTemp_eq (regs : VsRegisters F) (reg : Nat) (value : Vec4 F) (mask : Nat) :
    writeTemp regs reg value mask =
      if reg ≤ 12 then .ok (regs.assign (tempCells reg mask) value) else .error .outOfBounds := by
  unfold writeTemp
  simp only [write_eq]
  split
  · rename_i output
    have noTemp : ∀ index : Fin 12, (index.val == reg) = false := by
      intro index
      simp only [beq_eq_false_iff_ne]
      omega
    have first : ∀ index : Fin 16, (index.val == 0) = (reg == 12 && index == 0) := by
      intro index
      have same : (index.val == 0) = (index == 0) := by
        revert index
        decide
      rw [same, output, beq_self_eq_true, Bool.true_and]
    rw [if_pos (by decide), if_pos (by omega)]
    refine congrArg Except.ok ?_
    simp only [VsRegisters.assign, tempCells, noTemp, first, Bool.false_and, Bool.false_eq_true, ↓reduceIte]
    rfl
  · rename_i temporary
    split
    · rw [if_pos (by omega)]
      refine congrArg Except.ok ?_
      simp [VsRegisters.assign, tempCells, temporary]
    · rw [if_neg (by omega)]
      rfl

omit [ScalarFunctions F] in
/-- An output is an assignment, or an error when its constant is out of range. -/
theorem writeOutput_eq (slot : VsSlot) (value : Vec4 F) (regs : VsRegisters F) : writeOutput slot value regs =
    if slot.outFile = .constant then
      if 191 < slot.outAddress then .error (.error "writeable constant index out of range" regs)
      else .ok (regs.assign slot.outputCells value)
    else if validOutputIndex (slot.outAddress % 16) = false then .error (.error "output register reserved" regs)
    else .ok (regs.assign slot.outputCells value) := by
  unfold writeOutput
  simp only [write_eq]
  split
  · rename_i constant
    split
    · rfl
    · rw [if_pos (by omega)]
      refine congrArg Except.ok ?_
      simp [VsRegisters.assign, VsSlot.outputCells, constant]
  · rename_i register
    split
    · rfl
    · rw [if_pos (Nat.mod_lt _ (by decide))]
      refine congrArg Except.ok ?_
      simp [VsRegisters.assign, VsSlot.outputCells, register]

omit [ScalarFunctions F] in
/-- What is assigned to both agrees after. -/
theorem assigned_agree {written : VsCell → Bool} (agree : Agree VsRegisters.cell cells left right) (value : Vec4 F)
    (address : written .a0 = false) : Agree VsRegisters.cell (fun cell => cells cell || written cell)
      (left.assign written value) (right.assign written value) :=
  agree.assign (assign_cell left value address) (assign_cell right value address)

omit [ScalarFunctions F] in
/-- Nothing else changes. -/
theorem assign_confined (regs : VsRegisters F) {written : VsCell → Bool} (value : Vec4 F)
    (address : written .a0 = false) :
    Agree VsRegisters.cell (fun cell => !written cell) regs (regs.assign written value) := by
  intro cell untouched
  rw [Bool.not_eq_true'] at untouched
  rw [assign_cell regs value address, untouched]
  rfl

/-- What a write of a slot does: nothing, the same stop for all registers, or an assignment to some cells. -/
inductive VsWrites (write : VsRegisters F → Except (VsStop F) (VsRegisters F)) (written : VsCell → Bool) : Prop where
  | skips (unwritten : ∀ cell, written cell = false) (write_eq : ∀ regs, write regs = .ok regs)
  | stops (stop : VsRegisters F → VsStop F) (alike : ∀ left right, (stop left).Alike (stop right))
      (write_eq : ∀ regs, write regs = .error (stop regs))
  | assigns (value : Vec4 F) (address : written .a0 = false)
      (write_eq : ∀ regs, write regs = .ok (regs.assign written value))

omit [ScalarFunctions F] in
/-- A write to registers that agree leaves registers that do, also on what is written. -/
theorem VsWrites.matches {write : VsRegisters F → Except (VsStop F) (VsRegisters F)} {written : VsCell → Bool}
    (writes : VsWrites write written) (agree : Agree VsRegisters.cell cells left right) :
    Matches (Agree VsRegisters.cell (fun cell => cells cell || written cell)) VsStop.Alike (write left)
      (write right) := by
  cases writes with
  | skips unwritten write_eq =>
    rw [write_eq, write_eq]
    exact .ok (agree.mono (by simp [unwritten]))
  | stops stop alike write_eq =>
    rw [write_eq, write_eq]
    exact .stop (alike _ _)
  | assigns value address write_eq =>
    rw [write_eq, write_eq]
    exact .ok (assigned_agree agree value address)

omit [ScalarFunctions F] in
/-- A write changes nothing but its cells. -/
theorem VsWrites.confined {write : VsRegisters F → Except (VsStop F) (VsRegisters F)} {written : VsCell → Bool}
    (writes : VsWrites write written) : Confined VsRegisters.cell write written := by
  intro regs next completed
  cases writes with
  | skips unwritten write_eq =>
    rw [write_eq] at completed
    cases completed
    exact Agree.refl _ _ _
  | stops stop alike write_eq =>
    rw [write_eq] at completed
    cases completed
  | assigns value address write_eq =>
    rw [write_eq] at completed
    cases completed
    exact assign_confined regs value address

omit [ScalarFunctions F] in
/-- A write that some slots do not have. -/
theorem VsWrites.guarded {write : VsRegisters F → Except (VsStop F) (VsRegisters F)} {written : VsCell → Bool}
    (writes : VsWrites write written) (guard : Prop) [Decidable guard] :
    VsWrites (fun regs => if guard then write regs else .ok regs) (fun cell => decide guard && written cell) := by
  by_cases holds : guard
  · simpa only [if_pos holds, decide_eq_true holds, Bool.true_and] using writes
  · exact .skips (fun cell => by rw [decide_eq_false holds, Bool.false_and]) (fun regs => if_neg holds)

omit [ScalarFunctions F] in
/-- A temporary is such a write. -/
theorem writeTemp_writes (reg mask : Nat) (value : Vec4 F) :
    VsWrites (fun regs => writeTemp regs reg value mask) (tempCells reg mask) := by
  by_cases inside : reg ≤ 12
  · exact .assigns value rfl (fun regs => by rw [writeTemp_eq, if_pos inside])
  · exact .stops (fun _ => .outOfBounds) (fun _ _ => trivial) (fun regs => by rw [writeTemp_eq, if_neg inside])

omit [ScalarFunctions F] in
/-- So is an output. -/
theorem writeOutput_writes (slot : VsSlot) (value : Vec4 F) : VsWrites (writeOutput slot value) slot.outputCells := by
  by_cases constant : slot.outFile = .constant
  · by_cases outside : 191 < slot.outAddress
    · exact .stops (.error _) (fun _ _ => rfl) (fun regs => by rw [writeOutput_eq, if_pos constant, if_pos outside])
    · exact .assigns value rfl (fun regs => by rw [writeOutput_eq, if_pos constant, if_neg outside])
  · by_cases reserved : validOutputIndex (slot.outAddress % 16) = false
    · exact .stops (.error _) (fun _ _ => rfl) (fun regs => by rw [writeOutput_eq, if_neg constant, if_pos reserved])
    · exact .assigns value rfl (fun regs => by rw [writeOutput_eq, if_neg constant, if_neg reserved])

omit [ScalarFunctions F] in
/-- So is the temporary of the MAC result. -/
theorem writeMacTemp_writes (slot : VsSlot) (result : Vec4 F) : VsWrites (writeMacTemp slot result) slot.macCells :=
  (writeTemp_writes slot.tempReg slot.macMask result).guarded _

omit [ScalarFunctions F] in
/-- So is that of the ILU result. -/
theorem writeIluTemp_writes (slot : VsSlot) (result : Vec4 F) : VsWrites (writeIluTemp slot result) slot.iluCells :=
  (writeTemp_writes (if slot.mac ≠ .nop then 1 else slot.tempReg) slot.iluMask result).guarded _

omit [ScalarFunctions F] in
/-- So is the output of a slot. -/
theorem writeSlotOutput_writes (slot : VsSlot) (macResult iluResult : Vec4 F) :
    VsWrites (writeSlotOutput slot macResult iluResult) slot.outCells := by
  have chosen := (writeOutput_writes slot (if slot.outFromIlu then iluResult else macResult)).guarded
    (slot.outMask ≠ 0 ∧ (slot.outFromIlu = true ∧ slot.ilu ≠ .nop ∨ slot.outFromIlu = false ∧ slot.mac ≠ .nop))
  have same : writeSlotOutput slot macResult iluResult = fun regs =>
      if slot.outMask ≠ 0 ∧ (slot.outFromIlu = true ∧ slot.ilu ≠ .nop ∨ slot.outFromIlu = false ∧ slot.mac ≠ .nop) then
        writeOutput slot (if slot.outFromIlu then iluResult else macResult) regs
      else .ok regs := by
    funext regs
    unfold writeSlotOutput
    cases slot.outFromIlu <;> simp
  rw [same]
  exact chosen

/-! ## Slots and programs -/

/-- What a slot leaves in the cells it writes is settled by the cells it reads. -/
theorem executeSlot_needs (slot : VsSlot) :
    Needs VsRegisters.cell VsStop.Alike (executeSlot (F := F) slot) slot.reads slot.writes := by
  intro cells left right read agree
  refine (executeMac_matches read agree).bind ?_
  rintro ⟨macResult, leftLoaded⟩ ⟨_, rightLoaded⟩ ⟨rfl, loaded⟩
  refine (executeIlu_matches (fun cell named => by simp [read cell named]) loaded).bind ?_
  rintro iluResult _ rfl
  refine ((writeMacTemp_writes slot macResult).matches loaded).bind (fun _ _ first => ?_)
  refine ((writeIluTemp_writes slot iluResult).matches first).bind (fun _ _ second => ?_)
  refine ((writeSlotOutput_writes slot macResult iluResult).matches second).mono (fun _ _ third => third.mono ?_)
  intro cell inside
  simpa only [VsSlot.writes, Bool.or_assoc] using inside

/-- The MAC unit changes nothing but the address register, where a slot loads it. -/
theorem executeMac_confined {before loaded : VsRegisters F} {result : Vec4 F}
    (completed : executeMac slot before = .ok (result, loaded)) :
    Agree VsRegisters.cell (fun cell => !slot.addressCells cell) before loaded := by
  unfold executeMac at completed
  split at completed
  · cases completed
    exact Agree.refl _ _ _
  · obtain ⟨a, _, completed⟩ := except_bind_ok.mp completed
    obtain ⟨b, _, completed⟩ := except_bind_ok.mp completed
    obtain ⟨c, _, completed⟩ := except_bind_ok.mp completed
    split at completed
    · rename_i loads
      cases completed
      rintro (_ | _ | _ | _ | _) other
      case a0 => simp [VsSlot.addressCells, loads] at other
      all_goals rfl
    · cases completed
      exact Agree.refl _ _ _

/-- A slot changes the cells it writes. -/
theorem executeSlot_confined (slot : VsSlot) :
    Confined VsRegisters.cell (executeSlot (F := F) slot) slot.writes := by
  intro before after completed
  obtain ⟨⟨macResult, loaded⟩, mac, completed⟩ := except_bind_ok.mp completed
  obtain ⟨iluResult, _, completed⟩ := except_bind_ok.mp completed
  obtain ⟨first, macWritten, completed⟩ := except_bind_ok.mp completed
  obtain ⟨second, iluWritten, completed⟩ := except_bind_ok.mp completed
  intro cell untouched
  simp only [VsSlot.writes, Bool.not_or, Bool.and_eq_true] at untouched
  obtain ⟨⟨⟨address, notMac⟩, notIlu⟩, notOut⟩ := untouched
  calc before.cell cell = loaded.cell cell := executeMac_confined mac cell address
    _ = first.cell cell := (writeMacTemp_writes slot macResult).confined loaded first macWritten cell notMac
    _ = second.cell cell := (writeIluTemp_writes slot iluResult).confined first second iluWritten cell notIlu
    _ = after.cell cell := (writeSlotOutput_writes slot macResult iluResult).confined second after completed cell notOut

/-- A program runs slot after slot. -/
theorem executeSlots_eq (slots : List VsSlot) (regs : VsRegisters F) :
    executeSlots slots regs = runAll executeSlot slots regs := by
  induction slots generalizing regs with
  | nil => rfl
  | cons slot rest inductionHypothesis =>
    rw [executeSlots, runAll]
    exact bind_congr (fun next => inductionHypothesis next)

/-- **A program is a function of its live cells.** Two register files that agree on the cells that
are live in front of a program both run to the same values of the cells that are wanted, or both
stop alike; and a program that completes has changed no cell that none of its slots writes.

Proof: a slot needs only the cells it reads and changes only those it writes. The liveness of a
whole program is composed of that backwards. -/
theorem program_cells (program : VsProgram) :
    (∀ (live : VsCell → Bool) (left right : VsRegisters F),
      Agree VsRegisters.cell (liveIn VsSlot.reads VsSlot.writes program.slots live) left right →
      Matches (Agree VsRegisters.cell live) VsStop.Alike (vsExecute program left) (vsExecute program right)) ∧
    ∀ before after : VsRegisters F, vsExecute program before = .ok after →
      ∀ cell, (∀ slot ∈ program.slots, slot.writes cell = false) → after.cell cell = before.cell cell := by
  constructor
  · intro live left right agree
    unfold vsExecute
    split
    · rw [executeSlots_eq, executeSlots_eq]
      exact live_run (fun slot _ => executeSlot_needs slot) agree
    · exact .stop rfl
  · intro before after completed cell untouched
    unfold vsExecute at completed
    split at completed
    · rw [executeSlots_eq] at completed
      refine (confined_run (fun slot _ => executeSlot_confined slot) completed cell ?_).symm
      simpa using untouched
    · cases completed

/-- The transform of a position by a constant: only what the swizzles choose is live, and not the
old output. -/
example : let slot : VsSlot := { mac := .mul, inputIndex := 3, a := { file := .v, swizzle := ![.x, .x, .y, .y] }
                                 constIndex := 7, b := { file := .c }, outMask := 15 }
    let live := liveIn VsSlot.reads VsSlot.writes [slot] (fun cell => cell == .o 0 2)
    (live (.v 3 0), live (.v 3 2), live (.c 7 3), live (.c 8 3), live .a0, live (.o 0 2)) =
      (true, false, true, false, false, false) := by decide

end execution

end SeriesxEmu
