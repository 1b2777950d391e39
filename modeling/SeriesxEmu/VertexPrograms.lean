import SeriesxEmu.VertexMicrocode

/-!
# Running decoded vertex programs

The decoder checks the operands and the destinations that its usage tables name, and the
interpreter decides again what it reads and writes. What the decoder accepts runs without
leaving a register array. The tables leave out the first operand of an addition, and an
address that a slot loads is already there when the other unit of the slot reads.
-/

namespace SeriesxEmu

universe u

open Scalar ScalarFunctions

/-- A computation that succeeds has succeeded step by step. -/
theorem except_bind_ok {ε α β : Type u} {first : Except ε α} {rest : α → Except ε β} {result : β} :
    (first >>= rest) = .ok result ↔ ∃ value, first = .ok value ∧ rest value = .ok result := by
  constructor
  · intro done
    cases first with
    | error stop => cases done
    | ok value => exact ⟨value, rfl, done⟩
  · rintro ⟨value, rfl, done⟩
    exact done

/-! ## What the decoder has checked -/

/-- The checks of a slot, by what they are about. -/
structure VsSlot.Checked (slot : VsSlot) : Prop where
  ilu : slot.ilu ≠ .nop → slot.c.fileOk = true
  macA : slot.mac ≠ .nop → macUsesA slot.mac = true → slot.a.fileOk = true
  macB : slot.mac ≠ .nop → macUsesB slot.mac = true → slot.b.fileOk = true
  macC : slot.mac ≠ .nop → macUsesC slot.mac = true → slot.c.fileOk = true
  temp : slot.writesTemp = true → slot.tempReg ≤ 12
  constant : slot.outMask ≠ 0 → slot.outFile = .constant → slot.outAddress ≤ 191
  output : slot.outMask ≠ 0 → slot.outFile ≠ .constant → validOutputIndex (slot.outAddress % 16) = true

/-- What the decoder accepts has been checked. -/
theorem VsSlot.Accepted.checked {slot : VsSlot} (accepted : slot.Accepted) : slot.Checked := by
  have passed := accepted.check
  unfold VsSlot.check at passed
  split_ifs at passed with ilu macA macB macC temp constant output
  refine ⟨fun used => ?_, fun used reads => ?_, fun used reads => ?_, fun used reads => ?_, fun writes => ?_,
    fun some isConstant => ?_, fun some other => ?_⟩
  · exact Bool.eq_true_of_not_eq_false (fun bad => ilu ⟨used, bad⟩)
  · exact Bool.eq_true_of_not_eq_false (fun bad => macA ⟨used, reads, bad⟩)
  · exact Bool.eq_true_of_not_eq_false (fun bad => macB ⟨used, reads, bad⟩)
  · exact Bool.eq_true_of_not_eq_false (fun bad => macC ⟨used, reads, bad⟩)
  · exact Nat.le_of_not_lt (fun beyond => temp ⟨writes, beyond⟩)
  · exact Nat.le_of_not_lt (fun beyond => constant ⟨some, isConstant, beyond⟩)
  · have isRegister : slot.outFile = .register := by
      cases file : slot.outFile with
      | constant => exact absurd file other
      | register => rfl
    exact Bool.eq_true_of_not_eq_false (fun bad => output ⟨some, isRegister, bad⟩)

/-- Every slot of a valid program fits and has been checked. -/
theorem decoded_slot {words : Option (List (BitVec 32))} {slotCount : Nat}
    (valid : (vsDecodeProgram words slotCount).valid = true) {slot : VsSlot}
    (member : slot ∈ (vsDecodeProgram words slotCount).slots) : slot.Fits ∧ slot.Checked := by
  cases words with
  | none => cases valid
  | some words =>
    obtain ⟨slots, _, decodes, _, same⟩ := decodeSlots_valid valid
    have result : vsDecodeProgram (some words) slotCount = { slots, valid := true } := same
    rw [result] at member
    obtain ⟨position, found⟩ := List.mem_iff_getElem?.mp member
    obtain ⟨_, fits, accepted⟩ := decodeSlot_ok (decodes position slot found)
    exact ⟨fits, accepted.checked⟩

variable {F : Type u}

/-! ## Harmless computations -/

/-- The computation can only stop because a relative constant is out of range. -/
def Harmless {α : Type u} (result : Except (VsStop F) α) : Prop :=
  ∀ stop, result = .error stop → ∃ regs, stop = .error "relative constant index out of range" regs

/-- A value is harmless. -/
theorem Harmless.ok {α : Type u} (value : α) : Harmless (.ok value : Except (VsStop F) α) := by
  intro stop impossible
  cases impossible

/-- So is one harmless computation after another. -/
theorem Harmless.bind {α β : Type u} {first : Except (VsStop F) α} {rest : α → Except (VsStop F) β}
    (harmless : Harmless first) (next : ∀ value, first = .ok value → Harmless (rest value)) :
    Harmless (first >>= rest) := by
  cases first with
  | error stop =>
    intro other same
    cases same
    exact harmless stop rfl
  | ok value => exact next value rfl

/-- So is reading inside an array. -/
theorem read_harmless {n index : Nat} (array : Fin n → Vec4 F) (inside : index < n) :
    Harmless (VsRegisters.read array index) := by
  rw [VsRegisters.read, dif_pos inside]
  exact Harmless.ok _

/-- So is writing inside it. -/
theorem write_harmless {n index : Nat} (array : Fin n → Vec4 F) (change : Vec4 F → Vec4 F) (inside : index < n) :
    Harmless (VsRegisters.write array index change) := by
  rw [VsRegisters.write, dif_pos inside]
  exact Harmless.ok _

variable {slot : VsSlot} {regs : VsRegisters F}

/-- A constant outside the file reads as an error with its own text, never beyond the array. -/
theorem readConstant_harmless (slot : VsSlot) (regs : VsRegisters F) (a0 : BitVec 32) :
    Harmless (slot.readConstant regs a0) := by
  unfold VsSlot.readConstant
  split
  · intro stop same
    cases same
    exact ⟨regs, rfl⟩
  · exact read_harmless _ (by omega)

/-- A register whose file can be read lies inside it. -/
theorem sourceRegister_harmless {source : VsSource} (usable : source.fileOk = true) (input : slot.inputIndex < 16) :
    Harmless (sourceRegister slot source regs) := by
  unfold sourceRegister
  cases file : source.file with
  | none => simp [VsSource.fileOk, file] at usable
  | r =>
    simp only [VsSource.fileOk, file, validRIndex, bne_self_eq_false, Bool.false_or, Bool.and_eq_true,
      decide_eq_true_eq] at usable
    simp only
    split
    · exact read_harmless _ (by decide)
    · exact read_harmless _ (by omega)
  | v => exact read_harmless _ input
  | c => exact readConstant_harmless _ _ _

/-- Temporaries are numbered up to 12. -/
theorem writeTemp_harmless {reg : Nat} (inside : reg ≤ 12) (value : Vec4 F) (mask : Nat) :
    Harmless (writeTemp regs reg value mask) := by
  unfold writeTemp
  split
  · exact Harmless.bind (write_harmless _ _ (by decide)) (fun _ _ => Harmless.ok _)
  · exact Harmless.bind (write_harmless _ _ (by omega)) (fun _ _ => Harmless.ok _)

/-- An output that has been checked lies inside its file. -/
theorem writeOutput_harmless (checked : slot.Checked) (masked : slot.outMask ≠ 0) (value : Vec4 F) :
    Harmless (writeOutput slot value regs) := by
  unfold writeOutput
  split
  · rename_i isConstant
    have inside := checked.constant masked isConstant
    rw [if_neg (Nat.not_lt.mpr inside)]
    exact Harmless.bind (write_harmless _ _ (by omega)) (fun _ _ => Harmless.ok _)
  · rename_i other
    rw [if_neg (by rw [checked.output masked other]; decide)]
    exact Harmless.bind (write_harmless _ _ (Nat.mod_lt _ (by decide))) (fun _ _ => Harmless.ok _)

/-- The results of a checked slot are written inside the files. -/
theorem writeResults_harmless (checked : slot.Checked) (macResult iluResult : Vec4 F) :
    Harmless (writeResults slot macResult iluResult regs) := by
  unfold writeResults
  refine Harmless.bind ?_ (fun first _ => Harmless.bind ?_ (fun second _ => ?_))
  · unfold writeMacTemp
    split
    · rename_i writes
      refine writeTemp_harmless (checked.temp ?_) _ _
      simp [VsSlot.writesTemp, writes.1, writes.2.2]
    · exact Harmless.ok _
  · unfold writeIluTemp
    split
    · rename_i writes
      refine writeTemp_harmless ?_ _ _
      split
      · decide
      · exact checked.temp (by simp [VsSlot.writesTemp, writes.1, writes.2])
    · exact Harmless.ok _
  · unfold writeSlotOutput
    split
    · rename_i writes
      exact writeOutput_harmless checked writes.1 _
    · split
      · rename_i writes
        exact writeOutput_harmless checked writes.1 _
      · exact Harmless.ok _

variable [ScalarFunctions F]

/-- An operand is read inside its file. -/
theorem readSource_harmless {source : VsSource} (usable : source.fileOk = true) (input : slot.inputIndex < 16)
    (forceScalar : Bool) : Harmless (readSource slot source regs forceScalar) := by
  unfold readSource
  exact Harmless.bind (sourceRegister_harmless usable input) (fun base _ => Harmless.ok _)

/-- So is one that is read if the operation uses it. -/
theorem readUsed_harmless {uses : Bool} {source : VsSource} (usable : uses = true → source.fileOk = true)
    (input : slot.inputIndex < 16) : Harmless (readUsed uses slot source regs) := by
  unfold readUsed
  split
  · exact readSource_harmless (usable ‹_›) input false
  · exact Harmless.ok _

/-- The MAC unit reads the operands that its operation uses. -/
theorem executeMac_harmless (checked : slot.Checked) (input : slot.inputIndex < 16) :
    Harmless (executeMac slot regs) := by
  unfold executeMac
  split
  · exact Harmless.ok _
  · rename_i used
    refine Harmless.bind (readUsed_harmless (checked.macA used) input) (fun a _ => ?_)
    refine Harmless.bind (readUsed_harmless (checked.macB used) input) (fun b _ => ?_)
    refine Harmless.bind (readUsed_harmless (checked.macC used) input) (fun c _ => ?_)
    split <;> exact Harmless.ok _

/-- The ILU reads operand C. -/
theorem executeIlu_harmless (checked : slot.Checked) (input : slot.inputIndex < 16) :
    Harmless (executeIlu slot regs) := by
  unfold executeIlu
  split
  · exact Harmless.ok _
  · rename_i used
    exact Harmless.bind (readSource_harmless (checked.ilu used) input _) (fun c _ => Harmless.ok _)

/-- A checked slot is harmless in every file of registers. -/
theorem executeSlot_harmless (fits : slot.Fits) (checked : slot.Checked) : Harmless (executeSlot slot regs) := by
  unfold executeSlot
  exact Harmless.bind (executeMac_harmless checked fits.inputIndex) (fun _ _ =>
    Harmless.bind (executeIlu_harmless checked fits.inputIndex) (fun _ _ => writeResults_harmless checked _ _))

/-- A program of checked slots is harmless.

Proof: induction on the slots. -/
theorem executeSlots_harmless {slots : List VsSlot} (each : ∀ slot ∈ slots, slot.Fits ∧ slot.Checked) :
    Harmless (executeSlots slots regs) := by
  induction slots generalizing regs with
  | nil => exact Harmless.ok _
  | cons slot slots inductionHypothesis =>
    obtain ⟨fits, checked⟩ := each slot (List.mem_cons_self ..)
    exact Harmless.bind (executeSlot_harmless fits checked)
      (fun _ _ => inductionHypothesis (fun other member => each other (List.mem_cons_of_mem _ member)))

/-- **Decoded programs execute safely.** In every file of registers a valid program stays inside of the
register arrays, and the only error is that of a relative constant.

Proof: every register of an accepted slot is in range, so only a relative constant can leave it.
Each unit is harmless on its own, and so is their sequence. -/
theorem decoded_programs_safe (words : Option (List (BitVec 32))) (slotCount : Nat)
    (valid : (vsDecodeProgram words slotCount).valid = true) (regs : VsRegisters F) :
    vsExecute (vsDecodeProgram words slotCount) regs ≠ .error .outOfBounds ∧
      ∀ text after, vsExecute (vsDecodeProgram words slotCount) regs = .error (.error text after) →
        text = "relative constant index out of range" := by
  have harmless : Harmless (vsExecute (vsDecodeProgram words slotCount) regs) := by
    rw [vsExecute, if_pos valid]
    exact executeSlots_harmless (fun slot member => decoded_slot valid member)
  refine ⟨fun outside => ?_, fun text after failed => ?_⟩
  · obtain ⟨_, impossible⟩ := harmless _ outside
    cases impossible
  · obtain ⟨_, same⟩ := harmless _ failed
    cases same
    rfl

/-- A program of one slot, as the tests build it. -/
def pairedProgram : VsProgram := vsDecodeProgram (some (buildProgram [pairedSlot])) 1

/-- A program that uses both units reads and writes inside the files. -/
theorem pairedProgram_safe :
    @vsExecute ℚ Scalar.rationals pairedProgram (@vsInitRegisters ℚ Scalar.rationals) ≠ .error .outOfBounds ∧
      ∀ text after,
        @vsExecute ℚ Scalar.rationals pairedProgram (@vsInitRegisters ℚ Scalar.rationals) = .error (.error text after) →
          text = "relative constant index out of range" :=
  @decoded_programs_safe ℚ Scalar.rationals (some (buildProgram [pairedSlot])) 1 (by decide +kernel) _

/-! ## The operands of the MAC unit -/

/-- The formula of an operation mentions its first operand. -/
def mentionsA : VsMacOp → Bool
  | .nop | .arl => false
  | _ => true

/-- The formula of an operation mentions its second operand. -/
def mentionsB : VsMacOp → Bool
  | .nop | .mov | .add | .arl => false
  | _ => true

/-- The formula of an operation mentions its third operand. -/
def mentionsC : VsMacOp → Bool
  | .add | .mad => true
  | _ => false

/-- The program runs the slot on these registers. -/
def VsProgram.Executes (program : VsProgram) (regs : VsRegisters F) (slot : VsSlot) (before : VsRegisters F) : Prop :=
  program.valid = true ∧
    ∃ early late, program.slots = early ++ slot :: late ∧ executeSlots early regs = .ok before

/-- The MAC result of the slot is computed from the operands that the slot names. -/
def UsesOperands (slot : VsSlot) (before : VsRegisters F) : Prop :=
  ∀ result loaded, executeMac slot before = .ok (result, loaded) → ∃ a b c,
    (mentionsA slot.mac = true → readSource slot slot.a before false = .ok a) ∧
    (mentionsB slot.mac = true → readSource slot slot.b before false = .ok b) ∧
    (mentionsC slot.mac = true → readSource slot slot.c before false = .ok c) ∧
    result = macCompute slot.mac a b c

/-- Leaving the first operand out of an addition makes no difference. -/
def AddsNothing (slot : VsSlot) (before : VsRegisters F) : Prop :=
  ∀ c, readSource slot slot.c before false = .ok c →
    ∃ a, readSource slot slot.a before false = .ok a ∧ ∀ i, literal 0 + c i = a i + c i

/-- How the MAC unit comes to its result. -/
theorem executeMac_ok {before loaded : VsRegisters F} {result : Vec4 F} (used : slot.mac ≠ .nop)
    (done : executeMac slot before = .ok (result, loaded)) : ∃ a b c,
      readUsed (macUsesA slot.mac) slot slot.a before = .ok a ∧
      readUsed (macUsesB slot.mac) slot slot.b before = .ok b ∧
      readUsed (macUsesC slot.mac) slot slot.c before = .ok c ∧
      ((slot.mac = .arl ∧ result = a ∧ loaded = { before with a0 := loadedAddress a }) ∨
        (slot.mac ≠ .arl ∧ result = macCompute slot.mac a b c ∧ loaded = before)) := by
  rw [executeMac, if_neg used] at done
  obtain ⟨a, readA, done⟩ := except_bind_ok.mp done
  obtain ⟨b, readB, done⟩ := except_bind_ok.mp done
  obtain ⟨c, readC, done⟩ := except_bind_ok.mp done
  refine ⟨a, b, c, readA, readB, readC, ?_⟩
  by_cases loads : slot.mac = .arl
  · rw [if_pos loads] at done
    cases done
    exact Or.inl ⟨loads, rfl, rfl⟩
  · rw [if_neg loads] at done
    cases done
    exact Or.inr ⟨loads, rfl, rfl⟩

/-- An operand that is used is read. -/
theorem readUsed_true {uses : Bool} {source : VsSource} {before : VsRegisters F} {value : Vec4 F} (reads : uses = true)
    (done : readUsed uses slot source before = .ok value) : readSource slot source before false = .ok value := by
  rwa [readUsed, if_pos reads] at done

/-- An addition computes with zero in place of its first operand. -/
theorem executeMac_add {before : VsRegisters F} (adds : slot.mac = .add) {c : Vec4 F}
    (readC : readSource slot slot.c before false = .ok c) :
    executeMac slot before = .ok (fun i => literal 0 + c i, before) := by
  have used : slot.mac ≠ .nop := by rw [adds]; decide
  rw [executeMac, if_neg used, adds]
  simp only [macUsesA, macUsesB, macUsesC, readUsed, Bool.false_eq_true, ↓reduceIte, reduceCtorEq, readC]
  rfl

/-- A slot computes with its operands unless it is an addition for which the first one matters. -/
theorem usesOperands_iff {before : VsRegisters F} (used : slot.mac ≠ .nop) (computes : slot.mac ≠ .arl) :
    UsesOperands slot before ↔ (slot.mac = .add → AddsNothing slot before) := by
  constructor
  · intro uses adds c readC
    obtain ⟨a, b, c', readA, _, readC', same⟩ := uses _ _ (executeMac_add adds readC)
    rw [adds] at readA readC' same
    obtain rfl := Except.ok.inj ((readC' rfl).symm.trans readC)
    exact ⟨a, readA rfl, fun i => congrFun same i⟩
  · intro nothing result loaded done
    obtain ⟨a, b, c, readA, readB, readC, outcome⟩ := executeMac_ok used done
    obtain ⟨_, same, _⟩ := outcome.resolve_left (fun loads => computes loads.1)
    cases op : slot.mac with
    | nop => exact absurd op used
    | arl => exact absurd op computes
    | add =>
      rw [op] at readA readC same
      obtain ⟨first, readFirst, neutral⟩ := nothing op c (readUsed_true rfl readC)
      obtain rfl := Except.ok.inj readA
      refine ⟨first, b, c, fun _ => readFirst, fun mentioned => absurd mentioned (by decide),
        fun _ => readUsed_true rfl readC, ?_⟩
      rw [same]
      funext i
      exact neutral i
    | _ =>
      rw [op] at readA readB readC same
      exact ⟨a, b, c, fun mentioned => readUsed_true rfl readA,
        fun mentioned => readUsed_true (by first | rfl | cases mentioned) readB,
        fun mentioned => readUsed_true (by first | rfl | cases mentioned) readC, same⟩

/-- **MAC operands.** In every slot that a program runs the MAC result is that of the slot's operands, if and
only if leaving out the first operand makes no difference to any addition that is run.

Proof: every operation but one is computed from the operands it names. The addition takes a zero
for its first one. -/
theorem mac_operands_iff (program : VsProgram) (regs : VsRegisters F) :
    (∀ slot before, program.Executes regs slot before → slot.mac ≠ .nop → slot.mac ≠ .arl → UsesOperands slot before) ↔
      ∀ slot before, program.Executes regs slot before → slot.mac = .add → AddsNothing slot before := by
  constructor
  · intro uses slot before executes adds
    have used : slot.mac ≠ .nop := by rw [adds]; decide
    have computes : slot.mac ≠ .arl := by rw [adds]; decide
    exact (usesOperands_iff used computes).mp (uses slot before executes used computes) adds
  · intro nothing slot before executes used computes
    exact (usesOperands_iff used computes).mpr (nothing slot before executes)

/-- `ADD oT0, v0, v0`. -/
def doublingSlot : VsSlot :=
  { mac := .add, a := { file := .v }, c := { file := .v }, outMask := 0xF, outAddress := 9, final := true }

/-- Registers that hold the same number everywhere. -/
def uniformRegisters (value : ℚ) : VsRegisters ℚ where
  v := fun _ _ => value
  c := fun _ _ => value
  r := fun _ _ => value
  o := fun _ _ => value

/-- Of ones the sum is one. -/
theorem doublingSlot_loses : ¬ ∀ (F : Type) [ScalarFunctions F] (words : Option (List (BitVec 32))) (slotCount : Nat)
    (regs : VsRegisters F) (slot : VsSlot) (before : VsRegisters F),
    (vsDecodeProgram words slotCount).Executes regs slot before → slot.mac ≠ .nop → slot.mac ≠ .arl →
      UsesOperands slot before := by
  intro always
  let _ := rationals
  have decoded : vsDecodeProgram (some (buildProgram [doublingSlot])) 1 = { slots := [doublingSlot], valid := true } :=
    (decodeSlots_ends ⟨[], doublingSlot, rfl, fun slot member => absurd member List.not_mem_nil, rfl⟩
      (fun position slot found => by
        have fits : doublingSlot.Fits := by constructor <;> decide
        have accepted : doublingSlot.Accepted := by constructor <;> decide
        cases position with
        | zero =>
          cases found
          rw [slotWords_build rfl]
          exact (build_encodes _ fits).decode accepted
        | succ position => cases found) (by decide))
  have uses := always ℚ (some (buildProgram [doublingSlot])) 1 (uniformRegisters 1) doublingSlot (uniformRegisters 1)
    (by rw [decoded]; exact ⟨rfl, [], [], rfl, rfl⟩) (by decide) (by decide)
  have nothing := (usesOperands_iff (by decide) (by decide)).mp uses rfl (fun _ => 1) rfl
  obtain ⟨a, readA, neutral⟩ := nothing
  have one : readSource doublingSlot doublingSlot.a (uniformRegisters 1) false = .ok (fun _ => 1) := rfl
  obtain rfl := Except.ok.inj (one.symm.trans readA)
  exact absurd (neutral 0) (by decide +kernel)

/-! ## The two units of a slot -/

/-- A slot with both units on one state: both results from the registers before the slot, then the writes. -/
def parallelSlot (slot : VsSlot) (regs : VsRegisters F) : Except (VsStop F) (VsRegisters F) := do
  let (macResult, loaded) ← executeMac slot regs
  let iluResult ← executeIlu slot regs
  writeResults slot macResult iluResult loaded

/-- The ILU operand is the one that the registers before the slot hold. -/
def ReadsBefore (slot : VsSlot) (regs : VsRegisters F) : Prop :=
  ∀ macResult loaded, executeMac slot regs = .ok (macResult, loaded) →
    ∃ operand, readSource slot slot.c loaded (iluForcesScalar slot.ilu) = .ok operand ∧
      readSource slot slot.c regs (iluForcesScalar slot.ilu) = .ok operand

/-- If the slot loads the address of its own ILU operand, the constants at the old and at the new
address give the same operand. -/
def AddressKept (slot : VsSlot) (regs : VsRegisters F) : Prop :=
  slot.mac = .arl → slot.c.file = .c → slot.a0Relative = true → ∀ a, readSource slot slot.a regs false = .ok a →
    ∃ old new, slot.readConstant regs regs.a0 = .ok old ∧ slot.readConstant regs (loadedAddress a) = .ok new ∧
      slot.c.operand (iluForcesScalar slot.ilu) old = slot.c.operand (iluForcesScalar slot.ilu) new

omit [ScalarFunctions F] in
/-- The constant that is addressed does not depend on what A0 is loaded with. -/
theorem readConstant_a0 (slot : VsSlot) (regs : VsRegisters F) (loaded a0 : BitVec 32) (base : Vec4 F) :
    slot.readConstant { regs with a0 := loaded } a0 = .ok base ↔ slot.readConstant regs a0 = .ok base := by
  unfold VsSlot.readConstant
  split
  · exact ⟨fun impossible => (by cases impossible), fun impossible => (by cases impossible)⟩
  · rfl

omit [ScalarFunctions F] in
/-- The register of an operand does not depend on A0 unless it is a relative constant. -/
theorem sourceRegister_a0 (regs : VsRegisters F) (loaded : BitVec 32) {source : VsSource}
    (direct : ¬ (source.file = .c ∧ slot.a0Relative = true)) (base : Vec4 F) :
    sourceRegister slot source { regs with a0 := loaded } = .ok base ↔ sourceRegister slot source regs = .ok base := by
  unfold sourceRegister
  cases file : source.file with
  | none => exact ⟨fun impossible => (by cases impossible), fun impossible => (by cases impossible)⟩
  | r => rfl
  | v => rfl
  | c =>
    have fixed : slot.a0Relative ≠ true := fun relative => direct ⟨file, relative⟩
    have same : slot.constantIndex loaded = slot.constantIndex regs.a0 := by
      rw [VsSlot.constantIndex, VsSlot.constantIndex, if_neg fixed, if_neg fixed]
    refine (readConstant_a0 slot regs loaded loaded base).trans ?_
    rw [VsSlot.readConstant, VsSlot.readConstant, same]

/-- An operand is its register with sign and selectors. -/
theorem readSource_ok {source : VsSource} {forceScalar : Bool} {operand : Vec4 F} :
    readSource slot source regs forceScalar = .ok operand ↔
      ∃ base, sourceRegister slot source regs = .ok base ∧ source.operand forceScalar base = operand := by
  unfold readSource
  rw [except_bind_ok]
  refine exists_congr (fun base => and_congr_right (fun _ => ?_))
  exact ⟨fun same => Except.ok.inj same, fun same => congrArg Except.ok same⟩

/-- The ILU operand of the registers before the slot is read if and only if the address is kept. -/
theorem readsBefore_iff (used : slot.mac ≠ .nop) {macResult operand : Vec4 F} {loaded : VsRegisters F}
    (done : executeMac slot regs = .ok (macResult, loaded))
    (reads : readSource slot slot.c loaded (iluForcesScalar slot.ilu) = .ok operand) :
    ReadsBefore slot regs ↔ AddressKept slot regs := by
  obtain ⟨base, register, same⟩ := readSource_ok.mp reads
  obtain ⟨a, _, _, readA, _, _, outcome⟩ := executeMac_ok used done
  constructor
  · intro before loads relative addressed a' readA'
    obtain ⟨_, _, rfl⟩ := outcome.resolve_right (fun computes => computes.1 loads)
    have first : a = a' := by
      rw [loads] at readA
      exact Except.ok.inj ((readUsed_true rfl readA).symm.trans readA')
    subst first
    obtain ⟨operand', reads', old⟩ := before _ _ done
    obtain rfl := Except.ok.inj (reads.symm.trans reads')
    obtain ⟨base', register', same'⟩ := readSource_ok.mp old
    unfold sourceRegister at register register'
    rw [relative] at register register'
    exact ⟨base', base, register', (readConstant_a0 slot regs _ _ base).mp register, same'.trans same.symm⟩
  · intro kept macResult' loaded' done'
    obtain ⟨_, rfl⟩ := Prod.mk.inj (Except.ok.inj (done.symm.trans done'))
    refine ⟨operand, reads, readSource_ok.mpr ?_⟩
    rcases outcome with ⟨loads, _, rfl⟩ | ⟨_, _, rfl⟩
    · by_cases relative : slot.c.file = .c ∧ slot.a0Relative = true
      · rw [loads] at readA
        obtain ⟨old, new, atOld, atNew, agree⟩ := kept loads relative.1 relative.2 a (readUsed_true rfl readA)
        unfold sourceRegister at register ⊢
        rw [relative.1] at register ⊢
        have here := (readConstant_a0 slot regs _ _ base).mp register
        obtain rfl := Except.ok.inj (here.symm.trans atNew)
        exact ⟨old, atOld, agree.trans same⟩
      · exact ⟨base, (sourceRegister_a0 regs _ relative base).mp register, same⟩
    · exact ⟨base, register, same⟩

/-- **Parallel units.** When a slot with both units succeeds, its ILU operand is that of the
registers before the slot and its effect is that of both results from them, if and only if the
address of the operand is kept.

Proof: only the address register of one unit can change what the other reads, and a relative operand
reads it. -/
theorem parallel_units_iff (slot : VsSlot) (mac : slot.mac ≠ .nop) (ilu : slot.ilu ≠ .nop) (regs after : VsRegisters F)
    (succeeds : executeSlot slot regs = .ok after) :
    (ReadsBefore slot regs ∧ parallelSlot slot regs = .ok after) ↔ AddressKept slot regs := by
  obtain ⟨⟨macResult, loaded⟩, done, rest⟩ := except_bind_ok.mp succeeds
  obtain ⟨iluResult, computed, written⟩ := except_bind_ok.mp rest
  rw [executeIlu, if_neg ilu] at computed
  obtain ⟨operand, reads, result⟩ := except_bind_ok.mp computed
  rw [← readsBefore_iff mac done reads, and_iff_left_iff_imp]
  intro before
  obtain ⟨operand', reads', old⟩ := before _ _ done
  obtain rfl := Except.ok.inj (reads.symm.trans reads')
  refine except_bind_ok.mpr ⟨(macResult, loaded), done, except_bind_ok.mpr ⟨iluResult, ?_, written⟩⟩
  rw [executeIlu, if_neg ilu]
  exact except_bind_ok.mpr ⟨operand, old, result⟩

/-- `ARL A0, v0` paired with `MOV R1, c[A0]`. -/
def addressingSlot : VsSlot :=
  { mac := .arl, a := { file := .v }, ilu := .mov, c := { file := .c }, iluMask := 0xF, a0Relative := true }

/-- The slot that loads A0 is one that the decoder makes. -/
theorem addressingSlot_decodes : vsDecodeSlot (SB.build addressingSlot) = .ok addressingSlot :=
  (build_encodes addressingSlot (by constructor <;> decide)).decode (by constructor <;> decide)

/-- Ones everywhere, but for the constant that A0 addresses. -/
def onesButFirst : VsRegisters ℚ := { uniformRegisters 1 with c := fun index _ => if index = 0 then 0 else 1 }

/-- It runs both units in parallel exactly if the address is kept. -/
theorem addressingSlot_parallel : ∃ after, @executeSlot ℚ rationals addressingSlot onesButFirst = .ok after ∧
    ((@ReadsBefore ℚ rationals addressingSlot onesButFirst ∧
      @parallelSlot ℚ rationals addressingSlot onesButFirst = .ok after) ↔
        @AddressKept ℚ rationals addressingSlot onesButFirst) := by
  have succeeds : (@executeSlot ℚ rationals addressingSlot onesButFirst).isOk = true := by decide +kernel
  cases outcome : @executeSlot ℚ rationals addressingSlot onesButFirst with
  | ok after =>
    exact ⟨after, rfl, @parallel_units_iff ℚ rationals addressingSlot (by decide) (by decide) onesButFirst after outcome⟩
  | error stop =>
    rw [outcome] at succeeds
    cases succeeds

/-- The slot loads the address one, and its other unit reads the constant there. -/
theorem addressingSlot_misreads : ¬ ∀ (F : Type) [ScalarFunctions F] (words : SlotWords) (slot : VsSlot)
    (regs after : VsRegisters F), vsDecodeSlot words = .ok slot → slot.mac ≠ .nop → slot.ilu ≠ .nop →
      executeSlot slot regs = .ok after → ReadsBefore slot regs ∧ parallelSlot slot regs = .ok after := by
  intro always
  let _ := rationals
  have actual : (executeSlot addressingSlot onesButFirst).toOption.map (fun after => after.r 1 0) = some 1 := by
    decide +kernel
  have parallel : (parallelSlot addressingSlot onesButFirst).toOption.map (fun after => after.r 1 0) = some 0 := by
    decide +kernel
  cases outcome : executeSlot addressingSlot onesButFirst with
  | ok after =>
    rw [(always ℚ _ addressingSlot onesButFirst after addressingSlot_decodes (by decide) (by decide) outcome).2,
      ← outcome, actual] at parallel
    exact absurd parallel (by decide +kernel)
  | error stop =>
    rw [outcome] at actual
    cases actual

end SeriesxEmu
