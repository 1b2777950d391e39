import SeriesxEmu.VertexShader
import Mathlib.Tactic.IntervalCases

/-!
# Vertex microcode round trip

The slot builder of the tests stores the fields of a slot one by one, and the decoder reads
them back. The fields tile the dwords of a slot but for the first dword and the four
highest bits of the second, so that decoding and building are inverse to each other up to
these bits.
-/

namespace SeriesxEmu

open BitFields

/-! ## The builder -/

/-- `SB`: the dwords of a slot under construction. -/
abbrev SB := SlotWords

namespace SB

/-- `set`. -/
def set (w : SB) (dw : Fin 4) (bit len v : Nat) : SB :=
  Function.update w dw (setField (w dw) bit len (BitVec.ofNat 32 v))

/-- The ILU operation of the slot. -/
def ilu (w : SB) (op : VsIluOp) : SB := w.set 1 25 3 op.code

/-- The MAC operation of the slot. -/
def mac (w : SB) (op : VsMacOp) : SB := w.set 1 21 4 op.code

/-- The constant that the slot names. -/
def cst (w : SB) (index : Nat) : SB := w.set 1 13 8 index

/-- The vertex input that the slot names. -/
def vin (w : SB) (index : Nat) : SB := w.set 1 9 4 index

/-- Operand A: its file, register and sign, and the selectors of its lanes. -/
def a (w : SB) (source : VsSource) : SB :=
  (((((((w.set 2 26 2 source.file.code).set 2 28 4 source.reg).set 1 8 1 source.negate.toNat).set 1 6 2
    (source.swizzle 0).code).set 1 4 2 (source.swizzle 1).code).set 1 2 2 (source.swizzle 2).code).set 1 0 2
    (source.swizzle 3).code)

/-- Operand B, at its own places. -/
def b (w : SB) (source : VsSource) : SB :=
  (((((((w.set 2 11 2 source.file.code).set 2 13 4 source.reg).set 2 25 1 source.negate.toNat).set 2 23 2
    (source.swizzle 0).code).set 2 21 2 (source.swizzle 1).code).set 2 19 2 (source.swizzle 2).code).set 2 17 2
    (source.swizzle 3).code)

/-- Operand C, whose register number lies in two dwords. -/
def c (w : SB) (source : VsSource) : SB :=
  ((((((((w.set 3 28 2 source.file.code).set 2 0 2 ((source.reg >>> 2) &&& 3)).set 3 30 2 (source.reg &&& 3)).set 2 10 1
    source.negate.toNat).set 2 8 2 (source.swizzle 0).code).set 2 6 2 (source.swizzle 1).code).set 2 4 2
    (source.swizzle 2).code).set 2 2 2 (source.swizzle 3).code)

/-- The lanes that the MAC result is written to. -/
def macMask (w : SB) (mask : Nat) : SB := w.set 3 24 4 mask

/-- The temporary register that results are written to. -/
def temp (w : SB) (reg : Nat) : SB := w.set 3 20 4 reg

/-- The lanes that the ILU result is written to. -/
def iluMask (w : SB) (mask : Nat) : SB := w.set 3 16 4 mask

/-- The output: its lanes, its file and address, and which unit it comes from. -/
def out (w : SB) (mask : Nat) (file : VsOutFile) (address : Nat) (fromIlu : Bool) : SB :=
  (((w.set 3 12 4 mask).set 3 11 1 file.code).set 3 3 8 address).set 3 2 1 fromIlu.toNat

/-- Whether the constant is addressed relative to A0. -/
def a0 (w : SB) (relative : Bool) : SB := w.set 3 1 1 relative.toNat

/-- Whether the program ends here. -/
def final (w : SB) (last : Bool) : SB := w.set 3 0 1 last.toNat

/-- All fields set from a slot. -/
def build (slot : VsSlot) : SB :=
  (((((((((((SB.ilu (fun _ => 0) slot.ilu).mac slot.mac).cst slot.constIndex).vin slot.inputIndex).a slot.a).b
    slot.b).c slot.c).macMask slot.macMask).temp slot.tempReg).iluMask slot.iluMask).out slot.outMask slot.outFile
    slot.outAddress slot.outFromIlu).a0 slot.a0Relative |>.final slot.final

end SB

/-! ## Fields of a built slot -/

/-- A field that has been set reads as the value, as far as it fits. -/
theorem field_set_same (w : SB) (dw : Fin 4) {bit len : Nat} (v : Nat) (fits : bit + len ≤ 32) :
    field (w.set dw bit len v) dw bit len = v % 2 ^ len := by
  unfold field SB.set
  rw [Function.update_self]
  exact toNat_field_setField fits v

/-- Fields that do not overlap it stay. -/
theorem field_set_apart (w : SB) {dw dw' : Fin 4} {bit len bit' len' : Nat} (v : Nat)
    (apart : dw' ≠ dw ∨ bit + len ≤ bit' ∨ bit' + len' ≤ bit) :
    field (w.set dw bit len v) dw' bit' len' = field w dw' bit' len' := by
  unfold field SB.set
  by_cases same : dw' = dw
  · subst same
    rw [Function.update_self, field_setField_apart (apart.resolve_left (fun other => other rfl))]
  · rw [Function.update_of_ne same]

namespace VsIluOp

/-- Every ILU operation is that of its code. -/
theorem ofCode_code (op : VsIluOp) : ofCode op.code = op := by
  cases op <;> rfl

/-- Every code of three bits is that of an ILU operation. -/
theorem code_ofCode {code : Nat} (small : code < 2 ^ 3) : (ofCode code).code = code := by
  interval_cases code <;> rfl

/-- And none takes more than three bits. -/
theorem code_lt (op : VsIluOp) : op.code < 2 ^ 3 := by
  cases op <;> decide

end VsIluOp

namespace VsMacOp

/-- Every MAC operation is that of its code. -/
theorem ofCode_code (op : VsMacOp) : ofCode op.code = op := by
  cases op <;> rfl

/-- The codes up to 13 are those of MAC operations. -/
theorem code_ofCode {code : Nat} (small : code ≤ 13) : (ofCode code).code = code := by
  interval_cases code <;> rfl

/-- The last of them is 13. -/
theorem code_le (op : VsMacOp) : op.code ≤ 13 := by
  cases op <;> decide

/-- So they fit into the field, which has room for codes that are refused. -/
theorem code_lt (op : VsMacOp) : op.code < 2 ^ 4 := Nat.lt_of_le_of_lt op.code_le (by decide)

end VsMacOp

namespace VsSwizzle

/-- Every lane selector is that of its code. -/
theorem ofCode_code (lane : VsSwizzle) : ofCode lane.code = lane := by
  cases lane <;> rfl

/-- Every code of two bits selects a lane. -/
theorem code_ofCode {code : Nat} (small : code < 2 ^ 2) : ((ofCode code).code : Nat) = code := by
  interval_cases code <;> rfl

/-- Lanes are numbered in two bits. -/
theorem code_lt (lane : VsSwizzle) : (lane.code : Nat) < 2 ^ 2 := lane.code.isLt

end VsSwizzle

namespace VsSrcFile

/-- Every source file is that of its code. -/
theorem ofCode_code (file : VsSrcFile) : ofCode file.code = file := by
  cases file <;> rfl

/-- Every code of two bits is that of a source file. -/
theorem code_ofCode {code : Nat} (small : code < 2 ^ 2) : (ofCode code).code = code := by
  interval_cases code <;> rfl

/-- Source files are numbered in two bits. -/
theorem code_lt (file : VsSrcFile) : file.code < 2 ^ 2 := by
  cases file <;> decide

end VsSrcFile

namespace VsOutFile

/-- Every output file is that of its code. -/
theorem ofCode_code (file : VsOutFile) : ofCode file.code = file := by
  cases file <;> rfl

/-- Either bit is the code of an output file. -/
theorem code_ofCode {code : Nat} (small : code < 2 ^ 1) : (ofCode code).code = code := by
  interval_cases code <;> rfl

/-- Output files are numbered in one bit. -/
theorem code_lt (file : VsOutFile) : file.code < 2 ^ 1 := by
  cases file <;> decide

end VsOutFile

/-- A flag takes one bit. -/
theorem flag_lt (flag : Bool) : flag.toNat < 2 ^ 1 := by
  cases flag <;> decide

/-- And is read back from it. -/
theorem flag_of_toNat (flag : Bool) : (flag.toNat != 0) = flag := by
  cases flag <;> rfl

/-- A bit is the number of the flag it is read as. -/
theorem toNat_of_flag {code : Nat} (small : code < 2 ^ 1) : (code != 0).toNat = code := by
  interval_cases code <;> rfl

/-- The fields of a slot fit their bit widths. -/
structure VsSlot.Fits (slot : VsSlot) : Prop where
  constIndex : slot.constIndex < 2 ^ 8
  inputIndex : slot.inputIndex < 2 ^ 4
  a : slot.a.reg < 2 ^ 4
  b : slot.b.reg < 2 ^ 4
  c : slot.c.reg < 2 ^ 4
  macMask : slot.macMask < 2 ^ 4
  tempReg : slot.tempReg < 2 ^ 4
  iluMask : slot.iluMask < 2 ^ 4
  outMask : slot.outMask < 2 ^ 4
  outAddress : slot.outAddress < 2 ^ 8

/-- The dwords hold the fields of the slot. -/
structure Encodes (w : SlotWords) (slot : VsSlot) : Prop where
  ilu : field w 1 25 3 = slot.ilu.code
  mac : field w 1 21 4 = slot.mac.code
  constIndex : field w 1 13 8 = slot.constIndex
  inputIndex : field w 1 9 4 = slot.inputIndex
  aFile : field w 2 26 2 = slot.a.file.code
  aReg : field w 2 28 4 = slot.a.reg
  aNegate : field w 1 8 1 = slot.a.negate.toNat
  aSwizzle : field w 1 6 2 = (slot.a.swizzle 0).code ∧ field w 1 4 2 = (slot.a.swizzle 1).code ∧
    field w 1 2 2 = (slot.a.swizzle 2).code ∧ field w 1 0 2 = (slot.a.swizzle 3).code
  bFile : field w 2 11 2 = slot.b.file.code
  bReg : field w 2 13 4 = slot.b.reg
  bNegate : field w 2 25 1 = slot.b.negate.toNat
  bSwizzle : field w 2 23 2 = (slot.b.swizzle 0).code ∧ field w 2 21 2 = (slot.b.swizzle 1).code ∧
    field w 2 19 2 = (slot.b.swizzle 2).code ∧ field w 2 17 2 = (slot.b.swizzle 3).code
  cFile : field w 3 28 2 = slot.c.file.code
  cReg : field w 2 0 2 = slot.c.reg / 4 ∧ field w 3 30 2 = slot.c.reg % 4
  cNegate : field w 2 10 1 = slot.c.negate.toNat
  cSwizzle : field w 2 8 2 = (slot.c.swizzle 0).code ∧ field w 2 6 2 = (slot.c.swizzle 1).code ∧
    field w 2 4 2 = (slot.c.swizzle 2).code ∧ field w 2 2 2 = (slot.c.swizzle 3).code
  macMask : field w 3 24 4 = slot.macMask
  tempReg : field w 3 20 4 = slot.tempReg
  iluMask : field w 3 16 4 = slot.iluMask
  outMask : field w 3 12 4 = slot.outMask
  outFile : field w 3 11 1 = slot.outFile.code
  outAddress : field w 3 3 8 = slot.outAddress
  outFromIlu : field w 3 2 1 = slot.outFromIlu.toNat
  a0Relative : field w 3 1 1 = slot.a0Relative.toNat
  final : field w 3 0 1 = slot.final.toNat

/-- A slot whose fields fit is found again in what is built from it. -/
theorem build_encodes (slot : VsSlot) (fits : slot.Fits) : Encodes (SB.build slot) slot := by
  have low : slot.c.reg &&& 3 = slot.c.reg % 4 := Nat.and_two_pow_sub_one_eq_mod slot.c.reg 2
  have high : slot.c.reg >>> 2 &&& 3 = slot.c.reg / 4 := by
    have bound := fits.c
    have shift : slot.c.reg >>> 2 = slot.c.reg / 4 := Nat.shiftRight_eq_div_pow _ _
    rw [shift, Nat.and_two_pow_sub_one_eq_mod (slot.c.reg / 4) 2, Nat.mod_eq_of_lt (by omega)]
  have quarter : slot.c.reg / 4 < 2 ^ 2 := by
    have bound := fits.c
    omega
  have rest : slot.c.reg % 4 < 2 ^ 2 := Nat.mod_lt _ (by decide)
  unfold SB.build SB.ilu SB.mac SB.cst SB.vin SB.a SB.b SB.c SB.macMask SB.temp SB.iluMask SB.out SB.a0 SB.final
  constructor
  all_goals
    simp (disch := decide) only [field_set_same, field_set_apart, low, high]
    simp only [Nat.mod_eq_of_lt, VsIluOp.code_lt, VsMacOp.code_lt, VsSrcFile.code_lt, VsOutFile.code_lt,
      VsSwizzle.code_lt, flag_lt, fits.constIndex, fits.inputIndex, fits.a, fits.b, fits.macMask, fits.tempReg, fits.iluMask,
      fits.outMask, fits.outAddress, quarter, rest, and_self]

variable {w other : SlotWords} {slot : VsSlot}

/-- The decoder reads the slot that the dwords hold. -/
theorem Encodes.ofWords (encodes : Encodes w slot) : VsSlot.ofWords w = slot := by
  have swizzle : ∀ {s : Fin 4 → VsSwizzle} {x y z t : Nat}, x = (s 0).code → y = (s 1).code → z = (s 2).code →
      t = (s 3).code → ![VsSwizzle.ofCode x, .ofCode y, .ofCode z, .ofCode t] = s := by
    intro s x y z t first second third fourth
    subst first second third fourth
    funext i
    match i with
    | 0 | 1 | 2 | 3 => exact VsSwizzle.ofCode_code _
  have reg : field w 2 0 2 <<< 2 ||| field w 3 30 2 = slot.c.reg := by
    rw [encodes.cReg.1, encodes.cReg.2, ← Nat.shiftLeft_add_eq_or_of_lt (Nat.mod_lt _ (by decide)), Nat.shiftLeft_eq]
    omega
  obtain ⟨a0, a1, a2, a3⟩ := encodes.aSwizzle
  obtain ⟨b0, b1, b2, b3⟩ := encodes.bSwizzle
  obtain ⟨c0, c1, c2, c3⟩ := encodes.cSwizzle
  unfold VsSlot.ofWords
  rw [swizzle a0 a1 a2 a3, swizzle b0 b1 b2 b3, swizzle c0 c1 c2 c3, reg, encodes.ilu, encodes.mac, encodes.constIndex,
    encodes.inputIndex, encodes.aFile, encodes.aReg, encodes.aNegate, encodes.bFile, encodes.bReg, encodes.bNegate,
    encodes.cFile, encodes.cNegate, encodes.macMask, encodes.tempReg, encodes.iluMask, encodes.outMask,
    encodes.outFile, encodes.outAddress, encodes.outFromIlu, encodes.a0Relative, encodes.final]
  simp only [VsIluOp.ofCode_code, VsMacOp.ofCode_code, VsSrcFile.ofCode_code, VsOutFile.ofCode_code, flag_of_toNat]

/-- The dwords hold what the decoder reads from them, unless the MAC opcode is reserved. -/
theorem encodes_ofWords (known : field w 1 21 4 ≤ 13) : Encodes w (VsSlot.ofWords w) := by
  have low : ∀ dw bit length, field w dw bit length < 2 ^ length := fun dw bit length => field_lt _ _ _
  have high := low 2 0 2
  have rest := low 3 30 2
  have reg : field w 2 0 2 <<< 2 ||| field w 3 30 2 = 4 * field w 2 0 2 + field w 3 30 2 := by
    rw [← Nat.shiftLeft_add_eq_or_of_lt rest, Nat.shiftLeft_eq]
    omega
  constructor
  all_goals
    simp only [VsSlot.ofWords, VsIluOp.code_ofCode (low _ _ _), VsMacOp.code_ofCode known,
      VsSrcFile.code_ofCode (low _ _ _), VsOutFile.code_ofCode (low _ _ _), toNat_of_flag (low _ _ _)]
  case aSwizzle | bSwizzle | cSwizzle =>
    exact ⟨(VsSwizzle.code_ofCode (low _ _ _)).symm, (VsSwizzle.code_ofCode (low _ _ _)).symm,
      (VsSwizzle.code_ofCode (low _ _ _)).symm, (VsSwizzle.code_ofCode (low _ _ _)).symm⟩
  case cReg =>
    rw [reg]
    omega

/-- Whatever the words are, the slot that is read from them fits into its fields. -/
theorem ofWords_fits (w : SlotWords) : (VsSlot.ofWords w).Fits := by
  have low : ∀ dw bit length, field w dw bit length < 2 ^ length := fun dw bit length => field_lt _ _ _
  exact ⟨low _ _ _, low _ _ _, low _ _ _, low _ _ _,
    Nat.or_lt_two_pow (Nat.lt_of_lt_of_le (Nat.shiftLeft_lt (low 2 0 2)) (by decide))
      (Nat.lt_of_lt_of_le (low 3 30 2) (by decide)),
    low _ _ _, low _ _ _, low _ _ _, low _ _ _, low _ _ _⟩

/-- Dwords that hold the same slot are the same but for the bits outside of the fields. -/
theorem Encodes.agree (encodes : Encodes w slot) (others : Encodes other slot) :
    AgreeBelow (w 1) (other 1) 28 ∧ w 2 = other 2 ∧ w 3 = other 3 := by
  have same : ∀ {dw bit length value}, field w dw bit length = value → field other dw bit length = value →
      BitFields.field (w dw) bit length = BitFields.field (other dw) bit length :=
    fun left right => BitVec.eq_of_toNat_eq (left.trans right.symm)
  obtain ⟨a0, a1, a2, a3⟩ := encodes.aSwizzle
  obtain ⟨b0, b1, b2, b3⟩ := encodes.bSwizzle
  obtain ⟨c0, c1, c2, c3⟩ := encodes.cSwizzle
  obtain ⟨a0', a1', a2', a3'⟩ := others.aSwizzle
  obtain ⟨b0', b1', b2', b3'⟩ := others.bSwizzle
  obtain ⟨c0', c1', c2', c3'⟩ := others.cSwizzle
  have first : split (w 1) 0 [2, 2, 2, 2, 1, 4, 8, 4, 3] = split (other 1) 0 [2, 2, 2, 2, 1, 4, 8, 4, 3] := by
    simp only [split, Nat.reduceAdd]
    rw [same a3 a3', same a2 a2', same a1 a1', same a0 a0', same encodes.aNegate others.aNegate,
      same encodes.inputIndex others.inputIndex, same encodes.constIndex others.constIndex, same encodes.mac others.mac,
      same encodes.ilu others.ilu]
  have second : split (w 2) 0 [2, 2, 2, 2, 2, 1, 2, 4, 2, 2, 2, 2, 1, 2, 4] =
      split (other 2) 0 [2, 2, 2, 2, 2, 1, 2, 4, 2, 2, 2, 2, 1, 2, 4] := by
    simp only [split, Nat.reduceAdd]
    rw [same encodes.cReg.1 others.cReg.1, same c3 c3', same c2 c2', same c1 c1', same c0 c0',
      same encodes.cNegate others.cNegate, same encodes.bFile others.bFile, same encodes.bReg others.bReg, same b3 b3',
      same b2 b2', same b1 b1', same b0 b0', same encodes.bNegate others.bNegate, same encodes.aFile others.aFile,
      same encodes.aReg others.aReg]
  have third : split (w 3) 0 [1, 1, 1, 8, 1, 4, 4, 4, 4, 2, 2] =
      split (other 3) 0 [1, 1, 1, 8, 1, 4, 4, 4, 4, 2, 2] := by
    simp only [split, Nat.reduceAdd]
    rw [same encodes.final others.final, same encodes.a0Relative others.a0Relative,
      same encodes.outFromIlu others.outFromIlu, same encodes.outAddress others.outAddress,
      same encodes.outFile others.outFile, same encodes.outMask others.outMask, same encodes.iluMask others.iluMask,
      same encodes.tempReg others.tempReg, same encodes.macMask others.macMask, same encodes.cFile others.cFile,
      same encodes.cReg.2 others.cReg.2]
  exact ⟨(AgreeBelow.zero _ _).split first, ((AgreeBelow.zero _ _).split second).eq,
    ((AgreeBelow.zero _ _).split third).eq⟩

/-! ## One slot -/

/-- The decoder accepts the slot. -/
structure VsSlot.Accepted (slot : VsSlot) : Prop where
  constIndex : slot.constIndex ≤ 191
  check : slot.check = none

/-- A slot is refused, or its MAC code is an operation and it is the one its words say. -/
theorem decodeSlot_cases (w : SlotWords) : (∃ err, vsDecodeSlot w = .error err) ∨
    (field w 1 21 4 ≤ 13 ∧ (VsSlot.ofWords w).Accepted ∧ vsDecodeSlot w = .ok (VsSlot.ofWords w)) := by
  unfold vsDecodeSlot
  split
  · exact Or.inl ⟨_, rfl⟩
  · rename_i known
    split
    · exact Or.inl ⟨_, rfl⟩
    · rename_i inside
      cases checked : (VsSlot.ofWords w).check with
      | some err => exact Or.inl ⟨err, rfl⟩
      | none => exact Or.inr ⟨Nat.le_of_not_lt known, ⟨Nat.le_of_not_lt inside, checked⟩, rfl⟩

/-- What the decoder returns is held by the dwords and accepted. -/
theorem decodeSlot_ok (decoded : vsDecodeSlot w = .ok slot) : Encodes w slot ∧ slot.Fits ∧ slot.Accepted := by
  rcases decodeSlot_cases w with ⟨err, failed⟩ | ⟨known, accepted, same⟩
  · rw [failed] at decoded
    cases decoded
  · obtain rfl := Except.ok.inj (same.symm.trans decoded)
    exact ⟨encodes_ofWords known, ofWords_fits w, accepted⟩

/-- Dwords that hold an accepted slot decode to it. -/
theorem Encodes.decode (encodes : Encodes w slot) (accepted : slot.Accepted) : vsDecodeSlot w = .ok slot := by
  have known : ¬ 13 < field w 1 21 4 := by
    rw [encodes.mac]
    exact Nat.not_lt.mpr slot.mac.code_le
  have inside : ¬ 191 < field w 1 13 8 := by
    rw [encodes.constIndex]
    exact Nat.not_lt.mpr accepted.constIndex
  rw [vsDecodeSlot, if_neg known, if_neg inside, encodes.ofWords, accepted.check]

/-! ## Programs -/

variable {words others : List (BitVec 32)} {slots before : List VsSlot}

/-- Exactly the last slot is final. -/
def EndsOnce (slots : List VsSlot) : Prop :=
  ∃ early last, slots = early ++ [last] ∧ (∀ slot ∈ early, slot.final = false) ∧ last.final = true

/-- The slots that the words hold from an index on. -/
def DecodesTo (words : List (BitVec 32)) (index : Nat) (slots : List VsSlot) : Prop :=
  ∀ position slot, slots[position]? = some slot → vsDecodeSlot (slotWords words (index + position)) = .ok slot

/-- Behind a slot that has been decoded the rest has, too. -/
theorem DecodesTo.tail {index : Nat} (decodes : DecodesTo words index (slot :: slots)) :
    DecodesTo words (index + 1) slots := by
  intro position other found
  rw [Nat.add_assoc, Nat.add_comm 1]
  exact decodes (position + 1) other found

/-- The loop takes the slots up to the final one. -/
theorem decodeSlots_ends (ends : EndsOnce slots) {index room : Nat} (decodes : DecodesTo words index slots)
    (fits : slots.length ≤ room) : decodeSlots words room index before = { slots := before ++ slots, valid := true } := by
  obtain ⟨early, last, rfl, unfinished, finished⟩ := ends
  induction early generalizing index room before with
  | nil =>
    cases room with
    | zero => cases fits
    | succ room =>
      have here : vsDecodeSlot (slotWords words index) = .ok last := decodes 0 last rfl
      rw [decodeSlots, here]
      simp only [finished, ↓reduceIte, List.nil_append]
  | cons slot early inductionHypothesis =>
    cases room with
    | zero => cases fits
    | succ room =>
      have goes := unfinished slot (List.mem_cons_self ..)
      have here : vsDecodeSlot (slotWords words index) = .ok slot := decodes 0 slot rfl
      rw [decodeSlots, here]
      simp only [goes, Bool.false_eq_true, ↓reduceIte]
      rw [inductionHypothesis decodes.tail (Nat.le_of_succ_le_succ fits)
        (fun other member => unfinished other (List.mem_cons_of_mem _ member)), List.append_assoc, List.singleton_append,
        List.cons_append]

/-- A valid result of the loop is what it has taken, up to the first final slot. -/
theorem decodeSlots_valid {index room : Nat} (valid : (decodeSlots words room index before).valid = true) :
    ∃ slots, EndsOnce slots ∧ DecodesTo words index slots ∧ slots.length ≤ room ∧
      decodeSlots words room index before = { slots := before ++ slots, valid := true } := by
  induction room generalizing index before with
  | zero => cases valid
  | succ room inductionHypothesis =>
    unfold decodeSlots at valid ⊢
    cases decoded : vsDecodeSlot (slotWords words index) with
    | error err =>
      rw [decoded] at valid
      cases valid
    | ok slot =>
      simp only [decoded] at valid ⊢
      by_cases last : slot.final = true
      · refine ⟨[slot], ⟨[], slot, rfl, fun other member => absurd member List.not_mem_nil, last⟩, ?_,
          Nat.succ_le_succ (Nat.zero_le room), by rw [if_pos last]⟩
        intro position other found
        cases position with
        | zero =>
          cases found
          exact decoded
        | succ position => cases found
      · rw [if_neg last] at valid ⊢
        obtain ⟨slots, ⟨early, final, rfl, unfinished, finished⟩, decodes, fits, same⟩ := inductionHypothesis valid
        refine ⟨slot :: (early ++ [final]), ⟨slot :: early, final, rfl, fun other member => ?_, finished⟩, ?_,
          Nat.succ_le_succ fits, by rw [same, List.append_assoc, List.singleton_append]⟩
        · rcases List.mem_cons.mp member with rfl | later
          · exact Bool.eq_false_iff.mpr last
          · exact unfinished other later
        · intro position other found
          cases position with
          | zero =>
            cases found
            exact decoded
          | succ position =>
            have next := decodes position other found
            rwa [Nat.add_assoc, Nat.add_comm 1] at next

/-- The words that are built from slots, one slot after the other. -/
def buildProgram (slots : List VsSlot) : List (BitVec 32) :=
  slots.flatMap (fun slot => [SB.build slot 0, SB.build slot 1, SB.build slot 2, SB.build slot 3])

/-- The words of a built program at a slot are those built for it. -/
theorem slotWords_build {position : Nat} (found : slots[position]? = some slot) :
    slotWords (buildProgram slots) position = SB.build slot := by
  induction slots generalizing position with
  | nil => cases found
  | cons first rest inductionHypothesis =>
    cases position with
    | zero =>
      cases found
      funext dw
      match dw with
      | 0 | 1 | 2 | 3 => rfl
    | succ position =>
      rw [← inductionHypothesis found]
      funext dw
      have place : 4 * (position + 1) + (dw : Nat) = 4 * position + (dw : Nat) + 4 := by omega
      rw [slotWords, slotWords, place]
      rfl

/-- Building the slot gives the words back, but for the bits that no field covers. -/
structure Rebuilds (slot : VsSlot) (w : SlotWords) : Prop where
  second : ∀ bit < 28, (SB.build slot 1).getLsbD bit = (w 1).getLsbD bit
  third : SB.build slot 2 = w 2
  fourth : SB.build slot 3 = w 3

/-- A decoded slot is built into words with the fields of the old ones. -/
theorem decodeSlot_rebuilds (decoded : vsDecodeSlot w = .ok slot) : Rebuilds slot w := by
  obtain ⟨encodes, fits, _⟩ := decodeSlot_ok decoded
  obtain ⟨second, third, fourth⟩ := (build_encodes slot fits).agree encodes
  exact ⟨second, third, fourth⟩

/-- **Vertex microcode round trip.** What is built from a program that ends once decodes to the program;
what decodes is built again from the result, but for the bits that no field covers; and nothing
behind the final slot matters.

Proof: the fields of a slot partition its bits, so what is built decodes to the slot, and what
decodes is built again. The decoder stops at the final slot and reads nothing behind it. -/
theorem microcode_round_trip :
    (∀ slots : List VsSlot, slots.length ≤ 136 → EndsOnce slots → (∀ slot ∈ slots, slot.Fits ∧ slot.Accepted) →
      vsDecodeProgram (some (buildProgram slots)) slots.length = { slots, valid := true }) ∧
    ∀ (words : List (BitVec 32)) (slotCount : Nat), (vsDecodeProgram (some words) slotCount).valid = true →
      (∀ position slot, (vsDecodeProgram (some words) slotCount).slots[position]? = some slot →
        Rebuilds slot (slotWords words position)) ∧
      ∀ (others : List (BitVec 32)) (otherCount : Nat),
        (vsDecodeProgram (some words) slotCount).slots.length ≤ otherCount →
        (∀ place < 4 * (vsDecodeProgram (some words) slotCount).slots.length, others[place]? = words[place]?) →
        vsDecodeProgram (some others) otherCount = vsDecodeProgram (some words) slotCount := by
  refine ⟨fun slots short ends fine => ?_, fun words slotCount valid => ?_⟩
  · have decodes : DecodesTo (buildProgram slots) 0 slots := by
      intro position slot found
      obtain ⟨fits, accepted⟩ := fine slot (List.mem_of_getElem? found)
      rw [Nat.zero_add, slotWords_build found]
      exact (build_encodes slot fits).decode accepted
    exact decodeSlots_ends ends decodes (Nat.le_min.mpr ⟨Nat.le_refl _, short⟩)
  · obtain ⟨slots, ends, decodes, fits, same⟩ := decodeSlots_valid valid
    have result : vsDecodeProgram (some words) slotCount = { slots, valid := true } := same
    rw [result]
    refine ⟨fun position slot found => ?_, fun others otherCount enough agree => ?_⟩
    · have decoded := decodes position slot found
      rw [Nat.zero_add] at decoded
      exact decodeSlot_rebuilds decoded
    · have again : DecodesTo others 0 slots := by
        intro position slot found
        rw [← decodes position slot found]
        congr 1
        funext dw
        have inside := (List.getElem?_eq_some_iff.mp found).1
        have bound := dw.isLt
        rw [slotWords, slotWords, List.getD_eq_getElem?_getD, List.getD_eq_getElem?_getD, agree _ (by simp only; omega)]
      exact decodeSlots_ends ends again (Nat.le_min.mpr ⟨enough, Nat.le_trans fits (Nat.min_le_right _ _)⟩)

/-- A slot that uses both units, every operand and an output. -/
def pairedSlot : VsSlot :=
  { ilu := .mov, mac := .mad, constIndex := 5, inputIndex := 3
    a := { file := .r, reg := 2, negate := true, swizzle := ![.w, .z, .y, .x] }
    b := { file := .c }
    c := { file := .v, reg := 1, swizzle := ![.y, .z, .w, .x] }
    macMask := 0xA, tempReg := 6, iluMask := 0x5, outMask := 0xF, outAddress := 3, outFromIlu := true
    a0Relative := true, final := true }

/-- A slot that uses both units makes the round trip. -/
theorem pairedSlot_round_trip :
    vsDecodeProgram (some (buildProgram [pairedSlot])) 1 = { slots := [pairedSlot], valid := true } :=
  microcode_round_trip.1 [pairedSlot] (by decide)
    ⟨[], pairedSlot, rfl, fun slot member => absurd member List.not_mem_nil, rfl⟩
    (fun slot member => by
      rw [List.mem_singleton.mp member]
      exact ⟨by constructor <;> decide, by constructor <;> decide⟩)

end SeriesxEmu
