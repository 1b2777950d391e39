import Mathlib.Data.Nat.Bitwise
import Mathlib.Tactic.Common

/-!
# Bit fields of a word

A field is a run of bits of a word, read by a shift and a mask and stored under the same
mask. Fields that do not overlap do not see each other's stores, and two words with the
same fields are equal as far as the fields reach.
-/

namespace BitFields

variable {n : Nat} {word other value : BitVec n} {bit length bit' length' : Nat}

/-- The lowest bits. -/
def lowMask (n length : Nat) : BitVec n := (1#n <<< length) - 1#n

/-- The field of `length` bits that starts at `bit`. -/
def field (word : BitVec n) (bit length : Nat) : BitVec n := (word >>> bit) &&& lowMask n length

/-- The word with a value stored in the field. -/
def setField (word : BitVec n) (bit length : Nat) (value : BitVec n) : BitVec n :=
  (word &&& ~~~(lowMask n length <<< bit)) ||| ((value <<< bit) &&& (lowMask n length <<< bit))

/-- A mask of some low bits is a power of two less one. -/
theorem lowMask_toNat (length : Nat) : (lowMask n length).toNat = 2 ^ min length n - 1 := by
  rcases Nat.eq_zero_or_pos n with rfl | positive
  · rw [Nat.min_eq_right (Nat.zero_le _)]
    exact BitVec.toNat_of_zero_length rfl _
  · have one : (1#n).toNat = 1 := by
      rw [BitVec.toNat_ofNat]
      exact Nat.mod_eq_of_lt (Nat.one_lt_two_pow (Nat.ne_of_gt positive))
    rw [lowMask, BitVec.toNat_sub, BitVec.toNat_shiftLeft, one, Nat.one_shiftLeft]
    have space : 1 < 2 ^ n := Nat.one_lt_two_pow (Nat.ne_of_gt positive)
    rcases Nat.lt_or_ge length n with below | above
    · have fits : 2 ^ length < 2 ^ n := Nat.pow_lt_pow_right (by decide) below
      have positive : 0 < 2 ^ length := Nat.two_pow_pos length
      rw [Nat.min_eq_left (Nat.le_of_lt below), Nat.mod_eq_of_lt fits]
      have split : 2 ^ n - 1 + 2 ^ length = 2 ^ length - 1 + 2 ^ n := by omega
      rw [split, Nat.add_mod_right, Nat.mod_eq_of_lt (by omega)]
    · have wraps : 2 ^ length % 2 ^ n = 0 := Nat.mod_eq_zero_of_dvd (Nat.pow_dvd_pow 2 above)
      rw [Nat.min_eq_right above, wraps, Nat.add_zero, Nat.mod_eq_of_lt (by omega)]

/-- Its bits are the low ones. -/
theorem getLsbD_lowMask (length i : Nat) : (lowMask n length).getLsbD i = (decide (i < length) && decide (i < n)) := by
  rw [BitVec.getLsbD, lowMask_toNat, Nat.testBit_two_pow_sub_one]
  by_cases inside : i < n
  · have bound : i < min length n ↔ i < length := by omega
    simp [inside, bound]
  · have bound : ¬ i < min length n := by omega
    simp [inside, bound]

/-- A bit of a field is the bit of the word above the field's start. -/
theorem getLsbD_field (word : BitVec n) (bit length i : Nat) :
    (field word bit length).getLsbD i = (decide (i < length) && word.getLsbD (bit + i)) := by
  rw [field, BitVec.getLsbD_and, BitVec.getLsbD_ushiftRight, getLsbD_lowMask]
  by_cases inside : i < n
  · simp [inside, Bool.and_comm]
  · simp [inside, BitVec.getLsbD_of_ge word (bit + i) (by omega)]

/-- A stored field changes the bits of its own range. -/
theorem getLsbD_setField (word value : BitVec n) (bit length i : Nat) : (setField word bit length value).getLsbD i =
    if bit ≤ i ∧ i < bit + length then decide (i < n) && value.getLsbD (i - bit) else word.getLsbD i := by
  rw [setField]
  simp only [BitVec.getLsbD_or, BitVec.getLsbD_and, BitVec.getLsbD_not, BitVec.getLsbD_shiftLeft, getLsbD_lowMask]
  by_cases inside : i < n
  · by_cases above : bit ≤ i
    · have small : i - bit < n := by omega
      by_cases below : i < bit + length
      · have within : i - bit < length := by omega
        simp [inside, above, below, small, within, Nat.not_lt.mpr above]
      · have without : ¬ i - bit < length := by omega
        simp [inside, above, below, without]
    · simp [inside, above, Nat.lt_of_not_le above]
  · have beyond : word.getLsbD i = false := BitVec.getLsbD_of_ge word i (by omega)
    simp [inside, beyond]

/-- A field of some bits is below their power of two. -/
theorem field_lt (word : BitVec n) (bit length : Nat) : (field word bit length).toNat < 2 ^ length := by
  refine Nat.lt_pow_two_of_testBit _ (fun i beyond => ?_)
  have bits := getLsbD_field word bit length i
  rw [decide_eq_false (Nat.not_lt.mpr beyond), Bool.false_and] at bits
  exact bits

/-! ## Stores and reads -/

/-- A field reads as the value that was stored in it, as far as that fits. -/
theorem toNat_field_setField (fits : bit + length ≤ n) (value : Nat) :
    (field (setField word bit length (BitVec.ofNat n value)) bit length).toNat = value % 2 ^ length := by
  refine Nat.eq_of_testBit_eq (fun i => ?_)
  have bits := getLsbD_field (setField word bit length (BitVec.ofNat n value)) bit length i
  rw [getLsbD_setField] at bits
  rw [Nat.testBit_mod_two_pow]
  refine Eq.trans bits ?_
  by_cases inside : i < length
  · have below : bit + i < n := by omega
    have space : i < n := by omega
    have stored : (BitVec.ofNat n value).getLsbD i = value.testBit i := by
      rw [BitVec.getLsbD_ofNat, decide_eq_true space, Bool.true_and]
    simp only [Nat.add_sub_cancel_left, stored, inside, below, Nat.le_add_right, Nat.add_lt_add_iff_left, and_self,
      decide_true, Bool.true_and, ↓reduceIte]
  · simp [inside]

/-- A field does not see what is stored beside it. -/
theorem field_setField_apart (apart : bit + length ≤ bit' ∨ bit' + length' ≤ bit) :
    field (setField word bit length value) bit' length' = field word bit' length' := by
  refine BitVec.eq_of_getLsbD_eq (fun i _ => ?_)
  rw [getLsbD_field, getLsbD_field, getLsbD_setField]
  by_cases inside : i < length'
  · rw [if_neg (by omega)]
  · simp [inside]

/-! ## Words by their fields -/

/-- The words have the same bits below `stop`. -/
def AgreeBelow (word other : BitVec n) (stop : Nat) : Prop := ∀ i < stop, word.getLsbD i = other.getLsbD i

/-- Any two words agree below bit zero. -/
theorem AgreeBelow.zero (word other : BitVec n) : AgreeBelow word other 0 := by
  intro i below
  exact absurd below (Nat.not_lt_zero i)

/-- Words that agree below a bit and on the field there agree below its end. -/
theorem AgreeBelow.field (agree : AgreeBelow word other bit)
    (same : BitFields.field word bit length = BitFields.field other bit length) :
    AgreeBelow word other (bit + length) := by
  intro i below
  rcases Nat.lt_or_ge i bit with before | after
  · exact agree i before
  · have bits := congrArg (fun field => field.getLsbD (i - bit)) same
    have inside : i - bit < length := by omega
    have place : bit + (i - bit) = i := by omega
    simpa [getLsbD_field, inside, place] using bits

/-- Words that agree below their width are equal. -/
theorem AgreeBelow.eq (agree : AgreeBelow word other n) : word = other :=
  BitVec.eq_of_getLsbD_eq agree

/-- The fields of the given lengths, one behind the other from a bit on. -/
def split (word : BitVec n) : Nat → List Nat → List (BitVec n)
  | _, [] => []
  | bit, length :: lengths => field word bit length :: split word (bit + length) lengths

/-- Words with the same fields agree as far as the fields reach. -/
theorem AgreeBelow.split {lengths : List Nat} (agree : AgreeBelow word other bit)
    (same : BitFields.split word bit lengths = BitFields.split other bit lengths) :
    AgreeBelow word other (bit + lengths.sum) := by
  induction lengths generalizing bit with
  | nil => exact agree
  | cons length lengths inductionHypothesis =>
    obtain ⟨first, rest⟩ := List.cons.inj same
    rw [List.sum_cons, ← Nat.add_assoc]
    exact inductionHypothesis (agree.field first) rest

end BitFields
