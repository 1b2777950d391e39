import Mathlib.Algebra.Order.Field.Basic
import Mathlib.Data.Rat.Cast.Defs

/-!
# Scalars of the shader units

The shader units compute on single precision numbers. Their results depend on rounding, but
which value goes where does not, so the operations are a parameter: any type with these
operations will do. The minimum, the maximum and the clamp are those of the C++ library,
which are defined by comparisons and so also fix what happens to unordered values.
-/

universe u

/-- The arithmetic of `float`. -/
class Scalar (F : Type u) extends Add F, Sub F, Mul F, Neg F where
  literal : ℚ → F
  /-- `<`. -/
  less : F → F → Bool
  /-- `>=`. -/
  atLeast : F → F → Bool
  /-- `==`. -/
  equal : F → F → Bool

/-- The rest of what the arithmetic units need of `float`. -/
class ScalarFunctions (F : Type u) extends Scalar F, Div F where
  infinity : F
  isInf : F → Bool
  fabs : F → F
  sqrt : F → F
  floor : F → F
  exp2 : F → F
  log2 : F → F
  /-- The conversion to `int`. -/
  toInt : F → BitVec 32

namespace Scalar

/-- The components of a colour are named by numerals. -/
instance neZeroThree : NeZero 3 := ⟨by decide⟩

/-- The components of a vector are named by numerals. -/
instance neZeroFour : NeZero 4 := ⟨by decide⟩

section operations

variable {F : Type u} [Scalar F]

/-- `std::max`. -/
def max (a b : F) : F := if less a b then b else a

/-- `std::min`. -/
def min (a b : F) : F := if less b a then b else a

/-- `std::clamp`. -/
def clamp (value low high : F) : F := if less value low then low else if less high value then high else value

end operations

/-! ## Ordered fields -/

section ordered

variable {F : Type u} [Field F] [LinearOrder F]

/-- The scalars of an ordered field. -/
@[reducible] def ofOrderedField (F : Type u) [Field F] [LinearOrder F] : Scalar F where
  literal := fun value => (value : F)
  less := fun a b => decide (a < b)
  atLeast := fun a b => decide (b ≤ a)
  equal := fun a b => decide (a = b)

/-- Comparing is the order of the field. -/
@[simp] theorem less_iff (a b : F) : @less F (ofOrderedField F) a b = true ↔ a < b := decide_eq_true_iff

/-- A literal is the number itself. -/
@[simp] theorem literal_eq (value : ℚ) : @literal F (ofOrderedField F) value = (value : F) := rfl

/-- `std::max` is the maximum of the order. -/
theorem max_eq (a b : F) : @max F (ofOrderedField F) a b = a ⊔ b := by
  unfold max
  simp only [less_iff]
  split
  · rename_i above
    exact (sup_eq_right.mpr above.le).symm
  · rename_i below
    exact (sup_eq_left.mpr (le_of_not_gt below)).symm

/-- `std::min` is the minimum. -/
theorem min_eq (a b : F) : @min F (ofOrderedField F) a b = a ⊓ b := by
  unfold min
  simp only [less_iff]
  split
  · rename_i below
    exact (inf_eq_right.mpr below.le).symm
  · rename_i above
    exact (inf_eq_left.mpr (le_of_not_gt above)).symm

/-- A clamped value lies in its bounds. -/
theorem clamp_bounds {low high : F} (ordered : low ≤ high) (value : F) :
    low ≤ @clamp F (ofOrderedField F) value low high ∧ @clamp F (ofOrderedField F) value low high ≤ high := by
  unfold clamp
  simp only [less_iff]
  split
  · exact ⟨le_refl _, ordered⟩
  · rename_i above
    split
    · exact ⟨ordered, le_refl _⟩
    · rename_i below
      exact ⟨le_of_not_gt above, le_of_not_gt below⟩

end ordered

/-- The exact scalars. Roots, powers and logarithms leave the rationals and have no values here. -/
@[reducible] def rationals : ScalarFunctions ℚ where
  toScalar := ofOrderedField ℚ
  infinity := 0
  isInf := fun _ => false
  fabs := fun value => if value < 0 then -value else value
  sqrt := fun _ => 0
  floor := fun value => (value.floor : ℚ)
  exp2 := fun _ => 0
  log2 := fun _ => 0
  toInt := fun value => BitVec.ofInt 32 value.floor

end Scalar
