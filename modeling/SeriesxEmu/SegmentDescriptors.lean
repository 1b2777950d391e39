import Mathlib.Data.Nat.Bitwise
import Mathlib.Tactic.NormNum

/-!
# Segment descriptors

An entry of a descriptor table has eight bytes, over which the base and the limit of a segment are spread
in pieces. A selector names an entry, and a logical address of the segment stands for a linear one when it
lies within the limit.
-/

namespace SeriesxEmu.SegmentDescriptors

/-- The fields of a segment descriptor. -/
structure Descriptor where
  base : Nat
  limit : Nat
  access : Nat
  flags : Nat
deriving DecidableEq, Repr

/-- The pieces of an entry put together. -/
def decode (entry : List UInt8) : Descriptor :=
  let byte := fun index => (entry.getD index 0).toNat
  { base := byte 2 + 2 ^ 8 * byte 3 + 2 ^ 16 * byte 4 + 2 ^ 24 * byte 7
    limit := byte 0 + 2 ^ 8 * byte 1 + 2 ^ 16 * (byte 6 % 2 ^ 4)
    access := byte 5
    flags := byte 6 / 2 ^ 4 }

namespace Descriptor

/-- The segment is present. -/
def present (descriptor : Descriptor) : Bool := descriptor.access.testBit 7

/-- The last offset: the limit counts bytes or pages. -/
def last (descriptor : Descriptor) : Nat :=
  if descriptor.flags.testBit 3 then descriptor.limit * 2 ^ 12 + (2 ^ 12 - 1) else descriptor.limit

/-- The linear address of some bytes of the segment. -/
def linear (descriptor : Descriptor) (offset size : Nat) : Option Nat :=
  if descriptor.present && offset + size ≤ descriptor.last + 1 then some ((descriptor.base + offset) % 2 ^ 32)
  else none

end Descriptor

/-- The entry that a selector names; the first one stands for no segment. -/
def selected (table : List UInt8) (tableLimit selector : Nat) : Option Descriptor :=
  if selector / 8 = 0 ∨ tableLimit < selector / 8 * 8 + 7 then none
  else some (decode ((table.drop (selector / 8 * 8)).take 8))

/-- A linear address that no segment moves: base zero, and all pages below the limit. -/
def flat (access : Nat) : Descriptor := { base := 0, limit := 2 ^ 20 - 1, access, flags := 12 }

/-- A flat segment ends at the last address. -/
theorem last_flat (access : Nat) : (flat access).last + 1 = 2 ^ 32 := by
  have pages : Nat.testBit 12 3 = true := by decide
  rw [Descriptor.last, flat, if_pos pages]
  norm_num

/-- A flat segment leaves its offsets as they are. -/
theorem linear_flat {access offset size : Nat} (present : access.testBit 7 = true) (fits : offset + size ≤ 2 ^ 32)
    (inside : offset < 2 ^ 32) : (flat access).linear offset size = some offset := by
  have here : (flat access).present = true := present
  have within : ((flat access).present && decide (offset + size ≤ (flat access).last + 1)) = true := by
    rw [here, last_flat]
    exact decide_eq_true fits
  rw [Descriptor.linear, if_pos within, flat, Nat.zero_add, Nat.mod_eq_of_lt inside]

/-- A segment whose limit counts bytes, when no address wraps. -/
theorem linear_bytes {descriptor : Descriptor} (present : descriptor.access.testBit 7 = true)
    (bytes : descriptor.flags.testBit 3 = false) {offset size : Nat} (fits : descriptor.base + offset < 2 ^ 32) :
    descriptor.linear offset size =
      if offset + size ≤ descriptor.limit + 1 then some (descriptor.base + offset) else none := by
  have here : descriptor.present = true := present
  have last : descriptor.last = descriptor.limit := by rw [Descriptor.last, bytes, if_neg Bool.false_ne_true]
  rw [Descriptor.linear, here, last, Nat.mod_eq_of_lt fits]
  simp only [Bool.true_and, decide_eq_true_eq]

/-- Nothing lies behind the limit. -/
theorem linear_beyond {descriptor : Descriptor} (bytes : descriptor.flags.testBit 3 = false) {offset size : Nat}
    (beyond : descriptor.limit + 1 < offset + size) : descriptor.linear offset size = none := by
  have last : descriptor.last = descriptor.limit := by rw [Descriptor.last, bytes, if_neg Bool.false_ne_true]
  rw [Descriptor.linear, last, if_neg]
  rw [Bool.and_eq_true, decide_eq_true_eq]
  omega

end SeriesxEmu.SegmentDescriptors
