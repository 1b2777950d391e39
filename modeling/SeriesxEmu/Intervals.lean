import Mathlib.Algebra.Order.Ring.Int
import Mathlib.Data.List.Basic
import Mathlib.Data.List.Pairwise

/-!
# Lists of intervals

A list of half-open intervals stands for the set of points that lie in one of them.
Cutting an interval out of such a list keeps what sticks out of it on either side,
so it removes exactly the points of the cut, and intervals that were separate stay
separate.
-/

namespace SeriesxEmu

/-- The points from `start` up to, but not including, `start + size`. -/
structure Interval where
  start : Nat
  size : Nat
deriving DecidableEq, Repr

namespace Interval

/-- A point lies in an interval when it is at the start or past it, and before the end. -/
def Has (interval : Interval) (point : Nat) : Prop :=
  interval.start ≤ point ∧ point < interval.start + interval.size

instance (interval : Interval) (point : Nat) : Decidable (interval.Has point) :=
  inferInstanceAs (Decidable (_ ∧ _))

/-- One interval ends before the other starts. -/
def Separate (left right : Interval) : Prop :=
  left.start + left.size ≤ right.start ∨ right.start + right.size ≤ left.start

instance : Std.Symm Separate := ⟨fun _ _ => Or.symm⟩

/-- Two separate intervals have no point in common. -/
theorem Separate.disjoint {left right : Interval} (separate : Separate left right) {point : Nat}
    (here : left.Has point) : ¬ right.Has point := by
  unfold Separate at separate
  unfold Has at here ⊢
  omega

/-- The point lies in one of the intervals. -/
def Covered (intervals : List Interval) (point : Nat) : Prop := ∃ interval ∈ intervals, interval.Has point

instance (intervals : List Interval) (point : Nat) : Decidable (Covered intervals point) :=
  inferInstanceAs (Decidable (∃ interval ∈ intervals, interval.Has point))

/-- No interval covers no point. -/
theorem covered_nil (point : Nat) : ¬ Covered [] point := by
  simp [Covered]

/-- A point is covered by two lists together when one of them covers it. -/
theorem covered_append {front back : List Interval} {point : Nat} :
    Covered (front ++ back) point ↔ Covered front point ∨ Covered back point := by
  simp [Covered, or_and_right, exists_or]

/-- A single interval covers its own points. -/
theorem covered_singleton {interval : Interval} {point : Nat} : Covered [interval] point ↔ interval.Has point := by
  simp [Covered]

/-- What is left of an interval when the points from `low` up to `high` are taken away. -/
def trim (low high : Nat) (interval : Interval) : List Interval :=
  if interval.start + interval.size ≤ low || high ≤ interval.start then [interval]
  else
    (if interval.start < low then [⟨interval.start, low - interval.start⟩] else []) ++
      if high < interval.start + interval.size then [⟨high, interval.start + interval.size - high⟩] else []

/-- What is left of the intervals outside of a range. -/
def cut (low high : Nat) (intervals : List Interval) : List Interval := intervals.flatMap (trim low high)

/-- What is left are the points outside the cut. -/
theorem covered_trim {low high : Nat} {interval : Interval} {point : Nat} :
    Covered (trim low high interval) point ↔ interval.Has point ∧ ¬ (low ≤ point ∧ point < high) := by
  unfold trim
  split
  · rename_i outside
    simp only [Bool.or_eq_true, decide_eq_true_eq] at outside
    rw [covered_singleton]
    unfold Has
    omega
  · rename_i inside
    simp only [Bool.or_eq_true, decide_eq_true_eq, not_or, Nat.not_le] at inside
    rw [covered_append]
    have left : Covered (if interval.start < low then [⟨interval.start, low - interval.start⟩] else []) point ↔
        interval.start ≤ point ∧ point < low := by
      split
      · rw [covered_singleton]
        unfold Has
        simp only
        omega
      · simp only [covered_nil, false_iff]
        omega
    have right : Covered (if high < interval.start + interval.size then
        [⟨high, interval.start + interval.size - high⟩] else []) point ↔
          high ≤ point ∧ point < interval.start + interval.size := by
      split
      · rw [covered_singleton]
        unfold Has
        simp only
        omega
      · simp only [covered_nil, false_iff]
        omega
    rw [left, right]
    unfold Has
    omega

/-- A piece lies in the interval it is left of. -/
theorem mem_trim {low high : Nat} {interval piece : Interval} (member : piece ∈ trim low high interval) :
    interval.start ≤ piece.start ∧ piece.start + piece.size ≤ interval.start + interval.size := by
  unfold trim at member
  split at member
  · rw [List.mem_singleton.mp member]
    exact ⟨Nat.le_refl _, Nat.le_refl _⟩
  · rename_i inside
    simp only [Bool.or_eq_true, decide_eq_true_eq, not_or, Nat.not_le] at inside
    rcases List.mem_append.mp member with left | right
    · split at left
      · rw [List.mem_singleton.mp left]
        simp only
        omega
      · cases left
    · split at right
      · rw [List.mem_singleton.mp right]
        simp only
        omega
      · cases right

/-- The cut intervals cover what was covered before, less the range. -/
theorem covered_cut {low high : Nat} {intervals : List Interval} {point : Nat} :
    Covered (cut low high intervals) point ↔ Covered intervals point ∧ ¬ (low ≤ point ∧ point < high) := by
  constructor
  · rintro ⟨piece, member, here⟩
    obtain ⟨interval, known, part⟩ := List.mem_flatMap.mp member
    obtain ⟨inside, outside⟩ := covered_trim.mp ⟨piece, part, here⟩
    exact ⟨⟨interval, known, inside⟩, outside⟩
  · rintro ⟨⟨interval, known, inside⟩, outside⟩
    obtain ⟨piece, part, here⟩ := covered_trim.mpr ⟨inside, outside⟩
    exact ⟨piece, List.mem_flatMap.mpr ⟨interval, known, part⟩, here⟩

/-- The pieces of one trimmed interval do not meet. -/
theorem trim_separate {low high : Nat} (proper : low ≤ high) (interval : Interval) :
    (trim low high interval).Pairwise Separate := by
  unfold trim
  split
  · exact List.pairwise_singleton _ _
  · split
    · split
      · rw [List.singleton_append, List.pairwise_cons]
        refine ⟨fun other member => ?_, List.pairwise_singleton _ _⟩
        rw [List.mem_singleton.mp member]
        unfold Separate
        simp only
        omega
      · exact List.pairwise_singleton _ _
    · split
      · exact List.pairwise_singleton _ _
      · exact List.Pairwise.nil

/-- Cutting a range out of separate intervals leaves separate intervals.

Proof: the pieces of one interval are separate, and pieces of two intervals lie inside of them. -/
theorem cut_separate {low high : Nat} (proper : low ≤ high) {intervals : List Interval}
    (separate : intervals.Pairwise Separate) : (cut low high intervals).Pairwise Separate := by
  rw [cut, List.pairwise_flatMap]
  refine ⟨fun interval _ => trim_separate proper interval, separate.imp ?_⟩
  intro left right apart leftPiece leftPart rightPiece rightPart
  have leftInside := mem_trim leftPart
  have rightInside := mem_trim rightPart
  unfold Separate at apart ⊢
  omega

/-! ## Intervals of whole units -/

/-- A nonempty interval of whole units. -/
structure Whole (unit : Nat) (interval : Interval) : Prop where
  nonempty : 0 < interval.size
  start : unit ∣ interval.start
  size : unit ∣ interval.size

variable {unit : Nat}

/-- Intervals of whole units are separate when they share no unit. -/
theorem Whole.separate {left right : Interval} (leftWhole : Whole unit left) (rightWhole : Whole unit right)
    (apart : ∀ count, left.Has (count * unit) → ¬ right.Has (count * unit)) : Separate left right := by
  obtain ⟨leftCount, leftStart⟩ := leftWhole.start
  obtain ⟨rightCount, rightStart⟩ := rightWhole.start
  have leftSize := leftWhole.nonempty
  have rightSize := rightWhole.nonempty
  have atLeft := apart leftCount
  have atRight := apart rightCount
  unfold Has at atLeft atRight
  rw [Nat.mul_comm] at leftStart rightStart
  unfold Separate
  omega

/-- A range of whole units leaves pieces of whole units. -/
theorem Whole.trim {low high : Nat} {interval piece : Interval} (whole : Whole unit interval) (lowUnit : unit ∣ low)
    (highUnit : unit ∣ high) (member : piece ∈ Interval.trim low high interval) : Whole unit piece := by
  unfold Interval.trim at member
  split at member
  · rw [List.mem_singleton.mp member]
    exact whole
  · rcases List.mem_append.mp member with left | right
    · split at left
      · rename_i sticks
        rw [List.mem_singleton.mp left]
        exact ⟨Nat.sub_pos_of_lt sticks, whole.start, Nat.dvd_sub lowUnit whole.start⟩
      · cases left
    · split at right
      · rename_i sticks
        rw [List.mem_singleton.mp right]
        exact ⟨Nat.sub_pos_of_lt sticks, highUnit, Nat.dvd_sub (Nat.dvd_add whole.start whole.size) highUnit⟩
      · cases right

/-- So does the cut of a list. -/
theorem Whole.cut {low high : Nat} {intervals : List Interval} (whole : ∀ interval ∈ intervals, Whole unit interval)
    (lowUnit : unit ∣ low) (highUnit : unit ∣ high) {piece : Interval}
    (member : piece ∈ Interval.cut low high intervals) : Whole unit piece := by
  obtain ⟨interval, known, part⟩ := List.mem_flatMap.mp member
  exact (whole interval known).trim lowUnit highUnit part

end Interval

end SeriesxEmu
