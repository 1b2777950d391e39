import Mathlib.Algebra.BigOperators.Group.List.Basic
import Mathlib.Algebra.GroupWithZero.Nat

/-!
# Fields laid end to end

Fields of different lengths are kept in one list, one behind the other. A field starts behind those
before it, and writing at a place of one field changes that field and no other.
-/

namespace SeriesxEmu.PackedFields

variable {α : Type} {fields : List (List α)} {index : Nat} {field : List α}

/-- Where a field starts. -/
def start (fields : List (List α)) (index : Nat) : Nat := ((fields.take index).map List.length).sum

/-- The start of a later field counts the first. -/
theorem start_succ (first : List α) (rest : List (List α)) (index : Nat) :
    start (first :: rest) (index + 1) = first.length + start rest index := rfl

/-- A changed field starts where it did. -/
theorem start_set (fields : List (List α)) (index : Nat) (changed : List α) :
    start (fields.set index changed) index = start fields index := by
  rw [start, List.take_set_of_le (Nat.le_refl index), start]

/-- Storing what is there changes nothing. -/
theorem set_same (here : fields[index]? = some field) : fields.set index field = fields := by
  obtain ⟨inside, rfl⟩ := List.getElem?_eq_some_iff.mp here
  exact List.set_getElem_self inside

/-- A place inside of a field lies inside of the whole. -/
theorem start_lt (here : fields[index]? = some field) {place : Nat} (inside : place < field.length) :
    start fields index + place < fields.flatten.length := by
  induction fields generalizing index with
  | nil => cases here
  | cons first rest inductionHypothesis =>
    rw [List.flatten_cons, List.length_append]
    cases index with
    | zero =>
      obtain rfl := Option.some.inj here
      rw [start, List.take_zero, List.map_nil, List.sum_nil]
      omega
    | succ index =>
      have later := inductionHypothesis here
      rw [start_succ]
      omega

/-- A place of one field is written. -/
theorem flatten_set (here : fields[index]? = some field) {place : Nat} (inside : place < field.length) (value : α) :
    (fields.set index (field.set place value)).flatten = fields.flatten.set (start fields index + place) value := by
  induction fields generalizing index with
  | nil => cases here
  | cons first rest inductionHypothesis =>
    cases index with
    | zero =>
      obtain rfl := Option.some.inj here
      rw [List.set_cons_zero, List.flatten_cons, List.flatten_cons, start, List.take_zero, List.map_nil, List.sum_nil,
        Nat.zero_add, List.set_append_left _ _ inside]
    | succ index =>
      have beyond : first.length ≤ first.length + start rest index + place := by omega
      have place' : first.length + start rest index + place - first.length = start rest index + place := by omega
      rw [List.set_cons_succ, List.flatten_cons, List.flatten_cons, start_succ,
        List.set_append_right _ _ beyond, place', inductionHypothesis here]

end SeriesxEmu.PackedFields
