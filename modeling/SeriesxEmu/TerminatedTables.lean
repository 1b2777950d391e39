import Mathlib.Algebra.Notation.Defs
import Mathlib.Data.List.Basic

/-!
# Tables that end with a zero

A table is read position by position. Some positions cannot be read, and a zero ends the
table. One reader takes what it gets up to the end and a limit. The other one admits only some
positions, and rejects a table that does not end with a zero before it has to stop.
-/

namespace TerminatedTable

universe u

variable {α : Type u} [Zero α] [DecidableEq α]

/-- The position holds something other than the end. -/
def Entry (read : Nat → Option α) (index : Nat) : Prop := ∃ value, read index = some value ∧ value ≠ 0

/-- The entries from a position on, up to the end and no more than there is room for. -/
def entries (read : Nat → Option α) : Nat → Nat → List α
  | 0, _ => []
  | room + 1, index =>
    match read index with
    | none => []
    | some value => if value = 0 then [] else value :: entries read room (index + 1)

/-- The same for a reader that rejects positions which it does not admit or cannot read. -/
def checkedEntries (admits : Nat → Bool) (read : Nat → Option α) : Nat → Nat → Option (List α)
  | 0, _ => some []
  | room + 1, index =>
    if admits index then
      match read index with
      | none => none
      | some value => if value = 0 then some [] else (checkedEntries admits read room (index + 1)).map (value :: ·)
    else none

variable {read : Nat → Option α} {room index : Nat}

omit [DecidableEq α] in
/-- Where no entry is, the word is zero or cannot be read. -/
theorem not_entry (ends : ¬ Entry read index) : read index = none ∨ read index = some 0 := by
  cases found : read index with
  | none => exact Or.inl rfl
  | some value =>
    refine Or.inr (congrArg some ?_)
    by_contra used
    exact ends ⟨value, found, used⟩

/-- No entries follow where none is. -/
theorem entries_end (ends : ¬ Entry read index) : entries read room index = [] := by
  cases room with
  | zero => rfl
  | succ room =>
    unfold entries
    rcases not_entry ends with none | zero
    · rw [none]
    · rw [zero]
      exact if_pos rfl

/-- An entry comes before those that follow it. -/
theorem entries_cons {value : α} (found : read index = some value) (used : value ≠ 0) :
    entries read (room + 1) index = value :: entries read room (index + 1) := by
  rw [entries, found]
  exact if_neg used

/-- Two tables that agree at every position that is looked at have the same entries. -/
theorem entries_congr {other : Nat → Option α}
    (same : ∀ later, index ≤ later → later < index + room → (∀ earlier, index ≤ earlier → earlier < later →
      Entry read earlier) → other later = read later) : entries other room index = entries read room index := by
  induction room generalizing index with
  | zero => rfl
  | succ room inductionHypothesis =>
    have here := same index (Nat.le_refl _) (by omega) (fun earlier low high => by omega)
    by_cases entry : Entry read index
    · obtain ⟨value, found, used⟩ := entry
      rw [entries_cons found used, entries_cons (here.trans found) used]
      refine congrArg (value :: ·) (inductionHypothesis (fun later low high before => ?_))
      refine same later (by omega) (by omega) (fun earlier first last => ?_)
      by_cases first_ : earlier = index
      · exact first_ ▸ ⟨value, found, used⟩
      · exact before earlier (by omega) last
    · have ends : ¬ Entry other index := by
        rwa [Entry, here]
      rw [entries_end entry, entries_end ends]

/-- The positions from one on, counted from the next one. -/
theorem forall_after (p : Nat → Prop) (first : p index) {count : Nat} :
    (∀ k, k < count + 1 → p (index + k)) ↔ ∀ k, k < count → p (index + 1 + k) := by
  constructor
  · intro each k before
    rw [show index + 1 + k = index + (k + 1) by omega]
    exact each (k + 1) (Nat.succ_lt_succ before)
  · intro each k before
    cases k with
    | zero => exact first
    | succ k =>
      rw [show index + (k + 1) = index + 1 + k by omega]
      exact each k (Nat.lt_of_succ_lt_succ before)

/-- An entry is read after entries only, and while there is room. -/
theorem entries_getElem? {k : Nat} {value : α} : (entries read room index)[k]? = some value ↔
    k < room ∧ (∀ j, j < k → Entry read (index + j)) ∧ read (index + k) = some value ∧ value ≠ 0 := by
  induction room generalizing index k with
  | zero => simp [entries]
  | succ room inductionHypothesis =>
    by_cases entry : Entry read index
    · obtain ⟨first, found, used⟩ := entry
      rw [entries_cons found used]
      cases k with
      | zero =>
        simp only [List.getElem?_cons_zero, Nat.add_zero, found]
        constructor
        · rintro ⟨⟩
          exact ⟨Nat.succ_pos _, fun j impossible => absurd impossible (Nat.not_lt_zero _), rfl, used⟩
        · exact fun given => given.2.2.1
      | succ k =>
        have place : index + 1 + k = index + (k + 1) := by omega
        rw [List.getElem?_cons_succ, inductionHypothesis, place]
        have entry : Entry read index := ⟨first, found, used⟩
        rw [forall_after _ entry, Nat.succ_lt_succ_iff]
    · rw [entries_end entry, List.getElem?_nil]
      constructor
      · nofun
      · rintro ⟨-, each, here, used⟩
        cases k with
        | zero => exact absurd ⟨value, here, used⟩ entry
        | succ k => exact absurd (each 0 (Nat.succ_pos _)) entry

/-- How many entries are read. -/
theorem entries_length {count : Nat} : (entries read room index).length = count ↔
    count ≤ room ∧ (∀ k, k < count → Entry read (index + k)) ∧ (count < room → ¬ Entry read (index + count)) := by
  induction room generalizing index count with
  | zero =>
    constructor
    · rintro rfl
      exact ⟨Nat.le_refl _, fun k impossible => absurd impossible (Nat.not_lt_zero k), fun impossible =>
        absurd impossible (Nat.lt_irrefl 0)⟩
    · exact fun bounds => (Nat.le_zero.mp bounds.1).symm
  | succ room inductionHypothesis =>
    by_cases entry : Entry read index
    · have ⟨value, found, used⟩ := entry
      rw [entries_cons found used, List.length_cons]
      cases count with
      | zero =>
        refine iff_of_false (Nat.succ_ne_zero _) (fun bounds => ?_)
        exact bounds.2.2 (Nat.succ_pos _) entry
      | succ count =>
        rw [Nat.succ_inj, inductionHypothesis, forall_after _ entry, Nat.succ_le_succ_iff, Nat.succ_lt_succ_iff,
          show index + (count + 1) = index + 1 + count by omega]
    · rw [entries_end entry, List.length_nil]
      constructor
      · rintro rfl
        exact ⟨Nat.zero_le _, fun k impossible => absurd impossible (Nat.not_lt_zero k), fun _ => entry⟩
      · intro bounds
        by_contra some
        exact entry (bounds.2.1 0 (by omega))

/-- The table goes on at least up to a position if there are only entries before it. -/
theorem le_entries_length {count : Nat} (bound : count ≤ room) :
    count ≤ (entries read room index).length ↔ ∀ k, k < count → Entry read (index + k) := by
  obtain ⟨_, each, last⟩ := entries_length.mp (rfl : (entries read room index).length = _)
  constructor
  · exact fun inside k before => each k (by omega)
  · intro all
    by_contra short
    exact last (by omega) (all _ (Nat.not_le.mp short))

/-- With room for the whole table it does not matter how much room there is. -/
theorem entries_whole {more count : Nat} (ends : ¬ Entry read (index + count)) (first : count ≤ room)
    (second : count ≤ more) : entries read room index = entries read more index := by
  refine List.ext_getElem? (fun k => Option.ext (fun value => ?_))
  rw [entries_getElem?, entries_getElem?]
  refine and_congr_left (fun ⟨each, here, used⟩ => ?_)
  have inside : k < count := by
    by_contra beyond
    by_cases last : k = count
    · exact ends (last ▸ ⟨value, here, used⟩)
    · exact ends (each count (by omega))
  exact iff_of_true (by omega) (by omega)

/-- The strict reader gets the same entries if it admits all their positions and a zero ends them
there, or there is no room for more. -/
theorem checkedEntries_eq_some {admits : Nat → Bool} {values : List α} :
    checkedEntries admits read room index = some values ↔
      values = entries read room index ∧ (∀ k, k < values.length → admits (index + k) = true) ∧
        (values.length < room → admits (index + values.length) = true ∧ read (index + values.length) = some 0) := by
  induction room generalizing index values with
  | zero =>
    rw [checkedEntries, entries, Option.some_inj]
    constructor
    · rintro rfl
      exact ⟨rfl, fun k impossible => absurd impossible (Nat.not_lt_zero k), fun impossible =>
        absurd impossible (Nat.lt_irrefl 0)⟩
    · exact fun same => same.1.symm
  | succ room inductionHypothesis =>
    unfold checkedEntries
    cases admitted : admits index with
    | false =>
      rw [if_neg Bool.false_ne_true]
      refine iff_of_false nofun (fun ⟨_, each, last⟩ => ?_)
      cases values with
      | nil => exact Bool.false_ne_true (admitted.symm.trans (last (Nat.succ_pos _)).1)
      | cons value rest => exact Bool.false_ne_true (admitted.symm.trans (each 0 (Nat.succ_pos _)))
    | true =>
      rw [if_pos rfl]
      by_cases entry : Entry read index
      · have ⟨value, found, used⟩ := entry
        rw [entries_cons found used]
        simp only [found, if_neg used, Option.map_eq_some_iff, inductionHypothesis]
        constructor
        · rintro ⟨rest, ⟨same, each, last⟩, rfl⟩
          refine ⟨congrArg (value :: ·) same, (forall_after (fun k => admits k = true) admitted).mpr each, fun short => ?_⟩
          · rw [List.length_cons, show index + (rest.length + 1) = index + 1 + rest.length by omega]
            exact last (Nat.lt_of_succ_lt_succ short)
        · rintro ⟨rfl, each, last⟩
          rw [List.length_cons] at each last
          refine ⟨_, ⟨rfl, (forall_after (fun k => admits k = true) admitted).mp each, fun short => ?_⟩, rfl⟩
          · rw [show index + 1 + (entries read room (index + 1)).length =
              index + ((entries read room (index + 1)).length + 1) by omega]
            exact last (Nat.succ_lt_succ short)
      · rw [entries_end entry]
        rcases not_entry entry with none | zero
        · rw [none]
          refine iff_of_false nofun ?_
          rintro ⟨rfl, -, last⟩
          have ended := (last (Nat.succ_pos _)).2
          rw [List.length_nil, Nat.add_zero, none] at ended
          cases ended
        · rw [zero]
          simp only [if_true, Option.some_inj]
          constructor
          · rintro rfl
            exact ⟨rfl, fun k impossible => absurd impossible (Nat.not_lt_zero k), fun _ => ⟨admitted, zero⟩⟩
          · exact fun same => same.1.symm

end TerminatedTable
