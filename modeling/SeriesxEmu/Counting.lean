import Mathlib.Data.List.Basic

/-!
# Counting members of a list

How the members with a property compare between two lists of which the second
comes from the first by changes in place.
-/

namespace SeriesxEmu.Counting

variable {α : Type} {holds : α → Bool} {items : List α}

/-- A list counts no more than another one that has a counted member at each position
where it has one. -/
theorem countP_pointwise (holds : α → Bool) (before after : List α)
    (each : ∀ (index : Nat) (new : α), after[index]? = some new → holds new = true →
      ∃ old, before[index]? = some old ∧ holds old = true) : after.countP holds ≤ before.countP holds := by
  induction after generalizing before with
  | nil => simp
  | cons new others inductionHypothesis =>
    cases before with
    | nil =>
      have absent : (new :: others).countP holds = 0 := by
        refine List.countP_eq_zero.mpr (fun member found counted => ?_)
        obtain ⟨index, here⟩ := List.mem_iff_getElem?.mp found
        obtain ⟨old, absent, _⟩ := each index member here counted
        simp at absent
      rw [absent]
      exact Nat.zero_le _
    | cons old rest =>
      have tail := inductionHypothesis rest (fun index later found counted => by
        simpa using each (index + 1) later (by simpa using found) counted)
      have head : holds new = true → holds old = true := fun counted => by
        obtain ⟨first, here, also⟩ := each 0 new (by simp) counted
        obtain rfl : old = first := by simpa using here
        exact also
      simp only [List.countP_cons]
      by_cases now : holds new = true
      · simp only [now, head now, ↓reduceIte]
        omega
      · simp only [now, Bool.false_eq_true, ↓reduceIte]
        omega

/-- Two lists have the same members with a property, in the same order, when they agree
at each position where either of them has one. -/
theorem filter_pointwise (holds : α → Bool) (before after : List α) (length : after.length = before.length)
    (each : ∀ (index : Nat) (old new : α), before[index]? = some old → after[index]? = some new →
      holds new = holds old ∧ (holds old = true → new = old)) : after.filter holds = before.filter holds := by
  induction before generalizing after with
  | nil => rw [List.eq_nil_of_length_eq_zero length]
  | cons old rest inductionHypothesis =>
    cases after with
    | nil => simp at length
    | cons new others =>
      have tail := inductionHypothesis others (by simpa using length) (fun index left right found found' =>
        each (index + 1) left right (by simpa using found) (by simpa using found'))
      obtain ⟨same, equal⟩ := each 0 old new (by simp) (by simp)
      by_cases kept : holds old = true
      · rw [equal kept, List.filter_cons_of_pos kept, List.filter_cons_of_pos kept, tail]
      · rw [List.filter_cons_of_neg (by rw [same]; exact kept), List.filter_cons_of_neg kept, tail]

/-- One member changes: the count loses what the old member was worth and gains what
the new one is worth. -/
theorem countP_modify (holds : α → Bool) (change : α → α) {index : Nat} {item : α}
    (found : items[index]? = some item) :
    (items.modify index change).countP holds + (if holds item then 1 else 0) =
      items.countP holds + (if holds (change item) then 1 else 0) := by
  induction items generalizing index with
  | nil => simp at found
  | cons head rest inductionHypothesis =>
    cases index with
    | zero =>
      obtain rfl : head = item := by simpa using found
      simp only [List.modify_zero_cons, List.countP_cons]
      omega
    | succ index =>
      have tail := inductionHypothesis (by simpa using found)
      simp only [List.modify_succ_cons, List.countP_cons]
      omega

end SeriesxEmu.Counting
