import Mathlib.Data.List.Basic
import Mathlib.Data.List.Nodup

/-!
# A table with recycled slots

Entries stay in the slot they were put into. A removed entry leaves its slot empty, and the
slot goes to a list from which the next entry takes it. The table is well formed when the list
names every empty slot once and nothing else; then an entry never displaces another.
-/

namespace SeriesxEmu

/-- Cells with a list of those that are free. -/
structure SlotTable (α : Type) where
  cells : List (Option α)
  free : List Nat

namespace SlotTable

variable {α : Type} {table : SlotTable α}

/-- The list of free slots names each empty slot once. -/
structure Ok (table : SlotTable α) : Prop where
  once : table.free.Nodup
  lists : ∀ slot, slot ∈ table.free ↔ table.cells[slot]? = some none

/-- The entry of a slot. -/
def lookup (table : SlotTable α) (slot : Nat) : Option α := (table.cells[slot]?).join

/-- The slot of the next entry: the last one freed, or a new one at the end. -/
def next (table : SlotTable α) : Nat := table.free.getLast?.getD table.cells.length

/-- An entry goes to the last free slot, or to a new one at the end. -/
def insert (table : SlotTable α) (entry : α) : SlotTable α :=
  match table.free.getLast? with
  | some slot => { cells := table.cells.set slot (some entry), free := table.free.dropLast }
  | none => { table with cells := table.cells ++ [some entry] }

/-- The slot is emptied and put at the end of the free list. -/
def remove (table : SlotTable α) (slot : Nat) : SlotTable α :=
  { cells := table.cells.set slot none, free := table.free ++ [slot] }

/-- A slot has an entry when its cell holds it. -/
theorem lookup_some {slot : Nat} {entry : α} :
    table.lookup slot = some entry ↔ table.cells[slot]? = some (some entry) := by
  rw [lookup, Option.join_eq_some_iff]

/-- The empty table is sound. -/
theorem ok_empty : (SlotTable.mk ([] : List (Option α)) []).Ok := ⟨List.nodup_nil, fun slot => by simp⟩

/-- The next entry displaces none. -/
theorem Ok.lookup_next (ok : table.Ok) : table.lookup table.next = none := by
  unfold next
  cases last : table.free.getLast? with
  | none => simp [lookup]
  | some slot =>
    have empty := (ok.lists slot).mp (List.mem_of_getLast? last)
    simp [lookup, empty]

/-- The next slot is at most one past the cells. -/
theorem next_le (ok : table.Ok) : table.next ≤ table.cells.length := by
  unfold next
  cases last : table.free.getLast? with
  | none => exact Nat.le_refl _
  | some slot =>
    have empty := (ok.lists slot).mp (List.mem_of_getLast? last)
    exact Nat.le_of_lt (List.getElem?_eq_some_iff.mp empty).1

/-- The new entry is found in its slot, and every other slot is as before. -/
theorem Ok.lookup_insert (ok : table.Ok) (entry : α) (slot : Nat) :
    (table.insert entry).lookup slot = if slot = table.next then some entry else table.lookup slot := by
  unfold insert next
  cases last : table.free.getLast? with
  | none =>
    by_cases here : slot = table.cells.length
    · subst here
      simp [lookup]
    · simp only [lookup, Option.getD_none, here, ↓reduceIte, List.getElem?_append]
      split
      · rfl
      · rename_i beyond
        rw [List.getElem?_eq_none (by simp; omega), List.getElem?_eq_none (by omega)]
  | some freed =>
    have empty := (ok.lists freed).mp (List.mem_of_getLast? last)
    have inside := (List.getElem?_eq_some_iff.mp empty).1
    by_cases here : slot = freed
    · subst here
      simp [lookup, inside]
    · simp [lookup, here, List.getElem?_set_ne (Ne.symm here)]

/-- Removing empties one slot and leaves the others. -/
theorem lookup_remove (slot other : Nat) :
    (table.remove slot).lookup other = if other = slot then none else table.lookup other := by
  unfold remove lookup
  by_cases here : other = slot
  · subst here
    rw [if_pos rfl, List.getElem?_set]
    split
    · split <;> rfl
    · contradiction
  · rw [if_neg here, List.getElem?_set_ne (Ne.symm here)]

/-- A list without duplicates and its last element. -/
theorem dropLast_append_last {entries : List Nat} {last : Nat} (ends : entries.getLast? = some last) :
    entries.dropLast ++ [last] = entries := by
  obtain ⟨front, rfl⟩ := List.getLast?_eq_some_iff.mp ends
  simp

/-- Inserting keeps the table sound. -/
theorem Ok.insert (ok : table.Ok) (entry : α) : (table.insert entry).Ok := by
  unfold SlotTable.insert
  cases last : table.free.getLast? with
  | none =>
    refine ⟨ok.once, fun slot => ?_⟩
    rw [ok.lists slot, List.getElem?_append]
    split
    · exact Iff.rfl
    · rename_i beyond
      rw [List.getElem?_eq_none (by omega)]
      cases slot - table.cells.length <;> simp
  | some freed =>
    have whole := dropLast_append_last last
    have once := ok.once
    rw [← whole, List.nodup_append] at once
    obtain ⟨frontOnce, _, apart⟩ := once
    refine ⟨frontOnce, fun slot => ?_⟩
    by_cases here : slot = freed
    · subst here
      have absent : slot ∉ table.free.dropLast := fun member => apart slot member slot List.mem_cons_self rfl
      have filled : (table.cells.set slot (some entry))[slot]? ≠ some none := by
        rw [List.getElem?_set]
        split
        · split <;> simp
        · contradiction
      exact ⟨fun member => absurd member absent, fun empty => absurd empty filled⟩
    · rw [List.getElem?_set_ne (Ne.symm here), ← ok.lists slot]
      conv_rhs => rw [← whole]
      simp [here]

/-- Removing an entry frees its slot, which was not free before. -/
theorem Ok.remove (ok : table.Ok) {slot : Nat} {entry : α} (occupied : table.lookup slot = some entry) :
    (table.remove slot).Ok := by
  have cell := lookup_some.mp occupied
  have inside := (List.getElem?_eq_some_iff.mp cell).1
  have absent : slot ∉ table.free := by
    intro member
    rw [(ok.lists slot).mp member] at cell
    cases cell
  refine ⟨?_, fun other => ?_⟩
  · refine List.nodup_append.mpr ⟨ok.once, List.nodup_singleton slot, fun other member last isLast => ?_⟩
    rw [List.mem_singleton.mp isLast]
    rintro rfl
    exact absent member
  · unfold SlotTable.remove
    by_cases here : other = slot
    · subst here
      simp [inside]
    · rw [List.getElem?_set_ne (Ne.symm here), ← ok.lists other]
      simp [here]

end SlotTable

end SeriesxEmu
