import SeriesxEmu.ThunkWalks

/-!
# The two walks over the thunk table

`kernel_thunk_ordinals` reads the thunk table as well, but stays inside the image, has a smaller limit, and gives up on
a table that does not end inside the image. It agrees with `install_thunks` on the tables that do.
-/

namespace SeriesxEmu

open TerminatedTable

namespace LoadedXbe

open Load Traced XbeImage

/-! ## The strict walker -/

/-- The loop of `kernel_thunk_ordinals`, from an address on. Without a result the table is given up. -/
def ordinalsFrom (loaded : LoadedXbe) : Nat → Nat → Option (List Nat)
  | 0, _ => some []
  | room + 1, va =>
    if va < loaded.image.header.baseAddr ∨ (loaded.image.imageEndAbs + 2 ^ 32 - 4) % 2 ^ 32 < va then none
    else
      match loaded.ram.read32 va with
      | none => none
      | some 0 => some []
      | some entry => (ordinalsFrom loaded room ((va + 4) % 2 ^ 32)).map (entry % 2 ^ 31 :: ·)

/-- `kernel_thunk_ordinals`. -/
def kernelThunkOrdinals (loaded : LoadedXbe) : List Nat :=
  (ordinalsFrom loaded 4096 loaded.image.kernelThunkVa).getD []

/-- The entry lies in the image. -/
def InImage (loaded : LoadedXbe) (index : Nat) : Prop :=
  loaded.image.header.baseAddr ≤ loaded.entryVa index ∧
    loaded.entryVa index ≤ (loaded.image.imageEndAbs + 2 ^ 32 - 4) % 2 ^ 32

instance (loaded : LoadedXbe) (index : Nat) : Decidable (InImage loaded index) := inferInstanceAs (Decidable (_ ∧ _))

/-- The loop is the strict reader of the table. -/
theorem ordinalsFrom_checked (loaded : LoadedXbe) (room index : Nat) :
    ordinalsFrom loaded room (loaded.entryVa index) = (checkedEntries (fun later => decide (InImage loaded later))
      (tableWord loaded.ram loaded.image.kernelThunkVa) room index).map (List.map (· % 2 ^ 31)) := by
  induction room generalizing index with
  | zero => rfl
  | succ room inductionHypothesis =>
    have next : (loaded.entryVa index + 4) % 2 ^ 32 = loaded.entryVa (index + 1) := by
      unfold entryVa
      omega
    have guard : (loaded.entryVa index < loaded.image.header.baseAddr ∨
        (loaded.image.imageEndAbs + 2 ^ 32 - 4) % 2 ^ 32 < loaded.entryVa index) ↔ ¬ InImage loaded index := by
      unfold InImage
      omega
    have reads : loaded.ram.read32 (loaded.entryVa index) = tableWord loaded.ram loaded.image.kernelThunkVa index := rfl
    unfold ordinalsFrom checkedEntries
    by_cases inside : InImage loaded index
    · rw [if_neg (fun outside => guard.mp outside inside), if_pos (decide_eq_true inside), reads, next,
        inductionHypothesis]
      cases tableWord loaded.ram loaded.image.kernelThunkVa index with
      | none => rfl
      | some value =>
        cases value with
        | zero => rfl
        | succ value =>
          simp only [if_neg (Nat.succ_ne_zero value), Option.map_map]
          rfl
    · rw [if_pos (guard.mpr inside), if_neg (by simp [inside])]
      rfl

/-- The table has no entries; or it has a few thousand at most, all of them in the image, and ends
there with a zero unless the limit of the strict walker is reached exactly. -/
def TableEnds (loaded : LoadedXbe) : Prop :=
  ¬ loaded.HasEntry 0 ∨ ∃ count, count ≤ 4096 ∧
    (∀ index, index < count → loaded.HasEntry index ∧ InImage loaded index) ∧ ¬ loaded.HasEntry count ∧
      (count < 4096 → InImage loaded count ∧ loaded.ram.read32 (loaded.entryVa count) = some 0)

variable {file : ByteVector} {loaded : LoadedXbe} {findExport : Nat → Option Conv} {ram : XbeRam}

/-- What the strict walker makes of the table. -/
def strictEntries (loaded : LoadedXbe) : Option (List Nat) :=
  checkedEntries (fun index => decide (InImage loaded index)) (tableWord loaded.ram loaded.image.kernelThunkVa) 4096 0

/-- The strict walker gives the ordinals of the words it checked, or nothing. -/
theorem kernelThunkOrdinals_eq (accepted : (load file).outcome = .ok loaded) :
    loaded.kernelThunkOrdinals = (loaded.strictEntries.map (List.map (· % 2 ^ 31))).getD [] := by
  obtain ⟨parsing, parsed, _⟩ := load_mapped accepted
  have first : loaded.entryVa 0 = loaded.image.kernelThunkVa := by
    have inside := ((ensures_guarantees file).2 loaded.image parsing).2.located.thunkBelow
    have space := parsed.extent.space
    unfold entryVa
    omega
  rw [kernelThunkOrdinals, ← first, ordinalsFrom_checked]
  rfl

/-- A table without a first entry is empty. -/
theorem tableEntries_nil (absent : ¬ loaded.HasEntry 0) : loaded.tableEntries = [] := entries_end absent

/-- With an entry in the table, the strict walker finds all of them if and only if the table ends for it. -/
theorem strictEntries_eq (entry : loaded.HasEntry 0) :
    loaded.strictEntries = some loaded.tableEntries ↔ TableEnds loaded := by
  rw [strictEntries, checkedEntries_eq_some]
  simp only [Nat.zero_add, decide_eq_true_eq]
  constructor
  · rintro ⟨same, inside, last⟩
    obtain ⟨_, each, ends⟩ := entries_length.mp (rfl : loaded.tableEntries.length = _)
    have few : loaded.tableEntries.length ≤ 4096 := by
      rw [same]
      exact (entries_length.mp rfl).1
    have ends_ := ends (by omega)
    simp only [Nat.zero_add] at each ends_
    exact Or.inr ⟨_, few, fun index before => ⟨each index before, inside index before⟩, ends_, last⟩
  · rintro (none | ⟨count, few, each, ends, last⟩)
    · exact absurd entry none
    · have stops : ¬ Entry (tableWord loaded.ram loaded.image.kernelThunkVa) (0 + count) := by
        rw [Nat.zero_add]
        exact ends
      have length : loaded.tableEntries.length = count := by
        refine entries_length.mpr ⟨by omega, fun index before => ?_, fun _ => stops⟩
        rw [Nat.zero_add]
        exact (each index before).1
      rw [length]
      exact ⟨entries_whole stops (by omega) few, fun index before => (each index before).2, last⟩

/-- The strict walker lists the ordinals of the table if and only if the table ends for it. -/
theorem kernelThunkOrdinals_iff (accepted : (load file).outcome = .ok loaded) :
    loaded.kernelThunkOrdinals = loaded.tableEntries.map (· % 2 ^ 31) ↔ TableEnds loaded := by
  rw [kernelThunkOrdinals_eq accepted]
  by_cases entry : loaded.HasEntry 0
  · rw [← strictEntries_eq entry]
    constructor
    · intro same
      cases strict : loaded.strictEntries with
      | none =>
        -- A table that is given up is listed as empty.
        rw [strict] at same
        have empty := List.map_eq_nil_iff.mp same.symm
        obtain ⟨raw, reading, used⟩ := entry
        have member : raw ∈ loaded.tableEntries := mem_tableEntries.mpr ⟨0, by decide, nofun, reading, used⟩
        rw [empty] at member
        cases member
      | some values =>
        rw [strict] at same
        obtain ⟨listed, -, -⟩ := checkedEntries_eq_some.mp strict
        have length : loaded.tableEntries.length = values.length := by
          have lengths := congrArg List.length same
          rw [List.length_map] at lengths
          exact lengths.symm.trans (List.length_map _)
        have few : values.length ≤ 4096 := by
          rw [listed]
          exact (entries_length.mp rfl).1
        have ends := (entries_length.mp length).2.2 (by omega)
        rw [listed, tableEntries]
        exact congrArg some (entries_whole ends few (by omega))
    · intro strict
      rw [strict]
      rfl
  · refine iff_of_true ?_ (Or.inl entry)
    rw [tableEntries_nil entry]
    cases strict : loaded.strictEntries with
    | none => rfl
    | some values =>
      obtain ⟨listed, -, -⟩ := checkedEntries_eq_some.mp strict
      have empty : entries (tableWord loaded.ram loaded.image.kernelThunkVa) 4096 0 = [] := entries_end entry
      rw [listed, empty]
      rfl

/-- A table whose one entry is the last word of the image. -/
def lastWord : ByteVector := ofWords 0x384 ((0x158, 0x11FFC ^^^ kXorKtRetail) :: headerWords 0x380 0x2000 1 ++
  [(0x348, kSectionWriteable), (0x34C, 0x11FFC), (0x350, 4), (0x354, 0x380), (0x358, 4), (0x380, 0x80000005)])

end LoadedXbe

end SeriesxEmu
