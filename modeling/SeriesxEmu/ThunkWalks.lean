import SeriesxEmu.ThunkPatching
import SeriesxEmu.TerminatedTables

/-!
# Walks over the thunk table

The thunk table of an image is read by two walkers. `install_thunks` patches the entries as it
reads them, and takes the first word that it cannot read for the end. `kernel_thunk_ordinals`
only reads, stays inside the image, and gives up on a table that does not end there.
-/

namespace SeriesxEmu

open TerminatedTable

namespace LoadedXbe

open Load Traced XbeImage

/-! ## The slots of a table -/

/-- What a walk reads for an entry of the table. -/
def tableWord (ram : XbeRam) (kt index : Nat) : Option Nat := ram.read32 ((kt + 4 * index) % 2 ^ 32)

/-- The slots for the words of a table, from an entry on. -/
def slotsOf (findExport : Nat → Option Conv) (kernelDataVa kt : Nat) : Nat → List Nat → List ThunkSlot
  | _, [] => []
  | index, raw :: rest =>
    slotOf findExport kernelDataVa ((kt + 4 * index) % 2 ^ 32) raw ::
      slotsOf findExport kernelDataVa kt (index + 1) rest

variable {findExport : Nat → Option Conv} {kernelDataVa kt room index : Nat} {ram : XbeRam}

/-- The slots carry the ordinals of the words. -/
theorem slotsOf_ordinals (index : Nat) (raws : List Nat) :
    (slotsOf findExport kernelDataVa kt index raws).map ThunkSlot.ordinal = raws.map (· % 2 ^ 31) := by
  induction raws generalizing index with
  | nil => rfl
  | cons raw rest inductionHypothesis =>
    rw [slotsOf, List.map_cons, List.map_cons, (slotOf_names _ _ _ _).2, inductionHypothesis]

/-- The places of the slots. -/
theorem mem_slotsOf {raws : List Nat} {slot : ThunkSlot}
    (member : slot ∈ slotsOf findExport kernelDataVa kt index raws) :
    ∃ later, index ≤ later ∧ later < index + raws.length ∧ slot.slotVa = (kt + 4 * later) % 2 ^ 32 := by
  induction raws generalizing index with
  | nil => cases member
  | cons raw rest inductionHypothesis =>
    rw [List.length_cons]
    rcases List.mem_cons.mp member with rfl | later
    · exact ⟨index, Nat.le_refl _, by omega, (slotOf_names _ _ _ _).1⟩
    · obtain ⟨place, low, high, same⟩ := inductionHypothesis later
      exact ⟨place, by omega, by omega, same⟩

/-! ## What the walk reads -/

/-- Making pages writable leaves the bytes. -/
theorem protectRw_bytes (ram : XbeRam) (addr size : Nat) : (ram.protectRw addr size).1.bytes = ram.bytes := by
  unfold XbeRam.protectRw
  split <;> rfl

/-- Making them read-only leaves the words. -/
theorem protectRo_read32 (ram : XbeRam) (addr size va : Nat) :
    (ram.protectRo addr size).1.read32 va = ram.read32 va := by
  unfold XbeRam.protectRo
  split <;> rfl

/-- A patch leaves the other words alone. -/
theorem patch_read32 (paged : ram.pageSize = 4096) {slot : ThunkSlot} {va : Nat}
    (apart : slot.slotVa + 4 ≤ va ∨ va + 4 ≤ slot.slotVa) : (patch ram slot).read32 va = ram.read32 va := by
  have lifted : (ram.protectRw slot.slotVa 4).1.read32 va = ram.read32 va := by
    have pages := ram.protectRw_pages slot.slotVa 4
    exact XbeRam.read32_congr (by omega) pages.1 pages.2.1 (fun page _ => congrFun pages.2.2 page)
      (fun address _ _ => congrFun (protectRw_bytes _ _ _) address)
  unfold patch
  split
  · simp only
    split
    · rw [protectRo_read32, XbeRam.read32_write32_other apart, lifted]
    · exact XbeRam.read32_write32_other apart _
  · rfl

/-- A patch stores the new value of an implemented slot. -/
theorem patch_stores (paged : ram.pageSize = 4096) {slot : ThunkSlot} {raw : Nat}
    (reading : ram.read32 slot.slotVa = some raw) (implemented : slot.implemented = true) :
    (patch ram slot).read32 slot.slotVa = some (slot.newValue % 2 ^ 32) := by
  have positive : 0 < ram.pageSize := by omega
  have held := read32_committed reading
  have committed := (XbeRam.isCommitted_iff positive).mp held
  unfold patch
  simp only [implemented, ↓reduceIte]
  cases usable : ram.writable slot.slotVa 4 with
  | true =>
    simp only [Bool.not_true, Bool.false_eq_true, ↓reduceIte]
    exact XbeRam.read32_write32 usable _
  | false =>
    simp only [Bool.not_false, ↓reduceIte]
    have lifted := XbeRam.protectRw_becomes positive held
    have opened : (ram.protectRw slot.slotVa 4).1.writable slot.slotVa 4 = true := by
      rw [XbeRam.writable_iff (lifted.pageSize ▸ positive), lifted.size]
      refine ⟨committed.1, fun page covered => ?_⟩
      rw [XbeRam.Covers.congr lifted.pageSize] at covered
      rw [lifted.committed, lifted.readOnly, decide_eq_true covered, Bool.not_true, Bool.and_false]
      exact ⟨committed.2 page covered, rfl⟩
    rw [protectRo_read32]
    exact XbeRam.read32_write32 opened _

/-- Two entries of a table have no byte in common. -/
theorem entries_apart (kt : Nat) {index later : Nat} (after : index < later) (near : 4 * (later - index) + 4 ≤ 2 ^ 32) :
    (kt + 4 * index) % 2 ^ 32 + 4 ≤ (kt + 4 * later) % 2 ^ 32 ∨
      (kt + 4 * later) % 2 ^ 32 + 4 ≤ (kt + 4 * index) % 2 ^ 32 := by
  omega

/-- A patch leaves the other entries of the table alone. -/
theorem patch_tableWord (paged : ram.pageSize = 4096) (kt raw : Nat) {index later : Nat} (after : index < later)
    (near : 4 * (later - index) + 4 ≤ 2 ^ 32) :
    tableWord (patch ram (slotOf findExport kernelDataVa ((kt + 4 * index) % 2 ^ 32) raw)) kt later =
      tableWord ram kt later := by
  refine patch_read32 paged ?_
  rw [(slotOf_names _ _ _ _).1]
  exact entries_apart kt after near

/-- A walk that stands at no entry is over. -/
theorem walk_end (ends : ¬ Entry (tableWord ram kt) index) :
    walk findExport kernelDataVa kt room index ram = (ram, []) := by
  cases room with
  | zero => rfl
  | succ room =>
    rcases not_entry ends with none | zero
    · have reads : ram.read32 ((kt + 4 * index) % 2 ^ 32) = Option.none := none
      simp only [walk, reads]
    · have reads : ram.read32 ((kt + 4 * index) % 2 ^ 32) = some 0 := zero
      simp only [walk, reads]

/-- The walk patches an entry and goes on with the next one. -/
theorem walk_entry {raw : Nat} (reading : tableWord ram kt index = some raw) (used : raw ≠ 0) :
    walk findExport kernelDataVa kt (room + 1) index ram =
      let slot := slotOf findExport kernelDataVa ((kt + 4 * index) % 2 ^ 32) raw
      let rest := walk findExport kernelDataVa kt room (index + 1) (patch ram slot)
      (rest.1, slot :: rest.2) := by
  have reads : ram.read32 ((kt + 4 * index) % 2 ^ 32) = some raw := reading
  simp only [walk, reads]

/-- After a patch the table has the same entries ahead. -/
theorem entries_patch (paged : ram.pageSize = 4096) (short : 4 * (room + 1) + 4 ≤ 2 ^ 32) (raw : Nat) :
    entries (tableWord (patch ram (slotOf findExport kernelDataVa ((kt + 4 * index) % 2 ^ 32) raw)) kt) room
      (index + 1) = entries (tableWord ram kt) room (index + 1) :=
  entries_congr (fun _ low high _ => patch_tableWord paged kt raw (by omega) (by omega))

/-- A patch leaves the size of a page. -/
theorem patch_pageSize (paged : ram.pageSize = 4096) (slot : ThunkSlot) : (patch ram slot).pageSize = 4096 :=
  (patch_pages ram slot).2.1.trans paged

/-- The slots of a walk are those of the table as it was. -/
theorem walk_slots (paged : ram.pageSize = 4096) (findExport : Nat → Option Conv) (kernelDataVa kt room index : Nat)
    (short : 4 * room + 4 ≤ 2 ^ 32) :
    (walk findExport kernelDataVa kt room index ram).2 =
      slotsOf findExport kernelDataVa kt index (entries (tableWord ram kt) room index) := by
  induction room generalizing index ram with
  | zero => rfl
  | succ room inductionHypothesis =>
    by_cases entry : Entry (tableWord ram kt) index
    · obtain ⟨raw, reading, used⟩ := entry
      rw [walk_entry reading used, entries_cons reading used, slotsOf]
      simp only
      rw [inductionHypothesis (patch_pageSize paged _) _ (by omega), entries_patch paged short]
    · rw [walk_end entry, entries_end entry]
      rfl

/-- A walk over a table without implemented entries changes nothing. -/
theorem walk_quiet (findExport : Nat → Option Conv) (kernelDataVa kt room index : Nat) (ram : XbeRam)
    (unpatched : ∀ raw ∈ entries (tableWord ram kt) room index, ¬ Imports findExport raw) :
    (walk findExport kernelDataVa kt room index ram).1 = ram := by
  induction room generalizing index with
  | zero => rfl
  | succ room inductionHypothesis =>
    by_cases entry : Entry (tableWord ram kt) index
    · obtain ⟨raw, reading, used⟩ := entry
      rw [entries_cons reading used] at unpatched
      have untouched : patch ram (slotOf findExport kernelDataVa ((kt + 4 * index) % 2 ^ 32) raw) = ram := by
        refine if_neg ?_
        rw [slotOf_implemented]
        exact unpatched raw List.mem_cons_self
      rw [walk_entry reading used]
      simp only
      rw [untouched]
      exact inductionHypothesis _ (fun later member => unpatched later (List.mem_cons_of_mem _ member))
    · rw [walk_end entry]

/-! ## The values that are stored -/

/-- A word that imports nothing is left as it is. -/
theorem newValue_untouched (kernelDataVa slotVa : Nat) {raw : Nat} (other : ¬ Imports findExport raw) :
    (slotOf findExport kernelDataVa slotVa raw).newValue = raw := by
  unfold slotOf
  unfold Imports at other
  by_cases imported : raw.testBit 31 = true
  · simp only [imported, ↓reduceIte, true_and] at other ⊢
    generalize raw % 2 ^ 31 = ordinal at other ⊢
    cases found : findExport ordinal with
    | none => rfl
    | some conv =>
      rw [found] at other
      cases conv with
      | data =>
        have refused : ¬ (implementedData ordinal).isSome = true := other
        cases given : implementedData ordinal with
        | none => rfl
        | some offset =>
          rw [given] at refused
          exact absurd rfl refused
      | stdcall | fastcall | cdecl =>
        have refused : ¬ implementedFunction ordinal = true := other
        simp only [if_neg refused]
  · simp only [imported, Bool.false_eq_true, ↓reduceIte]

/-- The value of an implemented slot: the marker of a function, or the place of a datum in the data page. -/
theorem newValue_cases (kernelDataVa slotVa : Nat) {raw : Nat} (imports : Imports findExport raw) :
    (implementedFunction (raw % 2 ^ 31) = true ∧
        (slotOf findExport kernelDataVa slotVa raw).newValue = kHleMarker ||| raw % 2 ^ 31) ∨
      ∃ offset, implementedData (raw % 2 ^ 31) = some offset ∧
        (slotOf findExport kernelDataVa slotVa raw).newValue = (kernelDataVa + offset) % 2 ^ 32 := by
  obtain ⟨imported, implemented⟩ := imports
  unfold slotOf
  simp only [imported, ↓reduceIte]
  cases found : findExport (raw % 2 ^ 31) with
  | none =>
    rw [found] at implemented
    cases implemented
  | some conv =>
    rw [found] at implemented
    cases conv with
    | data =>
      obtain ⟨offset, given⟩ := Option.isSome_iff_exists.mp implemented
      exact Or.inr ⟨offset, given, by simp only [given]⟩
    | stdcall | fastcall | cdecl =>
      have function : implementedFunction (raw % 2 ^ 31) = true := implemented
      exact Or.inl ⟨function, by simp only [function, ↓reduceIte]⟩

/-- Only small ordinals are implemented. -/
theorem Imports.small {raw : Nat} (imports : Imports findExport raw) : raw % 2 ^ 31 < 2 ^ 16 := by
  rcases newValue_cases 0 0 imports with ⟨function, -⟩ | ⟨offset, given, -⟩
  · have each : ∀ ordinal, implementedFunction ordinal = true → ordinal < 2 ^ 16 := by
      intro ordinal member
      have listed := List.contains_iff_mem.mp member
      exact (by decide : ∀ ordinal ∈ _, ordinal < 2 ^ 16) ordinal listed
    exact each _ function
  · unfold implementedData at given
    split at given <;> first | omega | cases given

/-- The values that the kernel stores are words other than zero, and none of them is again the entry
of an export that the kernel implements. -/
theorem newValue_spec (slotVa : Nat) {raw : Nat} (imports : Imports findExport raw) :
    (slotOf findExport 0x3FFF000 slotVa raw).newValue ≠ 0 ∧
      (slotOf findExport 0x3FFF000 slotVa raw).newValue < 2 ^ 32 ∧
        ¬ Imports findExport (slotOf findExport 0x3FFF000 slotVa raw).newValue := by
  have small := imports.small
  rcases newValue_cases 0x3FFF000 slotVa imports with ⟨-, value⟩ | ⟨offset, given, value⟩
  · have marker : kHleMarker ||| raw % 2 ^ 31 = 0xF00F0000 + raw % 2 ^ 31 :=
      (Nat.two_pow_add_eq_or_of_lt small 0xF00F).symm
    rw [value, marker]
    refine ⟨by omega, by omega, fun again => ?_⟩
    have smallAgain := again.small
    omega
  · have near : offset < 0x1000 := by
      unfold implementedData at given
      split at given <;> cases given <;> decide
    rw [value]
    refine ⟨by omega, by omega, fun again => ?_⟩
    have high := again.1
    rw [Nat.testBit_lt_two_pow (by omega)] at high
    cases high

/-! ## The table after a walk -/

/-- A walk leaves the entries before it alone. -/
theorem walk_tableWord (paged : ram.pageSize = 4096) {earlier : Nat} (before : earlier < index)
    (near : 4 * (index + room - earlier) + 4 ≤ 2 ^ 32) :
    tableWord (walk findExport kernelDataVa kt room index ram).1 kt earlier = tableWord ram kt earlier := by
  induction room generalizing index ram with
  | zero => rfl
  | succ room inductionHypothesis =>
    by_cases entry : Entry (tableWord ram kt) index
    · obtain ⟨raw, reading, used⟩ := entry
      rw [walk_entry reading used]
      simp only
      rw [inductionHypothesis (patch_pageSize paged _) (by omega) (by omega)]
      refine patch_read32 paged ?_
      rw [(slotOf_names _ _ _ _).1]
      exact (entries_apart kt before (by omega)).symm
    · rw [walk_end entry]

/-- A patch leaves the new value in the entry. -/
theorem patch_value (paged : ram.pageSize = 4096) {raw : Nat} (reading : tableWord ram kt index = some raw) :
    tableWord (patch ram (slotOf findExport 0x3FFF000 ((kt + 4 * index) % 2 ^ 32) raw)) kt index =
      some (slotOf findExport 0x3FFF000 ((kt + 4 * index) % 2 ^ 32) raw).newValue := by
  have place := (slotOf_names findExport 0x3FFF000 ((kt + 4 * index) % 2 ^ 32) raw).1
  have implemented := slotOf_implemented findExport 0x3FFF000 ((kt + 4 * index) % 2 ^ 32) raw
  by_cases imports : Imports findExport raw
  · have stored := patch_stores paged (by rw [place]; exact reading) (implemented.mpr imports)
    rw [Nat.mod_eq_of_lt (newValue_spec _ imports).2.1, place] at stored
    exact stored
  · have untouched : patch ram (slotOf findExport 0x3FFF000 ((kt + 4 * index) % 2 ^ 32) raw) = ram := by
      refine if_neg ?_
      rwa [implemented]
    rw [untouched, newValue_untouched _ _ imports]
    exact reading

/-- After a walk the table holds the new values. -/
theorem walk_entries (paged : ram.pageSize = 4096) (findExport : Nat → Option Conv) (kt room index : Nat)
    (short : 4 * room + 4 ≤ 2 ^ 32) :
    entries (tableWord (walk findExport 0x3FFF000 kt room index ram).1 kt) room index =
      (walk findExport 0x3FFF000 kt room index ram).2.map ThunkSlot.newValue := by
  induction room generalizing index ram with
  | zero => rfl
  | succ room inductionHypothesis =>
    by_cases entry : Entry (tableWord ram kt) index
    · obtain ⟨raw, reading, used⟩ := entry
      have nonzero : (slotOf findExport 0x3FFF000 ((kt + 4 * index) % 2 ^ 32) raw).newValue ≠ 0 := by
        by_cases imports : Imports findExport raw
        · exact (newValue_spec _ imports).1
        · rwa [newValue_untouched _ _ imports]
      have paged_ := patch_pageSize paged (slotOf findExport 0x3FFF000 ((kt + 4 * index) % 2 ^ 32) raw)
      have still : tableWord (walk findExport 0x3FFF000 kt room (index + 1)
          (patch ram (slotOf findExport 0x3FFF000 ((kt + 4 * index) % 2 ^ 32) raw))).1 kt index =
            some (slotOf findExport 0x3FFF000 ((kt + 4 * index) % 2 ^ 32) raw).newValue := by
        rw [walk_tableWord paged_ (Nat.lt_succ_self index) (by omega), patch_value paged reading]
      rw [walk_entry reading used]
      simp only
      rw [entries_cons still nonzero, List.map_cons, inductionHypothesis paged_ _ (by omega)]
    · rw [walk_end entry, entries_end entry]
      rfl

/-! ## A second walk -/

/-- What is reported of a slot. -/
def report (slot : ThunkSlot) : Nat × Nat × Bool × Nat := (slot.slotVa, slot.ordinal, slot.implemented, slot.newValue)

/-- The slots for the values of the slots are reported alike if and only if no entry is implemented. -/
theorem reports_again (index : Nat) (raws : List Nat) :
    (slotsOf findExport 0x3FFF000 kt index
        ((slotsOf findExport 0x3FFF000 kt index raws).map ThunkSlot.newValue)).map report =
      (slotsOf findExport 0x3FFF000 kt index raws).map report ↔ ∀ raw ∈ raws, ¬ Imports findExport raw := by
  induction raws generalizing index with
  | nil => exact iff_of_true rfl (fun raw member => absurd member List.not_mem_nil)
  | cons raw rest inductionHypothesis =>
    simp only [slotsOf, List.map_cons, List.cons.injEq, inductionHypothesis, List.forall_mem_cons]
    refine and_congr_left (fun _ => ?_)
    constructor
    · intro same imports
      have implemented := (slotOf_implemented findExport 0x3FFF000 ((kt + 4 * index) % 2 ^ 32) raw).mpr imports
      rw [← show _ = (slotOf findExport 0x3FFF000 ((kt + 4 * index) % 2 ^ 32) raw).implemented from
        congrArg (fun entry => entry.2.2.1) same] at implemented
      exact (newValue_spec _ imports).2.2 ((slotOf_implemented _ _ _ _).mp implemented)
    · intro other
      rw [newValue_untouched _ _ other]

/-- None of the values that a walk stores is implemented. -/
theorem newValues_unimplemented (index : Nat) (raws : List Nat) :
    ∀ value ∈ (slotsOf findExport 0x3FFF000 kt index raws).map ThunkSlot.newValue, ¬ Imports findExport value := by
  induction raws generalizing index with
  | nil => exact fun value member => absurd member List.not_mem_nil
  | cons raw rest inductionHypothesis =>
    simp only [slotsOf, List.map_cons, List.forall_mem_cons]
    refine ⟨?_, inductionHypothesis _⟩
    by_cases imports : Imports findExport raw
    · exact (newValue_spec _ imports).2.2
    · rwa [newValue_untouched _ _ imports]

/-! ## Tables outside of the data page -/

variable {file : ByteVector} {loaded : LoadedXbe}

/-- Every word that a walk can come to, the one that ends the table included, lies outside of the
data page. -/
def TableOutside (loaded : LoadedXbe) : Prop :=
  ∀ index, index < 100000 → (∀ earlier, earlier < index → loaded.HasEntry earlier) →
    loaded.entryVa index + 4 ≤ loaded.layout.kernelDataVa ∨
      loaded.layout.kernelDataVa + 0x1000 ≤ loaded.entryVa index

/-- The words of the table, as the image has it. -/
def tableEntries (loaded : LoadedXbe) : List Nat := entries (tableWord loaded.ram loaded.image.kernelThunkVa) 100000 0

/-- A word outside of the data page is not changed when that is opened. -/
theorem Opened.read32 {ready : XbeRam} (opened : Opened ram ready) (paged : ram.pageSize = 4096) {va : Nat}
    (outside : va + 4 ≤ 0x3FFF000 ∨ 0x4000000 ≤ va) : ready.read32 va = ram.read32 va := by
  refine XbeRam.read32_congr (by omega) opened.size opened.pageSize (fun page covered => ?_)
    (fun address low high => opened.bytes address (by omega))
  rw [covers_word paged] at covered
  exact opened.committed page (by omega)

/-- Opening the data page leaves a table outside of it alone. -/
theorem Opened.entries {ready : XbeRam} (opened : Opened ram ready) (paged : ram.pageSize = 4096)
    (outside : ∀ later, index ≤ later → later < index + room → (∀ earlier, index ≤ earlier → earlier < later →
      Entry (tableWord ram kt) earlier) →
        (kt + 4 * later) % 2 ^ 32 + 4 ≤ 0x3FFF000 ∨ 0x4000000 ≤ (kt + 4 * later) % 2 ^ 32) :
    TerminatedTable.entries (tableWord ready kt) room index = TerminatedTable.entries (tableWord ram kt) room index :=
  entries_congr (fun later low high before => opened.read32 paged (outside later low high before))

/-- A walk changes the protection of the pages of its slots only. -/
theorem walk_readOnly (paged : ram.pageSize = 4096) (findExport : Nat → Option Conv) (kernelDataVa kt room index : Nat)
    (page : Nat)
    (outside : ∀ slot ∈ (walk findExport kernelDataVa kt room index ram).2, ¬ ram.Covers slot.slotVa 4 page) :
    (walk findExport kernelDataVa kt room index ram).1.readOnly page = ram.readOnly page := by
  induction room generalizing index ram with
  | zero => rfl
  | succ room inductionHypothesis =>
    by_cases entry : Entry (tableWord ram kt) index
    · obtain ⟨raw, reading, used⟩ := entry
      rw [walk_entry reading used] at outside ⊢
      have first := outside _ List.mem_cons_self
      rw [(slotOf_names _ _ _ _).1] at first
      rcases patch_slotOf paged reading findExport kernelDataVa with ⟨-, patched⟩ | ⟨-, untouched⟩
      · refine (inductionHypothesis (patched.pageSize.trans paged) _ (fun slot member => ?_)).trans ?_
        · rw [XbeRam.Covers.congr patched.pageSize]
          exact outside slot (List.mem_cons_of_mem _ member)
        · rw [Bool.eq_iff_iff, patched.readOnly]
          exact or_iff_left (fun covered => first covered.1)
      · simp only [untouched] at outside ⊢
        exact inductionHypothesis paged _ (fun slot member => outside slot (List.mem_cons_of_mem _ member))
    · rw [walk_end entry]

/-- The words before a position of the table are entries of the image. -/
theorem TableOutside.place (outside : TableOutside loaded) (data : loaded.layout.kernelDataVa = 0x3FFF000)
    {index : Nat} (room : index < 100000) (inside : index ≤ loaded.tableEntries.length) :
    loaded.entryVa index + 4 ≤ 0x3FFF000 ∨ 0x4000000 ≤ loaded.entryVa index := by
  have each := (le_entries_length (Nat.le_of_lt room)).mp inside
  have place := outside index room (fun earlier before => ?_)
  · rwa [data] at place
  · have entry := each earlier before
    rwa [Nat.zero_add] at entry

/-- What an installation that returns has done to a table outside of the data page. -/
theorem install_walked (accepted : (load file).outcome = .ok loaded) (outside : TableOutside loaded) {tick : Nat}
    {slots : List ThunkSlot} (installed : (installThunks findExport tick loaded).2.outcome = .ok (ram, slots)) :
    loaded.ram.readOnly 0x3FFF = false ∧ ∃ ready, Opened loaded.ram ready ∧
      walk findExport 0x3FFF000 loaded.image.kernelThunkVa 100000 0 ready = (ram, slots) ∧
        entries (tableWord ready loaded.image.kernelThunkVa) 100000 0 = loaded.tableEntries := by
  obtain ⟨_, _, _, mapped⟩ := load_mapped accepted
  have data := kernelDataVa_eq accepted
  rcases install_cases accepted findExport tick with ⟨_, fails⟩ | ⟨free, -⟩
  · exact absurd installed (fails _)
  · obtain ⟨ready, opened, outcome⟩ := install_opened loaded mapped.size mapped.paged free findExport tick
    rw [data] at outcome
    refine ⟨free, ready, opened, Except.ok.inj (outcome.symm.trans installed), ?_⟩
    refine opened.entries mapped.paged (fun later _ high before => ?_)
    refine outside.place data (by omega) ((le_entries_length (by omega)).mpr (fun k smaller => ?_))
    rw [Nat.zero_add]
    exact before k (Nat.zero_le k) smaller

/-- There is one slot for each word. -/
theorem slotsOf_length (index : Nat) (raws : List Nat) :
    (slotsOf findExport kernelDataVa kt index raws).length = raws.length := by
  induction raws generalizing index with
  | nil => rfl
  | cons raw rest inductionHypothesis => rw [slotsOf, List.length_cons, List.length_cons, inductionHypothesis]

/-- The slots that an installation returns are those of the table of the image. -/
theorem install_slots (accepted : (load file).outcome = .ok loaded) (outside : TableOutside loaded) {tick : Nat}
    {slots : List ThunkSlot} (installed : (installThunks findExport tick loaded).2.outcome = .ok (ram, slots)) :
    slots = slotsOf findExport 0x3FFF000 loaded.image.kernelThunkVa 0 loaded.tableEntries := by
  obtain ⟨_, _, _, mapped⟩ := load_mapped accepted
  obtain ⟨_, ready, opened, walked, table⟩ := install_walked accepted outside installed
  have listed := walk_slots (opened.pageSize.trans mapped.paged) findExport 0x3FFF000 loaded.image.kernelThunkVa 100000
    0 (by decide)
  rwa [walked, table] at listed

/-- A slot of a table outside of the data page lies outside of it. -/
theorem TableOutside.slot (outside : TableOutside loaded) (data : loaded.layout.kernelDataVa = 0x3FFF000)
    {slot : ThunkSlot} (member : slot ∈ slotsOf findExport 0x3FFF000 loaded.image.kernelThunkVa 0 loaded.tableEntries) :
    slot.slotVa + 4 ≤ 0x3FFF000 ∨ 0x4000000 ≤ slot.slotVa := by
  obtain ⟨later, _, inside, place⟩ := mem_slotsOf member
  rw [Nat.zero_add] at inside
  have bound := (entries_length.mp (rfl : loaded.tableEntries.length = _)).1
  rw [place]
  exact outside.place data (by omega) (Nat.le_of_lt inside)

/-- A second installation always returns, leaves the memory of the slots alone, and has the slots
for the values that the first one has stored. -/
theorem install_again (accepted : (load file).outcome = .ok loaded) (outside : TableOutside loaded) {tick : Nat}
    {slots : List ThunkSlot} (installed : (installThunks findExport tick loaded).2.outcome = .ok (ram, slots))
    (again : Nat) : ∃ after, (installThunks findExport again { loaded with ram }).2.outcome =
        .ok (after, slotsOf findExport 0x3FFF000 loaded.image.kernelThunkVa 0 (slots.map ThunkSlot.newValue)) ∧
      ∀ slot ∈ slots, ∀ address, slot.slotVa ≤ address → address < slot.slotVa + 4 →
        after.bytes address = ram.bytes address := by
  obtain ⟨_, _, _, mapped⟩ := load_mapped accepted
  have data := kernelDataVa_eq accepted
  have listed := install_slots accepted outside installed
  obtain ⟨_, ready, opened, walked, table⟩ := install_walked accepted outside installed
  have paged : ready.pageSize = 4096 := opened.pageSize.trans mapped.paged
  have pages := walk_pages findExport 0x3FFF000 loaded.image.kernelThunkVa 100000 0 ready
  have values := walk_entries paged findExport loaded.image.kernelThunkVa 100000 0 (by decide)
  have free := walk_readOnly paged findExport 0x3FFF000 loaded.image.kernelThunkVa 100000 0 0x3FFF
  rw [walked] at pages values free
  have unlocked : ram.readOnly 0x3FFF = false := by
    refine (free (fun slot member covered => ?_)).trans opened.free
    have place := outside.slot data (listed ▸ member)
    rw [covers_word paged] at covered
    omega
  have size : ram.size = 64 * 1024 * 1024 := pages.1.trans (opened.size.trans mapped.size)
  have pageSize : ram.pageSize = 4096 := pages.2.1.trans paged
  obtain ⟨second, reopened, outcome⟩ := install_opened { loaded with ram } size pageSize unlocked findExport again
  have data_ : ({ loaded with ram } : LoadedXbe).layout.kernelDataVa = 0x3FFF000 := by
    simp only [layout, size]
    decide
  -- The second walk comes to the places of the first one.
  have table_ : entries (tableWord second loaded.image.kernelThunkVa) 100000 0 = slots.map ThunkSlot.newValue := by
    rw [← values]
    refine reopened.entries pageSize (fun later _ high before => outside.place data (by omega) ?_)
    have inside : later ≤ (entries (tableWord ram loaded.image.kernelThunkVa) 100000 0).length :=
      (le_entries_length (by omega)).mpr (fun k smaller => (Nat.zero_add k).symm ▸ before k (Nat.zero_le k) smaller)
    rwa [values, List.length_map, listed, slotsOf_length] at inside
  have still := walk_quiet findExport 0x3FFF000 loaded.image.kernelThunkVa 100000 0 second
  have again_ := walk_slots (reopened.pageSize.trans pageSize) findExport 0x3FFF000 loaded.image.kernelThunkVa 100000 0
    (by decide)
  rw [table_] at still again_
  refine ⟨second, ?_, fun slot member address low high => ?_⟩
  · rw [outcome, data_]
    refine congrArg Except.ok (Prod.ext (still ?_) again_)
    rw [listed]
    exact newValues_unimplemented _ _
  · have place := outside.slot data (listed ▸ member)
    exact reopened.bytes address (by omega)

/-! ## Repeated installations -/

/-- A second installation, at any tick, returns, leaves the memory of the slots alone, and reports
the slots alike. -/
def Repeats (findExport : Nat → Option Conv) (loaded : LoadedXbe) : Prop :=
  ∀ tick ram slots, (installThunks findExport tick loaded).2.outcome = .ok (ram, slots) → ∀ again,
    ∃ after later, (installThunks findExport again { loaded with ram }).2.outcome = .ok (after, later) ∧
      (∀ slot ∈ slots, ∀ address, slot.slotVa ≤ address → address < slot.slotVa + 4 →
        after.bytes address = ram.bytes address) ∧
      later.map report = slots.map report

/-- The entries of a table are the non-zero words up to the first one that is no entry. -/
theorem mem_tableEntries {raw : Nat} : raw ∈ loaded.tableEntries ↔ ∃ index, index < 100000 ∧
    (∀ earlier, earlier < index → loaded.HasEntry earlier) ∧
      loaded.ram.read32 (loaded.entryVa index) = some raw ∧ raw ≠ 0 := by
  rw [List.mem_iff_getElem?]
  refine exists_congr (fun index => ?_)
  rw [tableEntries, entries_getElem?]
  simp only [Nat.zero_add]
  rfl

/-- When an installation returns and can be repeated, none of the entries is implemented. -/
theorem Repeats.unimplemented (accepted : (load file).outcome = .ok loaded) (outside : TableOutside loaded)
    (free : loaded.ram.readOnly 0x3FFF = false) (repeats : Repeats findExport loaded) :
    ∀ raw ∈ loaded.tableEntries, ¬ Imports findExport raw := by
  rcases install_cases accepted findExport 0 with ⟨locked, -⟩ | ⟨-, ready, -, installed⟩
  · rw [free] at locked
    cases locked
  · obtain ⟨after, later, second, -, reports⟩ := repeats 0 _ _ installed 0
    obtain ⟨_, again, -⟩ := install_again accepted outside installed 0
    obtain ⟨rfl, rfl⟩ := Prod.mk.inj (Except.ok.inj (second.symm.trans again))
    rw [install_slots accepted outside installed] at reports
    exact (reports_again 0 loaded.tableEntries).mp reports

/-- **Repeated installation.** An installation on a table outside of the data page can be repeated
if and only if the kernel implements none of the entries, or the image has made the data page
read-only and no installation returns.

Proof: what a patch stores is no import any more. So the second walk reports the entries as the
first one did exactly when the first one patched nothing. -/
theorem install_repeats_iff (file : ByteVector) (loaded : LoadedXbe) (accepted : (load file).outcome = .ok loaded)
    (outside : TableOutside loaded) (findExport : Nat → Option Conv) :
    Repeats findExport loaded ↔ loaded.ram.readOnly loaded.dataPage = true ∨
      ∀ index raw, index < 100000 → (∀ earlier, earlier < index → loaded.HasEntry earlier) →
        loaded.ram.read32 (loaded.entryVa index) = some raw → ¬ Imports findExport raw := by
  have page : loaded.dataPage = 0x3FFF := by
    rw [dataPage, kernelDataVa_eq accepted]
  have unimplemented : (∀ raw ∈ loaded.tableEntries, ¬ Imports findExport raw) ↔
      ∀ index raw, index < 100000 → (∀ earlier, earlier < index → loaded.HasEntry earlier) →
        loaded.ram.read32 (loaded.entryVa index) = some raw → ¬ Imports findExport raw := by
    constructor
    · intro none index raw room before reading imports
      have used : raw ≠ 0 := by
        rintro rfl
        cases imports.1
      exact none raw (mem_tableEntries.mpr ⟨index, room, before, reading, used⟩) imports
    · intro none raw member
      obtain ⟨index, room, before, reading, _⟩ := mem_tableEntries.mp member
      exact none index raw room before reading
  rw [page, ← unimplemented]
  constructor
  · intro repeats
    cases locked : loaded.ram.readOnly 0x3FFF with
    | true => exact Or.inl rfl
    | false => exact Or.inr (repeats.unimplemented accepted outside locked)
  · intro condition tick ram slots outcome again
    obtain ⟨free, -⟩ := install_walked accepted outside outcome
    have unmet := condition.resolve_left (by simp [free])
    obtain ⟨after, second, memory⟩ := install_again accepted outside outcome again
    refine ⟨after, _, second, memory, ?_⟩
    rw [install_slots accepted outside outcome]
    exact (reports_again 0 loaded.tableEntries).mpr unmet

/-- A table that ends below the data page lies outside of it. -/
theorem tableOutside_of_end (accepted : (load file).outcome = .ok loaded) (count : Nat)
    (ends : ¬ loaded.HasEntry count) (below : loaded.image.kernelThunkVa + 4 * count + 4 ≤ 0x3FFF000) :
    TableOutside loaded := by
  intro index _ before
  have bound : index ≤ count := by
    by_contra beyond
    exact ends (before count (by omega))
  rw [kernelDataVa_eq accepted, entryVa]
  omega

/-- A table of one entry in a section: the import of a function that the kernel implements. -/
def oneImport : ByteVector := ofWords 0x384 ((0x158, 0x11000 ^^^ kXorKtRetail) :: headerWords 0x380 0x2000 1 ++
  [(0x348, kSectionWriteable), (0x34C, 0x11000), (0x350, 8), (0x354, 0x380), (0x358, 4), (0x380, 0x80000005)])

/-- The second installation reports the marker of the first one as an entry that is not implemented. -/
theorem oneImport_reported : ¬ ∀ (file : ByteVector) (loaded : LoadedXbe), (load file).outcome = .ok loaded →
    TableOutside loaded → ∀ findExport, Repeats findExport loaded := by
  intro always
  have facts : (load oneImport).outcome.toOption.any (fun loaded => loaded.image.kernelThunkVa == 0x11000 &&
      loaded.ram.read32 0x11000 == some 0x80000005 && loaded.ram.read32 0x11004 == some 0 &&
        !loaded.ram.readOnly 0x3FFF) = true := by
    decide +kernel
  cases outcome : (load oneImport).outcome with
  | ok loaded =>
    rw [outcome] at facts
    simp only [Except.toOption, Option.any_some, Bool.and_eq_true, beq_iff_eq, Bool.not_eq_true'] at facts
    obtain ⟨⟨⟨place, first⟩, last⟩, free⟩ := facts
    have entries_ : ∀ index, loaded.entryVa index = (0x11000 + 4 * index) % 2 ^ 32 := by
      intro index
      rw [entryVa, place]
    have outside : TableOutside loaded := by
      refine tableOutside_of_end outcome 1 ?_ (by omega)
      rintro ⟨raw, reading, used⟩
      rw [entries_] at reading
      exact used (Option.some.inj (last.symm.trans reading)).symm
    have repeats := always oneImport loaded outcome outside (fun _ => some .stdcall)
    have early : ∀ earlier, earlier < 0 → loaded.HasEntry earlier :=
      fun earlier before => absurd before (Nat.not_lt_zero earlier)
    refine repeats.unimplemented outcome outside free 0x80000005 (mem_tableEntries.mpr ⟨0, by decide, early, ?_,
      by decide⟩) ⟨by decide, by decide⟩
    rw [entries_]
    exact first
  | error failure =>
    rw [outcome] at facts
    cases facts

/-- The thunk table of the image with one section: its first word is the magic number of the header. -/
structure HeaderTable (loaded : LoadedXbe) : Prop where
  place : ∀ index, loaded.entryVa index = (0x10000 + 4 * index) % 2 ^ 32
  first : loaded.ram.read32 (loaded.entryVa 0) = some kMagic
  second : loaded.ram.read32 (loaded.entryVa 1) = some 0
  base : loaded.image.header.baseAddr = 0x10000
  ends : loaded.image.imageEndAbs = 0x12000
  free : loaded.ram.readOnly 0x3FFF = false

/-- A table of one word has no second entry. -/
theorem HeaderTable.stops (table : HeaderTable loaded) : ¬ loaded.HasEntry 1 := by
  rintro ⟨raw, reading, used⟩
  exact used (Option.some.inj (table.second.symm.trans reading)).symm

/-- It lies outside of the data page. -/
theorem HeaderTable.outside (table : HeaderTable loaded) (accepted : (load file).outcome = .ok loaded) :
    TableOutside loaded := by
  have start := table.place 0
  obtain ⟨parsing, parsed, _⟩ := load_mapped accepted
  have inside := ((ensures_guarantees file).2 loaded.image parsing).2.located.thunkBelow
  have ends := table.ends
  refine tableOutside_of_end accepted 1 table.stops ?_
  unfold entryVa at start
  omega

/-- The image with one section has such a table. -/
theorem oneSection_table : ∃ loaded, (load oneSection).outcome = .ok loaded ∧ HeaderTable loaded := by
  have facts : (load oneSection).outcome.toOption.any (fun loaded => loaded.image.kernelThunkVa == 0x10000 &&
      loaded.ram.read32 0x10000 == some kMagic && loaded.ram.read32 0x10004 == some 0 &&
        loaded.image.header.baseAddr == 0x10000 && loaded.image.imageEndAbs == 0x12000 &&
          !loaded.ram.readOnly 0x3FFF) = true := by
    decide +kernel
  cases outcome : (load oneSection).outcome with
  | ok loaded =>
    rw [outcome] at facts
    simp only [Except.toOption, Option.any_some, Bool.and_eq_true, beq_iff_eq, Bool.not_eq_true'] at facts
    obtain ⟨⟨⟨⟨⟨place, first⟩, second⟩, base⟩, ends⟩, free⟩ := facts
    have place_ : ∀ index, loaded.entryVa index = (0x10000 + 4 * index) % 2 ^ 32 := by
      intro index
      rw [entryVa, place]
    refine ⟨loaded, rfl, place_, ?_, ?_, base, ends, free⟩
    · rw [place_]
      exact first
    · rw [place_]
      exact second
  | error failure =>
    rw [outcome] at facts
    cases facts

/-- A second installation repeats its report on that image. -/
theorem oneSection_repeats : ∃ loaded, (load oneSection).outcome = .ok loaded ∧
    Repeats (fun _ => some .stdcall) loaded := by
  obtain ⟨loaded, outcome, table⟩ := oneSection_table
  refine ⟨loaded, outcome, (install_repeats_iff oneSection loaded outcome (table.outside outcome) _).mpr (Or.inr ?_)⟩
  intro index raw _ before reading imports
  match index with
  | 0 =>
    cases table.first.symm.trans reading
    exact absurd imports.1 (by decide)
  | 1 =>
    cases table.second.symm.trans reading
    exact absurd imports.1 (by decide)
  | index + 2 => exact table.stops (before 1 (by omega))

end LoadedXbe

end SeriesxEmu
