import SeriesxEmu.GuestRegions
import SeriesxEmu.GuestWords

/-!
# What patching the thunk table leaves behind

An implemented slot is stored with the protection of its pages lifted, and the protection is
restored on all of its pages when one of them had it. A slot that lies across two pages of
which one is read-only thus makes the other one read-only as well. Nothing else of the image
is changed.
-/

namespace SeriesxEmu

namespace XbeRam

variable {ram : XbeRam} {addr size : Nat}

/-- Making pages writable clears their read-only marks and changes nothing else. -/
theorem protectRw_becomes (paged : 0 < ram.pageSize) (held : ram.isCommitted addr size = true) :
    ram.Becomes ram.committed (fun page => ram.readOnly page && !decide (ram.Covers addr size page)) ram.bytes
      (ram.protectRw addr size).1 := by
  have positive := ((isCommitted_iff paged).mp held).1.1
  simp only [protectRw, held, ↓reduceIte, contains_pages paged positive]
  exact ⟨rfl, rfl, fun _ => rfl, fun _ => rfl, fun _ => rfl⟩

/-- Two windows that agree on the pages and the bytes of a word read the same there. -/
theorem read32_congr {other : XbeRam} (paged : 0 < ram.pageSize) (size : other.size = ram.size)
    (pageSize : other.pageSize = ram.pageSize)
    (committed : ∀ page, ram.Covers addr 4 page → other.committed page = ram.committed page)
    (bytes : ∀ address, addr ≤ address → address < addr + 4 → other.bytes address = ram.bytes address) :
    other.read32 addr = ram.read32 addr := by
  have readable : other.readable addr 4 = ram.readable addr 4 := by
    rw [Bool.eq_iff_iff, readable, readable, isCommitted_iff paged, isCommitted_iff (pageSize ▸ paged), size]
    refine and_congr_right (fun _ => forall_congr' (fun page => ?_))
    rw [Covers.congr pageSize]
    exact forall_congr' (fun covered => by rw [committed page covered])
  have same : ∀ offset ∈ List.range 4, other.bytes (addr + offset) = ram.bytes (addr + offset) := by
    intro offset member
    have small := List.mem_range.mp member
    exact bytes _ (by omega) (by omega)
  simp only [read32, readBytes, readable, List.map_congr_left same]

end XbeRam

namespace LoadedXbe

open Load Traced XbeImage

/-! ## One slot -/

/-- The kernel implements what a table entry imports. -/
def Imports (findExport : Nat → Option Conv) (raw : Nat) : Prop :=
  raw.testBit 31 = true ∧
    match findExport (raw % 2 ^ 31) with
    | none => False
    | some .data => (implementedData (raw % 2 ^ 31)).isSome = true
    | some _ => implementedFunction (raw % 2 ^ 31) = true

/-- A slot names its own place and the ordinal of its word, whatever the kernel implements. -/
theorem slotOf_names (findExport : Nat → Option Conv) (kernelDataVa slotVa raw : Nat) :
    (slotOf findExport kernelDataVa slotVa raw).slotVa = slotVa ∧
      (slotOf findExport kernelDataVa slotVa raw).ordinal = raw % 2 ^ 31 := by
  unfold slotOf
  simp only
  split
  · exact ⟨rfl, rfl⟩
  · split <;> exact ⟨rfl, rfl⟩
  · split <;> exact ⟨rfl, rfl⟩

/-- A slot is implemented when its word imports a function or datum that is there. -/
theorem slotOf_implemented (findExport : Nat → Option Conv) (kernelDataVa slotVa raw : Nat) :
    (slotOf findExport kernelDataVa slotVa raw).implemented = true ↔ Imports findExport raw := by
  unfold slotOf Imports
  by_cases imported : raw.testBit 31 = true
  · simp only [imported, ↓reduceIte, true_and]
    cases findExport (raw % 2 ^ 31) with
    | none => simp
    | some conv =>
      cases conv with
      | data => cases implementedData (raw % 2 ^ 31) <;> simp
      | stdcall | fastcall | cdecl => cases implementedFunction (raw % 2 ^ 31) <;> simp
  · simp only [imported, Bool.false_eq_true, ↓reduceIte, false_and]

/-- What a patch leaves: the slot may be new, and its pages are read-only if one of them was. -/
structure Patched (ram : XbeRam) (va : Nat) (after : XbeRam) : Prop where
  size : after.size = ram.size
  pageSize : after.pageSize = ram.pageSize
  committed : ∀ page, after.committed page = ram.committed page
  readOnly : ∀ page, after.readOnly page = true ↔
    ram.readOnly page = true ∨ (ram.Covers va 4 page ∧ ∃ other, ram.Covers va 4 other ∧ ram.readOnly other = true)
  bytes : ∀ address, address < va ∨ va + 4 ≤ address → after.bytes address = ram.bytes address

/-- A committed word is writable unless one of its pages is read-only. -/
theorem writable_committed {ram : XbeRam} {addr size : Nat} (paged : 0 < ram.pageSize)
    (held : ram.isCommitted addr size = true) :
    ram.writable addr size = false ↔ ∃ page, ram.Covers addr size page ∧ ram.readOnly page = true := by
  have committed := (XbeRam.isCommitted_iff paged).mp held
  rw [← Bool.not_eq_true, XbeRam.writable_iff paged, not_and]
  constructor
  · intro refused
    by_contra none
    exact refused committed.1 (fun page covered => ⟨committed.2 page covered,
      Bool.not_eq_true _ ▸ fun locked => none ⟨page, covered, locked⟩⟩)
  · rintro ⟨page, covered, locked⟩ _ usable
    rw [(usable page covered).2] at locked
    cases locked

/-- An implemented slot in committed memory is patched. -/
theorem patch_patched {ram : XbeRam} {slot : ThunkSlot} (paged : 0 < ram.pageSize)
    (held : ram.isCommitted slot.slotVa 4 = true) (implemented : slot.implemented = true) :
    Patched ram slot.slotVa (patch ram slot) := by
  have committed := (XbeRam.isCommitted_iff paged).mp held
  unfold patch
  simp only [implemented, ↓reduceIte]
  cases usable : ram.writable slot.slotVa 4 with
  | true =>
    simp only [Bool.not_true, Bool.false_eq_true, ↓reduceIte]
    have within := XbeRam.Within.write32 ram slot.slotVa slot.newValue
    refine ⟨within.pages.1, within.pages.2.1, fun page => congrFun within.pages.2.2.1 page, fun page => ?_,
      within.bytes⟩
    rw [within.pages.2.2.2, or_iff_left]
    rintro ⟨_, locked⟩
    rw [(writable_committed paged held).mpr locked] at usable
    cases usable
  | false =>
    simp only [Bool.not_false, ↓reduceIte]
    have locked := (writable_committed paged held).mp usable
    have lifted := XbeRam.protectRw_becomes paged held
    have within := XbeRam.Within.write32 (ram.protectRw slot.slotVa 4).1 slot.slotVa slot.newValue
    generalize (ram.protectRw slot.slotVa 4).1 = opened at lifted within ⊢
    generalize opened.write32 slot.slotVa slot.newValue = written at within ⊢
    have pageSize : written.pageSize = ram.pageSize := within.pages.2.1.trans lifted.pageSize
    have still : written.isCommitted slot.slotVa 4 = true := by
      rw [XbeRam.isCommitted_iff (pageSize ▸ paged), within.pages.1, lifted.size]
      refine ⟨committed.1, fun page covered => ?_⟩
      rw [within.pages.2.2.1, lifted.committed]
      exact committed.2 page ((XbeRam.Covers.congr pageSize).mp covered)
    have restored := XbeRam.protectRo_becomes (pageSize ▸ paged) still
    refine ⟨restored.size.trans (within.pages.1.trans lifted.size), restored.pageSize.trans pageSize,
      fun page => ?_, fun page => ?_, fun address outside => ?_⟩
    · rw [restored.committed, within.pages.2.2.1, lifted.committed]
    · rw [restored.readOnly, within.pages.2.2.2, lifted.readOnly]
      simp only [Bool.or_eq_true, Bool.and_eq_true, Bool.not_eq_true', decide_eq_false_iff_not, decide_eq_true_eq,
        XbeRam.Covers.congr pageSize, and_iff_left locked]
      tauto
    · rw [restored.bytes, within.bytes address outside, lifted.bytes]

/-- A word that is read lies on committed pages. -/
theorem read32_committed {ram : XbeRam} {addr raw : Nat} (reads : ram.read32 addr = some raw) :
    ram.isCommitted addr 4 = true := by
  unfold XbeRam.read32 XbeRam.readBytes at reads
  by_cases held : ram.readable addr 4 = true
  · exact held
  · rw [if_neg held] at reads
    cases reads

/-- The slot of a word that is read is patched if the kernel implements it, and otherwise left. -/
theorem patch_slotOf {ram : XbeRam} {va raw : Nat} (paged : ram.pageSize = 4096) (reading : ram.read32 va = some raw)
    (findExport : Nat → Option Conv) (kernelDataVa : Nat) :
    (Imports findExport raw ∧ Patched ram va (patch ram (slotOf findExport kernelDataVa va raw))) ∨
      (¬ Imports findExport raw ∧ patch ram (slotOf findExport kernelDataVa va raw) = ram) := by
  have place := (slotOf_names findExport kernelDataVa va raw).1
  have implemented := slotOf_implemented findExport kernelDataVa va raw
  by_cases imports : Imports findExport raw
  · have held := read32_committed reading
    rw [← place] at held
    have patched := patch_patched (by omega : 0 < ram.pageSize) held (implemented.mpr imports)
    rw [place] at patched
    exact Or.inl ⟨imports, patched⟩
  · exact Or.inr ⟨imports, if_neg (by rwa [implemented])⟩

/-! ## The walk over the table -/

variable {file : ByteVector} {loaded : LoadedXbe} {findExport : Nat → Option Conv}

/-- The address of a table entry. -/
def entryVa (loaded : LoadedXbe) (index : Nat) : Nat := (loaded.image.kernelThunkVa + 4 * index) % 2 ^ 32

/-- The page of the kernel data. -/
def dataPage (loaded : LoadedXbe) : Nat := loaded.layout.kernelDataVa / 4096

/-- The table of the image has an entry there. -/
def HasEntry (loaded : LoadedXbe) (index : Nat) : Prop :=
  ∃ raw, loaded.ram.read32 (loaded.entryVa index) = some raw ∧ raw ≠ 0

/-- An entry that the kernel implements lies across two pages, neither of them the data page, of
which one is read-only. -/
structure SplitImport (loaded : LoadedXbe) (findExport : Nat → Option Conv) (index : Nat) : Prop where
  inTable : index < 100000 ∧ ∀ earlier ≤ index, loaded.HasEntry earlier
  imports : ∀ raw, loaded.ram.read32 (loaded.entryVa index) = some raw → Imports findExport raw
  across : 4092 < loaded.entryVa index % 4096
  below : loaded.entryVa index / 4096 + 1 ≠ loaded.dataPage
  differ : loaded.ram.readOnly (loaded.entryVa index / 4096) ≠ loaded.ram.readOnly (loaded.entryVa index / 4096 + 1)

/-- The pages of a word. -/
theorem covers_word {ram : XbeRam} (paged : ram.pageSize = 4096) (addr page : Nat) : ram.Covers addr 4 page ↔
    page = addr / 4096 ∨ (4092 < addr % 4096 ∧ page = addr / 4096 + 1) := by
  rw [XbeRam.Covers, paged]
  omega

/-- Up to an entry that the table has, the addresses do not wrap. -/
theorem entryVa_eq (accepted : (load file).outcome = .ok loaded) {index : Nat}
    (table : ∀ earlier ≤ index, loaded.HasEntry earlier) :
    loaded.entryVa index = loaded.image.kernelThunkVa + 4 * index ∧ loaded.entryVa index + 4 ≤ 0x4000000 := by
  obtain ⟨parsing, parsed, _, mapped⟩ := load_mapped accepted
  have fits : ∀ earlier ≤ index, loaded.entryVa earlier + 4 ≤ 0x4000000 := by
    intro earlier before
    obtain ⟨raw, reads, _⟩ := table earlier before
    have held := (XbeRam.isCommitted_iff mapped.positive).mp (read32_committed reads)
    have window := mapped.size
    omega
  refine ⟨?_, fits index (Nat.le_refl _)⟩
  have word : loaded.image.kernelThunkVa < 2 ^ 32 := by
    have inside := ((ensures_guarantees file).2 loaded.image parsing).2.located.thunkBelow
    have space := parsed.extent.space
    omega
  clear table
  induction index with
  | zero => exact Nat.mod_eq_of_lt word
  | succ index inductionHypothesis =>
    have before := inductionHypothesis (fun earlier smaller => fits earlier (by omega))
    have bound := fits index (by omega)
    exact Nat.mod_eq_of_lt (by omega)

/-- A split entry ends below the data page. -/
theorem SplitImport.ends (accepted : (load file).outcome = .ok loaded) {index : Nat}
    (split : SplitImport loaded findExport index) : loaded.image.kernelThunkVa + 4 * index + 4 ≤ 0x3FFF000 := by
  obtain ⟨same, bound⟩ := entryVa_eq accepted split.inTable.2
  have across := split.across
  have below := split.below
  rw [dataPage, kernelDataVa_eq accepted] at below
  omega

/-- The window when the walk has come to an entry, as long as nothing has gone wrong. -/
structure Underway (loaded : LoadedXbe) (index : Nat) (ram : XbeRam) : Prop where
  size : ram.size = 64 * 1024 * 1024
  paged : ram.pageSize = 4096
  word : loaded.image.kernelThunkVa + 4 * index < 2 ^ 32
  committed : ∀ page, page ≠ 0x3FFF → ram.committed page = loaded.ram.committed page
  readOnly : ∀ page, page ≠ 0x3FFF → ram.readOnly page = loaded.ram.readOnly page
  data : ram.readOnly 0x3FFF = true → 0x3FFF000 ≤ loaded.image.kernelThunkVa + 4 * index
  bytes : ∀ address, loaded.image.kernelThunkVa + 4 * index ≤ address → address < 0x3FFF000 →
    ram.bytes address = loaded.ram.bytes address
  table : ∀ earlier < index, loaded.image.kernelThunkVa + 4 * earlier + 4 ≤ 0x3FFF000 → loaded.HasEntry earlier

namespace Underway

variable {index : Nat} {ram : XbeRam}

/-- No address of the walk wraps around. -/
theorem place (underway : Underway loaded index ram) :
    loaded.entryVa index = loaded.image.kernelThunkVa + 4 * index := Nat.mod_eq_of_lt underway.word

/-- Below the data page the walk reads what the image has there. -/
theorem reads (accepted : (load file).outcome = .ok loaded) (underway : Underway loaded index ram)
    (below : loaded.image.kernelThunkVa + 4 * index + 4 ≤ 0x3FFF000) :
    ram.read32 (loaded.entryVa index) = loaded.ram.read32 (loaded.entryVa index) := by
  obtain ⟨_, _, _, mapped⟩ := load_mapped accepted
  rw [underway.place]
  refine XbeRam.read32_congr mapped.positive (underway.size.trans mapped.size.symm)
    (underway.paged.trans mapped.paged.symm) (fun page covered => ?_) (fun address above under => ?_)
  · rw [covers_word mapped.paged] at covered
    exact underway.committed page (by omega)
  · exact underway.bytes address above (by omega)

/-- An entry that is not split leaves the walk under way. -/
theorem step (accepted : (load file).outcome = .ok loaded) (underway : Underway loaded index ram) {raw : Nat}
    (inTable : index < 100000) (reading : ram.read32 (loaded.entryVa index) = some raw) (used : raw ≠ 0)
    (whole : ¬ SplitImport loaded findExport index) (kernelDataVa : Nat) :
    Underway loaded (index + 1) (patch ram (slotOf findExport kernelDataVa (loaded.entryVa index) raw)) := by
  have place := underway.place
  have window := underway.size
  have bound : loaded.image.kernelThunkVa + 4 * index + 4 ≤ 0x4000000 := by
    have held := (XbeRam.isCommitted_iff (by rw [underway.paged]; decide)).mp (read32_committed reading)
    omega
  have table : ∀ earlier < index + 1, loaded.image.kernelThunkVa + 4 * earlier + 4 ≤ 0x3FFF000 →
      loaded.HasEntry earlier := by
    intro earlier before below
    by_cases last : earlier = index
    · subst last
      exact ⟨raw, (underway.reads accepted below).symm.trans reading, used⟩
    · exact underway.table earlier (by omega) below
  rcases patch_slotOf underway.paged reading findExport kernelDataVa with ⟨imports, patched⟩ | ⟨_, untouched⟩
  · generalize patch ram (slotOf findExport kernelDataVa (loaded.entryVa index) raw) = after at patched ⊢
    refine ⟨patched.size.trans underway.size, patched.pageSize.trans underway.paged, by omega,
      fun page other => (patched.committed page).trans (underway.committed page other), fun page other => ?_,
      fun locked => ?_, fun address above below => ?_, table⟩
    · rw [← underway.readOnly page other, Bool.eq_iff_iff, patched.readOnly]
      refine or_iff_left_of_imp (fun ⟨covered, second, covers, locked⟩ => ?_)
      by_contra free
      -- The slot lies across this page and the read-only one.
      have apart : page ≠ second := fun same => free (same ▸ locked)
      rw [covers_word underway.paged] at covered covers
      by_cases data : second = 0x3FFF
      · have late := underway.data (data ▸ locked)
        omega
      · refine whole ⟨⟨inTable, fun earlier before => table earlier (by omega) (by omega)⟩, fun word reads => ?_,
          by omega, by rw [dataPage, kernelDataVa_eq accepted]; omega, fun same => ?_⟩
        · rw [← underway.reads accepted (by omega), reading] at reads
          cases reads
          exact imports
        · rw [underway.readOnly page other] at free
          rw [underway.readOnly second data] at locked
          rcases covered with first | ⟨_, first⟩ <;> rcases covers with last | ⟨_, last⟩
          · omega
          · rw [first, same, ← last] at free
            exact free locked
          · rw [first, ← same, ← last] at free
            exact free locked
          · omega
    · rcases (patched.readOnly _).mp locked with before | ⟨covered, _⟩
      · have late := underway.data before
        omega
      · rw [covers_word underway.paged] at covered
        omega
    · rw [patched.bytes address (by omega)]
      exact underway.bytes address (by omega) below
  · rw [untouched]
    exact ⟨underway.size, underway.paged, by omega, underway.committed, underway.readOnly,
      fun locked => Nat.le_trans (underway.data locked) (by omega),
      fun address above below => underway.bytes address (by omega) below, table⟩

end Underway

/-- The walk unlocks no page for good, and changes bytes in implemented slots only. -/
theorem walk_frame {ram : XbeRam} (paged : ram.pageSize = 4096) (findExport : Nat → Option Conv)
    (kernelDataVa kt room index : Nat) :
    (∀ page, ram.readOnly page = true → (walk findExport kernelDataVa kt room index ram).1.readOnly page = true) ∧
      ∀ address, (∀ slot ∈ (walk findExport kernelDataVa kt room index ram).2, slot.implemented = true →
        ¬ (slot.slotVa ≤ address ∧ address < slot.slotVa + 4)) →
          (walk findExport kernelDataVa kt room index ram).1.bytes address = ram.bytes address := by
  induction room generalizing index ram with
  | zero => exact ⟨fun _ locked => locked, fun _ _ => rfl⟩
  | succ room inductionHypothesis =>
    unfold walk
    simp only
    split
    · exact ⟨fun _ locked => locked, fun _ _ => rfl⟩
    · exact ⟨fun _ locked => locked, fun _ _ => rfl⟩
    · rename_i raw _ reading
      have place := (slotOf_names findExport kernelDataVa ((kt + 4 * index) % 2 ^ 32) raw).1
      have implemented := slotOf_implemented findExport kernelDataVa ((kt + 4 * index) % 2 ^ 32) raw
      rcases patch_slotOf paged reading findExport kernelDataVa with ⟨imports, patched⟩ | ⟨_, untouched⟩
      · obtain ⟨locks, bytes⟩ := inductionHypothesis (patched.pageSize.trans paged) (index + 1)
        refine ⟨fun page locked => locks page ((patched.readOnly page).mpr (Or.inl locked)), fun address outside => ?_⟩
        have apart := outside _ List.mem_cons_self (implemented.mpr imports)
        rw [place] at apart
        rw [bytes address (fun slot member => outside slot (List.mem_cons_of_mem _ member)),
          patched.bytes address (by omega)]
      · rw [untouched]
        obtain ⟨locks, bytes⟩ := inductionHypothesis paged (index + 1)
        exact ⟨locks, fun address outside =>
          bytes address (fun slot member => outside slot (List.mem_cons_of_mem _ member))⟩

/-- A split entry leaves one of its pages locked that was not. -/
theorem Underway.splits (accepted : (load file).outcome = .ok loaded) {ram : XbeRam} {index raw : Nat}
    (underway : Underway loaded index ram) (reading : ram.read32 (loaded.entryVa index) = some raw)
    (split : SplitImport loaded findExport index) (kernelDataVa : Nat) : ∃ page, page ≠ 0x3FFF ∧
      loaded.ram.readOnly page = false ∧
      (patch ram (slotOf findExport kernelDataVa (loaded.entryVa index) raw)).readOnly page = true := by
  have ends := split.ends accepted
  have across := split.across
  have place := underway.place
  rcases patch_slotOf underway.paged reading findExport kernelDataVa with ⟨_, patched⟩ | ⟨other, _⟩
  · have both : ∀ page, page = loaded.entryVa index / 4096 ∨ page = loaded.entryVa index / 4096 + 1 →
        ram.Covers (loaded.entryVa index) 4 page ∧ page ≠ 0x3FFF := by
      intro page one
      rw [covers_word underway.paged]
      omega
    obtain ⟨firstCovered, firstLow⟩ := both _ (Or.inl rfl)
    obtain ⟨secondCovered, secondLow⟩ := both _ (Or.inr rfl)
    have differ := split.differ
    cases locked : loaded.ram.readOnly (loaded.entryVa index / 4096) with
    | true =>
      rw [locked] at differ
      refine ⟨_, secondLow, Bool.eq_false_iff.mpr (fun same => differ same.symm), (patched.readOnly _).mpr
        (Or.inr ⟨secondCovered, _, firstCovered, (underway.readOnly _ firstLow).trans locked⟩)⟩
    | false =>
      rw [locked] at differ
      have second : loaded.ram.readOnly (loaded.entryVa index / 4096 + 1) = true :=
        Bool.eq_true_of_not_eq_false (fun same => differ same.symm)
      exact ⟨_, firstLow, locked, (patched.readOnly _).mpr
        (Or.inr ⟨firstCovered, _, secondCovered, (underway.readOnly _ secondLow).trans second⟩)⟩
  · rw [underway.reads accepted ends] at reading
    exact absurd (split.imports raw reading) other

/-- The walk leaves the protection of the image alone if and only if no entry ahead is split. -/
theorem Underway.walk (accepted : (load file).outcome = .ok loaded) {ram : XbeRam} {index : Nat}
    (underway : Underway loaded index ram) (findExport : Nat → Option Conv) (kernelDataVa : Nat) {room : Nat}
    (whole : index + room = 100000) :
    (∀ page, page ≠ 0x3FFF →
      (LoadedXbe.walk findExport kernelDataVa loaded.image.kernelThunkVa room index ram).1.readOnly page =
        loaded.ram.readOnly page) ↔ ∀ later, index ≤ later → ¬ SplitImport loaded findExport later := by
  induction room generalizing index ram with
  | zero => exact iff_of_true underway.readOnly (fun later after split => by have inTable := split.inTable.1; omega)
  | succ room inductionHypothesis =>
    -- A split entry ahead shows that the table goes on here.
    have ahead : ∀ later, index ≤ later → SplitImport loaded findExport later →
        ∃ raw, ram.read32 (loaded.entryVa index) = some raw ∧ raw ≠ 0 := by
      intro later after split
      have ends := split.ends accepted
      rw [underway.reads accepted (by omega)]
      exact split.inTable.2 index after
    unfold LoadedXbe.walk
    simp only
    have stops : (ram.read32 (loaded.entryVa index) = none ∨ ram.read32 (loaded.entryVa index) = some 0) →
        ∀ later, index ≤ later → ¬ SplitImport loaded findExport later := by
      intro ended later after split
      obtain ⟨raw, reading, used⟩ := ahead later after split
      rcases ended with none | zero
      · rw [none] at reading
        cases reading
      · rw [zero] at reading
        cases reading
        exact used rfl
    split
    · rename_i ended
      exact iff_of_true underway.readOnly (stops (Or.inl ended))
    · rename_i ended
      exact iff_of_true underway.readOnly (stops (Or.inr ended))
    · rename_i raw used reading
      by_cases here : SplitImport loaded findExport index
      · obtain ⟨page, low, free, locked⟩ := underway.splits accepted reading here kernelDataVa
        refine iff_of_false (fun same => ?_) (fun none => none index (Nat.le_refl _) here)
        have paged : (patch ram (slotOf findExport kernelDataVa (loaded.entryVa index) raw)).pageSize = 4096 :=
          (patch_pages _ _).2.1.trans underway.paged
        have still :=
          (walk_frame paged findExport kernelDataVa loaded.image.kernelThunkVa room (index + 1)).1 page locked
        have restored := same page low
        rw [free] at restored
        exact Bool.false_ne_true (restored.symm.trans still)
      · have next := underway.step accepted (by omega) reading used here kernelDataVa
        refine (inductionHypothesis next (by omega)).trans ⟨fun none later after => ?_, fun none later after =>
          none later (by omega)⟩
        by_cases now : later = index
        · exact now ▸ here
        · exact none later (by omega)

/-! ## The whole installation -/

/-- The text at an address is always read, an empty one if need be. -/
theorem cstring_ok (image : XbeImage) (va : Nat) : ∃ name, (image.cstring va).outcome = .ok name := by
  have loop : ∀ room off, ∃ name, (cstringFrom image.file room off).outcome = .ok name := by
    intro room
    induction room with
    | zero => exact fun off => ⟨[], rfl⟩
    | succ room inductionHypothesis =>
      intro off
      unfold cstringFrom
      by_cases inside : off < image.file.size
      · by_cases last : image.file.byte off = 0
        · exact ⟨[], by rw [if_pos inside, outcome_bind]; exact ⟨_, rfl, by rw [if_pos last]; rfl⟩⟩
        · obtain ⟨rest, more⟩ := inductionHypothesis ((off + 1) % 2 ^ 32)
          refine ⟨image.file.byte off :: rest, ?_⟩
          rw [if_pos inside, outcome_bind]
          refine ⟨_, rfl, ?_⟩
          rw [if_neg last, outcome_bind]
          exact ⟨rest, more, rfl⟩
      · exact ⟨[], by rw [if_neg inside]; rfl⟩
  unfold cstring
  split
  · exact ⟨[], rfl⟩
  · exact loop _ _

/-- So is the name of the image. -/
theorem imageName_ok (image : XbeImage) : ∃ name, (imageName image).outcome = .ok name := by
  obtain ⟨path, found⟩ := cstring_ok image image.header.debugPathnameAddr
  obtain ⟨fallback, otherwise⟩ := cstring_ok image image.header.debugFilenameAddr
  refine ⟨if path = [] then fallback else path, ?_⟩
  unfold imageName
  rw [outcome_bind]
  refine ⟨path, found, ?_⟩
  split
  · exact otherwise
  · rfl

/-- The name is stored on the data page. -/
theorem writeName_within (ram : XbeRam) (base : Nat) (name : List UInt8) :
    ram.Within (writeName ram base name) base (base + 0x1000) := by
  unfold writeName
  split
  · rename_i short
    refine (XbeRam.Within.trans ((XbeRam.Within.write32 _ _ _).mono (by omega) (by omega))
      ((XbeRam.Within.write32 _ _ _).mono (by omega) (by omega))).trans
      ((XbeRam.Within.writeBytes _ _ _).mono (by omega) ?_)
    rw [List.length_append, List.length_singleton]
    omega
  · exact XbeRam.Within.refl _ _ _

/-- The window with the data page opened: the rest of it is as before. -/
structure Opened (ram ready : XbeRam) : Prop where
  size : ready.size = ram.size
  pageSize : ready.pageSize = ram.pageSize
  committed : ∀ page, page ≠ 0x3FFF → ready.committed page = ram.committed page
  readOnly : ∀ page, page ≠ 0x3FFF → ready.readOnly page = ram.readOnly page
  free : ready.readOnly 0x3FFF = false
  bytes : ∀ address, ¬ (0x3FFF000 ≤ address ∧ address < 0x4000000) → ready.bytes address = ram.bytes address

/-- On a window whose data page is not read-only the data page is opened, and the walk follows. -/
theorem install_opened (loaded : LoadedXbe) (size : loaded.ram.size = 64 * 1024 * 1024)
    (pageSize : loaded.ram.pageSize = 4096) (unlocked : loaded.ram.readOnly 0x3FFF = false)
    (findExport : Nat → Option Conv) (tick : Nat) : ∃ ready, Opened loaded.ram ready ∧
      (installThunks findExport tick loaded).2.outcome =
        .ok (walk findExport loaded.layout.kernelDataVa loaded.image.kernelThunkVa 100000 0 ready) := by
  have data : loaded.layout.kernelDataVa = 0x3FFF000 := by
    simp only [layout, size]
    decide
  have positive : 0 < loaded.ram.pageSize := by
    rw [pageSize]
    decide
  have fits : 0x3FFF000 + 0x1000 ≤ loaded.ram.size := by
    rw [size]
  obtain ⟨_, becomes⟩ := XbeRam.commit_becomes positive ⟨(by decide : 0 < 0x1000), fits⟩
  have covers : ∀ page, loaded.ram.Covers 0x3FFF000 0x1000 page ↔ page = 0x3FFF := by
    intro page
    rw [XbeRam.Covers, pageSize]
    omega
  have paged : 0 < (loaded.ram.commit 0x3FFF000 0x1000).1.pageSize := becomes.pageSize ▸ positive
  have usable : (loaded.ram.commit 0x3FFF000 0x1000).1.writable 0x3FFF000 0x1000 = true := by
    rw [XbeRam.writable_iff paged, becomes.size]
    refine ⟨⟨by decide, fits⟩, fun page covered => ?_⟩
    rw [XbeRam.Covers.congr becomes.pageSize] at covered
    obtain rfl := (covers page).mp covered
    rw [becomes.committed, becomes.readOnly, unlocked, decide_eq_true covered]
    exact ⟨Bool.or_true _, rfl⟩
  obtain ⟨opened, fills, cleared⟩ := XbeRam.zeroFill_becomes usable
  obtain ⟨name, named⟩ := imageName_ok loaded.image
  have within : opened.Within ((writeName opened 0x3FFF000 name).write32 (0x3FFF000 + 0x08) (tick % 2 ^ 32))
      0x3FFF000 0x4000000 :=
    (writeName_within opened 0x3FFF000 name).trans ((XbeRam.Within.write32 _ _ _).mono (by decide) (by decide))
  have installed : (installThunks findExport tick loaded).2.outcome = .ok (walk findExport loaded.layout.kernelDataVa
      loaded.image.kernelThunkVa 100000 0
        ((writeName opened 0x3FFF000 name).write32 (0x3FFF000 + 0x08) (tick % 2 ^ 32))) := by
    refine outcome_bind.mpr ⟨opened, ?_, outcome_bind.mpr ⟨name, named, ?_⟩⟩
    · rw [data]
      exact (openData_ok positive fits).mpr fills
    · rw [data]
      rfl
  generalize (writeName opened 0x3FFF000 name).write32 (0x3FFF000 + 0x08) (tick % 2 ^ 32) = ready at within installed
  obtain ⟨sizes, pageSizes, commits, protects⟩ := within.pages
  refine ⟨ready, ⟨?_, ?_, fun page other => ?_, fun page other => ?_, ?_, fun address outside => ?_⟩, installed⟩
  · rw [sizes, cleared.size, becomes.size]
  · rw [pageSizes, cleared.pageSize, becomes.pageSize]
  · have outside : ¬ loaded.ram.Covers 0x3FFF000 0x1000 page := fun covered => other ((covers page).mp covered)
    rw [commits, cleared.committed, becomes.committed, decide_eq_false outside, Bool.or_false]
  · have outside : ¬ loaded.ram.Covers 0x3FFF000 0x1000 page := fun covered => other ((covers page).mp covered)
    rw [protects, cleared.readOnly, becomes.readOnly, decide_eq_false outside, Bool.not_false, Bool.or_true,
      Bool.and_true]
  · rw [protects, cleared.readOnly, becomes.readOnly, unlocked, Bool.false_and]
  · rw [within.bytes address (by omega), cleared.bytes, if_neg outside, becomes.bytes]

/-- The window that the walk starts from. -/
structure Prepared (loaded : LoadedXbe) (ready : XbeRam) : Prop where
  underway : Underway loaded 0 ready
  bytes : ∀ address, ¬ (0x3FFF000 ≤ address ∧ address < 0x4000000) → ready.bytes address = loaded.ram.bytes address

/-- Opening the data page fails when the image has made it read-only; otherwise the walk follows. -/
theorem install_cases (accepted : (load file).outcome = .ok loaded) (findExport : Nat → Option Conv) (tick : Nat) :
    (loaded.ram.readOnly 0x3FFF = true ∧ ∀ result, (installThunks findExport tick loaded).2.outcome ≠ .ok result) ∨
      (loaded.ram.readOnly 0x3FFF = false ∧ ∃ ready, Prepared loaded ready ∧
        (installThunks findExport tick loaded).2.outcome = .ok (walk findExport loaded.layout.kernelDataVa
          loaded.image.kernelThunkVa 100000 0 ready)) := by
  obtain ⟨parsing, parsed, _, mapped⟩ := load_mapped accepted
  have data := kernelDataVa_eq accepted
  cases locked : loaded.ram.readOnly 0x3FFF with
  | true =>
    refine Or.inl ⟨rfl, fun result installed => ?_⟩
    have fits : 0x3FFF000 + 0x1000 ≤ loaded.ram.size := by
      rw [mapped.size]
    obtain ⟨_, becomes⟩ := XbeRam.commit_becomes mapped.positive ⟨(by decide : 0 < 0x1000), fits⟩
    have paged : 0 < (loaded.ram.commit 0x3FFF000 0x1000).1.pageSize := becomes.pageSize ▸ mapped.positive
    have covered : loaded.ram.Covers 0x3FFF000 0x1000 0x3FFF := by
      rw [XbeRam.Covers, mapped.paged]
      decide
    obtain ⟨opened, opens, _⟩ := outcome_bind.mp installed
    rw [data, openData_ok mapped.positive fits] at opens
    obtain ⟨sh, member, shields⟩ := (mapped.readOnly 0x3FFF).mp locked
    have committed : loaded.ram.committed 0x3FFF = true :=
      (mapped.committed 0x3FFF).mpr (Or.inr ⟨sh, member, shields.1, shields.touches⟩)
    by_cases usable : (loaded.ram.commit 0x3FFF000 0x1000).1.writable 0x3FFF000 0x1000 = true
    · have free := (((XbeRam.writable_iff paged).mp usable).2 0x3FFF
        ((XbeRam.Covers.congr becomes.pageSize).mpr covered)).2
      rw [becomes.readOnly, locked, committed] at free
      cases free
    · rw [XbeRam.zeroFill_refused (Bool.eq_false_iff.mpr usable)] at opens
      cases opens
  | false =>
    obtain ⟨ready, opened, installed⟩ := install_opened loaded mapped.size mapped.paged locked findExport tick
    refine Or.inr ⟨rfl, ready, ⟨⟨opened.size.trans mapped.size, opened.pageSize.trans mapped.paged, ?_,
      opened.committed, opened.readOnly, fun locks => ?_, fun address _ below => opened.bytes address (by omega),
      fun earlier before => absurd before (Nat.not_lt_zero _)⟩, opened.bytes⟩, installed⟩
    · have inside := ((ensures_guarantees file).2 loaded.image parsing).2.located.thunkBelow
      have space := parsed.extent.space
      omega
    · rw [opened.free] at locks
      cases locks

/-! ## Frame of the installation -/

/-- The pages outside of the data page are as they were, and so are the bytes outside of it and of
the slots reported as implemented. -/
structure Undisturbed (loaded : LoadedXbe) (ram : XbeRam) (slots : List ThunkSlot) : Prop where
  pages : ∀ page, page ≠ loaded.dataPage →
    ram.committed page = loaded.ram.committed page ∧ ram.readOnly page = loaded.ram.readOnly page
  bytes : ∀ address,
    ¬ (loaded.layout.kernelDataVa ≤ address ∧ address < loaded.layout.kernelDataVa + 0x1000) →
      (∀ slot ∈ slots, slot.implemented = true → ¬ (slot.slotVa ≤ address ∧ address < slot.slotVa + 4)) →
        ram.bytes address = loaded.ram.bytes address

/-- **Thunk patching.** It disturbs nothing else if and only if no entry that the kernel implements is
split, or the image has made the data page read-only and nothing gets patched.

Proof: a patch makes the pages of its word writable and then closes them all when one of them
was closed. So it changes a page just when the word lies on two pages of different protection.
-/
theorem undisturbed_iff (file : ByteVector) (loaded : LoadedXbe) (accepted : (load file).outcome = .ok loaded)
    (findExport : Nat → Option Conv) (tick : Nat) :
    (∀ ram slots, (installThunks findExport tick loaded).2.outcome = .ok (ram, slots) →
      loaded.Undisturbed ram slots) ↔
    (loaded.ram.readOnly loaded.dataPage = true ∨ ∀ index, ¬ SplitImport loaded findExport index) := by
  have data := kernelDataVa_eq accepted
  have page : loaded.dataPage = 0x3FFF := by
    rw [dataPage, data]
  rw [page]
  rcases install_cases accepted findExport tick with ⟨locked, fails⟩ | ⟨free, ready, prepared, installed⟩
  · exact iff_of_true (fun ram slots outcome => absurd outcome (fails _)) (Or.inl locked)
  · have walked := prepared.underway.walk accepted findExport loaded.layout.kernelDataVa (Nat.zero_add _)
    have frame := walk_frame prepared.underway.paged findExport loaded.layout.kernelDataVa
      loaded.image.kernelThunkVa 100000 0
    have pages := walk_pages findExport loaded.layout.kernelDataVa loaded.image.kernelThunkVa 100000 0 ready
    generalize walk findExport loaded.layout.kernelDataVa loaded.image.kernelThunkVa 100000 0 ready = result
      at walked frame pages installed
    rw [free, or_iff_right Bool.false_ne_true]
    constructor
    · intro undisturbed index
      refine walked.mp (fun other outside => ?_) index (Nat.zero_le _)
      exact ((undisturbed _ _ installed).pages other (page ▸ outside)).2
    · intro none ram slots outcome
      obtain rfl := Except.ok.inj (installed.symm.trans outcome)
      refine ⟨fun other outside => ⟨?_, walked.mpr (fun index _ => none index) other (page ▸ outside)⟩,
        fun address outside unpatched => ?_⟩
      · rw [pages.2.2]
        exact prepared.underway.committed other (page ▸ outside)
      · rw [data] at outside
        rw [frame.2 address unpatched]
        exact prepared.bytes address outside

/-- A thunk table of one entry in a writeable section. -/
def patchedImport : ByteVector := ofWords 0x388 ((0x158, 0x11000 ^^^ kXorKtRetail) :: headerWords 0x380 0x2000 1 ++
  [(0x348, kSectionWriteable), (0x34C, 0x11000), (0x350, 0x10), (0x354, 0x380), (0x358, 8), (0x380, 0x80000005)])

/-- The entry is patched, and it is not split. -/
theorem patchedImport_undisturbed : ∃ loaded ram slots, (load patchedImport).outcome = .ok loaded ∧
    (installThunks (fun _ => some .stdcall) 0 loaded).2.outcome = .ok (ram, slots) ∧
      slots.map ThunkSlot.implemented = [true] ∧ loaded.Undisturbed ram slots := by
  have patches : (load patchedImport).outcome.toOption.any (fun loaded => loaded.image.kernelThunkVa == 0x11000 &&
      (installThunks (fun _ => some .stdcall) 0 loaded).2.outcome.toOption.any (fun result =>
        result.2.map ThunkSlot.implemented == [true])) = true := by
    decide +kernel
  cases outcome : (load patchedImport).outcome with
  | error failure =>
    rw [outcome] at patches
    cases patches
  | ok loaded =>
    rw [outcome] at patches
    obtain ⟨table, patched⟩ := Bool.and_eq_true_iff.mp patches
    cases installed : (installThunks (fun _ => some .stdcall) 0 loaded).2.outcome with
    | error failure =>
      rw [installed] at patched
      cases patched
    | ok result =>
      rw [installed] at patched
      have whole : ∀ index, ¬ SplitImport loaded (fun _ => some .stdcall) index := by
        intro index split
        have across := split.across
        rw [entryVa, eq_of_beq table] at across
        omega
      exact ⟨loaded, result.1, result.2, rfl, installed, eq_of_beq patched,
        (undisturbed_iff patchedImport loaded outcome _ 0).mpr (Or.inr whole) _ _ installed⟩

/-- A thunk table of one entry, half of which is in a writeable section at the end of a page and half
in a section on the next page that is not writeable. -/
def splitTable : ByteVector := ofWords 0x3BC ((0x158, 0x11FFE ^^^ kXorKtRetail) :: headerWords 0x3B8 0x3000 2 ++
  [(0x348, kSectionWriteable), (0x34C, 0x11FFE), (0x350, 2), (0x354, 0x3B8), (0x358, 2), (0x384, 0x12000), (0x388, 2),
    (0x38C, 0x3BA), (0x390, 2), (0x3B8, 0x80000005)])

/-- The writeable section ends up read-only. -/
theorem splitTable_disturbed : ¬ ∀ (file : ByteVector) (loaded : LoadedXbe), (load file).outcome = .ok loaded →
    ∀ (findExport : Nat → Option Conv) (tick : Nat) (ram : XbeRam) (slots : List ThunkSlot),
      (installThunks findExport tick loaded).2.outcome = .ok (ram, slots) → loaded.Undisturbed ram slots := by
  intro always
  have locks : (load splitTable).outcome.toOption.any (fun loaded =>
      !loaded.ram.readOnly 0x11 && (installThunks (fun _ => some .stdcall) 0 loaded).2.outcome.toOption.any
        (fun result => result.1.readOnly 0x11)) = true := by
    decide +kernel
  cases outcome : (load splitTable).outcome with
  | ok loaded =>
    rw [outcome] at locks
    obtain ⟨free, locked⟩ := Bool.and_eq_true_iff.mp locks
    cases installed : (installThunks (fun _ => some .stdcall) 0 loaded).2.outcome with
    | ok result =>
      rw [installed] at locked
      have data : loaded.dataPage = 0x3FFF := by
        rw [dataPage, kernelDataVa_eq outcome]
      have same := ((always splitTable loaded outcome _ 0 result.1 result.2 installed).pages 0x11 (by omega)).2
      rw [show result.1.readOnly 0x11 = true from locked] at same
      rw [← same] at free
      cases free
    | error failure =>
      rw [installed] at locked
      cases locked
  | error failure =>
    rw [outcome] at locks
    cases locks

end LoadedXbe

end SeriesxEmu
