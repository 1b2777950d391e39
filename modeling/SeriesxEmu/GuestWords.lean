import SeriesxEmu.GuestPages

/-!
# Words in guest memory

A 32-bit word that is stored in writable memory is read back, and a store
elsewhere leaves it alone. Stores change no page, and stores into a range change no byte
outside of it.
-/

namespace SeriesxEmu.XbeRam

variable {ram : XbeRam} {addr size : Nat}

/-- The pages of a part are pages of the whole. -/
theorem pages_part {start count : Nat} (positive : 0 < count) (low : addr ≤ start)
    (high : start + count ≤ addr + size) : ∀ page ∈ ram.pages start count, page ∈ ram.pages addr size := by
  intro page member
  have first : addr / ram.pageSize ≤ start / ram.pageSize := Nat.div_le_div_right low
  have last : (start + count - 1) / ram.pageSize ≤ (addr + size - 1) / ram.pageSize :=
    Nat.div_le_div_right (by omega)
  simp only [pages, List.mem_range'_1] at member ⊢
  omega

/-- A part of a writable range is writable, whatever the page size. -/
theorem writable_inner (usable : ram.writable addr size = true) {start count : Nat} (positive : 0 < count)
    (low : addr ≤ start) (high : start + count ≤ addr + size) : ram.writable start count = true := by
  have part : ∀ page ∈ ram.pages start count, page ∈ ram.pages addr size := pages_part positive low high
  simp only [writable, isCommitted, Bool.and_eq_true, List.all_eq_true, rangeOk_iff] at usable ⊢
  obtain ⟨⟨⟨_, inside⟩, committed⟩, unprotected⟩ := usable
  exact ⟨⟨⟨positive, by omega⟩, fun page member => committed page (part page member)⟩,
    fun page member => unprotected page (part page member)⟩

/-- A word inside a writable range is writable. -/
theorem writable_word (usable : ram.writable addr size = true) {start : Nat} (low : addr ≤ start)
    (high : start + 4 ≤ addr + size) : ram.writable start 4 = true :=
  writable_inner usable (by decide) low high

/-- A word is read back from its bytes. -/
theorem ofLittleEndian_littleEndian (value : Nat) : ofLittleEndian (littleEndian value) = value % 2 ^ 32 := by
  simp only [littleEndian, ofLittleEndian, List.foldr_cons, List.foldr_nil, UInt8.toNat_ofNat']
  omega

/-- A word that may be stored is. -/
theorem write32_eq (usable : ram.writable addr 4 = true) (value : Nat) :
    ram.write32 addr value = { ram with
      bytes := fun address => if addr ≤ address ∧ address < addr + 4 then
        (littleEndian value).getD (address - addr) 0 else ram.bytes address } :=
  congrArg Prod.fst (if_pos usable)

/-- A store changes no page. -/
theorem write32_pages (ram : XbeRam) (addr value : Nat) : (ram.write32 addr value).size = ram.size ∧
    (ram.write32 addr value).pageSize = ram.pageSize ∧
    (ram.write32 addr value).committed = ram.committed ∧ (ram.write32 addr value).readOnly = ram.readOnly := by
  unfold write32 writeBytes
  split <;> exact ⟨rfl, rfl, rfl, rfl⟩

/-- Storing a word protects nothing. -/
theorem writable_write32 (ram : XbeRam) (start value : Nat) :
    (ram.write32 start value).writable addr size = ram.writable addr size := by
  obtain ⟨sizes, pageSizes, commits, protects⟩ := ram.write32_pages start value
  simp only [writable, isCommitted, rangeOk, pages, sizes, pageSizes, commits, protects]

/-- It hides nothing, either. -/
theorem readable_write32 (ram : XbeRam) (start value : Nat) :
    (ram.write32 start value).readable addr size = ram.readable addr size := by
  obtain ⟨sizes, pageSizes, commits, _⟩ := ram.write32_pages start value
  simp only [readable, isCommitted, rangeOk, pages, sizes, pageSizes, commits]

/-- A word that may be stored may be read. -/
theorem read32_eq (usable : ram.writable addr 4 = true) :
    ram.read32 addr = some (ofLittleEndian ((List.range 4).map (fun offset => ram.bytes (addr + offset)))) := by
  have held : ram.readable addr 4 = true := isCommitted_of_writable usable
  simp [read32, readBytes, held]

/-- A stored word is read back. -/
theorem read32_write32 (usable : ram.writable addr 4 = true) (value : Nat) :
    (ram.write32 addr value).read32 addr = some (value % 2 ^ 32) := by
  have still : (ram.write32 addr value).writable addr 4 = true := (ram.writable_write32 addr value).trans usable
  rw [read32_eq still, write32_eq usable]
  have bytes : (List.range 4).map (fun offset => if addr ≤ addr + offset ∧ addr + offset < addr + 4 then
      (littleEndian value).getD (addr + offset - addr) 0 else ram.bytes (addr + offset)) = littleEndian value := by
    simp [List.range_succ, littleEndian]
  simp only [bytes, ofLittleEndian_littleEndian]

/-- A store elsewhere leaves a word alone. -/
theorem read32_write32_other {other : Nat} (apart : addr + 4 ≤ other ∨ other + 4 ≤ addr) (value : Nat) :
    (ram.write32 addr value).read32 other = ram.read32 other := by
  by_cases usable : ram.writable addr 4 = true
  · have bytes : ∀ offset ∈ List.range 4, (ram.write32 addr value).bytes (other + offset) =
        ram.bytes (other + offset) := by
      intro offset member
      have small := List.mem_range.mp member
      have outside : ¬ (addr ≤ other + offset ∧ other + offset < addr + 4) := by omega
      rw [write32_eq usable]
      simp only [outside, ↓reduceIte]
    simp only [read32, readBytes, readable_write32, List.map_congr_left bytes]
  · have refused : ram.write32 addr value = ram := congrArg Prod.fst (if_neg usable)
    rw [refused]

/-! ## Stores inside a range -/

/-- The pages are the same, and so are the bytes outside of the range. -/
structure Within (ram next : XbeRam) (low high : Nat) : Prop where
  pages : next.size = ram.size ∧ next.pageSize = ram.pageSize ∧ next.committed = ram.committed ∧
    next.readOnly = ram.readOnly
  bytes : ∀ address, address < low ∨ high ≤ address → next.bytes address = ram.bytes address

namespace Within

variable {ram middle next : XbeRam} {low high : Nat}

/-- Nothing is inside every range. -/
theorem refl (ram : XbeRam) (low high : Nat) : Within ram ram low high := ⟨⟨rfl, rfl, rfl, rfl⟩, fun _ _ => rfl⟩

/-- Two stores inside a range are inside it together. -/
theorem trans (first : Within ram middle low high) (second : Within middle next low high) :
    Within ram next low high := by
  obtain ⟨⟨sizes, pageSizes, commits, protects⟩, bytes⟩ := first
  obtain ⟨⟨sizes', pageSizes', commits', protects'⟩, bytes'⟩ := second
  exact ⟨⟨sizes'.trans sizes, pageSizes'.trans pageSizes, commits'.trans commits, protects'.trans protects⟩,
    fun address outside => (bytes' address outside).trans (bytes address outside)⟩

/-- A wider range has both inside. -/
theorem mono (within : Within ram next low high) {below above : Nat} (lower : below ≤ low) (upper : high ≤ above) :
    Within ram next below above :=
  ⟨within.pages, fun address outside => within.bytes address (by omega)⟩

/-- A write is inside its own range. -/
theorem writeBytes (ram : XbeRam) (addr : Nat) (source : List UInt8) :
    Within ram (ram.writeBytes addr source).1 addr (addr + source.length) := by
  unfold XbeRam.writeBytes
  split
  · refine ⟨⟨rfl, rfl, rfl, rfl⟩, fun address outside => ?_⟩
    have apart : ¬ (addr ≤ address ∧ address < addr + source.length) := by omega
    simp only [apart, ↓reduceIte]
  · exact refl _ _ _

/-- So is a word. -/
theorem write32 (ram : XbeRam) (addr value : Nat) : Within ram (ram.write32 addr value) addr (addr + 4) :=
  writeBytes ram addr (littleEndian value)

/-- Stores keep what may be written. -/
theorem writable (within : Within ram next low high) (addr size : Nat) :
    next.writable addr size = ram.writable addr size := by
  obtain ⟨sizes, pageSizes, commits, protects⟩ := within.pages
  simp only [XbeRam.writable, isCommitted, rangeOk, XbeRam.pages, sizes, pageSizes, commits, protects]

/-- What lies beside the range reads as before. -/
theorem readBytes (within : Within ram next low high) {addr size : Nat} (apart : addr + size ≤ low ∨ high ≤ addr) :
    next.readBytes addr size = ram.readBytes addr size := by
  obtain ⟨sizes, pageSizes, commits, _⟩ := within.pages
  have readable : next.readable addr size = ram.readable addr size := by
    simp only [XbeRam.readable, isCommitted, rangeOk, XbeRam.pages, sizes, pageSizes, commits]
  have bytes : (List.range size).map (fun offset => next.bytes (addr + offset)) =
      (List.range size).map (fun offset => ram.bytes (addr + offset)) :=
    List.map_congr_left (fun offset member => by
      have small := List.mem_range.mp member
      exact within.bytes _ (by omega))
  rw [XbeRam.readBytes, readable, bytes]
  rfl

/-- So does a word. -/
theorem read32 (within : Within ram next low high) {addr : Nat} (apart : addr + 4 ≤ low ∨ high ≤ addr) :
    next.read32 addr = ram.read32 addr := by
  rw [XbeRam.read32, within.readBytes apart, XbeRam.read32]

end Within

/-- Bytes of memory that stays writable are read as long as they are the same. -/
theorem readBytes_held {ram next : XbeRam} {addr size start count : Nat} (usable : ram.writable addr size = true)
    (still : next.writable addr size = true) (positive : 0 < count) (low : addr ≤ start)
    (high : start + count ≤ addr + size)
    (same : ∀ address, start ≤ address → address < start + count → next.bytes address = ram.bytes address) :
    next.readBytes start count = ram.readBytes start count := by
  have before : ram.readable start count = true := isCommitted_of_writable (writable_inner usable positive low high)
  have after : next.readable start count = true := isCommitted_of_writable (writable_inner still positive low high)
  have bytes : (List.range count).map (fun offset => next.bytes (start + offset)) =
      (List.range count).map (fun offset => ram.bytes (start + offset)) :=
    List.map_congr_left (fun offset member => by
      have small := List.mem_range.mp member
      exact same _ (by omega) (by omega))
  simp only [readBytes, before, after, bytes]

/-- A word is told by its four bytes. -/
theorem read32_held {ram next : XbeRam} {addr size start : Nat} (usable : ram.writable addr size = true)
    (still : next.writable addr size = true) (low : addr ≤ start) (high : start + 4 ≤ addr + size)
    (same : ∀ address, start ≤ address → address < start + 4 → next.bytes address = ram.bytes address) :
    next.read32 start = ram.read32 start := by
  rw [read32, readBytes_held usable still (by decide) low high same, read32]

end SeriesxEmu.XbeRam
