import SeriesxEmu.XbeRam

/-!
# The pages of a guest range

A range of guest memory covers the pages that hold one of its bytes. What the
operations of the window do is read off page by page: which pages they commit,
free, protect or open, and which bytes they store.
-/

namespace SeriesxEmu.XbeRam

variable {ram : XbeRam} {addr size page : Nat}

/-- The page holds a byte of the range. -/
def Covers (ram : XbeRam) (addr size page : Nat) : Prop :=
  addr < (page + 1) * ram.pageSize ∧ page * ram.pageSize < addr + size

instance (ram : XbeRam) (addr size page : Nat) : Decidable (ram.Covers addr size page) :=
  inferInstanceAs (Decidable (_ ∧ _))

/-- The pages of a range are those that it covers. -/
theorem mem_pages (paged : 0 < ram.pageSize) (positive : 0 < size) :
    page ∈ ram.pages addr size ↔ ram.Covers addr size page := by
  have first : addr / ram.pageSize ≤ page ↔ addr < (page + 1) * ram.pageSize := by
    rw [← Nat.lt_succ_iff, Nat.div_lt_iff_lt_mul paged]
  have last : page ≤ (addr + size - 1) / ram.pageSize ↔ page * ram.pageSize < addr + size := by
    rw [Nat.le_div_iff_mul_le paged]
    omega
  have ordered : addr / ram.pageSize ≤ (addr + size - 1) / ram.pageSize :=
    Nat.div_le_div_right (by omega)
  simp only [pages, List.mem_range'_1, Covers, ← first, ← last]
  omega

/-- The same, as a test. -/
theorem contains_pages (paged : 0 < ram.pageSize) (positive : 0 < size) :
    (ram.pages addr size).contains page = decide (ram.Covers addr size page) := by
  rw [Bool.eq_iff_iff, List.contains_iff_mem, decide_eq_true_iff]
  exact mem_pages paged positive

/-- A range is in order if it is not empty and ends inside the window. -/
theorem rangeOk_iff : ram.rangeOk addr size = true ↔ 0 < size ∧ addr + size ≤ ram.size := by
  simp only [rangeOk, Bool.and_eq_true, decide_eq_true_eq, bne_iff_ne]
  omega

/-- A range is committed if it is in order and all its pages are. -/
theorem isCommitted_iff (paged : 0 < ram.pageSize) : ram.isCommitted addr size = true ↔
    (0 < size ∧ addr + size ≤ ram.size) ∧ ∀ page, ram.Covers addr size page → ram.committed page = true := by
  rw [isCommitted, Bool.and_eq_true, rangeOk_iff, List.all_eq_true]
  refine and_congr_right (fun range => forall_congr' (fun page => ?_))
  rw [mem_pages paged range.1]

/-- It may be written if none of them is read-only, either. -/
theorem writable_iff (paged : 0 < ram.pageSize) : ram.writable addr size = true ↔
    (0 < size ∧ addr + size ≤ ram.size) ∧ ∀ page, ram.Covers addr size page →
      ram.committed page = true ∧ ram.readOnly page = false := by
  rw [writable, Bool.and_eq_true, isCommitted_iff paged, List.all_eq_true]
  constructor
  · rintro ⟨⟨range, committed⟩, allowed⟩
    refine ⟨range, fun page covered => ⟨committed page covered, ?_⟩⟩
    simpa using allowed page ((mem_pages paged range.1).mpr covered)
  · rintro ⟨range, usable⟩
    refine ⟨⟨range, fun page covered => (usable page covered).1⟩, fun page member => ?_⟩
    simpa using (usable page ((mem_pages paged range.1).mp member)).2

/-- What a range covers depends on the size of pages only. -/
theorem Covers.congr {other : XbeRam} (same : other.pageSize = ram.pageSize) :
    other.Covers addr size page ↔ ram.Covers addr size page := by
  rw [Covers, Covers, same]

/-- The window after an operation that keeps its geometry, page by page and byte by byte. -/
structure Becomes (ram : XbeRam) (committed readOnly : Nat → Bool) (bytes : Nat → UInt8) (after : XbeRam) :
    Prop where
  size : after.size = ram.size
  pageSize : after.pageSize = ram.pageSize
  committed : ∀ page, after.committed page = committed page
  readOnly : ∀ page, after.readOnly page = readOnly page
  bytes : ∀ address, after.bytes address = bytes address

/-- A commit that succeeds opens the pages that were not committed. -/
theorem commit_becomes (paged : 0 < ram.pageSize) (fits : 0 < size ∧ addr + size ≤ ram.size) :
    (ram.commit addr size).2 = true ∧ ram.Becomes
      (fun page => ram.committed page || decide (ram.Covers addr size page))
      (fun page => ram.readOnly page && (ram.committed page || !decide (ram.Covers addr size page)))
      ram.bytes (ram.commit addr size).1 := by
  have ok : ram.rangeOk addr size = true := rangeOk_iff.mpr fits
  simp only [commit, ok, ↓reduceIte, contains_pages paged fits.1]
  refine ⟨trivial, rfl, rfl, fun page => ?_, fun page => ?_, fun _ => rfl⟩
  · cases already : ram.committed page <;> simp [already]
  · cases already : ram.committed page <;> simp [already]

/-- Every range that is in order can be committed. -/
theorem commit_ok : (ram.commit addr size).2 = true ↔ 0 < size ∧ addr + size ≤ ram.size := by
  rw [← rangeOk_iff, commit]
  split <;> simp_all

/-- Any other leaves the memory alone. -/
theorem commit_failed (failed : (ram.commit addr size).2 = false) : (ram.commit addr size).1 = ram := by
  unfold commit at failed ⊢
  split
  · rename_i ok
    simp [ok] at failed
  · rfl

/-- Giving a range back takes its pages and keeps the bytes. -/
theorem uncommit_becomes (paged : 0 < ram.pageSize) (held : ram.isCommitted addr size = true) :
    ram.Becomes (fun page => ram.committed page && !decide (ram.Covers addr size page))
      (fun page => ram.readOnly page && !decide (ram.Covers addr size page)) ram.bytes
      (ram.uncommit addr size).1 := by
  have positive := ((isCommitted_iff paged).mp held).1.1
  simp only [uncommit, held, ↓reduceIte, contains_pages paged positive]
  exact ⟨rfl, rfl, fun _ => rfl, fun _ => rfl, fun _ => rfl⟩

/-- Protecting a range makes its pages read-only. -/
theorem protectRo_becomes (paged : 0 < ram.pageSize) (held : ram.isCommitted addr size = true) :
    ram.Becomes ram.committed (fun page => ram.readOnly page || decide (ram.Covers addr size page)) ram.bytes
      (ram.protectRo addr size).1 := by
  have positive := ((isCommitted_iff paged).mp held).1.1
  simp only [protectRo, held, ↓reduceIte, contains_pages paged positive]
  exact ⟨rfl, rfl, fun _ => rfl, fun _ => rfl, fun _ => rfl⟩

/-- A fill of writable pages has a result. -/
theorem zeroFill_becomes (usable : ram.writable addr size = true) : ∃ after, ram.zeroFill addr size = some after ∧
    ram.Becomes ram.committed ram.readOnly
      (fun address => if addr ≤ address ∧ address < addr + size then 0 else ram.bytes address) after := by
  refine ⟨_, if_pos usable, rfl, rfl, fun _ => rfl, fun _ => rfl, fun _ => rfl⟩

/-- A committed range has its host address. -/
theorem hostPtr_of_committed (paged : 0 < ram.pageSize) (held : ram.isCommitted addr size = true) :
    ram.hostPtr addr = some addr := by
  obtain ⟨⟨positive, inside⟩, each⟩ := (isCommitted_iff paged).mp held
  have first : ram.isCommitted addr 1 = true := by
    rw [isCommitted_iff paged]
    refine ⟨⟨by decide, by omega⟩, fun page covered => each page ⟨covered.1, ?_⟩⟩
    have upper := covered.2
    omega
  simp [hostPtr, first]

/-- A part of a writable range is writable. -/
theorem writable_part (paged : 0 < ram.pageSize) {start count : Nat} (usable : ram.writable addr size = true)
    (positive : 0 < count) (low : addr ≤ start) (high : start + count ≤ addr + size) :
    ram.writable start count = true := by
  rw [writable_iff paged] at usable ⊢
  obtain ⟨⟨_, inside⟩, each⟩ := usable
  refine ⟨⟨positive, by omega⟩, fun page covered => each page ⟨?_, ?_⟩⟩
  · exact Nat.lt_of_le_of_lt low covered.1
  · exact Nat.lt_of_lt_of_le covered.2 high

/-- What may be written is committed. -/
theorem isCommitted_of_writable (usable : ram.writable addr size = true) : ram.isCommitted addr size = true := by
  rw [writable, Bool.and_eq_true] at usable
  exact usable.1

/-- A write to writable pages stores the bytes. -/
theorem writeBytes_becomes {source : List UInt8} (usable : ram.writable addr source.length = true) :
    ∃ after, ram.writeBytes addr source = (after, true) ∧ ram.Becomes ram.committed ram.readOnly
      (fun address => if addr ≤ address ∧ address < addr + source.length then source.getD (address - addr) 0
        else ram.bytes address) after :=
  ⟨_, if_pos usable, rfl, rfl, fun _ => rfl, fun _ => rfl, fun _ => rfl⟩

/-- A write to anything else does nothing. -/
theorem writeBytes_refused {source : List UInt8} (closed : ram.writable addr source.length = false) :
    ram.writeBytes addr source = (ram, false) := by
  rw [writeBytes, closed]
  rfl

/-- Clearing anything else has no result: the host faults. -/
theorem zeroFill_refused (closed : ram.writable addr size = false) : ram.zeroFill addr size = none := by
  rw [zeroFill, closed]
  rfl

/-! ## Operations that leave the pages alone -/

/-- The window has the same pages committed. -/
def SamePages (ram after : XbeRam) : Prop :=
  after.size = ram.size ∧ after.pageSize = ram.pageSize ∧ after.committed = ram.committed

/-- Memory that is left alone has the same pages. -/
theorem SamePages.refl (ram : XbeRam) : SamePages ram ram := ⟨rfl, rfl, rfl⟩

/-- Two operations that keep the pages keep them together. -/
theorem SamePages.trans {first second third : XbeRam} (early : SamePages first second)
    (late : SamePages second third) : SamePages first third :=
  ⟨late.1.trans early.1, late.2.1.trans early.2.1, late.2.2.trans early.2.2⟩

/-- Writing keeps the pages. -/
theorem writeBytes_pages (ram : XbeRam) (addr : Nat) (source : List UInt8) :
    SamePages ram (ram.writeBytes addr source).1 := by
  unfold writeBytes
  split <;> exact SamePages.refl _

/-- Protecting them keeps which are committed. -/
theorem protectRo_pages (ram : XbeRam) (addr size : Nat) : SamePages ram (ram.protectRo addr size).1 := by
  unfold protectRo
  split <;> exact SamePages.refl _

/-- So does lifting their protection. -/
theorem protectRw_pages (ram : XbeRam) (addr size : Nat) : SamePages ram (ram.protectRw addr size).1 := by
  unfold protectRw
  split <;> exact SamePages.refl _

/-- So does clearing. -/
theorem zeroFill_pages {after : XbeRam} (filled : ram.zeroFill addr size = some after) : SamePages ram after := by
  unfold zeroFill at filled
  split at filled
  · cases filled
    exact SamePages.refl _
  · cases filled

end SeriesxEmu.XbeRam
