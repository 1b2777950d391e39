import SeriesxEmu.GuestPages
import SeriesxEmu.ParsedImages
import Mathlib.Data.List.Induction

/-!
# The guest window while an image is mapped

After the headers and some of the sections, the committed pages are those of the
header block and of these sections, a page is read-only when one of these sections
protects it, and every byte is known. Sections are taken in ascending order, so a new
one can meet an earlier one in its first page only. That decides each turn of the
loop: a section is refused, faults the host, or is mapped.
-/

namespace SeriesxEmu

/-- The page holds a byte of the range. -/
def Touches (addr size page : Nat) : Prop := addr < (page + 1) * 4096 ∧ page * 4096 < addr + size

instance (addr size page : Nat) : Decidable (Touches addr size page) := inferInstanceAs (Decidable (_ ∧ _))

namespace SectionHeader

/-- The address lies in the section. -/
def Has (sh : SectionHeader) (address : Nat) : Prop :=
  sh.virtualAddr ≤ address ∧ address < sh.virtualAddr + sh.virtualSize

instance (sh : SectionHeader) (address : Nat) : Decidable (sh.Has address) := inferInstanceAs (Decidable (_ ∧ _))

/-- Mapping the section makes the page read-only: the whole section is not writeable,
or the page is a protected edge. -/
def Shields (sh : SectionHeader) (page : Nat) : Prop :=
  0 < sh.virtualSize ∧
    ((sh.flags &&& kSectionWriteable = 0 ∧ Touches sh.virtualAddr sh.virtualSize page) ∨
      (sh.flags &&& kSectionHeadPageReadonly ≠ 0 ∧ Touches sh.virtualAddr 1 page) ∨
      (sh.flags &&& kSectionTailPageReadonly ≠ 0 ∧ Touches (sh.virtualAddr + sh.virtualSize - 1) 1 page))

instance (sh : SectionHeader) (page : Nat) : Decidable (sh.Shields page) := inferInstanceAs (Decidable (_ ∧ _))

/-- The section starts on a page that an earlier one has made read-only. -/
def Blocked (done : List SectionHeader) (sh : SectionHeader) : Prop :=
  ∃ earlier ∈ done, earlier.Shields (sh.virtualAddr / 4096)

instance (done : List SectionHeader) (sh : SectionHeader) : Decidable (Blocked done sh) :=
  inferInstanceAs (Decidable (∃ earlier ∈ done, _))

/-- A page that a section shields is one of its own. -/
theorem Shields.touches {sh : SectionHeader} {page : Nat} (shields : sh.Shields page) :
    Touches sh.virtualAddr sh.virtualSize page := by
  obtain ⟨positive, ⟨_, touched⟩ | ⟨_, touched⟩ | ⟨_, touched⟩⟩ := shields
  · exact touched
  · exact ⟨touched.1, Nat.lt_of_lt_of_le touched.2 (by omega)⟩
  · exact ⟨Nat.lt_of_le_of_lt (by omega) touched.1, Nat.lt_of_lt_of_le touched.2 (by omega)⟩

end SectionHeader

namespace XbeImage

open Load Traced

/-- The window after the headers and the sections done. -/
structure Mapped (image : XbeImage) (done : List SectionHeader) (ram : XbeRam) (prevEnd : Nat) : Prop where
  size : ram.size = 64 * 1024 * 1024
  paged : ram.pageSize = 4096
  bounded : prevEnd ≤ ram.size
  fits : ∀ sh ∈ done, sh.sizeofRaw ≤ sh.virtualSize
  ends : ∀ sh ∈ done, 0 < sh.virtualSize → sh.virtualAddr + sh.virtualSize ≤ prevEnd
  ordered : done.Pairwise (fun left right => 0 < left.virtualSize → 0 < right.virtualSize →
    left.virtualAddr + left.virtualSize ≤ right.virtualAddr)
  committed : ∀ page, ram.committed page = true ↔
    Touches image.header.baseAddr image.header.sizeofHeaders page ∨
      ∃ sh ∈ done, 0 < sh.virtualSize ∧ Touches sh.virtualAddr sh.virtualSize page
  readOnly : ∀ page, ram.readOnly page = true ↔ ∃ sh ∈ done, sh.Shields page
  raw : ∀ sh ∈ done, ∀ index < sh.sizeofRaw,
    ram.bytes (sh.virtualAddr + index) = image.file.byte (sh.rawAddr + index)
  rest : ∀ sh ∈ done, ∀ index < sh.virtualSize, sh.sizeofRaw ≤ index → ram.bytes (sh.virtualAddr + index) = 0
  headers : ∀ index < image.header.sizeofHeaders, (∀ sh ∈ done, ¬ sh.Has (image.header.baseAddr + index)) →
    ram.bytes (image.header.baseAddr + index) = image.file.byte index
  outside : ∀ address,
    ¬ (image.header.baseAddr ≤ address ∧ address < image.header.baseAddr + image.header.sizeofHeaders) →
    (∀ sh ∈ done, ¬ sh.Has address) → ram.bytes address = 0

variable {image : XbeImage} {done : List SectionHeader} {ram : XbeRam} {prevEnd : Nat} {sh : SectionHeader}

/-! ## The parts of a turn -/

/-- A slice has as many bytes as it was asked for. -/
theorem slice_length (file : ByteVector) (first count : Nat) : (file.slice first count).length = count := by
  simp [ByteVector.slice]

/-- Its bytes are those of the file. -/
theorem slice_getD (file : ByteVector) (first count : Nat) {index : Nat} (inside : index < count) :
    (file.slice first count).getD index 0 = file.byte (first + index) := by
  simp [ByteVector.slice, List.getD_eq_getElem?_getD, inside]

/-- The access of a mapping is a read of the section's raw bytes, or a store into
writable pages of the section. -/
def Admitted (first count addr size : Nat) : LoadAccess → Prop
  | .read start length => start = first ∧ length = count
  | .store ram start length =>
    0 < ram.pageSize ∧ ram.writable start length = true ∧ addr ≤ start ∧ start + length ≤ addr + size

/-- A copy into writable pages. -/
theorem copyIn_spec (file : ByteVector) (first : Nat) {count addr : Nat} (message : String)
    (usable : ram.writable addr count = true) : ∃ after,
      copyIn file first count ram addr message = ⟨[.read first count, .store ram addr count], .ok after⟩ ∧
      ram.Becomes ram.committed ram.readOnly (fun address =>
        if addr ≤ address ∧ address < addr + count then file.byte (first + (address - addr))
        else ram.bytes address) after := by
  have same := slice_length file first count
  have whole : ram.writable addr (file.slice first count).length = true := by
    rw [same]
    exact usable
  obtain ⟨after, written, becomes⟩ := XbeRam.writeBytes_becomes whole
  refine ⟨after, ?_, becomes.size, becomes.pageSize, becomes.committed, becomes.readOnly, fun address => ?_⟩
  · rw [copyIn, written]
    rfl
  · rw [becomes.bytes, same]
    split
    · rename_i inside
      exact slice_getD file first count (by omega)
    · rfl

/-- Nothing is copied to what may not be written. -/
theorem copyIn_refused {file : ByteVector} {first count addr : Nat} (message : String)
    (closed : ram.writable addr count = false) :
    copyIn file first count ram addr message = fail (.rejected message) := by
  rw [copyIn, XbeRam.writeBytes_refused (by rw [slice_length]; exact closed)]

/-- The bytes of a section: what the file has of it, and zeros behind. -/
def filled (file : ByteVector) (sh : SectionHeader) (index : Nat) : UInt8 :=
  if index < sh.sizeofRaw then file.byte (sh.rawAddr + index) else 0

/-- The raw bytes of a section are copied to its front, and read inside the file. -/
theorem copyRaw_spec (image : XbeImage) (paged : 0 < ram.pageSize)
    (usable : ram.writable sh.virtualAddr sh.virtualSize = true)
    (fits : sh.sizeofRaw ≤ sh.virtualSize) : ∃ accesses copied, image.copyRaw ram sh = ⟨accesses, .ok copied⟩ ∧
      (∀ access ∈ accesses, Admitted sh.rawAddr sh.sizeofRaw sh.virtualAddr sh.virtualSize access) ∧
      ram.Becomes ram.committed ram.readOnly (fun address =>
        if sh.virtualAddr ≤ address ∧ address < sh.virtualAddr + sh.sizeofRaw then
          image.file.byte (sh.rawAddr + (address - sh.virtualAddr))
        else ram.bytes address) copied := by
  unfold copyRaw
  split
  · rename_i some
    have part := XbeRam.writable_part paged usable some (Nat.le_refl _) (by omega)
    obtain ⟨after, copied, becomes⟩ := copyIn_spec image.file sh.rawAddr "cannot copy section raw data" part
    refine ⟨_, after, copied, ?_, becomes⟩
    simp only [List.mem_cons, List.not_mem_nil, or_false, forall_eq_or_imp, forall_eq]
    exact ⟨⟨rfl, rfl⟩, paged, part, Nat.le_refl _, by omega⟩
  · rename_i nothing
    refine ⟨[], ram, rfl, by simp, rfl, rfl, fun _ => rfl, fun _ => rfl, fun address => ?_⟩
    rw [if_neg (by omega)]

/-- The rest is cleared. -/
theorem clearRest_spec (paged : 0 < ram.pageSize) (usable : ram.writable sh.virtualAddr sh.virtualSize = true)
    (window : ram.size ≤ 2 ^ 31) : ∃ accesses cleared, clearRest ram sh = ⟨accesses, .ok cleared⟩ ∧
      (∀ access ∈ accesses, Admitted sh.rawAddr sh.sizeofRaw sh.virtualAddr sh.virtualSize access) ∧
      ram.Becomes ram.committed ram.readOnly (fun address =>
        if sh.virtualAddr + sh.sizeofRaw ≤ address ∧ address < sh.virtualAddr + sh.virtualSize then 0
        else ram.bytes address) cleared := by
  unfold clearRest
  split
  · rename_i some
    have inside := ((XbeRam.writable_iff paged).mp usable).1.2
    have part : ram.writable (sh.virtualAddr + sh.sizeofRaw) (sh.virtualSize - sh.sizeofRaw) = true :=
      XbeRam.writable_part paged usable (by omega) (by omega) (by omega)
    obtain ⟨after, cleared, becomes⟩ := XbeRam.zeroFill_becomes part
    rw [Nat.mod_eq_of_lt (by omega), XbeRam.hostPtr_of_committed paged (XbeRam.isCommitted_of_writable part)]
    refine ⟨[.store ram (sh.virtualAddr + sh.sizeofRaw) (sh.virtualSize - sh.sizeofRaw)], after, ?_, ?_,
      becomes.size, becomes.pageSize, becomes.committed, becomes.readOnly, fun address => ?_⟩
    · simp only [clear, cleared]
      rfl
    · simp only [List.mem_singleton, forall_eq]
      exact ⟨paged, part, by omega, by omega⟩
    · rw [becomes.bytes, show sh.virtualAddr + sh.sizeofRaw + (sh.virtualSize - sh.sizeofRaw) =
        sh.virtualAddr + sh.virtualSize by omega]
  · rename_i nothing
    refine ⟨[], ram, rfl, by simp, rfl, rfl, fun _ => rfl, fun _ => rfl, fun address => ?_⟩
    rw [if_neg (by omega)]

/-- Clearing a section without raw bytes goes through a pointer to its first byte: the
pages are not checked. -/
theorem clearRest_faults (nothing : sh.sizeofRaw = 0) (nonempty : 0 < sh.virtualSize) (window : ram.size ≤ 2 ^ 31)
    (paged : 0 < ram.pageSize) (held : ram.isCommitted sh.virtualAddr sh.virtualSize = true)
    (closed : ram.writable sh.virtualAddr sh.virtualSize = false) :
    clearRest ram sh = ⟨[.store ram sh.virtualAddr sh.virtualSize], .error .hostFault⟩ := by
  have inside := ((XbeRam.isCommitted_iff paged).mp held).1.2
  rw [clearRest, nothing, if_pos nonempty, Nat.add_zero, Nat.mod_eq_of_lt (by omega),
    XbeRam.hostPtr_of_committed paged held]
  simp only [clear, Nat.sub_zero, XbeRam.zeroFill_refused closed]
  rfl

/-- A section whose pages are all writable is copied and cleared. -/
theorem fill_spec (image : XbeImage) (paged : 0 < ram.pageSize)
    (usable : ram.writable sh.virtualAddr sh.virtualSize = true)
    (window : ram.size ≤ 2 ^ 31) (fits : sh.sizeofRaw ≤ sh.virtualSize) :
    ∃ early copied late cleared, image.copyRaw ram sh = ⟨early, .ok copied⟩ ∧
      clearRest copied sh = ⟨late, .ok cleared⟩ ∧
      (∀ access ∈ early ++ late, Admitted sh.rawAddr sh.sizeofRaw sh.virtualAddr sh.virtualSize access) ∧
      ram.Becomes ram.committed ram.readOnly (fun address =>
        if sh.Has address then filled image.file sh (address - sh.virtualAddr) else ram.bytes address) cleared := by
  obtain ⟨early, copied, copies, earlyGood, first⟩ := copyRaw_spec image paged usable fits
  have copiedPaged : 0 < copied.pageSize := by
    rw [first.pageSize]
    exact paged
  have copiedUsable : copied.writable sh.virtualAddr sh.virtualSize = true := by
    rw [XbeRam.writable_iff copiedPaged, first.size]
    rw [XbeRam.writable_iff paged] at usable
    refine ⟨usable.1, fun page covered => ?_⟩
    rw [first.committed, first.readOnly]
    exact usable.2 page ((XbeRam.Covers.congr first.pageSize).mp covered)
  obtain ⟨late, cleared, clears, lateGood, second⟩ :=
    clearRest_spec copiedPaged copiedUsable (by rw [first.size]; exact window)
  refine ⟨early, copied, late, cleared, copies, clears, fun access performed => ?_,
    second.size.trans first.size, second.pageSize.trans first.pageSize, fun page => ?_, fun page => ?_,
    fun address => ?_⟩
  · rcases List.mem_append.mp performed with inEarly | inLate
    · exact earlyGood access inEarly
    · exact lateGood access inLate
  · rw [second.committed, first.committed]
  · rw [second.readOnly, first.readOnly]
  · rw [second.bytes, first.bytes, filled]
    by_cases has : sh.Has address
    · rw [if_pos has]
      unfold SectionHeader.Has at has
      by_cases inRaw : address - sh.virtualAddr < sh.sizeofRaw
      · rw [if_neg (by omega), if_pos (by omega), if_pos inRaw]
      · rw [if_pos (by omega), if_neg inRaw]
    · rw [if_neg has]
      unfold SectionHeader.Has at has
      rw [if_neg (by omega), if_neg (by omega)]

/-- A protection that is applied under a condition. -/
theorem shield_becomes (paged : 0 < ram.pageSize) {addr size : Nat} (held : ram.isCommitted addr size = true)
    (asked : Prop) [Decidable asked] :
    ram.Becomes ram.committed (fun page => ram.readOnly page || decide (asked ∧ ram.Covers addr size page))
      ram.bytes (if asked then (ram.protectRo addr size).1 else ram) := by
  split
  · rename_i yes
    have protects := XbeRam.protectRo_becomes paged held
    refine ⟨protects.size, protects.pageSize, protects.committed, fun page => ?_, protects.bytes⟩
    rw [protects.readOnly]
    simp [yes]
  · rename_i no
    refine ⟨rfl, rfl, fun _ => rfl, fun page => ?_, fun _ => rfl⟩
    simp [no]

/-- The protection of a section whose pages are committed. -/
theorem protectSection_becomes (paged : ram.pageSize = 4096) (window : ram.size ≤ 2 ^ 31)
    (held : ram.isCommitted sh.virtualAddr sh.virtualSize = true) :
    ram.Becomes ram.committed (fun page => ram.readOnly page || decide (sh.Shields page)) ram.bytes
      (protectSection ram sh) := by
  have positive : 0 < ram.pageSize := by rw [paged]; decide
  obtain ⟨⟨nonempty, inside⟩, each⟩ := (XbeRam.isCommitted_iff positive).mp held
  -- The edge pages are committed in any window with the same pages.
  have edge : ∀ other : XbeRam, other.size = ram.size → other.pageSize = ram.pageSize →
      (∀ page, other.committed page = ram.committed page) → ∀ address, sh.Has address →
      other.isCommitted address 1 = true := by
    intro other sameSize samePage sameCommitted address has
    rw [XbeRam.isCommitted_iff (by rw [samePage]; exact positive), sameSize]
    unfold SectionHeader.Has at has
    refine ⟨⟨by decide, by omega⟩, fun page covered => ?_⟩
    rw [sameCommitted]
    rw [XbeRam.Covers.congr samePage] at covered
    exact each page ⟨Nat.lt_of_le_of_lt has.1 covered.1, Nat.lt_of_lt_of_le covered.2 (by omega)⟩
  unfold protectSection
  rw [Nat.mod_eq_of_lt (by omega)]
  simp only
  have first := shield_becomes positive held (sh.flags &&& kSectionWriteable = 0)
  generalize (if sh.flags &&& kSectionWriteable = 0 then (ram.protectRo sh.virtualAddr sh.virtualSize).1
    else ram) = whole at first ⊢
  have wholeHeld := edge whole first.size first.pageSize first.committed sh.virtualAddr
    ⟨Nat.le_refl _, by omega⟩
  have second := shield_becomes (by rw [first.pageSize]; exact positive) wholeHeld
    (sh.flags &&& kSectionHeadPageReadonly ≠ 0)
  generalize (if sh.flags &&& kSectionHeadPageReadonly ≠ 0 then (whole.protectRo sh.virtualAddr 1).1
    else whole) = head at second ⊢
  have headPaged : head.pageSize = ram.pageSize := second.pageSize.trans first.pageSize
  have headHeld := edge head (second.size.trans first.size) headPaged
    (fun page => (second.committed page).trans (first.committed page)) (sh.virtualAddr + sh.virtualSize - 1)
    ⟨by omega, by omega⟩
  have third := shield_becomes (by rw [headPaged]; exact positive) headHeld
    (sh.flags &&& kSectionTailPageReadonly ≠ 0)
  refine ⟨third.size.trans (second.size.trans first.size), third.pageSize.trans headPaged,
    fun page => ?_, fun page => ?_, fun address => ?_⟩
  · rw [third.committed, second.committed, first.committed]
  · rw [third.readOnly, second.readOnly, first.readOnly]
    simp only [XbeRam.Covers, headPaged, first.pageSize, paged, SectionHeader.Shields, Touches, nonempty, true_and,
      Bool.decide_or, Bool.or_assoc]
  · rw [third.bytes, second.bytes, first.bytes]

/-! ## One turn -/

/-- What a turn of the section loop does. -/
inductive Turn (image : XbeImage) (done : List SectionHeader) (ram : XbeRam) (prevEnd : Nat) (sh : SectionHeader) :
    Load (XbeRam × Nat) → Prop where
  /-- An empty section is passed over. -/
  | skipped : sh.virtualSize = 0 → Turn image done ram prevEnd sh (pure (ram, prevEnd))
  /-- The section overlaps an earlier one, does not fit the window, or has raw bytes for a
  read-only page. -/
  | refused (message : String) : 0 < sh.virtualSize →
      (sh.virtualAddr < prevEnd ∨ ram.size < sh.virtualAddr + sh.virtualSize ∨
        (0 < sh.sizeofRaw ∧ SectionHeader.Blocked done sh)) →
      Turn image done ram prevEnd sh (fail (.rejected message))
  /-- The section has no raw bytes, and clearing it meets a read-only page. -/
  | faults (opened : XbeRam) : 0 < sh.virtualSize → prevEnd ≤ sh.virtualAddr →
      sh.virtualAddr + sh.virtualSize ≤ ram.size → sh.sizeofRaw = 0 → SectionHeader.Blocked done sh →
      opened.Covers sh.virtualAddr sh.virtualSize (sh.virtualAddr / 4096) →
      opened.readOnly (sh.virtualAddr / 4096) = true →
      Turn image done ram prevEnd sh ⟨[.store opened sh.virtualAddr sh.virtualSize], .error .hostFault⟩
  /-- The section is mapped. -/
  | mapped (accesses : List LoadAccess) (next : XbeRam) : 0 < sh.virtualSize → prevEnd ≤ sh.virtualAddr →
      sh.virtualAddr + sh.virtualSize ≤ ram.size → ¬ SectionHeader.Blocked done sh →
      (∀ access ∈ accesses, Admitted sh.rawAddr sh.sizeofRaw sh.virtualAddr sh.virtualSize access) →
      Mapped image (done ++ [sh]) next (sh.virtualAddr + sh.virtualSize) →
      Turn image done ram prevEnd sh ⟨accesses, .ok (next, sh.virtualAddr + sh.virtualSize)⟩

/-- Pages are not empty. -/
theorem Mapped.positive (mapped : Mapped image done ram prevEnd) : 0 < ram.pageSize := by
  rw [mapped.paged]
  decide

/-- The pages that a range covers are those that it touches. -/
theorem Mapped.covers (mapped : Mapped image done ram prevEnd) (addr size page : Nat) :
    ram.Covers addr size page ↔ Touches addr size page := by
  rw [XbeRam.Covers, Touches, mapped.paged]

/-- Committing the pages of a section leaves the protected pages as they are. -/
theorem Mapped.commit (mapped : Mapped image done ram prevEnd) (nonempty : 0 < sh.virtualSize)
    (fits : sh.virtualAddr + sh.virtualSize ≤ ram.size) :
    ∃ opened, ram.commit sh.virtualAddr sh.virtualSize = (opened, true) ∧
      ram.Becomes (fun page => ram.committed page || decide (Touches sh.virtualAddr sh.virtualSize page))
        ram.readOnly ram.bytes opened := by
  obtain ⟨succeeded, becomes⟩ := XbeRam.commit_becomes mapped.positive ⟨nonempty, fits⟩
  refine ⟨(ram.commit sh.virtualAddr sh.virtualSize).1, Prod.ext rfl succeeded, becomes.size, becomes.pageSize,
    fun page => ?_, fun page => ?_, becomes.bytes⟩
  · rw [becomes.committed]
    simp only [mapped.covers]
  · rw [becomes.readOnly]
    cases shielded : ram.readOnly page with
    | false => rfl
    | true =>
      obtain ⟨earlier, member, shields⟩ := (mapped.readOnly page).mp shielded
      have held : ram.committed page = true :=
        (mapped.committed page).mpr (Or.inr ⟨earlier, member, shields.1, shields.touches⟩)
      simp [held]

/-- A new section can meet the protection of earlier ones in its first page only. -/
theorem Mapped.first_page (mapped : Mapped image done ram prevEnd) (above : prevEnd ≤ sh.virtualAddr) {page : Nat}
    (touched : Touches sh.virtualAddr sh.virtualSize page) (shielded : ram.readOnly page = true) :
    page = sh.virtualAddr / 4096 := by
  obtain ⟨earlier, member, shields⟩ := (mapped.readOnly page).mp shielded
  have ends := mapped.ends earlier member shields.1
  have reached := shields.touches
  unfold Touches at reached touched
  omega

/-- A section behind all others may be written once it is committed. -/
theorem Mapped.writable (mapped : Mapped image done ram prevEnd) (above : prevEnd ≤ sh.virtualAddr)
    (fits : sh.virtualAddr + sh.virtualSize ≤ ram.size) {opened : XbeRam}
    (opens : ram.Becomes (fun page => ram.committed page || decide (Touches sh.virtualAddr sh.virtualSize page))
      ram.readOnly ram.bytes opened) {count : Nat} (positive : 0 < count) (part : count ≤ sh.virtualSize) :
    opened.writable sh.virtualAddr count = true ↔ ¬ SectionHeader.Blocked done sh := by
  have paged : 0 < opened.pageSize := by
    rw [opens.pageSize]
    exact mapped.positive
  have covers : ∀ page, opened.Covers sh.virtualAddr count page ↔ Touches sh.virtualAddr count page := by
    intro page
    rw [XbeRam.Covers.congr opens.pageSize, mapped.covers]
  rw [XbeRam.writable_iff paged, opens.size, SectionHeader.Blocked, ← mapped.readOnly, Bool.not_eq_true]
  constructor
  · rintro ⟨_, each⟩
    have first := (each (sh.virtualAddr / 4096) ((covers _).mpr (by unfold Touches; omega))).2
    rw [opens.readOnly] at first
    exact first
  · intro clear
    refine ⟨⟨positive, by omega⟩, fun page covered => ?_⟩
    have touched : Touches sh.virtualAddr sh.virtualSize page := by
      have range := (covers page).mp covered
      exact ⟨range.1, Nat.lt_of_lt_of_le range.2 (by omega)⟩
    rw [opens.committed, opens.readOnly]
    refine ⟨by simp [touched], Bool.eq_false_iff.mpr (fun shielded => ?_)⟩
    rw [mapped.first_page above touched shielded, clear] at shielded
    cases shielded

/-- The window with one more section. -/
theorem Mapped.extend (mapped : Mapped image done ram prevEnd) (nonempty : 0 < sh.virtualSize)
    (above : prevEnd ≤ sh.virtualAddr) (fits : sh.virtualAddr + sh.virtualSize ≤ ram.size)
    (raw : sh.sizeofRaw ≤ sh.virtualSize) {next : XbeRam}
    (becomes : ram.Becomes (fun page => ram.committed page || decide (Touches sh.virtualAddr sh.virtualSize page))
      (fun page => ram.readOnly page || decide (sh.Shields page))
      (fun address => if sh.Has address then filled image.file sh (address - sh.virtualAddr)
        else ram.bytes address) next) :
    Mapped image (done ++ [sh]) next (sh.virtualAddr + sh.virtualSize) := by
  -- The new section has no byte of an earlier one.
  have apart : ∀ earlier ∈ done, ∀ address, earlier.Has address → ¬ sh.Has address := by
    intro earlier member address has hasToo
    unfold SectionHeader.Has at has hasToo
    have ends := mapped.ends earlier member (by omega)
    omega
  have kept : ∀ earlier ∈ done, ∀ index < earlier.virtualSize,
      next.bytes (earlier.virtualAddr + index) = ram.bytes (earlier.virtualAddr + index) := by
    intro earlier member index inside
    rw [becomes.bytes, if_neg (apart earlier member _ ⟨by omega, by omega⟩)]
  have fresh : ∀ index < sh.virtualSize, next.bytes (sh.virtualAddr + index) = filled image.file sh index := by
    intro index inside
    rw [becomes.bytes, if_pos ⟨by omega, by omega⟩, Nat.add_sub_cancel_left]
  have members : ∀ {other : SectionHeader}, other ∈ done ++ [sh] → other ∈ done ∨ other = sh := by
    intro other member
    rwa [List.mem_append, List.mem_singleton] at member
  refine ⟨by rw [becomes.size]; exact mapped.size, becomes.pageSize.trans mapped.paged,
    by rw [becomes.size]; exact fits, fun other member => ?_, fun other member positive => ?_, ?_, fun page => ?_,
    fun page => ?_, fun other member index inside => ?_, fun other member index inside behind => ?_,
    fun index inside uncovered => ?_, fun address out uncovered => ?_⟩
  · rcases members member with old | rfl
    · exact mapped.fits other old
    · exact raw
  · rcases members member with old | rfl
    · exact Nat.le_trans (mapped.ends other old positive) (by omega)
    · exact Nat.le_refl _
  · refine List.pairwise_append.mpr ⟨mapped.ordered, List.pairwise_singleton _ _, fun other member last new => ?_⟩
    rw [List.mem_singleton.mp new]
    exact fun positive _ => Nat.le_trans (mapped.ends other member positive) above
  · rw [becomes.committed, Bool.or_eq_true, mapped.committed, decide_eq_true_iff, or_assoc]
    simp only [List.mem_append, List.mem_singleton, or_and_right, exists_or, exists_eq_left, nonempty, true_and]
  · rw [becomes.readOnly, Bool.or_eq_true, mapped.readOnly, decide_eq_true_iff]
    simp only [List.mem_append, List.mem_singleton, or_and_right, exists_or, exists_eq_left]
  · rcases members member with old | rfl
    · have small := mapped.fits other old
      rw [kept other old index (by omega)]
      exact mapped.raw other old index inside
    · rw [fresh index (by omega), filled, if_pos inside]
  · rcases members member with old | rfl
    · rw [kept other old index inside]
      exact mapped.rest other old index inside behind
    · rw [fresh index inside, filled, if_neg (by omega)]
  · rw [becomes.bytes, if_neg (uncovered sh (by simp))]
    exact mapped.headers index inside (fun other member => uncovered other (List.mem_append_left _ member))
  · rw [becomes.bytes, if_neg (uncovered sh (by simp))]
    exact mapped.outside address out (fun other member => uncovered other (List.mem_append_left _ member))

/-- The four outcomes of a turn.

Proof: along the checks of `mapSection`. When the commit succeeds, what decides is whether a page of
the section is read-only already: then the copy is refused, or with no raw bytes the clearing
faults; otherwise the section is filled and protected. -/
theorem Mapped.turn (mapped : Mapped image done ram prevEnd) (raw : sh.sizeofRaw ≤ sh.virtualSize) :
    Turn image done ram prevEnd sh (image.mapSection (ram, prevEnd) sh) := by
  unfold mapSection
  simp only [require]
  by_cases empty : sh.virtualSize = 0
  · rw [if_pos empty]
    exact Turn.skipped empty
  have nonempty : 0 < sh.virtualSize := Nat.pos_of_ne_zero empty
  rw [if_neg empty]
  by_cases above : prevEnd ≤ sh.virtualAddr
  · rw [check_of _ above, pure_bind_eq]
    by_cases fits : sh.virtualAddr + sh.virtualSize ≤ ram.size
    · obtain ⟨opened, commits, opens⟩ := mapped.commit nonempty fits
      have window : opened.size ≤ 2 ^ 31 := by
        rw [opens.size, mapped.size]
        decide
      have paged : opened.pageSize = 4096 := opens.pageSize.trans mapped.paged
      have positive : 0 < opened.pageSize := by
        rw [paged]
        decide
      have held : opened.isCommitted sh.virtualAddr sh.virtualSize = true := by
        rw [XbeRam.isCommitted_iff positive, opens.size]
        refine ⟨⟨nonempty, fits⟩, fun page covered => ?_⟩
        have touched := (mapped.covers _ _ page).mp ((XbeRam.Covers.congr opens.pageSize).mp covered)
        rw [opens.committed]
        simp [touched]
      rw [commits, check_of _ rfl, pure_bind_eq]
      by_cases blocked : SectionHeader.Blocked done sh
      · by_cases nonEmpty : 0 < sh.sizeofRaw
        · have closed : opened.writable sh.virtualAddr sh.sizeofRaw = false := by
            rw [← Bool.not_eq_true, mapped.writable above fits opens nonEmpty raw]
            exact not_not_intro blocked
          rw [copyRaw, if_pos nonEmpty, copyIn_refused _ closed, fail_bind]
          exact Turn.refused _ nonempty (Or.inr (Or.inr ⟨nonEmpty, blocked⟩))
        · have empty : sh.sizeofRaw = 0 := Nat.eq_zero_of_not_pos nonEmpty
          have closed : opened.writable sh.virtualAddr sh.virtualSize = false := by
            rw [← Bool.not_eq_true, mapped.writable above fits opens nonempty (Nat.le_refl _)]
            exact not_not_intro blocked
          rw [copyRaw, if_neg nonEmpty, pure_bind_eq, clearRest_faults empty nonempty window positive held closed]
          refine Turn.faults opened nonempty above fits empty blocked ?_ ?_
          · rw [XbeRam.Covers, paged]
            omega
          · rw [opens.readOnly, mapped.readOnly]
            exact blocked
      · have usable := (mapped.writable above fits opens nonempty (Nat.le_refl _)).mpr blocked
        obtain ⟨early, copied, late, cleared, copies, clears, good, fills⟩ := fill_spec image positive usable window raw
        have clearedHeld : cleared.isCommitted sh.virtualAddr sh.virtualSize = true := by
          rw [XbeRam.isCommitted_iff (by rw [fills.pageSize]; exact positive), fills.size]
          rw [XbeRam.isCommitted_iff positive] at held
          refine ⟨held.1, fun page covered => ?_⟩
          rw [fills.committed]
          exact held.2 page ((XbeRam.Covers.congr fills.pageSize).mp covered)
        have protects := protectSection_becomes (fills.pageSize.trans paged)
          (by rw [fills.size]; exact window) clearedHeld
        rw [copies, bind_of_ok rfl, bind_of_ok (congrArg outcome clears), clears]
        simp only [accesses_pure, outcome_pure, List.append_nil]
        refine Turn.mapped _ _ nonempty above fits blocked good (mapped.extend nonempty above fits raw ?_)
        refine ⟨protects.size.trans (fills.size.trans opens.size),
          protects.pageSize.trans (fills.pageSize.trans opens.pageSize), fun page => ?_, fun page => ?_,
          fun address => ?_⟩
        · rw [protects.committed, fills.committed, opens.committed]
        · rw [protects.readOnly, fills.readOnly, opens.readOnly]
        · rw [protects.bytes, fills.bytes, opens.bytes]
    · have failed : (ram.commit sh.virtualAddr sh.virtualSize).2 = false := by
        rw [← Bool.not_eq_true, XbeRam.commit_ok]
        omega
      rw [check_not _ (by rw [failed]; decide), fail_bind]
      exact Turn.refused _ nonempty (by omega)
  · rw [check_not _ above, fail_bind]
    exact Turn.refused _ nonempty (by omega)

/-! ## The whole loop -/

/-- The end of the last nonempty section. -/
def lastEnd (sections : List SectionHeader) : Nat :=
  sections.foldl (fun prevEnd sh => if sh.virtualSize = 0 then prevEnd else sh.virtualAddr + sh.virtualSize) 0

/-- The section is empty, or lies behind the earlier ones, in the window, and does not
start on a page they have made read-only. -/
def Passes (done : List SectionHeader) (sh : SectionHeader) : Prop :=
  sh.virtualSize = 0 ∨ (lastEnd done ≤ sh.virtualAddr ∧ sh.virtualAddr + sh.virtualSize ≤ 64 * 1024 * 1024 ∧
    ¬ SectionHeader.Blocked done sh)

/-- All sections pass, one after the other. -/
def PassAll (done : List SectionHeader) : List SectionHeader → Prop
  | [] => True
  | sh :: rest => Passes done sh ∧ PassAll (done ++ [sh]) rest

/-- One more section passes after the others. -/
theorem passAll_snoc (done sections : List SectionHeader) (sh : SectionHeader) :
    PassAll done (sections ++ [sh]) ↔ PassAll done sections ∧ Passes (done ++ sections) sh := by
  induction sections generalizing done with
  | nil => simp [PassAll]
  | cons first rest inductionHypothesis => simp [PassAll, inductionHypothesis, and_assoc]

/-- The end is that of the last section that is not empty. -/
theorem lastEnd_snoc (sections : List SectionHeader) (sh : SectionHeader) : lastEnd (sections ++ [sh]) =
    if sh.virtualSize = 0 then lastEnd sections else sh.virtualAddr + sh.virtualSize := by
  simp [lastEnd, List.foldl_append]

/-- An empty section changes nothing. -/
theorem Mapped.skip (mapped : Mapped image done ram prevEnd) (raw : sh.sizeofRaw ≤ sh.virtualSize)
    (empty : sh.virtualSize = 0) : Mapped image (done ++ [sh]) ram prevEnd := by
  have members : ∀ {other : SectionHeader}, other ∈ done ++ [sh] → other ∈ done ∨ other = sh := by
    intro other member
    rwa [List.mem_append, List.mem_singleton] at member
  refine ⟨mapped.size, mapped.paged, mapped.bounded, fun other member => ?_, fun other member positive => ?_, ?_,
    fun page => ?_, fun page => ?_, fun other member index inside => ?_, fun other member index inside behind => ?_,
    fun index inside uncovered => ?_, fun address out uncovered => ?_⟩
  · rcases members member with old | rfl
    · exact mapped.fits other old
    · exact raw
  · rcases members member with old | rfl
    · exact mapped.ends other old positive
    · omega
  · refine List.pairwise_append.mpr ⟨mapped.ordered, List.pairwise_singleton _ _, fun other member last new => ?_⟩
    rw [List.mem_singleton.mp new]
    exact fun _ positive => by omega
  · rw [mapped.committed]
    simp [or_and_right, exists_or, empty]
  · rw [mapped.readOnly]
    simp [or_and_right, exists_or, SectionHeader.Shields, empty]
  · rcases members member with old | rfl
    · exact mapped.raw other old index inside
    · omega
  · rcases members member with old | rfl
    · exact mapped.rest other old index inside behind
    · omega
  · exact mapped.headers index inside (fun other member => uncovered other (List.mem_append_left _ member))
  · exact mapped.outside address out (fun other member => uncovered other (List.mem_append_left _ member))

/-- A turn ends with a window exactly when the section passes. -/
theorem Mapped.turn_ok (mapped : Mapped image done ram prevEnd) (ended : prevEnd = lastEnd done)
    (raw : sh.sizeofRaw ≤ sh.virtualSize) :
    (∀ state, (image.mapSection (ram, prevEnd) sh).outcome = .ok state →
      Mapped image (done ++ [sh]) state.1 state.2 ∧ state.2 = lastEnd (done ++ [sh])) ∧
    ((∃ state, (image.mapSection (ram, prevEnd) sh).outcome = .ok state) ↔ Passes done sh) := by
  have turn := mapped.turn raw
  have window := mapped.size
  rw [lastEnd_snoc, ← ended]
  unfold Passes
  rw [← ended]
  generalize image.mapSection (ram, prevEnd) sh = outcome at turn
  cases turn with
  | skipped empty =>
    refine ⟨fun state same => ?_, iff_of_true ⟨(ram, prevEnd), rfl⟩ (Or.inl empty)⟩
    cases same
    exact ⟨mapped.skip raw empty, (if_pos empty).symm⟩
  | refused message nonempty bad =>
    refine ⟨fun state same => (by cases same), iff_of_false (by rintro ⟨state, same⟩; cases same) ?_⟩
    rintro (empty | ⟨above, fits, clear⟩)
    · omega
    · rcases bad with overlaps | large | ⟨_, blocked⟩
      · omega
      · omega
      · exact clear blocked
  | faults opened nonempty above fits nothing blocked touched shielded =>
    refine ⟨fun state same => (by cases same), iff_of_false (by rintro ⟨state, same⟩; cases same) ?_⟩
    rintro (empty | ⟨_, _, clear⟩)
    · omega
    · exact clear blocked
  | mapped accesses next nonempty above fits clear good after =>
    refine ⟨fun state same => ?_, iff_of_true ⟨_, rfl⟩ (Or.inr ⟨above, by omega, clear⟩)⟩
    cases same
    exact ⟨after, (if_neg (by omega)).symm⟩

/-- The loop ends with a window exactly when all sections pass. -/
theorem Mapped.loop (start : Mapped image [] ram 0) (sections : List SectionHeader)
    (raws : ∀ sh ∈ sections, sh.sizeofRaw ≤ sh.virtualSize) :
    (∀ state, (sections.foldlM image.mapSection (ram, 0)).outcome = .ok state →
      Mapped image sections state.1 state.2 ∧ state.2 = lastEnd sections) ∧
    ((∃ state, (sections.foldlM image.mapSection (ram, 0)).outcome = .ok state) ↔ PassAll [] sections) := by
  induction sections using List.reverseRecOn with
  | nil =>
    refine ⟨fun state same => ?_, iff_of_true ⟨(ram, 0), rfl⟩ trivial⟩
    cases same
    exact ⟨start, rfl⟩
  | append_singleton sections sh inductionHypothesis =>
    obtain ⟨mapped, passing⟩ := inductionHypothesis (fun other member => raws other (List.mem_append_left _ member))
    have raw : sh.sizeofRaw ≤ sh.virtualSize := raws sh (by simp)
    have turn := fun middle reached =>
      (mapped middle reached).1.turn_ok (mapped middle reached).2 raw
    refine ⟨fun state reached => ?_, ?_⟩
    · obtain ⟨middle, before, last⟩ := outcome_foldlM_snoc.mp reached
      exact (turn middle before).1 state last
    · rw [passAll_snoc, List.nil_append, ← passing]
      constructor
      · rintro ⟨state, reached⟩
        obtain ⟨middle, before, last⟩ := outcome_foldlM_snoc.mp reached
        exact ⟨⟨middle, before⟩, (turn middle before).2.mp ⟨state, last⟩⟩
      · rintro ⟨⟨middle, before⟩, passes⟩
        obtain ⟨state, last⟩ := (turn middle before).2.mpr passes
        exact ⟨state, outcome_foldlM_snoc.mpr ⟨middle, before, last⟩⟩

/-! ## The whole image -/

/-- The header block fits the window. -/
def HeaderFits (image : XbeImage) : Prop :=
  image.header.baseAddr + image.header.sizeofHeaders ≤ 64 * 1024 * 1024

/-- The headers are copied into an open window, and the loop starts from there. -/
theorem map_started (nonempty : 0 < image.header.sizeofHeaders) (fits : image.HeaderFits) :
    ∃ opened copied, 0 < opened.pageSize ∧
      opened.writable image.header.baseAddr image.header.sizeofHeaders = true ∧ Mapped image [] copied 0 ∧
      image.map = (⟨[.read 0 image.header.sizeofHeaders,
          .store opened image.header.baseAddr image.header.sizeofHeaders], .ok copied⟩ : Load XbeRam) >>=
        fun copied => image.sections.foldlM image.mapSection (copied, 0) >>= fun state => pure state.1 := by
  have paged : 0 < ({} : XbeRam).pageSize := by decide
  have inside : 0 < image.header.sizeofHeaders ∧
      image.header.baseAddr + image.header.sizeofHeaders ≤ ({} : XbeRam).size := ⟨nonempty, fits⟩
  obtain ⟨succeeded, opens⟩ := XbeRam.commit_becomes paged inside
  unfold map
  simp only [require]
  rw [check_of _ succeeded, pure_bind_eq]
  generalize (({} : XbeRam).commit image.header.baseAddr image.header.sizeofHeaders).1 = opened at opens
  have openedPaged : opened.pageSize = 4096 := opens.pageSize
  have usable : opened.writable image.header.baseAddr image.header.sizeofHeaders = true := by
    rw [XbeRam.writable_iff (by rw [openedPaged]; decide), opens.size]
    refine ⟨inside, fun page covered => ?_⟩
    have touched := (XbeRam.Covers.congr opens.pageSize).mp covered
    rw [opens.committed, opens.readOnly]
    exact ⟨by simp [touched], rfl⟩
  obtain ⟨copied, copies, becomes⟩ := copyIn_spec image.file 0 "cannot copy header block" usable
  refine ⟨opened, copied, by rw [openedPaged]; decide, usable, ?_, by rw [copies]⟩
  have uncovered : ∀ address, ¬ (image.header.baseAddr ≤ address ∧
      address < image.header.baseAddr + image.header.sizeofHeaders) → copied.bytes address = 0 := by
    intro address out
    rw [becomes.bytes, if_neg out, opens.bytes]
  refine ⟨becomes.size.trans opens.size, becomes.pageSize.trans openedPaged, Nat.zero_le _, by simp, by simp,
    List.Pairwise.nil, fun page => ?_, fun page => ?_, by simp, by simp, fun index within _ => ?_,
    fun address out _ => uncovered address out⟩
  · rw [becomes.committed, opens.committed]
    simp only [Bool.false_or, decide_eq_true_eq, List.not_mem_nil, false_and, exists_false, or_false]
    exact Iff.rfl
  · rw [becomes.readOnly, opens.readOnly]
    simp
  · rw [becomes.bytes, if_pos ⟨by omega, by omega⟩]
    simp

/-- Headers that do not fit are refused before anything is touched. -/
theorem map_refused (large : ¬ image.HeaderFits) :
    image.map = fail (.rejected "cannot commit header pages") := by
  have failed : (({} : XbeRam).commit image.header.baseAddr image.header.sizeofHeaders).2 = false := by
    rw [← Bool.not_eq_true, XbeRam.commit_ok]
    exact fun both => large both.2
  unfold map
  simp only [require]
  rw [check_not _ (by rw [failed]; decide), fail_bind]

end XbeImage

end SeriesxEmu
