import SeriesxEmu.LoadedXbe

/-!
# What parsing ensures

Every read of the parser stays in the file: each one is traced to the check in front
of it. Of an accepted file it is known that the image lies in the 32-bit space with
its headers inside, that the raw bytes of every section are in the file and fit the
section, and that the extent bounds the image and all sections.
-/

namespace SeriesxEmu

/-- The access reads bytes of the file. -/
def InFile (file : ByteVector) : LoadAccess → Prop
  | .read first count => first + count ≤ file.size
  | .store .. => False

namespace XbeImage

open Load Traced

variable {file : ByteVector} {image : XbeImage} {off count : Nat}

/-- A half word takes 16 bits. -/
theorem half_lt (file : ByteVector) (off : Nat) : file.half off < 2 ^ 16 := by
  have low := (file.byte off).toNat_lt
  have high := (file.byte (off + 1)).toNat_lt
  rw [ByteVector.half]
  omega

/-- A word takes 32. -/
theorem word_lt (file : ByteVector) (off : Nat) : file.word off < 2 ^ 32 := by
  have low := half_lt file off
  have high := half_lt file (off + 2)
  rw [ByteVector.word]
  omega

/-! ## The readers -/

/-- A word inside the file is read there. -/
theorem ensures_rd32 (inside : off + 4 ≤ file.size) :
    Ensures (InFile file) (fun value => value = file.word off) (rd32 file off) :=
  ensures_bind (ensures_perform inside) (fun _ _ => ensures_pure rfl)

/-- So is a half word. -/
theorem ensures_rd16 (inside : off + 2 ≤ file.size) :
    Ensures (InFile file) (fun value => value = file.half off) (rd16 file off) :=
  ensures_bind (ensures_perform inside) (fun _ _ => ensures_pure rfl)

/-- So is a byte. -/
theorem ensures_rd8 (inside : off < file.size) :
    Ensures (InFile file) (fun value => value = file.byte off) (rd8 file off) := by
  have admitted : InFile file (.read off 1) := inside
  exact ensures_bind (ensures_perform admitted) (fun _ _ => ensures_pure rfl)

/-- A range inside the file is copied. -/
theorem ensures_copyOut (inside : off + count ≤ file.size) :
    Ensures (InFile file) (fun _ => True) (copyOut file off count) :=
  ensures_bind (ensures_perform inside) (fun _ _ => ensures_pure trivial)

/-- Words one after the other are read inside it. -/
theorem ensures_rd32s (inside : off + 4 * count ≤ file.size) :
    Ensures (InFile file) (fun _ => True) (rd32s file off count) := by
  induction count generalizing off with
  | zero => exact ensures_pure trivial
  | succ count inductionHypothesis =>
    refine ensures_bind (ensures_rd32 (by omega)) (fun _ _ => ?_)
    exact ensures_bind (inductionHypothesis (by omega)) (fun _ _ => ensures_pure trivial)

/-- So are the letters of a title. -/
theorem ensures_readTitle (inside : off + 2 * count ≤ file.size) :
    Ensures (InFile file) (fun _ => True) (readTitle file off count) := by
  induction count generalizing off with
  | zero => exact ensures_pure trivial
  | succ count inductionHypothesis =>
    refine ensures_bind (ensures_rd16 (by omega)) (fun character _ => ?_)
    split
    · exact ensures_pure trivial
    · exact ensures_bind (inductionHypothesis (by omega)) (fun _ _ => ensures_pure trivial)

/-- A string is read byte by byte, and every byte is checked against the file. -/
theorem ensures_cstringFrom (room off : Nat) :
    Ensures (InFile file) (fun _ => True) (cstringFrom file room off) := by
  induction room generalizing off with
  | zero => exact ensures_pure trivial
  | succ room inductionHypothesis =>
    rw [cstringFrom]
    split
    · rename_i inside
      refine ensures_bind (ensures_rd8 inside) (fun character _ => ?_)
      split
      · exact ensures_pure trivial
      · exact ensures_bind (inductionHypothesis _) (fun _ _ => ensures_pure trivial)
    · exact ensures_pure trivial

/-- A string is read up to its end or that of the file, never beyond. -/
theorem ensures_cstring (va : Nat) : Ensures (InFile image.file) (fun _ => True) (image.cstring va) := by
  unfold cstring
  split
  · exact ensures_pure trivial
  · exact ensures_cstringFrom _ _

/-! ## The stages of the parser -/

/-- The header as the checks leave it. -/
structure HeaderOk (image : XbeImage) : Prop where
  base : image.header.baseAddr = image.file.word 0x104
  headers : image.header.sizeofHeaders = image.file.word 0x108
  positive : 0 < image.header.baseAddr
  fits : image.header.baseAddr + image.header.sizeofImage ≤ 0xFFFFFFFF
  inside : image.header.sizeofHeaders ≤ image.header.sizeofImage

/-- The raw bytes of a section are in the file and fit the section. -/
structure EntryOk (file : ByteVector) (sh : SectionHeader) : Prop where
  word : sh.virtualAddr < 2 ^ 32
  raw : sh.rawAddr + sh.sizeofRaw ≤ file.size
  fits : sh.sizeofRaw ≤ sh.virtualSize

/-- The later stage keeps the file and the header. -/
def SameFile (image next : XbeImage) : Prop := next.file = image.file ∧ next.header = image.header

/-- The later stage keeps the section table and the extent as well. -/
def SameTable (image next : XbeImage) : Prop :=
  SameFile image next ∧ next.sections = image.sections ∧ next.imageEndAbs = image.imageEndAbs

/-- The later stage keeps the decoded addresses and the TLS mark as well. -/
structure Keeps (image next : XbeImage) : Prop where
  table : SameTable image next
  entry : next.entryVa = image.entryVa
  thunk : next.kernelThunkVa = image.kernelThunkVa
  tls : next.tlsPresent = image.tlsPresent

/-- The header is read inside the file, and its numbers are checked. -/
theorem ensures_parseHeader : Ensures (InFile file)
    (fun image => image.file = file ∧ image.sections = [] ∧ image.tlsPresent = false ∧ image.HeaderOk)
    (parseHeader { file }) := by
  refine ensures_bind (ensures_check _ _) (fun _ large => ?_)
  have size : 0x178 ≤ file.size := large
  refine ensures_bind (ensures_rd32 (by omega)) (fun magic _ => ?_)
  refine ensures_bind (ensures_check _ _) (fun _ _ => ?_)
  refine ensures_bind (ensures_rd32 (by omega)) (fun baseAddr base => ?_)
  refine ensures_bind (ensures_rd32 (by omega)) (fun sizeofHeaders headers => ?_)
  refine ensures_bind (ensures_rd32 (by omega)) (fun sizeofImage image => ?_)
  iterate 26 refine ensures_bind (ensures_rd32 (by omega)) (fun _ _ => ?_)
  refine ensures_bind (ensures_check _ _) (fun _ sane => ?_)
  refine ensures_bind (ensures_check _ _) (fun _ inside => ?_)
  have bounded := word_lt file 0x10C
  refine ensures_pure ⟨rfl, rfl, rfl, base, headers, ?_, ?_, inside⟩
  · exact Nat.pos_of_ne_zero sane.1
  · simp only
    omega

/-- An offset that the header block gives lies in the file and in the headers. -/
theorem headerOffset_lt {va : Nat} (found : image.headerOffset va = some off) :
    off < image.header.sizeofHeaders ∧ off < image.file.size ∧ image.header.baseAddr + off = va := by
  simp only [headerOffset, Option.ite_none_left_eq_some, Option.some.injEq] at found
  omega

/-- The certificate is read inside the file and changes nothing else. -/
theorem ensures_parseCertificate : Ensures (InFile image.file)
    (fun next => Keeps image next ∧ 0 < image.header.sizeofHeaders) (parseCertificate image) := by
  refine ensures_bind (ensures_check _ _) (fun _ _ => ?_)
  split
  · exact ensures_fail _
  · rename_i off found
    have position := headerOffset_lt found
    refine ensures_bind (ensures_check _ _) (fun _ large => ?_)
    have size : off + 0x1D0 ≤ image.file.size := large
    iterate 3 refine ensures_bind (ensures_rd32 (by omega)) (fun _ _ => ?_)
    refine ensures_bind (ensures_readTitle (by omega)) (fun _ _ => ?_)
    refine ensures_bind (ensures_rd32s (by omega)) (fun _ _ => ?_)
    iterate 5 refine ensures_bind (ensures_rd32 (by omega)) (fun _ _ => ?_)
    exact ensures_pure ⟨⟨⟨⟨rfl, rfl⟩, rfl, rfl⟩, rfl, rfl, rfl⟩, by omega⟩

/-- The name of a section is read inside the file. -/
theorem ensures_sectionName {va : Nat} (inside : off + 0x38 ≤ image.file.size) :
    Ensures (InFile image.file) (fun _ => True) (sectionName image va off) := by
  refine ensures_bind (ensures_cstring va) (fun found _ => ?_)
  split
  · exact ensures_bind (ensures_copyOut (by omega)) (fun _ _ => ensures_pure trivial)
  · exact ensures_pure trivial

/-- One entry of the section table: the name is read where the entry says, but never
past the file, and the raw bytes are checked before the entry is kept. -/
theorem ensures_parseSection (inside : off + kSectionHeaderSize ≤ image.file.size) :
    Ensures (InFile image.file)
      (fun next => SameFile image next ∧ next.tlsPresent = image.tlsPresent ∧
        ∃ sh, next.sections = image.sections ++ [sh] ∧ EntryOk image.file sh)
      (parseSection image off) := by
  have size : off + 0x38 ≤ image.file.size := inside
  refine ensures_bind (ensures_rd32 (by omega)) (fun flags _ => ?_)
  refine ensures_bind (ensures_rd32 (by omega)) (fun virtualAddr read => ?_)
  have word : virtualAddr < 2 ^ 32 := read ▸ word_lt _ _
  iterate 7 refine ensures_bind (ensures_rd32 (by omega)) (fun _ _ => ?_)
  refine ensures_bind (ensures_sectionName size) (fun name _ => ?_)
  refine ensures_bind (ensures_check _ _) (fun _ raw => ?_)
  refine ensures_bind (ensures_check _ _) (fun _ fits => ?_)
  exact ensures_pure ⟨⟨rfl, rfl⟩, rfl, _, rfl, word, raw, fits⟩

/-- Every section that is kept has been checked against the file. -/
theorem ensures_parseSections (empty : image.sections = []) : Ensures (InFile image.file)
    (fun next => SameFile image next ∧ next.tlsPresent = image.tlsPresent ∧
      ∀ sh ∈ next.sections, EntryOk image.file sh) (parseSections image) := by
  unfold parseSections
  split
  · split
    · exact ensures_fail _
    · rename_i off found
      refine ensures_bind (ensures_check _ _) (fun _ large => ?_)
      -- The entries read so far are kept, whatever was read.
      refine ensures_foldlM (fun _ next => SameFile image next ∧ next.tlsPresent = image.tlsPresent ∧
        ∀ sh ∈ next.sections, EntryOk image.file sh) _
        (fun _ index next member kept => ?_) [] image ⟨⟨rfl, rfl⟩, rfl, by simp [empty]⟩
      obtain ⟨⟨sameFile, sameHeader⟩, sameTls, good⟩ := kept
      have below := List.mem_range.mp member
      have room : kSectionHeaderSize * (index + 1) ≤ kSectionHeaderSize * image.header.numSections :=
        Nat.mul_le_mul_left _ below
      have entry : off + kSectionHeaderSize * index + kSectionHeaderSize ≤ next.file.size := by
        rw [sameFile]
        rw [Nat.mul_succ] at room
        omega
      rw [← sameFile]
      refine (ensures_parseSection entry).mono (fun later kept => ?_)
      obtain ⟨⟨laterFile, laterHeader⟩, laterTls, sh, appended, raw⟩ := kept
      refine ⟨⟨laterFile.trans sameFile, laterHeader.trans sameHeader⟩, laterTls.trans sameTls,
        fun other inside => ?_⟩
      rw [appended] at inside
      rcases List.mem_append.mp inside with old | new
      · rw [sameFile]
        exact good other old
      · rw [List.mem_singleton.mp new]
        exact raw
  · exact ensures_pure ⟨⟨rfl, rfl⟩, rfl, by simp [empty]⟩

/-- Nonempty sections lie above the base, and no section ends past the extent. -/
structure Extended (base : Nat) (sections : List SectionHeader) (start extent : Nat) : Prop where
  start : start ≤ extent
  space : extent ≤ 0xFFFFFFFF
  above : ∀ sh ∈ sections, 0 < sh.virtualSize → base ≤ sh.virtualAddr
  ends : ∀ sh ∈ sections, sh.virtualAddr + sh.virtualSize ≤ extent

/-- The extent is that of the image or the end of a section. -/
def Attained (sections : List SectionHeader) (start extent : Nat) : Prop :=
  extent = start ∨ ∃ sh ∈ sections, extent = sh.virtualAddr + sh.virtualSize

/-- The decoded addresses lie in the image. -/
structure Located (image : XbeImage) : Prop where
  entryAbove : image.header.baseAddr ≤ image.entryVa
  entryBelow : image.entryVa < image.imageEndAbs
  thunkAbove : image.header.baseAddr ≤ image.kernelThunkVa
  thunkBelow : image.kernelThunkVa < image.imageEndAbs

/-- The TLS directory as the checks leave it. -/
structure TlsOk (image : XbeImage) : Prop where
  above : image.header.baseAddr ≤ image.tls.dataStart
  inside : image.tls.dataStart < image.imageEndAbs
  ordered : image.tls.dataStart ≤ image.tls.dataEnd
  below : image.tls.dataEnd ≤ image.imageEndAbs
  indexAbove : image.header.baseAddr ≤ image.tls.indexAddr
  indexBelow : image.tls.indexAddr < image.imageEndAbs
  fill : image.tls.zeroFill < 2 ^ 32

/-- The extent grows by one section, without a wrap. -/
theorem ensures_extend {base start extent : Nat} {done : List SectionHeader} {sh : SectionHeader}
    (word : sh.virtualAddr < 2 ^ 32) (extended : Extended base done start extent)
    (attained : Attained done start extent) :
    Ensures (InFile file) (fun extent => Extended base (done ++ [sh]) start extent ∧ Attained (done ++ [sh]) start extent)
      (extend base extent sh) := by
  refine ensures_bind (ensures_check _ _) (fun _ room => ?_)
  refine ensures_bind (ensures_check _ _) (fun _ above => ?_)
  have bound := extended.space
  refine ensures_pure ⟨⟨Nat.le_trans extended.start (Nat.le_max_left _ _), by omega, fun other member => ?_,
    fun other member => ?_⟩, ?_⟩
  · rcases List.mem_append.mp member with old | new
    · exact extended.above other old
    · rw [List.mem_singleton.mp new]
      omega
  · rcases List.mem_append.mp member with old | new
    · exact Nat.le_trans (extended.ends other old) (Nat.le_max_left _ _)
    · rw [List.mem_singleton.mp new]
      exact Nat.le_max_right _ _
  · rcases Nat.le_total (sh.virtualAddr + sh.virtualSize) extent with behind | beyond
    · rw [Nat.max_eq_left behind]
      rcases attained with same | ⟨other, member, same⟩
      · exact Or.inl same
      · exact Or.inr ⟨other, List.mem_append_left _ member, same⟩
    · rw [Nat.max_eq_right beyond]
      exact Or.inr ⟨sh, by simp, rfl⟩

/-- In the end it covers all sections, and is attained by one of them or by the headers.

Proof: induction on the sections that are left, with those that are done as the invariant. -/
theorem ensures_parseExtent (header : image.HeaderOk) (entries : ∀ sh ∈ image.sections, EntryOk image.file sh) :
    Ensures (InFile image.file) (fun next => SameFile image next ∧ next.sections = image.sections ∧
      next.tlsPresent = image.tlsPresent ∧
      Extended image.header.baseAddr image.sections (image.header.baseAddr + image.header.sizeofImage)
        next.imageEndAbs ∧
      Attained image.sections (image.header.baseAddr + image.header.sizeofImage) next.imageEndAbs ∧
      Located next) (parseExtent image) := by
  generalize startEq : image.header.baseAddr + image.header.sizeofImage = start
  have looped : Ensures (InFile image.file)
      (fun extent => Extended image.header.baseAddr image.sections start extent ∧ Attained image.sections start extent)
      (image.sections.foldlM (extend image.header.baseAddr) start) :=
    ensures_foldlM
      (fun done extent => Extended image.header.baseAddr done start extent ∧ Attained done start extent) image.sections
      (fun done sh extent member kept => ensures_extend (entries sh member).word kept.1 kept.2) [] start
      ⟨⟨Nat.le_refl _, startEq ▸ header.fits, by simp, by simp⟩, Or.inl rfl⟩
  unfold parseExtent
  simp only [startEq]
  refine ensures_bind looped (fun extent kept => ?_)
  obtain ⟨extended, attained⟩ := kept
  have bound := extended.space
  rw [Nat.mod_eq_of_lt (by omega : extent < 2 ^ 32)]
  refine ensures_bind (ensures_check _ _) (fun _ entry => ?_)
  refine ensures_bind (ensures_check _ _) (fun _ thunk => ?_)
  exact ensures_pure ⟨⟨rfl, rfl⟩, rfl, rfl, extended, attained, entry.1, entry.2, thunk.1, thunk.2⟩

/-- An entry of the library table is read inside the file. -/
theorem ensures_parseLibrary (inside : off + kLibraryVersionSize ≤ image.file.size) :
    Ensures (InFile image.file) (Keeps image) (parseLibrary image off) := by
  have size : off + 0x10 ≤ image.file.size := inside
  refine ensures_bind (ensures_copyOut (by omega)) (fun _ _ => ?_)
  iterate 4 refine ensures_bind (ensures_rd16 (by omega)) (fun _ _ => ?_)
  exact ensures_pure ⟨⟨⟨rfl, rfl⟩, rfl, rfl⟩, rfl, rfl, rfl⟩

/-- Two stages that keep the table keep it together. -/
theorem SameTable.trans {first second third : XbeImage} (early : SameTable first second)
    (late : SameTable second third) : SameTable first third :=
  ⟨⟨late.1.1.trans early.1.1, late.1.2.trans early.1.2⟩, late.2.1.trans early.2.1, late.2.2.trans early.2.2⟩

/-- Two stages that keep everything else do. -/
theorem Keeps.trans {first second third : XbeImage} (early : Keeps first second) (late : Keeps second third) :
    Keeps first third :=
  ⟨early.table.trans late.table, late.entry.trans early.entry, late.thunk.trans early.thunk, late.tls.trans early.tls⟩

/-- The library table is read inside the file.

Proof: the bound of the whole table is checked first, and each entry lies below it. -/
theorem ensures_parseLibraries : Ensures (InFile image.file) (Keeps image) (parseLibraries image) := by
  unfold parseLibraries
  split
  · split
    · exact ensures_fail _
    · rename_i off found
      refine ensures_bind (ensures_check _ _) (fun _ large => ?_)
      refine ensures_foldlM (fun _ next => Keeps image next) _ (fun _ index next member kept => ?_) [] image
        ⟨⟨⟨rfl, rfl⟩, rfl, rfl⟩, rfl, rfl, rfl⟩
      have below := List.mem_range.mp member
      have room : kLibraryVersionSize * (index + 1) ≤ kLibraryVersionSize * image.header.numLibraryVersions :=
        Nat.mul_le_mul_left _ below
      have sameFile := kept.table.1.1
      have entry : off + kLibraryVersionSize * index + kLibraryVersionSize ≤ next.file.size := by
        rw [sameFile]
        rw [Nat.mul_succ] at room
        omega
      rw [← sameFile]
      exact (ensures_parseLibrary entry).mono (fun later same => kept.trans same)
  · exact ensures_pure ⟨⟨⟨rfl, rfl⟩, rfl, rfl⟩, rfl, rfl, rfl⟩

/-- The directory is read inside the file, and is kept only if it is sound. -/
theorem ensures_parseTls : Ensures (InFile image.file) (fun next => SameTable image next ∧
    next.entryVa = image.entryVa ∧ next.kernelThunkVa = image.kernelThunkVa ∧
    (image.tlsPresent = false → next.tlsPresent = true → TlsOk next)) (parseTls image) := by
  unfold parseTls
  simp only
  split
  · split
    · exact ensures_fail _
    · rename_i off found
      refine ensures_bind (ensures_check _ _) (fun _ large => ?_)
      have size : off + 0x18 ≤ image.file.size := large
      iterate 4 refine ensures_bind (ensures_rd32 (by omega)) (fun _ _ => ?_)
      refine ensures_bind (ensures_rd32 (by omega)) (fun zeroFill read => ?_)
      have word : zeroFill < 2 ^ 32 := read ▸ word_lt _ _
      refine ensures_bind (ensures_rd32 (by omega)) (fun _ _ => ?_)
      refine ensures_bind (ensures_check _ _) (fun _ start => ?_)
      refine ensures_bind (ensures_check _ _) (fun _ last => ?_)
      refine ensures_bind (ensures_check _ _) (fun _ index => ?_)
      exact ensures_pure ⟨⟨⟨rfl, rfl⟩, rfl, rfl⟩, rfl, rfl, fun _ _ =>
        ⟨start.1, start.2.1, start.2.2, last, index.1, index.2, word⟩⟩
  · refine ensures_pure ⟨⟨⟨rfl, rfl⟩, rfl, rfl⟩, rfl, rfl, fun absent present => ?_⟩
    rw [absent] at present
    cases present

/-! ## The whole parser -/

/-- What is known of an accepted file. -/
structure Parsed (file : ByteVector) (image : XbeImage) : Prop where
  source : image.file = file
  header : image.HeaderOk
  nonempty : 0 < image.header.sizeofHeaders
  entries : ∀ sh ∈ image.sections, EntryOk file sh
  extent : Extended image.header.baseAddr image.sections (image.header.baseAddr + image.header.sizeofImage)
    image.imageEndAbs

/-- What is known beyond that: the extent is exact, and what the header points to is inside. -/
structure Guaranteed (image : XbeImage) : Prop where
  attained : Attained image.sections (image.header.baseAddr + image.header.sizeofImage) image.imageEndAbs
  located : image.Located
  tls : image.tlsPresent = true → image.TlsOk

/-- A stage that keeps the header keeps it sound. -/
theorem HeaderOk.congr {next : XbeImage} (header : image.HeaderOk) (same : SameFile image next) : next.HeaderOk := by
  refine ⟨?_, ?_, ?_, ?_, ?_⟩ <;> rw [same.2]
  · rw [same.1]
    exact header.base
  · rw [same.1]
    exact header.headers
  · exact header.positive
  · exact header.fits
  · exact header.inside

/-- What has been parsed is told by the table. -/
theorem Parsed.congr {next : XbeImage} (parsed : Parsed file image) (same : SameTable image next) :
    Parsed file next := by
  refine ⟨same.1.1.trans parsed.source, parsed.header.congr same.1, ?_, ?_, ?_⟩
  · rw [same.1.2]
    exact parsed.nonempty
  · rw [same.2.1]
    exact parsed.entries
  · rw [same.1.2, same.2.1, same.2.2]
    exact parsed.extent

/-- So is what attains the extent. -/
theorem Attained.congr {next : XbeImage} (same : SameTable image next)
    (attained : Attained image.sections (image.header.baseAddr + image.header.sizeofImage) image.imageEndAbs) :
    Attained next.sections (next.header.baseAddr + next.header.sizeofImage) next.imageEndAbs := by
  rw [same.1.2, same.2.1, same.2.2]
  exact attained

/-- Where the image is located depends on its two addresses, too. -/
theorem Located.congr {next : XbeImage} (located : image.Located) (same : SameTable image next)
    (entry : next.entryVa = image.entryVa) (thunk : next.kernelThunkVa = image.kernelThunkVa) : next.Located := by
  refine ⟨?_, ?_, ?_, ?_⟩
  · rw [same.1.2, entry]
    exact located.entryAbove
  · rw [same.2.2, entry]
    exact located.entryBelow
  · rw [same.1.2, thunk]
    exact located.thunkAbove
  · rw [same.2.2, thunk]
    exact located.thunkBelow

/-- The parser reads only the file, and what it accepts is parsed, with all guarantees. -/
theorem ensures_guarantees (file : ByteVector) :
    Ensures (InFile file) (fun image => Parsed file image ∧ image.Guaranteed) (parse file) := by
  refine ensures_bind ensures_parseHeader (fun first readHeader => ?_)
  obtain ⟨rfl, empty, unmarked, header⟩ := readHeader
  refine ensures_bind ensures_parseCertificate (fun second kept => ?_)
  obtain ⟨⟨⟨secondFile, secondSections, _⟩, _, _, secondTls⟩, nonempty⟩ := kept
  rw [← secondFile.1]
  refine ensures_bind (ensures_parseSections (secondSections.trans empty)) (fun third kept => ?_)
  obtain ⟨thirdFile, thirdTls, entries⟩ := kept
  have thirdHeader : third.HeaderOk := (header.congr secondFile).congr thirdFile
  rw [← thirdFile.1] at entries ⊢
  refine ensures_bind (ensures_parseExtent thirdHeader entries) (fun fourth kept => ?_)
  obtain ⟨fourthFile, fourthSections, fourthTls, extent, attained, located⟩ := kept
  have parsed : Parsed third.file fourth := by
    refine ⟨fourthFile.1, thirdHeader.congr fourthFile, ?_, ?_, ?_⟩
    · rw [fourthFile.2, thirdFile.2, secondFile.2]
      exact nonempty
    · rw [fourthSections]
      exact entries
    · rw [fourthFile.2, fourthSections]
      exact extent
  rw [← fourthSections, ← fourthFile.2] at attained
  rw [← fourthFile.1] at parsed ⊢
  refine ensures_bind ensures_parseLibraries (fun fifth kept => ?_)
  have parsed := parsed.congr kept.table
  have located := located.congr kept.table kept.entry kept.thunk
  have fifthTls : fifth.tlsPresent = false :=
    (((kept.tls.trans fourthTls).trans thirdTls).trans secondTls).trans unmarked
  rw [← kept.table.1.1] at parsed ⊢
  refine ensures_parseTls.mono (fun last same => ?_)
  obtain ⟨table, entry, thunk, tls⟩ := same
  exact ⟨parsed.congr table, (attained.congr kept.table).congr table, located.congr table entry thunk, tls fifthTls⟩

/-- The parser reads inside the file only, and what it accepts has been parsed.

Proof: the stages one after the other, each with what the earlier ones have ensured. -/
theorem ensures_parse (file : ByteVector) : Ensures (InFile file) (Parsed file) (parse file) :=
  (ensures_guarantees file).mono (fun _ => And.left)

end XbeImage

end SeriesxEmu
