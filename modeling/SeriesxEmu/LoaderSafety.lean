import SeriesxEmu.MappedImages

/-!
# Memory safety of the loader

Two promises of the loader are compared with what it does. Reads stay in the file,
except that the header block is copied by its announced size, which nothing compares
with the file. Stores stay on writable pages, except that a section without raw bytes
is cleared without looking at the protection of the page it starts on.
-/

namespace SeriesxEmu

open Load Traced

namespace XbeImage

variable {file : ByteVector} {image : XbeImage} {access : LoadAccess}

/-- A parsed section has no more raw bytes than virtual ones. -/
theorem Parsed.raws (parsed : Parsed file image) : ∀ sh ∈ image.sections, sh.sizeofRaw ≤ sh.virtualSize :=
  fun sh member => (parsed.entries sh member).fits

/-- The sections before the one that is reached have been mapped and fit together. -/
theorem Parsed.reaches (parsed : Parsed file image) {copied ram : XbeRam} (start : Mapped image [] copied 0)
    {before rest : List SectionHeader} {sh : SectionHeader} (split : image.sections = before ++ sh :: rest)
    {prevEnd : Nat} (reached : (before.foldlM image.mapSection (copied, 0)).outcome = .ok (ram, prevEnd)) :
    prevEnd = lastEnd before ∧ PassAll [] before ∧ Mapped image before ram (lastEnd before) := by
  have raws : ∀ other ∈ before, other.sizeofRaw ≤ other.virtualSize :=
    fun other member => parsed.raws other (by rw [split]; exact List.mem_append_left _ member)
  obtain ⟨mapped, passing⟩ := start.loop before raws
  obtain ⟨here, ended⟩ := mapped _ reached
  simp only at ended here
  subst ended
  exact ⟨rfl, passing.mp ⟨_, reached⟩, here⟩

/-- An access of mapping an accepted image: the header copy, or the turn of a section
behind sections that pass. -/
theorem Parsed.map_access (parsed : Parsed file image) (performed : access ∈ image.map.accesses) :
    image.HeaderFits ∧
      (access = .read 0 image.header.sizeofHeaders ∨
        (∃ opened : XbeRam, 0 < opened.pageSize ∧
          opened.writable image.header.baseAddr image.header.sizeofHeaders = true ∧
          access = .store opened image.header.baseAddr image.header.sizeofHeaders) ∨
        ∃ before sh rest ram, image.sections = before ++ sh :: rest ∧ PassAll [] before ∧
          Mapped image before ram (lastEnd before) ∧
          access ∈ (image.mapSection (ram, lastEnd before) sh).accesses) := by
  by_cases fits : image.HeaderFits
  · refine ⟨fits, ?_⟩
    obtain ⟨opened, copied, paged, usable, start, mapEq⟩ := map_started parsed.nonempty fits
    rw [mapEq, mem_bind] at performed
    rcases performed with early | ⟨middle, same, late⟩
    · simp only [List.mem_cons, List.not_mem_nil, or_false] at early
      rcases early with read | store
      · exact Or.inl read
      · exact Or.inr (Or.inl ⟨opened, paged, usable, store⟩)
    · cases same
      rw [mem_bind] at late
      rcases late with late | ⟨_, _, nothing⟩
      · obtain ⟨before, sh, rest, state, split, reached, turn⟩ := mem_foldlM.mp late
        obtain ⟨ram, prevEnd⟩ := state
        obtain ⟨rfl, passes, mapped⟩ := parsed.reaches start split reached
        exact Or.inr (Or.inr ⟨before, sh, rest, ram, split, passes, mapped, turn⟩)
      · cases nothing
  · rw [map_refused fits] at performed
    cases performed

/-- The header copy is performed. -/
theorem Parsed.header_copied (parsed : Parsed file image) (fits : image.HeaderFits) :
    .read 0 image.header.sizeofHeaders ∈ image.map.accesses := by
  obtain ⟨opened, copied, paged, usable, start, mapEq⟩ := map_started parsed.nonempty fits
  rw [mapEq, mem_bind]
  exact Or.inl List.mem_cons_self

/-- The turn of a section behind sections that pass is performed. -/
theorem Parsed.turn_reached (parsed : Parsed file image) (fits : image.HeaderFits)
    {before rest : List SectionHeader} {sh : SectionHeader} (split : image.sections = before ++ sh :: rest)
    (passes : PassAll [] before) : ∃ ram, Mapped image before ram (lastEnd before) ∧
      ∀ access ∈ (image.mapSection (ram, lastEnd before) sh).accesses, access ∈ image.map.accesses := by
  obtain ⟨opened, copied, paged, usable, start, mapEq⟩ := map_started parsed.nonempty fits
  have raws : ∀ other ∈ before, other.sizeofRaw ≤ other.virtualSize :=
    fun other member => parsed.raws other (by rw [split]; exact List.mem_append_left _ member)
  obtain ⟨⟨ram, prevEnd⟩, reached⟩ := (start.loop before raws).2.mpr passes
  obtain ⟨rfl, _, here⟩ := parsed.reaches start split reached
  refine ⟨ram, here, fun access turn => ?_⟩
  rw [mapEq, mem_bind]
  refine Or.inr ⟨copied, rfl, mem_bind.mpr (Or.inl (mem_foldlM.mpr ?_))⟩
  exact ⟨before, sh, rest, _, split, reached, turn⟩

/-- A failure of the mapping that is not a rejection comes from one turn. -/
theorem Parsed.map_faults (parsed : Parsed file image) (failed : image.map.outcome = .error .hostFault) :
    image.HeaderFits ∧ ∃ before sh rest ram, image.sections = before ++ sh :: rest ∧ PassAll [] before ∧
      Mapped image before ram (lastEnd before) ∧
      (image.mapSection (ram, lastEnd before) sh).outcome = .error .hostFault := by
  by_cases fits : image.HeaderFits
  · refine ⟨fits, ?_⟩
    obtain ⟨opened, copied, paged, usable, start, mapEq⟩ := map_started parsed.nonempty fits
    rw [mapEq, bind_of_ok rfl] at failed
    cases looped : (image.sections.foldlM image.mapSection (copied, 0)).outcome with
    | ok state =>
      rw [bind_of_ok looped] at failed
      cases failed
    | error failure =>
      rw [bind_of_error looped] at failed
      cases failed
      obtain ⟨before, sh, rest, state, split, reached, turn⟩ := outcome_foldlM_error looped
      obtain ⟨ram, prevEnd⟩ := state
      obtain ⟨rfl, passes, mapped⟩ := parsed.reaches start split reached
      exact ⟨before, sh, rest, ram, split, passes, mapped, turn⟩
  · rw [map_refused fits] at failed
    cases failed

end XbeImage

namespace LoadedXbe

open XbeImage

variable {file : ByteVector}

/-- Loading performs the accesses of the parser, and those of the mapping of what it accepts. -/
theorem mem_load {access : LoadAccess} : access ∈ (load file).accesses ↔
    access ∈ (parse file).accesses ∨ ∃ image, (parse file).outcome = .ok image ∧ access ∈ image.map.accesses := by
  unfold load
  rw [mem_bind]
  refine or_congr_right (exists_congr (fun image => and_congr_right (fun _ => ?_)))
  rw [mem_bind]
  simp

/-! ## Reads -/

/-- Every file index that loading reads is smaller than the vector's size. -/
def ReadsInFile (file : ByteVector) : Prop :=
  ∀ first count, .read first count ∈ (load file).accesses →
    ∀ index, first ≤ index → index < first + count → index < file.size

/-- **Reads of the loader.** They stay in the file if and only if an accepted file
whose header block fits the window has that many bytes.

Proof: the parser checks its reads, and so does the copy of a section. The one read that is not
checked is that of the header block. -/
theorem reads_in_file_iff (file : ByteVector) : ReadsInFile file ↔
    ((∃ image, (parse file).outcome = .ok image) → file.word 0x104 + file.word 0x108 ≤ 64 * 1024 * 1024 →
      file.word 0x108 ≤ file.size) := by
  obtain ⟨parserReads, accepted⟩ := ensures_parse file
  constructor
  · rintro inFile ⟨image, parsedEq⟩ fits
    have parsed := accepted image parsedEq
    have headers := parsed.header.headers
    have base := parsed.header.base
    rw [parsed.source] at headers base
    have copied := mem_load.mpr (Or.inr ⟨image, parsedEq,
      parsed.header_copied (by rw [HeaderFits, base, headers]; exact fits)⟩)
    rw [headers] at copied
    by_contra large
    have last := inFile 0 _ copied file.size (Nat.zero_le _) (by omega)
    exact Nat.lt_irrefl _ last
  · intro large first count performed index above below
    rcases mem_load.mp performed with parsing | ⟨image, parsedEq, mapping⟩
    · have inside := parserReads _ parsing
      simp only [InFile] at inside
      omega
    · have parsed := accepted image parsedEq
      have headers := parsed.header.headers
      have base := parsed.header.base
      rw [parsed.source] at headers base
      obtain ⟨fits, header | ⟨opened, _, _, store⟩ | ⟨before, sh, rest, ram, split, passes, mapped, turn⟩⟩ :=
        parsed.map_access mapping
      · rw [HeaderFits, base, headers] at fits
        have enough := large ⟨image, parsedEq⟩ fits
        rw [headers] at header
        cases header
        omega
      · cases store
      · have entry := parsed.entries sh (by rw [split]; simp)
        have outcome := mapped.turn entry.fits
        generalize image.mapSection (ram, lastEnd before) sh = result at outcome turn
        have raw := entry.raw
        cases outcome with
        | skipped empty => cases turn
        | refused message nonempty bad => cases turn
        | faults opened nonempty behind inside nothing blocked touched shielded =>
          rw [List.mem_singleton] at turn
          cases turn
        | mapped accesses next nonempty behind inside clear good after =>
          obtain ⟨rfl, rfl⟩ := good _ turn
          omega

/-- The file whose words at the given offsets are as listed and whose other bytes are zero. -/
def ofWords (size : Nat) (words : List (Nat × Nat)) : ByteVector where
  size
  byte index := UInt8.ofNat ((words.lookup (index / 4 * 4)).getD 0 / 2 ^ (8 * (index % 4)))

/-- The words of a retail header at base `0x10000` without libraries and TLS: the
certificate follows the header, the section table follows the certificate, and the
entry and the thunks decode to the base. -/
def headerWords (sizeofHeaders sizeofImage numSections : Nat) : List (Nat × Nat) :=
  [(0x000, kMagic), (0x104, 0x10000), (0x108, sizeofHeaders), (0x10C, sizeofImage), (0x118, 0x10178),
    (0x11C, numSections), (0x120, 0x10348), (0x128, 0x10000 ^^^ kXorEpRetail), (0x158, 0x10000 ^^^ kXorKtRetail)]

/-- A file with a header and a certificate, whose header block is announced as one
byte longer than the file. -/
def truncated : ByteVector := ofWords 0x348 (headerWords 0x349 0x1000 0)

/-- Whether an access reads the byte at the place. -/
def reads (place : Nat) : LoadAccess → Bool
  | .read first count => decide (first ≤ place ∧ place < first + count)
  | .store .. => false

/-- The byte behind the file is read. -/
theorem truncated_overread : ¬ ReadsInFile truncated := by
  intro inFile
  have beyond : (load truncated).accesses.any (reads 0x348) = true := by
    decide +kernel
  obtain ⟨access, performed, meets⟩ := List.any_eq_true.mp beyond
  cases access with
  | read first count =>
    have bounds := of_decide_eq_true meets
    exact Nat.lt_irrefl _ (inFile first count performed 0x348 bounds.1 bounds.2)
  | store ram addr count => cases meets

/-! ## Stores -/

/-- Every store of loading meets pages that are committed and not read-only at that
moment, and a mapping that cannot go on is rejected. -/
def StoresAllowed (file : ByteVector) : Prop :=
  (∀ ram addr count, .store ram addr count ∈ (load file).accesses →
    ∀ page, ram.Covers addr count page → ram.committed page = true ∧ ram.readOnly page = false) ∧
  ∀ image, (parse file).outcome = .ok image → image.map.outcome ≠ .error .hostFault

/-- The section lies behind the earlier ones and in the window, has no raw bytes, and
starts on a page that an earlier one has made read-only. -/
def Trapped (done : List SectionHeader) (sh : SectionHeader) : Prop :=
  0 < sh.virtualSize ∧ sh.sizeofRaw = 0 ∧ lastEnd done ≤ sh.virtualAddr ∧
    sh.virtualAddr + sh.virtualSize ≤ 64 * 1024 * 1024 ∧ SectionHeader.Blocked done sh

/-- **Stores of the loader.** They stay on writable pages if and only if no section
of an accepted file, behind sections that pass, is trapped.

Proof: a store into the window fails only on a page that an earlier section has made read-only, and
a trapped section is one that meets such a page. -/
theorem stores_allowed_iff (file : ByteVector) : StoresAllowed file ↔
    ∀ image, (parse file).outcome = .ok image → image.HeaderFits →
      ∀ before sh rest, image.sections = before ++ sh :: rest → PassAll [] before → ¬ Trapped before sh := by
  obtain ⟨parserReads, accepted⟩ := ensures_parse file
  constructor
  · rintro ⟨stores, _⟩ image parsedEq fits before sh rest split passes ⟨nonempty, nothing, above, inside, blocked⟩
    have parsed := accepted image parsedEq
    obtain ⟨ram, mapped, performed⟩ := parsed.turn_reached fits split passes
    have outcome := mapped.turn (parsed.raws sh (by rw [split]; simp))
    have window := mapped.size
    generalize image.mapSection (ram, lastEnd before) sh = result at outcome performed
    cases outcome with
    | skipped empty => omega
    | refused message _ bad =>
      rcases bad with overlaps | large | ⟨some, _⟩ <;> omega
    | faults opened _ _ _ _ _ touched shielded =>
      have store := mem_load.mpr (Or.inr ⟨image, parsedEq, performed _ (List.mem_singleton.mpr rfl)⟩)
      have allowed := (stores opened _ _ store _ touched).2
      rw [shielded] at allowed
      cases allowed
    | mapped accesses next _ _ _ clear good after => exact clear blocked
  · intro free
    refine ⟨fun ram addr count performed page covered => ?_, fun image parsedEq failed => ?_⟩
    · rcases mem_load.mp performed with parsing | ⟨image, parsedEq, mapping⟩
      · exact (parserReads _ parsing).elim
      · have parsed := accepted image parsedEq
        obtain ⟨fits, header | ⟨opened, paged, usable, store⟩ |
          ⟨before, sh, rest, window, split, passes, mapped, turn⟩⟩ := parsed.map_access mapping
        · cases header
        · cases store
          exact ((XbeRam.writable_iff paged).mp usable).2 page covered
        · have outcome := mapped.turn (parsed.raws sh (by rw [split]; simp))
          have size := mapped.size
          generalize image.mapSection (window, lastEnd before) sh = result at outcome turn
          cases outcome with
          | skipped empty => cases turn
          | refused message nonempty bad => cases turn
          | faults opened nonempty above inside nothing blocked touched shielded =>
            exact absurd ⟨nonempty, nothing, above, by omega, blocked⟩
              (free image parsedEq fits before sh rest split passes)
          | mapped accesses next nonempty above inside clear good after =>
            obtain ⟨paged, usable, _⟩ := good _ turn
            exact ((XbeRam.writable_iff paged).mp usable).2 page covered
    · have parsed := accepted image parsedEq
      obtain ⟨fits, before, sh, rest, window, split, passes, mapped, turn⟩ := parsed.map_faults failed
      have outcome := mapped.turn (parsed.raws sh (by rw [split]; simp))
      have size := mapped.size
      generalize image.mapSection (window, lastEnd before) sh = result at outcome turn
      cases outcome with
      | skipped empty => cases turn
      | refused message nonempty bad => cases turn
      | faults opened nonempty above inside nothing blocked touched shielded =>
        exact free image parsedEq fits before sh rest split passes ⟨nonempty, nothing, above, by omega, blocked⟩
      | mapped accesses next nonempty above inside clear good after => cases turn

/-- An image of two sections without raw bytes on one page, of which the first is not
writeable. -/
def sharedPage : ByteVector := ofWords 0x3B8 (headerWords 0x3B8 0x2000 2 ++
  [(0x34C, 0x11000), (0x350, 0x10), (0x380, kSectionWriteable), (0x384, 0x11010), (0x388, 0x10)])

/-- Whether an access stores on the page while it is read-only. -/
def storesShielded (page : Nat) : LoadAccess → Bool
  | .read .. => false
  | .store ram addr count => decide (ram.Covers addr count page) && ram.readOnly page

/-- The second section is cleared on the read-only page. -/
theorem sharedPage_faults : ¬ StoresAllowed sharedPage := by
  rintro ⟨stores, _⟩
  have shielded : (load sharedPage).accesses.any (storesShielded 0x11) = true := by
    decide +kernel
  obtain ⟨access, performed, meets⟩ := List.any_eq_true.mp shielded
  cases access with
  | read first count => cases meets
  | store ram addr count =>
    obtain ⟨covered, readOnly⟩ := Bool.and_eq_true_iff.mp meets
    have allowed := (stores ram addr count performed 0x11 (of_decide_eq_true covered)).2
    rw [readOnly] at allowed
    cases allowed

end LoadedXbe

end SeriesxEmu
