import SeriesxEmu.LoaderSafety
import Mathlib.Data.List.Pairwise

/-!
# What the guest sees of a loaded file

The bytes of a loaded image are the raw bytes of the sections, zeros behind them, and
the header block where no section lies. The addresses of an image can also be
translated into file offsets, the header block first. The two views agree unless a
section lies over the headers with other bytes than theirs, or the 32-bit file offset
of a raw byte wraps.
-/

namespace SeriesxEmu

open Load Traced

namespace XbeImage

variable {image : XbeImage} {done : List SectionHeader} {ram : XbeRam} {prevEnd : Nat}

/-- An address lies in one section at most. -/
theorem Mapped.unique (mapped : Mapped image done ram prevEnd) {left right : SectionHeader} (inLeft : left ∈ done)
    (inRight : right ∈ done) {address : Nat} (hasLeft : left.Has address) (hasRight : right.Has address) :
    left = right := by
  by_contra differ
  have apart : done.Pairwise (fun left right => ∀ address, left.Has address → ¬ right.Has address) := by
    refine mapped.ordered.imp (fun {left right} ordered address hasLeft hasRight => ?_)
    unfold SectionHeader.Has at hasLeft hasRight
    have order := ordered (by omega) (by omega)
    omega
  have symmetric : Std.Symm
      (fun left right : SectionHeader => ∀ address, left.Has address → ¬ right.Has address) :=
    ⟨fun left right apart address hasRight hasLeft => apart address hasLeft hasRight⟩
  exact apart.forall inLeft inRight differ address hasLeft hasRight

/-- The bytes of a mapped section. -/
theorem Mapped.filled (mapped : Mapped image done ram prevEnd) {sh : SectionHeader} (member : sh ∈ done)
    {index : Nat} (inside : index < sh.virtualSize) :
    ram.bytes (sh.virtualAddr + index) = filled image.file sh index := by
  unfold XbeImage.filled
  split
  · rename_i inRaw
    exact mapped.raw sh member index inRaw
  · rename_i behind
    exact mapped.rest sh member index inside (by omega)

end XbeImage

namespace LoadedXbe

open XbeImage

variable {file : ByteVector} {loaded : LoadedXbe}

/-- A loaded file has been parsed, and all its sections are mapped. -/
theorem load_mapped (accepted : (load file).outcome = .ok loaded) :
    (parse file).outcome = .ok loaded.image ∧ Parsed file loaded.image ∧ loaded.image.HeaderFits ∧
      Mapped loaded.image loaded.image.sections loaded.ram (lastEnd loaded.image.sections) := by
  obtain ⟨image, parsedEq, mapping⟩ := outcome_bind.mp accepted
  obtain ⟨ram, mapEq, last⟩ := outcome_bind.mp mapping
  cases last
  have parsed := (ensures_parse file).2 image parsedEq
  by_cases fits : image.HeaderFits
  · obtain ⟨opened, copied, _, _, start, mapIs⟩ := map_started parsed.nonempty fits
    rw [mapIs, outcome_bind] at mapEq
    obtain ⟨copied', same, looped⟩ := mapEq
    cases same
    obtain ⟨state, reached, last⟩ := outcome_bind.mp looped
    cases last
    obtain ⟨mapped, ended⟩ := (start.loop image.sections parsed.raws).1 state reached
    rw [ended] at mapped
    exact ⟨parsedEq, parsed, fits, mapped⟩
  · rw [map_refused fits] at mapEq
    cases mapEq

/-! ## Contents -/

/-- The address lies in the header block. -/
def InHeaders (image : XbeImage) (address : Nat) : Prop :=
  image.header.baseAddr ≤ address ∧ address < image.header.baseAddr + image.header.sizeofHeaders

/-- What loading leaves in the window. -/
structure Contents (file : ByteVector) (loaded : LoadedXbe) : Prop where
  raw : ∀ sh ∈ loaded.image.sections, 0 < sh.virtualSize → ∀ index < sh.sizeofRaw,
    sh.rawAddr + index < file.size ∧ loaded.ram.bytes (sh.virtualAddr + index) = file.byte (sh.rawAddr + index)
  rest : ∀ sh ∈ loaded.image.sections, 0 < sh.virtualSize → ∀ index < sh.virtualSize, sh.sizeofRaw ≤ index →
    loaded.ram.bytes (sh.virtualAddr + index) = 0
  headers : loaded.image.header.sizeofHeaders ≤ file.size → ∀ index < loaded.image.header.sizeofHeaders,
    (∀ sh ∈ loaded.image.sections, ¬ sh.Has (loaded.image.header.baseAddr + index)) →
    loaded.ram.bytes (loaded.image.header.baseAddr + index) = file.byte index
  stores : ∀ ram addr count, .store ram addr count ∈ (load file).accesses →
    ∀ address, addr ≤ address → address < addr + count →
      InHeaders loaded.image address ∨ ∃ sh ∈ loaded.image.sections, sh.Has address
  untouched : ∀ address, ¬ InHeaders loaded.image address → (∀ sh ∈ loaded.image.sections, ¬ sh.Has address) →
    loaded.ram.bytes address = ({} : XbeRam).bytes address

/-- A store of the mapping lies in the headers or in the section it maps. -/
theorem store_inside (parsed : Parsed file loaded.image) {ram : XbeRam} {addr count : Nat}
    (performed : .store ram addr count ∈ loaded.image.map.accesses) {address : Nat} (above : addr ≤ address)
    (below : address < addr + count) :
    InHeaders loaded.image address ∨ ∃ sh ∈ loaded.image.sections, sh.Has address := by
  obtain ⟨fits, header | ⟨opened, _, _, store⟩ | ⟨before, sh, rest, window, split, passes, mapped, turn⟩⟩ :=
    parsed.map_access performed
  · cases header
  · cases store
    exact Or.inl ⟨above, below⟩
  · have member : sh ∈ loaded.image.sections := by rw [split]; simp
    refine Or.inr ⟨sh, member, ?_⟩
    have outcome := mapped.turn (parsed.raws sh member)
    generalize loaded.image.mapSection (window, lastEnd before) sh = result at outcome turn
    cases outcome with
    | skipped empty => cases turn
    | refused message nonempty bad => cases turn
    | faults opened nonempty behind inside nothing blocked touched shielded =>
      rw [List.mem_singleton] at turn
      cases turn
      exact ⟨above, below⟩
    | mapped accesses next nonempty behind inside clear good after =>
      obtain ⟨_, _, low, high⟩ := good _ turn
      exact ⟨by omega, by omega⟩

/-- **Contents of a loaded image.**

Every byte of the memory comes from a section, from the headers or from nowhere, and the loader
stores nothing outside of these.

Proof: the memory after the last section is described by the invariant of the mapping loop. -/
theorem loaded_contents (file : ByteVector) (loaded : LoadedXbe) (accepted : (load file).outcome = .ok loaded) :
    Contents file loaded := by
  obtain ⟨parsedEq, parsed, fits, mapped⟩ := load_mapped accepted
  have source := parsed.source
  refine ⟨fun sh member _ index inside => ?_, fun sh member _ index inside behind => ?_,
    fun _ index inside uncovered => ?_, fun ram addr count performed address above below => ?_,
    fun address out uncovered => ?_⟩
  · have entry := (parsed.entries sh member).raw
    refine ⟨by omega, ?_⟩
    rw [mapped.raw sh member index inside, source]
  · exact mapped.rest sh member index inside behind
  · rw [mapped.headers index inside uncovered, source]
  · rcases mem_load.mp performed with parsing | ⟨image, imageEq, mapping⟩
    · exact ((ensures_parse file).1 _ parsing).elim
    · rw [parsedEq] at imageEq
      cases imageEq
      exact store_inside parsed mapping above below
  · exact mapped.outside address out uncovered

/-- An image with one section of two raw bytes and two zeros. -/
def oneSection : ByteVector := ofWords 0x384 (headerWords 0x380 0x2000 1 ++
  [(0x348, kSectionWriteable), (0x34C, 0x11000), (0x350, 4), (0x354, 0x380), (0x358, 2), (0x380, 0xAABB)])

/-- The image with one section is mapped as its file says. -/
theorem oneSection_contents : ∃ loaded, (load oneSection).outcome = .ok loaded ∧ Contents oneSection loaded := by
  have ok : (load oneSection).outcome.isOk = true := by decide +kernel
  cases outcome : (load oneSection).outcome with
  | ok loaded => exact ⟨loaded, rfl, loaded_contents oneSection loaded outcome⟩
  | error failure =>
    rw [outcome] at ok
    cases ok

/-! ## Address translation -/

/-- The mapped byte at every address that translates into a file offset is the file's
byte at that offset. -/
def TranslationsAgree (file : ByteVector) : Prop :=
  ∀ loaded, (load file).outcome = .ok loaded → ∀ va off, loaded.image.vaFileOffset va = some off →
    loaded.ram.bytes va = file.byte off

/-- The address lies in the part of the header block that the file has. -/
def InFileHeaders (image : XbeImage) (va : Nat) : Prop :=
  image.header.baseAddr ≤ va ∧ va - image.header.baseAddr < image.header.sizeofHeaders ∧
    va - image.header.baseAddr < image.file.size

/-- Sections that lie over the headers repeat them, and no file offset of a raw byte
wraps to another byte. -/
structure Consistent (image : XbeImage) : Prop where
  headers : ∀ sh ∈ image.sections, ∀ index < sh.virtualSize, InFileHeaders image (sh.virtualAddr + index) →
    XbeImage.filled image.file sh index = image.file.byte (sh.virtualAddr + index - image.header.baseAddr)
  offsets : ∀ sh ∈ image.sections, ∀ index < sh.sizeofRaw, ¬ InFileHeaders image (sh.virtualAddr + index) →
    image.file.byte ((sh.rawAddr + index) % 2 ^ 32) = image.file.byte (sh.rawAddr + index)

/-- A header address translates when it lies in the headers of the file. -/
theorem headerOffset_iff {image : XbeImage} {va off : Nat} : image.headerOffset va = some off ↔
    InFileHeaders image va ∧ va - image.header.baseAddr = off := by
  simp only [XbeImage.headerOffset, InFileHeaders, Option.ite_none_left_eq_some, Option.some.injEq]
  omega

/-- A section holds an address when its raw data reach there. -/
theorem holds_iff {va : Nat} {sh : SectionHeader} : XbeImage.holds va sh = true ↔
    sh.Has va ∧ va - sh.virtualAddr < sh.sizeofRaw := by
  simp only [XbeImage.holds, SectionHeader.Has, Bool.and_eq_true, decide_eq_true_eq, bne_iff_ne]
  omega

/-- An address of a section outside the headers translates through that section. -/
theorem vaFileOffset_section (accepted : (load file).outcome = .ok loaded) {sh : SectionHeader}
    (member : sh ∈ loaded.image.sections) {index : Nat} (inside : index < sh.sizeofRaw)
    (outside : ¬ InFileHeaders loaded.image (sh.virtualAddr + index)) :
    loaded.image.vaFileOffset (sh.virtualAddr + index) = some ((sh.rawAddr + index) % 2 ^ 32) := by
  obtain ⟨_, parsed, _, mapped⟩ := load_mapped accepted
  have fits := parsed.raws sh member
  have above := parsed.extent.above sh member (by omega)
  have noHeader : loaded.image.headerOffset (sh.virtualAddr + index) = none :=
    Option.eq_none_iff_forall_ne_some.mpr (fun off same => outside (headerOffset_iff.mp same).1)
  have has : sh.Has (sh.virtualAddr + index) := ⟨by omega, by omega⟩
  have held : XbeImage.holds (sh.virtualAddr + index) sh = true :=
    holds_iff.mpr ⟨has, by omega⟩
  have found : loaded.image.sections.find? (XbeImage.holds (sh.virtualAddr + index)) = some sh := by
    cases search : loaded.image.sections.find? (XbeImage.holds (sh.virtualAddr + index)) with
    | none => exact absurd held (List.find?_eq_none.mp search sh member)
    | some other =>
      have meets := (holds_iff.mp (List.find?_some search)).1
      rw [mapped.unique (List.mem_of_find?_eq_some search) member meets has]
  simp only [XbeImage.vaFileOffset, noHeader]
  rw [if_neg (by omega), found, Option.map_some, Nat.add_sub_cancel_left]

/-- **Address translation.** The file view and the guest view of every address agree if
and only if the image is consistent.

Proof: a header address translates to its place in the file, any other to its place in the first
section that has raw bytes there. The memory holds the sections where they lie and the headers
elsewhere. -/
theorem translations_agree_iff (file : ByteVector) : TranslationsAgree file ↔
    ∀ loaded, (load file).outcome = .ok loaded → Consistent loaded.image := by
  constructor
  · intro agree loaded accepted
    obtain ⟨_, parsed, _, mapped⟩ := load_mapped accepted
    refine ⟨fun sh member index inside header => ?_, fun sh member index inside outside => ?_⟩
    · have offset : loaded.image.headerOffset (sh.virtualAddr + index) =
          some (sh.virtualAddr + index - loaded.image.header.baseAddr) := headerOffset_iff.mpr ⟨header, rfl⟩
      have first : loaded.image.vaFileOffset (sh.virtualAddr + index) =
          some (sh.virtualAddr + index - loaded.image.header.baseAddr) := by
        simp only [XbeImage.vaFileOffset, offset]
      have translated := agree loaded accepted _ _ first
      rw [mapped.filled member inside] at translated
      rw [translated, parsed.source]
    · have translated := agree loaded accepted _ _ (vaFileOffset_section accepted member inside outside)
      rw [parsed.source, ← translated, mapped.raw sh member index inside, parsed.source]
  · intro consistent loaded accepted va off translated
    obtain ⟨_, parsed, _, mapped⟩ := load_mapped accepted
    obtain ⟨headers, offsets⟩ := consistent loaded accepted
    have source := parsed.source
    cases header : loaded.image.headerOffset va with
    | some rel =>
      simp only [XbeImage.vaFileOffset, header, Option.some.injEq] at translated
      subst translated
      obtain ⟨inHeaders, rfl⟩ := headerOffset_iff.mp header
      by_cases covered : ∃ sh ∈ loaded.image.sections, sh.Has va
      · obtain ⟨sh, member, has⟩ := covered
        obtain ⟨index, rfl⟩ := Nat.exists_eq_add_of_le has.1
        have inside : index < sh.virtualSize := Nat.lt_of_add_lt_add_left has.2
        rw [mapped.filled member inside, headers sh member index inside inHeaders, source]
      · obtain ⟨index, rfl⟩ := Nat.exists_eq_add_of_le inHeaders.1
        have inside := inHeaders.2.1
        rw [Nat.add_sub_cancel_left] at inside ⊢
        rw [mapped.headers index inside (fun sh member has => covered ⟨sh, member, has⟩), source]
    | none =>
      simp only [XbeImage.vaFileOffset, header] at translated
      split at translated
      · cases translated
      · cases search : loaded.image.sections.find? (XbeImage.holds va) with
        | none =>
          rw [search] at translated
          cases translated
        | some sh =>
          rw [search, Option.map_some, Option.some.injEq] at translated
          obtain ⟨has, inRaw⟩ := holds_iff.mp (List.find?_some search)
          have member := List.mem_of_find?_eq_some search
          obtain ⟨index, rfl⟩ := Nat.exists_eq_add_of_le has.1
          rw [Nat.add_sub_cancel_left] at translated inRaw
          have outside : ¬ InFileHeaders loaded.image (sh.virtualAddr + index) := by
            intro inHeaders
            rw [headerOffset_iff.mpr ⟨inHeaders, rfl⟩] at header
            cases header
          rw [mapped.raw sh member index inRaw, ← translated, ← offsets sh member index inRaw outside, source]

/-- An image with a section without raw bytes over the first bytes of its header. -/
def coveredHeader : ByteVector := ofWords 0x380 (headerWords 0x380 0x2000 1 ++
  [(0x348, kSectionWriteable), (0x34C, 0x10000), (0x350, 0x10)])

/-- The file has the magic at the base, the guest has zeros. -/
theorem coveredHeader_disagrees : ¬ TranslationsAgree coveredHeader := by
  intro agree
  have differs : (match (load coveredHeader).outcome with
      | .ok loaded => decide (loaded.image.vaFileOffset 0x10000 = some 0 ∧
          loaded.ram.bytes 0x10000 ≠ coveredHeader.byte 0)
      | .error _ => false) = true := by
    decide +kernel
  cases outcome : (load coveredHeader).outcome with
  | ok loaded =>
    rw [outcome] at differs
    obtain ⟨translated, other⟩ := of_decide_eq_true differs
    exact other (agree loaded outcome 0x10000 0 translated)
  | error failure =>
    rw [outcome] at differs
    cases differs

end LoadedXbe

end SeriesxEmu
