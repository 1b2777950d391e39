import Mathlib.Order.Bounds.Basic
import SeriesxEmu.ImageContents

/-!
# What an accepted file guarantees

The loader, the kernel and the processor core rely on an accepted image without checking it again:
its extent is the exact end of the image and its sections, what the header and the TLS directory
point to lies inside, and an address that translates to a file offset does so without wrapping.
-/

namespace SeriesxEmu

namespace XbeImage

variable {file : ByteVector} {image : XbeImage}

/-- The ends of the image and of its sections, as exact integers. -/
def ends (image : XbeImage) : Set Nat :=
  {last | last = image.header.baseAddr + image.header.sizeofImage ∨
    ∃ sh ∈ image.sections, last = sh.virtualAddr + sh.virtualSize}

/-- The offset is that of the address in the header block. -/
def InHeaders (image : XbeImage) (va offset : Nat) : Prop :=
  offset < image.header.sizeofHeaders ∧ image.header.baseAddr + offset = va

/-- The offset is that of the address in the raw part of the section. -/
def InRaw (va offset : Nat) (sh : SectionHeader) : Prop :=
  sh.virtualAddr ≤ va ∧ va < sh.virtualAddr + sh.sizeofRaw ∧ offset = sh.rawAddr + (va - sh.virtualAddr)

/-- What every later component relies on. -/
structure Guarantees (image : XbeImage) : Prop where
  extent : IsGreatest image.ends image.imageEndAbs
  entry : image.header.baseAddr ≤ image.entryVa ∧ image.entryVa < image.imageEndAbs
  thunk : image.header.baseAddr ≤ image.kernelThunkVa ∧ image.kernelThunkVa < image.imageEndAbs
  sections : ∀ sh ∈ image.sections, 0 < sh.virtualSize →
    image.header.baseAddr ≤ sh.virtualAddr ∧ sh.virtualAddr + sh.virtualSize ≤ image.imageEndAbs ∧
      sh.sizeofRaw ≤ sh.virtualSize ∧ sh.rawAddr + sh.sizeofRaw ≤ image.file.size
  tls : image.tlsPresent = true →
    image.header.baseAddr ≤ image.tls.dataStart ∧ image.tls.dataStart ≤ image.tls.dataEnd ∧
      image.tls.dataEnd ≤ image.imageEndAbs ∧ image.header.baseAddr ≤ image.tls.indexAddr ∧
      image.tls.indexAddr < image.imageEndAbs
  offsets : ∀ va offset, image.vaFileOffset va = some offset → offset < image.file.size ∧
    (image.InHeaders va offset ∨ ∃ sh ∈ image.sections, InRaw va offset sh)

/-- The 32-bit sum of the translation does not wrap, as the raw part lies in the file. -/
theorem Parsed.offset (parsed : Parsed file image) (small : file.size < 2 ^ 32) {va offset : Nat}
    (translated : image.vaFileOffset va = some offset) : offset < file.size ∧
      (image.InHeaders va offset ∨ ∃ sh ∈ image.sections, InRaw va offset sh) := by
  unfold vaFileOffset at translated
  split at translated
  · rename_i off found
    obtain rfl := Option.some.inj translated
    obtain ⟨inHeaders, inFile, same⟩ := headerOffset_lt found
    exact ⟨parsed.source ▸ inFile, Or.inl ⟨inHeaders, same⟩⟩
  · split at translated
    · cases translated
    · obtain ⟨sh, found, rfl⟩ := Option.map_eq_some_iff.mp translated
      have member := List.mem_of_find?_eq_some found
      have inside := List.find?_some found
      simp only [holds, Bool.and_eq_true, decide_eq_true_eq] at inside
      have raw := (parsed.entries sh member).raw
      rw [Nat.mod_eq_of_lt (by omega)]
      exact ⟨by omega, Or.inr ⟨sh, member, inside.1.1.2, by omega, rfl⟩⟩

/-- A file below 4 GiB that is accepted gives an image with all guarantees.

Proof: each guarantee is a check of the parser that the accepted image has passed, in the words of
the loader's invariants. -/
theorem parse_guarantees (file : ByteVector) (small : file.size < 2 ^ 32) (image : XbeImage)
    (accepted : (parse file).outcome = .ok image) : image.Guarantees := by
  obtain ⟨parsed, guaranteed⟩ := (ensures_guarantees file).2 image accepted
  have located := guaranteed.located
  refine ⟨⟨guaranteed.attained, ?_⟩, ⟨located.entryAbove, located.entryBelow⟩,
    ⟨located.thunkAbove, located.thunkBelow⟩, fun sh member nonempty => ?_, fun present => ?_,
    fun va offset translated => ?_⟩
  · rintro last (rfl | ⟨sh, member, rfl⟩)
    · exact parsed.extent.start
    · exact parsed.extent.ends sh member
  · have entry := parsed.entries sh member
    exact ⟨parsed.extent.above sh member nonempty, parsed.extent.ends sh member, entry.fits, parsed.source ▸ entry.raw⟩
  · have tls := guaranteed.tls present
    exact ⟨tls.above, tls.ordered, tls.below, tls.indexAbove, tls.indexBelow⟩
  · rw [parsed.source]
    exact parsed.offset small translated

/-- The image with one section has the guarantees. -/
theorem oneSection_guarantees : ∃ image, (parse LoadedXbe.oneSection).outcome = .ok image ∧ image.Guarantees := by
  have ok : (parse LoadedXbe.oneSection).outcome.isOk = true := by decide +kernel
  cases outcome : (parse LoadedXbe.oneSection).outcome with
  | ok image => exact ⟨image, rfl, parse_guarantees _ (by decide) image outcome⟩
  | error failure =>
    rw [outcome] at ok
    cases ok

end XbeImage

end SeriesxEmu
