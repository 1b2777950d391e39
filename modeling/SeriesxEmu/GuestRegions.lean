import SeriesxEmu.ImageContents
import SeriesxEmu.Thunks

/-!
# The regions of the guest window

Behind the image `install_thunks` places the contiguous memory pool, and behind the
pool the kernel data page. The three are disjoint as long as the image ends below the
data page and its extent can be rounded up to a page in 32 bits.
-/

namespace SeriesxEmu.LoadedXbe

open Load Traced XbeImage

variable {file : ByteVector} {loaded : LoadedXbe}

/-- No address of the pool is in the kernel data page, and neither of them has a page
that loading has committed. -/
structure RegionsDisjoint (loaded : LoadedXbe) (regions : Regions) : Prop where
  poolData : ∀ address, regions.mmLo ≤ address → address < regions.mmHi →
    ¬ (regions.kernelDataVa ≤ address ∧ address < regions.kernelDataVa + 0x1000)
  poolImage : ∀ address, regions.mmLo ≤ address → address < regions.mmHi →
    loaded.ram.committed (address / 4096) = false
  dataImage : ∀ address, regions.kernelDataVa ≤ address → address < regions.kernelDataVa + 0x1000 →
    loaded.ram.committed (address / 4096) = false

/-- The image leaves room: its extent can be rounded up to a page, and its headers and
sections end below the last page of the window. -/
structure LeavesRoom (image : XbeImage) : Prop where
  extent : image.imageEndAbs ≤ 0xFFFFF000
  headers : image.header.baseAddr + image.header.sizeofHeaders ≤ 0x3FFF000
  sections : ∀ sh ∈ image.sections, 0 < sh.virtualSize → sh.virtualAddr + sh.virtualSize ≤ 0x3FFF000

/-- The data page is the last page of the memory. -/
theorem kernelDataVa_eq (accepted : (load file).outcome = .ok loaded) : loaded.layout.kernelDataVa = 0x3FFF000 := by
  obtain ⟨_, _, _, mapped⟩ := load_mapped accepted
  simp only [layout, mapped.size]
  decide

/-- The pool ends where the data page starts. -/
theorem mmHi_eq (accepted : (load file).outcome = .ok loaded) : loaded.layout.mmHi = 0x3FFF000 :=
  kernelDataVa_eq accepted

/-- The pool starts at the extent rounded up, unless nothing is left for it. -/
theorem mmLo_eq (accepted : (load file).outcome = .ok loaded) :
    loaded.layout.mmLo = min 0x3FFF000 (alignUp loaded.image.imageEndAbs 4096) := by
  obtain ⟨_, _, _, mapped⟩ := load_mapped accepted
  simp only [layout, mapped.size]
  split <;> omega

/-- Close to the top of the address space, rounding up wraps to zero. -/
theorem alignUp_wraps {value : Nat} (high : 0xFFFFF000 < value) (word : value ≤ 0xFFFFFFFF) :
    alignUp value 4096 = 0 := by
  have mask := MemoryPool.and_mask ((value + 4096 - 1) % 2 ^ 32) 12 (Nat.mod_lt _ (by decide)) (by decide)
  have small : (value + 4096 - 1) % 2 ^ 32 / 2 ^ 12 = 0 := Nat.div_eq_of_lt (by omega)
  rw [small, Nat.zero_mul] at mask
  exact mask

/-- The page of a byte of the image is committed. -/
theorem image_committed (accepted : (load file).outcome = .ok loaded) {address : Nat}
    (inside : InHeaders loaded.image address ∨ ∃ sh ∈ loaded.image.sections, sh.Has address) :
    loaded.ram.committed (address / 4096) = true := by
  obtain ⟨_, parsed, fits, mapped⟩ := load_mapped accepted
  rw [mapped.committed]
  rcases inside with header | ⟨sh, member, has⟩
  · unfold InHeaders at header
    exact Or.inl (by unfold Touches; omega)
  · unfold SectionHeader.Has at has
    exact Or.inr ⟨sh, member, by omega, by unfold Touches; omega⟩

/-- Loading commits no page behind the end of the headers and the sections. -/
theorem behind_uncommitted (accepted : (load file).outcome = .ok loaded) {limit address : Nat}
    (aligned : limit % 4096 = 0) (above : limit ≤ address)
    (headers : loaded.image.header.baseAddr + loaded.image.header.sizeofHeaders ≤ limit)
    (sections : ∀ sh ∈ loaded.image.sections, 0 < sh.virtualSize → sh.virtualAddr + sh.virtualSize ≤ limit) :
    loaded.ram.committed (address / 4096) = false := by
  obtain ⟨_, parsed, fits, mapped⟩ := load_mapped accepted
  rw [← Bool.not_eq_true, mapped.committed]
  rintro (touched | ⟨sh, member, nonempty, touched⟩)
  · unfold Touches at touched
    omega
  · have ends := sections sh member nonempty
    unfold Touches at touched
    omega

/-- The pool starts behind the image. -/
theorem pool_behind (accepted : (load file).outcome = .ok loaded) (room : LeavesRoom loaded.image)
    (nonEmpty : loaded.layout.mmLo < loaded.layout.mmHi) :
    loaded.layout.mmLo % 4096 = 0 ∧ loaded.image.imageEndAbs ≤ loaded.layout.mmLo := by
  have extent := room.extent
  obtain ⟨multiple, start, _⟩ := MemoryPool.alignUp_spec loaded.image.imageEndAbs ⟨12, rfl⟩ (by omega : _ < 2 ^ 32)
  have low := mmLo_eq accepted
  rw [mmHi_eq accepted] at nonEmpty
  have lowIs : loaded.layout.mmLo = alignUp loaded.image.imageEndAbs 4096 := by omega
  rw [lowIs]
  exact ⟨Nat.mod_eq_zero_of_dvd multiple, start⟩

/-- **Guest regions.** They are pairwise disjoint if and only if the image leaves room.

Proof: a byte of the image on a page of another region would be a committed page there. Conversely
the pool starts behind everything that the image has committed. -/
theorem regions_disjoint_iff (file : ByteVector) (findExport : Nat → Option Conv) (tick : Nat) :
    (∀ loaded, (load file).outcome = .ok loaded →
      RegionsDisjoint loaded (installThunks findExport tick loaded).1) ↔
    ∀ loaded, (load file).outcome = .ok loaded → LeavesRoom loaded.image := by
  refine forall_congr' (fun loaded => forall_congr' (fun accepted => ?_))
  obtain ⟨_, parsed, fits, mapped⟩ := load_mapped accepted
  have data := kernelDataVa_eq accepted
  have high := mmHi_eq accepted
  have low := mmLo_eq accepted
  have nonempty := parsed.nonempty
  have inside : loaded.image.header.baseAddr + loaded.image.header.sizeofHeaders ≤ 64 * 1024 * 1024 := fits
  change RegionsDisjoint loaded loaded.layout ↔ _
  constructor
  · rintro ⟨_, poolImage, dataImage⟩
    -- A byte of the image from the data page on would be on a committed page of it.
    have ends : ∀ address, InHeaders loaded.image address ∨ (∃ sh ∈ loaded.image.sections, sh.Has address) →
        address < 64 * 1024 * 1024 → address < 0x3FFF000 := by
      intro address isImage bounded
      by_contra late
      have free := dataImage address (by omega) (by omega)
      rw [image_committed accepted isImage] at free
      cases free
    refine ⟨?_, ?_, fun sh member positive => ?_⟩
    · by_contra wraps
      rw [alignUp_wraps (by omega) parsed.extent.space] at low
      have first : InHeaders loaded.image loaded.image.header.baseAddr := ⟨Nat.le_refl _, by omega⟩
      have below := ends _ (Or.inl first) (by omega)
      have free := poolImage loaded.image.header.baseAddr (by omega) (by omega)
      rw [image_committed accepted (Or.inl first)] at free
      cases free
    · have last := ends (loaded.image.header.baseAddr + loaded.image.header.sizeofHeaders - 1)
        (Or.inl ⟨by omega, by omega⟩) (by omega)
      omega
    · have bounded := Nat.le_trans (mapped.ends sh member positive) mapped.bounded
      rw [mapped.size] at bounded
      have last := ends (sh.virtualAddr + sh.virtualSize - 1) (Or.inr ⟨sh, member, by omega, by omega⟩) (by omega)
      omega
  · intro room
    refine ⟨fun address above below => by omega, fun address above below => ?_, fun address above below => ?_⟩
    · obtain ⟨aligned, start⟩ := pool_behind accepted room (by omega)
      refine behind_uncommitted accepted aligned above ?_ (fun sh member _ => ?_)
      · have covers := parsed.extent.start
        have smaller := parsed.header.inside
        omega
      · exact Nat.le_trans (parsed.extent.ends sh member) start
    · exact behind_uncommitted accepted (by decide) (by omega : 0x3FFF000 ≤ address) room.headers room.sections

/-- An image whose extent ends just below the top of the address space. -/
def hugeExtent : ByteVector := ofWords 0x348 (headerWords 0x348 0xFFFEF001 0)

/-- Its pool starts at zero and has the header block in it. -/
theorem hugeExtent_overlaps : ¬ ∀ loaded, (load hugeExtent).outcome = .ok loaded →
    RegionsDisjoint loaded (installThunks (fun _ => none) 0 loaded).1 := by
  intro disjoint
  have overlaps : (match (load hugeExtent).outcome with
      | .ok loaded => decide (loaded.layout.mmLo ≤ 0x10000 ∧ 0x10000 < loaded.layout.mmHi) &&
          loaded.ram.committed 0x10
      | .error _ => false) = true := by
    decide +kernel
  cases outcome : (load hugeExtent).outcome with
  | ok loaded =>
    rw [outcome] at overlaps
    obtain ⟨inPool, committed⟩ := Bool.and_eq_true_iff.mp overlaps
    obtain ⟨above, below⟩ := of_decide_eq_true inPool
    have free := (disjoint loaded outcome).poolImage 0x10000 above below
    rw [committed] at free
    cases free
  | error failure =>
    rw [outcome] at overlaps
    cases overlaps

/-! ## What installation does to the pages -/

/-- A patch leaves the pages as they are. -/
theorem patch_pages (ram : XbeRam) (slot : ThunkSlot) : XbeRam.SamePages ram (patch ram slot) := by
  unfold patch
  split
  · simp only
    split
    · exact (XbeRam.protectRw_pages _ _ _).trans ((XbeRam.writeBytes_pages _ _ _).trans (XbeRam.protectRo_pages _ _ _))
    · exact XbeRam.writeBytes_pages _ _ _
  · exact XbeRam.SamePages.refl _

/-- So does a walk. -/
theorem walk_pages (findExport : Nat → Option Conv) (kernelDataVa kt room index : Nat) (ram : XbeRam) :
    XbeRam.SamePages ram (walk findExport kernelDataVa kt room index ram).1 := by
  induction room generalizing index ram with
  | zero => exact XbeRam.SamePages.refl _
  | succ room inductionHypothesis =>
    unfold walk
    simp only
    split
    · exact XbeRam.SamePages.refl _
    · exact XbeRam.SamePages.refl _
    · exact (patch_pages _ _).trans (inductionHypothesis _ _)

/-- The data page is opened by clearing it. -/
theorem openData_ok {ram after : XbeRam} {kernelDataVa : Nat} (paged : 0 < ram.pageSize)
    (fits : kernelDataVa + 0x1000 ≤ ram.size) : (openData ram kernelDataVa).outcome = .ok after ↔
      (ram.commit kernelDataVa 0x1000).1.zeroFill kernelDataVa 0x1000 = some after := by
  obtain ⟨_, becomes⟩ := XbeRam.commit_becomes paged ⟨(by decide : 0 < 0x1000), fits⟩
  have committed : (ram.commit kernelDataVa 0x1000).1.isCommitted kernelDataVa 0x1000 = true := by
    rw [XbeRam.isCommitted_iff (becomes.pageSize ▸ paged), becomes.size]
    refine ⟨⟨by decide, fits⟩, fun page covered => ?_⟩
    rw [becomes.committed, Bool.or_eq_true, decide_eq_true_iff]
    exact Or.inr ((XbeRam.Covers.congr becomes.pageSize).mp covered)
  have pointed := XbeRam.hostPtr_of_committed (becomes.pageSize ▸ paged) committed
  unfold openData
  simp only [pointed]
  unfold Load.clear
  rw [outcome_bind]
  cases (ram.commit kernelDataVa 0x1000).1.zeroFill kernelDataVa 0x1000 <;> simp

end SeriesxEmu.LoadedXbe
