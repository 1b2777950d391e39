import SeriesxEmu.GuestAllocators
import SeriesxEmu.GuestWords
import SeriesxEmu.SegmentDescriptors

/-!
# Thread blocks

Every guest thread has a block of its own, which the runtime lays out once and a CPU makes the segment of
FS. Through FS the thread finds the address of its block and the array of its TLS slots, whose first entry
leads to its copy of the TLS template. What the runtime and the kernel's allocator do afterwards leaves the
block as it is, as long as they stay apart.
-/

namespace SeriesxEmu

open SegmentDescriptors GuestCpu

/-! ## The descriptor table -/

/-- `put_desc`. -/
def putDesc (base limit access flags : Nat) : List UInt8 :=
  [UInt8.ofNat limit, UInt8.ofNat (limit / 2 ^ 8), UInt8.ofNat base, UInt8.ofNat (base / 2 ^ 8),
    UInt8.ofNat (base / 2 ^ 16), UInt8.ofNat access,
    UInt8.ofNat ((flags % 2 ^ 4) <<< 4 ||| limit / 2 ^ 16 % 2 ^ 4), UInt8.ofNat (base / 2 ^ 24)]

/-- The selector of the code segment. -/
def kSelCs : Nat := 0x08
/-- The selector of the data segment. -/
def kSelDs : Nat := 0x10
/-- The selector of the segment that the thread block lies in. -/
def kSelFs : Nat := 0x18

/-- `build_gdt`: no segment, the code, the data, and the block of the thread. -/
def buildGdt (tebVa : Nat) : List UInt8 :=
  putDesc 0 0 0 0 ++ putDesc 0 0xFFFFF 0x9A 0xC ++ putDesc 0 0xFFFFF 0x92 0xC ++ putDesc tebVa 0xFFF 0x92 0x4

/-- The limit of the table that `build_gdt` gives to the CPU. -/
def gdtLimit : Nat := 4 * 8 - 1

/-- A descriptor decodes to the base, limit, access and flags that were put into it. -/
theorem decode_putDesc {base access : Nat} (address : base < 2 ^ 32) (byte : access < 2 ^ 8) (limit flags : Nat) :
    decode (putDesc base limit access flags) =
      { base, limit := limit % 2 ^ 20, access, flags := flags % 2 ^ 4 } := by
  have joined : (flags % 2 ^ 4) <<< 4 ||| limit / 2 ^ 16 % 2 ^ 4 = flags % 2 ^ 4 * 2 ^ 4 + limit / 2 ^ 16 % 2 ^ 4 := by
    rw [← Nat.shiftLeft_add_eq_or_of_lt (Nat.mod_lt _ (by decide)), Nat.shiftLeft_eq]
  simp only [decode, putDesc, joined, List.getD_cons_zero, List.getD_cons_succ, UInt8.toNat_ofNat',
    Descriptor.mk.injEq]
  refine ⟨by omega, by omega, by omega, by omega⟩

/-- The segment of FS: one page of data, in bytes. -/
def blockSegment (tebVa : Nat) : Descriptor := { base := tebVa, limit := 0xFFF, access := 0x92, flags := 4 }

/-- An offset inside of the block's page translates to the same offset from the block. -/
theorem blockSegment_linear {tebVa offset : Nat} (fits : tebVa + offset < 2 ^ 32) :
    (blockSegment tebVa).linear offset 4 = if offset + 4 ≤ 0x1000 then some (tebVa + offset) else none := by
  have present : (blockSegment tebVa).access.testBit 7 = true := show Nat.testBit 0x92 7 = true by decide
  have bytes : (blockSegment tebVa).flags.testBit 3 = false := show Nat.testBit 4 3 = false by decide
  exact linear_bytes present bytes fits

/-- An offset past the page is refused. -/
theorem blockSegment_beyond {tebVa offset : Nat} (beyond : 0x1000 < offset + 4) :
    (blockSegment tebVa).linear offset 4 = none := by
  have bytes : (blockSegment tebVa).flags.testBit 3 = false := show Nat.testBit 4 3 = false by decide
  exact linear_beyond bytes beyond

/-- The segments of a thread whose block lies at an address. -/
theorem buildGdt_segments {tebVa : Nat} (address : tebVa < 2 ^ 32) :
    selected (buildGdt tebVa) gdtLimit kSelCs = some (flat 0x9A) ∧
      selected (buildGdt tebVa) gdtLimit kSelDs = some (flat 0x92) ∧
      selected (buildGdt tebVa) gdtLimit kSelFs = some (blockSegment tebVa) := by
  have code := @decode_putDesc 0 0x9A (by decide) (by decide) 0xFFFFF 0xC
  have data := @decode_putDesc 0 0x92 (by decide) (by decide) 0xFFFFF 0xC
  have block := @decode_putDesc tebVa 0x92 address (by decide) 0xFFF 0x4
  refine ⟨?_, ?_, ?_⟩
  · rw [selected, if_neg (by decide)]
    exact congrArg some code
  · rw [selected, if_neg (by decide)]
    exact congrArg some data
  · rw [selected, if_neg (by decide)]
    exact congrArg some block

/-! ## Ranges that are spared -/

/-- The pages and the bytes of a range are as they were. -/
structure XbeRam.Spares (ram after : XbeRam) (range : Interval) : Prop where
  size : after.size = ram.size
  pageSize : after.pageSize = ram.pageSize
  pages : ∀ page, PageOf range.start range.size page →
    after.committed page = ram.committed page ∧ after.readOnly page = ram.readOnly page
  bytes : ∀ address, range.Has address → after.bytes address = ram.bytes address

namespace XbeRam

variable {ram middle after : XbeRam} {range : Interval}

/-- Memory spares every range of itself. -/
theorem Spares.refl (ram : XbeRam) (range : Interval) : ram.Spares ram range :=
  ⟨rfl, rfl, fun _ _ => ⟨rfl, rfl⟩, fun _ _ => rfl⟩

/-- Ranges spared twice are spared. -/
theorem Spares.trans (early : ram.Spares middle range) (late : middle.Spares after range) : ram.Spares after range := by
  constructor
  · exact late.size.trans early.size
  · exact late.pageSize.trans early.pageSize
  · intro page onRange
    obtain ⟨committed, readOnly⟩ := early.pages page onRange
    obtain ⟨committed', readOnly'⟩ := late.pages page onRange
    exact ⟨committed'.trans committed, readOnly'.trans readOnly⟩
  · exact fun address inside => (late.bytes address inside).trans (early.bytes address inside)

/-- A spared range that was writable is writable still. -/
theorem Spares.writable (spares : ram.Spares after range) (paged : ram.pageSize = kPage)
    (usable : ram.writable range.start range.size = true) : after.writable range.start range.size = true := by
  have positive : 0 < ram.pageSize := by rw [paged]; decide
  have positive' : 0 < after.pageSize := by rw [spares.pageSize]; exact positive
  rw [writable_iff positive] at usable
  rw [writable_iff positive', spares.size]
  refine ⟨usable.1, fun page covered => ?_⟩
  rw [Covers.congr spares.pageSize] at covered
  obtain ⟨committed, readOnly⟩ := spares.pages page ((covers_pageOf paged).mp covered)
  rw [committed, readOnly]
  exact usable.2 page covered

/-- A change beside another range spares this one. -/
theorem Beside.spares {va size : Nat} (beside : ram.Beside va size after) (same : after.size = ram.size)
    (samePages : after.pageSize = ram.pageSize) (apart : UnicornRuntime.NoPageShared range ⟨va, size⟩) :
    ram.Spares after range := by
  refine ⟨same, samePages, fun page onRange => beside.pages page (apart page onRange), fun address inside => ?_⟩
  refine beside.bytes address ?_
  by_contra within
  have onRange : PageOf range.start range.size (address / kPage) := by
    unfold Interval.Has at inside
    unfold PageOf kPage
    omega
  refine apart _ onRange ?_
  unfold PageOf kPage
  simp only
  omega

/-- A store inside of a range leaves everything beside it. -/
theorem writeBytes_beside (ram : XbeRam) (addr : Nat) (source : List UInt8) {va size : Nat} (low : va ≤ addr)
    (high : addr + source.length ≤ va + size) : ram.Beside va size (ram.writeBytes addr source).1 := by
  have within := XbeRam.Within.writeBytes ram addr source
  refine ⟨fun page _ => ?_, fun address outside => within.bytes address (by omega)⟩
  obtain ⟨-, -, committed, readOnly⟩ := within.pages
  rw [committed, readOnly]
  exact ⟨rfl, rfl⟩

/-- What has been written is read back. -/
theorem readBytes_written {addr : Nat} {source : List UInt8} (usable : ram.writable addr source.length = true) :
    (ram.writeBytes addr source).1.readBytes addr source.length = some source := by
  have within := XbeRam.Within.writeBytes ram addr source
  have held : (ram.writeBytes addr source).1.readable addr source.length = true :=
    isCommitted_of_writable ((within.writable addr source.length).trans usable)
  rw [readBytes, if_pos held, writeBytes, if_pos usable, Option.some.injEq]
  refine List.ext_getElem (by simp) fun place inside _ => ?_
  have below : place < source.length := by simpa using inside
  simp [below]

/-- Pages that have been committed and filled are writable and full of zeros. -/
theorem commitFilled_zeros {va size : Nat} (paged : ram.pageSize = kPage) (succeeded : (ram.commit va size).2 = true)
    (filled : ram.commitFilled va size = some after) : after.writable va size = true ∧
      ∀ address, (⟨va, size⟩ : Interval).Has address → after.bytes address = 0 := by
  have positive : 0 < ram.pageSize := by rw [paged]; decide
  have fits := commit_ok.mp succeeded
  obtain ⟨-, becomes⟩ := commit_becomes positive fits
  have positive' : 0 < (ram.commit va size).1.pageSize := by rw [becomes.pageSize]; exact positive
  have held : (ram.commit va size).1.isCommitted va size = true := by
    rw [isCommitted_iff positive', becomes.size]
    refine ⟨fits, fun page covered => ?_⟩
    rw [Covers.congr becomes.pageSize] at covered
    rw [becomes.committed, decide_eq_true covered, Bool.or_true]
  unfold commitFilled at filled
  rw [hostPtr_of_committed positive' held] at filled
  simp only [zeroFill] at filled
  split at filled
  · rename_i usable
    obtain rfl := Option.some.inj filled
    exact ⟨usable, fun address inside => if_pos inside⟩
  · cases filled

end XbeRam

namespace UnicornRuntime

variable {uc : Unicorn} {rt next : UnicornRuntime uc} {ranges : List Interval}

/-! ## What the runtime does to its own pages -/

/-- `alloc_pages` changes nothing, or commits and fills the range it hands out. -/
theorem allocPages_filled {bytes base : Nat} (applied : rt.allocPages bytes = some (next, base)) :
    (next = rt ∧ base = 0) ∨
      ∃ range, rt.below bytes = some range ∧ range.start = base ∧ next.tlsRaw = rt.tlsRaw ∧
        (rt.pool.ram.commit range.start range.size).2 = true ∧
        rt.pool.ram.commitFilled range.start range.size = some next.pool.ram := by
  unfold allocPages at applied
  cases found : rt.pagesBelow bytes with
  | none =>
    rw [found] at applied
    obtain ⟨rfl, rfl⟩ := Prod.mk.inj (Option.some.inj applied)
    exact Or.inl ⟨rfl, rfl⟩
  | some start =>
    simp only [found] at applied
    split at applied
    · obtain ⟨rfl, rfl⟩ := Prod.mk.inj (Option.some.inj applied)
      exact Or.inl ⟨rfl, rfl⟩
    · rename_i ram committing
      have succeeded : (rt.pool.ram.commit start (pageRound bytes)).2 = true := by rw [committing]
      obtain ⟨filled, fills, result⟩ := Option.map_eq_some_iff.mp applied
      obtain ⟨rfl, rfl⟩ := Prod.mk.inj result
      have zeroed := (XbeRam.commitFilled_of committing).trans fills
      have fits := XbeRam.rangeOk_iff.mpr (XbeRam.commit_ok.mp succeeded)
      refine Or.inr ⟨⟨start, pageRound bytes⟩, ?_, rfl, rfl, succeeded, zeroed⟩
      rw [below, found, Option.map_some, Option.filter_some, if_pos fits]

/-- The rounded size holds as many bytes as were asked for, when the range could be committed. -/
theorem below_holds {bytes : Nat} {range : Interval} (word : bytes < 2 ^ 32) (found : rt.below bytes = some range) :
    bytes ≤ range.size ∧ range.start + range.size = rt.top := by
  obtain ⟨mapped, inside⟩ := Option.filter_eq_some_iff.mp found
  obtain ⟨base, here, rfl⟩ := Option.map_eq_some_iff.mp mapped
  refine ⟨?_, pagesBelow_reaches here⟩
  have nonEmpty := (XbeRam.rangeOk_iff.mp inside).1
  have rounded : pageRound bytes = (bytes + kPage - 1) % 2 ^ 32 / 2 ^ 12 * 2 ^ 12 :=
    MemoryPool.and_mask _ 12 (Nat.mod_lt _ (by decide)) (by decide)
  simp only [rounded, kPage] at nonEmpty ⊢
  omega

/-- What a thread finds in its block. -/
structure Block (ram : XbeRam) (base : Nat) (tlsRaw : List UInt8) : Prop where
  self : ram.read32 (base + 0x18) = some base
  array : ram.read32 (base + 0x04) = some (base + 0x100)
  first : ram.read32 (base + 0x100) = some (base + 0x200)
  others : ∀ slot, 0 < slot → slot < 64 → ram.read32 (base + 0x100 + 4 * slot) = some 0
  template : tlsRaw ≠ [] → ram.readBytes (base + 0x200) tlsRaw.length = some tlsRaw

/-- The four stores of `build_teb`. -/
theorem stores_block {ram : XbeRam} {base size : Nat} {tlsRaw : List UInt8} (usable : ram.writable base size = true)
    (zeros : ∀ address, (⟨base, size⟩ : Interval).Has address → ram.bytes address = 0)
    (fits : 0x200 + tlsRaw.length ≤ size) (page : kPage ≤ size) (words : base + size ≤ 2 ^ 32) :
    Block ((((ram.write32 (base + 0x18) base).write32 (base + 0x04) (base + 0x100)).write32 (base + 0x100)
      (base + 0x200)).writeBytes (base + 0x200) tlsRaw).1 base tlsRaw := by
  unfold kPage at page
  have word {place : Nat} (inside : place + 4 ≤ size) : ram.writable (base + place) 4 = true :=
    XbeRam.writable_word usable (by omega) (by omega)
  have behind := XbeRam.Within.writeBytes (((ram.write32 (base + 0x18) base).write32 (base + 0x04)
    (base + 0x100)).write32 (base + 0x100) (base + 0x200)) (base + 0x200) tlsRaw
  constructor
  · rw [behind.read32 (by omega), XbeRam.read32_write32_other (by omega), XbeRam.read32_write32_other (by omega),
      XbeRam.read32_write32 (word (by omega)), Nat.mod_eq_of_lt (by omega)]
  · have stored : (ram.write32 (base + 0x18) base).writable (base + 0x04) 4 = true := by
      rw [XbeRam.writable_write32]
      exact word (by omega)
    rw [behind.read32 (by omega), XbeRam.read32_write32_other (by omega), XbeRam.read32_write32 stored,
      Nat.mod_eq_of_lt (by omega)]
  · have stored : ((ram.write32 (base + 0x18) base).write32 (base + 0x04) (base + 0x100)).writable
        (base + 0x100) 4 = true := by
      rw [XbeRam.writable_write32, XbeRam.writable_write32]
      exact word (by omega)
    rw [behind.read32 (by omega), XbeRam.read32_write32 stored, Nat.mod_eq_of_lt (by omega)]
  · intro slot positive below
    rw [behind.read32 (by omega), XbeRam.read32_write32_other (by omega), XbeRam.read32_write32_other (by omega),
      XbeRam.read32_write32_other (by omega), XbeRam.read32_eq (by rw [Nat.add_assoc]; exact word (by omega))]
    have empty : (List.range 4).map (fun offset => ram.bytes (base + 0x100 + 4 * slot + offset)) = [0, 0, 0, 0] := by
      have zero (offset : Nat) (small : offset < 4) : ram.bytes (base + 0x100 + 4 * slot + offset) = 0 :=
        zeros _ ⟨by simp only; omega, by simp only; omega⟩
      have start := zero 0 (by decide)
      rw [Nat.add_zero] at start
      simp [List.range_succ, zero, start]
    rw [empty]
    rfl
  · intro nonEmpty
    refine XbeRam.readBytes_written ?_
    rw [XbeRam.writable_write32, XbeRam.writable_write32, XbeRam.writable_write32]
    exact XbeRam.writable_inner usable (List.length_pos_iff.mpr nonEmpty) (by omega) (by omega)

/-- The stores of `build_teb` all lie inside of the block. -/
theorem stores_beside (ram : XbeRam) {base size : Nat} {tlsRaw : List UInt8} (fits : 0x200 + tlsRaw.length ≤ size) :
    ram.Beside base size ((((ram.write32 (base + 0x18) base).write32 (base + 0x04) (base + 0x100)).write32
      (base + 0x100) (base + 0x200)).writeBytes (base + 0x200) tlsRaw).1 := by
  have word (ram : XbeRam) (addr value : Nat) (low : base ≤ addr) (high : addr + 4 ≤ base + size) :
      ram.Beside base size (ram.write32 addr value) := XbeRam.writeBytes_beside ram addr _ low high
  have first := word ram (base + 0x18) base (by omega) (by omega)
  have second := first.trans (word _ (base + 0x04) (base + 0x100) (by omega) (by omega))
  have third := second.trans (word _ (base + 0x100) (base + 0x200) (by omega) (by omega))
  exact third.trans (XbeRam.writeBytes_beside _ _ _ (by omega) (by omega))

/-- `build_teb` returns zero, or a page of its own holds the block. -/
theorem buildTeb_block (paged : rt.pool.ram.pageSize = kPage) (words : rt.pool.ram.size ≤ 2 ^ 32)
    (small : 0x200 + rt.tlsRaw.length < 2 ^ 32) {base : Nat} (built : rt.buildTeb = some (next, base)) :
    next.tlsRaw = rt.tlsRaw ∧ ((next = rt ∧ base = 0) ∨ ∃ range, rt.taken .buildTeb = some range ∧
      rt.pool.ram.Beside range.start range.size next.pool.ram ∧ (base ≠ 0 → range.start = base ∧
        kPage ≤ range.size ∧ 0x200 + rt.tlsRaw.length ≤ range.size ∧ range.start + range.size ≤ 2 ^ 32 ∧
        next.pool.ram.writable range.start range.size = true ∧ Block next.pool.ram base rt.tlsRaw)) := by
  obtain ⟨⟨middle, start⟩, allocated, written⟩ := Option.map_eq_some_iff.mp built
  rw [Nat.mod_eq_of_lt small] at allocated
  obtain ⟨rfl, rfl⟩ | ⟨range, found, rfl, same, succeeded, filled⟩ := allocPages_filled allocated
  · obtain ⟨rfl, rfl⟩ := Prod.mk.inj written
    exact ⟨rfl, Or.inl ⟨rfl, rfl⟩⟩
  · have beside := XbeRam.commitFilled_beside paged succeeded filled
    have taken : rt.taken .buildTeb = some range := by rw [taken, Nat.mod_eq_of_lt small, found]
    obtain ⟨positive, whole⟩ := below_spec found
    obtain ⟨holds, -⟩ := below_holds small found
    have inside := (XbeRam.commit_ok.mp succeeded).2
    simp only at written
    split at written
    · rename_i zero
      obtain ⟨rfl, rfl⟩ := Prod.mk.inj written
      exact ⟨same, Or.inr ⟨range, taken, beside, fun given => absurd rfl given⟩⟩
    · obtain ⟨rfl, rfl⟩ := Prod.mk.inj written
      obtain ⟨usable, zeros⟩ := XbeRam.commitFilled_zeros paged succeeded filled
      have page : kPage ≤ range.size := by
        unfold kPage at whole ⊢
        omega
      refine ⟨same, Or.inr ⟨range, taken, ?_, fun _ => ⟨rfl, page, holds, by omega, ?_, ?_⟩⟩⟩
      · exact beside.trans (stores_beside middle.pool.ram holds)
      · have behind := XbeRam.Within.writeBytes (((middle.pool.ram.write32 (range.start + 0x18) range.start).write32
          (range.start + 0x04) (range.start + 0x100)).write32 (range.start + 0x100) (range.start + 0x200))
          (range.start + 0x200) rt.tlsRaw
        have still := behind.writable range.start range.size
        rw [XbeRam.writable_write32, XbeRam.writable_write32, XbeRam.writable_write32, usable] at still
        exact still
      · exact stores_block usable zeros holds page (by omega)

/-! ## Runs -/

/-- A step of the runtime itself leaves the memory alone, or works inside the range that it takes. -/
theorem taken_beside (paged : rt.pool.ram.pageSize = kPage) (words : rt.pool.ram.size ≤ 2 ^ 32)
    (small : 0x200 + rt.tlsRaw.length < 2 ^ 32) {action : Action} (own : ∀ call, action ≠ .krnl call)
    (stepped : rt.step action = some next) :
    next.pool.ram = rt.pool.ram ∨
      ∃ range, rt.taken action = some range ∧ rt.pool.ram.Beside range.start range.size next.pool.ram := by
  have pages {bytes base : Nat} {after : UnicornRuntime uc} (applied : rt.allocPages bytes = some (after, base)) :
      after.pool.ram = rt.pool.ram ∨
        ∃ range, rt.below bytes = some range ∧ rt.pool.ram.Beside range.start range.size after.pool.ram := by
    obtain ⟨rfl, -⟩ | ⟨range, found, -, -, succeeded, filled⟩ := allocPages_filled applied
    · exact Or.inl rfl
    · exact Or.inr ⟨range, found, XbeRam.commitFilled_beside paged succeeded filled⟩
  cases action with
  | attach =>
    rw [step] at stepped
    split at stepped
    · obtain rfl := Option.some.inj stepped
      exact Or.inl rfl
    · obtain rfl := Option.some.inj stepped
      exact Or.inl rfl
  | destroy index =>
    rw [step] at stepped
    split at stepped
    · obtain rfl := Option.some.inj stepped
      exact Or.inl rfl
    · cases stepped
  | allocPages bytes =>
    obtain ⟨⟨after, base⟩, applied, rfl⟩ := Option.map_eq_some_iff.mp stepped
    exact pages applied
  | allocStack bytes =>
    obtain ⟨⟨after, base⟩, applied, rfl⟩ := Option.map_eq_some_iff.mp stepped
    obtain ⟨⟨middle, start⟩, allocated, same⟩ := Option.map_eq_some_iff.mp applied
    obtain ⟨rfl, rfl⟩ := Prod.mk.inj same
    exact pages allocated
  | buildTeb =>
    obtain ⟨⟨after, base⟩, applied, rfl⟩ := Option.map_eq_some_iff.mp stepped
    obtain ⟨-, ⟨rfl, -⟩ | ⟨range, taken, beside, -⟩⟩ := buildTeb_block paged words small applied
    · exact Or.inl rfl
    · exact Or.inr ⟨range, taken, beside⟩
  | krnl call => exact absurd rfl (own call)

/-- No step changes the bytes of the TLS template. -/
theorem step_tlsRaw {action : Action} (stepped : rt.step action = some next) : next.tlsRaw = rt.tlsRaw := by
  have pages {bytes base : Nat} {after : UnicornRuntime uc} (applied : rt.allocPages bytes = some (after, base)) :
      after.tlsRaw = rt.tlsRaw := by
    obtain ⟨rfl, -⟩ | ⟨range, -, -, same, -⟩ := allocPages_filled applied
    · rfl
    · exact same
  cases action with
  | attach =>
    rw [step] at stepped
    split at stepped
    · obtain rfl := Option.some.inj stepped
      rfl
    · obtain rfl := Option.some.inj stepped
      rfl
  | destroy index =>
    rw [step] at stepped
    split at stepped
    · obtain rfl := Option.some.inj stepped
      rfl
    · cases stepped
  | allocPages bytes =>
    obtain ⟨⟨after, base⟩, applied, rfl⟩ := Option.map_eq_some_iff.mp stepped
    exact pages applied
  | allocStack bytes =>
    obtain ⟨⟨after, base⟩, applied, rfl⟩ := Option.map_eq_some_iff.mp stepped
    obtain ⟨⟨middle, start⟩, allocated, same⟩ := Option.map_eq_some_iff.mp applied
    obtain ⟨rfl, rfl⟩ := Prod.mk.inj same
    exact pages allocated
  | buildTeb =>
    obtain ⟨⟨after, base⟩, applied, rfl⟩ := Option.map_eq_some_iff.mp stepped
    obtain ⟨⟨middle, start⟩, allocated, written⟩ := Option.map_eq_some_iff.mp applied
    have same := pages allocated
    simp only at written
    split at written
    · obtain ⟨rfl, rfl⟩ := Prod.mk.inj written
      exact same
    · obtain ⟨rfl, rfl⟩ := Prod.mk.inj written
      exact same
  | krnl call =>
    cases asks : call.request with
    | some request =>
      obtain ⟨pool, -, rfl⟩ := krnlCall_allocates asks stepped
      cases announced rt.pool pool with
      | none => rfl
      | some block => rfl
    | none =>
      cases call with
      | freeContiguousMemory va =>
        simp only [step, krnlCall] at stepped
        split at stepped
        · obtain rfl := Option.some.inj stepped
          split
          · rfl
          · rfl
        · obtain rfl := Option.some.inj stepped
          rfl
      | _ => cases asks

/-- No step changes the size of the memory. -/
theorem step_size (paged : rt.pool.ram.pageSize = kPage) {action : Action} (stepped : rt.step action = some next) :
    next.pool.ram.size = rt.pool.ram.size := by
  have change := step_change paged stepped
  generalize rt.taken action = taken, rt.recorded action = recorded at change
  cases change with
  | quiet next pool top cpus => rw [pool]
  | joined next cpu attached pool top cpus => rw [pool]
  | lowered next range lowered => exact lowered.spread.grants.sameSize
  | placed next block spread recorded top => exact spread.grants.sameSize
  | freed next block live held ram blocks low high top cpus =>
    have positive : 0 < rt.pool.ram.pageSize := by rw [paged]; decide
    rw [ram]
    exact (XbeRam.uncommit_becomes positive held).size
  | dropped next va ram blocks low high top cpus => rw [ram]

/-- What holds of the runtime besides the layout. -/
structure Sized (rt : UnicornRuntime uc) : Prop where
  words : rt.pool.ram.size ≤ 2 ^ 32
  small : 0x200 + rt.tlsRaw.length < 2 ^ 32

/-- A step with room spares everything that the runtime has taken. -/
theorem Stacked.step_spares {origin : Nat} (stacked : Stacked origin rt ranges) (apart : AllApart (rt, ranges))
    (sized : rt.Sized) {action : Action} (stepped : rt.step action = some next) (room : rt.Room action) :
    Stacked origin next (noteTaken rt action next ranges) ∧ AllApart (next, noteTaken rt action next ranges) ∧
      next.Sized ∧ ∀ range ∈ ranges, rt.pool.ram.Spares next.pool.ram range := by
  obtain ⟨after, still⟩ := stacked.step_iff apart stepped
  have apart' := still.mpr room
  have size := step_size stacked.paged stepped
  have pageSize : next.pool.ram.pageSize = rt.pool.ram.pageSize := after.paged.trans stacked.paged.symm
  refine ⟨after, apart', ⟨by rw [size]; exact sized.words, by rw [step_tlsRaw stepped]; exact sized.small⟩, ?_⟩
  intro range member
  by_cases kernel : ∃ call, action = .krnl call
  · obtain ⟨call, rfl⟩ := kernel
    have spares := stacked.kernelSpares apart fun watched taken => by
      rw [Runs.watch, stepped, Option.map_some] at taken
      obtain rfl := Option.some.inj taken
      exact apart'
    obtain ⟨pages, bytes⟩ := spares call rfl next stepped range member
    exact ⟨size, pageSize, pages, bytes⟩
  · have own : ∀ call, action ≠ .krnl call := fun call same => kernel ⟨call, same⟩
    obtain same | ⟨new, taken, beside⟩ := taken_beside stacked.paged sized.words sized.small own stepped
    · rw [same]
      exact XbeRam.Spares.refl _ _
    · refine beside.spares size pageSize ?_
      rw [AllApart, noteTaken, taken, List.append_assoc, List.pairwise_append] at apart'
      exact apart'.2.2 range member new (List.mem_append_left _ List.mem_cons_self)

/-- Over a run. -/
theorem Stacked.run_spares {origin : Nat} {final : UnicornRuntime uc} {actions : List Action}
    (stacked : Stacked origin rt ranges) (apart : AllApart (rt, ranges)) (sized : rt.Sized)
    (clear : Runs.Along step Clear rt actions) (completed : Runs.run step rt actions = some final) :
    ∃ more, Stacked origin final (ranges ++ more) ∧ AllApart (final, ranges ++ more) ∧ final.Sized ∧
      final.tlsRaw = rt.tlsRaw ∧ ∀ range ∈ ranges, rt.pool.ram.Spares final.pool.ram range := by
  induction actions generalizing rt ranges with
  | nil =>
    obtain rfl : rt = final := Option.some.inj completed
    refine ⟨[], ?_, ?_, sized, rfl, fun range _ => XbeRam.Spares.refl _ _⟩
    · rwa [List.append_nil]
    · rwa [List.append_nil]
  | cons action rest inductionHypothesis =>
    obtain ⟨next, stepped, remaining⟩ := (Runs.run_cons rt final action rest).mp completed
    have room := clear.1 (by rw [stepped]; exact Option.some_ne_none next)
    obtain ⟨after, apart', sized', spares⟩ := stacked.step_spares apart sized stepped room
    obtain ⟨more, last, apart'', sized'', same, later⟩ :=
      inductionHypothesis after apart' sized' (clear.2 next stepped) remaining
    rw [noteTaken, List.append_assoc] at last apart''
    refine ⟨_, last, apart'', sized'', same.trans (step_tlsRaw stepped), fun range member => ?_⟩
    exact (spares range member).trans (later range (List.mem_append_left _ member))

/-! ## What a thread finds -/

/-- A word that the guest reads through a segment. -/
def readWord (ram : XbeRam) (gdt : List UInt8) (selector offset : Nat) : Option Nat :=
  ((selected gdt gdtLimit selector).bind (fun descriptor => descriptor.linear offset 4)).bind ram.read32

/-- Bytes that the guest reads through a segment. -/
def readThrough (ram : XbeRam) (gdt : List UInt8) (selector offset size : Nat) : Option (List UInt8) :=
  ((selected gdt gdtLimit selector).bind (fun descriptor => descriptor.linear offset size)).bind
    (fun address => ram.readBytes address size)

/-- A block in a range that is spared stays as it is. -/
theorem Block.spared {ram after : XbeRam} {base size : Nat} {tlsRaw : List UInt8} (block : Block ram base tlsRaw)
    (spares : ram.Spares after ⟨base, size⟩) (paged : ram.pageSize = kPage) (usable : ram.writable base size = true)
    (fits : 0x200 + tlsRaw.length ≤ size) : Block after base tlsRaw := by
  have still : after.writable base size = true := spares.writable paged usable
  have bytes {start count : Nat} (positive : 0 < count) (low : base ≤ start) (high : start + count ≤ base + size) :
      after.readBytes start count = ram.readBytes start count :=
    XbeRam.readBytes_held usable still positive low high fun address above below =>
      spares.bytes address ⟨by simp only; omega, by simp only; omega⟩
  have word {start : Nat} (low : base ≤ start) (high : start + 4 ≤ base + size) :
      after.read32 start = ram.read32 start := by
    rw [XbeRam.read32, bytes (by decide) low high, XbeRam.read32]
  constructor
  · rw [word (by omega) (by omega)]
    exact block.self
  · rw [word (by omega) (by omega)]
    exact block.array
  · rw [word (by omega) (by omega)]
    exact block.first
  · intro slot positive below
    rw [word (by omega) (by omega)]
    exact block.others slot positive below
  · intro nonEmpty
    rw [bytes (List.length_pos_iff.mpr nonEmpty) (by omega) (by omega)]
    exact block.template nonEmpty

/-- **Thread blocks.** When the runtime has built a block for a thread, then in every later state of
a run in which the two allocators stay apart the thread finds, through the segments of its CPU, its
own address and its TLS array in the block, the slots behind the first one empty, and its copy of
the template behind the first; and FS reaches no further than a page.

Proof: `build_teb` fills the block, and every later step of a stacked runtime spares what has been
taken. The segments of the thread then lead into the block. -/
theorem thread_blocks (pool : MemoryPool) (kernelDataVa : Nat) (tlsRaw : List UInt8) (untouched : pool.Untouched)
    (words : pool.ram.size ≤ 2 ^ 32) (aligned : (create uc pool kernelDataVa tlsRaw).top % kPage = 0)
    (behind : pool.mmHi ≤ (create uc pool kernelDataVa tlsRaw).top) (small : 0x200 + tlsRaw.length < 2 ^ 32)
    (before later : List Action) (final : UnicornRuntime uc) (base : Nat)
    (clear : Runs.Along step Clear (create uc pool kernelDataVa tlsRaw) before)
    (reached : Runs.run step (create uc pool kernelDataVa tlsRaw) before = some rt) (room : rt.Room .buildTeb)
    (built : rt.buildTeb = some (next, base)) (given : base ≠ 0) (clear' : Runs.Along step Clear next later)
    (completed : Runs.run step next later = some final) :
    let word := readWord final.pool.ram (buildGdt base)
    word kSelFs 0x18 = some base ∧ word kSelFs 0x04 = some (base + 0x100) ∧
      word kSelDs (base + 0x100) = some (base + 0x200) ∧
      (∀ slot, 0 < slot → slot < 64 → word kSelDs (base + 0x100 + 4 * slot) = some 0) ∧
      (tlsRaw ≠ [] → readThrough final.pool.ram (buildGdt base) kSelDs (base + 0x200) tlsRaw.length = some tlsRaw) ∧
      ∀ offset, kPage < offset + 4 → word kSelFs offset = none := by
  intro word
  obtain ⟨stacked, apart⟩ := @stacked_start uc pool kernelDataVa tlsRaw untouched aligned behind
  obtain ⟨ranges, stacked, apart, sized, same, -⟩ := stacked.run_spares apart ⟨words, small⟩ clear reached
  rw [List.nil_append] at stacked apart
  have stepped : rt.step .buildTeb = some next := by rw [step, built, Option.map_some]
  obtain ⟨stacked', apart', sized', -⟩ := stacked.step_spares apart sized stepped room
  obtain ⟨-, ⟨-, zero⟩ | ⟨range, taken, -, filled⟩⟩ := buildTeb_block stacked.paged sized.words sized.small built
  · exact absurd zero given
  · obtain ⟨rfl, page, fits, below, usable, block⟩ := filled given
    rw [show rt.tlsRaw = tlsRaw from same] at fits block
    obtain ⟨-, -, -, -, -, spares⟩ := stacked'.run_spares apart' sized' clear' completed
    have spared := spares range (by rw [noteTaken, taken]; exact List.mem_append_right _ List.mem_cons_self)
    have here := block.spared spared stacked'.paged usable fits
    unfold kPage at page
    obtain ⟨-, data, own⟩ := @buildGdt_segments range.start (by omega)
    have present : Nat.testBit 0x92 7 = true := by decide
    have through {offset : Nat} (inside : offset + 4 ≤ kPage) :
        word kSelFs offset = final.pool.ram.read32 (range.start + offset) := by
      unfold kPage at inside
      simp only [word, readWord, own, Option.bind_some]
      rw [blockSegment_linear (by omega), if_pos inside, Option.bind_some]
    have straight {address size : Nat} (inside : address + size ≤ 2 ^ 32) (positive : 0 < size) :
        (selected (buildGdt range.start) gdtLimit kSelDs).bind (fun descriptor => descriptor.linear address size) =
          some address := by
      rw [data, Option.bind_some]
      exact linear_flat present inside (by omega)
    refine ⟨?_, ?_, ?_, ?_, ?_, ?_⟩
    · rw [through (by decide)]
      exact here.self
    · rw [through (by decide)]
      exact here.array
    · simp only [word, readWord]
      rw [straight (by omega) (by decide)]
      exact here.first
    · intro slot positive few
      simp only [word, readWord]
      rw [straight (by omega) (by decide)]
      exact here.others slot positive few
    · intro nonEmpty
      rw [readThrough, straight (by omega) (List.length_pos_iff.mpr nonEmpty)]
      exact here.template nonEmpty
    · intro offset beyond
      unfold kPage at beyond
      simp only [word, readWord, own, Option.bind_some]
      rw [blockSegment_beyond beyond, Option.bind_none]

/-- A thread whose block is followed by another one. -/
theorem twoBlocks_found : ∃ next final : UnicornRuntime pageTable,
    (create pageTable bigImage 0x3FFF000 [1, 2, 3]).buildTeb = some (next, 0x3FFE000) ∧
      Runs.run step next [.buildTeb] = some final ∧
      readWord final.pool.ram (buildGdt 0x3FFE000) kSelFs 0x18 = some 0x3FFE000 := by
  have untouched : bigImage.Untouched :=
    ⟨rfl, by decide, by decide, by decide, by decide, rfl, fun _ _ _ => rfl⟩
  have first : ((create pageTable bigImage 0x3FFF000 [1, 2, 3]).buildTeb).map
      (fun built => (built.2, built.1.pool.memAllocs, (built.1.step .buildTeb).isSome)) =
      some (0x3FFE000, [], true) := by decide +kernel
  obtain ⟨⟨next, base⟩, built, observed⟩ := Option.map_eq_some_iff.mp first
  simp only [Prod.mk.injEq] at observed
  obtain ⟨rfl, noLive, steps⟩ := observed
  obtain ⟨final, stepped⟩ := Option.isSome_iff_exists.mp steps
  have completed : Runs.run step next [.buildTeb] = some final :=
    (Runs.run_cons next final Action.buildTeb []).mpr ⟨final, stepped, rfl⟩
  have room : next.Room .buildTeb := by
    intro range _ block live
    rw [noLive] at live
    cases live
  have clear : Runs.Along step Clear next [.buildTeb] := ⟨fun _ => room, fun _ _ => trivial⟩
  obtain ⟨self, -⟩ := thread_blocks bigImage 0x3FFF000 [1, 2, 3] untouched (by decide) (by decide) (by decide)
    (by decide) [] [.buildTeb] final 0x3FFE000 trivial rfl (fun _ _ block live => by cases live) built (by decide) clear
    completed
  exact ⟨next, final, built, completed, self⟩

end UnicornRuntime

end SeriesxEmu
