import SeriesxEmu.AttachedPages

/-!
# Which pages a call commits and frees

Both allocators commit the pages they hand out, whoever has them, and the kernel
uncommits a block that is freed. What a step of the runtime does to the committed
pages and to the attached CPUs is said here once, for every state.
-/

namespace SeriesxEmu

open GuestCpu

/-- The pages of a range inside the window have been committed. -/
structure XbeRam.Grants (ram : XbeRam) (va size : Nat) (after : XbeRam) : Prop where
  fits : 0 < size ∧ va + size ≤ ram.size
  sameSize : after.size = ram.size
  samePages : after.pageSize = ram.pageSize
  committed : ∀ page, after.committed page = (ram.committed page || decide (ram.Covers va size page))

variable {ram after : XbeRam} {va size : Nat}

/-- A page is held if it is committed and inside the window. -/
theorem XbeRam.held_iff (paged : ram.pageSize = kPage) {page : Nat} :
    ram.Held page ↔ ram.committed page = true ∧ page * kPage < ram.size := by
  have positive : 0 < ram.pageSize := by rw [paged]; decide
  rw [Held, isCommitted_iff positive]
  constructor
  · rintro ⟨⟨_, inside⟩, each⟩
    refine ⟨each page ⟨?_, ?_⟩, by omega⟩
    · rw [paged, Nat.succ_mul]
      exact Nat.lt_add_of_pos_right (by decide)
    · rw [paged]
      omega
  · rintro ⟨committed, inside⟩
    refine ⟨⟨by decide, by omega⟩, fun other covered => ?_⟩
    have same : other = page := by
      unfold Covers at covered
      rw [paged] at covered
      unfold kPage at covered
      omega
    rw [same]
    exact committed

/-- A range covers the pages that meet it. -/
theorem XbeRam.covers_pageOf (paged : ram.pageSize = kPage) {page : Nat} :
    ram.Covers va size page ↔ PageOf va size page := by
  rw [Covers, PageOf, paged]

/-- A grant adds the pages of its range. -/
theorem XbeRam.Grants.held (grants : ram.Grants va size after) (paged : ram.pageSize = kPage) (page : Nat) :
    after.Held page ↔ ram.Held page ∨ PageOf va size page := by
  have inside : PageOf va size page → page * kPage < ram.size :=
    fun covered => Nat.lt_of_lt_of_le covered.2 grants.fits.2
  rw [held_iff (grants.samePages.trans paged), held_iff paged, grants.committed, grants.sameSize, Bool.or_eq_true,
    decide_eq_true_iff, covers_pageOf paged, or_and_right]
  exact or_congr_right (and_iff_left_of_imp inside)

/-- A grant is told by the pages alone. -/
theorem XbeRam.Grants.same (grants : ram.Grants va size after) {last : XbeRam} (same : after.SamePages last) :
    ram.Grants va size last where
  fits := grants.fits
  sameSize := same.1.trans grants.sameSize
  samePages := same.2.1.trans grants.samePages
  committed := fun page => by rw [same.2.2, grants.committed]

/-- Committing a range grants it. -/
theorem XbeRam.commit_grants (paged : ram.pageSize = kPage) (succeeded : (ram.commit va size).2 = true) :
    ram.Grants va size (ram.commit va size).1 := by
  have positive : 0 < ram.pageSize := by rw [paged]; decide
  have fits := commit_ok.mp succeeded
  obtain ⟨_, becomes⟩ := commit_becomes positive fits
  exact ⟨fits, becomes.size, becomes.pageSize, becomes.committed⟩

/-- Commit and fill, as both allocators do it. -/
def XbeRam.commitFilled (ram : XbeRam) (va size : Nat) : Option XbeRam :=
  match (ram.commit va size).1.hostPtr va with
  | some addr => (ram.commit va size).1.zeroFill addr size
  | none => some (ram.commit va size).1

/-- Committing and clearing, after the commit. -/
theorem XbeRam.commitFilled_of {ok : Bool} (committing : ram.commit va size = (after, ok)) :
    ram.commitFilled va size = match after.hostPtr va with
      | some addr => after.zeroFill addr size
      | none => some after := by
  obtain rfl : (ram.commit va size).1 = after := congrArg Prod.fst committing
  rfl

/-- It grants the range, too. -/
theorem XbeRam.commitFilled_grants (paged : ram.pageSize = kPage) (succeeded : (ram.commit va size).2 = true)
    (filled : ram.commitFilled va size = some after) : ram.Grants va size after := by
  have grants := commit_grants paged succeeded
  unfold commitFilled at filled
  split at filled
  · exact grants.same (zeroFill_pages filled)
  · cases filled
    exact grants

/-- Everything outside the range stays as it is: the pages that hold no byte of it, and the
bytes on both sides. -/
structure XbeRam.Beside (ram : XbeRam) (va size : Nat) (after : XbeRam) : Prop where
  pages : ∀ page, ¬ PageOf va size page →
    after.committed page = ram.committed page ∧ after.readOnly page = ram.readOnly page
  bytes : ∀ address, address < va ∨ va + size ≤ address → after.bytes address = ram.bytes address

/-- Two changes beside a range are one. -/
theorem XbeRam.Beside.trans {last : XbeRam} (early : ram.Beside va size after) (late : after.Beside va size last) :
    ram.Beside va size last where
  pages := fun page outside =>
    ⟨(late.pages page outside).1.trans (early.pages page outside).1,
      (late.pages page outside).2.trans (early.pages page outside).2⟩
  bytes := fun address outside => (late.bytes address outside).trans (early.bytes address outside)

/-- Committing a range changes nothing beside it. -/
theorem XbeRam.commit_beside (paged : ram.pageSize = kPage) (succeeded : (ram.commit va size).2 = true) :
    ram.Beside va size (ram.commit va size).1 := by
  have positive : 0 < ram.pageSize := by rw [paged]; decide
  obtain ⟨_, becomes⟩ := commit_becomes positive (commit_ok.mp succeeded)
  refine ⟨fun page outside => ?_, fun address _ => becomes.bytes address⟩
  rw [becomes.committed, becomes.readOnly]
  simp [covers_pageOf paged, outside]

/-- Giving it back does not, either. -/
theorem XbeRam.uncommit_beside (paged : ram.pageSize = kPage) (held : ram.isCommitted va size = true) :
    ram.Beside va size (ram.uncommit va size).1 := by
  have positive : 0 < ram.pageSize := by rw [paged]; decide
  have becomes := uncommit_becomes positive held
  refine ⟨fun page outside => ?_, fun address _ => becomes.bytes address⟩
  rw [becomes.committed, becomes.readOnly]
  simp [covers_pageOf paged, outside]

/-- Clearing changes its bytes only. -/
theorem XbeRam.zeroFill_beside (filled : ram.zeroFill va size = some after) : ram.Beside va size after := by
  unfold zeroFill at filled
  split at filled
  · cases filled
    refine ⟨fun _ _ => ⟨rfl, rfl⟩, fun address outside => if_neg (by omega)⟩
  · cases filled

/-- Protecting it changes its pages only. -/
theorem XbeRam.protectRo_beside (paged : ram.pageSize = kPage) (va size : Nat) :
    ram.Beside va size (ram.protectRo va size).1 := by
  cases held : ram.isCommitted va size with
  | true =>
    have positive : 0 < ram.pageSize := by rw [paged]; decide
    have becomes := protectRo_becomes positive held
    refine ⟨fun page outside => ⟨becomes.committed page, ?_⟩, fun address _ => becomes.bytes address⟩
    rw [becomes.readOnly]
    simp [covers_pageOf paged, outside]
  | false =>
    rw [protectRo, held]
    exact ⟨fun _ _ => ⟨rfl, rfl⟩, fun _ _ => rfl⟩

/-- Committing and clearing changes nothing beside the range. -/
theorem XbeRam.commitFilled_beside (paged : ram.pageSize = kPage) (succeeded : (ram.commit va size).2 = true)
    (filled : ram.commitFilled va size = some after) : ram.Beside va size after := by
  have beside := commit_beside paged succeeded
  unfold commitFilled at filled
  split at filled
  · rename_i addr pointer
    obtain rfl : va = addr := by
      rw [hostPtr] at pointer
      split at pointer
      · exact Option.some.inj pointer
      · cases pointer
    exact beside.trans (zeroFill_beside filled)
  · cases filled
    exact beside

/-! ## The kernel's allocator -/

namespace MemoryPool

variable {pool next : MemoryPool}

/-- The arguments of `mm_alloc`. -/
structure Request where
  size : Nat
  lowest : Nat
  highest : Nat
  alignment : Nat
  protect : Nat

/-- What a call asks `mm_alloc` for. -/
def Call.request : Call → Option Request
  | .allocateContiguousMemory size => some ⟨size.toNat, 0, 0, 0, kPageReadWrite⟩
  | .allocateContiguousMemoryEx size lowest highest alignment protect =>
    some ⟨size.toNat, lowest.toNat, highest.toNat, alignment.toNat, protect.toNat⟩
  | .freeContiguousMemory _ => none

/-- The block that a request gets, when there is a place for it. -/
def blockFor (pool : MemoryPool) (request : Request) : Option MemAlloc :=
  (pool.fit request.size request.lowest request.highest request.alignment).join.map
    (fun va => ⟨va, request.size, request.protect⟩)

/-- The block that a call allocates, when its range can be committed. -/
def chosen (pool : MemoryPool) (call : Call) : Option MemAlloc :=
  (call.request.bind pool.blockFor).filter (fun block => pool.ram.rangeOk block.va block.size)

/-- The live blocks and the bounds of the pool stay. -/
structure SameBlocks (pool next : MemoryPool) : Prop where
  blocks : next.memAllocs = pool.memAllocs
  low : next.mmLo = pool.mmLo
  high : next.mmHi = pool.mmHi

/-- `mm_alloc` has recorded a block and committed its pages. -/
structure Recorded (pool : MemoryPool) (block : MemAlloc) (next : MemoryPool) : Prop where
  grants : pool.ram.Grants block.va block.size next.ram
  beside : pool.ram.Beside block.va block.size next.ram
  blocks : next.memAllocs = pool.memAllocs ++ [block]
  low : next.mmLo = pool.mmLo
  high : next.mmHi = pool.mmHi

/-- The end of `mm_alloc`: the range is not in the window, or the block is recorded. -/
theorem place_cases (paged : pool.ram.pageSize = kPage) {va size protect result : Nat}
    (placed : pool.place va size protect = some (next, result)) :
    (pool.ram.rangeOk va size = false ∧ next = pool) ∨
      (pool.ram.rangeOk va size = true ∧ pool.Recorded ⟨va, size, protect⟩ next) := by
  unfold place at placed
  split at placed
  · rename_i ram committing
    have failed : (pool.ram.commit va size).2 = false := by rw [committing]
    have same := XbeRam.commit_failed failed
    rw [committing] at same
    simp only at same
    obtain ⟨rfl, rfl⟩ := Prod.mk.inj (Option.some.inj placed)
    refine Or.inl ⟨?_, by rw [same]⟩
    by_contra inside
    rw [Bool.not_eq_false, XbeRam.rangeOk_iff, ← XbeRam.commit_ok, failed] at inside
    cases inside
  · rename_i ram committing
    have succeeded : (pool.ram.commit va size).2 = true := by rw [committing]
    obtain ⟨filled, fills, shields⟩ := Option.map_eq_some_iff.mp placed
    obtain ⟨rfl, rfl⟩ := Prod.mk.inj shields
    have zeroed : pool.ram.commitFilled va size = some filled := (XbeRam.commitFilled_of committing).trans fills
    have grants := XbeRam.commitFilled_grants paged succeeded zeroed
    have beside := XbeRam.commitFilled_beside paged succeeded zeroed
    refine Or.inr ⟨XbeRam.rangeOk_iff.mpr grants.fits, ?_, ?_, rfl, rfl, rfl⟩
    · simp only
      split
      · exact grants.same (XbeRam.protectRo_pages _ _ _)
      · exact grants
    · simp only
      split
      · exact beside.trans (XbeRam.protectRo_beside (grants.samePages.trans paged) _ _)
      · exact beside

/-- A call that asks for memory is an allocation. -/
theorem exec_request {call : Call} {request : Request} (asks : call.request = some request) :
    pool.exec call =
      pool.mmAlloc request.size request.lowest request.highest request.alignment request.protect := by
  cases call with
  | freeContiguousMemory va => cases asks
  | _ =>
    cases asks
    rfl

/-- A call that allocates leaves the pool as it is, or records the block it chooses. -/
theorem step_chosen (paged : pool.ram.pageSize = kPage) {call : Call} {request : Request}
    (asks : call.request = some request) (stepped : pool.step call = some next) :
    (next = pool ∧ pool.chosen call = none) ∨
      ∃ block, pool.chosen call = some block ∧ pool.Recorded block next := by
  obtain ⟨⟨after, result⟩, applied, rfl⟩ := Option.map_eq_some_iff.mp stepped
  rw [exec_request asks, mmAlloc_eq] at applied
  obtain ⟨found, fits, rest⟩ := Option.bind_eq_some_iff.mp applied
  rw [chosen, asks, Option.bind_some, blockFor, fits]
  cases found with
  | none =>
    obtain ⟨rfl, rfl⟩ := Prod.mk.inj (Option.some.inj rest)
    exact Or.inl ⟨rfl, rfl⟩
  | some va =>
    rw [Option.join_some, Option.map_some, Option.filter_some]
    rcases place_cases paged rest with ⟨outside, same⟩ | ⟨inside, recorded⟩
    · exact Or.inl ⟨same, if_neg (by simp [outside])⟩
    · exact Or.inr ⟨_, if_pos inside, recorded⟩

end MemoryPool

/-! ## The runtime -/

namespace UnicornRuntime

variable {uc : Unicorn} {rt next : UnicornRuntime uc}

/-- The range that `alloc_pages` hands out, when it can be committed. -/
def below (rt : UnicornRuntime uc) (bytes : Nat) : Option Interval :=
  ((rt.pagesBelow bytes).map (fun base => ⟨base, pageRound bytes⟩)).filter
    (fun range : Interval => rt.pool.ram.rangeOk range.start range.size)

/-- The range that the runtime itself takes in a step. -/
def taken (rt : UnicornRuntime uc) : Action → Option Interval
  | .allocPages bytes => rt.below bytes.toNat
  | .allocStack bytes => rt.below bytes.toNat
  | .buildTeb => rt.below ((0x200 + rt.tlsRaw.length) % 2 ^ 32)
  | .attach => none
  | .destroy _ => none
  | .krnl _ => none

/-- The block that the kernel records in a step. -/
def recorded (rt : UnicornRuntime uc) : Action → Option MemAlloc
  | .krnl call => rt.pool.chosen call
  | .attach => none
  | .destroy _ => none
  | .allocPages _ => none
  | .allocStack _ => none
  | .buildTeb => none

/-- The range that a step hands out, if any. -/
def granted (rt : UnicornRuntime uc) (action : Action) : Option Interval :=
  (rt.taken action).or ((rt.recorded action).map (fun block => ⟨block.va, block.size⟩))

/-- The range has been committed, and mapped on all CPUs. -/
structure Spread (rt : UnicornRuntime uc) (range : Interval) (next : UnicornRuntime uc) : Prop where
  grants : rt.pool.ram.Grants range.start range.size next.pool.ram
  mapped : ∃ mapper ro, rt.pool.ram.Grants range.start range.size mapper ∧
    next.cpus = rt.cpus.map (fun cpu => (cpu.mapRange mapper range.start range.size ro).1)

/-- `alloc_pages` has handed out the range below its cursor. -/
structure Lowered (rt : UnicornRuntime uc) (range : Interval) (next : UnicornRuntime uc) : Prop where
  spread : Spread rt range next
  blocks : rt.pool.SameBlocks next.pool
  top : next.top = range.start
  reaches : range.start + range.size = rt.top

/-- What a step can do, with the range that the runtime takes and the block that the kernel
records. -/
inductive Change (rt : UnicornRuntime uc) : Option Interval → Option MemAlloc → UnicornRuntime uc → Prop
  | quiet (next : UnicornRuntime uc) (pool : next.pool = rt.pool) (top : next.top = rt.top)
      (cpus : ∀ cpu ∈ next.cpus, cpu ∈ rt.cpus) : Change rt none none next
  | joined (next : UnicornRuntime uc) (cpu : GuestCpu uc) (attached : GuestCpu.attach uc rt.pool.ram = some cpu)
      (pool : next.pool = rt.pool) (top : next.top = rt.top) (cpus : next.cpus = rt.cpus ++ [cpu]) :
      Change rt none none next
  | lowered (next : UnicornRuntime uc) (range : Interval) (lowered : Lowered rt range next) :
      Change rt (some range) none next
  | placed (next : UnicornRuntime uc) (block : MemAlloc) (spread : Spread rt ⟨block.va, block.size⟩ next)
      (recorded : rt.pool.Recorded block next.pool) (top : next.top = rt.top) : Change rt none (some block) next
  | freed (next : UnicornRuntime uc) (block : MemAlloc) (live : block ∈ rt.pool.memAllocs)
      (held : rt.pool.ram.isCommitted block.va block.size = true)
      (ram : next.pool.ram = (rt.pool.ram.uncommit block.va block.size).1)
      (blocks : next.pool.memAllocs = rt.pool.memAllocs.eraseP (fun other => other.va == block.va))
      (low : next.pool.mmLo = rt.pool.mmLo) (high : next.pool.mmHi = rt.pool.mmHi) (top : next.top = rt.top)
      (cpus : next.cpus = rt.cpus.map (fun cpu => (cpu.unmapRange block.va block.size).1)) :
      Change rt none none next
  | dropped (next : UnicornRuntime uc) (va : Nat) (ram : next.pool.ram = rt.pool.ram)
      (blocks : next.pool.memAllocs = rt.pool.memAllocs.eraseP (fun other => other.va == va))
      (low : next.pool.mmLo = rt.pool.mmLo) (high : next.pool.mmHi = rt.pool.mmHi) (top : next.top = rt.top)
      (cpus : next.cpus = rt.cpus) : Change rt none none next

/-- The runtime hands out whole pages. -/
theorem pageRound_whole (bytes : Nat) : pageRound bytes % kPage = 0 := by
  have rounded : pageRound bytes = (bytes + kPage - 1) % 2 ^ 32 / 2 ^ 12 * 2 ^ 12 :=
    MemoryPool.and_mask _ 12 (Nat.mod_lt _ (by decide)) (by decide)
  rw [rounded]
  exact Nat.mul_mod_left _ _

/-- The pages below the cursor end at it. -/
theorem pagesBelow_reaches {bytes base : Nat} (found : rt.pagesBelow bytes = some base) :
    base + pageRound bytes = rt.top := by
  unfold pagesBelow at found
  simp only at found
  split at found
  · cases found
  · split at found
    · cases found
    · rename_i room
      have same := Option.some.inj found
      omega

/-- `alloc_pages` returns zero and changes nothing, or hands out the range it finds. -/
theorem allocPages_cases (paged : rt.pool.ram.pageSize = kPage) {bytes base : Nat}
    (applied : rt.allocPages bytes = some (next, base)) :
    (rt.below bytes = none ∧ next = rt ∧ base = 0) ∨
      ∃ range, rt.below bytes = some range ∧ Lowered rt range next := by
  unfold allocPages at applied
  cases found : rt.pagesBelow bytes with
  | none =>
    rw [found] at applied
    obtain ⟨rfl, rfl⟩ := Prod.mk.inj (Option.some.inj applied)
    refine Or.inl ⟨?_, rfl, rfl⟩
    rw [below, found]
    rfl
  | some start =>
    simp only [found] at applied
    have range : rt.below bytes = if rt.pool.ram.rangeOk start (pageRound bytes) then some ⟨start, pageRound bytes⟩
        else none := by
      rw [below, found, Option.map_some, Option.filter_some]
    rw [range]
    split at applied
    · rename_i ram committing
      obtain ⟨rfl, rfl⟩ := Prod.mk.inj (Option.some.inj applied)
      have outside : ¬ rt.pool.ram.rangeOk start (pageRound bytes) = true := by
        rw [XbeRam.rangeOk_iff, ← XbeRam.commit_ok, committing]
        simp
      exact Or.inl ⟨if_neg outside, rfl, rfl⟩
    · rename_i ram committing
      have succeeded : (rt.pool.ram.commit start (pageRound bytes)).2 = true := by rw [committing]
      obtain ⟨filled, fills, result⟩ := Option.map_eq_some_iff.mp applied
      obtain ⟨rfl, rfl⟩ := Prod.mk.inj result
      have zeroed : rt.pool.ram.commitFilled start (pageRound bytes) = some filled :=
        (XbeRam.commitFilled_of committing).trans fills
      have grants := XbeRam.commitFilled_grants paged succeeded zeroed
      refine Or.inr ⟨_, if_pos (XbeRam.rangeOk_iff.mpr grants.fits), ?_, ⟨rfl, rfl, rfl⟩, rfl, pagesBelow_reaches found⟩
      exact ⟨grants, filled, false, grants, rfl⟩

/-- Storing something does not move the cursor. -/
theorem Lowered.poke {range : Interval} (lowered : Lowered rt range next) (addr : Nat) (source : List UInt8) :
    Lowered rt range (next.poke addr source) where
  spread := ⟨lowered.spread.grants.same (XbeRam.writeBytes_pages _ _ _), lowered.spread.mapped⟩
  blocks := ⟨lowered.blocks.blocks, lowered.blocks.low, lowered.blocks.high⟩
  top := lowered.top
  reaches := lowered.reaches

/-- The page allocator spreads its pages below the cursor. -/
theorem allocPages_change (paged : rt.pool.ram.pageSize = kPage) {bytes base : Nat}
    (applied : rt.allocPages bytes = some (next, base)) : Change rt (rt.below bytes) none next := by
  rcases allocPages_cases paged applied with ⟨nothing, rfl, _⟩ | ⟨range, found, lowered⟩
  · rw [nothing]
    exact .quiet _ rfl rfl (fun cpu member => member)
  · rw [found]
    exact .lowered _ _ lowered

/-- A thread block is such pages, too. -/
theorem buildTeb_change (paged : rt.pool.ram.pageSize = kPage) {base : Nat}
    (applied : rt.buildTeb = some (next, base)) :
    Change rt (rt.below ((0x200 + rt.tlsRaw.length) % 2 ^ 32)) none next := by
  obtain ⟨⟨middle, start⟩, allocated, written⟩ := Option.map_eq_some_iff.mp applied
  simp only at written
  split at written
  · obtain ⟨rfl, rfl⟩ := Prod.mk.inj written
    exact allocPages_change paged allocated
  · rename_i positive
    obtain ⟨rfl, rfl⟩ := Prod.mk.inj written
    rcases allocPages_cases paged allocated with ⟨_, _, zero⟩ | ⟨range, found, lowered⟩
    · exact absurd zero positive
    · rw [found]
      exact .lowered _ _ ((((lowered.poke _ _).poke _ _).poke _ _).poke _ _)

/-- Pages that are not given back stay. -/
theorem uncommit_refused {ram : XbeRam} {va size : Nat} (refused : ¬ (ram.uncommit va size).2 = true) :
    (ram.uncommit va size).1 = ram := by
  unfold XbeRam.uncommit at refused ⊢
  split
  · rename_i held
    simp [held] at refused
  · rfl

/-- Only what is committed is given back. -/
theorem uncommit_held {ram : XbeRam} {va size : Nat} (done : (ram.uncommit va size).2 = true) :
    ram.isCommitted va size = true := by
  unfold XbeRam.uncommit at done
  split at done
  · assumption
  · cases done

/-- Freeing contiguous memory takes pages away. -/
theorem free_change {va : UInt32} (stepped : rt.krnlCall (.freeContiguousMemory va) = some next) :
    Change rt none none next := by
  unfold krnlCall at stepped
  cases found : rt.pool.memAllocs.find? (fun block => block.va == va.toNat) with
  | none =>
    simp only [found, Option.some.injEq] at stepped
    subst stepped
    have same : (rt.pool.mmFree va.toNat).1 = rt.pool := by rw [MemoryPool.mmFree, found]
    exact .quiet _ same rfl (fun cpu member => member)
  | some block =>
    simp only [found, Option.some.injEq] at stepped
    have starts : block.va = va.toNat := by simpa using List.find?_some found
    have after : (rt.pool.mmFree va.toNat).1 = { rt.pool with
        ram := (rt.pool.ram.uncommit va.toNat block.size).1
        memAllocs := rt.pool.memAllocs.eraseP (fun block => block.va == va.toNat) } := by
      rw [MemoryPool.mmFree, found]
    rw [after, ← starts] at stepped
    split at stepped
    · rename_i done
      subst stepped
      exact .freed _ block (List.mem_of_find?_eq_some found) (uncommit_held done) rfl rfl rfl rfl rfl rfl
    · rename_i refused
      subst stepped
      exact .dropped _ block.va (uncommit_refused refused) rfl rfl rfl rfl rfl

/-- A call that allocates, with the observer: the block it records is mapped. -/
theorem krnlCall_allocates {call : MemoryPool.Call} {request : MemoryPool.Request}
    (asks : call.request = some request) (stepped : rt.krnlCall call = some next) :
    ∃ pool, rt.pool.step call = some pool ∧ next = (announced rt.pool pool).elim { rt with pool } (fun block =>
      ({ rt with pool } : UnicornRuntime uc).mapOnAll block.va block.size (readonlyProtect block.protect)) := by
  cases call with
  | freeContiguousMemory va => cases asks
  | _ =>
    obtain ⟨pool, taken, result⟩ := Option.map_eq_some_iff.mp stepped
    refine ⟨pool, taken, result.symm.trans ?_⟩
    cases announced rt.pool pool <;> rfl

/-- Every call of the kernel's allocator changes the pages of its own block. -/
theorem krnlCall_change (paged : rt.pool.ram.pageSize = kPage) {call : MemoryPool.Call}
    (stepped : rt.krnlCall call = some next) : Change rt none (rt.pool.chosen call) next := by
  cases asks : call.request with
  | none =>
    rw [MemoryPool.chosen, asks]
    cases call with
    | freeContiguousMemory va => exact free_change stepped
    | _ => cases asks
  | some request =>
    obtain ⟨pool, taken, rfl⟩ := krnlCall_allocates asks stepped
    rcases MemoryPool.step_chosen paged asks taken with ⟨rfl, nothing⟩ | ⟨block, chosen, recorded⟩
    · have silent : announced rt.pool rt.pool = none := List.getElem?_eq_none (Nat.le_refl _)
      rw [nothing, silent]
      exact .quiet _ rfl rfl (fun cpu member => member)
    · have announces : announced rt.pool pool = some block := by
        rw [announced, recorded.blocks, List.getElem?_concat_length]
      rw [chosen, announces]
      exact .placed _ block ⟨recorded.grants, pool.ram, _, recorded.grants, rfl⟩ recorded rfl

/-- Everything that one step can do. -/
theorem step_change (paged : rt.pool.ram.pageSize = kPage) {action : Action} (stepped : rt.step action = some next) :
    Change rt (rt.taken action) (rt.recorded action) next := by
  cases action with
  | attach =>
    unfold step at stepped
    simp only at stepped
    split at stepped
    · rename_i cpu attached
      cases stepped
      exact .joined _ cpu attached rfl rfl rfl
    · cases stepped
      exact .quiet _ rfl rfl (fun cpu member => member)
  | destroy index =>
    unfold step at stepped
    simp only at stepped
    split at stepped
    · cases stepped
      exact .quiet _ rfl rfl (fun cpu member => List.mem_of_mem_eraseIdx member)
    · cases stepped
  | allocPages bytes =>
    obtain ⟨⟨after, base⟩, applied, rfl⟩ := Option.map_eq_some_iff.mp stepped
    exact allocPages_change paged applied
  | allocStack bytes =>
    obtain ⟨⟨after, base⟩, applied, rfl⟩ := Option.map_eq_some_iff.mp stepped
    obtain ⟨⟨middle, start⟩, allocated, same⟩ := Option.map_eq_some_iff.mp applied
    obtain ⟨rfl, rfl⟩ := Prod.mk.inj same
    exact allocPages_change paged allocated
  | buildTeb =>
    obtain ⟨⟨after, base⟩, applied, rfl⟩ := Option.map_eq_some_iff.mp stepped
    exact buildTeb_change paged applied
  | krnl call => exact krnlCall_change paged stepped

end UnicornRuntime

end SeriesxEmu
