import Mathlib.Order.Bounds.Basic
import Mathlib.Order.CompletePartialOrder
import Mathlib.Order.Interval.Set.Disjoint
import SeriesxEmu.ContiguousMemory

/-!
# First fit is exact

`mm_alloc` does not try one address after the other: from a candidate that meets some blocks it
jumps past the furthest end of those. It finds the least suitable address nevertheless, for every
table of blocks in the pool, because what is skipped meets one of them. The sums of the scan are
compared with the same scan over unbounded integers.

The range that is found is then committed and zeroed through a host pointer. Pages that are
committed already keep their protection, and nobody looks at it: on a read-only page the host
faults.
-/

namespace SeriesxEmu

namespace MemoryPool

/-! ## The scan without a word size -/

/-- Rounding up without a wrap. -/
def alignUpExact (value align : Nat) : Nat := (value + align - 1) / align * align

/-- A block meets a candidate, in exact arithmetic. -/
def collidesExact (cand size : Nat) (block : MemAlloc) : Bool :=
  block.va < cand + size && cand < block.va + block.size

/-- The blocks that a candidate meets, and the end of the last of them. -/
def collisionsExact (blocks : List MemAlloc) (cand size : Nat) : Bool × Nat :=
  blocks.foldl (fun (collided, maxEnd) block =>
    if collidesExact cand size block then (true, max maxEnd (block.va + block.size))
    else (collided, maxEnd)) (false, cand)

/-- The scan, in exact arithmetic. -/
def scanExact (blocks : List MemAlloc) (align size hi : Nat) : Nat → Nat → Option (Option Nat)
  | 0, _ => none
  | turns + 1, cand =>
    if hi < cand ∨ hi - cand + 1 < size then some none
    else
      match collisionsExact blocks cand size with
      | (false, _) => some (some cand)
      | (true, maxEnd) => scanExact blocks align size hi turns (alignUpExact maxEnd align)

/-- The first-fit search of `mm_alloc` behind its checks, with sums of any size. -/
def fitExact (pool : MemoryPool) (size lowest highest alignment : Nat) : Option (Option Nat) :=
  if size = 0 ∨ pool.mmHi ≤ pool.mmLo then some none
  else
    let wanted := if alignment ≠ 0 then alignment else 4096
    if wanted &&& (wanted - 1) ≠ 0 then some none
    else
      let align := if wanted < 4096 then 4096 else wanted
      let lo := max pool.mmLo lowest
      let hi := min (if highest = 0 then pool.mmHi - 1 else highest) (pool.mmHi - 1)
      if hi < lo ∨ hi - lo + 1 < size then some none
      else scanExact pool.memAllocs align size hi (pool.memAllocs.length + 1) (alignUpExact lo align)

variable {pool : MemoryPool} {cand size align hi : Nat}

/-- In a pool of words no sum over the blocks wraps. -/
theorem Housed.collisions_exact (housed : pool.Housed) (word : cand + size < 2 ^ 32) :
    collisions pool.memAllocs cand size = collisionsExact pool.memAllocs cand size := by
  have words := housed.words
  refine List.foldl_ext _ _ _ (fun _ block member => ?_)
  have below := housed.below block member
  have ends : (block.va + block.size) % 2 ^ 32 = block.va + block.size := Nat.mod_eq_of_lt (by omega)
  have same : collides cand size block = collidesExact cand size block := by
    rw [collides, collidesExact, ends, Nat.mod_eq_of_lt word]
  simp only [same, ends]

/-- Blocks inside of the pool make the scan exact: no sum wraps. -/
theorem Housed.scan_exact (housed : pool.Housed) (power : align.isPowerOfTwo) (small : align ≤ 2 ^ 31)
    (below : hi < pool.mmHi) (turns cand : Nat) :
    MemoryPool.scan pool.memAllocs align size hi turns cand = scanExact pool.memAllocs align size hi turns cand := by
  have words := housed.words
  induction turns generalizing cand with
  | zero => rfl
  | succ turns inductionHypothesis =>
    have room : (hi - cand + 1) % 2 ^ 32 = hi - cand + 1 := Nat.mod_eq_of_lt (by omega)
    rw [MemoryPool.scan, scanExact, room]
    split
    · rfl
    · rename_i inside
      rw [housed.collisions_exact (by omega)]
      obtain ⟨_, _, _, origin⟩ := collisions_spec pool.memAllocs cand size
      rw [housed.collisions_exact (by omega)] at origin
      generalize collisionsExact pool.memAllocs cand size = outcome at origin ⊢
      obtain ⟨collided, maxEnd⟩ := outcome
      cases collided with
      | false => rfl
      | true =>
        have bounded : maxEnd ≤ pool.mmHi := by
          rcases origin with same | ⟨block, member, _, same⟩
          · simp only at same
            omega
          · have inPool := housed.below block member
            simp only at same
            omega
        simp only [alignUp_eq maxEnd power (by omega), inductionHypothesis, alignUpExact]

/-- The whole search is exact. -/
theorem Housed.fit_exact (housed : pool.Housed) (size lowest highest : Nat) {alignment : Nat}
    (word : alignment < 2 ^ 32) :
    pool.fit size lowest highest alignment = pool.fitExact size lowest highest alignment := by
  have words := housed.words
  unfold MemoryPool.fit fitExact
  split
  · rfl
  · rename_i usable
    simp only
    generalize wantedEq : (if alignment ≠ 0 then alignment else 4096) = wanted
    split
    · rfl
    · rename_i power
      have wantedPower : wanted.isPowerOfTwo := by
        refine (Nat.and_sub_one_eq_zero_iff_isPowerOfTwo ?_).mp (by simpa using power)
        split at wantedEq <;> omega
      generalize alignEq : (if wanted < 4096 then 4096 else wanted) = align
      have alignPower : align.isPowerOfTwo := by
        split at alignEq
        · exact alignEq ▸ ⟨12, rfl⟩
        · exact alignEq ▸ wantedPower
      have alignSmall : align ≤ 2 ^ 31 := power_bound alignPower (by split at wantedEq <;> split at alignEq <;> omega)
      generalize highEq : min (if highest = 0 then pool.mmHi - 1 else highest) (pool.mmHi - 1) = hi
      have high : hi < pool.mmHi := by omega
      rw [Nat.mod_eq_of_lt (by omega)]
      split
      · rfl
      · rename_i room
        rw [housed.scan_exact alignPower alignSmall high, alignUp_eq _ alignPower (by omega), alignUpExact]

/-! ## What is allocated -/

/-- The greatest address of the pool that a request may use. -/
def upperBound (pool : MemoryPool) (highest : Nat) : Nat :=
  min (if highest = 0 then pool.mmHi - 1 else highest) (pool.mmHi - 1)

/-- A block of the size may start at the address. -/
structure Available (pool : MemoryPool) (size lowest highest alignment va : Nat) : Prop where
  multiple : max 4096 alignment ∣ va
  above : max pool.mmLo lowest ≤ va
  below : va + size ≤ pool.upperBound highest + 1
  free : ∀ block ∈ pool.memAllocs, Disjoint (Set.Ico va (va + size)) (Set.Ico block.va (block.va + block.size))

/-- A request that is turned down whatever is free. -/
def Refuses (pool : MemoryPool) (size alignment : Nat) : Prop :=
  size = 0 ∨ pool.mmHi ≤ pool.mmLo ∨ ¬ (alignment = 0 ∨ alignment.isPowerOfTwo)

/-- First fit is exact for the request: none of its sums wraps, it turns the request down exactly
when that is refused or no address is available, and otherwise returns the least address, provided
that `commit` succeeds on the range. -/
def FitsExactly (pool : MemoryPool) (size lowest highest alignment protect : Nat) : Prop :=
  pool.fit size lowest highest alignment = pool.fitExact size lowest highest alignment ∧
    (pool.Refuses size alignment ∨ (∀ va, ¬ pool.Available size lowest highest alignment va) →
      pool.mmAlloc size lowest highest alignment protect = some (pool, 0)) ∧
    (¬ pool.Refuses size alignment → (∃ va, pool.Available size lowest highest alignment va) →
      ∃ va, IsLeast {va | pool.Available size lowest highest alignment va} va ∧ 0 < va ∧
        ((pool.ram.commit va size).2 = true →
          ∃ next, pool.mmAlloc size lowest highest alignment protect = some (next, va)))

/-- No page of the range has been committed and made read-only before. -/
def Unprotected (pool : MemoryPool) (va size : Nat) : Prop :=
  ∀ page, pool.ram.Covers va size page → pool.ram.committed page = true → pool.ram.readOnly page = false

/-- The first range that suits the request can be zeroed. -/
def FindsUnprotected (pool : MemoryPool) (size lowest highest alignment : Nat) : Prop :=
  ¬ pool.Refuses size alignment → ∀ va, IsLeast {va | pool.Available size lowest highest alignment va} va →
    (pool.ram.commit va size).2 = true → pool.Unprotected va size

/-- An address suits when the request is not refused and the address is available. -/
theorem suits_iff {lowest highest alignment va : Nat} (blocks : ∀ block ∈ pool.memAllocs, 0 < block.size) :
    pool.Suits size lowest highest alignment va ↔
      ¬ pool.Refuses size alignment ∧ pool.Available size lowest highest alignment va := by
  have bound : 0 < pool.mmHi → (va + size ≤ pool.upperBound highest + 1 ↔
      va + size ≤ pool.mmHi ∧ (highest ≠ 0 → va + size ≤ highest + 1)) := by
    intro inhabited
    unfold upperBound
    split <;> omega
  have apart : 0 < size → ∀ block ∈ pool.memAllocs,
      (Disjoint (Set.Ico va (va + size)) (Set.Ico block.va (block.va + block.size)) ↔
        block.va + block.size ≤ va ∨ va + size ≤ block.va) := by
    intro nonempty block member
    have inhabited := blocks block member
    rw [Set.Ico_disjoint_Ico]
    omega
  constructor
  · intro suits
    have above := suits.above
    have below := suits.below
    have nonempty := suits.nonempty
    refine ⟨?_, suits.multiple, above, (bound (by omega)).mpr ⟨below, suits.constraint⟩,
      fun block member => (apart nonempty block member).mpr (suits.free block member)⟩
    rintro (zero | empty | crooked)
    · omega
    · omega
    · exact crooked suits.power
  · rintro ⟨accepted, available⟩
    unfold Refuses at accepted
    rw [not_or, not_or, not_not] at accepted
    have nonempty : 0 < size := by omega
    have above := available.above
    obtain ⟨below, constraint⟩ := (bound (by omega)).mp available.below
    exact ⟨nonempty, accepted.2.2, available.multiple, above, below, constraint,
      fun block member => (apart nonempty block member).mp (available.free block member)⟩

/-- What `commit` leaves writable. -/
theorem commit_writable {va : Nat} (paged : 0 < pool.ram.pageSize) (commits : (pool.ram.commit va size).2 = true) :
    (pool.ram.commit va size).1.writable va size = true ↔ pool.Unprotected va size := by
  have fits := XbeRam.commit_ok.mp commits
  obtain ⟨_, becomes⟩ := XbeRam.commit_becomes paged fits
  rw [XbeRam.writable_iff (becomes.pageSize.symm ▸ paged), becomes.size]
  constructor
  · rintro ⟨_, each⟩ page covers committed
    have still := (each page ((XbeRam.Covers.congr becomes.pageSize).mpr covers)).2
    rw [becomes.readOnly, committed, Bool.true_or, Bool.and_true] at still
    exact still
  · intro unprotected
    refine ⟨fits, fun page covers => ?_⟩
    have covered := (XbeRam.Covers.congr becomes.pageSize).mp covers
    rw [becomes.committed, becomes.readOnly, decide_eq_true covered]
    cases committed : pool.ram.committed page with
    | true => simp [unprotected page covered committed]
    | false => simp

/-- When `commit` hands the range over, its address is returned unless the store of the zeros
faults. -/
theorem place_iff {va protect : Nat} (paged : 0 < pool.ram.pageSize) (commits : (pool.ram.commit va size).2 = true) :
    (∃ next, pool.place va size protect = some (next, va)) ↔ pool.Unprotected va size := by
  have fits := XbeRam.commit_ok.mp commits
  obtain ⟨_, becomes⟩ := XbeRam.commit_becomes paged fits
  have pagedAfter : 0 < (pool.ram.commit va size).1.pageSize := becomes.pageSize.symm ▸ paged
  have held : (pool.ram.commit va size).1.isCommitted va size = true := by
    rw [XbeRam.isCommitted_iff pagedAfter, becomes.size]
    refine ⟨fits, fun page covers => ?_⟩
    rw [becomes.committed, decide_eq_true ((XbeRam.Covers.congr becomes.pageSize).mp covers), Bool.or_true]
  have pointer := XbeRam.hostPtr_of_committed pagedAfter held
  rw [← commit_writable paged commits]
  unfold place
  generalize pool.ram.commit va size = committing at commits pointer
  obtain ⟨ram, flag⟩ := committing
  obtain rfl : flag = true := commits
  dsimp only at pointer ⊢
  rw [pointer]
  cases usable : ram.writable va size with
  | true => simp [XbeRam.zeroFill, usable]
  | false => simp [XbeRam.zeroFill, usable]

/-- `mm_alloc` is exact first fit, for a request in any pool of the window, exactly if the first
suitable range can be zeroed.

Proof: the scan agrees with the one over unbounded integers, and finds the least suitable address
because every address it has jumped over meets a block. What is left is the end of `mm_alloc`,
which has a result exactly if `commit` leaves the range writable. -/
theorem first_fit_iff (pool : MemoryPool) (paged : 0 < pool.ram.pageSize) (window : pool.mmHi ≤ 2 ^ 26)
    (positive : 0 < pool.mmLo)
    (blocks : ∀ block ∈ pool.memAllocs, 0 < block.size ∧ pool.mmLo ≤ block.va ∧ block.va + block.size ≤ pool.mmHi)
    (size lowest highest alignment protect : Nat) (word : alignment < 2 ^ 32) :
    pool.FitsExactly size lowest highest alignment protect ↔
      pool.FindsUnprotected size lowest highest alignment := by
  have housed : pool.Housed := ⟨by omega, fun block member => (blocks block member).2.2⟩
  have suits : ∀ va, pool.Suits size lowest highest alignment va ↔
      ¬ pool.Refuses size alignment ∧ pool.Available size lowest highest alignment va :=
    fun va => suits_iff (fun block member => (blocks block member).1)
  obtain ⟨result, fits, good, first⟩ := housed.fit size lowest highest alignment word
  -- the range that is found is the least suitable one
  have chosen : ¬ pool.Refuses size alignment → (∃ va, pool.Available size lowest highest alignment va) →
      ∃ least, IsLeast {va | pool.Available size lowest highest alignment va} least ∧
        pool.mmAlloc size lowest highest alignment protect = pool.place least size protect := by
    rintro accepted ⟨va, available⟩
    obtain ⟨least, found, _⟩ := first va ((suits va).mpr ⟨accepted, available⟩)
    refine ⟨least, ⟨((suits least).mp (good least found)).2, fun other suitable => ?_⟩, ?_⟩
    · obtain ⟨again, same, below⟩ := first other ((suits other).mpr ⟨accepted, suitable⟩)
      rw [found] at same
      exact Option.some.inj same ▸ below
    · rw [mmAlloc_eq, fits, found]
      rfl
  constructor
  · rintro ⟨_, _, serves⟩ accepted va least commits
    obtain ⟨again, leastAgain, _, served⟩ := serves accepted ⟨va, least.1⟩
    obtain rfl := least.unique leastAgain
    obtain ⟨other, leastOther, placed⟩ := chosen accepted ⟨va, least.1⟩
    obtain rfl := least.unique leastOther
    have returned := served commits
    rw [placed] at returned
    exact (place_iff paged commits).mp returned
  · intro unprotected
    refine ⟨housed.fit_exact size lowest highest word, fun unavailable => ?_, fun accepted suitable => ?_⟩
    · have nothing : result = none := by
        rw [Option.eq_none_iff_forall_ne_some]
        intro va found
        obtain ⟨accepted, available⟩ := (suits va).mp (good va found)
        rcases unavailable with refused | nowhere
        · exact accepted refused
        · exact nowhere va available
      rw [mmAlloc_eq, fits, nothing]
      rfl
    · obtain ⟨least, isLeast, placed⟩ := chosen accepted suitable
      have above := isLeast.1.above
      refine ⟨least, isLeast, by omega, fun commits => ?_⟩
      rw [placed]
      exact (place_iff paged commits).mpr (unprotected accepted least isLeast commits)

/-- Two overlapping blocks out of order in a pool of four pages. -/
def crowded : MemoryPool :=
  { ram := {}, mmLo := 0x1000, mmHi := 0x5000,
    memAllocs := [⟨0x2800, 0x100, 4⟩, ⟨0x1000, 0x10, 4⟩, ⟨0x1800, 0x1800, 4⟩] }

/-- A request to a pool with two blocks gets the first gap that fits. -/
theorem crowded_exact : crowded.FitsExactly 0x1000 0 0 0 kPageReadWrite :=
  (first_fit_iff crowded (by decide) (by decide) (by decide) (by decide) 0x1000 0 0 0 kPageReadWrite
    (by decide)).mpr (fun _ _ _ _ _ _ committed => by cases committed)

/-- A pool in host pages of 16 KiB, whose second half is one such page. -/
def largePages : MemoryPool := { ram := { pageSize := 0x4000 }, mmLo := 0x4000, mmHi := 0x8000 }

/-- A read-only block in the first four KiB of the host page has protected all of it. -/
def halfProtected : MemoryPool :=
  ((largePages.mmAlloc 0x1000 0 0 0 kPageReadonly).map Prod.fst).getD largePages

/-- The next block is put on the same page: `commit` succeeds, and the host faults. -/
theorem halfProtected_faults : ¬ ∀ (pool : MemoryPool), 0 < pool.ram.pageSize → pool.mmHi ≤ 2 ^ 26 → 0 < pool.mmLo →
    (∀ block ∈ pool.memAllocs, 0 < block.size ∧ pool.mmLo ≤ block.va ∧ block.va + block.size ≤ pool.mmHi) →
    ∀ size lowest highest alignment protect, alignment < 2 ^ 32 →
      pool.FitsExactly size lowest highest alignment protect := by
  intro always
  obtain ⟨_, _, serves⟩ := always halfProtected (by decide +kernel) (by decide +kernel) (by decide +kernel)
    (by decide +kernel) 0x1000 0 0 0 kPageReadWrite (by decide)
  have available : halfProtected.Available 0x1000 0 0 0 0x5000 := by
    refine ⟨by decide, by decide +kernel, by decide +kernel, fun block member => ?_⟩
    rw [Set.Ico_disjoint_Ico]
    revert block
    decide +kernel
  obtain ⟨va, ⟨chosen, least⟩, _, served⟩ := serves (by unfold Refuses; decide +kernel) ⟨0x5000, available⟩
  have faults : (halfProtected.mmAlloc 0x1000 0 0 0 kPageReadWrite).isNone = true := by decide +kernel
  have commits : (halfProtected.ram.commit va 0x1000).2 = true := by
    rw [XbeRam.commit_ok]
    have top := least available
    have size : halfProtected.ram.size = 0x4000000 := by decide +kernel
    omega
  obtain ⟨next, returned⟩ := served commits
  rw [returned] at faults
  cases faults

end MemoryPool

end SeriesxEmu
