import SeriesxEmu.GuestPages
import SeriesxEmu.Runs
import Mathlib.Data.List.Count
import Mathlib.Data.Nat.Bitwise

/-!
# The contiguous memory allocator

`mm_alloc`, `mm_free` and `mm_size` serve the four `Mm` exports from a pool of
guest pages. A block starts on a page and need not end on one, so the byte-level
collision test of the first-fit scan also has to keep two blocks off one page.
All sums are 32-bit.

The scan of the source has no bound. Here it counts its turns down from one more
than the number of blocks, and has no result when they are used up; that never
happens.
-/

namespace SeriesxEmu

/-- `PAGE_READONLY`. -/
def kPageReadonly : Nat := 0x02

/-- `PAGE_READWRITE`. -/
def kPageReadWrite : Nat := 0x04

/-- `PAGE_NOCACHE`, a modifier. -/
def kPageNocache : Nat := 0x200

/-- `XboxKrnl::MemAlloc`. -/
structure MemAlloc where
  va : Nat
  size : Nat
  protect : Nat
deriving DecidableEq, Repr

/-- The part of the kernel that the allocator works on: the guest memory, the pool
and the live blocks in the order they were allocated. -/
structure MemoryPool where
  ram : XbeRam
  mmLo : Nat
  mmHi : Nat
  memAllocs : List MemAlloc := []

/-- `(value + align - 1) & ~(align - 1)`. -/
def alignUp (value align : Nat) : Nat := (value + align - 1) % 2 ^ 32 &&& (2 ^ 32 - 1 - (align - 1))

/-- The protection without the cache bit is the read-only one. -/
def readonlyProtect (protect : Nat) : Bool := protect &&& (2 ^ 32 - 1 - kPageNocache) == kPageReadonly

namespace MemoryPool

/-- One turn of the inner loop: the block meets the candidate. -/
def collides (cand size : Nat) (block : MemAlloc) : Bool :=
  block.va < (cand + size) % 2 ^ 32 && cand < (block.va + block.size) % 2 ^ 32

/-- The inner loop: `collided` and `max_end`. -/
def collisions (blocks : List MemAlloc) (cand size : Nat) : Bool × Nat :=
  blocks.foldl (fun (collided, maxEnd) block =>
    if collides cand size block then (true, max maxEnd ((block.va + block.size) % 2 ^ 32))
    else (collided, maxEnd)) (false, cand)

/-- The first-fit scan from a candidate: no result when the turns are used up, and
nothing found when the candidate has left the range. -/
def scan (blocks : List MemAlloc) (align size hi : Nat) : Nat → Nat → Option (Option Nat)
  | 0, _ => none
  | turns + 1, cand =>
    if hi < cand ∨ (hi - cand + 1) % 2 ^ 32 < size then some none
    else
      match collisions blocks cand size with
      | (false, _) => some (some cand)
      | (true, maxEnd) => scan blocks align size hi turns (alignUp maxEnd align)

/-- The end of `mm_alloc`: commit, zero, protect and record the block. No result
when a store faults. -/
def place (pool : MemoryPool) (cand size protect : Nat) : Option (MemoryPool × Nat) :=
  match pool.ram.commit cand size with
  | (ram, false) => some ({ pool with ram }, 0)
  | (ram, true) =>
    let filled :=
      match ram.hostPtr cand with
      | some addr => ram.zeroFill addr size
      | none => some ram
    filled.map (fun ram =>
      let shielded := if readonlyProtect protect then (ram.protectRo cand size).1 else ram
      ({ pool with ram := shielded, memAllocs := pool.memAllocs ++ [{ va := cand, size, protect }] }, cand))

/-- `mm_alloc`. -/
def mmAlloc (pool : MemoryPool) (size lowest highest alignment protect : Nat) : Option (MemoryPool × Nat) :=
  if size = 0 ∨ pool.mmHi ≤ pool.mmLo then some (pool, 0)
  else
    let wanted := if alignment ≠ 0 then alignment else 4096
    if wanted &&& (wanted - 1) ≠ 0 then some (pool, 0)
    else
      let align := if wanted < 4096 then 4096 else wanted
      let lo := max pool.mmLo lowest
      let hi := min (if highest = 0 then pool.mmHi - 1 else highest) (pool.mmHi - 1)
      if hi < lo ∨ (hi - lo + 1) % 2 ^ 32 < size then some (pool, 0)
      else
        match scan pool.memAllocs align size hi (pool.memAllocs.length + 1) (alignUp lo align) with
        | none => none
        | some none => some (pool, 0)
        | some (some cand) => pool.place cand size protect

/-- The first-fit scan of `mm_alloc` behind its checks: the place it finds, if any. No result
when the turns are used up. -/
def fit (pool : MemoryPool) (size lowest highest alignment : Nat) : Option (Option Nat) :=
  if size = 0 ∨ pool.mmHi ≤ pool.mmLo then some none
  else
    let wanted := if alignment ≠ 0 then alignment else 4096
    if wanted &&& (wanted - 1) ≠ 0 then some none
    else
      let align := if wanted < 4096 then 4096 else wanted
      let lo := max pool.mmLo lowest
      let hi := min (if highest = 0 then pool.mmHi - 1 else highest) (pool.mmHi - 1)
      if hi < lo ∨ (hi - lo + 1) % 2 ^ 32 < size then some none
      else scan pool.memAllocs align size hi (pool.memAllocs.length + 1) (alignUp lo align)

/-- An allocation is a search and a placement. -/
theorem mmAlloc_eq (pool : MemoryPool) (size lowest highest alignment protect : Nat) :
    pool.mmAlloc size lowest highest alignment protect =
      (pool.fit size lowest highest alignment).bind
        (fun found => found.elim (some (pool, 0)) (fun va => pool.place va size protect)) := by
  unfold mmAlloc fit
  split
  · rfl
  · simp only
    generalize (if alignment ≠ 0 then alignment else 4096) = wanted
    split
    · rfl
    · generalize (if wanted < 4096 then 4096 else wanted) = align
      generalize (if highest = 0 then pool.mmHi - 1 else highest) = bound
      split
      · rfl
      · cases scan pool.memAllocs _ size _ _ _ with
        | none => rfl
        | some found => cases found <;> rfl

/-- `mm_free`: the pool afterwards, and whether there was a block at the address. -/
def mmFree (pool : MemoryPool) (va : Nat) : MemoryPool × Bool :=
  match pool.memAllocs.find? (fun block => block.va == va) with
  | none => (pool, false)
  | some block =>
    ({ pool with
        ram := (pool.ram.uncommit va block.size).1
        memAllocs := pool.memAllocs.eraseP (fun block => block.va == va) }, true)

/-- `mm_size`. -/
def mmSize (pool : MemoryPool) (va : Nat) : Nat :=
  ((pool.memAllocs.find? (fun block => block.va == va)).map MemAlloc.size).getD 0

/-- The calls that change the pool, with the 32-bit words the guest passes. -/
inductive Call where
  | allocateContiguousMemory (size : UInt32)
  | allocateContiguousMemoryEx (size lowest highest alignment protect : UInt32)
  | freeContiguousMemory (va : UInt32)
deriving DecidableEq

/-- One call, with its result. -/
def exec (pool : MemoryPool) : Call → Option (MemoryPool × Nat)
  | .allocateContiguousMemory size => pool.mmAlloc size.toNat 0 0 0 kPageReadWrite
  | .allocateContiguousMemoryEx size lowest highest alignment protect =>
    pool.mmAlloc size.toNat lowest.toNat highest.toNat alignment.toNat protect.toNat
  | .freeContiguousMemory va => some ((pool.mmFree va.toNat).1, 0)

/-- What a call leaves of the pool. -/
def step (pool : MemoryPool) (call : Call) : Option MemoryPool := (pool.exec call).map Prod.fst

/-! ## The invariant -/

/-- What every block satisfies: it starts on a page and lies in the pool. -/
structure Placed (pool : MemoryPool) (block : MemAlloc) : Prop where
  word : block.protect < 2 ^ 32
  aligned : block.va % 4096 = 0
  nonempty : 0 < block.size
  above : pool.mmLo ≤ block.va
  below : block.va + block.size ≤ pool.mmHi

/-- Two blocks have no byte in common. -/
def Apart (left right : MemAlloc) : Prop := left.va + left.size ≤ right.va ∨ right.va + right.size ≤ left.va

/-- The page holds a byte of the block. -/
def OnPage (block : MemAlloc) (page : Nat) : Prop :=
  block.va < (page + 1) * 4096 ∧ page * 4096 < block.va + block.size

/-- The pages of the pool are those of the live blocks. -/
structure Ok (pool : MemoryPool) : Prop where
  paged : pool.ram.pageSize = 4096
  window : pool.mmHi ≤ pool.ram.size
  words : pool.mmHi ≤ 2 ^ 31
  lowAligned : pool.mmLo % 4096 = 0
  highAligned : pool.mmHi % 4096 = 0
  placed : ∀ block ∈ pool.memAllocs, pool.Placed block
  apart : pool.memAllocs.Pairwise Apart
  committed : ∀ page, pool.mmLo ≤ page * 4096 → page * 4096 < pool.mmHi →
    (pool.ram.committed page = true ↔ ∃ block ∈ pool.memAllocs, OnPage block page)
  readOnly : ∀ block ∈ pool.memAllocs, ∀ page, OnPage block page →
    pool.ram.readOnly page = readonlyProtect block.protect

/-- A pool that nobody has used: page-aligned, without blocks or committed pages. -/
structure Untouched (pool : MemoryPool) : Prop where
  paged : pool.ram.pageSize = 4096
  window : pool.mmHi ≤ pool.ram.size
  words : pool.mmHi ≤ 2 ^ 31
  lowAligned : pool.mmLo % 4096 = 0
  highAligned : pool.mmHi % 4096 = 0
  unused : pool.memAllocs = []
  uncommitted : ∀ page, pool.mmLo ≤ page * 4096 → page * 4096 < pool.mmHi → pool.ram.committed page = false

/-- A pool that nobody has used is sound. -/
theorem Untouched.ok {pool : MemoryPool} (untouched : pool.Untouched) : pool.Ok := by
  refine ⟨untouched.paged, untouched.window, untouched.words, untouched.lowAligned, untouched.highAligned,
    ?_, ?_, ?_, ?_⟩
  · simp [untouched.unused]
  · simp [untouched.unused]
  · intro page low high
    simp [untouched.unused, untouched.uncommitted page low high]
  · simp [untouched.unused]

variable {pool : MemoryPool} {cand size align hi : Nat}

/-- Blocks that start on pages and share no byte share no page: each of them has the
first byte of every page it reaches. -/
theorem Apart.pages {left right : MemAlloc} (apart : Apart left right) (leftAligned : left.va % 4096 = 0)
    (rightAligned : right.va % 4096 = 0) {page : Nat} (onLeft : OnPage left page) : ¬ OnPage right page := by
  intro onRight
  unfold Apart at apart
  unfold OnPage at onLeft onRight
  omega

/-- Where a block may lie depends on the bounds of the pool only. -/
theorem Placed.congr {next : MemoryPool} {block : MemAlloc} (placed : pool.Placed block)
    (low : next.mmLo = pool.mmLo) (high : next.mmHi = pool.mmHi) : next.Placed block := by
  refine ⟨placed.word, placed.aligned, placed.nonempty, ?_, ?_⟩
  · rw [low]
    exact placed.above
  · rw [high]
    exact placed.below

/-- The pages of a block lie in the pool. -/
theorem Placed.page {block : MemAlloc} (placed : pool.Placed block) (ok : pool.Ok) {page : Nat}
    (onPage : OnPage block page) : pool.mmLo ≤ page * 4096 ∧ page * 4096 < pool.mmHi := by
  have aligned := placed.aligned
  have above := placed.above
  have below := placed.below
  have low := ok.lowAligned
  unfold OnPage at onPage
  omega

/-- The pages of a block are those that its range covers. -/
theorem Ok.covers (ok : pool.Ok) (block : MemAlloc) (page : Nat) :
    pool.ram.Covers block.va block.size page ↔ OnPage block page := by
  rw [XbeRam.Covers, OnPage, ok.paged]

/-- Pages are not empty. -/
theorem Ok.positive (ok : pool.Ok) : 0 < pool.ram.pageSize := by
  rw [ok.paged]
  decide

/-! ## Rounding up -/

/-- Clearing the low bits of a word rounds it down to a multiple. -/
theorem and_mask (value bits : Nat) (word : value < 2 ^ 32) (small : bits ≤ 32) :
    value &&& (2 ^ 32 - 1 - (2 ^ bits - 1)) = value / 2 ^ bits * 2 ^ bits := by
  have positive := Nat.two_pow_pos bits
  have bound := Nat.pow_le_pow_right (by decide : 0 < 2) small
  have mask : 2 ^ 32 - 1 - (2 ^ bits - 1) = 2 ^ 32 - ((2 ^ bits - 1) + 1) := by omega
  apply Nat.eq_of_testBit_eq
  intro position
  rw [mask, Nat.testBit_and, Nat.testBit_two_pow_sub_succ (by omega), Nat.testBit_two_pow_sub_one,
    ← Nat.shiftLeft_eq, Nat.testBit_shiftLeft, ← Nat.shiftRight_eq_div_pow, Nat.testBit_shiftRight]
  by_cases low : position < bits
  · have under : ¬ bits ≤ position := by omega
    simp [low, under]
  · have shifted : bits + (position - bits) = position := by omega
    have reached : bits ≤ position := by omega
    by_cases high : position < 32
    · simp [low, high, shifted, reached]
    · have zero : value.testBit position = false :=
        Nat.testBit_lt_two_pow (Nat.lt_of_lt_of_le word (Nat.pow_le_pow_right (by decide) (by omega)))
      simp [zero, shifted]

/-- Rounding up by clearing bits, when the sum does not wrap. -/
theorem alignUp_eq (value : Nat) {align : Nat} (power : align.isPowerOfTwo) (fits : value + align - 1 < 2 ^ 32) :
    alignUp value align = (value + align - 1) / align * align := by
  obtain ⟨bits, rfl⟩ := power
  have positive := Nat.two_pow_pos bits
  have small : bits ≤ 32 := by
    by_contra large
    have grown : 2 ^ 33 ≤ 2 ^ bits := Nat.pow_le_pow_right (by decide) (by omega)
    omega
  rw [alignUp, Nat.mod_eq_of_lt fits, and_mask _ _ fits small]

/-- What rounding up gives when the sum does not wrap. -/
theorem alignUp_spec (value : Nat) {align : Nat} (power : align.isPowerOfTwo) (fits : value + align - 1 < 2 ^ 32) :
    align ∣ alignUp value align ∧ value ≤ alignUp value align ∧ alignUp value align < value + align := by
  have positive := Nat.pos_of_isPowerOfTwo power
  rw [alignUp_eq value power fits]
  refine ⟨Nat.dvd_mul_left _ _, ?_, ?_⟩
  · have above := Nat.lt_div_mul_add (a := value + align - 1) positive
    omega
  · have below := Nat.div_mul_le_self (value + align - 1) align
    omega

/-! ## The scan -/

/-- The pass over the table finds whether a block is in the way, and the furthest end of those that
are.

Proof: induction on the table. -/
theorem collisions_spec (blocks : List MemAlloc) (cand size : Nat) :
    (collisions blocks cand size).1 = blocks.any (collides cand size) ∧
      cand ≤ (collisions blocks cand size).2 ∧
      (∀ block ∈ blocks, collides cand size block = true →
        (block.va + block.size) % 2 ^ 32 ≤ (collisions blocks cand size).2) ∧
      ((collisions blocks cand size).2 = cand ∨ ∃ block ∈ blocks, collides cand size block = true ∧
        (collisions blocks cand size).2 = (block.va + block.size) % 2 ^ 32) := by
  have general : ∀ (collided : Bool) (maxEnd : Nat) (result : Bool × Nat),
      blocks.foldl (fun (collided, maxEnd) block =>
        if collides cand size block then (true, max maxEnd ((block.va + block.size) % 2 ^ 32))
        else (collided, maxEnd)) (collided, maxEnd) = result →
      result.1 = (collided || blocks.any (collides cand size)) ∧ maxEnd ≤ result.2 ∧
        (∀ block ∈ blocks, collides cand size block = true → (block.va + block.size) % 2 ^ 32 ≤ result.2) ∧
        (result.2 = maxEnd ∨ ∃ block ∈ blocks, collides cand size block = true ∧
          result.2 = (block.va + block.size) % 2 ^ 32) := by
    induction blocks with
    | nil =>
      rintro collided maxEnd result rfl
      simp
    | cons head rest inductionHypothesis =>
      intro collided maxEnd result folded
      rw [List.foldl_cons] at folded
      by_cases meets : collides cand size head = true
      · simp only [meets, ↓reduceIte] at folded
        obtain ⟨flag, above, each, origin⟩ := inductionHypothesis _ _ result folded
        refine ⟨by simp [flag, meets], by omega, fun block member collision => ?_, ?_⟩
        · rcases List.mem_cons.mp member with rfl | member
          · omega
          · exact each block member collision
        · rcases origin with same | ⟨block, member, collision, same⟩
          · rcases Nat.le_total maxEnd ((head.va + head.size) % 2 ^ 32) with less | more
            · exact Or.inr ⟨head, List.mem_cons_self, meets, by omega⟩
            · exact Or.inl (by omega)
          · exact Or.inr ⟨block, List.mem_cons_of_mem _ member, collision, same⟩
      · simp only [meets, Bool.false_eq_true, ↓reduceIte] at folded
        obtain ⟨flag, above, each, origin⟩ := inductionHypothesis _ _ result folded
        refine ⟨by simp [flag, meets], above, fun block member collision => ?_, ?_⟩
        · rcases List.mem_cons.mp member with rfl | member
          · exact absurd collision meets
          · exact each block member collision
        · rcases origin with same | ⟨block, member, collision, same⟩
          · exact Or.inl same
          · exact Or.inr ⟨block, List.mem_cons_of_mem _ member, collision, same⟩
  have found := general false cand (collisions blocks cand size) rfl
  rw [Bool.false_or] at found
  exact found

/-- The blocks that end above the candidate; every collision leaves one of them behind. -/
def ahead (blocks : List MemAlloc) (cand : Nat) : Nat :=
  blocks.countP (fun block => cand < (block.va + block.size) % 2 ^ 32)

/-- There are no more blocks ahead than in the table. -/
theorem ahead_le (blocks : List MemAlloc) (cand : Nat) : ahead blocks cand ≤ blocks.length :=
  List.countP_le_length

/-- A block that is passed is no longer ahead. -/
theorem ahead_drops {blocks : List MemAlloc} {cand later : Nat} (after : cand ≤ later) {block : MemAlloc}
    (member : block ∈ blocks) (met : cand < (block.va + block.size) % 2 ^ 32)
    (passed : (block.va + block.size) % 2 ^ 32 ≤ later) : ahead blocks later < ahead blocks cand := by
  have weaker : ∀ other : MemAlloc, decide (later < (other.va + other.size) % 2 ^ 32) = true →
      decide (cand < (other.va + other.size) % 2 ^ 32) = true := by
    intro other above
    have bound := of_decide_eq_true above
    exact decide_eq_true (by omega)
  induction blocks with
  | nil => cases member
  | cons head rest inductionHypothesis =>
    have tail : ahead rest later ≤ ahead rest cand := List.countP_mono_left (fun other _ => weaker other)
    simp only [ahead, List.countP_cons] at tail inductionHypothesis ⊢
    rcases List.mem_cons.mp member with rfl | inRest
    · have beyond : ¬ later < (block.va + block.size) % 2 ^ 32 := by omega
      simp only [beyond, met, decide_false, decide_true, Bool.false_eq_true, ↓reduceIte]
      omega
    · have strict := inductionHypothesis inRest
      have first := weaker head
      by_cases above : later < (head.va + head.size) % 2 ^ 32
      · have early : cand < (head.va + head.size) % 2 ^ 32 := by omega
        simp only [above, early, decide_true, ↓reduceIte]
        omega
      · simp only [above, decide_false, Bool.false_eq_true, ↓reduceIte]
        split <;> omega

/-- The blocks lie in the pool, in words, and have no byte in common. -/
structure Laid (pool : MemoryPool) : Prop where
  words : pool.mmHi ≤ 2 ^ 31
  placed : ∀ block ∈ pool.memAllocs, pool.Placed block
  apart : pool.memAllocs.Pairwise Apart

/-- In a sound pool the blocks are laid out apart. -/
theorem Ok.laid (ok : pool.Ok) : pool.Laid := ⟨ok.words, ok.placed, ok.apart⟩

/-- No block reaches past the pool. Nothing else is asked of the table: blocks may be out of
order, start anywhere and overlap. -/
structure Housed (pool : MemoryPool) : Prop where
  words : pool.mmHi ≤ 2 ^ 31
  below : ∀ block ∈ pool.memAllocs, block.va + block.size ≤ pool.mmHi

/-- They lie inside the pool. -/
theorem Laid.housed (laid : pool.Laid) : pool.Housed := ⟨laid.words, fun block member => (laid.placed block member).below⟩

/-- The range from `va` on is aligned, ends in range and meets no block. -/
structure Fits (blocks : List MemAlloc) (align size hi va : Nat) : Prop where
  multiple : align ∣ va
  ends : va + size ≤ hi + 1
  free : ∀ block ∈ blocks, block.va + block.size ≤ va ∨ va + size ≤ block.va

/-- A block is in the way if it meets the range; nothing wraps. -/
theorem Housed.collides_iff (housed : pool.Housed) {block : MemAlloc} (member : block ∈ pool.memAllocs)
    (word : cand + size < 2 ^ 32) :
    collides cand size block = true ↔ block.va < cand + size ∧ cand < block.va + block.size := by
  have words := housed.words
  have below := housed.below block member
  rw [collides, Bool.and_eq_true, decide_eq_true_iff, decide_eq_true_iff, Nat.mod_eq_of_lt word,
    Nat.mod_eq_of_lt (by omega)]

/-- A multiple above a value is above the value rounded up. -/
theorem multiple_le {value va align rounded : Nat} (roundedMultiple : align ∣ rounded) (multiple : align ∣ va)
    (close : rounded < value + align) (above : value ≤ va) : rounded ≤ va := by
  by_contra less
  have gap := Nat.le_of_dvd (by omega) (Nat.dvd_sub roundedMultiple multiple)
  omega

/-- The scan ends. It finds the lowest range that fits, and nothing only when none does.

Proof: induction on the turns that are left, which outnumber the blocks that end above the
candidate. A collision moves the candidate above one of these, to the first multiple behind every
block that it met; nothing that fits is passed over. -/
theorem Housed.scan (housed : pool.Housed) (power : align.isPowerOfTwo) (small : align ≤ 2 ^ 31) (below : hi < pool.mmHi)
    (positive : 0 < size) (turns cand : Nat) (enough : ahead pool.memAllocs cand < turns) (multiple : align ∣ cand) :
    ∃ result, scan pool.memAllocs align size hi turns cand = some result ∧
      (∀ found, result = some found → cand ≤ found ∧ Fits pool.memAllocs align size hi found) ∧
      ∀ va, cand ≤ va → Fits pool.memAllocs align size hi va → ∃ found, result = some found ∧ found ≤ va := by
  have words := housed.words
  induction turns generalizing cand with
  | zero => exact absurd enough (Nat.not_lt_zero _)
  | succ turns inductionHypothesis =>
    obtain ⟨flag, above, each, origin⟩ := collisions_spec pool.memAllocs cand size
    rw [MemoryPool.scan]
    split
    · rename_i outside
      rw [Nat.mod_eq_of_lt (by omega)] at outside
      refine ⟨none, rfl, fun found impossible => (by cases impossible), fun va later fits => ?_⟩
      have ends := fits.ends
      omega
    · rename_i inRange
      rw [not_or, Nat.not_lt, Nat.not_lt, Nat.mod_eq_of_lt (by omega)] at inRange
      have meets : ∀ block ∈ pool.memAllocs, collides cand size block = true ↔
          block.va < cand + size ∧ cand < block.va + block.size :=
        fun block member => housed.collides_iff member (by omega)
      split
      · rename_i maxEnd free
        rw [free] at flag
        refine ⟨some cand, rfl, fun found same => ?_, fun va later _ => ⟨cand, rfl, later⟩⟩
        obtain rfl := Option.some.inj same
        refine ⟨Nat.le_refl _, multiple, by omega, fun block member => ?_⟩
        have apart := mt (meets block member).mpr (List.any_eq_false.mp flag.symm block member)
        omega
      · rename_i maxEnd collided
        rw [collided] at flag above each origin
        simp only at flag above each origin
        obtain ⟨block, member, collision⟩ := List.any_eq_true.mp flag.symm
        have met : cand < (block.va + block.size) % 2 ^ 32 := by
          simp only [collides, Bool.and_eq_true, decide_eq_true_eq] at collision
          exact collision.2
        have reached := each block member collision
        have bounded : maxEnd ≤ 2 ^ 31 := by
          rcases origin with same | ⟨other, inside, _, same⟩
          · omega
          · have placed := housed.below other inside
            rw [same, Nat.mod_eq_of_lt (by omega)]
            omega
        -- what fits behind the candidate lies behind every block that the candidate meets
        have behind : ∀ va, cand ≤ va → Fits pool.memAllocs align size hi va → maxEnd ≤ va := by
          intro va later fits
          rcases origin with same | ⟨other, inside, collision, same⟩
          · omega
          · have placed := housed.below other inside
            have overlap := (meets other inside).mp collision
            have apart := fits.free other inside
            rw [same, Nat.mod_eq_of_lt (by omega)]
            omega
        obtain ⟨divides, more, close⟩ := alignUp_spec maxEnd power (by omega)
        have drops := ahead_drops (by omega) member met (Nat.le_trans reached more)
        obtain ⟨result, scanned, good, lowest⟩ := inductionHypothesis (alignUp maxEnd align) (by omega) divides
        refine ⟨result, scanned, fun found same => ?_, fun va later fits => ?_⟩
        · obtain ⟨further, fits⟩ := good found same
          exact ⟨by omega, fits⟩
        · exact lowest va (multiple_le divides fits.multiple close (behind va later fits)) fits

/-- The range from `va` on would do for a request of `mm_alloc`. -/
structure Suits (pool : MemoryPool) (size lowest highest alignment va : Nat) : Prop where
  nonempty : 0 < size
  power : alignment = 0 ∨ alignment.isPowerOfTwo
  multiple : max 4096 alignment ∣ va
  above : max pool.mmLo lowest ≤ va
  below : va + size ≤ pool.mmHi
  constraint : highest ≠ 0 → va + size ≤ highest + 1
  free : ∀ block ∈ pool.memAllocs, block.va + block.size ≤ va ∨ va + size ≤ block.va

/-- A power of two that fits a word is at most 2^31. -/
theorem power_bound {align : Nat} (power : align.isPowerOfTwo) (word : align < 2 ^ 32) : align ≤ 2 ^ 31 := by
  obtain ⟨bits, rfl⟩ := power
  have small : bits < 32 := (Nat.pow_lt_pow_iff_right (by decide)).mp word
  exact Nat.pow_le_pow_right (by decide) (by omega)

/-- Blocks are aligned to pages, whatever alignment is asked for. -/
theorem pages_dvd {alignment : Nat} (power : alignment = 0 ∨ alignment.isPowerOfTwo) : 4096 ∣ max 4096 alignment := by
  rcases power with rfl | ⟨bits, rfl⟩
  · decide
  · rcases Nat.le_total 12 bits with grown | small
    · have larger : 4096 ≤ 2 ^ bits := Nat.pow_le_pow_right (by decide : 0 < 2) grown
      rw [Nat.max_eq_right larger]
      exact Nat.pow_dvd_pow 2 grown
    · have smaller : 2 ^ bits ≤ 4096 := Nat.pow_le_pow_right (by decide : 0 < 2) small
      rw [Nat.max_eq_left smaller]

/-- `mm_alloc` finds the lowest range that suits the request, and nothing only when none
does.

Proof: along the checks. Where one refuses, no address suits the request; behind them, to suit the
request is to fit above the first candidate, and the scan finds the lowest such address. -/
theorem Housed.fit (housed : pool.Housed) (size lowest highest alignment : Nat) (word : alignment < 2 ^ 32) :
    ∃ result, pool.fit size lowest highest alignment = some result ∧
      (∀ va, result = some va → pool.Suits size lowest highest alignment va) ∧
      ∀ va, pool.Suits size lowest highest alignment va → ∃ found, result = some found ∧ found ≤ va := by
  have words := housed.words
  have nothing : (∀ va, ¬ pool.Suits size lowest highest alignment va) → ∃ result, some none = some result ∧
      (∀ va, result = some va → pool.Suits size lowest highest alignment va) ∧
      ∀ va, pool.Suits size lowest highest alignment va → ∃ found, result = some found ∧ found ≤ va :=
    fun none => ⟨_, rfl, fun va impossible => (by cases impossible), fun va suits => absurd suits (none va)⟩
  unfold MemoryPool.fit
  split
  · refine nothing (fun va suits => ?_)
    have nonempty := suits.nonempty
    have above := suits.above
    have below := suits.below
    omega
  · rename_i usable
    simp only
    generalize wantedEq : (if alignment ≠ 0 then alignment else 4096) = wanted
    split
    · rename_i crooked
      refine nothing (fun va suits => crooked ?_)
      have wantedPower : wanted.isPowerOfTwo := by
        rcases suits.power with zero | power
        · rw [if_neg (by simpa using zero)] at wantedEq
          exact wantedEq ▸ ⟨12, rfl⟩
        · rw [if_pos (Nat.ne_of_gt (Nat.pos_of_isPowerOfTwo power))] at wantedEq
          exact wantedEq ▸ power
      exact (Nat.and_sub_one_eq_zero_iff_isPowerOfTwo (Nat.ne_of_gt (Nat.pos_of_isPowerOfTwo wantedPower))).mpr
        wantedPower
    · rename_i power
      have wantedPower : wanted.isPowerOfTwo := by
        refine (Nat.and_sub_one_eq_zero_iff_isPowerOfTwo ?_).mp (by simpa using power)
        split at wantedEq <;> omega
      have admitted : alignment = 0 ∨ alignment.isPowerOfTwo := by
        split at wantedEq
        · exact Or.inr (wantedEq ▸ wantedPower)
        · exact Or.inl (by omega)
      generalize alignEq : (if wanted < 4096 then 4096 else wanted) = align
      have alignPower : align.isPowerOfTwo := by
        split at alignEq
        · exact alignEq ▸ ⟨12, rfl⟩
        · exact alignEq ▸ wantedPower
      have alignMax : align = max 4096 alignment := by
        split at wantedEq <;> split at alignEq <;> omega
      have alignSmall : align ≤ 2 ^ 31 := power_bound alignPower (by omega)
      generalize highEq : min (if highest = 0 then pool.mmHi - 1 else highest) (pool.mmHi - 1) = hi
      have high : hi < pool.mmHi := by omega
      have suited : ∀ va, pool.Suits size lowest highest alignment va →
          max pool.mmLo lowest ≤ va ∧ Fits pool.memAllocs align size hi va := by
        intro va suits
        have below := suits.below
        have constraint := suits.constraint
        refine ⟨suits.above, alignMax ▸ suits.multiple, ?_, suits.free⟩
        split at highEq <;> omega
      split
      · rename_i tight
        refine nothing (fun va suits => ?_)
        obtain ⟨above, fits⟩ := suited va suits
        have ends := fits.ends
        have nonempty := suits.nonempty
        rw [Nat.mod_eq_of_lt (by omega)] at tight
        omega
      · rename_i room
        rw [not_or, Nat.not_lt, Nat.not_lt] at room
        obtain ⟨divides, start, close⟩ := alignUp_spec (max pool.mmLo lowest) alignPower (by omega)
        have positive : 0 < size := by omega
        obtain ⟨result, scanned, good, first⟩ := housed.scan alignPower alignSmall high positive
          (pool.memAllocs.length + 1) _ (Nat.lt_succ_of_le (ahead_le _ _)) divides
        refine ⟨result, scanned, fun va found => ?_, fun va suits => ?_⟩
        · obtain ⟨later, fits⟩ := good va found
          have ends := fits.ends
          refine ⟨positive, admitted, alignMax ▸ fits.multiple, by omega, by omega, fun bounded => ?_, fits.free⟩
          rw [if_neg bounded] at highEq
          omega
        · obtain ⟨above, fits⟩ := suited va suits
          exact first va (multiple_le divides fits.multiple close above) fits

/-! ## Allocation -/

/-- The window once the block has been committed, zeroed and protected. -/
def Opened (ram : XbeRam) (block : MemAlloc) (after : XbeRam) : Prop :=
  ram.Becomes (fun page => ram.committed page || decide (ram.Covers block.va block.size page))
    (fun page => if ram.Covers block.va block.size page then readonlyProtect block.protect else ram.readOnly page)
    (fun address => if block.va ≤ address ∧ address < block.va + block.size then 0 else ram.bytes address) after

/-- The end of `mm_alloc`, at a candidate none of whose pages is committed. -/
theorem Ok.place (ok : pool.Ok) (block : MemAlloc) (placed : pool.Placed block)
    (fresh : ∀ page, pool.ram.Covers block.va block.size page → pool.ram.committed page = false) :
    ∃ ram, Opened pool.ram block ram ∧ pool.place block.va block.size block.protect =
      some ({ pool with ram, memAllocs := pool.memAllocs ++ [block] }, block.va) := by
  have paged := ok.positive
  have fits : 0 < block.size ∧ block.va + block.size ≤ pool.ram.size :=
    ⟨placed.nonempty, Nat.le_trans placed.below ok.window⟩
  obtain ⟨succeeded, commits⟩ := XbeRam.commit_becomes paged fits
  unfold MemoryPool.place
  generalize pool.ram.commit block.va block.size = committing at succeeded commits
  obtain ⟨ram, flag⟩ := committing
  simp only at succeeded commits
  subst succeeded
  have same : ∀ page, ram.Covers block.va block.size page ↔ pool.ram.Covers block.va block.size page :=
    fun page => XbeRam.Covers.congr commits.pageSize
  have pagedAfter : 0 < ram.pageSize := by rw [commits.pageSize]; exact paged
  have usable : ram.writable block.va block.size = true := by
    rw [XbeRam.writable_iff pagedAfter, commits.size]
    refine ⟨fits, fun page covered => ?_⟩
    rw [same] at covered
    simp [commits.committed, commits.readOnly, covered, fresh page covered]
  have held := XbeRam.isCommitted_of_writable usable
  obtain ⟨filled, fills, zeroed⟩ := XbeRam.zeroFill_becomes usable
  have sameFilled : ∀ page, filled.Covers block.va block.size page ↔ pool.ram.Covers block.va block.size page :=
    fun page => (XbeRam.Covers.congr zeroed.pageSize).trans (same page)
  have pagedFilled : 0 < filled.pageSize := by rw [zeroed.pageSize]; exact pagedAfter
  simp only [XbeRam.hostPtr_of_committed pagedAfter held, fills, Option.map_some, Option.some.injEq, Prod.mk.injEq,
    MemoryPool.mk.injEq, and_true]
  cases readonly : readonlyProtect block.protect with
  | false =>
    refine ⟨filled, ⟨zeroed.size.trans commits.size, zeroed.pageSize.trans commits.pageSize, fun page => ?_,
      fun page => ?_, fun address => ?_⟩, by simp⟩
    · rw [zeroed.committed, commits.committed]
    · rw [zeroed.readOnly, commits.readOnly, readonly]
      split
      · rename_i covered
        simp [covered, fresh page covered]
      · rename_i uncovered
        simp [uncovered]
    · rw [zeroed.bytes, commits.bytes]
  | true =>
    have heldFilled : filled.isCommitted block.va block.size = true := by
      rw [XbeRam.isCommitted_iff pagedFilled, zeroed.size, commits.size]
      refine ⟨fits, fun page covered => ?_⟩
      rw [sameFilled] at covered
      simp [zeroed.committed, commits.committed, covered]
    have shields := XbeRam.protectRo_becomes pagedFilled heldFilled
    refine ⟨(filled.protectRo block.va block.size).1,
      ⟨?_, ?_, fun page => ?_, fun page => ?_, fun address => ?_⟩, by simp⟩
    · rw [shields.size, zeroed.size, commits.size]
    · rw [shields.pageSize, zeroed.pageSize, commits.pageSize]
    · rw [shields.committed, zeroed.committed, commits.committed]
    · rw [shields.readOnly, zeroed.readOnly, commits.readOnly, readonly]
      split
      · rename_i covered
        simp [sameFilled, covered]
      · rename_i uncovered
        simp [sameFilled, uncovered]
    · rw [shields.bytes, zeroed.bytes, commits.bytes]

/-- A block on free pages keeps the invariant. -/
theorem Ok.opened (ok : pool.Ok) {block : MemAlloc} (placed : pool.Placed block)
    (free : ∀ other ∈ pool.memAllocs, Apart other block) {ram : XbeRam} (opens : Opened pool.ram block ram) :
    ({ pool with ram, memAllocs := pool.memAllocs ++ [block] } : MemoryPool).Ok := by
  refine ⟨opens.pageSize.trans ok.paged, by simpa [opens.size] using ok.window, ok.words, ok.lowAligned,
    ok.highAligned, fun other member => ?_, ?_, fun page low high => ?_, fun other member page onPage => ?_⟩
  · rcases List.mem_append.mp member with old | new
    · exact (ok.placed other old).congr rfl rfl
    · rw [List.mem_singleton.mp new]
      exact placed.congr rfl rfl
  · refine List.pairwise_append.mpr ⟨ok.apart, List.pairwise_singleton _ _, fun other member new last => ?_⟩
    rw [List.mem_singleton.mp last]
    exact free other member
  · rw [opens.committed, Bool.or_eq_true, ok.committed page low high, decide_eq_true_iff, ok.covers block page]
    simp [or_and_right, exists_or]
  · rw [opens.readOnly]
    rcases List.mem_append.mp member with old | new
    · have apart : ¬ OnPage block page :=
        (free other old).pages (ok.placed other old).aligned placed.aligned onPage
      rw [if_neg (fun covered => apart ((ok.covers block page).mp covered))]
      exact ok.readOnly other old page onPage
    · rw [List.mem_singleton.mp new] at onPage ⊢
      rw [if_pos ((ok.covers block page).mpr onPage)]

/-- What `mm_alloc` promises about a block it hands out. -/
structure Allocated (pool next : MemoryPool) (lowest highest alignment : Nat) (block : MemAlloc) : Prop where
  multiple : max 4096 alignment ∣ block.va
  above : max pool.mmLo lowest ≤ block.va
  below : block.va + block.size ≤ min (if highest = 0 then pool.mmHi - 1 else highest) (pool.mmHi - 1) + 1
  recorded : next.memAllocs = pool.memAllocs ++ [block]
  zeros : ∀ address, block.va ≤ address → address < block.va + block.size → next.ram.bytes address = 0
  bytes : ∀ address, address < block.va ∨ block.va + block.size ≤ address →
    next.ram.bytes address = pool.ram.bytes address
  pages : ∀ page, ¬ OnPage block page →
    next.ram.committed page = pool.ram.committed page ∧ next.ram.readOnly page = pool.ram.readOnly page

/-- `mm_alloc` always returns: zero and the pool as it was, or a block as promised. -/
theorem Ok.mmAlloc (ok : pool.Ok) (size lowest highest alignment protect : Nat) (word : alignment < 2 ^ 32)
    (protectWord : protect < 2 ^ 32) : ∃ next va,
      pool.mmAlloc size lowest highest alignment protect = some (next, va) ∧ next.Ok ∧
      next.mmLo = pool.mmLo ∧ next.mmHi = pool.mmHi ∧
      ((next = pool ∧ va = 0) ∨ pool.Allocated next lowest highest alignment ⟨va, size, protect⟩) := by
  obtain ⟨result, fits, suited, _⟩ := ok.laid.housed.fit size lowest highest alignment word
  rw [mmAlloc_eq, fits, Option.bind_some]
  cases result with
  | none => exact ⟨pool, 0, rfl, ok, rfl, rfl, Or.inl ⟨rfl, rfl⟩⟩
  | some cand =>
    have suits := suited cand rfl
    have above := suits.above
    have below := suits.below
    have constraint := suits.constraint
    have placed : pool.Placed ⟨cand, size, protect⟩ := by
      refine ⟨protectWord, ?_, suits.nonempty, by simp only; omega, below⟩
      exact Nat.mod_eq_zero_of_dvd (Nat.dvd_trans (pages_dvd suits.power) suits.multiple)
    have free : ∀ other ∈ pool.memAllocs, Apart other ⟨cand, size, protect⟩ := suits.free
    have fresh : ∀ page, pool.ram.Covers cand size page → pool.ram.committed page = false := by
      intro page covered
      have onPage := (ok.covers ⟨cand, size, protect⟩ page).mp covered
      obtain ⟨low, upper⟩ := placed.page ok onPage
      rw [← Bool.not_eq_true, ok.committed page low upper]
      rintro ⟨other, member, onOther⟩
      exact (free other member).pages (ok.placed other member).aligned placed.aligned onOther onPage
    obtain ⟨ram, opens, applied⟩ := ok.place ⟨cand, size, protect⟩ placed fresh
    refine ⟨_, cand, applied, ok.opened placed free opens, rfl, rfl,
      Or.inr ⟨suits.multiple, above, ?_, rfl, ?_, ?_, ?_⟩⟩
    · simp only
      split <;> omega
    · intro address inside within
      rw [opens.bytes, if_pos ⟨inside, within⟩]
    · intro address outside
      simp only at outside
      rw [opens.bytes]
      exact if_neg (by simp only; omega)
    · intro page outside
      have uncovered : ¬ pool.ram.Covers cand size page :=
        fun covered => outside ((ok.covers ⟨cand, size, protect⟩ page).mp covered)
      rw [opens.committed, opens.readOnly]
      simp [uncovered]

/-! ## Release -/

/-- The live blocks on both sides of the one at an address. None of them starts there. -/
theorem Ok.at_address (ok : pool.Ok) {block : MemAlloc} (live : block ∈ pool.memAllocs) :
    ∃ before rest, pool.memAllocs = before ++ block :: rest ∧
      (∀ other ∈ before ++ rest, other.va ≠ block.va ∧ Apart other block) ∧
      pool.memAllocs.find? (fun other => other.va == block.va) = some block ∧
      pool.memAllocs.eraseP (fun other => other.va == block.va) = before ++ rest := by
  obtain ⟨before, rest, split⟩ := List.append_of_mem live
  have apart := ok.apart
  rw [split, List.pairwise_append, List.pairwise_cons] at apart
  obtain ⟨_, ⟨later, _⟩, earlier⟩ := apart
  have others : ∀ other ∈ before ++ rest, other.va ≠ block.va ∧ Apart other block := by
    intro other member
    have around : Apart other block := by
      rcases List.mem_append.mp member with front | back
      · exact earlier other front block List.mem_cons_self
      · exact Or.symm (later other back)
    have inside : other ∈ pool.memAllocs := by
      rw [split]
      simp only [List.mem_append, List.mem_cons] at member ⊢
      tauto
    have mine := (ok.placed block live).nonempty
    have theirs := (ok.placed other inside).nonempty
    refine ⟨fun same => ?_, around⟩
    unfold Apart at around
    omega
  have skipped : ∀ other ∈ before, ¬ (other.va == block.va) = true := by
    intro other member
    simpa using (others other (List.mem_append_left _ member)).1
  refine ⟨before, rest, split, others, ?_, ?_⟩
  · rw [split, List.find?_append, List.find?_eq_none.mpr skipped]
    simp
  · rw [split, List.eraseP_append_right _ skipped]
    simp

/-- What `mm_free` does with a live block: exactly its pages are uncommitted. -/
structure Freed (pool next : MemoryPool) (block : MemAlloc) : Prop where
  forgotten : ∀ other, other ∈ next.memAllocs ↔ other ∈ pool.memAllocs ∧ other ≠ block
  bytes : ∀ address, next.ram.bytes address = pool.ram.bytes address
  uncommitted : ∀ page, OnPage block page → next.ram.committed page = false
  pages : ∀ page, ¬ OnPage block page →
    next.ram.committed page = pool.ram.committed page ∧ next.ram.readOnly page = pool.ram.readOnly page

/-- Freeing a block takes it out of the table and gives its pages back. -/
theorem Ok.mmFree (ok : pool.Ok) {block : MemAlloc} (live : block ∈ pool.memAllocs) :
    (pool.mmFree block.va).1.Ok ∧ pool.Freed (pool.mmFree block.va).1 block := by
  obtain ⟨before, rest, split, others, found, erased⟩ := ok.at_address live
  have placed := ok.placed block live
  have held : pool.ram.isCommitted block.va block.size = true := by
    rw [XbeRam.isCommitted_iff ok.positive]
    refine ⟨⟨placed.nonempty, Nat.le_trans placed.below ok.window⟩, fun page covered => ?_⟩
    have onPage := (ok.covers block page).mp covered
    obtain ⟨low, high⟩ := placed.page ok onPage
    exact (ok.committed page low high).mpr ⟨block, live, onPage⟩
  have frees := XbeRam.uncommit_becomes ok.positive held
  have known : ∀ other, other ∈ before ++ rest ↔ other ∈ pool.memAllocs ∧ other ≠ block := by
    intro other
    refine ⟨fun member => ⟨?_, fun same => (others other member).1 (by rw [same])⟩, fun ⟨member, differs⟩ => ?_⟩
    · rw [split]
      simp only [List.mem_append, List.mem_cons] at member ⊢
      tauto
    · rw [split] at member
      simp only [List.mem_append, List.mem_cons] at member ⊢
      tauto
  have apartPages : ∀ other ∈ before ++ rest, ∀ page, OnPage other page → ¬ OnPage block page := by
    intro other member page onPage
    have inside := ((known other).mp member).1
    exact (others other member).2.pages (ok.placed other inside).aligned placed.aligned onPage
  simp only [MemoryPool.mmFree, found, erased]
  refine ⟨⟨frees.pageSize.trans ok.paged, by simpa [frees.size] using ok.window, ok.words, ok.lowAligned,
    ok.highAligned, fun other member => ?_, ?_, fun page low high => ?_, fun other member page onPage => ?_⟩,
    known, frees.bytes, fun page onPage => ?_, fun page outside => ?_⟩
  · exact (ok.placed other ((known other).mp member).1).congr rfl rfl
  · have apart := ok.apart
    rw [split] at apart
    exact apart.sublist (List.Sublist.append (List.Sublist.refl _) (List.sublist_cons_self _ _))
  · rw [frees.committed, Bool.and_eq_true, ok.committed page low high, Bool.not_eq_true', decide_eq_false_iff_not,
      ok.covers block page]
    constructor
    · rintro ⟨⟨other, member, onPage⟩, outside⟩
      exact ⟨other, (known other).mpr ⟨member, fun same => outside (same ▸ onPage)⟩, onPage⟩
    · rintro ⟨other, member, onPage⟩
      exact ⟨⟨other, ((known other).mp member).1, onPage⟩, apartPages other member page onPage⟩
  · have uncovered := mt (ok.covers block page).mp (apartPages other member page onPage)
    rw [frees.readOnly, ok.readOnly other ((known other).mp member).1 page onPage]
    simp [uncovered]
  · have covered := (ok.covers block page).mpr onPage
    simp [frees.committed, covered]
  · have uncovered := mt (ok.covers block page).mp outside
    rw [frees.committed, frees.readOnly]
    simp [uncovered]

/-- Freeing what is not allocated does nothing. -/
theorem mmFree_none {va : Nat} (nothing : ∀ block ∈ pool.memAllocs, block.va ≠ va) :
    (pool.mmFree va).1 = pool := by
  have missing : pool.memAllocs.find? (fun block => block.va == va) = none := by
    rw [List.find?_eq_none]
    simpa using nothing
  simp [MemoryPool.mmFree, missing]

/-- It has no size, either. -/
theorem mmSize_none {va : Nat} (nothing : ∀ block ∈ pool.memAllocs, block.va ≠ va) : pool.mmSize va = 0 := by
  have missing : pool.memAllocs.find? (fun block => block.va == va) = none := by
    rw [List.find?_eq_none]
    simpa using nothing
  simp [MemoryPool.mmSize, missing]

/-! ## The allocator in every run -/

/-- The read-only protection is `PAGE_READONLY`, with or without the cache bit. -/
theorem readonlyProtect_iff {protect : Nat} (word : protect < 2 ^ 32) : readonlyProtect protect = true ↔
    protect = kPageReadonly ∨ protect = kPageReadonly + kPageNocache := by
  rw [readonlyProtect, beq_iff_eq]
  constructor
  · intro base
    have whole : protect &&& (2 ^ 32 - 1) = protect := by
      rw [Nat.and_two_pow_sub_one_eq_mod, Nat.mod_eq_of_lt word]
    have parts : 2 ^ 32 - 1 = (2 ^ 32 - 1 - kPageNocache) ||| 2 ^ 9 := by decide
    rw [parts, Nat.and_or_distrib_left, base, Nat.and_comm protect, Nat.two_pow_and] at whole
    cases bit : protect.testBit 9 with
    | false => exact Or.inl (by rw [← whole, bit]; decide)
    | true => exact Or.inr (by rw [← whole, bit]; decide)
  · rintro (rfl | rfl) <;> decide

/-- The pool as the calls promise it, whatever is called next. -/
structure Correct (pool : MemoryPool) : Prop where
  separate : pool.memAllocs.Pairwise (fun left right => ∀ page, OnPage left page → ¬ OnPage right page)
  live : ∀ block ∈ pool.memAllocs, ∀ page, OnPage block page → pool.ram.committed page = true ∧
    (pool.ram.readOnly page = true ↔
      block.protect = kPageReadonly ∨ block.protect = kPageReadonly + kPageNocache)
  allocates : ∀ size : UInt32, ∃ next va, pool.exec (.allocateContiguousMemory size) = some (next, va) ∧
    ((next = pool ∧ va = 0) ∨ pool.Allocated next 0 0 0 ⟨va, size.toNat, kPageReadWrite⟩)
  allocatesEx : ∀ size lowest highest alignment protect : UInt32, ∃ next va,
    pool.exec (.allocateContiguousMemoryEx size lowest highest alignment protect) = some (next, va) ∧
      ((next = pool ∧ va = 0) ∨ pool.Allocated next lowest.toNat highest.toNat alignment.toNat
        ⟨va, size.toNat, protect.toNat⟩)
  frees : ∀ va : UInt32, ∃ next, pool.exec (.freeContiguousMemory va) = some (next, 0) ∧
    (∀ block ∈ pool.memAllocs, block.va = va.toNat → pool.Freed next block) ∧
    ((∀ block ∈ pool.memAllocs, block.va ≠ va.toNat) → next = pool)
  sizes : ∀ block ∈ pool.memAllocs, pool.mmSize block.va = block.size
  noSize : ∀ va, (∀ block ∈ pool.memAllocs, block.va ≠ va) → pool.mmSize va = 0

/-- In a sound pool the blocks are apart, committed and as they should be protected. -/
theorem Ok.correct (ok : pool.Ok) : pool.Correct where
  separate := by
    refine ok.apart.imp_of_mem (fun inLeft inRight apart page onLeft => ?_)
    exact apart.pages (ok.placed _ inLeft).aligned (ok.placed _ inRight).aligned onLeft
  live := by
    intro block member page onPage
    have placed := ok.placed block member
    obtain ⟨low, high⟩ := placed.page ok onPage
    refine ⟨(ok.committed page low high).mpr ⟨block, member, onPage⟩, ?_⟩
    rw [ok.readOnly block member page onPage]
    exact readonlyProtect_iff placed.word
  allocates := by
    intro size
    obtain ⟨next, va, applied, _, _, _, outcome⟩ :=
      ok.mmAlloc size.toNat 0 0 0 kPageReadWrite (by decide) (by decide)
    exact ⟨next, va, applied, outcome⟩
  allocatesEx := by
    intro size lowest highest alignment protect
    obtain ⟨next, va, applied, _, _, _, outcome⟩ := ok.mmAlloc size.toNat lowest.toNat highest.toNat
      alignment.toNat protect.toNat alignment.toNat_lt protect.toNat_lt
    exact ⟨next, va, applied, outcome⟩
  frees := by
    intro va
    refine ⟨_, rfl, fun block live same => ?_, mmFree_none⟩
    rw [← same]
    exact (ok.mmFree live).2
  sizes := by
    intro block live
    obtain ⟨before, rest, split, others, found, erased⟩ := ok.at_address live
    simp [MemoryPool.mmSize, found]
  noSize := fun va => mmSize_none

/-- Every call returns and keeps the pages in order and the pool in place. -/
theorem Ok.step (ok : pool.Ok) (call : Call) : ∃ next, pool.step call = some next ∧ next.Ok ∧
    next.mmLo = pool.mmLo ∧ next.mmHi = pool.mmHi := by
  cases call with
  | allocateContiguousMemory size =>
    obtain ⟨next, va, applied, good, low, high, _⟩ :=
      ok.mmAlloc size.toNat 0 0 0 kPageReadWrite (by decide) (by decide)
    exact ⟨next, by rw [MemoryPool.step, exec, applied, Option.map_some], good, low, high⟩
  | allocateContiguousMemoryEx size lowest highest alignment protect =>
    obtain ⟨next, va, applied, good, low, high, _⟩ := ok.mmAlloc size.toNat lowest.toNat highest.toNat
      alignment.toNat protect.toNat alignment.toNat_lt protect.toNat_lt
    exact ⟨next, by rw [MemoryPool.step, exec, applied, Option.map_some], good, low, high⟩
  | freeContiguousMemory va =>
    refine ⟨(pool.mmFree va.toNat).1, rfl, ?_⟩
    by_cases known : ∃ block ∈ pool.memAllocs, block.va = va.toNat
    · obtain ⟨block, live, same⟩ := known
      obtain ⟨before, rest, split, others, found, erased⟩ := ok.at_address live
      rw [← same]
      refine ⟨(ok.mmFree live).1, ?_, ?_⟩ <;> simp [MemoryPool.mmFree, found]
    · rw [mmFree_none (fun block live same => known ⟨block, live, same⟩)]
      exact ⟨ok, rfl, rfl⟩

/-- **The contiguous memory allocator.** From a pool that nobody has used, every
sequence of calls returns, and leaves a pool that is correct for the next call.

Proof: induction over the calls. Each of them returns and keeps the pool's invariant, and the
invariant says that the pool is correct. -/
theorem allocator_correct {start : MemoryPool} (untouched : start.Untouched) (calls : List Call) :
    ∃ pool, Runs.run step start calls = some pool ∧ pool.mmLo = start.mmLo ∧ pool.mmHi = start.mmHi ∧
      pool.Correct := by
  have general : ∀ pool : MemoryPool, pool.Ok → ∃ last, Runs.run MemoryPool.step pool calls = some last ∧
      last.mmLo = pool.mmLo ∧ last.mmHi = pool.mmHi ∧ last.Ok := by
    induction calls with
    | nil => exact fun pool ok => ⟨pool, rfl, rfl, rfl, ok⟩
    | cons call rest inductionHypothesis =>
      intro pool ok
      obtain ⟨next, taken, good, low, high⟩ := ok.step call
      obtain ⟨last, ran, lastLow, lastHigh, lastOk⟩ := inductionHypothesis next good
      refine ⟨last, ?_, lastLow.trans low, lastHigh.trans high, lastOk⟩
      rw [Runs.run, taken]
      exact ran
  obtain ⟨pool, ran, low, high, ok⟩ := general start untouched.ok
  exact ⟨pool, ran, low, high, ok.correct⟩

/-- A pool of three pages in an empty window. -/
def threePages : MemoryPool := { ram := {}, mmLo := 0x1000, mmHi := 0x4000 }

/-- Three blocks, the middle one freed: the last keeps its place and the next block
takes the hole. -/
theorem threePages_correct : threePages.Untouched ∧ ∃ pool, Runs.run step threePages
      [.allocateContiguousMemory 1, .allocateContiguousMemoryEx 0x1000 0 0 0 0x202, .allocateContiguousMemory 5,
        .freeContiguousMemory 0x2000] = some pool ∧ pool.mmLo = 0x1000 ∧ pool.mmHi = 0x4000 ∧ pool.Correct := by
  have untouched : threePages.Untouched :=
    ⟨rfl, by decide, by decide, by decide, by decide, rfl, fun _ _ _ => rfl⟩
  exact ⟨untouched, allocator_correct untouched _⟩

end MemoryPool

end SeriesxEmu
