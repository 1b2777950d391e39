import Mathlib.Data.List.Nodup
import SeriesxEmu.AliasWindows
import SeriesxEmu.GuestWords
import SeriesxEmu.TlsNotifications

/-!
# Private storage blocks

The block of a fiber fills the reserve at the top of its own stack mapping, and the mappings
are apart, so no two fibers share a byte of storage. `data_of` compares the size of the data
area with the sum of offset and size in 64 bits: an access whose sum wraps around passes, and
the pointer it gets lies outside the area.

The stack of a fiber is found through its handle, so the layout needs that no stack mapping
has failed before. That `mmap` places every mapping apart from those that are there is an
assumption on the host.
-/

namespace SeriesxEmu

open Scheduler GuestScheduler MemMap

/-! ## What `install` stores -/

/-- A pointer is stored as eight bytes. -/
theorem pointerBytes_length (pointer : Nat) : (pointerBytes pointer).length = 8 := rfl

/-- The value of two runs of bytes is that of the first, and that of the second above it. -/
theorem ofLittleEndian_append (low high : List UInt8) : XbeRam.ofLittleEndian (low ++ high) =
    XbeRam.ofLittleEndian low + 256 ^ low.length * XbeRam.ofLittleEndian high := by
  induction low with
  | nil => simp [XbeRam.ofLittleEndian]
  | cons byte rest inductionHypothesis =>
    simp only [XbeRam.ofLittleEndian, List.cons_append, List.foldr_cons, List.length_cons] at inductionHypothesis ⊢
    rw [inductionHypothesis, Nat.pow_succ, Nat.mul_add, Nat.mul_comm (256 ^ rest.length) 256, Nat.mul_assoc,
      Nat.add_assoc]

/-- A pointer is read back from its bytes. -/
theorem pointer_read {pointer : Nat} (word : pointer < 2 ^ 64) :
    XbeRam.ofLittleEndian (pointerBytes pointer) = pointer := by
  rw [pointerBytes, ofLittleEndian_append, XbeRam.ofLittleEndian_littleEndian, XbeRam.ofLittleEndian_littleEndian]
  have four : (XbeRam.littleEndian pointer).length = 4 := rfl
  rw [four]
  omega

/-- The bytes at an address decide the pointer there. -/
theorem pointerAt_eq {memory : Nat → UInt8} {addr : Nat} {bytes : List UInt8} (length : bytes.length = 8)
    (each : ∀ offset, offset < 8 → memory (addr + offset) = bytes.getD offset 0) :
    pointerAt memory addr = XbeRam.ofLittleEndian bytes := by
  have same : (List.range 8).map (fun offset => memory (addr + offset)) = bytes := by
    refine List.ext_getElem (by simp [length]) (fun offset inside _ => ?_)
    have bound : offset < 8 := by simpa using inside
    rw [List.getElem_map, List.getElem_range, each offset bound, List.getD_eq_getElem?_getD,
      List.getElem?_eq_getElem (by omega), Option.getD_some]
  rw [pointerAt, same]

/-- The block lies in memory as `install` has filled it. -/
structure Filled (memory : Nat → UInt8) (block : TlsBlock) (init : TlsInit) : Prop where
  template : ∀ offset (inside : offset < init.raw.length), memory (block.data + offset) = init.raw[offset]
  zeros : ∀ offset, init.raw.length ≤ offset → offset < init.raw.length + init.zeroFill →
    memory (block.data + offset) = 0
  index : pointerAt memory (block.array + 8 * init.index) = block.data
  others : ∀ slot, slot < kTlsSlots → slot ≠ init.index → pointerAt memory (block.array + 8 * slot) = 0

variable {memory : Nat → UInt8} {init : TlsInit} {array : Nat} {block : TlsBlock}

/-- Nothing is stored outside the block. -/
theorem installBytes_outside (index : init.index < kTlsSlots) {address : Nat}
    (outside : address < array ∨ array + FiberTls.arrayBytes + (init.raw.length + init.zeroFill) ≤ address) :
    installBytes memory init array address = memory address := by
  have slots : kTlsSlots = 64 := rfl
  have bytes : FiberTls.arrayBytes = 512 := rfl
  simp only [installBytes]
  rw [store_outside (by rw [List.length_replicate]; omega), store_outside (by omega),
    store_outside (by rw [pointerBytes_length]; omega), store_outside (by rw [List.length_replicate]; omega)]

/-- The array of slots is stored below the data. -/
theorem installBytes_slots {offset : Nat} (inside : offset < FiberTls.arrayBytes) :
    installBytes memory init array (array + offset) =
      if 8 * init.index ≤ offset ∧ offset < 8 * init.index + 8 then
        (pointerBytes (array + FiberTls.arrayBytes)).getD (offset - 8 * init.index) 0
      else 0 := by
  simp only [installBytes]
  rw [store_outside (by omega), store_outside (by omega)]
  split
  · rename_i slot
    have place : array + offset = array + 8 * init.index + (offset - 8 * init.index) := by omega
    rw [place, store_inside (by rw [pointerBytes_length]; omega)]
  · rename_i other
    rw [store_outside (by rw [pointerBytes_length]; omega),
      store_inside (by rw [List.length_replicate]; exact inside), List.getD_eq_getElem?_getD,
      List.getElem?_replicate, if_pos inside, Option.getD_some]

/-- `install` stores the image of the template in the block, and the pointer to the block in its
slot. -/
theorem installBytes_filled (index : init.index < kTlsSlots) (start : block.array = array)
    (word : array + FiberTls.arrayBytes < 2 ^ 64) : Filled (installBytes memory init array) block init := by
  have slots : kTlsSlots = 64 := rfl
  have bytes : FiberTls.arrayBytes = 512 := rfl
  constructor
  · intro offset inside
    simp only [installBytes, TlsBlock.data, start]
    rw [store_outside (by omega), store_inside inside, List.getD_eq_getElem?_getD, List.getElem?_eq_getElem inside,
      Option.getD_some]
  · intro offset behind inside
    have place : array + FiberTls.arrayBytes + offset =
        array + FiberTls.arrayBytes + init.raw.length + (offset - init.raw.length) := by omega
    simp only [installBytes, TlsBlock.data, start]
    rw [place, store_inside (by rw [List.length_replicate]; omega), List.getD_eq_getElem?_getD,
      List.getElem?_replicate, if_pos (by omega), Option.getD_some]
  · have here : pointerAt (installBytes memory init array) (array + 8 * init.index) =
        XbeRam.ofLittleEndian (pointerBytes (array + FiberTls.arrayBytes)) := by
      refine pointerAt_eq (pointerBytes_length _) (fun offset inside => ?_)
      rw [Nat.add_assoc, installBytes_slots (by omega), if_pos (by omega), Nat.add_sub_cancel_left]
    rw [start, here, pointer_read word, TlsBlock.data, start]
  · intro slot inside different
    have here : pointerAt (installBytes memory init array) (array + 8 * slot) =
        XbeRam.ofLittleEndian (List.replicate 8 0) := by
      refine pointerAt_eq (List.length_replicate ..) (fun offset within => ?_)
      rw [Nat.add_assoc, installBytes_slots (by omega), if_neg (by omega), List.getD_eq_getElem?_getD,
        List.getElem?_replicate, if_pos within, Option.getD_some]
    rw [start, here]
    rfl

/-! ## Where the blocks lie -/

variable {τ κ : Type}

/-- The block lies in the reserve at the top of the stack mapping, above what the thread runs on. -/
structure Placed (thread : GuestThread τ κ) (block : TlsBlock) (init : TlsInit) : Prop where
  size : block.size = init.raw.length + init.zeroFill
  reserved : thread.stackBase + thread.stackMapSize - thread.stackTopReserve ≤ block.array
  above : stackStart thread + stackSize thread ≤ block.array
  inside : block.data + block.size ≤ thread.stackBase + thread.stackMapSize

/-- A thread that keeps its stack keeps the block on it. -/
theorem Placed.kept {thread later : GuestThread τ κ} (placed : Placed thread block init)
    (same : later.placement = thread.placement) : Placed later block init := by
  have base : later.stackBase = thread.stackBase := congrArg Placement.stackBase same
  have mapped : later.stackMapSize = thread.stackMapSize := congrArg Placement.stackMapSize same
  have reserve : later.stackTopReserve = thread.stackTopReserve := congrArg Placement.stackTopReserve same
  obtain ⟨size, reserved, above, inside⟩ := placed
  unfold stackStart stackSize at above
  constructor
  · exact size
  · rw [base, mapped, reserve]
    exact reserved
  · unfold stackStart stackSize
    rw [base, reserve]
    exact above
  · rw [base, mapped]
    exact inside

/-- The two stack mappings have no byte in common. -/
def StacksApart (thread other : GuestThread τ κ) : Prop :=
  thread.stackBase + thread.stackMapSize ≤ other.stackBase ∨ other.stackBase + other.stackMapSize ≤ thread.stackBase

/-- What `mmap` promises of a new stack mapping: it is no null pointer, its end is an
address too, and it is apart from the stacks that are mapped. -/
structure FreshMapping (sched : GuestScheduler τ κ) (base : Nat) : Prop where
  nonnull : 0 < base
  space : base + (kGuardSize + kStackSize) < 2 ^ 64
  apart : ∀ thread ∈ sched.threads, base + (kGuardSize + kStackSize) ≤ thread.stackBase ∨
    thread.stackBase + thread.stackMapSize ≤ base

instance (sched : GuestScheduler τ κ) (base : Nat) : Decidable (FreshMapping sched base) :=
  decidable_of_iff (0 < base ∧ base + (kGuardSize + kStackSize) < 2 ^ 64 ∧
      ∀ thread ∈ sched.threads, base + (kGuardSize + kStackSize) ≤ thread.stackBase ∨
        thread.stackBase + thread.stackMapSize ≤ base)
    ⟨fun fresh => ⟨fresh.1, fresh.2.1, fresh.2.2⟩, fun fresh => ⟨fresh.nonnull, fresh.space, fresh.apart⟩⟩

/-- The stacks of a scheduler are apart, each with its end an address. -/
structure StacksMapped (sched : GuestScheduler τ κ) : Prop where
  each : ∀ thread ∈ sched.threads, 0 < thread.stackBase ∧ thread.stackMapSize = kGuardSize + kStackSize ∧
    thread.stackBase + thread.stackMapSize < 2 ^ 64
  apart : ∀ (left right : Nat) thread other, sched.threads[left]? = some thread →
    sched.threads[right]? = some other → left ≠ right → StacksApart thread other

/-- The stacks of two threads lie apart in either order. -/
theorem StacksApart.symm {thread other : GuestThread τ κ} (apart : StacksApart thread other) :
    StacksApart other thread := Or.symm apart

/-- Threads that stay where they are stay apart. -/
theorem StacksApart.kept {thread other later last : GuestThread τ κ} (apart : StacksApart thread other)
    (same : later.placement = thread.placement) (stays : last.placement = other.placement) :
    StacksApart later last := by
  have base : later.stackBase = thread.stackBase := congrArg Placement.stackBase same
  have mapped : later.stackMapSize = thread.stackMapSize := congrArg Placement.stackMapSize same
  have otherBase : last.stackBase = other.stackBase := congrArg Placement.stackBase stays
  have otherMapped : last.stackMapSize = other.stackMapSize := congrArg Placement.stackMapSize stays
  unfold StacksApart at apart ⊢
  rw [base, mapped, otherBase, otherMapped]
  exact apart

/-- Stacks stay where they are, and new ones are apart from them. -/
theorem StacksMapped.advance {ends : Option Nat} {sched next : GuestScheduler τ κ} {fresh : Option (GuestThread τ κ)}
    (mapped : StacksMapped sched) (advances : Advances ends sched next fresh)
    (new : ∀ thread ∈ fresh, thread.stackMapSize = kGuardSize + kStackSize ∧ FreshMapping sched thread.stackBase) :
    StacksMapped next := by
  have newApart : ∀ (thread other later : GuestThread τ κ), fresh = some thread → other ∈ sched.threads →
      later.placement = other.placement → StacksApart thread later := by
    intro thread other later made member same
    obtain ⟨size, unused⟩ := new thread made
    have apart : StacksApart thread other := by
      unfold StacksApart
      rw [size]
      exact unused.apart other member
    exact apart.kept rfl same
  constructor
  · intro later member
    obtain ⟨index, found⟩ := List.mem_iff_getElem?.mp member
    rcases advances.origin found with ⟨thread, there, same, _⟩ | ⟨made, _⟩
    · obtain ⟨nonnull, size, space⟩ := mapped.each thread (List.mem_of_getElem? there)
      have base : later.stackBase = thread.stackBase := congrArg Placement.stackBase same
      have kept : later.stackMapSize = thread.stackMapSize := congrArg Placement.stackMapSize same
      rw [base, kept]
      exact ⟨nonnull, size, space⟩
    · obtain ⟨size, unused⟩ := new later made
      rw [size]
      exact ⟨unused.nonnull, rfl, unused.space⟩
  · intro left right thread other found there different
    rcases advances.origin found with ⟨before, here, same, _⟩ | ⟨made, last⟩
    · rcases advances.origin there with ⟨earlier, place, stays, _⟩ | ⟨made, _⟩
      · exact (mapped.apart left right before earlier here place different).kept same stays
      · exact (newApart other before thread made (List.mem_of_getElem? here) same).symm
    · rcases advances.origin there with ⟨earlier, place, stays, _⟩ | ⟨_, end_⟩
      · exact newApart thread earlier other made (List.mem_of_getElem? place) stays
      · exact absurd (last.trans end_.symm) different

/-! ## The block of a new fiber -/

/-- The reserve of a stack has room for the pointer array and the block. -/
theorem reserve_covers (init : TlsInit) :
    FiberTls.arrayBytes + (init.raw.length + init.zeroFill) ≤ FiberTls.reserve init := by
  unfold FiberTls.reserve
  omega

/-- The block at the top of a stack mapped at the given base. -/
def carved (init : TlsInit) (base : Nat) : TlsBlock :=
  let array := base + (kGuardSize + kStackSize) - FiberTls.reserve init
  { array, slots := (List.replicate kTlsSlots 0).set init.index (array + FiberTls.arrayBytes)
    bytes := init.raw ++ List.replicate init.zeroFill 0 }

/-- A carved block has the size of the template with its zero fill. -/
theorem carved_size (init : TlsInit) (base : Nat) : (carved init base).size = init.raw.length + init.zeroFill := by
  simp [carved, TlsBlock.size]

/-- Attaching a fiber adds one block to the list. -/
theorem attach_blocks (tls : FiberTls) (init : TlsInit) (fiber base : Nat) :
    (tls.attach init fiber (some (carved init base).array)).blocks = tls.blocks ++ [(fiber, carved init base)] := by
  rw [FiberTls.attach_eq]
  rfl

/-- The block of a new thread lies inside of the thread's stack. -/
theorem carved_placed [Inhabited τ] (sched : GuestScheduler τ κ) (ctx : κ) {init : TlsInit} (base : Nat)
    (fits : FiberTls.reserve init ≤ kStackSize - kMinUsable) :
    Placed (spawnedThread sched ctx (FiberTls.reserve init) base) (carved init base) init := by
  have covers := reserve_covers init
  have usable : kMinUsable ≤ kStackSize := by decide
  have size := carved_size init base
  have data : (carved init base).data = (carved init base).array + FiberTls.arrayBytes := rfl
  have array : (carved init base).array = base + (kGuardSize + kStackSize) - FiberTls.reserve init := rfl
  constructor
  · exact size
  · rw [array]
    exact Nat.le_refl _
  · simp only [stackStart, stackSize, spawnedThread]
    omega
  · simp only [spawnedThread]
    omega

/-- The lookup leads to the new thread when every mapping so far has come to a thread. -/
theorem stackTopReserve_spawned [Inhabited τ] (sched : GuestScheduler τ κ) (ctx : κ) (init : TlsInit) (base : Nat)
    (stray : Option Nat) (aligned : sched.nextHandle = sched.threads.length + 1) :
    stackTopReserve { sched with
        threads := sched.threads ++ [spawnedThread sched ctx (FiberTls.reserve init) base]
        nextHandle := sched.nextHandle + 1 } sched.nextHandle stray = some (carved init base).array := by
  have covers := reserve_covers init
  have bytes : FiberTls.arrayBytes = 512 := rfl
  have here : (sched.threads ++ [spawnedThread sched ctx (FiberTls.reserve init) base])[sched.threads.length]? =
      some (spawnedThread sched ctx (FiberTls.reserve init) base) := by simp
  have position : sched.nextHandle - 1 = sched.threads.length := by omega
  have reserved : ¬ (spawnedThread sched ctx (FiberTls.reserve init) base).stackTopReserve = 0 := by
    simp only [spawnedThread]
    omega
  simp only [stackTopReserve, find]
  rw [if_neg (by omega)]
  simp only [position, here, reserved, ↓reduceIte]
  rfl

/-- The bytes of a block, the array first. -/
def TlsBlock.Covers (block : TlsBlock) (address : Nat) : Prop :=
  block.array ≤ address ∧ address < block.data + block.size

namespace TlsHost

/-- `mmap` places every new stack apart from the stacks that are mapped. -/
def MapsApart (host : TlsHost τ) : TlsAction τ → Prop
  | .spawnWithTls (some base) _ => FreshMapping host.machine.sched base
  | .attempt (.operation (.spawn _ base)) => FreshMapping host.machine.sched base
  | _ => True

/-- No mapping has failed before a fiber is spawned with storage. -/
def AllMapped (host : TlsHost τ) : TlsAction τ → Prop
  | .spawnWithTls (some _) _ => ∀ init ∈ host.tls.init, FiberTls.reserve init ≤ kStackSize - kMinUsable →
    host.machine.sched.nextHandle = host.machine.sched.threads.length + 1
  | _ => True

instance (host : TlsHost τ) : (action : TlsAction τ) → Decidable (host.MapsApart action)
  | .spawnWithTls (some base) _ | .attempt (.operation (.spawn _ base)) =>
    inferInstanceAs (Decidable (FreshMapping host.machine.sched base))
  | .setInit _ | .spawnWithTls none _ | .store _ _ | .attempt (.unmapped _) | .attempt (.operation .run)
  | .attempt (.operation .turn) | .attempt (.operation .yield) | .attempt (.operation (.sleepTicks _))
  | .attempt (.operation (.join _)) | .attempt (.operation (.blockCurrent _ _))
  | .attempt (.operation (.signal _ _)) | .attempt (.operation (.exit _)) => .isTrue trivial

instance (host : TlsHost τ) : (action : TlsAction τ) → Decidable (host.AllMapped action)
  | .spawnWithTls (some _) _ => inferInstanceAs (Decidable (∀ init ∈ host.tls.init, _ → _ = _))
  | .setInit _ | .spawnWithTls none _ | .store _ _ | .attempt _ => .isTrue trivial

/-- Every fiber with storage has its block at the top of its own stack, and no two fibers share a
byte. -/
structure Private (host : TlsHost τ) (stored : Stored) : Prop where
  blocks : host.tls.blocks.map Prod.fst = stored.map Prod.fst
  once : (stored.map Prod.fst).Nodup
  placed : ∀ fiber block, (fiber, block) ∈ host.tls.blocks → ∃ init thread, (fiber, init) ∈ stored ∧
    thread ∈ host.machine.sched.threads ∧ thread.handle = fiber ∧ Placed thread block init
  apart : ∀ fiber block other its, (fiber, block) ∈ host.tls.blocks → (other, its) ∈ host.tls.blocks →
    fiber ≠ other → ∀ address, block.Covers address → ¬ its.Covers address

/-- The next fiber spawned with storage gets a block that is filled, and the other blocks keep
their bytes. -/
def Installs [DecidableEq τ] [Inhabited τ] (host : TlsHost τ) : Prop :=
  ∀ region stray next init, host.step (.spawnWithTls region stray) = some next → host.tls.init = some init →
    host.MapsApart (.spawnWithTls region stray) → host.AllMapped (.spawnWithTls region stray) →
    (host.spawnWithTls region stray).2 ≠ 0 →
    ∃ block, next.tls.blocks = host.tls.blocks ++ [((host.spawnWithTls region stray).2, block)] ∧
      Filled next.memory block init ∧
      ∀ fiber its, (fiber, its) ∈ host.tls.blocks → ∀ address, its.Covers address →
        next.memory address = host.memory address

/-- `data_of` gives a pointer to the accesses that lie inside the data area, and only to them. -/
structure ExactAccess (host : TlsHost τ) (fiber : Nat) (block : TlsBlock) (offset size : Nat) : Prop where
  nonnull : host.tls.dataOf fiber offset size ≠ 0 ↔ offset + size ≤ block.size
  points : offset + size ≤ block.size → host.tls.dataOf fiber offset size = block.data + offset

/-- What holds of a host and the fibers spawned with storage, as long as mappings are apart. -/
structure Laid (host : TlsHost τ) (stored : Stored) : Prop where
  ordered : Ordered host.machine.sched
  accepted : ∀ init ∈ host.tls.init, init.index < kTlsSlots
  mapped : StacksMapped host.machine.sched
  blocks : host.tls.blocks.map Prod.fst = stored.map Prod.fst
  once : (stored.map Prod.fst).Nodup
  placed : ∀ fiber block, (fiber, block) ∈ host.tls.blocks → ∃ init thread, (fiber, init) ∈ stored ∧
    thread ∈ host.machine.sched.threads ∧ thread.handle = fiber ∧ Placed thread block init

variable {host next : TlsHost τ} {stored : Stored} {fiber : Nat} {block : TlsBlock}

/-- A block lies inside the address space. -/
theorem Laid.space (laid : host.Laid stored) (member : (fiber, block) ∈ host.tls.blocks) :
    0 < block.array ∧ block.data + block.size < 2 ^ 64 := by
  obtain ⟨init, thread, _, there, _, placed⟩ := laid.placed fiber block member
  obtain ⟨nonnull, _, space⟩ := laid.mapped.each thread there
  have above := placed.above
  have inside := placed.inside
  unfold stackStart at above
  omega

/-- A byte of a block is a byte of the fiber's stack mapping. -/
theorem covers_stack {thread : GuestThread τ (Scheduler.Call τ)} {init : TlsInit} (placed : Placed thread block init)
    {address : Nat} (covers : block.Covers address) :
    thread.stackBase ≤ address ∧ address < thread.stackBase + thread.stackMapSize := by
  obtain ⟨low, high⟩ := covers
  have above := placed.above
  have inside := placed.inside
  unfold stackStart at above
  omega

/-- Blocks laid out inside of stacks that lie apart are private to their fibers. -/
theorem Laid.private (laid : host.Laid stored) : host.Private stored := by
  constructor
  · exact laid.blocks
  · exact laid.once
  · exact laid.placed
  · intro fiber block other its member there different address here again
    obtain ⟨_, thread, _, found, handle, placed⟩ := laid.placed fiber block member
    obtain ⟨_, second, _, lies, its_handle, its_placed⟩ := laid.placed other its there
    obtain ⟨left, inside⟩ := List.mem_iff_getElem?.mp found
    obtain ⟨right, within⟩ := List.mem_iff_getElem?.mp lies
    have positions : left ≠ right := by
      rintro rfl
      obtain rfl := Option.some.inj (inside.symm.trans within)
      exact different (handle.symm.trans its_handle)
    have apart := laid.mapped.apart left right thread second inside within positions
    have first := covers_stack placed here
    have last := covers_stack its_placed again
    unfold StacksApart at apart
    omega

/-- A step that leaves the blocks alone. -/
theorem Laid.kept (laid : host.Laid stored) {ends : Option Nat} {fresh : Option (GuestThread τ (Scheduler.Call τ))}
    (ordered : Ordered next.machine.sched) (advances : Advances ends host.machine.sched next.machine.sched fresh)
    (new : ∀ thread ∈ fresh, thread.stackMapSize = kGuardSize + kStackSize ∧
      FreshMapping host.machine.sched thread.stackBase)
    (blocks : next.tls.blocks = host.tls.blocks) (accepted : ∀ init ∈ next.tls.init, init.index < kTlsSlots) :
    next.Laid stored := by
  constructor
  · exact ordered
  · exact accepted
  · exact laid.mapped.advance advances new
  · rw [blocks]
    exact laid.blocks
  · exact laid.once
  · intro fiber block member
    rw [blocks] at member
    obtain ⟨init, thread, known, there, handle, placed⟩ := laid.placed fiber block member
    obtain ⟨later, here, same⟩ := advances.survives there
    exact ⟨init, later, known, here, (Advances.handle_eq same).trans handle, placed.kept same⟩

/-- The scan of `data_of` stops at the block of the fiber. -/
theorem Laid.found (laid : host.Laid stored) (member : (fiber, block) ∈ host.tls.blocks) :
    host.tls.blocks.find? (fun entry => entry.1 == fiber) = some (fiber, block) := by
  have once : (host.tls.blocks.map Prod.fst).Nodup := laid.blocks ▸ laid.once
  cases scan : host.tls.blocks.find? (fun entry => entry.1 == fiber) with
  | none =>
    have missed := List.find?_eq_none.mp scan (fiber, block) member
    simp at missed
  | some entry =>
    have key : entry.1 = fiber := by simpa using List.find?_some scan
    rw [List.inj_on_of_nodup_map once (List.mem_of_find?_eq_some scan) member key]

/-- `data_of` is exact unless the sum wraps around to one that fits. The pointer that is then
returned is null for a single offset only. -/
theorem Laid.exactAccess_iff (laid : host.Laid stored) (member : (fiber, block) ∈ host.tls.blocks) {offset size : Nat}
    (offset_word : offset < 2 ^ 64) (size_word : size < 2 ^ 64) : host.ExactAccess fiber block offset size ↔
      offset + size < 2 ^ 64 ∨ block.size + 2 ^ 64 < offset + size ∨ block.data + offset = 2 ^ 64 := by
  obtain ⟨nonnull, space⟩ := laid.space member
  have data : block.data = block.array + FiberTls.arrayBytes := rfl
  have pointer : host.tls.dataOf fiber offset size =
      if block.size < (offset + size) % 2 ^ 64 then 0 else (block.data + offset) % 2 ^ 64 := by
    simp only [FiberTls.dataOf, laid.found member]
  by_cases wraps : offset + size < 2 ^ 64
  · rw [Nat.mod_eq_of_lt wraps] at pointer
    refine iff_of_true ?_ (Or.inl wraps)
    constructor
    · rw [pointer]
      split <;> omega
    · intro inside
      rw [pointer, if_neg (by omega), Nat.mod_eq_of_lt (by omega)]
  · have outside : ¬ offset + size ≤ block.size := by omega
    have null : host.tls.dataOf fiber offset size = 0 ↔
        block.size + 2 ^ 64 < offset + size ∨ block.data + offset = 2 ^ 64 := by
      rw [pointer]
      split <;> omega
    rw [← null]
    constructor
    · intro exact_access
      by_contra other
      exact outside (exact_access.nonnull.mp (fun zero => other (Or.inr zero)))
    · intro either
      have zero := either.resolve_left wraps
      exact ⟨iff_of_false (fun some => some zero) outside, fun inside => absurd inside outside⟩

section steps

variable [Inhabited τ]

/-- The block of the next fiber, and the host once it is there. -/
theorem Laid.stores (laid : host.Laid stored) {init : TlsInit} {base : Nat} {stray : Option Nat}
    (made : host.Stores next init base stray) (unused : FreshMapping host.machine.sched base)
    (aligned : host.machine.sched.nextHandle = host.machine.sched.threads.length + 1) :
    next.tls.blocks = host.tls.blocks ++ [(host.machine.sched.nextHandle, carved init base)] ∧
      next.memory = installBytes host.memory init (carved init base).array ∧
      next.Laid (stored ++ [(host.machine.sched.nextHandle, init)]) := by
  have top : stackTopReserve next.machine.sched host.machine.sched.nextHandle stray =
      some (carved init base).array := by
    rw [made.sched]
    exact stackTopReserve_spawned host.machine.sched .entry init base stray aligned
  have tls := made.tls
  rw [top] at tls
  have blocks : next.tls.blocks = host.tls.blocks ++ [(host.machine.sched.nextHandle, carved init base)] := by
    rw [tls, attach_blocks]
    rfl
  have accepted : next.tls.init = host.tls.init := by
    rw [tls, FiberTls.attach_eq]
    rfl
  obtain ⟨ordered, advances⟩ := made.advances laid.ordered
  have placed := carved_placed host.machine.sched .entry base made.fits
  have unknown : host.machine.sched.nextHandle ∉ stored.map Prod.fst := by
    intro known
    rw [← laid.blocks] at known
    obtain ⟨entry, member, same⟩ := List.mem_map.mp known
    obtain ⟨_, thread, _, there, handle, _⟩ := laid.placed entry.1 entry.2 member
    have below := (laid.ordered.below thread there).2
    omega
  refine ⟨blocks, made.memory _ top, ?_⟩
  constructor
  · exact ordered
  · rw [accepted]
    exact laid.accepted
  · refine laid.mapped.advance advances (fun thread same => ?_)
    obtain rfl := Option.some.inj same
    exact ⟨rfl, unused⟩
  · rw [blocks, List.map_append, List.map_append, laid.blocks]
    rfl
  · rw [List.map_append]
    exact laid.once.append (List.nodup_singleton _) (List.disjoint_singleton.mpr unknown)
  · intro fiber block member
    rw [blocks] at member
    rcases List.mem_append.mp member with old | new
    · obtain ⟨earlier, thread, known, there, handle, lies⟩ := laid.placed fiber block old
      obtain ⟨later, here, same⟩ := advances.survives there
      exact ⟨earlier, later, List.mem_append_left _ known, here, (Advances.handle_eq same).trans handle,
        lies.kept same⟩
    · obtain ⟨rfl, rfl⟩ := Prod.mk.inj (List.mem_singleton.mp new)
      exact ⟨init, _, List.mem_append_right _ (List.mem_singleton_self _), made.member, rfl, placed⟩

variable [DecidableEq τ]

/-- One step keeps the layout. -/
theorem Laid.step (laid : host.Laid stored) {action : TlsAction τ} (apart : host.MapsApart action)
    (aligned : host.AllMapped action) (stepped : host.step action = some next) :
    next.Laid (recordStored host action next stored) := by
  cases action with
  | setInit init =>
    rcases setInit_step stepped with rfl | ⟨small, rfl⟩
    · exact laid
    · refine laid.kept laid.ordered (.same (.refl _) rfl) (by simp) rfl (fun accepted same => ?_)
      obtain rfl := Option.some.inj same
      exact small
  | store addr bytes =>
    obtain rfl := store_step stepped
    exact laid.kept laid.ordered (.same (.refl _) rfl) (by simp) rfl laid.accepted
  | spawnWithTls region stray =>
    rcases spawnWithTls_step laid.ordered stepped stored with ⟨fails, same⟩ | ⟨init, base, rfl, made, grown⟩
    · rw [same]
      rcases fails.tls with tls | tls
      · exact laid.kept fails.ordered fails.advances (by simp) (by rw [tls]) (by rw [tls]; exact laid.accepted)
      · exact laid.kept fails.ordered fails.advances (by simp) (by rw [tls]; rfl) (by rw [tls]; exact laid.accepted)
    · rw [grown]
      exact (laid.stores made apart (aligned init made.payload made.fits)).2.2
  | attempt attempt =>
    obtain ⟨machine, tried, rfl⟩ := Option.map_eq_some_iff.mp stepped
    obtain ⟨ordered, fresh, advances, new⟩ := Machine.ordered_attempt laid.ordered tried
    have observed : (host.observed attempt).blocks = host.tls.blocks ∧
        (host.observed attempt).init = host.tls.init := by
      unfold TlsHost.observed FiberTls.finished
      split
      · split <;> exact ⟨rfl, rfl⟩
      · exact ⟨rfl, rfl⟩
    refine laid.kept ordered advances (fun thread made => ?_) observed.1 (by rw [observed.2]; exact laid.accepted)
    obtain ⟨stackTopReserve, base, rfl, rfl⟩ := new thread made
    exact ⟨rfl, apart⟩

/-- The next fiber with storage finds its block filled. -/
theorem Laid.installs (laid : host.Laid stored) : host.Installs := by
  intro region stray next init stepped payload apart aligned some
  rcases spawnWithTls_step laid.ordered stepped stored with ⟨_, same⟩ | ⟨given, base, rfl, made, grown⟩
  · simp [recordStored, payload, some] at same
  · obtain rfl := Option.some.inj (payload.symm.trans made.payload)
    have index := laid.accepted init payload
    obtain ⟨blocks, memory, later⟩ := laid.stores made apart (aligned init payload made.fits)
    have fiber : (host.spawnWithTls (Option.some base) stray).2 = host.machine.sched.nextHandle := by
      simp only [recordStored, payload, some, ↓reduceIte, List.append_cancel_left_eq] at grown
      exact (Prod.mk.inj (List.cons.inj grown).1).1
    have member : (host.machine.sched.nextHandle, carved init base) ∈ next.tls.blocks := by
      rw [blocks]
      exact List.mem_append_right _ (List.mem_singleton_self _)
    have space := later.space member
    rw [fiber]
    refine ⟨carved init base, blocks, ?_, fun other its there address covers => ?_⟩
    · rw [memory]
      refine installBytes_filled index rfl ?_
      unfold TlsBlock.data at space
      omega
    · rw [memory]
      refine installBytes_outside index ?_
      have old : (other, its) ∈ next.tls.blocks := by
        rw [blocks]
        exact List.mem_append_left _ there
      have different : other ≠ host.machine.sched.nextHandle := by
        obtain ⟨_, thread, _, lies, handle, _⟩ := laid.placed other its there
        have below := (laid.ordered.below thread lies).2
        omega
      have outside := later.private.apart other its _ _ old member different address covers
      have size := carved_size init base
      unfold TlsBlock.Covers TlsBlock.data at outside
      omega

/-- **TLS blocks.** As long as no mapping has failed before a fiber is spawned with storage, the
blocks are private and are filled when they are made. `data_of` is exact for the accesses whose sum
does not wrap around to one that fits, or whose pointer wraps around to null, and for no others.

Proof: the blocks lie in stacks that are apart, and nothing writes there but `install`. The bounds
check of `data_of` adds two words and may wrap around. -/
theorem tls_blocks_private (actions : List (TlsAction τ)) (host : TlsHost τ) (stored : Stored)
    (completed : Runs.run (Runs.watch step recordStored) (({} : TlsHost τ), []) actions = some (host, stored))
    (apart : Runs.Along step MapsApart ({} : TlsHost τ) actions)
    (aligned : Runs.Along step AllMapped ({} : TlsHost τ) actions) :
    host.Private stored ∧ host.Installs ∧ ∀ fiber block, (fiber, block) ∈ host.tls.blocks →
      ∀ offset size, offset < 2 ^ 64 → size < 2 ^ 64 → (host.ExactAccess fiber block offset size ↔
        offset + size < 2 ^ 64 ∨ block.size + 2 ^ 64 < offset + size ∨ block.data + offset = 2 ^ 64) := by
  have start : Laid ({} : TlsHost τ) [] := by
    constructor
    · exact .initial
    · simp
    · exact ⟨by simp, by simp⟩
    · rfl
    · exact List.nodup_nil
    · simp
  have preserved : ∀ (host : TlsHost τ) stored action next, Laid host stored →
      MapsApart host action ∧ AllMapped host action → step host action = some next →
      Laid next (recordStored host action next stored) :=
    fun _ _ _ _ laid allowed => laid.step allowed.1 allowed.2
  have laid : host.Laid stored := Runs.watch_invariant preserved start (Runs.along_and _ _ apart aligned) completed
  exact ⟨laid.private, laid.installs, fun _ _ member _ _ => laid.exactAccess_iff member⟩

/-- A fiber with one byte of storage. -/
def oneByte : List (TlsAction Nat) := [.setInit { raw := [7] }, .spawnWithTls (some 0x10000) none]

/-- The last offset and a size of two: the sum wraps around to one, and the pointer is the one
before the data area. -/
theorem oneByte_outside : ¬ ∀ (actions : List (TlsAction Nat)) (host : TlsHost Nat) (stored : Stored),
    Runs.run (Runs.watch step recordStored) ({}, []) actions = some (host, stored) →
    Runs.Along step MapsApart {} actions → host.Private stored ∧ host.Installs ∧
      ∀ fiber block, (fiber, block) ∈ host.tls.blocks → ∀ offset size, offset < 2 ^ 64 → size < 2 ^ 64 →
        host.ExactAccess fiber block offset size := by
  intro always
  obtain ⟨_, _, exact_access⟩ := always oneByte _ _ rfl (by decide)
  have block := exact_access 1 (carved { raw := [7] } 0x10000) (by decide)
  exact absurd (block (2 ^ 64 - 1) 2 (by decide) (by decide)).nonnull (by decide)

/-- Two fibers whose storage starts with two bytes and goes on with two zeros. -/
def spawnsTwo : List (TlsAction Nat) :=
  [.setInit { raw := [7, 8], zeroFill := 2 }, .spawnWithTls (some 0x10000) none, .spawnWithTls (some 0x90000) none]

/-- Two fibers get one block each. Neither reaches into the other's. -/
theorem spawnsTwo_private : ∃ (host : TlsHost Nat) (stored : Stored),
    Runs.run (Runs.watch step recordStored) ({}, []) spawnsTwo = some (host, stored) ∧
    host.tls.blocks.map Prod.fst = [1, 2] ∧ host.Private stored ∧ host.Installs ∧
      ∀ fiber block, (fiber, block) ∈ host.tls.blocks →
        ∀ offset size, offset < 2 ^ 64 → size < 2 ^ 64 → (host.ExactAccess fiber block offset size ↔
          offset + size < 2 ^ 64 ∨ block.size + 2 ^ 64 < offset + size ∨ block.data + offset = 2 ^ 64) :=
  ⟨_, _, rfl, by decide, tls_blocks_private spawnsTwo _ _ rfl (by decide) (by decide)⟩

end steps

end TlsHost

end SeriesxEmu
