import SeriesxEmu.FinishObservers
import SeriesxEmu.MemMap
import SeriesxEmu.ThreadFates

/-!
# Thread-local storage on a scheduler

A `FiberTls` on a scheduler whose only finish observer it is. Fibers are spawned with and
without storage, from the host and from inside fibers, and every stack mapping may fail. The
blocks lie in the memory of the host process, at the top of the stacks that `mmap` has placed.

After a failed mapping the lookup of a new handle leads past the end of the threads. What is
read there is not the scheduler's: the action that makes the lookup says what it comes to.
-/

namespace SeriesxEmu

open Scheduler GuestScheduler

variable {τ κ : Type}

namespace TlsBlock

/-- The data area follows the array of slots. -/
def data (block : TlsBlock) : Nat := block.array + FiberTls.arrayBytes

/-- The bytes of the block. -/
def size (block : TlsBlock) : Nat := block.bytes.length

end TlsBlock

namespace FiberTls

/-- `data_of`: a host pointer, null as zero. The sum of offset and size is taken in 64 bits. -/
def dataOf (tls : FiberTls) (fiber offset size : Nat) : Nat :=
  match tls.blocks.find? (fun entry => entry.1 == fiber) with
  | none => 0
  | some (_, block) =>
    if block.size < (offset + size) % 2 ^ 64 then 0 else (block.data + offset) % 2 ^ 64

end FiberTls

/-- The bytes of a host pointer, least significant first. -/
def pointerBytes (pointer : Nat) : List UInt8 :=
  XbeRam.littleEndian pointer ++ XbeRam.littleEndian (pointer / 2 ^ 32)

/-- The pointer stored at an address. -/
def pointerAt (memory : Nat → UInt8) (addr : Nat) : Nat :=
  XbeRam.ofLittleEndian ((List.range 8).map (fun offset => memory (addr + offset)))

/-- What `install` stores at the top of a stack: null slots, the slot of the index, the template
and the zero fill. -/
def installBytes (memory : Nat → UInt8) (init : TlsInit) (array : Nat) : Nat → UInt8 :=
  let data := array + FiberTls.arrayBytes
  let nulls := MemMap.store memory array (List.replicate FiberTls.arrayBytes 0)
  let pointed := MemMap.store nulls (array + 8 * init.index) (pointerBytes data)
  let copied := MemMap.store pointed data init.raw
  MemMap.store copied (data + init.raw.length) (List.replicate init.zeroFill 0)

/-- `stack_top_reserve`, when a lookup past the end of the threads comes to the given pointer. -/
def stackTopReserve (sched : GuestScheduler τ κ) (handle : Nat) (stray : Option Nat) : Option Nat :=
  match sched.find handle with
  | none => none
  | some index =>
    match sched.threads[index]? with
    | none => stray
    | some thread =>
      if thread.stackTopReserve = 0 then none
      else some (thread.stackBase + thread.stackMapSize - thread.stackTopReserve)

/-- `rearm`: where the stack of a thread starts, above the guard page. -/
def stackStart (thread : GuestThread τ κ) : Nat := thread.stackBase + kGuardSize

/-- `rearm`: the part of the stack that the thread runs on, below the reserve. -/
def stackSize (thread : GuestThread τ κ) : Nat := kStackSize - thread.stackTopReserve

/-- A scheduler, the storage and the memory of the host process. -/
structure TlsHost (τ : Type) where
  machine : Machine τ := {}
  tls : FiberTls := {}
  memory : Nat → UInt8 := fun _ => 0

/-- What happens to a host with thread-local storage. -/
inductive TlsAction (τ : Type) where
  | setInit (init : TlsInit)
  /-- The region is that of the new stack, if it can be mapped. -/
  | spawnWithTls (region stray : Option Nat)
  | attempt (attempt : Attempt τ)
  /-- The code that is running stores bytes. -/
  | store (addr : Nat) (bytes : List UInt8)

namespace TlsHost

variable [DecidableEq τ] [Inhabited τ]

/-- The storage once its finish hook is set. -/
def hooked (host : TlsHost τ) : FiberTls := { host.tls with hookInstalled := true }

/-- `spawn_with_tls`. The finish hook is set before the fiber is spawned. -/
def spawnWithTls (host : TlsHost τ) (region stray : Option Nat) : TlsHost τ × Nat :=
  match host.tls.init with
  | none => (host, 0)
  | some init =>
    let (sched, fiber) := host.machine.sched.spawnReserved .entry (FiberTls.reserve init) region
    let spawned := { host with machine := { host.machine with sched }, tls := host.hooked }
    if fiber = 0 then (spawned, 0)
    else
      let top := stackTopReserve sched fiber stray
      ({ spawned with
          tls := host.hooked.attach init fiber top
          memory :=
            match top with
            | none => host.memory
            | some array => installBytes host.memory init array }, fiber)

/-- The storage after the scheduler has been called: `thread_finish` runs the hook while the
thread is switched in. -/
def observed (host : TlsHost τ) : Attempt τ → FiberTls
  | .operation (.exit _) => host.tls.finished host.machine.sched.currentHandle
  | _ => host.tls

/-- One action. -/
def step (host : TlsHost τ) : TlsAction τ → Option (TlsHost τ)
  | .setInit init => if host.machine.sched.active then some { host with tls := host.tls.setInit init } else none
  | .spawnWithTls region stray =>
    if host.machine.sched.active then some (host.spawnWithTls region stray).1 else none
  | .attempt attempt =>
    (host.machine.attempt attempt).map (fun machine => { host with machine, tls := host.observed attempt })
  | .store addr bytes =>
    if host.machine.sched.active then some { host with memory := MemMap.store host.memory addr bytes } else none

/-- The fibers that were spawned with storage, in order, and what it was filled with. -/
abbrev Stored := List (Nat × TlsInit)

/-- A call of `spawn_with_tls` that returns a handle has spawned a fiber. -/
def recordStored (host : TlsHost τ) (action : TlsAction τ) (_ : TlsHost τ) (stored : Stored) : Stored :=
  match action, host.tls.init with
  | .spawnWithTls region stray, some init =>
    if (host.spawnWithTls region stray).2 = 0 then stored
    else stored ++ [((host.spawnWithTls region stray).2, init)]
  | _, _ => stored

/-! ## What an action comes to -/

variable {host next : TlsHost τ} {region stray : Option Nat} {stored : Stored}

/-- A payload is ignored, or is the one of every later fiber. -/
theorem setInit_step {init : TlsInit} (stepped : host.step (.setInit init) = some next) :
    next = host ∨ init.index < kTlsSlots ∧ next = { host with tls := { host.tls with init := some init } } := by
  simp only [step, FiberTls.setInit] at stepped
  split at stepped
  · obtain rfl := Option.some.inj stepped
    split
    · exact Or.inl rfl
    · rename_i small
      exact Or.inr ⟨Nat.lt_of_not_le small, rfl⟩
  · cases stepped

/-- A store changes the memory only. -/
theorem store_step {addr : Nat} {bytes : List UInt8} (stepped : host.step (.store addr bytes) = some next) :
    next = { host with memory := MemMap.store host.memory addr bytes } := by
  simp only [step] at stepped
  split at stepped
  · exact (Option.some.inj stepped).symm
  · cases stepped

/-- The scheduler once the fiber has been spawned for its storage. -/
def spawnedSched (host : TlsHost τ) (init : TlsInit) (base : Nat) : GuestScheduler τ (Scheduler.Call τ) :=
  { host.machine.sched with
    threads := host.machine.sched.threads ++
      [spawnedThread host.machine.sched .entry (FiberTls.reserve init) base]
    nextHandle := host.machine.sched.nextHandle + 1 }

/-- A fiber has been spawned with storage. -/
structure Stores (host next : TlsHost τ) (init : TlsInit) (base : Nat) (stray : Option Nat) : Prop where
  payload : host.tls.init = some init
  fits : FiberTls.reserve init ≤ kStackSize - kMinUsable
  sched : next.machine.sched = host.spawnedSched init base
  tls : next.tls = host.hooked.attach init host.machine.sched.nextHandle
    (stackTopReserve next.machine.sched host.machine.sched.nextHandle stray)
  memory : ∀ array, stackTopReserve next.machine.sched host.machine.sched.nextHandle stray = some array →
    next.memory = installBytes host.memory init array

omit [DecidableEq τ] in
/-- The new thread is behind the others. -/
theorem Stores.advances {init : TlsInit} {base : Nat} (made : host.Stores next init base stray)
    (ordered : Ordered host.machine.sched) :
    Ordered next.machine.sched ∧ Advances none host.machine.sched next.machine.sched
      (some (spawnedThread host.machine.sched .entry (FiberTls.reserve init) base)) := by
  rw [made.sched]
  exact ordered.spawned .entry (FiberTls.reserve init) base

omit [DecidableEq τ] in
/-- The new thread is in the table afterwards. -/
theorem Stores.member {init : TlsInit} {base : Nat} (made : host.Stores next init base stray) :
    spawnedThread host.machine.sched .entry (FiberTls.reserve init) base ∈ next.machine.sched.threads := by
  rw [made.sched]
  exact List.mem_append_right _ (List.mem_singleton_self _)

/-- No fiber has been spawned, but the hook may have been set and a handle used up. -/
structure Fails (host next : TlsHost τ) : Prop where
  ordered : Ordered next.machine.sched
  advances : Advances none host.machine.sched next.machine.sched none
  tls : next.tls = host.tls ∨ next.tls = host.hooked
  memory : next.memory = host.memory

/-- A call fails, or spawns one fiber with storage. -/
theorem spawnWithTls_step (ordered : Ordered host.machine.sched)
    (stepped : host.step (.spawnWithTls region stray) = some next) (stored : Stored) :
    (host.Fails next ∧ recordStored host (.spawnWithTls region stray) next stored = stored) ∨
    ∃ init base, region = some base ∧ host.Stores next init base stray ∧
      recordStored host (.spawnWithTls region stray) next stored =
        stored ++ [(host.machine.sched.nextHandle, init)] := by
  simp only [step] at stepped
  split at stepped
  · obtain rfl := Option.some.inj stepped
    cases payload : host.tls.init with
    | none =>
      have same : host.spawnWithTls region stray = (host, 0) := by simp only [spawnWithTls, payload]
      refine Or.inl ⟨?_, by simp only [recordStored, payload]⟩
      rw [same]
      exact ⟨ordered, .same (.refl _) rfl, Or.inl rfl, rfl⟩
    | some init =>
      rcases spawnReserved_cases host.machine.sched .entry (FiberTls.reserve init) region with
        ⟨_, refused⟩ | ⟨_, unmapped⟩ | ⟨base, mapped, fits, made⟩
      · have same : host.spawnWithTls region stray = ({ host with tls := host.hooked }, 0) := by
          simp only [spawnWithTls, payload, refused, ↓reduceIte]
        refine Or.inl ⟨?_, by simp only [recordStored, payload, same, ↓reduceIte]⟩
        rw [same]
        exact ⟨ordered, .same (.refl _) rfl, Or.inr rfl, rfl⟩
      · have same : host.spawnWithTls region stray =
            ({ host with
                machine := { host.machine with
                  sched := { host.machine.sched with nextHandle := host.machine.sched.nextHandle + 1 } }
                tls := host.hooked }, 0) := by
          simp only [spawnWithTls, payload, unmapped, ↓reduceIte]
        refine Or.inl ⟨?_, by simp only [recordStored, payload, same, ↓reduceIte]⟩
        rw [same]
        exact ⟨ordered.unmapped.1, ordered.unmapped.2, Or.inr rfl, rfl⟩
      · have fresh : ¬ host.machine.sched.nextHandle = 0 := Nat.ne_of_gt ordered.next
        refine Or.inr ⟨init, base, mapped, ?_, ?_⟩
        · simp only [spawnWithTls, payload, made, fresh, ↓reduceIte]
          refine ⟨payload, fits, rfl, rfl, fun array there => ?_⟩
          rw [there]
        · simp only [recordStored, payload, spawnWithTls, made, fresh, ↓reduceIte]
  · cases stepped

end TlsHost

end SeriesxEmu
