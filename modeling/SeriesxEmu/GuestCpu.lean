import SeriesxEmu.Intervals
import SeriesxEmu.Thunks

/-!
# Guest CPUs and their runtime

A `GuestCpu` maps the committed pages of the guest memory into an engine of its own
when it is attached, and the runtime maps and unmaps every later change on all
attached CPUs. The runtime also hands out stacks and TEBs, from the kernel data page
downwards.

The Unicorn engine is a parameter with the behaviour the core relies on. The ranges
that are mapped or unmapped lie in the guest window, so their sums do not wrap; the
sizes that `alloc_pages` is asked for are 32-bit words.
-/

namespace SeriesxEmu

/-- The size of a page. -/
def kPage : Nat := 0x1000

/-- The GDT page of a CPU, behind the page of the markers. -/
def kGdtVa : Nat := kHleMarker + kPage

/-- The permissions that the core gives to pages. -/
inductive Perms where
  | read
  | readExec
  | readWriteExec
deriving DecidableEq, Repr

/-- The engine: a page has permissions, or is not mapped. `opened` is what `uc_open` makes, nothing
when it fails, and `hooked` says whether the `uc_hook_add` calls on an engine succeed. -/
structure Unicorn where
  Engine : Type
  opened : Option Engine
  hooked : Engine → Bool
  perms : Engine → Nat → Option Perms
  memMapPtr : Engine → Nat → Nat → Perms → Option Engine
  memUnmap : Engine → Nat → Nat → Option Engine

/-- The first byte of the page lies in the range. For ranges of whole pages this says that
the page does. -/
def OnPages (va size page : Nat) : Prop := va ≤ page * kPage ∧ page * kPage < va + size

instance (va size page : Nat) : Decidable (OnPages va size page) := inferInstanceAs (Decidable (_ ∧ _))

/-- What the core relies on: a new engine maps nothing, `uc_mem_map_ptr` maps the range it
is given unless that overlaps a mapped page, and `uc_mem_unmap` unmaps the range it is
given unless a page of it is not mapped. -/
structure Unicorn.Lawful (uc : Unicorn) : Prop where
  nothing : ∀ engine, uc.opened = some engine → ∀ page, uc.perms engine page = none
  mapRefused : ∀ engine va size perms, uc.memMapPtr engine va size perms = none ↔
    ∃ page, OnPages va size page ∧ uc.perms engine page ≠ none
  mapped : ∀ engine va size perms next, uc.memMapPtr engine va size perms = some next →
    ∀ page, uc.perms next page = if OnPages va size page then some perms else uc.perms engine page
  unmapRefused : ∀ engine va size, uc.memUnmap engine va size = none ↔
    ∃ page, OnPages va size page ∧ uc.perms engine page = none
  unmapped : ∀ engine va size next, uc.memUnmap engine va size = some next →
    ∀ page, uc.perms next page = if OnPages va size page then none else uc.perms engine page

/-! ## One CPU -/

/-- An attached CPU: its engine and `mapped_`. -/
structure GuestCpu (uc : Unicorn) where
  engine : uc.Engine
  mapped : List Interval := []

namespace GuestCpu

variable {uc : Unicorn}

/-- `va & ~(kPage - 1)`. -/
def pageDown (va : Nat) : Nat := va / kPage * kPage

/-- `page_round` of an address of the window. -/
def pageUp (va : Nat) : Nat := (va + kPage - 1) / kPage * kPage

/-- The permissions a range is mapped with. -/
def permsOf (ro : Bool) : Perms := if ro then .readExec else .readWriteExec

/-- `map_range`. -/
def mapRange (ram : XbeRam) (cpu : GuestCpu uc) (va size : Nat) (ro : Bool) : GuestCpu uc × Bool :=
  let lo := pageDown va
  let hi := pageUp (va + size)
  if cpu.mapped.any (fun range => range.start ≤ lo && hi ≤ range.start + range.size) then (cpu, true)
  else
    match ram.hostPtr lo with
    | none => (cpu, false)
    | some _ =>
      match uc.memMapPtr cpu.engine lo (hi - lo) (permsOf ro) with
      | none => (cpu, false)
      | some engine => ({ engine, mapped := cpu.mapped ++ [⟨lo, hi - lo⟩] }, true)

/-- `unmap_range`. -/
def unmapRange (cpu : GuestCpu uc) (va size : Nat) : GuestCpu uc × Bool :=
  let lo := pageDown va
  let hi := pageUp (va + size)
  match uc.memUnmap cpu.engine lo (hi - lo) with
  | none => (cpu, false)
  | some engine => ({ engine, mapped := Interval.cut lo hi cpu.mapped }, true)

/-- The inner loop of `attach`: how far the run of pages that is mapped at once goes. It
goes on while the next page is writable exactly when the run is to be read-only. -/
def runEnd (ram : XbeRam) (ro : Bool) : Nat → Nat → Nat
  | 0, stop => stop
  | turns + 1, stop =>
    if stop < ram.size && ram.isCommitted stop 1 && ram.writable stop 1 == ro then runEnd ram ro turns (stop + kPage)
    else stop

/-- The outer loop of `attach`: the ranges it maps, each with its protection. -/
def attachRuns (ram : XbeRam) : Nat → Nat → List (Interval × Bool)
  | 0, _ => []
  | turns + 1, addr =>
    if addr < ram.size then
      if !ram.isCommitted addr 1 then attachRuns ram turns (addr + kPage)
      else
        let ro := !ram.writable addr 1
        let stop := runEnd ram ro turns (addr + kPage)
        (⟨addr, stop - addr⟩, ro) :: attachRuns ram turns stop
    else []

/-- Map the ranges one after the other; a failure stops. -/
def mapRuns (ram : XbeRam) : GuestCpu uc → List (Interval × Bool) → Option (GuestCpu uc)
  | cpu, [] => some cpu
  | cpu, (range, ro) :: rest =>
    match cpu.mapRange ram range.start range.size ro with
    | (next, true) => mapRuns ram next rest
    | (_, false) => none

/-- `attach` on a new CPU: the committed pages, then the marker page and the GDT page, and last the hooks. -/
def attach (uc : Unicorn) (ram : XbeRam) : Option (GuestCpu uc) :=
  match uc.opened with
  | none => none
  | some opened =>
    match mapRuns ram { engine := opened } (attachRuns ram (ram.size / kPage + 1) 0) with
    | none => none
    | some cpu =>
      match uc.memMapPtr cpu.engine kHleMarker kPage .readExec with
      | none => none
      | some marked =>
        match uc.memMapPtr marked kGdtVa kPage .read with
        | none => none
        | some engine =>
          if uc.hooked engine then
            some { engine, mapped := cpu.mapped ++ [⟨kHleMarker, kPage⟩, ⟨kGdtVa, kPage⟩] }
          else none

end GuestCpu

/-! ## The runtime -/

/-- The runtime with the part of the kernel whose mappings it mirrors. -/
structure UnicornRuntime (uc : Unicorn) where
  pool : MemoryPool
  top : Nat
  tlsRaw : List UInt8 := []
  cpus : List (GuestCpu uc) := []

namespace UnicornRuntime

variable {uc : Unicorn}

/-- The constructor: the cursor starts below the kernel data page, or below the last page of
a kernel without thunks. -/
def create (uc : Unicorn) (pool : MemoryPool) (kernelDataVa : Nat) (tlsRaw : List UInt8) : UnicornRuntime uc :=
  { pool, tlsRaw, top := if kernelDataVa ≠ 0 then kernelDataVa else (pool.ram.size + 2 ^ 32 - kPage) % 2 ^ 32 }

/-- `map_on_all`. -/
def mapOnAll (rt : UnicornRuntime uc) (va size : Nat) (ro : Bool) : UnicornRuntime uc :=
  { rt with cpus := rt.cpus.map (fun cpu => (cpu.mapRange rt.pool.ram va size ro).1) }

/-- `unmap_on_all`. -/
def unmapOnAll (rt : UnicornRuntime uc) (va size : Nat) : UnicornRuntime uc :=
  { rt with cpus := rt.cpus.map (fun cpu => (cpu.unmapRange va size).1) }

/-- `page_round` of a 32-bit word. -/
def pageRound (bytes : Nat) : Nat := alignUp bytes kPage

/-- The checks of `alloc_pages`: where the pages would go. The floor lies below the cursor
of this very call. -/
def pagesBelow (rt : UnicornRuntime uc) (bytes : Nat) : Option Nat :=
  let size := pageRound bytes
  let floor := (rt.top + 2 ^ 32 - 0x800000) % 2 ^ 32
  if bytes = 0 then none
  else if rt.top < size ∨ rt.top - size < floor then none
  else some (rt.top - size)

/-- `alloc_pages`: the base, or zero. No result when the fill faults. -/
def allocPages (rt : UnicornRuntime uc) (bytes : Nat) : Option (UnicornRuntime uc × Nat) :=
  match rt.pagesBelow bytes with
  | none => some (rt, 0)
  | some base =>
    match rt.pool.ram.commit base (pageRound bytes) with
    | (_, false) => some (rt, 0)
    | (ram, true) =>
      let filled :=
        match ram.hostPtr base with
        | some addr => ram.zeroFill addr (pageRound bytes)
        | none => some ram
      filled.map (fun ram =>
        (({ rt with pool := { rt.pool with ram }, top := base } : UnicornRuntime uc).mapOnAll base
          (pageRound bytes) false, base))

/-- `alloc_stack`: the address above the stack, or zero. -/
def allocStack (rt : UnicornRuntime uc) (bytes : Nat) : Option (UnicornRuntime uc × Nat) :=
  (rt.allocPages bytes).map (fun (next, base) =>
    (next, if base = 0 then 0 else (base + pageRound bytes) % 2 ^ 32))

/-- `memcpy` to a host pointer into pages that have just been handed out. -/
def poke (rt : UnicornRuntime uc) (addr : Nat) (source : List UInt8) : UnicornRuntime uc :=
  { rt with pool := { rt.pool with ram := (rt.pool.ram.writeBytes addr source).1 } }

/-- `build_teb`: the header, one slot of the TLS array and the template. -/
def buildTeb (rt : UnicornRuntime uc) : Option (UnicornRuntime uc × Nat) :=
  (rt.allocPages ((0x200 + rt.tlsRaw.length) % 2 ^ 32)).map (fun (next, base) =>
    if base = 0 then (next, 0)
    else
      let header := ((next.poke (base + 0x18) (XbeRam.littleEndian base)).poke (base + 0x04)
        (XbeRam.littleEndian (base + 0x100))).poke (base + 0x100) (XbeRam.littleEndian (base + 0x200))
      (header.poke (base + 0x200) rt.tlsRaw, base))

/-- What `mm_alloc` tells the observer: the block it has recorded, if any. -/
def announced (pool next : MemoryPool) : Option MemAlloc := next.memAllocs[pool.memAllocs.length]?

/-- A kernel call with the observer that maps new blocks and unmaps freed ones. -/
def krnlCall (rt : UnicornRuntime uc) (call : MemoryPool.Call) : Option (UnicornRuntime uc) :=
  match call with
  | .freeContiguousMemory va =>
    let after : UnicornRuntime uc := { rt with pool := (rt.pool.mmFree va.toNat).1 }
    match rt.pool.memAllocs.find? (fun block => block.va == va.toNat) with
    | some block => some (if (rt.pool.ram.uncommit va.toNat block.size).2 then after.unmapOnAll va.toNat block.size
      else after)
    | none => some after
  | .allocateContiguousMemory _ | .allocateContiguousMemoryEx _ _ _ _ _ =>
    (rt.pool.step call).map (fun pool =>
      let after : UnicornRuntime uc := { rt with pool }
      match announced rt.pool pool with
      | some block => after.mapOnAll block.va block.size (readonlyProtect block.protect)
      | none => after)

/-- What can happen to the mappings: a new CPU is attached, one is destroyed, the runtime
hands out pages, the guest calls the kernel. -/
inductive Action where
  | attach
  | destroy (index : Nat)
  | allocPages (bytes : UInt32)
  | allocStack (bytes : UInt32)
  | buildTeb
  | krnl (call : MemoryPool.Call)
deriving DecidableEq

/-- One action of the runtime. -/
def step (rt : UnicornRuntime uc) : Action → Option (UnicornRuntime uc)
  | .attach =>
    match GuestCpu.attach uc rt.pool.ram with
    | some cpu => some { rt with cpus := rt.cpus ++ [cpu] }
    | none => some rt
  | .destroy index => if index < rt.cpus.length then some { rt with cpus := rt.cpus.eraseIdx index } else none
  | .allocPages bytes => (rt.allocPages bytes.toNat).map Prod.fst
  | .allocStack bytes => (rt.allocStack bytes.toNat).map Prod.fst
  | .buildTeb => rt.buildTeb.map Prod.fst
  | .krnl call => rt.krnlCall call

end UnicornRuntime

end SeriesxEmu
