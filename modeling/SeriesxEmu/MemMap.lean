import SeriesxEmu.Runs
import Mathlib.Data.List.Basic

/-!
# The memory map

`MemMap` reserves the whole unified memory as address space, commits it page by
page on demand, and redirects accesses through alias windows. Guest addresses are
naturals: every operation first checks that its range lies below `kTotalSize`, so
no sum that is used can wrap. The host's page size is a power of two. `mmap` and
`mprotect` are assumed to succeed.
-/

namespace SeriesxEmu

/-- Ten gigabytes of fast and six of slow memory. -/
def kTotalSize : Nat := 10 * 2 ^ 30 + 6 * 2 ^ 30

/-- The protection of a page. -/
inductive MemProt where
  | noAccess
  | readOnly
  | readWrite
deriving DecidableEq, Repr

/-- An alias window: accesses to `[dst, dst + size)` go to `src` instead. -/
structure Alias where
  dst : Nat
  src : Nat
  size : Nat
deriving DecidableEq, Repr

/-- The window contains the whole range. -/
def Alias.holds (window : Alias) (addr size : Nat) : Bool :=
  window.dst ≤ addr && addr < window.dst + window.size && size ≤ window.dst + window.size - addr

/-- The range meets the window. -/
def Alias.meets (window : Alias) (addr size : Nat) : Bool := addr < window.dst + window.size && window.dst < addr + size

/-- `reserved` says that `base_` is set. `committed` and `prot` are indexed by page,
`bytes` by the guest address of the backing byte. -/
structure MemMap where
  pageBits : Nat := 12
  reserved : Bool := false
  committed : Nat → Bool := fun _ => false
  prot : Nat → MemProt := fun _ => .readWrite
  bytes : Nat → UInt8 := fun _ => 0
  aliases : List Alias := []

namespace MemMap

/-- `page_size`. -/
def pageSize (mem : MemMap) : Nat := 2 ^ mem.pageBits

/-- `in_range`. -/
def inRange (addr size : Nat) : Bool := addr < kTotalSize && size ≤ kTotalSize - addr

/-- The pages that the loops from the start of the first page to the end of the range visit. -/
def pages (mem : MemMap) (addr size : Nat) : List Nat :=
  let first := addr / mem.pageSize
  List.range' first ((addr + size + mem.pageSize - 1) / mem.pageSize - first)

/-- `reserve`: the first call starts with no page committed and no alias. -/
def reserve (mem : MemMap) : MemMap × Bool :=
  if mem.reserved then (mem, true)
  else ({ mem with reserved := true, committed := fun _ => false, prot := fun _ => .readWrite, aliases := [] }, true)

/-- `commit_page`: a page that is committed already becomes writable again. -/
def commitPage (mem : MemMap) (addr : Nat) : MemMap × Bool :=
  if mem.reserved && inRange addr 1 then
    ({ mem with
        committed := fun page => mem.committed page || page == addr / mem.pageSize
        prot := fun page => if page = addr / mem.pageSize then .readWrite else mem.prot page }, true)
  else (mem, false)

/-- `commit_range`. -/
def commitRange (mem : MemMap) (addr size : Nat) : MemMap × Bool :=
  if mem.reserved && size != 0 && inRange addr size then
    let visited := mem.pages addr size
    ({ mem with
        committed := fun page => mem.committed page || visited.contains page
        prot := fun page => if visited.contains page then .readWrite else mem.prot page }, true)
  else (mem, false)

/-- `is_committed`. -/
def isCommitted (mem : MemMap) (addr size : Nat) : Bool :=
  mem.reserved && inRange addr size && (mem.pages addr size).all mem.committed

/-- `protect`: committed pages only. -/
def protect (mem : MemMap) (addr size : Nat) (prot : MemProt) : MemMap × Bool :=
  if mem.reserved && size != 0 && mem.isCommitted addr size then
    ({ mem with prot := fun page => if (mem.pages addr size).contains page then prot else mem.prot page }, true)
  else (mem, false)

/-- `resolve_alias`: the first window that contains the whole range decides, and only once. -/
def resolveAlias (mem : MemMap) (addr size : Nat) : Nat :=
  match mem.aliases.find? (fun window => window.holds addr size) with
  | some window => window.src + (addr - window.dst)
  | none => addr

/-- One turn of the loop of `is_readable`. -/
def pageReadable (mem : MemMap) (page : Nat) : Bool := mem.committed page && mem.prot page != .noAccess

/-- One turn of the loop of `is_writable`. -/
def pageWritable (mem : MemMap) (page : Nat) : Bool := mem.committed page && mem.prot page == .readWrite

/-- The common part of `is_readable` and `is_writable`: both look at the pages of the
backing range. -/
def isUsable (mem : MemMap) (usable : Nat → Bool) (addr size : Nat) : Bool :=
  mem.reserved && size != 0 && inRange addr size &&
    inRange (mem.resolveAlias addr size) size && (mem.pages (mem.resolveAlias addr size) size).all usable

/-- `is_readable`. -/
def isReadable (mem : MemMap) (addr size : Nat) : Bool := mem.isUsable mem.pageReadable addr size

/-- `is_writable`. -/
def isWritable (mem : MemMap) (addr size : Nat) : Bool := mem.isUsable mem.pageWritable addr size

/-- `translate`, as the guest address of the byte that the host pointer stands for. -/
def translate (mem : MemMap) (addr : Nat) : Option Nat :=
  if mem.isReadable addr 1 then some (mem.resolveAlias addr 1) else none

/-- `memcpy` to the backing bytes. -/
def store (bytes : Nat → UInt8) (addr : Nat) (source : List UInt8) : Nat → UInt8 := fun address =>
  if addr ≤ address ∧ address < addr + source.length then source.getD (address - addr) 0 else bytes address

/-- `write_bytes`. -/
def writeBytes (mem : MemMap) (addr : Nat) (source : List UInt8) : MemMap × Bool :=
  if mem.isWritable addr source.length then
    ({ mem with bytes := store mem.bytes (mem.resolveAlias addr source.length) source }, true)
  else (mem, false)

/-- `read_bytes`. -/
def readBytes (mem : MemMap) (addr size : Nat) : Option (List UInt8) :=
  if mem.isReadable addr size then
    some ((List.range size).map (fun offset => mem.bytes (mem.resolveAlias addr size + offset)))
  else none

/-- `alias_map`: the new window may overlap neither its own source nor another window. -/
def aliasMap (mem : MemMap) (dst src size : Nat) : MemMap × Bool :=
  if size == 0 || !inRange dst size || !inRange src size then (mem, false)
  else if dst < src + size && src < dst + size then (mem, false)
  else if mem.aliases.any (fun window => window.meets dst size) then (mem, false)
  else ({ mem with aliases := mem.aliases ++ [{ dst, src, size }] }, true)

/-- `alias_unmap`. -/
def aliasUnmap (mem : MemMap) (dst : Nat) : MemMap × Bool :=
  ({ mem with aliases := mem.aliases.eraseP (fun window => window.dst == dst) },
    mem.aliases.any (fun window => window.dst == dst))

/-- The operations that change the map. -/
inductive Op where
  | reserve
  | commitPage (addr : Nat)
  | commitRange (addr size : Nat)
  | protect (addr size : Nat) (prot : MemProt)
  | writeBytes (addr : Nat) (source : List UInt8)
  | aliasMap (dst src size : Nat)
  | aliasUnmap (dst : Nat)
deriving DecidableEq

/-- One operation, with its result. -/
def exec (mem : MemMap) : Op → MemMap × Bool
  | .reserve => mem.reserve
  | .commitPage addr => mem.commitPage addr
  | .commitRange addr size => mem.commitRange addr size
  | .protect addr size prot => mem.protect addr size prot
  | .writeBytes addr source => mem.writeBytes addr source
  | .aliasMap dst src size => mem.aliasMap dst src size
  | .aliasUnmap dst => mem.aliasUnmap dst

/-- One operation. -/
def step (mem : MemMap) (op : Op) : Option MemMap := some (mem.exec op).1

end MemMap

end SeriesxEmu
