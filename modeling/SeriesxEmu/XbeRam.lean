import Mathlib.Algebra.Order.Ring.Int
import Mathlib.Data.List.Basic

/-!
# The guest memory window

`XbeRam` reserves one contiguous window and commits, protects and checks it page
by page. Addresses are the 32-bit guest addresses as naturals; every access is
admitted only inside the window, so no address sum that is used can wrap.
`mprotect` on the window is assumed to succeed.
-/

namespace SeriesxEmu

/-- `committed` and `readOnly` are indexed by page, `bytes` by guest address. -/
structure XbeRam where
  size : Nat := 64 * 1024 * 1024
  pageSize : Nat := 4096
  committed : Nat → Bool := fun _ => false
  readOnly : Nat → Bool := fun _ => false
  bytes : Nat → UInt8 := fun _ => 0

namespace XbeRam

/-- `range_ok`. -/
def rangeOk (ram : XbeRam) (addr size : Nat) : Bool :=
  0 < ram.size && size != 0 && size ≤ ram.size && addr ≤ ram.size - size

/-- The pages a nonempty range touches, in ascending order. -/
def pages (ram : XbeRam) (addr size : Nat) : List Nat :=
  let first := addr / ram.pageSize
  let last := (addr + size - 1) / ram.pageSize
  List.range' first (last + 1 - first)

/-- `is_committed`, with the page walk of `pages_committed`. -/
def isCommitted (ram : XbeRam) (addr size : Nat) : Bool :=
  ram.rangeOk addr size && (ram.pages addr size).all ram.committed

/-- The range can be read. -/
def readable (ram : XbeRam) (addr size : Nat) : Bool := ram.isCommitted addr size

/-- The range can be written. -/
def writable (ram : XbeRam) (addr size : Nat) : Bool :=
  ram.isCommitted addr size && (ram.pages addr size).all (fun page => !ram.readOnly page)

/-- `commit`: pages that are committed already keep their protection. -/
def commit (ram : XbeRam) (addr size : Nat) : XbeRam × Bool :=
  if ram.rangeOk addr size then
    let fresh := fun page => (ram.pages addr size).contains page && !ram.committed page
    ({ ram with
        committed := fun page => ram.committed page || fresh page
        readOnly := fun page => ram.readOnly page && !fresh page }, true)
  else (ram, false)

/-- `uncommit`: the pages return to the guard state, with their content. -/
def uncommit (ram : XbeRam) (addr size : Nat) : XbeRam × Bool :=
  if ram.isCommitted addr size then
    let freed := fun page => (ram.pages addr size).contains page
    ({ ram with
        committed := fun page => ram.committed page && !freed page
        readOnly := fun page => ram.readOnly page && !freed page }, true)
  else (ram, false)

/-- `protect_ro`. -/
def protectRo (ram : XbeRam) (addr size : Nat) : XbeRam × Bool :=
  if ram.isCommitted addr size then
    ({ ram with readOnly := fun page => ram.readOnly page || (ram.pages addr size).contains page }, true)
  else (ram, false)

/-- `protect_rw`. -/
def protectRw (ram : XbeRam) (addr size : Nat) : XbeRam × Bool :=
  if ram.isCommitted addr size then
    ({ ram with readOnly := fun page => ram.readOnly page && !(ram.pages addr size).contains page }, true)
  else (ram, false)

/-- `host_ptr`, as the guest address it stands for. -/
def hostPtr (ram : XbeRam) (addr : Nat) : Option Nat := if ram.isCommitted addr 1 then some addr else none

/-- `memset` with zero through a host pointer. The pages are not checked: a store to
a page that is not writable faults the host, and there is no result. -/
def zeroFill (ram : XbeRam) (addr size : Nat) : Option XbeRam :=
  if ram.writable addr size then
    some { ram with bytes := fun address =>
      if addr ≤ address ∧ address < addr + size then 0 else ram.bytes address }
  else none

/-- `write_bytes`. -/
def writeBytes (ram : XbeRam) (addr : Nat) (source : List UInt8) : XbeRam × Bool :=
  if ram.writable addr source.length then
    ({ ram with bytes := fun address =>
        if addr ≤ address ∧ address < addr + source.length then source.getD (address - addr) 0
        else ram.bytes address }, true)
  else (ram, false)

/-- `read_bytes`. -/
def readBytes (ram : XbeRam) (addr size : Nat) : Option (List UInt8) :=
  if ram.readable addr size then some ((List.range size).map (fun offset => ram.bytes (addr + offset)))
  else none

/-- The four bytes of a 32-bit value, least significant first. -/
def littleEndian (value : Nat) : List UInt8 :=
  [UInt8.ofNat value, UInt8.ofNat (value / 2 ^ 8), UInt8.ofNat (value / 2 ^ 16),
    UInt8.ofNat (value / 2 ^ 24)]

/-- The value of bytes stored least significant first. -/
def ofLittleEndian (bytes : List UInt8) : Nat :=
  bytes.foldr (fun byte rest => byte.toNat + 256 * rest) 0

/-- `write32`; the failure result is dropped by every caller modelled here. -/
def write32 (ram : XbeRam) (addr value : Nat) : XbeRam :=
  (ram.writeBytes addr (littleEndian value)).1

/-- `read32`. -/
def read32 (ram : XbeRam) (addr : Nat) : Option Nat :=
  (ram.readBytes addr 4).map ofLittleEndian

/-- `read64` of the kernel: low part first, high part at the next dword of the
32-bit address space. -/
def read64 (ram : XbeRam) (addr : Nat) : Option Nat :=
  match ram.read32 addr, ram.read32 ((addr + 4) % 2 ^ 32) with
  | some low, some high => some (low + 2 ^ 32 * high)
  | _, _ => none

end XbeRam

end SeriesxEmu
