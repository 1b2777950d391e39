import SeriesxEmu.ContiguousMemory
import SeriesxEmu.LoadedXbe

/-!
# Installing the kernel on a loaded image

`install_thunks` lays out the guest window behind the image, prepares the kernel data
page and patches the thunk table of the image in place. The kernel works on the window
of the image. The export table is generated data: it is a parameter here, and only the
calling convention of an export decides what is done.
-/

namespace SeriesxEmu

/-- The calling conventions of the exports. -/
inductive Conv where
  | stdcall
  | fastcall
  | cdecl
  | data
deriving DecidableEq, Repr

/-- One slot of the table, with the value that is stored there. -/
structure ThunkSlot where
  slotVa : Nat
  raw : Nat
  ordinal : Nat
  exp : Option Conv
  implemented : Bool
  newValue : Nat
deriving DecidableEq, Repr

/-- `mm_lo_`, `mm_hi_` and `kernel_data_va_`. -/
structure Regions where
  mmLo : Nat
  mmHi : Nat
  kernelDataVa : Nat
deriving DecidableEq, Repr

/-- Where the markers of the functions begin. -/
def kHleMarker : Nat := 0xF00F0000

/-- `implemented_function`. -/
def implementedFunction (ordinal : Nat) : Bool :=
  [5, 8, 51, 52, 53, 54, 55, 99, 108, 104, 110, 112, 126, 127, 128, 131, 132, 138, 140, 143, 145, 152, 159, 165,
    166, 171, 180, 186, 187, 189, 192, 193, 205, 213, 214, 221, 222, 224, 225, 231, 233, 234, 235, 238, 255, 258,
    277, 284, 291, 294, 298, 305, 306, 320].contains ordinal

/-- `implemented_data`, with the offset of the datum in the kernel data page. -/
def implementedData (ordinal : Nat) : Option Nat :=
  match ordinal with
  | 156 => some 0x08
  | 164 => some 0x120
  | 324 => some 0x00
  | 326 => some 0x10
  | _ => none

namespace LoadedXbe

open Load

/-- The regions behind the image: the pool, and the last page for kernel data. -/
def layout (loaded : LoadedXbe) : Regions :=
  let lo := alignUp loaded.image.imageEndAbs 4096
  let kernelDataVa := (loaded.ram.size + 2 ^ 32 - 0x1000) % 2 ^ 32
  { mmLo := if kernelDataVa ≤ lo then kernelDataVa else lo, mmHi := kernelDataVa, kernelDataVa }

/-- The debug pathname of the image, or else its debug filename. -/
def imageName (image : XbeImage) : Load (List UInt8) := do
  let path ← image.cstring image.header.debugPathnameAddr
  if path = [] then image.cstring image.header.debugFilenameAddr
  else return path

/-- `XeImageFileName`: the string, and the `ANSI_STRING` over it. -/
def writeName (ram : XbeRam) (base : Nat) (name : List UInt8) : XbeRam :=
  if name ≠ [] ∧ name.length < 0xE0 then
    let described := (ram.write32 (base + 0x10) (name.length ||| (name.length + 1) <<< 16)).write32 (base + 0x14)
      (base + 0x20)
    (described.writeBytes (base + 0x20) (name ++ [0])).1
  else ram

/-- The slot for a table entry: what it imports and the value it gets. -/
def slotOf (findExport : Nat → Option Conv) (kernelDataVa slotVa raw : Nat) : ThunkSlot :=
  let ordinal := raw % 2 ^ 31
  let exp := if raw.testBit 31 then findExport ordinal else none
  let untouched : ThunkSlot := { slotVa, raw, ordinal, exp, implemented := false, newValue := raw }
  match exp with
  | none => untouched
  | some .data =>
    match implementedData ordinal with
    | some offset => { untouched with newValue := (kernelDataVa + offset) % 2 ^ 32, implemented := true }
    | none => untouched
  | some _ =>
    if implementedFunction ordinal then { untouched with newValue := kHleMarker ||| ordinal, implemented := true }
    else untouched

/-- Write an implemented slot, lifting a read-only protection for it. -/
def patch (ram : XbeRam) (slot : ThunkSlot) : XbeRam :=
  if slot.implemented then
    let wasRo := !ram.writable slot.slotVa 4
    let lifted := if wasRo then (ram.protectRw slot.slotVa 4).1 else ram
    let written := lifted.write32 slot.slotVa slot.newValue
    if wasRo then (written.protectRo slot.slotVa 4).1 else written
  else ram

/-- The walk over the thunk directory, with the entries it may still take. -/
def walk (findExport : Nat → Option Conv) (kernelDataVa kt : Nat) : Nat → Nat → XbeRam → XbeRam × List ThunkSlot
  | 0, _, ram => (ram, [])
  | room + 1, index, ram =>
    let slotVa := (kt + 4 * index) % 2 ^ 32
    match ram.read32 slotVa with
    | none => (ram, [])
    | some 0 => (ram, [])
    | some raw =>
      let slot := slotOf findExport kernelDataVa slotVa raw
      let (last, slots) := walk findExport kernelDataVa kt room (index + 1) (patch ram slot)
      (last, slot :: slots)

/-- The kernel data page: committed and cleared. -/
def openData (ram : XbeRam) (kernelDataVa : Nat) : Load XbeRam :=
  let committed := (ram.commit kernelDataVa 0x1000).1
  match committed.hostPtr kernelDataVa with
  | some addr => clear committed addr 0x1000
  | none => return committed

/-- `install_thunks`, at a tick of the scheduler: the regions it sets first, and then the
window with the slots. -/
def installThunks (findExport : Nat → Option Conv) (tick : Nat) (loaded : LoadedXbe) :
    Regions × Load (XbeRam × List ThunkSlot) :=
  let regions := loaded.layout
  (regions, do
    let cleared ← openData loaded.ram regions.kernelDataVa
    let name ← imageName loaded.image
    let named := writeName cleared regions.kernelDataVa name
    let refreshed :=
      if regions.kernelDataVa ≠ 0 then named.write32 (regions.kernelDataVa + 0x08) (tick % 2 ^ 32) else named
    return walk findExport regions.kernelDataVa loaded.image.kernelThunkVa 100000 0 refreshed)

end LoadedXbe

end SeriesxEmu
