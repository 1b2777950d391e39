import SeriesxEmu.XbeImage

/-!
# Mapping an image into the guest window

`LoadedXbe::map` commits the header block and copies it, then takes the sections in
table order: commit, copy the raw bytes, clear the rest, apply the protection. The
copies go through `write_bytes`, which checks the pages. The clearing goes through a
host pointer, for which only the first byte has to be committed.
-/

namespace SeriesxEmu

open Load

/-- `write_bytes` from the file: the copy happens only when the pages are writable. -/
def Load.copyIn (file : ByteVector) (first count : Nat) (ram : XbeRam) (addr : Nat) (message : String) :
    Load XbeRam :=
  match ram.writeBytes addr (file.slice first count) with
  | (written, true) => do
    Traced.perform (.read first count)
    Traced.perform (.store ram addr count)
    return written
  | (_, false) => Traced.fail (.rejected message)

/-- `memset` with zero through a host pointer. -/
def Load.clear (ram : XbeRam) (addr count : Nat) : Load XbeRam := do
  Traced.perform (.store ram addr count)
  match ram.zeroFill addr count with
  | some cleared => return cleared
  | none => Traced.fail .hostFault

namespace XbeImage

/-- The protection a section asks for, on the whole section and on its edge pages. -/
def protectSection (ram : XbeRam) (sh : SectionHeader) : XbeRam :=
  let whole :=
    if sh.flags &&& kSectionWriteable = 0 then (ram.protectRo sh.virtualAddr sh.virtualSize).1 else ram
  let head :=
    if sh.flags &&& kSectionHeadPageReadonly ≠ 0 then (whole.protectRo sh.virtualAddr 1).1 else whole
  if sh.flags &&& kSectionTailPageReadonly ≠ 0 then
    (head.protectRo ((sh.virtualAddr + sh.virtualSize - 1) % 2 ^ 32) 1).1
  else head

/-- The raw bytes of a section, if it has any. -/
def copyRaw (image : XbeImage) (ram : XbeRam) (sh : SectionHeader) : Load XbeRam :=
  if 0 < sh.sizeofRaw then
    copyIn image.file sh.rawAddr sh.sizeofRaw ram sh.virtualAddr "cannot copy section raw data"
  else pure ram

/-- The zero bytes behind them. -/
def clearRest (ram : XbeRam) (sh : SectionHeader) : Load XbeRam :=
  if sh.sizeofRaw < sh.virtualSize then
    match ram.hostPtr ((sh.virtualAddr + sh.sizeofRaw) % 2 ^ 32) with
    | none => Traced.fail (.rejected "section zero-fill range uncommitted")
    | some addr => clear ram addr (sh.virtualSize - sh.sizeofRaw)
  else pure ram

/-- One turn of the section loop, with the window and `prev_end`. -/
def mapSection (image : XbeImage) (state : XbeRam × Nat) (sh : SectionHeader) : Load (XbeRam × Nat) := do
  let (ram, prevEnd) := state
  if sh.virtualSize = 0 then return (ram, prevEnd)
  else
    require (prevEnd ≤ sh.virtualAddr) "overlapping sections"
    let (committed, opened) := ram.commit sh.virtualAddr sh.virtualSize
    require (opened = true) "cannot commit section pages"
    let copied ← image.copyRaw committed sh
    let cleared ← clearRest copied sh
    return (protectSection cleared sh, sh.virtualAddr + sh.virtualSize)

/-- `LoadedXbe::map`, into a fresh window. -/
def map (image : XbeImage) : Load XbeRam := do
  let h := image.header
  let (committed, opened) := ({} : XbeRam).commit h.baseAddr h.sizeofHeaders
  require (opened = true) "cannot commit header pages"
  let copied ← copyIn image.file 0 h.sizeofHeaders committed h.baseAddr "cannot copy header block"
  let (ram, _) ← image.sections.foldlM image.mapSection (copied, 0)
  return ram

end XbeImage

/-- A loaded image with its memory. -/
structure LoadedXbe where
  image : XbeImage
  ram : XbeRam

namespace LoadedXbe

/-- `LoadedXbe::load`. -/
def load (file : ByteVector) : Load LoadedXbe := do
  let image ← XbeImage.parse file
  let ram ← image.map
  return { image, ram }

end LoadedXbe

end SeriesxEmu
