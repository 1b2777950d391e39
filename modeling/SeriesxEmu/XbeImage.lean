import SeriesxEmu.Traced
import SeriesxEmu.XbeRam

/-!
# Parsing an XBE file

`XbeImage::parse` reads the header, the certificate, the section table with its
names, the library versions and the TLS directory, and rejects a malformed file
with a message. Every read of the file is recorded as an access. A read past the
vector finds whatever the memory behind it holds: `ByteVector.byte` has a value at
every index, and `size` says which of them are the file's.

The 32-bit words of the file are naturals. Sums are taken modulo `2 ^ 32` where the
source computes them in 32 bits, and are exact where it widens to 64.
-/

namespace SeriesxEmu

/-- `std::vector<uint8_t>`, with the memory that follows it. -/
structure ByteVector where
  size : Nat
  byte : Nat → UInt8

namespace ByteVector

/-- The bytes of `[first, first + count)`. -/
def slice (file : ByteVector) (first count : Nat) : List UInt8 :=
  (List.range count).map (fun offset => file.byte (first + offset))

/-- The little-endian value of two bytes. -/
def half (file : ByteVector) (off : Nat) : Nat := (file.byte off).toNat + 2 ^ 8 * (file.byte (off + 1)).toNat

/-- The little-endian value of four bytes. -/
def word (file : ByteVector) (off : Nat) : Nat := file.half off + 2 ^ 16 * file.half (off + 2)

end ByteVector

/-- What loading touches: bytes of the file by index, and bytes of the guest window as
it stands at that moment. -/
inductive LoadAccess where
  | read (first count : Nat)
  | store (ram : XbeRam) (addr count : Nat)

/-- A file is rejected with a message. A store to a page that is not writable ends the host. -/
inductive LoadFailure where
  | rejected (message : String)
  | hostFault
deriving DecidableEq, Repr

/-- A reader of the file, with what it reads and why it fails. -/
abbrev Load (α : Type) : Type := Traced LoadAccess LoadFailure α

namespace Load

/-- The check that rejects a file. -/
def require (condition : Prop) [Decidable condition] (message : String) : Load Unit :=
  Traced.check condition (.rejected message)

/-- A little-endian word at an offset. -/
def rd32 (file : ByteVector) (off : Nat) : Load Nat := do
  Traced.perform (.read off 4)
  return file.word off

/-- A little-endian half word. -/
def rd16 (file : ByteVector) (off : Nat) : Load Nat := do
  Traced.perform (.read off 2)
  return file.half off

/-- `f[off]`. -/
def rd8 (file : ByteVector) (off : Nat) : Load UInt8 := do
  Traced.perform (.read off 1)
  return file.byte off

/-- `memcpy` out of the file. -/
def copyOut (file : ByteVector) (off count : Nat) : Load (List UInt8) := do
  Traced.perform (.read off count)
  return file.slice off count

/-- `count` words, one after the other. -/
def rd32s (file : ByteVector) (off : Nat) : Nat → Load (List Nat)
  | 0 => return []
  | count + 1 => do
    let word ← rd32 file off
    let rest ← rd32s file (off + 4) count
    return word :: rest

end Load

/-- The bytes `XBEH`. -/
def kMagic : Nat := 0x48454258

/-- The header up to its last word that is read. -/
def kHeaderSize : Nat := 0x178

/-- One entry of the section table. -/
def kSectionHeaderSize : Nat := 0x38

/-- One entry of the library table. -/
def kLibraryVersionSize : Nat := 0x10

/-- The directory for thread-local storage. -/
def kTlsDirectorySize : Nat := 0x18

/-- The part of a certificate that is read. -/
def kCertificateMinSize : Nat := 0x1D0

/-- What hides the entry address of a debug image. -/
def kXorEpDebug : Nat := 0x94859D4B

/-- What hides that of a retail image. -/
def kXorEpRetail : Nat := 0xA8FC57AB

/-- What hides the address of the thunk table of a debug image. -/
def kXorKtDebug : Nat := 0xEFB1F152

/-- What hides that of a retail image. -/
def kXorKtRetail : Nat := 0x5B6D40B6

/-- The section may be written. -/
def kSectionWriteable : Nat := 0x00000001

/-- Its first page is read-only. -/
def kSectionHeadPageReadonly : Nat := 0x00000010

/-- Its last page is. -/
def kSectionTailPageReadonly : Nat := 0x00000020

/-- The kind of image, told by the key that makes its addresses plausible. -/
inductive XbeType where
  | retail
  | debug
deriving DecidableEq, Repr

/-- `Header`. -/
structure XbeHeader where
  magic : Nat := 0
  baseAddr : Nat := 0
  sizeofHeaders : Nat := 0
  sizeofImage : Nat := 0
  sizeofImageHeader : Nat := 0
  timedate : Nat := 0
  certificateAddr : Nat := 0
  numSections : Nat := 0
  sectionHeadersAddr : Nat := 0
  initFlags : Nat := 0
  entryAddr : Nat := 0
  tlsAddr : Nat := 0
  peStackCommit : Nat := 0
  peHeapReserve : Nat := 0
  peHeapCommit : Nat := 0
  peBaseAddr : Nat := 0
  peSizeofImage : Nat := 0
  peChecksum : Nat := 0
  peTimedate : Nat := 0
  debugPathnameAddr : Nat := 0
  debugFilenameAddr : Nat := 0
  debugUnicodeFilenameAddr : Nat := 0
  kernelThunkAddr : Nat := 0
  nonkernelImportDirAddr : Nat := 0
  numLibraryVersions : Nat := 0
  libraryVersionsAddr : Nat := 0
  kernelLibraryVersionAddr : Nat := 0
  xapiLibraryVersionAddr : Nat := 0
  logoBitmapAddr : Nat := 0
  logoBitmapSize : Nat := 0
deriving DecidableEq, Repr

/-- The certificate of a title. -/
structure Certificate where
  size : Nat := 0
  timedate : Nat := 0
  titleId : Nat := 0
  title : List Nat := []
  alternateTitleIds : List Nat := []
  allowedMedia : Nat := 0
  gameRegion : Nat := 0
  gameRatings : Nat := 0
  discNumber : Nat := 0
  version : Nat := 0
deriving DecidableEq, Repr

/-- An entry of the section table, with the name that it points to. -/
structure SectionHeader where
  flags : Nat := 0
  virtualAddr : Nat := 0
  virtualSize : Nat := 0
  rawAddr : Nat := 0
  sizeofRaw : Nat := 0
  name : List UInt8 := []
  sectionNameAddr : Nat := 0
  sectionRefCount : Nat := 0
  headSharedRefCountAddr : Nat := 0
  tailSharedRefCountAddr : Nat := 0
deriving DecidableEq, Repr

/-- An entry of the library table. -/
structure LibraryVersion where
  name : List UInt8
  major : Nat
  minor : Nat
  build : Nat
  flags : Nat
deriving DecidableEq, Repr

/-- The directory for thread-local storage. -/
structure TlsDirectory where
  dataStart : Nat := 0
  dataEnd : Nat := 0
  indexAddr : Nat := 0
  callbacksAddr : Nat := 0
  zeroFill : Nat := 0
  characteristics : Nat := 0
deriving DecidableEq, Repr

/-- An image that is being parsed, and in the end has been. -/
structure XbeImage where
  file : ByteVector
  header : XbeHeader := {}
  cert : Certificate := {}
  sections : List SectionHeader := []
  libs : List LibraryVersion := []
  tls : TlsDirectory := {}
  tlsPresent : Bool := false
  type : XbeType := .retail
  entryVa : Nat := 0
  kernelThunkVa : Nat := 0
  imageEndAbs : Nat := 0

namespace XbeImage

open Load

/-- `header_offset`. -/
def headerOffset (image : XbeImage) (va : Nat) : Option Nat :=
  if va < image.header.baseAddr then none
  else
    let rel := va - image.header.baseAddr
    if image.header.sizeofHeaders ≤ rel then none
    else if image.file.size ≤ rel then none
    else some rel

/-- The section's file bytes hold the address. -/
def holds (va : Nat) (sh : SectionHeader) : Bool :=
  sh.virtualSize != 0 && sh.virtualAddr ≤ va && va - sh.virtualAddr < sh.virtualSize &&
    va - sh.virtualAddr < sh.sizeofRaw

/-- `va_file_offset`: the header block first, then the first section that holds the
address. The last sum is a 32-bit one. -/
def vaFileOffset (image : XbeImage) (va : Nat) : Option Nat :=
  match image.headerOffset va with
  | some off => some off
  | none =>
    if va < image.header.baseAddr then none
    else (image.sections.find? (holds va)).map (fun sh => (sh.rawAddr + (va - sh.virtualAddr)) % 2 ^ 32)

/-- The loop of `cstring`, with the characters it may still take. -/
def cstringFrom (file : ByteVector) : Nat → Nat → Load (List UInt8)
  | 0, _ => return []
  | room + 1, off =>
    if off < file.size then do
      let character ← rd8 file off
      if character = 0 then return []
      else
        let rest ← cstringFrom file room ((off + 1) % 2 ^ 32)
        return character :: rest
    else return []

/-- `cstring`. -/
def cstring (image : XbeImage) (va : Nat) : Load (List UInt8) :=
  match image.vaFileOffset va with
  | none => return []
  | some off => cstringFrom image.file 64 off

/-- The header, its sanity checks, and the decoded entry and thunk addresses. -/
def parseHeader (image : XbeImage) : Load XbeImage := do
  let f := image.file
  require (kHeaderSize ≤ f.size) "file smaller than XBE header (0x178)"
  let magic ← rd32 f 0x000
  require (magic = kMagic) "bad magic (expected 'XBEH')"
  let baseAddr ← rd32 f 0x104
  let sizeofHeaders ← rd32 f 0x108
  let sizeofImage ← rd32 f 0x10C
  let sizeofImageHeader ← rd32 f 0x110
  let timedate ← rd32 f 0x114
  let certificateAddr ← rd32 f 0x118
  let numSections ← rd32 f 0x11C
  let sectionHeadersAddr ← rd32 f 0x120
  let initFlags ← rd32 f 0x124
  let entryAddr ← rd32 f 0x128
  let tlsAddr ← rd32 f 0x12C
  let peStackCommit ← rd32 f 0x130
  let peHeapReserve ← rd32 f 0x134
  let peHeapCommit ← rd32 f 0x138
  let peBaseAddr ← rd32 f 0x13C
  let peSizeofImage ← rd32 f 0x140
  let peChecksum ← rd32 f 0x144
  let peTimedate ← rd32 f 0x148
  let debugPathnameAddr ← rd32 f 0x14C
  let debugFilenameAddr ← rd32 f 0x150
  let debugUnicodeFilenameAddr ← rd32 f 0x154
  let kernelThunkAddr ← rd32 f 0x158
  let nonkernelImportDirAddr ← rd32 f 0x15C
  let numLibraryVersions ← rd32 f 0x160
  let libraryVersionsAddr ← rd32 f 0x164
  let kernelLibraryVersionAddr ← rd32 f 0x168
  let xapiLibraryVersionAddr ← rd32 f 0x16C
  let logoBitmapAddr ← rd32 f 0x170
  let logoBitmapSize ← rd32 f 0x174
  let header : XbeHeader :=
    { magic, baseAddr, sizeofHeaders, sizeofImage, sizeofImageHeader, timedate, certificateAddr, numSections,
      sectionHeadersAddr, initFlags, entryAddr, tlsAddr, peStackCommit, peHeapReserve, peHeapCommit, peBaseAddr,
      peSizeofImage, peChecksum, peTimedate, debugPathnameAddr, debugFilenameAddr, debugUnicodeFilenameAddr,
      kernelThunkAddr, nonkernelImportDirAddr, numLibraryVersions, libraryVersionsAddr, kernelLibraryVersionAddr,
      xapiLibraryVersionAddr, logoBitmapAddr, logoBitmapSize }
  require (baseAddr ≠ 0 ∧ sizeofImage ≠ 0 ∧ baseAddr ≤ 0xFFFFFFFF - sizeofImage)
    "unreasonable base_addr/sizeof_image"
  require (sizeofHeaders ≤ sizeofImage) "sizeof_headers exceeds sizeof_image"
  let type := if kernelThunkAddr.testBit 31 then XbeType.debug else XbeType.retail
  return { image with
    header
    type
    entryVa := entryAddr ^^^ (if type = .debug then kXorEpDebug else kXorEpRetail)
    kernelThunkVa := kernelThunkAddr ^^^ (if type = .debug then kXorKtDebug else kXorKtRetail) }

/-- The title of the certificate, with the characters it may still take. -/
def readTitle (file : ByteVector) (off : Nat) : Nat → Load (List Nat)
  | 0 => return []
  | room + 1 => do
    let character ← rd16 file off
    if character = 0 then return []
    else
      let rest ← readTitle file (off + 2) room
      return character :: rest

/-- The certificate: its size first, then what it says. -/
def parseCertificate (image : XbeImage) : Load XbeImage := do
  let f := image.file
  require (image.header.certificateAddr ≠ 0) "certificate address is zero"
  match image.headerOffset image.header.certificateAddr with
  | none => Traced.fail (.rejected "certificate address outside headers")
  | some off =>
    require (off + kCertificateMinSize ≤ f.size) "certificate extends past end of file"
    let size ← rd32 f (off + 0x00)
    let timedate ← rd32 f (off + 0x04)
    let titleId ← rd32 f (off + 0x08)
    let title ← readTitle f (off + 0x0C) 40
    let alternateTitleIds ← rd32s f (off + 0x5C) 16
    let allowedMedia ← rd32 f (off + 0x9C)
    let gameRegion ← rd32 f (off + 0xA0)
    let gameRatings ← rd32 f (off + 0xA4)
    let discNumber ← rd32 f (off + 0xA8)
    let version ← rd32 f (off + 0xAC)
    return { image with
      cert := { size, timedate, titleId, title, alternateTitleIds, allowedMedia, gameRegion, gameRatings,
                discNumber, version } }

/-- The name of the section whose table entry is at the offset: the string at the name
address, or else the eight bytes in the entry. -/
def sectionName (image : XbeImage) (sectionNameAddr off : Nat) : Load (List UInt8) := do
  let found ← image.cstring sectionNameAddr
  if found = [] then
    let inlineName ← copyOut image.file (off + 0x24) 8
    return inlineName.takeWhile (· ≠ 0)
  else return found

/-- One turn of the section loop, for the entry at the offset. The table has been
resized by then: the entries that follow are zero, and an empty section holds no
address, so the name is looked up among the sections read so far and this one. -/
def parseSection (image : XbeImage) (off : Nat) : Load XbeImage := do
  let f := image.file
  let flags ← rd32 f (off + 0x00)
  let virtualAddr ← rd32 f (off + 0x04)
  let virtualSize ← rd32 f (off + 0x08)
  let rawAddr ← rd32 f (off + 0x0C)
  let sizeofRaw ← rd32 f (off + 0x10)
  let sectionNameAddr ← rd32 f (off + 0x14)
  let sectionRefCount ← rd32 f (off + 0x18)
  let headSharedRefCountAddr ← rd32 f (off + 0x1C)
  let tailSharedRefCountAddr ← rd32 f (off + 0x20)
  let unnamed : SectionHeader :=
    { flags, virtualAddr, virtualSize, rawAddr, sizeofRaw, sectionNameAddr, sectionRefCount,
      headSharedRefCountAddr, tailSharedRefCountAddr }
  let name ← sectionName { image with sections := image.sections ++ [unnamed] } sectionNameAddr off
  require (rawAddr + sizeofRaw ≤ f.size) "section raw data extends past end of file"
  require (sizeofRaw ≤ virtualSize) "section raw size exceeds virtual size"
  return { image with sections := image.sections ++ [{ unnamed with name }] }

/-- The section table, entry by entry. -/
def parseSections (image : XbeImage) : Load XbeImage := do
  if 0 < image.header.numSections then
    match image.headerOffset image.header.sectionHeadersAddr with
    | none => Traced.fail (.rejected "section headers outside headers")
    | some off =>
      require (off + kSectionHeaderSize * image.header.numSections ≤ image.file.size)
        "section headers extend past end of file"
      (List.range image.header.numSections).foldlM
        (fun image i => parseSection image (off + kSectionHeaderSize * i)) image
  else return image

/-- One turn of the extent loop. -/
def extend (base extent : Nat) (sh : SectionHeader) : Load Nat := do
  let last := sh.virtualAddr + sh.virtualSize
  require (¬ (0 < sh.virtualSize ∧ 0xFFFFFFFF < last)) "section virtual range overflow"
  require (¬ (0 < sh.virtualSize ∧ sh.virtualAddr < base)) "section virtual address below image base"
  return max extent last

/-- The image extent, and the decoded addresses inside it. -/
def parseExtent (image : XbeImage) : Load XbeImage := do
  let base := image.header.baseAddr
  let extent ← image.sections.foldlM (extend base) (base + image.header.sizeofImage)
  let imageEndAbs := extent % 2 ^ 32
  require (base ≤ image.entryVa ∧ image.entryVa < imageEndAbs)
    "decoded entry/thunk VA outside image (wrong XOR key?)"
  require (base ≤ image.kernelThunkVa ∧ image.kernelThunkVa < imageEndAbs)
    "decoded entry/thunk VA outside image (wrong XOR key?)"
  return { image with imageEndAbs }

/-- One turn of the library loop. -/
def parseLibrary (image : XbeImage) (off : Nat) : Load XbeImage := do
  let f := image.file
  let name ← copyOut f off 8
  let major ← rd16 f (off + 0x8)
  let minor ← rd16 f (off + 0xA)
  let build ← rd16 f (off + 0xC)
  let flags ← rd16 f (off + 0xE)
  return { image with libs := image.libs ++ [{ name := name ++ [0], major, minor, build, flags }] }

/-- The library table. -/
def parseLibraries (image : XbeImage) : Load XbeImage := do
  if 0 < image.header.numLibraryVersions then
    match image.headerOffset image.header.libraryVersionsAddr with
    | none => Traced.fail (.rejected "library versions outside headers")
    | some off =>
      require (off + kLibraryVersionSize * image.header.numLibraryVersions ≤ image.file.size)
        "library versions extend past end of file"
      (List.range image.header.numLibraryVersions).foldlM
        (fun image i => parseLibrary image (off + kLibraryVersionSize * i)) image
  else return image

/-- The directory for thread-local storage, in the headers or in a section. -/
def parseTls (image : XbeImage) : Load XbeImage := do
  let f := image.file
  let base := image.header.baseAddr
  if image.header.tlsAddr ≠ 0 then
    match image.vaFileOffset image.header.tlsAddr with
    | none => Traced.fail (.rejected "TLS directory not present in file (header or section)")
    | some off =>
      require (off + kTlsDirectorySize ≤ f.size) "TLS directory extends past end of file"
      let dataStart ← rd32 f (off + 0x00)
      let dataEnd ← rd32 f (off + 0x04)
      let indexAddr ← rd32 f (off + 0x08)
      let callbacksAddr ← rd32 f (off + 0x0C)
      let zeroFill ← rd32 f (off + 0x10)
      let characteristics ← rd32 f (off + 0x14)
      require (base ≤ dataStart ∧ dataStart < image.imageEndAbs ∧ dataStart ≤ dataEnd)
        "TLS template range outside image"
      require (dataEnd ≤ image.imageEndAbs) "TLS template range outside image"
      require (base ≤ indexAddr ∧ indexAddr < image.imageEndAbs) "TLS index address outside image"
      return { image with
        tls := { dataStart, dataEnd, indexAddr, callbacksAddr, zeroFill, characteristics }
        tlsPresent := true }
  else return image

/-- `parse`. -/
def parse (file : ByteVector) : Load XbeImage := do
  let image ← parseHeader { file }
  let image ← parseCertificate image
  let image ← parseSections image
  let image ← parseExtent image
  let image ← parseLibraries image
  parseTls image

end XbeImage

end SeriesxEmu
