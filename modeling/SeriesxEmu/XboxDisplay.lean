import SeriesxEmu.GpuStub

/-!
# The display

A title registers a frontbuffer in guest memory, and every flip copies its bytes into a snapshot on
the host. Readers look at the snapshot only. The memory map that the display is attached to, if any,
and the value of the host's counter are arguments.
-/

namespace SeriesxEmu

/-- The widest framebuffer. -/
def kMaxWidth : Nat := 1920

/-- The highest framebuffer. -/
def kMaxHeight : Nat := 1080

/-- Pixels have four bytes. -/
def kBytesPerPixel : Nat := 4

/-- The display: its framebuffer, the last frame and its counters. -/
structure XboxDisplay where
  hasFb : Bool := false
  fbGpa : Nat := 0
  fbW : Nat := 0
  fbH : Nat := 0
  frame : List UInt8 := []
  framesPresented : Nat := 0
  lastPresentQpc : Nat := 0
  errors : Nat := 0
deriving DecidableEq, Repr

namespace XboxDisplay

/-- `fb_bytes`, in 64 bits. -/
def fbBytes (display : XboxDisplay) : Nat := display.fbW * display.fbH * kBytesPerPixel % 2 ^ 64

/-- `set_framebuffer`: a new frontbuffer drops the snapshot. -/
def setFramebuffer (display : XboxDisplay) (mem : Option MemMap) (gpa w h : Nat) : XboxDisplay × Bool :=
  let need := w * h * kBytesPerPixel % 2 ^ 64
  if w = 0 ∨ h = 0 ∨ kMaxWidth < w ∨ kMaxHeight < h then (display, false)
  else if need / kBytesPerPixel ≠ w * h then (display, false)
  else
    match mem with
    | none => (display, false)
    | some mem =>
      if MemMap.inRange gpa need && mem.isReadable gpa need then
        ({ display with fbGpa := gpa, fbW := w, fbH := h, hasFb := true, frame := [] }, true)
      else (display, false)

/-- `clear_framebuffer`. -/
def clearFramebuffer (display : XboxDisplay) : XboxDisplay :=
  { display with hasFb := false, fbGpa := 0, fbW := 0, fbH := 0, frame := [] }

/-- A flip that could not be presented. -/
def failed (display : XboxDisplay) : XboxDisplay × Bool :=
  ({ display with errors := (display.errors + 1) % 2 ^ 64 }, false)

/-- `present`: the bytes in memory become the frame, when all of them can be read. -/
def present (display : XboxDisplay) (mem : Option MemMap) (qpc : Nat) : XboxDisplay × Bool :=
  match mem with
  | none => display.failed
  | some mem =>
    if !display.hasFb then display.failed
    else if display.fbBytes = 0 || !mem.isReadable display.fbGpa display.fbBytes then display.failed
    else
      match mem.readBytes display.fbGpa display.fbBytes with
      | none => display.failed
      | some frame =>
        ({ display with
            frame
            framesPresented := (display.framesPresented + 1) % 2 ^ 64
            lastPresentQpc := qpc }, true)

/-! ## Readers -/

/-- Where the bytes of a pixel start. -/
def offset (display : XboxDisplay) (x y : Nat) : Nat := (y * display.fbW + x) * kBytesPerPixel

/-- `pixel`: the four bytes as one little-endian word. -/
def pixel (display : XboxDisplay) (x y : Nat) : Option Nat :=
  if !display.hasFb || display.frame.isEmpty || display.fbW ≤ x || display.fbH ≤ y then none
  else if display.frame.length < display.offset x y + 4 then none
  else some (XbeRam.ofLittleEndian ((display.frame.drop (display.offset x y)).take 4))

/-- One byte of FNV-1a. -/
def fnvStep (hash : UInt64) (byte : UInt8) : UInt64 := (hash ^^^ byte.toUInt64) * 1099511628211

/-- `checksum`: the hash of the frame. -/
def checksum (display : XboxDisplay) : UInt64 :=
  if display.frame.isEmpty then 0 else display.frame.foldl fnvStep 1469598103934665603

/-- The header of `save_ppm`. -/
def ppmHeader (w h : Nat) : List Char :=
  "P6\n".toList ++ Nat.toDigits 10 w ++ " ".toList ++ Nat.toDigits 10 h ++ "\n255\n".toList

/-- The three bytes that are written for a pixel. -/
def rgb (display : XboxDisplay) (x y : Nat) : List UInt8 := (display.frame.drop (display.offset x y)).take 3

/-- `save_ppm`: the bytes of the file, if one is written. -/
def savePpm (display : XboxDisplay) : Option (List UInt8) :=
  if display.frame.isEmpty || !display.hasFb then none
  else if display.frame.length < display.fbW * display.fbH * kBytesPerPixel then none
  else
    some ((ppmHeader display.fbW display.fbH).map (fun c => UInt8.ofNat c.toNat) ++
      (List.range display.fbH).flatMap (fun y => (List.range display.fbW).flatMap (fun x => display.rgb x y)))

end XboxDisplay

/-! ## A title with a display -/

/-- The display and the command processor of a title; both are attached to the same memory. -/
structure Screen where
  gpu : GpuStub := {}
  display : XboxDisplay := {}

namespace Screen

/-- What a title does with its display. -/
inductive Action where
  | memory (op : MemMap.Op)
  | submit (pkt : XboxPacket) (qpc : Nat)
  | setFramebuffer (gpa : UInt64) (w h : UInt32)
  | clearFramebuffer
  | present (qpc : Nat)
deriving DecidableEq

/-- One action. -/
def step (screen : Screen) : Action → Option Screen
  | .memory op => some { screen with gpu := { screen.gpu with mem := screen.gpu.mem.map (fun mem => (mem.exec op).1) } }
  | .submit pkt qpc => some { screen with gpu := (screen.gpu.submitXbox pkt qpc).1 }
  | .setFramebuffer gpa w h =>
    some { screen with display := (screen.display.setFramebuffer screen.gpu.mem gpa.toNat w.toNat h.toNat).1 }
  | .clearFramebuffer => some { screen with display := screen.display.clearFramebuffer }
  | .present qpc => some { screen with display := (screen.display.present screen.gpu.mem qpc).1 }

end Screen

end SeriesxEmu
