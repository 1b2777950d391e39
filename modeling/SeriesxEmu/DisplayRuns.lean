import SeriesxEmu.GuestWords
import SeriesxEmu.RenderTargets
import SeriesxEmu.RunOrigins
import SeriesxEmu.XboxDisplay

/-!
# What is on the screen

A snapshot is shown until the frontbuffer is replaced or another flip is presented, whatever happens
to the memory meanwhile. Its length is that of the frontbuffer, so the readers never run past it.
-/

namespace SeriesxEmu

namespace XboxDisplay

variable {display next : XboxDisplay} {mem : Option MemMap} {gpa w h qpc : Nat}

/-! ## The shape of a snapshot -/

/-- A display as the operations leave it. -/
structure Sound (display : XboxDisplay) : Prop where
  shape : display.hasFb = true → 0 < display.fbW ∧ display.fbW ≤ kMaxWidth ∧ 0 < display.fbH ∧
    display.fbH ≤ kMaxHeight
  blank : display.hasFb = false → display.frame = []
  size : display.frame ≠ [] → display.frame.length = display.fbW * display.fbH * kBytesPerPixel

/-- A new display is sound. -/
theorem sound_new : Sound {} := ⟨Bool.noConfusion, fun _ => rfl, fun shown => absurd rfl shown⟩

/-- The product of dimensions within the limits is exact in 64 bits. -/
theorem need_exact (wide : w ≤ kMaxWidth) (high : h ≤ kMaxHeight) :
    w * h * kBytesPerPixel % 2 ^ 64 = w * h * kBytesPerPixel := by
  have product : w * h ≤ kMaxWidth * kMaxHeight := Nat.mul_le_mul wide high
  have limit : kMaxWidth * kMaxHeight * kBytesPerPixel < 2 ^ 64 := by decide
  have bytes : w * h * kBytesPerPixel ≤ kMaxWidth * kMaxHeight * kBytesPerPixel := Nat.mul_le_mul_right _ product
  exact Nat.mod_eq_of_lt (Nat.lt_of_le_of_lt bytes limit)

/-- A registered framebuffer has four bytes for each pixel. -/
theorem Sound.fbBytes (sound : Sound display) (registered : display.hasFb = true) :
    display.fbBytes = display.fbW * display.fbH * kBytesPerPixel :=
  need_exact (sound.shape registered).2.1 (sound.shape registered).2.2.2

/-- `set_framebuffer` either changes nothing, or it registers a frontbuffer within the limits whose
bytes can be read and drops the snapshot. -/
theorem setFramebuffer_cases (display : XboxDisplay) (mem : Option MemMap) (gpa w h : Nat) :
    display.setFramebuffer mem gpa w h = (display, false) ∨
      (display.setFramebuffer mem gpa w h =
          ({ display with fbGpa := gpa, fbW := w, fbH := h, hasFb := true, frame := [] }, true) ∧
        0 < w ∧ w ≤ kMaxWidth ∧ 0 < h ∧ h ≤ kMaxHeight ∧
          ∃ attached, mem = some attached ∧ attached.isReadable gpa (w * h * kBytesPerPixel) = true) := by
  unfold setFramebuffer
  simp only
  split
  · exact Or.inl rfl
  · rename_i within
    have exact_ : w * h * kBytesPerPixel % 2 ^ 64 = w * h * kBytesPerPixel := need_exact (by omega) (by omega)
    rw [exact_]
    split
    · exact Or.inl rfl
    · cases mem with
      | none => exact Or.inl rfl
      | some attached =>
        simp only
        split
        · rename_i readable
          rw [Bool.and_eq_true] at readable
          exact Or.inr ⟨rfl, by omega, by omega, by omega, by omega, attached, rfl, readable.2⟩
        · exact Or.inl rfl

/-- `present` either counts an error, or it copies the bytes of the frontbuffer. -/
theorem present_cases (display : XboxDisplay) (mem : Option MemMap) (qpc : Nat) :
    display.present mem qpc = display.failed ∨
      ∃ attached frame, mem = some attached ∧ display.hasFb = true ∧ display.fbBytes ≠ 0 ∧
        attached.readBytes display.fbGpa display.fbBytes = some frame ∧
          display.present mem qpc =
            ({ display with
                frame
                framesPresented := (display.framesPresented + 1) % 2 ^ 64
                lastPresentQpc := qpc }, true) := by
  unfold present
  cases mem with
  | none => exact Or.inl rfl
  | some attached =>
    simp only
    split
    · exact Or.inl rfl
    · rename_i registered
      split
      · exact Or.inl rfl
      · rename_i readable
        rw [Bool.or_eq_true, not_or, decide_eq_true_eq] at readable
        cases reading : attached.readBytes display.fbGpa display.fbBytes with
        | none => exact Or.inl rfl
        | some frame =>
          exact Or.inr ⟨attached, frame, rfl, by simpa using registered, readable.1, reading, rfl⟩

/-- The bytes of the frontbuffer. -/
def bytesIn (display : XboxDisplay) (mem : MemMap) : List UInt8 :=
  (List.range display.fbBytes).map
    (fun offset => mem.bytes (mem.resolveAlias display.fbGpa display.fbBytes + offset))

/-- The display after a flip that was presented. -/
def flipped (display : XboxDisplay) (mem : MemMap) (qpc : Nat) : XboxDisplay :=
  { display with
      frame := display.bytesIn mem
      framesPresented := (display.framesPresented + 1) % 2 ^ 64
      lastPresentQpc := qpc }

/-- A flip is presented exactly when the frontbuffer is registered and can be read. -/
theorem present_iff {mem : MemMap} : display.present (some mem) qpc = (next, true) ↔ display.hasFb = true ∧
    display.fbBytes ≠ 0 ∧ mem.isReadable display.fbGpa display.fbBytes = true ∧ next = display.flipped mem qpc := by
  constructor
  · intro presented
    rcases display.present_cases (some mem) qpc with
      fails | ⟨_, frame, attached, registered, nonEmpty, reading, presents⟩
    · rw [presented] at fails
      cases fails
    · obtain rfl := Option.some.inj attached
      obtain ⟨readable, -, -⟩ := MemMap.readBytes_some reading
      rw [MemMap.readBytes, if_pos readable] at reading
      rw [presented, ← Option.some.inj reading] at presents
      exact ⟨registered, nonEmpty, readable, congrArg Prod.fst presents⟩
  · rintro ⟨registered, nonEmpty, readable, rfl⟩
    have reading : mem.readBytes display.fbGpa display.fbBytes = some (display.bytesIn mem) := if_pos readable
    simp only [present, registered, Bool.not_true, Bool.false_eq_true, ↓reduceIte, nonEmpty, decide_false, readable,
      Bool.or_self, reading, flipped]

/-- Registering a framebuffer keeps the display sound. -/
theorem Sound.setFramebuffer (sound : Sound display) (mem : Option MemMap) (gpa w h : Nat) :
    Sound (display.setFramebuffer mem gpa w h).1 := by
  rcases display.setFramebuffer_cases mem gpa w h with same | ⟨registers, width, wide, height, high, -⟩
  · rw [same]
    exact sound
  · rw [registers]
    exact ⟨fun _ => ⟨width, wide, height, high⟩, Bool.noConfusion, fun shown => absurd rfl shown⟩

/-- Presenting keeps it sound. -/
theorem Sound.present (sound : Sound display) (mem : Option MemMap) (qpc : Nat) :
    Sound (display.present mem qpc).1 := by
  rcases display.present_cases mem qpc with fails | ⟨attached, frame, -, registered, -, reading, presents⟩
  · rw [fails]
    exact ⟨sound.shape, sound.blank, sound.size⟩
  · rw [presents]
    refine ⟨sound.shape, fun missing => ?_, fun _ => ?_⟩
    · rw [registered] at missing
      cases missing
    · exact (MemMap.readBytes_some reading).2.1.trans (sound.fbBytes registered)

/-! ## Readers -/

/-- The bytes of a pixel inside lie inside the snapshot. -/
theorem offset_inside {x y : Nat} (sound : Sound display) (shown : display.frame ≠ []) (inWidth : x < display.fbW)
    (inHeight : y < display.fbH) : display.offset x y + 4 ≤ display.frame.length := by
  have row : y * display.fbW + display.fbW ≤ display.fbW * display.fbH := by
    have rows := Nat.mul_le_mul_right display.fbW (Nat.succ_le_of_lt inHeight)
    rw [Nat.succ_mul] at rows
    rwa [Nat.mul_comm display.fbW display.fbH]
  rw [sound.size shown, offset, kBytesPerPixel]
  omega

/-- A pixel is found exactly inside a snapshot: its check of the length is never what refuses. -/
theorem pixel_eq (sound : Sound display) (x y : Nat) :
    display.pixel x y = if display.frame ≠ [] ∧ x < display.fbW ∧ y < display.fbH then
      some (XbeRam.ofLittleEndian ((display.frame.drop (display.offset x y)).take 4)) else none := by
  rw [pixel]
  by_cases inside : display.frame ≠ [] ∧ x < display.fbW ∧ y < display.fbH
  · obtain ⟨shown, inWidth, inHeight⟩ := inside
    have registered : display.hasFb = true := by
      cases registered : display.hasFb with
      | true => rfl
      | false => exact absurd (sound.blank registered) shown
    have whole := offset_inside sound shown inWidth inHeight
    have admitted : ¬ (!display.hasFb || display.frame.isEmpty || decide (display.fbW ≤ x) ||
        decide (display.fbH ≤ y)) = true := by
      simp only [registered, Bool.not_true, Bool.false_or, Bool.or_eq_true, List.isEmpty_iff, decide_eq_true_eq,
        not_or, Nat.not_le]
      exact ⟨⟨shown, inWidth⟩, inHeight⟩
    rw [if_neg admitted, if_neg (Nat.not_lt.mpr whole), if_pos ⟨shown, inWidth, inHeight⟩]
  · have refused : (!display.hasFb || display.frame.isEmpty || decide (display.fbW ≤ x) ||
        decide (display.fbH ≤ y)) = true := by
      simp only [Bool.or_eq_true, List.isEmpty_iff, decide_eq_true_eq]
      by_contra outside
      simp only [not_or, Nat.not_le] at outside
      exact inside ⟨outside.1.1.2, outside.1.2, outside.2⟩
    rw [if_pos refused, if_neg inside]

/-- A file is written exactly when there is a snapshot. -/
theorem savePpm_isSome (sound : Sound display) : display.savePpm.isSome = true ↔ display.frame ≠ [] := by
  rw [savePpm]
  cases shown : display.frame with
  | nil => simp
  | cons first rest =>
    have nonEmpty : display.frame ≠ [] := by
      rw [shown]
      exact List.cons_ne_nil _ _
    have registered : display.hasFb = true := by
      cases registered : display.hasFb with
      | true => rfl
      | false => exact absurd (sound.blank registered) nonEmpty
    have size := sound.size nonEmpty
    rw [shown] at size
    simp only [List.isEmpty_cons, registered, Bool.not_true, Bool.or_self, Bool.false_eq_true, ↓reduceIte, size,
      Nat.lt_irrefl, Option.isSome_some, ne_eq, reduceCtorEq, not_false_eq_true]

end XboxDisplay

namespace Screen

open XboxDisplay

/-- A snapshot with the frontbuffer it was taken from. -/
structure Shot where
  frame : List UInt8
  gpa : Nat
  w : Nat
  h : Nat

/-- What a reader sees of the screen. -/
def shot (screen : Screen) : Shot :=
  { frame := screen.display.frame, gpa := screen.display.fbGpa, w := screen.display.fbW, h := screen.display.fbH }

/-- The flip has read the snapshot out of guest memory. -/
def Presents (screen : Screen) (action : Action) (shot : Shot) : Prop :=
  ∃ qpc mem, action = .present qpc ∧ screen.gpu.mem = some mem ∧
    mem.readBytes shot.gpa (shot.w * shot.h * kBytesPerPixel) = some shot.frame

/-- Every action keeps the display sound. -/
theorem step_sound (screen : Screen) (action : Action) (next : Screen) (sound : screen.display.Sound)
    (stepped : screen.step action = some next) : next.display.Sound := by
  cases action with
  | memory op | submit pkt qpc =>
    obtain rfl := Option.some.inj stepped
    exact sound
  | setFramebuffer gpa w h =>
    obtain rfl := Option.some.inj stepped
    exact sound.setFramebuffer _ _ _ _
  | clearFramebuffer =>
    obtain rfl := Option.some.inj stepped
    exact ⟨Bool.noConfusion, fun _ => rfl, fun shown => absurd rfl shown⟩
  | present qpc =>
    obtain rfl := Option.some.inj stepped
    exact sound.present _ _

/-- A step keeps the snapshot and its frontbuffer, drops the snapshot, or takes another one. -/
theorem step_shot (screen : Screen) (action : Action) (next : Screen) (sound : screen.display.Sound)
    (stepped : screen.step action = some next) :
    next.shot = screen.shot ∨ next.shot.frame = [] ∨ screen.Presents action next.shot := by
  cases action with
  | memory op | submit pkt qpc =>
    obtain rfl := Option.some.inj stepped
    exact Or.inl rfl
  | setFramebuffer gpa w h =>
    obtain rfl := Option.some.inj stepped
    rcases screen.display.setFramebuffer_cases screen.gpu.mem gpa.toNat w.toNat h.toNat with same | ⟨registers, -⟩
    · exact Or.inl (by simp only [shot, same])
    · exact Or.inr (Or.inl (by simp only [shot, registers]))
  | clearFramebuffer =>
    obtain rfl := Option.some.inj stepped
    exact Or.inr (Or.inl rfl)
  | present qpc =>
    obtain rfl := Option.some.inj stepped
    rcases screen.display.present_cases screen.gpu.mem qpc with
      fails | ⟨mem, frame, attached, registered, -, reading, presents⟩
    · exact Or.inl (by simp only [shot, fails, failed])
    · rw [sound.fbBytes registered] at reading
      exact Or.inr (Or.inr ⟨qpc, mem, rfl, attached, by simpa only [shot, presents] using reading⟩)

/-- **Snapshots.** In every run of a title each pixel that can be read, and only those inside the
frontbuffer can, comes out of guest memory as it was at a flip of the run, from the frontbuffer that
is still registered; the snapshot has been on the screen ever since, and as long as there is one it
can be saved.

Proof: the frame in a sound display has the shape of its frontbuffer. Only a flip makes a frame, and
whatever takes the frontbuffer away takes the frame with it. -/
theorem pixels_presented (gpu : GpuStub) (actions : List Action) (final : Screen)
    (completed : Runs.run step { gpu } actions = some final) :
    (final.display.savePpm.isSome = true ↔ final.display.frame ≠ []) ∧
      (∀ x y, final.display.pixel x y ≠ none ↔
        final.display.frame ≠ [] ∧ x < final.display.fbW ∧ y < final.display.fbH) ∧
      ∀ x y value, final.display.pixel x y = some value →
        Runs.Made step shot Presents { gpu } actions final.shot ∧
          value = XbeRam.ofLittleEndian ((final.shot.frame.drop ((y * final.shot.w + x) * kBytesPerPixel)).take 4) := by
  have sound : final.display.Sound :=
    Runs.run_preserves step_sound { gpu } final actions sound_new completed
  refine ⟨savePpm_isSome sound, fun x y => ?_, fun x y value found => ?_⟩
  · rw [pixel_eq sound]
    split
    · rename_i inside
      exact iff_of_true (Option.some_ne_none _) inside
    · rename_i outside
      exact iff_of_false (fun blank => blank rfl) outside
  · rw [pixel_eq sound] at found
    split at found
    · rename_i inside
      refine ⟨?_, (Option.some.inj found).symm⟩
      exact @Runs.origin _ _ _ step (fun screen => screen.display.Sound) shot (fun taken => taken.frame = [])
        Presents step_sound step_shot _ _ _ sound_new rfl completed inside.1
    · cases found

/-- A title that registers a frontbuffer of four pixels and flips. -/
def oneFlip : List Action :=
  [.memory .reserve, .memory (.commitPage 0x1000), .setFramebuffer 0x1000 2 2, .present 7,
    .memory (.writeBytes 0x1000 [9])]

/-- A run of one flip presents its pixels. -/
theorem oneFlip_presented : ∃ final, Runs.run step { gpu := { mem := some {} } } oneFlip = some final ∧
    final.display.pixel 0 0 = some 0 ∧
      Runs.Made step shot Presents { gpu := { mem := some {} } } oneFlip final.shot := by
  have ran : ∃ final, Runs.run step { gpu := { mem := some {} } } oneFlip = some final ∧
      final.display.pixel 0 0 = some 0 := ⟨_, rfl, by decide +kernel⟩
  obtain ⟨final, completed, found⟩ := ran
  exact ⟨final, completed, found, ((pixels_presented _ _ _ completed).2.2 0 0 0 found).1⟩

/-! ## From a clear to the screen -/

/-- Four bytes of a range that is read. -/
theorem word_of_range (contents : Nat → UInt8) (start size offset : Nat) (inside : offset + 4 ≤ size) :
    (((List.range size).map (fun place => contents (start + place))).drop offset).take 4 =
      (List.range 4).map (fun place => contents (start + offset + place)) := by
  refine List.ext_getElem ?_ fun place _ within => ?_
  · simp only [List.length_take, List.length_drop, List.length_map, List.length_range]
    omega
  · simp only [List.getElem_take, List.getElem_drop, List.getElem_map, List.getElem_range, Nat.add_assoc]

/-- The word that a clear stores fits into 32 bits. -/
theorem clearWord_lt (pkt : XboxPacket) : GpuStub.clearWord pkt < 2 ^ 32 := by
  obtain ⟨type, dst, src, pattern, ⟨red, green, blue, alpha⟩, rest⟩ := pkt
  have redByte := red.toNat_lt
  have greenByte := green.toNat_lt
  have blueByte := blue.toNat_lt
  have alphaByte := alpha.toNat_lt
  simp only [GpuStub.clearWord]
  omega

open GpuStub MemMap in
/-- **A clear shows on the screen.** When a clear of the whole frontbuffer is accepted, where no
window is mapped, then the next flip succeeds and every pixel has the colour.

Proof: the fill of an accepted clear covers the frontbuffer with the word of the colour, and a flip
copies it from there. -/
theorem clear_presented (gpu : GpuStub) (pkt : XboxPacket) (qpc : Nat) (type : pkt.type = .clearRenderTarget)
    (accepted : (gpu.submitXbox pkt qpc).2 = true) (plain : ∀ mem, gpu.mem = some mem → mem.aliases = [])
    (display : XboxDisplay) (sound : display.Sound) (registered : display.hasFb = true)
    (target : pkt.dst.gpa = display.fbGpa ∧ pkt.rtWidth = display.fbW ∧ pkt.rtHeight = display.fbH) (flip : Nat) :
    (display.present (gpu.submitXbox pkt qpc).1.mem flip).2 = true ∧ ∀ x < display.fbW, ∀ y < display.fbH,
      (display.present (gpu.submitXbox pkt qpc).1.mem flip).1.pixel x y = some (clearWord pkt) := by
  obtain ⟨mem, attached, admitted, ok, after, -⟩ := clear_accepted type accepted
  obtain ⟨place, width, height⟩ := target
  obtain ⟨wide, widest, high, highest⟩ := sound.shape registered
  simp only [admitsClear, Bool.and_eq_true, bne_iff_ne, beq_iff_eq] at admitted
  obtain ⟨⟨⟨_, declared⟩, _⟩, commit⟩ := admitted
  have need : clearSize pkt = display.fbBytes := by rw [clearSize, width, height, XboxDisplay.fbBytes, kBytesPerPixel]
  have bytes : display.fbBytes = display.fbW * display.fbH * kBytesPerPixel := sound.fbBytes registered
  have pixels : 0 < display.fbW * display.fbH := Nat.mul_pos wide high
  have words : (clearSize pkt + 3) / 4 = display.fbW * display.fbH := by
    rw [need, bytes, kBytesPerPixel]
    omega
  have readable : mem.isReadable display.fbGpa display.fbBytes = true := by
    rw [← place, ← need, declared]
    exact isReadable_of_isWritable commit
  rw [words] at ok after
  rw [after, fillWords_filled (plain mem attached) ok, place]
  let contents := filled mem.bytes display.fbGpa (clearWord pkt) (display.fbW * display.fbH)
  let frame := (List.range display.fbBytes).map (fun offset => contents (display.fbGpa + offset))
  have same : display.bytesIn (mem.withBytes contents) = frame := by
    rw [bytesIn, withBytes_resolveAlias, resolve_unaliased (plain mem attached)]
    rfl
  have nonEmpty : display.fbBytes ≠ 0 := by
    rw [bytes, kBytesPerPixel]
    omega
  have presents : display.present (some (mem.withBytes contents)) flip = ({ display with
      frame
      framesPresented := (display.framesPresented + 1) % 2 ^ 64
      lastPresentQpc := flip }, true) := by
    refine present_iff.mpr ⟨registered, nonEmpty, readable, ?_⟩
    rw [flipped, same]
  have next := sound.present (some (mem.withBytes contents)) flip
  rw [presents] at next ⊢
  refine ⟨rfl, fun x inWidth y inHeight => ?_⟩
  have shown : frame ≠ [] := by
    rw [← List.length_pos_iff, List.length_map, List.length_range, bytes, kBytesPerPixel]
    omega
  have inside := offset_inside next shown inWidth inHeight
  have size : frame.length = display.fbBytes := by rw [List.length_map, List.length_range]
  let start := (y * display.fbW + x) * kBytesPerPixel
  have range : start + 4 ≤ display.fbBytes := size ▸ inside
  have word : (frame.drop start).take 4 = XbeRam.littleEndian (clearWord pkt) := by
    rw [word_of_range contents display.fbGpa display.fbBytes start range]
    have each : ∀ byte < 4, contents (display.fbGpa + start + byte) =
        (XbeRam.littleEndian (clearWord pkt)).getD byte 0 := by
      intro byte within
      have low : display.fbGpa ≤ display.fbGpa + start + byte := by omega
      have covered : display.fbGpa + start + byte < display.fbGpa + 4 * (display.fbW * display.fbH) := by
        rw [bytes, kBytesPerPixel] at range
        omega
      have phase : (display.fbGpa + start + byte - display.fbGpa) % 4 = byte := by
        simp only [start, kBytesPerPixel]
        omega
      simp only [contents, filled, if_pos (And.intro low covered), phase]
    have four : List.range 4 = [0, 1, 2, 3] := rfl
    simp only [four, List.map_cons, List.map_nil, each 0 (by decide), each 1 (by decide), each 2 (by decide),
      each 3 (by decide)]
    rfl
  rw [pixel_eq next, if_pos ⟨shown, inWidth, inHeight⟩]
  refine congrArg some ((congrArg XbeRam.ofLittleEndian word).trans ?_)
  rw [XbeRam.ofLittleEndian_littleEndian, Nat.mod_eq_of_lt (clearWord_lt pkt)]

/-- A display on the first two pixels of that page. -/
def twoPixels : XboxDisplay := { hasFb := true, fbGpa := 0x1000, fbW := 2, fbH := 1 }

/-- Two cleared pixels reach the screen. -/
theorem twoPixels_presented :
    (twoPixels.present (GpuStub.submitXbox { mem := some GpuStub.clearedPage } (GpuStub.clearsFrom 2 1 8) 0).1.mem
      0).1.pixel 1 0 = some 0x04030201 := by
  have accepted : (GpuStub.submitXbox { mem := some GpuStub.clearedPage } (GpuStub.clearsFrom 2 1 8) 0).2 = true := by
    decide +kernel
  have sound : twoPixels.Sound := ⟨fun _ => by decide, Bool.noConfusion, fun shown => absurd rfl shown⟩
  have plain : ∀ mem, some GpuStub.clearedPage = some mem → mem.aliases = [] := by
    intro mem same
    rw [← Option.some.inj same]
    decide +kernel
  exact (clear_presented { mem := some GpuStub.clearedPage } (GpuStub.clearsFrom 2 1 8) 0 rfl accepted plain twoPixels
    sound rfl ⟨rfl, rfl, rfl⟩ 0).2 1 (by decide) 0 (by decide)

end Screen

end SeriesxEmu
