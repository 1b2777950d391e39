import SeriesxEmu.DisplayRuns
import SeriesxEmu.Pixmaps

/-!
# Saved frames and their checksum

A saved frame is a binary pixmap of the frontbuffer's size, and its pixels are the ones that the
display reports. The checksum of a snapshot tells two flips apart between which one byte changed.
-/

namespace SeriesxEmu

namespace XboxDisplay

variable {display : XboxDisplay}

/-! ## Pixmaps -/

/-- The low three bytes of a word. -/
def channels (value : Nat) : List UInt8 := (XbeRam.littleEndian value).take 3

/-- Four bytes survive the reading and the storing of their word. -/
theorem littleEndian_ofLittleEndian {word : List UInt8} (four : word.length = 4) :
    XbeRam.littleEndian (XbeRam.ofLittleEndian word) = word := by
  match word, four with
  | [first, second, third, fourth], _ =>
    have bounds := And.intro first.toNat_lt (And.intro second.toNat_lt (And.intro third.toNat_lt fourth.toNat_lt))
    have byte (value : Nat) (place : UInt8) (same : value % 256 = place.toNat) : UInt8.ofNat value = place := by
      rw [← UInt8.toNat_inj, UInt8.toNat_ofNat', same]
    simp only [XbeRam.ofLittleEndian, XbeRam.littleEndian, List.foldr_cons, List.foldr_nil, List.cons.injEq, and_true]
    refine ⟨byte _ _ ?_, byte _ _ ?_, byte _ _ ?_, byte _ _ ?_⟩ <;> omega

/-- The pixmap of a snapshot. -/
def pixmap (display : XboxDisplay) : Pixmaps.Pixmap where
  width := display.fbW
  height := display.fbH
  maximum := 255
  raster := (List.range display.fbH).flatMap (fun y => (List.range display.fbW).flatMap (fun x => display.rgb x y))

/-- A saved file is the written pixmap of the display. -/
theorem savePpm_write {file : List UInt8} (saved : display.savePpm = some file) : file = display.pixmap.write := by
  rw [savePpm] at saved
  split at saved
  · cases saved
  split at saved
  · cases saved
  · rw [← Option.some.inj saved]
    have header : (ppmHeader display.fbW display.fbH).map (fun c => UInt8.ofNat c.toNat) =
        Pixmaps.ascii ['P', '6', '\n'] ++ Pixmaps.decimal display.fbW ++ Pixmaps.ascii [' '] ++
          Pixmaps.decimal display.fbH ++ Pixmaps.ascii ['\n'] ++ Pixmaps.decimal 255 ++ Pixmaps.ascii ['\n'] := by
      unfold ppmHeader
      simp only [Pixmaps.decimal, ← List.map_append, Pixmaps.ascii, List.append_assoc]
      rfl
    rw [header]
    rfl

/-- A pixel of the frame gives three bytes. -/
theorem rgb_length (sound : display.Sound) (shown : display.frame ≠ []) {x y : Nat} (inWidth : x < display.fbW)
    (inHeight : y < display.fbH) : (display.rgb x y).length = 3 := by
  have inside := offset_inside sound shown inWidth inHeight
  rw [rgb, List.length_take, List.length_drop]
  omega

/-- A row of the frame gives three bytes for each pixel. -/
theorem rgb_row (sound : display.Sound) (shown : display.frame ≠ []) {y : Nat} (inHeight : y < display.fbH) :
    ((List.range display.fbW).flatMap (fun x => display.rgb x y)).length = 3 * display.fbW := by
  rw [Pixmaps.rows_length (List.range display.fbW) fun x member =>
    rgb_length sound shown (List.mem_range.mp member) inHeight, List.length_range, Nat.mul_comm]

/-- The pixmap of a shown frame has as many bytes as its measures ask for. -/
theorem pixmap_whole (sound : display.Sound) (shown : display.frame ≠ []) : display.pixmap.Whole := by
  show display.pixmap.raster.length = 3 * display.fbW * display.fbH
  rw [pixmap, Pixmaps.rows_length (List.range display.fbH) fun y member =>
    rgb_row sound shown (List.mem_range.mp member), List.length_range, Nat.mul_comm]

/-- Its pixels are those of the frame. -/
theorem pixmap_pixel (sound : display.Sound) (shown : display.frame ≠ []) {x y : Nat} (inWidth : x < display.fbW)
    (inHeight : y < display.fbH) : display.pixmap.pixel x y = display.rgb x y := by
  have high : y < (List.range display.fbH).length := by rwa [List.length_range]
  have wide : x < (List.range display.fbW).length := by rwa [List.length_range]
  have row : (List.range display.fbH)[y] = y := List.getElem_range _
  have place : (List.range display.fbW)[x] = x := List.getElem_range _
  have low : ∀ y ∈ List.range display.fbH, ((List.range display.fbW).flatMap (fun x => display.rgb x y)).length =
      3 * display.fbW := fun y member => rgb_row sound shown (List.mem_range.mp member)
  have three : ∀ x ∈ List.range display.fbW, (display.rgb x y).length = 3 := fun x member =>
    rgb_length sound shown (List.mem_range.mp member) inHeight
  have inner := Pixmaps.rows_part (List.range display.fbW) three wide (Nat.le_of_eq (Nat.zero_add 3))
  have outer := Pixmaps.rows_part (List.range display.fbH) low high (by omega : 3 * x + 3 ≤ 3 * display.fbW)
  rw [row] at outer
  rw [place, Nat.add_zero, List.drop_zero, List.take_of_length_le (Nat.le_of_eq (three x (List.mem_range.mpr inWidth))),
    Nat.mul_comm] at inner
  exact outer.trans inner

/-- The bytes of a pixel are the channels of its word. -/
theorem rgb_channels (sound : display.Sound) {x y value : Nat} (found : display.pixel x y = some value) :
    display.rgb x y = channels value := by
  rw [pixel_eq sound] at found
  split at found
  · rename_i inside
    obtain ⟨shown, inWidth, inHeight⟩ := inside
    have whole := offset_inside sound shown inWidth inHeight
    have four : ((display.frame.drop (display.offset x y)).take 4).length = 4 := by
      rw [List.length_take, List.length_drop]
      omega
    rw [← Option.some.inj found, channels, littleEndian_ofLittleEndian four, List.take_take, rgb]
    rfl
  · cases found

end XboxDisplay

/-! ## Checksums -/

section folds
variable {σ α : Type} {absorb : σ → α → σ}

/-- A fold is injective in its start when each of its steps is. -/
theorem foldl_injective (state : ∀ item, Function.Injective (fun hash => absorb hash item)) (items : List α) :
    Function.Injective (fun hash => items.foldl absorb hash) := by
  induction items with
  | nil => exact Function.injective_id
  | cons first rest hypothesis => exact hypothesis.comp (state first)

/-- Another item at one place gives another hash. -/
theorem foldl_set (state : ∀ item, Function.Injective (fun hash => absorb hash item))
    (input : ∀ hash, Function.Injective (absorb hash)) (items : List α) (place : Nat) (inside : place < items.length)
    (item : α) (hash : σ) :
    (items.set place item).foldl absorb hash = items.foldl absorb hash ↔ items[place] = item := by
  induction items generalizing place hash with
  | nil => cases inside
  | cons first rest hypothesis =>
    cases place with
    | zero =>
      rw [List.set_cons_zero, List.foldl_cons, List.foldl_cons, List.getElem_cons_zero]
      exact ((foldl_injective state rest).eq_iff.trans (input hash).eq_iff).trans eq_comm
    | succ place =>
      rw [List.set_cons_succ, List.foldl_cons, List.foldl_cons, List.getElem_cons_succ]
      exact hypothesis place (Nat.lt_of_succ_lt_succ inside) (absorb hash first)

end folds

namespace XboxDisplay

/-- A write of one byte seen in the frontbuffer. -/
theorem bytesIn_store (display : XboxDisplay) (mem : MemMap) (place : Nat) (byte : UInt8) :
    display.bytesIn (mem.withBytes (MemMap.store mem.bytes place [byte])) =
      if mem.resolveAlias display.fbGpa display.fbBytes ≤ place then
        (display.bytesIn mem).set (place - mem.resolveAlias display.fbGpa display.fbBytes) byte
      else display.bytesIn mem := by
  split
  · rename_i reaches
    refine List.ext_getElem (by simp [bytesIn]) fun offset _ _ => ?_
    simp only [bytesIn, MemMap.withBytes_bytes, MemMap.withBytes_resolveAlias, List.getElem_map, List.getElem_range,
      List.getElem_set, MemMap.store, List.length_singleton]
    by_cases hit : place - mem.resolveAlias display.fbGpa display.fbBytes = offset
    · have zero : mem.resolveAlias display.fbGpa display.fbBytes + offset - place = 0 := by omega
      rw [if_pos (by omega), if_pos hit, zero, List.getD_cons_zero]
    · rw [if_neg (by omega), if_neg hit]
  · rename_i below
    refine List.map_congr_left fun offset _ => ?_
    rw [MemMap.withBytes_bytes, MemMap.withBytes_resolveAlias, MemMap.store_outside (Or.inr ?_)]
    rw [List.length_singleton]
    omega

/-- The checksum of a presented frame is the fold over the bytes in memory. -/
theorem checksum_flipped {display : XboxDisplay} {mem : MemMap} {qpc : Nat} (nonEmpty : display.fbBytes ≠ 0) :
    (display.flipped mem qpc).checksum = (display.bytesIn mem).foldl fnvStep 1469598103934665603 := by
  have shown : (display.bytesIn mem).isEmpty = false := by
    rw [bytesIn, List.isEmpty_map, List.isEmpty_eq_false_iff, ne_eq, List.range_eq_nil]
    exact nonEmpty
  rw [checksum, flipped, shown, if_neg Bool.false_ne_true]

/-- The prime of FNV-1a is odd, so it can be divided by. -/
theorem prime_cancel {left right : UInt64} (same : left * 1099511628211 = right * 1099511628211) : left = right := by
  have unit : (1099511628211 : UInt64) * 14886173955864302971 = 1 := by decide
  have product := congrArg (· * 14886173955864302971) same
  simpa only [UInt64.mul_assoc, unit, UInt64.mul_one] using product

/-- A step of the checksum is injective in the state: its factor is odd. -/
theorem fnvStep_state (byte : UInt8) : Function.Injective (fun hash => fnvStep hash byte) := fun _ _ same =>
  UInt64.xor_left_inj byte.toUInt64 |>.mp (prime_cancel same)

/-- It is injective in the byte as well. -/
theorem fnvStep_input (hash : UInt64) : Function.Injective (fnvStep hash) := fun _ _ same =>
  UInt8.toUInt64_inj.mp (UInt64.xor_right_inj hash |>.mp (prime_cancel same))

end XboxDisplay

namespace Screen

open XboxDisplay

/-- **Saved frames.** After every run of a title, a frame that is saved is read back as a binary
pixmap of the size of the frontbuffer, with nothing missing and nothing behind it, and each of its
pixels has the low three bytes of what the display reports there.

Proof: the file is the written pixmap of a sound frame, and what is written reads back. -/
theorem saved_reads_back (gpu : GpuStub) (actions : List Action) (final : Screen)
    (completed : Runs.run step { gpu } actions = some final) (file : List UInt8)
    (saved : final.display.savePpm = some file) :
    ∃ pixmap, Pixmaps.Pixmap.read file = some pixmap ∧ pixmap.width = final.display.fbW ∧
      pixmap.height = final.display.fbH ∧ pixmap.maximum = 255 ∧ pixmap.Whole ∧
        ∀ x < pixmap.width, ∀ y < pixmap.height, ∃ value,
          final.display.pixel x y = some value ∧ pixmap.pixel x y = channels value := by
  have sound : final.display.Sound := Runs.run_preserves step_sound { gpu } final actions sound_new completed
  have shown : final.display.frame ≠ [] := by
    rw [← savePpm_isSome sound, saved, Option.isSome_some]
  have whole := pixmap_whole sound shown
  refine ⟨final.display.pixmap, ?_, rfl, rfl, rfl, whole, fun x inWidth y inHeight => ?_⟩
  · rw [savePpm_write saved, Pixmaps.Pixmap.read_write whole]
  · have found := pixel_eq sound x y
    rw [if_pos ⟨shown, inWidth, inHeight⟩] at found
    exact ⟨_, found, (pixmap_pixel sound shown inWidth inHeight).trans (rgb_channels sound found)⟩

/-- A run of one flip saves a file that reads back to its pixels. -/
theorem oneFlip_saved : ∃ final file pixmap, Runs.run step { gpu := { mem := some {} } } oneFlip = some final ∧
    final.display.savePpm = some file ∧ Pixmaps.Pixmap.read file = some pixmap ∧ pixmap.width = 2 := by
  have ran : ∃ final, Runs.run step { gpu := { mem := some {} } } oneFlip = some final ∧
      final.display.savePpm.isSome = true ∧ final.display.fbW = 2 :=
    ⟨_, rfl, by decide +kernel, by decide +kernel⟩
  obtain ⟨final, completed, saves, wide⟩ := ran
  obtain ⟨file, saved⟩ := Option.isSome_iff_exists.mp saves
  obtain ⟨pixmap, reads, width, -⟩ := saved_reads_back _ _ _ completed file saved
  exact ⟨final, file, pixmap, completed, saved, reads, width.trans wide⟩

open MemMap in
/-- **The checksum notices a byte.** When a flip has been presented and one byte of memory is then
written, the next flip is presented too, and the checksum stays the same exactly when the byte does
not back the frontbuffer or was there before.

Proof: each step of the hash is injective in the hash and in the byte. So two frames that differ in
one byte have different hashes. -/
theorem checksum_notices (display shown : XboxDisplay) (mem changed : MemMap) (qpc later addr : Nat) (byte : UInt8)
    (flips : display.present (some mem) qpc = (shown, true)) (wrote : mem.writeBytes addr [byte] = (changed, true)) :
    ∃ again, shown.present (some changed) later = (again, true) ∧ (again.checksum = shown.checksum ↔
      (mem.resolveAlias shown.fbGpa shown.fbBytes ≤ mem.resolveAlias addr 1 ∧
        mem.resolveAlias addr 1 < mem.resolveAlias shown.fbGpa shown.fbBytes + shown.fbBytes →
          mem.readBytes addr 1 = some [byte])) := by
  obtain ⟨registered, nonEmpty, readable, rfl⟩ := present_iff.mp flips
  obtain ⟨writable, stored⟩ := writeBytes_ok (congrArg Prod.snd wrote)
  rw [wrote] at stored
  obtain rfl : changed = _ := stored
  refine ⟨_, present_iff.mpr ⟨registered, nonEmpty, readable, rfl⟩, ?_⟩
  have again : ((display.flipped mem qpc).flipped (mem.withBytes (store mem.bytes (mem.resolveAlias addr 1) [byte]))
      later).checksum = (display.bytesIn (mem.withBytes (store mem.bytes (mem.resolveAlias addr 1) [byte]))).foldl
        fnvStep 1469598103934665603 := checksum_flipped nonEmpty
  rw [List.length_singleton, again, checksum_flipped nonEmpty, bytesIn_store,
    readBytes_one (isReadable_of_isWritable writable), Option.some.injEq, List.cons.injEq, and_iff_left rfl]
  show _ ↔ (mem.resolveAlias display.fbGpa display.fbBytes ≤ mem.resolveAlias addr 1 ∧ mem.resolveAlias addr 1 <
    mem.resolveAlias display.fbGpa display.fbBytes + display.fbBytes → mem.bytes (mem.resolveAlias addr 1) = byte)
  have long : (display.bytesIn mem).length = display.fbBytes := by rw [bytesIn, List.length_map, List.length_range]
  by_cases reaches : mem.resolveAlias display.fbGpa display.fbBytes ≤ mem.resolveAlias addr 1
  · rw [if_pos reaches]
    by_cases inside : mem.resolveAlias addr 1 - mem.resolveAlias display.fbGpa display.fbBytes < display.fbBytes
    · have listed : mem.resolveAlias addr 1 - mem.resolveAlias display.fbGpa display.fbBytes <
          (display.bytesIn mem).length := by rwa [long]
      have held : (display.bytesIn mem)[mem.resolveAlias addr 1 - mem.resolveAlias display.fbGpa display.fbBytes] =
          mem.bytes (mem.resolveAlias addr 1) := by
        simp only [bytesIn, List.getElem_map, List.getElem_range, Nat.add_sub_cancel' reaches]
      rw [foldl_set fnvStep_state fnvStep_input _ _ listed, held]
      exact ⟨fun same _ => same, fun same => same ⟨reaches, by omega⟩⟩
    · rw [List.set_eq_of_length_le (by omega)]
      exact iff_of_true rfl fun within => absurd within.2 (by omega)
  · rw [if_neg reaches]
    exact iff_of_true rfl fun within => absurd within.1 reaches

/-- A byte of the frontbuffer is overwritten between two flips. -/
theorem oneByte_noticed :
    ∃ shown again : XboxDisplay,
      shown.present (some (GpuStub.clearedPage.writeBytes 0x1007 [9]).1) 1 = (again, true) ∧
        again.checksum ≠ shown.checksum := by
  have flips : (twoPixels.present (some GpuStub.clearedPage) 0) =
      ((twoPixels.present (some GpuStub.clearedPage) 0).1, true) :=
    Prod.ext rfl (by decide +kernel)
  have wrote : GpuStub.clearedPage.writeBytes 0x1007 [9] = ((GpuStub.clearedPage.writeBytes 0x1007 [9]).1, true) :=
    Prod.ext rfl (by decide +kernel)
  obtain ⟨again, presented, noticed⟩ := checksum_notices twoPixels _ _ _ 0 1 0x1007 9 flips wrote
  refine ⟨_, again, presented, fun same => ?_⟩
  have overwritten := noticed.mp same (by decide +kernel)
  exact absurd overwritten (by decide +kernel)

end Screen

end SeriesxEmu
