import SeriesxEmu.HeapClasses
import SeriesxEmu.RejectedPackets

/-!
# Render targets

`ClearRenderTarget` compares the declared size with the product of two 32-bit dimensions and
the four bytes of a pixel, taken in 64 bits. The loop then runs over that product. Where the
exact product does not fit in 64 bits a target of 2^62 pixels or more passes for a small one.
-/

namespace SeriesxEmu

namespace MemMap

variable {mem : MemMap} {addr value words : Nat}

/-- Without windows an address stays as it is. -/
theorem resolve_unaliased (plain : mem.aliases = []) (addr size : Nat) : mem.resolveAlias addr size = addr := by
  rw [resolveAlias, plain, List.find?_nil]

/-- A word stored over the bytes. -/
theorem store_word (bytes : Nat → UInt8) (addr value address : Nat) :
    store bytes addr (XbeRam.littleEndian value) address =
      if addr ≤ address ∧ address < addr + 4 then (XbeRam.littleEndian value).getD (address - addr) 0
      else bytes address := rfl

/-- The bytes after a filling: each word of the range holds the value. -/
def filled (bytes : Nat → UInt8) (addr value words : Nat) : Nat → UInt8 := fun address =>
  if addr ≤ address ∧ address < addr + 4 * words then
    (XbeRam.littleEndian value).getD ((address - addr) % 4) 0
  else bytes address

/-- The first word, and then the others. -/
theorem filled_succ (bytes : Nat → UInt8) (addr value words : Nat) :
    filled (store bytes addr (XbeRam.littleEndian value)) (addr + 4) value words =
      filled bytes addr value (words + 1) := by
  funext address
  simp only [filled, store_word]
  by_cases later : addr + 4 ≤ address ∧ address < addr + 4 + 4 * words
  · have inside : addr ≤ address ∧ address < addr + 4 * (words + 1) := by omega
    have place : (address - (addr + 4)) % 4 = (address - addr) % 4 := by omega
    rw [if_pos later, if_pos inside, place]
  · rw [if_neg later]
    by_cases first : addr ≤ address ∧ address < addr + 4
    · have inside : addr ≤ address ∧ address < addr + 4 * (words + 1) := by omega
      have place : (address - addr) % 4 = address - addr := Nat.mod_eq_of_lt (by omega)
      rw [if_pos first, if_pos inside, place]
    · have outside : ¬ (addr ≤ address ∧ address < addr + 4 * (words + 1)) := by omega
      rw [if_neg first, if_neg outside]

/-- Without windows a filling that succeeds stores its words and nothing else. -/
theorem fillWords_filled (plain : mem.aliases = []) (ok : (mem.fillWords addr value words).2 = true) :
    (mem.fillWords addr value words).1 = mem.withBytes (filled mem.bytes addr value words) := by
  induction words generalizing mem addr with
  | zero =>
    have same : filled mem.bytes addr value 0 = mem.bytes := by
      funext address
      exact if_neg (by omega)
    rw [same]
    rfl
  | succ words inductionHypothesis =>
    have opens : mem.isWritable addr 4 = true := by
      simpa using (fillWords_ok.mp ok) 0 (Nat.succ_pos words)
    rw [fillWords_succ opens, resolve_unaliased plain] at ok ⊢
    have still : (mem.withBytes (store mem.bytes addr (XbeRam.littleEndian value))).aliases = [] := plain
    rw [inductionHypothesis still ok, withBytes_bytes, filled_succ]
    rfl

/-- A word of a filling is read back. -/
theorem filled_read (plain : mem.aliases = []) (ok : (mem.fillWords addr value words).2 = true) {word : Nat}
    (inside : word < words) :
    (mem.fillWords addr value words).1.readBytes (addr + 4 * word) 4 = some (XbeRam.littleEndian value) := by
  have opens := isReadable_of_isWritable (fillWords_ok.mp ok word inside)
  have bytes : ∀ offset, offset < 4 → filled mem.bytes addr value words (addr + 4 * word + offset) =
      (XbeRam.littleEndian value).getD offset 0 := by
    intro offset within
    have range : addr ≤ addr + 4 * word + offset ∧ addr + 4 * word + offset < addr + 4 * words := by omega
    have place : (addr + 4 * word + offset - addr) % 4 = offset := by omega
    simp only [filled, if_pos range, place]
  rw [fillWords_filled plain ok, readBytes, withBytes_isReadable, if_pos opens, withBytes_resolveAlias,
    resolve_unaliased plain, withBytes_bytes]
  have four : List.range 4 = [0, 1, 2, 3] := rfl
  simp only [four, List.map_cons, List.map_nil, bytes 0 (by decide), bytes 1 (by decide), bytes 2 (by decide),
    bytes 3 (by decide)]
  rfl

end MemMap

namespace GpuStub

open MemMap

variable {gpu : GpuStub} {pkt : XboxPacket} {qpc : Nat}

/-- The four bytes of a pixel. -/
def pixel (pkt : XboxPacket) : List UInt8 :=
  let (red, green, blue, alpha) := pkt.color
  [red, green, blue, alpha]

/-- The exact size of the target, four bytes a pixel. -/
def targetSize (pkt : XboxPacket) : Nat := pkt.rtWidth * pkt.rtHeight * 4

/-- The packet has cleared its whole target and nothing else. Pixels and bytes are looked at where
no window is mapped; the counter is a 64-bit word. -/
structure ClearsTarget (pkt : XboxPacket) (before after : GpuStub) : Prop where
  size : targetSize pkt = pkt.dst.size
  filled : after.bytesFilled = (before.bytesFilled + targetSize pkt) % 2 ^ 64
  cleared : ∀ mem, before.mem = some mem → mem.aliases = [] → ∃ cleared, after.mem = some cleared ∧
    (∀ place, place < pkt.rtWidth * pkt.rtHeight →
      cleared.readBytes (pkt.dst.gpa + 4 * place) 4 = some (pixel pkt)) ∧
    ∀ byte, ¬ pkt.dst.Covers byte → cleared.bytes byte = mem.bytes byte

/-- The colour is stored byte by byte. -/
theorem littleEndian_clearWord (pkt : XboxPacket) : XbeRam.littleEndian (clearWord pkt) = pixel pkt := by
  have byte : ∀ (value : Nat) (colour : UInt8), value % 2 ^ 8 = colour.toNat → UInt8.ofNat value = colour := by
    intro value colour same
    rw [← UInt8.toNat_inj, UInt8.toNat_ofNat', same]
  obtain ⟨type, dst, src, pattern, ⟨red, green, blue, alpha⟩, rtWidth, rtHeight, fenceValue⟩ := pkt
  have low := red.toNat_lt
  have second := green.toNat_lt
  have third := blue.toNat_lt
  have high := alpha.toNat_lt
  simp only [XbeRam.littleEndian, clearWord, pixel]
  rw [byte _ red (by omega), byte _ green (by omega), byte _ blue (by omega), byte _ alpha (by omega)]

/-- What an accepted clear has checked and done. -/
theorem clear_accepted (type : pkt.type = .clearRenderTarget) (accepted : (gpu.submitXbox pkt qpc).2 = true) :
    ∃ mem, gpu.mem = some mem ∧ admitsClear mem pkt = true ∧
      (mem.fillWords pkt.dst.gpa (clearWord pkt) ((clearSize pkt + 3) / 4)).2 = true ∧
      (gpu.submitXbox pkt qpc).1.mem =
        some (mem.fillWords pkt.dst.gpa (clearWord pkt) ((clearSize pkt + 3) / 4)).1 ∧
      (gpu.submitXbox pkt qpc).1.bytesFilled = (gpu.bytesFilled + clearSize pkt) % 2 ^ 64 := by
  simp only [submitXbox, execute, type, clearRenderTarget, counted] at accepted ⊢
  cases attached : gpu.mem with
  | none => simp [attached, refuse] at accepted
  | some mem =>
    simp only [attached] at accepted ⊢
    cases admitted : admitsClear mem pkt with
    | false => simp [admitted, refuse] at accepted
    | true =>
      simp only [admitted, ↓reduceIte] at accepted ⊢
      rcases outcome : mem.fillWords pkt.dst.gpa (clearWord pkt) ((clearSize pkt + 3) / 4) with ⟨cleared, ok⟩
      rw [outcome] at accepted
      cases ok with
      | false => simp [refuse] at accepted
      | true => exact ⟨mem, rfl, admitted, by rw [outcome], by rw [outcome], rfl⟩

/-- **Render targets.** An accepted clear covers exactly its target, if and only if the size of the
target fits in 64 bits.

Proof: the size of the target is reduced to 64 bits, and the fill covers as many words as that size
asks for. -/
theorem clears_target_iff (gpu : GpuStub) (pkt : XboxPacket) (qpc : Nat) (type : pkt.type = .clearRenderTarget)
    (accepted : (gpu.submitXbox pkt qpc).2 = true) :
    ClearsTarget pkt gpu (gpu.submitXbox pkt qpc).1 ↔ targetSize pkt < 2 ^ 64 := by
  obtain ⟨mem, attached, admitted, ok, after, bytesFilled⟩ := clear_accepted type accepted
  simp only [admitsClear, Bool.and_eq_true, bne_iff_ne, beq_iff_eq] at admitted
  obtain ⟨⟨⟨_, declared⟩, heap⟩, _⟩ := admitted
  have inside := ((heapOk_iff pkt.dst).mp heap).2.1
  have small : kTotalSize < 2 ^ 64 := by decide
  constructor
  · intro clears
    rw [clears.size]
    omega
  · intro fits
    have exact_ : clearSize pkt = targetSize pkt := Nat.mod_eq_of_lt fits
    have words : (clearSize pkt + 3) / 4 = pkt.rtWidth * pkt.rtHeight := by
      rw [exact_, targetSize]
      omega
    have size : pkt.dst.size = 4 * (pkt.rtWidth * pkt.rtHeight) := by
      rw [← declared, exact_, targetSize, Nat.mul_comm]
    rw [words] at ok after
    constructor
    · exact exact_.symm.trans declared
    · rw [bytesFilled, exact_]
    · intro before same plain
      obtain rfl := Option.some.inj (attached.symm.trans same)
      refine ⟨_, after, fun place inside => ?_, fun byte outside => ?_⟩
      · rw [filled_read plain ok inside, littleEndian_clearWord]
      · rw [fillWords_filled plain ok, withBytes_bytes]
        refine if_neg (fun covered => outside ?_)
        rw [XboxGpuAddr.Covers, size]
        exact covered

/-- A committed page. -/
def clearedPage : MemMap := (Runs.run MemMap.step {} [.reserve, .commitPage 0x1000]).getD {}

/-- A clear of a target in that page. -/
def clearsFrom (rtWidth rtHeight size : Nat) : XboxPacket :=
  { type := .clearRenderTarget, dst := { gpa := 0x1000, size }, color := (1, 2, 3, 4), rtWidth, rtHeight }

/-- The product of these dimensions is 2^62 + 1, and a target of four bytes is accepted. -/
theorem hugeTarget_accepted : ¬ ∀ (gpu : GpuStub) (pkt : XboxPacket) (qpc : Nat), pkt.type = .clearRenderTarget →
    pkt.rtWidth < 2 ^ 32 → pkt.rtHeight < 2 ^ 32 → pkt.dst.size < 2 ^ 32 → (gpu.submitXbox pkt qpc).2 = true →
    ClearsTarget pkt gpu (gpu.submitXbox pkt qpc).1 := by
  intro clears
  have covered := clears { mem := some clearedPage } (clearsFrom 2147418113 2147549185 4) 0 rfl (by decide) (by decide)
    (by decide) (by decide +kernel)
  exact absurd covered.size (by decide)

/-- One clear fills its target. -/
theorem clearsFrom_target :
    (GpuStub.submitXbox { mem := some clearedPage } (clearsFrom 4 2 32) 0).2 = true ∧
      ClearsTarget (clearsFrom 4 2 32) { mem := some clearedPage }
        (GpuStub.submitXbox { mem := some clearedPage } (clearsFrom 4 2 32) 0).1 := by
  have accepted : (GpuStub.submitXbox { mem := some clearedPage } (clearsFrom 4 2 32) 0).2 = true := by
    decide +kernel
  exact ⟨accepted, (clears_target_iff _ _ 0 rfl accepted).mpr (by decide)⟩

end GpuStub

end SeriesxEmu
