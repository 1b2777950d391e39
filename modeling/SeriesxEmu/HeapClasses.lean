import SeriesxEmu.GpuStub

/-!
# Heap classes

An operand declares the pool that its range lies in, and `heap_ok` decides from the two ends
of the range. For the fast pool that is exact. For the slow pool the check is the negation of
the other one, which a range from the fast pool into the slow one also meets.
-/

namespace SeriesxEmu

/-- The bytes of the pool that a class declares. -/
def XboxHeapClass.Pool : XboxHeapClass → Nat → Prop
  | .gpuOptimal, byte => byte < kFastSize
  | .standard, byte => kFastSize ≤ byte ∧ byte < kTotalSize

namespace XboxGpuAddr

/-- The byte lies in the range. -/
def Covers (addr : XboxGpuAddr) (byte : Nat) : Prop := addr.gpa ≤ byte ∧ byte < addr.gpa + addr.size

/-- The range has bytes on both sides of the boundary between the pools. -/
def Straddles (addr : XboxGpuAddr) : Prop := addr.gpa < kFastSize ∧ kFastSize < addr.gpa + addr.size

/-- Every byte of the range lies in the declared pool. -/
def InPool (addr : XboxGpuAddr) : Prop := ∀ byte, addr.Covers byte → addr.heap.Pool byte

end XboxGpuAddr

/-- The ranges that a packet works on. -/
def XboxPacket.operands (pkt : XboxPacket) : List XboxGpuAddr :=
  match pkt.type with
  | .fillMemory | .clearRenderTarget => [pkt.dst]
  | .copyMemory => [pkt.dst, pkt.src]
  | _ => []

namespace GpuStub

open MemMap

variable {gpu : GpuStub} {addr : XboxGpuAddr} {pkt : XboxPacket} {qpc : Nat}

/-! ## The check of one range -/

/-- What `heap_ok` decides: a range of the slow class only has to end in the slow pool. -/
theorem heapOk_iff (addr : XboxGpuAddr) :
    heapOk addr = true ↔ 0 < addr.size ∧ addr.gpa + addr.size ≤ kTotalSize ∧
      match addr.heap with
      | .gpuOptimal => addr.gpa + addr.size ≤ kFastSize
      | .standard => kFastSize < addr.gpa + addr.size := by
  have total : kTotalSize = kFastSize + 6 * 2 ^ 30 := rfl
  cases class_ : addr.heap with
  | gpuOptimal =>
    simp only [heapOk, class_, inRange, isFast, Bool.and_eq_true, bne_iff_ne, decide_eq_true_eq]
    omega
  | standard =>
    simp only [heapOk, class_, inRange, isFast, Bool.and_eq_true, bne_iff_ne, decide_eq_true_eq,
      Bool.not_eq_true', Bool.and_eq_false_iff, decide_eq_false_iff_not]
    omega

/-- A range that passes the check lies in its pool, unless it is of the slow class and straddles. -/
theorem inPool_iff (passed : heapOk addr = true) :
    addr.InPool ↔ (addr.heap = .standard → ¬ addr.Straddles) := by
  obtain ⟨nonempty, inside, ending⟩ := (heapOk_iff addr).mp passed
  unfold XboxGpuAddr.InPool XboxGpuAddr.Covers XboxGpuAddr.Straddles
  cases class_ : addr.heap with
  | gpuOptimal =>
    rw [class_] at ending
    constructor
    · intro _ slow
      cases slow
    · intro _ byte covered
      exact lt_of_lt_of_le covered.2 ending
  | standard =>
    rw [class_] at ending
    constructor
    · intro pool _ straddles
      exact absurd (pool addr.gpa ⟨Nat.le_refl _, by omega⟩).1 (Nat.not_le.mpr straddles.1)
    · intro apart byte covered
      have high : kFastSize ≤ addr.gpa := by
        by_contra low
        exact apart rfl ⟨Nat.not_le.mp low, ending⟩
      exact ⟨Nat.le_trans high covered.1, Nat.lt_of_lt_of_le covered.2 inside⟩

/-! ## Accepted packets -/

/-- A packet is accepted only if each of its operands has passed the check. -/
theorem accepted_operands (accepted : (gpu.submitXbox pkt qpc).2 = true) :
    ∀ operand ∈ pkt.operands, heapOk operand = true := by
  have executed : (gpu.counted.execute pkt qpc).2 = true := accepted
  unfold XboxPacket.operands
  cases type : pkt.type with
  | fillMemory =>
    simp only [execute, type, fillMemory] at executed
    cases attached : gpu.counted.mem with
    | none => simp [attached, refuse] at executed
    | some mem =>
      cases admitted : admitsFill mem pkt with
      | false => simp [attached, admitted, refuse] at executed
      | true =>
        simp only [admitsFill, Bool.and_eq_true] at admitted
        simpa using admitted.1.1
  | clearRenderTarget =>
    simp only [execute, type, clearRenderTarget] at executed
    cases attached : gpu.counted.mem with
    | none => simp [attached, refuse] at executed
    | some mem =>
      cases admitted : admitsClear mem pkt with
      | false => simp [attached, admitted, refuse] at executed
      | true =>
        simp only [admitsClear, Bool.and_eq_true] at admitted
        simpa using admitted.1.2
  | copyMemory =>
    simp only [execute, type, copyMemory] at executed
    cases attached : gpu.counted.mem with
    | none => simp [attached, refuse] at executed
    | some mem =>
      cases admitted : admitsCopy mem pkt with
      | false => simp [attached, admitted, refuse] at executed
      | true =>
        simp only [admitsCopy, Bool.and_eq_true] at admitted
        simpa using ⟨admitted.1.1.1.1.2, admitted.1.1.1.2⟩
  | _ => simp

/-- **Heap classes.** Every operand of an accepted packet lies in the pool that it declares, if and
only if none that declares the slow pool straddles the two.

Proof: the check of an operand of the fast pool asks for that pool. That of the slow pool only
asks for a place outside of the fast one, so it passes the operands that lie in both. -/
theorem heap_classes_iff (gpu : GpuStub) (pkt : XboxPacket) (qpc : Nat)
    (accepted : (gpu.submitXbox pkt qpc).2 = true) :
    (∀ operand ∈ pkt.operands, operand.InPool) ↔
      ∀ operand ∈ pkt.operands, operand.heap = .standard → ¬ operand.Straddles := by
  have passed := accepted_operands accepted
  constructor
  · intro pools operand named
    exact (inPool_iff (passed operand named)).mp (pools operand named)
  · intro apart operand named
    exact (inPool_iff (passed operand named)).mpr (apart operand named)

/-- A page on each side of the boundary. -/
def boundaryPages : MemMap :=
  (Runs.run MemMap.step {} [.reserve, .commitPage (kFastSize - 0x1000), .commitPage kFastSize]).getD {}

/-- Eight bytes of the slow class from the address. -/
def fillsStandard (gpa : Nat) : XboxPacket :=
  { type := .fillMemory, dst := { gpa, heap := .standard, size := 8 }, pattern := 0x01010101 }

/-- The filling starts four bytes below the slow pool, and is accepted. -/
theorem fillsStandard_straddles : ¬ ∀ (gpu : GpuStub) (pkt : XboxPacket) (qpc : Nat),
    (gpu.submitXbox pkt qpc).2 = true → ∀ operand ∈ pkt.operands, operand.InPool := by
  intro pools
  have pool := pools { mem := some boundaryPages } (fillsStandard (kFastSize - 4)) 0 (by decide +kernel) _
    (List.mem_singleton_self _) (kFastSize - 4) ⟨Nat.le_refl _, by decide⟩
  exact absurd pool.1 (by decide)

/-- A fill of the standard heap behind the boundary is accepted. -/
theorem fillsStandard_inPool :
    (GpuStub.submitXbox { mem := some boundaryPages } (fillsStandard kFastSize) 0).2 = true ∧
      ∀ operand ∈ (fillsStandard kFastSize).operands, operand.InPool := by
  have accepted : (GpuStub.submitXbox { mem := some boundaryPages } (fillsStandard kFastSize) 0).2 = true := by
    decide +kernel
  refine ⟨accepted, (heap_classes_iff _ _ 0 accepted).mpr ?_⟩
  intro operand named _ straddles
  rw [List.mem_singleton.mp named] at straddles
  exact absurd straddles.1 (Nat.lt_irrefl kFastSize)

end GpuStub

end SeriesxEmu
