import SeriesxEmu.GpuStub
import Mathlib.Data.List.Perm.Subperm

/-!
# Rejected packets

`commit_ok` asks whether the whole range of a packet can be written, and the two filling
packets then write it word by word. A window that contains one of the words but not the
range is looked through by the first question only, so a word in the middle can be refused
after the words before it are written. Otherwise a packet that is rejected leaves no trace.
-/

namespace SeriesxEmu

open MemMap

namespace MemMap

variable {mem : MemMap} {addr value words : Nat}

/-! ## Filling words -/

/-- A fill that cannot store its first word changes nothing. -/
theorem fillWords_refused (closed : mem.isWritable addr 4 = false) (words : Nat) :
    (mem.fillWords addr value words).1 = mem := by
  cases words with
  | zero => rfl
  | succ words =>
    have refused : mem.write32 addr value = (mem, false) := by
      have length : mem.isWritable addr (XbeRam.littleEndian value).length = false := closed
      rw [write32, writeBytes, length]
      rfl
    simp only [fillWords, refused]

/-- A fill stores one word and goes on. -/
theorem fillWords_succ (allowed : mem.isWritable addr 4 = true) (words : Nat) :
    mem.fillWords addr value (words + 1) =
      (mem.withBytes (store mem.bytes (mem.resolveAlias addr 4) (XbeRam.littleEndian value))).fillWords (addr + 4)
        value words := by
  have written : mem.write32 addr value =
      (mem.withBytes (store mem.bytes (mem.resolveAlias addr 4) (XbeRam.littleEndian value)), true) := by
    have length : mem.isWritable addr (XbeRam.littleEndian value).length = true := allowed
    rw [write32, writeBytes, length]
    rfl
  simp only [fillWords, written]

/-- A filling succeeds when each of its words can be written by itself. -/
theorem fillWords_ok : (mem.fillWords addr value words).2 = true ↔
    ∀ word, word < words → mem.isWritable (addr + 4 * word) 4 = true := by
  induction words generalizing mem addr with
  | zero => simp [fillWords]
  | succ words inductionHypothesis =>
    cases first : mem.isWritable addr 4 with
    | false =>
      have refused : (mem.fillWords addr value (words + 1)).2 = false := by
        have length : mem.isWritable addr (XbeRam.littleEndian value).length = false := first
        simp [fillWords, write32, writeBytes, length]
      rw [refused]
      constructor
      · exact fun impossible => absurd impossible (by decide)
      · intro each
        have opens := each 0 (Nat.succ_pos words)
        rw [Nat.mul_zero, Nat.add_zero, first] at opens
        exact opens
    | true =>
      rw [fillWords_succ first, inductionHypothesis]
      simp only [withBytes_isWritable]
      constructor
      · intro each word inside
        cases word with
        | zero => exact first
        | succ word =>
          have next := each word (Nat.lt_of_succ_lt_succ inside)
          have place : addr + 4 + 4 * word = addr + 4 * (word + 1) := by omega
          rwa [place] at next
      · intro each word inside
        have next := each (word + 1) (Nat.succ_lt_succ inside)
        have place : addr + 4 * (word + 1) = addr + 4 + 4 * word := by omega
        rwa [place] at next

/-- A byte that differs from one that is not written keeps differing from it. -/
theorem fillWords_differs {byte : UInt8} (absent : byte ∉ XbeRam.littleEndian value) (words : Nat) {address : Nat}
    (differs : mem.bytes address ≠ byte) : (mem.fillWords addr value words).1.bytes address ≠ byte := by
  induction words generalizing mem addr with
  | zero => exact differs
  | succ words inductionHypothesis =>
    cases first : mem.isWritable addr 4 with
    | false =>
      rw [fillWords_refused first]
      exact differs
    | true =>
      rw [fillWords_succ first]
      refine inductionHypothesis ?_
      simp only [withBytes_bytes, store]
      split
      · rename_i inside
        intro same
        have bound : address - mem.resolveAlias addr 4 < (XbeRam.littleEndian value).length := by omega
        rw [List.getD_eq_getElem?_getD, List.getElem?_eq_getElem bound, Option.getD_some] at same
        exact absent (same ▸ List.getElem_mem bound)
      · exact differs

/-- On memory that holds one byte everywhere, other than those of the word, a filling whose
first word is written leaves a trace. -/
theorem fillWords_trace {byte : UInt8} (absent : byte ∉ XbeRam.littleEndian value)
    (uniform : mem.bytes = fun _ => byte) (allowed : mem.isWritable addr 4 = true) (positive : 0 < words) :
    (mem.fillWords addr value words).1.bytes ≠ mem.bytes := by
  obtain ⟨rest, rfl⟩ : ∃ rest, words = rest + 1 := ⟨words - 1, by omega⟩
  intro same
  have here := congrFun same (mem.resolveAlias addr 4)
  rw [fillWords_succ allowed, uniform] at here
  refine fillWords_differs absent rest ?_ here
  simp only [withBytes_bytes, store]
  have inside : mem.resolveAlias addr 4 ≤ mem.resolveAlias addr 4 ∧
      mem.resolveAlias addr 4 < mem.resolveAlias addr 4 + (XbeRam.littleEndian value).length :=
    ⟨Nat.le_refl _, Nat.lt_add_of_pos_right (by simp [XbeRam.littleEndian])⟩
  rw [if_pos inside, Nat.sub_self]
  intro first
  refine absent ?_
  rw [← first]
  simp [XbeRam.littleEndian]

/-- Some byte is not among the four of a word. -/
theorem exists_absent (value : Nat) : ∃ byte : UInt8, byte ∉ XbeRam.littleEndian value := by
  by_contra every
  have all : ∀ byte : UInt8, byte ∈ XbeRam.littleEndian value := by simpa using every
  have distinct : ([0, 1, 2, 3, 4] : List UInt8).Nodup := by decide
  have shorter := (distinct.subperm (fun byte _ => all byte)).length_le
  simp [XbeRam.littleEndian] at shorter

end MemMap

namespace GpuStub

/-! ## What a packet leaves behind -/

/-- Memory, counters, fences and frames are as before. -/
structure Untraced (gpu next : GpuStub) : Prop where
  mem : next.mem = gpu.mem
  bytesFilled : next.bytesFilled = gpu.bytesFilled
  bytesCopied : next.bytesCopied = gpu.bytesCopied
  clears : next.clears = gpu.clears
  fenceSignalled : next.fenceSignalled = gpu.fenceSignalled
  fenceCompleted : next.fenceCompleted = gpu.fenceCompleted
  frameId : next.frameId = gpu.frameId
  lastFlipQpc : next.lastFlipQpc = gpu.lastFlipQpc

/-- The same front end on memory with other contents. -/
def withBytes (gpu : GpuStub) (contents : Nat → UInt8) : GpuStub :=
  { gpu with mem := gpu.mem.map (fun mem => mem.withBytes contents) }

/-- The packet passes the checks of a filling. -/
def admitsFilling (mem : MemMap) (pkt : XboxPacket) : Bool :=
  match pkt.type with
  | .fillMemory => admitsFill mem pkt
  | .clearRenderTarget => admitsClear mem pkt
  | _ => false

/-- When the first word of an admitted filling can be written by itself, so can the others. -/
def WholeOrNothing (mem : MemMap) (pkt : XboxPacket) : Prop :=
  admitsFilling mem pkt = true → mem.isWritable pkt.dst.gpa 4 = true →
    ∀ word, word < pkt.dst.size / 4 → mem.isWritable (pkt.dst.gpa + 4 * word) 4 = true

variable {gpu : GpuStub} {mem : MemMap} {pkt : XboxPacket} {qpc : Nat}

/-- A refusal leaves no trace. -/
theorem Untraced.refuse (gpu : GpuStub) : Untraced gpu gpu.refuse.1 := ⟨rfl, rfl, rfl, rfl, rfl, rfl, rfl, rfl⟩

/-- Counting and logging a packet leaves no trace. -/
theorem submit_untraced (gpu : GpuStub) (pkt : XboxPacket) (qpc : Nat) :
    Untraced gpu (gpu.submitXbox pkt qpc).1 ↔ Untraced gpu.counted (gpu.counted.execute pkt qpc).1 :=
  ⟨fun same => ⟨same.1, same.2, same.3, same.4, same.5, same.6, same.7, same.8⟩,
    fun same => ⟨same.1, same.2, same.3, same.4, same.5, same.6, same.7, same.8⟩⟩

/-- What an admitted filling writes, and how many words of it. -/
def filling (mem : MemMap) (pkt : XboxPacket) : MemMap × Bool :=
  mem.fillWords pkt.dst.gpa (if pkt.type = .fillMemory then pkt.pattern else clearWord pkt) (pkt.dst.size / 4)

/-- An admitted fill has whole words. -/
theorem admitsFilling_size (admitted : admitsFilling mem pkt = true) : 0 < pkt.dst.size / 4 ∧
    (pkt.dst.size + 3) / 4 = pkt.dst.size / 4 ∧ (pkt.type = .clearRenderTarget → clearSize pkt = pkt.dst.size) := by
  unfold admitsFilling at admitted
  split at admitted
  · rename_i type
    simp only [admitsFill, heapOk, Bool.and_eq_true, bne_iff_ne, beq_iff_eq] at admitted
    refine ⟨by omega, by omega, fun other => ?_⟩
    rw [type] at other
    cases other
  · simp only [admitsClear, heapOk, Bool.and_eq_true, bne_iff_ne, beq_iff_eq] at admitted
    have whole : clearSize pkt % 4 = 0 := by
      unfold clearSize
      omega
    refine ⟨by omega, by omega, fun _ => by omega⟩
  · cases admitted

/-- An admitted filling fails when one of its words does, and then it leaves what is written. -/
theorem execute_filling (qpc : Nat) (attached : gpu.mem = some mem) (admitted : admitsFilling mem pkt = true) :
    (gpu.execute pkt qpc).2 = (filling mem pkt).2 ∧ ((gpu.execute pkt qpc).2 = false →
      (gpu.execute pkt qpc).1 = (refuse { gpu with mem := some (filling mem pkt).1 }).1) := by
  obtain ⟨_, count, size⟩ := admitsFilling_size admitted
  cases type : pkt.type with
  | fillMemory =>
    have admits : admitsFill mem pkt = true := by simpa [admitsFilling, type] using admitted
    simp only [execute, type, fillMemory, attached, admits, ↓reduceIte, filling, count]
    split <;> rename_i outcome <;> simp [outcome, refuse]
  | clearRenderTarget =>
    have admits : admitsClear mem pkt = true := by simpa [admitsFilling, type] using admitted
    simp only [execute, type, clearRenderTarget, attached, admits, ↓reduceIte, filling, size type, count,
      reduceCtorEq]
    split <;> rename_i outcome <;> simp [outcome, refuse]
  | _ => simp [admitsFilling, type] at admitted

/-- A failed copy leaves no trace. -/
theorem copyMemory_untraced (failed : (gpu.copyMemory pkt).2 = false) : Untraced gpu (gpu.copyMemory pkt).1 := by
  unfold copyMemory at failed ⊢
  cases attached : gpu.mem with
  | none => exact Untraced.refuse gpu
  | some mem =>
    simp only [attached] at failed ⊢
    cases admitted : admitsCopy mem pkt with
    | false => exact Untraced.refuse gpu
    | true =>
      simp only [admitted, ↓reduceIte] at failed ⊢
      cases read : mem.readBytes pkt.src.gpa pkt.src.size with
      | none => exact Untraced.refuse gpu
      | some bytes =>
        simp only [read] at failed ⊢
        cases allowed : mem.isWritable pkt.dst.gpa bytes.length with
        | true => simp [writeBytes, allowed] at failed
        | false =>
          have same : ({ gpu with mem := some mem } : GpuStub) = gpu := by rw [← attached]
          simp only [writeBytes, allowed, Bool.false_eq_true, ↓reduceIte, same]
          exact Untraced.refuse gpu

/-- A packet that is rejected without having been admitted to a filling leaves no trace. -/
theorem execute_other (unfilled : ∀ mem, gpu.mem = some mem → admitsFilling mem pkt = false)
    (failed : (gpu.execute pkt qpc).2 = false) : Untraced gpu (gpu.execute pkt qpc).1 := by
  cases type : pkt.type with
  | nop => simp [execute, type] at failed
  | flip => simp [execute, type] at failed
  | timestamp => simp [execute, type] at failed
  | other value =>
    simp only [execute, type]
    exact ⟨rfl, rfl, rfl, rfl, rfl, rfl, rfl, rfl⟩
  | fenceSignal =>
    simp only [execute, type, fenceSignal] at failed ⊢
    split at failed
    · cases failed
    · rename_i regression
      rw [if_neg regression]
      exact Untraced.refuse gpu
  | copyMemory =>
    simp only [execute, type] at failed ⊢
    exact copyMemory_untraced failed
  | fillMemory =>
    simp only [execute, type, fillMemory]
    cases attached : gpu.mem with
    | none => exact Untraced.refuse gpu
    | some mem =>
      have refused : admitsFill mem pkt = false := by simpa [admitsFilling, type] using unfilled mem attached
      simp only [refused, Bool.false_eq_true, ↓reduceIte]
      exact Untraced.refuse gpu
  | clearRenderTarget =>
    simp only [execute, type, clearRenderTarget]
    cases attached : gpu.mem with
    | none => exact Untraced.refuse gpu
    | some mem =>
      have refused : admitsClear mem pkt = false := by simpa [admitsFilling, type] using unfilled mem attached
      simp only [refused, Bool.false_eq_true, ↓reduceIte]
      exact Untraced.refuse gpu

/-- An admitted filling on other contents of the memory. -/
theorem submit_filling (qpc : Nat) (attached : gpu.mem = some mem) (admitted : admitsFilling mem pkt = true)
    (contents : Nat → UInt8) :
    ((gpu.withBytes contents).submitXbox pkt qpc).2 = (filling (mem.withBytes contents) pkt).2 ∧
      (((gpu.withBytes contents).submitXbox pkt qpc).2 = false →
        (Untraced (gpu.withBytes contents) ((gpu.withBytes contents).submitXbox pkt qpc).1 ↔
          (filling (mem.withBytes contents) pkt).1 = mem.withBytes contents)) := by
  have contained : (gpu.withBytes contents).counted.mem = some (mem.withBytes contents) := by
    simp [counted, withBytes, attached]
  obtain ⟨result, left⟩ := execute_filling qpc contained admitted
  refine ⟨result, fun failed => ?_⟩
  rw [submit_untraced, left failed]
  constructor
  · intro same
    have kept := same.mem
    rw [contained] at kept
    exact Option.some.inj kept
  · intro same
    exact ⟨(congrArg some same).trans contained.symm, rfl, rfl, rfl, rfl, rfl, rfl, rfl⟩

/-- **Rejected packets.** On every contents of the memory a rejected packet leaves no trace,
if and only if an admitted filling whose first word can be written can write all of them.

Proof: a fill fails at the first word that cannot be written, and has stored those before it.
Memory full of a byte that the pattern does not have shows them. -/
theorem rejected_untraced_iff (gpu : GpuStub) (pkt : XboxPacket) (qpc : Nat) :
    (∀ contents, ((gpu.withBytes contents).submitXbox pkt qpc).2 = false →
      Untraced (gpu.withBytes contents) ((gpu.withBytes contents).submitXbox pkt qpc).1) ↔
    ∀ mem, gpu.mem = some mem → WholeOrNothing mem pkt := by
  constructor
  · intro untraced mem attached admitted first word inside
    -- Memory that holds a byte outside the word everywhere shows what was written.
    obtain ⟨byte, absent⟩ := exists_absent (if pkt.type = .fillMemory then pkt.pattern else clearWord pkt)
    by_contra closed
    have fails : (filling (mem.withBytes (fun _ => byte)) pkt).2 = false := by
      rw [← Bool.not_eq_true, filling, fillWords_ok]
      exact fun each => closed (each word inside)
    obtain ⟨result, traced⟩ := submit_filling qpc attached admitted (fun _ => byte)
    have kept := (traced (result.trans fails)).mp (untraced _ (result.trans fails))
    have uniform : (mem.withBytes (fun _ => byte)).bytes = fun _ => byte := rfl
    have opens : (mem.withBytes (fun _ => byte)).isWritable pkt.dst.gpa 4 = true := first
    exact fillWords_trace absent uniform opens (admitsFilling_size admitted).1 (congrArg MemMap.bytes kept)
  · intro whole contents failed
    by_cases filled : ∃ mem, gpu.mem = some mem ∧ admitsFilling mem pkt = true
    · obtain ⟨mem, attached, admitted⟩ := filled
      obtain ⟨result, traced⟩ := submit_filling qpc attached admitted contents
      refine (traced failed).mpr (fillWords_refused ?_ _)
      -- If the first word could be written, all could, and the filling would succeed.
      rw [← Bool.not_eq_true]
      intro first
      rw [result, ← Bool.not_eq_true, filling, fillWords_ok] at failed
      exact failed (whole mem attached admitted first)
    · rw [submit_untraced]
      refine execute_other (fun mem attached => ?_) failed
      simp only [counted, withBytes, Option.map_eq_some_iff] at attached
      obtain ⟨before, found, rfl⟩ := attached
      rw [← Bool.not_eq_true]
      exact fun admitted => filled ⟨before, found, admitted⟩

/-- One committed page, whose second word is a window on a page that is not committed. -/
def windowedPage : MemMap :=
  ((Runs.run MemMap.step {} [.reserve, .commitPage 0x1000, .aliasMap 0x1004 0x5000 4]).getD {})

/-- A packet that fills two words. -/
def fillsTwoWords : XboxPacket :=
  { type := .fillMemory, dst := { gpa := 0x1000, size := 8 }, pattern := 0x01010101 }

/-- The filling is rejected at the second word, and the first one is written. -/
theorem fillsTwoWords_traced : ¬ ∀ (gpu : GpuStub) (pkt : XboxPacket) (qpc : Nat),
    (gpu.submitXbox pkt qpc).2 = false → Untraced gpu (gpu.submitXbox pkt qpc).1 := by
  intro untraced
  have kept := (untraced { mem := some windowedPage } fillsTwoWords 0 (by decide +kernel)).mem
  have first := congrArg (Option.map (fun mem => mem.bytes 0x1000)) kept
  exact absurd first (by decide +kernel)

end GpuStub

end SeriesxEmu
