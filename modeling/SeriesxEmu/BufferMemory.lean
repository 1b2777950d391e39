import SeriesxEmu.DeviceSelection

/-!
# The memory of buffers

A buffer gets memory of a type that it admits, and of the kind of its pool whenever it admits one. No
failure on the way leaks, and a buffer that was handed out is given back whole.
-/

namespace SeriesxEmu

section admitted
variable {typeBits : Nat} {wanted : MemoryType → Bool} {types : List MemoryType}

/-- The loops over the memory types, from some index on. -/
theorem firstAdmitted_some {index chosen : Nat} (found : firstAdmitted typeBits wanted types index = some chosen) :
    index ≤ chosen ∧ admits typeBits chosen = true ∧ TypeAt types (chosen - index) wanted := by
  induction types generalizing index with
  | nil => cases found
  | cons type rest inductionHypothesis =>
    rw [firstAdmitted] at found
    split at found
    · rename_i here
      obtain rfl := Option.some.inj found
      rw [Bool.and_eq_true] at here
      exact ⟨Nat.le_refl _, here.1, type, by rw [Nat.sub_self]; rfl, here.2⟩
    · obtain ⟨beyond, admitted, other, placed, suited⟩ := inductionHypothesis found
      refine ⟨by omega, admitted, other, ?_, suited⟩
      have place : chosen - index = chosen - (index + 1) + 1 := by omega
      rw [place, List.getElem?_cons_succ]
      exact placed

/-- The search fails when no admitted type is wanted. -/
theorem firstAdmitted_none {index : Nat} : firstAdmitted typeBits wanted types index = none ↔
    ∀ place < types.length, admits typeBits (index + place) = true → ∀ type, types[place]? = some type →
      wanted type = false := by
  induction types generalizing index with
  | nil => exact iff_of_true rfl fun place inside => absurd inside (Nat.not_lt_zero place)
  | cons type rest inductionHypothesis =>
    rw [firstAdmitted]
    constructor
    · intro missing place inside admitted other placed
      split at missing
      · cases missing
      · rename_i not
        cases place with
        | zero =>
          obtain rfl := Option.some.inj placed
          rw [Nat.add_zero] at admitted
          simpa [admitted] using not
        | succ place =>
          rw [← Nat.add_assoc, Nat.add_right_comm] at admitted
          exact inductionHypothesis.mp missing place (Nat.lt_of_succ_lt_succ inside) admitted other placed
    · intro nothing
      have here := nothing 0 (Nat.zero_lt_succ _)
      rw [Nat.add_zero] at here
      have not : ¬ (admits typeBits index && wanted type) = true := by
        rw [Bool.and_eq_true]
        rintro ⟨admitted, suited⟩
        rw [here admitted type rfl] at suited
        cases suited
      rw [if_neg not]
      refine inductionHypothesis.mpr fun place inside admitted other placed => ?_
      exact nothing (place + 1) (Nat.succ_lt_succ inside) (by rwa [← Nat.add_assoc, Nat.add_right_comm]) other placed

end admitted

/-- Some memory type of this kind is admitted. -/
def Admits (types : List MemoryType) (typeBits : Nat) (wanted : MemoryType → Bool) : Prop :=
  ∃ index, admits typeBits index = true ∧ TypeAt types index wanted

/-- So it fails exactly when the driver's bits admit no wanted type. -/
theorem firstAdmitted_iff {typeBits : Nat} {wanted : MemoryType → Bool} {types : List MemoryType} :
    firstAdmitted typeBits wanted types 0 = none ↔ ¬ Admits types typeBits wanted := by
  rw [firstAdmitted_none]
  constructor
  · rintro nothing ⟨index, admitted, type, placed, suited⟩
    have inside := (List.getElem?_eq_some_iff.mp placed).1
    rw [nothing index inside (by rwa [Nat.zero_add]) type placed] at suited
    cases suited
  · intro noneAdmitted place _ admitted type placed
    rw [Nat.zero_add] at admitted
    cases suited : wanted type with
    | false => rfl
    | true => exact absurd ⟨place, admitted, type, placed, suited⟩ noneAdmitted

/-- `pick_mem_type` finds a type when one is admitted, of the pool's kind when one of that kind is
admitted. -/
theorem pickMemType_spec {d : VulkanDev} {types : List MemoryType} (ready : d.Ready types) (typeBits : Nat)
    (fast : Bool) :
    match pickMemType d types typeBits fast with
    | none => ¬ Admits types typeBits (fun _ => true)
    | some index => admits typeBits index = true ∧ TypeAt types index (fun _ => true) ∧
        (Admits types typeBits (suits fast) → TypeAt types index (suits fast)) := by
  have any {index : Nat} {wanted : MemoryType → Bool} (placed : TypeAt types index wanted) :
      TypeAt types index (fun _ => true) := by
    obtain ⟨type, found, -⟩ := placed
    exact ⟨type, found, rfl⟩
  have pool : TypeAt types (if fast then d.fastType else d.slowType) (suits fast) := by
    cases fast with
    | true => exact ready.fast
    | false => exact ready.slow
  have found {wanted : MemoryType → Bool} {index : Nat} (here : firstAdmitted typeBits wanted types 0 = some index) :
      admits typeBits index = true ∧ TypeAt types index wanted := by
    obtain ⟨-, admitted, placed⟩ := firstAdmitted_some here
    exact ⟨admitted, placed⟩
  rw [pickMemType]
  by_cases preferred : (if fast then d.fastType else d.slowType) ≠ kNoType ∧
      admits typeBits (if fast then d.fastType else d.slowType) = true
  · rw [if_pos (by simpa using preferred)]
    exact ⟨preferred.2, any pool, fun _ => pool⟩
  · rw [if_neg (by simpa using preferred)]
    cases own : firstAdmitted typeBits (suits fast) types 0 with
    | some index =>
      obtain ⟨admitted, placed⟩ := found own
      exact ⟨admitted, any placed, fun _ => placed⟩
    | none =>
      have noneAdmitted := firstAdmitted_iff.mp own
      rw [Option.none_or]
      cases visible : firstAdmitted typeBits (fun type => !fast && type.hostVisible) types 0 with
      | some index =>
        obtain ⟨admitted, placed⟩ := found visible
        exact ⟨admitted, any placed, fun suited => absurd suited noneAdmitted⟩
      | none =>
        rw [Option.none_or]
        cases last : firstAdmitted typeBits (fun _ => true) types 0 with
        | some index =>
          obtain ⟨admitted, placed⟩ := found last
          exact ⟨admitted, placed, fun suited => absurd suited noneAdmitted⟩
        | none => exact firstAdmitted_iff.mp last

/-! ## Buffers -/

section buffers
open Ledgers

/-- Everything that creating a buffer and destroying it, if there is one, does. -/
def createsAndDestroys (d : VulkanDev) (types : List MemoryType) (size : Nat) (fast : Bool) (answers : BufferAnswers) :
    List VkEvent :=
  (VulkanBuffer.create d types size fast answers).2 ++
    ((VulkanBuffer.create d types size fast answers).1.toList.flatMap (fun buffer => buffer.destroy.2))

/-- A bound buffer and its memory settle: both are created before they are used. -/
theorem bound_settles (buf mem : Nat) : Settles 0 [.create (VkObject.buffer buf), .create (.memory mem),
    .use (.buffer buf), .use (.memory mem)] (VkObject.memory mem ::ₘ VkObject.buffer buf ::ₘ 0) := by
  have here : VkObject.buffer buf ∈ VkObject.memory mem ::ₘ VkObject.buffer buf ::ₘ 0 :=
    Multiset.mem_cons_of_mem (Multiset.mem_cons_self _ _)
  have there : VkObject.memory mem ∈ VkObject.memory mem ::ₘ VkObject.buffer buf ::ₘ 0 := Multiset.mem_cons_self _ _
  exact (Settles.create _ _).append ((Settles.create _ _).append ((Settles.use here).append (Settles.use there)))

/-- **Buffers.** On a device that could be opened a buffer of some size is handed out exactly when
the driver makes the handles and some memory type is admitted. Its memory is admitted, and of the
pool's kind if any such type is admitted; whether or not there is a buffer, destroying it leaves
nothing behind.

Proof: by the first step of `create` that fails. The handles made before it are released on its
path, and those of a whole buffer by `destroy`. -/
theorem buffer_memory (opening : DeviceAnswers) (phys : PhysicalDevice) (inst dev pool : Nat)
    (opens : Opens opening phys inst dev pool) (few : phys.memoryTypes.length ≤ 32)
    (opened : (VulkanDev.init opening).2.2 = true) (size : Nat) (fast : Bool) (answers : BufferAnswers) :
    let d := (VulkanDev.init opening).1
    let types := phys.memoryTypes
    ((VulkanBuffer.create d types size fast answers).1.isSome = true ↔ size ≠ 0 ∧ answers.buf.isSome = true ∧
      answers.mem.isSome = true ∧ answers.bound = true ∧ Admits types answers.typeBits (fun _ => true)) ∧
      (∀ buffer, (VulkanBuffer.create d types size fast answers).1 = some buffer →
        buffer.valid = true ∧ buffer.size = size ∧ admits answers.typeBits buffer.memType = true ∧
          (Admits types answers.typeBits (suits fast) → TypeAt types buffer.memType (suits fast))) ∧
      Settles 0 (createsAndDestroys d types size fast answers) 0 := by
  intro d types
  have ready : d.Ready types := init_ready opens few opened
  have valid : d.valid = true := ready.valid
  have spec := pickMemType_spec ready answers.typeBits fast
  have once (buf : Nat) : Settles 0 [.create (VkObject.buffer buf), .destroy (.buffer buf)] 0 := settles_once _
  have refused (buffer : VulkanBuffer) (gone : (none : Option VulkanBuffer) = some buffer) : False := by cases gone
  rw [createsAndDestroys, VulkanBuffer.create]
  by_cases empty : size = 0
  · subst empty
    simp only [valid, Bool.not_true, Bool.false_or, beq_self_eq_true, if_true]
    refine ⟨iff_of_false Bool.false_ne_true fun whole => whole.1 rfl, fun buffer gone => (refused buffer gone).elim, ?_⟩
    exact Settles.nil 0
  · have nonEmpty : (!d.valid || size == 0) = false := by simp [valid, empty]
    simp only [nonEmpty, Bool.false_eq_true, if_false]
    cases made : answers.buf with
    | none =>
      refine ⟨iff_of_false Bool.false_ne_true ?_, fun buffer gone => (refused buffer gone).elim, Settles.nil 0⟩
      rintro ⟨-, handle, -⟩
      cases handle
    | some buf =>
      cases picked : pickMemType d types answers.typeBits fast with
      | none =>
        rw [picked] at spec
        refine ⟨iff_of_false Bool.false_ne_true ?_, fun buffer gone => (refused buffer gone).elim, once buf⟩
        rintro ⟨-, -, -, -, admitted⟩
        exact spec admitted
      | some memType =>
        rw [picked] at spec
        obtain ⟨admitted, placed, kind⟩ := spec
        cases allocated : answers.mem with
        | none =>
          refine ⟨iff_of_false Bool.false_ne_true ?_, fun buffer gone => (refused buffer gone).elim, once buf⟩
          rintro ⟨-, -, handle, -⟩
          cases handle
        | some mem =>
          have whole := bound_settles buf mem
          cases bound : answers.bound with
          | false =>
            refine ⟨iff_of_false Bool.false_ne_true ?_, fun buffer gone => (refused buffer gone).elim, ?_⟩
            · rintro ⟨-, -, -, bad, -⟩
              cases bad
            · exact whole.append (Settles.releases [VkObject.memory mem, .buffer buf])
          | true =>
            refine ⟨iff_of_true rfl ⟨empty, rfl, rfl, rfl, memType, admitted, placed⟩, ?_, ?_⟩
            · intro buffer handed
              obtain rfl := Option.some.inj handed
              exact ⟨rfl, rfl, admitted, kind⟩
            · rw [Multiset.cons_swap] at whole
              exact whole.append (Settles.releases [VkObject.buffer buf, .memory mem])

/-- The device that has been opened is ready, and its slow pool takes a buffer. -/
theorem mappedAnswers_buffer :
    (VulkanBuffer.create (VulkanDev.init mappedAnswers).1 mappedPhys.memoryTypes 16 false
      { buf := some 5, typeBits := 3, mem := some 6, bound := true }).1.isSome = true := by
  obtain ⟨handed, -⟩ := buffer_memory mappedAnswers mappedPhys 1 3 4 ⟨rfl, by decide, rfl, rfl⟩ (by decide) (by decide)
    16 false { buf := some 5, typeBits := 3, mem := some 6, bound := true }
  exact handed.mpr ⟨by decide, rfl, rfl, rfl, 0, by decide, { hostVisible := true, hostCoherent := true }, rfl, rfl⟩

end buffers

end SeriesxEmu
