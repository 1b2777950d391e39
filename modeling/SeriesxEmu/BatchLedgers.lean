import SeriesxEmu.GpuBatch

/-!
# The ledger of a title with batches

A title that opens the device, makes and destroys buffers and uses a batch, and closes everything in the
end, names no object to the driver that is not alive and leaves nothing behind, whatever the driver
answers and whenever it fails, as long as it keeps the buffers of its recorded copies until they are
submitted. Only the leak of the device itself remains.
-/

namespace SeriesxEmu

open Ledgers

/-! ## What is held -/

/-- What a buffer holds, in the order in which it is given back. -/
def VulkanBuffer.objects (buffer : VulkanBuffer) : List VkObject :=
  buffer.buf.toList.map VkObject.buffer ++ buffer.mem.toList.map VkObject.memory

/-- Destroying a buffer destroys what it holds, in order. -/
theorem destroy_events (buffer : VulkanBuffer) : buffer.destroy.2 = buffer.objects.map Event.destroy := by
  rw [VulkanBuffer.objects, List.map_append, List.map_map, List.map_map]
  rfl

/-- Creating a buffer, whether or not it succeeds, makes what the buffer holds in the end and
nothing else. -/
theorem create_settles (d : VulkanDev) (types : List MemoryType) (size : Nat) (fast : Bool) (answers : BufferAnswers) :
    Settles 0 (VulkanBuffer.create d types size fast answers).2
      ((VulkanBuffer.create d types size fast answers).1.getD {}).objects := by
  rw [VulkanBuffer.create]
  split
  · exact Settles.nil 0
  · cases made : answers.buf with
    | none => exact Settles.nil 0
    | some buf =>
      cases picked : pickMemType d types answers.typeBits fast with
      | none => exact settles_once _
      | some memType =>
        cases allocated : answers.mem with
        | none => exact settles_once _
        | some mem =>
          have whole := bound_settles buf mem
          cases bound : answers.bound with
          | true =>
            rw [Multiset.cons_swap] at whole
            exact whole
          | false => exact whole.append (Settles.releases [VkObject.memory mem, .buffer buf])

namespace GpuBatch

variable {batch : GpuBatch}

/-- What a batch holds, in the order in which it is given back. -/
def objects (batch : GpuBatch) : List VkObject :=
  batch.cmd.toList.map VkObject.commandBuffer ++ (batch.pool.toList.map VkObject.descriptorPool ++
    (batch.setLayout.toList.map VkObject.setLayout ++ batch.pipelineLayout.toList.map VkObject.pipelineLayout))

/-- A batch that holds nothing has no handle. -/
theorem objects_nil : batch.objects = [] ↔
    batch.cmd = none ∧ batch.pool = none ∧ batch.setLayout = none ∧ batch.pipelineLayout = none := by
  simp only [objects, List.append_eq_nil_iff, List.map_eq_nil_iff, Option.toList_eq_nil_iff]

/-- A batch works and holds something only while it is bound to the title's device, and that is there. -/
structure Bound (batch : GpuBatch) (device : VulkanDev) : Prop where
  there : ∀ d, batch.dev = some d → d = device ∧ d.dev.isSome = true
  idle : batch.dev = none → batch.objects = [] ∧ batch.valid = false

variable {device : VulkanDev}

/-- A batch that has been closed holds nothing of any device. -/
theorem shutdown_bound (batch : GpuBatch) (device : VulkanDev) : batch.shutdown.1.Bound device :=
  ⟨fun d (bound : none = some d) => by (cases bound), fun _ => ⟨rfl, rfl⟩⟩

/-- Closing a batch destroys all that it holds. -/
theorem shutdown_settles (bound : batch.Bound device) : Settles batch.objects batch.shutdown.2 0 := by
  cases dev : batch.dev with
  | none =>
    rw [(bound.idle dev).1, shutdown, dev]
    exact Settles.nil 0
  | some d =>
    have here : (batch.dev.bind VulkanDev.dev).isSome = true := by
      rw [dev]
      exact (bound.there d dev).2
    have events : batch.shutdown.2 = batch.objects.map Event.destroy := by
      rw [shutdown, if_pos here, objects]
      simp only [List.map_append, List.map_map, List.append_assoc]
      rfl
    rw [events]
    exact Settles.releases batch.objects

/-- A batch on an open device is bound to it. -/
theorem bound_device (there : device.dev.isSome = true) (dev : batch.dev = some device) : batch.Bound device := by
  constructor
  · rintro d same
    rw [dev] at same
    obtain rfl := Option.some.inj same
    exact ⟨rfl, there⟩
  · intro missing
    rw [dev] at missing
    cases missing

/-! ## Opening -/

/-- The set layout, pool and set are made in turn, and a failure in between leaves what the batch
says. -/
theorem makeSet_settles (empty : batch.objects = []) (answers : BatchAnswers) :
    Settles 0 (batch.makeSet answers).2.1 (batch.makeSet answers).1.objects ∧
      (batch.makeSet answers).1.dev = batch.dev ∧ (batch.makeSet answers).1.pipelineLayout = batch.pipelineLayout := by
  obtain ⟨cmd, pool, setLayout, pipelineLayout⟩ := objects_nil.mp empty
  rw [makeSet]
  cases answers.setLayout with
  | none =>
    rw [empty]
    exact ⟨Settles.nil 0, rfl, rfl⟩
  | some layout =>
    cases answers.pool with
    | none =>
      refine ⟨?_, rfl, rfl⟩
      simp only [objects, cmd, pool, pipelineLayout]
      exact Settles.create 0 _
    | some pool =>
      refine ⟨?_, rfl, rfl⟩
      simp only [objects, cmd, pipelineLayout]
      refine (Settles.create 0 _).append ((Settles.create _ _).append ?_)
      exact Settles.uses [VkObject.descriptorPool pool, .setLayout layout] (by simp)

/-- The pipeline layout is made from the set layout, if there is one. -/
theorem makeLayout_settles (missing : batch.pipelineLayout = none) (pushCount bindings : Nat) (answers : BatchAnswers) :
    Settles batch.objects (batch.makeLayout pushCount bindings answers).2.1
      (batch.makeLayout pushCount bindings answers).1.objects ∧
      (batch.makeLayout pushCount bindings answers).1.dev = batch.dev := by
  have named : Settles (batch.objects : Multiset VkObject)
      (batch.setLayout.toList.map (fun layout => .use (VkObject.setLayout layout))) batch.objects := by
    have uses := @Settles.uses _ _ (batch.objects : Multiset VkObject) (batch.setLayout.toList.map VkObject.setLayout)
      fun object member => by simp [objects, member]
    rwa [List.map_map] at uses
  rw [makeLayout]
  cases answers.pipelineLayout with
  | none => exact ⟨named, rfl⟩
  | some layout =>
    refine ⟨?_, rfl⟩
    have grown : VkObject.pipelineLayout layout ::ₘ (batch.objects : Multiset VkObject) =
        ({ batch with pipelineLayout := some layout } : GpuBatch).objects := by
      rw [Multiset.cons_coe, Multiset.coe_eq_coe]
      simp only [objects, missing, Option.toList_none, List.map_nil, List.append_nil, Option.toList_some, List.map_cons,
        ← List.append_assoc]
      exact (List.perm_append_singleton _ _).symm
    have created := Settles.create (batch.objects : Multiset VkObject) (VkObject.pipelineLayout layout)
    rw [grown] at created
    exact named.append created

/-- The batch is bound to the device from now on, or closed again. -/
theorem start_settles (empty : batch.objects = []) (there : device.dev.isSome = true)
    (params : List RootParam) (pushCount bindings : Nat) (answers : BatchAnswers) :
    Settles 0 (batch.start device params pushCount bindings answers).2.1
      (batch.start device params pushCount bindings answers).1.objects ∧
      (batch.start device params pushCount bindings answers).1.Bound device := by
  have set : ∀ made : GpuBatch × List VkEvent × Bool, (made = if bindings = 0
      then ({ batch with dev := some device, params }, [], true)
      else ({ batch with dev := some device, params } : GpuBatch).makeSet answers) →
      Settles 0 made.2.1 made.1.objects ∧ made.1.dev = some device ∧ made.1.pipelineLayout = none := by
    obtain ⟨-, -, -, noLayout⟩ := objects_nil.mp empty
    rintro made rfl
    split
    · refine ⟨?_, rfl, noLayout⟩
      have still : ({ batch with dev := some device, params } : GpuBatch).objects = [] := empty
      rw [still]
      exact Settles.nil 0
    · obtain ⟨settles, dev, layout⟩ := @makeSet_settles { batch with dev := some device, params } empty answers
      exact ⟨settles, dev, layout.trans noLayout⟩
  rw [start]
  generalize making : (if bindings = 0 then ({ batch with dev := some device, params }, [], true)
    else ({ batch with dev := some device, params } : GpuBatch).makeSet answers) = made
  obtain ⟨settles, dev, noLayout⟩ := set made making.symm
  obtain ⟨made, events, ok⟩ := made
  cases ok with
  | false => exact ⟨settles.append (shutdown_settles (bound_device there dev)), shutdown_bound made device⟩
  | true =>
    obtain ⟨laid, kept⟩ := makeLayout_settles noLayout pushCount bindings answers
    generalize making : made.makeLayout pushCount bindings answers = layout at laid kept
    obtain ⟨layout, more, ok⟩ := layout
    have bound := bound_device there (kept.trans dev)
    cases ok with
    | false =>
      simp only [making, List.append_assoc]
      exact ⟨settles.append (laid.append (shutdown_settles bound)), shutdown_bound layout device⟩
    | true =>
      simp only [making]
      exact ⟨settles.append laid, bound⟩

/-- Opening a batch closes it first, so what it holds after is all that was made. -/
theorem init_settles (bound : batch.Bound device) (there : device.valid = true → device.dev.isSome = true)
    (params : List RootParam) (answers : BatchAnswers) :
    Settles batch.objects (batch.init device params answers).2.1 (batch.init device params answers).1.objects ∧
      (batch.init device params answers).1.Bound device := by
  have closed : Settles batch.objects batch.shutdown.2 batch.shutdown.1.objects ∧ batch.shutdown.1.Bound device :=
    ⟨shutdown_settles bound, shutdown_bound batch device⟩
  rw [init]
  split
  · exact closed
  · rename_i valid
    have opened : device.dev.isSome = true := there (by simp at valid; exact valid.1.1)
    cases countRoots params 0 0 with
    | none => exact closed
    | some counts =>
      obtain ⟨pushCount, bindings⟩ := counts
      simp only
      split
      · exact closed
      · obtain ⟨started, kept⟩ := @start_settles batch.shutdown.1 device rfl opened params pushCount bindings answers
        exact ⟨(shutdown_settles bound).append started, kept⟩

/-! ## Recording -/

/-- A command buffer is taken from the pool, or the old one is reset. -/
theorem begin_settles (bound : batch.Bound device) (answers : BeginAnswers) :
    Settles batch.objects (batch.begin answers).2.1 (batch.begin answers).1.objects ∧
      (batch.begin answers).1.Bound device := by
  rw [begin]
  split
  · exact ⟨Settles.nil _, bound⟩
  · rename_i idle
    obtain ⟨valid, notRecording⟩ : batch.valid = true ∧ batch.cmd = none := by simpa using idle
    cases answers.cmd with
    | none => exact ⟨Settles.nil _, bound⟩
    | some cmd =>
      have here : Settles batch.objects [.create (VkObject.commandBuffer cmd), .use (.commandBuffer cmd)]
          (VkObject.commandBuffer cmd ::ₘ batch.objects) :=
        (Settles.create _ _).append (Settles.use (Multiset.mem_cons_self _ _))
      cases answers.begun with
      | false => exact ⟨here.append (Settles.destroy _ _), bound⟩
      | true =>
        have recording : VkObject.commandBuffer cmd ::ₘ (batch.objects : Multiset VkObject) =
            ({ batch with cmd := some cmd, recorded := [] } : GpuBatch).objects := by simp [objects, notRecording]
        simp only [if_true]
        rw [← recording]
        refine ⟨here, bound.there, fun missing => ?_⟩
        rw [(bound.idle missing).2] at valid
        cases valid

/-- Recording a copy uses the command buffer and both buffers. -/
theorem copy_settles {alive : Multiset VkObject} (held : ∀ object ∈ batch.objects, object ∈ alive)
    {dst src : VulkanBuffer} (live : ∀ object ∈ dst.objects ++ src.objects, object ∈ alive) :
    Settles alive (batch.copy dst src).2.1 alive := by
  rw [copy]
  cases recording : batch.cmd with
  | none => exact Settles.nil alive
  | some cmd =>
    simp only
    split
    · exact Settles.nil alive
    · have uses := @Settles.uses _ _ alive ([VkObject.commandBuffer cmd] ++
        (src.buf.toList ++ dst.buf.toList).map VkObject.buffer) fun object member => by
          rcases List.mem_append.mp member with member | member
          · exact held object (by rw [objects, recording]; exact List.mem_append_left _ member)
          · rw [List.map_append] at member
            rcases List.mem_append.mp member with member | member
            · exact live object (List.mem_append_right _ (List.mem_append_left _ member))
            · exact live object (List.mem_append_left _ (List.mem_append_left _ member))
      rw [List.map_append, List.map_map] at uses
      exact uses

/-- A submission makes a fence, uses it with the command buffer and the recorded buffers, and
destroys it. -/
theorem fence_settles {alive : Multiset VkObject} {cmd : Nat} (recording : VkObject.commandBuffer cmd ∈ alive)
    {recorded : List Nat} (answers : SubmitAnswers)
    (live : answers.fence.isSome = true → ∀ buf ∈ recorded, VkObject.buffer buf ∈ alive) :
    Settles alive (fenceEvents cmd recorded answers) alive := by
  rw [fenceEvents]
  cases made : answers.fence with
  | none => exact Settles.nil alive
  | some fence =>
    have usable : ∀ object ∈ [VkObject.commandBuffer cmd, .fence fence] ++ recorded.map VkObject.buffer,
        object ∈ VkObject.fence fence ::ₘ alive := by
      intro object member
      rw [List.mem_append, List.mem_cons, List.mem_singleton, List.mem_map] at member
      obtain (rfl | rfl) | ⟨buf, listed, rfl⟩ := member
      · exact Multiset.mem_cons_of_mem recording
      · exact Multiset.mem_cons_self _ _
      · exact Multiset.mem_cons_of_mem (live (by rw [made]; rfl) buf listed)
    have uses := Settles.uses _ usable
    rw [List.map_append, List.map_map] at uses
    have used := (Settles.create alive (VkObject.fence fence)).append uses
    cases answers.queued with
    | false => exact (used.append (Settles.nil _)).append (Settles.destroy _ _)
    | true => exact (used.append (Settles.use (Multiset.mem_cons_self _ _))).append (Settles.destroy _ _)

/-- A submission settles beside the buffers, as long as those of the recorded copies are among them
when it comes to the queue. -/
theorem submitFence_settles (bound : batch.Bound device) (log : Option GpuStub) (fenceValue : Nat)
    (answers : SubmitAnswers) {buffers : Multiset VkObject} (live : batch.reachesQueue fenceValue answers = true →
      ∀ buf ∈ batch.recorded, VkObject.buffer buf ∈ buffers) :
    Settles ((batch.objects : Multiset VkObject) + buffers) (batch.submitFence log fenceValue answers).2.2.1
      (((batch.submitFence log fenceValue answers).1.objects : Multiset VkObject) + buffers) ∧
      (batch.submitFence log fenceValue answers).1.Bound device := by
  rw [submitFence]
  split
  · exact ⟨Settles.nil _, bound⟩
  · rename_i beyond
    split
    · exact ⟨Settles.nil _, bound⟩
    · rename_i valid
      cases recording : batch.cmd with
      | none => exact ⟨Settles.nil _, bound⟩
      | some cmd =>
        have held : (batch.objects : Multiset VkObject) = VkObject.commandBuffer cmd ::ₘ
            ({ batch with cmd := none, recorded := [] } : GpuBatch).objects := by simp [objects, recording]
        have here : VkObject.commandBuffer cmd ∈ (batch.objects : Multiset VkObject) + buffers := by
          rw [held]
          exact Multiset.mem_add.mpr (Or.inl (Multiset.mem_cons_self _ _))
        have kept : ({ batch with cmd := none, recorded := [] } : GpuBatch).Bound device := by
          refine ⟨bound.there, fun missing => ?_⟩
          have empty := (bound.idle missing).1
          rw [objects, recording] at empty
          cases empty
        simp only
        split
        · exact ⟨Settles.use here, bound⟩
        · rename_i ended
          have freed : Settles ((batch.objects : Multiset VkObject) + buffers)
              ([.use (VkObject.commandBuffer cmd)] ++ fenceEvents cmd batch.recorded answers ++
                [.destroy (.commandBuffer cmd)])
              ((({ batch with cmd := none, recorded := [] } : GpuBatch).objects : Multiset VkObject) + buffers) := by
            refine ((Settles.use here).append (fence_settles here answers fun made buf listed => ?_)).append ?_
            · refine Multiset.mem_add.mpr (Or.inr (live ?_ buf listed))
              simp only [Bool.not_eq_true', Bool.not_eq_false] at valid ended
              simp [reachesQueue, Nat.lt_of_not_le beyond, valid, recording, ended, made]
            · rw [held, Multiset.cons_add]
              exact Settles.destroy _ _
          split
          · exact ⟨freed, ⟨kept.there, kept.idle⟩⟩
          · exact ⟨freed, kept⟩

/-- The calls of a submission that comes to the queue. -/
theorem submitFence_reached {fenceValue : Nat} {answers : SubmitAnswers}
    (reached : batch.reachesQueue fenceValue answers = true) (log : Option GpuStub) :
    ∃ cmd fence, answers.fence = some fence ∧ (batch.submitFence log fenceValue answers).2.2.1 =
      [.use (.commandBuffer cmd)] ++ fenceEvents cmd batch.recorded answers ++ [.destroy (.commandBuffer cmd)] := by
  simp only [reachesQueue, Bool.and_eq_true, decide_eq_true_eq, Option.isSome_iff_exists] at reached
  obtain ⟨⟨⟨⟨beyond, valid⟩, cmd, recording⟩, ended⟩, fence, made⟩ := reached
  refine ⟨cmd, fence, made, ?_⟩
  rw [submitFence, if_neg (Nat.not_le.mpr beyond), if_neg (by simp [valid])]
  simp only [recording]
  rw [if_neg (by simp [ended])]
  split
  · rfl
  · rfl

/-- Such a submission names the buffers of the recorded copies, and makes none. -/
theorem submitFence_names {fenceValue : Nat} {answers : SubmitAnswers}
    (reached : batch.reachesQueue fenceValue answers = true) (log : Option GpuStub) {buf : Nat}
    (listed : buf ∈ batch.recorded) :
    Event.use (VkObject.buffer buf) ∈ (batch.submitFence log fenceValue answers).2.2.1 ∧
      Event.create (VkObject.buffer buf) ∉ (batch.submitFence log fenceValue answers).2.2.1 := by
  obtain ⟨cmd, fence, made, events⟩ := submitFence_reached reached log
  rw [events, fenceEvents, made]
  constructor
  · simp [listed]
  · cases answers.queued <;> simp

end GpuBatch

/-! ## Sessions -/

namespace Title

open Transcripts

variable {title : Title}

/-- What the buffers of a title hold. -/
def bufferObjects (title : Title) : List VkObject := title.buffers.flatMap VulkanBuffer.objects

/-- What the title holds. -/
def objects (title : Title) : Multiset VkObject := (title.batch.objects : Multiset VkObject) + title.bufferObjects

/-- The batch is bound to the title's device, if to any. -/
structure Whole (title : Title) : Prop where
  device : title.device.valid = true → title.device.dev.isSome = true
  batch : title.batch.Bound title.device

/-- The fence value and the driver's answers, if the request is a submission. -/
def submission (title : Title) : Request → Option (Nat × SubmitAnswers)
  | .submit _ answers => some ((title.batch.fenceSignalled + 1) % 2 ^ 64, answers)
  | .submitFence _ fenceValue answers => some (fenceValue, answers)
  | _ => none

/-- A request that submits the command buffer does so while the buffers of its copies are there. -/
def KeepsRecorded (title : Title) (request : Request) : Prop :=
  ∀ fenceValue answers, title.submission request = some (fenceValue, answers) →
    title.batch.reachesQueue fenceValue answers = true →
      ∀ buf ∈ title.batch.recorded, VkObject.buffer buf ∈ title.bufferObjects

/-- What one request does to the ledger. -/
def Served (title : Title) (served : Title × Reply) : Prop :=
  Settles title.objects served.2.events served.1.objects ∧ served.1.Whole

/-- The objects of one of its buffers are among them. -/
theorem buffer_live (title : Title) (index : Nat) :
    ∀ object ∈ (title.buffer index).objects, object ∈ title.bufferObjects := by
  rw [buffer, List.getD_eq_getElem?_getD]
  cases here : title.buffers[index]? with
  | none => exact fun object member => absurd member List.not_mem_nil
  | some buffer => exact fun object member => List.mem_flatMap.mpr ⟨buffer, List.mem_of_getElem? here, member⟩

/-- A title holds what its batch and its buffers do. -/
theorem mem_objects {object : VkObject} :
    object ∈ title.objects ↔ object ∈ title.batch.objects ∨ object ∈ title.bufferObjects := by
  rw [objects, Multiset.mem_add, Multiset.mem_coe, Multiset.mem_coe]

/-- Only the batch changes. -/
theorem served_batch (whole : title.Whole) {next : Title} {reply : Reply} (device : next.device = title.device)
    (buffers : next.buffers = title.buffers) (settles : Settles title.batch.objects reply.events next.batch.objects)
    (bound : next.batch.Bound title.device) : Served title (next, reply) := by
  have same : next.bufferObjects = title.bufferObjects := congrArg (List.flatMap VulkanBuffer.objects) buffers
  constructor
  · rw [objects, objects, same]
    exact settles.frame _
  · exact ⟨by rw [device]; exact whole.device, by rw [device]; exact bound⟩

/-- A request that changes nothing may use what is held. -/
theorem served_idle (whole : title.Whole) (reply : Reply) (idle : Settles title.objects reply.events title.objects) :
    Served title (title, reply) := ⟨idle, whole⟩

/-- A buffer comes behind the others. -/
theorem served_create (whole : title.Whole) (size : Nat) (fast : Bool) (answers : BufferAnswers) :
    Served title (title.serve (.createBuffer size fast answers)) := by
  refine ⟨?_, whole.device, whole.batch⟩
  have created := create_settles title.device title.types size fast answers
  have framed := created.frame title.objects
  rw [zero_add, add_comm, objects, add_assoc, Multiset.coe_add] at framed
  rw [objects, objects]
  simpa [serve, bufferObjects] using framed

/-- Destroying one buffer destroys what it holds and leaves the others. -/
theorem destroy_settles (buffers : List VulkanBuffer) (index : Nat) :
    Settles (buffers.flatMap VulkanBuffer.objects : List VkObject) (buffers.getD index {}).destroy.2
      ((buffers.set index {}).flatMap VulkanBuffer.objects : List VkObject) := by
  induction buffers generalizing index with
  | nil => exact Settles.nil _
  | cons buffer rest inductionHypothesis =>
    cases index with
    | zero =>
      rw [List.getD_cons_zero, List.set_cons_zero, List.flatMap_cons, List.flatMap_cons, destroy_events,
        ← Multiset.coe_add]
      have freed := (Settles.releases buffer.objects).frame (rest.flatMap VulkanBuffer.objects : List VkObject)
      rwa [zero_add] at freed
    | succ index =>
      have first (rest : Multiset VkObject) : (buffer.objects : Multiset VkObject) + rest = rest + buffer.objects :=
        add_comm _ _
      rw [List.getD_cons_succ, List.set_cons_succ, List.flatMap_cons, List.flatMap_cons, ← Multiset.coe_add,
        ← Multiset.coe_add, first, first]
      exact (inductionHypothesis index).frame _

/-- So does the request. -/
theorem served_destroy (whole : title.Whole) (index : Nat) : Served title (title.serve (.destroyBuffer index)) := by
  refine ⟨?_, whole.device, whole.batch⟩
  have destroyed := (destroy_settles title.buffers index).frame (title.batch.objects : Multiset VkObject)
  rw [add_comm, add_comm (_ : Multiset VkObject) (title.batch.objects : Multiset VkObject)] at destroyed
  exact destroyed

/-- Binding a buffer uses it, if it is there. -/
theorem served_bind (whole : title.Whole) (rootIndex index : Nat) :
    Served title (title.bindBuffer rootIndex (title.buffer index)) := by
  rw [bindBuffer]
  cases title.batch.bind rootIndex (title.buffer index) with
  | none => exact served_idle whole _ (Settles.nil _)
  | some write =>
    refine ⟨?_, whole.device, whole.batch⟩
    have uses := @Settles.uses _ _ title.objects (title.batch.pool.toList.map VkObject.descriptorPool ++
      (title.buffer index).buf.toList.map VkObject.buffer) fun object member => by
        rw [mem_objects]
        rcases List.mem_append.mp member with member | member
        · exact Or.inl (List.mem_append_right _ (List.mem_append_left _ member))
        · exact Or.inr (buffer_live title index object (List.mem_append_left _ member))
    rw [List.map_append, List.map_map, List.map_map] at uses
    exact uses

/-- Copying from one buffer to another uses both, if they are there. -/
theorem served_copy (whole : title.Whole) (dst src : Nat) : Served title (title.copyBuffers dst src) := by
  obtain ⟨recorded, same⟩ := title.copyBuffers_fst dst src
  constructor
  · have held : (title.copyBuffers dst src).1.objects = title.objects := by
      rw [same]
      rfl
    rw [held]
    refine GpuBatch.copy_settles (fun object held => mem_objects.mpr (Or.inl held)) fun object member => ?_
    rcases List.mem_append.mp member with member | member
    · exact mem_objects.mpr (Or.inr (buffer_live title dst object member))
    · exact mem_objects.mpr (Or.inr (buffer_live title src object member))
  · rw [same]
    exact ⟨whole.device, whole.batch.there, whole.batch.idle⟩

/-- A submission uses what has been recorded, so that must be there. -/
theorem served_submitted (whole : title.Whole) (logged : Bool) (fenceValue : Nat) (answers : SubmitAnswers)
    (live : title.batch.reachesQueue fenceValue answers = true →
      ∀ buf ∈ title.batch.recorded, VkObject.buffer buf ∈ title.bufferObjects) :
    Served title (title.submitted logged fun log => title.batch.submitFence log fenceValue answers) := by
  obtain ⟨settles, bound⟩ := @GpuBatch.submitFence_settles title.batch title.device whole.batch
    (if logged then some title.log else none) fenceValue answers title.bufferObjects
    fun reached buf listed => live reached buf listed
  exact ⟨settles, whole.device, bound⟩

/-- What one request does to the ledger, request by request.

Proof: by the request. Only six of them create or destroy anything, and each of those has its own
rule; the others leave the objects of the batch as they are. -/
theorem serve_settles (whole : title.Whole) (request : Request) (keeps : title.KeepsRecorded request) :
    Served title (title.serve request) := by
  have here (gone : Title × Reply) (device : gone.1.device = title.device) (buffers : gone.1.buffers = title.buffers)
      (settles : Settles title.batch.objects gone.2.events gone.1.batch.objects)
      (bound : gone.1.batch.Bound title.device) : Served title gone := served_batch whole device buffers settles bound
  cases request with
  | memory op => exact here _ rfl rfl (Settles.nil _) whole.batch
  | createBuffer size fast answers => exact served_create whole size fast answers
  | destroyBuffer index => exact served_destroy whole index
  | init params answers =>
    obtain ⟨settles, bound⟩ := GpuBatch.init_settles whole.batch whole.device params answers
    exact here _ rfl rfl settles bound
  | shutdown =>
    exact here _ rfl rfl (GpuBatch.shutdown_settles whole.batch) (GpuBatch.shutdown_bound title.batch title.device)
  | attachMem attached => exact here _ rfl rfl (Settles.nil _) ⟨whole.batch.there, whole.batch.idle⟩
  | registerBuffer gpa index =>
    have kept : ∀ buffer, (title.batch.registerBuffer title.mem gpa index buffer).1.objects = title.batch.objects ∧
        (title.batch.registerBuffer title.mem gpa index buffer).1.Bound title.device := by
      intro buffer
      rw [GpuBatch.registerBuffer]
      repeat' split
      all_goals exact ⟨rfl, whole.batch.there, whole.batch.idle⟩
    obtain ⟨same, bound⟩ := kept (title.buffer index)
    refine here _ rfl rfl ?_ bound
    simp only [serve]
    rw [same]
    exact Settles.nil _
  | unregisterBuffer gpa => exact here _ rfl rfl (Settles.nil _) ⟨whole.batch.there, whole.batch.idle⟩
  | push rootIndex vals =>
    have kept : (title.batch.push rootIndex vals).1.objects = title.batch.objects ∧
        (title.batch.push rootIndex vals).1.Bound title.device := by
      cases vals with
      | none => exact ⟨rfl, whole.batch.there, whole.batch.idle⟩
      | some vals =>
        simp only [GpuBatch.push]
        repeat' split
        all_goals exact ⟨rfl, whole.batch.there, whole.batch.idle⟩
    refine here _ rfl rfl ?_ kept.2
    simp only [serve]
    rw [kept.1]
    exact Settles.nil _
  | bind rootIndex index => exact served_bind whole rootIndex index
  | bindGpa rootIndex gpa =>
    rw [serve]
    cases title.batch.findBinding gpa with
    | none => exact served_idle whole _ (Settles.nil _)
    | some index => exact served_bind whole rootIndex index
  | begin answers =>
    obtain ⟨settles, bound⟩ := GpuBatch.begin_settles whole.batch answers
    exact here _ rfl rfl settles bound
  | copy dst src => exact served_copy whole dst src
  | copyGpa dst src size =>
    rw [serve]
    obtain refused | ⟨target, origin, copied⟩ := title.copyRegistered_cases dst src size
    · rw [refused]
      exact served_idle whole _ (Settles.nil _)
    · rw [copied]
      exact served_copy whole target origin
  | submit logged answers => exact served_submitted whole logged _ answers (keeps _ answers rfl)
  | submitFence logged fenceValue answers =>
    exact served_submitted whole logged fenceValue answers (keeps fenceValue answers rfl)

/-- A request that submits a copy from or to a buffer that is gone names an object that is not alive. -/
theorem serve_names_dead {request : Request} (loses : ¬ title.KeepsRecorded request) :
    ∃ buf, VkObject.buffer buf ∉ title.objects ∧ Event.use (VkObject.buffer buf) ∈ (title.serve request).2.events ∧
      Event.create (VkObject.buffer buf) ∉ (title.serve request).2.events := by
  simp only [KeepsRecorded, not_forall] at loses
  obtain ⟨fenceValue, answers, submits, reached, buf, listed, gone⟩ := loses
  have dead : VkObject.buffer buf ∉ title.objects := by
    rw [mem_objects, not_or]
    exact ⟨by simp [GpuBatch.objects], gone⟩
  refine ⟨buf, dead, ?_⟩
  cases request with
  | submit logged replies =>
    obtain ⟨rfl, rfl⟩ := Prod.mk.inj (Option.some.inj submits)
    exact GpuBatch.submitFence_names reached _ listed
  | submitFence logged value replies =>
    obtain ⟨rfl, rfl⟩ := Prod.mk.inj (Option.some.inj submits)
    exact GpuBatch.submitFence_names reached _ listed
  | _ => cases submits

/-- The calls of a dialogue. -/
def calls (past : List (Request × Reply)) : List VkEvent := past.flatMap (fun exchange => exchange.2.events)

/-- The title after a request, as the step of a run that goes on for ever. -/
def turn (title : Title) (request : Request) : Option Title := some (title.serve request).1

/-- A run of requests takes what the title holds to what it holds then.

Proof: induction on the requests, one request at a time. -/
theorem serves_settle (requests : List Request) (whole : title.Whole)
    (keeps : Runs.Along turn KeepsRecorded title requests) :
    Settles title.objects (calls (dialogue serve title requests)) (after serve title requests).objects ∧
      (after serve title requests).Whole := by
  induction requests generalizing title with
  | nil => exact ⟨Settles.nil _, whole⟩
  | cons request rest inductionHypothesis =>
    obtain ⟨settles, next⟩ := serve_settles whole request keeps.1
    obtain ⟨later, final⟩ := inductionHypothesis next (keeps.2 _ rfl)
    exact ⟨settles.append later, final⟩

/-- The batch is closed and every buffer destroyed. -/
def closing (title : Title) : List VkEvent :=
  title.batch.shutdown.2 ++ title.buffers.flatMap (fun buffer => buffer.destroy.2)

/-- In the end the batch is closed and the buffers are destroyed. -/
theorem closing_settles (whole : title.Whole) : Settles title.objects title.closing 0 := by
  have buffers : title.buffers.flatMap (fun buffer => buffer.destroy.2) = title.bufferObjects.map Event.destroy := by
    rw [bufferObjects, List.map_flatMap]
    simp only [destroy_events]
  have closed := (GpuBatch.shutdown_settles whole.batch).frame (title.bufferObjects : Multiset VkObject)
  rw [zero_add] at closed
  rw [closing, buffers]
  exact closed.append (Settles.releases title.bufferObjects)

/-- A title on a device that has been opened, or could not be. -/
def opened (opening : DeviceAnswers) : Title := { device := (VulkanDev.init opening).1 }

/-- A title that has just opened its device holds nothing. -/
theorem opened_whole (opening : DeviceAnswers) : (opened opening).Whole := by
  refine ⟨fun valid => ?_, GpuBatch.shutdown_bound {} _⟩
  obtain ⟨held, -, outcome⟩ := init_outcome opening
  have here : (VulkanDev.init opening).1.valid = true := valid
  change (VulkanDev.init opening).1.dev.isSome = true
  generalize (VulkanDev.init opening).1 = d at here outcome ⊢
  cases outcome with
  | refused _ invalid _ _ _ => exact absurd (here.symm.trans invalid) Bool.noConfusion
  | lacking _ _ invalid _ _ _ => exact absurd (here.symm.trans invalid) Bool.noConfusion
  | ready _ _ _ created _ =>
    rw [created]
    rfl

/-! ## The device behind the calls -/

end Title

/-- What has to be there for an object: the device that it was made on, and the pool of a command buffer. -/
def VulkanDev.parents (d : VulkanDev) (object : VkObject) : List VkObject :=
  d.dev.toList.map VkObject.device ++
    match object with
    | .commandBuffer _ => d.cmdPool.toList.map VkObject.commandPool
    | _ => []

/-- What is alive around a title: the parents of its objects, and no buffer. -/
structure Hosts (d : VulkanDev) (host : Multiset VkObject) : Prop where
  live : ∀ object, ∀ parent ∈ d.parents object, parent ∈ host
  apart : ∀ buf, VkObject.buffer buf ∉ host

/-- An open device and its pool are alive beside everything else. -/
theorem Opening.hosts {answers : DeviceAnswers} {d : VulkanDev} {held : Multiset VkObject}
    (outcome : Opening answers d held) : Hosts d held := by
  have parent {object named : VkObject} (member : named ∈ d.parents object) :
      (∃ dev, d.dev = some dev ∧ VkObject.device dev = named) ∨
        ∃ pool, d.cmdPool = some pool ∧ VkObject.commandPool pool = named := by
    unfold VulkanDev.parents at member
    rcases List.mem_append.mp member with device | pool
    · exact Or.inl (by simpa using device)
    · cases object with
      | commandBuffer cmd => exact Or.inr (by simpa using pool)
      | _ => cases pool
  cases outcome with
  | refused _ _ _ dev cmdPool =>
    refine ⟨fun object named member => ?_, fun buf => Multiset.notMem_zero _⟩
    rcases parent member with ⟨_, made, -⟩ | ⟨_, made, -⟩
    · cases dev.symm.trans made
    · cases cmdPool.symm.trans made
  | lacking _ _ _ _ dev cmdPool =>
    refine ⟨fun object named member => ?_, fun buf => by simp⟩
    rcases parent member with ⟨_, made, -⟩ | ⟨_, made, rfl⟩
    · cases dev.symm.trans made
    · obtain rfl := Option.some.inj (cmdPool.symm.trans made)
      exact Multiset.mem_singleton_self _
  | ready _ _ _ created cmdPool =>
    refine ⟨fun object named member => ?_, fun buf => by simp⟩
    rcases parent member with ⟨_, made, rfl⟩ | ⟨_, made, rfl⟩
    · obtain rfl := Option.some.inj (created.symm.trans made)
      simp
    · obtain rfl := Option.some.inj (cmdPool.symm.trans made)
      simp

namespace Title

open Transcripts

variable {title : Title} {host : Multiset VkObject}

/-- Everything that a title does from opening the device to closing it. -/
def session (opening : DeviceAnswers) (requests : List Request) : List VkEvent :=
  (VulkanDev.init opening).2.1 ++ backed (VulkanDev.init opening).1.parents
    (calls (dialogue serve (opened opening) requests) ++ (after serve (opened opening) requests).closing) ++
    (VulkanDev.init opening).1.shutdown.2

/-- The title's part of a session leaves nothing behind, so a session leaves what opening and
closing leaves. -/
theorem session_settles (opening : DeviceAnswers) (requests : List Request)
    (keeps : Runs.Along turn KeepsRecorded (opened opening) requests) {left : Multiset VkObject}
    (settles : Settles 0 (opensAndCloses opening) left) : Settles 0 (session opening requests) left := by
  obtain ⟨held, before, later⟩ := (Runs.run_append _ _ _ _).mp settles
  obtain ⟨known, opens, outcome⟩ := init_outcome opening
  obtain rfl : held = known := Option.some.inj (before.symm.trans opens)
  obtain ⟨middle, whole⟩ := serves_settle requests (opened_whole opening) keeps
  have between := (middle.append (closing_settles whole)).backed outcome.hosts.live
  have empty : (opened opening).objects = 0 := rfl
  rw [empty, zero_add] at between
  exact (Settles.append before between).append later

/-- A dialogue that can be settled keeps the buffers of its recorded copies. By induction on the
requests: the first one that does not would name a buffer that is gone. -/
theorem keeps_of_settles {d : VulkanDev} (hosts : Hosts d host) (requests : List Request) (whole : title.Whole)
    {left : Multiset VkObject}
    (settles : Settles (title.objects + host) (backed d.parents (calls (dialogue serve title requests))) left) :
    Runs.Along turn KeepsRecorded title requests := by
  induction requests generalizing title with
  | nil => trivial
  | cons request rest inductionHypothesis =>
    have split : calls (dialogue serve title (request :: rest)) =
        (title.serve request).2.events ++ calls (dialogue serve (title.serve request).1 rest) := rfl
    rw [split, backed_append] at settles
    obtain ⟨middle, first, later⟩ := (Runs.run_append _ _ _ _).mp settles
    have keeps : title.KeepsRecorded request := by
      by_contra loses
      obtain ⟨buf, dead, named, never⟩ := serve_names_dead loses
      have gone : VkObject.buffer buf ∉ title.objects + host := by
        rw [Multiset.mem_add, not_or]
        exact ⟨dead, hosts.apart buf⟩
      refine Settles.unused first gone ?_ (mem_backed.mpr (Or.inl named))
      rw [mem_backed, not_or]
      exact ⟨never, by simp⟩
    obtain ⟨served, next⟩ := serve_settles whole request keeps
    obtain rfl : _ = middle := Option.some.inj ((served.backed hosts.live).symm.trans first)
    refine ⟨keeps, fun other turned => ?_⟩
    obtain rfl := Option.some.inj turned
    exact inductionHypothesis next later

/-- The requests leave the device alone. -/
theorem serve_device (title : Title) (request : Request) : (title.serve request).1.device = title.device := by
  cases request with
  | bind rootIndex index =>
    obtain ⟨descriptors, same⟩ := title.bindBuffer_fst rootIndex (title.buffer index)
    rw [serve, same]
  | bindGpa rootIndex gpa =>
    rw [serve]
    split
    · rfl
    · rename_i index _
      obtain ⟨descriptors, same⟩ := title.bindBuffer_fst rootIndex (title.buffer index)
      rw [same]
  | copyGpa dst src size =>
    rw [serve]
    obtain refused | ⟨target, origin, copied⟩ := title.copyRegistered_cases dst src size
    · rw [refused]
    · rw [copied]
      rfl
  | _ => rfl

/-- Without a device the batch never works, so nothing is submitted. -/
theorem keeps_of_closed (requests : List Request) (whole : title.Whole) (closed : title.device.dev = none) :
    Runs.Along turn KeepsRecorded title requests := by
  induction requests generalizing title with
  | nil => trivial
  | cons request rest inductionHypothesis =>
    have unbound : title.batch.dev = none := by
      cases dev : title.batch.dev with
      | none => rfl
      | some d =>
        obtain ⟨rfl, there⟩ := whole.batch.there d dev
        rw [closed] at there
        cases there
    have keeps : title.KeepsRecorded request := by
      intro fenceValue answers _ reached
      simp [GpuBatch.reachesQueue, (whole.batch.idle unbound).2] at reached
    refine ⟨keeps, fun next turned => ?_⟩
    obtain rfl := Option.some.inj turned
    refine inductionHypothesis (serve_settles whole request keeps).2 ?_
    rw [serve_device, closed]

/-- Without a device no request reaches the queue, so there is nothing to keep. -/
theorem keeps_of_lacking {opening : DeviceAnswers} (lacks : LacksTypes opening) (requests : List Request) :
    Runs.Along turn KeepsRecorded (opened opening) requests := by
  refine keeps_of_closed requests (opened_whole opening) ?_
  obtain ⟨held, -, outcome⟩ := init_outcome opening
  change (VulkanDev.init opening).1.dev = none
  cases outcome with
  | refused _ _ _ dev _ => exact dev
  | lacking _ _ _ _ dev _ => exact dev
  | ready has _ _ _ _ => exact absurd lacks has

/-- **Sessions.** Whatever a title asks for between opening the device and closing it, and whatever
the driver answers, no object is named to the driver that is not alive and everything is destroyed
in the end, exactly when the device has both memory types and each batch is submitted before the
buffers of its copies are destroyed. When the device lacks a memory type, its command pool is
leaked.

Proof: each request takes what the title holds to what it holds then, beside the device and its
pool; a submission also needs the buffers of the recorded copies. The first request that submits
without them names a buffer that is gone. -/
theorem session_ledger (opening : DeviceAnswers) (requests : List Request) :
    (Settles 0 (session opening requests) 0 ↔
      ¬ LacksTypes opening ∧ Runs.Along turn KeepsRecorded (opened opening) requests) ∧
      (LacksTypes opening → ∃ pool, opening.cmdPool = some pool ∧
        Settles 0 (session opening requests) {VkObject.commandPool pool}) := by
  obtain ⟨whole, lacking⟩ := device_ledger opening
  have leaks (lacks : LacksTypes opening) : ∃ pool, opening.cmdPool = some pool ∧
      Settles 0 (session opening requests) {VkObject.commandPool pool} := by
    obtain ⟨pool, pooled, leaks⟩ := lacking lacks
    exact ⟨pool, pooled, session_settles opening requests (keeps_of_lacking lacks requests) leaks⟩
  refine ⟨⟨fun settles => ⟨?_, ?_⟩, fun ⟨has, keeps⟩ => session_settles opening requests keeps (whole.mpr has)⟩, leaks⟩
  · rintro lacks
    obtain ⟨pool, -, leaks⟩ := leaks lacks
    have same : (0 : Multiset VkObject) = {VkObject.commandPool pool} := Option.some.inj (settles.symm.trans leaks)
    exact Multiset.singleton_ne_zero _ same.symm
  · obtain ⟨held, opens, outcome⟩ := init_outcome opening
    obtain ⟨_, before, -⟩ := (Runs.run_append _ _ _ _).mp settles
    obtain ⟨known, first, between⟩ := (Runs.run_append _ _ _ _).mp before
    obtain rfl : held = known := Option.some.inj (opens.symm.trans first)
    rw [backed_append] at between
    obtain ⟨left, dialogue, -⟩ := (Runs.run_append _ _ _ _).mp between
    have beside : (opened opening).objects + held = held := by
      have empty : (opened opening).objects = 0 := rfl
      rw [empty, zero_add]
    rw [← beside] at dialogue
    exact keeps_of_settles outcome.hosts requests (opened_whole opening) dialogue

end Title

end SeriesxEmu
