import SeriesxEmu.BufferMemory
import SeriesxEmu.CommandHistory
import SeriesxEmu.KeyedLists

/-!
# Batches

`GpuBatch` records copies between buffers of the title and submits them with a fence. Its root signature
keeps constants in one block of words, and buffers in the bindings of one descriptor set. Buffers are
registered under the guest address that the title knows them by. The device that a batch is bound to is
open before the batch and after it, so the pointer to it is a copy here; a pointer to a buffer is the
place of the buffer among those of the title. Beside the fields of the class a batch has `recorded`, the
contents of its command buffer, which the driver keeps: they are read when the batch is submitted.
-/

namespace SeriesxEmu

open Ledgers

/-- The types of root parameters. -/
inductive RootParamType where
  | constants32
  | cbv
  | table
deriving DecidableEq, Repr

/-- A root parameter. -/
structure RootParam where
  type : RootParamType := .constants32
  count : Nat := 0
deriving DecidableEq, Repr

/-- The parameter holds constants. -/
def RootParam.isConstants (param : RootParam) : Bool := param.type == .constants32

/-- What one parameter takes of the push constants. -/
def RootParam.words (param : RootParam) : Nat := if param.isConstants then param.count else 0

/-- What one parameter takes of the descriptor set. -/
def RootParam.slots (param : RootParam) : Nat := if param.isConstants then 0 else param.count

/-- One entry of `vkUpdateDescriptorSets`. -/
structure DescriptorWrite where
  set : Nat
  binding : Nat
  buffer : Option Nat
  range : Nat
deriving DecidableEq, Repr

/-- The answers of the driver to `init`. -/
structure BatchAnswers where
  setLayout : Created := none
  pool : Created := none
  set : Created := none
  pipelineLayout : Created := none
deriving DecidableEq, Repr

/-- The answers of the driver to `begin`. -/
structure BeginAnswers where
  cmd : Created := none
  begun : Bool := false
deriving DecidableEq, Repr

/-- The answers of the driver to `submit_fence`. -/
structure SubmitAnswers where
  ended : Bool := false
  fence : Created := none
  queued : Bool := false
  waited : Bool := false
deriving DecidableEq, Repr

/-- `mem` says whether guest memory is attached. A binding is a guest address and the place of a
buffer. The buffers of the copies in the command buffer are `recorded`. -/
structure GpuBatch where
  dev : Option VulkanDev := none
  mem : Bool := false
  bindings : List (Nat × Nat) := []
  params : List RootParam := []
  setLayout : Option Nat := none
  pipelineLayout : Option Nat := none
  pool : Option Nat := none
  set : Option Nat := none
  cmd : Option Nat := none
  recorded : List Nat := []
  pushData : List Nat := []
  pushSize : Nat := 0
  uniformBindings : Nat := 0
  submits : Nat := 0
  fenceSignalled : Nat := 0
  valid : Bool := false
deriving DecidableEq, Repr

namespace GpuBatch

/-! ## Opening and closing -/

/-- The first loop of `init`: the push constants and the bindings, if every count is admitted. -/
def countRoots : List RootParam → Nat → Nat → Option (Nat × Nat)
  | [], pushCount, bindings => some (pushCount, bindings)
  | param :: rest, pushCount, bindings =>
    if param.isConstants then
      if param.count == 0 || 32 < param.count then none else countRoots rest (pushCount + param.count) bindings
    else if param.count == 0 || 16 < param.count then none
    else countRoots rest pushCount (bindings + param.count)

/-- `shutdown`: the count of submissions stays. -/
def shutdown (batch : GpuBatch) : GpuBatch × List VkEvent :=
  let cmd : List VkEvent := batch.cmd.toList.map (fun cmd => .destroy (.commandBuffer cmd))
  let pool : List VkEvent := batch.pool.toList.map (fun pool => .destroy (.descriptorPool pool))
  let setLayout : List VkEvent := batch.setLayout.toList.map (fun layout => .destroy (.setLayout layout))
  let pipelineLayout : List VkEvent :=
    batch.pipelineLayout.toList.map (fun layout => .destroy (.pipelineLayout layout))
  ({ submits := batch.submits },
    if (batch.dev.bind VulkanDev.dev).isSome then cmd ++ pool ++ setLayout ++ pipelineLayout else [])

/-- The part of `init` that makes the descriptor set. A set is freed with its pool. -/
def makeSet (batch : GpuBatch) (answers : BatchAnswers) : GpuBatch × List VkEvent × Bool :=
  match answers.setLayout with
  | none => (batch, [], false)
  | some layout =>
    match answers.pool with
    | none => ({ batch with setLayout := some layout }, [.create (.setLayout layout)], false)
    | some pool =>
      ({ batch with setLayout := some layout, pool := some pool, set := answers.set },
        [.create (.setLayout layout), .create (.descriptorPool pool), .use (.descriptorPool pool),
          .use (.setLayout layout)], answers.set.isSome)

/-- The last part of `init`: the pipeline's layout names the set's layout, if there is one. -/
def makeLayout (batch : GpuBatch) (pushCount bindings : Nat) (answers : BatchAnswers) :
    GpuBatch × List VkEvent × Bool :=
  let named : List VkEvent := batch.setLayout.toList.map (fun layout => .use (.setLayout layout))
  match answers.pipelineLayout with
  | none => (batch, named, false)
  | some layout =>
    ({ batch with
        pipelineLayout := some layout
        pushData := List.replicate pushCount 0
        pushSize := pushCount
        uniformBindings := bindings
        valid := true }, named ++ [.create (.pipelineLayout layout)], true)

/-- `init` after the checks; a failure closes the batch again. -/
def start (batch : GpuBatch) (device : VulkanDev) (params : List RootParam) (pushCount bindings : Nat)
    (answers : BatchAnswers) : GpuBatch × List VkEvent × Bool :=
  let started := { batch with dev := some device, params }
  match if bindings = 0 then (started, [], true) else started.makeSet answers with
  | (made, events, false) => (made.shutdown.1, events ++ made.shutdown.2, false)
  | (made, events, true) =>
    match made.makeLayout pushCount bindings answers with
    | (laid, more, false) => (laid.shutdown.1, events ++ more ++ laid.shutdown.2, false)
    | (laid, more, true) => (laid, events ++ more, true)

/-- `init`. -/
def init (batch : GpuBatch) (device : VulkanDev) (params : List RootParam) (answers : BatchAnswers) :
    GpuBatch × List VkEvent × Bool :=
  let closed := batch.shutdown
  if !device.valid || params.isEmpty || 16 < params.length then (closed.1, closed.2, false)
  else
    match countRoots params 0 0 with
    | none => (closed.1, closed.2, false)
    | some (pushCount, bindings) =>
      if 32 < pushCount || 16 < bindings then (closed.1, closed.2, false)
      else
        let (started, events, ok) := closed.1.start device params pushCount bindings answers
        (started, closed.2 ++ events, ok)

/-! ## Root arguments -/

/-- The loop over the parameters before `root_index` in `push`. -/
def pushOffset (params : List RootParam) (rootIndex : Nat) : Nat := ((params.take rootIndex).map RootParam.words).sum

/-- The loop over the parameters before `root_index` in `bind`. -/
def bindingOf (params : List RootParam) (rootIndex : Nat) : Nat := ((params.take rootIndex).map RootParam.slots).sum

/-- The loop of `push` that stores the values. -/
def storeValues (data : List Nat) (offset : Nat) : List Nat → List Nat
  | [] => data
  | value :: rest => storeValues (data.set offset value) (offset + 1) rest

/-- `push`, where a null pointer is no list. -/
def push (batch : GpuBatch) (rootIndex : Nat) (vals : Option (List Nat)) : GpuBatch × Bool :=
  match vals with
  | none => (batch, false)
  | some vals =>
    match batch.params[rootIndex]? with
    | none => (batch, false)
    | some param =>
      let offset := pushOffset batch.params rootIndex
      if !batch.valid || !param.isConstants || vals.length != param.count then (batch, false)
      else if batch.pushData.length < offset + vals.length then (batch, false)
      else ({ batch with pushData := storeValues batch.pushData offset vals }, true)

/-- `bind`: what it writes to the descriptor set, if it succeeds. -/
def bind (batch : GpuBatch) (rootIndex : Nat) (buffer : VulkanBuffer) : Option DescriptorWrite :=
  match batch.params[rootIndex]? with
  | none => none
  | some param =>
    if !batch.valid || !buffer.valid || param.isConstants then none
    else
      match batch.set with
      | none => none
      | some set =>
        let binding := bindingOf batch.params rootIndex
        if batch.uniformBindings ≤ binding then none
        else some { set, binding, buffer := buffer.buf, range := buffer.size }

/-! ## Registrations -/

/-- `attach_mem`, with the guest's memory or with null. -/
def attachMem (batch : GpuBatch) (attached : Bool) : GpuBatch := { batch with mem := attached }

/-- `find_binding`. -/
def findBinding (batch : GpuBatch) (gpa : Nat) : Option Nat := KeyedLists.lookup batch.bindings gpa

/-- `register_buffer`, for the buffer at some place. -/
def registerBuffer (batch : GpuBatch) (mem : MemMap) (gpa index : Nat) (buffer : VulkanBuffer) : GpuBatch × Bool :=
  if !buffer.valid || buffer.size == 0 then (batch, false)
  else if 2 ^ 32 - 1 < buffer.size then (batch, false)
  else if batch.mem && (!MemMap.inRange gpa buffer.size || !mem.isCommitted gpa buffer.size) then (batch, false)
  else if batch.mem && buffer.fast && !MemMap.isFast gpa then (batch, false)
  else if (batch.findBinding gpa).isSome then (batch, false)
  else ({ batch with bindings := batch.bindings ++ [(gpa, index)] }, true)

/-- `unregister_buffer`. -/
def unregisterBuffer (batch : GpuBatch) (gpa : Nat) : GpuBatch :=
  { batch with bindings := batch.bindings.eraseP (fun binding => binding.1 == gpa) }

/-! ## Recording and submitting -/

/-- `begin`. -/
def begin (batch : GpuBatch) (answers : BeginAnswers) : GpuBatch × List VkEvent × Bool :=
  if !batch.valid || batch.cmd.isSome then (batch, [], false)
  else
    match answers.cmd with
    | none => (batch, [], false)
    | some cmd =>
      if answers.begun then
        ({ batch with cmd := some cmd, recorded := [] },
          [.create (.commandBuffer cmd), .use (.commandBuffer cmd)], true)
      else
        (batch, [.create (.commandBuffer cmd), .use (.commandBuffer cmd), .destroy (.commandBuffer cmd)], false)

/-- `copy`, with the handles that it passes on and that the command buffer keeps. -/
def copy (batch : GpuBatch) (dst src : VulkanBuffer) : GpuBatch × List VkEvent × Bool :=
  match batch.cmd with
  | none => (batch, [], false)
  | some cmd =>
    if !batch.valid || !dst.valid || !src.valid || dst.size != src.size then (batch, [], false)
    else
      let named := src.buf.toList ++ dst.buf.toList
      ({ batch with recorded := batch.recorded ++ named },
        [.use (.commandBuffer cmd)] ++ named.map (fun buf => .use (.buffer buf)), true)

/-- The fence of `submit_fence`, when there is one. With the command buffer the queue gets the
buffers of its copies. -/
def fenceEvents (cmd : Nat) (recorded : List Nat) (answers : SubmitAnswers) : List VkEvent :=
  match answers.fence with
  | none => []
  | some fence =>
    [.create (.fence fence), .use (.commandBuffer cmd), .use (.fence fence)] ++
      recorded.map (fun buf => .use (.buffer buf)) ++
      (if answers.queued then [.use (.fence fence)] else []) ++ [.destroy (.fence fence)]

/-- The fence value is new, something is recorded and there is a fence, so `submit_fence` comes to
the queue. -/
def reachesQueue (batch : GpuBatch) (fenceValue : Nat) (answers : SubmitAnswers) : Bool :=
  decide (batch.fenceSignalled < fenceValue) && batch.valid && batch.cmd.isSome && answers.ended && answers.fence.isSome

/-- `submit_fence`, with the log if one is given. -/
def submitFence (batch : GpuBatch) (log : Option GpuStub) (fenceValue : Nat) (answers : SubmitAnswers) :
    GpuBatch × Option GpuStub × List VkEvent × Bool :=
  if fenceValue ≤ batch.fenceSignalled then (batch, log, [], false)
  else if !batch.valid then (batch, log, [], false)
  else
    match batch.cmd with
    | none => (batch, log, [], false)
    | some cmd =>
      if !answers.ended then (batch, log, [.use (.commandBuffer cmd)], false)
      else
        let events : List VkEvent :=
          [.use (.commandBuffer cmd)] ++ fenceEvents cmd batch.recorded answers ++ [.destroy (.commandBuffer cmd)]
        if answers.fence.isSome && answers.queued && answers.waited then
          let submits := (batch.submits + 1) % 2 ^ 64
          ({ batch with cmd := none, recorded := [], submits, fenceSignalled := fenceValue },
            log.map (fun log => log.submit { type := 10, addr := batch.pushSize, size := submits % 2 ^ 32 }),
            events, true)
        else ({ batch with cmd := none, recorded := [] }, log, events, false)

/-- `submit`. -/
def submit (batch : GpuBatch) (log : Option GpuStub) (answers : SubmitAnswers) :
    GpuBatch × Option GpuStub × List VkEvent × Bool :=
  batch.submitFence log ((batch.fenceSignalled + 1) % 2 ^ 64) answers

end GpuBatch

/-! ## A title that uses batches -/

/-- The contents of a binding: the buffer and the length of its range. -/
abbrev BoundBuffer := Option (Option Nat × Nat)

/-- The guest's memory, the device, the title's buffers, its batch and its log. `descriptors` are the contents
of the batch's descriptor set. -/
structure Title where
  device : VulkanDev := {}
  mem : MemMap := {}
  buffers : List VulkanBuffer := []
  batch : GpuBatch := {}
  descriptors : Nat → BoundBuffer := fun _ => none
  log : GpuStub := {}

namespace Title

/-- A buffer of the title; a place without one counts as a buffer that is not valid. -/
def buffer (title : Title) (index : Nat) : VulkanBuffer := title.buffers.getD index {}

/-- The calls that a title makes. -/
inductive Request where
  | memory (op : MemMap.Op)
  | createBuffer (size : Nat) (fast : Bool) (answers : BufferAnswers)
  | destroyBuffer (index : Nat)
  | init (params : List RootParam) (answers : BatchAnswers)
  | shutdown
  | attachMem (attached : Bool)
  | registerBuffer (gpa index : Nat)
  | unregisterBuffer (gpa : Nat)
  | push (rootIndex : Nat) (vals : Option (List Nat))
  | bind (rootIndex index : Nat)
  | bindGpa (rootIndex gpa : Nat)
  | begin (answers : BeginAnswers)
  | copy (dst src : Nat)
  | copyGpa (dst src size : Nat)
  | submit (logged : Bool) (answers : SubmitAnswers)
  | submitFence (logged : Bool) (fenceValue : Nat) (answers : SubmitAnswers)
deriving DecidableEq

/-- The result of a request and the calls that it has made. -/
structure Reply where
  ok : Bool := true
  events : List VkEvent := []
deriving DecidableEq

/-- The memory types of the device. -/
def types (title : Title) : List MemoryType := (title.device.phys.map PhysicalDevice.memoryTypes).getD []

/-- `bind`, and what the driver does with the write. -/
def bindBuffer (title : Title) (rootIndex : Nat) (buffer : VulkanBuffer) : Title × Reply :=
  match title.batch.bind rootIndex buffer with
  | none => (title, { ok := false })
  | some write =>
    ({ title with
        descriptors := fun binding =>
          if binding = write.binding then some (write.buffer, write.range) else title.descriptors binding },
      { events := title.batch.pool.toList.map (fun pool => .use (.descriptorPool pool)) ++
          buffer.buf.toList.map (fun buf => .use (.buffer buf)) })

/-- `copy`, for two buffers of the title. -/
def copyBuffers (title : Title) (dst src : Nat) : Title × Reply :=
  let (batch, events, ok) := title.batch.copy (title.buffer dst) (title.buffer src)
  ({ title with batch }, { ok, events })

/-- `copy_gpa`. -/
def copyRegistered (title : Title) (dst src size : Nat) : Title × Reply :=
  if size == 0 then (title, { ok := false })
  else
    match title.batch.findBinding dst, title.batch.findBinding src with
    | some dst, some src =>
      if (title.buffer dst).size != (title.buffer src).size then (title, { ok := false })
      else if size != (title.buffer dst).size then (title, { ok := false })
      else title.copyBuffers dst src
    | _, _ => (title, { ok := false })

/-- A submission with the title's log, or with none. -/
def submitted (title : Title) (logged : Bool)
    (submission : Option GpuStub → GpuBatch × Option GpuStub × List VkEvent × Bool) : Title × Reply :=
  let (batch, log, events, ok) := submission (if logged then some title.log else none)
  ({ title with batch, log := log.getD title.log }, { ok, events })

/-- One call. -/
def serve (title : Title) : Request → Title × Reply
  | .memory op => ({ title with mem := (title.mem.exec op).1 }, {})
  | .createBuffer size fast answers =>
    let (created, events) := VulkanBuffer.create title.device title.types size fast answers
    ({ title with buffers := title.buffers ++ [created.getD {}] }, { ok := created.isSome, events })
  | .destroyBuffer index =>
    ({ title with buffers := title.buffers.set index (title.buffer index).destroy.1 },
      { events := (title.buffer index).destroy.2 })
  | .init params answers =>
    let (batch, events, ok) := title.batch.init title.device params answers
    ({ title with batch, descriptors := fun _ => none }, { ok, events })
  | .shutdown =>
    ({ title with batch := title.batch.shutdown.1, descriptors := fun _ => none },
      { events := title.batch.shutdown.2 })
  | .attachMem attached => ({ title with batch := title.batch.attachMem attached }, {})
  | .registerBuffer gpa index =>
    let (batch, ok) := title.batch.registerBuffer title.mem gpa index (title.buffer index)
    ({ title with batch }, { ok })
  | .unregisterBuffer gpa => ({ title with batch := title.batch.unregisterBuffer gpa }, {})
  | .push rootIndex vals =>
    let (batch, ok) := title.batch.push rootIndex vals
    ({ title with batch }, { ok })
  | .bind rootIndex index => title.bindBuffer rootIndex (title.buffer index)
  | .bindGpa rootIndex gpa =>
    match title.batch.findBinding gpa with
    | none => (title, { ok := false })
    | some index => title.bindBuffer rootIndex (title.buffer index)
  | .begin answers =>
    let (batch, events, ok) := title.batch.begin answers
    ({ title with batch }, { ok, events })
  | .copy dst src => title.copyBuffers dst src
  | .copyGpa dst src size => title.copyRegistered dst src size
  | .submit logged answers => title.submitted logged (fun log => title.batch.submit log answers)
  | .submitFence logged fenceValue answers =>
    title.submitted logged (fun log => title.batch.submitFence log fenceValue answers)

/-- A copy changes the contents of the command buffer and nothing else. -/
theorem copyBuffers_fst (title : Title) (dst src : Nat) :
    ∃ recorded, (title.copyBuffers dst src).1 = { title with batch := { title.batch with recorded } } := by
  simp only [copyBuffers, GpuBatch.copy]
  split
  · exact ⟨_, rfl⟩
  · split
    · exact ⟨_, rfl⟩
    · exact ⟨_, rfl⟩

/-- Binding changes the contents of the descriptor set and nothing else. -/
theorem bindBuffer_fst (title : Title) (rootIndex : Nat) (buffer : VulkanBuffer) :
    ∃ descriptors, (title.bindBuffer rootIndex buffer).1 = { title with descriptors } := by
  rw [bindBuffer]
  split
  · exact ⟨_, rfl⟩
  · exact ⟨_, rfl⟩

/-- A copy by address is refused, or it is one of the registered buffers. -/
theorem copyRegistered_cases (title : Title) (dst src size : Nat) :
    title.copyRegistered dst src size = (title, { ok := false }) ∨
      ∃ target origin, title.copyRegistered dst src size = title.copyBuffers target origin := by
  rw [copyRegistered]
  split
  · exact Or.inl rfl
  · split
    · rename_i target origin _ _
      split
      · exact Or.inl rfl
      · split
        · exact Or.inl rfl
        · exact Or.inr ⟨target, origin, rfl⟩
    · exact Or.inl rfl

end Title

end SeriesxEmu
