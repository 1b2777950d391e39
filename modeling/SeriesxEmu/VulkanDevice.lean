import SeriesxEmu.Ledgers

/-!
# The host's graphics device

The emulator takes one physical device of the host, a memory type for each of the two pools and a
command pool. The answers of the host's driver are arguments. Two promises of the driver have names:
that a call that fails leaves its handle null (`Created`), and that a query with room for fewer devices
than there are is no success (`DeviceQuery.Lists`).
-/

namespace SeriesxEmu

open Ledgers

/-- What is destroyed explicitly. -/
inductive VkObject where
  | inst (handle : Nat)
  | device (handle : Nat)
  | commandPool (handle : Nat)
  | commandBuffer (handle : Nat)
  | fence (handle : Nat)
  | buffer (handle : Nat)
  | memory (handle : Nat)
  | setLayout (handle : Nat)
  | descriptorPool (handle : Nat)
  | pipelineLayout (handle : Nat)
deriving DecidableEq, Repr

/-- An event of a Vulkan object. -/
abbrev VkEvent := Event VkObject

/-- The answer to a call that creates or allocates: the handle, or nothing when the call fails. One
option is enough because the driver leaves a null handle behind when it fails; the code tests the
result in some places and the handle in others. -/
abbrev Created := Option Nat

/-- The property flags of a memory type that are looked at. -/
structure MemoryType where
  deviceLocal : Bool := false
  hostVisible : Bool := false
  hostCoherent : Bool := false
deriving DecidableEq, Repr

/-- A heap of the device. -/
structure MemoryHeap where
  size : Nat := 0
  deviceLocal : Bool := false
deriving DecidableEq, Repr

/-- What the driver tells about a physical device. `queues` says which queue families have graphics. -/
structure PhysicalDevice where
  handle : Nat
  discrete : Bool := false
  vendorId : Nat := 0
  deviceName : String := ""
  queues : List Bool := []
  memoryTypes : List MemoryType := []
  memoryHeaps : List MemoryHeap := []
deriving DecidableEq, Repr

/-- The vendor that is preferred. -/
def kAmd : Nat := 0x1002

/-- `UINT32_MAX`, which stands for no memory type. -/
def kNoType : Nat := 2 ^ 32 - 1

/-! ## Choosing a device -/

/-- The driver's answers to `vkEnumeratePhysicalDevices`: how many devices there are, and the
devices themselves when there is room for so many. Nothing stands for a call without success. -/
structure DeviceQuery where
  count : Option Nat := none
  list : Nat → Option (List PhysicalDevice) := fun _ => none

namespace DeviceQuery

/-- The driver has these devices: it lists all of them when there is room, and a query with room for
fewer ends with `VK_INCOMPLETE`, which is no success. -/
structure Lists (query : DeviceQuery) (devices : List PhysicalDevice) : Prop where
  count : query.count = some devices.length
  complete : ∀ room, devices.length ≤ room → query.list room = some devices
  incomplete : ∀ room, room < devices.length → query.list room = none

/-- A driver with these devices. -/
def of (devices : List PhysicalDevice) : DeviceQuery where
  count := some devices.length
  list room := if room < devices.length then none else some devices

/-- The driver of a list of devices lists them. -/
theorem of_lists (devices : List PhysicalDevice) : (of devices).Lists devices :=
  ⟨rfl, fun _ enough => if_neg (Nat.not_lt.mpr enough), fun _ short => if_pos short⟩

end DeviceQuery

/-- The two queries of `vkEnumeratePhysicalDevices`, the second with room for at most eight devices. -/
def enumerate (query : DeviceQuery) : Option (List PhysicalDevice) :=
  match query.count with
  | none => none
  | some count => if count = 0 then none else query.list (min count 8)

/-- One turn of the loop of `pick_gpu`: `have` and `cp` are one option here. -/
def pickTurn (chosen : Option PhysicalDevice) (device : PhysicalDevice) : Option PhysicalDevice :=
  if device.discrete then
    match chosen with
    | none => some device
    | some best => if device.vendorId == kAmd && best.vendorId != kAmd then some device else some best
  else chosen

/-- `pick_gpu`. -/
def pickGpu (query : DeviceQuery) : Option PhysicalDevice :=
  match enumerate query with
  | none => none
  | some devices => some ((devices.foldl pickTurn none).getD (devices.headD { handle := 0 }))

/-- `find_queue_family`, which looks at sixteen families. -/
def findQueueFamily (device : PhysicalDevice) : Nat := ((device.queues.take 16).findIdx? id).getD 0

/-- `VulkanHeapInfo`. -/
structure VulkanHeapInfo where
  found : Bool := false
  rebar : Bool := false
  deviceName : String := ""
  vramBytes : Nat := 0
  gttBytes : Nat := 0
deriving DecidableEq, Repr

/-- One turn of the loop over the devices in `query_vulkan_heaps`, where a null handle says that
none is chosen. -/
def queryTurn (chosen : Nat × PhysicalDevice) (device : PhysicalDevice) : Nat × PhysicalDevice :=
  if device.discrete then
    if chosen.1 == 0 || (device.vendorId == kAmd && chosen.2.vendorId != kAmd) then (device.handle, device) else chosen
  else chosen

/-- The device of `query_vulkan_heaps`. -/
def queriedDevice (devices : List PhysicalDevice) : PhysicalDevice :=
  let chosen := devices.foldl queryTurn (0, { handle := 0 })
  if chosen.1 == 0 then devices.headD { handle := 0 } else chosen.2

/-- One turn of the loop over the heaps: the largest of each kind. -/
def heapTurn (info : VulkanHeapInfo) (heap : MemoryHeap) : VulkanHeapInfo :=
  if heap.deviceLocal then
    if info.vramBytes < heap.size then { info with vramBytes := heap.size } else info
  else if info.gttBytes < heap.size then { info with gttBytes := heap.size }
  else info

/-- `query_vulkan_heaps`, where an instance can be made or not. -/
def queryVulkanHeaps (made : Bool) (query : DeviceQuery) : VulkanHeapInfo × Bool :=
  if !made then ({}, false)
  else
    match enumerate query with
    | none => ({}, false)
    | some devices =>
      let chosen := queriedDevice devices
      let info := chosen.memoryHeaps.foldl heapTurn { deviceName := chosen.deviceName }
      ({ info with
          rebar := chosen.memoryTypes.any (fun type => type.deviceLocal && type.hostVisible)
          found := true }, true)

/-- `xbox_split_fits`: ten gigabytes for the fast pool and six for the slow one. -/
def xboxSplitFits (info : VulkanHeapInfo) : Bool :=
  info.found && decide (10 * 2 ^ 30 ≤ info.vramBytes) && decide (6 * 2 ^ 30 ≤ info.gttBytes)

/-! ## Memory types -/

/-- The first type with the property, or none. -/
def firstType (types : List MemoryType) (wanted : MemoryType → Bool) : Nat := (types.findIdx? wanted).getD kNoType

/-- The two loops for the fast pool. -/
def fastType (types : List MemoryType) : Nat :=
  let own := firstType types (fun type => type.deviceLocal && !type.hostVisible)
  if own = kNoType then firstType types (fun type => type.deviceLocal && type.hostVisible) else own

/-- The loop for the slow pool from some index on. -/
def slowTurns : List MemoryType → Nat → Nat → Nat
  | [], _, slow => slow
  | type :: rest, index, slow =>
    if type.hostVisible && type.hostCoherent then
      if !type.deviceLocal then index
      else slowTurns rest (index + 1) (if slow = kNoType then index else slow)
    else slowTurns rest (index + 1) slow

/-- The type that the slow pool takes. -/
def slowType (types : List MemoryType) : Nat := slowTurns types 0 kNoType

/-! ## The device -/

/-- The device, as `init` builds it. -/
structure VulkanDev where
  inst : Option Nat := none
  phys : Option PhysicalDevice := none
  dev : Option Nat := none
  queue : Option Nat := none
  cmdPool : Option Nat := none
  queueFamily : Nat := 0
  fastType : Nat := kNoType
  slowType : Nat := kNoType
  fastMappable : Bool := false
  deviceName : String := ""
  valid : Bool := false
deriving DecidableEq, Repr

/-- The answers of the driver to `vulkan_dev_init`. -/
structure DeviceAnswers where
  inst : Created := none
  devices : DeviceQuery := {}
  dev : Created := none
  queue : Nat := 0
  cmdPool : Created := none

namespace VulkanDev

/-- The part of `vulkan_dev_init` that chooses the memory types; the command pool is there already. -/
def chooseTypes (d : VulkanDev) (phys : PhysicalDevice) (inst dev : Nat) : VulkanDev × List VkEvent × Bool :=
  let fast := SeriesxEmu.fastType phys.memoryTypes
  let slow := SeriesxEmu.slowType phys.memoryTypes
  if fast = kNoType ∨ slow = kNoType then
    ({ d with
        fastType := fast
        slowType := slow
        fastMappable := fast != kNoType && (phys.memoryTypes.getD fast {}).hostVisible
        dev := none
        inst := none }, [.destroy (.device dev), .destroy (.inst inst)], false)
  else
    ({ d with
        fastType := fast
        slowType := slow
        fastMappable := (phys.memoryTypes.getD fast {}).hostVisible
        valid := true }, [], true)

/-- `vulkan_dev_init`, with what it creates, uses and destroys. The physical devices are looked up
in the instance, and the queue and the command pool come from the device. -/
def init (answers : DeviceAnswers) : VulkanDev × List VkEvent × Bool :=
  match answers.inst with
  | none => ({}, [], false)
  | some inst =>
    match pickGpu answers.devices with
    | none => ({}, [.create (.inst inst), .use (.inst inst), .destroy (.inst inst)], false)
    | some phys =>
      let d : VulkanDev := { phys := some phys, deviceName := phys.deviceName, queueFamily := findQueueFamily phys }
      match answers.dev with
      | none => (d, [.create (.inst inst), .use (.inst inst), .destroy (.inst inst)], false)
      | some dev =>
        let d := { d with queue := some answers.queue }
        match answers.cmdPool with
        | none =>
          (d, [.create (.inst inst), .use (.inst inst), .create (.device dev), .use (.device dev),
            .destroy (.device dev), .destroy (.inst inst)], false)
        | some pool =>
          let (chosen, events, ok) :=
            { d with inst := some inst, dev := some dev, cmdPool := some pool }.chooseTypes phys inst dev
          (chosen, [.create (.inst inst), .use (.inst inst), .create (.device dev), .use (.device dev),
            .create (.commandPool pool)] ++ events, ok)

/-- `vulkan_dev_shutdown`. -/
def shutdown (d : VulkanDev) : VulkanDev × List VkEvent :=
  let pool : List VkEvent :=
    match d.dev, d.cmdPool with
    | some dev, some pool => [.use (.device dev), .destroy (.commandPool pool)]
    | _, _ => []
  let device : List VkEvent := d.dev.toList.map (fun dev => .destroy (.device dev))
  let inst : List VkEvent := d.inst.toList.map (fun inst => .destroy (.inst inst))
  ({}, pool ++ device ++ inst)

end VulkanDev

/-! ## Buffers -/

/-- A buffer with its memory. -/
structure VulkanBuffer where
  buf : Option Nat := none
  mem : Option Nat := none
  size : Nat := 0
  memType : Nat := kNoType
  fast : Bool := false
  valid : Bool := false
deriving DecidableEq, Repr

/-- The memory types that a resource admits. -/
def admits (typeBits index : Nat) : Bool := typeBits.testBit index

/-- The first index, from some index on, that is admitted and whose type has the property. -/
def firstAdmitted (typeBits : Nat) (wanted : MemoryType → Bool) : List MemoryType → Nat → Option Nat
  | [], _ => none
  | type :: rest, index =>
    if admits typeBits index && wanted type then some index else firstAdmitted typeBits wanted rest (index + 1)

/-- The kind of memory that a pool stands for. -/
def suits (fast : Bool) (type : MemoryType) : Bool :=
  if fast then type.deviceLocal else type.hostVisible && type.hostCoherent

/-- `pick_mem_type` of the buffers: the type of the pool, or else what the first of three loops finds. -/
def pickMemType (d : VulkanDev) (types : List MemoryType) (typeBits : Nat) (fast : Bool) : Option Nat :=
  let preferred := if fast then d.fastType else d.slowType
  if preferred != kNoType && admits typeBits preferred then some preferred
  else
    (firstAdmitted typeBits (suits fast) types 0).or
      ((firstAdmitted typeBits (fun type => !fast && type.hostVisible) types 0).or
        (firstAdmitted typeBits (fun _ => true) types 0))

/-- The answers of the driver to `vulkan_buffer_create`. -/
structure BufferAnswers where
  buf : Created := none
  typeBits : Nat := 0
  mem : Created := none
  bound : Bool := false
deriving DecidableEq, Repr

namespace VulkanBuffer

/-- `vulkan_buffer_create`: the buffer that is handed out, if any. -/
def create (d : VulkanDev) (types : List MemoryType) (size : Nat) (fast : Bool) (answers : BufferAnswers) :
    Option VulkanBuffer × List VkEvent :=
  if !d.valid || size == 0 then (none, [])
  else
    match answers.buf with
    | none => (none, [])
    | some buf =>
      match pickMemType d types answers.typeBits fast with
      | none => (none, [.create (.buffer buf), .destroy (.buffer buf)])
      | some memType =>
        match answers.mem with
        | none => (none, [.create (.buffer buf), .destroy (.buffer buf)])
        | some mem =>
          if answers.bound then
            (some { buf := some buf, mem := some mem, size, memType, fast, valid := true },
              [.create (.buffer buf), .create (.memory mem), .use (.buffer buf), .use (.memory mem)])
          else
            (none, [.create (.buffer buf), .create (.memory mem), .use (.buffer buf), .use (.memory mem),
              .destroy (.memory mem), .destroy (.buffer buf)])

/-- `vulkan_buffer_destroy`. -/
def destroy (buffer : VulkanBuffer) : VulkanBuffer × List VkEvent :=
  let buf : List VkEvent := buffer.buf.toList.map (fun buf => .destroy (.buffer buf))
  let mem : List VkEvent := buffer.mem.toList.map (fun mem => .destroy (.memory mem))
  ({}, buf ++ mem)

end VulkanBuffer

end SeriesxEmu
