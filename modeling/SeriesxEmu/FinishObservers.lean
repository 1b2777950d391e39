import SeriesxEmu.FinishedFibers
import SeriesxEmu.Words

/-!
# One scheduler, two finish observers

An `XboxKrnl` and a `FiberTls` may share one `GuestScheduler`. Each wants to know when a
fiber finishes: the kernel registers with `add_finish_hook` when it is constructed, the
thread-local storage with `set_on_finish` when its first fiber is spawned, and the latter
forgets every hook registered before it. The kernel's own actions are those of its machine in
words, except that the end of a fiber runs the hooks that are registered; before the kernel is
constructed its part of the state is that of a new kernel, on the shared scheduler.
-/

namespace SeriesxEmu

open Scheduler GuestScheduler

/-! ## Thread-local storage -/

/-- `FiberTls::Event`: a recorded notification. -/
structure TlsEvent where
  fiber : Nat
  callback : Nat
  reason : Nat
deriving DecidableEq, Repr

/-- `DLL_PROCESS_ATTACH`, for the first fiber with storage. -/
def kReasonProcessAttach : Nat := 1
/-- `DLL_THREAD_ATTACH`, for every later one. -/
def kReasonThreadAttach : Nat := 2
/-- `DLL_THREAD_DETACH`, when a fiber with storage finishes. -/
def kReasonThreadDetach : Nat := 3

/-- `FiberTls::kSlots`. -/
def kTlsSlots : Nat := 64

/-- `FiberTls::Init`: what each fiber's storage is filled with. -/
structure TlsInit where
  raw : List UInt8 := []
  zeroFill : Nat := 0
  index : Nat := 0
  callbacks : List Nat := []

/-- `FiberTls::Block` with its contents: the slots as host pointers, null as zero. -/
structure TlsBlock where
  array : Nat
  slots : List Nat
  bytes : List UInt8
deriving DecidableEq

/-- The storage: what every fiber is to get, the notifications in their order, the blocks of the
fibers, and whether the process has been attached and the hook set. -/
structure FiberTls where
  init : Option TlsInit := none
  events : List TlsEvent := []
  blocks : List (Nat × TlsBlock) := []
  mainSeen : Bool := false
  hookInstalled : Bool := false

namespace FiberTls

/-- The bytes of the pointer array at the start of a block. -/
def arrayBytes : Nat := kTlsSlots * 8

/-- The reserve at the top of the stack: array and data, rounded up to sixteen bytes. -/
def reserve (init : TlsInit) : Nat := (arrayBytes + (init.raw.length + init.zeroFill) + 15) / 16 * 16

/-- `set_init`: an index out of range is ignored. -/
def setInit (tls : FiberTls) (init : TlsInit) : FiberTls :=
  if kTlsSlots ≤ init.index then tls else { tls with init := some init }

/-- A notification goes to the end of the list. -/
def record (tls : FiberTls) (fiber callback reason : Nat) : FiberTls :=
  { tls with events := tls.events ++ [{ fiber, callback, reason }] }

/-- `install`, given the top of the fiber's stack if it has a reserve. -/
def install (tls : FiberTls) (init : TlsInit) (fiber : Nat) : Option Nat → FiberTls
  | none => tls
  | some array =>
    let block : TlsBlock :=
      { array, slots := (List.replicate kTlsSlots 0).set init.index (array + arrayBytes)
        bytes := init.raw ++ List.replicate init.zeroFill 0 }
    { tls with blocks := tls.blocks ++ [(fiber, block)] }

/-- The end of `spawn_with_tls`: the storage is filled and the attach events recorded. -/
def attach (tls : FiberTls) (init : TlsInit) (fiber : Nat) (top : Option Nat) : FiberTls :=
  let reason := if tls.mainSeen then kReasonThreadAttach else kReasonProcessAttach
  let installed := { tls.install init fiber top with mainSeen := true }
  if init.callbacks.isEmpty then installed.record fiber 0 reason
  else init.callbacks.foldl (fun tls callback => tls.record fiber callback reason) installed

/-- The fiber has a block. -/
def hasTls (tls : FiberTls) (fiber : Nat) : Bool := tls.blocks.any (fun entry => entry.1 == fiber)

/-- The attach records of a fiber: one for each callback, and a single one when there is none. -/
def notified (reason : Nat) (entry : Nat × TlsInit) : List TlsEvent :=
  (if entry.2.callbacks.isEmpty then [0] else entry.2.callbacks).map (fun callback =>
    { fiber := entry.1, callback, reason })

/-- The end of `spawn_with_tls`, with the records in one list. -/
theorem attach_eq (tls : FiberTls) (init : TlsInit) (fiber : Nat) (top : Option Nat) :
    tls.attach init fiber top = { tls.install init fiber top with
      mainSeen := true
      events := tls.events ++
        notified (if tls.mainSeen then kReasonThreadAttach else kReasonProcessAttach) (fiber, init) } := by
  have recorded : ∀ (callbacks : List Nat) (reason : Nat) (tls : FiberTls),
      callbacks.foldl (fun tls callback => tls.record fiber callback reason) tls =
        { tls with events := tls.events ++ callbacks.map (fun callback => { fiber, callback, reason }) } := by
    intro callbacks reason
    induction callbacks with
    | nil => simp
    | cons callback rest inductionHypothesis =>
      intro tls
      rw [List.foldl_cons, inductionHypothesis, List.map_cons]
      simp [record]
  have kept : (tls.install init fiber top).events = tls.events := by cases top <;> rfl
  unfold attach notified
  cases callbacks : init.callbacks.isEmpty with
  | true => simp [record, kept]
  | false => simp [recorded, kept]

end FiberTls

/-- `stack_top_reserve` of a scheduler. There is no result where the lookup by handle leads past
the end of the threads. -/
def stackTop (sched : GuestScheduler Token Context) (handle : Nat) : Option (Option Nat) :=
  match sched.find handle with
  | none => some none
  | some index => sched.threads[index]?.map (fun thread =>
      if thread.stackTopReserve = 0 then none
      else some (thread.stackBase + thread.stackMapSize - thread.stackTopReserve))

/-! ## The shared scheduler -/

/-- The finish hook of the kernel: it finishes the thread object of the fiber, which it looks up
by a narrowed handle. -/
def XboxKrnl.onFinish (krnl : XboxKrnl) (fiber : Nat) : XboxKrnl :=
  match krnl.findThreadByFiber (word fiber) with
  | some ptr => krnl.finishThreadObject ptr
  | none => krnl

/-- A finish hook, by its owner. -/
inductive Observer where
  | kernel
  | tls
deriving DecidableEq, Repr

/-- A scheduler with its observers. -/
structure SharedHost where
  krnl : XboxKrnl
  constructed : Bool := false
  finishHooks : List Observer := []
  tls : FiberTls := {}

/-- What the host and the fibers do. -/
inductive HostAction where
  /-- An `XboxKrnl` is constructed on the scheduler. -/
  | construct
  | setInit (init : TlsInit)
  | spawnWithTls (region : Option Nat)
  | act (action : Action)

namespace SharedHost

/-- `set_on_finish`: the hooks registered before are gone. -/
def setOnFinish (host : SharedHost) (hook : Observer) : SharedHost := { host with finishHooks := [hook] }

/-- `add_finish_hook` chains a hook behind those that are there. -/
def addFinishHook (host : SharedHost) (hook : Observer) : SharedHost :=
  { host with finishHooks := host.finishHooks ++ [hook] }

/-- What kernel code does to its part. -/
def onKrnl (host : SharedHost) (change : XboxKrnl → XboxKrnl) : SharedHost := { host with krnl := change host.krnl }

/-- A finish hook is called for the fiber. -/
def runHook (fiber : Nat) (host : SharedHost) : Observer → SharedHost
  | .kernel => host.onKrnl (fun krnl => krnl.onFinish fiber)
  | .tls => { host with tls := host.tls.record fiber 0 kReasonThreadDetach }

/-- `thread_finish` with the registered hooks. -/
def threadFinish (host : SharedHost) (code : Int) : SharedHost :=
  match host.krnl.sched.current with
  | none => host
  | some index =>
    let handle := host.krnl.currentHandle
    let ended := host.onKrnl (fun krnl => krnl.marked index code handle)
    (host.finishHooks.foldl (runHook handle) ended).onKrnl (fun krnl =>
      { krnl with sched := krnl.sched.switchToScheduler })

/-- The end of a fiber body, which runs all the hooks that are registered. -/
def finishBody (host : SharedHost) (code : Int) : Option SharedHost :=
  match host.krnl.currentFiber with
  | none => none
  | some fiber =>
    match fiber.ctx.body with
    | .native => some (host.threadFinish code)
    | .systhread none => some (host.threadFinish 0)
    | .systhread (some self) =>
      if host.krnl.live self then some ((host.onKrnl (fun krnl => krnl.finishThreadObject self)).threadFinish 0)
      else none

/-- The second half of a system thread body. -/
def runBody (host : SharedHost) (self : Option Ptr) : Option SharedHost :=
  if host.krnl.threadRunner then (host.krnl.runBody self).map (fun krnl => { host with krnl })
  else
    match self with
    | none => host.finishBody 0
    | some ptr =>
      (host.onKrnl (fun krnl => krnl.modify ptr (fun o =>
        { o with thread := { o.thread with runnableMissingCore := true } }))).finishBody 0

/-- The first dispatch of a fiber. -/
def enterBody (host : SharedHost) : Body → Option SharedHost
  | .native => some host
  | .systhread _ =>
    let self := host.krnl.findThreadByFiber (word host.krnl.currentHandle)
    let captured := host.onKrnl (fun krnl => krnl.setBody (.systhread self))
    match self with
    | some ptr =>
      if 0 < (host.krnl.object ptr).thread.suspendCount then
        some (captured.onKrnl (fun krnl => krnl.blockCurrent (host.krnl.object ptr).token kNoTimeout .parked))
      else captured.runBody self
    | none => captured.runBody none

/-- A fiber that has just been switched in. It ends only from the start of its body or from
where it was parked; everywhere else kernel code alone runs on. -/
def resume (host : SharedHost) : Option SharedHost :=
  match host.krnl.currentFiber with
  | none => none
  | some fiber =>
    let running := host.onKrnl (fun krnl => krnl.setPoint .guest)
    match fiber.ctx.point with
    | .entry => running.enterBody fiber.ctx.body
    | .parked =>
      match fiber.ctx.body with
      | .systhread (some self) => if running.krnl.live self then running.runBody (some self) else none
      | _ => none
    | _ => host.krnl.resume.map (fun krnl => { host with krnl })

/-- `PsTerminateSystemThread`, which ends the fiber and so runs the hooks. -/
def psTerminateSystemThread (host : SharedHost) (exitStatus : Nat) : SharedHost × Option Reply :=
  match host.krnl.findThreadByFiber (word host.krnl.currentHandle) with
  | none => (host, some reject)
  | some ptr => ((host.onKrnl (fun krnl => krnl.finishThreadObject ptr)).threadFinish (int32 exitStatus), none)

/-- One action of the kernel's machine, on a scheduler with observers. Kernel calls need a
kernel. -/
def act (host : SharedHost) : Action → Option SharedHost
  | .turn =>
    if host.krnl.sched.current.isNone && host.krnl.sched.inLoop then
      match host.krnl.sched.loopTurn with
      | (sched, .dispatched _) => (host.onKrnl (fun krnl => { krnl with sched })).resume
      | (sched, _) => some (host.onKrnl (fun krnl => { krnl with sched }))
    else none
  | .finish code => host.finishBody code
  | .call call =>
    if !host.constructed then none
    else
      match call with
      | .psTerminateSystemThread exitStatus =>
        if host.krnl.active && host.krnl.findsItselfWord then
          let (called, reply) := (host.onKrnl XboxKrnl.refreshData).psTerminateSystemThread exitStatus
          some (called.onKrnl (fun krnl => krnl.deliver reply))
        else none
      | call => (host.krnl.step (.call call)).map (fun krnl => { host with krnl })
  | action => (host.krnl.step action).map (fun krnl => { host with krnl })

/-- The storage sets its finish hook once. -/
def hookTls (host : SharedHost) : SharedHost :=
  if host.tls.hookInstalled then host
  else { host.setOnFinish .tls with tls := { host.tls with hookInstalled := true } }

/-- `spawn_with_tls`. The hook is set before the fiber is spawned, and stays set when the spawn
is rejected. -/
def spawnWithTls (host : SharedHost) (region : Option Nat) : Option SharedHost :=
  match host.tls.init with
  | none => some host
  | some init =>
    let hooked := host.hookTls
    let (sched, fiber) := hooked.krnl.sched.spawnReserved { body := .native, point := .entry }
      (FiberTls.reserve init) region
    let spawned := hooked.onKrnl (fun krnl => { krnl with sched })
    if fiber = 0 then some spawned
    else (stackTop sched fiber).map (fun top => { spawned with tls := spawned.tls.attach init fiber top })

/-- One action of the title: it sets up the storage or the kernel, spawns a fiber with storage, or
lets the shared scheduler and the kernel go on. -/
def perform (host : SharedHost) : HostAction → Option SharedHost
  | .construct =>
    if host.krnl.active && !host.constructed then some ({ host with constructed := true }.addFinishHook .kernel)
    else none
  | .setInit init => if host.krnl.active then some { host with tls := host.tls.setInit init } else none
  | .spawnWithTls region => if host.krnl.active then host.spawnWithTls region else none
  | .act action => host.act action

/-- One action, after which the words of the kernel are narrowed. -/
def step (host : SharedHost) (action : HostAction) : Option SharedHost :=
  (host.perform action).bind (fun next =>
    if next.krnl.overflown then none else some (next.onKrnl XboxKrnl.inWords))

/-- A scheduler without threads and observers, on any memory. -/
def initial (ram : XbeRam) (addresses : Nat → Nat) (threadRunner : Bool) (kernelDataVa : Nat) : SharedHost :=
  { krnl := XboxKrnl.initial ram addresses threadRunner kernelDataVa }

/-- The host has run the actions, and every step met the condition in the state before it. -/
def ReachesUnder (condition : SharedHost → HostAction → Prop) (host : SharedHost)
    (actions : List HostAction) : Prop :=
  ∃ ram addresses threadRunner kernelDataVa,
    Runs.run step (initial ram addresses threadRunner kernelDataVa) actions = some host ∧
      Runs.Along step condition (initial ram addresses threadRunner kernelDataVa) actions

end SharedHost

/-! ## A kernel that is not there yet -/

namespace XboxKrnl

variable {krnl next : XboxKrnl}

/-- No thread object can be found. -/
structure Threadless (krnl : XboxKrnl) : Prop where
  objects : krnl.objects = []
  identities : krnl.fiberThreads = []

/-- Where there is no thread object, no fiber has one. -/
theorem Threadless.unfound (threadless : krnl.Threadless) (fiber : Nat) : krnl.findThreadByFiber fiber = none := by
  have unknown : krnl.fiberThread? fiber = none := by simp [fiberThread?, threadless.identities]
  simp [findThreadByFiber, unknown, threadless.objects]

/-- Finishing a thread object changes objects, their mirrors and the states of fibers. -/
theorem finishThreadObject_eq (krnl : XboxKrnl) (ptr : Ptr) :
    ∃ heap ram sched, krnl.finishThreadObject ptr = { krnl with heap, ram, sched } := by
  have abandoned : ∀ (token : Nat) (ptrs : List Ptr) (krnl : XboxKrnl),
      ∃ heap ram sched, ptrs.foldl (abandon token) krnl = { krnl with heap, ram, sched } := by
    intro token ptrs
    induction ptrs with
    | nil => exact fun krnl => ⟨krnl.heap, krnl.ram, krnl.sched, rfl⟩
    | cons target rest inductionHypothesis =>
      intro krnl
      obtain ⟨heap, ram, sched, same⟩ := inductionHypothesis (krnl.abandon token target)
      rw [List.foldl_cons, same]
      unfold abandon
      split
      · rw [wakeObject_eq]
        exact ⟨heap, ram, sched, rfl⟩
      · exact ⟨heap, ram, sched, rfl⟩
  simp only [finishThreadObject]
  obtain ⟨heap, ram, sched, same⟩ := abandoned (krnl.object ptr).thread.threadId
    (krnl.objects.filterMap id ++ krnl.vaObjects) (krnl.stopThread ptr)
  rw [same, wakeObject_eq]
  exact ⟨_, ram, _, rfl⟩

/-- Nothing has used the kernel: it has no thread objects, and all fibers are native ones that
have made no kernel call. -/
structure Unbuilt (krnl : XboxKrnl) : Prop where
  threadless : krnl.Threadless
  fibers : ∀ fiber ∈ krnl.sched.threads, fiber.ctx.body = .native ∧
    (fiber.ctx.point = .entry ∨ fiber.ctx.point = .guest)

/-- A change of one fiber that leaves it a plain fiber in its body or in front of it leaves all of
them so. -/
theorem Unbuilt.modified (unbuilt : krnl.Unbuilt) (index : Nat) (change : Fiber → Fiber)
    (plain : ∀ fiber, fiber.ctx.body = .native ∧ (fiber.ctx.point = .entry ∨ fiber.ctx.point = .guest) →
      (change fiber).ctx.body = .native ∧ ((change fiber).ctx.point = .entry ∨ (change fiber).ctx.point = .guest)) :
    ∀ fiber ∈ krnl.sched.threads.modify index change, fiber.ctx.body = .native ∧
      (fiber.ctx.point = .entry ∨ fiber.ctx.point = .guest) := by
  intro fiber member
  obtain ⟨position, found⟩ := List.mem_iff_getElem?.mp member
  rw [List.getElem?_modify] at found
  obtain ⟨earlier, before, rfl⟩ := Option.map_eq_some_iff.mp found
  have plainBefore := unbuilt.fibers earlier (List.mem_of_getElem? before)
  split
  · exact plain earlier plainBefore
  · exact plainBefore

/-- Before there is a kernel, a turn of the loop switches to plain fibers only. -/
theorem Unbuilt.turn (unbuilt : krnl.Unbuilt) (idle : krnl.sched.current = none) :
    ((Effect.turn).apply krnl).Unbuilt := by
  refine ⟨⟨unbuilt.threadless.objects, unbuilt.threadless.identities⟩, fun fiber member => ?_⟩
  obtain ⟨index, found⟩ := List.mem_iff_getElem?.mp member
  obtain ⟨earlier, passed, before, passes, outcome⟩ := Effect.turn_origin idle found
  have same : fiber.ctx = earlier.ctx := by
    rcases outcome with ⟨rfl, _⟩ | ⟨_, _, rfl⟩
    · exact passes.same.2.1
    · exact passes.same.2.1
  rw [same]
  exact unbuilt.fibers earlier (List.mem_of_getElem? before)

/-- They just go on. -/
theorem Unbuilt.resume (unbuilt : krnl.Unbuilt) (resumed : krnl.resume = some next) : next.Unbuilt := by
  unfold XboxKrnl.resume at resumed
  cases running : krnl.currentFiber with
  | none => simp [running] at resumed
  | some fiber =>
    obtain ⟨index, switched, found⟩ := currentFiber_index running
    obtain ⟨native, point⟩ := unbuilt.fibers fiber (List.mem_of_getElem? found)
    have left : next = krnl.setPoint .guest := by
      rcases point with entry | guest
      · simpa [running, entry, native, XboxKrnl.enterBody, eq_comm] using resumed
      · simpa [running, guest, eq_comm] using resumed
    rw [left]
    unfold setPoint
    rw [switched]
    exact ⟨⟨unbuilt.threadless.objects, unbuilt.threadless.identities⟩,
      unbuilt.modified index _ (fun _ plain => ⟨plain.1, Or.inr rfl⟩)⟩

/-- `thread_finish` of the machine: the fiber is marked, and the hook of the kernel runs. -/
theorem threadFinish_onFinish {index : Nat} (switched : krnl.sched.current = some index) (code : Int) :
    krnl.threadFinishWord code =
      { (krnl.marked index code krnl.currentHandle).onFinish krnl.currentHandle with
        sched :=
          ((krnl.marked index code krnl.currentHandle).onFinish krnl.currentHandle).sched.switchToScheduler } := by
  have start : ({ krnl with sched := krnl.sched.modifyThread index (fun thread =>
      { thread with exitCode := code, state := .finished }) } : XboxKrnl).note (.finished krnl.currentHandle) =
      krnl.marked index code krnl.currentHandle := rfl
  simp only [XboxKrnl.threadFinishWord, switched, start]
  rfl

/-- Where there is no thread object, the kernel's hook does nothing. -/
theorem Threadless.onFinish (threadless : krnl.Threadless) (fiber : Nat) : krnl.onFinish fiber = krnl := by
  simp only [XboxKrnl.onFinish, threadless.unfound]

/-- Marking a fiber finished makes no thread object. -/
theorem Threadless.marked (threadless : krnl.Threadless) (index : Nat) (code : Int) (handle : Nat) :
    (krnl.marked index code handle).Threadless :=
  ⟨threadless.objects, threadless.identities⟩

/-- Without thread objects the hook of the kernel has nothing to do. -/
theorem Threadless.threadFinish (threadless : krnl.Threadless) {index : Nat}
    (switched : krnl.sched.current = some index) (code : Int) :
    krnl.threadFinish code = { krnl.marked index code krnl.currentHandle with
      sched := (krnl.marked index code krnl.currentHandle).sched.switchToScheduler } := by
  have start : ({ krnl with sched := krnl.sched.modifyThread index (fun thread =>
      { thread with exitCode := code, state := .finished }) } : XboxKrnl).note (.finished krnl.currentHandle) =
      krnl.marked index code krnl.currentHandle := rfl
  simp only [XboxKrnl.threadFinish, switched, start, (threadless.marked _ _ _).unfound]

/-- A plain fiber ends without one. -/
theorem Unbuilt.finish (unbuilt : krnl.Unbuilt) {code : Int} (finished : krnl.finishBody code = some next) :
    next.Unbuilt := by
  unfold XboxKrnl.finishBody at finished
  cases running : krnl.currentFiber with
  | none => simp [running] at finished
  | some fiber =>
    obtain ⟨index, switched, found⟩ := currentFiber_index running
    have native := (unbuilt.fibers fiber (List.mem_of_getElem? found)).1
    simp only [running, native, unbuilt.threadless.threadFinish switched] at finished
    obtain rfl := Option.some.inj finished
    exact ⟨⟨unbuilt.threadless.objects, unbuilt.threadless.identities⟩,
      unbuilt.modified index (ended code) (fun _ plain => plain)⟩

/-- A plain fiber is spawned. -/
theorem Unbuilt.spawn (unbuilt : krnl.Unbuilt) (stackTopReserve : Nat) (region : Option Nat) :
    ({ krnl with sched := (krnl.sched.spawnReserved { body := .native, point := .entry } stackTopReserve
      region).1 } : XboxKrnl).Unbuilt := by
  refine ⟨⟨unbuilt.threadless.objects, unbuilt.threadless.identities⟩, ?_⟩
  unfold spawnReserved
  split
  · exact unbuilt.fibers
  · cases region with
    | none => exact unbuilt.fibers
    | some base =>
      intro fiber member
      rcases List.mem_append.mp member with old | new
      · exact unbuilt.fibers fiber old
      · obtain rfl := List.mem_singleton.mp new
        exact ⟨rfl, Or.inl rfl⟩

/-- A fiber of a host without a kernel makes no thread object. -/
theorem Unbuilt.step (unbuilt : krnl.Unbuilt) {action : Action} (noCall : ∀ call, action ≠ .call call)
    (stepped : krnl.step action = some next) : next.Unbuilt := by
  have kept : ∀ sched : GuestScheduler Token Context, (∀ fiber ∈ sched.threads, fiber.ctx.body = .native ∧
      (fiber.ctx.point = .entry ∨ fiber.ctx.point = .guest)) → ({ krnl with sched } : XboxKrnl).Unbuilt :=
    fun sched fibers => ⟨⟨unbuilt.threadless.objects, unbuilt.threadless.identities⟩, fibers⟩
  cases action with
  | turn =>
    obtain ⟨idle, ⟨rfl, _⟩ | ⟨fiber, _, resumed⟩⟩ := turn_cases stepped
    · exact unbuilt.turn idle
    · exact (unbuilt.turn idle).resume resumed
  | call call => exact absurd rfl (noCall call)
  | finish code => exact unbuilt.finish stepped
  | run =>
    obtain ⟨_, _, rfl⟩ := run_cases stepped
    exact kept _ unbuilt.fibers
  | spawn stackTopReserve region =>
    obtain ⟨_, rfl⟩ := spawn_cases stepped
    exact unbuilt.spawn stackTopReserve region
  | sleep ticks =>
    obtain ⟨index, _, rfl⟩ := Option.map_eq_some_iff.mp stepped
    refine kept _ ?_
    unfold threadSleep threadYield
    split <;> exact unbuilt.modified index _ (fun _ plain => ⟨plain.1, Or.inr rfl⟩)
  | join target =>
    obtain ⟨index, _, rfl⟩ := Option.map_eq_some_iff.mp stepped
    refine kept _ ?_
    rcases GuestScheduler.join_cases krnl.sched index target (fun ctx => { ctx with point := .guest }) with same | same
    · rw [same]
      exact unbuilt.fibers
    · rw [same]
      exact unbuilt.modified index _ (fun _ plain => ⟨plain.1, Or.inr rfl⟩)
  | compute ram filetime =>
    obtain ⟨_, rfl⟩ := compute_cases stepped
    exact ⟨⟨unbuilt.threadless.objects, unbuilt.threadless.identities⟩, unbuilt.fibers⟩

/-- Finishing a thread object is no end of a fiber. -/
theorem endings_finishThreadObject (krnl : XboxKrnl) (ptr : Ptr) :
    (krnl.finishThreadObject ptr).endings = krnl.endings := by
  obtain ⟨heap, ram, sched, same⟩ := krnl.finishThreadObject_eq ptr
  rw [same]
  rfl

/-- Nor is the kernel's hook: the end is on record before it runs. -/
theorem endings_onFinish (krnl : XboxKrnl) (fiber : Nat) : (krnl.onFinish fiber).endings = krnl.endings := by
  unfold onFinish
  split
  · exact endings_finishThreadObject krnl _
  · rfl

end XboxKrnl

/-! ## What an action does beside the kernel -/

/-- What the hook of the thread-local storage records, if it is there. -/
def FiberTls.finished (tls : FiberTls) (fiber : Nat) : FiberTls :=
  if tls.hookInstalled then tls.record fiber 0 kReasonThreadDetach else tls

namespace SharedHost

variable {host middle next : SharedHost}

/-- The registered hooks are those of the observers that are there, each once; the storage's
is the first. -/
structure Registered (host : SharedHost) : Prop where
  hooks : host.finishHooks =
    (if host.tls.hookInstalled then [.tls] else []) ++ (if host.constructed then [.kernel] else [])
  threadless : host.constructed = false → host.krnl.Threadless

/-- Beside the kernel, the later host differs in the ends that the storage has recorded. -/
structure Tracks (host next : SharedHost) : Prop where
  constructed : next.constructed = host.constructed
  hooks : next.finishHooks = host.finishHooks
  ended : ∃ ended : List Nat, next.krnl.endings = ended ++ host.krnl.endings ∧
    next.tls = ended.foldr (fun fiber tls => tls.finished fiber) host.tls

/-- Two changes that the storage has tracked are tracked together. -/
theorem Tracks.trans (first : host.Tracks middle) (second : middle.Tracks next) : host.Tracks next := by
  obtain ⟨early, endings, tls⟩ := first.ended
  obtain ⟨late, laterEndings, laterTls⟩ := second.ended
  refine ⟨second.constructed.trans first.constructed, second.hooks.trans first.hooks, late ++ early, ?_, ?_⟩
  · rw [laterEndings, endings, List.append_assoc]
  · rw [laterTls, tls, List.foldr_append]

/-- Kernel code that ends no fiber. -/
theorem Tracks.kernel (host : SharedHost) (change : XboxKrnl → XboxKrnl)
    (same : (change host.krnl).endings = host.krnl.endings) : host.Tracks (host.onKrnl change) :=
  ⟨rfl, rfl, [], same, rfl⟩

/-- All observers that are there are called, in either order with the same result. -/
theorem Registered.runHooks (registered : host.Registered) (krnl : XboxKrnl)
    (threadless : host.constructed = false → krnl.Threadless) (fiber : Nat) :
    host.finishHooks.foldl (runHook fiber) (host.onKrnl (fun _ => krnl)) =
      { host with krnl := krnl.onFinish fiber, tls := host.tls.finished fiber } := by
  have hooks := registered.hooks
  obtain ⟨before, constructed, finishHooks, tls⟩ := host
  obtain ⟨init, events, blocks, mainSeen, hookInstalled⟩ := tls
  dsimp only at hooks threadless ⊢
  rw [hooks]
  cases constructed with
  | true => cases hookInstalled <;> rfl
  | false =>
    rw [(threadless rfl).onFinish]
    cases hookInstalled <;> rfl

/-- A fiber that ends runs the kernel's hook, if there is a kernel, and the storage notes down a
detach.

Proof: the hooks that are registered are known, so the fold over them is that of one hook or of
both. -/
theorem Registered.threadFinish (registered : host.Registered) (code : Int) :
    (host.threadFinish code).krnl = host.krnl.threadFinishWord code ∧ host.Tracks (host.threadFinish code) := by
  cases switched : host.krnl.sched.current with
  | none =>
    simp only [SharedHost.threadFinish, XboxKrnl.threadFinishWord, switched]
    exact ⟨trivial, Tracks.kernel host id rfl⟩
  | some index =>
    have hooked := XboxKrnl.threadFinish_onFinish switched code
    have threadless : host.constructed = false → (host.krnl.marked index code host.krnl.currentHandle).Threadless :=
      fun unbuilt => (registered.threadless unbuilt).marked _ _ _
    have called := registered.runHooks (host.krnl.marked index code host.krnl.currentHandle) threadless
      host.krnl.currentHandle
    simp only [onKrnl] at called
    simp only [SharedHost.threadFinish, switched, onKrnl, called]
    refine ⟨hooked.symm, rfl, rfl, [host.krnl.currentHandle], ?_, rfl⟩
    exact XboxKrnl.endings_onFinish (host.krnl.marked index code host.krnl.currentHandle) _

/-- A change of the kernel that makes no thread object leaves the hooks as they are. -/
theorem Registered.kernel (registered : host.Registered) (change : XboxKrnl → XboxKrnl)
    (objects : (change host.krnl).objects = host.krnl.objects)
    (identities : (change host.krnl).fiberThreads = host.krnl.fiberThreads) : (host.onKrnl change).Registered :=
  ⟨registered.hooks, fun unbuilt =>
    ⟨objects.trans (registered.threadless unbuilt).objects,
      identities.trans (registered.threadless unbuilt).identities⟩⟩

/-- The thread object is finished first, and then the fiber. -/
theorem Registered.finishObject (registered : host.Registered) (ptr : Ptr) (code : Int) :
    ((host.onKrnl (fun krnl => krnl.finishThreadObject ptr)).threadFinish code).krnl =
        (host.krnl.finishThreadObject ptr).threadFinishWord code ∧
      host.Tracks ((host.onKrnl (fun krnl => krnl.finishThreadObject ptr)).threadFinish code) := by
  obtain ⟨heap, ram, sched, same⟩ := host.krnl.finishThreadObject_eq ptr
  have objects : (host.krnl.finishThreadObject ptr).objects = host.krnl.objects := by rw [same]
  have identities : (host.krnl.finishThreadObject ptr).fiberThreads = host.krnl.fiberThreads := by rw [same]
  obtain ⟨finished, tracks⟩ := (registered.kernel (fun krnl => krnl.finishThreadObject ptr) objects
    identities).threadFinish code
  exact ⟨finished, (Tracks.kernel host _ (host.krnl.endings_finishThreadObject ptr)).trans tracks⟩

/-- The end of a body is that of the kernel alone, tracked by the storage. -/
theorem Registered.finishBody (registered : host.Registered) {code : Int}
    (finished : host.finishBody code = some next) :
    host.krnl.finishBodyWord code = some next.krnl ∧ host.Tracks next := by
  simp only [SharedHost.finishBody] at finished
  simp only [XboxKrnl.finishBodyWord]
  cases running : host.krnl.currentFiber with
  | none => simp [running] at finished
  | some fiber =>
    simp only [running] at finished ⊢
    cases body : fiber.ctx.body with
    | native =>
      simp only [body] at finished ⊢
      obtain rfl := Option.some.inj finished
      exact (registered.threadFinish code).imp_left (fun same => congrArg some same.symm)
    | systhread self =>
      cases self with
      | none =>
        simp only [body] at finished ⊢
        obtain rfl := Option.some.inj finished
        exact (registered.threadFinish 0).imp_left (fun same => congrArg some same.symm)
      | some self =>
        simp only [body] at finished ⊢
        split at finished
        · rename_i alive
          obtain rfl := Option.some.inj finished
          rw [if_pos alive]
          exact (registered.finishObject self 0).imp_left (fun same => congrArg some same.symm)
        · cases finished

/-- The second half of a system thread body is that of the kernel alone, tracked by the storage. -/
theorem Registered.runBody (registered : host.Registered) {self : Option Ptr}
    (ran : host.runBody self = some next) : host.krnl.runBodyWord self = some next.krnl ∧ host.Tracks next := by
  simp only [SharedHost.runBody] at ran
  cases runner : host.krnl.threadRunner with
  | true =>
    simp only [runner, ↓reduceIte] at ran
    obtain ⟨krnl, called, rfl⟩ := Option.map_eq_some_iff.mp ran
    refine ⟨by simpa only [XboxKrnl.runBodyWord, runner, ↓reduceIte] using called,
      Tracks.kernel host (fun _ => krnl) ?_⟩
    simp only [XboxKrnl.runBody, runner, ↓reduceIte] at called
    obtain rfl := Option.some.inj called
    rfl
  | false =>
    simp only [runner, Bool.false_eq_true, ↓reduceIte] at ran
    simp only [XboxKrnl.runBodyWord, runner, Bool.false_eq_true, ↓reduceIte]
    cases self with
    | none => exact registered.finishBody ran
    | some ptr =>
      obtain ⟨finished, tracks⟩ := (registered.kernel (fun krnl => krnl.modify ptr (fun o =>
        { o with thread := { o.thread with runnableMissingCore := true } })) rfl rfl).finishBody ran
      exact ⟨finished, (Tracks.kernel host _ rfl).trans tracks⟩

/-- What the body has captured is in the context of the fiber. -/
theorem endings_setBody (krnl : XboxKrnl) (body : Body) :
    (krnl.setBody body).endings = krnl.endings ∧ (krnl.setBody body).objects = krnl.objects ∧
      (krnl.setBody body).fiberThreads = krnl.fiberThreads := by
  unfold XboxKrnl.setBody
  split <;> exact ⟨rfl, rfl, rfl⟩

/-- So is where it stands. -/
theorem endings_setPoint (krnl : XboxKrnl) (point : Point) :
    (krnl.setPoint point).endings = krnl.endings ∧ (krnl.setPoint point).objects = krnl.objects ∧
      (krnl.setPoint point).fiberThreads = krnl.fiberThreads := by
  unfold XboxKrnl.setPoint
  split <;> exact ⟨rfl, rfl, rfl⟩

/-- A fiber that blocks does not end. -/
theorem endings_blockCurrent (krnl : XboxKrnl) (token : Token) (ticks : Nat) (point : Point) :
    (krnl.blockCurrent token ticks point).endings = krnl.endings := by
  unfold XboxKrnl.blockCurrent
  split <;> rfl

/-- The first dispatch is that of the kernel alone, tracked by the storage. -/
theorem Registered.enterBody (registered : host.Registered) {body : Body}
    (entered : host.enterBody body = some next) :
    host.krnl.enterBodyWord body = some next.krnl ∧ host.Tracks next := by
  cases body with
  | native =>
    obtain rfl := Option.some.inj entered
    exact ⟨rfl, Tracks.kernel _ id rfl⟩
  | systhread captured =>
    simp only [SharedHost.enterBody] at entered
    simp only [XboxKrnl.enterBodyWord]
    obtain ⟨endings, objects, identities⟩ :=
      endings_setBody host.krnl (.systhread (host.krnl.findThreadByFiber (word host.krnl.currentHandle)))
    have still := registered.kernel (fun krnl =>
      krnl.setBody (.systhread (host.krnl.findThreadByFiber (word host.krnl.currentHandle)))) objects identities
    have begun := Tracks.kernel host (fun krnl =>
      krnl.setBody (.systhread (host.krnl.findThreadByFiber (word host.krnl.currentHandle)))) endings
    cases self : host.krnl.findThreadByFiber (word host.krnl.currentHandle) with
    | none =>
      simp only [self] at entered still begun ⊢
      obtain ⟨ran, tracks⟩ := still.runBody entered
      exact ⟨ran, begun.trans tracks⟩
    | some ptr =>
      simp only [self] at entered still begun ⊢
      split at entered
      · rename_i suspended
        obtain rfl := Option.some.inj entered
        rw [if_pos suspended]
        exact ⟨rfl, begun.trans (Tracks.kernel _ _ (endings_blockCurrent _ _ _ _))⟩
      · rename_i ready
        rw [if_neg ready]
        obtain ⟨ran, tracks⟩ := still.runBody entered
        exact ⟨ran, begun.trans tracks⟩

/-- Whatever a fiber does when it is switched in is what it does in the kernel alone, tracked by the
storage. -/
theorem Registered.resume (registered : host.Registered) (ok : host.krnl.Ok) (resumed : host.resume = some next) :
    host.krnl.resumeWord = some next.krnl ∧ host.Tracks next := by
  cases running : host.krnl.currentFiber with
  | none => simp [SharedHost.resume, running] at resumed
  | some fiber =>
    obtain ⟨endings, objects, identities⟩ := endings_setPoint host.krnl .guest
    have still := registered.kernel (fun krnl => krnl.setPoint .guest) objects identities
    have begun := Tracks.kernel host (fun krnl => krnl.setPoint .guest) endings
    by_cases entry : fiber.ctx.point = .entry
    · simp only [SharedHost.resume, running, entry] at resumed
      simp only [XboxKrnl.resumeWord, running, entry]
      obtain ⟨entered, tracks⟩ := still.enterBody resumed
      exact ⟨entered, begun.trans tracks⟩
    · by_cases parked : fiber.ctx.point = .parked
      · cases body : fiber.ctx.body with
        | native => simp [SharedHost.resume, running, parked, body] at resumed
        | systhread captured =>
          cases captured with
          | none => simp [SharedHost.resume, running, parked, body] at resumed
          | some self =>
            simp only [SharedHost.resume, running, parked, body] at resumed
            simp only [XboxKrnl.resumeWord, running, parked, body]
            split at resumed
            · rename_i alive
              obtain ⟨ran, tracks⟩ := still.runBody resumed
              exact ⟨(if_pos alive).trans ran, begun.trans tracks⟩
            · cases resumed
      · have elsewhere : host.resume = host.krnl.resume.map (fun krnl => { host with krnl }) := by
          simp only [SharedHost.resume, running]
        rw [elsewhere] at resumed
        obtain ⟨krnl, went, rfl⟩ := Option.map_eq_some_iff.mp resumed
        have narrow : host.krnl.resumeWord = host.krnl.resume := by
          simp only [XboxKrnl.resumeWord, running]
        refine ⟨narrow.trans went, Tracks.kernel host (fun _ => krnl) ?_⟩
        rcases ok.resumes_begins (ok.resume running went) with path | ⟨atEntry | atParked, _⟩
        · exact XboxKrnl.Path.endings path ok (by simp [XboxKrnl.aliveLabels])
        · exact absurd atEntry entry
        · exact absurd atParked parked

/-- A reply is not the end of a fiber. -/
theorem endings_deliver (krnl : XboxKrnl) (reply : Option Reply) : (krnl.deliver reply).endings = krnl.endings := by
  cases reply <;> rfl

/-- The call that ends a thread is that of the kernel alone, tracked by the storage. -/
theorem Registered.psTerminate (registered : host.Registered) (exitStatus : Nat) :
    ((host.psTerminateSystemThread exitStatus).1.krnl, (host.psTerminateSystemThread exitStatus).2) =
        host.krnl.psTerminateSystemThreadWord exitStatus ∧
      host.Tracks (host.psTerminateSystemThread exitStatus).1 := by
  simp only [SharedHost.psTerminateSystemThread, XboxKrnl.psTerminateSystemThreadWord]
  cases found : host.krnl.findThreadByFiber (word host.krnl.currentHandle) with
  | none => exact ⟨rfl, Tracks.kernel host id rfl⟩
  | some ptr =>
    obtain ⟨finished, tracks⟩ := registered.finishObject ptr (int32 exitStatus)
    exact ⟨congrArg (fun krnl => (krnl, none)) finished, tracks⟩

/-- An action of the machine that ends no fiber, taken by the kernel alone. -/
theorem Tracks.step (steady : host.krnl.Steady) {action : Action} (unending : .exiting ∉ XboxKrnl.actionLabels action)
    (stepped : (host.krnl.step action).map (fun krnl => { host with krnl }) = some next) :
    host.krnl.step action = some next.krnl ∧ host.Tracks next := by
  obtain ⟨krnl, done, rfl⟩ := Option.map_eq_some_iff.mp stepped
  exact ⟨done, Tracks.kernel host (fun _ => krnl)
    (XboxKrnl.Path.endings (steady.step done).1 steady.ok unending)⟩

/-- As long as the observers that are there are registered, an action of the machine is one of
the kernel's machine. -/
theorem Registered.act (registered : host.Registered) (steady : host.krnl.Steady) {action : Action}
    (acted : host.act action = some next) : host.krnl.lookupStep action = some next.krnl ∧ host.Tracks next := by
  cases action with
  | turn =>
    simp only [SharedHost.act] at acted
    simp only [XboxKrnl.lookupStep]
    split at acted
    · rename_i idle
      rw [if_pos idle]
      simp only [Bool.and_eq_true, Option.isNone_iff_eq_none] at idle
      rcases turned : host.krnl.sched.loopTurn with ⟨sched, outcome⟩
      rw [turned] at acted
      have begun := Tracks.kernel host (fun krnl => { krnl with sched }) rfl
      cases outcome with
      | dispatched index =>
        have turnedOk := Effect.sound steady.ok .turn idle.1
        simp only [Effect.apply, turned] at turnedOk
        obtain ⟨went, tracks⟩ := (registered.kernel (fun krnl => { krnl with sched }) rfl rfl).resume turnedOk acted
        exact ⟨went, begun.trans tracks⟩
      | idle =>
        obtain rfl := Option.some.inj acted
        exact ⟨rfl, begun⟩
      | returned complete =>
        obtain rfl := Option.some.inj acted
        exact ⟨rfl, begun⟩
    · cases acted
  | finish code => exact registered.finishBody acted
  | call call =>
    simp only [SharedHost.act] at acted
    split at acted
    · cases acted
    · cases call with
      | psTerminateSystemThread exitStatus =>
        obtain ⟨ram, refreshed⟩ := host.krnl.refreshData_eq
        have still := registered.kernel XboxKrnl.refreshData (by rw [refreshed]) (by rw [refreshed])
        obtain ⟨terminated, tracks⟩ := still.psTerminate exitStatus
        have begun := Tracks.kernel host XboxKrnl.refreshData (by rw [refreshed]; rfl)
        dsimp only at acted
        split at acted
        · rename_i running
          obtain rfl := Option.some.inj acted
          have executed : host.krnl.refreshData.psTerminateSystemThreadWord exitStatus =
              (((host.onKrnl XboxKrnl.refreshData).psTerminateSystemThread exitStatus).1.krnl,
                ((host.onKrnl XboxKrnl.refreshData).psTerminateSystemThread exitStatus).2) := terminated.symm
          refine ⟨?_, (begun.trans tracks).trans (Tracks.kernel _ _ (endings_deliver _ _))⟩
          simp only [XboxKrnl.lookupStep, if_pos running, executed]
          rfl
        · cases acted
      | _ => exact Tracks.step steady (by simp [XboxKrnl.actionLabels, labelsOf]) acted
  | _ => exact Tracks.step steady (by simp [XboxKrnl.actionLabels]) acted

end SharedHost

end SeriesxEmu
