import SeriesxEmu.Histories

/-!
# The machine in 32-bit words

The kernel keeps the scheduler handle of a thread, the thread's identifier and the owner of a
mutant in 32 bits, and looks threads up by 32 bits of a handle, while the scheduler counts its
handles in 64. The machine of `XboxKrnl.step` keeps all of them whole. The machine of this module
narrows them where the source does, and has no result where the signed `signal_state` of a mutant
overflows. As long as every handle and every identifier given out fits, the two machines take the
same steps, so what holds of every run of the first holds of those runs of the second.

One action gives out at most one handle and one identifier and looks neither up again, so the words
it stores can be narrowed when it is over.
-/

namespace SeriesxEmu

open Scheduler GuestScheduler

/-- `static_cast<uint32_t>`. -/
def word (value : Nat) : Nat := value % 2 ^ 32

/-- A value that fits is kept whole. -/
theorem word_eq {value : Nat} (fits : value < 2 ^ 32) : word value = value := Nat.mod_eq_of_lt fits

/-- An object as its 32-bit fields hold it. -/
def DispatcherObject.inWords (object : DispatcherObject) : DispatcherObject :=
  match object.kind with
  | .thread =>
    { object with
      thread :=
        { object.thread with
          schedHandle := word object.thread.schedHandle
          threadId := word object.thread.threadId } }
  | .mutant => { object with mutant := { object.mutant with owner := word object.mutant.owner } }
  | _ => object

/-- `signal_state` has left the range of an `int32_t`. -/
def DispatcherObject.overflown (object : DispatcherObject) : Bool :=
  object.kind == .mutant &&
    (decide (object.mutant.signalState < -2 ^ 31) || decide (2 ^ 31 ≤ object.mutant.signalState))

namespace XboxKrnl

/-- The state as its 32-bit fields hold it. -/
def inWords (krnl : XboxKrnl) : XboxKrnl :=
  { krnl with
    heap := krnl.heap.map (Option.map DispatcherObject.inWords)
    nextThreadId := word krnl.nextThreadId }

/-- Some mutant's count has left its range. -/
def overflown (krnl : XboxKrnl) : Bool :=
  krnl.heap.any (fun cell => cell.any DispatcherObject.overflown)

/-! ## The end of a thread

The finish hook, the body of a system thread and `PsTerminateSystemThread` look the running thread
up by 32 bits of its handle. -/

/-- `thread_finish`, whose hook calls `find_thread_by_fiber` with a narrowed handle. -/
def threadFinishWord (krnl : XboxKrnl) (code : Int) : XboxKrnl :=
  match krnl.sched.current with
  | none => krnl
  | some index =>
    let handle := krnl.currentHandle
    let ended := ({ krnl with sched := krnl.sched.modifyThread index (fun thread =>
      { thread with exitCode := code, state := .finished }) }).note (.finished handle)
    let observed :=
      match ended.findThreadByFiber (word handle) with
      | some ptr => ended.finishThreadObject ptr
      | none => ended
    { observed with sched := observed.sched.switchToScheduler }

/-- The end of a fiber body. -/
def finishBodyWord (krnl : XboxKrnl) (code : Int) : Option XboxKrnl :=
  match krnl.currentFiber with
  | none => none
  | some fiber =>
    match fiber.ctx.body with
    | .native => some (krnl.threadFinishWord code)
    | .systhread none => some (krnl.threadFinishWord 0)
    | .systhread (some self) =>
      if krnl.live self then some ((krnl.finishThreadObject self).threadFinishWord 0) else none

/-- The second half of a system thread body. -/
def runBodyWord (krnl : XboxKrnl) (self : Option Ptr) : Option XboxKrnl :=
  if krnl.threadRunner then krnl.runBody self
  else
    match self with
    | none => krnl.finishBodyWord 0
    | some ptr =>
      (krnl.modify ptr (fun o =>
        { o with thread := { o.thread with runnableMissingCore := true } })).finishBodyWord 0

/-- The first dispatch of a fiber. -/
def enterBodyWord (krnl : XboxKrnl) : Body → Option XboxKrnl
  | .native => some krnl
  | .systhread _ =>
    let self := krnl.findThreadByFiber (word krnl.currentHandle)
    let captured := krnl.setBody (.systhread self)
    match self with
    | some ptr =>
      if 0 < (krnl.object ptr).thread.suspendCount then
        some (captured.blockCurrent (krnl.object ptr).token kNoTimeout .parked)
      else captured.runBodyWord self
    | none => captured.runBodyWord none

/-- A fiber that has just been switched in runs on. Only from the start of its body and from where
it was parked it may end. -/
def resumeWord (krnl : XboxKrnl) : Option XboxKrnl :=
  match krnl.currentFiber with
  | none => none
  | some fiber =>
    match fiber.ctx.point with
    | .entry => (krnl.setPoint .guest).enterBodyWord fiber.ctx.body
    | .parked =>
      match fiber.ctx.body with
      | .systhread (some self) =>
        if (krnl.setPoint .guest).live self then (krnl.setPoint .guest).runBodyWord (some self) else none
      | _ => none
    | _ => krnl.resume

/-- `PsTerminateSystemThread`, with the narrowed handle. -/
def psTerminateSystemThreadWord (krnl : XboxKrnl) (exitStatus : Nat) : XboxKrnl × Option Reply :=
  match krnl.findThreadByFiber (word krnl.currentHandle) with
  | none => (krnl, some reject)
  | some ptr => ((krnl.finishThreadObject ptr).threadFinishWord (int32 exitStatus), none)

/-- `sched_.find(cur)` in `PsTerminateSystemThread` is given a narrowed handle. -/
def findsItselfWord (krnl : XboxKrnl) : Bool :=
  krnl.sched.find (word krnl.currentHandle) == krnl.sched.current

/-- One action, with the lookups of the source. -/
def lookupStep (krnl : XboxKrnl) : Action → Option XboxKrnl
  | .turn =>
    if krnl.sched.current.isNone && krnl.sched.inLoop then
      match krnl.sched.loopTurn with
      | (sched, .dispatched _) => { krnl with sched }.resumeWord
      | (sched, _) => some { krnl with sched }
    else none
  | .finish code => krnl.finishBodyWord code
  | .call (.psTerminateSystemThread exitStatus) =>
    if krnl.active && krnl.findsItselfWord then
      let (called, reply) := krnl.refreshData.psTerminateSystemThreadWord exitStatus
      some (called.deliver reply)
    else none
  | action => krnl.step action

/-- One action of the machine in words. Signed overflow leaves no defined state. -/
def wordStep (krnl : XboxKrnl) (action : Action) : Option XboxKrnl :=
  (krnl.lookupStep action).bind (fun next => if next.overflown then none else some next.inWords)

/-- A step has looked up as the source does and has been stored in words. -/
theorem wordStep_cases {krnl next : XboxKrnl} {action : Action} (stepped : krnl.wordStep action = some next) :
    ∃ whole, krnl.lookupStep action = some whole ∧ next = whole.inWords := by
  obtain ⟨whole, looked, stored⟩ := Option.bind_eq_some_iff.mp stepped
  split at stored
  · cases stored
  · exact ⟨whole, looked, (Option.some.inj stored).symm⟩

/-- The handles and the identifiers that the next action gives out are below 2 ^ 32. -/
structure Roomy (krnl : XboxKrnl) : Prop where
  handles : krnl.sched.nextHandle < 2 ^ 32
  identifiers : krnl.nextThreadId + 2 < 2 ^ 32

/-- A call that looks the calling fiber up by its handle finds that fiber. -/
def FindsCaller (krnl : XboxKrnl) : Action → Prop
  | .call call => krnl.findsItself = true ∨ looksItselfUp call = false
  | _ => True

/-- There is room for what the action gives out, and if it looks its caller up, it finds it. -/
def Orderly (krnl : XboxKrnl) (action : Action) : Prop := krnl.Roomy ∧ krnl.FindsCaller action

instance (krnl : XboxKrnl) : Decidable krnl.Roomy :=
  decidable_of_iff (krnl.sched.nextHandle < 2 ^ 32 ∧ krnl.nextThreadId + 2 < 2 ^ 32)
    ⟨fun room => ⟨room.1, room.2⟩, fun roomy => ⟨roomy.handles, roomy.identifiers⟩⟩

instance (krnl : XboxKrnl) : ∀ action, Decidable (krnl.FindsCaller action)
  | .call call => inferInstanceAs (Decidable (krnl.findsItself = true ∨ looksItselfUp call = false))
  | .run | .turn | .finish _ | .spawn _ _ | .sleep _ | .join _ | .compute _ _ => .isTrue trivial

instance (krnl : XboxKrnl) (action : Action) : Decidable (krnl.Orderly action) := inferInstanceAs (Decidable (_ ∧ _))

/-- The machine in words has run the actions from the start, and every step met the condition in
the state before it. -/
def WordRun (condition : XboxKrnl → Action → Prop) (krnl : XboxKrnl) (actions : List Action) : Prop :=
  ∃ ram addresses threadRunner kernelDataVa,
    Runs.run wordStep (initial ram addresses threadRunner kernelDataVa) actions = some krnl ∧
      Runs.Along wordStep condition (initial ram addresses threadRunner kernelDataVa) actions

variable {krnl next : XboxKrnl}

/-! ## What one action gives out -/

/-- All handles and identifiers given out so far are below 2 ^ 32. -/
structure Fits (krnl : XboxKrnl) : Prop where
  handles : krnl.sched.nextHandle ≤ 2 ^ 32
  identifiers : krnl.nextThreadId < 2 ^ 32

/-- The running fiber, if there is one, has its identity. -/
def Identified (krnl : XboxKrnl) : Prop :=
  krnl.currentHandle = 0 ∨ ∃ ptr, (krnl.currentHandle, ptr) ∈ krnl.registry.fiberThreads

/-- The code has given out no handle and at most one identifier, to the fiber that runs. -/
structure Counts (krnl next : XboxKrnl) : Prop where
  handles : next.sched.nextHandle = krnl.sched.nextHandle
  identifiers : next.nextThreadId = krnl.nextThreadId ∨
    (next.nextThreadId = krnl.nextThreadId + 2 ∧ next.Identified)

/-- Nothing gives out nothing. -/
theorem Counts.refl (krnl : XboxKrnl) : krnl.Counts krnl := ⟨rfl, Or.inl rfl⟩

/-- Outside the loop the running fiber stays, or leaves for the scheduler. -/
theorem handle_stays (ok : krnl.Ok) {effect : Effect} (allowed : effect.Allowed krnl) (quiet : effect.label ≠ .loop) :
    (effect.apply krnl).currentHandle = krnl.currentHandle ∨ (effect.apply krnl).currentHandle = 0 := by
  by_cases leaves : effect.leaves = true
  · have current := (effect.leads ok allowed quiet).current
    rw [leaves] at current
    exact Or.inr (by simp [currentHandle, GuestScheduler.currentHandle, current])
  · exact Or.inl (Effect.currentHandle_apply ok allowed quiet (by simpa using leaves))

/-- The identity of a running fiber stays. -/
theorem Identified.effect (identified : krnl.Identified) (ok : krnl.Ok) {effect : Effect}
    (allowed : effect.Allowed krnl) (quiet : effect.label ≠ .loop) (other : effect ≠ .identify) :
    (effect.apply krnl).Identified := by
  rcases handle_stays ok allowed quiet with same | zero
  · rw [Identified, same, Effect.fiberThreads_apply ok allowed other]
    exact identified
  · exact Or.inl zero

/-- Effects other than the creation of a fiber leave the counters alone, but for the identity of
the running fiber, which is made once. -/
theorem Counts.effect {middle : XboxKrnl} (counts : krnl.Counts middle) (ok : middle.Ok) {effect : Effect}
    (allowed : effect.Allowed middle) (plain : effect.label ∉ [.thread, .spawning, .loop]) :
    krnl.Counts (effect.apply middle) := by
  simp only [List.mem_cons, List.not_mem_nil, or_false, not_or] at plain
  by_cases identifies : effect = .identify
  · subst identifies
    obtain ⟨inFiber, absent, _⟩ := allowed
    have registry := middle.registry_identify _ absent
    have same : ((Effect.identify).apply middle).currentHandle = middle.currentHandle := by
      simp only [Effect.apply, middle.ensureThreadObject_new _ absent]
      rfl
    refine ⟨(congrArg Registry.nextHandle registry).trans counts.handles, Or.inr ⟨?_, Or.inr ?_⟩⟩
    · refine (congrArg Registry.nextThreadId registry).trans ?_
      rcases counts.identifiers with unchanged | ⟨_, zero | ⟨ptr, member⟩⟩
      · exact congrArg (· + 2) unchanged
      · exact absurd zero inFiber
      · exact absurd member (middle.fiberThread?_eq_none _ |>.mp absent ptr)
    · rw [same]
      refine ⟨middle.heap.length, ?_⟩
      show _ ∈ ((Effect.identify).apply middle).registry.fiberThreads
      simp only [Effect.apply, registry]
      simp
  · have kept : (effect.apply middle).sched.nextHandle = middle.sched.nextHandle ∧
        (effect.apply middle).nextThreadId = middle.nextThreadId := by
      by_cases registers : effect.registers = false
      · have registry := Effect.registry_apply ok allowed registers
        exact ⟨congrArg Registry.nextHandle registry, congrArg Registry.nextThreadId registry⟩
      · cases effect with
        | identify => exact absurd rfl identifies
        | create object =>
          obtain ⟨_, _, _, inserted, _⟩ := middle.insert_allocated ok.registry object
          have stored : (middle.allocate object).1.insertObject (middle.allocate object).2 = _ := inserted
          simp only [Effect.apply, stored]
          exact ⟨rfl, rfl⟩
        | install object => exact ⟨rfl, rfl⟩
        | createThread request base => exact absurd rfl plain.1
        | spend identifiers handles => exact absurd rfl plain.2.1
        | close slot ptr => exact ⟨rfl, rfl⟩
        | spawn stackTopReserve base => exact absurd rfl plain.2.1
        | _ => exact absurd rfl registers
    refine ⟨kept.1.trans counts.handles, ?_⟩
    rw [kept.2]
    exact counts.identifiers.imp id (fun given => ⟨given.1, given.2.effect ok allowed plain.2.2 identifies⟩)

/-- Code that creates no thread gives out at most an identity. -/
theorem Path.counts {labels : List Label} (path : Path labels krnl next) (ok : krnl.Ok)
    (plain : ∀ label ∈ labels, label ∉ [.thread, .spawning, .loop]) : krnl.Counts next := by
  induction path with
  | refl => exact Counts.refl krnl
  | tail earlier last inductionHypothesis =>
    obtain ⟨effect, labeled, allowed, rfl⟩ := last
    exact inductionHypothesis.effect (Path.ok earlier ok) allowed (plain _ labeled)

/-- A spawn gives out one handle, even if it fails. -/
theorem spawnReserved_counts (sched : GuestScheduler Token Context) (ctx : Context) (stackTopReserve : Nat)
    (region : Option Nat) :
    (sched.spawnReserved ctx stackTopReserve region).1.nextHandle ≤ sched.nextHandle + 1 := by
  unfold spawnReserved
  split
  · exact Nat.le_succ _
  · cases region with
    | none => exact Nat.le_refl _
    | some base => exact Nat.le_refl _

/-- The counters of a later state are at most one handle and one identifier further. -/
def Advances (krnl next : XboxKrnl) : Prop :=
  next.sched.nextHandle ≤ krnl.sched.nextHandle + 1 ∧ next.nextThreadId ≤ krnl.nextThreadId + 2

/-- An identity takes two identifiers. -/
theorem Counts.advances (counts : krnl.Counts next) : krnl.Advances next := by
  refine ⟨by rw [counts.handles]; exact Nat.le_succ _, ?_⟩
  rcases counts.identifiers with same | ⟨one, _⟩ <;> omega

/-- So does a thread, which takes a handle as well. -/
theorem psCreateSystemThreadEx_advances (krnl : XboxKrnl) (request : ThreadRequest) :
    krnl.Advances (krnl.psCreateSystemThreadEx request).1 := by
  have inserted : ∀ (krnl : XboxKrnl) ptr, (krnl.insertObject ptr).1.sched = krnl.sched ∧
      (krnl.insertObject ptr).1.nextThreadId = krnl.nextThreadId := by
    intro krnl ptr
    unfold insertObject
    split <;> exact ⟨rfl, rfl⟩
  unfold XboxKrnl.psCreateSystemThreadEx
  split
  · exact ⟨Nat.le_succ _, Nat.le_add_right _ _⟩
  · have spawned := spawnReserved_counts krnl.sched { body := .systhread none, point := .entry }
      request.tlsDataSize request.region
    simp only
    split
    · exact ⟨spawned, Nat.le_refl _⟩
    · obtain ⟨ram, written⟩ := writeOut_eq (XboxKrnl.write32 _ request.threadHandle _) request.threadId _
      rw [written]
      exact ⟨(congrArg GuestScheduler.nextHandle (inserted _ _).1).le.trans spawned, (inserted _ _).2.le⟩

/-- One action gives out at most one handle and one identifier. -/
theorem Steady.step_advances (steady : krnl.Steady) {action : Action} (stepped : krnl.step action = some next) :
    krnl.Advances next := by
  have path := (steady.step stepped).1
  cases action with
  | turn =>
    obtain ⟨idle, outcome⟩ := turn_cases stepped
    have turned : ((Effect.turn).apply krnl).registry = krnl.registry :=
      Effect.registry_apply steady.ok (show (Effect.turn).Allowed krnl from idle) rfl
    have handles : ((Effect.turn).apply krnl).sched.nextHandle = krnl.sched.nextHandle :=
      congrArg Registry.nextHandle turned
    rcases outcome with ⟨rfl, _⟩ | ⟨fiber, running, resumed⟩
    · exact ⟨by rw [handles]; exact Nat.le_succ _, Nat.le_add_right _ _⟩
    · have first : Path (actionLabels .turn) krnl _ := Path.one .turn (by simp [Effect.label, actionLabels]) idle
      have ok := first.ok steady.ok
      have later := (ok.resumes_path (ok.resume running resumed)).1
      have advances := (Path.counts later ok (by decide)).advances
      rw [Advances, handles] at advances
      exact advances
  | call call =>
    cases call with
    | psCreateSystemThreadEx request =>
      obtain ⟨_, _, rfl⟩ := call_cases stepped
      have created := psCreateSystemThreadEx_advances krnl.refreshData request
      obtain ⟨ram, refreshed⟩ := krnl.refreshData_eq
      simp only [refreshed, Advances] at created ⊢
      exact created
    | _ => exact (Path.counts path steady.ok (by simp only [actionLabels, labelsOf]; decide)).advances
  | spawn stackTopReserve region =>
    obtain ⟨_, rfl⟩ := spawn_cases stepped
    exact ⟨spawnReserved_counts _ _ _ _, Nat.le_add_right _ _⟩
  | run =>
    obtain ⟨_, _, rfl⟩ := run_cases stepped
    exact ⟨Nat.le_succ _, Nat.le_add_right _ _⟩
  | _ => exact (Path.counts path steady.ok (by simp only [actionLabels]; decide)).advances

/-! ## As long as everything fits -/

/-- The running fiber has been given its handle. -/
theorem Ok.currentHandle_below (ok : krnl.Ok) : krnl.currentHandle < krnl.sched.nextHandle := by
  by_cases inFiber : krnl.currentHandle = 0
  · rw [inFiber]
    exact ok.registry.firstHandle
  · obtain ⟨fiber, running, same⟩ := currentFiber_of_handle inFiber
    rw [same]
    exact (ok.running running).2.1.below

/-- The scheduler handle of a thread object is one that has been given out. -/
theorem Ok.schedHandle_below (ok : krnl.Ok) {ptr : Ptr} {object : DispatcherObject}
    (live : krnl.object? ptr = some object) (kind : object.kind = .thread) :
    object.thread.schedHandle < krnl.sched.nextHandle := by
  have shapes := krnl.shapes_eq _ _ live
  rcases ok.registry.owned ptr _ shapes with ⟨slot, tabled⟩ | installed | ⟨fiber, identity⟩
  · obtain ⟨shape, again, named⟩ := ok.registry.tabled slot ptr tabled
    obtain rfl := Option.some.inj (shapes.symm.trans again)
    exact (named kind).2.2
  · obtain ⟨⟨shape, again, other⟩, _⟩ := ok.registry.atAddress ptr installed
    obtain rfl := Option.some.inj (shapes.symm.trans again)
    exact absurd kind other
  · obtain ⟨_, ⟨shape, again, _, handle⟩, _⟩ := ok.registry.identities fiber ptr identity
    obtain rfl := Option.some.inj (shapes.symm.trans again)
    obtain ⟨thread, member, same⟩ := ok.fibers.identified fiber ptr identity
    have below := (ok.fibers.each thread member).below
    rw [same, ← handle] at below
    exact below

/-- Nothing is lost when the words of the state are narrowed. -/
theorem Ok.inWords_eq (ok : krnl.Ok) (fits : krnl.Fits) : krnl.inWords = krnl := by
  have cells : krnl.heap.map (Option.map DispatcherObject.inWords) = krnl.heap := by
    refine (List.map_congr_left (fun cell member => ?_)).trans krnl.heap.map_id
    obtain ⟨ptr, found⟩ := List.mem_iff_getElem?.mp member
    cases cell with
    | none => rfl
    | some object =>
      have live : krnl.object? ptr = some object := by simp [object?, found]
      have same : object.inWords = object := by
        unfold DispatcherObject.inWords
        split
        · rename_i kind
          have below : object.thread.threadId < krnl.nextThreadId :=
            (ok.registry.threadIds ptr _ (krnl.shapes_eq _ _ live) kind).2
          rw [word_eq (Nat.lt_of_lt_of_le (ok.schedHandle_below live kind) fits.handles),
            word_eq (below.trans fits.identifiers)]
        · rename_i kind
          rw [word_eq ((ok.owner_below live kind).trans fits.identifiers)]
        · rfl
      exact congrArg some same
  rw [inWords, cells, word_eq fits.identifiers]

/-- Finishing an object does not change who runs. -/
theorem finishThreadObject_handle (krnl : XboxKrnl) (ptr : Ptr) :
    (krnl.finishThreadObject ptr).currentHandle = krnl.currentHandle := by
  obtain ⟨threads, sched, woken⟩ := krnl.finishThreadObject_sched ptr
  rw [currentHandle, sched, currentHandle, GuestScheduler.currentHandle, GuestScheduler.currentHandle]
  cases krnl.sched.current with
  | none => rfl
  | some index =>
    simp only
    cases after : threads[index]? with
    | none =>
      have outside := List.getElem?_eq_none_iff.mp after
      rw [woken.length] at outside
      rw [List.getElem?_eq_none outside]
    | some thread =>
      obtain ⟨earlier, before, rfl | ⟨_, _, rfl⟩⟩ := woken.origin index thread after
      · rw [before]
      · rw [before]
        rfl

/-- The finish hook finds the same thread by a handle that fits. -/
theorem threadFinishWord_eq (small : krnl.currentHandle < 2 ^ 32) (code : Int) :
    krnl.threadFinishWord code = krnl.threadFinish code := by
  simp only [threadFinishWord, word_eq small]
  rfl

/-- The end of a body narrows nothing while handles fit. -/
theorem finishBodyWord_eq (small : krnl.currentHandle < 2 ^ 32) (code : Int) :
    krnl.finishBodyWord code = krnl.finishBody code := by
  have hooked : ∀ ptr,
      (krnl.finishThreadObject ptr).threadFinishWord 0 = (krnl.finishThreadObject ptr).threadFinish 0 :=
    fun ptr => threadFinishWord_eq (by rw [finishThreadObject_handle]; exact small) 0
  simp only [finishBodyWord, threadFinishWord_eq small, hooked]
  rfl

/-- Neither does the second half of a system thread body. -/
theorem runBodyWord_eq (small : krnl.currentHandle < 2 ^ 32) (self : Option Ptr) :
    krnl.runBodyWord self = krnl.runBody self := by
  cases runner : krnl.threadRunner with
  | true => simp only [runBodyWord, runner, ↓reduceIte]
  | false =>
    simp only [runBodyWord, XboxKrnl.runBody, runner, Bool.false_eq_true, ↓reduceIte]
    cases self with
    | none => exact finishBodyWord_eq small 0
    | some ptr => exact finishBodyWord_eq (by exact small) 0

/-- A change of a fiber that keeps its handle does not change who runs. -/
theorem modifyThread_handle (sched : GuestScheduler Token Context) (index : Nat) (change : Fiber → Fiber)
    (kept : ∀ fiber, (change fiber).handle = fiber.handle) :
    (sched.modifyThread index change).currentHandle = sched.currentHandle := by
  simp only [GuestScheduler.currentHandle, GuestScheduler.modifyThread]
  cases sched.current with
  | none => rfl
  | some position =>
    simp only [List.getElem?_modify]
    split
    · cases sched.threads[position]? with
      | none => rfl
      | some fiber => exact kept fiber
    · rw [id_map']

/-- What a body has captured is such a change. -/
theorem setBody_handle (krnl : XboxKrnl) (body : Body) : (krnl.setBody body).currentHandle = krnl.currentHandle := by
  unfold setBody
  split
  · rfl
  · exact modifyThread_handle krnl.sched _ _ (fun _ => rfl)

/-- The first dispatch narrows nothing while handles fit. -/
theorem enterBodyWord_eq (small : krnl.currentHandle < 2 ^ 32) (body : Body) :
    krnl.enterBodyWord body = krnl.enterBody body := by
  have runs : ∀ found self, (krnl.setBody found).runBodyWord self = (krnl.setBody found).runBody self :=
    fun found self => runBodyWord_eq (by rw [setBody_handle]; exact small) self
  cases body with
  | native => rfl
  | systhread captured =>
    simp only [enterBodyWord, word_eq small, runs]
    rfl

/-- Where a fiber stands is a change that keeps handles. -/
theorem setPoint_handle (krnl : XboxKrnl) (point : Point) :
    (krnl.setPoint point).currentHandle = krnl.currentHandle := by
  unfold setPoint
  split
  · rfl
  · exact modifyThread_handle krnl.sched _ _ (fun _ => rfl)

/-- Whatever a fiber does when it is switched in is the same in words. -/
theorem resumeWord_eq (small : krnl.currentHandle < 2 ^ 32) : krnl.resumeWord = krnl.resume := by
  have smallPoint : (krnl.setPoint .guest).currentHandle < 2 ^ 32 := by
    rw [setPoint_handle]
    exact small
  unfold resumeWord
  cases running : krnl.currentFiber with
  | none => simp only [XboxKrnl.resume, running]
  | some fiber =>
    simp only
    split
    · rename_i entry
      simp only [XboxKrnl.resume, running, entry, enterBodyWord_eq smallPoint]
    · rename_i parked
      cases body : fiber.ctx.body with
      | native => simp only [XboxKrnl.resume, running, parked, body]
      | systhread captured =>
        cases captured with
        | none => simp only [XboxKrnl.resume, running, parked, body]
        | some self => simp only [XboxKrnl.resume, running, parked, body, runBodyWord_eq smallPoint]
    · rfl

/-- So is the call that ends it. -/
theorem psTerminateSystemThreadWord_eq (small : krnl.currentHandle < 2 ^ 32) (exitStatus : Nat) :
    krnl.psTerminateSystemThreadWord exitStatus = krnl.psTerminateSystemThread exitStatus := by
  have hooked : ∀ ptr code, (krnl.finishThreadObject ptr).threadFinishWord code =
      (krnl.finishThreadObject ptr).threadFinish code :=
    fun ptr code => threadFinishWord_eq (by rw [finishThreadObject_handle]; exact small) code
  simp only [psTerminateSystemThreadWord, word_eq small, hooked]
  rfl

/-- A machine whose handles fit takes the same step with narrowed lookups. -/
theorem Steady.lookupStep_eq (steady : krnl.Steady) (fits : krnl.sched.nextHandle ≤ 2 ^ 32) (action : Action) :
    krnl.lookupStep action = krnl.step action := by
  have small : krnl.currentHandle < 2 ^ 32 := Nat.lt_of_lt_of_le steady.ok.currentHandle_below fits
  cases action with
  | turn =>
    simp only [lookupStep, XboxKrnl.step]
    split
    · rename_i idle
      simp only [Bool.and_eq_true, Option.isNone_iff_eq_none] at idle
      have turned := Effect.sound steady.ok .turn idle.1
      have registry := Effect.registry_apply steady.ok (show (Effect.turn).Allowed krnl from idle.1) rfl
      have handles : ((Effect.turn).apply krnl).sched.nextHandle = krnl.sched.nextHandle :=
        congrArg Registry.nextHandle registry
      have below := turned.currentHandle_below
      rw [handles] at below
      have resumed := resumeWord_eq (Nat.lt_of_lt_of_le below fits)
      cases outcome : krnl.sched.loopTurn with
      | mk sched turn =>
        rw [show (Effect.turn).apply krnl = { krnl with sched } by simp only [Effect.apply, outcome]] at resumed
        cases turn with
        | dispatched index => exact resumed
        | _ => rfl
    · rfl
  | finish code => exact finishBodyWord_eq small code
  | call call =>
    cases call with
    | psTerminateSystemThread exitStatus =>
      have smallRefreshed : krnl.refreshData.currentHandle < 2 ^ 32 := by
        rw [currentHandle, refreshData_sched]
        exact small
      simp only [lookupStep, XboxKrnl.step, findsItselfWord, findsItself, word_eq small, looksItselfUp, Bool.not_true,
        Bool.or_false, XboxKrnl.exec, psTerminateSystemThreadWord_eq smallRefreshed]
    | _ => rfl
  | _ => rfl

/-- The refinement of one step: with room left, a step in words is a step of the whole machine,
and what it has given out fits. -/
theorem Steady.wordStep_refines (steady : krnl.Steady) (roomy : krnl.Roomy) {action : Action}
    (stepped : krnl.wordStep action = some next) : krnl.step action = some next := by
  obtain ⟨whole, looked, rfl⟩ := wordStep_cases stepped
  rw [steady.lookupStep_eq (Nat.le_of_lt roomy.handles)] at looked
  obtain ⟨handles, identifiers⟩ := steady.step_advances looked
  have fits : whole.Fits := ⟨handles.trans roomy.handles, Nat.lt_of_le_of_lt identifiers roomy.identifiers⟩
  rw [(steady.step looked).2.ok.inWords_eq fits]
  exact looked

/-! ## Whole runs -/

section Runs

variable {condition : XboxKrnl → Action → Prop} {actions : List Action}

/-- A run in words that always has room left is a run of the whole machine, and its steps meet
the same condition.

Proof: `Steady` is the invariant of the refinement, and every step is refined by
`Steady.wordStep_refines`. -/
theorem WordRun.reachesUnder (run : krnl.WordRun condition actions)
    (roomy : ∀ krnl action, condition krnl action → krnl.Roomy) : krnl.ReachesUnder condition actions := by
  obtain ⟨ram, addresses, threadRunner, kernelDataVa, completed, allowed⟩ := run
  refine ⟨ram, addresses, threadRunner, kernelDataVa, ?_⟩
  exact Runs.run_refines
    (fun _ _ _ steady met stepped => Steady.wordStep_refines steady (roomy _ _ met) stepped)
    (fun _ _ _ steady stepped => (Steady.step steady stepped).2)
    (initial_steady ram addresses threadRunner kernelDataVa) allowed completed

/-- What such a run has given out fits. -/
theorem WordRun.fits (run : krnl.WordRun condition actions)
    (roomy : ∀ krnl action, condition krnl action → krnl.Roomy) : krnl.Fits := by
  refine ((run.reachesUnder roomy).invariant ?_ ?_).2
  · intro ram addresses threadRunner kernelDataVa
    exact ⟨Nat.le_of_lt (by decide : 1 < 2 ^ 32), (by decide : 1 < 2 ^ 32)⟩
  · intro krnl action next steady fits met stepped
    have room := roomy krnl action met
    obtain ⟨handles, identifiers⟩ := steady.step_advances stepped
    exact ⟨handles.trans room.handles, Nat.lt_of_le_of_lt identifiers room.identifiers⟩

/-- The state a concrete run in words ends in. -/
def wordAfter (threadRunner : Bool) (actions : List Action) : XboxKrnl :=
  (Runs.run wordStep (onePage threadRunner) actions).getD (onePage threadRunner)

/-- A run on the first page that completes is a run in words. -/
theorem wordRun_after (condition : XboxKrnl → Action → Prop) (threadRunner : Bool) (actions : List Action)
    (completes : (Runs.run wordStep (onePage threadRunner) actions).isSome = true)
    (allowed : Runs.Along wordStep condition (onePage threadRunner) actions) :
    (wordAfter threadRunner actions).WordRun condition actions := by
  obtain ⟨final, completed⟩ := Option.isSome_iff_exists.mp completes
  refine ⟨_, _, _, _, completed.trans ?_, allowed⟩
  rw [wordAfter, completed, Option.getD_some]

/-- A run goes on from the state after its first part. -/
theorem word_run_after (threadRunner : Bool) (before rest : List Action)
    (completes : (Runs.run wordStep (onePage threadRunner) (before ++ rest)).isSome = true) :
    Runs.run wordStep (wordAfter threadRunner before) rest = some (wordAfter threadRunner (before ++ rest)) := by
  obtain ⟨final, completed⟩ := Option.isSome_iff_exists.mp completes
  obtain ⟨middle, first, second⟩ := (Runs.run_append _ final before rest).mp completed
  rw [wordAfter, wordAfter, first, completed, Option.getD_some, Option.getD_some]
  exact second

/-- Its next action is a step from there. -/
theorem wordStep_after (threadRunner : Bool) (before : List Action) (action : Action)
    (completes : (Runs.run wordStep (onePage threadRunner) (before ++ [action])).isSome = true) :
    (wordAfter threadRunner before).wordStep action = some (wordAfter threadRunner (before ++ [action])) := by
  obtain ⟨next, stepped, same⟩ :=
    (Runs.run_cons _ _ action []).mp (word_run_after threadRunner before [action] completes)
  rw [stepped]
  exact same

end Runs

end XboxKrnl

end SeriesxEmu
