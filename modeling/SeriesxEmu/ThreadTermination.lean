import SeriesxEmu.Words

/-!
# What the end of a thread leaves behind

A fiber ends by returning from its body or by `PsTerminateSystemThread`. The body
finishes the thread object it has captured, which is the one in the handle table.
`PsTerminateSystemThread` and the finish hook look the object up by the fiber and
prefer the identity; the object in the handle table is then left running.
-/

namespace SeriesxEmu

open Scheduler GuestScheduler

namespace XboxKrnl

variable {krnl next : XboxKrnl}

/-- Every finished fiber whose thread object is still in the handle table has left
that object signaled, and a wait on it succeeds at once, whoever makes it. -/
def ThreadsSignaled (krnl : XboxKrnl) : Prop :=
  ∀ fiber ∈ krnl.sched.threads, fiber.state = .finished →
    ∀ ptr, krnl.TabledThread fiber.handle ptr →
      (krnl.object ptr).thread.running = false ∧
        ∀ immediate ticks, (krnl.waitDispatch ptr immediate ticks).2 = some kStatusSuccess

/-- The object in the handle table of every finished fiber is stopped. -/
def Stopped (krnl : XboxKrnl) : Prop :=
  ∀ fiber ∈ krnl.sched.threads, fiber.state = .finished →
    ∀ ptr, krnl.TabledThread fiber.handle ptr → (krnl.object ptr).thread.running = false

/-- A wait on a stopped thread object succeeds at once. -/
theorem waitDispatch_stopped {ptr : Ptr} {object : DispatcherObject} (live : krnl.object? ptr = some object)
    (kind : object.kind = .thread) (stopped : object.thread.running = false) (immediate : Bool) (ticks : Nat) :
    (krnl.waitDispatch ptr immediate ticks).2 = some kStatusSuccess := by
  have here := krnl.object_eq _ _ live
  simp [XboxKrnl.waitDispatch, XboxKrnl.dispatcherSatisfied, XboxKrnl.dispatcherAcquire, here, kind, stopped]

/-- The invariant says that ended threads are signaled. -/
theorem Stopped.signaled (stopped : krnl.Stopped) : krnl.ThreadsSignaled := by
  intro fiber member finished ptr tabled
  have off := stopped fiber member finished ptr tabled
  obtain ⟨_, object, live, kind, _⟩ := tabled
  refine ⟨off, waitDispatch_stopped live kind ?_⟩
  rw [krnl.object_eq _ _ live] at off
  exact off

/-- Every effect but the exit keeps finished threads signaled. -/
theorem Stopped.effect (stopped : krnl.Stopped) (ok : krnl.Ok) {effect : Effect} (allowed : effect.Allowed krnl)
    (stays : effect.label ≠ .exiting) : (effect.apply krnl).Stopped := by
  intro after member finished ptr tabled
  obtain ⟨fiber, before, wasFinished, handle⟩ := Effect.finished_origin ok allowed stays member finished
  rw [← handle] at tabled
  rcases Effect.tabledThread_origin ok allowed tabled with old | ⟨_, _, fresh⟩
  · have off := stopped fiber before wasFinished ptr old
    obtain ⟨_, object, live, _⟩ := tabled
    obtain ⟨_, earlier, liveBefore, _⟩ := old
    rw [krnl.object_eq _ _ liveBefore] at off
    rw [object_eq _ _ _ live]
    rcases Effect.object_origin ok allowed live with ⟨_, again, rfl⟩ | ⟨same, _⟩
    · obtain rfl := Option.some.inj (liveBefore.symm.trans again)
      exact effect.rewrite_stopped krnl ptr off
    · exact absurd same (Nat.ne_of_lt (krnl.object?_inside _ _ liveBefore))
  · have below := (ok.fibers.each fiber before).below
    rw [fresh] at below
    exact absurd below (Nat.lt_irrefl _)

/-- The exit of a fiber whose object in the handle table is stopped. -/
theorem Stopped.exit (stopped : krnl.Stopped) (ok : krnl.Ok) {code : Int} (allowed : (Effect.exit code).Allowed krnl)
    (own : ∀ ptr, krnl.TabledThread krnl.currentHandle ptr → (krnl.object ptr).thread.running = false) :
    ((Effect.exit code).apply krnl).Stopped := by
  intro after member finished ptr tabled
  have old : krnl.TabledThread after.handle ptr := by
    rcases Effect.tabledThread_origin ok allowed tabled with old | ⟨⟨_, _, other⟩, _⟩
    · exact old
    · cases other
  have same : ((Effect.exit code).apply krnl).object ptr = krnl.object ptr := by
    obtain ⟨⟨fiber, running, _⟩, _⟩ := allowed
    obtain ⟨index, switched, _⟩ := currentFiber_index running
    simp only [Effect.apply, switched]
    rfl
  rw [same]
  obtain ⟨index, found⟩ := List.mem_iff_getElem?.mp member
  rcases Effect.fiber_origin ok allowed (by simp [Effect.label]) found with ⟨fiber, before, fate⟩ | ⟨_, spawned⟩
  · rcases fate with ⟨switched, rfl⟩ | ⟨_, rfl | ⟨_, signaled, _⟩⟩
    · have running : krnl.currentFiber = some fiber := by simp [currentFiber, switched, before]
      refine own ptr ?_
      rw [currentHandle_of_fiber running]
      exact old
    · exact stopped after (List.mem_of_getElem? before) finished ptr old
    · exact signaled.elim
  · exact spawned.elim

/-! ## The object a body has captured -/

/-- A fiber that runs has captured its object in the handle table. -/
theorem Steady.captured_tabled (steady : krnl.Steady) {fiber : Fiber} (running : krnl.currentFiber = some fiber)
    {ptr : Ptr} (tabled : krnl.TabledThread krnl.currentHandle ptr) : fiber.ctx.body.captured = some ptr := by
  obtain ⟨⟨slot, found⟩, object, live, kind, handle⟩ := tabled
  obtain ⟨other, member, same, runs⟩ := steady.ok.fibers.tabled slot ptr _ found (krnl.shapes_eq _ _ live) kind
  have equal := steady.ok.fibers.unique member (steady.ok.running running).1
    (same.trans (handle.trans (currentHandle_of_fiber running)))
  subst equal
  rcases runs with ⟨entry, _⟩ | captured
  · rw [steady.guest other running] at entry
    cases entry
  · rw [captured]
    rfl

/-- Which fiber has which thread depends on the handle table alone. -/
theorem tabledThread_congr (same : next.registry = krnl.registry) {fiber : Nat} {ptr : Ptr}
    (tabled : next.TabledThread fiber ptr) : krnl.TabledThread fiber ptr := by
  obtain ⟨⟨slot, found⟩, object, live, kind, handle⟩ := tabled
  rw [same] at found
  have shapes := next.shapes_eq _ _ live
  rw [same] at shapes
  obtain ⟨earlier, before, shape⟩ := krnl.of_shapes _ _ shapes
  refine ⟨⟨slot, found⟩, earlier, before, (DispatcherObject.kind_of_shape shape).trans kind, ?_⟩
  rw [← handle]
  exact congrArg (fun shape => shape.thread.schedHandle) shape

/-- The end of a fiber that has its object in the handle table at hand. -/
theorem Stopped.ends (stopped : krnl.Stopped) (steady : krnl.Steady) {target : Option Ptr}
    (ends : krnl.Ends target next)
    (own : ∀ ptr, krnl.TabledThread krnl.currentHandle ptr → target = some ptr) : next.Stopped := by
  obtain ⟨last, code, path, stays, allowed, off, rfl⟩ := steady.ends ends
  have lastOk := path.ok steady.ok
  have kept : last.Stopped := Path.keeps (fun krnl effect ok holds labeled allowed =>
    holds.effect ok allowed (by rw [List.mem_singleton.mp labeled]; simp)) path steady.ok stopped
  refine kept.exit lastOk allowed (fun ptr tabled => off ptr (own ptr ?_))
  rw [← stays.handle]
  exact tabledThread_congr stays.registry tabled

/-- The invariant passes along a path without an exit. -/
theorem Stopped.path (stopped : krnl.Stopped) (ok : krnl.Ok) {labels : List Label} (path : Path labels krnl next)
    (stays : .exiting ∉ labels) : next.Stopped :=
  Path.keeps (fun _ _ ok holds labeled allowed =>
    holds.effect ok allowed (fun exits => stays (exits ▸ labeled))) path ok stopped

/-- The end of a body keeps it: the body marks its thread before it exits. -/
theorem Stopped.endsBody (stopped : krnl.Stopped) (steady : krnl.Steady) {fiber : Fiber}
    (running : krnl.currentFiber = some fiber) (ends : krnl.Ends fiber.ctx.body.captured next) : next.Stopped :=
  stopped.ends steady ends (fun _ tabled => steady.captured_tabled running tabled)

/-- A body that runs on keeps it. -/
theorem Stopped.runsOn (stopped : krnl.Stopped) (steady : krnl.Steady) (runs : krnl.RunsOn next) : next.Stopped := by
  rcases runs with ⟨_, handle, allowed, rfl⟩ | ⟨_, middle, fiber, path, _, _, running, ends⟩
  · exact stopped.effect steady.ok allowed (by simp [Effect.label])
  · exact (stopped.path steady.ok path (by simp)).endsBody (path.steady steady (by simp)) running ends

/-- A fiber that is switched in keeps it. -/
theorem Stopped.resumes (stopped : krnl.Stopped) (ok : krnl.Ok) {fiber : Fiber} (resumes : krnl.Resumes fiber next) :
    next.Stopped := by
  cases resumes with
  | parks self object entry found live suspended enters allowed result =>
    rw [result]
    exact (stopped.effect ok enters (by simp [Effect.label])).effect (ok.entered enters).ok allowed
      (by simp [Effect.label])
  | starts entry enters ready runs =>
    exact (stopped.effect ok enters (by simp [Effect.label])).runsOn (ok.entered enters) runs
  | unparks self parked body proceeds alive runs =>
    exact (stopped.effect ok proceeds (by simp [Effect.label])).runsOn (ok.proceeded proceeds) runs
  | waits middle woken alive proceeds waited path =>
    have begun := stopped.effect ok proceeds (by simp [Effect.label])
    have waitPath := waited.path
    have middleOk := waitPath.ok (ok.proceeded proceeds).ok
    refine (begun.path (ok.proceeded proceeds).ok waitPath ?_).path middleOk path (by simp)
    unfold waitLabels
    split <;> simp
  | contends va point proceeds result =>
    exact (stopped.effect ok proceeds (by simp [Effect.label])).path (ok.proceeded proceeds).ok
      ((ok.proceeded proceeds).contended result) (by simp)
  | continues _ proceeds path =>
    exact (stopped.effect ok proceeds (by simp [Effect.label])).path (ok.proceeded proceeds).ok path (by simp)

/-! ## Whole runs -/

/-- The action is a call of `PsTerminateSystemThread`. -/
def terminates : Action → Bool
  | .call (.psTerminateSystemThread _) => true
  | _ => false

/-- A fiber whose thread object is in the handle table calls `PsTerminateSystemThread`
only as long as no identity has been made for it. -/
def TerminatesUnidentified (krnl : XboxKrnl) (action : Action) : Prop :=
  terminates action = true → ∀ ptr ∈ krnl.objects.filterMap id, (krnl.object ptr).kind = .thread →
    (krnl.object ptr).thread.schedHandle = krnl.currentHandle → krnl.fiberThread? krnl.currentHandle = none

instance (krnl : XboxKrnl) (action : Action) : Decidable (krnl.TerminatesUnidentified action) :=
  inferInstanceAs (Decidable (_ → _))

/-- `PsTerminateSystemThread` under the condition finishes the object in the handle table. -/
theorem Stopped.psTerminate (stopped : krnl.Stopped) (steady : krnl.Steady) (exitStatus : Nat)
    (unidentified : ∀ ptr, krnl.TabledThread krnl.currentHandle ptr → krnl.fiberThread? krnl.currentHandle = none) :
    (krnl.psTerminateSystemThread exitStatus).1.Stopped := by
  cases found : krnl.findThreadByFiber krnl.currentHandle with
  | none =>
    simp only [XboxKrnl.psTerminateSystemThread, found]
    exact stopped
  | some ptr =>
    have ends := steady.psTerminate_ends exitStatus found
    refine stopped.ends steady ends (fun other tabled => ?_)
    rw [← found]
    exact (findThreadByFiber_table steady.ok.registry ends.inFiber (unidentified other tabled) other).mpr tabled

/-- One step keeps it when its action terminates no thread that lacks an identity. -/
theorem Stopped.step (stopped : krnl.Stopped) (steady : krnl.Steady) {action : Action}
    (condition : krnl.TerminatesUnidentified action) (stepped : krnl.step action = some next) : next.Stopped := by
  by_cases exits : .exiting ∈ actionLabels action
  · cases action with
    | turn =>
      obtain ⟨idle, outcome⟩ := turn_cases stepped
      have turned : ((Effect.turn).apply krnl).Stopped :=
        Stopped.effect stopped steady.ok (show (Effect.turn).Allowed krnl from idle) (by simp [Effect.label])
      rcases outcome with ⟨rfl, _⟩ | ⟨fiber, running, resumed⟩
      · exact turned
      · have ok := Effect.sound steady.ok .turn idle
        exact turned.resumes ok (ok.resume running resumed)
    | finish code =>
      obtain ⟨fiber, running, ends⟩ := steady.finishBody stepped
      exact stopped.endsBody steady running ends
    | call call =>
      obtain ⟨_, _, rfl⟩ := call_cases stepped
      cases call with
      | psTerminateSystemThread exitStatus =>
        obtain ⟨ram, refreshed⟩ := krnl.refreshData_eq
        have begun := steady.refreshed
        rw [refreshed] at begun ⊢
        have same : ({ krnl with ram } : XboxKrnl).Stopped := stopped
        have ended := same.psTerminate begun exitStatus (fun ptr tabled => by
          obtain ⟨member, kind, handle⟩ := (tabledThread_iff steady.ok.registry _ ptr).mp tabled
          exact condition rfl ptr member kind handle)
        have endedOk := (begun.psTerminateSystemThread exitStatus).ok begun.ok
        exact ended.path endedOk (deliver_path _ _) (by simp)
      | _ => simp [actionLabels, labelsOf] at exits
    | run => simp [actionLabels] at exits
    | spawn stackTopReserve region => simp [actionLabels] at exits
    | sleep ticks => simp [actionLabels] at exits
    | join target => simp [actionLabels] at exits
    | compute ram filetime => simp [actionLabels] at exits
  · exact stopped.path steady.ok (steady.step stepped).1 exits

/-- It holds in every state reached under the condition. -/
theorem ReachesUnder.threadsSignaled {actions : List Action}
    (reached : krnl.ReachesUnder TerminatesUnidentified actions) : krnl.ThreadsSignaled := by
  have start : ∀ ram addresses threadRunner kernelDataVa,
      (initial ram addresses threadRunner kernelDataVa).Stopped := by
    intro ram addresses threadRunner kernelDataVa fiber member
    cases member
  have invariant := reached.invariant start (fun krnl action next steady stopped condition stepped =>
    Stopped.step stopped steady condition stepped)
  exact invariant.2.signaled

/-- In a run whose handles and identifiers fit, whose calls find their callers, and whose calls of
`PsTerminateSystemThread` meet the condition, a finished fiber has left its object in the handle
table signaled.

Proof: `Stopped` is the invariant. Only an exit finishes a fiber, and what ends a thread has
stopped the object in the handle table before: the body finishes the object it has captured, and
`PsTerminateSystemThread` finds the same object as long as the fiber has no identity. -/
theorem threads_signaled {actions : List Action}
    (run : krnl.WordRun (fun krnl action => krnl.Orderly action ∧ krnl.TerminatesUnidentified action) actions) :
    krnl.ThreadsSignaled := by
  have reached := run.reachesUnder (fun _ _ met => met.1.1)
  exact (reached.mono (fun _ _ => And.right)).threadsSignaled

/-- A host creates a system thread, which terminates itself. -/
def terminatesSelf : List Action :=
  [.call (.psCreateSystemThreadEx { threadHandle := 16, startRoutine := 4096 }), .run, .turn,
    .call (.psTerminateSystemThread 0)]

/-- A thread that terminates itself is signaled. -/
theorem terminatesSelf_signaled : (wordAfter true terminatesSelf).ThreadsSignaled :=
  threads_signaled (wordRun_after _ true terminatesSelf (by decide +kernel) (by decide +kernel))

/-- The same thread asks for its own token first. -/
def asksForItself : List Action :=
  [.call (.psCreateSystemThreadEx { threadHandle := 16, startRoutine := 4096 }), .run, .turn,
    .call .keGetCurrentThread, .call (.psTerminateSystemThread 0)]

/-- Its handle is then never signaled. -/
theorem threads_signaled_fails :
    ¬ ∀ (krnl : XboxKrnl) actions, krnl.WordRun (fun _ _ => True) actions → krnl.ThreadsSignaled := by
  intro always
  have run := wordRun_after (fun _ _ => True) true asksForItself (by decide +kernel) (Runs.along_true _ _)
  have found : (wordAfter true asksForItself).sched.threads[0]?.map (fun fiber => (fiber.handle, fiber.state)) =
      some (1, .finished) := by decide +kernel
  obtain ⟨fiber, here, same⟩ := Option.map_eq_some_iff.mp found
  obtain ⟨handle, finished⟩ := Prod.mk.inj same
  have tabled : (wordAfter true asksForItself).TabledThread fiber.handle 0 := by
    rw [handle]
    exact ⟨⟨0, by decide +kernel⟩, (wordAfter true asksForItself).object 0, by decide +kernel, by decide +kernel,
      by decide +kernel⟩
  have stopped := (always _ _ run fiber (List.mem_of_getElem? here) finished 0 tabled).1
  have running : ((wordAfter true asksForItself).object 0).thread.running = true := by decide +kernel
  rw [running] at stopped
  cases stopped

end XboxKrnl

end SeriesxEmu
