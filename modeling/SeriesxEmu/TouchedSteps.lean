import SeriesxEmu.TouchedCalls
import SeriesxEmu.ThreadJoins

/-!
# What every action touches

A fiber that is switched in goes on from the point it was suspended at: a woken wait is
evaluated again and takes the objects it is granted, a thread that reports its suspension
stores the previous count, a thread without a runner ends. With the calls this gives every
action of the machine an extent, which the state before the action determines.
-/

namespace SeriesxEmu

open Scheduler GuestScheduler

/-- The ranges that kernel code may store to are more. -/
def Extent.storing (extent : Extent) (stores : List (Nat × Nat)) : Extent :=
  { extent with stores := stores ++ extent.stores }

/-- An operation that is allowed is allowed with more stores. -/
theorem storing_allows {extent : Extent} (stores : List (Nat × Nat)) (state : XboxKrnl) (touch : Touch)
    (allowed : extent.Allows state touch) : (extent.storing stores).Allows state touch := by
  cases touch with
  | store addr bytes => exact List.mem_append_right _ allowed
  | _ => exact allowed

/-- A touch that was allowed is allowed with more stores. -/
theorem TouchedOnce.storing {extent : Extent} {krnl next : XboxKrnl} (once : TouchedOnce extent krnl next)
    (stores : List (Nat × Nat)) : TouchedOnce (extent.storing stores) krnl next := by
  refine once.mono (fun state touch allowed => storing_allows stores state touch allowed) (fun state touch main => ?_)
  cases main with
  | put ptr freed => exact .put ptr freed
  | register object listed usable => exact .register object listed usable

namespace XboxKrnl

variable {krnl next : XboxKrnl} {extent : Extent}

/-! ## The fiber that is switched in -/

/-- What the woken wait of the fiber is granted. A wait whose time has run out takes nothing. -/
def resumeGrants (krnl : XboxKrnl) (fiber : Fiber) : List Ptr :=
  if fiber.waitTimedOut then []
  else match fiber.ctx.point with
    | .waitDispatch ptr _ => krnl.granted [ptr] false
    | .waitMultiple ptrs waitAll _ => krnl.granted ptrs waitAll
    | _ => []

/-- The ranges that a fiber stores to when it is switched in. -/
def resumeStores (krnl : XboxKrnl) (fiber : Fiber) : List (Nat × Nat) :=
  match fiber.ctx.point with
  | .suspended _ out _ _ => outStores out
  | .csEnter va => krnl.enterStores va
  | _ => []

/-- Without a runner a system thread ends where it would have run guest code. -/
def resumeEnds (krnl : XboxKrnl) (fiber : Fiber) : List Nat :=
  if krnl.threadRunner then []
  else match fiber.ctx.point with
    | .entry | .parked => [krnl.tokenOf krnl.currentHandle]
    | _ => []

/-- What a fiber may touch when it is switched in. -/
def resumeExtent (krnl : XboxKrnl) : Extent :=
  match krnl.currentFiber with
  | none => {}
  | some fiber =>
    { grants := krnl.resumeGrants fiber, ends := krnl.resumeEnds fiber, stores := krnl.resumeStores fiber }

/-- The same objects are granted to the same fiber. -/
theorem granted_congr (handle : next.currentHandle = krnl.currentHandle)
    (objects : ∀ ptr, next.satisfiedAs next.currentHandle ptr = krnl.satisfiedAs krnl.currentHandle ptr) (ptrs : List Ptr)
    (waitAll : Bool) : next.granted ptrs waitAll = krnl.granted ptrs waitAll := by
  have same : next.satisfiedAs next.currentHandle = krnl.satisfiedAs krnl.currentHandle := funext objects
  have inFiber : next.inFiber = krnl.inFiber := by rw [XboxKrnl.inFiber, XboxKrnl.inFiber, handle]
  simp only [granted, same, inFiber]

/-- Proceeding to the guest code touches nothing. -/
theorem proceeded_touched (krnl : XboxKrnl) : Touched extent krnl (krnl.setPoint .guest) := by
  unfold setPoint
  split
  · exact .refl
  · exact Touched.schedule krnl _

/-- Entering a body touches nothing. -/
theorem entered_touched (krnl : XboxKrnl) : Touched extent krnl ((Effect.enter).apply krnl) := by
  have captures : Touched extent (krnl.setPoint .guest)
      ((krnl.setPoint .guest).setBody (.systhread (krnl.findThreadByFiber krnl.currentHandle))) := by
    unfold setBody
    split
    · exact .refl
    · exact Touched.schedule _ _
  exact (proceeded_touched krnl).trans captures

/-- The registered waiters of an object do not matter to whether it satisfies a wait. -/
theorem satisfiedAs_waiters (krnl : XboxKrnl) (other : Ptr) {change : DispatcherObject → DispatcherObject}
    (waiters : ∀ object, change object = { object with mwWaiters := (change object).mwWaiters }) (fiber : Nat) (ptr : Ptr) :
    (krnl.modify other change).satisfiedAs fiber ptr = krnl.satisfiedAs fiber ptr := by
  have registry : (krnl.modify other change).registry = krnl.registry :=
    krnl.registry_modify other change (fun object _ => by rw [waiters object]; rfl)
  have parts : (krnl.modify other change).object ptr = krnl.object ptr ∨
      (krnl.modify other change).object ptr = change (krnl.object ptr) := by
    rw [XboxKrnl.object, XboxKrnl.object, object?_modify]
    split
    · cases krnl.object? ptr with
      | none => exact Or.inl rfl
      | some object => exact Or.inr rfl
    · exact Or.inl rfl
  simp only [satisfiedAs, tokenOf_congr registry]
  rcases parts with same | same
  · rw [same]
  · rw [same, waiters (krnl.object ptr)]

/-- Leaving the waiter lists does not change what a fiber counts as satisfied. -/
theorem satisfiedAs_unregister (krnl : XboxKrnl) (token : Token) (ptrs : List Ptr) (fiber : Nat) (ptr : Ptr) :
    (krnl.unregisterWaiter token ptrs).satisfiedAs fiber ptr = krnl.satisfiedAs fiber ptr := by
  unfold XboxKrnl.unregisterWaiter
  induction ptrs generalizing krnl with
  | nil => rfl
  | cons other rest inductionHypothesis =>
    rw [List.foldl_cons, inductionHypothesis]
    exact krnl.satisfiedAs_waiters other (fun _ => rfl) fiber ptr

/-- Entering a thread changes the scheduler, and marks its object. -/
theorem entering_touched (path : Path [.entering] krnl next) : Touched extent krnl next := by
  refine Relation.ReflTransGen.lift' id (fun middle last one => ?_) _ _ path
  obtain ⟨effect, labeled, allowed, rfl⟩ := one
  have isEntering : effect.label = .entering := List.mem_singleton.mp labeled
  cases effect with
  | adjust ptr change =>
    cases change with
    | missingCore => exact Touched.adjust middle ptr (Touched.minor_thread _)
    | stop | register | unregister | clear | reset | suspend | priority => cases isEntering
  | enter => exact entered_touched middle
  | proceed => exact proceeded_touched middle
  | acquire mode => cases mode <;> cases isEntering
  | block token ticks point => exact Touched.block middle token ticks point
  | ran handle => exact Touched.note middle _
  | _ => cases isEntering

/-- A thread that begins to run guest code, or ends because there is no runner. -/
theorem Steady.runsOn_touched (steady : krnl.Steady) (runs : krnl.RunsOn next)
    (ended : krnl.threadRunner = false → krnl.tokenOf krnl.currentHandle ∈ extent.ends) :
    Touched extent krnl next := by
  rcases runs with ⟨_, handle, _, rfl⟩ | ⟨runner, middle, fiber, path, stays, _, _, ends⟩
  · exact Touched.note krnl _
  · have middleSteady := path.steady steady (by simp)
    refine (entering_touched path).trans (middleSteady.ends_touched ends ?_)
    rw [stays.token]
    exact ended runner

/-- The first dispatch of a system thread: it parks, or begins to run. -/
theorem Ok.entry_touched (ok : krnl.Ok) {fiber : Fiber} (entry : fiber.ctx.point = .entry)
    {self : Option Ptr} (body : fiber.ctx.body = .systhread self) (running : krnl.currentFiber = some fiber)
    (resumes : krnl.Resumes fiber next)
    (ended : krnl.threadRunner = false → krnl.tokenOf krnl.currentHandle ∈ extent.ends) :
    Touched extent krnl next := by
  have fresh : ¬ (Effect.proceed).Allowed krnl := by
    rintro ⟨other, again, native⟩
    obtain rfl := Option.some.inj (running.symm.trans again)
    rw [native entry] at body
    cases body
  cases resumes with
  | parks ptr object _ found live suspended enters allowed result =>
    rw [result]
    exact (entered_touched krnl).trans (Touched.block _ _ _ _)
  | starts _ enters ready runs =>
    refine (entered_touched krnl).trans ((ok.entered enters).runsOn_touched runs (fun runner => ?_))
    rw [Effect.currentHandle_apply ok enters (by simp [Effect.label]) rfl,
      tokenOf_congr (Effect.registry_apply ok enters rfl)]
    exact ended ((threadRunner_moved (Or.inl rfl)).symm.trans runner)
  | unparks ptr parked _ proceeds => exact absurd proceeds fresh
  | waits middle woken alive proceeds => exact absurd proceeds fresh
  | contends va point proceeds => exact absurd proceeds fresh
  | continues elsewhere proceeds => exact absurd proceeds fresh

/-- The fiber that is switched in stays within its extent.

Proof: by the point at which the fiber had stopped, as in `Ok.resume`. What the extent reads off the
state before the turn is the same in the state that the fiber finds, since only its point has moved. -/
theorem Ok.resume_touched (ok : krnl.Ok) {fiber : Fiber} (running : krnl.currentFiber = some fiber)
    (resumed : krnl.resume = some next) : Touched krnl.resumeExtent krnl next := by
  have extent : krnl.resumeExtent =
      { grants := krnl.resumeGrants fiber, ends := krnl.resumeEnds fiber, stores := krnl.resumeStores fiber } := by
    simp only [resumeExtent, running]
  rw [extent]
  obtain ⟨_, _, handle, _⟩ := setPoint_same running .guest
  have wholly := resumed
  have satisfied : ∀ ptr, (krnl.setPoint .guest).satisfiedAs (krnl.setPoint .guest).currentHandle ptr =
      krnl.satisfiedAs krnl.currentHandle ptr := by
    intro ptr
    rw [handle]
    unfold setPoint
    split <;> rfl
  simp only [XboxKrnl.resume, running] at resumed
  cases point : fiber.ctx.point with
  | entry =>
    simp only [point] at resumed
    cases body : fiber.ctx.body with
    | native =>
      rw [body] at resumed
      obtain rfl := Option.some.inj resumed
      exact proceeded_touched krnl
    | systhread self =>
      refine ok.entry_touched point body running (ok.resume_entry running point body resumed) (fun runner => ?_)
      simp [resumeEnds, runner, point]
  | guest =>
    simp only [point] at resumed
    obtain rfl := Option.some.inj resumed
    exact proceeded_touched krnl
  | returning reply =>
    simp only [point] at resumed
    obtain rfl := Option.some.inj resumed
    exact (proceeded_touched krnl).trans (Touched.deliver _ _)
  | waitDispatch ptr ticks =>
    have steady := ok.proceeded (show (Effect.proceed).Allowed krnl from ⟨fiber, running, by simp [point]⟩)
    obtain ⟨usable, rfl⟩ := resume_waitDispatch running point wholly
    refine ((proceeded_touched krnl).trans ?_).trans (Touched.deliver _ _)
    unfold XboxKrnl.resumeDispatch
    cases woken : fiber.waitTimedOut with
    | true => exact .refl
    | false =>
      simp only [Bool.not_false, Bool.not_true, Bool.false_eq_true, ↓reduceIte]
      split
      · exact Touched.note _ _
      · obtain ⟨⟨object, live⟩, _⟩ := ok.setPoint_waitable running (by simp [point, Point.waited]) (usable woken)
        refine steady.waitDispatch_touched live false ticks (fun other member => ?_)
        change other ∈ (krnl.setPoint .guest).granted [ptr] false at member
        rw [granted_congr handle satisfied] at member
        simpa [resumeGrants, woken, point] using member
  | waitMultiple ptrs waitAll ticks =>
    have proceeds : (Effect.proceed).Allowed krnl := ⟨fiber, running, by simp [point]⟩
    have steady := ok.proceeded proceeds
    have applied : (Effect.proceed).apply krnl = krnl.setPoint .guest := rfl
    rw [applied] at steady
    obtain ⟨alive, rfl⟩ := resume_waitMultiple running point wholly
    have waitable : ∀ ptr ∈ ptrs, (krnl.setPoint .guest).Waitable ptr := fun ptr member =>
      ok.setPoint_waitable running (by simpa [point, Point.waited] using member) (alive ptr member)
    obtain ⟨_, later, same, kept⟩ := steady.unregisterWaiter ptrs (ok.setPoint_handle running) waitable
    refine ((proceeded_touched krnl).trans ?_).trans (Touched.deliver _ _)
    unfold XboxKrnl.resumeMultiple
    cases woken : fiber.waitTimedOut with
    | true => exact Touched.unregisterWaiter _ _ _
    | false =>
      refine (Touched.unregisterWaiter _ (.multiWait (krnl.setPoint .guest).currentHandle) ptrs).trans ?_
      refine later.waitMultiple_touched ptrs waitAll false ticks
        (fun ptr member => (kept ptr (waitable ptr member)).1) (fun ptr member => ?_)
      have unregistered : ((krnl.setPoint .guest).unregisterWaiter
          (.multiWait (krnl.setPoint .guest).currentHandle) ptrs).granted ptrs waitAll =
          (krnl.setPoint .guest).granted ptrs waitAll :=
        granted_congr same (fun other => by rw [same, satisfiedAs_unregister]) ptrs waitAll
      rw [unregistered, granted_congr handle satisfied] at member
      simpa [resumeGrants, woken, point] using member
  | parked =>
    have proceeds : (Effect.proceed).Allowed krnl := ⟨fiber, running, by simp [point]⟩
    obtain ⟨self, _, _, runs⟩ := ok.resume_parked running point wholly
    refine (proceeded_touched krnl).trans ((ok.proceeded proceeds).runsOn_touched runs (fun runner => ?_))
    rw [Effect.currentHandle_apply ok proceeds (by simp [Effect.label]) rfl,
      tokenOf_congr (Effect.registry_apply ok proceeds rfl)]
    have absent := (threadRunner_moved (Or.inr rfl)).symm.trans runner
    simp [resumeEnds, absent, point]
  | suspended ptr out previous reply =>
    simp only [point] at resumed
    obtain rfl := Option.some.inj resumed
    refine ((proceeded_touched krnl).trans (Touched.writeOut _ _ _ (fun given _ => ?_))).trans (Touched.deliver _ _)
    simp only [resumeStores, point]
    exact outStores_mem given
  | csEnter va =>
    simp only [point] at resumed
    obtain rfl := Option.some.inj resumed
    refine ((proceeded_touched krnl).trans (csEnter_touched _ va (fun range member => ?_))).trans (Touched.deliver _ _)
    have same : (krnl.setPoint .guest).enterStores va = krnl.enterStores va := by
      have fiberCode : (krnl.setPoint .guest).inFiber = krnl.inFiber := by rw [inFiber, inFiber, handle]
      have fields : (krnl.setPoint .guest).csFields va = krnl.csFields va := by
        unfold setPoint
        split <;> rfl
      simp only [enterStores, handle, fiberCode, fields]
    rw [same] at member
    simpa [resumeStores, point] using member

/-! ## Actions -/

/-- The range that `refresh_data` stores to. -/
def refreshStores (krnl : XboxKrnl) : List (Nat × Nat) :=
  if krnl.kernelDataVa = 0 then [] else [(at32 krnl.kernelDataVa 8, 4)]

/-- What the kernel code of an action touches. Computation is not kernel code. -/
def actionExtent (krnl : XboxKrnl) : Action → Extent
  | .turn => ((Effect.turn).apply krnl).resumeExtent
  | .call call => (krnl.refreshData.callExtent call).storing krnl.refreshStores
  | .finish _ => { ends := [krnl.tokenOf krnl.currentHandle] }
  | _ => {}

/-- Refreshing touches that range only. -/
theorem refreshData_touched (krnl : XboxKrnl) (inside : ∀ range ∈ krnl.refreshStores, range ∈ extent.stores) :
    Touched extent krnl krnl.refreshData := by
  unfold refreshData
  split
  · rename_i given
    exact Touched.write32 krnl _ _ (inside _ (by simp [refreshStores, given]))
  · exact .refl

/-- What a fiber touches when it is switched in is quiet. -/
theorem resumeExtent_quiet (krnl : XboxKrnl) : krnl.resumeExtent.quiet = krnl.resumeExtent := by
  unfold resumeExtent
  cases krnl.currentFiber <;> rfl

/-- Every action but computation stays within its extent. -/
theorem Steady.step_once (steady : krnl.Steady) {action : Action} (stepped : krnl.step action = some next) :
    TouchedOnce (krnl.actionExtent action) krnl next ∨
      ∃ ram filetime, action = .compute ram filetime ∧ next = { krnl with ram, filetime } := by
  cases action with
  | run =>
    obtain ⟨_, _, rfl⟩ := run_cases stepped
    exact Or.inl (.never (Touched.schedule krnl _))
  | turn =>
    obtain ⟨idle, ⟨rfl, _⟩ | ⟨fiber, running, resumed⟩⟩ := turn_cases stepped
    · exact Or.inl (.never (Touched.schedule krnl _))
    · have ok := Effect.sound steady.ok .turn idle
      have turned : Touched ((Effect.turn).apply krnl).resumeExtent krnl ((Effect.turn).apply krnl) :=
        Touched.schedule krnl _
      refine Or.inl (.never ?_)
      rw [show (krnl.actionExtent .turn).quiet = _ from resumeExtent_quiet _]
      exact turned.trans (ok.resume_touched running resumed)
  | call call =>
    obtain ⟨_, _, rfl⟩ := call_cases stepped
    have refreshed : Touched (krnl.actionExtent (.call call)).quiet krnl krnl.refreshData :=
      refreshData_touched krnl (fun range member => List.mem_append_left _ member)
    have called : TouchedOnce (krnl.actionExtent (.call call)) krnl.refreshData (krnl.refreshData.exec call).1 :=
      (steady.refreshed.exec_once call).storing krnl.refreshStores
    exact Or.inl ((TouchedOnce.before refreshed called).after (Touched.deliver _ _))
  | finish code =>
    obtain ⟨fiber, _, ends⟩ := steady.finishBody stepped
    exact Or.inl (.never (steady.ends_touched ends List.mem_cons_self))
  | spawn stackTopReserve region =>
    obtain ⟨_, rfl⟩ := spawn_cases stepped
    exact Or.inl (.never (Touched.schedule krnl _))
  | sleep ticks =>
    obtain ⟨index, _, rfl⟩ := Option.map_eq_some_iff.mp stepped
    exact Or.inl (.never (Touched.schedule krnl _))
  | join target =>
    obtain ⟨index, _, rfl⟩ := Option.map_eq_some_iff.mp stepped
    exact Or.inl (.never (Touched.schedule krnl _))
  | compute ram filetime => exact Or.inr ⟨ram, filetime, rfl, (compute_cases stepped).2⟩

/-- A step stays in the extent of its action, or it is a computation of the guest. -/
theorem Steady.step_touched (steady : krnl.Steady) {action : Action} (stepped : krnl.step action = some next) :
    Touched (krnl.actionExtent action) krnl next ∨
      ∃ ram filetime, action = .compute ram filetime ∧ next = { krnl with ram, filetime } :=
  (steady.step_once stepped).imp TouchedOnce.touched id

end XboxKrnl

end SeriesxEmu
