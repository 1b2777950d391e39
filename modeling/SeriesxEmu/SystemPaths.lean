import SeriesxEmu.CallPaths

/-!
# Every action is a path of effects

The resumption of a fiber is split by the point it was suspended at, and every
action of the machine is shown to be a path of effects. Every reachable state is
therefore steady: the invariant of the machine holds between any two actions.
-/

namespace SeriesxEmu

open Scheduler GuestScheduler

namespace XboxKrnl

variable {krnl next : XboxKrnl}

/-! ## Resuming a fiber -/

/-- The second half of a system thread body: the runner is called, or the thread
ends at once because there is none. -/
def RunsOn (krnl next : XboxKrnl) : Prop :=
  (krnl.threadRunner = true ∧ ∃ handle, (Effect.ran handle).Allowed krnl ∧
    next = (Effect.ran handle).apply krnl) ∨
  (krnl.threadRunner = false ∧ ∃ middle fiber, Path [.entering] krnl middle ∧ krnl.Stays middle ∧
    middle.sched = krnl.sched ∧ middle.currentFiber = some fiber ∧ middle.Ends fiber.ctx.body.captured next)

/-- What a fiber does from the point it was suspended at until it runs guest code,
is suspended again or ends. -/
inductive Resumes (krnl : XboxKrnl) (fiber : Fiber) (next : XboxKrnl) : Prop where
  | parks (self : Ptr) (object : DispatcherObject) (entry : fiber.ctx.point = .entry)
    (found : krnl.findThreadByFiber krnl.currentHandle = some self)
    (live : krnl.object? self = some object) (suspended : 0 < object.thread.suspendCount)
    (enters : (Effect.enter).Allowed krnl)
    (allowed : (Effect.block object.token kNoTimeout .parked).Allowed ((Effect.enter).apply krnl))
    (result : next = (Effect.block object.token kNoTimeout .parked).apply ((Effect.enter).apply krnl))
  | starts (entry : fiber.ctx.point = .entry) (enters : (Effect.enter).Allowed krnl)
    (ready : ∀ self, krnl.findThreadByFiber krnl.currentHandle = some self →
      (krnl.object self).thread.suspendCount = 0)
    (runs : ((Effect.enter).apply krnl).RunsOn next)
  | unparks (self : Ptr) (parked : fiber.ctx.point = .parked) (body : fiber.ctx.body = .systhread (some self))
    (proceeds : (Effect.proceed).Allowed krnl) (alive : krnl.live self = true)
    (runs : ((Effect.proceed).apply krnl).RunsOn next)
  | waits (middle : XboxKrnl) (woken : fiber.waitTimedOut = false)
    (alive : ∀ ptr ∈ fiber.ctx.point.waited, krnl.live ptr = true) (proceeds : (Effect.proceed).Allowed krnl)
    (waited : ((Effect.proceed).apply krnl).Waited fiber.ctx.point middle)
    (path : Path [.waiting] middle next)
  | contends (va : Nat) (point : fiber.ctx.point = .csEnter va) (proceeds : (Effect.proceed).Allowed krnl)
    (result : next = (((Effect.proceed).apply krnl).csEnter va).1.deliver
      (((Effect.proceed).apply krnl).csEnter va).2)
  | continues (elsewhere : ∀ va, fiber.ctx.point ≠ .csEnter va) (proceeds : (Effect.proceed).Allowed krnl)
    (path : Path [.waiting, .routine] ((Effect.proceed).apply krnl) next)

/-- A reply is a path of code that may wait. -/
theorem deliver_path (krnl : XboxKrnl) (reply : Option Reply) : Path [.waiting] krnl (krnl.deliver reply) := by
  cases reply with
  | none => exact .refl
  | some reply => exact Path.one (.deliver reply) (by simp [Effect.label]) trivial

/-- The second half of a system thread body calls the runner, or ends the thread. -/
theorem Steady.runBody (steady : krnl.Steady) {fiber : Fiber} (running : krnl.currentFiber = some fiber)
    {self : Option Ptr} (body : fiber.ctx.body = .systhread self)
    (alive : ∀ ptr, self = some ptr → krnl.live ptr = true) (ran : krnl.runBody self = some next) :
    krnl.RunsOn next := by
  have guest := steady.guest fiber running
  have captured : fiber.ctx.body.captured = self := by rw [body]; rfl
  unfold XboxKrnl.runBody at ran
  split at ran
  · rename_i runner
    refine Or.inl ⟨runner, _, ⟨fiber, running, guest, ?_⟩, (Option.some.inj ran).symm⟩
    rw [captured]
  · rename_i runner
    refine Or.inr ⟨by simpa using runner, ?_⟩
    cases self with
    | none =>
      obtain ⟨other, again, ends⟩ := steady.finishBody ran
      exact ⟨krnl, other, .refl, ⟨rfl, rfl⟩, rfl, again, ends⟩
    | some ptr =>
      obtain ⟨object, live⟩ := Option.isSome_iff_exists.mp (alive ptr rfl)
      have kind := ((steady.ok.running running).2.1.captured ptr _ captured (krnl.shapes_eq _ _ live)).1
      have allowed : (Effect.adjust ptr .missingCore).Allowed krnl := ⟨object, live, kind⟩
      have marked := Effect.steady steady allowed (by simp [Effect.label])
      obtain ⟨other, again, ends⟩ := marked.finishBody ran
      exact ⟨_, other, Path.one _ (by simp [Effect.label]) allowed,
        ⟨krnl.registry_modify ptr _ (fun _ _ => rfl), rfl⟩, rfl, again, ends⟩

/-- Entering or leaving a point of suspension puts the fiber into guest code. -/
theorem Ok.steady_of_moved (ok : krnl.Ok) {effect : Effect} (allowed : effect.Allowed krnl)
    (quiet : effect.label ≠ .loop)
    (guest : ∀ fiber, (effect.moves krnl fiber).ctx.point = .guest) : (effect.apply krnl).Steady := by
  refine ⟨effect.sound ok allowed, fun fiber running => ?_⟩
  rw [Effect.currentFiber_apply ok allowed quiet] at running
  split at running
  · cases running
  · obtain ⟨earlier, _, same⟩ := Option.map_eq_some_iff.mp running
    rw [← same]
    exact guest earlier

/-- A fiber that goes on is in a steady state. -/
theorem Ok.proceeded (ok : krnl.Ok) (allowed : (Effect.proceed).Allowed krnl) :
    ((Effect.proceed).apply krnl).Steady :=
  ok.steady_of_moved allowed (by simp [Effect.label]) (fun _ => rfl)

/-- So is one that enters its body. -/
theorem Ok.entered (ok : krnl.Ok) (allowed : (Effect.enter).Allowed krnl) :
    ((Effect.enter).apply krnl).Steady :=
  ok.steady_of_moved allowed (by simp [Effect.label]) (fun _ => rfl)

/-- The objects a suspended wait names are waitable as long as they are live. -/
theorem Ok.waited_waitable (ok : krnl.Ok) {fiber : Fiber} (running : krnl.currentFiber = some fiber) {ptr : Ptr}
    (named : ptr ∈ fiber.ctx.point.waited) (alive : krnl.live ptr = true) : krnl.Waitable ptr := by
  obtain ⟨object, live⟩ := Option.isSome_iff_exists.mp alive
  exact ⟨⟨object, live⟩, (ok.running running).2.1.waited ptr named _ (krnl.shapes_eq _ _ live)⟩

/-- Moving on in the code of a call changes nothing that is looked up. -/
theorem setPoint_same {fiber : Fiber} (running : krnl.currentFiber = some fiber) (point : Point) :
    (krnl.setPoint point).live = krnl.live ∧ (krnl.setPoint point).object = krnl.object ∧
      (krnl.setPoint point).currentHandle = krnl.currentHandle ∧
      (krnl.setPoint point).findThreadByFiber = krnl.findThreadByFiber := by
  obtain ⟨index, switched, found⟩ := currentFiber_index running
  refine ⟨?_, ?_, ?_, ?_⟩
  · unfold setPoint
    rw [switched]
    rfl
  · unfold setPoint
    rw [switched]
    rfl
  · simp [setPoint, switched, currentHandle, GuestScheduler.currentHandle, GuestScheduler.modifyThread, found]
  · unfold setPoint
    rw [switched]
    rfl

/-- The first dispatch of a system thread. -/
theorem Ok.resume_entry (ok : krnl.Ok) {fiber : Fiber} (running : krnl.currentFiber = some fiber)
    (entry : fiber.ctx.point = .entry) {self : Option Ptr} (body : fiber.ctx.body = .systhread self)
    (resumed : (krnl.setPoint .guest).enterBody fiber.ctx.body = some next) : krnl.Resumes fiber next := by
  have fresh : fiber.ctx.body = .systhread none := by
    have captured := ((ok.running running).2.1.entry entry).2
    rw [body] at captured ⊢
    exact congrArg Body.systhread captured
  have enters : (Effect.enter).Allowed krnl := ⟨fiber, running, entry, fresh⟩
  have entered := ok.entered enters
  obtain ⟨_, objects, handle, lookups⟩ := setPoint_same running .guest
  have entering : (krnl.setPoint .guest).setBody (.systhread (krnl.findThreadByFiber krnl.currentHandle)) =
      (Effect.enter).apply krnl := rfl
  have nowRunning : ((Effect.enter).apply krnl).currentFiber = some
      { fiber with ctx := { body := .systhread (krnl.findThreadByFiber krnl.currentHandle), point := .guest } } := by
    rw [Effect.currentFiber_apply ok enters (by simp [Effect.label]), running]
    rfl
  have kept : ∀ ptr, ((Effect.enter).apply krnl).object? ptr = krnl.object? ptr := by
    intro ptr
    rcases Effect.objects ok .enter enters with same | ⟨_, born, _⟩ | ⟨_, _, other, _⟩
    · rw [same ptr]
      exact Option.map_id_fun ▸ rfl
    · exact born.elim
    · cases other
  rw [body] at resumed
  simp only [XboxKrnl.enterBody, lookups, handle, objects, entering] at resumed
  split at resumed
  · rename_i ptr found
    obtain ⟨_, _, object, live, kind, own⟩ := findThreadByFiber_live ok.registry found
    rw [krnl.object_eq _ _ live] at resumed
    split at resumed
    · rename_i suspended
      refine .parks ptr object entry found live suspended enters
        ⟨⟨_, nowRunning, rfl⟩, _, ptr, object, nowRunning, by rw [found], ?_, rfl, suspended⟩
        (Option.some.inj resumed).symm
      rw [kept]
      exact live
    · rename_i ready
      refine .starts entry enters ?_ ?_
      · intro other again
        obtain rfl := Option.some.inj (found.symm.trans again)
        rw [krnl.object_eq _ _ live]
        omega
      · refine entered.runBody nowRunning rfl ?_ ?_
        · intro other again
          obtain rfl := Option.some.inj (found.symm.trans again)
          rw [XboxKrnl.live, kept, live]
          rfl
        · rw [found] at resumed ⊢
          exact resumed
  · rename_i missing
    refine .starts entry enters (fun other again => by rw [missing] at again; cases again) ?_
    refine entered.runBody nowRunning rfl (fun other again => by rw [missing] at again; cases again) ?_
    rw [missing]
    exact resumed

/-- The running fiber has a handle. -/
theorem Ok.setPoint_handle (ok : krnl.Ok) {fiber : Fiber} (running : krnl.currentFiber = some fiber) :
    (krnl.setPoint .guest).currentHandle ≠ 0 := by
  rw [(setPoint_same running .guest).2.2.1]
  exact ok.currentHandle_ne_zero running

/-- What a fiber waits for can be named when it runs on. -/
theorem Ok.setPoint_waitable (ok : krnl.Ok) {fiber : Fiber} (running : krnl.currentFiber = some fiber) {ptr : Ptr}
    (named : ptr ∈ fiber.ctx.point.waited) (alive : krnl.live ptr = true) : (krnl.setPoint .guest).Waitable ptr := by
  obtain ⟨⟨object, live⟩, place⟩ := ok.waited_waitable running named alive
  obtain ⟨index, switched, _⟩ := currentFiber_index running
  unfold setPoint
  rw [switched]
  exact ⟨⟨object, live⟩, place⟩

/-- A single wait goes on with its object, which is still there when the fiber has been woken. -/
theorem resume_waitDispatch {fiber : Fiber} (running : krnl.currentFiber = some fiber) {ptr : Ptr} {ticks : Nat}
    (point : fiber.ctx.point = .waitDispatch ptr ticks) (resumed : krnl.resume = some next) :
    (fiber.waitTimedOut = false → krnl.live ptr = true) ∧
      next = ((krnl.setPoint .guest).resumeDispatch ptr ticks (!fiber.waitTimedOut)).1.deliver
        (((krnl.setPoint .guest).resumeDispatch ptr ticks (!fiber.waitTimedOut)).2.map waitReply) := by
  simp only [XboxKrnl.resume, running, point] at resumed
  split at resumed
  · cases resumed
  · rename_i usable
    rw [(setPoint_same running .guest).1] at usable
    refine ⟨fun woken => ?_, (Option.some.inj resumed).symm⟩
    simpa [woken] using usable

/-- A multiple wait goes on with its objects, which are all still there. -/
theorem resume_waitMultiple {fiber : Fiber} (running : krnl.currentFiber = some fiber) {ptrs : List Ptr}
    {waitAll : Bool} {ticks : Nat} (point : fiber.ctx.point = .waitMultiple ptrs waitAll ticks)
    (resumed : krnl.resume = some next) :
    (∀ ptr ∈ ptrs, krnl.live ptr = true) ∧
      next = ((krnl.setPoint .guest).resumeMultiple ptrs waitAll ticks (!fiber.waitTimedOut)).1.deliver
        (((krnl.setPoint .guest).resumeMultiple ptrs waitAll ticks (!fiber.waitTimedOut)).2.map waitReply) := by
  simp only [XboxKrnl.resume, running, point] at resumed
  split at resumed
  · cases resumed
  · rename_i usable
    rw [(setPoint_same running .guest).1] at usable
    exact ⟨by simpa using usable, (Option.some.inj resumed).symm⟩

/-- A parked system thread runs on, if the object it has captured is still there. -/
theorem Ok.resume_parked (ok : krnl.Ok) {fiber : Fiber} (running : krnl.currentFiber = some fiber)
    (parked : fiber.ctx.point = .parked) (resumed : krnl.resume = some next) :
    ∃ self, fiber.ctx.body = .systhread (some self) ∧ krnl.live self = true ∧
      ((Effect.proceed).apply krnl).RunsOn next := by
  obtain ⟨lives, _⟩ := setPoint_same running .guest
  have proceeds : (Effect.proceed).Allowed krnl := ⟨fiber, running, by simp [parked]⟩
  have nowRunning : ((Effect.proceed).apply krnl).currentFiber = some
      { fiber with ctx := { fiber.ctx with point := .guest } } := by
    rw [Effect.currentFiber_apply ok proceeds (by simp [Effect.label]), running]
    rfl
  simp only [XboxKrnl.resume, running, parked] at resumed
  split at resumed
  · rename_i self body
    split at resumed
    · rename_i alive
      rw [lives] at alive
      refine ⟨self, body, alive, (ok.proceeded proceeds).runBody nowRunning body (fun other same => ?_) resumed⟩
      obtain rfl := Option.some.inj same
      exact (congrFun lives self).trans alive
    · cases resumed
  · cases resumed

/-- The resumption of the fiber that has just been switched in.

Proof: by the point at which the fiber had stopped. A fiber at its entry runs its body; any other
one proceeds first, and then finishes the call that it was in. -/
theorem Ok.resume (ok : krnl.Ok) {fiber : Fiber} (running : krnl.currentFiber = some fiber)
    (resumed : krnl.resume = some next) : krnl.Resumes fiber next := by
  have wholly := resumed
  simp only [XboxKrnl.resume, running] at resumed
  by_cases entry : fiber.ctx.point = .entry
  · simp only [entry] at resumed
    cases body : fiber.ctx.body with
    | native =>
      rw [body] at resumed
      refine .continues (by simp [entry]) ⟨fiber, running, fun _ => body⟩ ?_
      obtain rfl := Option.some.inj resumed
      exact .refl
    | systhread self => exact ok.resume_entry running entry body resumed
  · have proceeds : (Effect.proceed).Allowed krnl := ⟨fiber, running, fun atEntry => absurd atEntry entry⟩
    have steady := ok.proceeded proceeds
    have applied : (Effect.proceed).apply krnl = krnl.setPoint .guest := rfl
    rw [applied] at steady
    cases point : fiber.ctx.point with
    | entry => exact absurd point entry
    | guest =>
      simp only [point] at resumed
      obtain rfl := Option.some.inj resumed
      exact .continues (by simp [point]) proceeds .refl
    | returning reply =>
      simp only [point] at resumed
      obtain rfl := Option.some.inj resumed
      exact .continues (by simp [point]) proceeds ((deliver_path _ _).mono (by simp))
    | waitDispatch ptr ticks =>
      obtain ⟨usable, rfl⟩ := resume_waitDispatch running point wholly
      cases woken : fiber.waitTimedOut with
      | true =>
        refine .continues (by simp [point]) proceeds ?_
        simp only [Bool.not_true, XboxKrnl.resumeDispatch, Bool.not_false, ↓reduceIte]
        exact (deliver_path _ _).mono (by simp)
      | false =>
        have alive := usable woken
        refine .waits _ woken (by simpa [point, Point.waited] using alive) proceeds ?_ (deliver_path _ _)
        rw [applied, point]
        exact steady.resumeDispatch (ok.setPoint_waitable running (by simp [point, Point.waited]) alive) ticks
    | waitMultiple ptrs waitAll ticks =>
      obtain ⟨alive, rfl⟩ := resume_waitMultiple running point wholly
      have named : ∀ ptr ∈ ptrs, (krnl.setPoint .guest).Waitable ptr := fun ptr member =>
        ok.setPoint_waitable running (by simpa [point, Point.waited] using member) (alive ptr member)
      have inFiber := ok.setPoint_handle running
      cases woken : fiber.waitTimedOut with
      | true =>
        refine .continues (by simp [point]) proceeds ?_
        simp only [Bool.not_true, XboxKrnl.resumeMultiple, Bool.not_false, ↓reduceIte]
        exact ((steady.unregisterWaiter ptrs inFiber named).1.mono (by simp)).trans
          ((deliver_path _ _).mono (by simp))
      | false =>
        refine .waits _ woken (by simpa [point, Point.waited] using alive) proceeds ?_ (deliver_path _ _)
        rw [applied, point]
        exact steady.resumeMultiple ptrs waitAll ticks inFiber named
    | parked =>
      obtain ⟨self, body, alive, runs⟩ := ok.resume_parked running point wholly
      exact .unparks self point body proceeds alive runs
    | suspended ptr out previous reply =>
      simp only [point] at resumed
      obtain rfl := Option.some.inj resumed
      exact .continues (by simp [point]) proceeds
        ((writeOut_path _ _ _ (by simp)).trans ((deliver_path _ _).mono (by simp)))
    | csEnter va =>
      simp only [point] at resumed
      obtain rfl := Option.some.inj resumed
      exact .contends va point proceeds rfl

/-! ## Resumptions and actions as paths -/

/-- The labels of a resumption that neither ends a wait by an acquisition nor goes on in
`cs_enter`. -/
def proceedLabels : List Label := [.entering, .waiting, .routine, .ending, .exiting]

/-- The labels of a resumption that does not go on in `cs_enter`. -/
def wakeLabels : List Label := .grant :: .acquiring :: .consume :: proceedLabels

/-- The labels of a resumption. -/
def resumeLabels : List Label := .lock :: wakeLabels

/-- A thread that runs on from its start enters its runner or ends. -/
theorem Steady.runsOn_path (steady : krnl.Steady) (runs : krnl.RunsOn next) :
    Path proceedLabels krnl next := by
  rcases runs with ⟨_, handle, allowed, rfl⟩ | ⟨_, middle, _, path, _, _, _, ends⟩
  · exact Path.one _ (by simp [Effect.label, proceedLabels]) allowed
  · have marked := path.steady steady (by simp)
    exact (path.mono (by simp [proceedLabels])).trans ((marked.ends_path ends).mono (by simp [proceedLabels]))

/-- A woken fiber that goes on in `cs_enter`. -/
theorem Steady.contended (steady : krnl.Steady) {va : Nat}
    (result : next = (krnl.csEnter va).1.deliver (krnl.csEnter va).2) : Path [.waiting, .lock] krnl next := by
  rw [result]
  exact (steady.csEnter va).trans ((deliver_path _ _).mono (by simp))

/-- A resumption is a wait that goes on after a wake-up, or uses few labels. -/
theorem Ok.resumes_cases (ok : krnl.Ok) {fiber : Fiber} (resumes : krnl.Resumes fiber next) :
    Path (.lock :: proceedLabels) krnl next ∨ ∃ middle, fiber.waitTimedOut = false ∧
      (∀ ptr ∈ fiber.ctx.point.waited, krnl.live ptr = true) ∧ (Effect.proceed).Allowed krnl ∧
      ((Effect.proceed).apply krnl).Waited fiber.ctx.point middle ∧ Path [.waiting] middle next := by
  have entering : ∀ effect : Effect, effect.label = .entering → effect.Allowed krnl →
      Path (.lock :: proceedLabels) krnl (effect.apply krnl) :=
    fun effect labeled allowed => Path.one effect (by simp [labeled, proceedLabels]) allowed
  have wider : ∀ label ∈ proceedLabels, label ∈ Label.lock :: proceedLabels :=
    fun _ member => List.mem_cons_of_mem _ member
  cases resumes with
  | parks self object entry found live suspended enters allowed result =>
    rw [result]
    exact Or.inl ((entering .enter rfl enters).trans
      (Path.one (.block object.token kNoTimeout .parked) (by simp [Effect.label, proceedLabels]) allowed))
  | starts entry enters ready runs =>
    exact Or.inl ((entering .enter rfl enters).trans (((ok.entered enters).runsOn_path runs).mono wider))
  | unparks self parked body proceeds alive runs =>
    exact Or.inl ((entering .proceed rfl proceeds).trans (((ok.proceeded proceeds).runsOn_path runs).mono wider))
  | waits middle woken alive proceeds waited path =>
    exact Or.inr ⟨middle, woken, alive, proceeds, waited, path⟩
  | contends va point proceeds result =>
    exact Or.inl ((entering .proceed rfl proceeds).trans (((ok.proceeded proceeds).contended result).mono
      (by simp [proceedLabels])))
  | continues _ proceeds path =>
    exact Or.inl ((entering .proceed rfl proceeds).trans (path.mono (by simp [proceedLabels])))

/-- The fiber that is switched in leaves the point it was suspended at; then it goes on
in `cs_enter`, or does not touch critical sections. -/
theorem Ok.resumes_first (ok : krnl.Ok) {fiber : Fiber} (resumes : krnl.Resumes fiber next) :
    ∃ effect : Effect, effect.label = .entering ∧ effect.Allowed krnl ∧ (effect.apply krnl).Steady ∧
      (Path wakeLabels (effect.apply krnl) next ∨ ∃ va, fiber.ctx.point = .csEnter va ∧ effect = .proceed ∧
        next = ((effect.apply krnl).csEnter va).1.deliver ((effect.apply krnl).csEnter va).2) := by
  have wider : ∀ label ∈ proceedLabels, label ∈ wakeLabels :=
    fun _ member => List.mem_cons_of_mem _ (List.mem_cons_of_mem _ (List.mem_cons_of_mem _ member))
  cases resumes with
  | parks self object entry found live suspended enters allowed result =>
    refine ⟨.enter, rfl, enters, ok.entered enters, Or.inl ?_⟩
    rw [result]
    exact Path.one (.block object.token kNoTimeout .parked) (wider _ (by simp [Effect.label, proceedLabels])) allowed
  | starts entry enters ready runs =>
    exact ⟨.enter, rfl, enters, ok.entered enters, Or.inl (((ok.entered enters).runsOn_path runs).mono wider)⟩
  | unparks self parked body proceeds alive runs =>
    exact ⟨.proceed, rfl, proceeds, ok.proceeded proceeds,
      Or.inl (((ok.proceeded proceeds).runsOn_path runs).mono wider)⟩
  | waits middle woken alive proceeds waited path =>
    refine ⟨.proceed, rfl, proceeds, ok.proceeded proceeds,
      Or.inl ((waited.path.mono ?_).trans (path.mono (by simp [wakeLabels, proceedLabels])))⟩
    unfold waitLabels wakeLabels
    split <;> simp [proceedLabels]
  | contends va point proceeds result =>
    exact ⟨.proceed, rfl, proceeds, ok.proceeded proceeds, Or.inr ⟨va, point, rfl, result⟩⟩
  | continues _ proceeds path =>
    exact ⟨.proceed, rfl, proceeds, ok.proceeded proceeds,
      Or.inl (path.mono (by simp [wakeLabels, proceedLabels]))⟩

/-- What a fiber does when it is switched in is a path. -/
theorem Ok.resumes_path (ok : krnl.Ok) {fiber : Fiber} (resumes : krnl.Resumes fiber next) :
    Path resumeLabels krnl next ∧ next.Steady := by
  obtain ⟨effect, labeled, allowed, entered, rest⟩ := ok.resumes_first resumes
  have first : Path resumeLabels krnl (effect.apply krnl) :=
    Path.one effect (by simp [labeled, resumeLabels, wakeLabels, proceedLabels]) allowed
  have path : Path resumeLabels (effect.apply krnl) next := by
    rcases rest with path | ⟨va, _, _, result⟩
    · exact path.mono (fun _ member => List.mem_cons_of_mem _ member)
    · exact (entered.contended result).mono (by simp [resumeLabels, wakeLabels, proceedLabels])
  exact ⟨first.trans path, path.steady entered (by simp [resumeLabels, wakeLabels, proceedLabels])⟩

/-- A turn of the loop is the effect of the turn, and what the fiber does that is switched in. -/
theorem step_turn (krnl : XboxKrnl) :
    krnl.step .turn = if krnl.sched.current.isNone && krnl.sched.inLoop then
      match krnl.sched.loopTurn.2 with
      | .dispatched _ => ((Effect.turn).apply krnl).resume
      | _ => some ((Effect.turn).apply krnl)
    else none := by
  simp only [XboxKrnl.step, Effect.apply]
  split
  · rcases turned : krnl.sched.loopTurn with ⟨sched, outcome⟩
    cases outcome <;> rfl
  · rfl

/-- A turn of the run loop lets time pass or switches a fiber in, which resumes. -/
theorem turn_cases (stepped : krnl.step .turn = some next) :
    krnl.sched.current = none ∧ ((next = (Effect.turn).apply krnl ∧ next.sched.current = none) ∨
      ∃ fiber, ((Effect.turn).apply krnl).currentFiber = some fiber ∧
        ((Effect.turn).apply krnl).resume = some next) := by
  rw [step_turn] at stepped
  split at stepped
  · rename_i idle
    simp only [Bool.and_eq_true, Option.isNone_iff_eq_none] at idle
    refine ⟨idle.1, ?_⟩
    rcases loopTurn_cases krnl.sched with ⟨inLoop, deadlocked, tick, turned, outcome⟩ |
      ⟨inLoop, deadlocked, tick, turned, outcome⟩ | ⟨index, fiber, found, _, outcome, turned⟩
    · rw [outcome] at stepped
      obtain rfl := Option.some.inj stepped
      refine Or.inl ⟨rfl, ?_⟩
      simp only [Effect.apply, turned]
      exact idle.1
    · split at stepped
      · rename_i dispatched
        exact absurd dispatched (outcome _)
      · obtain rfl := Option.some.inj stepped
        refine Or.inl ⟨rfl, ?_⟩
        simp only [Effect.apply, turned]
        exact idle.1
    · rw [outcome] at stepped
      refine Or.inr ⟨switchedIn fiber, ?_, stepped⟩
      simp [currentFiber, Effect.apply, turned, found]
  · cases stepped

/-- An action other than a turn of the run loop, as a path of effects. -/
def actionLabels : Action → List Label
  | .run => [.loop]
  | .turn => .loop :: resumeLabels
  | .call call => .waiting :: labelsOf call
  | .finish _ => [.ending, .exiting]
  | .spawn _ _ => [.spawning]
  | .sleep _ => [.waiting, .routine]
  | .join _ => [.waiting, .routine]
  | .compute _ _ => [.waiting]

/-- Storing the tick count keeps the state steady. -/
theorem Steady.refreshed (steady : krnl.Steady) : krnl.refreshData.Steady := by
  have path : Path [.waiting] krnl krnl.refreshData := refreshData_path krnl (by simp)
  exact path.steady steady (by simp)

/-- It does not touch the scheduler. -/
theorem refreshData_sched (krnl : XboxKrnl) : krnl.refreshData.sched = krnl.sched := by
  obtain ⟨ram, refreshed⟩ := krnl.refreshData_eq
  rw [refreshed]

/-- The host enters the loop, from outside of it. -/
theorem run_cases (stepped : krnl.step .run = some next) :
    krnl.sched.current = none ∧ krnl.sched.inLoop = false ∧
      next = { krnl with sched := { krnl.sched with inLoop := true } } := by
  simp only [XboxKrnl.step] at stepped
  split at stepped
  · rename_i idle
    simp only [Bool.and_eq_true, Option.isNone_iff_eq_none, Bool.not_eq_eq_eq_not, Bool.not_true] at idle
    exact ⟨idle.1, idle.2, (Option.some.inj stepped).symm⟩
  · cases stepped

/-- A fiber is spawned, by the host or by another fiber. -/
theorem spawn_cases {stackTopReserve : Nat} {region : Option Nat}
    (stepped : krnl.step (.spawn stackTopReserve region) = some next) :
    krnl.active = true ∧ next = { krnl with sched := (krnl.sched.spawnReserved
      { body := .native, point := .entry } stackTopReserve region).1 } := by
  simp only [XboxKrnl.step] at stepped
  split at stepped
  · rename_i active
    exact ⟨active, (Option.some.inj stepped).symm⟩
  · cases stepped

/-- Guest code computes; the memory and the clock may be anything after it. -/
theorem compute_cases {ram : XbeRam} {filetime : Nat} (stepped : krnl.step (.compute ram filetime) = some next) :
    krnl.active = true ∧ next = { krnl with ram, filetime } := by
  simp only [XboxKrnl.step] at stepped
  split at stepped
  · rename_i active
    exact ⟨active, (Option.some.inj stepped).symm⟩
  · cases stepped

/-- A kernel call: the data exports are refreshed, the call is carried out, and the
reply is delivered unless the caller has blocked. -/
theorem call_cases {call : Call} (stepped : krnl.step (.call call) = some next) :
    krnl.active = true ∧ (krnl.refreshData.findsItself = true ∨ looksItselfUp call = false) ∧
      next = (krnl.refreshData.exec call).1.deliver (krnl.refreshData.exec call).2 := by
  simp only [XboxKrnl.step] at stepped
  split at stepped
  · rename_i allowed
    simp only [Bool.and_eq_true, Bool.or_eq_true, Bool.not_eq_eq_eq_not, Bool.not_true] at allowed
    refine ⟨allowed.1, ?_, (Option.some.inj stepped).symm⟩
    simpa [findsItself, currentHandle, refreshData_sched] using allowed.2
  · cases stepped

/-- A spawn is a path, also when it fails. -/
theorem spawnReserved_path (krnl : XboxKrnl) (stackTopReserve : Nat) (region : Option Nat) :
    Path [.spawning] krnl { krnl with sched := (krnl.sched.spawnReserved { body := .native, point := .entry }
      stackTopReserve region).1 } := by
  by_cases fits : kStackSize - kMinUsable < stackTopReserve
  · simp only [spawnReserved, fits, ↓reduceIte]
    exact .refl
  · cases region with
    | none =>
      simp only [spawnReserved, fits, ↓reduceIte]
      exact Path.one (.spend 0 1) (by simp [Effect.label]) trivial
    | some base =>
      exact Path.one (.spawn stackTopReserve base) (by simp [Effect.label]) (Nat.le_of_not_lt fits)

/-- So is a fiber that goes to sleep. -/
theorem Steady.threadSleep (steady : krnl.Steady) {index : Nat} (switched : krnl.sched.current = some index)
    (ticks : Nat) : Path [.waiting, .routine] krnl { krnl with
      sched := krnl.sched.threadSleep index ticks (fun ctx => { ctx with point := .guest }) } := by
  obtain ⟨fiber, found, _⟩ := steady.ok.current index switched
  unfold GuestScheduler.threadSleep
  split
  · exact steady.pause switched found .ready .guest _ rfl (Or.inr ⟨Or.inl rfl, rfl⟩)
  · exact steady.pause switched found .sleeping .guest _ rfl (Or.inr ⟨Or.inr (Or.inl rfl), rfl⟩)

/-- So is one that joins another. -/
theorem Steady.join (steady : krnl.Steady) {index : Nat} (switched : krnl.sched.current = some index)
    (target : Nat) : Path [.waiting, .routine] krnl { krnl with
      sched := (krnl.sched.join index target (fun ctx => { ctx with point := .guest })).1 } := by
  obtain ⟨fiber, found, _⟩ := steady.ok.current index switched
  rcases GuestScheduler.join_cases krnl.sched index target (fun ctx => { ctx with point := .guest }) with same | same
  · rw [same]
  · rw [same]
    exact steady.pause switched found .blockedJoin .guest _ rfl (Or.inr ⟨Or.inr (Or.inr rfl), rfl⟩)

/-- Every action is a path of effects, and leads to a steady state. -/
theorem Steady.step (steady : krnl.Steady) {action : Action} (stepped : krnl.step action = some next) :
    Path (actionLabels action) krnl next ∧ next.Steady := by
  cases action with
  | run =>
    obtain ⟨idle, _, rfl⟩ := run_cases stepped
    have path : Path [.loop] krnl _ := Path.one .enterLoop (by simp [Effect.label]) idle
    refine ⟨path, path.ok steady.ok, fun fiber running => ?_⟩
    exact steady.guest fiber running
  | turn =>
    obtain ⟨idle, ⟨rfl, still⟩ | ⟨fiber, running, resumed⟩⟩ := turn_cases stepped
    · have path : Path (actionLabels .turn) krnl _ :=
        Path.one .turn (by simp [Effect.label, actionLabels]) idle
      refine ⟨path, path.ok steady.ok, fun fiber running => ?_⟩
      rw [currentFiber, still] at running
      cases running
    · have path : Path (actionLabels .turn) krnl _ :=
        Path.one .turn (by simp [Effect.label, actionLabels]) idle
      have ok := path.ok steady.ok
      obtain ⟨later, last⟩ := ok.resumes_path (ok.resume running resumed)
      exact ⟨path.trans (later.mono (fun label member => List.mem_cons_of_mem _ member)), last⟩
  | call call =>
    obtain ⟨_, self, rfl⟩ := call_cases stepped
    have first : Path (actionLabels (.call call)) krnl krnl.refreshData :=
      refreshData_path krnl (by simp [actionLabels])
    have second : Path (actionLabels (.call call)) krnl.refreshData (krnl.refreshData.exec call).1 :=
      (steady.refreshed.exec call self).mono (fun label member => List.mem_cons_of_mem _ member)
    have third : Path (actionLabels (.call call)) _ _ :=
      (deliver_path (krnl.refreshData.exec call).1 (krnl.refreshData.exec call).2).mono (by simp [actionLabels])
    have path : Path (actionLabels (.call call)) krnl _ := (first.trans second).trans third
    exact ⟨path, path.steady steady (by cases call <;> simp [actionLabels, labelsOf])⟩
  | finish code =>
    obtain ⟨fiber, _, ends⟩ := steady.finishBody stepped
    have path := steady.ends_path ends
    exact ⟨path, path.steady steady (by simp)⟩
  | spawn stackTopReserve region =>
    obtain ⟨_, rfl⟩ := spawn_cases stepped
    have path := spawnReserved_path krnl stackTopReserve region
    exact ⟨path, path.steady steady (by simp)⟩
  | sleep ticks =>
    obtain ⟨index, switched, rfl⟩ := Option.map_eq_some_iff.mp stepped
    have path := steady.threadSleep switched ticks
    exact ⟨path, path.steady steady (by simp)⟩
  | join target =>
    obtain ⟨index, switched, rfl⟩ := Option.map_eq_some_iff.mp stepped
    have path := steady.join switched target
    exact ⟨path, path.steady steady (by simp)⟩
  | compute ram filetime =>
    obtain ⟨_, rfl⟩ := compute_cases stepped
    have path : Path [.waiting] krnl _ := Path.one (.compute ram filetime) (by simp [Effect.label]) trivial
    exact ⟨path, path.steady steady (by simp)⟩

/-! ## The actions that end a thread -/

/-- The labels of kernel code that ends no thread. -/
def aliveLabels : List Label :=
  [.waiting, .routine, .signal, .acquiring, .consume, .lock, .grant, .reset, .install, .suspend, .thread, .spawning,
    .close, .resume, .entering, .loop]

/-- The code ends no thread, or ends the running one after a while. -/
def Survives (krnl next : XboxKrnl) : Prop :=
  Path aliveLabels krnl next ∨
    ∃ middle target, Path aliveLabels krnl middle ∧ middle.Steady ∧ middle.Ends target next

/-- Code that ends no thread may come first. -/
theorem Survives.after {middle : XboxKrnl} (path : Path aliveLabels krnl middle) (survives : middle.Survives next) :
    krnl.Survives next := by
  rcases survives with later | ⟨last, target, later, rest⟩
  · exact Or.inl (path.trans later)
  · exact Or.inr ⟨last, target, path.trans later, rest⟩

/-- A thread that runs on from its start survives, or ends. -/
theorem Steady.runsOn_survives (steady : krnl.Steady) (runs : krnl.RunsOn next) : krnl.Survives next := by
  rcases runs with ⟨_, handle, allowed, rfl⟩ | ⟨_, middle, fiber, path, _, _, _, ends⟩
  · exact Or.inl (Path.one _ (by simp [Effect.label, aliveLabels]) allowed)
  · exact Or.inr ⟨middle, _, path.mono (by simp [aliveLabels]), path.steady steady (by simp), ends⟩

/-- A resumption ends no thread, or goes on in the body of a system thread. -/
theorem Ok.resumes_begins (ok : krnl.Ok) {fiber : Fiber} (resumes : krnl.Resumes fiber next) :
    Path aliveLabels krnl next ∨ (fiber.ctx.point = .entry ∨ fiber.ctx.point = .parked) ∧
      ∃ effect : Effect, (effect = .enter ∨ effect = .proceed) ∧
        effect.Allowed krnl ∧ (effect.apply krnl).Steady ∧ (effect.apply krnl).RunsOn next := by
  have entering : ∀ effect : Effect, effect.label = .entering → effect.Allowed krnl →
      Path aliveLabels krnl (effect.apply krnl) :=
    fun effect labeled allowed => Path.one effect (by simp [labeled, aliveLabels]) allowed
  cases resumes with
  | parks self object entry found live suspended enters allowed result =>
    rw [result]
    exact Or.inl ((entering .enter rfl enters).trans
      (Path.one (.block object.token kNoTimeout .parked) (by simp [Effect.label, aliveLabels]) allowed))
  | starts entry enters ready runs =>
    exact Or.inr ⟨Or.inl entry, .enter, Or.inl rfl, enters, ok.entered enters, runs⟩
  | unparks self parked body proceeds alive runs =>
    exact Or.inr ⟨Or.inr parked, .proceed, Or.inr rfl, proceeds, ok.proceeded proceeds, runs⟩
  | waits middle woken alive proceeds waited path =>
    refine Or.inl (((entering .proceed rfl proceeds).trans (waited.path.mono ?_)).trans
      (path.mono (by simp [aliveLabels])))
    unfold waitLabels
    split <;> simp [aliveLabels]
  | contends va point proceeds result =>
    exact Or.inl ((entering .proceed rfl proceeds).trans (((ok.proceeded proceeds).contended result).mono
      (by simp [aliveLabels])))
  | continues _ proceeds path =>
    exact Or.inl ((entering .proceed rfl proceeds).trans (path.mono (by simp [aliveLabels])))

/-- Every action ends no thread; or it ends the running one, at once or when a system thread
that has just been switched in runs on. -/
theorem Steady.step_begins (steady : krnl.Steady) {action : Action} (stepped : krnl.step action = some next) :
    Path aliveLabels krnl next ∨
      (∃ middle target, (middle = krnl ∨ middle = krnl.refreshData) ∧ middle.Steady ∧ middle.Ends target next) ∨
      ∃ effect : Effect, (effect = .enter ∨ effect = .proceed) ∧ (Effect.turn).Allowed krnl ∧
        effect.Allowed ((Effect.turn).apply krnl) ∧ (effect.apply ((Effect.turn).apply krnl)).Steady ∧
        (effect.apply ((Effect.turn).apply krnl)).RunsOn next := by
  have path := (steady.step stepped).1
  cases action with
  | turn =>
    obtain ⟨idle, outcome⟩ := turn_cases stepped
    have turned : Path aliveLabels krnl ((Effect.turn).apply krnl) :=
      Path.one .turn (by simp [Effect.label, aliveLabels]) idle
    rcases outcome with ⟨rfl, _⟩ | ⟨fiber, running, resumed⟩
    · exact Or.inl turned
    · have ok := turned.ok steady.ok
      rcases ok.resumes_begins (ok.resume running resumed) with later | ⟨_, effect, moves, allowed, entered, runs⟩
      · exact Or.inl (turned.trans later)
      · exact Or.inr (Or.inr ⟨effect, moves, idle, allowed, entered, runs⟩)
  | finish code =>
    obtain ⟨fiber, _, ends⟩ := steady.finishBody stepped
    exact Or.inr (Or.inl ⟨krnl, _, Or.inl rfl, steady, ends⟩)
  | call call =>
    cases call with
    | psTerminateSystemThread exitStatus =>
      obtain ⟨_, _, rfl⟩ := call_cases stepped
      have begun := steady.refreshed
      have first : Path aliveLabels krnl krnl.refreshData := refreshData_path krnl (by simp [aliveLabels])
      cases found : krnl.refreshData.findThreadByFiber krnl.refreshData.currentHandle with
      | none =>
        simp only [XboxKrnl.exec, XboxKrnl.psTerminateSystemThread, found]
        exact Or.inl (first.trans ((deliver_path _ _).mono (by simp [aliveLabels])))
      | some ptr =>
        have ends := begun.psTerminate_ends exitStatus found
        have silent : (krnl.refreshData.psTerminateSystemThread exitStatus).2 = none := by
          simp [XboxKrnl.psTerminateSystemThread, found]
        simp only [XboxKrnl.exec, silent]
        exact Or.inr (Or.inl ⟨_, _, Or.inr rfl, begun, ends⟩)
    | _ => exact Or.inl (path.mono (by simp only [actionLabels, labelsOf]; decide))
  | _ => exact Or.inl (path.mono (by simp only [actionLabels]; decide))

/-- Every action ends no thread, or ends the running one last. -/
theorem Steady.step_survives (steady : krnl.Steady) {action : Action} (stepped : krnl.step action = some next) :
    krnl.Survives next := by
  rcases steady.step_begins stepped with path | ⟨middle, target, rfl | rfl, begun, ends⟩ |
    ⟨effect, moves, idle, allowed, entered, runs⟩
  · exact Or.inl path
  · exact Or.inr ⟨middle, target, .refl, begun, ends⟩
  · exact Or.inr ⟨_, target, refreshData_path krnl (by simp [aliveLabels]), begun, ends⟩
  · have turned : Path aliveLabels krnl ((Effect.turn).apply krnl) :=
      Path.one .turn (by simp [Effect.label, aliveLabels]) idle
    have moved : Path aliveLabels ((Effect.turn).apply krnl) (effect.apply ((Effect.turn).apply krnl)) :=
      Path.one effect (by rcases moves with rfl | rfl <;> simp [Effect.label, aliveLabels]) allowed
    exact (entered.runsOn_survives runs).after (turned.trans moved)

/-! ## Reachable states -/

/-- The machine starts in a steady state. -/
theorem initial_steady (ram : XbeRam) (addresses : Nat → Nat) (threadRunner : Bool) (kernelDataVa : Nat) :
    (initial ram addresses threadRunner kernelDataVa).Steady := by
  refine ⟨⟨⟨?_, ?_, ?_, ?_, ?_, ?_, ?_, ?_, ?_, ?_, ?_, ?_, ?_, ?_, ?_, Nat.zero_lt_one, Nat.zero_lt_one⟩,
    ⟨?_, ?_, ?_, ?_⟩, ?_, ?_⟩, ?_⟩
  all_goals simp [initial, registry, object?, currentFiber]

/-- Every run stays in steady states. -/
theorem Steady.run (steady : krnl.Steady) {actions : List Action}
    (completed : Runs.run XboxKrnl.step krnl actions = some next) : next.Steady :=
  Runs.run_preserves (fun _ _ _ holds stepped => (Steady.step holds stepped).2) krnl next actions
    steady completed

/-- Every reachable state is steady. -/
theorem Reaches.steady {actions : List Action} (reached : krnl.Reaches actions) : krnl.Steady := by
  obtain ⟨ram, addresses, threadRunner, kernelDataVa, completed⟩ := reached
  exact (initial_steady ram addresses threadRunner kernelDataVa).run completed

/-- The machine has run the actions from the start, and every step met the
condition in the state before it. -/
def ReachesUnder (condition : XboxKrnl → Action → Prop) (krnl : XboxKrnl) (actions : List Action) : Prop :=
  ∃ ram addresses threadRunner kernelDataVa,
    Runs.run step (initial ram addresses threadRunner kernelDataVa) actions = some krnl ∧
      Runs.Along step condition (initial ram addresses threadRunner kernelDataVa) actions

/-- A run under a condition is a run. -/
theorem ReachesUnder.reaches {condition : XboxKrnl → Action → Prop} {actions : List Action}
    (reached : krnl.ReachesUnder condition actions) : krnl.Reaches actions := by
  obtain ⟨ram, addresses, threadRunner, kernelDataVa, completed, _⟩ := reached
  exact ⟨ram, addresses, threadRunner, kernelDataVa, completed⟩

/-- So it ends in a steady state. -/
theorem ReachesUnder.steady {condition : XboxKrnl → Action → Prop} {actions : List Action}
    (reached : krnl.ReachesUnder condition actions) : krnl.Steady := reached.reaches.steady

/-- It is one under any weaker condition. -/
theorem ReachesUnder.mono {condition weaker : XboxKrnl → Action → Prop} {actions : List Action}
    (reached : krnl.ReachesUnder condition actions)
    (implied : ∀ krnl action, condition krnl action → weaker krnl action) : krnl.ReachesUnder weaker actions := by
  obtain ⟨ram, addresses, threadRunner, kernelDataVa, completed, allowed⟩ := reached
  exact ⟨ram, addresses, threadRunner, kernelDataVa, completed, Runs.along_mono implied _ actions allowed⟩

/-- The invariant rule for the machine. -/
theorem ReachesUnder.invariant {condition : XboxKrnl → Action → Prop} {invariant : XboxKrnl → Prop}
    {actions : List Action} (reached : krnl.ReachesUnder condition actions)
    (start : ∀ ram addresses threadRunner kernelDataVa, invariant (initial ram addresses threadRunner kernelDataVa))
    (preserved : ∀ (krnl : XboxKrnl) action next, krnl.Steady → invariant krnl → condition krnl action →
      krnl.step action = some next → invariant next) : krnl.Steady ∧ invariant krnl := by
  obtain ⟨ram, addresses, threadRunner, kernelDataVa, completed, allowed⟩ := reached
  have steadyStart := initial_steady ram addresses threadRunner kernelDataVa
  have kept : ∀ before action next, before.Steady ∧ invariant before → condition before action →
      before.step action = some next → next.Steady ∧ invariant next :=
    fun before action next holds met stepped =>
      ⟨(Steady.step holds.1 stepped).2, preserved before action next holds.1 holds.2 met stepped⟩
  exact Runs.run_invariant kept _ krnl actions ⟨steadyStart, start ram addresses threadRunner kernelDataVa⟩
    allowed completed

/-- The invariant rule for all runs of the machine. -/
theorem Reaches.invariant {invariant : XboxKrnl → Prop} {actions : List Action} (reached : krnl.Reaches actions)
    (start : ∀ ram addresses threadRunner kernelDataVa, invariant (initial ram addresses threadRunner kernelDataVa))
    (preserved : ∀ (krnl : XboxKrnl) action next, krnl.Steady → invariant krnl →
      krnl.step action = some next → invariant next) : krnl.Steady ∧ invariant krnl := by
  obtain ⟨ram, addresses, threadRunner, kernelDataVa, completed⟩ := reached
  have under : krnl.ReachesUnder (fun _ _ => True) actions :=
    ⟨ram, addresses, threadRunner, kernelDataVa, completed, Runs.along_true _ actions⟩
  exact under.invariant start (fun krnl action next steady holds _ => preserved krnl action next steady holds)

/-- A concrete machine: the first page of memory is committed, and the allocator
never gives out an address twice. -/
def onePage (threadRunner : Bool) : XboxKrnl :=
  initial { committed := fun page => page == 0 } id threadRunner 0

/-- The state a concrete run ends in. -/
def after (threadRunner : Bool) (actions : List Action) : XboxKrnl :=
  (Runs.run step (onePage threadRunner) actions).getD (onePage threadRunner)

/-- A run on the first page that completes is a run of the machine. -/
theorem reaches_after (threadRunner : Bool) (actions : List Action)
    (completes : (Runs.run step (onePage threadRunner) actions).isSome = true) :
    (after threadRunner actions).Reaches actions := by
  obtain ⟨final, completed⟩ := Option.isSome_iff_exists.mp completes
  refine ⟨_, _, _, _, completed.trans ?_⟩
  rw [after, completed, Option.getD_some]

/-- If its steps meet a condition, it is one under that condition. -/
theorem reachesUnder_after (condition : XboxKrnl → Action → Prop) (threadRunner : Bool) (actions : List Action)
    (completes : (Runs.run step (onePage threadRunner) actions).isSome = true)
    (allowed : Runs.Along step condition (onePage threadRunner) actions) :
    (after threadRunner actions).ReachesUnder condition actions := by
  obtain ⟨final, completed⟩ := Option.isSome_iff_exists.mp completes
  refine ⟨_, _, _, _, completed.trans ?_, allowed⟩
  rw [after, completed, Option.getD_some]

/-- A run goes on from the state after its first part. -/
theorem run_after (threadRunner : Bool) (before rest : List Action)
    (completes : (Runs.run step (onePage threadRunner) (before ++ rest)).isSome = true) :
    Runs.run step (after threadRunner before) rest = some (after threadRunner (before ++ rest)) := by
  obtain ⟨final, completed⟩ := Option.isSome_iff_exists.mp completes
  obtain ⟨middle, first, second⟩ := (Runs.run_append _ final before rest).mp completed
  rw [after, after, first, completed, Option.getD_some, Option.getD_some]
  exact second

/-- Its next action is a step from there. -/
theorem step_after (threadRunner : Bool) (before : List Action) (action : Action)
    (completes : (Runs.run step (onePage threadRunner) (before ++ [action])).isSome = true) :
    (after threadRunner before).step action = some (after threadRunner (before ++ [action])) := by
  obtain ⟨next, stepped, same⟩ := (Runs.run_cons _ _ action []).mp (run_after threadRunner before [action] completes)
  rw [stepped]
  exact same

end XboxKrnl

end SeriesxEmu
