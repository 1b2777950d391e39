import SeriesxEmu.VirtualTime
import SeriesxEmu.WaitResults

/-!
# The deadline of a timed wait

A wait that blocks stores the tick at which it gives up. A woken fiber that finds its objects
taken blocks again inside the same call, and the code then counts the whole timeout again. The
wait keeps the deadline of its call as long as that happens within the tick of the call.
-/

namespace SeriesxEmu

open Scheduler GuestScheduler

/-- The tick at which each fiber has made its last kernel call. -/
def noteCalls (krnl : XboxKrnl) (action : Action) (_ : XboxKrnl) (calledAt : Nat → Nat) : Nat → Nat :=
  match action, krnl.sched.current with
  | .call _, some index => Function.update calledAt index krnl.sched.tick
  | _, _ => calledAt

namespace XboxKrnl

variable {krnl next : XboxKrnl}

/-- A fiber that goes on with the wait does not find its objects there. -/
def Lacks (krnl : XboxKrnl) (fiber : Nat) : Point → Prop
  | .waitDispatch ptr _ => (krnl.object ptr).kind ≠ .event ∧ krnl.satisfiedAs fiber ptr = false
  | .waitMultiple ptrs waitAll _ => krnl.chosen fiber ptrs waitAll = none
  | _ => False

/-- A woken fiber that goes on with a timed wait in vain does so at the tick at which it blocked. -/
def WaitsPromptly (krnl : XboxKrnl) : Action → Prop
  | .turn => ∀ fiber ∈ ((Effect.turn).apply krnl).currentFiber, fiber.ctx.point.inWait = true →
    fiber.ctx.point.ticks ≠ kNoTimeout → fiber.waitTimedOut = false → krnl.Lacks fiber.handle fiber.ctx.point →
      fiber.wakeTick = (krnl.sched.tick + fiber.ctx.point.ticks) % 2 ^ 64
  | _ => True

instance (krnl : XboxKrnl) (fiber : Nat) : (point : Point) → Decidable (krnl.Lacks fiber point)
  | .waitDispatch _ _ => inferInstanceAs (Decidable (_ ∧ _))
  | .waitMultiple _ _ _ => inferInstanceAs (Decidable (_ = _))
  | .entry | .guest | .returning _ | .parked | .suspended _ _ _ _ | .csEnter _ => inferInstanceAs (Decidable False)

instance (krnl : XboxKrnl) : (action : Action) → Decidable (krnl.WaitsPromptly action)
  | .turn => inferInstanceAs (Decidable (∀ _ ∈ _, _))
  | .run | .call _ | .finish _ | .spawn _ _ | .sleep _ | .join _ | .compute _ _ => inferInstanceAs (Decidable True)

/-! ## Time -/

/-- Only a turn of the run loop moves the time. -/
theorem Steady.keeps_time (steady : krnl.Steady) {action : Action} (stepped : krnl.step action = some next)
    (other : action ≠ .turn) : next.sched.tick = krnl.sched.tick := by
  have path := (steady.step stepped).1
  cases action with
  | turn => exact absurd rfl other
  | run =>
    obtain ⟨_, _, rfl⟩ := run_cases stepped
    rfl
  | call call => exact (rests_path path steady.ok (by cases call <;> simp [actionLabels, labelsOf])).1
  | finish | spawn | sleep | join | compute => exact (rests_path path steady.ok (by simp [actionLabels])).1

/-- Time passes only in a turn that switches no fiber in. -/
theorem Steady.turn_time (steady : krnl.Steady) (stepped : krnl.step .turn = some next) :
    next.sched.tick = krnl.sched.tick ∨
      (next.sched.tick = (krnl.sched.tick + 1) % 2 ^ 64 ∧ next.active = false ∧
        ((Effect.turn).apply krnl).sched.current = none) := by
  obtain ⟨idle, ⟨rfl, still⟩ | ⟨fiber, running, resumed⟩⟩ := turn_cases stepped
  · have inLoop : krnl.sched.inLoop = true := by
      rw [step_turn] at stepped
      split at stepped
      · rename_i guard
        simp only [Bool.and_eq_true] at guard
        exact guard.2
      · cases stepped
    simp only [Effect.apply, XboxKrnl.active] at still ⊢
    have turns := loopTurn_turns krnl.sched
    generalize krnl.sched.loopTurn.1 = after at turns still ⊢
    generalize krnl.sched.loopTurn.2 = outcome at turns
    cases turns with
    | complete | deadlocks | falls => exact Or.inl rfl
    | dispatches => cases still
    | idles => exact Or.inr ⟨rfl, by simp [idle, inLoop], idle⟩
  · have ok := Effect.sound steady.ok .turn idle
    obtain ⟨index, switched, _⟩ := currentFiber_index running
    have path := (ok.resumes_path (ok.resume running resumed)).1
    exact Or.inl ((rests_path path ok (by decide)).1.trans (turn_tick idle switched))

/-- Everything but the run loop is done by code that runs. -/
theorem active_of_step {action : Action} (stepped : krnl.step action = some next) (run : action ≠ .run)
    (turn : action ≠ .turn) : krnl.active = true := by
  have switched : ∀ {index : Nat}, krnl.sched.current = some index → krnl.active = true :=
    fun current => by simp [XboxKrnl.active, current]
  cases action with
  | run => exact absurd rfl run
  | turn => exact absurd rfl turn
  | call call => exact (call_cases stepped).1
  | finish code =>
    simp only [XboxKrnl.step, finishBody] at stepped
    split at stepped
    · cases stepped
    · rename_i fiber running
      obtain ⟨index, current, _⟩ := currentFiber_index running
      exact switched current
  | spawn stackTopReserve region => exact (spawn_cases stepped).1
  | sleep ticks =>
    obtain ⟨index, current, _⟩ := Option.map_eq_some_iff.mp stepped
    exact switched current
  | join target =>
    obtain ⟨index, current, _⟩ := Option.map_eq_some_iff.mp stepped
    exact switched current
  | compute ram filetime => exact (compute_cases stepped).1

/-! ## A wait that finds its objects ends -/

/-- A wait on a signaled object does not block. -/
theorem waitDispatch_met {ptr : Ptr} (met : (krnl.dispatcherSatisfied ptr).2 = true) (immediate : Bool) (ticks : Nat) :
    (krnl.waitDispatch ptr immediate ticks).1.frame = krnl.frame := by
  simp [XboxKrnl.waitDispatch, met]

/-- Neither does a wait on several objects that finds what it asks for. -/
theorem waitMultiple_met {ptrs : List Ptr} {waitAll : Bool}
    (met : if waitAll then (krnl.allSatisfied ptrs).2 = true else (krnl.firstSatisfied ptrs 0).2.isSome = true)
    (immediate : Bool) (ticks : Nat) : (krnl.waitMultiple ptrs waitAll immediate ticks).1.frame = krnl.frame := by
  unfold XboxKrnl.waitMultiple
  cases waitAll with
  | true =>
    simp only [↓reduceIte] at met
    simp [met]
  | false =>
    simp only [Bool.false_eq_true, ↓reduceIte] at met ⊢
    have scanned : (krnl.firstSatisfied ptrs 0).1.frame = krnl.frame := by simp
    split
    · rename_i checked index ptr found
      rw [found] at scanned
      simpa using scanned
    · rename_i checked found
      rw [found] at met
      cases met

/-- A woken fiber goes on with its single wait. -/
theorem Steady.turn_dispatches (steady : krnl.Steady) (stepped : krnl.step .turn = some next) {fiber : Fiber}
    (running : ((Effect.turn).apply krnl).currentFiber = some fiber) {ptr : Ptr} {ticks : Nat}
    (point : fiber.ctx.point = .waitDispatch ptr ticks) (woken : fiber.waitTimedOut = false) :
    ∃ start : XboxKrnl, krnl.SwitchedTo fiber start ∧ (∃ object, start.object? ptr = some object) ∧
      next = (start.resumeDispatch ptr ticks true).1.deliver ((start.resumeDispatch ptr ticks true).2.map waitReply) := by
  obtain ⟨idle, ⟨rfl, still⟩ | ⟨other, again, resumed⟩⟩ := turn_cases stepped
  · simp [currentFiber, still] at running
  · obtain rfl := Option.some.inj (running.symm.trans again)
    obtain ⟨usable, result⟩ := resume_waitDispatch running point resumed
    rw [woken] at result
    have waitable := (Effect.sound steady.ok .turn idle).setPoint_waitable running (by simp [point, Point.waited])
      (usable woken)
    exact ⟨_, steady.switchedTo idle running (by simp [point]), waitable.1, result⟩

/-- A woken fiber that blocks again has not found its objects there.

Proof: had the fiber found its objects there, its wait would have returned within the turn, and it
would not be blocked now. A single wait looks at one object; a multiple wait first takes its token
off the lists, which changes no answer. -/
theorem Steady.rewaits_lacks (steady : krnl.Steady) (stepped : krnl.step .turn = some next) {fiber : Fiber}
    (running : ((Effect.turn).apply krnl).currentFiber = some fiber) (inside : fiber.ctx.point.inWait = true)
    (woken : fiber.waitTimedOut = false) {index : Nat} (switched : ((Effect.turn).apply krnl).sched.current = some index)
    (blocked : ¬ next.Outside index) : krnl.Lacks fiber.handle fiber.ctx.point := by
  have last := (steady.step stepped).2
  have ended : ∀ {start ended : XboxKrnl} {reply : Option Reply}, krnl.SwitchedTo fiber start →
      next = ended.deliver reply → ended.frame ≠ start.frame := by
    intro start ended reply begun result same
    refine blocked (Outside.running last.guest ?_)
    have current : ended.sched.current = start.sched.current := congrArg Prod.fst (clock_of_frame same)
    have delivered : (ended.deliver reply).sched.current = ended.sched.current :=
      congrArg Prod.fst (clock_of_frame (ended.frame_deliver reply))
    rw [result, delivered, current, begun.current, switched]
  have here : ∀ {start : XboxKrnl}, krnl.SwitchedTo fiber start →
      start.satisfiedAs start.currentHandle = krnl.satisfiedAs fiber.handle := by
    intro start begun
    rw [begun.handle]
    exact funext (satisfiedAs_congr begun.objects begun.registry fiber.handle)
  cases point : fiber.ctx.point with
  | waitDispatch ptr ticks =>
    obtain ⟨start, begun, ⟨object, live⟩, result⟩ := steady.turn_dispatches stepped running point woken
    have satisfied := (begun.steady.dispatcherSatisfied live).2
    rw [here begun] at satisfied
    have same : krnl.object ptr = start.object ptr := by rw [XboxKrnl.object, XboxKrnl.object, begun.objects]
    have goesOn := ended begun result
    simp only [XboxKrnl.resumeDispatch, Bool.not_true, Bool.false_eq_true, ↓reduceIte] at goesOn
    refine ⟨fun event => ?_, Bool.eq_false_iff.mpr (fun met => ?_)⟩
    · rw [if_pos (same ▸ event)] at goesOn
      exact goesOn (start.frame_noteSatisfied _ _ _)
    · split at goesOn
      · exact goesOn (start.frame_noteSatisfied _ _ _)
      · exact goesOn (waitDispatch_met (satisfied.trans met) false ticks)
  | waitMultiple ptrs waitAll ticks =>
    obtain ⟨start, begun, waitable, result⟩ := steady.turn_resumes stepped running point
    obtain ⟨_, later, handle, kept⟩ := begun.steady.unregisterWaiter ptrs begun.inFiber waitable
    have live : ∀ ptr ∈ ptrs, ∃ object,
        (start.unregisterWaiter (.multiWait start.currentHandle) ptrs).object? ptr = some object :=
      fun ptr member => (kept ptr (waitable ptr member)).1
    have satisfied : (start.unregisterWaiter (.multiWait start.currentHandle) ptrs).satisfiedAs
        (start.unregisterWaiter (.multiWait start.currentHandle) ptrs).currentHandle =
        krnl.satisfiedAs fiber.handle := by
      rw [handle, ← here begun]
      exact funext (satisfiedAs_unregister start _ ptrs start.currentHandle)
    have all := (later.allSatisfied ptrs live).2
    have first := (later.firstSatisfied ptrs 0 live).2
    rw [satisfied] at all first
    have goesOn := ended begun result
    simp only [woken, Bool.not_false, XboxKrnl.resumeMultiple, Bool.not_true, Bool.false_eq_true, ↓reduceIte] at goesOn
    by_contra met
    refine goesOn ((waitMultiple_met ?_ false ticks).trans (start.frame_unregisterWaiter _ ptrs))
    obtain ⟨taken, picked⟩ := Option.ne_none_iff_exists'.mp met
    unfold chosen at picked
    cases waitAll with
    | true =>
      simp only [↓reduceIte, all] at picked ⊢
      split at picked
      · assumption
      · cases picked
    | false =>
      simp only [Bool.false_eq_true, ↓reduceIte] at picked ⊢
      obtain ⟨ptr, hit, _⟩ := Option.map_eq_some_iff.mp picked
      rw [first, hit]
      rfl
  | _ =>
    rw [point] at inside
    cases inside

/-! ## Every wait keeps the deadline of its call -/

/-- What the clock says about a fiber inside a timed wait that it has called at the tick. -/
structure Timely (krnl : XboxKrnl) (since : Nat) (fiber : Fiber) : Prop where
  before : since < 2 ^ 64
  deadline : fiber.wakeTick = (since + fiber.ctx.point.ticks) % 2 ^ 64
  ahead : fiber.state = .blockedWait → Ahead krnl.sched.tick krnl.active (since + fiber.ctx.point.ticks)

/-- The clock is a 64-bit counter, and every timed wait is on time. -/
def AllTimely (krnl : XboxKrnl) (calledAt : Nat → Nat) : Prop :=
  krnl.sched.tick < 2 ^ 64 ∧ ∀ (index : Nat) (fiber : Fiber), krnl.sched.threads[index]? = some fiber →
    fiber.ctx.point.inWait = true → fiber.ctx.point.ticks ≠ kNoTimeout → krnl.Timely (calledAt index) fiber

/-- A fiber that has just blocked in the tick of its call is on time. -/
theorem Timely.blockedAt {since : Nat} (before : since < 2 ^ 64) (now : next.sched.tick = since) {token : Token}
    {fiber earlier : Fiber} (timed : fiber.ctx.point.ticks ≠ kNoTimeout)
    (blocked : fiber = blockedAt since token fiber.ctx.point.ticks fiber.ctx.point earlier) : next.Timely since fiber := by
  have deadline : fiber.wakeTick = (since + fiber.ctx.point.ticks) % 2 ^ 64 := by
    have stored := congrArg GuestThread.wakeTick blocked
    simpa only [XboxKrnl.blockedAt, if_neg timed] using stored
  have positive := Nat.pos_of_ne_zero timed
  exact ⟨before, deadline, fun _ => ⟨by omega, fun _ => by omega⟩⟩

/-- A step notes nothing for a fiber that does not run. -/
theorem noteCalls_other {action : Action} {calledAt : Nat → Nat} {index : Nat}
    (other : krnl.sched.current ≠ some index) : noteCalls krnl action next calledAt index = calledAt index := by
  cases action with
  | call call =>
    cases current : krnl.sched.current with
    | none => simp [noteCalls, current]
    | some position =>
      rw [current] at other
      have different : index ≠ position := fun same => other (congrArg some same.symm)
      simp [noteCalls, current, different]
  | _ => rfl

/-- A fiber that rests in its wait stays on time. -/
theorem Timely.rests {since : Nat} {before after : Fiber} (timely : krnl.Timely since before) (rests : Rests before after)
    (steady : krnl.Steady) {action : Action} (stepped : krnl.step action = some next)
    (early : action = .turn → after.state = .blockedWait → krnl.sched.tick < after.wakeTick) :
    next.Timely since after := by
  have deadline : after.wakeTick = (since + after.ctx.point.ticks) % 2 ^ 64 := by
    rw [rests.wakeTick, rests.ctx]
    exact timely.deadline
  refine ⟨timely.before, deadline, fun blocked => ?_⟩
  by_cases turn : action = .turn
  · subst turn
    have soon := early rfl blocked
    rw [deadline] at soon
    have bound := Nat.mod_le (since + after.ctx.point.ticks) (2 ^ 64)
    rcases steady.turn_time stepped with same | ⟨passed, idle, _⟩
    · exact ⟨by omega, fun _ => by omega⟩
    · have wrapped := Nat.mod_le (krnl.sched.tick + 1) (2 ^ 64)
      exact ⟨by omega, fun active => by rw [idle] at active; cases active⟩
  · obtain rfl := rests.blocked blocked
    obtain ⟨notPast, strict⟩ := timely.ahead blocked
    rw [Ahead, steady.keeps_time stepped turn]
    refine ⟨notPast, fun active => strict ?_⟩
    by_cases run : action = .run
    · subst run
      obtain ⟨idle, _, rfl⟩ := run_cases stepped
      simp [XboxKrnl.active, idle] at active
    · exact active_of_step stepped run turn

/-- A woken fiber that blocks again in the tick of its call keeps the deadline. -/
theorem AllTimely.same_tick {calledAt : Nat → Nat} (timely : krnl.AllTimely calledAt) (idle : krnl.sched.current = none)
    {index : Nat} {fiber : Fiber} (switched : ((Effect.turn).apply krnl).sched.current = some index)
    (running : ((Effect.turn).apply krnl).currentFiber = some fiber) (inside : fiber.ctx.point.inWait = true)
    (timed : fiber.ctx.point.ticks ≠ kNoTimeout)
    (prompt : fiber.wakeTick = (krnl.sched.tick + fiber.ctx.point.ticks) % 2 ^ 64) :
    calledAt index = krnl.sched.tick := by
  obtain ⟨position, again, found⟩ := currentFiber_index running
  obtain rfl := Option.some.inj (switched.symm.trans again)
  obtain ⟨before, passed, here, passes, moved⟩ := Effect.turn_origin idle found
  have origin : fiber.ctx = before.ctx ∧ fiber.wakeTick = before.wakeTick := by
    have rests := Rests.passes passes
    rcases moved with ⟨rfl, _⟩ | ⟨_, _, rfl⟩ <;> exact ⟨rests.ctx, rests.wakeTick⟩
  rw [origin.1] at inside timed prompt
  obtain ⟨bound, deadline, _⟩ := timely.2 index before here inside timed
  rw [origin.2, deadline] at prompt
  have now := timely.1
  omega

/-- Every step keeps the deadlines, when waits begin in their own step. -/
theorem AllTimely.step {calledAt : Nat → Nat} (timely : krnl.AllTimely calledAt) (steady : krnl.Steady) {action : Action}
    (prompt : krnl.WaitsPromptly action) (stepped : krnl.step action = some next) :
    next.AllTimely (noteCalls krnl action next calledAt) := by
  refine ⟨?_, fun index after found inside timed => ?_⟩
  · by_cases turn : action = .turn
    · subst turn
      rcases steady.turn_time stepped with same | ⟨passed, _⟩
      · exact same ▸ timely.1
      · exact passed ▸ Nat.mod_lt _ (by decide)
    · exact steady.keeps_time stepped turn ▸ timely.1
  · cases steady.came_from stepped found inside with
    | rests before here rests early =>
      have other : krnl.sched.current ≠ some index := by
        intro current
        have running : krnl.currentFiber = some before := by simp [currentFiber, current, here]
        rw [rests.ctx, steady.guest before running] at inside
        cases inside
      rw [noteCalls_other other]
      rw [rests.ctx] at inside timed
      exact (timely.2 index before here inside timed).rests rests steady stepped early
    | enters call isCall switched point blocked =>
      obtain ⟨token, earlier, entered⟩ := blocked
      subst isCall
      have noted : noteCalls krnl (.call call) next calledAt index = krnl.sched.tick := by
        simp [noteCalls, switched]
      rw [noted]
      exact Timely.blockedAt timely.1 (steady.keeps_time stepped (by simp)) timed entered
    | rewaits fiber isTurn switched running woken point blocked =>
      obtain ⟨token, earlier, again⟩ := blocked
      subst isTurn
      obtain ⟨idle, _⟩ := turn_cases stepped
      have lacks : krnl.Lacks fiber.handle fiber.ctx.point := by
        refine steady.rewaits_lacks stepped running (by rw [point]; exact inside) woken switched (fun outside => ?_)
        rw [Outside.iff.mp outside after found] at inside
        cases inside
      have wakeTick := prompt fiber running (by rw [point]; exact inside) (by rw [point]; exact timed) woken lacks
      have noted : noteCalls krnl .turn next calledAt = calledAt := rfl
      have same := timely.same_tick idle switched running (by rw [point]; exact inside) (by rw [point]; exact timed) wakeTick
      rw [noted, same]
      have now : next.sched.tick = krnl.sched.tick := by
        rcases steady.turn_time stepped with same | ⟨_, _, none⟩
        · exact same
        · rw [none] at switched
          cases switched
      exact Timely.blockedAt timely.1 now timed again

/-- As long as woken fibers only block again within the tick of their call, a timed wait is never
blocked with a deadline later than its timeout after the call, and no longer blocked then.

Proof: the deadline of a fiber is that of its call, up to a word. Every step keeps it, since a fiber
that is woken for nothing waits for the rest of its time. -/
theorem timed_waits {ram : XbeRam} {addresses : Nat → Nat} {threadRunner : Bool} {kernelDataVa : Nat}
    {actions : List Action} {calledAt : Nat → Nat} (reached : Runs.run (Runs.watch step noteCalls)
      (initial ram addresses threadRunner kernelDataVa, fun _ => 0) actions = some (krnl, calledAt))
    (prompt : Runs.Along step WaitsPromptly (initial ram addresses threadRunner kernelDataVa) actions)
    {index : Nat} {fiber : Fiber} (found : krnl.sched.threads[index]? = some fiber)
    (inside : fiber.ctx.point.inWait = true) (timed : fiber.ctx.point.ticks ≠ kNoTimeout)
    (blocked : fiber.state = .blockedWait) :
    fiber.wakeTick ≤ calledAt index + fiber.ctx.point.ticks ∧
      Ahead krnl.sched.tick krnl.active (calledAt index + fiber.ctx.point.ticks) := by
  have preserved : ∀ state notes action next, XboxKrnl.Steady state ∧ XboxKrnl.AllTimely state notes →
      state.WaitsPromptly action → state.step action = some next →
        next.Steady ∧ next.AllTimely (noteCalls state action next notes) :=
    fun state notes action next holds condition stepped =>
      ⟨(holds.1.step stepped).2, holds.2.step holds.1 condition stepped⟩
  have start : (initial ram addresses threadRunner kernelDataVa).AllTimely (fun _ => 0) :=
    ⟨Nat.two_pow_pos 64, fun index fiber found => by cases found⟩
  have steadyStart := initial_steady ram addresses threadRunner kernelDataVa
  obtain ⟨_, timely⟩ := Runs.watch_invariant preserved ⟨steadyStart, start⟩ prompt reached
  obtain ⟨_, deadline, ahead⟩ := timely.2 index fiber found inside timed
  exact ⟨deadline ▸ Nat.mod_le _ _, ahead blocked⟩

/-- Memory in which a relative timeout of two ticks is stored. -/
def twoTicks : XbeRam :=
  ((onePage true).ram.write32 128 0xFFFFB1E0).write32 132 0xFFFFFFFF

/-- A fiber owns a mutant for a tick, and another one waits for it with the timeout. -/
def waitsTimed : List Action :=
  [.compute twoTicks 0, .spawn 0 (some 4096), .spawn 0 (some 8192), .run, .turn, .call (.keInitializeMutant 64 1),
    .sleep 1, .turn, .call (.keWaitForSingleObject 64 0 0 0 128), .turn]

/-- A timed wait of one run keeps the deadline of its call. -/
theorem waitsTimed_deadline : ∃ krnl calledAt fiber, Runs.run (Runs.watch step noteCalls) (onePage true, fun _ => 0)
    waitsTimed = some (krnl, calledAt) ∧ krnl.sched.threads[1]? = some fiber ∧ fiber.state = .blockedWait ∧
      fiber.wakeTick ≤ calledAt 1 + 2 ∧ Ahead krnl.sched.tick krnl.active (calledAt 1 + 2) := by
  have evaluated : (Runs.run (Runs.watch step noteCalls) (onePage true, fun _ => 0) waitsTimed).bind
      (fun watched => watched.1.sched.threads[1]?.map (fun fiber => (fiber.ctx.point, fiber.state))) =
      some (.waitDispatch 1 2, .blockedWait) := by decide +kernel
  obtain ⟨⟨krnl, calledAt⟩, reached, there⟩ := Option.bind_eq_some_iff.mp evaluated
  obtain ⟨fiber, found, same⟩ := Option.map_eq_some_iff.mp there
  obtain ⟨point, blocked⟩ := Prod.mk.inj same
  have kept := timed_waits reached (by decide +kernel) found (by rw [point]; rfl) (by rw [point]; decide) blocked
  rw [point] at kept
  exact ⟨krnl, calledAt, fiber, reached, found, blocked, kept⟩

/-- The owner releases the mutant and takes it again before the woken fiber runs. -/
def takesAgain : List Action :=
  waitsTimed ++
    ([.turn, .call (.keReleaseMutant 64 0 0 0), .call (.keWaitForSingleObject 64 0 0 0 0), .sleep 5,
      .turn] : List Action)

/-- The wait with a timeout of two ticks is blocked with a later deadline than that. -/
theorem takesAgain_late : ∃ krnl calledAt fiber, Runs.run (Runs.watch step noteCalls) (onePage true, fun _ => 0)
    takesAgain = some (krnl, calledAt) ∧ krnl.sched.threads[1]? = some fiber ∧ fiber.ctx.point = .waitDispatch 1 2 ∧
      fiber.state = .blockedWait ∧ calledAt 1 + 2 < fiber.wakeTick := by
  have evaluated : (Runs.run (Runs.watch step noteCalls) (onePage true, fun _ => 0) takesAgain).bind
      (fun watched => watched.1.sched.threads[1]?.map (fun fiber =>
        (fiber.ctx.point, fiber.state, watched.2 1, fiber.wakeTick))) =
      some (.waitDispatch 1 2, .blockedWait, 0, 3) := by decide +kernel
  obtain ⟨⟨krnl, calledAt⟩, reached, there⟩ := Option.bind_eq_some_iff.mp evaluated
  obtain ⟨fiber, found, same⟩ := Option.map_eq_some_iff.mp there
  obtain ⟨point, blocked, called, wakes⟩ : _ ∧ _ ∧ calledAt 1 = 0 ∧ fiber.wakeTick = 3 := by simpa using same
  exact ⟨krnl, calledAt, fiber, reached, found, point, blocked, by omega⟩

end XboxKrnl

end SeriesxEmu
