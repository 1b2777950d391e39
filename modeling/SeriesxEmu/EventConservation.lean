import SeriesxEmu.Channels
import SeriesxEmu.Counting

/-!
# A synchronization event hands out each signal once

Every set or pulse of a synchronization event is worth one signal, and so is the
state it is created in. A signal is stored in the event, or it has been handed to
a woken fiber that has not run yet, or a wait has used it up. The account of
these three never exceeds what was put in. While the event is signaled, no fiber
is blocked in a single wait on it.
-/

namespace SeriesxEmu

open Scheduler GuestScheduler

/-- The entry is a wait that the object satisfied. -/
def Event.satisfiedBy (ptr : Ptr) : Event → Bool
  | .satisfied _ _ objects _ => objects.contains ptr
  | _ => false

/-- The number of wait calls that the object has satisfied. -/
def waitsSatisfied (history : List Event) (ptr : Ptr) : Nat := history.countP (Event.satisfiedBy ptr)

/-- The point is that of a single wait on the object. -/
def Point.awaits (ptr : Ptr) : Point → Bool
  | .waitDispatch object _ => object == ptr
  | _ => false

/-- The fiber has been woken from a single wait on the object and has not run yet. -/
def Fiber.handed (ptr : Ptr) (fiber : Fiber) : Bool :=
  fiber.state == .ready && !fiber.waitTimedOut && fiber.ctx.point.awaits ptr

/-! ## Counting fibers -/

/-- A signal hands something to at most the fibers it wakes. -/
theorem countP_signalThreads (holds : Fiber → Bool) (token : Token) (threads : List Fiber) :
    (signalThreads token false threads).1.countP holds ≤ threads.countP holds +
      (signalThreads token false threads).2 ∧ (signalThreads token false threads).2 ≤ 1 := by
  induction threads with
  | nil => simp [signalThreads]
  | cons thread rest inductionHypothesis =>
    by_cases blocked : thread.BlockedOn token
    · simp only [signalThreads, blocked, ↓reduceIte, List.countP_cons, Bool.false_eq_true]
      split <;> split <;> omega
    · simp only [signalThreads, blocked, ↓reduceIte, List.countP_cons]
      omega

namespace XboxKrnl

variable {krnl next : XboxKrnl}

/-- The signals that are stored in the event or handed to a fiber. A closed event has
none: no fiber can use what it was handed. -/
def outstanding (krnl : XboxKrnl) (ptr : Ptr) : Nat :=
  match krnl.object? ptr with
  | none => 0
  | some object => (if object.event.signaled then 1 else 0) + krnl.sched.threads.countP (Fiber.handed ptr)

/-- No fiber is blocked in a single wait on the object. -/
def Unawaited (krnl : XboxKrnl) (ptr : Ptr) : Prop :=
  ∀ fiber ∈ krnl.sched.threads, fiber.state = .blockedWait → fiber.ctx.point.awaits ptr = false

/-- The account of a synchronization event of the handle table. `credit` is a signal
that the running fiber has been handed and is about to use. -/
structure EventOk (ptr : Ptr) (credit budget : Nat) (krnl : XboxKrnl) : Prop where
  channels : krnl.Channels
  allocated : ptr < krnl.heap.length
  account : waitsSatisfied krnl.history ptr + krnl.outstanding ptr + credit ≤ budget
  tabled : ∀ object, krnl.object? ptr = some object → ∃ slot, krnl.registry.table slot = some ptr
  sync : ∀ object, krnl.object? ptr = some object → object.kind = .event ∧ object.event.type = kEventSync
  unawaited : ∀ object, krnl.object? ptr = some object → object.event.signaled = true → krnl.Unawaited ptr

/-! ## What an effect does to the event -/

/-- A satisfied wait resets a synchronization event. -/
theorem taken_event (krnl : XboxKrnl) (count : Nat) (object : DispatcherObject)
    (kind : object.kind = .event) (sync : object.event.type = kEventSync) :
    (krnl.takeOne^[count] object).event =
      ⟨kEventSync, if count = 0 then object.event.signaled else false⟩ := by
  have kinds : ∀ times, (krnl.takeOne^[times] object).kind = .event := fun times =>
    (Effect.taken_part krnl DispatcherObject.kind
      (fun o => DispatcherObject.kind_of_shape (krnl.takeOne_shape o)) times object).trans kind
  induction count with
  | zero =>
    simp only [Function.iterate_zero, id_eq, ↓reduceIte]
    rw [← sync]
  | succ count inductionHypothesis =>
    rw [Function.iterate_succ_apply']
    simp [takeOne, kinds count, inductionHypothesis]

/-- The event keeps its type, and is signaled afterwards only by its own set or
because it was before and no wait has taken it. -/
theorem rewrite_event {effect : Effect} (allowed : effect.Allowed krnl) {ptr : Ptr} {object : DispatcherObject}
    (kind : object.kind = .event) (sync : object.event.type = kEventSync) (notVa : ptr ∉ krnl.vaObjects)
    (set : effect ≠ .setEvent ptr) :
    (effect.rewrite krnl ptr object).event.type = kEventSync ∧
      ((effect.rewrite krnl ptr object).event.signaled = true → object.event.signaled = true ∧
        ∀ mode ptrs status, effect = .acquire mode ptrs status → ptr ∉ ptrs) := by
  have only : ∀ (target : Ptr) (change : DispatcherObject → DispatcherObject),
      (∀ mode ptrs status, effect ≠ .acquire mode ptrs status) →
      ((change object).event.type = object.event.type ∧
        ((change object).event.signaled = true → object.event.signaled = true)) →
      (Effect.onlyAt target change ptr object).event.type = kEventSync ∧
        ((Effect.onlyAt target change ptr object).event.signaled = true → object.event.signaled = true ∧
          ∀ mode ptrs status, effect = .acquire mode ptrs status → ptr ∉ ptrs) := by
    intro target change other here
    refine Effect.onlyAt_holds (fun o => o.event.type = kEventSync ∧ (o.event.signaled = true →
      object.event.signaled = true ∧ ∀ mode ptrs status, effect = .acquire mode ptrs status → ptr ∉ ptrs)) ?_ ?_
    · exact ⟨here.1.trans sync, fun signaled => ⟨here.2 signaled, fun _ _ _ same => absurd same (other _ _ _)⟩⟩
    · exact ⟨sync, fun signaled => ⟨signaled, fun _ _ _ same => absurd same (other _ _ _)⟩⟩
  cases effect with
  | acquire mode ptrs status =>
    simp only [Effect.rewrite, krnl.taken_event (ptrs.count ptr) object kind sync, true_and]
    intro signaled
    by_cases absent : ptrs.count ptr = 0
    · rw [if_pos absent] at signaled
      refine ⟨signaled, ?_⟩
      rintro _ _ _ ⟨rfl, rfl, rfl⟩
      exact List.count_eq_zero.mp absent
    · rw [if_neg absent] at signaled
      cases signaled
  | suspendSelf target out reply => exact only target _ (by simp) ⟨rfl, id⟩
  | adjust target change =>
    cases change with
    | clear => exact only target _ (by simp) ⟨rfl, fun signaled => by cases signaled⟩
    | reset type signaled =>
      obtain ⟨found, live, _, located⟩ := allowed
      have different : ptr ≠ target := by
        rintro rfl
        exact notVa located
      simp only [Effect.rewrite, Effect.onlyAt, different, ↓reduceIte]
      exact ⟨sync, fun signaled => ⟨signaled, by simp⟩⟩
    | _ => exact only target _ (by simp) ⟨rfl, id⟩
  | setEvent target =>
    have different : ptr ≠ target := by
      rintro rfl
      exact set rfl
    simp only [Effect.rewrite, Effect.onlyAt, different, ↓reduceIte]
    exact ⟨sync, fun signaled => ⟨signaled, by simp⟩⟩
  | pulseEvent target => exact only target _ (by simp) ⟨rfl, fun signaled => by cases signaled⟩
  | releaseMutant target =>
    refine only target _ (by simp) ?_
    split <;> exact ⟨rfl, id⟩
  | releaseSemaphore target adjustment => exact only target _ (by simp) ⟨rfl, id⟩
  | resumeThread target => exact only target _ (by simp) ⟨rfl, id⟩
  | abandon target => exact only target _ (by simp) ⟨rfl, id⟩
  | wakeJoiner target => exact only target _ (by simp) ⟨rfl, id⟩
  | _ => exact ⟨sync, fun signaled => ⟨signaled, by simp⟩⟩

/-! ## What an effect does to the waiters -/

/-- A fiber blocked in a single wait on a live object waits on its channel. -/
theorem Ok.awaits_channel (ok : krnl.Ok) {fiber : Fiber} (member : fiber ∈ krnl.sched.threads)
    (blocked : fiber.state = .blockedWait) {ptr : Ptr} (awaits : fiber.ctx.point.awaits ptr = true)
    {object : DispatcherObject} (live : krnl.object? ptr = some object) : fiber.waitToken = object.token := by
  have waits := (ok.fibers.each fiber member).waits blocked
  unfold Point.awaits at awaits
  unfold Registry.Waits at waits
  split at awaits
  · rename_i target ticks point
    rw [point] at waits
    obtain rfl : target = ptr := by simpa using awaits
    exact waits.2 object.shape (krnl.shapes_eq _ _ live)
  · cases awaits

/-- The running fiber is handed nothing by its own effects. -/
theorem moves_handed {effect : Effect} (allowed : effect.Allowed krnl) (ptr : Ptr) (fiber : Fiber)
    (handed : Fiber.handed ptr (effect.moves krnl fiber) = true) : Fiber.handed ptr fiber = true := by
  cases effect with
  | block token ticks point => simp [Effect.moves, blockedAt, Fiber.handed] at handed
  | suspendSelf target out reply => simp [Effect.moves, blockedAt, Fiber.handed] at handed
  | enter => simp [Effect.moves, Fiber.handed, Point.awaits] at handed
  | proceed => simp [Effect.moves, Fiber.handed, Point.awaits] at handed
  | exit code => simp [Effect.moves, ended, Fiber.handed] at handed
  | pause state wakeTick joinTarget point =>
    obtain ⟨_, ⟨_, reply, rfl⟩ | ⟨_, rfl⟩⟩ := allowed <;>
      simp [Effect.moves, Fiber.handed, Point.awaits] at handed
  | _ => exact handed

/-- Only a signal of the object's channel hands a fiber something. -/
theorem Ok.handed_origin (ok : krnl.Ok) {effect : Effect} (allowed : effect.Allowed krnl) {ptr : Ptr}
    {object : DispatcherObject} (live : krnl.object? ptr = some object)
    (silent : ¬ effect.Signals krnl object.token) (index : Nat) (after : Fiber)
    (found : (effect.apply krnl).sched.threads[index]? = some after) (handed : Fiber.handed ptr after = true) :
    ∃ fiber, krnl.sched.threads[index]? = some fiber ∧ Fiber.handed ptr fiber = true := by
  by_cases loop : effect.label = .loop
  · rcases Effect.label_loop loop with rfl | rfl
    · exact ⟨after, found, handed⟩
    · obtain ⟨fiber, passed, before, passes, rest⟩ := Effect.turn_origin allowed found
      refine ⟨fiber, before, ?_⟩
      have ready : Fiber.handed ptr passed = true := by
        rcases rest with ⟨rfl, _⟩ | ⟨_, ready, rfl⟩
        · exact handed
        · simp only [Fiber.handed, switchedIn, Bool.and_eq_true] at handed ⊢
          exact ⟨⟨by simp [ready], handed.1.2⟩, handed.2⟩
      rcases passes with rfl | ⟨idle, rfl⟩ | ⟨_, rfl⟩
      · exact ready
      · have guest := (ok.fibers.each fiber (List.mem_of_getElem? before)).idle idle
        simp [Fiber.handed, guest, Point.awaits] at ready
      · simp [Fiber.handed] at ready
  · rcases Effect.fiber_origin ok allowed loop found with ⟨fiber, before, fate⟩ | ⟨_, spawned⟩
    · refine ⟨fiber, before, ?_⟩
      rcases fate with ⟨_, rfl⟩ | ⟨_, rfl | ⟨blocked, signaled, rfl⟩⟩
      · exact moves_handed allowed ptr fiber handed
      · exact handed
      · have awaits : fiber.ctx.point.awaits ptr = true := by
          simp only [Fiber.handed, GuestThread.wake, Bool.and_eq_true] at handed
          exact handed.2
        rw [ok.awaits_channel (List.mem_of_getElem? before) blocked awaits live] at signaled
        exact absurd signaled silent
    · have entry := (Effect.spawned_fresh spawned).1
      simp [Fiber.handed, entry, Point.awaits] at handed

/-- A fiber that is blocked in a single wait on the object was so before, or has found
the object not satisfied. -/
theorem Ok.awaiting_origin (ok : krnl.Ok) {effect : Effect} (allowed : effect.Allowed krnl) {ptr : Ptr}
    {after : Fiber} (member : after ∈ (effect.apply krnl).sched.threads) (blocked : after.state = .blockedWait)
    (awaits : after.ctx.point.awaits ptr = true) :
    (after ∈ krnl.sched.threads) ∨ krnl.satisfiedAs krnl.currentHandle ptr = false := by
  rcases Effect.blocked_origin ok allowed member blocked with old | ⟨fiber, _, rfl, ⟨token, ticks, point, rfl⟩ |
    ⟨target, out, reply, rfl⟩⟩
  · exact Or.inl old
  · right
    obtain ⟨_, blocks⟩ := allowed
    simp only [Effect.moves, blockedAt] at awaits
    unfold Point.awaits at awaits
    split at awaits
    · obtain rfl : _ = ptr := by simpa using awaits
      exact blocks.2.2
    · cases awaits
  · simp [Effect.moves, blockedAt, Point.awaits] at awaits

/-! ## The account over an effect -/

/-- Apart from a handed signal, an effect records one wait that the object satisfied,
and only when it acquires the object. -/
theorem events_satisfied (krnl : XboxKrnl) {effect : Effect} {ptr : Ptr} (unhanded : effect ≠ .consume ptr) :
    (effect.events krnl).countP (Event.satisfiedBy ptr) = 0 ∨
      ((effect.events krnl).countP (Event.satisfiedBy ptr) = 1 ∧
        ∃ mode ptrs status, effect = .acquire mode ptrs status ∧ ptr ∈ ptrs) := by
  cases effect with
  | consume target =>
    have different : target ≠ ptr := fun same => unhanded (by rw [same])
    simp [Effect.events, Event.satisfiedBy, Ne.symm different]
  | acquire mode ptrs status =>
    by_cases named : ptr ∈ ptrs.filter krnl.acquirable
    · exact Or.inr ⟨by simpa [Effect.events, Event.satisfiedBy] using named, mode, ptrs, status, rfl,
        List.mem_of_mem_filter named⟩
    · left
      simpa [Effect.events, Event.satisfiedBy] using named
  | create made =>
    simp only [Effect.events, birth]
    split <;> (try split) <;> simp [Event.satisfiedBy]
  | resumeThread target =>
    simp only [Effect.events]
    split <;> simp [Event.satisfiedBy]
  | exit code =>
    simp only [Effect.events]
    split <;> simp [Event.satisfiedBy]
  | _ => simp [Effect.events, Event.satisfiedBy]

/-- An effect adds to the satisfied waits those that it satisfies itself. -/
theorem waitsSatisfied_apply (ok : krnl.Ok) {effect : Effect} (allowed : effect.Allowed krnl) (ptr : Ptr) :
    waitsSatisfied (effect.apply krnl).history ptr =
      (effect.events krnl).countP (Event.satisfiedBy ptr) + waitsSatisfied krnl.history ptr := by
  rw [waitsSatisfied, history_apply ok allowed, List.countP_append, waitsSatisfied]

/-- What is outstanding on a live event is its signal, and the fibers that have been handed one. -/
theorem outstanding_live {ptr : Ptr} {object : DispatcherObject} (live : krnl.object? ptr = some object) :
    krnl.outstanding ptr = (if object.event.signaled then 1 else 0) +
      krnl.sched.threads.countP (Fiber.handed ptr) := by
  simp only [outstanding, live]

/-- Nothing is outstanding on a dead event. -/
theorem outstanding_dead {ptr : Ptr} (dead : krnl.object? ptr = none) : krnl.outstanding ptr = 0 := by
  simp only [outstanding, dead]

variable {ptr : Ptr} {credit budget : Nat}

/-- An allocated object that is live after an effect was live before it. -/
theorem EventOk.live_before (event : krnl.EventOk ptr credit budget) (ok : krnl.Ok) {effect : Effect}
    (allowed : effect.Allowed krnl) {object : DispatcherObject}
    (live : (effect.apply krnl).object? ptr = some object) :
    ∃ earlier, krnl.object? ptr = some earlier ∧ object = effect.rewrite krnl ptr earlier := by
  rcases Effect.object_origin ok allowed live with before | ⟨same, _⟩
  · exact before
  · exact absurd same (Nat.ne_of_lt event.allocated)

/-- The event stays in the handle table for as long as it lives. -/
theorem EventOk.tabled_apply (event : krnl.EventOk ptr credit budget) (ok : krnl.Ok) {effect : Effect}
    (allowed : effect.Allowed krnl) {object : DispatcherObject}
    (live : (effect.apply krnl).object? ptr = some object) :
    ∃ slot, (effect.apply krnl).registry.table slot = some ptr := by
  obtain ⟨earlier, before, _⟩ := event.live_before ok allowed live
  obtain ⟨slot, tabled⟩ := event.tabled earlier before
  exact ⟨slot, Effect.tabled_after ok allowed tabled live⟩

/-- The event is no object of the guest's memory. -/
theorem EventOk.notVa (event : krnl.EventOk ptr credit budget) (ok : krnl.Ok) {object : DispatcherObject}
    (live : krnl.object? ptr = some object) : ptr ∉ krnl.vaObjects := by
  intro located
  obtain ⟨slot, tabled⟩ := event.tabled object live
  exact (ok.registry.atAddress ptr located).2 slot tabled

/-- Only its sets and pulses signal the channel of the event. -/
theorem EventOk.silent (event : krnl.EventOk ptr credit budget) (ok : krnl.Ok) {effect : Effect}
    (allowed : effect.Allowed krnl) (set : effect ≠ .setEvent ptr) (pulse : effect ≠ .pulseEvent ptr)
    {object : DispatcherObject} (live : krnl.object? ptr = some object) : ¬ effect.Signals krnl object.token := by
  intro signals
  have target := event.channels.signals_target ok allowed live signals
  have kind := (event.sync object live).1
  have other : ∀ {found : DispatcherObject} {another : Kind}, krnl.object? ptr = some found →
      found.kind = another → another ≠ .event → False := by
    intro found another again isKind different
    obtain rfl := Option.some.inj (live.symm.trans again)
    exact different (isKind.symm.trans kind)
  cases effect with
  | setEvent place =>
    obtain rfl := Option.some.inj target
    exact set rfl
  | pulseEvent place =>
    obtain rfl := Option.some.inj target
    exact pulse rfl
  | releaseMutant place =>
    obtain rfl := Option.some.inj target
    obtain ⟨found, again, isKind, _⟩ := allowed
    exact other again isKind (by simp)
  | releaseSemaphore place adjustment =>
    obtain rfl := Option.some.inj target
    obtain ⟨found, again, isKind, _⟩ := allowed
    exact other again isKind (by simp)
  | resumeThread place =>
    obtain rfl := Option.some.inj target
    obtain ⟨found, again, isKind⟩ := allowed
    exact other again isKind (by simp)
  | abandon place =>
    obtain rfl := Option.some.inj target
    obtain ⟨found, again, isKind, _⟩ := allowed
    exact other again isKind (by simp)
  | wakeJoiner place =>
    obtain rfl := Option.some.inj target
    obtain ⟨found, again, isKind, _⟩ := allowed
    exact other again isKind (by simp)
  | _ => cases target

/-- An effect that is no set, pulse or handed signal of the event keeps its account.

Proof: the waits that are satisfied, the signal and the fibers that hold a handed signal are
followed through the effect one by one. Only an acquisition that names the event moves a unit, from
the signal to a satisfied wait. -/
theorem EventOk.effect (event : krnl.EventOk ptr credit budget) (ok : krnl.Ok) {effect : Effect}
    (allowed : effect.Allowed krnl) (set : effect ≠ .setEvent ptr) (pulse : effect ≠ .pulseEvent ptr)
    (unhanded : effect ≠ .consume ptr) : (effect.apply krnl).EventOk ptr credit budget := by
  have rewritten : ∀ earlier, krnl.object? ptr = some earlier →
      (effect.rewrite krnl ptr earlier).event.type = kEventSync ∧
        ((effect.rewrite krnl ptr earlier).event.signaled = true → earlier.event.signaled = true ∧
          ∀ mode ptrs status, effect = .acquire mode ptrs status → ptr ∉ ptrs) := by
    intro earlier before
    obtain ⟨kind, sync⟩ := event.sync earlier before
    exact rewrite_event allowed kind sync (event.notVa ok before) set
  have satisfied := krnl.events_satisfied unhanded
  have account := event.account
  refine ⟨event.channels.effect ok allowed, Nat.lt_of_lt_of_le event.allocated (heap_grows ok allowed), ?_,
    fun _ live => event.tabled_apply ok allowed live, ?_, ?_⟩
  · rw [waitsSatisfied_apply ok allowed]
    cases after : (effect.apply krnl).object? ptr with
    | none =>
      rw [outstanding_dead after]
      rcases satisfied with none | ⟨one, mode, ptrs, status, rfl, named⟩
      · omega
      · obtain ⟨object, live⟩ := (allowed.1 ptr named).1.1
        rcases Effect.object_fate ok allowed live with still | ⟨_, other⟩
        · rw [after] at still
          cases still
        · cases other
    | some object =>
      obtain ⟨earlier, before, rfl⟩ := event.live_before ok allowed after
      have handed := Counting.countP_pointwise (Fiber.handed ptr) _ _
        (ok.handed_origin allowed before (event.silent ok allowed set pulse before))
      have kept := (rewritten earlier before).2
      rw [outstanding_live before] at account
      rw [outstanding_live after]
      rcases satisfied with none | ⟨one, mode, ptrs, status, rfl, named⟩
      · by_cases signaled : (effect.rewrite krnl ptr earlier).event.signaled = true
        · rw [if_pos (kept signaled).1] at account
          rw [if_pos signaled]
          omega
        · rw [if_neg signaled]
          omega
      · have was : earlier.event.signaled = true := by
          have holds := (allowed.1 ptr named).2
          simpa only [satisfiedAs, krnl.object_eq _ _ before, (event.sync earlier before).1] using holds
        have taken : ¬ ((Effect.acquire mode ptrs status).rewrite krnl ptr earlier).event.signaled = true :=
          fun signaled => (kept signaled).2 mode ptrs status rfl named
        rw [if_pos was] at account
        rw [if_neg taken]
        omega
  · intro object live
    obtain ⟨earlier, before, rfl⟩ := event.live_before ok allowed live
    exact ⟨(DispatcherObject.kind_of_shape (effect.rewrite_shape krnl ptr earlier)).trans
      (event.sync earlier before).1, (rewritten earlier before).1⟩
  · intro object live signaled fiber member blocked
    obtain ⟨earlier, before, rfl⟩ := event.live_before ok allowed live
    have was := ((rewritten earlier before).2 signaled).1
    by_contra awaits
    rw [Bool.not_eq_false] at awaits
    rcases ok.awaiting_origin allowed member blocked awaits with old | unsatisfied
    · rw [event.unawaited earlier before was fiber old blocked] at awaits
      cases awaits
    · simp only [satisfiedAs, krnl.object_eq _ _ before, (event.sync earlier before).1, was] at unsatisfied
      cases unsatisfied

/-- The running fiber uses up the signal it was handed. -/
theorem EventOk.consume (event : krnl.EventOk ptr (credit + 1) budget) (ok : krnl.Ok)
    (allowed : (Effect.consume ptr).Allowed krnl) : ((Effect.consume ptr).apply krnl).EventOk ptr credit budget := by
  have account := event.account
  refine ⟨event.channels.effect ok allowed, event.allocated, ?_, event.tabled, event.sync, event.unawaited⟩
  have one : ((Effect.consume ptr).events krnl).countP (Event.satisfiedBy ptr) = 1 := by
    simp [Effect.events, Event.satisfiedBy]
  have same : ((Effect.consume ptr).apply krnl).outstanding ptr = krnl.outstanding ptr := rfl
  rw [waitsSatisfied_apply ok allowed, one, same]
  omega

/-- A signal that is not used up is lost. -/
theorem EventOk.forget (event : krnl.EventOk ptr credit budget) {less more : Nat} (lower : less ≤ credit)
    (higher : budget ≤ more) : krnl.EventOk ptr less more := by
  have account := event.account
  exact { event with account := by omega }

/-- A fiber that was handed a signal leaves its wait with it. -/
theorem EventOk.proceed (event : krnl.EventOk ptr 0 budget) (ok : krnl.Ok) (allowed : (Effect.proceed).Allowed krnl)
    {fiber : Fiber} (running : krnl.currentFiber = some fiber) (handed : Fiber.handed ptr fiber = true)
    {object : DispatcherObject} (live : krnl.object? ptr = some object) :
    ((Effect.proceed).apply krnl).EventOk ptr 1 budget := by
  have kept := event.effect ok allowed (by simp) (by simp) (by simp)
  have account := event.account
  refine { kept with account := ?_ }
  obtain ⟨index, switched, found⟩ := currentFiber_index running
  have threads := (Effect.leads ok .proceed allowed (by simp [Effect.label])).threads
  have fewer := Counting.countP_modify (Fiber.handed ptr) ((Effect.proceed).moves krnl) found
  have used : Fiber.handed ptr ((Effect.proceed).moves krnl fiber) = false := by
    simp [Effect.moves, Fiber.handed, Point.awaits]
  rw [if_pos handed, used, if_neg Bool.false_ne_true, Nat.add_zero] at fewer
  rw [← krnl.onCurrent_some switched] at fewer
  have listed : ((Effect.proceed).apply krnl).sched.threads = krnl.onCurrent ((Effect.proceed).moves krnl) := threads
  rw [← listed] at fewer
  have after : ((Effect.proceed).apply krnl).object? ptr = some object := by
    rcases Effect.object_fate ok allowed live with still | ⟨_, other⟩
    · exact still
    · cases other
  rw [outstanding_live live] at account
  rw [waitsSatisfied_apply ok allowed, outstanding_live after]
  simp only [Effect.events, List.countP_nil]
  omega

/-- Setting or pulsing the event stores the signal when no fiber waits for it, and hands
it to at most one fiber otherwise. -/
theorem EventOk.handed_releasedBy (event : krnl.EventOk ptr credit budget) (ok : krnl.Ok)
    {object : DispatcherObject} (live : krnl.object? ptr = some object) :
    (krnl.releasedBy object).countP (Fiber.handed ptr) ≤ krnl.sched.threads.countP (Fiber.handed ptr) +
      (signalThreads object.token false krnl.sched.threads).2 := by
  have single : (object.event.type == kEventNotify) = false := by
    simp [(event.sync object live).2, kEventSync, kEventNotify]
  obtain ⟨woken, _⟩ := countP_signalThreads (Fiber.handed ptr) object.token krnl.sched.threads
  refine Nat.le_trans ?_ woken
  simp only [releasedBy, single]
  -- The multiple waits that are notified next are not on the channel of the event.
  refine Counting.countP_pointwise (Fiber.handed ptr) _ _ (fun index after found handed => ?_)
  obtain ⟨fiber, before, rfl | ⟨blocked, registered, rfl⟩⟩ :=
    (wakeEach_wakes object.mwWaiters (signalThreads object.token false krnl.sched.threads).1).origin index after found
  · exact ⟨after, before, handed⟩
  · have earlier := (signalThreads_wakes object.token false krnl.sched.threads).still_blocked index fiber before blocked
    have awaits : fiber.ctx.point.awaits ptr = true := by
      simp only [Fiber.handed, GuestThread.wake, Bool.and_eq_true] at handed
      exact handed.2
    have channel := ok.awaits_channel (List.mem_of_getElem? earlier) blocked awaits live
    obtain ⟨handle, multiple⟩ := event.channels ptr object live _ registered
    obtain ⟨addr, form⟩ := ok.registry.tokenForm ptr _ (krnl.shapes_eq _ _ live)
    have own : object.token = .object addr := form
    rw [channel, own] at multiple
    cases multiple

/-- An effect that sets or pulses the event raises the budget by one. -/
theorem EventOk.signal (event : krnl.EventOk ptr credit budget) (ok : krnl.Ok) {effect : Effect}
    (allowed : effect.Allowed krnl) (either : effect = .setEvent ptr ∨ effect = .pulseEvent ptr) :
    (effect.apply krnl).EventOk ptr credit (budget + 1) := by
  obtain ⟨object, live⟩ : ∃ object, krnl.object? ptr = some object := by
    rcases either with rfl | rfl <;> exact allowed.imp (fun _ here => here.1)
  obtain ⟨kind, sync⟩ := event.sync object live
  obtain ⟨signal, rewritten, unwoken⟩ : ∃ signal, effect.rewrite krnl ptr object = withSignal signal object ∧
      (signal = true → (signalThreads object.token false krnl.sched.threads).2 = 0) := by
    rcases either with rfl | rfl
    · refine ⟨krnl.setSignal object, by simp [Effect.rewrite, Effect.onlyAt], fun set => ?_⟩
      simpa [setSignal, sync, kEventSync, kEventNotify] using set
    · exact ⟨false, by simp [Effect.rewrite, Effect.onlyAt], fun set => by cases set⟩
  have threads : (effect.apply krnl).sched.threads = krnl.releasedBy object := by
    rcases either with rfl | rfl
    · rw [(Effect.leads ok _ allowed (by simp [Effect.label])).threads, Effect.threads, krnl.object_eq _ _ live]
    · rw [(Effect.leads ok _ allowed (by simp [Effect.label])).threads, Effect.threads, krnl.object_eq _ _ live]
  have after : (effect.apply krnl).object? ptr = some (withSignal signal object) := by
    rw [← rewritten]
    rcases Effect.object_fate ok allowed live with still | ⟨_, other⟩
    · exact still
    · rcases either with rfl | rfl <;> cases other
  have silent : (effect.events krnl).countP (Event.satisfiedBy ptr) = 0 := by
    rcases either with rfl | rfl <;> rfl
  have handed := event.handed_releasedBy ok live
  have woken := (countP_signalThreads (Fiber.handed ptr) object.token krnl.sched.threads).2
  have account := event.account
  refine ⟨event.channels.effect ok allowed, Nat.lt_of_lt_of_le event.allocated (heap_grows ok allowed), ?_,
    fun _ now => event.tabled_apply ok allowed now, fun _ now => ?_, fun _ now signaled fiber member blocked => ?_⟩
  · rw [outstanding_live live] at account
    rw [waitsSatisfied_apply ok allowed, silent, outstanding_live after, threads]
    by_cases stored : (withSignal signal object).event.signaled = true
    · rw [if_pos stored]
      have asleep := unwoken stored
      omega
    · rw [if_neg stored]
      omega
  · obtain rfl := Option.some.inj (after.symm.trans now)
    exact ⟨kind, sync⟩
  · obtain rfl := Option.some.inj (after.symm.trans now)
    have unblocked := (signalThreads_zero object.token false krnl.sched.threads (unwoken signaled)).2
    by_contra awaits
    rw [Bool.not_eq_false] at awaits
    rw [threads] at member
    obtain ⟨index, found⟩ := List.mem_iff_getElem?.mp member
    have earlier := List.mem_of_getElem? ((krnl.releasedBy_wakes object).still_blocked index fiber found blocked)
    exact unblocked fiber earlier ⟨blocked, ok.awaits_channel earlier blocked awaits live⟩

/-! ## Whole runs -/

/-- The action is an accepted `NtSetEvent` of the event. -/
def setsEvent (ptr : Ptr) (krnl : XboxKrnl) : Action → Nat
  | .call (.ntSetEvent handle _) => if krnl.ofKind .event (krnl.findObjectByHandle handle) = some ptr then 1 else 0
  | _ => 0

/-- The action is an accepted `NtPulseEvent` of the event. -/
def pulsesEvent (ptr : Ptr) (krnl : XboxKrnl) : Action → Nat
  | .call (.ntPulseEvent handle _) => if krnl.ofKind .event (krnl.findObjectByHandle handle) = some ptr then 1 else 0
  | _ => 0

/-- The account passes along a path that neither signals nor hands over. -/
theorem EventOk.path (event : krnl.EventOk ptr credit budget) (ok : krnl.Ok) {labels : List Label}
    (path : Path labels krnl next) (unsignaled : .signal ∉ labels) (unhanded : .consume ∉ labels) :
    next.EventOk ptr credit budget := by
  refine Path.keeps (fun _ effect ok holds labeled allowed => holds.effect ok allowed ?_ ?_ ?_) path ok event
  · rintro rfl
    exact unsignaled labeled
  · rintro rfl
    exact unsignaled labeled
  · rintro rfl
    exact unhanded labeled

/-- A wait that goes on after a wake-up uses up no more than the signal it was handed. -/
theorem EventOk.waited (event : krnl.EventOk ptr credit budget) (ok : krnl.Ok) {point : Point}
    (waited : krnl.Waited point next) (handed : point.awaits ptr = true → credit = 1) :
    next.EventOk ptr 0 budget := by
  obtain ⟨middle, path, ⟨rfl, _⟩ | ⟨effect, fulfils, allowed, rfl⟩⟩ := waited
  · exact (event.path ok path (by simp) (by simp)).forget (Nat.zero_le _) (Nat.le_refl _)
  · have middleOk := path.ok ok
    have before := event.path ok path (by simp) (by simp)
    by_cases consumes : effect = .consume ptr
    · subst consumes
      have awaits : point.awaits ptr = true := by
        unfold Fulfils at fulfils
        split at fulfils <;> simp_all [Point.awaits]
      obtain rfl := handed awaits
      exact before.consume middleOk allowed
    · refine (before.effect middleOk allowed ?_ ?_ consumes).forget (Nat.zero_le _) (Nat.le_refl _)
      · rintro rfl
        unfold Fulfils at fulfils
        split at fulfils <;> simp_all
      · rintro rfl
        unfold Fulfils at fulfils
        split at fulfils <;> simp_all

/-- A fiber that a turn switches in after it was woken from its wait was handed a signal. -/
theorem Ok.handed_switched (ok : krnl.Ok) (idle : krnl.sched.current = none) {fiber : Fiber}
    (running : ((Effect.turn).apply krnl).currentFiber = some fiber) (woken : fiber.waitTimedOut = false)
    (awaits : fiber.ctx.point.awaits ptr = true) : Fiber.handed ptr fiber = true := by
  obtain ⟨index, switched, found⟩ := currentFiber_index running
  obtain ⟨earlier, passed, before, passes, ⟨_, other⟩ | ⟨_, ready, rfl⟩⟩ := Effect.turn_origin idle found
  · exact absurd switched other
  · have started : passed.started = true := by
      by_contra fresh
      have unstarted : earlier.started = false := by
        rcases passes with rfl | ⟨_, rfl⟩ | ⟨_, rfl⟩ <;> simpa using fresh
      have entry := ((ok.fibers.each earlier (List.mem_of_getElem? before)).fresh unstarted).1
      have point : (switchedIn passed).ctx.point = .entry := by
        rw [← entry]
        exact congrArg Context.point passes.same.2.1
      rw [point] at awaits
      cases awaits
    simp only [Fiber.handed, Bool.and_eq_true]
    exact ⟨⟨by simp [switchedIn, started, ready], by simp [woken]⟩, awaits⟩

/-- A turn keeps the account and its budget. -/
theorem EventOk.turn (event : krnl.EventOk ptr 0 budget) (steady : krnl.Steady)
    (stepped : krnl.step .turn = some next) : next.EventOk ptr 0 budget := by
  obtain ⟨idle, outcome⟩ := turn_cases stepped
  have turned := event.effect steady.ok (show (Effect.turn).Allowed krnl from idle) (by simp) (by simp) (by simp)
  rcases outcome with ⟨rfl, _⟩ | ⟨fiber, running, resumed⟩
  · exact turned
  · have ok := Effect.sound steady.ok .turn idle
    rcases ok.resumes_cases (ok.resume running resumed) with path |
      ⟨middle, woken, alive, proceeds, waited, path⟩
    · exact turned.path ok path (by simp [proceedLabels]) (by simp [proceedLabels])
    · have begunOk := (ok.proceeded proceeds).ok
      refine EventOk.path ?_ (waited.path.ok begunOk) path (by simp) (by simp)
      by_cases awaits : fiber.ctx.point.awaits ptr = true
      · have named : ptr ∈ fiber.ctx.point.waited := by
          unfold Point.awaits at awaits
          split at awaits
          · rename_i target ticks point
            simp only [point, Point.waited, List.mem_singleton]
            exact (beq_iff_eq.mp awaits).symm
          · cases awaits
        obtain ⟨object, live⟩ := Option.isSome_iff_exists.mp (alive ptr named)
        have ready := steady.ok.handed_switched idle running woken awaits
        exact (turned.proceed ok proceeds running ready live).waited begunOk waited (fun _ => rfl)
      · have begun := turned.effect ok proceeds (by simp) (by simp) (by simp)
        exact begun.waited begunOk waited (fun same => absurd same awaits)

/-- A set or a pulse of an event costs one signal if the event is this one. -/
theorem EventOk.signalOf (event : krnl.EventOk ptr 0 budget) (ok : krnl.Ok) {effect : Effect} {target : Ptr}
    (allowed : effect.Allowed krnl) (either : effect = .setEvent target ∨ effect = .pulseEvent target) :
    (effect.apply krnl).EventOk ptr 0 (budget + if target = ptr then 1 else 0) := by
  by_cases same : target = ptr
  · subst same
    rw [if_pos rfl]
    exact event.signal ok allowed either
  · rw [if_neg same, Nat.add_zero]
    refine event.effect ok allowed ?_ ?_ ?_ <;>
      · rintro rfl
        rcases either with other | other <;> simp_all

/-- What a call does after its signal, storing a word and replying, keeps the account. -/
theorem EventOk.replied (event : krnl.EventOk ptr 0 budget) (ok : krnl.Ok) (path : Path [.waiting] krnl next)
    (reply : Option Reply) : (next.deliver reply).EventOk ptr 0 budget :=
  event.path ok (path.trans (deliver_path next reply)) (by simp) (by simp)

/-- Any step keeps the account, with the sets and pulses it performs added to the budget. -/
theorem EventOk.step (event : krnl.EventOk ptr 0 budget) (steady : krnl.Steady) {action : Action}
    (stepped : krnl.step action = some next) :
    next.EventOk ptr 0 (budget + (krnl.setsEvent ptr action + krnl.pulsesEvent ptr action)) := by
  by_cases plain : .signal ∉ actionLabels action ∧ .consume ∉ actionLabels action
  · exact (event.path steady.ok (steady.step stepped).1 plain.1 plain.2).forget (Nat.le_refl _)
      (Nat.le_add_right _ _)
  · cases action with
    | turn => exact event.turn steady stepped
    | call call =>
      obtain ⟨_, _, rfl⟩ := call_cases stepped
      obtain ⟨ram, refreshed⟩ := krnl.refreshData_eq
      have ok := steady.refreshed.ok
      have same : krnl.refreshData.EventOk ptr 0 budget :=
        event.path steady.ok (refreshData_path krnl (List.mem_singleton.mpr rfl)) (by simp) (by simp)
      have lookup : ∀ handle, krnl.ofKind .event (krnl.findObjectByHandle handle) =
          krnl.refreshData.ofKind .event (krnl.refreshData.findObjectByHandle handle) := by
        intro handle
        rw [refreshed]
        rfl
      cases call with
      | keSetEvent va increment wait =>
        simp only [exec, returning, XboxKrnl.keSetEvent, XboxKrnl.keEvent, setsEvent, pulsesEvent, Nat.add_zero]
        split
        · exact same.replied ok .refl _
        · rename_i target found
          obtain ⟨located, _⟩ := ofKind_some found
          obtain ⟨object, live, kind⟩ := ok.ofKind_live found (Or.inr (Or.inl ⟨va, rfl⟩))
          have other : target ≠ ptr := by
            rintro rfl
            exact same.notVa ok live (krnl.refreshData.findObjectByVa_member va target located)
          have allowed : (Effect.setEvent target).Allowed krnl.refreshData := ⟨object, live, kind⟩
          have set := same.signalOf ok allowed (Or.inl rfl)
          rw [if_neg other] at set
          exact set.replied (Effect.sound ok _ allowed) .refl _
      | ntSetEvent handle out =>
        simp only [exec, returning, XboxKrnl.ntSetEvent, setsEvent, pulsesEvent, Nat.add_zero, lookup]
        cases found : krnl.refreshData.ofKind .event (krnl.refreshData.findObjectByHandle handle) with
        | none => exact same.replied ok .refl _
        | some target =>
          obtain ⟨object, live, kind⟩ := ok.ofKind_live found (Or.inl ⟨handle, rfl⟩)
          have allowed : (Effect.setEvent target).Allowed krnl.refreshData := ⟨object, live, kind⟩
          have set := same.signalOf ok allowed (Or.inl rfl)
          simp only [Option.some.injEq]
          exact set.replied (Effect.sound ok _ allowed) (writeOut_path _ _ _ (by simp)) _
      | ntPulseEvent handle out =>
        simp only [exec, returning, XboxKrnl.ntPulseEvent, setsEvent, pulsesEvent, Nat.zero_add, lookup]
        cases found : krnl.refreshData.ofKind .event (krnl.refreshData.findObjectByHandle handle) with
        | none => exact same.replied ok .refl _
        | some target =>
          obtain ⟨object, live, kind⟩ := ok.ofKind_live found (Or.inl ⟨handle, rfl⟩)
          have allowed : (Effect.pulseEvent target).Allowed krnl.refreshData := ⟨object, live, kind⟩
          have pulsed := same.signalOf ok allowed (Or.inr rfl)
          simp only [Option.some.injEq]
          exact pulsed.replied (Effect.sound ok _ allowed) (writeOut_path _ _ _ (by simp)) _
      | _ => simp [actionLabels, labelsOf] at plain
    | _ => simp [actionLabels] at plain

/-- No suspended fiber awaits an object that has not been allocated yet. -/
theorem Ok.awaits_inside (ok : krnl.Ok) {fiber : Fiber} (member : fiber ∈ krnl.sched.threads)
    (awaits : fiber.ctx.point.awaits ptr = true) : ptr < krnl.heap.length := by
  have held := (ok.fibers.each fiber member).held
  unfold Point.awaits at awaits
  split at awaits
  · rename_i target ticks point
    obtain rfl := beq_iff_eq.mp awaits
    exact held target (by simp [point, Point.pointers])
  · cases awaits

/-- A new synchronization event is worth the state it is created in. -/
theorem EventOk.create (channels : krnl.Channels) (recorded : krnl.Recorded) (ok : krnl.Ok)
    {made : DispatcherObject} (allowed : (Effect.create made).Allowed krnl) (kind : made.kind = .event)
    (sync : made.event.type = kEventSync) :
    ((Effect.create made).apply krnl).EventOk krnl.heap.length 0 (if made.event.signaled then 1 else 0) := by
  obtain ⟨slot, objects, freeSlots, inserted, table, _⟩ := krnl.insert_allocated ok.registry made
  have stored : (krnl.allocate made).1.insertObject (krnl.allocate made).2 = _ := inserted
  have threads : ((Effect.create made).apply krnl).sched.threads = krnl.sched.threads := by
    simp only [Effect.apply, stored]
    rfl
  have live : ((Effect.create made).apply krnl).object? krnl.heap.length =
      some { made with token := .object krnl.freshAddress } := by
    simp only [Effect.apply, stored]
    exact (krnl.object?_allocate made krnl.heap.length).trans (if_pos rfl)
  have unawaited : ∀ fiber ∈ krnl.sched.threads, fiber.ctx.point.awaits krnl.heap.length = false := by
    intro fiber member
    by_contra awaits
    rw [Bool.not_eq_false] at awaits
    exact Nat.lt_irrefl _ (ok.awaits_inside member awaits)
  refine ⟨channels.effect ok allowed, ?_, ?_, fun _ _ => ⟨slot, ?_⟩, fun _ now => ?_, fun _ _ _ => ?_⟩
  · simp only [Effect.apply, stored]
    simp [allocate]
  · have unused : waitsSatisfied krnl.history krnl.heap.length = 0 := by
      refine List.countP_eq_zero.mpr (fun event member satisfied => ?_)
      cases event with
      | satisfied fiber mode ptrs status =>
        exact Nat.lt_irrefl _ (recorded _ member krnl.heap.length
          (by simpa [Event.satisfiedBy, Event.mentions] using satisfied))
      | _ => cases satisfied
    have unhanded : krnl.sched.threads.countP (Fiber.handed krnl.heap.length) = 0 := by
      refine List.countP_eq_zero.mpr (fun fiber member handed => ?_)
      simp [Fiber.handed, unawaited fiber member] at handed
    have silent : (Effect.create made).events krnl = [] := by simp [Effect.events, birth, kind]
    rw [waitsSatisfied_apply ok allowed, silent, unused, outstanding_live live, threads, unhanded]
    simp
  · simp only [Effect.apply, stored]
    exact (congrFun table slot).trans (Function.update_self ..)
  · obtain rfl := Option.some.inj (live.symm.trans now)
    exact ⟨kind, sync⟩
  · intro fiber member _
    rw [threads] at member
    exact unawaited fiber member

/-- The account starts with the creation of the event. -/
theorem EventOk.created (channels : krnl.Channels) (recorded : krnl.Recorded) (steady : krnl.Steady)
    {out attributes state : Nat}
    (called : krnl.step (.call (.ntCreateEvent out attributes kEventSync state)) = some next)
    (made : next.live krnl.heap.length = true) :
    next.EventOk krnl.heap.length 0 (if state % 2 = 1 then 1 else 0) := by
  obtain ⟨_, _, rfl⟩ := call_cases called
  obtain ⟨ram, refreshed⟩ := krnl.refreshData_eq
  have size : krnl.refreshData.heap.length = krnl.heap.length := by rw [refreshed]
  have ok := steady.refreshed.ok
  have begun : krnl.refreshData.Channels := by
    rw [refreshed]
    exact channels
  have begunRecorded : krnl.refreshData.Recorded := by
    rw [refreshed]
    exact recorded
  by_cases writable : krnl.refreshData.ram.writable out 4 = true
  · have allowed : (Effect.create { kind := .event, event := ⟨kEventSync, state % 2 == 1⟩ }).Allowed
        krnl.refreshData := ⟨⟨by simp, rfl, by simp⟩, by simp⟩
    have event := EventOk.create begun begunRecorded ok allowed rfl rfl
    obtain ⟨memory, created, _, _, history⟩ := krnl.refreshData.createObject_eq ok out
      { kind := .event, event := ⟨kEventSync, state % 2 == 1⟩ }
    simp only [birth, List.nil_append, ← history] at created
    simp only [size, beq_iff_eq] at event
    simp only [exec, returning, XboxKrnl.ntCreateEvent, writable, kEventSync, Bool.not_true, Bool.false_eq_true,
      ↓reduceIte, Nat.lt_irrefl]
    refine event.replied (Effect.sound ok _ allowed) ?_ _
    have path := memory_path ((Effect.create { kind := .event, event := ⟨kEventSync, state % 2 == 1⟩ }).apply
      krnl.refreshData) memory (List.mem_singleton.mpr rfl : Label.waiting ∈ [Label.waiting])
    rw [← created] at path
    exact path
  · have rejected : krnl.refreshData.exec (.ntCreateEvent out attributes kEventSync state) =
        (krnl.refreshData, some reject) := by
      simp [exec, returning, XboxKrnl.ntCreateEvent, writable, kEventSync]
    have dead : (krnl.refreshData.deliver (some reject)).object? krnl.heap.length = none := by
      rw [← size]
      simp [deliver, note, object?]
    rw [rejected] at made
    simp [live, dead] at made

/-- Over every run from its creation on, a synchronization event satisfies no more waits
than it was signaled, and no fiber is blocked in a single wait on it while it is
signaled.

Proof: the account of the event adds one credit for each set and each pulse, and spends one for each
satisfied wait. A run adds up what its steps add. -/
theorem events_conserved {start created : XboxKrnl} {before rest : List Action} {out attributes state : Nat}
    (reached : start.Reaches before)
    (called : start.step (.call (.ntCreateEvent out attributes kEventSync state)) = some created)
    (made : created.live start.heap.length = true) (completed : Runs.run step created rest = some krnl) :
    waitsSatisfied krnl.history start.heap.length ≤ (if state % 2 = 1 then 1 else 0) +
        Runs.total step (setsEvent start.heap.length) created rest +
        Runs.total step (pulsesEvent start.heap.length) created rest ∧
      ∀ object, krnl.object? start.heap.length = some object → object.event.signaled = true →
        krnl.Unawaited start.heap.length := by
  have first := EventOk.created reached.channels reached.recorded reached.steady called made
  have steady := (reached.steady.step called).2
  have last := Runs.run_total (fun spent before action next (holds : before.Steady ∧
    before.EventOk start.heap.length 0 spent) _ stepped => ⟨(holds.1.step stepped).2, holds.2.step holds.1 stepped⟩)
    _ created krnl rest ⟨steady, first⟩ (Runs.along_true created rest) completed
  have account := last.2.account
  rw [Runs.total_add] at account
  exact ⟨by omega, last.2.unawaited⟩

/-- The host creates a synchronization event. -/
def createsEvent : List Action := [.call (.ntCreateEvent 16 0 kEventSync 0)]

/-- A fiber waits for the event, the host sets it, and the fiber goes on. -/
def setsOnce : List Action :=
  [.spawn 0 (some 4096), .run, .turn, .call (.ntWaitForSingleObject 4 0 0), .turn, .call (.ntSetEvent 4 0), .run,
    .turn]

/-- An event set once satisfies one wait. -/
theorem setsOnce_conserved : waitsSatisfied (after true (createsEvent ++ setsOnce)).history 0 = 1 ∧
    waitsSatisfied (after true (createsEvent ++ setsOnce)).history 0 ≤
      0 + Runs.total step (setsEvent 0) (after true createsEvent) setsOnce +
        Runs.total step (pulsesEvent 0) (after true createsEvent) setsOnce := by
  refine ⟨by decide +kernel, ?_⟩
  have called := step_after true [] (.call (.ntCreateEvent 16 0 kEventSync 0)) (by decide +kernel)
  exact (events_conserved (reaches_after true [] (by decide +kernel)) called (by decide +kernel)
    (run_after true createsEvent setsOnce (by decide +kernel))).1

end XboxKrnl

end SeriesxEmu
