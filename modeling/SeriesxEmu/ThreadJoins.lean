import SeriesxEmu.EventConservation
import SeriesxEmu.ThreadTermination

/-!
# Waiting for a thread to end

A fiber waits for a system thread by a single wait on its handle. When the thread
ends, `finish_thread_object` wakes one waiter, and the finish hook wakes a second
one when it finds the same object, which it does as long as no identity has been
made for the fiber. Further waiters stay blocked on an object that is signaled.
-/

namespace SeriesxEmu

open Scheduler GuestScheduler

namespace XboxKrnl

variable {krnl next : XboxKrnl} {ptr : Ptr}

/-- The fibers blocked on a channel, in the order in which they are woken. -/
def waitersOn (krnl : XboxKrnl) (token : Token) : List Fiber :=
  krnl.sched.threads.filter (fun fiber => fiber.BlockedOn token)

/-- A terminated thread object. -/
def Terminated (krnl : XboxKrnl) (ptr : Ptr) : Prop :=
  ∃ object, krnl.object? ptr = some object ∧ object.kind = .thread ∧ object.thread.running = false

/-- Every fiber that is still in a single wait on a terminated thread object is ready. -/
def JoinersReleased (krnl : XboxKrnl) : Prop :=
  ∀ fiber ∈ krnl.sched.threads, ∀ ptr, fiber.ctx.point.awaits ptr = true → krnl.Terminated ptr →
    fiber.state = .ready

/-- The number of waiters that the end of the running fiber wakes: the body wakes one,
and the finish hook wakes another one unless it finds an identity instead. -/
def endingWakes (krnl : XboxKrnl) : Nat :=
  if (krnl.fiberThread? krnl.currentHandle).isNone then 2 else 1

/-- The fiber switched in enters its routine: it is unparked, or it is dispatched for the
first time and not suspended. -/
def entersRoutine (krnl : XboxKrnl) : Bool :=
  match krnl.currentFiber with
  | none => false
  | some fiber =>
    match fiber.ctx.point with
    | .parked => true
    | .entry => (krnl.findThreadByFiber krnl.currentHandle).all (fun ptr =>
        (krnl.object ptr).thread.suspendCount == 0)
    | _ => false

/-- The state in which the action finishes the object that the handle table has for the
running fiber. Without a thread runner a body ends where it would enter its routine;
`PsTerminateSystemThread` finishes an identity if there is one. -/
def finishing? (krnl : XboxKrnl) : Action → Option XboxKrnl
  | .finish _ => some krnl
  | .call (.psTerminateSystemThread _) =>
    if (krnl.fiberThread? krnl.currentHandle).isNone then some krnl else none
  | .turn =>
    if !krnl.threadRunner && ((Effect.turn).apply krnl).entersRoutine then some ((Effect.turn).apply krnl) else none
  | _ => none

/-- When the object of a thread is finished, the fibers that wait for the thread are among
those that its end wakes. -/
def JoinersWoken (krnl : XboxKrnl) (action : Action) : Prop :=
  ∀ ending ∈ (krnl.finishing? action).toList, ∀ ptr ∈ ending.objects.filterMap id,
    (ending.object ptr).kind = .thread → (ending.object ptr).thread.schedHandle = ending.currentHandle →
    ∀ fiber ∈ (ending.waitersOn (ending.object ptr).token).drop ending.endingWakes,
      fiber.ctx.point.awaits ptr = false

instance (krnl : XboxKrnl) (action : Action) : Decidable (JoinersWoken krnl action) :=
  inferInstanceAs (Decidable (∀ ending ∈ _, _))

/-! ## The fibers on a channel -/

/-- A wake-up on another channel leaves the fibers on this one. -/
theorem waitersOn_wakes {channel : Token → Prop} {before after : List Fiber} (woken : Wakes channel before after)
    {token : Token} (silent : ¬ channel token) :
    after.filter (fun fiber => fiber.BlockedOn token) = before.filter (fun fiber => fiber.BlockedOn token) := by
  refine Counting.filter_pointwise _ before after woken.length (fun index old new found found' => ?_)
  rcases woken.each index old found with same | ⟨blocked, signaled, changed⟩
  · obtain rfl := Option.some.inj (same.symm.trans found')
    exact ⟨rfl, fun _ => rfl⟩
  · obtain rfl := Option.some.inj (changed.symm.trans found')
    have other : old.waitToken ≠ token := by
      rintro rfl
      exact silent signaled
    simp [GuestThread.BlockedOn, GuestThread.wake, other]

/-- A single signal takes the first fiber from its channel. -/
theorem waitersOn_signal (token : Token) (threads : List Fiber) :
    (signalThreads token false threads).1.filter (fun fiber => fiber.BlockedOn token) =
      (threads.filter (fun fiber => fiber.BlockedOn token)).drop 1 := by
  induction threads with
  | nil => rfl
  | cons thread rest inductionHypothesis =>
    by_cases blocked : thread.BlockedOn token
    · have woken : ¬ thread.wake.BlockedOn token := by simp [GuestThread.BlockedOn, GuestThread.wake]
      simp [signalThreads, blocked, woken]
    · simp [signalThreads, blocked, inductionHypothesis]

/-- Waking a joiner takes the first fiber from the channel of the thread object. -/
theorem Channels.wakeJoiner_waiters (channels : krnl.Channels) (ok : krnl.Ok)
    (allowed : (Effect.wakeJoiner ptr).Allowed krnl) :
    ((Effect.wakeJoiner ptr).apply krnl).waitersOn (krnl.object ptr).token =
      (krnl.waitersOn (krnl.object ptr).token).drop 1 := by
  have threads := (Effect.leads ok _ allowed (by simp [Effect.label])).threads
  obtain ⟨object, live, _⟩ := allowed
  obtain ⟨addr, form⟩ := ok.registry.tokenForm ptr _ (krnl.shapes_eq _ _ live)
  have here := krnl.object_eq _ _ live
  have unregistered : (krnl.object ptr).token ∉ (krnl.object ptr).mwWaiters := by
    intro registered
    rw [here] at registered
    obtain ⟨handle, other⟩ := channels ptr object live _ registered
    rw [show object.token = .object addr from form] at other
    cases other
  rw [waitersOn, threads, waitersOn, ← waitersOn_signal]
  exact waitersOn_wakes (wakeEach_wakes (krnl.object ptr).mwWaiters _) unregistered

/-- The channel of a thread object while a fiber ends: fibers are taken from its front. -/
theorem Ok.ending_waiters (ok : krnl.Ok) (channels : krnl.Channels) {effect : Effect}
    (ending : effect.label = .ending) (allowed : effect.Allowed krnl) {object : DispatcherObject}
    (live : krnl.object? ptr = some object) (kind : object.kind = .thread) :
    ∃ count, (effect.apply krnl).waitersOn object.token = (krnl.waitersOn object.token).drop count := by
  by_cases signals : effect.Signals krnl object.token
  · have target := channels.signals_target ok allowed live signals
    obtain ⟨other, rfl | rfl | rfl⟩ := Effect.label_ending ending
    · exact signals.elim
    · obtain rfl : other = ptr := Option.some.inj target
      obtain ⟨found, again, isMutant, _⟩ := allowed
      obtain rfl := Option.some.inj (live.symm.trans again)
      rw [kind] at isMutant
      cases isMutant
    · obtain rfl : other = ptr := Option.some.inj target
      rw [← krnl.object_eq _ _ live]
      exact ⟨1, channels.wakeJoiner_waiters ok allowed⟩
  · refine ⟨0, ?_⟩
    rw [waitersOn, (Effect.leads ok effect allowed (by simp [ending])).threads]
    obtain ⟨other, rfl | rfl | rfl⟩ := Effect.label_ending ending
    · rfl
    · exact waitersOn_wakes (krnl.wokenBy_wakes other 1) signals
    · exact waitersOn_wakes (krnl.wokenBy_wakes other 1) signals

/-- The thread object is still there, and its channel has lost fibers at the front only. -/
structure Drained (start : XboxKrnl) (ptr : Ptr) (object : DispatcherObject) (krnl : XboxKrnl) : Prop where
  channels : krnl.Channels
  live : ∃ later, krnl.object? ptr = some later ∧ later.shape = object.shape
  front : ∃ count, krnl.waitersOn object.token = (start.waitersOn object.token).drop count

/-- An effect of an ending thread wakes fibers from the front of a thread's channel, or none. -/
theorem Drained.effect {start : XboxKrnl} {object : DispatcherObject} (drained : Drained start ptr object krnl)
    (kind : object.kind = .thread) (ok : krnl.Ok) {effect : Effect} (ending : effect.label = .ending)
    (allowed : effect.Allowed krnl) : Drained start ptr object (effect.apply krnl) := by
  obtain ⟨channels, ⟨later, there, shape⟩, count, taken⟩ := drained
  refine ⟨channels.effect ok allowed, ?_, ?_⟩
  · rcases Effect.object_fate ok allowed there with kept | ⟨slot, rfl⟩
    · exact ⟨_, kept, (effect.rewrite_shape krnl ptr later).trans shape⟩
    · cases ending
  · obtain ⟨more, front⟩ := ok.ending_waiters channels ending allowed there
      ((DispatcherObject.kind_of_shape shape).trans kind)
    rw [DispatcherObject.token_of_shape shape, taken, List.drop_drop] at front
    exact ⟨_, front⟩

/-- So what the end of a thread leaves of them is the rest of the list. -/
theorem Channels.ending_path (channels : krnl.Channels) (ok : krnl.Ok) (path : Path [.ending] krnl next)
    {object : DispatcherObject} (live : krnl.object? ptr = some object) (kind : object.kind = .thread) :
    ∃ count, next.waitersOn object.token = (krnl.waitersOn object.token).drop count := by
  have start : Drained krnl ptr object krnl := ⟨channels, ⟨object, live, rfl⟩, 0, rfl⟩
  exact (Path.keeps (fun _ _ ok holds labeled allowed => Drained.effect holds kind ok
    (List.mem_singleton.mp labeled) allowed) path ok start).front

/-- `finish_thread_object` takes at least one fiber from the channel of its object. -/
theorem Steady.finish_waiters (steady : krnl.Steady) (channels : krnl.Channels) {object : DispatcherObject}
    (live : krnl.object? ptr = some object) (kind : object.kind = .thread)
    (handle : object.thread.schedHandle = krnl.currentHandle) :
    ∃ count, (krnl.finishThreadObject ptr).waitersOn object.token =
      (krnl.waitersOn object.token).drop (count + 1) := by
  obtain ⟨last, path, stays, _, allowed, finished, _⟩ := steady.finishThreadObject_wakes live kind handle
  obtain ⟨count, taken⟩ := channels.ending_path steady.ok path live kind
  obtain ⟨later, there, shape⟩ := stays.live live
  have front := (channels.path steady.ok path).wakeJoiner_waiters (path.ok steady.ok) allowed
  rw [last.object_eq _ _ there, DispatcherObject.token_of_shape shape, taken, List.drop_drop] at front
  exact ⟨count, by rw [finished]; exact front⟩

/-! ## The thread objects that an end leaves alone -/

/-- Waking the waiters of an object changes no part of a thread object. -/
theorem wakeObject_thread (krnl : XboxKrnl) (target : Ptr) (units : Nat) (other : Ptr) :
    ((krnl.wakeObject target units).object? other).map DispatcherObject.thread =
      (krnl.object? other).map DispatcherObject.thread := by
  have same : (krnl.wakeObject target units).object? other = (krnl.modify target clearWaiters).object? other := by
    rw [wakeObject_eq]
    rfl
  rw [same, object?_modify]
  split
  · cases krnl.object? other <;> rfl
  · rfl

/-- Neither does abandoning mutants.

Proof: induction on the mutants. -/
theorem abandonAll_thread (token : Nat) (ptrs : List Ptr) (krnl : XboxKrnl) (other : Ptr) :
    ((ptrs.foldl (XboxKrnl.abandon token) krnl).object? other).map DispatcherObject.thread =
      (krnl.object? other).map DispatcherObject.thread := by
  induction ptrs generalizing krnl with
  | nil => rfl
  | cons target rest inductionHypothesis =>
    rw [List.foldl_cons, inductionHypothesis]
    unfold XboxKrnl.abandon
    split
    · rw [wakeObject_thread]
      have same : ((krnl.modify target abandonMutant).mirrorSignalState target).object? other =
          (krnl.modify target abandonMutant).object? other := rfl
      rw [same, object?_modify]
      split
      · cases krnl.object? other <;> rfl
      · rfl
    · rfl

/-- `finish_thread_object` stops no other thread. -/
theorem finishThreadObject_thread (krnl : XboxKrnl) {other : Ptr} (different : other ≠ ptr) :
    ((krnl.finishThreadObject ptr).object? other).map DispatcherObject.thread =
      (krnl.object? other).map DispatcherObject.thread := by
  unfold XboxKrnl.finishThreadObject
  rw [wakeObject_thread, abandonAll_thread, stopThread, object?_modify, if_neg different]

/-- Identities are looked up in the registry. -/
theorem fiberThread?_congr (same : next.registry = krnl.registry) (fiber : Nat) :
    next.fiberThread? fiber = krnl.fiberThread? fiber := by
  have identities : next.fiberThreads = krnl.fiberThreads := congrArg Registry.fiberThreads same
  simp only [XboxKrnl.fiberThread?, identities]

/-- The finish hook finds the object that was found before. -/
theorem Stays.findThreadByFiber (stays : krnl.Stays next) (ok : krnl.Ok) (nextOk : next.Ok) {self : Ptr}
    (found : next.findThreadByFiber next.currentHandle = some self) :
    krnl.findThreadByFiber krnl.currentHandle = some self := by
  rw [stays.handle] at found
  obtain ⟨positive, identity | ⟨absent, tabled⟩, _⟩ := findThreadByFiber_live nextOk.registry found
  · rw [fiberThread?_congr stays.registry] at identity
    exact findThreadByFiber_identity ok.registry identity
  · rw [fiberThread?_congr stays.registry] at absent
    exact (findThreadByFiber_table ok.registry positive absent self).mpr (tabledThread_congr stays.registry tabled)

/-- The finish hook stops no thread that the fiber does not lead to. -/
theorem finishHook_thread (krnl : XboxKrnl) (different : krnl.findThreadByFiber krnl.currentHandle ≠ some ptr) :
    (krnl.finishHook.object? ptr).map DispatcherObject.thread =
      (krnl.object? ptr).map DispatcherObject.thread := by
  unfold XboxKrnl.finishHook
  split
  · rename_i self found
    refine krnl.finishThreadObject_thread ?_
    rintro rfl
    exact different found
  · rfl

/-! ## The invariant -/

/-- A fiber in a single wait is blocked or ready to go on. -/
def WaitersSettled (krnl : XboxKrnl) : Prop :=
  ∀ fiber ∈ krnl.sched.threads, ∀ ptr, fiber.ctx.point.awaits ptr = true →
    fiber.state = .ready ∨ fiber.state = .blockedWait

/-- Every effect keeps the waiters settled. -/
theorem WaitersSettled.effect (settled : krnl.WaitersSettled) (ok : krnl.Ok) {effect : Effect}
    (allowed : effect.Allowed krnl) : (effect.apply krnl).WaitersSettled := by
  intro after member ptr awaits
  obtain ⟨index, found⟩ := List.mem_iff_getElem?.mp member
  by_cases loop : effect.label = .loop
  · rcases Effect.label_loop loop with rfl | rfl
    · exact settled after member ptr awaits
    · obtain ⟨fiber, passed, before, passes, rest⟩ := Effect.turn_origin allowed found
      have origin := List.mem_of_getElem? before
      rcases rest with ⟨rfl, _⟩ | ⟨_, ready, rfl⟩
      · rcases passes with rfl | ⟨_, rfl⟩ | ⟨_, rfl⟩
        · exact settled after origin ptr awaits
        · exact Or.inl rfl
        · exact Or.inl rfl
      · left
        have started : passed.started = true := by
          by_contra unstarted
          have same : passed.started = fiber.started := by
            rcases passes with rfl | ⟨_, rfl⟩ | ⟨_, rfl⟩ <;> rfl
          rw [same, Bool.not_eq_true] at unstarted
          have entry := ((ok.fibers.each fiber origin).fresh unstarted).1
          rw [← passes.same.2.1] at entry
          simp [switchedIn, entry, Point.awaits] at awaits
        simp [switchedIn, started, ready]
  · rcases Effect.fiber_origin ok allowed loop found with ⟨fiber, before, fate⟩ | ⟨_, spawned⟩
    · rcases fate with ⟨switched, rfl⟩ | ⟨_, rfl | ⟨_, _, rfl⟩⟩
      · have running : krnl.currentFiber = some fiber := by simp [currentFiber, switched, before]
        cases effect with
        | block token ticks point => exact Or.inr rfl
        | suspendSelf target out reply => exact Or.inr rfl
        | enter => simp [Effect.moves, Point.awaits] at awaits
        | proceed => simp [Effect.moves, Point.awaits] at awaits
        | exit code =>
          obtain ⟨⟨current, again, guest⟩, _⟩ := allowed
          obtain rfl := Option.some.inj (running.symm.trans again)
          simp [Effect.moves, ended, guest, Point.awaits] at awaits
        | pause state wakeTick joinTarget point =>
          obtain ⟨_, ⟨_, reply, rfl⟩ | ⟨_, rfl⟩⟩ := allowed <;> simp [Effect.moves, Point.awaits] at awaits
        | _ => exact settled fiber (List.mem_of_getElem? before) ptr awaits
      · exact settled after (List.mem_of_getElem? before) ptr awaits
      · exact Or.inl rfl
    · simp [(Effect.spawned_fresh spawned).1, Point.awaits] at awaits

/-- A fiber blocked in a single wait on a thread object waits for a running thread. -/
def JoinersWait (krnl : XboxKrnl) : Prop :=
  ∀ fiber ∈ krnl.sched.threads, fiber.state = .blockedWait → ∀ ptr object, fiber.ctx.point.awaits ptr = true →
    krnl.object? ptr = some object → object.kind = .thread → object.thread.running = true

/-- The invariant: channels belong to their objects, waits for threads are single, and who waits for
a terminated thread is awake. -/
structure JoinsOk (krnl : XboxKrnl) : Prop where
  channels : krnl.Channels
  settled : krnl.WaitersSettled
  waits : krnl.JoinersWait

/-- It says that joiners are released. -/
theorem JoinsOk.released (joins : krnl.JoinsOk) : krnl.JoinersReleased := by
  rintro fiber member ptr awaits ⟨object, live, kind, stopped⟩
  rcases joins.settled fiber member ptr awaits with ready | blocked
  · exact ready
  · rw [joins.waits fiber member blocked ptr object awaits live kind] at stopped
    cases stopped

/-- A new thread object runs. -/
theorem born_running {effect : Effect} {object : DispatcherObject} (allowed : effect.Allowed krnl)
    (born : effect.Births krnl object) (kind : object.kind = .thread) : object.thread.running = true := by
  cases effect with
  | identify =>
    obtain rfl : object = _ := born
    rfl
  | create made =>
    obtain rfl : object = _ := born
    exact absurd kind allowed.1.1
  | install made =>
    obtain rfl : object = _ := born
    exact absurd kind allowed.1
  | createThread request base =>
    obtain ⟨slot, rfl⟩ := born
    rfl
  | _ => exact born.elim

/-- An effect that ends no thread keeps it.

Proof: it terminates no thread, and a fiber that begins to wait for one has looked at it first. -/
theorem JoinsOk.effect (joins : krnl.JoinsOk) (ok : krnl.Ok) {effect : Effect} (allowed : effect.Allowed krnl)
    (unending : effect.label ≠ .ending) : (effect.apply krnl).JoinsOk := by
  refine ⟨joins.channels.effect ok allowed, joins.settled.effect ok allowed, ?_⟩
  intro after member blocked ptr object awaits live kind
  rcases Effect.object_origin ok allowed live with ⟨earlier, before, rfl⟩ | ⟨_, born⟩
  · have sameKind := DispatcherObject.kind_of_shape (effect.rewrite_shape krnl ptr earlier)
    rw [Effect.rewrite_running krnl (by rintro rfl; exact unending rfl)]
    rcases ok.awaiting_origin allowed member blocked awaits with old | unsatisfied
    · exact joins.waits after old blocked ptr earlier awaits before (sameKind.symm.trans kind)
    · simpa [satisfiedAs, krnl.object_eq _ _ before, sameKind.symm.trans kind] using unsatisfied
  · exact born_running allowed born kind

/-- So does code that ends no thread. -/
theorem JoinsOk.path (joins : krnl.JoinsOk) (ok : krnl.Ok) {labels : List Label} (path : Path labels krnl next)
    (unending : .ending ∉ labels) : next.JoinsOk :=
  Path.keeps (fun _ _ ok holds labeled allowed =>
    holds.effect ok allowed (fun ending => unending (ending ▸ labeled))) path ok joins

/-! ## The end of a fiber -/

/-- While a fiber ends, no fiber blocks. -/
theorem Path.blocked_before (path : Path [.ending] krnl next) (ok : krnl.Ok) :
    ∀ fiber ∈ next.sched.threads, fiber.state = .blockedWait → fiber ∈ krnl.sched.threads := by
  have kept : ∀ (middle : XboxKrnl) (effect : Effect), middle.Ok →
      (∀ fiber ∈ middle.sched.threads, fiber.state = .blockedWait → fiber ∈ krnl.sched.threads) →
      effect.label ∈ [Label.ending] → effect.Allowed middle →
      ∀ fiber ∈ (effect.apply middle).sched.threads, fiber.state = .blockedWait → fiber ∈ krnl.sched.threads := by
    intro middle effect middleOk before labeled allowed fiber member blocked
    have ending := List.mem_singleton.mp labeled
    rcases Effect.blocked_origin middleOk allowed member blocked with
      old | ⟨_, _, _, ⟨token, ticks, point, rfl⟩ | ⟨target, out, reply, rfl⟩⟩
    · exact before fiber old blocked
    · cases point <;> cases ending
    · cases ending
  exact Path.keeps kept path ok (fun _ member _ => member)

/-- The end of a fiber in two parts: what finishes the object at hand and what the finish
hook does. Both find the objects and the running fiber as they were before. -/
theorem Steady.ends_parts (steady : krnl.Steady) {target : Option Ptr} (ends : krnl.Ends target next) :
    ∃ middle code, middle = (target.map krnl.finishThreadObject).getD krnl ∧ Path [.ending] krnl middle ∧
      krnl.Stays middle ∧ middle.Steady ∧ Path [.ending] middle middle.finishHook ∧
      (Effect.exit code).Allowed middle.finishHook ∧ next = (Effect.exit code).apply middle.finishHook := by
  obtain ⟨inFiber, own, code, result⟩ := ends
  obtain ⟨path, stays⟩ : Path [.ending] krnl ((target.map krnl.finishThreadObject).getD krnl) ∧
      krnl.Stays ((target.map krnl.finishThreadObject).getD krnl) := by
    cases target with
    | none => exact ⟨.refl, rfl, rfl⟩
    | some ptr =>
      obtain ⟨object, live, kind, handle⟩ := own ptr rfl
      obtain ⟨path, stays, _⟩ := steady.finishThreadObject live kind handle
      exact ⟨path, stays⟩
  have middle := path.steady steady (by simp)
  obtain ⟨hook, allowed, same⟩ := middle.threadFinish code (by rw [stays.handle]; exact inFiber)
  exact ⟨_, code, rfl, path, stays, middle, hook, allowed, result.trans same⟩

/-- The end of a fiber takes as many fibers from the channel of its object in the handle
table as it wakes. -/
theorem Steady.ends_waiters (steady : krnl.Steady) (channels : krnl.Channels) {object : DispatcherObject}
    (tabled : krnl.TabledThread krnl.currentHandle ptr) (live : krnl.object? ptr = some object)
    (inFiber : krnl.currentHandle ≠ 0) :
    ∃ count, krnl.endingWakes ≤ count ∧
      (krnl.finishThreadObject ptr).finishHook.waitersOn object.token = (krnl.waitersOn object.token).drop count := by
  obtain ⟨place, found, again, kind, handle⟩ := id tabled
  obtain rfl := Option.some.inj (live.symm.trans again)
  obtain ⟨path, stays, _⟩ := steady.finishThreadObject live kind handle
  have middle := path.steady steady (by simp)
  obtain ⟨later, there, shape⟩ := stays.live live
  have token := DispatcherObject.token_of_shape shape
  have laterKind := (DispatcherObject.kind_of_shape shape).trans kind
  have laterHandle : later.thread.schedHandle = (krnl.finishThreadObject ptr).currentHandle := by
    rw [stays.handle, ← handle]
    exact congrArg (fun shape => shape.thread.schedHandle) shape
  obtain ⟨first, taken⟩ := steady.finish_waiters channels live kind handle
  have middleChannels := channels.path steady.ok path
  cases identity : krnl.fiberThread? krnl.currentHandle with
  | none =>
    -- The hook finds the same object again and wakes a second fiber.
    have absent : (krnl.finishThreadObject ptr).fiberThread? (krnl.finishThreadObject ptr).currentHandle = none := by
      rw [fiberThread?_congr stays.registry, stays.handle]
      exact identity
    have home : (krnl.finishThreadObject ptr).TabledThread (krnl.finishThreadObject ptr).currentHandle ptr := by
      refine ⟨?_, later, there, laterKind, laterHandle⟩
      rw [stays.registry]
      exact place
    have self := (findThreadByFiber_table middle.ok.registry (by rw [stays.handle]; exact inFiber) absent ptr).mpr home
    obtain ⟨second, more⟩ := middle.finish_waiters middleChannels there laterKind laterHandle
    rw [token, taken, List.drop_drop] at more
    refine ⟨first + 1 + (second + 1), ?_, ?_⟩
    · simp only [endingWakes, identity, Option.isNone_none, ↓reduceIte]
      omega
    · simp only [XboxKrnl.finishHook, self]
      exact more
  | some self =>
    obtain ⟨second, more⟩ := middleChannels.ending_path middle.ok middle.finishHook.1 there laterKind
    rw [token, taken, List.drop_drop] at more
    refine ⟨first + 1 + second, ?_, more⟩
    simp only [endingWakes, identity, Option.isNone_some, Bool.false_eq_true, ↓reduceIte]
    omega

/-- What a fiber awaits is among the objects of its wait. -/
theorem waited_of_awaits {point : Point} (awaits : point.awaits ptr = true) : ptr ∈ point.waited := by
  unfold Point.awaits at awaits
  split at awaits
  · rw [beq_iff_eq.mp awaits]
    simp [Point.waited]
  · cases awaits

/-- The end of a fiber keeps the invariant when it finishes the object in the handle table
and wakes everyone who waits for it, or when it finishes an identity instead.

Proof: a fiber that still waits for a thread object waited for it before. If that is not an object
of the fiber that ends, nothing has stopped it. If it is the object in the handle table, everyone
who waits for it is woken; if the fiber has an identity, another object is the one that stops. -/
theorem JoinsOk.ends (joins : krnl.JoinsOk) (steady : krnl.Steady) {target : Option Ptr} (ends : krnl.Ends target next)
    (own : ∀ ptr, krnl.TabledThread krnl.currentHandle ptr →
      (target = some ptr ∧ ∀ fiber ∈ (krnl.waitersOn (krnl.object ptr).token).drop krnl.endingWakes,
        fiber.ctx.point.awaits ptr = false) ∨
      ∃ self, krnl.fiberThread? krnl.currentHandle = some self ∧ target = some self) : next.JoinsOk := by
  obtain ⟨middle, code, sameMiddle, path, stays, middleSteady, hook, allowed, rfl⟩ := steady.ends_parts ends
  have whole : Path [.ending] krnl middle.finishHook := path.trans hook
  have hookOk := whole.ok steady.ok
  have hookStays := stays.trans middleSteady.finishHook.2.1
  have settled : middle.finishHook.WaitersSettled :=
    Path.keeps (fun _ _ ok holds _ allowed => WaitersSettled.effect holds ok allowed) whole steady.ok joins.settled
  refine ⟨(joins.channels.path steady.ok whole).effect hookOk allowed, settled.effect hookOk allowed, ?_⟩
  intro fiber member blocked ptr object awaits live kind
  obtain ⟨there, remains⟩ : middle.finishHook.object? ptr = some object ∧ fiber ∈ middle.finishHook.sched.threads := by
    constructor
    · rcases Effect.object_origin hookOk allowed live with ⟨earlier, before, rfl⟩ | ⟨_, born⟩
      · exact before
      · exact born.elim
    · rcases Effect.blocked_origin hookOk allowed member blocked with
        old | ⟨_, _, _, ⟨_, _, _, other⟩ | ⟨_, _, _, other⟩⟩
      · exact old
      · cases other
      · cases other
  have before := Path.blocked_before whole steady.ok fiber remains blocked
  have shapes := middle.finishHook.shapes_eq _ _ there
  rw [hookStays.registry] at shapes
  obtain ⟨earlier, was, shape⟩ := krnl.of_shapes _ _ shapes
  have earlierKind : earlier.kind = .thread := (DispatcherObject.kind_of_shape shape).trans kind
  have running := joins.waits fiber before blocked ptr earlier awaits was earlierKind
  have kept : target ≠ some ptr → krnl.findThreadByFiber krnl.currentHandle ≠ some ptr →
      object.thread.running = true := by
    intro elsewhere unfound
    have first : (middle.object? ptr).map DispatcherObject.thread = (krnl.object? ptr).map DispatcherObject.thread := by
      rw [sameMiddle]
      cases target with
      | none => rfl
      | some other =>
        exact krnl.finishThreadObject_thread (fun same => elsewhere (by rw [same]))
    have second := middle.finishHook_thread (fun found =>
      unfound (stays.findThreadByFiber steady.ok middleSteady.ok found))
    rw [there, first, was] at second
    have same : object.thread = earlier.thread := by simpa using second
    rw [same]
    exact running
  by_cases mine : earlier.thread.schedHandle = krnl.currentHandle
  · have tabled : krnl.TabledThread krnl.currentHandle ptr := by
      rcases (steady.ok.fibers.each fiber before).waited ptr (waited_of_awaits awaits) _
        (krnl.shapes_eq _ _ was) with place | located
      · exact ⟨place, earlier, was, earlierKind, mine⟩
      · obtain ⟨⟨found, again, notThread⟩, _⟩ := steady.ok.registry.atAddress ptr located
        obtain rfl := Option.some.inj ((krnl.shapes_eq _ _ was).symm.trans again)
        exact absurd earlierKind notThread
    rcases own ptr tabled with ⟨rfl, woken⟩ | ⟨self, identity, rfl⟩
    · obtain ⟨count, enough, front⟩ := steady.ends_waiters joins.channels tabled was ends.inFiber
      have waiting : fiber ∈ middle.finishHook.waitersOn earlier.token := by
        refine List.mem_filter.mpr ⟨remains, decide_eq_true ⟨blocked, ?_⟩⟩
        rw [hookOk.awaits_channel remains blocked awaits there]
        exact (DispatcherObject.token_of_shape shape).symm
      rw [sameMiddle, Option.map_some, Option.getD_some, front] at waiting
      rw [krnl.object_eq _ _ was] at woken
      have missed := woken fiber (List.drop_subset_drop_left _ enough waiting)
      rw [awaits] at missed
      cases missed
    · have different : self ≠ ptr := by
        rintro rfl
        obtain ⟨⟨slot, found⟩, _⟩ := tabled
        exact (steady.ok.registry.identities _ _ (krnl.fiberThread?_member _ _ identity)).2.2 slot found
      refine kept (fun same => different (Option.some.inj same)) (fun found => ?_)
      rw [findThreadByFiber_identity steady.ok.registry identity] at found
      exact different (Option.some.inj found)
  · refine kept ?_ ?_
    · rintro rfl
      obtain ⟨found, again, _, handle⟩ := ends.own ptr rfl
      obtain rfl := Option.some.inj (was.symm.trans again)
      exact mine handle
    · intro found
      obtain ⟨_, _, found, again, _, handle⟩ := findThreadByFiber_live steady.ok.registry found
      obtain rfl := Option.some.inj (was.symm.trans again)
      exact mine handle

/-! ## Actions -/

/-- Everyone who waits for the thread of the running fiber is woken when it ends now. -/
def JoinersNear (krnl : XboxKrnl) : Prop :=
  ∀ ptr, krnl.TabledThread krnl.currentHandle ptr →
    ∀ fiber ∈ (krnl.waitersOn (krnl.object ptr).token).drop krnl.endingWakes, fiber.ctx.point.awaits ptr = false

/-- Under the condition all joiners are near when a thread is finished. -/
theorem JoinersWoken.near {action : Action} (condition : JoinersWoken krnl action) {ending : XboxKrnl} (ok : ending.Ok)
    (finishing : krnl.finishing? action = some ending) : ending.JoinersNear := by
  intro ptr tabled
  obtain ⟨member, kind, handle⟩ := (tabledThread_iff ok.registry _ ptr).mp tabled
  exact condition ending (by simp [finishing]) ptr member kind handle

/-- A body finishes the object in the handle table. -/
theorem JoinsOk.endsBody (joins : krnl.JoinsOk) (steady : krnl.Steady) (near : krnl.JoinersNear) {fiber : Fiber}
    (running : krnl.currentFiber = some fiber) (ends : krnl.Ends fiber.ctx.body.captured next) : next.JoinsOk :=
  joins.ends steady ends (fun ptr tabled => Or.inl ⟨steady.captured_tabled running tabled, near ptr tabled⟩)

/-- The call that ends a thread keeps the invariant. -/
theorem JoinsOk.psTerminate (joins : krnl.JoinsOk) (steady : krnl.Steady) (exitStatus : Nat)
    (near : krnl.fiberThread? krnl.currentHandle = none → krnl.JoinersNear) :
    (krnl.psTerminateSystemThread exitStatus).1.JoinsOk := by
  cases found : krnl.findThreadByFiber krnl.currentHandle with
  | none =>
    simp only [XboxKrnl.psTerminateSystemThread, found]
    exact joins
  | some self =>
    have ends := steady.psTerminate_ends exitStatus found
    refine joins.ends steady ends (fun ptr tabled => ?_)
    cases identity : krnl.fiberThread? krnl.currentHandle with
    | none =>
      have same := (findThreadByFiber_table steady.ok.registry ends.inFiber identity ptr).mpr tabled
      exact Or.inl ⟨found.symm.trans same, near identity ptr tabled⟩
    | some other =>
      rw [findThreadByFiber_identity steady.ok.registry identity] at found
      exact Or.inr ⟨other, rfl, found.symm⟩

/-- Whether joiners are near depends on the registry, the running fiber and the waiters. -/
theorem JoinersNear.congr (near : krnl.JoinersNear) (registry : next.registry = krnl.registry)
    (handle : next.currentHandle = krnl.currentHandle)
    (waiters : ∀ token, next.waitersOn token = krnl.waitersOn token) : next.JoinersNear := by
  intro ptr tabled
  rw [handle] at tabled
  have old := tabledThread_congr registry tabled
  obtain ⟨_, object, live, _⟩ := tabled
  obtain ⟨_, earlier, before, _⟩ := id old
  have token := DispatcherObject.token_of_shape (shape_congr registry live before)
  have wakes : next.endingWakes = krnl.endingWakes := by
    simp only [endingWakes, handle, fiberThread?_congr registry]
  rw [next.object_eq _ _ live, token, ← krnl.object_eq _ _ before, waiters, wakes]
  exact near ptr old

/-- A thread that runs on from its start keeps the invariant. -/
theorem JoinsOk.runsOn (joins : krnl.JoinsOk) (steady : krnl.Steady) (runs : krnl.RunsOn next)
    (near : krnl.threadRunner = false → krnl.JoinersNear) : next.JoinsOk := by
  rcases runs with ⟨_, handle, allowed, rfl⟩ | ⟨runner, middle, fiber, path, stays, sched, running, ends⟩
  · exact joins.effect steady.ok allowed (by simp [Effect.label])
  · have same : ∀ token, middle.waitersOn token = krnl.waitersOn token := fun token => by
      simp only [waitersOn, sched]
    exact (joins.path steady.ok path (by simp)).endsBody (path.steady steady (by simp))
      ((near runner).congr stays.registry stays.handle same) running ends

/-- A fiber that is switched in is on no channel, and leaving its point puts it on none. -/
theorem Ok.onCurrent_waiters (ok : krnl.Ok) (change : Fiber → Fiber)
    (state : ∀ fiber, (change fiber).state = fiber.state) (token : Token) :
    (krnl.onCurrent change).filter (fun fiber => fiber.BlockedOn token) = krnl.waitersOn token := by
  cases switched : krnl.sched.current with
  | none => simp only [onCurrent, switched, waitersOn]
  | some current =>
    rw [onCurrent_some _ switched]
    refine Counting.filter_pointwise _ _ _ (by simp) (fun index old new found found' => ?_)
    rw [List.getElem?_modify, found] at found'
    by_cases here : current = index
    · subst here
      obtain ⟨fiber, again, _, unblocked⟩ := ok.current current switched
      obtain rfl := Option.some.inj (found.symm.trans again)
      simp only [↓reduceIte, Option.map_eq_map, Option.map_some, Option.some.injEq] at found'
      subst found'
      rcases unblocked with unblocked | unblocked <;> simp [GuestThread.BlockedOn, state, unblocked]
    · simp only [here, ↓reduceIte, Option.map_eq_map, Option.map_some, Option.some.injEq] at found'
      subst found'
      exact ⟨rfl, fun _ => rfl⟩

/-- Entering a body or leaving a point changes nothing the condition looks at. -/
theorem JoinersNear.moved (near : krnl.JoinersNear) (ok : krnl.Ok) {effect : Effect} (allowed : effect.Allowed krnl)
    (moves : effect = .enter ∨ effect = .proceed) : (effect.apply krnl).JoinersNear := by
  have quiet : effect.label ≠ .loop := by
    rcases moves with rfl | rfl <;> simp [Effect.label]
  refine near.congr (Effect.registry_apply ok allowed (by rcases moves with rfl | rfl <;> rfl))
    (Effect.currentHandle_apply ok allowed quiet (by rcases moves with rfl | rfl <;> rfl)) (fun token => ?_)
  rw [waitersOn, (Effect.leads ok effect allowed quiet).threads]
  rcases moves with rfl | rfl
  · exact ok.onCurrent_waiters ((Effect.enter).moves krnl) (fun _ => rfl) token
  · exact ok.onCurrent_waiters ((Effect.proceed).moves krnl) (fun _ => rfl) token

/-- Entering a body does not install a runner. -/
theorem threadRunner_moved {effect : Effect} (moves : effect = .enter ∨ effect = .proceed) :
    (effect.apply krnl).threadRunner = krnl.threadRunner := by
  have point : (krnl.setPoint .guest).threadRunner = krnl.threadRunner := by
    unfold setPoint
    split <;> rfl
  have body : ∀ (other : XboxKrnl) body, (other.setBody body).threadRunner = other.threadRunner := by
    intro other body
    unfold setBody
    split <;> rfl
  rcases moves with rfl | rfl
  · exact (body _ _).trans point
  · exact point

/-- Whatever a fiber does when it is switched in keeps the invariant. -/
theorem JoinsOk.resumes (joins : krnl.JoinsOk) (ok : krnl.Ok) {fiber : Fiber} (running : krnl.currentFiber = some fiber)
    (resumes : krnl.Resumes fiber next)
    (near : krnl.threadRunner = false → krnl.entersRoutine = true → krnl.JoinersNear) : next.JoinsOk := by
  cases resumes with
  | parks self object entry found live suspended enters allowed result =>
    rw [result]
    exact (joins.effect ok enters (by simp [Effect.label])).effect (ok.entered enters).ok allowed
      (by simp [Effect.label])
  | starts entry enters ready runs =>
    refine (joins.effect ok enters (by simp [Effect.label])).runsOn (ok.entered enters) runs (fun runner => ?_)
    rw [threadRunner_moved (Or.inl rfl)] at runner
    refine (near runner ?_).moved ok enters (Or.inl rfl)
    simp only [entersRoutine, running, entry]
    cases found : krnl.findThreadByFiber krnl.currentHandle with
    | none => rfl
    | some self => simp [ready self found]
  | unparks self parked body proceeds alive runs =>
    refine (joins.effect ok proceeds (by simp [Effect.label])).runsOn (ok.proceeded proceeds) runs (fun runner => ?_)
    rw [threadRunner_moved (Or.inr rfl)] at runner
    exact (near runner (by simp [entersRoutine, running, parked])).moved ok proceeds (Or.inr rfl)
  | waits middle woken alive proceeds waited path =>
    have begun := joins.effect ok proceeds (by simp [Effect.label])
    have waitPath := waited.path
    refine (begun.path (ok.proceeded proceeds).ok waitPath ?_).path (waitPath.ok (ok.proceeded proceeds).ok) path
      (by simp)
    unfold waitLabels
    split <;> simp
  | contends va point proceeds result =>
    exact (joins.effect ok proceeds (by simp [Effect.label])).path (ok.proceeded proceeds).ok
      ((ok.proceeded proceeds).contended result) (by simp)
  | continues _ proceeds path =>
    exact (joins.effect ok proceeds (by simp [Effect.label])).path (ok.proceeded proceeds).ok path (by simp)

/-- One action keeps the invariant.

Proof: the actions that finish an object are those of the condition; all others end no thread. -/
theorem JoinsOk.step (joins : krnl.JoinsOk) (steady : krnl.Steady) {action : Action}
    (condition : JoinersWoken krnl action) (stepped : krnl.step action = some next) : next.JoinsOk := by
  by_cases ending : .ending ∈ actionLabels action
  · cases action with
    | turn =>
      obtain ⟨idle, outcome⟩ := turn_cases stepped
      have turned : ((Effect.turn).apply krnl).JoinsOk :=
        joins.effect steady.ok (show (Effect.turn).Allowed krnl from idle) (by simp [Effect.label])
      rcases outcome with ⟨rfl, _⟩ | ⟨fiber, running, resumed⟩
      · exact turned
      · have ok := Effect.sound steady.ok .turn idle
        refine turned.resumes ok running (ok.resume running resumed) (fun runner enters => condition.near ok ?_)
        have outside : krnl.threadRunner = false := runner
        simp [finishing?, outside, enters]
    | finish code =>
      obtain ⟨fiber, running, ends⟩ := steady.finishBody stepped
      exact joins.endsBody steady (condition.near steady.ok rfl) running ends
    | call call =>
      obtain ⟨_, _, rfl⟩ := call_cases stepped
      cases call with
      | psTerminateSystemThread exitStatus =>
        obtain ⟨ram, refreshed⟩ := krnl.refreshData_eq
        have begun := steady.refreshed
        rw [refreshed] at begun ⊢
        have same : ({ krnl with ram } : XboxKrnl).JoinsOk := ⟨joins.channels, joins.settled, joins.waits⟩
        have ended := same.psTerminate begun exitStatus (fun unidentified => by
          have absent : krnl.fiberThread? krnl.currentHandle = none := unidentified
          have near : krnl.JoinersNear := condition.near steady.ok (by simp [finishing?, absent])
          exact near)
        have endedOk := (begun.psTerminateSystemThread exitStatus).ok begun.ok
        exact ended.path endedOk (deliver_path _ _) (by simp)
      | _ => simp [actionLabels, labelsOf] at ending
    | _ => simp [actionLabels] at ending
  · exact joins.path steady.ok (steady.step stepped).1 ending

/-! ## Whole runs -/

/-- At first there is nobody to wait for. -/
theorem initial_joinsOk (ram : XbeRam) (addresses : Nat → Nat) (threadRunner : Bool) (kernelDataVa : Nat) :
    (initial ram addresses threadRunner kernelDataVa).JoinsOk := by
  refine ⟨?_, ?_, ?_⟩
  · intro ptr object live
    simp [initial, object?] at live
  · intro fiber member
    cases member
  · intro fiber member
    cases member

/-- In every run under the condition joiners are released. -/
theorem ReachesUnder.joinersReleased {actions : List Action} (reached : krnl.ReachesUnder JoinersWoken actions) :
    krnl.JoinersReleased :=
  (reached.invariant initial_joinsOk (fun _ _ _ steady joins condition stepped =>
    joins.step steady condition stepped)).2.released

/-- In every run whose handles and identifiers fit, whose calls find their callers, and in which
the end of a thread wakes as many fibers as wait for it, a fiber that is still in its wait on a
terminated thread is ready; when no fiber is ready, none waits for a terminated thread.

Proof: `JoinsOk` is the invariant. Code that ends no thread wakes a joiner or lets it be; the code
that ends one wakes the first blocked fibers of the channel one by one, and under the condition
no waiting fiber comes after them. -/
theorem joiners_released {actions : List Action}
    (run : krnl.WordRun (fun krnl action => krnl.Orderly action ∧ krnl.JoinersWoken action) actions) :
    krnl.JoinersReleased ∧ ((∀ fiber ∈ krnl.sched.threads, fiber.state ≠ .ready) →
      ∀ fiber ∈ krnl.sched.threads, ∀ ptr, fiber.ctx.point.awaits ptr = true → ¬ krnl.Terminated ptr) := by
  have reached := (run.reachesUnder (fun _ _ met => met.1.1)).mono (fun _ _ => And.right)
  have released := reached.joinersReleased
  exact ⟨released, fun idle fiber member ptr awaits terminated =>
    idle fiber member (released fiber member ptr awaits terminated)⟩

/-- Fibers that wait for a thread created after them, which then ends; those that were
woken return and end. -/
def joinedBy (joiners : Nat) : List Action :=
  let created : List Action := [.call (.psCreateSystemThreadEx { threadHandle := 16, startRoutine := 4096 }), .run]
  let waits : List Action := [.turn, .call (.ntWaitForSingleObject 4 0 0)]
  let ends : List Action := [.turn, .finish 0]
  List.replicate joiners (Action.spawn 0 (some 4096)) ++ created ++ (List.replicate joiners waits).flatten ++ ends ++
    (ends ++ ends)

/-- Two joiners are within reach of the wake-ups. -/
theorem joinedByTwo_released : (wordAfter true (joinedBy 2)).JoinersReleased :=
  (joiners_released (wordRun_after _ true (joinedBy 2) (by decide +kernel) (by decide +kernel))).1

/-- The third fiber that waits for a thread is left blocked, and no fiber is ready. -/
theorem joiners_released_fails : ¬ ∀ (krnl : XboxKrnl) actions, krnl.WordRun (fun _ _ => True) actions →
    krnl.JoinersReleased ∧ ((∀ fiber ∈ krnl.sched.threads, fiber.state ≠ .ready) →
      ∀ fiber ∈ krnl.sched.threads, ∀ ptr, fiber.ctx.point.awaits ptr = true → ¬ krnl.Terminated ptr) := by
  intro always
  have run := wordRun_after (fun _ _ => True) true (joinedBy 3) (by decide +kernel) (Runs.along_true _ _)
  have complete := (always _ _ run).2 (by decide +kernel)
  have terminated : (wordAfter true (joinedBy 3)).Terminated 0 :=
    ⟨(wordAfter true (joinedBy 3)).object 0, by decide +kernel, by decide +kernel, by decide +kernel⟩
  have waiting : ∃ fiber ∈ (wordAfter true (joinedBy 3)).sched.threads, fiber.ctx.point.awaits 0 = true := by
    decide +kernel
  obtain ⟨fiber, member, awaits⟩ := waiting
  exact complete fiber member 0 awaits terminated

end XboxKrnl

end SeriesxEmu
