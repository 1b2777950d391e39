import SeriesxEmu.Channels
import SeriesxEmu.Words

/-!
# Resuming a parked thread

A fiber is parked on the channel of its thread object: a system thread that was
created suspended, at its first dispatch, and any fiber that suspends itself.
Fibers that wait for the thread block on the same channel, and the resume that
takes the last suspension wakes the first fiber in spawn order. It reaches the
parked fiber when that fiber is the first, and then no parked fiber ever has a
thread object without a suspension.
-/

namespace SeriesxEmu

open Scheduler GuestScheduler

/-- The thread object on whose suspension a fiber is parked. -/
def Fiber.parkedOn (fiber : Fiber) : Option Ptr :=
  match fiber.ctx.point with
  | .parked => fiber.ctx.body.captured
  | .suspended ptr _ _ _ => some ptr
  | _ => none

namespace XboxKrnl

variable {krnl next : XboxKrnl} {ptr : Ptr}

/-- A parked fiber's thread object is suspended as long as it is there. -/
def ParkedSuspended (krnl : XboxKrnl) : Prop :=
  ∀ fiber ∈ krnl.sched.threads, fiber.state = .blockedWait → ∀ ptr object, Fiber.parkedOn fiber = some ptr →
    krnl.object? ptr = some object → 0 < object.thread.suspendCount

/-- The thread object that a resume call finds. -/
def resumed? (krnl : XboxKrnl) : Action → Option Ptr
  | .call (.ntResumeThread handle _) => krnl.ofKind .thread (krnl.findObjectByHandle handle)
  | .call (.keResumeThread thread) => krnl.ofKind .thread (krnl.findThreadById thread)
  | _ => none

/-- The thread object that a suspend call finds. -/
def suspended? (krnl : XboxKrnl) : Action → Option Ptr
  | .call (.ntSuspendThread handle _) => krnl.ofKind .thread (krnl.findObjectByHandle handle)
  | .call (.keSuspendThread thread) => krnl.ofKind .thread (krnl.findThreadById thread)
  | _ => none

/-- The first fiber in spawn order that is blocked on the channel. -/
def firstWaiter? (krnl : XboxKrnl) (token : Token) : Option Fiber :=
  krnl.sched.threads.find? (fun fiber => fiber.BlockedOn token)

/-- A resume that takes the last suspension finds the parked fiber first on the channel
of its thread object, and a suspension does not overflow the count. -/
def ParkedFirst (krnl : XboxKrnl) (action : Action) : Prop :=
  (∀ ptr ∈ (krnl.resumed? action).toList, (krnl.object ptr).thread.suspendCount = 1 →
    ∀ fiber ∈ krnl.sched.threads, fiber.state = .blockedWait → Fiber.parkedOn fiber = some ptr →
      (krnl.firstWaiter? (krnl.object ptr).token).map GuestThread.handle = some fiber.handle) ∧
  ∀ ptr ∈ (krnl.suspended? action).toList, (krnl.object ptr).thread.suspendCount + 1 < 2 ^ 32

instance (krnl : XboxKrnl) (action : Action) : Decidable (ParkedFirst krnl action) :=
  inferInstanceAs (Decidable (_ ∧ _))

/-- Every fiber parked on the object has become ready. -/
def Unparks (krnl next : XboxKrnl) (ptr : Ptr) : Prop :=
  ∀ fiber ∈ krnl.sched.threads, fiber.state = .blockedWait → Fiber.parkedOn fiber = some ptr →
    ∃ later ∈ next.sched.threads, later.handle = fiber.handle ∧ later.state = .ready

/-! ## Effects -/

/-- The object a parked fiber is parked on has been allocated before. -/
theorem Ok.parkedOn_inside (ok : krnl.Ok) {fiber : Fiber} (member : fiber ∈ krnl.sched.threads)
    (parked : fiber.parkedOn = some ptr) : ptr < krnl.heap.length := by
  have fiberOk := ok.fibers.each fiber member
  unfold Fiber.parkedOn at parked
  split at parked
  · exact fiberOk.capturedHeld ptr parked
  · rename_i point
    obtain rfl := Option.some.inj parked
    exact fiberOk.held _ (by simp [point, Point.pointers])
  · cases parked

/-- The channel of a parked fiber is that of its thread object. -/
theorem Ok.parkedOn_channel (ok : krnl.Ok) {fiber : Fiber} (member : fiber ∈ krnl.sched.threads)
    (blocked : fiber.state = .blockedWait) (parked : fiber.parkedOn = some ptr) {object : DispatcherObject}
    (live : krnl.object? ptr = some object) : fiber.BlockedOn object.token := by
  have waits := (ok.fibers.each fiber member).waits blocked
  refine ⟨blocked, ?_⟩
  unfold Fiber.parkedOn at parked
  unfold Registry.Waits at waits
  split at parked
  · rename_i point
    simp only [point] at waits
    obtain ⟨self, body, channel⟩ := waits
    rw [body] at parked
    obtain rfl : self = ptr := Option.some.inj parked
    exact channel.2 object.shape (krnl.shapes_eq _ _ live)
  · rename_i point
    simp only [point] at waits
    obtain rfl := Option.some.inj parked
    exact waits.2.2 object.shape (krnl.shapes_eq _ _ live)
  · cases parked

/-- Only suspending and resuming change a suspension. -/
theorem rewrite_suspendCount {effect : Effect} (unsuspending : effect.label ≠ .suspend)
    (unresuming : effect.label ≠ .resume) (object : DispatcherObject) :
    (effect.rewrite krnl ptr object).thread.suspendCount = object.thread.suspendCount := by
  by_cases here : effect.adjusts = some ptr
  · cases effect with
    | suspendSelf target out reply => exact absurd rfl unsuspending
    | adjust target change =>
      obtain rfl := Option.some.inj here
      cases change with
      | suspend => exact absurd rfl unsuspending
      | _ => simp [Effect.rewrite, Effect.onlyAt, Change.apply, addWaiter, removeWaiter]
    | resumeThread target => exact absurd rfl unresuming
    | _ => cases here
  · rw [Effect.rewrite_thread krnl here]

/-- The rule for an effect: the fibers that were parked before and still are keep a
suspension, and a fiber that parks has one. -/
theorem ParkedSuspended.of_effect (parked : krnl.ParkedSuspended) (ok : krnl.Ok) {effect : Effect}
    (allowed : effect.Allowed krnl)
    (still : ∀ fiber ∈ krnl.sched.threads, fiber ∈ (effect.apply krnl).sched.threads →
      fiber.state = .blockedWait → ∀ ptr object, Fiber.parkedOn fiber = some ptr → krnl.object? ptr = some object →
      0 < object.thread.suspendCount → 0 < (effect.rewrite krnl ptr object).thread.suspendCount)
    (parks : ∀ ptr out reply, effect = .suspendSelf ptr out reply →
      0 < (effect.rewrite krnl ptr (krnl.object ptr)).thread.suspendCount) :
    (effect.apply krnl).ParkedSuspended := by
  intro after member blocked ptr object onPtr live
  have origin : ∀ earlier, krnl.object? ptr = some earlier → object = effect.rewrite krnl ptr earlier := by
    intro earlier before
    rcases Effect.object_origin ok allowed live with ⟨found, again, rfl⟩ | ⟨same, _⟩
    · rw [Option.some.inj (before.symm.trans again)]
    · exact absurd same (Nat.ne_of_lt (krnl.object?_inside ptr earlier before))
  rcases Effect.blocked_origin ok allowed member blocked with old | ⟨fiber, running, rfl, blocks⟩
  · rcases Effect.object_origin ok allowed live with ⟨earlier, before, rfl⟩ | ⟨same, _⟩
    · exact still after old member blocked ptr earlier onPtr before (parked after old blocked ptr earlier onPtr before)
    · exact absurd same (Nat.ne_of_lt (ok.parkedOn_inside old onPtr))
  · rcases blocks with ⟨token, ticks, point, rfl⟩ | ⟨target, out, reply, rfl⟩
    · obtain ⟨_, found⟩ := allowed
      cases point with
      | parked =>
        obtain ⟨current, self, suspended, again, body, here, _, positive⟩ := found
        obtain rfl := Option.some.inj (running.symm.trans again)
        have same : self = ptr := by
          simpa [Fiber.parkedOn, Effect.moves, blockedAt, body, Body.captured] using onPtr
        subst same
        rw [origin suspended here]
        exact positive
      | suspended target out previous reply => exact found.elim
      | _ => simp [Fiber.parkedOn, Effect.moves, blockedAt] at onPtr
    · have same : target = ptr := by simpa [Fiber.parkedOn, Effect.moves, blockedAt] using onPtr
      subst same
      obtain ⟨_, earlier, here, _⟩ := live_of_identity ok.registry allowed.1
      have positive := parks target out reply rfl
      rw [krnl.object_eq _ _ here] at positive
      rw [origin earlier here]
      exact positive

/-- The invariant passes along a path that neither suspends nor resumes. -/
theorem ParkedSuspended.path (parked : krnl.ParkedSuspended) (ok : krnl.Ok) {labels : List Label}
    (path : Path labels krnl next) (unsuspending : .suspend ∉ labels) (unresuming : .resume ∉ labels) :
    next.ParkedSuspended := by
  refine Path.keeps (fun before effect ok holds labeled allowed => ?_) path ok parked
  have suspend : effect.label ≠ .suspend := fun same => unsuspending (same ▸ labeled)
  have resume : effect.label ≠ .resume := fun same => unresuming (same ▸ labeled)
  refine holds.of_effect ok allowed (fun fiber _ _ _ ptr object _ _ positive => ?_) (fun ptr out reply same => ?_)
  · rw [rewrite_suspendCount suspend resume]
    exact positive
  · subst same
    exact absurd rfl suspend

/-- A suspension that does not overflow keeps the parked fibers suspended. -/
theorem ParkedSuspended.suspend (parked : krnl.ParkedSuspended) (ok : krnl.Ok) {effect : Effect} {target : Ptr}
    (allowed : effect.Allowed krnl)
    (suspends : effect = .adjust target .suspend ∨ ∃ out reply, effect = .suspendSelf target out reply)
    (small : (krnl.object target).thread.suspendCount + 1 < 2 ^ 32) : (effect.apply krnl).ParkedSuspended := by
  have raised : ∀ ptr object, krnl.object? ptr = some object → 0 < object.thread.suspendCount ∨ ptr = target →
      0 < (effect.rewrite krnl ptr object).thread.suspendCount := by
    intro ptr object live either
    have rewritten : effect.rewrite krnl ptr object = Effect.onlyAt target (Change.apply krnl .suspend) ptr object := by
      rcases suspends with rfl | ⟨out, reply, rfl⟩ <;> rfl
    rw [rewritten, Effect.onlyAt]
    split
    · rename_i same
      subst same
      rw [krnl.object_eq _ _ live] at small
      have positive : 0 < (object.thread.suspendCount + 1) % 2 ^ 32 := by omega
      exact positive
    · rename_i different
      exact either.resolve_right different
  refine parked.of_effect ok allowed (fun fiber _ _ _ ptr object _ live positive => raised ptr object live
    (Or.inl positive)) (fun ptr out reply same => ?_)
  rcases suspends with other | ⟨_, _, other⟩
  · rw [other] at same
    cases same
  · rw [other] at same
    cases same
    subst other
    obtain ⟨_, object, live, _⟩ := live_of_identity ok.registry allowed.1
    rw [krnl.object_eq _ _ live]
    exact raised target object live (Or.inr rfl)

/-- The last suspension is taken and the parked fiber, first on the channel, is woken. -/
theorem Ok.resume_wakes (ok : krnl.Ok) (allowed : (Effect.resumeThread ptr).Allowed krnl)
    (one : (krnl.object ptr).thread.suspendCount = 1) {fiber : Fiber} (member : fiber ∈ krnl.sched.threads)
    (first : (krnl.firstWaiter? (krnl.object ptr).token).map GuestThread.handle = some fiber.handle) :
    fiber.wake ∈ ((Effect.resumeThread ptr).apply krnl).sched.threads := by
  obtain ⟨other, found, handle⟩ := Option.map_eq_some_iff.mp first
  obtain ⟨waiting, index, inside, here, earlier⟩ := List.find?_eq_some_iff_getElem.mp found
  have same : other = fiber := ok.fibers.unique (List.mem_of_find?_eq_some found) member handle
  subst same
  have position : krnl.sched.threads[index]? = some other := by rw [List.getElem?_eq_getElem inside, here]
  have signaled := signalThreads_first (krnl.object ptr).token krnl.sched.threads index other position
    (of_decide_eq_true waiting) (fun before small waiter there blocked => by
      obtain ⟨bound, equal⟩ := List.getElem?_eq_some_iff.mp there
      have absent := earlier before small
      rw [equal] at absent
      simp [blocked] at absent)
  have threads := (Effect.leads ok (.resumeThread ptr) allowed (by simp [Effect.label])).threads
  simp only [Effect.threads, one, ↓reduceIte, signaled] at threads
  rw [threads]
  exact List.mem_set inside _

/-- A resume keeps the parked fibers suspended when it wakes the one whose last
suspension it takes. -/
theorem ParkedSuspended.resume (parked : krnl.ParkedSuspended) (ok : krnl.Ok)
    (allowed : (Effect.resumeThread ptr).Allowed krnl)
    (first : (krnl.object ptr).thread.suspendCount = 1 → ∀ fiber ∈ krnl.sched.threads,
      fiber.state = .blockedWait → Fiber.parkedOn fiber = some ptr →
      (krnl.firstWaiter? (krnl.object ptr).token).map GuestThread.handle = some fiber.handle) :
    ((Effect.resumeThread ptr).apply krnl).ParkedSuspended := by
  refine parked.of_effect ok allowed (fun fiber member remains blocked target object onTarget live positive => ?_)
    (fun _ _ _ other => by cases other)
  simp only [Effect.rewrite, Effect.onlyAt]
  split
  · rename_i same
    subst same
    by_cases one : object.thread.suspendCount = 1
    · rw [← krnl.object_eq _ _ live] at one
      have woken := ok.resume_wakes allowed one member (first one fiber member blocked onTarget)
      have equal := (Effect.sound ok _ allowed).fibers.unique remains woken rfl
      rw [equal] at blocked
      simp [GuestThread.wake] at blocked
    · have more : 0 < object.thread.suspendCount - 1 := by omega
      exact more
  · exact positive

/-! ## Actions -/

/-- What follows the effect of a call in its step: stores and the reply. -/
def Follows (krnl next : XboxKrnl) : Prop :=
  Path [.waiting] krnl next ∧ next.sched = krnl.sched

/-- The delivery of a reply follows the call. -/
theorem follows_deliver (krnl : XboxKrnl) (ram : XbeRam) (reply : Option Reply) :
    krnl.Follows ({ krnl with ram }.deliver reply) := by
  refine ⟨(memory_path krnl ram (List.mem_singleton.mpr rfl)).trans (deliver_path _ reply), ?_⟩
  cases reply <;> rfl

/-- Both resume calls are the resume effect with a reply, unless they are rejected. -/
theorem Steady.resume_call (steady : krnl.Steady) {action : Action} (stepped : krnl.step action = some next)
    (found : krnl.resumed? action = some ptr) :
    ∃ ram, (Effect.resumeThread ptr).Allowed { krnl with ram } ∧
      ((Effect.resumeThread ptr).apply { krnl with ram }).Follows next := by
  obtain ⟨ram, refreshed⟩ := krnl.refreshData_eq
  refine ⟨ram, ?_⟩
  rw [← refreshed]
  unfold resumed? at found
  split at found
  · rename_i handle out
    obtain ⟨_, _, rfl⟩ := call_cases stepped
    have again : krnl.refreshData.ofKind .thread (krnl.refreshData.findObjectByHandle handle) = some ptr := by
      rw [refreshed]
      exact found
    obtain ⟨object, live, kind⟩ := steady.refreshed.ok.ofKind_live again (Or.inl ⟨handle, rfl⟩)
    refine ⟨⟨object, live, kind⟩, ?_⟩
    obtain ⟨memory, written⟩ := (krnl.refreshData.resumeThread ptr).writeOut_eq out
      (krnl.refreshData.object ptr).thread.suspendCount
    simp only [XboxKrnl.exec, returning, XboxKrnl.ntResumeThread, again, written]
    exact follows_deliver _ memory _
  · rename_i thread
    obtain ⟨_, _, rfl⟩ := call_cases stepped
    have again : krnl.refreshData.ofKind .thread (krnl.refreshData.findThreadById thread) = some ptr := by
      rw [refreshed]
      exact found
    obtain ⟨object, live, kind⟩ := steady.refreshed.ok.ofKind_live again (Or.inr (Or.inr ⟨thread, rfl⟩))
    refine ⟨⟨object, live, kind⟩, ?_⟩
    simp only [XboxKrnl.exec, returning, XboxKrnl.keResumeThread, again]
    exact follows_deliver _ _ _
  · cases found

/-- A resume call that finds no thread object is rejected. -/
theorem resume_rejected {action : Action} (stepped : krnl.step action = some next)
    (resumes : .resume ∈ actionLabels action) (absent : krnl.resumed? action = none) :
    Path [.waiting] krnl next := by
  obtain ⟨ram, refreshed⟩ := krnl.refreshData_eq
  have first : Path [.waiting] krnl krnl.refreshData := refreshData_path krnl (by simp)
  cases action with
  | call call =>
    cases call with
    | ntResumeThread handle out =>
      obtain ⟨_, _, rfl⟩ := call_cases stepped
      have again : krnl.refreshData.ofKind .thread (krnl.refreshData.findObjectByHandle handle) = none := by
        rw [refreshed]
        exact absent
      simp only [XboxKrnl.exec, returning, XboxKrnl.ntResumeThread, again]
      exact first.trans (deliver_path _ _)
    | keResumeThread thread =>
      obtain ⟨_, _, rfl⟩ := call_cases stepped
      have again : krnl.refreshData.ofKind .thread (krnl.refreshData.findThreadById thread) = none := by
        rw [refreshed]
        exact absent
      simp only [XboxKrnl.exec, returning, XboxKrnl.keResumeThread, again]
      exact first.trans (deliver_path _ _)
    | _ => simp [actionLabels, labelsOf] at resumes
  | turn => simp [actionLabels, resumeLabels, wakeLabels, proceedLabels] at resumes
  | _ => simp [actionLabels] at resumes

/-- A step that suspends is a suspension call on some thread object. -/
theorem Steady.suspend_call (steady : krnl.Steady) {action : Action} (stepped : krnl.step action = some next)
    (suspends : .suspend ∈ actionLabels action) :
    ∃ found reply last, krnl.refreshData.Suspends found last ∧ krnl.suspended? action =
      krnl.refreshData.ofKind .thread found ∧ next = last.deliver reply := by
  obtain ⟨ram, refreshed⟩ := krnl.refreshData_eq
  cases action with
  | call call =>
    cases call with
    | ntSuspendThread handle out =>
      obtain ⟨_, _, rfl⟩ := call_cases stepped
      exact ⟨_, _, _, steady.refreshed.ntSuspendThread handle out, by rw [refreshed]; rfl, rfl⟩
    | keSuspendThread thread =>
      obtain ⟨_, _, rfl⟩ := call_cases stepped
      exact ⟨_, _, _, steady.refreshed.keSuspendThread thread, by rw [refreshed]; rfl, rfl⟩
    | _ => simp [actionLabels, labelsOf] at suspends
  | turn => simp [actionLabels, resumeLabels, wakeLabels, proceedLabels] at suspends
  | _ => simp [actionLabels] at suspends

/-- A suspension keeps the invariant while the count fits. -/
theorem ParkedSuspended.suspends (parked : krnl.ParkedSuspended) (steady : krnl.Steady) {found : Option Ptr}
    (suspends : krnl.Suspends found next)
    (small : ∀ ptr, krnl.ofKind .thread found = some ptr → (krnl.object ptr).thread.suspendCount + 1 < 2 ^ 32) :
    next.ParkedSuspended := by
  cases suspends with
  | declines path => exact parked.path steady.ok path (by simp) (by simp)
  | raises middle ptr named before same allowed path =>
    have ok := before.ok steady.ok
    have raised := (parked.path steady.ok before (by simp) (by simp)).suspend ok allowed (Or.inl rfl)
      (by rw [object, same]; exact small ptr named)
    exact raised.path (Effect.sound ok _ allowed) path (by simp) (by simp)
  | parks ptr out reply named allowed path =>
    have raised := parked.suspend steady.ok allowed (Or.inr ⟨out, reply, rfl⟩) (small ptr named)
    exact raised.path (Effect.sound steady.ok _ allowed) path (by simp) (by simp)

/-- Every action that meets the condition keeps the parked fibers suspended, and a resume
that takes the last suspension reaches them. -/
theorem ParkedSuspended.step (parked : krnl.ParkedSuspended) (steady : krnl.Steady) {action : Action}
    (condition : ParkedFirst krnl action) (stepped : krnl.step action = some next) :
    next.ParkedSuspended ∧ ∀ ptr, krnl.resumed? action = some ptr →
      (krnl.object ptr).thread.suspendCount = 1 → krnl.Unparks next ptr := by
  obtain ⟨first, small⟩ := condition
  cases found : krnl.resumed? action with
  | some ptr =>
    obtain ⟨ram, allowed, path, sched⟩ := steady.resume_call stepped found
    have ok : { krnl with ram }.Ok := Effect.sound steady.ok (.compute ram krnl.filetime) trivial
    have here := first ptr (by simp [found])
    have kept : { krnl with ram }.ParkedSuspended := parked
    have resumed := kept.resume ok allowed here
    refine ⟨resumed.path (Effect.sound ok _ allowed) path (by simp) (by simp), ?_⟩
    rintro other ⟨rfl⟩ one fiber member blocked onPtr
    refine ⟨fiber.wake, ?_, rfl, rfl⟩
    rw [sched]
    exact ok.resume_wakes allowed one member (here one fiber member blocked onPtr)
  | none =>
    refine ⟨?_, fun ptr other => by cases other⟩
    by_cases suspends : .suspend ∈ actionLabels action
    · obtain ⟨target, reply, last, suspended, same, rfl⟩ := steady.suspend_call stepped suspends
      obtain ⟨ram, refreshed⟩ := krnl.refreshData_eq
      have begun : krnl.refreshData.ParkedSuspended := by
        rw [refreshed]
        exact parked
      have raised := begun.suspends steady.refreshed suspended (fun ptr named => by
        have bound := small ptr (by simp [same, named])
        rw [refreshed]
        exact bound)
      exact raised.path (suspended.path.ok steady.refreshed.ok) (deliver_path last reply) (by simp) (by simp)
    · by_cases resumes : .resume ∈ actionLabels action
      · exact parked.path steady.ok (resume_rejected stepped resumes found) (by simp) (by simp)
      · exact parked.path steady.ok (steady.step stepped).1 suspends resumes

/-- Every state reached under the condition satisfies it. -/
theorem ReachesUnder.parkedSuspended {actions : List Action} (reached : krnl.ReachesUnder ParkedFirst actions) :
    krnl.Steady ∧ krnl.ParkedSuspended := by
  refine reached.invariant ?_ (fun krnl action next steady parked condition stepped =>
    (parked.step steady condition stepped).1)
  intro ram addresses threadRunner kernelDataVa fiber member
  simp [initial] at member

/-- In every run whose handles and identifiers fit, in which a resume that takes the last
suspension finds the parked fiber first on its channel and no suspension overflows, a parked
fiber's thread object is suspended, and such a resume makes the parked fiber ready.

Proof: `ParkedSuspended` is the invariant. Only a resume lowers the count of a thread, and it
then wakes the first fiber on the channel of the thread, which under the condition is the parked
one. -/
theorem resumes_reach_parked {actions : List Action}
    (run : krnl.WordRun (fun krnl action => krnl.Roomy ∧ krnl.ParkedFirst action) actions) :
    krnl.ParkedSuspended ∧ ∀ action next ptr, krnl.Roomy → krnl.ParkedFirst action →
      krnl.wordStep action = some next → krnl.resumed? action = some ptr →
      (krnl.object ptr).thread.suspendCount = 1 → krnl.Unparks next ptr := by
  have reached := run.reachesUnder (fun _ _ met => met.1)
  obtain ⟨steady, parked⟩ := (reached.mono (fun _ _ => And.right)).parkedSuspended
  refine ⟨parked, fun action next ptr roomy condition stepped => ?_⟩
  exact (parked.step steady condition (steady.wordStep_refines roomy stepped)).2 ptr

/-- The host creates a suspended thread. -/
def createsSuspended : Action :=
  .call (.psCreateSystemThreadEx { threadHandle := 16, startRoutine := 100, createSuspended := 1 })

/-- A thread is created suspended and parks. -/
def parksAlone : List Action := [createsSuspended, .run, .turn, .turn]

/-- A thread that is spawned suspended parks, and is resumed from there. -/
theorem parksAlone_reached :
    (wordAfter true parksAlone).resumed? (.call (.ntResumeThread 4 0)) = some 0 ∧
      ((wordAfter true parksAlone).object 0).thread.suspendCount = 1 ∧
      (wordAfter true parksAlone).sched.threads.map GuestThread.state = [.blockedWait] ∧
      (wordAfter true parksAlone).Unparks (wordAfter true (parksAlone ++ [.call (.ntResumeThread 4 0)])) 0 := by
  refine ⟨by decide +kernel, by decide +kernel, by decide +kernel, ?_⟩
  have run := wordRun_after (fun krnl action => krnl.Roomy ∧ krnl.ParkedFirst action) true parksAlone
    (by decide +kernel) (by decide +kernel)
  exact (resumes_reach_parked run).2 (.call (.ntResumeThread 4 0)) _ 0 (by decide +kernel) (by decide +kernel)
    (wordStep_after true parksAlone _ (by decide +kernel)) (by decide +kernel) (by decide +kernel)

/-- A fiber spawned before the thread waits for it, the thread parks, and the host
resumes it. -/
def waiterFirst : List Action :=
  [.spawn 0 (some 4096), createsSuspended, .run, .turn, .call (.ntWaitForSingleObject 4 0 0), .turn, .turn,
    .call (.ntResumeThread 4 0)]

/-- Without the condition a resumed thread can be parked nowhere. -/
theorem resumes_reach_parked_fails : ¬ ∀ (krnl : XboxKrnl) actions, krnl.WordRun (fun _ _ => True) actions →
    krnl.ParkedSuspended ∧ ∀ action next ptr, krnl.wordStep action = some next →
      krnl.resumed? action = some ptr → (krnl.object ptr).thread.suspendCount = 1 → krnl.Unparks next ptr := by
  intro always
  have run := wordRun_after (fun _ _ => True) true waiterFirst (by decide +kernel) (Runs.along_true _ _)
  have parked := (always _ _ run).1
  have suspended : ∀ fiber ∈ (wordAfter true waiterFirst).sched.threads, fiber.state = .blockedWait →
      ∀ object ∈ ((wordAfter true waiterFirst).object? 0).toList, Fiber.parkedOn fiber = some 0 →
      0 < object.thread.suspendCount := by
    intro fiber member blocked object live onPtr
    exact parked fiber member blocked 0 object onPtr (by simpa using live)
  revert suspended
  decide +kernel

end XboxKrnl

end SeriesxEmu
