import SeriesxEmu.SystemPaths

/-!
# Closing a handle that is still in use

`NtClose` destroys the object at once. Fibers keep raw pointers to objects across
a switch: to the object of a single wait, to the objects of a multiple wait, and
in the body of a system thread to the thread object it has captured. Nothing
keeps such an object alive, so a close may leave a pointer dangling, and a close
of a thread handle changes what the thread finds out about itself.
-/

namespace SeriesxEmu

open Scheduler GuestScheduler

/-- The objects that the fiber will dereference when it runs on: those its suspended
wait names, unless the wait is single and has already timed out, and the thread
object that its body has captured. -/
def Fiber.touches (fiber : Fiber) : List Ptr :=
  (match fiber.ctx.point with
    | .waitDispatch ptr _ => if fiber.state ≠ .blockedWait ∧ fiber.waitTimedOut = true then [] else [ptr]
    | .waitMultiple ptrs _ _ => ptrs
    | _ => []) ++ fiber.ctx.body.captured.toList

namespace XboxKrnl

variable {krnl next : XboxKrnl}

/-- The object is live and one of the three registries has it. -/
def Registered (krnl : XboxKrnl) (ptr : Ptr) : Prop :=
  krnl.live ptr = true ∧ ((∃ slot, krnl.registry.table slot = some ptr) ∨ ptr ∈ krnl.vaObjects ∨
    ∃ fiber, (fiber, ptr) ∈ krnl.fiberThreads)

/-- Blocked fibers only hold registered objects. -/
def WaitersHoldLive (krnl : XboxKrnl) : Prop :=
  ∀ fiber ∈ krnl.sched.threads, fiber.state = .blockedWait →
    ∀ ptr ∈ Fiber.touches fiber, krnl.Registered ptr

/-- Unfinished fibers only hold live objects. -/
def HoldLive (krnl : XboxKrnl) : Prop :=
  ∀ fiber ∈ krnl.sched.threads, fiber.state ≠ .finished → ∀ ptr ∈ Fiber.touches fiber, krnl.live ptr = true

/-- A live object is registered in the handle table or in guest memory. -/
theorem Ok.registered (ok : krnl.Ok) {ptr : Ptr} (alive : krnl.live ptr = true) : krnl.Registered ptr := by
  obtain ⟨object, live⟩ := Option.isSome_iff_exists.mp alive
  exact ⟨alive, ok.registry.owned ptr _ (krnl.shapes_eq _ _ live)⟩

/-- The invariant says that waiters hold live objects. -/
theorem HoldLive.waiters (holds : krnl.HoldLive) (ok : krnl.Ok) : krnl.WaitersHoldLive :=
  fun fiber member blocked ptr touched =>
    ok.registered (holds fiber member (by rw [blocked]; simp) ptr touched)

/-- Only a close destroys an object. -/
theorem live_apply (ok : krnl.Ok) {effect : Effect} (allowed : effect.Allowed krnl) {ptr : Ptr}
    (alive : krnl.live ptr = true) (opens : ∀ slot, effect ≠ .close slot ptr) :
    (effect.apply krnl).live ptr = true := by
  obtain ⟨object, live⟩ := Option.isSome_iff_exists.mp alive
  rcases Effect.object_fate ok allowed live with later | ⟨slot, same⟩
  · rw [XboxKrnl.live, later]
    rfl
  · exact absurd same (opens slot)

/-- What can be waited for lives. -/
theorem live_of_waitable {ptr : Ptr} (waitable : krnl.Waitable ptr) : krnl.live ptr = true := by
  obtain ⟨⟨object, live⟩, _⟩ := waitable
  rw [XboxKrnl.live, live]
  rfl

/-- The running fiber only comes to hold live objects. -/
theorem moves_touches (ok : krnl.Ok) {effect : Effect} (allowed : effect.Allowed krnl) {fiber : Fiber} {ptr : Ptr}
    (unfinished : (effect.moves krnl fiber).state ≠ .finished)
    (touched : ptr ∈ Fiber.touches (effect.moves krnl fiber)) :
    ptr ∈ Fiber.touches fiber ∨ krnl.live ptr = true := by
  have captured : ptr ∈ fiber.ctx.body.captured.toList → ptr ∈ Fiber.touches fiber :=
    fun member => List.mem_append_right _ member
  cases effect with
  | block token ticks point =>
    obtain ⟨_, blocks⟩ := allowed
    rcases List.mem_append.mp touched with named | kept
    · right
      cases point with
      | waitDispatch object ticks =>
        simp only [Effect.moves, blockedAt, ne_eq, not_true_eq_false, false_and, ↓reduceIte,
          List.mem_singleton] at named
        subst named
        exact live_of_waitable blocks.1
      | waitMultiple objects waitAll ticks => exact live_of_waitable (blocks.2.1 ptr named)
      | _ => cases named
    · exact Or.inl (captured kept)
  | suspendSelf target out reply => exact Or.inl (captured touched)
  | enter =>
    right
    have found : krnl.findThreadByFiber krnl.currentHandle = some ptr := Option.mem_toList.mp touched
    obtain ⟨_, _, object, live, _⟩ := findThreadByFiber_live ok.registry found
    rw [XboxKrnl.live, live]
    rfl
  | proceed => exact Or.inl (captured touched)
  | exit code => exact absurd rfl unfinished
  | pause state wakeTick joinTarget point =>
    left
    obtain ⟨_, ⟨_, reply, rfl⟩ | ⟨_, rfl⟩⟩ := allowed
    · exact captured touched
    · exact captured touched
  | _ => exact Or.inl touched

/-- Waking or passing over a fiber gives it nothing new to touch. -/
theorem wake_touches {fiber : Fiber} (blocked : fiber.state = .blockedWait) {ptr : Ptr}
    (touched : ptr ∈ Fiber.touches fiber.wake) : ptr ∈ Fiber.touches fiber := by
  simpa [Fiber.touches, GuestThread.wake, blocked] using touched

/-- A pass over a fiber adds no object that it touches. -/
theorem passes_touches {fiber passed : Fiber} (passes : Effect.Passes fiber passed)
    (waits : fiber.state = .sleeping ∨ fiber.state = .blockedJoin → fiber.ctx.point = .guest) {ptr : Ptr}
    (touched : ptr ∈ Fiber.touches passed) : ptr ∈ Fiber.touches fiber := by
  rcases passes with rfl | ⟨asleep, rfl⟩ | ⟨blocked, rfl⟩
  · exact touched
  · simpa [Fiber.touches, waits asleep] using touched
  · rcases List.mem_append.mp touched with named | kept
    · cases point : fiber.ctx.point with
      | waitMultiple objects waitAll ticks =>
        simp only [point] at named
        exact List.mem_append_left _ (by simpa [point] using named)
      | _ => simp [point] at named
    · exact List.mem_append_right _ kept

/-- Switching a fiber in adds none. -/
theorem switchedIn_touches {fiber : Fiber} (ready : fiber.state = .ready) {ptr : Ptr}
    (touched : ptr ∈ Fiber.touches (switchedIn fiber)) : ptr ∈ Fiber.touches fiber := by
  cases started : fiber.started <;> simpa [Fiber.touches, ready, switchedIn, started] using touched

/-- A new fiber touches no object. -/
theorem spawns_touches {effect : Effect} {fiber : Fiber} (spawned : effect.Spawns krnl fiber) :
    Fiber.touches fiber = [] := by
  cases effect with
  | createThread request base =>
    obtain rfl : fiber = _ := spawned
    rfl
  | spawn stackTopReserve base =>
    obtain rfl : fiber = _ := spawned
    rfl
  | _ => exact spawned.elim

/-- What an unfinished fiber touches after an effect it touched before, or the
object is live. -/
theorem touches_origin (ok : krnl.Ok) {effect : Effect} (allowed : effect.Allowed krnl) {after : Fiber}
    (member : after ∈ (effect.apply krnl).sched.threads) (unfinished : after.state ≠ .finished) {ptr : Ptr}
    (touched : ptr ∈ Fiber.touches after) :
    krnl.live ptr = true ∨
      ∃ fiber ∈ krnl.sched.threads, fiber.state ≠ .finished ∧ ptr ∈ Fiber.touches fiber := by
  obtain ⟨index, found⟩ := List.mem_iff_getElem?.mp member
  by_cases loop : effect.label = .loop
  · rcases Effect.label_loop loop with rfl | rfl
    · exact Or.inr ⟨after, member, unfinished, touched⟩
    · obtain ⟨fiber, passed, before, passes, moved⟩ := Effect.turn_origin allowed found
      have fiberOk := ok.fibers.each fiber (List.mem_of_getElem? before)
      have passedTouched : ptr ∈ Fiber.touches passed := by
        rcases moved with ⟨rfl, _⟩ | ⟨_, ready, rfl⟩
        · exact touched
        · exact switchedIn_touches ready touched
      refine Or.inr ⟨fiber, List.mem_of_getElem? before, fun finished => ?_,
        passes_touches passes fiberOk.idle passedTouched⟩
      rcases passes with rfl | ⟨asleep | asleep, _⟩ | ⟨blocked, _⟩
      · rcases moved with ⟨rfl, _⟩ | ⟨_, ready, _⟩
        · exact unfinished finished
        · rw [finished] at ready
          cases ready
      · rw [finished] at asleep
        cases asleep
      · rw [finished] at asleep
        cases asleep
      · rw [finished] at blocked
        cases blocked
  · rcases Effect.fiber_origin ok allowed loop found with ⟨fiber, before, fate⟩ | ⟨_, spawned⟩
    · rcases fate with ⟨switched, rfl⟩ | ⟨_, rfl | ⟨blocked, _, rfl⟩⟩
      · have running : krnl.currentFiber = some fiber := by simp [currentFiber, switched, before]
        rcases moves_touches ok allowed unfinished touched with old | alive
        · refine Or.inr ⟨fiber, List.mem_of_getElem? before, ?_, old⟩
          rcases (ok.running running).2.2.2 with ready | runs
          · rw [ready]; simp
          · rw [runs]; simp
        · exact Or.inl alive
      · exact Or.inr ⟨after, List.mem_of_getElem? before, unfinished, touched⟩
      · exact Or.inr ⟨fiber, List.mem_of_getElem? before, by rw [blocked]; simp, wake_touches blocked touched⟩
    · rw [spawns_touches spawned] at touched
      cases touched

/-- Every effect but a close of a held object keeps the held objects alive. -/
theorem HoldLive.effect (holds : krnl.HoldLive) (ok : krnl.Ok) {effect : Effect} (allowed : effect.Allowed krnl)
    (opens : ∀ slot ptr, effect = .close slot ptr → ∀ fiber ∈ krnl.sched.threads, fiber.state ≠ .finished →
      ptr ∉ Fiber.touches fiber) : (effect.apply krnl).HoldLive := by
  intro after member unfinished ptr touched
  by_cases closes : ∃ slot, effect = .close slot ptr
  · obtain ⟨slot, rfl⟩ := closes
    exact absurd touched (opens slot ptr rfl after member unfinished)
  · have stays : ∀ slot, effect ≠ .close slot ptr := fun slot same => closes ⟨slot, same⟩
    rcases touches_origin ok allowed member unfinished touched with alive | ⟨fiber, before, wasUnfinished, old⟩
    · exact live_apply ok allowed alive stays
    · exact live_apply ok allowed (holds fiber before wasUnfinished ptr old) stays

/-- The invariant passes along a path that closes nothing. -/
theorem HoldLive.path (holds : krnl.HoldLive) (ok : krnl.Ok) {labels : List Label} (path : Path labels krnl next)
    (opens : .close ∉ labels) : next.HoldLive :=
  Path.keeps (fun _ _ ok holds labeled allowed => holds.effect ok allowed (fun slot ptr closes => by
    subst closes
    exact absurd labeled opens)) path ok holds

/-! ## Closing a handle -/

/-- The handle that the action closes. -/
def closedBy : Action → Option Nat
  | .call (.ntClose handle) => some handle
  | _ => none

/-- Only `NtClose` destroys objects. -/
theorem closedBy_of_label {action : Action} (closes : .close ∈ actionLabels action) :
    ∃ handle, action = .call (.ntClose handle) := by
  cases action with
  | call call =>
    cases call with
    | ntClose handle => exact ⟨handle, rfl⟩
    | _ => simp [actionLabels, labelsOf] at closes
  | _ => simp [actionLabels, resumeLabels, wakeLabels, proceedLabels] at closes

/-- `NtClose` rejects the handle or destroys the object behind it. -/
theorem ntClose_cases {handle : Nat} (stepped : krnl.step (.call (.ntClose handle)) = some next) :
    (krnl.findObjectByHandle handle = none ∧ Path [.waiting] krnl next) ∨
      ∃ ptr ram, krnl.findObjectByHandle handle = some ptr ∧
        (Effect.close (handle / 4 - 1) ptr).Allowed { krnl with ram } ∧
        Path [.waiting] ((Effect.close (handle / 4 - 1) ptr).apply { krnl with ram }) next := by
  obtain ⟨_, _, rfl⟩ := call_cases stepped
  obtain ⟨ram, refreshed⟩ := krnl.refreshData_eq
  rw [refreshed]
  have begins : Path [.waiting] krnl { krnl with ram } :=
    Path.one (.compute ram krnl.filetime) (by simp [Effect.label]) trivial
  have same : ({ krnl with ram } : XboxKrnl).findObjectByHandle handle = krnl.findObjectByHandle handle := rfl
  cases found : krnl.findObjectByHandle handle with
  | none =>
    refine Or.inl ⟨rfl, ?_⟩
    simp only [exec, XboxKrnl.ntClose, same, found, returning]
    exact begins.trans (deliver_path _ _)
  | some ptr =>
    refine Or.inr ⟨ptr, ram, rfl, ?_, ?_⟩
    · exact (findObjectByHandle_table _ _ _ found).1
    · simp only [exec, XboxKrnl.ntClose, same, found, returning]
      exact deliver_path _ _

/-- The object behind a handle that is closed is held by no unfinished fiber. -/
def ClosesUnheld (krnl : XboxKrnl) (action : Action) : Prop :=
  ∀ ptr ∈ ((closedBy action).bind krnl.findObjectByHandle).toList, ∀ fiber ∈ krnl.sched.threads,
    fiber.state ≠ .finished → ptr ∉ Fiber.touches fiber

instance (krnl : XboxKrnl) (action : Action) : Decidable (krnl.ClosesUnheld action) :=
  inferInstanceAs (Decidable (∀ _ ∈ _, _))

/-- One step keeps the invariant when it closes nothing that is held. -/
theorem HoldLive.step (holds : krnl.HoldLive) (steady : krnl.Steady) {action : Action}
    (condition : krnl.ClosesUnheld action) (stepped : krnl.step action = some next) : next.HoldLive := by
  by_cases closes : .close ∈ actionLabels action
  · obtain ⟨handle, rfl⟩ := closedBy_of_label closes
    rcases ntClose_cases stepped with ⟨_, path⟩ | ⟨ptr, ram, found, allowed, path⟩
    · exact holds.path steady.ok path (by simp)
    · have begins : Path [.waiting] krnl { krnl with ram } :=
        Path.one (.compute ram krnl.filetime) (by simp [Effect.label]) trivial
      have ok := begins.ok steady.ok
      have same : ({ krnl with ram } : XboxKrnl).HoldLive := holds
      refine (same.effect ok allowed ?_).path (Effect.sound ok _ allowed) path (by simp)
      intro slot target closed fiber member unfinished
      obtain ⟨_, rfl⟩ := Effect.close.inj closed
      exact condition ptr (by simp [closedBy, found]) fiber member unfinished
  · exact holds.path steady.ok (steady.step stepped).1 closes

/-- In a run that closes no held object, every object a blocked fiber will touch is
still registered.

Proof: only a closing takes an object away, and it may not name one that a blocked fiber points to. -/
theorem waiters_hold_live {actions : List Action} (reached : krnl.ReachesUnder ClosesUnheld actions) :
    krnl.WaitersHoldLive := by
  have start : ∀ ram addresses threadRunner kernelDataVa,
      (initial ram addresses threadRunner kernelDataVa).HoldLive := by
    intro ram addresses threadRunner kernelDataVa fiber member
    cases member
  have invariant := reached.invariant start (fun krnl action next steady holds condition stepped =>
    HoldLive.step holds steady condition stepped)
  exact invariant.2.waiters invariant.1.ok

/-- A fiber waits for an event whose handle the other fiber closes. The handle of
the event is four, and the second fiber closes the first free handle before. -/
def closesUnused : List Action :=
  [.call (.ntCreateEvent 16 0 0 0), .call (.ntCreateEvent 20 0 0 0), .spawn 0 (some 0), .spawn 0 (some 0),
    .run, .turn, .call (.ntWaitForSingleObject 4 0 0), .turn, .call (.ntClose 8)]

/-- Closing an unused handle leaves the waiters with live objects. -/
theorem closesUnused_hold_live : (after true closesUnused).WaitersHoldLive :=
  waiters_hold_live (reachesUnder_after _ true closesUnused (by decide +kernel) (by decide +kernel))

/-- The same run with the handle of the event closed. -/
def closesWaited : List Action :=
  [.call (.ntCreateEvent 16 0 0 0), .call (.ntCreateEvent 20 0 0 0), .spawn 0 (some 0), .spawn 0 (some 0),
    .run, .turn, .call (.ntWaitForSingleObject 4 0 0), .turn, .call (.ntClose 4)]

/-- The waiting fiber is left with a pointer to a destroyed object. -/
theorem waiters_hold_live_fails : ¬ ∀ (krnl : XboxKrnl) actions, krnl.Reaches actions → krnl.WaitersHoldLive := by
  intro always
  have reached := reaches_after true closesWaited (by decide +kernel)
  have found : (after true closesWaited).sched.threads[0]?.map (fun fiber => (Fiber.touches fiber, fiber.state)) =
      some ([0], .blockedWait) := by decide +kernel
  obtain ⟨fiber, here, same⟩ := Option.map_eq_some_iff.mp found
  obtain ⟨touched, blocked⟩ := Prod.mk.inj same
  have registered := always _ _ reached fiber (List.mem_of_getElem? here) blocked 0 (by simp [touched])
  have dead : (after true closesWaited).live 0 = false := by decide +kernel
  rw [registered.1] at dead
  cases dead

end XboxKrnl

end SeriesxEmu
