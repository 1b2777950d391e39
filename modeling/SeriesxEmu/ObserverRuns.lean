import SeriesxEmu.FinishObservers

/-!
# Runs in which both finish observers stay registered

The hook of the thread-local storage must be set before the kernel is constructed. Then the
hooks are those of the observers that are there, every action is one of the kernel's machine as
long as handles and identifiers fit, and the end of a fiber is seen by both. What is left behind
on the side of the kernel is the matter of the kernel's machine alone; the storage adds its
record.
-/

namespace SeriesxEmu

open Scheduler GuestScheduler

namespace SharedHost

variable {host next : SharedHost}

/-- The storage does not set its hook once the kernel has registered its own. -/
def HooksEarly (host : SharedHost) : HostAction → Prop
  | .spawnWithTls _ => host.constructed = true → host.tls.init.isSome = true → host.tls.hookInstalled = true
  | _ => True

instance (host : SharedHost) : ∀ action, Decidable (host.HooksEarly action)
  | .spawnWithTls _ => inferInstanceAs (Decidable (_ → _ → _))
  | .construct => inferInstanceAs (Decidable True)
  | .setInit _ => inferInstanceAs (Decidable True)
  | .act _ => inferInstanceAs (Decidable True)

/-- A call that looks the calling fiber up by its handle finds that fiber. -/
def FindsCaller (host : SharedHost) : HostAction → Prop
  | .act action => host.krnl.FindsCaller action
  | _ => True

instance (host : SharedHost) : ∀ action, Decidable (host.FindsCaller action)
  | .act action => inferInstanceAs (Decidable (host.krnl.FindsCaller action))
  | .construct => inferInstanceAs (Decidable True)
  | .setInit _ => inferInstanceAs (Decidable True)
  | .spawnWithTls _ => inferInstanceAs (Decidable True)

/-- The storage sets its hook early or never, while handles and identifiers fit and calls find
their callers. -/
def KeepsObservers (host : SharedHost) (action : HostAction) : Prop :=
  host.krnl.Roomy ∧ host.FindsCaller action ∧ host.HooksEarly action

instance (host : SharedHost) (action : HostAction) : Decidable (host.KeepsObservers action) :=
  inferInstanceAs (Decidable (_ ∧ _ ∧ _))

/-- The invariant of a run that keeps both observers. -/
structure Composed (host : SharedHost) : Prop where
  steady : host.krnl.Steady
  hooks : host.finishHooks =
    (if host.tls.hookInstalled then [.tls] else []) ++ (if host.constructed then [.kernel] else [])
  unbuilt : host.constructed = false → host.krnl.Unbuilt
  stored : ∀ fiber, host.tls.hasTls fiber = true → host.tls.hookInstalled = true

/-- The hooks are registered as the invariant says. -/
theorem Composed.registered (composed : host.Composed) : host.Registered :=
  ⟨composed.hooks, fun unbuilt => (composed.unbuilt unbuilt).threadless⟩

end SharedHost

namespace FiberTls

/-- The parts of the storage that no notification changes. -/
def registration (tls : FiberTls) : Bool × List (Nat × TlsBlock) := (tls.hookInstalled, tls.blocks)

/-- An end on record does not change who is registered. -/
theorem registration_finished (tls : FiberTls) (fiber : Nat) :
    (tls.finished fiber).registration = tls.registration := by
  unfold finished
  split <;> rfl

/-- Neither does a block. -/
theorem hookInstalled_attach (tls : FiberTls) (init : TlsInit) (fiber : Nat) (top : Option Nat) :
    (tls.attach init fiber top).hookInstalled = tls.hookInstalled := by
  rw [attach_eq]
  cases top <;> rfl

end FiberTls

namespace SharedHost

variable {host next : SharedHost}

/-- So who is registered stays while the storage tracks the kernel. -/
theorem Tracks.registration (tracks : host.Tracks next) : next.tls.registration = host.tls.registration := by
  obtain ⟨ended, -, same⟩ := tracks.ended
  rw [same]
  clear same
  induction ended with
  | nil => rfl
  | cons fiber rest inductionHypothesis =>
    rw [List.foldr_cons, FiberTls.registration_finished, inductionHypothesis]

/-- As long as handles fit, an action of the machine is one of the kernel's whole machine. -/
theorem Composed.machine (composed : host.Composed) (roomy : host.krnl.Roomy) {action : Action}
    (acted : host.act action = some next) : host.krnl.step action = some next.krnl ∧ host.Tracks next := by
  have looked := composed.registered.act composed.steady acted
  rw [composed.steady.lookupStep_eq (Nat.le_of_lt roomy.handles)] at looked
  exact looked

/-- An action of the kernel keeps the invariant. -/
theorem Composed.act (composed : host.Composed) (roomy : host.krnl.Roomy) {action : Action}
    (acted : host.act action = some next) : next.Composed := by
  obtain ⟨stepped, tracks⟩ := composed.machine roomy acted
  obtain ⟨hookInstalled, blocks⟩ := Prod.mk.inj tracks.registration
  refine ⟨(composed.steady.step stepped).2, ?_, fun unbuilt => ?_, fun fiber stored => ?_⟩
  · rw [tracks.hooks, tracks.constructed, hookInstalled]
    exact composed.hooks
  · rw [tracks.constructed] at unbuilt
    refine (composed.unbuilt unbuilt).step ?_ stepped
    rintro call rfl
    simp [SharedHost.act, unbuilt] at acted
  · rw [hookInstalled]
    refine composed.stored fiber ?_
    rw [FiberTls.hasTls, ← blocks]
    exact stored

/-- A spawn of the title is one of the kernel's machine. -/
theorem spawn_step (active : host.krnl.active = true) (stackTopReserve : Nat) (region : Option Nat) :
    host.krnl.step (.spawn stackTopReserve region) =
      some { host.krnl with sched := (host.krnl.sched.spawnReserved { body := .native, point := .entry }
        stackTopReserve region).1 } := by
  simp only [XboxKrnl.step, active, ↓reduceIte]

/-- The storage sets its hook, if it has not yet, while there is no kernel to forget. -/
theorem Composed.hookTls (composed : host.Composed) (kept : host.constructed = true → host.tls.hookInstalled = true) :
    host.hookTls.Composed ∧ host.hookTls.krnl = host.krnl ∧ host.hookTls.tls.hookInstalled = true := by
  unfold SharedHost.hookTls
  cases installed : host.tls.hookInstalled with
  | true => exact ⟨composed, rfl, installed⟩
  | false =>
    have unbuilt : host.constructed = false := by
      by_contra built
      have both := kept (by simpa using built)
      rw [installed] at both
      cases both
    refine ⟨⟨composed.steady, ?_, composed.unbuilt, fun _ _ => rfl⟩, rfl, rfl⟩
    simp [setOnFinish, unbuilt]

/-- A fiber with storage keeps the invariant. -/
theorem Composed.spawned (composed : host.Composed) (installed : host.tls.hookInstalled = true)
    {stackTopReserve : Nat} {region : Option Nat} {krnl : XboxKrnl}
    (stepped : host.krnl.step (.spawn stackTopReserve region) = some krnl) {tls : FiberTls}
    (hookInstalled : tls.hookInstalled = true) : ({ host with krnl, tls } : SharedHost).Composed := by
  have hooks := composed.hooks
  rw [installed] at hooks
  refine ⟨(composed.steady.step stepped).2, ?_, fun unbuilt => ?_, fun _ _ => hookInstalled⟩
  · rw [hookInstalled]
    exact hooks
  · exact (composed.unbuilt unbuilt).step (by simp) stepped

/-- Spawning a fiber with storage is a spawn, for the kernel. -/
theorem Composed.spawnWithTls (composed : host.Composed) {region : Option Nat}
    (kept : host.HooksEarly (.spawnWithTls region)) (active : host.krnl.active = true)
    (spawned : host.spawnWithTls region = some next) :
    next.Composed ∧ (next.krnl = host.krnl ∨ ∃ stackTopReserve,
      host.krnl.step (.spawn stackTopReserve region) = some next.krnl) := by
  simp only [SharedHost.spawnWithTls] at spawned
  cases init : host.tls.init with
  | none =>
    simp only [init] at spawned
    obtain rfl := Option.some.inj spawned
    exact ⟨composed, Or.inl rfl⟩
  | some payload =>
    obtain ⟨hooked, same, installed⟩ := composed.hookTls (fun built => kept built (by simp [init]))
    have stepped := spawn_step (same ▸ active) (FiberTls.reserve payload) region
    have own : host.krnl.step (.spawn (FiberTls.reserve payload) region) =
        host.hookTls.krnl.step (.spawn (FiberTls.reserve payload) region) := by rw [same]
    simp only [init] at spawned
    split at spawned
    · obtain rfl := Option.some.inj spawned
      exact ⟨hooked.spawned installed stepped installed, Or.inr ⟨_, own.trans stepped⟩⟩
    · obtain ⟨top, _, rfl⟩ := Option.map_eq_some_iff.mp spawned
      exact ⟨hooked.spawned installed stepped ((FiberTls.hookInstalled_attach _ _ _ _).trans installed),
        Or.inr ⟨_, own.trans stepped⟩⟩

/-- Every action keeps the invariant; all but those of the machine finish no fiber. -/
theorem Composed.perform (composed : host.Composed) {action : HostAction} (kept : host.KeepsObservers action)
    (performed : host.perform action = some next) :
    next.Composed ∧ ((∃ own, action = .act own ∧ host.act own = some next) ∨
      next.krnl = host.krnl ∨ ∃ stackTopReserve region,
        host.krnl.step (.spawn stackTopReserve region) = some next.krnl) := by
  cases action with
  | construct =>
    simp only [SharedHost.perform] at performed
    split at performed
    · rename_i fresh
      obtain rfl := Option.some.inj performed
      simp only [Bool.and_eq_true, Bool.not_eq_true'] at fresh
      refine ⟨⟨composed.steady, ?_, (by simp [addFinishHook]), composed.stored⟩, Or.inr (Or.inl rfl)⟩
      have hooks := composed.hooks
      simp only [fresh.2, Bool.false_eq_true, ↓reduceIte, List.append_nil] at hooks
      simp [addFinishHook, hooks]
    · cases performed
  | setInit init =>
    simp only [SharedHost.perform] at performed
    split at performed
    · obtain rfl := Option.some.inj performed
      refine ⟨?_, Or.inr (Or.inl rfl)⟩
      unfold FiberTls.setInit
      split <;> exact ⟨composed.steady, composed.hooks, composed.unbuilt, composed.stored⟩
    · cases performed
  | spawnWithTls region =>
    simp only [SharedHost.perform] at performed
    split at performed
    · rename_i active
      obtain ⟨still, same | ⟨stackTopReserve, spawned⟩⟩ := composed.spawnWithTls kept.2.2 active performed
      · exact ⟨still, Or.inr (Or.inl same)⟩
      · exact ⟨still, Or.inr (Or.inr ⟨stackTopReserve, region, spawned⟩)⟩
    · cases performed
  | act action => exact ⟨composed.act kept.1 performed, Or.inl ⟨action, rfl, performed⟩⟩

/-- Nothing is lost when the words of the kernel are narrowed. -/
theorem Composed.step (composed : host.Composed) {action : HostAction} (kept : host.KeepsObservers action)
    (stepped : host.step action = some next) : host.perform action = some next := by
  obtain ⟨whole, performed, stored⟩ := Option.bind_eq_some_iff.mp stepped
  obtain ⟨still, cases⟩ := composed.perform kept performed
  have advances : host.krnl.Advances whole.krnl := by
    rcases cases with ⟨own, rfl, acted⟩ | same | ⟨stackTopReserve, region, spawned⟩
    · exact composed.steady.step_advances (composed.machine kept.1 acted).1
    · rw [same]
      exact ⟨Nat.le_succ _, Nat.le_add_right _ _⟩
    · exact composed.steady.step_advances spawned
  have fits : whole.krnl.Fits :=
    ⟨advances.1.trans kept.1.handles, Nat.lt_of_le_of_lt advances.2 kept.1.identifiers⟩
  split at stored
  · cases stored
  · have narrowed : whole.onKrnl XboxKrnl.inWords = whole := by
      rw [onKrnl, still.steady.ok.inWords_eq fits]
    rw [performed, ← stored, narrowed]

/-- Both observers have seen the end of the fiber. -/
structure Observed (host next : SharedHost) (fiber : Fiber) : Prop where
  kernel : host.krnl.LeavesBehind next.krnl fiber
  detached : host.tls.hasTls fiber.handle = true →
    next.tls.events = host.tls.events ++ [{ fiber := fiber.handle, callback := 0, reason := kReasonThreadDetach }]

/-- Under the invariant both observers see the end of a fiber.

Proof: an action is one of the kernel's machine, in which the fiber that ends leaves its mutants and
wakes who waits. The history counts the ends, and the storage has noted down each of them. -/
theorem Composed.observed (composed : host.Composed) {action : HostAction} (kept : host.KeepsObservers action)
    (performed : host.perform action = some next) {fiber : Fiber}
    (finishes : host.krnl.Finishes next.krnl fiber) : host.Observed next fiber := by
  have unfinished : ¬ Path XboxKrnl.aliveLabels host.krnl next.krnl := by
    intro path
    obtain ⟨member, state, fresh⟩ := finishes
    obtain ⟨earlier, before, wasFinished, handle⟩ :=
      XboxKrnl.Path.finished_before path composed.steady.ok (by simp [XboxKrnl.aliveLabels]) fiber member state
    exact absurd wasFinished (fresh earlier before handle)
  rcases (composed.perform kept performed).2 with ⟨own, rfl, acted⟩ | same | ⟨stackTopReserve, region, spawned⟩
  · obtain ⟨done, tracks⟩ := composed.machine kept.1 acted
    refine ⟨composed.steady.step_leaves done finishes, fun stored => ?_⟩
    rcases composed.steady.step_ends done with path | ⟨ender, finished, code, exits⟩
    · exact absurd path unfinished
    · obtain ⟨ended, endings, tls⟩ := tracks.ended
      rw [exits.endings composed.steady.ok finishes] at endings
      have single : ended ++ host.krnl.endings = [fiber.handle] ++ host.krnl.endings := endings.symm
      obtain rfl := List.append_cancel_right single
      rw [tls]
      simp only [List.foldr_cons, List.foldr_nil, FiberTls.finished, composed.stored fiber.handle stored]
      rfl
  · exact absurd (same ▸ .refl) unfinished
  · exact absurd ((composed.steady.step spawned).1.mono (by simp [XboxKrnl.actionLabels, XboxKrnl.aliveLabels]))
      unfinished

/-- An action meets the conditions under which a thread that ends wakes all its joiners and
stops its object in the handle table. -/
def TellsAll (host : SharedHost) : HostAction → Prop
  | .act action =>
    host.krnl.JoinersWoken action ∧ host.krnl.TerminatesUnidentified action
  | _ => True

instance (host : SharedHost) : ∀ action, Decidable (host.TellsAll action)
  | .act _ => inferInstanceAs (Decidable (_ ∧ _))
  | .construct => inferInstanceAs (Decidable True)
  | .setInit _ => inferInstanceAs (Decidable True)
  | .spawnWithTls _ => inferInstanceAs (Decidable True)

/-- No thread object of the fiber is left running, and no fiber that waits for a stopped thread
is left blocked. -/
def AllTold (krnl : XboxKrnl) (fiber : Fiber) : Prop :=
  (∀ ptr, krnl.TabledThread fiber.handle ptr → (krnl.object ptr).thread.running = false) ∧ krnl.JoinersReleased

/-- The invariant behind it. -/
structure Told (host : SharedHost) : Prop where
  composed : host.Composed
  joins : host.krnl.JoinsOk
  stopped : host.krnl.Stopped

/-- An action that meets both conditions keeps what is told to all. -/
theorem Told.step (told : host.Told) {action : HostAction} (kept : host.KeepsObservers action)
    (tells : host.TellsAll action) (performed : host.perform action = some next) : next.Told := by
  obtain ⟨composed, joins, stopped⟩ := told
  have steady := composed.steady
  obtain ⟨still, ⟨own, rfl, acted⟩ | same | ⟨stackTopReserve, region, spawned⟩⟩ := composed.perform kept performed
  · have done := (composed.machine kept.1 acted).1
    exact ⟨still, joins.step steady tells.1 done, stopped.step steady tells.2 done⟩
  · exact ⟨still, same ▸ joins, same ▸ stopped⟩
  · have woken : host.krnl.JoinersWoken (.spawn stackTopReserve region) := fun ending named => by
      simp [XboxKrnl.finishing?] at named
    exact ⟨still, joins.step steady woken spawned, stopped.step steady (fun other => by cases other) spawned⟩

/-- At first there is nobody to be told. -/
theorem initial_told (ram : XbeRam) (addresses : Nat → Nat) (threadRunner : Bool) (kernelDataVa : Nat) :
    (initial ram addresses threadRunner kernelDataVa).Told := by
  have threadless : (initial ram addresses threadRunner kernelDataVa).krnl.Threadless := ⟨rfl, rfl⟩
  refine ⟨⟨XboxKrnl.initial_steady ram addresses threadRunner kernelDataVa, rfl, fun _ => ⟨threadless, ?_⟩, ?_⟩,
    XboxKrnl.initial_joinsOk ram addresses threadRunner kernelDataVa, ?_⟩
  · intro fiber member
    cases member
  · intro fiber stored
    cases stored
  · intro fiber member
    cases member

/-- In a run whose handles and identifiers fit, whose calls find their callers and in which the
storage never sets its hook after the kernel has registered its own, both observers see every end
of a fiber. When in addition all joiners are within reach of the wake-ups and no identified thread
terminates itself, no thread object of the fiber and no joiner is left out.

Proof: `Composed` is the invariant. Under it an action is one of the kernel's machine, so what
the end of a fiber leaves behind is known from there, and the storage's records are counted by
the ends in the history. -/
theorem observers_compose {actions : List HostAction} (reached : host.ReachesUnder KeepsObservers actions)
    {action : HostAction} (kept : host.KeepsObservers action) (stepped : host.step action = some next)
    {fiber : Fiber} (finishes : host.krnl.Finishes next.krnl fiber) :
    host.Observed next fiber ∧
      (host.ReachesUnder (fun host action => host.KeepsObservers action ∧ host.TellsAll action) actions →
        host.TellsAll action → AllTold next.krnl fiber) := by
  refine ⟨?_, fun tellsReached tells => ?_⟩
  · obtain ⟨ram, addresses, threadRunner, kernelDataVa, completed, allowed⟩ := reached
    have composed : host.Composed := Runs.run_invariant
      (fun before action next holds met stepped =>
        (Composed.perform holds met (Composed.step holds met stepped)).1) _ host actions
      (initial_told ram addresses threadRunner kernelDataVa).composed allowed completed
    exact composed.observed kept (composed.step kept stepped) finishes
  · obtain ⟨ram, addresses, threadRunner, kernelDataVa, completed, allowed⟩ := tellsReached
    have told : host.Told := Runs.run_invariant
      (fun before action next holds met stepped =>
        Told.step holds met.1 met.2 (Composed.step holds.composed met.1 stepped)) _ host actions
      (initial_told ram addresses threadRunner kernelDataVa) allowed completed
    have after := told.step kept tells (told.composed.step kept stepped)
    obtain ⟨member, state, _⟩ := finishes
    exact ⟨fun ptr tabled => after.stopped fiber member state ptr tabled, after.joins.released⟩

/-- A concrete host: the first page of memory is committed. -/
def onePageHost : SharedHost := { krnl := XboxKrnl.onePage false }

/-- The host a concrete run ends with. -/
def hostAfter (actions : List HostAction) : SharedHost := (Runs.run step onePageHost actions).getD onePageHost

/-- A run that completes and meets a condition is one under it. -/
theorem reaches_hostAfter (condition : SharedHost → HostAction → Prop) (actions : List HostAction)
    (completes : (Runs.run step onePageHost actions).isSome = true)
    (allowed : Runs.Along step condition onePageHost actions) :
    (hostAfter actions).ReachesUnder condition actions := by
  obtain ⟨final, completed⟩ := Option.isSome_iff_exists.mp completes
  refine ⟨_, _, _, _, completed.trans ?_, allowed⟩
  rw [hostAfter, completed, Option.getD_some]

/-- A fiber with storage creates a mutant that it owns; the kernel is constructed after the
fiber has been spawned. -/
def storesFirst : List HostAction :=
  [.setInit {}, .spawnWithTls (some 4096), .construct, .act .run, .act .turn, .act (.call (.ntCreateMutant 16 0 1))]

/-- The kernel is constructed first. -/
def constructsFirst : List HostAction :=
  [.construct, .setInit {}, .act (.spawn 0 (some 4096)), .spawnWithTls (some 8192), .act .run, .act .turn,
    .act (.call (.ntCreateMutant 16 0 1))]

/-- Its next action is a step from there. -/
theorem step_hostAfter (before : List HostAction) (action : HostAction)
    (completes : (Runs.run step onePageHost (before ++ [action])).isSome = true) :
    (hostAfter before).step action = some (hostAfter (before ++ [action])) := by
  obtain ⟨final, completed⟩ := Option.isSome_iff_exists.mp completes
  obtain ⟨middle, first, second⟩ := (Runs.run_append _ final before [action]).mp completed
  obtain ⟨next, stepped, same⟩ := (Runs.run_cons _ _ action []).mp second
  rw [hostAfter, hostAfter, first, completed, Option.getD_some, Option.getD_some, stepped]
  exact same

/-- The end of the first fiber, which no earlier action has ended. -/
theorem finishes_hostAfter (before : List HostAction) (action : HostAction) {fiber : Fiber}
    (found : (hostAfter (before ++ [action])).krnl.sched.threads[0]? = some fiber)
    (finished : fiber.state = .finished)
    (fresh : ∀ earlier ∈ (hostAfter before).krnl.sched.threads, earlier.state ≠ .finished) :
    (hostAfter before).krnl.Finishes (hostAfter (before ++ [action])).krnl fiber :=
  ⟨List.mem_of_getElem? found, finished, fun earlier member _ => fresh earlier member⟩

/-- With the storage first, both observers see the end. -/
theorem storesFirst_observed :
    ∃ fiber, (hostAfter (storesFirst ++ [.act (.finish 0)])).krnl.sched.threads[0]? = some fiber ∧
      (hostAfter storesFirst).Observed (hostAfter (storesFirst ++ [.act (.finish 0)])) fiber ∧
        AllTold (hostAfter (storesFirst ++ [.act (.finish 0)])).krnl fiber := by
  have found : (hostAfter (storesFirst ++ [.act (.finish 0)])).krnl.sched.threads[0]?.map GuestThread.state =
      some .finished := by decide +kernel
  obtain ⟨fiber, here, finished⟩ := Option.map_eq_some_iff.mp found
  have finishes := finishes_hostAfter storesFirst (.act (.finish 0)) here finished (by decide +kernel)
  have reached := reaches_hostAfter (fun host action => host.KeepsObservers action ∧ host.TellsAll action) storesFirst
    (by decide +kernel) (by decide +kernel)
  obtain ⟨observed, told⟩ := observers_compose
    (reaches_hostAfter KeepsObservers storesFirst (by decide +kernel) (by decide +kernel))
    (show (hostAfter storesFirst).KeepsObservers (.act (.finish 0)) by decide +kernel)
    (step_hostAfter storesFirst (.act (.finish 0)) (by decide +kernel)) finishes
  exact ⟨fiber, here, observed, told reached (by decide +kernel)⟩

/-- Setting the storage's hook has removed the kernel's: the mutant of the ended fiber is never
released. -/
theorem observers_compose_fails : ¬ ∀ (host : SharedHost) actions, host.ReachesUnder (fun _ _ => True) actions →
    ∀ action next, host.step action = some next → ∀ fiber, host.krnl.Finishes next.krnl fiber →
      host.Observed next fiber := by
  intro always
  have found : (hostAfter (constructsFirst ++ [.act (.finish 0)])).krnl.sched.threads[0]?.map
      (fun fiber => (fiber.state, fiber.handle)) = some (.finished, 1) := by decide +kernel
  obtain ⟨fiber, here, same⟩ := Option.map_eq_some_iff.mp found
  obtain ⟨finished, handle⟩ := Prod.mk.inj same
  have observed := always _ _ (reaches_hostAfter (fun _ _ => True) constructsFirst (by decide +kernel)
    (Runs.along_true _ _)) _ _ (step_hostAfter constructsFirst (.act (.finish 0)) (by decide +kernel)) fiber
    (finishes_hostAfter constructsFirst (.act (.finish 0)) here finished (by decide +kernel))
  have owned : (hostAfter constructsFirst).krnl.object? 1 =
      some ((hostAfter constructsFirst).krnl.object 1) := by decide +kernel
  obtain ⟨⟨later, there, free⟩, _⟩ := observed.kernel.mutants 1 _ owned (by decide +kernel) (by decide +kernel)
    (by rw [handle]; decide +kernel)
  have kept : ((hostAfter (constructsFirst ++ [.act (.finish 0)])).krnl.object 1).mutant.owner ≠ 0 := by decide +kernel
  rw [XboxKrnl.object_eq _ _ _ there, free] at kept
  exact kept rfl

end SharedHost

end SeriesxEmu
