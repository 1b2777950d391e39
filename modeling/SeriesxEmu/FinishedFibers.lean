import SeriesxEmu.ThreadJoins

/-!
# What the end of a fiber leaves behind

A fiber that ends leaves no mutant owned: each of its mutants is free and marked as
abandoned, and the thread object that the finish hook finds is stopped. Each of these
objects calls the first fiber on every channel it has. A fiber that is first on a channel
stays the first one, or has been woken, as long as only a fiber ends; so it does not matter
in which order the objects call, or whether they share a channel.
-/

namespace SeriesxEmu

open Scheduler GuestScheduler

/-! ## The first fiber on a channel -/

/-- The position of the first fiber that is blocked on the channel. -/
def firstWaiter (threads : List Fiber) (token : Token) : Option Nat :=
  threads.findIdx? (fun fiber => fiber.BlockedOn token)

/-- The fiber at the position is ready. -/
def ReadyAt (threads : List Fiber) (index : Nat) : Prop :=
  ∃ fiber, threads[index]? = some fiber ∧ fiber.state = .ready

/-- The first waiter is blocked on the channel, and nobody before it is. -/
theorem firstWaiter_eq {threads : List Fiber} {token : Token} {index : Nat} :
    firstWaiter threads token = some index ↔
      (∃ fiber, threads[index]? = some fiber ∧ fiber.BlockedOn token) ∧
        ∀ earlier < index, ∀ fiber, threads[earlier]? = some fiber → ¬ fiber.BlockedOn token := by
  unfold firstWaiter
  rw [List.findIdx?_eq_some_iff_getElem]
  constructor
  · rintro ⟨inside, blocked, before⟩
    refine ⟨⟨_, List.getElem?_eq_getElem inside, of_decide_eq_true blocked⟩, fun earlier sooner fiber found => ?_⟩
    obtain ⟨_, rfl⟩ := List.getElem?_eq_some_iff.mp found
    simpa using before earlier sooner
  · rintro ⟨⟨fiber, found, blocked⟩, before⟩
    obtain ⟨inside, rfl⟩ := List.getElem?_eq_some_iff.mp found
    exact ⟨inside, by simpa using blocked, fun earlier sooner => by
      simpa using before earlier sooner _ (List.getElem?_eq_getElem (sooner.trans inside))⟩

/-- While no fiber blocks anew, the first fiber on a channel is the first or is woken. -/
theorem firstWaiter_kept {before after : List Fiber} {token : Token} {index : Nat}
    (first : firstWaiter before token = some index)
    (old : ∀ (position : Nat) (later : Fiber), after[position]? = some later → later.BlockedOn token →
      ∃ fiber : Fiber, before[position]? = some fiber ∧ fiber.BlockedOn token)
    (here : ∀ fiber, before[index]? = some fiber → after[index]? = some fiber ∨ ReadyAt after index) :
    firstWaiter after token = some index ∨ ReadyAt after index := by
  obtain ⟨⟨fiber, found, blocked⟩, free⟩ := firstWaiter_eq.mp first
  refine (here fiber found).imp_left (fun same => firstWaiter_eq.mpr ⟨⟨fiber, same, blocked⟩, ?_⟩)
  intro earlier sooner later there stillBlocked
  obtain ⟨other, foundBefore, wasBlocked⟩ := old earlier later there stillBlocked
  exact free earlier sooner other foundBefore wasBlocked

/-- A fiber that is ready stays so. -/
theorem ReadyAt.wakes {channel : Token → Prop} {before after : List Fiber} {index : Nat}
    (ready : ReadyAt before index) (woken : Wakes channel before after) : ReadyAt after index := by
  obtain ⟨fiber, found, state⟩ := ready
  rcases woken.each index fiber found with same | ⟨blocked, _⟩
  · exact ⟨fiber, same, state⟩
  · rw [state] at blocked
    cases blocked

/-- A wake-up leaves the first waiter where it is, or makes it ready. -/
theorem firstWaiter_wakes {channel : Token → Prop} {before after : List Fiber} {token : Token} {index : Nat}
    (first : firstWaiter before token = some index) (woken : Wakes channel before after) :
    firstWaiter after token = some index ∨ ReadyAt after index := by
  refine firstWaiter_kept first ?_ ?_
  · intro position later found blocked
    obtain ⟨earlier, there, rfl | ⟨_, _, rfl⟩⟩ := woken.origin position later found
    · exact ⟨later, there, blocked⟩
    · cases blocked.1
  · intro fiber found
    exact (woken.each index fiber found).imp_right (fun ⟨_, _, changed⟩ => ⟨fiber.wake, changed, rfl⟩)

/-- A signal reaches the first fiber on its channel. -/
theorem firstWaiter_signal {threads : List Fiber} {token : Token} {index : Nat}
    (first : firstWaiter threads token = some index) : ReadyAt (signalThreads token false threads).1 index := by
  induction threads generalizing index with
  | nil => cases first
  | cons fiber rest inductionHypothesis =>
    rw [firstWaiter, List.findIdx?_cons] at first
    by_cases blocked : fiber.BlockedOn token
    · obtain rfl : index = 0 := by simpa [blocked, eq_comm] using first
      exact ⟨fiber.wake, by simp [signalThreads, blocked], rfl⟩
    · simp only [blocked, decide_false, Bool.false_eq_true, ↓reduceIte, Option.map_eq_some_iff] at first
      obtain ⟨position, later, rfl⟩ := first
      obtain ⟨other, found, ready⟩ := inductionHypothesis later
      exact ⟨other, by simpa [signalThreads, blocked] using found, ready⟩

/-- A wake-up on its own channel makes it ready. -/
theorem firstWaiter_wakeEach {tokens : List Token} {threads : List Fiber} {token : Token} {index : Nat}
    (first : firstWaiter threads token = some index) (member : token ∈ tokens) :
    ReadyAt (wakeEach tokens threads) index := by
  induction tokens generalizing threads with
  | nil => cases member
  | cons head rest inductionHypothesis =>
    have woken := wakeEach_wakes rest (signalThreads head false threads).1
    rcases firstWaiter_wakes first (signalThreads_wakes head false threads) with still | ready
    · rcases List.mem_cons.mp member with rfl | later
      · exact (firstWaiter_signal first).wakes woken
      · exact inductionHypothesis still later
    · exact ready.wakes woken

namespace XboxKrnl

variable {krnl next : XboxKrnl} {ptr : Ptr} {object : DispatcherObject}

/-- Waking the waiters of an object reaches the first fiber on each of its channels. -/
theorem firstWaiter_wokenBy {token : Token} {index : Nat} (live : krnl.object? ptr = some object)
    (first : firstWaiter krnl.sched.threads token = some index) (member : token ∈ object.token :: object.mwWaiters) :
    ReadyAt (krnl.wokenBy ptr 1) index := by
  unfold wokenBy
  rw [krnl.object_eq _ _ live]
  rcases List.mem_cons.mp member with rfl | registered
  · exact ReadyAt.wakes (firstWaiter_signal first) (wakeEach_wakes object.mwWaiters _)
  · rcases firstWaiter_wakes first (wakeUnits_wakes object.token 1 _) with still | ready
    · exact firstWaiter_wakeEach still registered
    · exact ready.wakes (wakeEach_wakes object.mwWaiters _)

/-! ## On the way to the end of a fiber -/

/-- The mutant of a fiber that has ended. -/
def abandonedMutant : MutantPart := { signalState := 1, owner := 0, abandoned := true }

/-- The fibers that were first on a channel of the object are ready, the one that ends apart. -/
def FirstsReady (before after : List Fiber) (ender : Nat) (object : DispatcherObject) : Prop :=
  ∀ token ∈ object.token :: object.mwWaiters, ∀ index, firstWaiter before token = some index → index ≠ ender →
    ReadyAt after index

/-- What holds between the state before an action and any state on its way to the end of the
fiber at the position: an object is as it was, or it has called its first waiters. -/
structure Nears (start : XboxKrnl) (ender : Nat) (krnl : XboxKrnl) : Prop where
  registry : krnl.registry = start.registry
  firsts : ∀ token index, firstWaiter start.sched.threads token = some index → index ≠ ender →
    firstWaiter krnl.sched.threads token = some index ∨ ReadyAt krnl.sched.threads index
  objects : ∀ ptr object, start.object? ptr = some object → ∃ later, krnl.object? ptr = some later ∧
    later.shape = object.shape ∧ ((later.mutant = object.mutant ∧ later.mwWaiters = object.mwWaiters) ∨
      ((object.kind = .mutant → later.mutant = abandonedMutant) ∧
        FirstsReady start.sched.threads krnl.sched.threads ender object))

variable {start : XboxKrnl} {ender : Nat}

/-- At the start nothing has been done. -/
theorem Nears.refl (krnl : XboxKrnl) (ender : Nat) : Nears krnl ender krnl :=
  ⟨rfl, fun _ _ first _ => Or.inl first, fun _ object live => ⟨object, live, rfl, Or.inl ⟨rfl, rfl⟩⟩⟩

/-- Waking an object that is as it was reaches its first waiters. -/
theorem Nears.firstsReady (nears : Nears start ender krnl) {later : DispatcherObject}
    (there : krnl.object? ptr = some later) (shape : later.shape = object.shape)
    (kept : later.mwWaiters = object.mwWaiters) :
    FirstsReady start.sched.threads (krnl.wokenBy ptr 1) ender object := by
  intro token member index first other
  rcases nears.firsts token index first other with still | ready
  · refine firstWaiter_wokenBy there still ?_
    rw [DispatcherObject.token_of_shape shape, kept]
    exact member
  · exact ready.wakes (krnl.wokenBy_wakes ptr 1)

/-- First waiters that are ready stay so. -/
theorem FirstsReady.wakes {channel : Token → Prop} {before middle after : List Fiber}
    (ready : FirstsReady before middle ender object) (woken : Wakes channel middle after) :
    FirstsReady before after ender object :=
  fun token member index first other => (ready token member index first other).wakes woken

/-- The threads after an effect that ends a thread object or a mutant. -/
theorem ending_wakes (ok : krnl.Ok) {effect : Effect} (ending : effect.label = .ending)
    (allowed : effect.Allowed krnl) :
    ∃ channel, Wakes channel krnl.sched.threads (effect.apply krnl).sched.threads := by
  rw [(Effect.leads ok effect allowed (by simp [ending])).threads]
  obtain ⟨target, rfl | rfl | rfl⟩ := Effect.label_ending ending
  · exact ⟨fun _ => True, .refl _ _⟩
  · exact ⟨_, krnl.wokenBy_wakes target 1⟩
  · exact ⟨_, krnl.wokenBy_wakes target 1⟩

/-- An object after such an effect: as it was, or called by the effect. -/
theorem ending_object (ok : krnl.Ok) {effect : Effect} (ending : effect.label = .ending)
    (allowed : effect.Allowed krnl) (live : krnl.object? ptr = some object) :
    ∃ later, (effect.apply krnl).object? ptr = some later ∧ later.shape = object.shape ∧
      ((later.mutant = object.mutant ∧ later.mwWaiters = object.mwWaiters) ∨
        ((effect.apply krnl).sched.threads = krnl.wokenBy ptr 1 ∧
          (object.kind = .mutant → later.mutant = abandonedMutant))) := by
  rcases Effect.object_fate ok allowed live with rewritten | ⟨slot, rfl⟩
  · refine ⟨_, rewritten, effect.rewrite_shape krnl ptr object, ?_⟩
    rw [(Effect.leads ok effect allowed (by simp [ending])).threads]
    obtain ⟨target, rfl | rfl | rfl⟩ := Effect.label_ending ending
    · exact Or.inl (Effect.onlyAt_holds (fun o => o.mutant = object.mutant ∧ o.mwWaiters = object.mwWaiters)
        ⟨rfl, rfl⟩ ⟨rfl, rfl⟩)
    · by_cases same : ptr = target
      · subst same
        exact Or.inr ⟨rfl, fun _ => by simp only [Effect.rewrite, Effect.onlyAt, ↓reduceIte]; rfl⟩
      · exact Or.inl (by simp [Effect.rewrite, Effect.onlyAt_elsewhere _ _ _ same])
    · by_cases same : ptr = target
      · subst same
        refine Or.inr ⟨rfl, fun isMutant => ?_⟩
        obtain ⟨thread, again, isThread, _⟩ := allowed
        obtain rfl := Option.some.inj (live.symm.trans again)
        rw [isMutant] at isThread
        cases isThread
      · exact Or.inl (by simp [Effect.rewrite, Effect.onlyAt_elsewhere _ _ _ same])
  · cases ending

/-- An effect of ending a thread brings it nearer. -/
theorem Nears.ending (nears : Nears start ender krnl) (ok : krnl.Ok) {effect : Effect}
    (ending : effect.label = .ending) (allowed : effect.Allowed krnl) : Nears start ender (effect.apply krnl) := by
  obtain ⟨channel, woken⟩ := ending_wakes ok ending allowed
  refine ⟨?_, ?_, ?_⟩
  · refine (Effect.registry_apply ok allowed ?_).trans nears.registry
    obtain ⟨target, rfl | rfl | rfl⟩ := Effect.label_ending ending <;> rfl
  · intro token index first other
    rcases nears.firsts token index first other with still | ready
    · exact firstWaiter_wakes still woken
    · exact Or.inr (ready.wakes woken)
  · intro ptr object live
    obtain ⟨middle, there, shape, outcome⟩ := nears.objects ptr object live
    obtain ⟨later, after, sameShape, effected⟩ := ending_object ok ending allowed there
    refine ⟨later, after, sameShape.trans shape, ?_⟩
    rcases outcome with ⟨mutant, waiters⟩ | ⟨ended, ready⟩ <;> rcases effected with ⟨same, kept⟩ | ⟨threads, abandons⟩
    · exact Or.inl ⟨same.trans mutant, kept.trans waiters⟩
    · rw [threads]
      exact Or.inr ⟨fun isMutant => abandons ((DispatcherObject.kind_of_shape shape).trans isMutant),
        nears.firstsReady there shape waiters⟩
    · exact Or.inr ⟨fun isMutant => same.trans (ended isMutant), ready.wakes woken⟩
    · exact Or.inr ⟨fun isMutant => abandons ((DispatcherObject.kind_of_shape shape).trans isMutant),
        ready.wakes woken⟩

/-- So does a path of them. -/
theorem Nears.endingPath (nears : Nears start ender krnl) (ok : krnl.Ok) (path : Path [.ending] krnl next) :
    Nears start ender next :=
  path.keeps (fun _ _ ok holds labeled allowed => Nears.ending holds ok (List.mem_singleton.mp labeled) allowed)
    ok nears

/-! ## Up to the code that ends the fiber -/

/-- Storing the tick count does nothing to it. -/
theorem Nears.refreshed (krnl : XboxKrnl) (ender : Nat) : Nears krnl ender krnl.refreshData := by
  obtain ⟨ram, refreshed⟩ := krnl.refreshData_eq
  rw [refreshed]
  exact ⟨rfl, fun _ _ first _ => Or.inl first, fun _ object live => ⟨object, live, rfl, Or.inl ⟨rfl, rfl⟩⟩⟩

/-- A turn of the loop lets the first fiber on a channel wait on, or its deadline has passed. -/
theorem Nears.turn (ok : krnl.Ok) (idle : (Effect.turn).Allowed krnl)
    (switched : ((Effect.turn).apply krnl).sched.current = some ender) :
    Nears krnl ender ((Effect.turn).apply krnl) := by
  refine ⟨Effect.registry_apply ok idle rfl, fun token index first other => firstWaiter_kept first ?_ ?_, ?_⟩
  · intro position later found blocked
    obtain ⟨fiber, passed, before, passes, ⟨rfl, _⟩ | ⟨_, ready, rfl⟩⟩ := Effect.turn_origin idle found
    · obtain rfl := passes.unready (by rw [blocked.1]; simp)
      exact ⟨_, before, blocked⟩
    · have state := blocked.1
      simp only [switchedIn, ready] at state
      split at state <;> cases state
  · intro fiber found
    obtain ⟨passed, after, there, passes, ⟨rfl, _⟩ | ⟨here, _⟩⟩ := Effect.turn_fate found idle
    · rcases passes with rfl | ⟨_, rfl⟩ | ⟨_, rfl⟩
      · exact Or.inl there
      · exact Or.inr ⟨_, there, rfl⟩
      · exact Or.inr ⟨_, there, rfl⟩
    · exact absurd (Option.some.inj (here.symm.trans switched)) other
  · intro ptr object live
    exact ⟨object, live, rfl, Or.inl ⟨rfl, rfl⟩⟩

/-- The fiber that is switched in leaves its point of suspension. -/
theorem Nears.moved (nears : Nears start ender krnl) (ok : krnl.Ok) (switched : krnl.sched.current = some ender)
    {effect : Effect} (moves : effect = .enter ∨ effect = .proceed) (allowed : effect.Allowed krnl) :
    Nears start ender (effect.apply krnl) := by
  have quiet : effect.label ≠ .loop := by rcases moves with rfl | rfl <;> simp [Effect.label]
  have silent : ∀ token, ¬ effect.Signals krnl token := by rcases moves with rfl | rfl <;> exact fun _ => id
  have waits : ∀ fiber : Fiber, (effect.moves krnl fiber).state = fiber.state ∧
      (effect.moves krnl fiber).waitToken = fiber.waitToken := by
    rcases moves with rfl | rfl <;> exact fun _ => ⟨rfl, rfl⟩
  have unmoved : ∀ index fiber, index ≠ ender → krnl.sched.threads[index]? = some fiber →
      (effect.apply krnl).sched.threads[index]? = some fiber := by
    intro index fiber other found
    obtain ⟨after, there, ⟨here, _⟩ | ⟨_, rfl | ⟨_, signaled, _⟩⟩⟩ := Effect.fiber_fate ok allowed quiet found
    · exact absurd (Option.some.inj (here.symm.trans switched)) other
    · exact there
    · exact absurd signaled (silent _)
  refine ⟨?_, fun token index first other => ?_, fun ptr object live => ?_⟩
  · refine (Effect.registry_apply ok allowed ?_).trans nears.registry
    rcases moves with rfl | rfl <;> rfl
  · rcases nears.firsts token index first other with still | ⟨fiber, found, ready⟩
    · refine firstWaiter_kept still ?_ (fun fiber found => Or.inl (unmoved index fiber other found))
      intro position later found blocked
      rcases Effect.fiber_origin ok allowed quiet found with ⟨fiber, before, fate⟩ | ⟨_, spawned⟩
      · rcases fate with ⟨_, rfl⟩ | ⟨_, rfl | ⟨_, signaled, _⟩⟩
        · exact ⟨fiber, before, (waits fiber).1.symm.trans blocked.1, (waits fiber).2.symm.trans blocked.2⟩
        · exact ⟨_, before, blocked⟩
        · exact absurd signaled (silent _)
      · rcases moves with rfl | rfl <;> exact spawned.elim
    · exact Or.inr ⟨fiber, unmoved index fiber other found, ready⟩
  · obtain ⟨later, there, shape, outcome⟩ := nears.objects ptr object live
    rcases Effect.object_fate ok allowed there with rewritten | ⟨slot, rfl⟩
    · refine ⟨later, ?_, shape, outcome.imp_right (And.imp_right (fun ready => ?_))⟩
      · rcases moves with rfl | rfl <;> exact rewritten
      · intro token member index first other
        obtain ⟨fiber, found, state⟩ := ready token member index first other
        exact ⟨fiber, unmoved index fiber other found, state⟩
    · rcases moves with moved | moved <;> cases moved

/-- The object is there as it was, as far as mutants and channels go. -/
def Carries (krnl : XboxKrnl) (ptr : Ptr) (object : DispatcherObject) : Prop :=
  ∃ later, krnl.object? ptr = some later ∧ later.shape = object.shape ∧ later.mutant = object.mutant ∧
    later.mwWaiters = object.mwWaiters

/-- What a fiber does at the start of its body leaves mutants and channels alone. -/
theorem Carries.entering (carries : krnl.Carries ptr object) (ok : krnl.Ok) {effect : Effect}
    (entering : effect.label = .entering) (allowed : effect.Allowed krnl) :
    (effect.apply krnl).Carries ptr object := by
  obtain ⟨later, there, shape, mutant, waiters⟩ := carries
  rcases Effect.object_fate ok allowed there with rewritten | ⟨slot, rfl⟩
  · have kept : (effect.rewrite krnl ptr later).mutant = later.mutant ∧
        (effect.rewrite krnl ptr later).mwWaiters = later.mwWaiters := by
      cases effect with
      | adjust target change =>
        cases change with
        | missingCore =>
          exact Effect.onlyAt_holds (fun o => o.mutant = later.mutant ∧ o.mwWaiters = later.mwWaiters)
            ⟨rfl, rfl⟩ ⟨rfl, rfl⟩
        | _ => cases entering
      | acquire mode ptrs status => cases mode <;> cases entering
      | block token ticks point => exact ⟨rfl, rfl⟩
      | enter | proceed | ran => exact ⟨rfl, rfl⟩
      | _ => cases entering
    exact ⟨_, rewritten, (effect.rewrite_shape krnl ptr later).trans shape, kept.1.trans mutant,
      kept.2.trans waiters⟩
  · cases entering

/-- What the body has captured is carried to its end. -/
theorem Carries.path (carries : krnl.Carries ptr object) (ok : krnl.Ok) (path : Path [.entering] krnl next) :
    next.Carries ptr object :=
  Path.keeps (fun _ _ ok holds labeled allowed => Carries.entering holds ok (List.mem_singleton.mp labeled) allowed)
    path ok carries

/-- A fiber that begins and ends at once is near its end, too. -/
theorem Nears.begun (nears : Nears start ender krnl) (ok : krnl.Ok) (path : Path [.entering] krnl next)
    (stays : krnl.Stays next) (threads : next.sched = krnl.sched) : Nears start ender next := by
  refine ⟨stays.registry.trans nears.registry, ?_, fun ptr object live => ?_⟩
  · rw [threads]
    exact nears.firsts
  · obtain ⟨middle, there, shape, outcome⟩ := nears.objects ptr object live
    obtain ⟨later, after, sameShape, mutant, waiters⟩ := Carries.path ⟨middle, there, rfl, rfl, rfl⟩ ok path
    refine ⟨later, after, sameShape.trans shape, ?_⟩
    rw [mutant, waiters, threads]
    exact outcome

/-! ## The step that ends a fiber -/

/-- Ending a thread switches to nobody. -/
theorem Path.ending_current (path : Path [.ending] krnl next) (ok : krnl.Ok) :
    next.sched.current = krnl.sched.current := by
  have kept : ∀ (middle : XboxKrnl) (effect : Effect), middle.Ok → middle.sched.current = krnl.sched.current →
      effect.label ∈ [Label.ending] → effect.Allowed middle → (effect.apply middle).sched.current =
        krnl.sched.current := by
    intro middle effect ok same labeled allowed
    have ending := List.mem_singleton.mp labeled
    refine (Effect.leads ok effect allowed (by simp [ending])).current.trans ?_
    obtain ⟨target, rfl | rfl | rfl⟩ := Effect.label_ending ending <;> exact same
  exact Path.keeps kept path ok rfl

/-- A path without an exit finishes no fiber. -/
theorem Path.finished_before {labels : List Label} (path : Path labels krnl next) (ok : krnl.Ok)
    (stays : .exiting ∉ labels) : ∀ fiber ∈ next.sched.threads, fiber.state = .finished →
      ∃ earlier ∈ krnl.sched.threads, earlier.state = .finished ∧ earlier.handle = fiber.handle := by
  have kept : ∀ (middle : XboxKrnl) (effect : Effect), middle.Ok →
      (∀ fiber ∈ middle.sched.threads, fiber.state = .finished →
        ∃ earlier ∈ krnl.sched.threads, earlier.state = .finished ∧ earlier.handle = fiber.handle) →
      effect.label ∈ labels → effect.Allowed middle → ∀ fiber ∈ (effect.apply middle).sched.threads,
        fiber.state = .finished →
          ∃ earlier ∈ krnl.sched.threads, earlier.state = .finished ∧ earlier.handle = fiber.handle := by
    intro middle effect ok holds labeled allowed fiber member finished
    obtain ⟨before, there, wasFinished, same⟩ :=
      Effect.finished_origin ok allowed (fun exits => stays (exits ▸ labeled)) member finished
    obtain ⟨earlier, first, state, handle⟩ := holds before there wasFinished
    exact ⟨earlier, first, state, handle.trans same⟩
  exact Path.keeps kept path ok (fun fiber member finished => ⟨fiber, member, finished, rfl⟩)

/-- The exit marks the running fiber and leaves the others as they are. -/
theorem exit_threads (ok : krnl.Ok) {code : Int} (allowed : (Effect.exit code).Allowed krnl)
    (switched : krnl.sched.current = some ender) :
    (∀ index ≠ ender, ((Effect.exit code).apply krnl).sched.threads[index]? = krnl.sched.threads[index]?) ∧
      ∃ fiber, krnl.currentFiber = some fiber ∧
        ((Effect.exit code).apply krnl).sched.threads[ender]? = some (ended code fiber) := by
  have threads := (Effect.leads ok _ allowed (by simp [Effect.label])).threads
  have marked : ((Effect.exit code).apply krnl).sched.threads = krnl.sched.threads.modify ender (ended code) :=
    threads.trans (krnl.onCurrent_some switched _)
  obtain ⟨⟨fiber, running, _⟩, _⟩ := allowed
  obtain ⟨index, here, found⟩ := currentFiber_index running
  obtain rfl := Option.some.inj (here.symm.trans switched)
  rw [marked]
  exact ⟨fun index other => by simp [Ne.symm other],
    fiber, running, by simp [found]⟩

/-- The fiber at the position ends with the code; the hook runs in the state `finished`. -/
structure Exits (krnl : XboxKrnl) (ender : Nat) (finished : XboxKrnl) (code : Int) (next : XboxKrnl) : Prop where
  nears : Nears krnl ender finished
  steady : finished.Steady
  path : Path (.ending :: aliveLabels) krnl finished.finishHook
  last : Nears krnl ender finished.finishHook
  current : finished.finishHook.sched.current = some ender
  allowed : (Effect.exit code).Allowed finished.finishHook
  result : next = (Effect.exit code).apply finished.finishHook

/-- A step that ends a thread exits with everything done. -/
theorem Nears.exits (nears : Nears start ender krnl) (path : Path aliveLabels start krnl) (steady : krnl.Steady)
    (switched : krnl.sched.current = some ender) {target : Option Ptr} (ends : krnl.Ends target next) :
    ∃ finished code, start.Exits ender finished code next := by
  obtain ⟨finished, code, _, finishing, _, steadyLate, hooking, allowed, result⟩ := steady.ends_parts ends
  have late := nears.endingPath steady.ok finishing
  refine ⟨finished, code, late, steadyLate, ?_, late.endingPath steadyLate.ok hooking, ?_, allowed, result⟩
  · exact (path.mono (fun _ alive => List.mem_cons_of_mem _ alive)).trans
      (Path.mono (by simp) (finishing.trans hooking))
  · rw [Path.ending_current hooking steadyLate.ok, Path.ending_current finishing steady.ok, switched]

/-- Every action ends no thread, or the fiber that runs. -/
theorem Steady.step_ends (steady : krnl.Steady) {action : Action} (stepped : krnl.step action = some next) :
    Path aliveLabels krnl next ∨ ∃ ender finished code, krnl.Exits ender finished code next := by
  rcases steady.step_begins stepped with path | ⟨middle, target, place, begun, ends⟩ |
    ⟨effect, moves, idle, allowed, entered, runs⟩
  · exact Or.inl path
  · obtain ⟨ender, switched⟩ := Option.isSome_iff_exists.mp (begun.ok.current_isSome.mpr ends.inFiber)
    rcases place with rfl | rfl
    · exact Or.inr ⟨ender, (Nears.refl _ _).exits .refl begun switched ends⟩
    · exact Or.inr ⟨ender, (Nears.refreshed _ _).exits (refreshData_path krnl (by simp [aliveLabels])) begun
        switched ends⟩
  · have turned : Path aliveLabels krnl ((Effect.turn).apply krnl) :=
      Path.one .turn (by simp [Effect.label, aliveLabels]) idle
    have ok := turned.ok steady.ok
    have moved : Path aliveLabels ((Effect.turn).apply krnl) (effect.apply ((Effect.turn).apply krnl)) :=
      Path.one effect (by rcases moves with rfl | rfl <;> simp [Effect.label, aliveLabels]) allowed
    rcases runs with ⟨_, handle, runner, rfl⟩ | ⟨_, middle, fiber, entering, stays, threads, running, ends⟩
    · exact Or.inl ((turned.trans moved).trans (Path.one _ (by simp [Effect.label, aliveLabels]) runner))
    · obtain ⟨ender, switched, _⟩ := currentFiber_index running
      have before : ((Effect.turn).apply krnl).sched.current = some ender := by
        have quiet : effect.label ≠ .loop := by rcases moves with rfl | rfl <;> simp [Effect.label]
        have current := (Effect.leads ok effect allowed quiet).current
        rw [threads] at switched
        rcases moves with rfl | rfl <;> exact current.symm.trans switched
      have nears := ((Nears.turn steady.ok idle before).moved ok before moves allowed).begun entered.ok entering stays
        threads
      exact Or.inr ⟨ender, nears.exits ((turned.trans moved).trans (entering.mono (by simp [aliveLabels])))
        (entering.steady entered (by simp)) switched ends⟩

/-- The fiber has just ended: it has not been finished before. -/
def Finishes (krnl next : XboxKrnl) (fiber : Fiber) : Prop :=
  fiber ∈ next.sched.threads ∧ fiber.state = .finished ∧
    ∀ earlier ∈ krnl.sched.threads, earlier.handle = fiber.handle → earlier.state ≠ .finished

/-- The fibers that were first on a channel of the object are ready, the given one apart. -/
def Called (krnl next : XboxKrnl) (fiber : Fiber) (object : DispatcherObject) : Prop :=
  ∀ token ∈ object.token :: object.mwWaiters, ∀ index, firstWaiter krnl.sched.threads token = some index →
    ReadyAt next.sched.threads index ∨ next.sched.threads[index]? = some fiber

/-- What a fiber leaves behind when the finish hook of the kernel has run. -/
structure LeavesBehind (krnl next : XboxKrnl) (fiber : Fiber) : Prop where
  mutants : ∀ ptr object, krnl.object? ptr = some object → object.kind = .mutant → object.mutant.owner ≠ 0 →
    object.mutant.owner = krnl.tokenOf fiber.handle →
      (∃ later, next.object? ptr = some later ∧ later.mutant = abandonedMutant) ∧ krnl.Called next fiber object
  thread : ∀ self object, krnl.findThreadByFiber fiber.handle = some self → krnl.object? self = some object →
    (∃ later, next.object? self = some later ∧ later.thread.running = false) ∧ krnl.Called next fiber object

/-- The fiber that has just ended is the one that was running. -/
theorem Exits.fiber {finished : XboxKrnl} {code : Int} (exits : krnl.Exits ender finished code next) (ok : krnl.Ok)
    {fiber : Fiber} (finishes : krnl.Finishes next fiber) :
    next.sched.threads[ender]? = some fiber ∧ fiber.handle = finished.finishHook.currentHandle := by
  have lastOk := exits.path.ok ok
  obtain ⟨others, runner, running, here⟩ := exit_threads lastOk exits.allowed exits.current
  rw [← exits.result] at others here
  obtain ⟨member, state, fresh⟩ := finishes
  obtain ⟨index, found⟩ := List.mem_iff_getElem?.mp member
  by_cases same : index = ender
  · subst same
    obtain rfl := Option.some.inj (found.symm.trans here)
    exact ⟨here, (currentHandle_of_fiber running).symm⟩
  · rw [others index same] at found
    obtain ⟨earlier, before, wasFinished, handle⟩ :=
      Path.finished_before exits.path ok (by simp [aliveLabels]) fiber (List.mem_of_getElem? found) state
    exact absurd wasFinished (fresh earlier before handle)

/-! ## What has been left behind -/

/-- The lookup by fiber depends on the registries only. -/
theorem findThreadByFiber_congr (ok : krnl.registry.Ok) (same : next.registry = krnl.registry) {fiber : Nat}
    {self : Ptr} (found : krnl.findThreadByFiber fiber = some self) : next.findThreadByFiber fiber = some self := by
  have nextOk : next.registry.Ok := same ▸ ok
  obtain ⟨positive, identity | ⟨absent, tabled⟩, _⟩ := findThreadByFiber_live ok found
  · rw [← fiberThread?_congr same] at identity
    exact findThreadByFiber_identity nextOk identity
  · rw [← fiberThread?_congr same] at absent
    exact (findThreadByFiber_table nextOk positive absent self).mpr (tabledThread_congr same.symm tabled)

/-- The hook stops the thread object that it finds and calls its first waiters. -/
theorem Nears.finishHook (nears : Nears start ender krnl) (startOk : start.Ok) (steady : krnl.Steady) {self : Ptr}
    (found : start.findThreadByFiber krnl.currentHandle = some self) (live : start.object? self = some object) :
    krnl.finishHook.StoppedAt self ∧
      FirstsReady start.sched.threads krnl.finishHook.sched.threads ender object := by
  have again := findThreadByFiber_congr startOk.registry nears.registry found
  obtain ⟨_, _, thread, there, kind, handle⟩ := findThreadByFiber_live steady.ok.registry again
  have hooked : krnl.finishHook = krnl.finishThreadObject self := by simp [XboxKrnl.finishHook, again]
  rw [hooked]
  refine ⟨(steady.finishThreadObject there kind handle).2.2.1, ?_⟩
  obtain ⟨last, path, _, _, allowed, finished, _⟩ := steady.finishThreadObject_wakes there kind handle
  have lastNears := nears.endingPath steady.ok path
  obtain ⟨later, present, shape, outcome⟩ := lastNears.objects self object live
  have threads : (krnl.finishThreadObject self).sched.threads = last.wokenBy self 1 := by
    rw [finished]
    exact (Effect.leads (path.ok steady.ok) _ allowed (by simp [Effect.label])).threads
  rw [threads]
  rcases outcome with ⟨_, waiters⟩ | ⟨_, ready⟩
  · exact lastNears.firstsReady present shape waiters
  · exact ready.wakes (last.wokenBy_wakes self 1)

/-- A fiber that ends has left its mutants and its thread object behind. -/
theorem Exits.leaves {finished : XboxKrnl} {code : Int} (exits : krnl.Exits ender finished code next)
    (ok : krnl.Ok) {fiber : Fiber} (finishes : krnl.Finishes next fiber) : krnl.LeavesBehind next fiber := by
  obtain ⟨here, own⟩ := exits.fiber ok finishes
  obtain ⟨others, _⟩ := exit_threads (exits.path.ok ok) exits.allowed exits.current
  have objects : ∀ ptr, next.object? ptr = finished.finishHook.object? ptr := fun ptr => by
    rw [exits.result]
    simp only [Effect.apply, exits.current]
    rfl
  rw [← exits.result] at others
  have called : ∀ {object : DispatcherObject},
      FirstsReady krnl.sched.threads finished.finishHook.sched.threads ender object →
      krnl.Called next fiber object := by
    intro object ready token member index first
    by_cases same : index = ender
    · subst same
      exact Or.inr here
    · obtain ⟨other, found, state⟩ := ready token member index first same
      exact Or.inl ⟨other, (others index same).trans found, state⟩
  refine ⟨fun ptr object live kind owned owner => ?_, fun self object found live => ?_⟩
  · obtain ⟨later, there, shape, ⟨mutant, _⟩ | ⟨abandoned, ready⟩⟩ := exits.last.objects ptr object live
    · have lastKind : later.kind = .mutant := (DispatcherObject.kind_of_shape shape).trans kind
      have free := exits.allowed.2 ptr later there lastKind (by rw [mutant]; exact owned)
      rw [mutant, owner, own, tokenOf_congr exits.last.registry] at free
      exact absurd rfl free
    · exact ⟨⟨later, (objects ptr).trans there, abandoned kind⟩, called ready⟩
  · rw [own, exits.steady.finishHook.2.1.handle] at found
    obtain ⟨⟨later, there, stopped⟩, ready⟩ := exits.nears.finishHook ok exits.steady found live
    exact ⟨⟨later, (objects self).trans there, stopped⟩, called ready⟩

/-- Whenever a fiber finishes, its mutants are free and abandoned, its thread object is
stopped, and their first waiters are ready. -/
theorem Steady.step_leaves (steady : krnl.Steady) {action : Action} (stepped : krnl.step action = some next)
    {fiber : Fiber} (finishes : krnl.Finishes next fiber) : krnl.LeavesBehind next fiber := by
  rcases steady.step_ends stepped with path | ⟨ender, finished, code, exits⟩
  · obtain ⟨member, state, fresh⟩ := finishes
    obtain ⟨earlier, before, wasFinished, handle⟩ :=
      Path.finished_before path steady.ok (by simp [aliveLabels]) fiber member state
    exact absurd wasFinished (fresh earlier before handle)
  · exact exits.leaves steady.ok finishes

/-! ## The record of ended fibers -/

end XboxKrnl

/-- The fiber whose end the event is. -/
def Event.ending? : Event → Option Nat
  | .finished fiber => some fiber
  | _ => none

namespace XboxKrnl

variable {krnl next : XboxKrnl}

/-- The fibers that have ended, the latest first. -/
def endings (krnl : XboxKrnl) : List Nat := krnl.history.filterMap Event.ending?

/-- Other effects record no end. -/
theorem events_unending {effect : Effect} (stays : effect.label ≠ .exiting) :
    (effect.events krnl).filterMap Event.ending? = [] := by
  cases effect with
  | exit code => exact absurd rfl stays
  | create object =>
    simp only [Effect.events, birth]
    split <;> (try split) <;> rfl
  | resumeThread ptr =>
    simp only [Effect.events]
    split <;> rfl
  | _ => rfl

/-- Other code records none. -/
theorem Path.endings {labels : List Label} (path : Path labels krnl next) (ok : krnl.Ok) (stays : .exiting ∉ labels) :
    next.endings = krnl.endings := by
  have kept : ∀ (middle : XboxKrnl) (effect : Effect), middle.Ok → middle.endings = krnl.endings →
      effect.label ∈ labels → effect.Allowed middle → (effect.apply middle).endings = krnl.endings := by
    intro middle effect ok same labeled allowed
    rw [XboxKrnl.endings, history_apply ok allowed, List.filterMap_append,
      events_unending (fun exits => stays (exits ▸ labeled))]
    exact same
  exact Path.keeps kept path ok rfl

/-- The step that ends a fiber records this one. -/
theorem Exits.endings {ender : Nat} {finished : XboxKrnl} {code : Int}
    (exits : krnl.Exits ender finished code next) (ok : krnl.Ok) {fiber : Fiber}
    (finishes : krnl.Finishes next fiber) : next.endings = fiber.handle :: krnl.endings := by
  have before := Path.endings exits.path ok (by simp [aliveLabels])
  rw [exits.result, XboxKrnl.endings, history_apply (exits.path.ok ok) exits.allowed, (exits.fiber ok finishes).2,
    ← before]
  simp [Effect.events, exits.current, Event.ending?, XboxKrnl.endings]

end XboxKrnl

end SeriesxEmu
