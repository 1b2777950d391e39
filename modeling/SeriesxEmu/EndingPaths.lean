import SeriesxEmu.Views

/-!
# The end of a thread as a path of effects

`finish_thread_object` stops the object, abandons the mutants its identifier
owns and wakes joiners. `thread_finish` marks the fiber first and runs the hook
after that; since no wake-up looks at a fiber that is not blocked, marking the
fiber last gives the same state.
-/

namespace SeriesxEmu

open Scheduler GuestScheduler

/-! ## Marking a fiber that is not blocked -/

/-- The fiber at the position is not blocked on a channel. -/
def Unblocked (threads : List Fiber) (index : Nat) : Prop :=
  ∀ fiber, threads[index]? = some fiber → fiber.state ≠ .blockedWait

/-- A wake-up blocks nobody. -/
theorem Unblocked.wakes {threads next : List Fiber} {index : Nat} {channel : Token → Prop}
    (unblocked : Unblocked threads index) (woken : Wakes channel threads next) : Unblocked next index := by
  intro fiber found
  obtain ⟨earlier, before, same | ⟨_, _, changed⟩⟩ := woken.origin index fiber found
  · rw [same]
    exact unblocked earlier before
  · rw [changed]
    simp [GuestThread.wake]

section marks

variable (mark : Fiber → Fiber) (marked : ∀ fiber, (mark fiber).state ≠ .blockedWait)

include marked

/-- A wake-up passes over a fiber that is not blocked, marked or not. -/
theorem signalThreads_mark (token : Token) (all : Bool) (threads : List Fiber) (index : Nat)
    (unblocked : Unblocked threads index) :
    signalThreads token all (threads.modify index mark) =
      ((signalThreads token all threads).1.modify index mark, (signalThreads token all threads).2) := by
  induction threads generalizing index with
  | nil => simp [signalThreads]
  | cons fiber rest inductionHypothesis =>
    cases index with
    | zero =>
      have free : ¬ fiber.BlockedOn token := fun blocked => unblocked fiber rfl blocked.1
      have freeMarked : ¬ (mark fiber).BlockedOn token := fun blocked => marked fiber blocked.1
      simp [signalThreads, free, freeMarked]
    | succ index =>
      have tail := inductionHypothesis index (fun other found => unblocked other (by simpa using found))
      by_cases blocked : fiber.BlockedOn token
      · cases all <;> simp [signalThreads, blocked, tail]
      · simp [signalThreads, blocked, tail]

/-- So do several on one channel. -/
theorem wakeUnits_mark (token : Token) (units : Nat) (threads : List Fiber) (index : Nat)
    (unblocked : Unblocked threads index) :
    wakeUnits token units (threads.modify index mark) = (wakeUnits token units threads).modify index mark := by
  induction units generalizing threads with
  | zero => rfl
  | succ units inductionHypothesis =>
    rw [wakeUnits, wakeUnits, signalThreads_mark mark marked token false threads index unblocked]
    exact inductionHypothesis _ (unblocked.wakes (signalThreads_wakes token false threads))

/-- So do wake-ups on several channels. -/
theorem wakeEach_mark (tokens : List Token) (threads : List Fiber) (index : Nat)
    (unblocked : Unblocked threads index) :
    wakeEach tokens (threads.modify index mark) = (wakeEach tokens threads).modify index mark := by
  induction tokens generalizing threads with
  | nil => rfl
  | cons token rest inductionHypothesis =>
    have first := signalThreads_mark mark marked token false threads index unblocked
    have later := inductionHypothesis _ (unblocked.wakes (signalThreads_wakes token false threads))
    simp only [wakeEach, List.foldl_cons, first] at later ⊢
    exact later

end marks

namespace XboxKrnl

variable {krnl : XboxKrnl}

/-- The fiber has ended, as far as the scheduler and the history are concerned. -/
def marked (krnl : XboxKrnl) (index : Nat) (code : Int) (handle : Nat) : XboxKrnl :=
  { krnl with
    sched := krnl.sched.modifyThread index (ended code)
    history := .finished handle :: krnl.history }

/-- The waiters of an object are woken before or after the fiber is marked. -/
theorem wakeObject_marked (krnl : XboxKrnl) (index : Nat) (code : Int) (handle : Nat) (ptr : Ptr) (units : Nat)
    (unblocked : Unblocked krnl.sched.threads index) :
    (krnl.marked index code handle).wakeObject ptr units = (krnl.wakeObject ptr units).marked index code handle := by
  rw [wakeObject_eq, wakeObject_eq]
  have finishes : ∀ fiber : Fiber, (ended code fiber).state ≠ .blockedWait := by simp [ended]
  have single := wakeUnits_mark _ finishes (krnl.object ptr).token units krnl.sched.threads index unblocked
  have each := wakeEach_mark _ finishes (krnl.object ptr).mwWaiters _ index
    (unblocked.wakes (wakeUnits_wakes (krnl.object ptr).token units krnl.sched.threads))
  have threads : (krnl.marked index code handle).wokenBy ptr units = 
      (krnl.wokenBy ptr units).modify index (ended code) := by
    unfold wokenBy
    exact (congrArg (wakeEach (krnl.object ptr).mwWaiters) single).trans each
  simp only [threads]
  rfl

/-- The fiber stays unblocked when they are. -/
theorem wakeObject_unblocked (krnl : XboxKrnl) (index : Nat) (ptr : Ptr) (units : Nat)
    (unblocked : Unblocked krnl.sched.threads index) :
    Unblocked (krnl.wakeObject ptr units).sched.threads index := by
  rw [wakeObject_eq]
  exact unblocked.wakes (krnl.wokenBy_wakes ptr units)

/-- A mutant is abandoned before or after. -/
theorem abandon_marked (krnl : XboxKrnl) (index : Nat) (code : Int) (handle token : Nat) (ptr : Ptr)
    (unblocked : Unblocked krnl.sched.threads index) :
    (krnl.marked index code handle).abandon token ptr = (krnl.abandon token ptr).marked index code handle ∧
      Unblocked (krnl.abandon token ptr).sched.threads index := by
  have same : (krnl.marked index code handle).object ptr = krnl.object ptr := rfl
  unfold XboxKrnl.abandon
  rw [same]
  split
  · exact ⟨wakeObject_marked ((krnl.modify ptr abandonMutant).mirrorSignalState ptr) index code handle ptr 1
        unblocked, wakeObject_unblocked _ index ptr 1 unblocked⟩
  · exact ⟨rfl, unblocked⟩

/-- So are all of them.

Proof: induction on the mutants; each leaves the fiber unblocked. -/
theorem abandonAll_marked (krnl : XboxKrnl) (index : Nat) (code : Int) (handle token : Nat) (ptrs : List Ptr)
    (unblocked : Unblocked krnl.sched.threads index) :
    ptrs.foldl (XboxKrnl.abandon token) (krnl.marked index code handle) =
        (ptrs.foldl (XboxKrnl.abandon token) krnl).marked index code handle ∧
      Unblocked (ptrs.foldl (XboxKrnl.abandon token) krnl).sched.threads index := by
  induction ptrs generalizing krnl with
  | nil => exact ⟨rfl, unblocked⟩
  | cons ptr rest inductionHypothesis =>
    obtain ⟨first, next⟩ := krnl.abandon_marked index code handle token ptr unblocked
    simp only [List.foldl_cons, first]
    exact inductionHypothesis _ next

/-- So an object is finished before or after: the hook may be taken to run first. -/
theorem finishThreadObject_marked (krnl : XboxKrnl) (index : Nat) (code : Int) (handle : Nat) (ptr : Ptr)
    (unblocked : Unblocked krnl.sched.threads index) :
    (krnl.marked index code handle).finishThreadObject ptr =
      (krnl.finishThreadObject ptr).marked index code handle := by
  have stop : (krnl.marked index code handle).stopThread ptr = (krnl.stopThread ptr).marked index code handle :=
    rfl
  have lists : (krnl.marked index code handle).objects = krnl.objects ∧
      (krnl.marked index code handle).vaObjects = krnl.vaObjects := ⟨rfl, rfl⟩
  have here : (krnl.marked index code handle).object ptr = krnl.object ptr := rfl
  obtain ⟨all, next⟩ := (krnl.stopThread ptr).abandonAll_marked index code handle
    (krnl.object ptr).thread.threadId (krnl.objects.filterMap id ++ krnl.vaObjects) unblocked
  unfold XboxKrnl.finishThreadObject
  simp only [stop, lists, here, all]
  exact wakeObject_marked _ index code handle ptr 1 next

/-- The finish hook of the kernel. -/
def finishHook (krnl : XboxKrnl) : XboxKrnl :=
  match krnl.findThreadByFiber krnl.currentHandle with
  | some ptr => krnl.finishThreadObject ptr
  | none => krnl

/-- `finish_thread_object` does nothing to the scheduler but wake fibers. -/
theorem finishThreadObject_sched (krnl : XboxKrnl) (ptr : Ptr) :
    ∃ threads, (krnl.finishThreadObject ptr).sched = { krnl.sched with threads } ∧
      Wakes (fun _ => True) krnl.sched.threads threads := by
  have one : ∀ (krnl : XboxKrnl) ptr units, ∃ threads,
      (krnl.wakeObject ptr units).sched = { krnl.sched with threads } ∧
        Wakes (fun _ => True) krnl.sched.threads threads := by
    intro krnl ptr units
    rw [wakeObject_eq]
    exact ⟨_, rfl, (krnl.wokenBy_wakes ptr units).mono (fun _ _ => trivial)⟩
  have all : ∀ (ptrs : List Ptr) (token : Nat) (krnl : XboxKrnl), ∃ threads,
      (ptrs.foldl (XboxKrnl.abandon token) krnl).sched = { krnl.sched with threads } ∧
        Wakes (fun _ => True) krnl.sched.threads threads := by
    intro ptrs token
    induction ptrs with
    | nil => exact fun krnl => ⟨krnl.sched.threads, rfl, Wakes.refl _ _⟩
    | cons ptr rest inductionHypothesis =>
      intro krnl
      obtain ⟨threads, later, woken⟩ := inductionHypothesis (krnl.abandon token ptr)
      refine ⟨threads, ?_⟩
      rw [List.foldl_cons, later]
      unfold XboxKrnl.abandon at woken ⊢
      split at woken
      · rename_i owned
        rw [if_pos owned]
        obtain ⟨first, changed, wokenFirst⟩ := one ((krnl.modify ptr abandonMutant).mirrorSignalState ptr) ptr 1
        rw [changed] at woken ⊢
        exact ⟨rfl, wokenFirst.trans woken⟩
      · rename_i other
        rw [if_neg other]
        exact ⟨rfl, woken⟩
  obtain ⟨middle, abandoned, wokenFirst⟩ := all (krnl.objects.filterMap id ++ krnl.vaObjects)
    (krnl.object ptr).thread.threadId (krnl.stopThread ptr)
  obtain ⟨threads, last, wokenLast⟩ := one ((krnl.objects.filterMap id ++ krnl.vaObjects).foldl
    (XboxKrnl.abandon (krnl.object ptr).thread.threadId) (krnl.stopThread ptr)) ptr 1
  refine ⟨threads, ?_⟩
  rw [abandoned] at last wokenLast
  exact ⟨last, wokenFirst.trans wokenLast⟩

/-- Finishing an object does not change the running fiber. -/
theorem Ok.finishThreadObject_fiber (ok : krnl.Ok) (ptr : Ptr) :
    (krnl.finishThreadObject ptr).currentFiber = krnl.currentFiber := by
  obtain ⟨threads, sched, woken⟩ := krnl.finishThreadObject_sched ptr
  unfold currentFiber
  rw [sched]
  cases switched : krnl.sched.current with
  | none => rfl
  | some index =>
    obtain ⟨fiber, after, before, _⟩ := ok.current_wakes woken index switched
    simp [after, before]

/-- `thread_finish` runs the hook and ends the fiber. -/
theorem Ok.threadFinish_eq (ok : krnl.Ok) (code : Int) (inFiber : krnl.sched.current.isSome = true) :
    krnl.threadFinish code = (Effect.exit code).apply krnl.finishHook := by
  obtain ⟨index, switched⟩ := Option.isSome_iff_exists.mp inFiber
  obtain ⟨fiber, found, _, state⟩ := ok.current index switched
  have unblocked : Unblocked krnl.sched.threads index := by
    intro other again
    obtain rfl := Option.some.inj (found.symm.trans again)
    rcases state with ready | running <;> simp [*]
  have lookup : (krnl.marked index code krnl.currentHandle).findThreadByFiber krnl.currentHandle =
      krnl.findThreadByFiber krnl.currentHandle := rfl
  have start : ({ krnl with sched := krnl.sched.modifyThread index (fun thread =>
      { thread with exitCode := code, state := .finished }) } : XboxKrnl).note (.finished krnl.currentHandle) =
      krnl.marked index code krnl.currentHandle := rfl
  simp only [threadFinish, switched, start, lookup, finishHook]
  cases self : krnl.findThreadByFiber krnl.currentHandle with
  | none =>
    simp only [Effect.apply, switched]
    rfl
  | some ptr =>
    obtain ⟨threads, sched, _⟩ := krnl.finishThreadObject_sched ptr
    have current : (krnl.finishThreadObject ptr).sched.current = some index := by rw [sched]; exact switched
    have handle : (krnl.finishThreadObject ptr).currentHandle = krnl.currentHandle := by
      rw [currentHandle_eq, ok.finishThreadObject_fiber, ← currentHandle_eq]
    simp only [Effect.apply, current, handle, krnl.finishThreadObject_marked index code _ ptr unblocked]
    rfl

/-! ## The effects -/

/-- Where a token owns no mutant, abandoning all of its mutants does nothing. -/
theorem abandonAll_idle (token : Nat) (ptrs : List Ptr)
    (unowned : ∀ ptr object, krnl.object? ptr = some object → object.kind = .mutant →
      object.mutant.owner ≠ token) : ptrs.foldl (XboxKrnl.abandon token) krnl = krnl := by
  induction ptrs with
  | nil => rfl
  | cons ptr rest inductionHypothesis =>
    have idle : krnl.abandon token ptr = krnl := by
      cases live : krnl.object? ptr with
      | none => simp [XboxKrnl.abandon, XboxKrnl.object, live]
      | some object =>
        exact krnl.abandon_other token ptr object live (fun owned => unowned ptr object live owned.1 owned.2)
    rw [List.foldl_cons, idle]
    exact inductionHypothesis

/-- The later state has the same registries and the same running fiber. -/
structure Stays (krnl next : XboxKrnl) : Prop where
  registry : next.registry = krnl.registry
  fiber : next.currentFiber = krnl.currentFiber

/-- A fiber that stays keeps its handle. -/
theorem Stays.handle {next : XboxKrnl} (stays : krnl.Stays next) : next.currentHandle = krnl.currentHandle := by
  rw [currentHandle_eq, currentHandle_eq, stays.fiber]

/-- It keeps its token. -/
theorem Stays.token {next : XboxKrnl} (stays : krnl.Stays next) :
    next.tokenOf next.currentHandle = krnl.tokenOf krnl.currentHandle := by
  rw [stays.handle, tokenOf_congr stays.registry]

/-- It stays through two changes if it does through each. -/
theorem Stays.trans {next last : XboxKrnl} (first : krnl.Stays next) (second : next.Stays last) :
    krnl.Stays last :=
  ⟨second.registry.trans first.registry, second.fiber.trans first.fiber⟩

/-- Objects stay with it. -/
theorem Stays.live {next : XboxKrnl} (stays : krnl.Stays next) {ptr : Ptr} {object : DispatcherObject}
    (live : krnl.object? ptr = some object) :
    ∃ later, next.object? ptr = some later ∧ later.shape = object.shape := by
  have shapes : next.registry.shapes ptr = some object.shape := by
    rw [stays.registry]
    exact krnl.shapes_eq _ _ live
  exact next.of_shapes _ _ shapes

/-- An effect that changes one object and wakes its waiters. -/
theorem Ok.stays_updated (ok : krnl.Ok) (ptr : Ptr) (change : DispatcherObject → DispatcherObject)
    (shape : ∀ object, (change object).shape = object.shape) {channel : Token → Prop} {threads : List Fiber}
    (woken : Wakes channel krnl.sched.threads threads) (ram : XbeRam) (history : List Event) :
    krnl.Stays (krnl.updated ptr change threads ram history) := by
  refine ⟨krnl.registry_updated ptr change threads ram history (fun object _ => shape object), ?_⟩
  unfold currentFiber
  cases switched : krnl.sched.current with
  | none => simp [updated, switched]
  | some index =>
    obtain ⟨fiber, after, before, _⟩ := ok.current_wakes woken index switched
    simp [updated, switched, after, before]

/-- The mutants of the running fiber are abandoned one after the other. -/
theorem Steady.abandonAll (steady : krnl.Steady) (token : Nat) (positive : token ≠ 0)
    (self : token = krnl.tokenOf krnl.currentHandle) (ptrs : List Ptr) :
    Path [.ending] krnl (ptrs.foldl (XboxKrnl.abandon token) krnl) ∧
      krnl.Stays (ptrs.foldl (XboxKrnl.abandon token) krnl) ∧
      ∀ ptr object, (ptrs.foldl (XboxKrnl.abandon token) krnl).object? ptr = some object →
        object.kind = .mutant → object.mutant.owner = token →
          ptr ∉ ptrs ∧ krnl.object? ptr = some object := by
  induction ptrs generalizing krnl with
  | nil => exact ⟨.refl, ⟨rfl, rfl⟩, fun ptr object live _ _ => ⟨by simp, live⟩⟩
  | cons ptr rest inductionHypothesis =>
    rw [List.foldl_cons]
    by_cases owned : (krnl.object ptr).kind = .mutant ∧ (krnl.object ptr).mutant.owner = token
    · obtain ⟨object, live⟩ : ∃ object, krnl.object? ptr = some object := by
        cases live : krnl.object? ptr with
        | none => simp [XboxKrnl.object, live] at owned
        | some object => exact ⟨object, rfl⟩
      rw [krnl.object_eq _ _ live] at owned
      have allowed : (Effect.abandon ptr).Allowed krnl :=
        ⟨object, live, owned.1, owned.2.trans self, by rw [owned.2]; exact positive⟩
      have applied : (Effect.abandon ptr).apply krnl = krnl.abandon token ptr := by rw [self]; rfl
      have next := Effect.steady steady allowed (by simp [Effect.label])
      obtain ⟨ram, abandoned⟩ := krnl.abandon_owned token ptr object live owned.1 owned.2
      have stays : krnl.Stays (krnl.abandon token ptr) := by
        rw [abandoned]
        exact steady.ok.stays_updated ptr (fun o => clearWaiters (abandonMutant o)) (fun _ => rfl)
          (krnl.wokenBy_wakes ptr 1) ram krnl.history
      have path : Path [.ending] krnl _ := Path.one (Effect.abandon ptr) (by simp [Effect.label]) allowed
      rw [applied] at next path
      obtain ⟨later, kept, cleared⟩ := inductionHypothesis next (self.trans stays.token.symm)
      refine ⟨path.trans later, stays.trans kept, fun other found live' kind owner => ?_⟩
      obtain ⟨outside, before⟩ := cleared other found live' kind owner
      rw [abandoned, object?_updated] at before
      split at before
      · obtain ⟨_, _, rfl⟩ := Option.map_eq_some_iff.mp before
        exact absurd owner.symm positive
      · rename_i different
        exact ⟨by simp [different, outside], before⟩
    · have idle : krnl.abandon token ptr = krnl := by simp [XboxKrnl.abandon, owned]
      rw [idle]
      obtain ⟨later, kept, cleared⟩ := inductionHypothesis steady self
      refine ⟨later, kept, fun other object live kind owner => ?_⟩
      obtain ⟨outside, before⟩ := cleared other object live kind owner
      refine ⟨fun member => ?_, before⟩
      rcases List.mem_cons.mp member with rfl | member
      · rw [krnl.object_eq _ _ before] at owned
        exact owned ⟨kind, owner⟩
      · exact outside member

/-- An identifier that owns a mutant is the identifier of an identity. -/
theorem Ok.owner_self (ok : krnl.Ok) {ptr self : Ptr} {object thread : DispatcherObject}
    (live : krnl.object? ptr = some object) (kind : object.kind = .mutant)
    (here : krnl.object? self = some thread) (isThread : thread.kind = .thread)
    (owner : object.mutant.owner = thread.thread.threadId) :
    thread.thread.threadId = krnl.tokenOf thread.thread.schedHandle := by
  have positive := (ok.registry.threadIds self _ (krnl.shapes_eq _ _ here) isThread).1
  have owned : object.mutant.owner ≠ 0 := by
    rw [owner]
    exact Nat.pos_iff_ne_zero.mp positive
  obtain ⟨fiber, token⟩ := ok.owners ptr object live kind owned
  obtain ⟨identity, found⟩ := (ok.tokenOf_ne_zero fiber).mp (by rw [token]; exact owned)
  obtain ⟨_, other, there, otherThread, handle⟩ := live_of_identity ok.registry found
  have tokenEq := krnl.tokenOf_some _ _ _ found there
  have same := ok.registry.idsDistinct self identity _ _ (krnl.shapes_eq _ _ here)
    (krnl.shapes_eq _ _ there) isThread otherThread (owner.symm.trans (token.symm.trans tokenEq))
  subst same
  obtain rfl := Option.some.inj (here.symm.trans there)
  rw [handle, tokenEq]

/-- The thread object is there and stopped. -/
def StoppedAt (krnl : XboxKrnl) (ptr : Ptr) : Prop :=
  ∃ object, krnl.object? ptr = some object ∧ object.thread.running = false

/-- A stopped thread object stays stopped while a fiber ends. -/
theorem StoppedAt.path {next : XboxKrnl} {ptr : Ptr} (stopped : krnl.StoppedAt ptr)
    (path : Path [.ending] krnl next) (ok : krnl.Ok) : next.StoppedAt ptr := by
  have kept : ∀ (krnl : XboxKrnl) (effect : Effect), krnl.Ok → krnl.StoppedAt ptr → effect.label ∈ [Label.ending] →
      effect.Allowed krnl → (effect.apply krnl).StoppedAt ptr := by
    rintro krnl effect ok ⟨object, live, off⟩ labeled allowed
    rcases Effect.object_fate ok allowed live with later | ⟨slot, rfl⟩
    · exact ⟨_, later, effect.rewrite_stopped krnl ptr off⟩
    · simp [Effect.label] at labeled
  exact Path.keeps kept path ok stopped

/-- `finish_thread_object` on a thread object of the running fiber: the object is stopped,
the mutants are abandoned, and last of all one joiner is woken.

Proof: the path is a stop, then one abandonment for each mutant of the identifier, then the wake. If
the identifier is not the caller's own token, no mutant has it, since an owner is a live fiber's own
token, and the middle part is empty. -/
theorem Steady.finishThreadObject_wakes (steady : krnl.Steady) {ptr : Ptr} {object : DispatcherObject}
    (live : krnl.object? ptr = some object) (kind : object.kind = .thread)
    (handle : object.thread.schedHandle = krnl.currentHandle) :
    ∃ last, Path [.ending] krnl last ∧ krnl.Stays last ∧ last.StoppedAt ptr ∧
      (Effect.wakeJoiner ptr).Allowed last ∧ krnl.finishThreadObject ptr = (Effect.wakeJoiner ptr).apply last ∧
      ∀ other mutant, last.object? other = some mutant → mutant.kind = .mutant →
        mutant.mutant.owner ≠ object.thread.threadId := by
  have here := krnl.object_eq _ _ live
  have stopAllowed : (Effect.adjust ptr .stop).Allowed krnl := ⟨object, live, kind, handle⟩
  have stopPath : Path [.ending] krnl _ := Path.one (Effect.adjust ptr .stop) (by simp [Effect.label]) stopAllowed
  have stopped := Effect.steady steady stopAllowed (by simp [Effect.label])
  have stopStays : krnl.Stays (krnl.stopThread ptr) :=
    ⟨krnl.registry_modify ptr _ (fun _ _ => rfl), rfl⟩
  have positive : object.thread.threadId ≠ 0 :=
    Nat.pos_iff_ne_zero.mp (steady.ok.registry.threadIds ptr _ (krnl.shapes_eq _ _ live) kind).1
  -- Either the identifier is the caller's token, or it owns nothing.
  have middle : Path [.ending] (krnl.stopThread ptr) ((krnl.objects.filterMap id ++ krnl.vaObjects).foldl
        (XboxKrnl.abandon object.thread.threadId) (krnl.stopThread ptr)) ∧
      (krnl.stopThread ptr).Stays ((krnl.objects.filterMap id ++ krnl.vaObjects).foldl
        (XboxKrnl.abandon object.thread.threadId) (krnl.stopThread ptr)) ∧
      ∀ other mutant, ((krnl.objects.filterMap id ++ krnl.vaObjects).foldl
          (XboxKrnl.abandon object.thread.threadId) (krnl.stopThread ptr)).object? other = some mutant →
        mutant.kind = .mutant → mutant.mutant.owner ≠ object.thread.threadId := by
    by_cases self : object.thread.threadId = krnl.tokenOf krnl.currentHandle
    · obtain ⟨path, stays, cleared⟩ := stopped.abandonAll object.thread.threadId positive
        (self.trans stopStays.token.symm) (krnl.objects.filterMap id ++ krnl.vaObjects)
      refine ⟨path, stays, fun other mutant found isMutant owner => ?_⟩
      obtain ⟨outside, before⟩ := cleared other mutant found isMutant owner
      have shapes := XboxKrnl.shapes_eq _ _ _ before
      rw [show ((Effect.adjust ptr .stop).apply krnl).registry = krnl.registry from stopStays.registry] at shapes
      rcases steady.ok.registry.owned other _ shapes with tabled | located | ⟨fiber, identity⟩
      · exact outside (List.mem_append_left _ ((krnl.tabled_member other).mpr tabled))
      · exact outside (List.mem_append_right _ located)
      · obtain ⟨_, ⟨shape, again, isThread, _⟩, _⟩ := steady.ok.registry.identities _ _ identity
        obtain rfl := Option.some.inj (shapes.symm.trans again)
        rw [show mutant.shape.kind = mutant.kind from rfl, isMutant] at isThread
        cases isThread
    · have unowned : ∀ other mutant, (krnl.stopThread ptr).object? other = some mutant →
          mutant.kind = .mutant → mutant.mutant.owner ≠ object.thread.threadId := by
        intro other mutant found isMutant owner
        obtain ⟨thread, there, shape⟩ := stopStays.live live
        have same : thread.thread.threadId = object.thread.threadId :=
          congrArg (fun shape => shape.thread.threadId) shape
        have fiber : thread.thread.schedHandle = object.thread.schedHandle :=
          congrArg (fun shape => shape.thread.schedHandle) shape
        have token := stopped.ok.owner_self found isMutant there
          ((DispatcherObject.kind_of_shape shape).trans kind) (owner.trans same.symm)
        rw [same, fiber, handle] at token
        exact self (token.trans (tokenOf_congr stopStays.registry _))
      rw [abandonAll_idle object.thread.threadId _ unowned]
      exact ⟨.refl, ⟨rfl, rfl⟩, unowned⟩
  obtain ⟨path, stays, cleared⟩ := middle
  obtain ⟨thread, there, shape⟩ := (stopStays.trans stays).live live
  refine ⟨_, stopPath.trans path, stopStays.trans stays, ?_, ?_, ?_, cleared⟩
  · have read := krnl.object?_modify ptr ptr (Change.apply krnl .stop)
    rw [if_pos rfl, live] at read
    have off : ((Effect.adjust ptr .stop).apply krnl).StoppedAt ptr := ⟨_, read, rfl⟩
    exact off.path path stopped.ok
  · refine ⟨thread, there, (DispatcherObject.kind_of_shape shape).trans kind, ?_⟩
    rw [(stopStays.trans stays).handle, ← handle]
    exact congrArg (fun shape => shape.thread.schedHandle) shape
  · unfold XboxKrnl.finishThreadObject
    rw [here]
    rfl

/-- `finish_thread_object` on a thread object of the running fiber. -/
theorem Steady.finishThreadObject (steady : krnl.Steady) {ptr : Ptr} {object : DispatcherObject}
    (live : krnl.object? ptr = some object) (kind : object.kind = .thread)
    (handle : object.thread.schedHandle = krnl.currentHandle) :
    Path [.ending] krnl (krnl.finishThreadObject ptr) ∧ krnl.Stays (krnl.finishThreadObject ptr) ∧
      (krnl.finishThreadObject ptr).StoppedAt ptr ∧
      (object.thread.threadId = krnl.tokenOf krnl.currentHandle → ∀ other mutant,
        (krnl.finishThreadObject ptr).object? other = some mutant → mutant.kind = .mutant →
        mutant.mutant.owner ≠ krnl.tokenOf krnl.currentHandle) := by
  obtain ⟨last, path, stays, stopped, allowed, finished, cleared⟩ := steady.finishThreadObject_wakes live kind handle
  have lastOk := path.ok steady.ok
  have wakePath : Path [.ending] last _ := Path.one (Effect.wakeJoiner ptr) (by simp [Effect.label]) allowed
  rw [finished]
  refine ⟨path.trans wakePath, stays.trans ?_, stopped.path wakePath lastOk, ?_⟩
  · simp only [Effect.apply, wakeObject_eq]
    exact lastOk.stays_updated ptr clearWaiters (fun _ => rfl) (wokenBy_wakes _ ptr 1) _ _
  · intro self other mutant found isMutant
    rw [← self]
    rcases Effect.object_origin lastOk allowed found with ⟨earlier, before, same⟩ | ⟨_, born⟩
    · have kept : mutant.kind = earlier.kind ∧ mutant.mutant = earlier.mutant := by
        rw [same]
        simp only [Effect.rewrite, Effect.onlyAt]
        split <;> exact ⟨rfl, rfl⟩
      rw [kept.1] at isMutant
      rw [kept.2]
      exact cleared other earlier before isMutant
    · exact born.elim

/-- After the hook the running fiber owns no mutant. -/
theorem Steady.finishHook (steady : krnl.Steady) :
    Path [.ending] krnl krnl.finishHook ∧ krnl.Stays krnl.finishHook ∧
      ∀ ptr object, krnl.finishHook.object? ptr = some object → object.kind = .mutant →
        object.mutant.owner ≠ 0 → object.mutant.owner ≠ krnl.tokenOf krnl.currentHandle := by
  unfold XboxKrnl.finishHook
  cases self : krnl.findThreadByFiber krnl.currentHandle with
  | none =>
    refine ⟨.refl, ⟨rfl, rfl⟩, fun ptr object _ _ owned token => ?_⟩
    rw [token] at owned
    obtain ⟨identity, found⟩ := (steady.ok.tokenOf_ne_zero _).mp owned
    rw [findThreadByFiber_identity steady.ok.registry found] at self
    cases self
  | some ptr =>
    obtain ⟨_, place, object, live, kind, handle⟩ := findThreadByFiber_live steady.ok.registry self
    obtain ⟨path, stays, _, cleared⟩ := steady.finishThreadObject live kind handle
    refine ⟨path, stays, fun other mutant found isMutant owned => ?_⟩
    rcases place with identity | ⟨absent, _⟩
    · exact cleared (krnl.tokenOf_some _ _ _ identity live).symm other mutant found isMutant
    · rw [krnl.tokenOf_none _ absent]
      exact owned

/-- `thread_finish` is the hook followed by the end of the fiber. -/
theorem Steady.threadFinish (steady : krnl.Steady) (code : Int) (inFiber : krnl.currentHandle ≠ 0) :
    Path [.ending] krnl krnl.finishHook ∧ (Effect.exit code).Allowed krnl.finishHook ∧
      krnl.threadFinish code = (Effect.exit code).apply krnl.finishHook := by
  obtain ⟨path, stays, cleared⟩ := steady.finishHook
  refine ⟨path, ⟨?_, ?_⟩, steady.ok.threadFinish_eq code (steady.ok.current_isSome.mpr inFiber)⟩
  · rw [stays.fiber]
    exact steady.fiber inFiber
  · rw [stays.token]
    exact cleared

/-- How a fiber ends: its thread object, if it has one at hand, is finished, and then
`thread_finish` runs the hook and marks the fiber. -/
structure Ends (krnl : XboxKrnl) (target : Option Ptr) (next : XboxKrnl) : Prop where
  inFiber : krnl.currentHandle ≠ 0
  own : ∀ ptr, target = some ptr → ∃ object, krnl.object? ptr = some object ∧ object.kind = .thread ∧
    object.thread.schedHandle = krnl.currentHandle
  result : ∃ code, next = ((target.map krnl.finishThreadObject).getD krnl).threadFinish code

/-- The end of a fiber as a path of effects, the last of which is the exit. -/
theorem Steady.ends (steady : krnl.Steady) {target : Option Ptr} {next : XboxKrnl}
    (ends : krnl.Ends target next) :
    ∃ last code, Path [.ending] krnl last ∧ krnl.Stays last ∧ (Effect.exit code).Allowed last ∧
      (∀ ptr, target = some ptr → (last.object ptr).thread.running = false) ∧
      next = (Effect.exit code).apply last := by
  obtain ⟨inFiber, found, code, result⟩ := ends
  obtain ⟨path, stays, stopped⟩ : Path [.ending] krnl ((target.map krnl.finishThreadObject).getD krnl) ∧
      krnl.Stays ((target.map krnl.finishThreadObject).getD krnl) ∧
      ∀ ptr, target = some ptr → ((target.map krnl.finishThreadObject).getD krnl).StoppedAt ptr := by
    cases target with
    | none => exact ⟨.refl, ⟨rfl, rfl⟩, fun ptr same => by cases same⟩
    | some ptr =>
      obtain ⟨object, live, kind, handle⟩ := found ptr rfl
      obtain ⟨path, stays, stopped, _⟩ := steady.finishThreadObject live kind handle
      refine ⟨path, stays, fun other same => ?_⟩
      obtain rfl := Option.some.inj same
      exact stopped
  have next := path.steady steady (by simp)
  obtain ⟨later, allowed, same⟩ := next.threadFinish code (by rw [stays.handle]; exact inFiber)
  refine ⟨_, code, path.trans later, stays.trans next.finishHook.2.1, allowed, fun ptr isTarget => ?_,
    result.trans same⟩
  obtain ⟨object, live, off⟩ := (stopped ptr isTarget).path later next.ok
  rw [object_eq _ _ _ live]
  exact off

/-- The end of a thread is a path.

Proof: its object is stopped, its waiters are woken, its mutants are abandoned one by one, and then
the fiber leaves. -/
theorem Steady.ends_path (steady : krnl.Steady) {target : Option Ptr} {next : XboxKrnl}
    (ends : krnl.Ends target next) : Path [.ending, .exiting] krnl next := by
  obtain ⟨last, code, path, _, allowed, _, rfl⟩ := steady.ends ends
  exact (path.mono (by simp)).trans (Path.one (.exit code) (by simp [Effect.label]) allowed)

/-- The end of a body finishes the thread object that the body has captured. -/
theorem Steady.finishBody (steady : krnl.Steady) {code : Int} {next : XboxKrnl}
    (ended : krnl.finishBody code = some next) :
    ∃ fiber, krnl.currentFiber = some fiber ∧ krnl.Ends fiber.ctx.body.captured next := by
  unfold XboxKrnl.finishBody at ended
  cases running : krnl.currentFiber with
  | none => simp [running] at ended
  | some fiber =>
    have inFiber := steady.ok.currentHandle_ne_zero running
    refine ⟨fiber, rfl, inFiber, ?_, ?_⟩
    · intro ptr captured
      cases body : fiber.ctx.body with
      | native => simp [body, Body.captured] at captured
      | systhread self =>
        cases self with
        | none => simp [body, Body.captured] at captured
        | some self =>
          obtain rfl : self = ptr := by simpa [body, Body.captured] using captured
          simp only [running, body] at ended
          split at ended
          · rename_i alive
            obtain ⟨object, live⟩ := Option.isSome_iff_exists.mp alive
            obtain ⟨kind, handle, _⟩ :=
              (steady.ok.running running).2.1.captured self _ captured (krnl.shapes_eq _ _ live)
            exact ⟨object, live, kind, handle.trans (currentHandle_of_fiber running).symm⟩
          · cases ended
    · simp only [running] at ended
      split at ended
      · rename_i body
        exact ⟨code, by rw [body]; exact (Option.some.inj ended).symm⟩
      · rename_i body
        exact ⟨0, by rw [body]; exact (Option.some.inj ended).symm⟩
      · rename_i self body
        split at ended
        · exact ⟨0, by rw [body]; exact (Option.some.inj ended).symm⟩
        · cases ended

/-- An accepted `PsTerminateSystemThread` finishes the object that the caller's fiber
leads to. -/
theorem Steady.psTerminate_ends (steady : krnl.Steady) (exitStatus : Nat) {ptr : Ptr}
    (found : krnl.findThreadByFiber krnl.currentHandle = some ptr) :
    krnl.Ends (some ptr) (krnl.psTerminateSystemThread exitStatus).1 := by
  obtain ⟨inFiber, _, object, live, kind, handle⟩ := findThreadByFiber_live steady.ok.registry found
  refine ⟨inFiber, ?_, int32 exitStatus, by simp [XboxKrnl.psTerminateSystemThread, found]⟩
  rintro other same
  obtain rfl := Option.some.inj same
  exact ⟨object, live, kind, handle⟩

end XboxKrnl

end SeriesxEmu
