import SeriesxEmu.EffectSoundness

/-!
# Kernel code as a path of effects

A stretch of kernel code is a path of effects. Effects carry a label, and the
lemmas of the next modules say which labels the code of each kernel call and of
each resumption can use; an invariant is then carried along a path by one lemma
per label. This module has the paths themselves and the code every wait shares:
the lookup of the caller's identity and the satisfied checks, which change
nothing but the set of identities.
-/

namespace SeriesxEmu

open Scheduler GuestScheduler

/-- What an effect belongs to. -/
inductive Label where
  | waiting
  | routine
  | signal
  | acquiring
  | consume
  | lock
  | grant
  | reset
  | install
  | suspend
  | thread
  | spawning
  | close
  | resume
  | ending
  | exiting
  | entering
  | loop
deriving DecidableEq, Repr

namespace Effect

/-- What kind of change an effect makes. -/
def label : Effect → Label
  | .compute _ _ => .waiting
  | .deliver _ => .waiting
  | .identify => .waiting
  | .adjust _ .register => .waiting
  | .adjust _ .unregister => .waiting
  | .acquire .all _ _ => .grant
  | .acquire _ _ _ => .acquiring
  | .setEvent _ => .signal
  | .pulseEvent _ => .signal
  | .consume _ => .consume
  | .adjust _ (.reset _ _) => .reset
  | .adjust _ .suspend => .suspend
  | .adjust _ .missingCore => .entering
  | .adjust _ .stop => .ending
  | .suspendSelf _ _ _ => .suspend
  | .install _ => .install
  | .createThread _ _ => .thread
  | .spend _ _ => .spawning
  | .spawn _ _ => .spawning
  | .close _ _ => .close
  | .resumeThread _ => .resume
  | .abandon _ => .ending
  | .wakeJoiner _ => .ending
  | .exit _ => .exiting
  | .enter => .entering
  | .proceed => .entering
  | .ran _ => .entering
  | .enterLoop => .loop
  | .turn => .loop
  | .block _ _ .parked => .entering
  | .block _ _ (.csEnter _) => .lock
  | .leaveSection _ => .lock
  | .block _ _ _ => .waiting
  | _ => .routine

/-- One effect with one of the labels. -/
def Makes (labels : List Label) (krnl next : XboxKrnl) : Prop :=
  ∃ effect : Effect, effect.label ∈ labels ∧ effect.Allowed krnl ∧ effect.apply krnl = next

end Effect

/-- Kernel code whose effects have one of the labels. -/
abbrev Path (labels : List Label) : XboxKrnl → XboxKrnl → Prop :=
  Relation.ReflTransGen (Effect.Makes labels)

namespace Path

variable {labels : List Label} {krnl next : XboxKrnl}

/-- A single effect is a path. -/
theorem one (effect : Effect) (labeled : effect.label ∈ labels) (allowed : effect.Allowed krnl) :
    Path labels krnl (effect.apply krnl) :=
  Relation.ReflTransGen.single ⟨effect, labeled, allowed, rfl⟩

/-- A path is a path under more labels. -/
theorem mono {wider : List Label} (included : ∀ label ∈ labels, label ∈ wider)
    (path : Path labels krnl next) : Path wider krnl next :=
  Relation.ReflTransGen.mono (fun _ _ ⟨effect, labeled, rest⟩ => ⟨effect, included _ labeled, rest⟩) _ _ path

/-- A path keeps the invariant. -/
theorem ok (path : Path labels krnl next) (sound : krnl.Ok) : next.Ok := by
  induction path with
  | refl => exact sound
  | tail _ last inductionHypothesis =>
    obtain ⟨effect, _, allowed, rfl⟩ := last
    exact effect.sound inductionHypothesis allowed

/-- The rule of this development: an invariant that every effect with one of the
labels keeps is kept by the code. -/
theorem keeps {invariant : XboxKrnl → Prop}
    (kept : ∀ krnl effect, krnl.Ok → invariant krnl → Effect.label effect ∈ labels →
      effect.Allowed krnl → invariant (effect.apply krnl))
    (path : Path labels krnl next) (sound : krnl.Ok) (holds : invariant krnl) : invariant next := by
  induction path with
  | refl => exact holds
  | tail earlier last inductionHypothesis =>
    obtain ⟨effect, labeled, allowed, rfl⟩ := last
    exact kept _ effect (Path.ok earlier sound) inductionHypothesis labeled allowed

end Path

namespace XboxKrnl

variable {krnl next : XboxKrnl}

/-- A fiber that is switched in runs guest code or the kernel call it has made. -/
structure Steady (krnl : XboxKrnl) : Prop where
  ok : krnl.Ok
  guest : ∀ fiber, krnl.currentFiber = some fiber → fiber.ctx.point = .guest

/-- A steady machine inside of a fiber runs that fiber in its guest code. -/
theorem Steady.fiber (steady : krnl.Steady) (inFiber : krnl.currentHandle ≠ 0) :
    ∃ fiber, krnl.currentFiber = some fiber ∧ fiber.ctx.point = .guest := by
  obtain ⟨fiber, running, _⟩ := currentFiber_of_handle inFiber
  exact ⟨fiber, running, steady.guest fiber running⟩

/-! ## Looking up the caller's identity -/

/-- The later state differs at most in the identity of the caller, made on the way. -/
structure Learns (krnl next : XboxKrnl) : Prop where
  path : Path [.waiting] krnl next
  steady : next.Steady
  sched : next.sched = krnl.sched
  ram : next.ram = krnl.ram
  history : next.history = krnl.history
  table : next.registry.table = krnl.registry.table
  vaObjects : next.vaObjects = krnl.vaObjects
  live : ∀ ptr object, krnl.object? ptr = some object → next.object? ptr = some object
  satisfied : ∀ ptr object, krnl.object? ptr = some object →
    next.satisfiedAs krnl.currentHandle ptr = krnl.satisfiedAs krnl.currentHandle ptr

/-- Learning an identity leaves the current fiber. -/
theorem Learns.handle (learns : krnl.Learns next) : next.currentHandle = krnl.currentHandle := by
  rw [currentHandle, learns.sched, currentHandle]

/-- Learning nothing is learning. -/
theorem Learns.refl (steady : krnl.Steady) : krnl.Learns krnl :=
  ⟨.refl, steady, rfl, rfl, rfl, rfl, rfl, fun _ _ live => live, fun _ _ _ => rfl⟩

/-- Identities learned one after the other are learned. -/
theorem Learns.trans {last : XboxKrnl} (first : krnl.Learns next) (second : next.Learns last) :
    krnl.Learns last := by
  refine ⟨first.path.trans second.path, second.steady, second.sched.trans first.sched,
    second.ram.trans first.ram, second.history.trans first.history, second.table.trans first.table,
    second.vaObjects.trans first.vaObjects,
    fun ptr object live => second.live ptr object (first.live ptr object live),
    fun ptr object live => ?_⟩
  have later := second.satisfied ptr object (first.live ptr object live)
  rw [first.handle] at later
  exact later.trans (first.satisfied ptr object live)

/-- What could be waited for can be waited for still. -/
theorem Learns.waitable (learns : krnl.Learns next) {ptr : Ptr} (waitable : krnl.Waitable ptr) :
    next.Waitable ptr := by
  obtain ⟨⟨object, live⟩, place⟩ := waitable
  refine ⟨⟨object, learns.live ptr object live⟩, ?_⟩
  rw [learns.table, learns.vaObjects]
  exact place

/-- What lived lives still. -/
theorem Learns.lives (learns : krnl.Learns next) {ptr : Ptr} (live : ∃ object, krnl.object? ptr = some object) :
    ∃ object, next.object? ptr = some object := by
  obtain ⟨object, found⟩ := live
  exact ⟨object, learns.live ptr object found⟩

/-- The caller finds every object as satisfied as before. -/
theorem Learns.satisfies (learns : krnl.Learns next) {ptr : Ptr} (live : ∃ object, krnl.object? ptr = some object) :
    next.satisfiedAs next.currentHandle ptr = krnl.satisfiedAs krnl.currentHandle ptr := by
  obtain ⟨object, found⟩ := live
  rw [learns.handle]
  exact learns.satisfied ptr object found

/-- Making an identity adds one object. -/
theorem object?_identify {fiber : Nat} (absent : krnl.fiberThread? fiber = none) (ptr : Ptr) :
    (krnl.ensureThreadObject fiber).1.object? ptr =
      if ptr = krnl.heap.length then
        some { krnl.newIdentity fiber with token := .object krnl.freshAddress }
      else krnl.object? ptr := by
  rw [krnl.ensureThreadObject_new fiber absent]
  exact krnl.object?_allocate (krnl.newIdentity fiber) ptr

/-- A new identity keeps the objects that live. -/
theorem object?_identify_live {fiber : Nat} (absent : krnl.fiberThread? fiber = none) (ptr : Ptr)
    (object : DispatcherObject) (live : krnl.object? ptr = some object) :
    (krnl.ensureThreadObject fiber).1.object? ptr = some object := by
  have different : ptr ≠ krnl.heap.length := Nat.ne_of_lt (krnl.object?_inside ptr object live)
  rw [object?_identify absent, if_neg different, live]

/-- The token of the new identity is the next thread id. -/
theorem tokenOf_identify {fiber : Nat} (absent : krnl.fiberThread? fiber = none)
    (nextOk : (krnl.ensureThreadObject fiber).1.Ok) :
    (krnl.ensureThreadObject fiber).1.tokenOf fiber = krnl.nextThreadId := by
  have entry : (fiber, krnl.heap.length) ∈ (krnl.ensureThreadObject fiber).1.registry.fiberThreads := by
    rw [krnl.registry_identify _ absent]
    simp
  have here := object?_identify absent krnl.heap.length
  rw [if_pos rfl] at here
  rw [tokenOf_some _ _ _ _ (fiberThread?_of_member nextOk.registry entry) here]
  rfl

/-- No mutant is owned by a token that has not been given out. -/
theorem Ok.owner_below (ok : krnl.Ok) {ptr : Ptr} {object : DispatcherObject}
    (live : krnl.object? ptr = some object) (kind : object.kind = .mutant) :
    object.mutant.owner < krnl.nextThreadId := by
  by_cases owned : object.mutant.owner = 0
  · rw [owned]
    exact ok.registry.firstId
  · obtain ⟨fiber, token⟩ := ok.owners ptr object live kind owned
    obtain ⟨self, identity⟩ := (ok.tokenOf_ne_zero fiber).mp (by rw [token]; exact owned)
    obtain ⟨_, thread, here, isThread, _⟩ := live_of_identity ok.registry identity
    rw [← token, krnl.tokenOf_some _ _ _ identity here]
    exact (ok.registry.threadIds self _ (krnl.shapes_eq _ _ here) isThread).2

/-- Making the caller's identity teaches the caller its token and nothing else. -/
theorem Steady.identify (steady : krnl.Steady) (inFiber : krnl.currentHandle ≠ 0)
    (absent : krnl.fiberThread? krnl.currentHandle = none) :
    krnl.Learns (krnl.ensureThreadObject krnl.currentHandle).1 := by
  obtain ⟨fiber, running, guest⟩ := steady.fiber inFiber
  have nextOk := steady.ok.identify absent running guest
  have sched : (krnl.ensureThreadObject krnl.currentHandle).1.sched = krnl.sched := by
    simp [ensureThreadObject, absent, allocate]
  refine ⟨Path.one .identify (by simp [Effect.label]) ⟨inFiber, absent, fiber, running, guest⟩,
    ⟨nextOk, fun other found => steady.guest other ?_⟩, sched, ?_, ?_, ?_, ?_,
    object?_identify_live absent, ?_⟩
  · rw [currentFiber, sched] at found
    exact found
  · simp [ensureThreadObject, absent, allocate]
  · simp [ensureThreadObject, absent, allocate]
  · rw [krnl.registry_identify _ absent]
    rfl
  · simp [ensureThreadObject, absent, allocate]
  · intro ptr object live
    have later := object?_identify_live absent ptr object live
    simp only [satisfiedAs, object_eq _ _ _ later, object_eq _ _ _ live]
    split
    · rfl
    · rename_i kind
      have fresh := tokenOf_identify absent nextOk
      have below := steady.ok.owner_below live kind
      rw [fresh, krnl.tokenOf_none _ absent]
      by_cases owned : object.mutant.owner = 0
      · simp [owned]
      · have different : object.mutant.owner ≠ krnl.nextThreadId := Nat.ne_of_lt below
        rw [beq_eq_false_iff_ne.mpr different, beq_eq_false_iff_ne.mpr owned]
    · rfl
    · rfl

/-- `current_thread_token` teaches the caller its token. -/
theorem Steady.currentThreadToken (steady : krnl.Steady) :
    krnl.Learns krnl.currentThreadToken.1 ∧
      krnl.currentThreadToken.2 = krnl.currentThreadToken.1.tokenOf krnl.currentHandle ∧
      (krnl.currentHandle ≠ 0 →
        ∃ self, krnl.currentThreadToken.1.fiberThread? krnl.currentHandle = some self) := by
  cases identity : krnl.fiberThread? krnl.currentHandle with
  | some self =>
    have known := steady.ok.currentThreadToken_identified (fun _ => ⟨self, identity⟩)
    rw [known]
    exact ⟨Learns.refl steady, rfl, fun _ => ⟨self, identity⟩⟩
  | none =>
    by_cases inFiber : krnl.currentHandle = 0
    · have known := steady.ok.currentThreadToken_identified (fun isFiber => absurd inFiber isFiber)
      rw [known]
      exact ⟨Learns.refl steady, rfl, fun isFiber => absurd inFiber isFiber⟩
    · have learns := steady.identify inFiber identity
      have made : krnl.currentThreadToken = ((krnl.ensureThreadObject krnl.currentHandle).1,
          ((krnl.ensureThreadObject krnl.currentHandle).1.object
            (krnl.ensureThreadObject krnl.currentHandle).2).thread.threadId) := by
        simp [XboxKrnl.currentThreadToken, inFiber]
      have token := tokenOf_identify identity learns.steady.ok
      rw [made]
      refine ⟨learns, ?_, fun _ => ?_⟩
      · have here := object?_identify identity krnl.heap.length
        rw [if_pos rfl] at here
        have made : (krnl.ensureThreadObject krnl.currentHandle).2 = krnl.heap.length := by
          rw [krnl.ensureThreadObject_new _ identity]
        rw [token, made, object_eq _ _ _ here]
        rfl
      · have positive : (krnl.ensureThreadObject krnl.currentHandle).1.tokenOf krnl.currentHandle ≠ 0 := by
          rw [token]
          exact Nat.pos_iff_ne_zero.mp steady.ok.registry.firstId
        exact (learns.steady.ok.tokenOf_ne_zero _).mp positive

/-- `dispatcher_satisfied` decides `satisfiedAs` for the caller. -/
theorem Steady.dispatcherSatisfied (steady : krnl.Steady) {ptr : Ptr} {object : DispatcherObject}
    (live : krnl.object? ptr = some object) :
    krnl.Learns (krnl.dispatcherSatisfied ptr).1 ∧
      (krnl.dispatcherSatisfied ptr).2 = krnl.satisfiedAs krnl.currentHandle ptr := by
  have here := krnl.object_eq ptr object live
  obtain ⟨learns, token, _⟩ := steady.currentThreadToken
  cases kind : object.kind with
  | event => exact ⟨by simp [XboxKrnl.dispatcherSatisfied, here, kind, Learns.refl steady],
      by simp [XboxKrnl.dispatcherSatisfied, satisfiedAs, here, kind]⟩
  | semaphore => exact ⟨by simp [XboxKrnl.dispatcherSatisfied, here, kind, Learns.refl steady],
      by simp [XboxKrnl.dispatcherSatisfied, satisfiedAs, here, kind]⟩
  | thread => exact ⟨by simp [XboxKrnl.dispatcherSatisfied, here, kind, Learns.refl steady],
      by simp [XboxKrnl.dispatcherSatisfied, satisfiedAs, here, kind]⟩
  | mutant =>
    by_cases free : 0 < object.mutant.signalState
    · exact ⟨by simp [XboxKrnl.dispatcherSatisfied, here, kind, free, Learns.refl steady],
        by simp [XboxKrnl.dispatcherSatisfied, satisfiedAs, here, kind, free]⟩
    · by_cases owned : object.mutant.owner = 0
      · exact ⟨by simp [XboxKrnl.dispatcherSatisfied, here, kind, free, owned, Learns.refl steady],
          by simp [XboxKrnl.dispatcherSatisfied, satisfiedAs, here, kind, free, owned]⟩
      · have same := learns.satisfied ptr object live
        simp only [satisfiedAs, here, object_eq _ _ _ (learns.live ptr object live), kind, free,
          decide_false, Bool.false_or] at same
        refine ⟨by simpa [XboxKrnl.dispatcherSatisfied, here, kind, free, owned] using learns, ?_⟩
        simp only [XboxKrnl.dispatcherSatisfied, here, kind, free, ↓reduceIte, owned, ne_eq,
          not_false_eq_true, satisfiedAs, decide_false, Bool.false_or, token]
        rw [← same]
        simp [owned]

end XboxKrnl

end SeriesxEmu
