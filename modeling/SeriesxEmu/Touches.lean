import SeriesxEmu.SystemPaths

/-!
# What kernel code touches

Every kernel function is a sequence of elementary operations on the state: an object changes
together with its mirror in guest memory, an object is registered or destroyed, a result is
stored through a pointer of the guest, the scheduler moves on. An extent says which of these
operations a call may use and on what. Unlike the effects, which leave memory open, the
operations say exactly which bytes are written, so what guest code sees of an object can be
carried along a run.
-/

namespace SeriesxEmu

open Scheduler GuestScheduler

/-- The change concerns only the registered waiters and the thread part of an object. -/
def Minor (change : DispatcherObject → DispatcherObject) : Prop :=
  ∀ object, ∃ mwWaiters thread, change object = { object with mwWaiters, thread }

/-- One elementary operation of kernel code. -/
inductive Touch where
  | note (event : Event)
  | schedule (sched : GuestScheduler Token Context)
  | spend (nextThreadId : Nat)
  | identify (fiber : Nat)
  | adjust (ptr : Ptr) (change : DispatcherObject → DispatcherObject)
  | signal (ptr : Ptr) (signaled : Bool)
  | reset (ptr : Ptr) (event : EventPart)
  | take (ptr : Ptr) (token : Nat)
  | consume (ptr : Ptr)
  | put (ptr : Ptr)
  | supply (ptr : Ptr) (adjustment : Int)
  | abandon (ptr : Ptr)
  | create (object : DispatcherObject)
  | register (object : DispatcherObject)
  | close (slot : Nat) (ptr : Ptr)
  | store (addr : Nat) (bytes : List UInt8)

namespace Touch

open XboxKrnl

/-- One permit less or more. -/
def addUnits (adjustment : Int) (object : DispatcherObject) : DispatcherObject :=
  { object with semaphore := { object.semaphore with count := object.semaphore.count + adjustment } }

/-- What an operation does. -/
def apply (krnl : XboxKrnl) : Touch → XboxKrnl
  | .note event => krnl.note event
  | .schedule sched => { krnl with sched }
  | .spend nextThreadId => { krnl with nextThreadId }
  | .identify fiber => (krnl.ensureThreadObject fiber).1
  | .adjust ptr change => krnl.modify ptr change
  | .signal ptr signaled => krnl.storeSignaled ptr signaled
  | .reset ptr event => (krnl.modify ptr (fun o => { o with event })).mirrorHeader ptr
  | .take ptr token =>
    let taken := krnl.modify ptr (takeMutant token)
    if (krnl.object ptr).mutant.abandoned then taken.mirrorHeader ptr else taken.mirrorSignalState ptr
  | .consume ptr => (krnl.modify ptr (addUnits (-1))).mirrorSignalState ptr
  | .put ptr => (krnl.modify ptr putMutant).mirrorSignalState ptr
  | .supply ptr adjustment => (krnl.modify ptr (addUnits adjustment)).mirrorSignalState ptr
  | .abandon ptr => (krnl.modify ptr abandonMutant).mirrorSignalState ptr
  | .create object => ((krnl.allocate object).1.insertObject krnl.heap.length).1
  | .register object => krnl.registerObject object
  | .close slot ptr => krnl.closeSlot slot ptr
  | .store addr bytes => { krnl with ram := (krnl.ram.writeBytes addr bytes).1 }

end Touch

/-- What a piece of kernel code may touch: the objects its waits take, the mutants it
releases, the tokens whose mutants it abandons, the objects it registers at addresses, and the
ranges of guest memory it stores results in. -/
structure Extent where
  grants : List Ptr := []
  frees : List Ptr := []
  ends : List Nat := []
  registers : List (Kind × Nat) := []
  creates : Bool := false
  closes : Bool := false
  stores : List (Nat × Nat) := []

namespace Extent

open XboxKrnl

/-- The extent has room for an operation. Fields that nobody mirrors may be changed in any object,
and guest memory only where the extent lists it. -/
def Allows (extent : Extent) (krnl : XboxKrnl) : Touch → Prop
  | .adjust _ change => Minor change
  | .reset ptr _ => (krnl.object ptr).kind = .event
  | .take ptr token => ptr ∈ extent.grants ∧ (krnl.object ptr).kind = .mutant ∧
      (0 < (krnl.object ptr).mutant.signalState ∨ (krnl.object ptr).mutant.owner = token)
  | .put ptr => ptr ∈ extent.frees
  | .abandon ptr => (krnl.object ptr).mutant.owner ∈ extent.ends ∧ (krnl.object ptr).mutant.owner ≠ 0
  | .create object => extent.creates = true ∧ object.guestVa = 0
  | .register object => (object.kind, object.guestVa) ∈ extent.registers
  | .close slot ptr => extent.closes = true ∧ krnl.registry.table slot = some ptr
  | .store addr bytes => (addr, bytes.length) ∈ extent.stores
  | _ => True

end Extent

/-- Kernel code that stays within the extent. -/
abbrev Touched (extent : Extent) : XboxKrnl → XboxKrnl → Prop :=
  Relation.ReflTransGen (fun krnl next => ∃ touch : Touch, extent.Allows krnl touch ∧ touch.apply krnl = next)

namespace Touched

variable {extent : Extent} {krnl next : XboxKrnl}

/-- One operation is a run. -/
theorem one (touch : Touch) (allowed : extent.Allows krnl touch) : Touched extent krnl (touch.apply krnl) :=
  Relation.ReflTransGen.single ⟨touch, allowed, rfl⟩

/-- What every operation keeps, the code keeps. -/
theorem keeps {invariant : XboxKrnl → Prop}
    (kept : ∀ krnl touch, invariant krnl → extent.Allows krnl touch → invariant (touch.apply krnl))
    (touched : Touched extent krnl next) (holds : invariant krnl) : invariant next := by
  induction touched with
  | refl => exact holds
  | tail _ last inductionHypothesis =>
    obtain ⟨touch, allowed, rfl⟩ := last
    exact kept _ touch inductionHypothesis allowed

/-- The scheduler is never part of an extent. -/
theorem schedule (krnl : XboxKrnl) (sched : GuestScheduler Token Context) :
    Touched extent krnl { krnl with sched } :=
  one (.schedule sched) trivial

/-- What is allowed is allowed within more. -/
theorem mono {wider : Extent} (allows : ∀ state touch, extent.Allows state touch → wider.Allows state touch)
    (touched : Touched extent krnl next) : Touched wider krnl next :=
  Relation.ReflTransGen.mono (fun _ _ ⟨touch, allowed, applied⟩ => ⟨touch, allows _ touch allowed, applied⟩) _ _ touched

/-- Neither is the history. -/
theorem note (krnl : XboxKrnl) (event : Event) : Touched extent krnl (krnl.note event) := one (.note event) trivial

/-- A minor change is allowed in every extent. -/
theorem adjust (krnl : XboxKrnl) (ptr : Ptr) {change : DispatcherObject → DispatcherObject} (minor : Minor change) :
    Touched extent krnl (krnl.modify ptr change) :=
  one (.adjust ptr change) minor

/-! ## Operations of the wait core -/

/-- The waiter lists of an object are a minor part of it. -/
theorem minor_waiters (mwWaiters : DispatcherObject → List Token) :
    Minor (fun object => { object with mwWaiters := mwWaiters object }) :=
  fun object => ⟨mwWaiters object, object.thread, rfl⟩

/-- So are all the fields of a thread object. -/
theorem minor_thread (thread : DispatcherObject → ThreadPart) :
    Minor (fun object => { object with thread := thread object }) :=
  fun object => ⟨object.mwWaiters, thread object, rfl⟩

/-- Asking for the own token makes an identity at most. -/
theorem token (krnl : XboxKrnl) : Touched extent krnl krnl.currentThreadToken.1 := by
  unfold XboxKrnl.currentThreadToken
  split
  · exact .refl
  · exact one (.identify krnl.currentHandle) trivial

/-- Looking at an object does no more. -/
theorem satisfied (krnl : XboxKrnl) (ptr : Ptr) : Touched extent krnl (krnl.dispatcherSatisfied ptr).1 := by
  unfold XboxKrnl.dispatcherSatisfied
  simp only
  split
  · exact .refl
  · split
    · exact .refl
    · split
      · exact token krnl
      · exact .refl
  · exact .refl
  · exact .refl

/-- Neither does looking at all of a set.

Proof: induction on the set. -/
theorem allSatisfied (krnl : XboxKrnl) (ptrs : List Ptr) : Touched extent krnl (krnl.allSatisfied ptrs).1 := by
  induction ptrs generalizing krnl with
  | nil => exact .refl
  | cons ptr rest inductionHypothesis =>
    simp only [XboxKrnl.allSatisfied]
    split
    · exact (satisfied krnl ptr).trans (inductionHypothesis _)
    · exact satisfied krnl ptr

/-- Neither does looking for the first that is signaled. -/
theorem firstSatisfied (krnl : XboxKrnl) (ptrs : List Ptr) (index : Nat) :
    Touched extent krnl (krnl.firstSatisfied ptrs index).1 := by
  induction ptrs generalizing krnl index with
  | nil => exact .refl
  | cons ptr rest inductionHypothesis =>
    simp only [XboxKrnl.firstSatisfied]
    split
    · exact satisfied krnl ptr
    · exact (satisfied krnl ptr).trans (inductionHypothesis _ _)

/-- A fiber that blocks changes the scheduler only. -/
theorem block (krnl : XboxKrnl) (token : Token) (ticks : Nat) (point : Point) :
    Touched extent krnl (krnl.blockCurrent token ticks point) := by
  unfold XboxKrnl.blockCurrent
  split
  · exact .refl
  · exact schedule krnl _

/-- Entering a fiber into the waiter lists of its set is a minor change of each object. -/
theorem registerWaiter (token : Token) (krnl : XboxKrnl) (ptrs : List Ptr) :
    Touched extent krnl (XboxKrnl.registerWaiter token krnl ptrs) := by
  induction ptrs generalizing krnl with
  | nil => exact .refl
  | cons ptr rest inductionHypothesis =>
    simp only [XboxKrnl.registerWaiter]
    refine .trans (satisfied krnl ptr) (.trans ?_ (inductionHypothesis _))
    split
    · exact .refl
    · exact adjust _ ptr (minor_waiters _)

/-- Striking it off is one, too. -/
theorem unregisterWaiter (krnl : XboxKrnl) (token : Token) (ptrs : List Ptr) :
    Touched extent krnl (krnl.unregisterWaiter token ptrs) := by
  unfold XboxKrnl.unregisterWaiter
  induction ptrs generalizing krnl with
  | nil => exact .refl
  | cons ptr rest inductionHypothesis =>
    exact (adjust krnl ptr (minor_waiters _)).trans (inductionHypothesis _)

/-- So a multiple wait that finds nothing touches nothing of note. -/
theorem blockMultiple (krnl : XboxKrnl) (ptrs : List Ptr) (waitAll immediate : Bool) (ticks : Nat) :
    Touched extent krnl (krnl.blockMultiple ptrs waitAll immediate ticks).1 := by
  unfold XboxKrnl.blockMultiple
  split
  · exact .refl
  · split
    · exact .refl
    · exact (registerWaiter _ krnl ptrs).trans (block _ _ _ _)

/-! ## Waking -/

/-- Waking fibers, one for each unit, changes the scheduler only. -/
theorem signalUnits_sched (krnl : XboxKrnl) (token : Token) (units : Nat) :
    ∃ sched, krnl.signalUnits token units = { krnl with sched } := by
  induction units generalizing krnl with
  | zero => exact ⟨krnl.sched, rfl⟩
  | succ units inductionHypothesis =>
    unfold XboxKrnl.signalUnits
    split
    · rename_i unchanged outcome
      exact ⟨_, (congrArg Prod.fst outcome).symm⟩
    · rename_i signaled woken _ outcome
      obtain ⟨sched, same⟩ := inductionHypothesis signaled
      refine ⟨sched, ?_⟩
      rw [same, show signaled = (krnl.signal token false).1 from (congrArg Prod.fst outcome).symm]
      rfl

/-- Waking changes the scheduler and forgets the registered waiters. -/
theorem wakeObject_eq (krnl : XboxKrnl) (ptr : Ptr) (units : Nat) : ∃ sched, krnl.wakeObject ptr units =
    { krnl.modify ptr (fun o => { o with mwWaiters := [] }) with sched } := by
  obtain ⟨sched, single⟩ := signalUnits_sched krnl (krnl.object ptr).token units
  unfold XboxKrnl.wakeObject
  rw [single]
  have many : ∀ (tokens : List Token) (state : XboxKrnl), ∃ sched,
      tokens.foldl (fun krnl token => (krnl.signal token false).1) state = { state with sched } := by
    intro tokens
    induction tokens with
    | nil => exact fun state => ⟨state.sched, rfl⟩
    | cons token rest inductionHypothesis =>
      intro state
      obtain ⟨sched, same⟩ := inductionHypothesis (state.signal token false).1
      exact ⟨sched, same⟩
  obtain ⟨last, same⟩ := many (krnl.object ptr).mwWaiters
    (XboxKrnl.modify { krnl with sched } ptr (fun o => { o with mwWaiters := [] }))
  exact ⟨last, same⟩

/-- All the waiters of an object are woken so. -/
theorem wake (krnl : XboxKrnl) (ptr : Ptr) (units : Nat) : Touched extent krnl (krnl.wakeObject ptr units) := by
  obtain ⟨sched, same⟩ := wakeObject_eq krnl ptr units
  rw [same]
  exact (adjust krnl ptr (minor_waiters _)).trans (schedule _ sched)

/-- A wake-up on a channel is a change of the scheduler. -/
theorem signal (krnl : XboxKrnl) (token : Token) (all : Bool) : Touched extent krnl (krnl.signal token all).1 :=
  schedule krnl _

/-- The flag of an event is one operation, with its mirror. -/
theorem storeSignaled (krnl : XboxKrnl) (ptr : Ptr) (signaled : Bool) :
    Touched extent krnl (krnl.storeSignaled ptr signaled) :=
  one (.signal ptr signaled) trivial

/-- Setting an event sets its flag and wakes its waiters. -/
theorem setEvent (krnl : XboxKrnl) (ptr : Ptr) : Touched extent krnl (krnl.keSetEventCore ptr).1 := by
  unfold XboxKrnl.keSetEventCore
  simp only
  refine .trans ?_ (wake _ ptr 0)
  split
  · exact (storeSignaled krnl ptr true).trans (signal _ _ true)
  · exact (signal krnl _ false).trans (storeSignaled _ ptr _)

/-- A pulse sets the flag and resets it. -/
theorem pulseEvent (krnl : XboxKrnl) (ptr : Ptr) : Touched extent krnl (krnl.pulseEvent ptr) :=
  ((signal krnl _ _).trans (storeSignaled _ ptr false)).trans (wake _ ptr 0)

/-- The mirror of an object that only forgot its waiters is the same. -/
theorem writeSignalState_waiters (krnl : XboxKrnl) (ptr : Ptr) (ram : XbeRam) :
    writeSignalState ram ((krnl.modify ptr (fun o => { o with mwWaiters := [] })).object ptr) =
      writeSignalState ram (krnl.object ptr) := by
  rw [XboxKrnl.object, krnl.object?_modify, if_pos rfl, XboxKrnl.object]
  cases krnl.object? ptr <;> rfl

/-- An object that was changed and mirrored, and then woke its waiters, could as well have
been mirrored last. -/
theorem mirror_wake (krnl : XboxKrnl) (ptr : Ptr) (units : Nat) :
    Touched extent (krnl.mirrorSignalState ptr) ((krnl.wakeObject ptr units).mirrorSignalState ptr) := by
  obtain ⟨sched, same⟩ := wakeObject_eq krnl ptr units
  have woken : (krnl.wakeObject ptr units).mirrorSignalState ptr =
      { (krnl.mirrorSignalState ptr).modify ptr (fun o => { o with mwWaiters := [] }) with sched } := by
    rw [same]
    have mirror := writeSignalState_waiters krnl ptr krnl.ram
    simp only [XboxKrnl.mirrorSignalState]
    change XboxKrnl.mk _ _ _ _ _ _ _ _ _ _ _ _ _ = XboxKrnl.mk _ _ _ _ _ _ _ _ _ _ _ _ _
    congr 1
  rw [woken]
  exact (adjust _ ptr (minor_waiters _)).trans (schedule _ sched)

/-- What a release does after the mutant is put back. -/
theorem released (krnl : XboxKrnl) (ptr : Ptr) :
    Touched extent ((krnl.modify ptr XboxKrnl.putMutant).mirrorSignalState ptr) (krnl.releaseMutant ptr) := by
  have noted : Touched extent ((krnl.modify ptr XboxKrnl.putMutant).mirrorSignalState ptr)
      (((krnl.modify ptr XboxKrnl.putMutant).note (.released krnl.currentHandle ptr 1)).mirrorSignalState ptr) :=
    note _ (.released krnl.currentHandle ptr 1)
  unfold XboxKrnl.releaseMutant
  simp only
  split
  · exact noted.trans (mirror_wake _ ptr 1)
  · exact noted

/-- Releasing a semaphore adds units and wakes as many waiters. -/
theorem releaseSemaphore (krnl : XboxKrnl) (ptr : Ptr) (adjustment : Int) :
    Touched extent krnl (krnl.releaseSemaphore ptr adjustment) := by
  have supplied : Touched extent krnl ((krnl.modify ptr (Touch.addUnits adjustment)).mirrorSignalState ptr) :=
    one (.supply ptr adjustment) trivial
  have counted : krnl.modify ptr (fun o =>
      { o with semaphore := { o.semaphore with count := (krnl.object ptr).semaphore.count + adjustment } }) =
      krnl.modify ptr (Touch.addUnits adjustment) := by
    simp only [XboxKrnl.modify]
    congr 1
    apply List.ext_getElem?
    intro index
    rw [List.getElem?_modify, List.getElem?_modify]
    by_cases here : ptr = index
    · subst here
      cases cell : krnl.heap[ptr]? with
      | none => rfl
      | some content =>
        cases content with
        | none => rfl
        | some object => simp [XboxKrnl.object, XboxKrnl.object?, cell, Touch.addUnits]
    · simp [here]
  have noted : Touched extent krnl (((krnl.modify ptr (Touch.addUnits adjustment)).note
      (.released krnl.currentHandle ptr adjustment)).mirrorSignalState ptr) :=
    supplied.trans (note _ (.released krnl.currentHandle ptr adjustment))
  unfold XboxKrnl.releaseSemaphore
  simp only [counted]
  exact noted.trans (mirror_wake _ ptr _)

/-! ## The end of a thread -/

/-- A thread that ends abandons a mutant if it is the owner. -/
theorem abandon (token : Nat) (krnl : XboxKrnl) (ptr : Ptr) (ended : token ∈ extent.ends) (positive : token ≠ 0) :
    Touched extent krnl (XboxKrnl.abandon token krnl ptr) := by
  unfold XboxKrnl.abandon
  split
  · rename_i owned
    have allowed : extent.Allows krnl (.abandon ptr) := by
      simp only [Extent.Allows, owned.2]
      exact ⟨ended, positive⟩
    exact (one (.abandon ptr) allowed).trans (wake _ ptr 1)
  · exact .refl

/-- The operations by which a thread ends, all of them by the running fiber. -/
theorem ending (path : Path [.ending] krnl next) (ok : krnl.Ok)
    (ended : krnl.tokenOf krnl.currentHandle ∈ extent.ends) :
    Touched extent krnl next ∧ next.tokenOf next.currentHandle = krnl.tokenOf krnl.currentHandle := by
  induction path with
  | refl => exact ⟨.refl, rfl⟩
  | @tail middle last earlier final inductionHypothesis =>
    obtain ⟨touched, token⟩ := inductionHypothesis
    obtain ⟨effect, labeled, allowed, rfl⟩ := final
    have middleOk := Path.ok earlier ok
    have isEnding : effect.label = .ending := List.mem_singleton.mp labeled
    have stays : effect.leaves = false ∧ effect.registers = false := by
      cases effect with
      | block token ticks point => cases point <;> cases isEnding
      | _ => first | exact ⟨rfl, rfl⟩ | cases isEnding
    have same : (effect.apply middle).tokenOf (effect.apply middle).currentHandle =
        middle.tokenOf middle.currentHandle := by
      rw [Effect.currentHandle_apply middleOk allowed (by rw [isEnding]; decide) stays.1,
        XboxKrnl.tokenOf_congr (Effect.registry_apply middleOk allowed stays.2)]
    refine ⟨touched.trans ?_, same.trans token⟩
    cases effect with
    | adjust ptr change =>
      cases change with
      | stop => exact adjust middle ptr (minor_thread _)
      | register | unregister | clear | reset | suspend | priority | missingCore => cases isEnding
    | abandon ptr =>
      obtain ⟨_, _, _, owner, positive⟩ := allowed
      refine abandon _ middle ptr ?_ (owner ▸ positive)
      rw [token]
      exact ended
    | wakeJoiner ptr => exact wake middle ptr 1
    | acquire mode => cases mode <;> cases isEnding
    | block token ticks point => cases point <;> cases isEnding
    | _ => cases isEnding

/-! ## Results stored for the guest -/

/-- A word is stored inside the extent. -/
theorem write32 (krnl : XboxKrnl) (va value : Nat) (inside : (va, 4) ∈ extent.stores) :
    Touched extent krnl (krnl.write32 va value) :=
  one (.store va (XbeRam.littleEndian value)) inside

/-- So is an out-parameter, if there is one. -/
theorem writeOut (krnl : XboxKrnl) (out value : Nat)
    (inside : out ≠ 0 → krnl.ram.writable out 4 = true → (out, 4) ∈ extent.stores) :
    Touched extent krnl (krnl.writeOut out value) := by
  unfold XboxKrnl.writeOut
  split
  · rename_i given
    exact write32 krnl out value (inside given.1 given.2)
  · exact .refl

/-- A reply goes to the context of the caller. -/
theorem deliver (krnl : XboxKrnl) (reply : Option Reply) : Touched extent krnl (krnl.deliver reply) := by
  cases reply with
  | none => exact .refl
  | some reply => exact note krnl _

end Touched

/-! ## Operations that happen once -/

/-- The extent without the operations that a piece of kernel code does at most once. -/
def Extent.quiet (extent : Extent) : Extent := { extent with frees := [], registers := [] }

/-- An extent that releases and initialises nothing is quiet. -/
theorem Extent.quiet_eq {extent : Extent} (frees : extent.frees = []) (registers : extent.registers = []) :
    extent.quiet = extent := by
  cases extent
  cases frees
  cases registers
  rfl

/-- The range of a structure that its initialiser checks. -/
def structSize : Kind → Nat
  | .event => 16
  | .mutant => 28
  | .semaphore => 20
  | .thread => 0

/-- The release of a mutant, or the registration of an object whose structure is writable. -/
inductive Main (extent : Extent) (krnl : XboxKrnl) : Touch → Prop where
  | put (ptr : Ptr) (freed : ptr ∈ extent.frees) : Main extent krnl (.put ptr)
  | register (object : DispatcherObject) (listed : (object.kind, object.guestVa) ∈ extent.registers)
      (usable : krnl.ram.writable object.guestVa (structSize object.kind) = true) : Main extent krnl (.register object)

/-- Kernel code with at most one such operation. -/
inductive TouchedOnce (extent : Extent) (krnl next : XboxKrnl) : Prop where
  | never (touched : Touched extent.quiet krnl next)
  | once (touch : Touch) (middle : XboxKrnl) (before : Touched extent.quiet krnl middle)
      (main : Main extent middle touch) (after : Touched extent.quiet (touch.apply middle) next)

namespace TouchedOnce

variable {extent : Extent} {krnl middle next : XboxKrnl}

/-- What a quiet extent has room for, the extent has. -/
theorem quiet_allows (state : XboxKrnl) (touch : Touch) (allowed : extent.quiet.Allows state touch) :
    extent.Allows state touch := by
  cases touch with
  | put ptr => cases allowed
  | register object => cases allowed
  | _ => exact allowed

/-- A run in which one thing happens at most once is a run. -/
theorem touched (once : TouchedOnce extent krnl next) : Touched extent krnl next := by
  cases once with
  | never touched => exact touched.mono quiet_allows
  | once touch middle before main after =>
    have allowed : extent.Allows middle touch := by
      cases main with
      | put ptr freed => exact freed
      | register object listed usable => exact listed
    exact ((before.mono quiet_allows).trans (Touched.one touch allowed)).trans (after.mono quiet_allows)

/-- Quiet operations may come before it. -/
theorem before (touched : Touched extent.quiet krnl middle) (once : TouchedOnce extent middle next) :
    TouchedOnce extent krnl next := by
  cases once with
  | never later => exact .never (touched.trans later)
  | once touch state earlier main after => exact .once touch state (touched.trans earlier) main after

/-- They may come after it, too. -/
theorem after (once : TouchedOnce extent krnl middle) (touched : Touched extent.quiet middle next) :
    TouchedOnce extent krnl next := by
  cases once with
  | never earlier => exact .never (earlier.trans touched)
  | once touch state earlier main later => exact .once touch state earlier main (later.trans touched)

/-- A wider extent allows the same run. -/
theorem mono {wider : Extent} (allows : ∀ state touch, extent.quiet.Allows state touch → wider.quiet.Allows state touch)
    (mains : ∀ state touch, Main extent state touch → Main wider state touch) (once : TouchedOnce extent krnl next) :
    TouchedOnce wider krnl next := by
  cases once with
  | never touched => exact .never (touched.mono allows)
  | once touch state earlier main later =>
    exact .once touch state (earlier.mono allows) (mains state touch main) (later.mono allows)

/-- The release of a mutant is a thing that happens once. -/
theorem releaseMutant (krnl : XboxKrnl) (ptr : Ptr) (freed : ptr ∈ extent.frees) :
    TouchedOnce extent krnl (krnl.releaseMutant ptr) :=
  .once (.put ptr) krnl .refl (.put ptr freed) (Touched.released krnl ptr)

/-- An initialisation is one, too. -/
theorem register (krnl : XboxKrnl) (object : DispatcherObject) (listed : (object.kind, object.guestVa) ∈ extent.registers)
    (usable : krnl.ram.writable object.guestVa (structSize object.kind) = true) :
    TouchedOnce extent krnl (krnl.registerObject object) :=
  .once (.register object) krnl .refl (.register object listed usable) .refl

end TouchedOnce

end SeriesxEmu
