import SeriesxEmu.GuestWords
import SeriesxEmu.KernelCalls
import SeriesxEmu.SystemPaths

/-!
# Failed kernel calls

The calls on threads, dispatcher objects and critical sections check their arguments before they
change anything. A call that reports a failure may have made the identity of its caller or spent a
thread identifier; the memory, the registries, the objects that were there and the threads are as they
were. A call that suspends its fiber instead has checked everything by then: the rest of it fails only
without a trace.
-/

namespace SeriesxEmu

open Scheduler GuestScheduler

/-- What the rest of a suspended call relies on: the reply it still has to give is no failure, and a set
is no larger than one call may name. -/
def Point.Sound : Point → Prop
  | .returning reply => reply.ok = true
  | .suspended _ _ _ reply => reply.ok = true
  | .waitMultiple ptrs _ _ => ptrs.length ≤ kMaxWaitObjects
  | _ => True

namespace XboxKrnl

variable {krnl middle next : XboxKrnl} {ptr : Ptr}

/-- The address lies in the dword that the guest reads as `KeTickCount`. -/
def InTickCount (krnl : XboxKrnl) (address : Nat) : Prop :=
  krnl.kernelDataVa ≠ 0 ∧ at32 krnl.kernelDataVa 8 ≤ address ∧ address < at32 krnl.kernelDataVa 8 + 4

/-- Guest memory but for that dword, the registries, the objects, the threads and the choice of the
running one are as they were. -/
structure Untraced (krnl after : XboxKrnl) : Prop where
  pages : after.ram.size = krnl.ram.size ∧ after.ram.pageSize = krnl.ram.pageSize ∧
    after.ram.committed = krnl.ram.committed ∧ after.ram.readOnly = krnl.ram.readOnly
  bytes : ∀ address, ¬ krnl.InTickCount address → after.ram.bytes address = krnl.ram.bytes address
  kernelDataVa : after.kernelDataVa = krnl.kernelDataVa
  objects : after.objects = krnl.objects
  freeSlots : after.freeSlots = krnl.freeSlots
  vaObjects : after.vaObjects = krnl.vaObjects
  live : ∀ ptr object, krnl.object? ptr = some object → after.object? ptr = some object
  threads : after.sched.threads = krnl.sched.threads
  current : after.sched.current = krnl.sched.current

namespace Untraced

/-- Nothing leaves no trace. -/
theorem refl (krnl : XboxKrnl) : krnl.Untraced krnl :=
  ⟨⟨rfl, rfl, rfl, rfl⟩, fun _ _ => rfl, rfl, rfl, rfl, rfl, fun _ _ live => live, rfl, rfl⟩

/-- Two changes without a trace leave none together. -/
theorem trans (first : krnl.Untraced middle) (second : middle.Untraced next) : krnl.Untraced next := by
  obtain ⟨size, pageSize, committed, readOnly⟩ := first.pages
  obtain ⟨laterSize, laterPageSize, laterCommitted, laterReadOnly⟩ := second.pages
  refine ⟨⟨laterSize.trans size, laterPageSize.trans pageSize, laterCommitted.trans committed,
    laterReadOnly.trans readOnly⟩, fun address outside => ?_, second.kernelDataVa.trans first.kernelDataVa,
    second.objects.trans first.objects, second.freeSlots.trans first.freeSlots,
    second.vaObjects.trans first.vaObjects, fun ptr object live => second.live ptr object (first.live ptr object live),
    second.threads.trans first.threads, second.current.trans first.current⟩
  rw [second.bytes address, first.bytes address outside]
  rw [InTickCount, first.kernelDataVa]
  exact outside

/-- Whether a fiber runs is seen in the scheduler, which is the same. -/
theorem inFiber (untraced : krnl.Untraced next) : next.inFiber = krnl.inFiber := by
  rw [XboxKrnl.inFiber, XboxKrnl.currentHandle, GuestScheduler.currentHandle, untraced.current, untraced.threads]
  rfl

/-- The tick count is exempt. -/
theorem refreshData (krnl : XboxKrnl) : krnl.Untraced krnl.refreshData := by
  unfold XboxKrnl.refreshData
  split
  · rename_i present
    obtain ⟨pages, bytes⟩ := XbeRam.Within.write32 krnl.ram (at32 krnl.kernelDataVa 8) (krnl.sched.tick % 2 ^ 32)
    refine ⟨pages, fun address outside => bytes address ?_, rfl, rfl, rfl, rfl, fun _ _ live => live, rfl, rfl⟩
    unfold InTickCount at outside
    omega
  · exact refl krnl

/-- Making the identity of the caller touches no object that is there. -/
theorem currentThreadToken (krnl : XboxKrnl) : krnl.Untraced krnl.currentThreadToken.1 := by
  unfold XboxKrnl.currentThreadToken
  split
  · exact refl krnl
  · cases absent : krnl.fiberThread? krnl.currentHandle with
    | some self =>
      simp only [ensureThreadObject, absent]
      exact refl krnl
    | none =>
      refine ⟨?_, fun _ _ => ?_, ?_, ?_, ?_, ?_, object?_identify_live absent, ?_, ?_⟩
      all_goals rw [krnl.ensureThreadObject_new _ absent]
      · exact ⟨rfl, rfl, rfl, rfl⟩
      all_goals rfl

/-- Looking at an object may make an identity for the fiber, and leaves the objects that were there. -/
theorem dispatcherSatisfied (krnl : XboxKrnl) (ptr : Ptr) : krnl.Untraced (krnl.dispatcherSatisfied ptr).1 := by
  unfold XboxKrnl.dispatcherSatisfied
  cases kind : (krnl.object ptr).kind with
  | event | semaphore | thread =>
    simp only [kind]
    exact refl krnl
  | mutant =>
    simp only [kind]
    split
    · exact refl krnl
    · split
      · exact currentThreadToken krnl
      · exact refl krnl

/-- Looking at a whole set leaves no trace, either.

Proof: induction on the set. -/
theorem allSatisfied (ptrs : List Ptr) (krnl : XboxKrnl) : krnl.Untraced (krnl.allSatisfied ptrs).1 := by
  induction ptrs generalizing krnl with
  | nil => exact refl krnl
  | cons ptr rest inductionHypothesis =>
    have checked := dispatcherSatisfied krnl ptr
    unfold XboxKrnl.allSatisfied
    simp only
    split
    · exact checked.trans (inductionHypothesis _)
    · exact checked

/-- Neither does looking for the first that is signaled. -/
theorem firstSatisfied (ptrs : List Ptr) (krnl : XboxKrnl) (index : Nat) :
    krnl.Untraced (krnl.firstSatisfied ptrs index).1 := by
  induction ptrs generalizing krnl index with
  | nil => exact refl krnl
  | cons ptr rest inductionHypothesis =>
    have checked := dispatcherSatisfied krnl ptr
    unfold XboxKrnl.firstSatisfied
    simp only
    split
    · exact checked
    · exact checked.trans (inductionHypothesis _ _)

end Untraced

/-! ## Waits -/

/-- Only the host is refused, and without a change. -/
theorem dispatcherAcquire_refused (refused : (krnl.dispatcherAcquire ptr).2 = kStatusInvalidParameter) :
    krnl.Untraced (krnl.dispatcherAcquire ptr).1 := by
  unfold dispatcherAcquire at refused ⊢
  cases kind : (krnl.object ptr).kind with
  | event =>
    simp only [kind] at refused
    split at refused <;> cases refused
  | semaphore | thread =>
    simp only [kind] at refused
    cases refused
  | mutant =>
    simp only [kind] at refused ⊢
    split
    · exact Untraced.currentThreadToken krnl
    · rename_i token
      rw [if_neg token] at refused
      split at refused <;> cases refused

/-- A single wait that reports a failure has left no trace: it was made outside the fibers, on an
object that is not signaled. -/
theorem waitDispatch_failed {immediate : Bool} {ticks : Nat}
    (failed : (krnl.waitDispatch ptr immediate ticks).2 = some kStatusInvalidParameter) :
    krnl.Untraced (krnl.waitDispatch ptr immediate ticks).1 := by
  have checked := Untraced.dispatcherSatisfied krnl ptr
  unfold waitDispatch at failed ⊢
  simp only at failed ⊢
  split
  · rename_i satisfied
    rw [if_pos satisfied] at failed
    refine checked.trans ((dispatcherAcquire_refused (Option.some.inj failed)).trans ?_)
    exact ⟨⟨rfl, rfl, rfl, rfl⟩, fun _ _ => rfl, rfl, rfl, rfl, rfl, fun _ _ live => live, rfl, rfl⟩
  · rename_i unsatisfied
    rw [if_neg unsatisfied] at failed
    split
    · exact checked
    · rename_i patient
      rw [if_neg patient] at failed
      split
      · exact checked
      · rename_i fiber
        rw [if_neg fiber] at failed
        cases failed

/-- Where a multiple wait would block it fails outside the fibers only, and changes nothing. -/
theorem blockMultiple_failed {ptrs : List Ptr} {waitAll immediate : Bool} {ticks : Nat}
    (failed : (krnl.blockMultiple ptrs waitAll immediate ticks).2 = some kStatusInvalidParameter) :
    krnl.inFiber = false ∧ (krnl.blockMultiple ptrs waitAll immediate ticks).1 = krnl := by
  unfold blockMultiple at failed ⊢
  cases immediate with
  | true => cases failed
  | false =>
    cases host : krnl.inFiber with
    | false => exact ⟨rfl, rfl⟩
    | true =>
      simp only [host, Bool.not_true, Bool.false_eq_true, ↓reduceIte] at failed
      cases failed

/-- The status of a whole set is success, or names one of its objects. -/
theorem acquireAll_status (ptrs : List Ptr) (krnl : XboxKrnl) (index worst bound : Nat)
    (room : index + ptrs.length ≤ bound) (before : worst < kStatusAbandoned + bound) :
    (krnl.acquireAll ptrs index worst).2 < kStatusAbandoned + bound := by
  induction ptrs generalizing krnl index worst with
  | nil => exact before
  | cons ptr rest inductionHypothesis =>
    rw [List.length_cons] at room
    unfold acquireAll
    simp only
    refine inductionHypothesis _ _ _ (by omega) ?_
    split
    · omega
    · exact before

/-- The index that a WaitAny finds is one of its set. -/
theorem firstSatisfied_index (ptrs : List Ptr) (krnl : XboxKrnl) (index : Nat) {found : Nat × Ptr}
    (first : (krnl.firstSatisfied ptrs index).2 = some found) : found.1 < index + ptrs.length := by
  induction ptrs generalizing krnl index with
  | nil => cases first
  | cons ptr rest inductionHypothesis =>
    unfold firstSatisfied at first
    simp only at first
    rw [List.length_cons]
    split at first
    · cases first
      exact Nat.lt_add_of_pos_right (Nat.succ_pos _)
    · have later := inductionHypothesis _ _ first
      omega

/-- A multiple wait over at most 64 objects that reports a failure has taken none of them: what it
returns after an acquisition is below that status. -/
theorem waitMultiple_failed {ptrs : List Ptr} {waitAll immediate : Bool} {ticks : Nat}
    (few : ptrs.length ≤ kMaxWaitObjects)
    (failed : (krnl.waitMultiple ptrs waitAll immediate ticks).2 = some kStatusInvalidParameter) :
    krnl.inFiber = false ∧ krnl.Untraced (krnl.waitMultiple ptrs waitAll immediate ticks).1 := by
  have bound : kStatusAbandoned + kMaxWaitObjects < kStatusInvalidParameter := by decide
  unfold waitMultiple at failed ⊢
  cases waitAll with
  | true =>
    simp only [↓reduceIte] at failed ⊢
    have checked := Untraced.allSatisfied ptrs krnl
    split
    · rename_i satisfied
      rw [if_pos satisfied] at failed
      have status := acquireAll_status ptrs (krnl.allSatisfied ptrs).1 0 kStatusSuccess kMaxWaitObjects (by omega)
        (by decide)
      rw [Option.some.inj failed] at status
      omega
    · rename_i unsatisfied
      rw [if_neg unsatisfied] at failed
      obtain ⟨host, same⟩ := blockMultiple_failed failed
      rw [same]
      exact ⟨checked.inFiber.symm.trans host, checked⟩
  | false =>
    have checked := Untraced.firstSatisfied ptrs krnl 0
    cases found : krnl.firstSatisfied ptrs 0 with
    | mk state first =>
      rw [found] at checked
      cases first with
      | none =>
        simp only [found, Bool.false_eq_true, ↓reduceIte] at failed ⊢
        obtain ⟨host, same⟩ := blockMultiple_failed failed
        rw [same]
        exact ⟨checked.inFiber.symm.trans host, checked⟩
      | some place =>
        simp only [found, Bool.false_eq_true, ↓reduceIte] at failed
        have inside := firstSatisfied_index ptrs krnl 0 (congrArg Prod.snd found)
        have status := Option.some.inj failed
        split at status <;> omega

/-! ## Calls -/

/-- The code has suspended the fiber that ran it at the point. -/
def SuspendedAt (krnl next : XboxKrnl) (point : Point) : Prop :=
  ∃ index fiber, krnl.sched.current = some index ∧ next.sched.threads[index]? = some fiber ∧
    fiber.state ≠ .finished ∧ fiber.ctx.point = point

/-- A failure that is reported has left no trace, and a fiber that is suspended instead continues at a
sound point. -/
structure Clean (krnl : XboxKrnl) (result : XboxKrnl × Option Reply) : Prop where
  failed : ∀ reply, result.2 = some reply → reply.ok = false → krnl.Untraced result.1
  suspended : result.2 = none → ∀ point, krnl.SuspendedAt result.1 point → point.Sound

/-- A reply to a state without a trace is clean, whatever it is. -/
theorem Clean.refused (untraced : krnl.Untraced next) (reply : Reply) : krnl.Clean (next, some reply) :=
  ⟨fun _ _ _ => untraced, fun silent => nomatch silent⟩

/-- So is any reply when nothing has changed. -/
theorem Clean.unchanged (krnl : XboxKrnl) (reply : Reply) : krnl.Clean (krnl, some reply) :=
  .refused (.refl krnl) reply

/-- A call that succeeds may leave what it wants. -/
theorem Clean.accepted (next : XboxKrnl) {reply : Reply} (accepted : reply.ok = true) :
    krnl.Clean (next, some reply) := by
  refine ⟨fun answer answered failed => ?_, fun silent => nomatch silent⟩
  rw [← Option.some.inj answered, accepted] at failed
  cases failed

/-- A call that blocks is suspended where it says. -/
theorem SuspendedAt.blocked {token : Token} {ticks : Nat} {point here : Point}
    (same : middle.sched.current = krnl.sched.current)
    (suspended : krnl.SuspendedAt (middle.blockCurrent token ticks here) point) : point = here := by
  obtain ⟨index, fiber, switched, found, _, rfl⟩ := suspended
  rw [blockCurrent_eq (same.trans switched)] at found
  simp only [switchToScheduler, modifyThread, List.getElem?_modify_eq] at found
  obtain ⟨_, _, rfl⟩ := Option.map_eq_some_iff.mp found
  rfl

/-- A call that blocks is clean if the point where it does is sound. -/
theorem Clean.blocked {token : Token} {ticks : Nat} {point : Point} (same : middle.sched.current = krnl.sched.current)
    (sound : point.Sound) : krnl.Clean (middle.blockCurrent token ticks point, none) :=
  ⟨fun _ answered => (nomatch answered), fun _ _ suspended => suspended.blocked same ▸ sound⟩

/-- A wait reports a failure with one status only. -/
theorem Clean.waited {result : XboxKrnl × Option Nat}
    (failed : result.2 = some kStatusInvalidParameter → krnl.Untraced result.1)
    (suspended : result.2 = none → ∀ point, krnl.SuspendedAt result.1 point → point.Sound) :
    krnl.Clean (result.1, result.2.map waitReply) := by
  refine ⟨fun reply answered refused => ?_, fun silent => suspended (Option.map_eq_none_iff.mp silent)⟩
  obtain ⟨status, returned, rfl⟩ := Option.map_eq_some_iff.mp answered
  have invalid : status = kStatusInvalidParameter := by simpa [waitReply] using refused
  exact failed (invalid ▸ returned)

/-- A single wait is suspended as a single wait. -/
theorem waitDispatch_suspended {immediate : Bool} {ticks : Nat} {point : Point}
    (silent : (krnl.waitDispatch ptr immediate ticks).2 = none)
    (suspended : krnl.SuspendedAt (krnl.waitDispatch ptr immediate ticks).1 point) : point.Sound := by
  have checked := (Untraced.dispatcherSatisfied krnl ptr).current
  unfold waitDispatch at silent suspended
  simp only at silent suspended
  split at silent
  · cases silent
  · split at silent
    · cases silent
    · split at silent
      · cases silent
      · simp only [*, Bool.false_eq_true, ↓reduceIte] at suspended
        rw [suspended.blocked checked]
        trivial

/-- A delay checks its interval first. -/
theorem keDelayExecutionThread_clean (krnl : XboxKrnl) (interval : Nat) :
    krnl.Clean (krnl.keDelayExecutionThread interval) := by
  unfold keDelayExecutionThread
  simp only
  split
  · exact .unchanged krnl _
  · split
    · exact .accepted _ rfl
    · split
      · exact .unchanged krnl _
      · exact .blocked rfl rfl

/-- A single wait checks its object and its timeout first. -/
theorem waitForSingle_clean (krnl : XboxKrnl) (found : Option Ptr) (timeout : Nat) :
    krnl.Clean (krnl.waitForSingle found timeout) := by
  unfold waitForSingle
  cases found with
  | none => exact .unchanged krnl _
  | some ptr =>
    cases krnl.readTimeout timeout with
    | none => exact .unchanged krnl _
    | some limit => exact .waited waitDispatch_failed (fun silent _ => waitDispatch_suspended silent)

/-- Entering a fiber into the waiter lists does not switch fibers. -/
theorem registerWaiter_current (token : Token) (ptrs : List Ptr) (krnl : XboxKrnl) :
    (registerWaiter token krnl ptrs).sched.current = krnl.sched.current := by
  induction ptrs generalizing krnl with
  | nil => rfl
  | cons ptr rest inductionHypothesis =>
    unfold registerWaiter
    simp only
    rw [inductionHypothesis]
    have checked := (Untraced.dispatcherSatisfied krnl ptr).current
    split
    · exact checked
    · exact checked

/-- A multiple wait is suspended as one, with its set. -/
theorem blockMultiple_suspended {ptrs : List Ptr} {waitAll immediate : Bool} {ticks : Nat} {point : Point}
    (few : ptrs.length ≤ kMaxWaitObjects) (same : middle.sched.current = krnl.sched.current)
    (silent : (middle.blockMultiple ptrs waitAll immediate ticks).2 = none)
    (suspended : krnl.SuspendedAt (middle.blockMultiple ptrs waitAll immediate ticks).1 point) : point.Sound := by
  unfold blockMultiple at silent suspended
  cases immediate with
  | true => cases silent
  | false =>
    cases host : middle.inFiber with
    | false =>
      simp only [host, Bool.not_false, Bool.false_eq_true, ↓reduceIte] at silent
      cases silent
    | true =>
      simp only [host, Bool.not_true, Bool.false_eq_true, ↓reduceIte] at suspended
      rw [suspended.blocked ((registerWaiter_current _ _ _).trans same)]
      exact few

/-- The same from the start of its body. -/
theorem waitMultiple_suspended {ptrs : List Ptr} {waitAll immediate : Bool} {ticks : Nat} {point : Point}
    (few : ptrs.length ≤ kMaxWaitObjects) (silent : (krnl.waitMultiple ptrs waitAll immediate ticks).2 = none)
    (suspended : krnl.SuspendedAt (krnl.waitMultiple ptrs waitAll immediate ticks).1 point) : point.Sound := by
  unfold waitMultiple at silent suspended
  cases waitAll with
  | true =>
    simp only [↓reduceIte] at silent suspended
    split at silent
    · cases silent
    · rename_i unsatisfied
      rw [if_neg unsatisfied] at suspended
      exact blockMultiple_suspended few (Untraced.allSatisfied ptrs krnl).current silent suspended
  | false =>
    have checked := Untraced.firstSatisfied ptrs krnl 0
    cases found : krnl.firstSatisfied ptrs 0 with
    | mk state first =>
      rw [found] at checked
      cases first with
      | none =>
        simp only [found, Bool.false_eq_true, ↓reduceIte] at silent suspended
        exact blockMultiple_suspended few checked.current silent suspended
      | some place =>
        simp only [found, Bool.false_eq_true, ↓reduceIte] at silent
        cases silent

/-- The call reads its set of at most 64 handles before it waits for anything. -/
theorem ntWaitForMultipleObjectsEx_clean (krnl : XboxKrnl) (count handles waitType timeout : Nat) :
    krnl.Clean (krnl.ntWaitForMultipleObjectsEx count handles waitType timeout) := by
  unfold ntWaitForMultipleObjectsEx
  split
  · exact .unchanged krnl _
  · rename_i counted
    split
    · exact .unchanged krnl _
    · split
      · exact .unchanged krnl _
      · cases krnl.readTimeout timeout with
        | none => exact .unchanged krnl _
        | some limit =>
          cases read : krnl.readHandles handles count with
          | none => exact .unchanged krnl _
          | some ptrs =>
            have few : ptrs.length ≤ kMaxWaitObjects := by
              rw [mapM_some_length _ read, List.length_range]
              omega
            exact .waited (fun failed => (waitMultiple_failed few failed).2)
              (fun silent _ => waitMultiple_suspended few silent)

/-- A mutant that is to be owned is refused outside the fibers, before it is created. -/
theorem ntCreateMutant_clean (krnl : XboxKrnl) (out initialOwner : Nat) :
    krnl.Clean (returning (krnl.ntCreateMutant out initialOwner)) := by
  unfold ntCreateMutant
  split
  · exact .unchanged krnl _
  · split
    · split
      · exact .unchanged krnl _
      · exact .accepted _ rfl
    · exact .accepted _ rfl

/-- The same at a guest address. -/
theorem keInitializeMutant_clean (krnl : XboxKrnl) (va initialOwner : Nat) :
    krnl.Clean (returning (krnl.keInitializeMutant va initialOwner)) := by
  unfold keInitializeMutant
  split
  · exact .unchanged krnl _
  · split
    · split
      · exact .unchanged krnl _
      · exact .accepted _ rfl
    · exact .accepted _ rfl

/-- A caller that does not own the mutant is known by then. -/
theorem ntReleaseMutant_clean (krnl : XboxKrnl) (handle out : Nat) :
    krnl.Clean (returning (krnl.ntReleaseMutant handle out)) := by
  unfold ntReleaseMutant
  split
  · exact .unchanged krnl _
  · simp only
    split
    · exact .refused (.currentThreadToken krnl) _
    · exact .accepted _ rfl

/-- A spawn that fails adds no thread. -/
theorem spawnReserved_failed {sched : GuestScheduler Token Context} {ctx : Context} {stackTopReserve : Nat}
    {region : Option Nat} (positive : 0 < sched.nextHandle)
    (failed : (sched.spawnReserved ctx stackTopReserve region).2 = 0) :
    (sched.spawnReserved ctx stackTopReserve region).1.threads = sched.threads ∧
      (sched.spawnReserved ctx stackTopReserve region).1.current = sched.current := by
  unfold spawnReserved at failed ⊢
  split
  · exact ⟨rfl, rfl⟩
  · rename_i fits
    rw [if_neg fits] at failed
    cases region with
    | none => exact ⟨rfl, rfl⟩
    | some base => exact absurd failed (Nat.ne_of_gt positive)

/-- A thread is created and closed again when it gets no stack.

Proof: the slot of the new handle was free and becomes free again, and the object that is destroyed
was new. A handle of the scheduler is used up, which is no state of a thread. -/
theorem psCreateSystemThreadEx_clean (positive : 0 < krnl.sched.nextHandle) (request : ThreadRequest) :
    krnl.Clean (returning (krnl.psCreateSystemThreadEx request)) := by
  unfold psCreateSystemThreadEx
  split
  · exact .unchanged krnl _
  · simp only
    split
    · rename_i failed
      obtain ⟨threads, current⟩ := spawnReserved_failed positive failed
      refine .refused ?_ _
      exact ⟨⟨rfl, rfl, rfl, rfl⟩, fun _ _ => rfl, rfl, rfl, rfl, rfl, fun _ _ live => live, threads, current⟩
    · exact .accepted _ rfl

/-- A suspension that is refused has at most made the caller's identity. -/
theorem suspendThread_refused {found : Option Ptr} {point : Ptr → Nat → Point}
    (refused : (krnl.suspendThread found point).2 = none) : krnl.Untraced (krnl.suspendThread found point).1 := by
  unfold suspendThread at refused ⊢
  cases isThread : krnl.ofKind .thread found with
  | none => exact .refl krnl
  | some ptr =>
    simp only [isThread] at refused ⊢
    split
    · exact .currentThreadToken krnl
    · rename_i allowed
      rw [if_neg allowed] at refused
      split at refused <;> cases refused

/-- A fiber that suspends itself does so at the point that the call gives. -/
theorem suspendThread_suspended {found : Option Ptr} {point : Ptr → Nat → Point} {here : Point}
    (silent : (krnl.suspendThread found point).2 = some none) (sound : ∀ ptr previous, (point ptr previous).Sound)
    (suspended : krnl.SuspendedAt (krnl.suspendThread found point).1 here) : here.Sound := by
  unfold suspendThread at silent suspended
  cases isThread : krnl.ofKind .thread found with
  | none =>
    simp only [isThread] at silent
    cases silent
  | some ptr =>
    simp only [isThread] at silent suspended
    split at silent
    · cases silent
    · rename_i allowed
      rw [if_neg allowed] at suspended
      split at silent
      · rename_i self
        rw [if_pos self] at suspended
        rw [suspended.blocked (by exact (Untraced.currentThreadToken krnl).current)]
        exact sound _ _
      · cases silent

/-- By a handle. -/
theorem ntSuspendThread_clean (krnl : XboxKrnl) (handle out : Nat) : krnl.Clean (krnl.ntSuspendThread handle out) := by
  unfold ntSuspendThread
  split
  · rename_i rejected result
    have untraced := suspendThread_refused (congrArg Prod.snd result)
    rw [result] at untraced
    exact .refused untraced _
  · rename_i blocked result
    refine ⟨fun _ answered => (nomatch answered), fun _ point suspended => ?_⟩
    refine suspendThread_suspended (congrArg Prod.snd result) (fun _ _ => rfl) ?_
    rw [result]
    exact suspended
  · exact .accepted _ rfl

/-- By an identifier. -/
theorem keSuspendThread_clean (krnl : XboxKrnl) (thread : Nat) : krnl.Clean (krnl.keSuspendThread thread) := by
  unfold keSuspendThread
  split
  · rename_i rejected result
    have untraced := suspendThread_refused (congrArg Prod.snd result)
    rw [result] at untraced
    exact .refused untraced _
  · rename_i blocked result
    refine ⟨fun _ answered => (nomatch answered), fun _ point suspended => ?_⟩
    refine suspendThread_suspended (congrArg Prod.snd result) (fun _ _ => rfl) ?_
    rw [result]
    exact suspended
  · exact .accepted _ rfl

/-- A yield always succeeds. -/
theorem ntYieldExecution_clean (self : krnl.findsItself = true) : krnl.Clean krnl.ntYieldExecution := by
  have found := beq_iff_eq.mp self
  unfold ntYieldExecution
  cases place : krnl.sched.find krnl.currentHandle with
  | none => exact .accepted _ rfl
  | some position =>
    refine ⟨fun _ answered => (nomatch answered), fun _ point suspended => ?_⟩
    obtain ⟨index, fiber, switched, there, _, rfl⟩ := suspended
    rw [place, switched, Option.some.injEq] at found
    subst found
    simp only [threadYield, switchToScheduler, modifyThread, List.getElem?_modify_eq] at there
    obtain ⟨_, _, rfl⟩ := Option.map_eq_some_iff.mp there
    rfl

/-- The fiber that ends is finished when the kernel is left. -/
theorem threadFinish_finished {index : Nat} {code : Int} {fiber : Fiber} (switched : krnl.sched.current = some index)
    (found : (krnl.threadFinish code).sched.threads[index]? = some fiber) : fiber.state = .finished := by
  have ended : ∀ threads, Wakes (fun _ => True) (krnl.marked index code krnl.currentHandle).sched.threads threads →
      threads[index]? = some fiber → fiber.state = .finished := by
    intro threads wakes there
    obtain ⟨earlier, here, origin⟩ := wakes.origin index fiber there
    simp only [marked, modifyThread, List.getElem?_modify_eq] at here
    obtain ⟨_, _, rfl⟩ := Option.map_eq_some_iff.mp here
    rcases origin with rfl | ⟨blocked, _⟩
    · rfl
    · cases blocked
  have start : ({ krnl with sched := krnl.sched.modifyThread index (fun thread =>
      { thread with exitCode := code, state := .finished }) } : XboxKrnl).note (.finished krnl.currentHandle) =
      krnl.marked index code krnl.currentHandle := rfl
  simp only [threadFinish, switched, start] at found
  split at found
  · obtain ⟨threads, sched, wakes⟩ := finishThreadObject_sched (krnl.marked index code krnl.currentHandle) _
    rw [sched] at found
    exact ended threads wakes found
  · exact ended _ (Wakes.refl _ _) found

/-- A fiber without a thread object is refused before anything happens, and otherwise the call does
not return. -/
theorem psTerminateSystemThread_clean (krnl : XboxKrnl) (exitStatus : Nat) :
    krnl.Clean (krnl.psTerminateSystemThread exitStatus) := by
  unfold psTerminateSystemThread
  cases krnl.findThreadByFiber krnl.currentHandle with
  | none => exact .unchanged krnl _
  | some ptr =>
    refine ⟨fun _ answered => (nomatch answered), fun _ point suspended => ?_⟩
    obtain ⟨index, fiber, switched, there, unfinished, _⟩ := suspended
    obtain ⟨threads, sched, _⟩ := finishThreadObject_sched krnl ptr
    have still : (krnl.finishThreadObject ptr).sched.current = some index := by
      rw [sched]
      exact switched
    exact absurd (threadFinish_finished still there) unfinished

/-- Entering checks the fields first, and the fiber before it blocks. -/
theorem csEnter_clean (krnl : XboxKrnl) (va : Nat) : krnl.Clean (krnl.csEnter va) := by
  unfold csEnter
  cases krnl.csFields va with
  | none => exact .unchanged krnl _
  | some fields =>
    simp only
    split
    · exact .accepted _ rfl
    · split
      · exact .accepted _ rfl
      · split
        · exact .unchanged krnl _
        · exact .blocked rfl trivial

/-- Leaving checks the fields and the owner first. -/
theorem csLeave_clean (krnl : XboxKrnl) (va : Nat) : krnl.Clean (returning (krnl.csLeave va)) := by
  unfold csLeave
  cases krnl.csFields va with
  | none => exact .unchanged krnl _
  | some fields =>
    simp only
    split
    · exact .unchanged krnl _
    · split
      · exact .accepted _ rfl
      · split <;> exact .accepted _ rfl

/-- Every call on threads, objects and critical sections fails cleanly, if at all.

Proof: one lemma for each call. Each checks all that it asks for before its first change. -/
theorem exec_clean (positive : 0 < krnl.sched.nextHandle) (call : Call)
    (self : krnl.findsItself = true ∨ looksItselfUp call = false) : krnl.Clean (krnl.exec call) := by
  cases call with
  | keDelayExecutionThread waitMode alertable interval => exact krnl.keDelayExecutionThread_clean interval
  | keWaitForSingleObject object reason mode alertable timeout => exact krnl.waitForSingle_clean _ timeout
  | ntWaitForSingleObject handle alertable timeout => exact krnl.waitForSingle_clean _ timeout
  | ntWaitForSingleObjectEx handle mode alertable timeout => exact krnl.waitForSingle_clean _ timeout
  | ntWaitForMultipleObjectsEx count handles waitType mode alertable timeout =>
    exact krnl.ntWaitForMultipleObjectsEx_clean count handles waitType timeout
  | ntCreateMutant out attributes initialOwner => exact krnl.ntCreateMutant_clean out initialOwner
  | ntReleaseMutant handle out => exact krnl.ntReleaseMutant_clean handle out
  | keInitializeMutant mutant initialOwner => exact krnl.keInitializeMutant_clean mutant initialOwner
  | psCreateSystemThreadEx request => exact psCreateSystemThreadEx_clean positive request
  | psTerminateSystemThread exitStatus => exact krnl.psTerminateSystemThread_clean exitStatus
  | ntSuspendThread handle out => exact krnl.ntSuspendThread_clean handle out
  | keSuspendThread thread => exact krnl.keSuspendThread_clean thread
  | ntYieldExecution => exact ntYieldExecution_clean (self.resolve_right (by decide))
  | rtlEnterCriticalSection va => exact krnl.csEnter_clean va
  | rtlLeaveCriticalSection va => exact krnl.csLeave_clean va
  | _ =>
    -- What is left returns at once, and turns its arguments down before it does anything or accepts them.
    simp only [exec, keInitializeEvent, keSetEvent, keResetEvent, keEvent, ntCreateEvent, ntSetEvent, ntClearEvent,
      ntPulseEvent, ntQueryMutant, keReleaseMutant, ntCreateSemaphore, ntReleaseSemaphore, ntQuerySemaphore,
      keInitializeSemaphore, keReleaseSemaphore, keGetCurrentThread, keSetBasePriorityThread, ntClose,
      ntResumeThread, keResumeThread, csInit, csTryEnter]
    repeat' split
    all_goals first | exact .unchanged krnl _ | exact .accepted _ rfl

/-! ## The rest of a suspended call -/

/-- Striking a fiber off the waiter lists does not touch the scheduler. -/
theorem unregisterWaiter_sched (krnl : XboxKrnl) (token : Token) (ptrs : List Ptr) :
    (krnl.unregisterWaiter token ptrs).sched = krnl.sched := by
  unfold unregisterWaiter
  induction ptrs generalizing krnl with
  | nil => rfl
  | cons ptr rest inductionHypothesis => exact inductionHypothesis _

/-- A single wait that goes on fails only where it can block no more. -/
theorem resumeDispatch_clean (krnl : XboxKrnl) (ptr : Ptr) (ticks : Nat) (woken : Bool) :
    krnl.Clean ((krnl.resumeDispatch ptr ticks woken).1, (krnl.resumeDispatch ptr ticks woken).2.map waitReply) := by
  unfold resumeDispatch
  split
  · exact .accepted _ rfl
  · split
    · exact .accepted _ rfl
    · exact .waited waitDispatch_failed (fun silent _ => waitDispatch_suspended silent)

/-- In a fiber a wait for a set does not fail, so what `resumeMultiple` has unregistered is no trace. -/
theorem resumeMultiple_clean (inFiber : krnl.inFiber = true) {ptrs : List Ptr} (few : ptrs.length ≤ kMaxWaitObjects)
    (waitAll : Bool) (ticks : Nat) (woken : Bool) :
    krnl.Clean ((krnl.resumeMultiple ptrs waitAll ticks woken).1,
      (krnl.resumeMultiple ptrs waitAll ticks woken).2.map waitReply) := by
  have sched := krnl.unregisterWaiter_sched (.multiWait krnl.currentHandle) ptrs
  unfold resumeMultiple
  simp only
  split
  · exact .accepted _ rfl
  · refine .waited (fun failed => ?_) (fun silent point suspended => ?_)
    · have host := (waitMultiple_failed few failed).1
      rw [XboxKrnl.inFiber, XboxKrnl.currentHandle, sched] at host
      exact absurd (inFiber.symm.trans host) (by decide)
    · refine waitMultiple_suspended few silent ?_
      unfold SuspendedAt
      rw [sched]
      exact suspended

/-- Whatever has been suspended at a sound point goes on cleanly. -/
theorem continueCall_clean (inFiber : krnl.inFiber = true) {point : Point} (sound : point.Sound) {woken : Bool}
    {result : XboxKrnl × Option Reply} (continued : krnl.continueCall woken point = some result) :
    krnl.Clean result := by
  cases point with
  | entry | guest | parked => cases continued
  | returning reply | suspended thread out previous reply =>
    cases continued
    exact .accepted _ sound
  | waitDispatch ptr ticks =>
    simp only [continueCall] at continued
    split at continued
    · cases continued
    · cases continued
      exact krnl.resumeDispatch_clean ptr ticks woken
  | waitMultiple ptrs waitAll ticks =>
    simp only [continueCall] at continued
    split at continued
    · cases continued
    · cases continued
      exact resumeMultiple_clean inFiber sound waitAll ticks woken
  | csEnter va =>
    cases continued
    exact krnl.csEnter_clean va

end XboxKrnl

end SeriesxEmu
