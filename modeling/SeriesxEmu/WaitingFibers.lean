import SeriesxEmu.SchedulerRuns
import SeriesxEmu.TouchedSteps

/-!
# Fibers inside a wait

A fiber that waits is suspended at the point of its wait, and only two things put a fiber
there: a wait call that its arguments allow to block, and the loop of the wait itself, which a
woken fiber enters again when it finds its objects taken. Everything else leaves such a fiber
where it is, or wakes it.
-/

namespace SeriesxEmu

open Scheduler GuestScheduler

/-- The point lies inside the loop of a wait. -/
def Point.inWait : Point → Bool
  | .waitDispatch _ _ => true
  | .waitMultiple _ _ _ => true
  | _ => false

/-- The entry records a release. -/
def Event.isRelease : Event → Bool
  | .released _ _ _ => true
  | _ => false

/-- The calls that release an object. -/
def Call.releases : Call → Bool
  | .ntReleaseMutant _ _ => true
  | .keReleaseMutant _ _ _ _ => true
  | .ntReleaseSemaphore _ _ _ => true
  | .keReleaseSemaphore _ _ _ _ => true
  | _ => false

/-- The ticks that the wait was given. -/
def Point.ticks : Point → Nat
  | .waitDispatch _ ticks => ticks
  | .waitMultiple _ _ ticks => ticks
  | _ => kNoTimeout

namespace XboxKrnl

variable {krnl next : XboxKrnl}

/-! ## Kernel code that does not block -/

/-- Who runs, and what time it is. -/
def clock (krnl : XboxKrnl) : Option Nat × Nat := (krnl.sched.current, krnl.sched.tick)

/-- The releases on record. -/
def releases (krnl : XboxKrnl) : List Event := krnl.history.filter Event.isRelease

/-- What kernel code that neither blocks nor releases an object leaves alone. -/
def frame (krnl : XboxKrnl) : (Option Nat × Nat) × List Event := (krnl.clock, krnl.releases)

/-- The frame holds the clock. -/
theorem clock_of_frame (same : next.frame = krnl.frame) : next.clock = krnl.clock := congrArg Prod.fst same

/-- The frame holds the releases on record. -/
theorem releases_of_frame (same : next.frame = krnl.frame) : next.releases = krnl.releases := congrArg Prod.snd same

/-- An object is changed: neither the clock nor the releases are among them. -/
@[simp] theorem frame_modify (krnl : XboxKrnl) (ptr : Ptr) (change : DispatcherObject → DispatcherObject) :
    (krnl.modify ptr change).frame = krnl.frame := rfl

/-- An entry of the history that is not a release leaves the frame alone. -/
@[simp] theorem frame_note (krnl : XboxKrnl) {event : Event}
    (other : ∀ fiber object count, event ≠ .released fiber object count) : (krnl.note event).frame = krnl.frame := by
  cases event with
  | released fiber object count => exact absurd rfl (other fiber object count)
  | _ => rfl

/-- A wake-up changes the state of fibers, not who runs nor what time it is. -/
@[simp] theorem frame_signal (krnl : XboxKrnl) (token : Token) (all : Bool) :
    (krnl.signal token all).1.frame = krnl.frame := rfl

/-- A new object leaves the frame alone. -/
@[simp] theorem frame_allocate (krnl : XboxKrnl) (object : DispatcherObject) :
    (krnl.allocate object).1.frame = krnl.frame := rfl

/-- Entering an object into the handle table leaves the frame alone. -/
@[simp] theorem frame_insertObject (krnl : XboxKrnl) (ptr : Ptr) : (krnl.insertObject ptr).1.frame = krnl.frame := by
  unfold insertObject
  split <;> rfl

/-- Guest memory is no part of the frame. -/
@[simp] theorem frame_write32 (krnl : XboxKrnl) (va value : Nat) : (krnl.write32 va value).frame = krnl.frame := rfl

/-- An out-parameter is stored to guest memory only. -/
@[simp] theorem frame_writeOut (krnl : XboxKrnl) (out value : Nat) : (krnl.writeOut out value).frame = krnl.frame := by
  unfold writeOut
  split <;> rfl

/-- The mirror of a signal state lies in guest memory. -/
@[simp] theorem frame_mirrorSignalState (krnl : XboxKrnl) (ptr : Ptr) :
    (krnl.mirrorSignalState ptr).frame = krnl.frame := rfl

/-- The mirror of a header lies in guest memory. -/
@[simp] theorem frame_mirrorHeader (krnl : XboxKrnl) (ptr : Ptr) : (krnl.mirrorHeader ptr).frame = krnl.frame := rfl

/-- The flag of an event and its mirror are no part of the frame. -/
@[simp] theorem frame_storeSignaled (krnl : XboxKrnl) (ptr : Ptr) (signaled : Bool) :
    (krnl.storeSignaled ptr signaled).frame = krnl.frame := rfl

/-- Freeing a slot of the handle table leaves the frame alone. -/
@[simp] theorem frame_closeSlot (krnl : XboxKrnl) (slot : Nat) (ptr : Ptr) : (krnl.closeSlot slot ptr).frame = krnl.frame :=
  rfl

/-- A creation notes down no release. -/
@[simp] theorem frame_createObject (krnl : XboxKrnl) (out : Nat) (object : DispatcherObject) :
    (krnl.createObject out object).1.frame = krnl.frame := by
  simp [createObject]

/-- Neither does an initialisation at a guest address. -/
@[simp] theorem frame_registerObject (krnl : XboxKrnl) (object : DispatcherObject) :
    (krnl.registerObject object).frame = krnl.frame := rfl

/-- Waking the waiters of an object: the channel of the object, then those of its multiple waits. -/
@[simp] theorem frame_wakeObject (krnl : XboxKrnl) (ptr : Ptr) (units : Nat) :
    (krnl.wakeObject ptr units).frame = krnl.frame := by
  rw [XboxKrnl.wakeObject_eq]
  rfl

/-- The identity of a fiber is an object and a table entry. -/
@[simp] theorem frame_ensureThreadObject (krnl : XboxKrnl) (fiber : Nat) :
    (krnl.ensureThreadObject fiber).1.frame = krnl.frame := by
  unfold ensureThreadObject
  split <;> rfl

/-- Asking for the own token makes an identity at most. -/
@[simp] theorem frame_currentThreadToken (krnl : XboxKrnl) : krnl.currentThreadToken.1.frame = krnl.frame := by
  unfold currentThreadToken
  split
  · rfl
  · exact krnl.frame_ensureThreadObject _

/-- The tick count is stored to guest memory. -/
@[simp] theorem frame_refreshData (krnl : XboxKrnl) : krnl.refreshData.frame = krnl.frame := by
  unfold refreshData
  split <;> rfl

/-- The reply goes to the context of the caller and to the history, which is no release. -/
@[simp] theorem frame_deliver (krnl : XboxKrnl) (reply : Option Reply) : (krnl.deliver reply).frame = krnl.frame := by
  cases reply <;> rfl

/-- Setting an event wakes fibers and makes none run. -/
@[simp] theorem frame_keSetEventCore (krnl : XboxKrnl) (ptr : Ptr) : (krnl.keSetEventCore ptr).1.frame = krnl.frame := by
  simp only [keSetEventCore, frame_wakeObject]
  split <;> rfl

/-- A pulse sets and resets an event. -/
@[simp] theorem frame_pulseEvent (krnl : XboxKrnl) (ptr : Ptr) : (krnl.pulseEvent ptr).frame = krnl.frame := by
  simp [XboxKrnl.pulseEvent]

/-- A released mutant is on record as a release, so only the clock stays. -/
theorem clock_releaseMutant (krnl : XboxKrnl) (ptr : Ptr) : (krnl.releaseMutant ptr).clock = krnl.clock := by
  have woken : ∀ state : XboxKrnl, (state.wakeObject ptr 1).clock = state.clock := fun state =>
    clock_of_frame (state.frame_wakeObject ptr 1)
  simp only [XboxKrnl.releaseMutant]
  split
  · exact woken _
  · rfl

/-- The same for the units of a semaphore. -/
theorem clock_releaseSemaphore (krnl : XboxKrnl) (ptr : Ptr) (adjustment : Int) :
    (krnl.releaseSemaphore ptr adjustment).clock = krnl.clock := by
  have woken : ∀ (state : XboxKrnl) units, (state.wakeObject ptr units).clock = state.clock := fun state units =>
    clock_of_frame (state.frame_wakeObject ptr units)
  exact woken _ _

/-- A resume wakes the parked fiber and does not switch to it. -/
@[simp] theorem frame_resumeThread (krnl : XboxKrnl) (ptr : Ptr) : (krnl.resumeThread ptr).frame = krnl.frame := by
  unfold resumeThread
  simp only
  split
  · split <;> rfl
  · rfl

/-- Looking whether an object is signaled makes an identity at most. -/
@[simp] theorem frame_dispatcherSatisfied (krnl : XboxKrnl) (ptr : Ptr) :
    (krnl.dispatcherSatisfied ptr).1.frame = krnl.frame := by
  unfold XboxKrnl.dispatcherSatisfied
  simp only
  split
  · rfl
  · split
    · rfl
    · split
      · exact krnl.frame_currentThreadToken
      · rfl
  · rfl
  · rfl

/-- Taking an object is no release of it. -/
@[simp] theorem frame_dispatcherAcquire (krnl : XboxKrnl) (ptr : Ptr) :
    (krnl.dispatcherAcquire ptr).1.frame = krnl.frame := by
  unfold XboxKrnl.dispatcherAcquire
  simp only
  split
  · split <;> rfl
  · split
    · exact krnl.frame_currentThreadToken
    · split <;> simp
  · rfl
  · rfl

/-- A satisfied wait is an entry of its own. -/
@[simp] theorem frame_noteSatisfied (krnl : XboxKrnl) (mode : WaitMode) (ptrs : List Ptr) (status : Nat) :
    (krnl.noteSatisfied mode ptrs status).frame = krnl.frame := rfl

/-- The test of a WaitAll looks at one object after the other.

Proof: induction on the set, along the recursion of the test. -/
@[simp] theorem frame_allSatisfied (krnl : XboxKrnl) (ptrs : List Ptr) : (krnl.allSatisfied ptrs).1.frame = krnl.frame := by
  induction ptrs generalizing krnl with
  | nil => rfl
  | cons ptr rest inductionHypothesis =>
    simp only [XboxKrnl.allSatisfied]
    split <;> simp [inductionHypothesis]

/-- The scan of a WaitAny, up to the first object that is signaled. -/
@[simp] theorem frame_firstSatisfied (krnl : XboxKrnl) (ptrs : List Ptr) (index : Nat) :
    (krnl.firstSatisfied ptrs index).1.frame = krnl.frame := by
  induction ptrs generalizing krnl index with
  | nil => rfl
  | cons ptr rest inductionHypothesis =>
    simp only [XboxKrnl.firstSatisfied]
    split <;> simp [inductionHypothesis]

/-- A WaitAll takes one object after the other. -/
@[simp] theorem frame_acquireAll (krnl : XboxKrnl) (ptrs : List Ptr) (index worst : Nat) :
    (krnl.acquireAll ptrs index worst).1.frame = krnl.frame := by
  induction ptrs generalizing krnl index worst with
  | nil => rfl
  | cons ptr rest inductionHypothesis => simp [XboxKrnl.acquireAll, inductionHypothesis]

/-- The same, without the statuses. -/
@[simp] theorem frame_taken (krnl : XboxKrnl) (ptrs : List Ptr) : (krnl.taken ptrs).frame = krnl.frame := by
  unfold taken
  induction ptrs generalizing krnl with
  | nil => rfl
  | cons ptr rest inductionHypothesis => simp [inductionHypothesis]

/-- Entering a fiber into the waiter lists changes objects. -/
@[simp] theorem frame_registerWaiter (token : Token) (krnl : XboxKrnl) (ptrs : List Ptr) :
    (registerWaiter token krnl ptrs).frame = krnl.frame := by
  induction ptrs generalizing krnl with
  | nil => rfl
  | cons ptr rest inductionHypothesis =>
    simp only [registerWaiter, inductionHypothesis]
    split <;> simp

/-- So does striking it off. -/
@[simp] theorem frame_unregisterWaiter (krnl : XboxKrnl) (token : Token) (ptrs : List Ptr) :
    (krnl.unregisterWaiter token ptrs).frame = krnl.frame := by
  unfold XboxKrnl.unregisterWaiter
  induction ptrs generalizing krnl with
  | nil => rfl
  | cons ptr rest inductionHypothesis => exact inductionHypothesis _

/-! ## Code that waits -/

/-- A fiber found inside a wait at the position is blocked there since the given tick. -/
def EnteredAt (krnl : XboxKrnl) (index tick : Nat) (expected : Option Point) : Prop :=
  ∀ fiber, krnl.sched.threads[index]? = some fiber → fiber.ctx.point.inWait = true →
    some fiber.ctx.point = expected ∧
      ∃ token before, fiber = blockedAt tick token fiber.ctx.point.ticks fiber.ctx.point before

/-- The code goes on, or it has blocked: inside a wait only at the given point. -/
inductive Blocking (krnl : XboxKrnl) (point : Option Point) : XboxKrnl → Prop where
  | stays {next : XboxKrnl} (same : next.frame = krnl.frame) : Blocking krnl point next
  | blocks {middle : XboxKrnl} (same : middle.frame = krnl.frame) (token : Token) (ticks : Nat) (spot : Point)
    (expected : spot.inWait = true → point = some spot ∧ ticks = spot.ticks) :
    Blocking krnl point (middle.blockCurrent token ticks spot)

/-- What happens before the wait may be any code that leaves the frame alone. -/
theorem Blocking.after {point : Option Point} {middle : XboxKrnl} (same : middle.frame = krnl.frame)
    (blocking : middle.Blocking point next) : krnl.Blocking point next := by
  cases blocking with
  | stays still => exact .stays (still.trans same)
  | blocks before token ticks spot expected => exact .blocks (before.trans same) token ticks spot expected

/-- The single wait that the arguments allow to block. -/
def entersSingle (krnl : XboxKrnl) (found : Option Ptr) (timeout : Nat) : Option Point :=
  match found, krnl.readTimeout timeout with
  | some ptr, some (false, ticks) => some (.waitDispatch ptr ticks)
  | _, _ => none

/-- The wait that `NtWaitForMultipleObjectsEx` may block in. -/
def entersMultiple (krnl : XboxKrnl) (count handles waitType timeout : Nat) : Option Point :=
  match krnl.waitSet count handles waitType timeout, krnl.readTimeout timeout with
  | some ptrs, some (false, ticks) => some (.waitMultiple ptrs (waitType == 0) ticks)
  | _, _ => none

/-- The wait that a call may block in. -/
def enters (krnl : XboxKrnl) : Call → Option Point
  | .keWaitForSingleObject object _ _ _ timeout => krnl.entersSingle (krnl.findObjectByVa object) timeout
  | .ntWaitForSingleObject handle _ timeout => krnl.entersSingle (krnl.findObjectByHandle handle) timeout
  | .ntWaitForSingleObjectEx handle _ _ timeout => krnl.entersSingle (krnl.findObjectByHandle handle) timeout
  | .ntWaitForMultipleObjectsEx count handles waitType _ _ timeout =>
    krnl.entersMultiple count handles waitType timeout
  | _ => none

/-- The body of a single wait returns, or blocks in the wait it was asked for. -/
theorem waitDispatch_blocking (krnl : XboxKrnl) (ptr : Ptr) (immediate : Bool) (ticks : Nat) {point : Option Point}
    (expected : immediate = false → point = some (.waitDispatch ptr ticks)) :
    krnl.Blocking point (krnl.waitDispatch ptr immediate ticks).1 := by
  unfold XboxKrnl.waitDispatch
  simp only
  split
  · exact .stays (by simp)
  · split
    · exact .stays (by simp)
    · rename_i patient
      split
      · exact .stays (by simp)
      · exact .blocks (by simp) _ _ _ (fun _ => ⟨expected (by simpa using patient), rfl⟩)

/-- The end of a multiple wait returns, or blocks on a channel of its own. -/
theorem blockMultiple_blocking (krnl : XboxKrnl) (ptrs : List Ptr) (waitAll immediate : Bool) (ticks : Nat)
    {point : Option Point} (expected : immediate = false → point = some (.waitMultiple ptrs waitAll ticks)) :
    krnl.Blocking point (krnl.blockMultiple ptrs waitAll immediate ticks).1 := by
  unfold XboxKrnl.blockMultiple
  split
  · exact .stays rfl
  · rename_i patient
    split
    · exact .stays rfl
    · exact .blocks (by simp) _ _ _ (fun _ => ⟨expected (by simpa using patient), rfl⟩)

/-- The body of a multiple wait takes the objects of its set, or blocks in the wait it was asked
for. -/
theorem waitMultiple_blocking (krnl : XboxKrnl) (ptrs : List Ptr) (waitAll immediate : Bool) (ticks : Nat)
    {point : Option Point} (expected : immediate = false → point = some (.waitMultiple ptrs waitAll ticks)) :
    krnl.Blocking point (krnl.waitMultiple ptrs waitAll immediate ticks).1 := by
  unfold XboxKrnl.waitMultiple
  split
  · simp only
    split
    · exact .stays (by simp)
    · exact Blocking.after (by simp) (blockMultiple_blocking _ ptrs waitAll immediate ticks expected)
  · have scanned : (krnl.firstSatisfied ptrs 0).1.frame = krnl.frame := by simp
    split
    · rename_i checked index ptr found
      rw [found] at scanned
      exact .stays (by simpa using scanned)
    · rename_i checked found
      rw [found] at scanned
      exact Blocking.after scanned (blockMultiple_blocking _ ptrs waitAll immediate ticks expected)

/-- The calls for a single wait check their object and their timeout first. -/
theorem waitForSingle_blocking (krnl : XboxKrnl) (found : Option Ptr) (timeout : Nat) :
    krnl.Blocking (krnl.entersSingle found timeout) (krnl.waitForSingle found timeout).1 := by
  unfold XboxKrnl.waitForSingle entersSingle
  cases found with
  | none => exact .stays rfl
  | some ptr =>
    cases krnl.readTimeout timeout with
    | none => exact .stays rfl
    | some read =>
      obtain ⟨immediate, ticks⟩ := read
      refine krnl.waitDispatch_blocking ptr immediate ticks (fun patient => ?_)
      rw [patient]

/-- The call for a multiple wait reads its set of handles from guest memory first. -/
theorem ntWaitForMultipleObjectsEx_blocking (krnl : XboxKrnl) (count handles waitType timeout : Nat) :
    krnl.Blocking (krnl.entersMultiple count handles waitType timeout)
      (krnl.ntWaitForMultipleObjectsEx count handles waitType timeout).1 := by
  unfold XboxKrnl.ntWaitForMultipleObjectsEx
  split
  · exact .stays rfl
  · rename_i many
    split
    · exact .stays rfl
    · rename_i readable
      split
      · exact .stays rfl
      · rename_i kind
        cases timing : krnl.readTimeout timeout with
        | none => exact .stays rfl
        | some read =>
          obtain ⟨immediate, ticks⟩ := read
          cases named : krnl.readHandles handles count with
          | none => exact .stays rfl
          | some ptrs =>
            refine krnl.waitMultiple_blocking ptrs (waitType == 0) immediate ticks (fun patient => ?_)
            simp only [not_or] at many
            have set : krnl.waitSet count handles waitType timeout = some ptrs := by
              simp only [Bool.not_eq_true, Bool.not_eq_false'] at readable
              simp [waitSet, many, readable, kind, timing, named]
            simp [entersMultiple, set, timing, patient]

/-- A delay blocks outside every wait. -/
theorem keDelayExecutionThread_blocking (krnl : XboxKrnl) (interval : Nat) :
    krnl.Blocking none (krnl.keDelayExecutionThread interval).1 := by
  unfold XboxKrnl.keDelayExecutionThread
  simp only
  split
  · exact .stays rfl
  · split
    · exact .stays rfl
    · split
      · exact .stays rfl
      · exact .blocks rfl _ _ _ (by simp [Point.inWait])

/-- So does a fiber that finds a critical section taken. -/
theorem csEnter_blocking (krnl : XboxKrnl) (va : Nat) : krnl.Blocking none (krnl.csEnter va).1 := by
  unfold XboxKrnl.csEnter
  split
  · exact .stays rfl
  · simp only
    split
    · exact .stays rfl
    · split
      · exact .stays rfl
      · split
        · exact .stays rfl
        · exact .blocks (by rfl) _ _ (.csEnter va) (by simp [Point.inWait])

/-- A thread that suspends itself is not inside a wait. -/
theorem suspendThread_blocking (krnl : XboxKrnl) (found : Option Ptr) (point : Ptr → Nat → Point)
    (outside : ∀ ptr previous, (point ptr previous).inWait = false) :
    krnl.Blocking none (krnl.suspendThread found point).1 ∧
      ((krnl.suspendThread found point).2 ≠ some none → (krnl.suspendThread found point).1.frame = krnl.frame) := by
  unfold XboxKrnl.suspendThread
  split
  · exact ⟨.stays rfl, fun _ => rfl⟩
  · rename_i ptr _
    simp only
    split
    · exact ⟨.stays (by simp), fun _ => by simp⟩
    · split
      · exact ⟨.blocks (by simp) _ _ _ (fun inside => absurd (outside _ _) (by rw [inside]; simp)),
          fun goes => absurd rfl goes⟩
      · exact ⟨.stays (by simp), fun _ => by simp⟩

/-- And so does one that suspends itself. -/
theorem ntSuspendThread_blocking (krnl : XboxKrnl) (handle out : Nat) :
    krnl.Blocking none (krnl.ntSuspendThread handle out).1 := by
  obtain ⟨suspends, goes⟩ := krnl.suspendThread_blocking (krnl.findObjectByHandle handle)
    (fun ptr previous => .suspended ptr out previous success) (fun _ _ => rfl)
  unfold XboxKrnl.ntSuspendThread
  split <;> rename_i outcome <;> rw [outcome] at suspends goes
  · exact suspends
  · exact suspends
  · exact .stays (by simpa using goes)

/-- The same for a thread that is named by its identifier. -/
theorem keSuspendThread_blocking (krnl : XboxKrnl) (thread : Nat) :
    krnl.Blocking none (krnl.keSuspendThread thread).1 := by
  have suspends := (krnl.suspendThread_blocking (krnl.findThreadById thread)
    (fun ptr previous => .suspended ptr 0 previous { value := previous }) (fun _ _ => rfl)).1
  unfold XboxKrnl.keSuspendThread
  split <;> rename_i outcome <;> rw [outcome] at suspends <;> exact suspends

/-- Checking and releasing a semaphore takes no time. -/
theorem clock_adjustSemaphore {found : Option Ptr} {word : Nat} {previous : Int}
    (accepted : krnl.adjustSemaphore found word = some (next, previous)) : next.clock = krnl.clock := by
  obtain ⟨ptr, _, _, _, rfl⟩ := adjustSemaphore_cases accepted
  exact clock_releaseSemaphore _ _ _

/-! ## Calls that neither block nor release an object

Each of them writes an object, the guest memory or a table, and returns. -/

/-- Initialising an event leaves the frame alone. -/
theorem frame_keInitializeEvent (krnl : XboxKrnl) (va type state : Nat) :
    (krnl.keInitializeEvent va type state).1.frame = krnl.frame := by
  unfold keInitializeEvent
  split
  · rfl
  · split
    · rfl
    · split
      · split <;> rfl
      · rfl

/-- The calls on the event at an address leave alone what their operation leaves alone. -/
theorem frame_keEvent (krnl : XboxKrnl) (va : Nat) {operation : XboxKrnl → Ptr → XboxKrnl × Nat}
    (quiet : ∀ ptr, (operation krnl ptr).1.frame = krnl.frame) : (krnl.keEvent va operation).1.frame = krnl.frame := by
  unfold keEvent
  split
  · rfl
  · exact quiet _

/-- An event is created. -/
theorem frame_ntCreateEvent (krnl : XboxKrnl) (out type state : Nat) :
    (krnl.ntCreateEvent out type state).1.frame = krnl.frame := by
  unfold ntCreateEvent
  split
  · rfl
  · split <;> simp

/-- The named event is set, and its previous state stored. -/
theorem frame_ntSetEvent (krnl : XboxKrnl) (handle out : Nat) : (krnl.ntSetEvent handle out).1.frame = krnl.frame := by
  unfold ntSetEvent
  split <;> simp

/-- The named event is reset. -/
theorem frame_ntClearEvent (krnl : XboxKrnl) (handle : Nat) : (krnl.ntClearEvent handle).1.frame = krnl.frame := by
  unfold ntClearEvent
  split <;> simp

/-- The named event is pulsed, and its previous state stored. -/
theorem frame_ntPulseEvent (krnl : XboxKrnl) (handle out : Nat) :
    (krnl.ntPulseEvent handle out).1.frame = krnl.frame := by
  unfold ntPulseEvent
  split <;> simp

/-- A mutant is created, with the caller as its owner if asked for. -/
theorem frame_ntCreateMutant (krnl : XboxKrnl) (out initialOwner : Nat) :
    (krnl.ntCreateMutant out initialOwner).1.frame = krnl.frame := by
  unfold ntCreateMutant
  split
  · rfl
  · split
    · split <;> simp
    · simp

/-- The state of a mutant is stored; whose it is takes an identity. -/
theorem frame_ntQueryMutant (krnl : XboxKrnl) (handle information : Nat) :
    (krnl.ntQueryMutant handle information).1.frame = krnl.frame := by
  unfold ntQueryMutant
  split
  · rfl
  · split
    · rfl
    · simp only
      split
      · exact krnl.frame_currentThreadToken
      · rfl

/-- A mutant is initialised at a guest address. -/
theorem frame_keInitializeMutant (krnl : XboxKrnl) (va initialOwner : Nat) :
    (krnl.keInitializeMutant va initialOwner).1.frame = krnl.frame := by
  unfold keInitializeMutant
  split
  · rfl
  · split
    · split <;> simp
    · simp

/-- A semaphore is created; its first units are no release. -/
theorem frame_ntCreateSemaphore (krnl : XboxKrnl) (out initial maximum : Nat) :
    (krnl.ntCreateSemaphore out initial maximum).1.frame = krnl.frame := by
  unfold ntCreateSemaphore
  split
  · rfl
  · split <;> simp

/-- The state of a semaphore is stored. -/
theorem frame_ntQuerySemaphore (krnl : XboxKrnl) (handle information : Nat) :
    (krnl.ntQuerySemaphore handle information).1.frame = krnl.frame := by
  unfold ntQuerySemaphore
  split
  · rfl
  · split <;> simp

/-- A semaphore is initialised at a guest address. -/
theorem frame_keInitializeSemaphore (krnl : XboxKrnl) (va count limit : Nat) :
    (krnl.keInitializeSemaphore va count limit).1.frame = krnl.frame := by
  unfold keInitializeSemaphore
  split <;> simp

/-- The priority of a thread is a field of its object. -/
theorem frame_keSetBasePriorityThread (krnl : XboxKrnl) (thread increment : Nat) :
    (krnl.keSetBasePriorityThread thread increment).1.frame = krnl.frame := by
  unfold keSetBasePriorityThread
  split <;> simp

/-- A spawn switches nobody and takes no time, whether it succeeds or not. -/
theorem spawnReserved_clock (sched : GuestScheduler Token GuestFiber) (ctx : GuestFiber) (reserve : Nat)
    (region : Option Nat) : (sched.spawnReserved ctx reserve region).1.current = sched.current ∧
      (sched.spawnReserved ctx reserve region).1.tick = sched.tick := by
  unfold GuestScheduler.spawnReserved
  split
  · exact ⟨rfl, rfl⟩
  · split <;> exact ⟨rfl, rfl⟩

/-- A thread is spawned and waits for its turn. -/
theorem frame_psCreateSystemThreadEx (krnl : XboxKrnl) (request : ThreadRequest) :
    (krnl.psCreateSystemThreadEx request).1.frame = krnl.frame := by
  have spawned := spawnReserved_clock krnl.sched { body := .systhread none, point := .entry } request.tlsDataSize
    request.region
  unfold psCreateSystemThreadEx
  split
  · rfl
  · simp only
    split
    · exact Prod.ext (Prod.ext spawned.1 spawned.2) rfl
    · rw [frame_writeOut, frame_write32, frame_note _ (by simp), frame_modify, frame_insertObject, frame_allocate]
      exact Prod.ext (Prod.ext spawned.1 spawned.2) rfl

/-- A slot is freed, and with it perhaps the object. -/
theorem frame_ntClose (krnl : XboxKrnl) (handle : Nat) : (krnl.ntClose handle).1.frame = krnl.frame := by
  unfold ntClose
  split <;> simp

/-- The named thread is resumed. -/
theorem frame_ntResumeThread (krnl : XboxKrnl) (handle out : Nat) :
    (krnl.ntResumeThread handle out).1.frame = krnl.frame := by
  unfold ntResumeThread
  split <;> simp

/-- The same for a thread that is named by its identifier. -/
theorem frame_keResumeThread (krnl : XboxKrnl) (thread : Nat) : (krnl.keResumeThread thread).1.frame = krnl.frame := by
  unfold keResumeThread
  split <;> simp

/-- The fields of a critical section lie in guest memory. -/
theorem frame_csInit (krnl : XboxKrnl) (va : Nat) : (krnl.csInit va).1.frame = krnl.frame := by
  unfold csInit
  split <;> rfl

/-- Leaving a section wakes at most one fiber, and blocks nobody. -/
theorem frame_csLeave (krnl : XboxKrnl) (va : Nat) : (krnl.csLeave va).1.frame = krnl.frame := by
  unfold csLeave
  split
  · rfl
  · split
    · rfl
    · split
      · rfl
      · simp only
        split <;> rfl

/-- Trying to enter never blocks. -/
theorem frame_csTryEnter (krnl : XboxKrnl) (va : Nat) : (krnl.csTryEnter va).1.frame = krnl.frame := by
  unfold csTryEnter
  split
  · simp only
    split
    · rfl
    · split <;> rfl
  · rfl

/-! ## Every call -/

/-- A call blocks inside a wait only at the point of its own wait.

Proof: one case for each call. The waits, the delay, the two suspensions and the entry of a section
may block; all other calls return, by their lemma above. -/
theorem exec_blocking (krnl : XboxKrnl) {call : Call} (plain : looksItselfUp call = false)
    (keeps : call.releases = false) :
    krnl.Blocking (krnl.enters call) (krnl.exec call).1 := by
  cases call with
  | keDelayExecutionThread waitMode alertable interval => exact krnl.keDelayExecutionThread_blocking interval
  | keWaitForSingleObject object reason mode alertable timeout =>
    exact krnl.waitForSingle_blocking (krnl.findObjectByVa object) timeout
  | ntWaitForSingleObject handle alertable timeout =>
    exact krnl.waitForSingle_blocking (krnl.findObjectByHandle handle) timeout
  | ntWaitForSingleObjectEx handle mode alertable timeout =>
    exact krnl.waitForSingle_blocking (krnl.findObjectByHandle handle) timeout
  | ntWaitForMultipleObjectsEx count handles waitType mode alertable timeout =>
    exact krnl.ntWaitForMultipleObjectsEx_blocking count handles waitType timeout
  | ntSuspendThread handle out => exact krnl.ntSuspendThread_blocking handle out
  | keSuspendThread thread => exact krnl.keSuspendThread_blocking thread
  | rtlEnterCriticalSection va => exact krnl.csEnter_blocking va
  | psTerminateSystemThread | ntYieldExecution => cases plain
  | ntReleaseMutant | keReleaseMutant | ntReleaseSemaphore | keReleaseSemaphore => cases keeps
  | keInitializeEvent event type state => exact .stays (krnl.frame_keInitializeEvent event type state)
  | keSetEvent event increment wait => exact .stays (krnl.frame_keEvent event krnl.frame_keSetEventCore)
  | keResetEvent event => exact .stays (krnl.frame_keEvent event (fun ptr => krnl.frame_storeSignaled ptr false))
  | ntCreateEvent out attributes type state => exact .stays (krnl.frame_ntCreateEvent out type state)
  | ntSetEvent handle out => exact .stays (krnl.frame_ntSetEvent handle out)
  | ntClearEvent handle => exact .stays (krnl.frame_ntClearEvent handle)
  | ntPulseEvent handle out => exact .stays (krnl.frame_ntPulseEvent handle out)
  | ntCreateMutant out attributes initialOwner => exact .stays (krnl.frame_ntCreateMutant out initialOwner)
  | ntQueryMutant handle information => exact .stays (krnl.frame_ntQueryMutant handle information)
  | keInitializeMutant mutant initialOwner => exact .stays (krnl.frame_keInitializeMutant mutant initialOwner)
  | ntCreateSemaphore out attributes initial maximum => exact .stays (krnl.frame_ntCreateSemaphore out initial maximum)
  | ntQuerySemaphore handle information => exact .stays (krnl.frame_ntQuerySemaphore handle information)
  | keInitializeSemaphore semaphore count limit =>
    exact .stays (krnl.frame_keInitializeSemaphore semaphore count limit)
  | keGetCurrentThread => exact .stays krnl.frame_currentThreadToken
  | keSetBasePriorityThread thread increment => exact .stays (krnl.frame_keSetBasePriorityThread thread increment)
  | psCreateSystemThreadEx request => exact .stays (krnl.frame_psCreateSystemThreadEx request)
  | ntClose handle => exact .stays (krnl.frame_ntClose handle)
  | ntResumeThread handle out => exact .stays (krnl.frame_ntResumeThread handle out)
  | keResumeThread thread => exact .stays (krnl.frame_keResumeThread thread)
  | rtlInitializeCriticalSection va => exact .stays (krnl.frame_csInit va)
  | rtlLeaveCriticalSection va => exact .stays (krnl.frame_csLeave va)
  | rtlTryEnterCriticalSection va => exact .stays (krnl.frame_csTryEnter va)

/-- A call that releases an object goes on. -/
theorem exec_release (krnl : XboxKrnl) {call : Call} (releases : call.releases = true) :
    (krnl.exec call).1.clock = krnl.clock := by
  cases call with
  | ntReleaseMutant handle out =>
    simp only [exec, returning, ntReleaseMutant]
    split
    · rfl
    · split
      · exact clock_of_frame krnl.frame_currentThreadToken
      · refine (clock_of_frame (frame_writeOut _ _ _)).trans ((clock_releaseMutant _ _).trans ?_)
        exact clock_of_frame krnl.frame_currentThreadToken
  | keReleaseMutant mutant increment abandoned wait =>
    simp only [exec, returning, keReleaseMutant]
    split
    · rfl
    · exact krnl.clock_releaseMutant _
  | ntReleaseSemaphore handle releaseCount out =>
    simp only [exec, returning, ntReleaseSemaphore]
    split
    · rfl
    · rename_i accepted
      exact (clock_of_frame (frame_writeOut _ _ _)).trans (clock_adjustSemaphore accepted)
  | keReleaseSemaphore semaphore increment adjustment wait =>
    simp only [exec, returning, keReleaseSemaphore]
    split
    · rfl
    · rename_i accepted
      exact clock_adjustSemaphore accepted
  | _ => cases releases

/-! ## The running fiber -/

/-- No fiber at the position is inside a wait. -/
def Outside (krnl : XboxKrnl) (index : Nat) : Prop := krnl.EnteredAt index 0 none

/-- A fiber at the position is at no point of a wait. -/
theorem Outside.iff {index : Nat} : krnl.Outside index ↔
    ∀ fiber, krnl.sched.threads[index]? = some fiber → fiber.ctx.point.inWait = false := by
  constructor
  · intro outside fiber found
    by_contra inside
    exact absurd (outside fiber found (by simpa using inside)).1 (by simp)
  · intro outside fiber found inside
    rw [outside fiber found] at inside
    cases inside

/-- Where nobody is inside a wait, everybody inside one has come there as expected. -/
theorem Outside.entered {index : Nat} (outside : krnl.Outside index) (tick : Nat) (point : Option Point) :
    krnl.EnteredAt index tick point := by
  intro fiber found inside
  rw [Outside.iff.mp outside fiber found] at inside
  cases inside

/-- A fiber that still runs guest code is not inside a wait. -/
theorem Outside.running (guest : ∀ fiber, next.currentFiber = some fiber → fiber.ctx.point = .guest) {index : Nat}
    (current : next.sched.current = some index) : next.Outside index := by
  refine Outside.iff.mpr (fun fiber found => ?_)
  rw [guest fiber (by simp [currentFiber, current, found])]
  rfl

/-- Where the running fiber is after code that may have blocked. -/
theorem Blocking.entered {point : Option Point} (blocking : krnl.Blocking point next)
    (guest : ∀ fiber, next.currentFiber = some fiber → fiber.ctx.point = .guest) {index : Nat}
    (switched : krnl.sched.current = some index) : next.EnteredAt index krnl.sched.tick point := by
  cases blocking with
  | stays same =>
    exact (Outside.running guest ((congrArg Prod.fst (clock_of_frame same)).trans switched)).entered _ _
  | @blocks middle same token ticks spot expected =>
    intro fiber found inside
    have here : middle.sched.current = some index := (congrArg Prod.fst (clock_of_frame same)).trans switched
    have time : middle.sched.tick = krnl.sched.tick := congrArg Prod.snd (clock_of_frame same)
    rw [blockCurrent_eq here, time] at found
    obtain ⟨before, _, rfl⟩ := modify_origin found
    simp only [↓reduceIte] at inside ⊢
    obtain ⟨point, rfl⟩ := expected inside
    exact ⟨point.symm, token, before, rfl⟩

/-- Where the running fiber goes. -/
theorem moves_outside {effect : Effect} (allowed : effect.Allowed krnl) (still : effect.label ≠ .waiting)
    (fiber : Fiber) (before : fiber.ctx.point.inWait = false) : (effect.moves krnl fiber).ctx.point.inWait = false := by
  cases effect with
  | block token ticks point =>
    cases point with
    | waitDispatch | waitMultiple => exact absurd rfl still
    | _ => rfl
  | pause state wakeTick joinTarget point =>
    obtain ⟨_, ⟨_, reply, rfl⟩ | ⟨_, rfl⟩⟩ := allowed <;> rfl
  | suspendSelf | enter | proceed => rfl
  | _ => exact before

/-- Only code that waits puts a fiber inside a wait. -/
theorem outside_path {labels : List Label} (path : Path labels krnl next) (ok : krnl.Ok)
    (still : .waiting ∉ labels) (quiet : .loop ∉ labels) {index : Nat} (outside : krnl.Outside index) :
    next.Outside index := by
  have kept : ∀ (krnl : XboxKrnl) (effect : Effect), krnl.Ok → krnl.Outside index → effect.label ∈ labels →
      effect.Allowed krnl → (effect.apply krnl).Outside index := by
    intro krnl effect ok outside labeled allowed
    have loops : effect.label ≠ .loop := fun same => quiet (same ▸ labeled)
    rw [Outside.iff] at outside ⊢
    intro after found
    rcases Effect.fiber_origin ok allowed loops found with ⟨before, here, fate⟩ | ⟨_, spawned⟩
    · have earlier := outside before here
      rcases fate with ⟨_, rfl⟩ | ⟨_, rfl | ⟨_, _, rfl⟩⟩
      · exact moves_outside allowed (fun same => still (same ▸ labeled)) before earlier
      · exact earlier
      · exact earlier
    · rw [(Effect.spawned_fresh spawned).1]
      rfl
  exact path.keeps kept ok outside

/-- A reply does not change who runs. -/
theorem currentFiber_deliver (krnl : XboxKrnl) (reply : Option Reply) :
    (krnl.deliver reply).currentFiber = krnl.currentFiber := by
  cases reply <;> rfl

/-- The reply does not move the fiber. -/
theorem EnteredAt.deliver {index tick : Nat} {point : Option Point} (entered : krnl.EnteredAt index tick point)
    (reply : Option Reply) : (krnl.deliver reply).EnteredAt index tick point := by
  cases reply <;> exact entered

/-- The wait that the fiber goes on with when it is woken. -/
def rewaits (fiber : Fiber) : Option Point :=
  if !fiber.waitTimedOut && fiber.ctx.point.inWait then some fiber.ctx.point else none

/-- The labels of a thread that starts. -/
def startLabels : List Label := [.entering, .ending, .exiting]

/-- A thread that runs on from its start calls its runner or ends. -/
theorem Steady.runsOn_starts (steady : krnl.Steady) (runs : krnl.RunsOn next) : Path startLabels krnl next := by
  rcases runs with ⟨_, handle, allowed, rfl⟩ | ⟨_, middle, fiber, path, _, _, _, ends⟩
  · exact Path.one (.ran handle) (by simp [Effect.label, startLabels]) allowed
  · have ended := (path.steady steady (by simp)).ends_path ends
    exact (path.mono (by simp [startLabels])).trans (ended.mono (by simp [startLabels]))

/-- A thread that starts parks itself, is run or ends. -/
theorem Ok.starts_path (ok : krnl.Ok) {fiber : Fiber} (running : krnl.currentFiber = some fiber)
    (resumes : krnl.Resumes fiber next) (entry : fiber.ctx.point = .entry) {self : Option Ptr}
    (body : fiber.ctx.body = .systhread self) : Path startLabels krnl next := by
  have fresh : ¬ (Effect.proceed).Allowed krnl := by
    rintro ⟨other, again, native⟩
    obtain rfl := Option.some.inj (running.symm.trans again)
    rw [native entry] at body
    cases body
  have entered : (Effect.enter).Allowed krnl → Path startLabels krnl ((Effect.enter).apply krnl) :=
    fun enters => Path.one .enter (by simp [Effect.label, startLabels]) enters
  cases resumes with
  | parks self object _ found live suspended enters allowed result =>
    rw [result]
    exact (entered enters).trans
      (Path.one (.block object.token kNoTimeout .parked) (by simp [Effect.label, startLabels]) allowed)
  | starts _ enters ready runs => exact (entered enters).trans ((ok.entered enters).runsOn_starts runs)
  | unparks self parked _ proceeds => exact absurd proceeds fresh
  | waits middle woken alive proceeds => exact absurd proceeds fresh
  | contends va point proceeds => exact absurd proceeds fresh
  | continues elsewhere proceeds => exact absurd proceeds fresh

/-- The fiber that is switched in goes on with its call, or it is a thread that starts. -/
theorem Ok.resume_blocking (ok : krnl.Ok) {fiber : Fiber} (running : krnl.currentFiber = some fiber)
    (resumed : krnl.resume = some next) :
    (∃ middle reply, krnl.Blocking (rewaits fiber) middle ∧ next = middle.deliver reply) ∨
      (fiber.ctx.point.inWait = false ∧ Path startLabels krnl next) := by
  have wholly := resumed
  obtain ⟨index, switched, _⟩ := currentFiber_index running
  have frame : (krnl.setPoint .guest).frame = krnl.frame := by
    unfold setPoint
    rw [switched]
    rfl
  simp only [XboxKrnl.resume, running] at resumed
  cases point : fiber.ctx.point with
  | entry =>
    simp only [point] at resumed
    cases body : fiber.ctx.body with
    | native =>
      rw [body] at resumed
      exact Or.inl ⟨_, none, .stays frame, (Option.some.inj resumed).symm⟩
    | systhread self =>
      exact Or.inr ⟨rfl, ok.starts_path running (ok.resume_entry running point body resumed) point body⟩
  | guest =>
    simp only [point] at resumed
    exact Or.inl ⟨_, none, .stays frame, (Option.some.inj resumed).symm⟩
  | returning reply =>
    simp only [point] at resumed
    exact Or.inl ⟨_, some reply, .stays frame, (Option.some.inj resumed).symm⟩
  | waitDispatch ptr ticks =>
    refine Or.inl ⟨_, _, ?_, (resume_waitDispatch running point wholly).2⟩
    unfold XboxKrnl.resumeDispatch
    cases woken : fiber.waitTimedOut with
    | true => exact .stays frame
    | false =>
      simp only [Bool.not_false, Bool.not_true, Bool.false_eq_true, ↓reduceIte]
      split
      · exact .stays frame
      · exact Blocking.after frame (waitDispatch_blocking _ ptr false ticks
          (fun _ => by simp [rewaits, woken, point, Point.inWait]))
  | waitMultiple ptrs waitAll ticks =>
    refine Or.inl ⟨_, _, ?_, (resume_waitMultiple running point wholly).2⟩
    unfold XboxKrnl.resumeMultiple
    cases woken : fiber.waitTimedOut with
    | true => exact .stays (by simpa using frame)
    | false =>
      simp only [Bool.not_false, Bool.not_true, Bool.false_eq_true, ↓reduceIte]
      exact Blocking.after (by simpa using frame) (waitMultiple_blocking _ ptrs waitAll false ticks
        (fun _ => by simp [rewaits, woken, point, Point.inWait]))
  | parked =>
    have proceeds : (Effect.proceed).Allowed krnl := ⟨fiber, running, by simp [point]⟩
    obtain ⟨self, _, _, runs⟩ := ok.resume_parked running point wholly
    have path : Path startLabels krnl _ := Path.one .proceed (by simp [Effect.label, startLabels]) proceeds
    exact Or.inr ⟨rfl, path.trans ((ok.proceeded proceeds).runsOn_starts runs)⟩
  | suspended ptr out previous reply =>
    simp only [point] at resumed
    exact Or.inl ⟨_, some reply, .stays (by simpa using frame), (Option.some.inj resumed).symm⟩
  | csEnter va =>
    simp only [point] at resumed
    refine Or.inl ⟨_, _, ?_, (Option.some.inj resumed).symm⟩
    have contends := Blocking.after frame (csEnter_blocking (krnl.setPoint .guest) va)
    simpa [rewaits, point, Point.inWait] using contends

/-- The fiber that is switched in is inside a wait only if it has gone on with its own. -/
theorem Ok.resume_entered (ok : krnl.Ok) {fiber : Fiber} (running : krnl.currentFiber = some fiber)
    (resumed : krnl.resume = some next) (steady : next.Steady) {index : Nat}
    (switched : krnl.sched.current = some index) : next.EnteredAt index krnl.sched.tick (rewaits fiber) := by
  rcases ok.resume_blocking running resumed with ⟨middle, reply, blocking, rfl⟩ | ⟨point, path⟩
  · refine EnteredAt.deliver (blocking.entered (fun other found => ?_) switched) reply
    exact steady.guest other ((currentFiber_deliver middle reply).trans found)
  · refine Outside.entered ?_ _ _
    refine outside_path path ok (by simp [startLabels]) (by simp [startLabels]) (Outside.iff.mpr (fun other found => ?_))
    have same : krnl.currentFiber = some other := by simp [currentFiber, switched, found]
    obtain rfl := Option.some.inj (running.symm.trans same)
    exact point

/-! ## The fibers that do not run -/

/-- A fiber that is left where it is, or only made ready. -/
structure Rests (before after : Fiber) : Prop where
  ctx : after.ctx = before.ctx
  wakeTick : after.wakeTick = before.wakeTick
  blocked : after.state = .blockedWait → after = before

/-- A fiber that is left alone rests. -/
theorem Rests.refl (fiber : Fiber) : Rests fiber fiber := ⟨rfl, rfl, fun _ => rfl⟩

/-- Two rests are one. -/
theorem Rests.trans {before middle after : Fiber} (first : Rests before middle) (second : Rests middle after) :
    Rests before after := by
  refine ⟨second.ctx.trans first.ctx, second.wakeTick.trans first.wakeTick, fun blocked => ?_⟩
  obtain rfl := second.blocked blocked
  exact first.blocked blocked

/-- A fiber that is woken keeps its context and its deadline. -/
theorem Rests.wake (fiber : Fiber) : Rests fiber fiber.wake := ⟨rfl, rfl, fun blocked => by cases blocked⟩

/-- What the loop does to a fiber that it passes is at most a wake-up. -/
theorem Rests.passes {fiber passed : Fiber} (passes : Effect.Passes fiber passed) : Rests fiber passed := by
  refine ⟨passes.same.2.1, ?_, fun blocked => passes.unready (by rw [blocked]; decide)⟩
  rcases passes with rfl | ⟨_, rfl⟩ | ⟨_, rfl⟩ <;> rfl

/-- A spawn takes no time. -/
theorem tick_spawnReserved (sched : GuestScheduler Token Context) (ctx : Context) (stackTopReserve : Nat)
    (region : Option Nat) : (sched.spawnReserved ctx stackTopReserve region).1.tick = sched.tick := by
  unfold GuestScheduler.spawnReserved
  split
  · rfl
  · split <;> rfl

/-- Moving on in the code of a call takes no time. -/
theorem tick_setPoint (krnl : XboxKrnl) (point : Point) : (krnl.setPoint point).sched.tick = krnl.sched.tick := by
  unfold setPoint
  split <;> rfl

/-- A switch to the scheduler takes no time, either: it goes by in the turns of the loop. -/
theorem tick_blockCurrent (krnl : XboxKrnl) (token : Token) (ticks : Nat) (point : Point) :
    (krnl.blockCurrent token ticks point).sched.tick = krnl.sched.tick := by
  unfold blockCurrent
  split <;> rfl

/-- Kernel code outside the run loop does not change the time. -/
theorem tick_effect {effect : Effect} (quiet : effect.label ≠ .loop) :
    (effect.apply krnl).sched.tick = krnl.sched.tick := by
  have clocks : ∀ {next : XboxKrnl}, next.frame = krnl.frame → next.sched.tick = krnl.sched.tick :=
    fun same => congrArg Prod.snd (clock_of_frame same)
  cases effect with
  | compute | deliver | ran | consume | adjust | install | spend | close | leaveSection => rfl
  | identify => exact clocks (krnl.frame_ensureThreadObject _)
  | acquire mode ptrs status =>
    refine clocks ?_
    rw [Effect.apply, frame_noteSatisfied, frame_taken]
  | block token ticks point => exact krnl.tick_blockCurrent token ticks point
  | suspendSelf ptr out reply => exact tick_blockCurrent _ _ _ _
  | setEvent ptr => exact clocks (krnl.frame_keSetEventCore ptr)
  | pulseEvent ptr => exact clocks (krnl.frame_pulseEvent ptr)
  | releaseMutant ptr => exact congrArg Prod.snd (krnl.clock_releaseMutant ptr)
  | releaseSemaphore ptr adjustment => exact congrArg Prod.snd (krnl.clock_releaseSemaphore ptr adjustment)
  | create object =>
    exact congrArg Prod.snd (clock_of_frame (frame_insertObject (krnl.allocate object).1 (krnl.allocate object).2))
  | createThread request base =>
    have inserted := congrArg Prod.snd (clock_of_frame (frame_insertObject (({ krnl with
      sched := (krnl.sched.spawnReserved { body := .systhread none, point := .entry } request.tlsDataSize
        (some base)).1, nextThreadId := krnl.nextThreadId + 2 } : XboxKrnl).allocate
        { newThread request krnl.nextThreadId with thread := { (newThread request krnl.nextThreadId).thread with
          schedHandle := (krnl.sched.spawnReserved { body := .systhread none, point := .entry }
            request.tlsDataSize (some base)).2 } }).1 krnl.heap.length))
    exact Eq.trans inserted (tick_spawnReserved _ _ _ _)
  | resumeThread ptr => exact clocks (krnl.frame_resumeThread ptr)
  | enter =>
    simp only [Effect.apply, setBody]
    split <;> exact krnl.tick_setPoint .guest
  | proceed => exact krnl.tick_setPoint .guest
  | abandon ptr =>
    refine clocks ?_
    simp only [Effect.apply, XboxKrnl.abandon]
    split <;> simp
  | wakeJoiner ptr => exact clocks (krnl.frame_wakeObject ptr 1)
  | exit code =>
    simp only [Effect.apply]
    split <;> rfl
  | pause state wakeTick joinTarget point =>
    simp only [Effect.apply]
    split <;> rfl
  | spawn stackTopReserve base => exact tick_spawnReserved _ _ _ _
  | enterLoop | turn => exact absurd rfl quiet

/-- Kernel code leaves every fiber that does not run where it is, at the same time. -/
theorem rests_path {labels : List Label} (path : Path labels krnl next) (ok : krnl.Ok) (quiet : .loop ∉ labels) :
    next.sched.tick = krnl.sched.tick ∧ (next.sched.current = krnl.sched.current ∨ next.sched.current = none) ∧
      ∀ index after, krnl.sched.current ≠ some index → next.sched.threads[index]? = some after →
        after.ctx.point.inWait = true → ∃ before, krnl.sched.threads[index]? = some before ∧ Rests before after := by
  induction path with
  | refl => exact ⟨rfl, Or.inl rfl, fun index after _ found _ => ⟨after, found, .refl after⟩⟩
  | @tail middle last earlier final inductionHypothesis =>
    obtain ⟨time, running, rests⟩ := inductionHypothesis
    obtain ⟨effect, labeled, allowed, rfl⟩ := final
    have middleOk := Path.ok earlier ok
    have loops : effect.label ≠ .loop := fun same => quiet (same ▸ labeled)
    have current := (effect.leads middleOk allowed loops).current
    refine ⟨(tick_effect loops).trans time, ?_, fun index after other found inside => ?_⟩
    · rw [current]
      split
      · exact Or.inr rfl
      · exact running
    · have otherNow : middle.sched.current ≠ some index := by
        rcases running with same | none
        · rwa [same]
        · rw [none]
          simp
      rcases Effect.fiber_origin middleOk allowed loops found with ⟨before, here, fate⟩ | ⟨_, spawned⟩
      · rcases fate with ⟨switched, _⟩ | ⟨_, rfl | ⟨_, _, rfl⟩⟩
        · exact absurd switched otherNow
        · exact rests index after other here inside
        · obtain ⟨first, there, resting⟩ := rests index before other here inside
          exact ⟨first, there, resting.trans (.wake before)⟩
      · rw [(Effect.spawned_fresh spawned).1] at inside
        cases inside

/-! ## Steps -/

/-- Where a fiber that an action leaves inside a wait comes from: it rests there, or it is the
running fiber and has just blocked in a call of its own or in the loop of its wait. -/
inductive CameFrom (krnl : XboxKrnl) (action : Action) (index : Nat) (after : Fiber) : Prop where
  | rests (before : Fiber) (here : krnl.sched.threads[index]? = some before) (rests : Rests before after)
    (early : action = .turn → after.state = .blockedWait → krnl.sched.tick < after.wakeTick)
  | enters (call : Call) (isCall : action = .call call) (switched : krnl.sched.current = some index)
    (point : krnl.refreshData.enters call = some after.ctx.point)
    (blocked : ∃ token before, after = blockedAt krnl.sched.tick token after.ctx.point.ticks after.ctx.point before)
  | rewaits (fiber : Fiber) (isTurn : action = .turn)
    (switched : ((Effect.turn).apply krnl).sched.current = some index)
    (running : ((Effect.turn).apply krnl).currentFiber = some fiber) (woken : fiber.waitTimedOut = false)
    (point : fiber.ctx.point = after.ctx.point)
    (blocked : ∃ token before, after = blockedAt krnl.sched.tick token after.ctx.point.ticks after.ctx.point before)

/-- The running fiber after a call. -/
theorem Steady.call_entered (steady : krnl.Steady) {call : Call} (stepped : krnl.step (.call call) = some next)
    {index : Nat} (switched : krnl.sched.current = some index) :
    next.EnteredAt index krnl.sched.tick (krnl.refreshData.enters call) := by
  have last := (steady.step stepped).2
  obtain ⟨_, self, rfl⟩ := call_cases stepped
  have refreshed : krnl.refreshData.clock = krnl.clock := clock_of_frame krnl.frame_refreshData
  have here : krnl.refreshData.sched.current = some index := (congrArg Prod.fst refreshed).trans switched
  have time : krnl.refreshData.sched.tick = krnl.sched.tick := congrArg Prod.snd refreshed
  have guest : ∀ fiber, (krnl.refreshData.exec call).1.currentFiber = some fiber → fiber.ctx.point = .guest := by
    intro fiber running
    exact last.guest fiber ((currentFiber_deliver _ _).trans running)
  rw [← time]
  refine EnteredAt.deliver ?_ _
  cases plain : looksItselfUp call with
  | false =>
    cases releases : call.releases with
    | false => exact (krnl.refreshData.exec_blocking plain releases).entered guest here
    | true =>
      have current := congrArg Prod.fst (krnl.refreshData.exec_release releases)
      exact (Outside.running guest (current.trans here)).entered _ _
  | true =>
    have itself : krnl.refreshData.sched.find krnl.refreshData.currentHandle = some index := by
      have finds := self.resolve_right (by simp [plain])
      rw [← here]
      simpa [findsItself] using finds
    cases call with
    | ntYieldExecution =>
      have yields : (krnl.refreshData.exec .ntYieldExecution).1.Outside index := by
        refine Outside.iff.mpr (fun fiber found => ?_)
        simp only [XboxKrnl.exec, XboxKrnl.ntYieldExecution, itself] at found
        obtain ⟨before, _, rfl⟩ := modify_origin found
        rw [if_pos rfl]
        rfl
      exact yields.entered _ _
    | psTerminateSystemThread exitStatus =>
      refine Outside.entered ?_ _ _
      have path := steady.refreshed.psTerminateSystemThread exitStatus
      refine outside_path path steady.refreshed.ok (by simp) (by simp) (Outside.iff.mpr (fun fiber found => ?_))
      have running : krnl.refreshData.currentFiber = some fiber := by simp [currentFiber, here, found]
      rw [steady.refreshed.guest fiber running]
      rfl
    | _ => cases plain

/-- The running fiber after the other actions is not inside a wait. -/
theorem Steady.action_outside (steady : krnl.Steady) {action : Action} (stepped : krnl.step action = some next)
    (other : ∀ call, action ≠ .call call) (loops : action ≠ .turn) {index : Nat}
    (switched : krnl.sched.current = some index) : next.Outside index := by
  have before : krnl.Outside index := by
    refine Outside.iff.mpr (fun fiber found => ?_)
    have running : krnl.currentFiber = some fiber := by simp [currentFiber, switched, found]
    rw [steady.guest fiber running]
    rfl
  have path := (steady.step stepped).1
  cases action with
  | run =>
    obtain ⟨_, _, rfl⟩ := run_cases stepped
    exact before
  | turn => exact absurd rfl loops
  | call call => exact absurd rfl (other call)
  | finish code => exact outside_path path steady.ok (by simp [actionLabels]) (by simp [actionLabels]) before
  | spawn stackTopReserve region =>
    exact outside_path path steady.ok (by simp [actionLabels]) (by simp [actionLabels]) before
  | sleep ticks =>
    obtain ⟨position, here, rfl⟩ := Option.map_eq_some_iff.mp stepped
    obtain rfl := Option.some.inj (here.symm.trans switched)
    refine Outside.iff.mpr (fun fiber found => ?_)
    simp only [GuestScheduler.threadSleep, GuestScheduler.threadYield] at found
    split at found <;>
      · obtain ⟨earlier, _, rfl⟩ := modify_origin found
        rw [if_pos rfl]
        rfl
  | join target =>
    obtain ⟨position, here, rfl⟩ := Option.map_eq_some_iff.mp stepped
    obtain rfl := Option.some.inj (here.symm.trans switched)
    rcases GuestScheduler.join_cases krnl.sched position target (fun ctx => { ctx with point := .guest }) with
      same | same
    · rw [same]
      exact before
    · rw [same]
      refine Outside.iff.mpr (fun fiber found => ?_)
      obtain ⟨earlier, _, rfl⟩ := modify_origin found
      rw [if_pos rfl]
      rfl
  | compute ram filetime =>
    obtain ⟨_, rfl⟩ := compute_cases stepped
    exact before

/-- A fiber is blocked after the wake passes only before its deadline. -/
theorem turn_early {index : Nat} {fiber : Fiber}
    (found : ((Effect.turn).apply krnl).sched.threads[index]? = some fiber) (blocked : fiber.state = .blockedWait) :
    krnl.sched.tick < fiber.wakeTick := by
  have early : ∀ {before : Fiber}, passed krnl.sched before = fiber → krnl.sched.tick < fiber.wakeTick := by
    intro before result
    rcases passed_cases krnl.sched before with ⟨same, early⟩ | ⟨_, _, woken⟩ | ⟨_, _, woken⟩ | ⟨_, woken⟩
    · obtain rfl := same.symm.trans result
      exact early (Or.inr blocked)
    all_goals
      rw [← result, woken] at blocked
      cases blocked
  simp only [Effect.apply] at found
  have turns := loopTurn_turns krnl.sched
  generalize krnl.sched.loopTurn.1 = after at turns found
  generalize krnl.sched.loopTurn.2 = outcome at turns
  cases turns with
  | complete finished =>
    rw [finished fiber (List.mem_of_getElem? found)] at blocked
    cases blocked
  | dispatches position dispatched here ready =>
    obtain ⟨middle, between, rfl⟩ := modify_origin found
    obtain ⟨before, there, rfl⟩ := Option.map_eq_some_iff.mp (List.getElem?_map ▸ between)
    by_cases same : position = index
    · subst same
      obtain rfl := Option.some.inj (here.symm.trans there)
      simp only [↓reduceIte, switched, ready] at blocked
      split at blocked <;> cases blocked
    · rw [if_neg same] at early ⊢
      exact early rfl
  | idles | deadlocks | falls =>
    obtain ⟨before, there, rfl⟩ := Option.map_eq_some_iff.mp (List.getElem?_map ▸ found)
    exact early rfl

/-- A turn does not change the time in which the fiber that it switches in runs. -/
theorem turn_tick {index : Nat} (idle : krnl.sched.current = none)
    (switched : ((Effect.turn).apply krnl).sched.current = some index) :
    ((Effect.turn).apply krnl).sched.tick = krnl.sched.tick := by
  simp only [Effect.apply] at switched ⊢
  rcases loopTurn_cases krnl.sched with ⟨_, _, tick, turned, _⟩ | ⟨_, _, tick, turned, _⟩ | ⟨_, _, _, _, _, turned⟩
  · simp [turned, idle] at switched
  · simp [turned, idle] at switched
  · rw [turned]

/-- Every fiber inside a wait rests there, or has just blocked in its own wait. -/
theorem Steady.came_from (steady : krnl.Steady) {action : Action} (stepped : krnl.step action = some next)
    {index : Nat} {after : Fiber} (found : next.sched.threads[index]? = some after)
    (inside : after.ctx.point.inWait = true) : krnl.CameFrom action index after := by
  have path := (steady.step stepped).1
  cases action with
  | turn =>
    obtain ⟨idle, ⟨rfl, still⟩ | ⟨fiber, running, resumed⟩⟩ := turn_cases stepped
    · obtain ⟨before, passed, here, passes, ⟨rfl, _⟩ | ⟨switched, _⟩⟩ := Effect.turn_origin idle found
      · exact .rests before here (.passes passes) (fun _ => turn_early found)
      · rw [still] at switched
        cases switched
    · have ok := Effect.sound steady.ok .turn idle
      obtain ⟨position, switched, _⟩ := currentFiber_index running
      by_cases same : position = index
      · subst same
        obtain ⟨point, blocked⟩ := ok.resume_entered running resumed (steady.step stepped).2 switched after found inside
        rw [turn_tick idle switched] at blocked
        unfold rewaits at point
        split at point
        · rename_i woken
          simp only [Bool.and_eq_true, Bool.not_eq_eq_eq_not, Bool.not_true] at woken
          exact .rewaits fiber rfl switched running woken.1 (Option.some.inj point).symm blocked
        · cases point
      · obtain ⟨later, _⟩ := ok.resumes_path (ok.resume running resumed)
        obtain ⟨middle, here, resting⟩ := (rests_path later ok (by decide)).2.2 index after
          (by rw [switched]; simpa using same) found inside
        obtain ⟨before, passed, there, passes, ⟨rfl, _⟩ | ⟨dispatched, _⟩⟩ := Effect.turn_origin idle here
        · refine .rests before there ((Rests.passes passes).trans resting) (fun _ blocked => ?_)
          obtain rfl := resting.blocked blocked
          exact turn_early here blocked
        · rw [switched] at dispatched
          exact absurd (Option.some.inj dispatched) same
  | run =>
    obtain ⟨_, _, rfl⟩ := run_cases stepped
    exact .rests after found (.refl after) (by simp)
  | call call =>
    by_cases switched : krnl.sched.current = some index
    · obtain ⟨point, blocked⟩ := steady.call_entered stepped switched after found inside
      exact .enters call rfl switched point.symm blocked
    · have quiet : .loop ∉ actionLabels (.call call) := by cases call <;> simp [actionLabels, labelsOf]
      obtain ⟨before, here, resting⟩ := (rests_path path steady.ok quiet).2.2 index after switched found inside
      exact .rests before here resting (by simp)
  | finish | spawn | sleep | join | compute =>
    by_cases switched : krnl.sched.current = some index
    · have outside := steady.action_outside stepped (by simp) (by simp) switched
      rw [Outside.iff.mp outside after found] at inside
      cases inside
    · obtain ⟨before, here, resting⟩ :=
        (rests_path path steady.ok (by simp [actionLabels])).2.2 index after switched found inside
      exact .rests before here resting (by simp)

end XboxKrnl

end SeriesxEmu
