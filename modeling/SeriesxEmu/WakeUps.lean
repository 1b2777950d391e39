import SeriesxEmu.Registry
import SeriesxEmu.Calls

/-!
# What a wake-up changes

`wake_object` and the operations built on it change the thread list by waking
fibers and, in the heap, only the object they are about. This module states each
of them as one record update of the kernel state, so that the later proofs read
off what is unchanged.
-/

namespace SeriesxEmu

open Scheduler GuestScheduler

/-- Wake one waiter of the channel for each unit. -/
def wakeUnits (token : Token) : Nat → List Fiber → List Fiber
  | 0, threads => threads
  | units + 1, threads => wakeUnits token units (signalThreads token false threads).1

/-- Wake one waiter of each channel. -/
def wakeEach (tokens : List Token) (threads : List Fiber) : List Fiber :=
  tokens.foldl (fun threads token => (signalThreads token false threads).1) threads

/-- An object without multiple waits. -/
def clearWaiters (object : DispatcherObject) : DispatcherObject := { object with mwWaiters := [] }

/-- When nobody is woken, more units wake nobody. -/
theorem wakeUnits_idle (token : Token) (units : Nat) (threads : List Fiber)
    (idle : (signalThreads token false threads).2 = 0) : wakeUnits token units threads = threads := by
  induction units with
  | zero => rfl
  | succ units inductionHypothesis =>
    rw [wakeUnits, (signalThreads_zero token false threads idle).1]
    exact inductionHypothesis

/-- One fiber is woken for each unit, as long as there are any. -/
theorem wakeUnits_wakes (token : Token) (units : Nat) (threads : List Fiber) :
    Wakes (· = token) threads (wakeUnits token units threads) := by
  induction units generalizing threads with
  | zero => exact Wakes.refl _ _
  | succ units inductionHypothesis =>
    exact (signalThreads_wakes token false threads).trans (inductionHypothesis _)

/-- One fiber is woken on each channel. -/
theorem wakeEach_wakes (tokens : List Token) (threads : List Fiber) :
    Wakes (· ∈ tokens) threads (wakeEach tokens threads) := by
  induction tokens generalizing threads with
  | nil => exact Wakes.refl _ _
  | cons token rest inductionHypothesis =>
    refine ((signalThreads_wakes token false threads).mono ?_).trans
      ((inductionHypothesis _).mono ?_)
    · rintro _ rfl
      exact List.mem_cons_self
    · intro other member
      exact List.mem_cons_of_mem token member

namespace XboxKrnl

/-- A wake-up, as a change of the fibers. -/
theorem signal_eq (krnl : XboxKrnl) (token : Token) (all : Bool) :
    krnl.signal token all =
      ({ krnl with sched := { krnl.sched with threads := (signalThreads token all krnl.sched.threads).1 } },
        (signalThreads token all krnl.sched.threads).2) :=
  rfl

/-- So are several on one channel. -/
theorem signalUnits_eq (krnl : XboxKrnl) (token : Token) (units : Nat) :
    krnl.signalUnits token units =
      { krnl with sched := { krnl.sched with threads := wakeUnits token units krnl.sched.threads } } := by
  induction units generalizing krnl with
  | zero => rfl
  | succ units inductionHypothesis =>
    rw [signalUnits, signal_eq]
    cases woken : (signalThreads token false krnl.sched.threads).2 with
    | zero =>
      simp only
      rw [(signalThreads_zero token false _ woken).1, wakeUnits_idle token _ _ woken]
    | succ count =>
      simp only
      rw [inductionHypothesis, wakeUnits]

/-- So is one on each of several. -/
theorem signalEach_eq (krnl : XboxKrnl) (tokens : List Token) :
    tokens.foldl (fun krnl token => (krnl.signal token false).1) krnl =
      { krnl with sched := { krnl.sched with threads := wakeEach tokens krnl.sched.threads } } := by
  induction tokens generalizing krnl with
  | nil => rfl
  | cons token rest inductionHypothesis =>
    rw [List.foldl_cons, inductionHypothesis]
    rfl

/-- The thread list after `wake_object`. -/
def wokenBy (krnl : XboxKrnl) (ptr : Ptr) (units : Nat) : List Fiber :=
  wakeEach (krnl.object ptr).mwWaiters
    (wakeUnits (krnl.object ptr).token units krnl.sched.threads)

/-- Waking an object's waiters clears its list of multiple waits. -/
theorem wakeObject_eq (krnl : XboxKrnl) (ptr : Ptr) (units : Nat) :
    krnl.wakeObject ptr units =
      { krnl with
        heap := (krnl.modify ptr clearWaiters).heap
        sched := { krnl.sched with threads := krnl.wokenBy ptr units } } := by
  rw [wakeObject, signalEach_eq, signalUnits_eq]
  rfl

/-- Only waiters of the object are woken. -/
theorem wokenBy_wakes (krnl : XboxKrnl) (ptr : Ptr) (units : Nat) :
    Wakes (fun token => token = (krnl.object ptr).token ∨ token ∈ (krnl.object ptr).mwWaiters)
      krnl.sched.threads (krnl.wokenBy ptr units) :=
  ((wakeUnits_wakes _ units _).mono (fun _ same => Or.inl same)).trans
    ((wakeEach_wakes _ _).mono (fun _ member => Or.inr member))

/-- Two changes of one object are one change. -/
theorem modify_cells (heap : List (Option DispatcherObject)) (ptr : Ptr)
    (first second : DispatcherObject → DispatcherObject) :
    (heap.modify ptr (Option.map first)).modify ptr (Option.map second) =
      heap.modify ptr (Option.map (fun object => second (first object))) := by
  rw [List.modify_modify_eq]
  congr 1
  funext cell
  cases cell <;> rfl

/-- The kernel state with one object changed, fibers woken and memory written. -/
def updated (krnl : XboxKrnl) (ptr : Ptr) (change : DispatcherObject → DispatcherObject)
    (threads : List Fiber) (ram : XbeRam) (history : List Event) : XboxKrnl :=
  { krnl with
    ram, history, heap := (krnl.modify ptr change).heap, sched := { krnl.sched with threads } }

/-- The thread list after an event has been set or pulsed. -/
def releasedBy (krnl : XboxKrnl) (object : DispatcherObject) : List Fiber :=
  wakeEach object.mwWaiters
    (signalThreads object.token (object.event.type == kEventNotify) krnl.sched.threads).1

/-- What setting an event wakes is on its channel or in its list. -/
theorem releasedBy_wakes (krnl : XboxKrnl) (object : DispatcherObject) :
    Wakes (fun token => token = object.token ∨ token ∈ object.mwWaiters)
      krnl.sched.threads (krnl.releasedBy object) :=
  ((signalThreads_wakes _ _ _).mono (fun _ same => Or.inl same)).trans
    ((wakeEach_wakes _ _).mono (fun _ member => Or.inr member))

/-- The event with its new signal, after its multi-waiters have been notified. -/
def withSignal (signaled : Bool) (object : DispatcherObject) : DispatcherObject :=
  { object with mwWaiters := [], event := { object.event with signaled } }

/-- What `ke_set_event` leaves in the event: a synchronization event that has woken
a waiter is reset at once. -/
def setSignal (krnl : XboxKrnl) (object : DispatcherObject) : Bool :=
  object.event.type == kEventNotify ||
    (signalThreads object.token false krnl.sched.threads).2 == 0

/-- A live object has its cell. -/
theorem heap_cell (krnl : XboxKrnl) (ptr : Ptr) (object : DispatcherObject)
    (live : krnl.object? ptr = some object) : krnl.heap[ptr]? = some (some object) := by
  cases found : krnl.heap[ptr]? with
  | none => simp [object?, found] at live
  | some cell => simpa [object?, found] using live

/-- Setting an event, as one change. -/
theorem keSetEventCore_eq (krnl : XboxKrnl) (ptr : Ptr) (object : DispatcherObject)
    (live : krnl.object? ptr = some object) :
    ∃ ram, (krnl.keSetEventCore ptr).1 =
      krnl.updated ptr (withSignal (krnl.setSignal object)) (krnl.releasedBy object) ram krnl.history := by
  have cell := krnl.heap_cell ptr object live
  by_cases notify : object.event.type = kEventNotify
  · have set : krnl.setSignal object = true := by simp [setSignal, notify]
    simp [keSetEventCore, signal_eq, storeSignaled, mirrorSignalState, wakeObject_eq, wokenBy,
      wakeUnits, XboxKrnl.object, object?, modify, cell, notify, updated, releasedBy, set, modify_cells]
    rfl
  · have set : krnl.setSignal object = ((signalThreads object.token false krnl.sched.threads).2 == 0) := by
      simp [setSignal, notify]
    have single : (object.event.type == kEventNotify) = false := by simp [notify]
    simp [keSetEventCore, signal_eq, storeSignaled, mirrorSignalState, wakeObject_eq, wokenBy,
      wakeUnits, XboxKrnl.object, object?, modify, cell, notify, single, updated, releasedBy, set,
      modify_cells]
    rfl

/-- So is a pulse. -/
theorem pulseEvent_eq (krnl : XboxKrnl) (ptr : Ptr) (object : DispatcherObject)
    (live : krnl.object? ptr = some object) :
    ∃ ram, krnl.pulseEvent ptr =
      krnl.updated ptr (withSignal false) (krnl.releasedBy object) ram krnl.history := by
  have cell := krnl.heap_cell ptr object live
  simp [pulseEvent, signal_eq, storeSignaled, mirrorSignalState, wakeObject_eq, wokenBy,
    wakeUnits, XboxKrnl.object, object?, modify, cell, updated, releasedBy, modify_cells]
  rfl

/-- A mutant release that does not free the mutant wakes nobody. -/
theorem releaseMutant_held (krnl : XboxKrnl) (ptr : Ptr) (object : DispatcherObject)
    (live : krnl.object? ptr = some object) (held : ¬ 0 < object.mutant.signalState + 1) :
    ∃ ram, krnl.releaseMutant ptr = krnl.updated ptr putMutant krnl.sched.threads ram
      (.released krnl.currentHandle ptr 1 :: krnl.history) := by
  have cell := krnl.heap_cell ptr object live
  simp [releaseMutant, mirrorSignalState, note, XboxKrnl.object, object?, modify, cell, updated, held]

/-- So is the release that frees a mutant. -/
theorem releaseMutant_freed (krnl : XboxKrnl) (ptr : Ptr) (object : DispatcherObject)
    (live : krnl.object? ptr = some object) (freed : 0 < object.mutant.signalState + 1) :
    ∃ ram, krnl.releaseMutant ptr =
      krnl.updated ptr (fun o => clearWaiters (putMutant o)) (krnl.wokenBy ptr 1) ram
        (.released krnl.currentHandle ptr 1 :: krnl.history) := by
  have cell := krnl.heap_cell ptr object live
  simp [releaseMutant, mirrorSignalState, note, XboxKrnl.object, object?, modify, cell, updated,
    freed, wakeObject_eq, wokenBy, modify_cells, putMutant]

/-- The number of waiters an accepted semaphore release asks to wake. -/
def unitsOf (object : DispatcherObject) (adjustment : Int) : Nat :=
  uint32 (min adjustment (object.semaphore.count + adjustment))

/-- The semaphore after an accepted release. -/
def addUnits (count : Int) (object : DispatcherObject) : DispatcherObject :=
  { object with mwWaiters := [], semaphore := { object.semaphore with count } }

/-- So is the release of a semaphore. -/
theorem releaseSemaphore_eq (krnl : XboxKrnl) (ptr : Ptr) (object : DispatcherObject)
    (live : krnl.object? ptr = some object) (adjustment : Int) :
    ∃ ram, krnl.releaseSemaphore ptr adjustment =
      krnl.updated ptr (addUnits (object.semaphore.count + adjustment))
        (krnl.wokenBy ptr (unitsOf object adjustment)) ram
        (.released krnl.currentHandle ptr adjustment :: krnl.history) := by
  have cell := krnl.heap_cell ptr object live
  simp [releaseSemaphore, mirrorSignalState, note, XboxKrnl.object, object?, modify, cell, updated,
    wakeObject_eq, wokenBy, modify_cells, unitsOf]
  rfl

/-- An abandoned mutant is free and wakes one waiter. -/
theorem abandon_owned (krnl : XboxKrnl) (token : Nat) (ptr : Ptr) (object : DispatcherObject)
    (live : krnl.object? ptr = some object) (kind : object.kind = .mutant)
    (owner : object.mutant.owner = token) :
    ∃ ram, krnl.abandon token ptr =
      krnl.updated ptr (fun o => clearWaiters (abandonMutant o)) (krnl.wokenBy ptr 1) ram krnl.history := by
  have cell := krnl.heap_cell ptr object live
  simp [abandon, mirrorSignalState, XboxKrnl.object, object?, modify, cell, updated, kind, owner,
    wakeObject_eq, wokenBy, modify_cells, abandonMutant]

/-- What is not a mutant of the owner is not abandoned. -/
theorem abandon_other (krnl : XboxKrnl) (token : Nat) (ptr : Ptr) (object : DispatcherObject)
    (live : krnl.object? ptr = some object)
    (other : ¬ (object.kind = .mutant ∧ object.mutant.owner = token)) : krnl.abandon token ptr = krnl := by
  simp [abandon, krnl.object_eq ptr object live, other]

/-! ## Reading an updated state -/

/-- What is found after such a change. -/
theorem object?_updated (krnl : XboxKrnl) (ptr other : Ptr)
    (change : DispatcherObject → DispatcherObject) (threads : List Fiber) (ram : XbeRam)
    (history : List Event) :
    (krnl.updated ptr change threads ram history).object? other =
      if other = ptr then (krnl.object? other).map change else krnl.object? other :=
  krnl.object?_modify ptr other change

/-- The registry stays if the shape of the object does. -/
theorem registry_updated (krnl : XboxKrnl) (ptr : Ptr) (change : DispatcherObject → DispatcherObject)
    (threads : List Fiber) (ram : XbeRam) (history : List Event)
    (kept : ∀ object, krnl.object? ptr = some object → (change object).shape = object.shape) :
    (krnl.updated ptr change threads ram history).registry = krnl.registry :=
  krnl.registry_modify ptr change kept

end XboxKrnl

end SeriesxEmu
