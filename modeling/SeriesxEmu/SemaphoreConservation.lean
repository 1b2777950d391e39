import SeriesxEmu.Histories

/-!
# Semaphores keep their units

The count of a semaphore is its initial count, plus what accepted releases have
added, minus one for each time a wait has acquired it. WaitAll checks every
object of its set before it acquires any, so a set that names a semaphore twice
can take more units than there are. Apart from that the count stays between
zero and the limit.
-/

namespace SeriesxEmu

open Scheduler GuestScheduler

/-- The units of an object that an entry of the history releases. -/
def Event.unitsReleased (ptr : Ptr) : Event → Int
  | .released _ object count => if object = ptr then count else 0
  | _ => 0

/-- The units of an object that an entry of the history acquires. -/
def Event.unitsAcquired (ptr : Ptr) : Event → Int
  | .satisfied _ _ objects _ => objects.count ptr
  | _ => 0

/-- All units of the object that have been released. -/
def releasedUnits (history : List Event) (ptr : Ptr) : Int := (history.map (Event.unitsReleased ptr)).sum

/-- All units of the object that waits have acquired. -/
def acquiredUnits (history : List Event) (ptr : Ptr) : Int := (history.map (Event.unitsAcquired ptr)).sum

/-- The units released over two histories are the sum of both. -/
theorem releasedUnits_append (left right : List Event) (ptr : Ptr) :
    releasedUnits (left ++ right) ptr = releasedUnits left ptr + releasedUnits right ptr := by
  simp [releasedUnits]

/-- So are the units acquired. -/
theorem acquiredUnits_append (left right : List Event) (ptr : Ptr) :
    acquiredUnits (left ++ right) ptr = acquiredUnits left ptr + acquiredUnits right ptr := by
  simp [acquiredUnits]

/-- A history that does not mention the object moves none of its units. -/
theorem units_unmentioned {history : List Event} {ptr : Ptr}
    (unmentioned : ∀ event ∈ history, ptr ∉ event.mentions) :
    releasedUnits history ptr = 0 ∧ acquiredUnits history ptr = 0 := by
  have silent : ∀ event ∈ history, Event.unitsReleased ptr event = 0 ∧ Event.unitsAcquired ptr event = 0 := by
    intro event member
    have absent := unmentioned event member
    cases event with
    | satisfied fiber mode objects status =>
      simpa [Event.unitsReleased, Event.unitsAcquired, List.count_eq_zero, Event.mentions] using absent
    | released fiber object count =>
      have different : object ≠ ptr := by
        rintro rfl
        exact absent (List.mem_singleton.mpr rfl)
      simp [Event.unitsReleased, Event.unitsAcquired, different]
    | _ => exact ⟨rfl, rfl⟩
  constructor
  · rw [releasedUnits, List.map_congr_left (fun event member => (silent event member).1)]
    simp
  · rw [acquiredUnits, List.map_congr_left (fun event member => (silent event member).2)]
    simp

namespace XboxKrnl

variable {krnl next : XboxKrnl}

/-- Every semaphore that `NtCreateSemaphore` has made holds between zero and its
limit of units, as many as its history says; a release that is rejected leaves
all objects as they are. -/
def SemaphoresConserved (krnl : XboxKrnl) : Prop :=
  (∀ ptr initial maximum, .counted ptr initial maximum ∈ krnl.history →
    ∀ object, krnl.object? ptr = some object →
      0 ≤ object.semaphore.count ∧ object.semaphore.count ≤ maximum ∧
      object.semaphore.count = initial + releasedUnits krnl.history ptr - acquiredUnits krnl.history ptr) ∧
  ∀ handle releaseCount out, (krnl.ntReleaseSemaphore handle releaseCount out).2.ok = false →
    ∀ ptr, (krnl.ntReleaseSemaphore handle releaseCount out).1.object? ptr = krnl.object? ptr

/-- A rejected release changes nothing. -/
theorem ntReleaseSemaphore_rejected {handle releaseCount out : Nat}
    (rejected : (krnl.ntReleaseSemaphore handle releaseCount out).2.ok = false) :
    (krnl.ntReleaseSemaphore handle releaseCount out).1 = krnl := by
  unfold ntReleaseSemaphore at rejected ⊢
  split at rejected
  · rfl
  · cases rejected

/-- The account of every semaphore with a creation entry. -/
structure Balanced (krnl : XboxKrnl) : Prop where
  recorded : krnl.Recorded
  kind : ∀ ptr initial maximum, .counted ptr initial maximum ∈ krnl.history →
    ∀ object, krnl.object? ptr = some object →
      object.kind = .semaphore ∧ object.semaphore.limit = maximum
  account : ∀ ptr initial maximum, .counted ptr initial maximum ∈ krnl.history →
    ∀ object, krnl.object? ptr = some object →
      object.semaphore.count = initial + releasedUnits krnl.history ptr - acquiredUnits krnl.history ptr
  bounds : ∀ ptr initial maximum, .counted ptr initial maximum ∈ krnl.history →
    ∀ object, krnl.object? ptr = some object →
      0 ≤ object.semaphore.count ∧ object.semaphore.count ≤ object.semaphore.limit

/-! ## What an effect does to a semaphore -/

/-- Every satisfied wait takes one unit from the count and leaves the limit. -/
theorem taken_semaphore (krnl : XboxKrnl) (count : Nat) (object : DispatcherObject)
    (kind : object.kind = .semaphore) :
    (krnl.takeOne^[count] object).kind = .semaphore ∧
      (krnl.takeOne^[count] object).semaphore =
        { object.semaphore with count := object.semaphore.count - count } := by
  induction count with
  | zero => exact ⟨kind, by simp⟩
  | succ count inductionHypothesis =>
    obtain ⟨still, units⟩ := inductionHypothesis
    rw [Function.iterate_succ_apply']
    refine ⟨?_, ?_⟩
    · simp [takeOne, still]
    · simp only [takeOne, still, units, SemaphorePart.mk.injEq, and_true]
      omega

/-- The units that an effect adds to the semaphore behind a pointer. -/
def unitsMoved (ptr : Ptr) : Effect → Int
  | .acquire _ ptrs _ => -(ptrs.count ptr : Int)
  | .releaseSemaphore target adjustment => if target = ptr then adjustment else 0
  | _ => 0

/-- An effect changes the count by the units that it moves, and never the limit. -/
theorem rewrite_semaphore (effect : Effect) (ptr : Ptr) {object : DispatcherObject}
    (kind : object.kind = .semaphore) :
    (effect.rewrite krnl ptr object).semaphore =
      ⟨object.semaphore.count + unitsMoved ptr effect, object.semaphore.limit⟩ := by
  have only : ∀ (target : Ptr) (change : DispatcherObject → DispatcherObject),
      (change object).semaphore = object.semaphore →
      (Effect.onlyAt target change ptr object).semaphore = ⟨object.semaphore.count + 0, object.semaphore.limit⟩ := by
    intro target change same
    rw [Int.add_zero]
    exact Effect.onlyAt_holds (fun o => o.semaphore = object.semaphore) same rfl
  cases effect with
  | acquire mode ptrs status => exact (krnl.taken_semaphore (ptrs.count ptr) object kind).2
  | releaseSemaphore target adjustment =>
    by_cases same : ptr = target
    · subst same
      simp [Effect.rewrite, Effect.onlyAt, unitsMoved, addUnits]
    · simp [Effect.rewrite, Effect.onlyAt, unitsMoved, same, Ne.symm same]
  | releaseMutant target => exact only target _ (by split <;> rfl)
  | suspendSelf target out reply => exact only target _ rfl
  | adjust target change => exact only target _ (by cases change <;> rfl)
  | setEvent target => exact only target _ rfl
  | pulseEvent target => exact only target _ rfl
  | resumeThread target => exact only target _ rfl
  | abandon target => exact only target _ rfl
  | wakeJoiner target => exact only target _ rfl
  | _ => simp [Effect.rewrite, unitsMoved]

/-- The new entries of the history account for the units that move. -/
theorem events_units {effect : Effect} (allowed : effect.Allowed krnl) {ptr : Ptr} {object : DispatcherObject}
    (live : krnl.object? ptr = some object) (kind : object.kind = .semaphore) :
    releasedUnits (effect.events krnl) ptr - acquiredUnits (effect.events krnl) ptr = unitsMoved ptr effect := by
  have other : ∀ {found : DispatcherObject} {target : Ptr}, krnl.object? target = some found →
      found.kind ≠ .semaphore → target ≠ ptr := by
    rintro found target again different rfl
    obtain rfl := Option.some.inj (live.symm.trans again)
    exact different kind
  cases effect with
  | acquire mode ptrs status =>
    have usable : krnl.acquirable ptr = true := by simp [acquirable, krnl.object_eq _ _ live, kind]
    simp [Effect.events, releasedUnits, acquiredUnits, Event.unitsReleased, Event.unitsAcquired, unitsMoved,
      List.count_filter usable]
  | consume target =>
    obtain ⟨found, again, isEvent⟩ := allowed
    have different := other again (by simp [isEvent])
    simp [Effect.events, releasedUnits, acquiredUnits, Event.unitsReleased, Event.unitsAcquired, unitsMoved,
      different]
  | releaseMutant target =>
    obtain ⟨found, again, isMutant, _⟩ := allowed
    have different := other again (by simp [isMutant])
    simp [Effect.events, releasedUnits, acquiredUnits, Event.unitsReleased, Event.unitsAcquired, unitsMoved,
      different]
  | create made =>
    simp only [Effect.events, birth]
    split <;> (try split) <;>
      simp [releasedUnits, acquiredUnits, Event.unitsReleased, Event.unitsAcquired, unitsMoved]
  | resumeThread target =>
    simp only [Effect.events]
    split <;> simp [releasedUnits, acquiredUnits, Event.unitsReleased, Event.unitsAcquired, unitsMoved]
  | exit code =>
    simp only [Effect.events]
    split <;> simp [releasedUnits, acquiredUnits, Event.unitsReleased, Event.unitsAcquired, unitsMoved]
  | _ => simp [Effect.events, releasedUnits, acquiredUnits, Event.unitsReleased, Event.unitsAcquired, unitsMoved]

/-- The effect takes no more units than there are. -/
def Covered (krnl : XboxKrnl) (effect : Effect) : Prop :=
  ∀ mode ptrs status, effect = .acquire mode ptrs status →
    ∀ ptr ∈ ptrs, (krnl.object ptr).kind = .semaphore → (ptrs.count ptr : Int) ≤ (krnl.object ptr).semaphore.count

/-- The units of a live semaphore stay in bounds. -/
theorem units_bounded {effect : Effect} (allowed : effect.Allowed krnl) (covered : krnl.Covered effect) {ptr : Ptr}
    {object : DispatcherObject} (live : krnl.object? ptr = some object) (kind : object.kind = .semaphore)
    (bounds : 0 ≤ object.semaphore.count ∧ object.semaphore.count ≤ object.semaphore.limit) :
    0 ≤ object.semaphore.count + unitsMoved ptr effect ∧
      object.semaphore.count + unitsMoved ptr effect ≤ object.semaphore.limit := by
  cases effect with
  | acquire mode ptrs status =>
    simp only [unitsMoved]
    by_cases named : ptr ∈ ptrs
    · have enough := covered mode ptrs status rfl ptr named
      rw [krnl.object_eq _ _ live] at enough
      have units := enough kind
      omega
    · rw [List.count_eq_zero.mpr named]
      simpa using bounds
  | releaseSemaphore target adjustment =>
    obtain ⟨found, again, _, positive, _, room⟩ := allowed
    simp only [unitsMoved]
    split
    · rename_i same
      subst same
      obtain rfl := Option.some.inj (live.symm.trans again)
      omega
    · omega
  | _ => simpa [unitsMoved] using bounds

/-- A wait for one object takes one unit of a semaphore that has one. -/
theorem covered_single {effect : Effect} (allowed : effect.Allowed krnl) (single : effect.label ≠ .grant) :
    krnl.Covered effect := by
  rintro mode ptrs status rfl ptr named kind
  obtain ⟨satisfied, _, _, one⟩ := allowed
  have notAll : mode ≠ .all := by
    rintro rfl
    exact single rfl
  obtain ⟨only, rfl⟩ := one notAll
  obtain rfl := List.mem_singleton.mp named
  have positive := (satisfied ptr named).2
  simp only [satisfiedAs, kind, decide_eq_true_eq] at positive
  simp only [List.count_singleton_self]
  omega

/-! ## The account over an effect -/

/-- Creation entries are made by creations. -/
theorem counted_new {effect : Effect} {ptr : Ptr} {initial maximum : Int}
    (new : .counted ptr initial maximum ∈ effect.events krnl) :
    ptr = krnl.heap.length ∧ ∃ made, effect = .create made ∧ made.kind = .semaphore ∧
      made.semaphore = ⟨initial, maximum⟩ := by
  cases effect with
  | create made =>
    simp only [Effect.events, birth] at new
    split at new
    · split at new <;> simp at new
    · rename_i kind
      simp only [List.mem_singleton, Event.counted.injEq] at new
      obtain ⟨same, rfl, rfl⟩ := new
      exact ⟨same, made, rfl, kind, rfl⟩
    · cases new
  | resumeThread target =>
    simp only [Effect.events] at new
    split at new <;> simp at new
  | _ => simp [Effect.events] at new

/-- The semaphore of a creation entry was there before, or is being created. -/
theorem counted_origin (recorded : krnl.Recorded) (ok : krnl.Ok) {effect : Effect} (allowed : effect.Allowed krnl)
    {ptr : Ptr} {initial maximum : Int}
    (counted : .counted ptr initial maximum ∈ (effect.apply krnl).history) {object : DispatcherObject}
    (live : (effect.apply krnl).object? ptr = some object) :
    (.counted ptr initial maximum ∈ krnl.history ∧ ∃ earlier, krnl.object? ptr = some earlier ∧
      object = effect.rewrite krnl ptr earlier) ∨
    (ptr = krnl.heap.length ∧ ∃ made, effect = .create made ∧ made.kind = .semaphore ∧
      object.kind = .semaphore ∧ object.semaphore = made.semaphore ∧ made.semaphore = ⟨initial, maximum⟩) := by
  rw [history_apply ok allowed] at counted
  rcases List.mem_append.mp counted with new | old
  · right
    obtain ⟨fresh, made, rfl, kind, units⟩ := counted_new new
    rcases Effect.object_origin ok allowed live with ⟨earlier, before, _⟩ | ⟨_, born⟩
    · exact absurd fresh (Nat.ne_of_lt (krnl.object?_inside _ _ before))
    · obtain rfl : object = { made with token := .object krnl.freshAddress } := born
      exact ⟨fresh, made, rfl, kind, kind, rfl, units⟩
  · left
    refine ⟨old, ?_⟩
    rcases Effect.object_origin ok allowed live with before | ⟨same, _⟩
    · exact before
    · exact absurd same (Nat.ne_of_lt (recorded _ old ptr (List.mem_singleton.mpr rfl)))

/-- Creating an object moves no units. -/
theorem create_units (krnl : XboxKrnl) (made : DispatcherObject) (ptr : Ptr) :
    releasedUnits ((Effect.create made).events krnl) ptr = 0 ∧
      acquiredUnits ((Effect.create made).events krnl) ptr = 0 := by
  simp only [Effect.events, birth]
  split <;> (try split) <;> simp [releasedUnits, acquiredUnits, Event.unitsReleased, Event.unitsAcquired]

/-- The account holds after an effect that is covered.

Proof: the units of the object and the units of the history change by the same amount. -/
theorem Balanced.effect (balanced : krnl.Balanced) (ok : krnl.Ok) {effect : Effect} (allowed : effect.Allowed krnl)
    (covered : krnl.Covered effect) : (effect.apply krnl).Balanced := by
  refine ⟨balanced.recorded.effect ok allowed, ?_, ?_, ?_⟩
  · intro ptr initial maximum counted object live
    rcases counted_origin balanced.recorded ok allowed counted live with
      ⟨old, earlier, before, rfl⟩ | ⟨_, made, rfl, _, kind, units, amounts⟩
    · obtain ⟨kind, limit⟩ := balanced.kind ptr initial maximum old earlier before
      rw [rewrite_semaphore effect ptr kind]
      exact ⟨(DispatcherObject.kind_of_shape (effect.rewrite_shape krnl ptr earlier)).trans kind, limit⟩
    · rw [units, amounts]
      exact ⟨kind, rfl⟩
  · intro ptr initial maximum counted object live
    rw [history_apply ok allowed, releasedUnits_append, acquiredUnits_append]
    rcases counted_origin balanced.recorded ok allowed counted live with
      ⟨old, earlier, before, rfl⟩ | ⟨fresh, made, rfl, _, _, units, amounts⟩
    · have kind := (balanced.kind ptr initial maximum old earlier before).1
      have account := balanced.account ptr initial maximum old earlier before
      have moved := events_units allowed before kind
      rw [rewrite_semaphore effect ptr kind]
      simp only
      omega
    · have unmentioned : ∀ event ∈ krnl.history, ptr ∉ event.mentions := fun event member mentioned =>
        absurd fresh (Nat.ne_of_lt (balanced.recorded event member ptr mentioned))
      obtain ⟨released, acquired⟩ := units_unmentioned unmentioned
      obtain ⟨noneReleased, noneAcquired⟩ := create_units krnl made ptr
      rw [units, amounts, released, acquired, noneReleased, noneAcquired]
      simp
  · intro ptr initial maximum counted object live
    rcases counted_origin balanced.recorded ok allowed counted live with
      ⟨old, earlier, before, rfl⟩ | ⟨_, made, rfl, kind, _, units, _⟩
    · have kind := (balanced.kind ptr initial maximum old earlier before).1
      rw [rewrite_semaphore effect ptr kind]
      exact units_bounded allowed covered before kind (balanced.bounds ptr initial maximum old earlier before)
    · rw [units]
      exact allowed.2 kind

/-- The account passes along a path without a multiple grant. -/
theorem Balanced.path (balanced : krnl.Balanced) (ok : krnl.Ok) {labels : List Label}
    (path : Path labels krnl next) (single : .grant ∉ labels) : next.Balanced :=
  Path.keeps (fun _ _ ok holds labeled allowed =>
    holds.effect ok allowed (covered_single allowed (fun grants => single (grants ▸ labeled)))) path ok balanced

/-! ## WaitAll -/

/-- A wait keeps the account if a granted WaitAll set finds all its units. -/
theorem Balanced.waited (balanced : krnl.Balanced) (ok : krnl.Ok) {point : Point} (waited : krnl.Waited point next)
    (enough : ∀ ptrs ticks, point = .waitMultiple ptrs true ticks →
      (∀ ptr ∈ ptrs, krnl.satisfiedAs krnl.currentHandle ptr = true) →
      ∀ ptr ∈ ptrs, (krnl.object ptr).kind = .semaphore →
        (ptrs.count ptr : Int) ≤ (krnl.object ptr).semaphore.count)
    (held : ∀ ptr ∈ point.waited, ∃ object, krnl.object? ptr = some object) : next.Balanced := by
  obtain ⟨middle, path, ⟨rfl, _⟩ | ⟨effect, fulfils, allowed, rfl⟩⟩ := waited
  · exact balanced.path ok path (by simp)
  · have middleOk := path.ok ok
    have undisturbed := Path.undisturbed path ok
    refine (balanced.path ok path (by simp)).effect middleOk allowed ?_
    by_cases grants : effect.label = .grant
    · unfold Fulfils at fulfils
      split at fulfils
      · simp [Effect.label] at grants
      · simp [Effect.label] at grants
      · rename_i ptrs ticks taken status
        subst fulfils
        intro mode other again same ptr named kind
        obtain ⟨_, rfl, _⟩ := Effect.acquire.inj same
        obtain ⟨object, live⟩ := held ptr named
        obtain ⟨after, liveAfter, cleared⟩ := undisturbed.objects ptr object live
        obtain ⟨kinds, _, _, semaphores, _⟩ := parts_of_cleared cleared
        rw [object_eq _ _ _ liveAfter] at kind ⊢
        have units := enough taken ticks rfl (fun other member => by
          obtain ⟨found, there⟩ := held other member
          exact undisturbed.satisfied_start middleOk there (allowed.1 other member).2) ptr named
        rw [krnl.object_eq _ _ live] at units
        rw [semaphores]
        exact units (kinds.symm.trans kind)
      · simp [Effect.label] at grants
      · exact fulfils.elim
    · exact covered_single allowed grants

/-! ## Whole runs -/

/-- The fiber and the set of the WaitAll that the action evaluates: that of a call, or
that of the woken fiber which the turn switches in. -/
def evaluated (krnl : XboxKrnl) : Action → Option (Nat × List Ptr)
  | .call (.ntWaitForMultipleObjectsEx count handles 0 _ _ timeout) =>
    (krnl.refreshData.waitSet count handles 0 timeout).map (fun ptrs => (krnl.currentHandle, ptrs))
  | .turn =>
    ((Effect.turn).apply krnl).currentFiber.bind (fun fiber =>
      match fiber.ctx.point with
      | .waitMultiple ptrs true _ => if fiber.waitTimedOut then none else some (fiber.handle, ptrs)
      | _ => none)
  | _ => none

/-- A WaitAll set whose objects are all satisfied names no semaphore more often than
it has units. -/
def GrantsCovered (krnl : XboxKrnl) (action : Action) : Prop :=
  ∀ waiting ∈ (krnl.evaluated action).toList, (∀ ptr ∈ waiting.2, krnl.satisfiedAs waiting.1 ptr = true) →
    ∀ ptr ∈ waiting.2, (krnl.object ptr).kind = .semaphore →
      (waiting.2.count ptr : Int) ≤ (krnl.object ptr).semaphore.count

instance (krnl : XboxKrnl) (action : Action) : Decidable (krnl.GrantsCovered action) :=
  inferInstanceAs (Decidable (∀ _ ∈ _, _))

/-- Whether a wait is satisfied depends on the objects and the handle table alone. -/
theorem satisfiedAs_congr (objects : next.object? = krnl.object?) (registry : next.registry = krnl.registry)
    (fiber : Nat) (ptr : Ptr) : next.satisfiedAs fiber ptr = krnl.satisfiedAs fiber ptr := by
  have same : next.object ptr = krnl.object ptr := by rw [object, object, objects]
  simp only [satisfiedAs, same, tokenOf_congr registry]

/-- Switching a fiber in changes no object and no identity. -/
theorem proceeded_same (ok : krnl.Ok) (allowed : (Effect.proceed).Allowed krnl) :
    ((Effect.proceed).apply krnl).object? = krnl.object? ∧
      ((Effect.proceed).apply krnl).registry = krnl.registry ∧
      ((Effect.proceed).apply krnl).currentHandle = krnl.currentHandle := by
  refine ⟨?_, Effect.registry_apply ok allowed rfl,
    Effect.currentHandle_apply ok allowed (by simp [Effect.label]) rfl⟩
  funext ptr
  rcases Effect.objects ok .proceed allowed with same | ⟨_, born, _⟩ | ⟨_, _, other, _⟩
  · rw [same ptr]
    exact Option.map_id_fun ▸ rfl
  · exact born.elim
  · cases other

/-- The account holds after a turn whose grants are covered. -/
theorem Balanced.turn (balanced : krnl.Balanced) (steady : krnl.Steady) (condition : krnl.GrantsCovered .turn)
    (stepped : krnl.step .turn = some next) : next.Balanced := by
  obtain ⟨idle, outcome⟩ := turn_cases stepped
  have turned : ((Effect.turn).apply krnl).Balanced :=
    Balanced.effect balanced steady.ok (show (Effect.turn).Allowed krnl from idle) (covered_single
      (show (Effect.turn).Allowed krnl from idle) (by simp [Effect.label]))
  rcases outcome with ⟨rfl, _⟩ | ⟨fiber, running, resumed⟩
  · exact turned
  · have ok := Effect.sound steady.ok .turn idle
    rcases ok.resumes_cases (ok.resume running resumed) with path |
      ⟨middle, woken, alive, proceeds, waited, path⟩
    · exact turned.path ok path (by simp [proceedLabels])
    · have begun := turned.effect ok proceeds (covered_single proceeds (by simp [Effect.label]))
      have begunOk := (ok.proceeded proceeds).ok
      obtain ⟨objects, registry, handle⟩ := proceeded_same ok proceeds
      have middlePath := waited.path
      refine (begun.waited begunOk waited ?_ ?_).path (middlePath.ok begunOk) path (by simp)
      · intro ptrs ticks point satisfied ptr named kind
        have here : krnl.evaluated .turn = some (fiber.handle, ptrs) := by
          simp [evaluated, running, point, woken]
        have same : ((Effect.proceed).apply ((Effect.turn).apply krnl)).object ptr = krnl.object ptr := by
          simp only [object, objects]
          rfl
        rw [same] at kind ⊢
        refine condition (fiber.handle, ptrs) (by simp [here]) (fun other member => ?_) ptr named kind
        have now := satisfied other member
        rw [satisfiedAs_congr objects registry, handle, currentHandle_of_fiber running] at now
        exact now
      · intro ptr named
        rw [objects]
        exact Option.isSome_iff_exists.mp (alive ptr named)

/-- It holds after any step whose grants are covered. -/
theorem Balanced.step (balanced : krnl.Balanced) (steady : krnl.Steady) {action : Action}
    (condition : krnl.GrantsCovered action) (stepped : krnl.step action = some next) : next.Balanced := by
  by_cases grants : .grant ∈ actionLabels action
  · cases action with
    | turn => exact balanced.turn steady condition stepped
    | call call =>
      obtain ⟨_, _, rfl⟩ := call_cases stepped
      cases call with
      | ntWaitForMultipleObjectsEx count handles waitType mode alertable timeout =>
        obtain ⟨ram, refreshed⟩ := krnl.refreshData_eq
        have begun := steady.refreshed
        have same : krnl.refreshData.Balanced := by
          rw [refreshed]
          exact ⟨balanced.recorded, balanced.kind, balanced.account, balanced.bounds⟩
        refine Balanced.path ?_ ((begun.exec _ (Or.inr rfl)).ok begun.ok) (deliver_path _ _) (by simp)
        rcases begun.multipleWait count handles waitType timeout with rejected | ⟨ptrs, ticks, named, waited⟩
        · simp only [exec, rejected]
          exact same
        · refine same.waited begun.ok waited ?_ ?_
          · intro others ticks' point satisfied ptr member kind
            obtain ⟨rfl, all, _⟩ := Point.waitMultiple.inj point
            obtain rfl : waitType = 0 := by simpa using all
            have here : krnl.evaluated (.call (.ntWaitForMultipleObjectsEx count handles 0 mode alertable timeout)) =
                some (krnl.currentHandle, ptrs) := by
              simp [evaluated, named]
            rw [refreshed] at satisfied kind ⊢
            exact condition (krnl.currentHandle, ptrs) (by simp [here]) satisfied ptr member kind
          · intro ptr member
            exact (begun.ok.waitSet_waitable named ptr member).1
      | _ => simp [actionLabels, labelsOf] at grants
    | _ => simp [actionLabels] at grants
  · exact balanced.path steady.ok (steady.step stepped).1 grants

/-- The balanced account says that units are conserved. -/
theorem Balanced.conserved (balanced : krnl.Balanced) : krnl.SemaphoresConserved := by
  refine ⟨fun ptr initial maximum counted object live => ?_, fun handle releaseCount out rejected ptr => ?_⟩
  · obtain ⟨_, limit⟩ := balanced.kind ptr initial maximum counted object live
    obtain ⟨positive, bounded⟩ := balanced.bounds ptr initial maximum counted object live
    exact ⟨positive, limit ▸ bounded, balanced.account ptr initial maximum counted object live⟩
  · rw [ntReleaseSemaphore_rejected rejected]

/-- In a run whose WaitAll sets never name a semaphore more often than it has units,
every semaphore keeps its units.

Proof: every covered step balances the count of an object against the units of the history, so the
account is an invariant of the run. -/
theorem semaphores_conserved {actions : List Action} (reached : krnl.ReachesUnder GrantsCovered actions) :
    krnl.SemaphoresConserved := by
  have start : ∀ ram addresses threadRunner kernelDataVa,
      (initial ram addresses threadRunner kernelDataVa).Balanced := by
    intro ram addresses threadRunner kernelDataVa
    refine ⟨initial_recorded ram addresses threadRunner kernelDataVa, ?_, ?_, ?_⟩ <;>
      (intro ptr first maximum counted; cases counted)
  have invariant := reached.invariant start (fun krnl action next steady balanced condition stepped =>
    Balanced.step balanced steady condition stepped)
  exact invariant.2.conserved

/-- The host creates a semaphore with the given count and the limit four, lets two
queries write its handle into two words, and waits for both words at once. -/
def waitsTwice (count : Nat) : List Action :=
  [.call (.ntCreateSemaphore 16 0 count 4), .call (.ntQuerySemaphore 4 16), .call (.ntQuerySemaphore 4 12),
    .call (.ntWaitForMultipleObjectsEx 2 16 0 0 0 0)]

/-- A run with two waits on one semaphore conserves its units. -/
theorem waitsTwice_conserved : (after true (waitsTwice 2)).SemaphoresConserved :=
  semaphores_conserved (reachesUnder_after _ true (waitsTwice 2) (by decide +kernel) (by decide +kernel))

/-- With one unit the same wait succeeds, and leaves minus one. -/
theorem semaphores_conserved_fails :
    ¬ ∀ (krnl : XboxKrnl) actions, krnl.Reaches actions → krnl.SemaphoresConserved := by
  intro always
  have reached := reaches_after true (waitsTwice 1) (by decide +kernel)
  have counted : Event.counted 0 1 4 ∈ (after true (waitsTwice 1)).history := by decide +kernel
  have live : (after true (waitsTwice 1)).object? 0 = some ((after true (waitsTwice 1)).object 0) := by
    decide +kernel
  have bound := ((always _ _ reached).1 0 1 4 counted _ live).1
  have negative : ((after true (waitsTwice 1)).object 0).semaphore.count = -1 := by decide +kernel
  rw [negative] at bound
  cases bound

end XboxKrnl

end SeriesxEmu
