import SeriesxEmu.WaitingFibers
import SeriesxEmu.MutantOwnership
import SeriesxEmu.SemaphoreConservation

/-!
# What the result of a multiple wait says

A fiber that is told it has been granted an object owns it, an abandoned mutant is reported to
the fiber that takes it over, and any other result leaves every object as it was. The host can
own nothing, yet the code picks its objects before it looks for an owner: a free mutant is then
reported as granted, and a whole set as abandoned.
-/

namespace SeriesxEmu

open Scheduler GuestScheduler

/-- The object as a fiber with the token acquires it. -/
def acquiredBy (token : Nat) (object : DispatcherObject) : DispatcherObject :=
  match object.kind with
  | .event =>
    if object.event.type = kEventSync then { object with event := { object.event with signaled := false } }
    else object
  | .mutant => XboxKrnl.takeMutant token object
  | .semaphore => { object with semaphore := { object.semaphore with count := object.semaphore.count - 1 } }
  | .thread => object

/-- Taking an object does not change its kind. -/
theorem acquiredBy_kind (token : Nat) (object : DispatcherObject) : (acquiredBy token object).kind = object.kind := by
  unfold acquiredBy
  split
  · split <;> rfl
  all_goals rfl

/-- Nor does it look at the waiters. -/
theorem acquiredBy_clear (token : Nat) (object : DispatcherObject) :
    acquiredBy token (clearWaiters object) = clearWaiters (acquiredBy token object) := by
  obtain ⟨kind, _, _, _, event, _, _, _⟩ := object
  cases kind with
  | event => by_cases sync : event.type = kEventSync <;> simp [acquiredBy, clearWaiters, sync]
  | mutant | semaphore | thread => rfl

/-- Whoever waits for an object does not matter to taking it, however often. -/
theorem acquiredBy_iterate {object other : DispatcherObject} (same : clearWaiters object = clearWaiters other)
    (token count : Nat) :
    clearWaiters ((acquiredBy token)^[count] object) = clearWaiters ((acquiredBy token)^[count] other) := by
  induction count with
  | zero => exact same
  | succ count inductionHypothesis =>
    rw [Function.iterate_succ_apply', Function.iterate_succ_apply', ← acquiredBy_clear, ← acquiredBy_clear,
      inductionHypothesis]

/-- Taking it several times does not either. -/
theorem acquiredBy_iterate_kind (token count : Nat) (object : DispatcherObject) :
    ((acquiredBy token)^[count] object).kind = object.kind := by
  induction count with
  | zero => rfl
  | succ count inductionHypothesis => rw [Function.iterate_succ_apply', acquiredBy_kind, inductionHypothesis]

/-- Whoever takes a mutant owns it. -/
theorem acquiredBy_owner {object : DispatcherObject} (mutant : object.kind = .mutant) (token : Nat) {count : Nat}
    (taken : 0 < count) : ((acquiredBy token)^[count] object).mutant.owner = token := by
  obtain ⟨earlier, rfl⟩ := Nat.exists_eq_succ_of_ne_zero (Nat.ne_of_gt taken)
  have kind := acquiredBy_iterate_kind token earlier object
  rw [Function.iterate_succ_apply', acquiredBy, kind, mutant]
  rfl

namespace XboxKrnl

variable {krnl next middle : XboxKrnl}

/-! ## What a result says -/

/-- The set that an action waits for, and whether all of it. Arguments that are rejected name
no set. -/
def awaits (krnl : XboxKrnl) : Action → Option (List Ptr × Bool)
  | .call (.ntWaitForMultipleObjectsEx count handles waitType _ _ timeout) =>
    some ((krnl.refreshData.waitSet count handles waitType timeout).getD [], waitType == 0)
  | .turn =>
    ((Effect.turn).apply krnl).currentFiber.bind (fun fiber =>
      match fiber.ctx.point with
      | .waitMultiple ptrs waitAll _ => some (ptrs, waitAll)
      | _ => none)
  | _ => none

/-- The reply with which the action ends a kernel call, and the caller. -/
def answered (krnl next : XboxKrnl) : Option (Nat × Reply) :=
  match next.history with
  | .returned caller reply :: earlier =>
    if krnl.history.length ≤ earlier.length then some (caller, reply) else none
  | _ => none

/-- The caller has acquired the objects, each as often as it is listed, and no others. -/
structure Acquired (krnl next : XboxKrnl) (caller : Nat) (taken : List Ptr) : Prop where
  available : ∀ ptr ∈ taken, krnl.satisfiedAs caller ptr = true
  owned : ∀ ptr ∈ taken, (krnl.object ptr).kind = .mutant →
    next.tokenOf caller ≠ 0 ∧ (next.object ptr).mutant.owner = next.tokenOf caller
  objects : ∀ ptr object, krnl.object? ptr = some object → ∃ after, next.object? ptr = some after ∧
    clearWaiters after = clearWaiters ((acquiredBy (next.tokenOf caller))^[taken.count ptr] object)

/-- Every object is as it was, whoever waits for it. -/
def Unchanged (krnl next : XboxKrnl) : Prop :=
  ∀ ptr object, krnl.object? ptr = some object →
    ∃ after, next.object? ptr = some after ∧ clearWaiters after = clearWaiters object

/-- The result says that something was acquired. -/
def Grants (ptrs : List Ptr) (waitAll : Bool) (result : Nat) : Prop :=
  (if waitAll then result = kStatusSuccess else result < ptrs.length) ∨
    ∃ index < ptrs.length, result = kStatusAbandoned + index

/-- The result of a multiple wait says what was acquired. -/
structure ResultHolds (krnl next : XboxKrnl) (caller : Nat) (ptrs : List Ptr) (waitAll : Bool) (result : Nat) : Prop where
  any : waitAll = false → ∀ index ptr, ptrs[index]? = some ptr → result = index → krnl.Acquired next caller [ptr]
  all : waitAll = true → result = kStatusSuccess → krnl.Acquired next caller ptrs
  abandoned : ∀ index ptr, ptrs[index]? = some ptr → result = kStatusAbandoned + index →
    (krnl.object ptr).kind = .mutant ∧ (krnl.object ptr).mutant.abandoned = true ∧
      krnl.Acquired next caller (if waitAll then ptrs else [ptr])
  otherwise : ¬ Grants ptrs waitAll result → krnl.Unchanged next

/-- The objects that a wait of the caller picks. -/
def chosen (krnl : XboxKrnl) (caller : Nat) (ptrs : List Ptr) (waitAll : Bool) : Option (List Ptr) :=
  if waitAll then if ptrs.all (krnl.satisfiedAs caller) then some ptrs else none
  else (ptrs.find? (krnl.satisfiedAs caller)).map (fun ptr => [ptr])

/-- The caller is a fiber, or no mutant is picked. -/
def Ownable (krnl : XboxKrnl) (caller : Nat) (ptrs : List Ptr) (waitAll : Bool) : Prop :=
  caller ≠ 0 ∨ ∀ taken ∈ (krnl.chosen caller ptrs waitAll).toList, ∀ ptr ∈ taken, (krnl.object ptr).kind ≠ .mutant

/-! ## The code of the wait -/

/-- What the code of a multiple wait that returns has done: nothing, or one acquisition of what
it picked. -/
inductive Outcome (krnl : XboxKrnl) (ptrs : List Ptr) (waitAll : Bool) (next : XboxKrnl) (result : Nat) : Prop where
  | refused (ownable : krnl.Ownable krnl.currentHandle ptrs waitAll)
    (undisturbed : krnl.Undisturbed next) (handle : next.currentHandle = krnl.currentHandle)
    (code : result = kStatusTimeout ∨ result = kStatusInvalidParameter)
  | granted (taken : List Ptr) (mode : WaitMode) (middle : XboxKrnl)
    (picked : krnl.chosen krnl.currentHandle ptrs waitAll = some taken) (undisturbed : krnl.Undisturbed middle)
    (ok : middle.Ok) (handle : middle.currentHandle = krnl.currentHandle)
    (kind : (waitAll = true ∧ mode = .all ∧ taken = ptrs) ∨
      (waitAll = false ∧ ∃ index ptr, mode = .any index ∧ ptrs[index]? = some ptr ∧ taken = [ptr]))
    (allowed : (Effect.acquire mode taken result).Allowed middle)
    (applied : next = (Effect.acquire mode taken result).apply middle)

/-- What is recorded of an acquisition names its status. -/
theorem status_recorded {acquired : XboxKrnl} {mode : WaitMode} {ptrs : List Ptr} {status recorded : Nat}
    (applied : acquired.noteSatisfied mode ptrs status = (Effect.acquire mode ptrs recorded).apply middle) :
    status = recorded := by
  have histories := congrArg XboxKrnl.history applied
  simp only [noteSatisfied, Effect.apply, note] at histories
  have heads := (List.cons.inj histories).1
  exact (Event.satisfied.inj heads).2.2.2

/-- What the body of a multiple wait returns is an outcome.

Proof: a WaitAll takes the whole set once all of it is signaled; a WaitAny takes the first object
that is; and a wait that cannot take anything times out or fails. -/
theorem Steady.waitMultiple_outcome (steady : krnl.Steady) (ptrs : List Ptr) (waitAll immediate : Bool) (ticks : Nat)
    (waitable : ∀ ptr ∈ ptrs, krnl.Waitable ptr) {result : Nat}
    (returned : (krnl.waitMultiple ptrs waitAll immediate ticks).2 = some result) :
    krnl.Outcome ptrs waitAll (krnl.waitMultiple ptrs waitAll immediate ticks).1 result := by
  have live : ∀ ptr ∈ ptrs, ∃ object, krnl.object? ptr = some object := fun ptr member => (waitable ptr member).1
  have refuses : ∀ {checked : XboxKrnl}, krnl.Learns checked → krnl.chosen krnl.currentHandle ptrs waitAll = none →
      (checked.blockMultiple ptrs waitAll immediate ticks).2 = some result →
        krnl.Outcome ptrs waitAll (checked.blockMultiple ptrs waitAll immediate ticks).1 result := by
    intro checked learns none code
    have undisturbed := Path.undisturbed learns.path steady.ok
    have ownable : krnl.Ownable krnl.currentHandle ptrs waitAll := Or.inr (by simp [none])
    unfold XboxKrnl.blockMultiple at code ⊢
    split at code
    · rename_i hurried
      rw [if_pos hurried]
      exact .refused ownable undisturbed learns.handle (Or.inl (Option.some.inj code).symm)
    · rename_i patient
      rw [if_neg patient]
      split at code
      · rename_i host
        rw [if_pos host]
        exact .refused ownable undisturbed learns.handle (Or.inr (Option.some.inj code).symm)
      · cases code
  obtain ⟨checked, learns, _, outcome⟩ := steady.waitMultiple_cases ptrs waitAll immediate ticks live
  rcases outcome with ⟨rfl, all, same⟩ | ⟨rfl, ptr, index, code, hit, position, reported, same⟩ | ⟨missed, same⟩
  · rw [same] at returned ⊢
    obtain ⟨middle, status, path, handle, allowed, applied⟩ := learns.steady.grantAll ptrs
      (fun ptr member => learns.waitable (waitable ptr member)) (fun ptr member => by
        rw [learns.satisfies (live ptr member)]
        exact List.all_eq_true.mp all ptr member)
    obtain rfl := (status_recorded applied).symm.trans (Option.some.inj returned)
    have whole := learns.path.trans path
    exact .granted ptrs .all middle (by simp [chosen, all]) (Path.undisturbed whole steady.ok) (Path.ok whole steady.ok)
      (handle.trans learns.handle) (Or.inl ⟨rfl, rfl, rfl⟩) allowed applied
  · rw [same] at returned ⊢
    have member := List.mem_of_find?_eq_some hit
    obtain ⟨⟨middle, status, path, handle, allowed, applied⟩, acquired⟩ := learns.steady.acquireOne
      (learns.waitable (waitable ptr member)) (by rw [learns.satisfies (live ptr member)]; exact List.find?_some hit)
      (.any index) (by simp)
    simp only [grantStatus, List.head?_cons, Option.map_some, Option.some.injEq] at applied
    rw [← acquired, ← reported] at applied
    obtain rfl := (status_recorded applied).symm.trans (Option.some.inj returned)
    have whole := learns.path.trans path
    refine .granted [ptr] (.any index) middle (by simp [chosen, hit]) (Path.undisturbed whole steady.ok)
      (Path.ok whole steady.ok) (handle.trans learns.handle) (Or.inr ⟨rfl, index, ptr, rfl, ?_, rfl⟩) allowed applied
    rw [position, ← List.find?_eq_getElem?_findIdx]
    exact hit
  · rw [same] at returned ⊢
    refine refuses learns ?_ returned
    cases waitAll with
    | true => simp [chosen, show ptrs.all (krnl.satisfiedAs krnl.currentHandle) = false from missed]
    | false => simp [chosen, show ptrs.find? (krnl.satisfiedAs krnl.currentHandle) = none from missed]

/-! ## What an acquisition comes to -/

/-- Outside the fibers there is no token. -/
theorem Ok.tokenOf_host (ok : krnl.Ok) : krnl.tokenOf 0 = 0 := by
  by_contra token
  obtain ⟨self, found⟩ := (ok.tokenOf_ne_zero 0).mp token
  exact (live_of_identity ok.registry found).1 rfl

/-- The code takes what a fiber takes, except that the host takes no mutant. -/
theorem takeOne_iterate (object : DispatcherObject) (ownable : krnl.currentHandle ≠ 0 ∨ object.kind ≠ .mutant)
    (count : Nat) : krnl.takeOne^[count] object = (acquiredBy (krnl.tokenOf krnl.currentHandle))^[count] object := by
  induction count with
  | zero => rfl
  | succ count inductionHypothesis =>
    rw [Function.iterate_succ_apply', Function.iterate_succ_apply', inductionHypothesis]
    have kind := acquiredBy_iterate_kind (krnl.tokenOf krnl.currentHandle) count object
    generalize (acquiredBy (krnl.tokenOf krnl.currentHandle))^[count] object = taken at kind
    rw [← kind] at ownable
    unfold takeOne acquiredBy
    cases is : taken.kind with
    | mutant =>
      have fiber : krnl.currentHandle ≠ 0 := ownable.resolve_right (by simp [is])
      simp [fiber]
    | _ => rfl

/-- The acquisition that ends a wait gives the caller what was picked. -/
theorem Undisturbed.acquires (undisturbed : krnl.Undisturbed middle) (ok : middle.Ok)
    (handle : middle.currentHandle = krnl.currentHandle) {mode : WaitMode} {taken : List Ptr} {status : Nat}
    (allowed : (Effect.acquire mode taken status).Allowed middle)
    (live : ∀ ptr ∈ taken, ∃ object, krnl.object? ptr = some object)
    (available : ∀ ptr ∈ taken, krnl.satisfiedAs krnl.currentHandle ptr = true)
    (ownable : krnl.currentHandle ≠ 0 ∨ ∀ ptr ∈ taken, (krnl.object ptr).kind ≠ .mutant) :
    krnl.Acquired ((Effect.acquire mode taken status).apply middle) krnl.currentHandle taken := by
  have registry := Effect.registry_apply ok allowed rfl
  have token : ((Effect.acquire mode taken status).apply middle).tokenOf krnl.currentHandle =
      middle.tokenOf middle.currentHandle := by
    rw [tokenOf_congr registry, handle]
  have objects : ∀ ptr object, krnl.object? ptr = some object →
      ∃ after, ((Effect.acquire mode taken status).apply middle).object? ptr = some after ∧
        clearWaiters after =
          clearWaiters ((acquiredBy (middle.tokenOf middle.currentHandle))^[taken.count ptr] object) := by
    intro ptr object found
    obtain ⟨before, here, same⟩ := undisturbed.objects ptr object found
    obtain ⟨kinds, _⟩ := parts_of_cleared same
    rcases Effect.object_fate ok allowed here with later | ⟨slot, closes⟩
    · refine ⟨_, later, ?_⟩
      by_cases member : ptr ∈ taken
      · have mayOwn : middle.currentHandle ≠ 0 ∨ before.kind ≠ .mutant := by
          rw [handle, kinds]
          refine ownable.imp id (fun others => ?_)
          have kind := others ptr member
          rwa [krnl.object_eq _ _ found] at kind
        rw [show (Effect.acquire mode taken status).rewrite middle ptr before = middle.takeOne^[taken.count ptr] before
          from rfl, takeOne_iterate before mayOwn]
        exact acquiredBy_iterate same _ _
      · have untaken : taken.count ptr = 0 := List.count_eq_zero.mpr member
        rw [show (Effect.acquire mode taken status).rewrite middle ptr before = middle.takeOne^[taken.count ptr] before
          from rfl, untaken]
        exact same
    · cases closes
  refine ⟨available, fun ptr member mutant => ?_, fun ptr object found => ?_⟩
  · rw [token]
    obtain ⟨object, found⟩ := live ptr member
    rw [krnl.object_eq _ _ found] at mutant
    obtain ⟨after, later, same⟩ := objects ptr object found
    obtain ⟨_, _, mutants, _⟩ := parts_of_cleared same
    have inFiber : krnl.currentHandle ≠ 0 := by
      refine ownable.resolve_right (fun others => others ptr member ?_)
      rw [krnl.object_eq _ _ found]
      exact mutant
    obtain ⟨before, here, cleared⟩ := undisturbed.objects ptr object found
    obtain ⟨kinds, _⟩ := parts_of_cleared cleared
    obtain ⟨self, identity⟩ := allowed.2.1 ptr member (by rw [object_eq _ _ _ here, kinds, mutant])
      (by rw [handle]; exact inFiber)
    refine ⟨(ok.tokenOf_ne_zero _).mpr ⟨self, identity⟩, ?_⟩
    rw [object_eq _ _ _ later, mutants]
    exact acquiredBy_owner mutant _ (List.count_pos_iff.mpr member)
  · rw [token]
    exact objects ptr object found

/-- An object whose acquisition is not a plain success is a mutant: an abandoned one, or one
that the host cannot own. -/
theorem acquireStatus_mutant {ptr : Ptr} (special : krnl.acquireStatus ptr ≠ kStatusSuccess) :
    (krnl.object ptr).kind = .mutant ∧ (krnl.currentHandle = 0 ∨ (krnl.object ptr).mutant.abandoned = true) := by
  unfold acquireStatus at special
  simp only at special
  split at special
  · rename_i kind
    refine ⟨kind, ?_⟩
    split at special
    · exact Or.inl ‹_›
    · split at special
      · exact Or.inr ‹_›
      · exact absurd rfl special
  · exact absurd rfl special

/-- What a wait takes is of its set and signaled. -/
theorem chosen_subset {caller : Nat} {ptrs : List Ptr} {waitAll : Bool} {taken : List Ptr}
    (picked : krnl.chosen caller ptrs waitAll = some taken) :
    ∀ ptr ∈ taken, ptr ∈ ptrs ∧ krnl.satisfiedAs caller ptr = true := by
  intro ptr member
  unfold chosen at picked
  split at picked
  · split at picked
    · rename_i all
      obtain rfl := Option.some.inj picked
      exact ⟨member, List.all_eq_true.mp all ptr member⟩
    · cases picked
  · obtain ⟨other, hit, rfl⟩ := Option.map_eq_some_iff.mp picked
    obtain rfl := List.mem_singleton.mp member
    exact ⟨List.mem_of_find?_eq_some hit, List.find?_some hit⟩

/-- The statuses of a set of at most 64 objects cannot be confused.

Proof: by the outcome. With at most 64 objects an index stays below the status of an abandoned
mutant, and that below the one of a timeout, so that each status has one reading; what the wait has
taken is then told by the grant. -/
theorem Outcome.holds {ptrs : List Ptr} {waitAll : Bool} {result : Nat} (outcome : krnl.Outcome ptrs waitAll next result)
    (live : ∀ ptr ∈ ptrs, ∃ object, krnl.object? ptr = some object) (short : ptrs.length ≤ kMaxWaitObjects)
    (ownable : krnl.Ownable krnl.currentHandle ptrs waitAll) :
    krnl.ResultHolds next krnl.currentHandle ptrs waitAll result := by
  unfold kMaxWaitObjects at short
  have inside : ∀ {index : Nat} {ptr : Ptr}, ptrs[index]? = some ptr → index < 64 := by
    intro index ptr here
    have bound := (List.getElem?_eq_some_iff.mp here).1
    omega
  cases outcome with
  | refused _ undisturbed handle code =>
    have large : 258 ≤ result := by
      rcases code with rfl | rfl <;> decide
    refine ⟨fun _ index ptr here same => ?_, fun _ zero => ?_, fun index ptr here same => ?_, fun _ ptr object found => ?_⟩
    · have bound := inside here
      omega
    · rw [kStatusSuccess] at zero
      omega
    · have bound := inside here
      rcases code with code | code <;> rw [code] at same <;>
        simp only [kStatusTimeout, kStatusInvalidParameter, kStatusAbandoned] at same <;> omega
    · exact undisturbed.objects ptr object found
  | granted taken mode middle picked undisturbed ok handle kind allowed applied =>
    have mayOwn : krnl.currentHandle ≠ 0 ∨ ∀ ptr ∈ taken, (krnl.object ptr).kind ≠ .mutant :=
      ownable.imp id (fun others => others taken (by simp [picked]))
    have acquired : krnl.Acquired next krnl.currentHandle taken := by
      rw [applied]
      refine undisturbed.acquires ok handle allowed (fun ptr member => live ptr (chosen_subset picked ptr member).1)
        (fun ptr member => (chosen_subset picked ptr member).2) mayOwn
    -- an object that is reported as abandoned is a mutant, which a fiber has taken over
    have special : ∀ ptr ∈ taken, middle.acquireStatus ptr ≠ kStatusSuccess →
        (krnl.object ptr).kind = .mutant ∧ (krnl.object ptr).mutant.abandoned = true := by
      intro ptr member status
      obtain ⟨mutant, orphaned⟩ := acquireStatus_mutant status
      obtain ⟨object, found⟩ := live ptr (chosen_subset picked ptr member).1
      obtain ⟨after, here, same⟩ := undisturbed.objects ptr object found
      obtain ⟨kinds, _, mutants, _⟩ := parts_of_cleared same
      rw [object_eq _ _ _ here] at mutant orphaned
      rw [krnl.object_eq _ _ found, ← kinds, ← mutants]
      refine ⟨mutant, orphaned.resolve_left (fun zero => ?_)⟩
      rcases mayOwn with fiber | others
      · exact fiber (handle ▸ zero)
      · refine others ptr member ?_
        rw [krnl.object_eq _ _ found, ← kinds]
        exact mutant
    have status : result = middle.grantStatus mode taken := allowed.2.2.1
    rcases kind with ⟨rfl, rfl, rfl⟩ | ⟨rfl, index, ptr, rfl, here, rfl⟩
    · simp only [grantStatus] at status
      cases first : taken.findIdx? (fun ptr => middle.acquireStatus ptr != kStatusSuccess) with
      | none =>
        rw [first] at status
        have zero : result = kStatusSuccess := status
        refine ⟨by simp, fun _ _ => acquired, fun index ptr _ same => ?_, fun refuses => ?_⟩
        · rw [zero, kStatusSuccess, kStatusAbandoned] at same
          omega
        · exact absurd (Or.inl zero) refuses
      | some index =>
        rw [first] at status
        have abandoned : result = kStatusAbandoned + index := status
        obtain ⟨bound, status, _⟩ := List.findIdx?_eq_some_iff_getElem.mp first
        refine ⟨by simp, fun _ zero => ?_, fun other ptr here same => ?_, fun refuses => ?_⟩
        · rw [abandoned, kStatusAbandoned, kStatusSuccess] at zero
          omega
        · obtain rfl : index = other := by omega
          obtain rfl : taken[index] = ptr := by
            rw [List.getElem?_eq_getElem bound] at here
            exact Option.some.inj here
          obtain ⟨mutant, orphaned⟩ := special taken[index] (List.getElem_mem bound) (by simpa using status)
          exact ⟨mutant, orphaned, acquired⟩
        · exact absurd (Or.inr ⟨index, bound, abandoned⟩) refuses
    · simp only [grantStatus, List.head?_cons, Option.map_some, Option.some.injEq] at status
      have bound := inside here
      have within : index < ptrs.length := (List.getElem?_eq_some_iff.mp here).1
      split at status
      · rename_i orphan
        refine ⟨fun _ other ptr' there same => ?_, by simp, fun other ptr' there same => ?_, fun refuses => ?_⟩
        · have small := inside there
          rw [status, kStatusAbandoned] at same
          omega
        · obtain rfl : index = other := by omega
          obtain rfl := Option.some.inj (here.symm.trans there)
          obtain ⟨mutant, orphaned⟩ := special ptr List.mem_cons_self (by rw [orphan]; decide)
          exact ⟨mutant, orphaned, acquired⟩
        · exact absurd (Or.inr ⟨index, within, status⟩) refuses
      · refine ⟨fun _ other ptr' there same => ?_, by simp, fun other ptr' there same => ?_, fun refuses => ?_⟩
        · obtain rfl : index = other := by omega
          obtain rfl := Option.some.inj (here.symm.trans there)
          exact acquired
        · rw [status, kStatusAbandoned] at same
          omega
        · exact absurd (Or.inl (by simpa [status] using within)) refuses

/-- The host acquires nothing that it can own, and the result says that it did. -/
theorem Outcome.fails {ptrs : List Ptr} {waitAll : Bool} {result : Nat} (outcome : krnl.Outcome ptrs waitAll next result)
    (live : ∀ ptr ∈ ptrs, ∃ object, krnl.object? ptr = some object)
    (holds : krnl.ResultHolds next krnl.currentHandle ptrs waitAll result) :
    krnl.Ownable krnl.currentHandle ptrs waitAll := by
  cases outcome with
  | refused ownable => exact ownable
  | granted taken mode middle picked undisturbed ok handle kind allowed applied =>
    refine or_iff_not_imp_left.mpr (fun host others listed ptr member mutant => ?_)
    simp only [picked, Option.toList_some, List.mem_singleton] at listed
    subst listed
    rw [ne_eq, not_not] at host
    -- the host has no identity, so it cannot own the mutant that it is said to have acquired
    have nobody : next.tokenOf krnl.currentHandle = 0 := by
      rw [applied, tokenOf_congr (Effect.registry_apply ok allowed rfl), host, ok.tokenOf_host]
    have refutes : ∀ {acquired : List Ptr}, ptr ∈ acquired → ¬ krnl.Acquired next krnl.currentHandle acquired :=
      fun listed acquired => (acquired.owned ptr listed mutant).1 nobody
    have hostNow : middle.currentHandle = 0 := handle.trans host
    have mutantNow : (middle.object ptr).kind = .mutant := by
      obtain ⟨object, found⟩ := live ptr (chosen_subset picked ptr member).1
      obtain ⟨after, here, same⟩ := undisturbed.objects ptr object found
      rw [object_eq _ _ _ here, (parts_of_cleared same).1, ← krnl.object_eq _ _ found, mutant]
    have invalid : middle.acquireStatus ptr = kStatusInvalidParameter := by
      simp [acquireStatus, mutantNow, hostNow]
    have status : result = middle.grantStatus mode others := allowed.2.2.1
    rcases kind with ⟨rfl, rfl, rfl⟩ | ⟨rfl, index, other, rfl, here, rfl⟩
    · obtain ⟨index, first⟩ : ∃ index,
          others.findIdx? (fun ptr => middle.acquireStatus ptr != kStatusSuccess) = some index := by
        refine Option.isSome_iff_exists.mp (List.findIdx?_isSome.trans (List.any_eq_true.mpr ⟨ptr, member, ?_⟩))
        rw [invalid]
        decide
      simp only [grantStatus, first, Option.map_some, Option.getD_some] at status
      obtain ⟨bound, _⟩ := List.findIdx?_eq_some_iff_getElem.mp first
      exact refutes member (holds.abandoned index others[index] (List.getElem?_eq_getElem bound) status).2.2
    · obtain rfl := List.mem_singleton.mp member
      simp only [grantStatus, List.head?_cons, Option.map_some, invalid, Option.some.injEq, kStatusInvalidParameter,
        kStatusAbandoned, Nat.reduceEqDiff, ↓reduceIte] at status
      exact refutes List.mem_cons_self (holds.any rfl index ptr here status)

/-- The result of an outcome holds exactly if the caller can own the mutants among what it takes.

Proof: the caller of a wait in a fiber has a token. Outside the fibers a mutant is taken without an
owner, so that its acquisition cannot be told. -/
theorem Outcome.holds_iff {ptrs : List Ptr} {waitAll : Bool} {result : Nat}
    (outcome : krnl.Outcome ptrs waitAll next result) (live : ∀ ptr ∈ ptrs, ∃ object, krnl.object? ptr = some object)
    (short : ptrs.length ≤ kMaxWaitObjects) :
    krnl.ResultHolds next krnl.currentHandle ptrs waitAll result ↔ krnl.Ownable krnl.currentHandle ptrs waitAll :=
  ⟨outcome.fails live, outcome.holds live short⟩

/-! ## The reply of a wait -/

/-- Looking at an object is not on record. -/
@[simp] theorem history_dispatcherSatisfied (krnl : XboxKrnl) (ptr : Ptr) :
    (krnl.dispatcherSatisfied ptr).1.history = krnl.history := by
  unfold XboxKrnl.dispatcherSatisfied currentThreadToken ensureThreadObject
  simp only
  repeat' split
  all_goals rfl

/-- Entering a fiber into the waiter lists is not on record. -/
theorem history_registerWaiter (token : Token) (krnl : XboxKrnl) (ptrs : List Ptr) :
    (registerWaiter token krnl ptrs).history = krnl.history := by
  induction ptrs generalizing krnl with
  | nil => rfl
  | cons ptr rest inductionHypothesis =>
    simp only [registerWaiter, inductionHypothesis]
    split
    · exact krnl.history_dispatcherSatisfied ptr
    · exact krnl.history_dispatcherSatisfied ptr

/-- Neither is striking it off. -/
theorem history_unregisterWaiter (krnl : XboxKrnl) (token : Token) (ptrs : List Ptr) :
    (krnl.unregisterWaiter token ptrs).history = krnl.history := by
  unfold XboxKrnl.unregisterWaiter
  induction ptrs generalizing krnl with
  | nil => rfl
  | cons ptr rest inductionHypothesis => exact inductionHypothesis _

/-- A WaitAll looks at its set without a record. -/
theorem history_allSatisfied (krnl : XboxKrnl) (ptrs : List Ptr) :
    (krnl.allSatisfied ptrs).1.history = krnl.history := by
  induction ptrs generalizing krnl with
  | nil => rfl
  | cons ptr rest inductionHypothesis =>
    simp only [XboxKrnl.allSatisfied]
    split
    · rw [inductionHypothesis, history_dispatcherSatisfied]
    · exact krnl.history_dispatcherSatisfied ptr

/-- So does a WaitAny. -/
theorem history_firstSatisfied (krnl : XboxKrnl) (ptrs : List Ptr) (index : Nat) :
    (krnl.firstSatisfied ptrs index).1.history = krnl.history := by
  induction ptrs generalizing krnl index with
  | nil => rfl
  | cons ptr rest inductionHypothesis =>
    simp only [XboxKrnl.firstSatisfied]
    split
    · exact krnl.history_dispatcherSatisfied ptr
    · rw [inductionHypothesis, history_dispatcherSatisfied]

/-- A wait that blocks tells its caller nothing. -/
theorem waitMultiple_silent {ptrs : List Ptr} {waitAll immediate : Bool} {ticks : Nat}
    (blocked : (krnl.waitMultiple ptrs waitAll immediate ticks).2 = none) :
    (krnl.waitMultiple ptrs waitAll immediate ticks).1.history = krnl.history := by
  have blocks : ∀ {checked : XboxKrnl}, checked.history = krnl.history →
      (checked.blockMultiple ptrs waitAll immediate ticks).1.history = krnl.history := by
    intro checked same
    unfold XboxKrnl.blockMultiple
    split
    · exact same
    · split
      · exact same
      · simp only [blockCurrent]
        split
        · rw [history_registerWaiter, same]
        · exact (history_registerWaiter _ _ _).trans same
  unfold XboxKrnl.waitMultiple at blocked ⊢
  split at blocked
  · rename_i whole
    rw [if_pos whole]
    simp only at blocked ⊢
    split at blocked
    · cases blocked
    · rename_i some
      rw [if_neg some]
      exact blocks (krnl.history_allSatisfied ptrs)
  · rename_i first
    rw [if_neg first]
    have scanned := krnl.history_firstSatisfied ptrs 0
    split at blocked
    · cases blocked
    · rename_i checked found
      rw [found] at scanned
      exact blocks scanned

/-- The caller is the same before and after. -/
theorem Outcome.handle {ptrs : List Ptr} {waitAll : Bool} {result : Nat}
    (outcome : krnl.Outcome ptrs waitAll next result) : next.currentHandle = krnl.currentHandle := by
  cases outcome with
  | refused _ _ handle => exact handle
  | granted taken mode middle _ _ ok handle _ allowed applied =>
    have grants : (Effect.acquire mode taken result).label ≠ .loop := by cases mode <;> simp [Effect.label]
    rw [applied, Effect.currentHandle_apply ok allowed grants rfl, handle]

/-- The history only grows. -/
theorem history_path {labels : List Label} (path : Path labels krnl next) (ok : krnl.Ok) :
    krnl.history.length ≤ next.history.length := by
  induction path with
  | refl => exact Nat.le_refl _
  | tail earlier last inductionHypothesis =>
    obtain ⟨effect, _, allowed, rfl⟩ := last
    rw [history_apply (Path.ok earlier ok) allowed, List.length_append]
    exact Nat.le_add_left_of_le inductionHypothesis

/-- A multiple wait that tells its caller nothing leaves every object as it was. -/
theorem Waited.undisturbed {ptrs : List Ptr} {waitAll : Bool} {ticks : Nat}
    (waited : krnl.Waited (.waitMultiple ptrs waitAll ticks) next) (ok : krnl.Ok)
    (silent : next.history = krnl.history) : krnl.Undisturbed next := by
  obtain ⟨middle, path, ⟨rfl, _⟩ | ⟨effect, fulfils, allowed, rfl⟩⟩ := waited
  · exact Path.undisturbed path ok
  · have grown := history_path path ok
    rw [← silent, history_apply (Path.ok path ok) allowed, List.length_append] at grown
    have acquires : (effect.events middle).length ≠ 0 := by
      unfold Fulfils at fulfils
      split at fulfils <;> simp_all [Effect.events]
    omega

/-- The reply to a call is the first entry that is new. -/
theorem answered_deliver {called : XboxKrnl} (longer : krnl.history.length ≤ called.history.length) (reply : Reply) :
    krnl.answered (called.deliver (some reply)) = some (called.currentHandle, reply) := by
  simp only [deliver, note, XboxKrnl.answered, if_pos longer]

/-- A wait that has not ended leaves every object as it was. -/
theorem Waited.unanswered {start called : XboxKrnl} {returned : Option Reply} {ptrs : List Ptr} {waitAll : Bool}
    {ticks : Nat} (waited : start.Waited (.waitMultiple ptrs waitAll ticks) called) (ok : start.Ok)
    (history : start.history = krnl.history) (silent : returned = none → called.history = krnl.history)
    (unanswered : krnl.answered (called.deliver returned) = none) : start.Undisturbed called := by
  cases status : returned with
  | none => exact waited.undisturbed ok ((silent status).trans history.symm)
  | some reply =>
    have longer := history_path waited.path ok
    rw [status, answered_deliver (history ▸ longer) reply] at unanswered
    cases unanswered

/-- A wait that returns tells its caller the result. -/
theorem answered_wait {start called : XboxKrnl} {returned : Option Reply} {ptrs : List Ptr} {waitAll : Bool}
    {caller : Nat} {reply : Reply} (answered : krnl.answered (called.deliver returned) = some (caller, reply))
    (silent : returned = none → called.history = krnl.history)
    (outcome : ∀ reply, returned = some reply → start.Outcome ptrs waitAll called reply.value) :
    caller = start.currentHandle ∧ start.Outcome ptrs waitAll called reply.value := by
  cases status : returned with
  | none =>
    rw [status] at answered
    simp only [deliver, XboxKrnl.answered, silent status] at answered
    split at answered
    · rename_i listed
      rw [listed, List.length_cons, if_neg (Nat.not_succ_le_self _)] at answered
      cases answered
    · cases answered
  | some result =>
    rw [status] at answered
    have settled := outcome result status
    simp only [deliver, note, XboxKrnl.answered] at answered
    split at answered
    · obtain ⟨rfl, rfl⟩ := Prod.mk.inj (Option.some.inj answered)
      exact ⟨settled.handle, settled⟩
    · cases answered

/-! ## The same objects under another schedule -/

variable {start finish : XboxKrnl}

/-- What has been acquired is read off the objects and the identities. -/
theorem Acquired.same {caller : Nat} {taken : List Ptr} (acquired : start.Acquired finish caller taken)
    (objects : start.object? = krnl.object?) (registry : start.registry = krnl.registry)
    (results : finish.object? = next.object?) (identities : finish.registry = next.registry) :
    krnl.Acquired next caller taken := by
  have here : krnl.object = start.object := funext (fun ptr => by rw [object, object, objects])
  have later : next.object = finish.object := funext (fun ptr => by rw [object, object, results])
  have token : next.tokenOf caller = finish.tokenOf caller := (tokenOf_congr identities caller).symm
  refine ⟨fun ptr member => ?_, fun ptr member mutant => ?_, fun ptr object found => ?_⟩
  · rw [satisfiedAs_congr objects.symm registry.symm]
    exact acquired.available ptr member
  · rw [token, later]
    exact acquired.owned ptr member (by rwa [← here])
  · rw [token, ← results]
    exact acquired.objects ptr object (by rw [objects, found])

/-- So is whether a result holds. -/
theorem ResultHolds.same {caller : Nat} {ptrs : List Ptr} {waitAll : Bool} {result : Nat}
    (holds : start.ResultHolds finish caller ptrs waitAll result)
    (objects : start.object? = krnl.object?) (registry : start.registry = krnl.registry)
    (results : finish.object? = next.object?) (identities : finish.registry = next.registry) :
    krnl.ResultHolds next caller ptrs waitAll result := by
  have here : krnl.object = start.object := funext (fun ptr => by rw [object, object, objects])
  refine ⟨fun one index ptr listed same => ?_, fun whole zero => ?_, fun index ptr listed same => ?_,
    fun refuses ptr object found => ?_⟩
  · exact (holds.any one index ptr listed same).same objects registry results identities
  · exact (holds.all whole zero).same objects registry results identities
  · obtain ⟨mutant, orphaned, acquired⟩ := holds.abandoned index ptr listed same
    rw [here]
    exact ⟨mutant, orphaned, acquired.same objects registry results identities⟩
  · rw [← results]
    exact holds.otherwise refuses ptr object (by rw [objects, found])

/-- And whether the caller can own what it takes. -/
theorem ownable_congr (objects : start.object? = krnl.object?) (registry : start.registry = krnl.registry)
    (caller : Nat) (ptrs : List Ptr) (waitAll : Bool) :
    start.Ownable caller ptrs waitAll ↔ krnl.Ownable caller ptrs waitAll := by
  have here : start.object = krnl.object := funext (fun ptr => by rw [object, object, objects])
  have satisfied : start.satisfiedAs caller = krnl.satisfiedAs caller :=
    funext (satisfiedAs_congr objects registry caller)
  simp only [Ownable, chosen, here, satisfied]

/-- The wait of the caller settles what its result says. -/
theorem Outcome.settles {ptrs : List Ptr} {waitAll : Bool} {result : Nat}
    (outcome : start.Outcome ptrs waitAll finish result) (live : ∀ ptr ∈ ptrs, ∃ object, start.object? ptr = some object)
    (short : ptrs.length ≤ kMaxWaitObjects) (objects : start.object? = krnl.object?)
    (registry : start.registry = krnl.registry) (results : finish.object? = next.object?)
    (identities : finish.registry = next.registry) :
    krnl.ResultHolds next start.currentHandle ptrs waitAll result ↔ krnl.Ownable start.currentHandle ptrs waitAll := by
  rw [← ownable_congr objects registry, ← outcome.holds_iff live short]
  exact ⟨fun holds => holds.same objects.symm registry.symm results.symm identities.symm,
    fun holds => holds.same objects registry results identities⟩

/-- What kernel code does before it evaluates the wait does not matter. -/
theorem Outcome.after {ptrs : List Ptr} {waitAll : Bool} {result : Nat}
    (outcome : middle.Outcome ptrs waitAll next result) (undisturbed : krnl.Undisturbed middle)
    (handle : middle.currentHandle = krnl.currentHandle) (live : ∀ ptr ∈ ptrs, ∃ object, krnl.object? ptr = some object) :
    krnl.Outcome ptrs waitAll next result := by
  have satisfied : ∀ ptr ∈ ptrs, middle.satisfiedAs krnl.currentHandle ptr = krnl.satisfiedAs krnl.currentHandle ptr := by
    intro ptr member
    obtain ⟨object, found⟩ := live ptr member
    exact undisturbed.satisfied krnl.currentHandle found
  have chosen : middle.chosen krnl.currentHandle ptrs waitAll = krnl.chosen krnl.currentHandle ptrs waitAll := by
    have whole : ptrs.all (middle.satisfiedAs krnl.currentHandle) = ptrs.all (krnl.satisfiedAs krnl.currentHandle) :=
      Bool.eq_iff_iff.mpr (by
        simp only [List.all_eq_true]
        exact ⟨fun all ptr member => (satisfied ptr member) ▸ all ptr member,
          fun all ptr member => (satisfied ptr member).trans (all ptr member)⟩)
    have first : ptrs.find? (middle.satisfiedAs krnl.currentHandle) = ptrs.find? (krnl.satisfiedAs krnl.currentHandle) :=
      List.find?_congr satisfied
    simp only [XboxKrnl.chosen, whole, first]
  cases outcome with
  | refused ownable later same code =>
    refine .refused ?_ (undisturbed.trans later) (same.trans handle) code
    rw [handle] at ownable
    refine ownable.imp id (fun others taken listed ptr member mutant => ?_)
    rw [chosen] at others
    have picked : krnl.chosen krnl.currentHandle ptrs waitAll = some taken := by simpa using listed
    refine others taken listed ptr member ?_
    obtain ⟨object, found⟩ := live ptr (chosen_subset picked ptr member).1
    obtain ⟨after, here, cleared⟩ := undisturbed.objects ptr object found
    rw [object_eq _ _ _ here, (parts_of_cleared cleared).1, ← krnl.object_eq _ _ found, mutant]
  | granted taken mode last picked later ok same kind allowed applied =>
    rw [handle, chosen] at picked
    exact .granted taken mode last picked (undisturbed.trans later) ok (same.trans handle) kind allowed applied

/-! ## The size of the sets -/

/-- No fiber waits for more objects than one call may name. -/
def ShortWaits (krnl : XboxKrnl) : Prop :=
  ∀ fiber ∈ krnl.sched.threads, fiber.ctx.point.inWait = true → fiber.ctx.point.waited.length ≤ kMaxWaitObjects

/-- The call refuses sets of more than 64 handles. -/
theorem waitSet_length {count handles waitType timeout : Nat} {ptrs : List Ptr}
    (named : krnl.waitSet count handles waitType timeout = some ptrs) : ptrs.length ≤ kMaxWaitObjects := by
  unfold waitSet at named
  split at named
  · cases named
  · rename_i accepted
    simp only [not_or, Nat.not_lt] at accepted
    have length := mapM_some_length _ named
    rw [length, List.length_range]
    exact accepted.2.1

/-- A single wait has a set of one. -/
theorem entersSingle_length {found : Option Ptr} {timeout : Nat} {point : Point}
    (entered : krnl.entersSingle found timeout = some point) : point.waited.length ≤ kMaxWaitObjects := by
  unfold entersSingle at entered
  split at entered
  · obtain rfl := Option.some.inj entered
    exact Nat.succ_le_of_lt (by decide)
  · cases entered

/-- So every wait that a call enters is of at most 64 objects. -/
theorem enters_length {call : Call} {point : Point} (entered : krnl.enters call = some point) :
    point.waited.length ≤ kMaxWaitObjects := by
  cases call with
  | keWaitForSingleObject object reason mode alertable timeout => exact entersSingle_length entered
  | ntWaitForSingleObject handle alertable timeout => exact entersSingle_length entered
  | ntWaitForSingleObjectEx handle mode alertable timeout => exact entersSingle_length entered
  | ntWaitForMultipleObjectsEx count handles waitType mode alertable timeout =>
    simp only [enters, entersMultiple] at entered
    split at entered
    · rename_i named _
      obtain rfl := Option.some.inj entered
      exact waitSet_length named
    · cases entered
  | _ => cases entered

/-- A fiber that is switched in is in such a wait, if in any. -/
theorem ShortWaits.running (short : krnl.ShortWaits) (idle : krnl.sched.current = none) {fiber : Fiber}
    (running : ((Effect.turn).apply krnl).currentFiber = some fiber) (inside : fiber.ctx.point.inWait = true) :
    fiber.ctx.point.waited.length ≤ kMaxWaitObjects := by
  obtain ⟨index, switched, found⟩ := currentFiber_index running
  obtain ⟨before, passed, here, passes, moved⟩ := Effect.turn_origin idle found
  have origin : fiber.ctx = before.ctx := by
    rcases moved with ⟨rfl, _⟩ | ⟨_, _, rfl⟩ <;> exact passes.same.2.1
  rw [origin] at inside ⊢
  exact short before (List.mem_of_getElem? here) inside

/-- Every step keeps the sets short.

Proof: only a call enters a wait, and a fiber that goes on waiting keeps its set. -/
theorem ShortWaits.step (short : krnl.ShortWaits) (steady : krnl.Steady) {action : Action}
    (stepped : krnl.step action = some next) : next.ShortWaits := by
  intro fiber member inside
  obtain ⟨index, found⟩ := List.mem_iff_getElem?.mp member
  cases steady.came_from stepped found inside with
  | rests before here rests _ =>
    rw [rests.ctx] at inside ⊢
    exact short before (List.mem_of_getElem? here) inside
  | enters call isCall switched point blocked => exact enters_length point
  | rewaits earlier isTurn switched running woken point blocked =>
    obtain ⟨idle, _⟩ := turn_cases (isTurn ▸ stepped)
    rw [← point] at inside ⊢
    exact short.running idle running inside

/-! ## Steps -/

/-- A reply changes no object and no identity. -/
theorem deliver_objects (krnl : XboxKrnl) (reply : Option Reply) :
    (krnl.deliver reply).object? = krnl.object? ∧ (krnl.deliver reply).registry = krnl.registry := by
  cases reply <;> exact ⟨rfl, rfl⟩

/-- A call that waits for a set evaluates it, or rejects its arguments. -/
theorem Steady.call_outcome (steady : krnl.Steady) {count handles waitType timeout : Nat} {reply : Reply}
    (returned : (krnl.ntWaitForMultipleObjectsEx count handles waitType timeout).2 = some reply) :
    krnl.Outcome ((krnl.waitSet count handles waitType timeout).getD []) (waitType == 0)
      (krnl.ntWaitForMultipleObjectsEx count handles waitType timeout).1 reply.value := by
  have rejects : some reject = some reply → krnl.waitSet count handles waitType timeout = none →
      krnl.Outcome ((krnl.waitSet count handles waitType timeout).getD []) (waitType == 0) krnl reply.value := by
    intro same none
    obtain rfl := Option.some.inj same
    rw [none]
    refine .refused (Or.inr (fun taken listed ptr member => ?_)) (.refl krnl) rfl (Or.inr rfl)
    have picked : krnl.chosen krnl.currentHandle [] (waitType == 0) = some taken := by simpa using listed
    exact absurd (chosen_subset picked ptr member).1 (by simp)
  unfold XboxKrnl.ntWaitForMultipleObjectsEx at returned ⊢
  split at returned
  · rename_i many
    rw [if_pos many]
    exact rejects returned (by simp only [waitSet]; rw [if_pos (by tauto)])
  · rename_i few
    rw [if_neg few]
    split at returned
    · rename_i unreadable
      rw [if_pos unreadable]
      exact rejects returned (by simp only [waitSet]; rw [if_pos (by simp at unreadable; tauto)])
    · rename_i readable
      rw [if_neg readable]
      split at returned
      · rename_i kind
        rw [if_pos kind]
        exact rejects returned (by simp only [waitSet]; rw [if_pos (by tauto)])
      · rename_i kind
        rw [if_neg kind]
        cases timing : krnl.readTimeout timeout with
        | none =>
          rw [timing] at returned
          exact rejects returned (by simp [waitSet, timing])
        | some read =>
          obtain ⟨immediate, ticks⟩ := read
          rw [timing] at returned
          have set : krnl.waitSet count handles waitType timeout = krnl.readHandles handles count := by
            simp only [not_or] at few
            simp only [Bool.not_eq_true, Bool.not_eq_false'] at readable
            simp [waitSet, few, readable, kind, timing]
          cases named : krnl.readHandles handles count with
          | none =>
            rw [named] at returned set
            exact rejects returned set
          | some ptrs =>
            rw [named] at returned set
            rw [set, Option.getD_some]
            obtain ⟨status, code, rfl⟩ := Option.map_eq_some_iff.mp returned
            exact steady.waitMultiple_outcome ptrs (waitType == 0) immediate ticks
              (steady.ok.readHandles_waitable named) code

/-- The code of a multiple wait after a wake-up. -/
theorem Steady.resume_outcome (steady : krnl.Steady) (inFiber : krnl.currentHandle ≠ 0) (ptrs : List Ptr)
    (waitAll : Bool) (ticks : Nat) (woken : Bool) (waitable : ∀ ptr ∈ ptrs, krnl.Waitable ptr) {result : Nat}
    (returned : (krnl.resumeMultiple ptrs waitAll ticks woken).2 = some result) :
    krnl.Outcome ptrs waitAll (krnl.resumeMultiple ptrs waitAll ticks woken).1 result := by
  obtain ⟨path, later, handle, kept⟩ := steady.unregisterWaiter ptrs inFiber waitable
  have undisturbed := Path.undisturbed path steady.ok
  cases woken with
  | false =>
    obtain rfl : kStatusTimeout = result := Option.some.inj returned
    exact .refused (Or.inl inFiber) undisturbed handle (Or.inl rfl)
  | true =>
    simp only [XboxKrnl.resumeMultiple, Bool.not_true, Bool.false_eq_true, ↓reduceIte] at returned ⊢
    exact (later.waitMultiple_outcome ptrs waitAll false ticks (fun ptr member => kept ptr (waitable ptr member))
      returned).after undisturbed handle (fun ptr member => (waitable ptr member).1)

/-- A call that blocks has put nothing on record. -/
theorem ntWaitForMultipleObjectsEx_silent {count handles waitType timeout : Nat}
    (blocked : (krnl.ntWaitForMultipleObjectsEx count handles waitType timeout).2 = none) :
    (krnl.ntWaitForMultipleObjectsEx count handles waitType timeout).1.history = krnl.history := by
  unfold XboxKrnl.ntWaitForMultipleObjectsEx at blocked ⊢
  split at blocked
  · cases blocked
  · rename_i many
    rw [if_neg many]
    split at blocked
    · cases blocked
    · rename_i readable
      rw [if_neg readable]
      split at blocked
      · cases blocked
      · rename_i kind
        rw [if_neg kind]
        split at blocked
        · cases blocked
        · split at blocked
          · cases blocked
          · exact waitMultiple_silent (Option.map_eq_none_iff.mp blocked)

/-- Neither has a wait that blocks again. -/
theorem resumeMultiple_silent {ptrs : List Ptr} {waitAll woken : Bool} {ticks : Nat}
    (blocked : (krnl.resumeMultiple ptrs waitAll ticks woken).2 = none) :
    (krnl.resumeMultiple ptrs waitAll ticks woken).1.history = krnl.history := by
  unfold XboxKrnl.resumeMultiple at blocked ⊢
  cases woken with
  | false => cases blocked
  | true =>
    simp only [Bool.not_true, Bool.false_eq_true, ↓reduceIte] at blocked ⊢
    exact (waitMultiple_silent blocked).trans (krnl.history_unregisterWaiter _ ptrs)

/-- The reply of the call itself holds if and only if the caller can own what it takes. -/
theorem Steady.call_settles (steady : krnl.Steady) {count handles waitType mode alertable timeout : Nat}
    (stepped : krnl.step (.call (.ntWaitForMultipleObjectsEx count handles waitType mode alertable timeout)) = some next)
    {caller : Nat} {reply : Reply} (answered : krnl.answered next = some (caller, reply)) :
    krnl.ResultHolds next caller ((krnl.refreshData.waitSet count handles waitType timeout).getD []) (waitType == 0)
        reply.value ↔
      krnl.Ownable caller ((krnl.refreshData.waitSet count handles waitType timeout).getD []) (waitType == 0) := by
  obtain ⟨_, _, rfl⟩ := call_cases stepped
  obtain ⟨ram, refreshed⟩ := krnl.refreshData_eq
  have history : krnl.refreshData.history = krnl.history := by rw [refreshed]
  obtain ⟨rfl, settled⟩ := answered_wait answered
    (fun blocked => (ntWaitForMultipleObjectsEx_silent blocked).trans history)
    (fun reply returned => steady.refreshed.call_outcome returned)
  have waitable : ∀ ptr ∈ (krnl.refreshData.waitSet count handles waitType timeout).getD [],
      krnl.refreshData.Waitable ptr := by
    cases named : krnl.refreshData.waitSet count handles waitType timeout with
    | none => simp
    | some ptrs => exact steady.refreshed.ok.waitSet_waitable named
  refine settled.settles (fun ptr member => (waitable ptr member).1) ?_ ?_ ?_ ?_ ?_
  · cases named : krnl.refreshData.waitSet count handles waitType timeout with
    | none => exact Nat.zero_le _
    | some ptrs => exact waitSet_length named
  · rw [refreshed]
    rfl
  · rw [refreshed]
    rfl
  · exact (deliver_objects _ _).1.symm
  · exact (deliver_objects _ _).2.symm

/-- The kernel as the fiber that a turn has switched in finds it. -/
structure SwitchedTo (krnl : XboxKrnl) (fiber : Fiber) (start : XboxKrnl) : Prop where
  steady : start.Steady
  handle : start.currentHandle = fiber.handle
  inFiber : start.currentHandle ≠ 0
  current : start.sched.current = ((Effect.turn).apply krnl).sched.current
  objects : start.object? = krnl.object?
  registry : start.registry = krnl.registry
  history : start.history = krnl.history

/-- A fiber that goes on after its first dispatch is switched to where it was. -/
theorem Steady.switchedTo (steady : krnl.Steady) (idle : krnl.sched.current = none) {fiber : Fiber}
    (running : ((Effect.turn).apply krnl).currentFiber = some fiber) (begun : fiber.ctx.point ≠ .entry) :
    krnl.SwitchedTo fiber ((Effect.proceed).apply ((Effect.turn).apply krnl)) := by
  have ok := Effect.sound steady.ok .turn idle
  have turned := Effect.registry_apply steady.ok (show (Effect.turn).Allowed krnl from idle) rfl
  have proceeds : (Effect.proceed).Allowed ((Effect.turn).apply krnl) :=
    ⟨fiber, running, fun entry => absurd entry begun⟩
  obtain ⟨objects, registry, handle⟩ := proceeded_same ok proceeds
  refine ⟨ok.proceeded proceeds, handle.trans (currentHandle_of_fiber running), ?_, ?_, objects, registry.trans turned, ?_⟩
  · rw [handle]
    exact ok.currentHandle_ne_zero running
  all_goals
    simp only [Effect.apply, setPoint]
    split <;> rfl

/-- A fiber that is switched in inside a multiple wait goes on with it. -/
theorem Steady.turn_resumes (steady : krnl.Steady) (stepped : krnl.step .turn = some next)
    {fiber : Fiber} (running : ((Effect.turn).apply krnl).currentFiber = some fiber) {ptrs : List Ptr} {waitAll : Bool}
    {ticks : Nat} (point : fiber.ctx.point = .waitMultiple ptrs waitAll ticks) :
    ∃ start : XboxKrnl, krnl.SwitchedTo fiber start ∧ (∀ ptr ∈ ptrs, start.Waitable ptr) ∧
      next = (start.resumeMultiple ptrs waitAll ticks (!fiber.waitTimedOut)).1.deliver
        ((start.resumeMultiple ptrs waitAll ticks (!fiber.waitTimedOut)).2.map waitReply) := by
  obtain ⟨idle, ⟨rfl, still⟩ | ⟨other, again, resumed⟩⟩ := turn_cases stepped
  · simp [currentFiber, still] at running
  · obtain rfl := Option.some.inj (running.symm.trans again)
    have ok := Effect.sound steady.ok .turn idle
    obtain ⟨alive, result⟩ := resume_waitMultiple running point resumed
    exact ⟨_, steady.switchedTo idle running (by simp [point]), fun ptr member =>
      ok.setPoint_waitable running (by simpa [point, Point.waited] using member) (alive ptr member), result⟩

/-- The reply of a wait that goes on does, too. -/
theorem Steady.turn_settles (steady : krnl.Steady) (short : krnl.ShortWaits) (stepped : krnl.step .turn = some next)
    {fiber : Fiber} (running : ((Effect.turn).apply krnl).currentFiber = some fiber) {ptrs : List Ptr} {waitAll : Bool}
    {ticks : Nat} (point : fiber.ctx.point = .waitMultiple ptrs waitAll ticks) {caller : Nat} {reply : Reply}
    (answered : krnl.answered next = some (caller, reply)) :
    krnl.ResultHolds next caller ptrs waitAll reply.value ↔ krnl.Ownable caller ptrs waitAll := by
  obtain ⟨start, begun, waitable, rfl⟩ := steady.turn_resumes stepped running point
  obtain ⟨rfl, settled⟩ := answered_wait answered
    (fun blocked => (resumeMultiple_silent (Option.map_eq_none_iff.mp blocked)).trans begun.history)
    (fun reply returned => by
      obtain ⟨status, code, rfl⟩ := Option.map_eq_some_iff.mp returned
      exact begun.steady.resume_outcome begun.inFiber ptrs waitAll ticks _ waitable code)
  refine settled.settles (fun ptr member => (waitable ptr member).1) ?_ begun.objects begun.registry
    (deliver_objects _ _).1.symm (deliver_objects _ _).2.symm
  simpa [point, Point.waited] using short.running (turn_cases stepped).1 running (by rw [point]; rfl)

/-- Where nothing has been disturbed, a reply changes no object. -/
theorem Undisturbed.unchanged {start called : XboxKrnl} (undisturbed : start.Undisturbed called)
    (objects : start.object? = krnl.object?) (returned : Option Reply) : krnl.Unchanged (called.deliver returned) := by
  intro ptr object found
  rw [(deliver_objects _ _).1]
  exact undisturbed.objects ptr object (by rw [objects, found])

/-- A call that blocks has changed no object, and its fiber waits. -/
theorem Steady.call_unanswered (steady : krnl.Steady) {count handles waitType mode alertable timeout : Nat}
    (stepped : krnl.step (.call (.ntWaitForMultipleObjectsEx count handles waitType mode alertable timeout)) = some next)
    (unanswered : krnl.answered next = none) : krnl.Unchanged next := by
  obtain ⟨_, _, rfl⟩ := call_cases stepped
  obtain ⟨ram, same⟩ := krnl.refreshData_eq
  have history : krnl.refreshData.history = krnl.history := by rw [same]
  have objects : krnl.refreshData.object? = krnl.object? := by rw [same]; rfl
  refine Undisturbed.unchanged ?_ objects _
  rcases steady.refreshed.multipleWait count handles waitType timeout with rejected | ⟨ptrs, ticks, _, waited⟩
  · change krnl.refreshData.Undisturbed (krnl.refreshData.ntWaitForMultipleObjectsEx count handles waitType timeout).1
    rw [rejected]
    exact .refl _
  · exact waited.unanswered steady.refreshed.ok history
      (fun blocked => (ntWaitForMultipleObjectsEx_silent blocked).trans history) unanswered

/-- Neither has a wait that blocks again. -/
theorem Steady.turn_unanswered (steady : krnl.Steady) (stepped : krnl.step .turn = some next)
    {fiber : Fiber} (running : ((Effect.turn).apply krnl).currentFiber = some fiber) {ptrs : List Ptr} {waitAll : Bool}
    {ticks : Nat} (point : fiber.ctx.point = .waitMultiple ptrs waitAll ticks)
    (unanswered : krnl.answered next = none) : krnl.Unchanged next := by
  obtain ⟨start, begun, waitable, rfl⟩ := steady.turn_resumes stepped running point
  have silent : ((start.resumeMultiple ptrs waitAll ticks (!fiber.waitTimedOut)).2.map waitReply = none) →
      (start.resumeMultiple ptrs waitAll ticks (!fiber.waitTimedOut)).1.history = krnl.history :=
    fun blocked => (resumeMultiple_silent (Option.map_eq_none_iff.mp blocked)).trans begun.history
  refine Undisturbed.unchanged ?_ begun.objects _
  cases woken : fiber.waitTimedOut with
  | true => exact Path.undisturbed (begun.steady.unregisterWaiter ptrs begun.inFiber waitable).1 begun.steady.ok
  | false =>
    rw [woken] at unanswered silent
    exact (begun.steady.resumeMultiple ptrs waitAll ticks begun.inFiber waitable).unanswered begun.steady.ok
      begun.history silent unanswered

/-! ## Runs -/

/-- In every reachable state all sets are short. -/
theorem Reaches.shortWaits {actions : List Action} (reached : krnl.Reaches actions) : krnl.ShortWaits := by
  have invariant : krnl.Steady ∧ krnl.ShortWaits := reached.invariant
    (fun _ _ _ _ fiber member => by cases member) (fun _ _ _ steady short stepped => short.step steady stepped)
  exact invariant.2

/-- In every run, the result of a multiple wait says what was acquired if and only if its caller
is a fiber or has picked no mutant; a multiple wait that goes on leaves every object as it was.

Proof: a multiple wait is answered by its call, or by the turn that switches its fiber in. Both
acquire what the result names, and only a caller outside of a fiber can fail to own the mutant
it was given. -/
theorem multiple_wait_results {actions : List Action} (reached : krnl.Reaches actions) {action : Action}
    (stepped : krnl.step action = some next) {ptrs : List Ptr} {waitAll : Bool}
    (evaluates : krnl.awaits action = some (ptrs, waitAll)) :
    (∀ caller reply, krnl.answered next = some (caller, reply) →
      (krnl.ResultHolds next caller ptrs waitAll reply.value ↔ krnl.Ownable caller ptrs waitAll)) ∧
    (krnl.answered next = none → krnl.Unchanged next) := by
  have steady := reached.steady
  cases action with
  | call call =>
    cases call with
    | ntWaitForMultipleObjectsEx count handles waitType mode alertable timeout =>
      obtain ⟨rfl, rfl⟩ := Prod.mk.inj (Option.some.inj evaluates)
      exact ⟨fun caller reply answered => steady.call_settles stepped answered, steady.call_unanswered stepped⟩
    | _ => cases evaluates
  | turn =>
    obtain ⟨fiber, running, named⟩ := Option.bind_eq_some_iff.mp evaluates
    split at named
    · rename_i set all ticks point
      obtain ⟨rfl, rfl⟩ := Prod.mk.inj (Option.some.inj named)
      exact ⟨fun caller reply answered => steady.turn_settles reached.shortWaits stepped running point answered,
        steady.turn_unanswered stepped running point⟩
    · cases named
  | _ => cases evaluates

/-- A fiber creates an event that is set and a free mutant. -/
def createsBoth : List Action :=
  [.spawn 0 (some 0), .run, .turn, .call (.ntCreateEvent 64 0 kEventSync 1), .call (.ntCreateMutant 68 0 0)]

/-- It waits for both at once. -/
def waitsBoth : Action := .call (.ntWaitForMultipleObjectsEx 2 64 0 0 0 0)

/-- It takes both of them and returns success. -/
theorem waitsBoth_results : (after true createsBoth).answered (after true (createsBoth ++ [waitsBoth])) = some (1, success) ∧
    (after true createsBoth).ResultHolds (after true (createsBoth ++ [waitsBoth])) 1 [0, 1] true 0 := by
  have answered : (after true createsBoth).answered (after true (createsBoth ++ [waitsBoth])) = some (1, success) := by
    decide +kernel
  refine ⟨answered, ((multiple_wait_results (reaches_after true createsBoth (by decide +kernel))
    (step_after true createsBoth waitsBoth (by decide +kernel)) ?_).1 1 success answered).mpr (Or.inl (by decide))⟩
  decide +kernel

/-- The host creates a mutant and waits for it. -/
def createsMutant : List Action :=
  [.call (.ntCreateMutant 64 0 0)]

/-- A wait for any of one mutant. -/
def waitsAny : Action := .call (.ntWaitForMultipleObjectsEx 1 64 1 0 0 0)

/-- Outside the fibers the mutant is taken and has no owner. -/
theorem host_owns_nothing : (after true createsMutant).awaits waitsAny = some ([0], false) ∧
    (after true createsMutant).answered (after true (createsMutant ++ [waitsAny])) = some (0, success) ∧
    ¬ (after true createsMutant).ResultHolds (after true (createsMutant ++ [waitsAny])) 0 [0] false 0 := by
  refine ⟨by decide +kernel, by decide +kernel, fun holds => ?_⟩
  have acquired := holds.any rfl 0 0 rfl rfl
  have steady := (reaches_after true (createsMutant ++ [waitsAny]) (by decide +kernel)).steady
  exact (acquired.owned 0 List.mem_cons_self (by decide +kernel)).1 steady.ok.tokenOf_host

end XboxKrnl

end SeriesxEmu
