import SeriesxEmu.Paths
import Mathlib.Data.List.Find

/-!
# The waits as paths of effects

Each function of the wait core, from the satisfied checks to the blocking end, is
a path of effects. The only delicate point is the acquisition loop of WaitAll,
which makes the caller's identity when it comes to the first mutant: making it
before the loop gives the same state.
-/

namespace SeriesxEmu

open Scheduler GuestScheduler

namespace XboxKrnl

variable {krnl next : XboxKrnl}

/-! ## Acquisition with the identity made first -/

/-- What a fresh address is depends on the addresses and the tokens alone. -/
theorem freshAddress_congr (addresses : next.addresses = krnl.addresses)
    (tokens : next.heap.map (Option.map DispatcherObject.token) =
      krnl.heap.map (Option.map DispatcherObject.token)) :
    next.freshAddress = krnl.freshAddress := by
  have length : next.heap.length = krnl.heap.length := by
    have lengths := congrArg List.length tokens
    simpa using lengths
  have occupied : ∀ addr, next.occupied addr = krnl.occupied addr := by
    have byTokens : ∀ (state : XboxKrnl) addr, state.occupied addr =
        (state.heap.map (Option.map DispatcherObject.token)).any
          (fun cell => cell.any (fun token => token == .object addr)) := by
      intro state addr
      rw [List.any_map]
      unfold XboxKrnl.occupied
      congr 1
      funext cell
      cases cell <;> rfl
    intro addr
    rw [byTokens, byTokens, tokens]
  have spare : next.spareAddress = krnl.spareAddress := by
    have byTokens : ∀ state : XboxKrnl, state.spareAddress =
        (state.heap.map (Option.map DispatcherObject.token)).foldr (fun cell above => match cell with
          | some token => max above (token.encode + 1)
          | none => above) 0 := by
      intro state
      unfold XboxKrnl.spareAddress
      induction state.heap with
      | nil => rfl
      | cons cell rest inductionHypothesis => cases cell <;> simp [inductionHypothesis]
    rw [byTokens, byTokens, tokens]
  simp only [freshAddress, addresses, length, occupied, spare]

/-- A change of an object that keeps its token keeps the list of tokens. -/
theorem tokens_modify (krnl : XboxKrnl) (ptr : Ptr) (change : DispatcherObject → DispatcherObject)
    (kept : ∀ object, (change object).token = object.token) :
    (krnl.modify ptr change).heap.map (Option.map DispatcherObject.token) =
      krnl.heap.map (Option.map DispatcherObject.token) := by
  apply List.ext_getElem?
  intro index
  simp only [XboxKrnl.modify, List.getElem?_map, List.getElem?_modify]
  split
  · cases found : krnl.heap[index]? with
    | none => rfl
    | some cell => cases cell <;> simp [kept]
  · cases found : krnl.heap[index]? <;> rfl

/-- A modification inside of a list leaves what is appended to it. -/
theorem modify_append {α : Type} (front : List α) (last : α) (index : Nat) (change : α → α)
    (inside : index < front.length) :
    (front ++ [last]).modify index change = front.modify index change ++ [last] := by
  apply List.ext_getElem?
  intro other
  rw [List.getElem?_modify]
  by_cases within : other < front.length
  · rw [List.getElem?_append_left within, List.getElem?_append_left (by simpa using within),
      List.getElem?_modify]
  · have different : index ≠ other := by omega
    simp [List.getElem?_append, within, different]

/-- One object changed, and its mirror in memory. -/
def stored (krnl : XboxKrnl) (ptr : Ptr) (change : DispatcherObject → DispatcherObject) (ram : XbeRam) :
    XboxKrnl :=
  { krnl.modify ptr change with ram }

/-- Making the caller's identity commutes with changing an object. -/
theorem currentThreadToken_stored (krnl : XboxKrnl) (ptr : Ptr) (inside : ptr < krnl.heap.length)
    (change : DispatcherObject → DispatcherObject) (kept : ∀ object, (change object).token = object.token)
    (ram : XbeRam) :
    (krnl.stored ptr change ram).currentThreadToken.1 =
      krnl.currentThreadToken.1.stored ptr change ram := by
  have fresh : (krnl.stored ptr change ram).freshAddress = krnl.freshAddress :=
    freshAddress_congr rfl (krnl.tokens_modify ptr change kept)
  have handle : (krnl.stored ptr change ram).currentHandle = krnl.currentHandle := rfl
  unfold currentThreadToken
  rw [handle]
  by_cases host : krnl.currentHandle = 0
  · simp [host]
  · simp only [host, ↓reduceIte]
    cases identity : krnl.fiberThread? krnl.currentHandle with
    | some self =>
      have same : (krnl.stored ptr change ram).fiberThread? krnl.currentHandle = some self := identity
      simp only [ensureThreadObject, identity, same]
    | none =>
      have same : (krnl.stored ptr change ram).fiberThread? krnl.currentHandle = none := identity
      have heap : (krnl.stored ptr change ram).heap = krnl.heap.modify ptr (Option.map change) := rfl
      rw [ensureThreadObject_new _ _ same, ensureThreadObject_new _ _ identity]
      simp only [allocate, fresh, heap, List.length_modify]
      rw [← modify_append _ _ _ _ inside]
      rfl

/-- An acquisition is the same once the identity it needs is there. -/
theorem Steady.dispatcherAcquire_learned (steady : krnl.Steady) {ptr : Ptr} {object : DispatcherObject}
    (live : krnl.object? ptr = some object) (kind : object.kind = .mutant) :
    krnl.dispatcherAcquire ptr = krnl.currentThreadToken.1.dispatcherAcquire ptr := by
  obtain ⟨learns, token, identified⟩ := steady.currentThreadToken
  have again := learns.steady.ok.currentThreadToken_identified (by rw [learns.handle]; exact identified)
  rw [learns.handle, ← token] at again
  have later := object_eq _ _ _ (learns.live ptr object live)
  simp only [dispatcherAcquire, krnl.object_eq _ _ live, later, kind, again]

/-- A set of objects without a mutant is taken without looking at the caller. -/
theorem dispatcherAcquire_plain (ptr : Ptr) {object : DispatcherObject} (kind : object.kind ≠ .mutant) :
    ∃ change : DispatcherObject → DispatcherObject, (∀ object, (change object).shape = object.shape) ∧
      (∀ object, (change object).mutant = object.mutant) ∧
      ∃ write : XbeRam → XbeRam, (∀ state : XboxKrnl, state.object? ptr = some object →
        state.dispatcherAcquire ptr = (state.stored ptr change (write state.ram), kStatusSuccess)) := by
  cases isKind : object.kind with
  | event =>
    by_cases sync : object.event.type = kEventSync
    · refine ⟨fun o => { o with event := { o.event with signaled := false } }, fun _ => rfl,
        fun _ => rfl, fun ram => writeSignalState ram { object with event := { object.event with signaled := false } },
        fun state found => ?_⟩
      have cell := state.heap_cell ptr object found
      simp [dispatcherAcquire, XboxKrnl.object, object?, cell, isKind, sync, mirrorSignalState,
        XboxKrnl.modify, stored]
    · refine ⟨id, fun _ => rfl, fun _ => rfl, id, fun state found => ?_⟩
      rw [stored, state.modify_noop ptr object found id rfl]
      simp [dispatcherAcquire, state.object_eq _ _ found, isKind, sync]
  | semaphore =>
    refine ⟨fun o => { o with semaphore := { o.semaphore with count := o.semaphore.count - 1 } },
      fun _ => rfl, fun _ => rfl, fun ram => writeSignalState ram
        { object with semaphore := { object.semaphore with count := object.semaphore.count - 1 } },
      fun state found => ?_⟩
    have cell := state.heap_cell ptr object found
    simp [dispatcherAcquire, XboxKrnl.object, object?, cell, isKind, mirrorSignalState, XboxKrnl.modify,
      stored]
  | thread =>
    refine ⟨id, fun _ => rfl, fun _ => rfl, id, fun state found => ?_⟩
    rw [stored, state.modify_noop ptr object found id rfl]
    simp [dispatcherAcquire, state.object_eq _ _ found, isKind]
  | mutant => exact absurd isKind kind

/-- A store changes the object it names and no other. -/
theorem object?_stored (krnl : XboxKrnl) (ptr other : Ptr) (change : DispatcherObject → DispatcherObject)
    (ram : XbeRam) : (krnl.stored ptr change ram).object? other =
      if other = ptr then (krnl.object? other).map change else krnl.object? other :=
  krnl.object?_modify ptr other change

/-- Changing an object without its shape or its owner keeps the machine steady. -/
theorem Steady.stored (steady : krnl.Steady) {ptr : Ptr} {object : DispatcherObject}
    (live : krnl.object? ptr = some object) (change : DispatcherObject → DispatcherObject)
    (shape : (change object).shape = object.shape)
    (owner : (change object).mutant.owner = object.mutant.owner) (ram : XbeRam) :
    (krnl.stored ptr change ram).Steady :=
  ⟨steady.ok.update live change shape (Or.inl owner) (Wakes.refl (fun _ => False) _) ram krnl.history,
    steady.guest⟩

/-- The acquisition loop gives the same result with the identity made before it. -/
theorem Steady.acquireAll_learned (steady : krnl.Steady) (ptrs : List Ptr) (index worst : Nat)
    (live : ∀ ptr ∈ ptrs, ∃ object, krnl.object? ptr = some object)
    (mutant : ∃ ptr ∈ ptrs, (krnl.object ptr).kind = .mutant) :
    krnl.acquireAll ptrs index worst = krnl.currentThreadToken.1.acquireAll ptrs index worst := by
  induction ptrs generalizing krnl index worst with
  | nil => simp at mutant
  | cons ptr rest inductionHypothesis =>
    obtain ⟨object, here⟩ := live ptr List.mem_cons_self
    have learns := steady.currentThreadToken.1
    by_cases kind : object.kind = .mutant
    · simp only [acquireAll, steady.dispatcherAcquire_learned here kind]
    · obtain ⟨change, shape, mutants, write, acquired⟩ := dispatcherAcquire_plain ptr kind
      have later := acquired krnl.currentThreadToken.1 (learns.live ptr object here)
      simp only [acquireAll, acquired krnl here, later]
      have owner : (change object).mutant.owner = object.mutant.owner := by rw [mutants]
      have next := steady.stored here change (shape object) owner (write krnl.ram)
      rw [inductionHypothesis next _ _ ?_ ?_, krnl.currentThreadToken_stored ptr
        (krnl.object?_inside _ _ here) change (fun o => DispatcherObject.token_of_shape (shape o)),
        learns.ram]
      · intro other member
        obtain ⟨found, before⟩ := live other (List.mem_cons_of_mem ptr member)
        rw [object?_stored, before]
        split
        · exact ⟨_, rfl⟩
        · exact ⟨_, rfl⟩
      · obtain ⟨other, member, isMutant⟩ := mutant
        rcases List.mem_cons.mp member with rfl | member
        · rw [krnl.object_eq _ _ here] at isMutant
          exact absurd isMutant kind
        · obtain ⟨found, before⟩ := live other (List.mem_cons_of_mem ptr member)
          rw [krnl.object_eq _ _ before] at isMutant
          refine ⟨other, member, ?_⟩
          have read := krnl.object?_stored ptr other change (write krnl.ram)
          rw [before] at read
          split at read
          · rw [object_eq _ _ _ read]
            exact (DispatcherObject.kind_of_shape (shape found)).trans isMutant
          · rw [object_eq _ _ _ read]
            exact isMutant

/-- The caller has an identity before the acquisition loop, or there is no mutant among the objects. -/
theorem Steady.acquireAll_identified (steady : krnl.Steady) (ptrs : List Ptr) (index worst : Nat)
    (live : ∀ ptr ∈ ptrs, ∃ object, krnl.object? ptr = some object) :
    ∃ learned, (learned = krnl ∨ learned = krnl.currentThreadToken.1) ∧ krnl.Learns learned ∧
      (∀ ptr ∈ ptrs, (learned.object ptr).kind = .mutant → learned.currentHandle ≠ 0 →
        ∃ self, learned.fiberThread? learned.currentHandle = some self) ∧
      krnl.acquireAll ptrs index worst = learned.acquireAll ptrs index worst := by
  by_cases mutant : ∃ ptr ∈ ptrs, (krnl.object ptr).kind = .mutant
  · obtain ⟨learns, _, identified⟩ := steady.currentThreadToken
    refine ⟨_, Or.inr rfl, learns, fun ptr member _ inFiber => ?_,
      steady.acquireAll_learned ptrs index worst live mutant⟩
    rw [learns.handle] at inFiber ⊢
    exact identified inFiber
  · exact ⟨krnl, Or.inl rfl, .refl steady, fun ptr member kind => absurd ⟨ptr, member, kind⟩ mutant, rfl⟩

/-- The status of later objects does not depend on an acquisition that succeeded
plainly. -/
theorem acquireStatus_stored {ptr : Ptr} {object : DispatcherObject}
    (live : krnl.object? ptr = some object) (plain : krnl.acquireStatus ptr = kStatusSuccess)
    (ram : XbeRam) (other : Ptr) :
    (krnl.stored ptr krnl.takeOne ram).acquireStatus other = krnl.acquireStatus other := by
  have handle : (krnl.stored ptr krnl.takeOne ram).currentHandle = krnl.currentHandle := rfl
  by_cases same : other = ptr
  · subst same
    have read : (krnl.stored other krnl.takeOne ram).object other = krnl.takeOne object := by
      apply object_eq
      rw [object?_stored, if_pos rfl, live]
      rfl
    have kind : (krnl.takeOne object).kind = object.kind :=
      DispatcherObject.kind_of_shape (krnl.takeOne_shape object)
    rw [plain]
    simp only [acquireStatus, read, kind, handle, krnl.object_eq _ _ live] at plain ⊢
    cases isKind : object.kind with
    | mutant =>
      simp only [isKind] at plain
      split at plain
      · simp [kStatusInvalidParameter, kStatusSuccess] at plain
      · rename_i inFiber
        simp [takeOne, isKind, inFiber, takeMutant]
    | _ => rfl
  · have read : (krnl.stored ptr krnl.takeOne ram).object other = krnl.object other := by
      simp [XboxKrnl.object, object?_stored, same]
    simp only [acquireStatus, read, handle]

/-- The acquisition loop takes every object, and its status names the first one
that did not succeed plainly. -/
theorem Ok.acquireAll_eq (ok : krnl.Ok) (ptrs : List Ptr) (index worst : Nat)
    (live : ∀ ptr ∈ ptrs, ∃ object, krnl.object? ptr = some object)
    (identified : ∀ ptr ∈ ptrs, (krnl.object ptr).kind = .mutant → krnl.currentHandle ≠ 0 →
      ∃ self, krnl.fiberThread? krnl.currentHandle = some self) :
    krnl.acquireAll ptrs index worst = (krnl.taken ptrs,
      if worst = kStatusSuccess then
        ((ptrs.findIdx? (fun ptr => krnl.acquireStatus ptr != kStatusSuccess)).map
          (kStatusAbandoned + index + ·)).getD kStatusSuccess
      else worst) := by
  induction ptrs generalizing krnl index worst with
  | nil =>
    by_cases clean : worst = kStatusSuccess <;> simp [acquireAll, taken, clean]
  | cons ptr rest inductionHypothesis =>
    obtain ⟨object, here⟩ := live ptr List.mem_cons_self
    obtain ⟨next, took⟩ := ok.took live identified
    have stepped : krnl.taken (ptr :: rest) = next.taken rest :=
      congrArg (fun first => XboxKrnl.taken first.1 rest) took.acquired
    obtain ⟨ram, same⟩ := took.stored
    obtain rfl : next = krnl.stored ptr krnl.takeOne ram := same
    have nextIdentified : ∀ other ∈ rest, ((krnl.stored ptr krnl.takeOne ram).object other).kind = .mutant →
        krnl.currentHandle ≠ 0 → ∃ self, krnl.fiberThread? krnl.currentHandle = some self := by
      intro other member kind
      exact identified other (List.mem_cons_of_mem ptr member) ((took.kind other member).symm.trans kind)
    rw [acquireAll, show krnl.dispatcherAcquire ptr = (krnl.stored ptr krnl.takeOne ram,
      krnl.acquireStatus ptr) from took.acquired]
    simp only
    rw [inductionHypothesis took.ok _ _ took.live nextIdentified, stepped]
    congr 1
    by_cases clean : worst = kStatusSuccess
    · by_cases plain : krnl.acquireStatus ptr = kStatusSuccess
      · simp only [plain, ne_eq, not_true_eq_false, clean, and_true, ↓reduceIte,
          acquireStatus_stored here plain ram, List.findIdx?_cons, bne_self_eq_false, Bool.false_eq_true]
        cases List.findIdx? (fun ptr => krnl.acquireStatus ptr != kStatusSuccess) rest with
        | none => rfl
        | some offset =>
          simp only [Option.map_some, Option.getD_some]
          omega
      · have nonzero : kStatusAbandoned + index ≠ kStatusSuccess := by
          simp [kStatusAbandoned, kStatusSuccess]
        have bad : (krnl.acquireStatus ptr != kStatusSuccess) = true := by simp [plain]
        simp [plain, clean, nonzero, List.findIdx?_cons, bad]
    · simp [clean]

/-! ## Satisfied checks -/

/-- Stay within the machine: the caller is told whether all objects are satisfied. -/
theorem Steady.allSatisfied (steady : krnl.Steady) (ptrs : List Ptr)
    (live : ∀ ptr ∈ ptrs, ∃ object, krnl.object? ptr = some object) :
    krnl.Learns (krnl.allSatisfied ptrs).1 ∧
      (krnl.allSatisfied ptrs).2 = ptrs.all (krnl.satisfiedAs krnl.currentHandle) := by
  induction ptrs generalizing krnl with
  | nil => exact ⟨Learns.refl steady, rfl⟩
  | cons ptr rest inductionHypothesis =>
    obtain ⟨object, here⟩ := live ptr List.mem_cons_self
    obtain ⟨learns, result⟩ := steady.dispatcherSatisfied here
    simp only [XboxKrnl.allSatisfied, List.all_cons]
    cases satisfied : krnl.satisfiedAs krnl.currentHandle ptr with
    | false =>
      rw [result, satisfied]
      exact ⟨learns, rfl⟩
    | true =>
      rw [result, satisfied]
      simp only [↓reduceIte, Bool.true_and]
      obtain ⟨later, laterResult⟩ := inductionHypothesis learns.steady
        (fun other member => learns.lives (live other (List.mem_cons_of_mem ptr member)))
      refine ⟨learns.trans later, ?_⟩
      rw [laterResult, learns.handle, List.all_eq, List.all_eq]
      congr 1
      apply propext
      refine forall_congr' (fun other => forall_congr' (fun member => ?_))
      obtain ⟨found, before⟩ := live other (List.mem_cons_of_mem ptr member)
      rw [learns.satisfied other found before]

/-- Two tests that agree on the list find the same place. -/
theorem findIdx_same {α : Type} {first second : α → Bool} {entries : List α}
    (same : ∀ entry ∈ entries, first entry = second entry) : entries.findIdx first = entries.findIdx second := by
  induction entries with
  | nil => rfl
  | cons entry rest inductionHypothesis =>
    rw [List.findIdx_cons, List.findIdx_cons, same entry List.mem_cons_self,
      inductionHypothesis (fun other member => same other (List.mem_cons_of_mem entry member))]

/-- The scan of WaitAny finds what `find?` finds, and counts the objects before it. -/
theorem Steady.firstSatisfied (steady : krnl.Steady) (ptrs : List Ptr) (index : Nat)
    (live : ∀ ptr ∈ ptrs, ∃ object, krnl.object? ptr = some object) :
    krnl.Learns (krnl.firstSatisfied ptrs index).1 ∧
      (krnl.firstSatisfied ptrs index).2 = (ptrs.find? (krnl.satisfiedAs krnl.currentHandle)).map
        (fun ptr => (index + ptrs.findIdx (krnl.satisfiedAs krnl.currentHandle), ptr)) := by
  induction ptrs generalizing krnl index with
  | nil => exact ⟨Learns.refl steady, rfl⟩
  | cons ptr rest inductionHypothesis =>
    obtain ⟨object, here⟩ := live ptr List.mem_cons_self
    obtain ⟨learns, result⟩ := steady.dispatcherSatisfied here
    simp only [XboxKrnl.firstSatisfied]
    cases satisfied : krnl.satisfiedAs krnl.currentHandle ptr with
    | true =>
      rw [result, satisfied]
      exact ⟨learns, by simp [satisfied, List.findIdx_cons]⟩
    | false =>
      rw [result, satisfied]
      have same : ∀ other ∈ rest, (krnl.dispatcherSatisfied ptr).1.satisfiedAs krnl.currentHandle other =
          krnl.satisfiedAs krnl.currentHandle other := by
        intro other member
        obtain ⟨found, before⟩ := live other (List.mem_cons_of_mem ptr member)
        exact learns.satisfied other found before
      obtain ⟨later, scan⟩ := inductionHypothesis learns.steady (index + 1)
        (fun other member => learns.lives (live other (List.mem_cons_of_mem ptr member)))
      rw [learns.handle, List.find?_congr same, findIdx_same same] at scan
      refine ⟨learns.trans later, ?_⟩
      simp only [Bool.false_eq_true, ↓reduceIte, scan, List.find?_cons, satisfied, List.findIdx_cons, cond_false]
      congr 1
      funext found
      congr 1
      omega

/-! ## The waits -/

/-- The status of an acquisition is the same after an identity was learned. -/
theorem Learns.acquireStatus (learns : krnl.Learns next) {ptr : Ptr} {object : DispatcherObject}
    (live : krnl.object? ptr = some object) : next.acquireStatus ptr = krnl.acquireStatus ptr := by
  simp only [XboxKrnl.acquireStatus, learns.handle, object_eq _ _ _ (learns.live ptr object live),
    object_eq _ _ _ live]

/-- The acquisition that a wait suspended at the given point ends with. -/
def Fulfils : Point → Effect → Prop
  | .waitDispatch ptr _, .acquire .single ptrs _ => ptrs = [ptr]
  | .waitDispatch ptr _, .consume target => target = ptr
  | .waitMultiple ptrs true _, .acquire .all taken _ => taken = ptrs
  | .waitMultiple ptrs false _, .acquire (.any _) taken _ => ∃ ptr ∈ ptrs, taken = [ptr]
  | _, _ => False

/-- The object of a single wait is not satisfied for the caller. -/
def Unmet (krnl : XboxKrnl) : Point → Prop
  | .waitDispatch ptr _ => krnl.satisfiedAs krnl.currentHandle ptr = false
  | _ => True

/-- A wait at the given point leaves all objects in their state until it ends, and
ends with at most one acquisition; a single wait only goes without one when its
object is not satisfied. -/
def Waited (krnl : XboxKrnl) (point : Point) (next : XboxKrnl) : Prop :=
  ∃ middle, Path [.waiting] krnl middle ∧ ((next = middle ∧ krnl.Unmet point) ∨
    ∃ effect : Effect, Fulfils point effect ∧ effect.Allowed middle ∧ next = effect.apply middle)

/-- A wait on several objects may be preceded by waiting. -/
theorem Waited.after {ptrs : List Ptr} {waitAll : Bool} {ticks : Nat} {middle : XboxKrnl}
    (before : Path [.waiting] krnl middle) (waited : middle.Waited (.waitMultiple ptrs waitAll ticks) next) :
    krnl.Waited (.waitMultiple ptrs waitAll ticks) next := by
  obtain ⟨last, path, rest⟩ := waited
  exact ⟨last, before.trans path, rest⟩

/-- The labels of the acquisitions: only WaitAll grants a whole set, and only a single
wait consumes a signal that was handed to it. -/
def waitLabels : Point → List Label
  | .waitMultiple _ true _ => [.waiting, .grant]
  | .waitDispatch _ _ => [.waiting, .acquiring, .consume]
  | _ => [.waiting, .acquiring]

/-- A wait is a path of its own labels. -/
theorem Waited.path {point : Point} (waited : krnl.Waited point next) : Path (waitLabels point) krnl next := by
  obtain ⟨middle, path, ⟨rfl, _⟩ | ⟨effect, fulfils, allowed, rfl⟩⟩ := waited
  · refine path.mono ?_
    unfold waitLabels
    split <;> simp
  · refine (path.mono ?_).trans (Path.one effect ?_ allowed)
    · unfold waitLabels
      split <;> simp
    · unfold Fulfils at fulfils
      split at fulfils <;> first | exact fulfils.elim | simp [waitLabels, Effect.label]

/-- One acquisition by a wait that is not a WaitAll. -/
theorem Steady.acquireOne (steady : krnl.Steady) {ptr : Ptr} (waitable : krnl.Waitable ptr)
    (satisfied : krnl.satisfiedAs krnl.currentHandle ptr = true) (mode : WaitMode) (single : mode ≠ .all) :
    (∃ middle status, Path [.waiting] krnl middle ∧ middle.currentHandle = krnl.currentHandle ∧
      (Effect.acquire mode [ptr] status).Allowed middle ∧
      (krnl.dispatcherAcquire ptr).1.noteSatisfied mode [ptr] (krnl.grantStatus mode [ptr]) =
        (Effect.acquire mode [ptr] status).apply middle) ∧
      (krnl.dispatcherAcquire ptr).2 = krnl.acquireStatus ptr := by
  obtain ⟨object, live⟩ := waitable.1
  by_cases kind : object.kind = .mutant
  · obtain ⟨learns, _, identified⟩ := steady.currentThreadToken
    have status := learns.acquireStatus live
    have grant : krnl.currentThreadToken.1.grantStatus mode [ptr] = krnl.grantStatus mode [ptr] := by
      cases mode with
      | all => exact absurd rfl single
      | single => simp [grantStatus, status]
      | any index => simp [grantStatus, status]
    rw [steady.dispatcherAcquire_learned live kind]
    constructor
    · refine ⟨krnl.currentThreadToken.1, krnl.grantStatus mode [ptr], learns.path, learns.handle,
        ⟨?_, ?_, grant.symm, fun _ => ⟨ptr, rfl⟩⟩, rfl⟩
      · intro other member
        obtain rfl := List.mem_singleton.mp member
        refine ⟨learns.waitable waitable, ?_⟩
        rw [learns.satisfies ⟨object, live⟩]
        exact satisfied
      · intro other member _ inFiber
        rw [learns.handle] at inFiber ⊢
        exact identified inFiber
    · have acquired := learns.steady.ok.dispatcherAcquire_eq ptr object (learns.live ptr object live)
        (fun _ inFiber => by rw [learns.handle] at inFiber ⊢; exact identified inFiber)
      rw [acquired.2, status]
  · constructor
    · refine ⟨krnl, krnl.grantStatus mode [ptr], .refl, rfl, ⟨?_, ?_, rfl, fun _ => ⟨ptr, rfl⟩⟩, rfl⟩
      · intro other member
        obtain rfl := List.mem_singleton.mp member
        exact ⟨waitable, satisfied⟩
      · intro other member isMutant
        obtain rfl := List.mem_singleton.mp member
        rw [krnl.object_eq _ _ live] at isMutant
        exact absurd isMutant kind
    · exact (steady.ok.dispatcherAcquire_eq ptr object live (fun isMutant => absurd isMutant kind)).2

/-- The code of `wait_dispatch` from the head of its loop ends with an acquisition, or
without one when the object is not satisfied. -/
theorem Steady.dispatchEnds (steady : krnl.Steady) {ptr : Ptr} (waitable : krnl.Waitable ptr)
    (immediate : Bool) (ticks : Nat) :
    ∃ middle, Path [.waiting] krnl middle ∧
      (((krnl.waitDispatch ptr immediate ticks).1 = middle ∧ krnl.Unmet (.waitDispatch ptr ticks)) ∨
        ∃ status, middle.currentHandle = krnl.currentHandle ∧
          (Effect.acquire .single [ptr] status).Allowed middle ∧
          (krnl.waitDispatch ptr immediate ticks).1 = (Effect.acquire .single [ptr] status).apply middle) := by
  obtain ⟨object, live⟩ := waitable.1
  obtain ⟨learns, result⟩ := steady.dispatcherSatisfied live
  have same := learns.satisfied ptr object live
  simp only [XboxKrnl.waitDispatch, result]
  split
  · rename_i satisfied
    obtain ⟨⟨middle, granted, path, caller, allowed, applied⟩, status⟩ := learns.steady.acquireOne
      (learns.waitable waitable) (by rw [learns.handle, same]; exact satisfied) .single (by simp)
    refine ⟨middle, learns.path.trans path, Or.inr ⟨granted, caller.trans learns.handle, allowed, ?_⟩⟩
    rw [status]
    exact applied
  · rename_i unsatisfied
    have unmet : krnl.Unmet (.waitDispatch ptr ticks) := by simpa [Unmet] using unsatisfied
    split
    · exact ⟨_, learns.path, Or.inl ⟨rfl, unmet⟩⟩
    · split
      · exact ⟨_, learns.path, Or.inl ⟨rfl, unmet⟩⟩
      · rename_i inFiber
        have isFiber : (krnl.dispatcherSatisfied ptr).1.currentHandle ≠ 0 := by
          simpa [XboxKrnl.inFiber] using inFiber
        refine ⟨_, learns.path.trans (Path.one (.block _ ticks (.waitDispatch ptr ticks)) (by simp [Effect.label])
          ⟨learns.steady.fiber isFiber, learns.waitable waitable, rfl, ?_⟩), Or.inl ⟨rfl, unmet⟩⟩
        rw [learns.handle, same]
        simpa using unsatisfied

/-- A wait on one object does what `Waited` allows. -/
theorem Steady.waitDispatch (steady : krnl.Steady) {ptr : Ptr} (waitable : krnl.Waitable ptr)
    (immediate : Bool) (ticks : Nat) :
    krnl.Waited (.waitDispatch ptr ticks) (krnl.waitDispatch ptr immediate ticks).1 := by
  obtain ⟨middle, path, unmet | ⟨status, _, allowed, applied⟩⟩ := steady.dispatchEnds waitable immediate ticks
  · exact ⟨middle, path, Or.inl unmet⟩
  · exact ⟨middle, path, Or.inr ⟨.acquire .single [ptr] status, rfl, allowed, applied⟩⟩

/-- A wait call takes its object itself: nothing has been handed to it. -/
theorem Steady.waitDispatch_path (steady : krnl.Steady) {ptr : Ptr} (waitable : krnl.Waitable ptr)
    (immediate : Bool) (ticks : Nat) :
    Path [.waiting, .acquiring] krnl (krnl.waitDispatch ptr immediate ticks).1 := by
  obtain ⟨middle, path, ⟨same, _⟩ | ⟨status, _, allowed, applied⟩⟩ := steady.dispatchEnds waitable immediate ticks
  · rw [same]
    exact path.mono (by simp)
  · rw [applied]
    exact (path.mono (by simp)).trans (Path.one _ (by simp [Effect.label]) allowed)

/-- The code of `wait_dispatch` after a wake-up. -/
theorem Steady.resumeDispatch (steady : krnl.Steady) {ptr : Ptr}
    (waitable : krnl.Waitable ptr) (ticks : Nat) :
    krnl.Waited (.waitDispatch ptr ticks) (krnl.resumeDispatch ptr ticks true).1 := by
  simp only [XboxKrnl.resumeDispatch, Bool.not_true, Bool.false_eq_true, ↓reduceIte]
  split
  · rename_i kind
    obtain ⟨object, live⟩ := waitable.1
    rw [krnl.object_eq _ _ live] at kind
    have acquirable : [ptr].filter krnl.acquirable = [ptr] := by
      simp [XboxKrnl.acquirable, krnl.object_eq _ _ live, kind]
    simp only [noteSatisfied, acquirable]
    exact ⟨krnl, .refl, Or.inr ⟨.consume ptr, rfl, ⟨object, live, kind⟩, rfl⟩⟩
  · exact steady.waitDispatch waitable false ticks

/-- The later state only has more registrations of the caller's channel. -/
structure Registers (krnl next : XboxKrnl) : Prop where
  path : Path [.waiting] krnl next
  steady : next.Steady
  handle : next.currentHandle = krnl.currentHandle
  waitable : ∀ ptr, krnl.Waitable ptr → next.Waitable ptr
  satisfied : ∀ ptr object, krnl.object? ptr = some object →
    next.satisfiedAs krnl.currentHandle ptr = krnl.satisfiedAs krnl.currentHandle ptr
  waiters : ∀ ptr object, krnl.object? ptr = some object →
    ∀ token ∈ object.mwWaiters, token ∈ (next.object ptr).mwWaiters

/-- Learning an identity registers. -/
theorem Learns.registers (learns : krnl.Learns next) : krnl.Registers next :=
  ⟨learns.path, learns.steady, learns.handle, fun _ => learns.waitable, learns.satisfied,
    fun ptr object live token member => by rw [object_eq _ _ _ (learns.live ptr object live)]; exact member⟩

/-- Registrations one after the other register. -/
theorem Registers.trans {last : XboxKrnl} (first : krnl.Registers next) (second : next.Registers last)
    (live : ∀ ptr object, krnl.object? ptr = some object → ∃ later, next.object? ptr = some later) :
    krnl.Registers last := by
  refine ⟨first.path.trans second.path, second.steady, second.handle.trans first.handle,
    fun ptr waitable => second.waitable ptr (first.waitable ptr waitable), fun ptr object found => ?_,
    fun ptr object found token member => ?_⟩
  · obtain ⟨later, foundLater⟩ := live ptr object found
    have after := second.satisfied ptr later foundLater
    rw [first.handle] at after
    exact after.trans (first.satisfied ptr object found)
  · obtain ⟨later, foundLater⟩ := live ptr object found
    have between := first.waiters ptr object found token member
    rw [object_eq _ _ _ foundLater] at between
    exact second.waiters ptr later foundLater token between

/-- Adding one registration. -/
theorem Steady.register (steady : krnl.Steady) {ptr : Ptr} {object : DispatcherObject}
    (live : krnl.object? ptr = some object) (inFiber : krnl.currentHandle ≠ 0) :
    krnl.Registers (krnl.modify ptr (addWaiter (.multiWait krnl.currentHandle))) ∧
      Token.multiWait krnl.currentHandle ∈
        ((krnl.modify ptr (addWaiter (.multiWait krnl.currentHandle))).object ptr).mwWaiters := by
  have read := krnl.object?_modify ptr ptr (addWaiter (.multiWait krnl.currentHandle))
  rw [if_pos rfl, live] at read
  have path : Path [.waiting] krnl (krnl.modify ptr (addWaiter (.multiWait krnl.currentHandle))) :=
    Path.one (.adjust ptr .register) (by simp [Effect.label]) ⟨object, live, inFiber⟩
  have token : ∀ fiber, (krnl.modify ptr (addWaiter (.multiWait krnl.currentHandle))).tokenOf fiber =
      krnl.tokenOf fiber :=
    tokenOf_congr (krnl.registry_modify ptr _ (fun _ _ => rfl))
  refine ⟨⟨path, ⟨path.ok steady.ok, steady.guest⟩, rfl, ?_, ?_, ?_⟩, ?_⟩
  · rintro other ⟨⟨found, before⟩, place⟩
    refine ⟨?_, place⟩
    rw [object?_modify, before]
    split
    · exact ⟨_, rfl⟩
    · exact ⟨_, rfl⟩
  · intro other found before
    have readOther := krnl.object?_modify ptr other (addWaiter (.multiWait krnl.currentHandle))
    rw [before] at readOther
    split at readOther
    · simp only [satisfiedAs, object_eq _ _ _ readOther, object_eq _ _ _ before, token, addWaiter]
    · simp only [satisfiedAs, object_eq _ _ _ readOther, object_eq _ _ _ before, token]
  · intro other found before token member
    have readOther := krnl.object?_modify ptr other (addWaiter (.multiWait krnl.currentHandle))
    rw [before] at readOther
    split at readOther
    · rw [object_eq _ _ _ readOther]
      exact List.mem_append_left _ member
    · rw [object_eq _ _ _ readOther]
      exact member
  · rw [object_eq _ _ _ read]
    simp [addWaiter]

/-- The registration loop: afterwards the caller's channel is registered on every
object of the set that is not satisfied. -/
theorem Steady.registerWaiter (steady : krnl.Steady) (ptrs : List Ptr)
    (waitable : ∀ ptr ∈ ptrs, krnl.Waitable ptr) (inFiber : krnl.currentHandle ≠ 0) :
    krnl.Registers (registerWaiter (.multiWait krnl.currentHandle) krnl ptrs) ∧
      ∀ ptr ∈ ptrs, krnl.satisfiedAs krnl.currentHandle ptr = false →
        Token.multiWait krnl.currentHandle ∈
          ((XboxKrnl.registerWaiter (.multiWait krnl.currentHandle) krnl ptrs).object ptr).mwWaiters := by
  induction ptrs generalizing krnl with
  | nil => exact ⟨(Learns.refl steady).registers, by simp⟩
  | cons ptr rest inductionHypothesis =>
    obtain ⟨object, here⟩ := (waitable ptr List.mem_cons_self).1
    obtain ⟨learns, result⟩ := steady.dispatcherSatisfied here
    simp only [XboxKrnl.registerWaiter, result]
    obtain ⟨middle, isMiddle, first, registered⟩ : ∃ middle, (if krnl.satisfiedAs krnl.currentHandle ptr then
        (krnl.dispatcherSatisfied ptr).1
        else (krnl.dispatcherSatisfied ptr).1.modify ptr (addWaiter (.multiWait krnl.currentHandle))) = middle ∧
        krnl.Registers middle ∧ (krnl.satisfiedAs krnl.currentHandle ptr = false →
          Token.multiWait krnl.currentHandle ∈ (middle.object ptr).mwWaiters) := by
      refine ⟨_, rfl, ?_⟩
      split
      · rename_i satisfied
        exact ⟨learns.registers, fun unsatisfied => by rw [satisfied] at unsatisfied; cases unsatisfied⟩
      · obtain ⟨adds, added⟩ := learns.steady.register (learns.live ptr object here)
          (by rw [learns.handle]; exact inFiber)
        rw [learns.handle] at adds added
        exact ⟨learns.registers.trans adds (fun other found before => ⟨found, learns.live other found before⟩),
          fun _ => added⟩
    rw [isMiddle]
    have live : ∀ other found, krnl.object? other = some found → ∃ later, middle.object? other = some later := by
      intro other found before
      rw [← isMiddle]
      split
      · exact ⟨found, learns.live other found before⟩
      · rw [object?_modify, learns.live other found before]
        split
        · exact ⟨_, rfl⟩
        · exact ⟨_, rfl⟩
    obtain ⟨later, all⟩ := inductionHypothesis first.steady
      (fun other member => first.waitable other (waitable other (List.mem_cons_of_mem ptr member)))
      (by rw [first.handle]; exact inFiber)
    rw [first.handle] at later all
    refine ⟨first.trans later live, fun other member unsatisfied => ?_⟩
    rcases List.mem_cons.mp member with rfl | member
    · obtain ⟨between, foundBetween⟩ := live other object here
      refine later.waiters other between foundBetween _ ?_
      rw [← object_eq _ _ _ foundBetween]
      exact registered unsatisfied
    · obtain ⟨found, before⟩ := (waitable other (List.mem_cons_of_mem ptr member)).1
      refine all other member ?_
      rw [first.satisfied other found before]
      exact unsatisfied

/-- The blocking end of `wait_multiple`. -/
theorem Steady.blockMultiple (steady : krnl.Steady) (ptrs : List Ptr) (waitAll immediate : Bool)
    (ticks : Nat) (waitable : ∀ ptr ∈ ptrs, krnl.Waitable ptr)
    (unsatisfied : if waitAll then ∃ ptr ∈ ptrs, krnl.satisfiedAs krnl.currentHandle ptr = false
      else ∀ ptr ∈ ptrs, krnl.satisfiedAs krnl.currentHandle ptr = false) :
    Path [.waiting] krnl (krnl.blockMultiple ptrs waitAll immediate ticks).1 := by
  unfold XboxKrnl.blockMultiple
  split
  · exact .refl
  · split
    · exact .refl
    · rename_i inFiber
      have isFiber : krnl.currentHandle ≠ 0 := by simpa [XboxKrnl.inFiber] using inFiber
      obtain ⟨registers, all⟩ := steady.registerWaiter ptrs waitable isFiber
      refine registers.path.trans (Path.one (.block (.multiWait krnl.currentHandle) ticks
        (.waitMultiple ptrs waitAll ticks)) (by simp [Effect.label]) ⟨?_, ?_, ?_, ?_, ?_⟩)
      · exact registers.steady.fiber (by rw [registers.handle]; exact isFiber)
      · rw [registers.handle]
      · exact fun ptr member => registers.waitable ptr (waitable ptr member)
      · intro ptr member
        obtain ⟨object, live⟩ := (waitable ptr member).1
        rw [registers.handle, registers.satisfied ptr object live]
        exact all ptr member
      · rw [registers.handle]
        have same : ∀ ptr ∈ ptrs, (XboxKrnl.registerWaiter (.multiWait krnl.currentHandle) krnl
            ptrs).satisfiedAs krnl.currentHandle ptr = krnl.satisfiedAs krnl.currentHandle ptr := by
          intro ptr member
          obtain ⟨object, live⟩ := (waitable ptr member).1
          exact registers.satisfied ptr object live
        cases waitAll with
        | true =>
          obtain ⟨ptr, member, false⟩ := unsatisfied
          exact ⟨ptr, member, (same ptr member).trans false⟩
        | false => exact fun ptr member => (same ptr member).trans (unsatisfied ptr member)

/-- The grant of a WaitAll set. -/
theorem Steady.grantAll (steady : krnl.Steady) (ptrs : List Ptr)
    (waitable : ∀ ptr ∈ ptrs, krnl.Waitable ptr)
    (satisfied : ∀ ptr ∈ ptrs, krnl.satisfiedAs krnl.currentHandle ptr = true) :
    ∃ middle status, Path [.waiting] krnl middle ∧ middle.currentHandle = krnl.currentHandle ∧
      (Effect.acquire .all ptrs status).Allowed middle ∧
      (krnl.acquireAll ptrs 0 kStatusSuccess).1.noteSatisfied .all ptrs
        (krnl.acquireAll ptrs 0 kStatusSuccess).2 = (Effect.acquire .all ptrs status).apply middle := by
  have live : ∀ ptr ∈ ptrs, ∃ object, krnl.object? ptr = some object :=
    fun ptr member => (waitable ptr member).1
  obtain ⟨learned, _, learns, identified, same⟩ := steady.acquireAll_identified ptrs 0 kStatusSuccess live
  rw [same, learns.steady.ok.acquireAll_eq ptrs 0 kStatusSuccess (fun ptr member => learns.lives (live ptr member))
    identified]
  refine ⟨_, _, learns.path, learns.handle, ⟨fun ptr member => ?_, identified, rfl, fun single => absurd rfl single⟩,
    rfl⟩
  refine ⟨learns.waitable (waitable ptr member), ?_⟩
  rw [learns.satisfies (live ptr member)]
  exact satisfied ptr member

/-- The code of `wait_multiple` from the head of its loop: once the caller has looked at the objects, it takes
the whole set or the first object that is satisfied, or comes to where it blocks. -/
theorem Steady.waitMultiple_cases (steady : krnl.Steady) (ptrs : List Ptr) (waitAll immediate : Bool) (ticks : Nat)
    (live : ∀ ptr ∈ ptrs, ∃ object, krnl.object? ptr = some object) :
    ∃ checked, krnl.Learns checked ∧
      (checked = (krnl.allSatisfied ptrs).1 ∨ checked = (krnl.firstSatisfied ptrs 0).1) ∧
      ((waitAll = true ∧ ptrs.all (krnl.satisfiedAs krnl.currentHandle) = true ∧
          krnl.waitMultiple ptrs waitAll immediate ticks =
            ((checked.acquireAll ptrs 0 kStatusSuccess).1.noteSatisfied .all ptrs
              (checked.acquireAll ptrs 0 kStatusSuccess).2, some (checked.acquireAll ptrs 0 kStatusSuccess).2)) ∨
        (waitAll = false ∧ ∃ ptr index result, ptrs.find? (krnl.satisfiedAs krnl.currentHandle) = some ptr ∧
          index = ptrs.findIdx (krnl.satisfiedAs krnl.currentHandle) ∧
          result = (if (checked.dispatcherAcquire ptr).2 = kStatusAbandoned then kStatusAbandoned + index else index) ∧
          krnl.waitMultiple ptrs waitAll immediate ticks =
            ((checked.dispatcherAcquire ptr).1.noteSatisfied (.any index) [ptr] result, some result)) ∨
        ((if waitAll then ptrs.all (krnl.satisfiedAs krnl.currentHandle) = false
            else ptrs.find? (krnl.satisfiedAs krnl.currentHandle) = none) ∧
          krnl.waitMultiple ptrs waitAll immediate ticks = checked.blockMultiple ptrs waitAll immediate ticks)) := by
  unfold XboxKrnl.waitMultiple
  cases waitAll with
  | true =>
    obtain ⟨learns, result⟩ := steady.allSatisfied ptrs live
    refine ⟨_, learns, Or.inl rfl, ?_⟩
    simp only [↓reduceIte, result]
    cases all : ptrs.all (krnl.satisfiedAs krnl.currentHandle) with
    | true => exact Or.inl ⟨trivial, rfl, rfl⟩
    | false => exact Or.inr (Or.inr ⟨rfl, rfl⟩)
  | false =>
    obtain ⟨learns, scan⟩ := steady.firstSatisfied ptrs 0 live
    refine ⟨_, learns, Or.inr rfl, Or.inr ?_⟩
    simp only [Bool.false_eq_true, ↓reduceIte]
    cases hit : ptrs.find? (krnl.satisfiedAs krnl.currentHandle) with
    | none =>
      rw [hit] at scan
      rw [show krnl.firstSatisfied ptrs 0 = ((krnl.firstSatisfied ptrs 0).1, none) from Prod.ext rfl scan]
      exact Or.inr ⟨rfl, rfl⟩
    | some ptr =>
      rw [hit, Option.map_some, Nat.zero_add] at scan
      rw [show krnl.firstSatisfied ptrs 0 = ((krnl.firstSatisfied ptrs 0).1, some (_, ptr)) from Prod.ext rfl scan]
      exact Or.inl ⟨trivial, ptr, _, _, rfl, rfl, rfl, rfl⟩

/-- A wait of `wait_multiple` ends with at most one acquisition. -/
theorem Steady.waitMultiple (steady : krnl.Steady) (ptrs : List Ptr) (waitAll immediate : Bool)
    (ticks : Nat) (waitable : ∀ ptr ∈ ptrs, krnl.Waitable ptr) :
    krnl.Waited (.waitMultiple ptrs waitAll ticks) (krnl.waitMultiple ptrs waitAll immediate ticks).1 := by
  have live : ∀ ptr ∈ ptrs, ∃ object, krnl.object? ptr = some object :=
    fun ptr member => (waitable ptr member).1
  obtain ⟨checked, learns, _, outcome⟩ := steady.waitMultiple_cases ptrs waitAll immediate ticks live
  rcases outcome with ⟨rfl, all, same⟩ | ⟨rfl, ptr, index, result, hit, _, reported, same⟩ | ⟨missed, same⟩
  · rw [same]
    obtain ⟨middle, status, path, _, allowed, applied⟩ := learns.steady.grantAll ptrs
      (fun ptr member => learns.waitable (waitable ptr member)) (fun ptr member => by
        rw [learns.satisfies (live ptr member)]
        exact List.all_eq_true.mp all ptr member)
    exact ⟨middle, learns.path.trans path, Or.inr ⟨.acquire .all ptrs status, rfl, allowed, applied⟩⟩
  · rw [same]
    have member := List.mem_of_find?_eq_some hit
    obtain ⟨⟨middle, granted, path, _, allowed, applied⟩, status⟩ := learns.steady.acquireOne
      (learns.waitable (waitable ptr member)) (by rw [learns.satisfies (live ptr member)]; exact List.find?_some hit)
      (.any index) (by simp)
    refine ⟨middle, learns.path.trans path, Or.inr ⟨.acquire (.any index) [ptr] granted, ⟨ptr, member, rfl⟩,
      allowed, ?_⟩⟩
    simp only [grantStatus, List.head?_cons, Option.map_some, Option.some.injEq] at applied
    rw [reported, status]
    exact applied
  · rw [same]
    refine ⟨_, learns.path.trans (learns.steady.blockMultiple ptrs waitAll immediate ticks
      (fun ptr member => learns.waitable (waitable ptr member)) ?_), Or.inl ⟨rfl, trivial⟩⟩
    cases waitAll with
    | true =>
      obtain ⟨ptr, member, unsatisfied⟩ := List.all_eq_false.mp missed
      exact ⟨ptr, member, (learns.satisfies (live ptr member)).trans (Bool.eq_false_of_not_eq_true unsatisfied)⟩
    | false =>
      intro ptr member
      exact (learns.satisfies (live ptr member)).trans
        (Bool.eq_false_of_not_eq_true (List.find?_eq_none.mp missed ptr member))

/-- Removing the registrations of the caller. -/
theorem Steady.unregisterWaiter (steady : krnl.Steady) (ptrs : List Ptr) (inFiber : krnl.currentHandle ≠ 0)
    (waitable : ∀ ptr ∈ ptrs, krnl.Waitable ptr) :
    Path [.waiting] krnl (krnl.unregisterWaiter (.multiWait krnl.currentHandle) ptrs) ∧
      (krnl.unregisterWaiter (.multiWait krnl.currentHandle) ptrs).Steady ∧
      (krnl.unregisterWaiter (.multiWait krnl.currentHandle) ptrs).currentHandle = krnl.currentHandle ∧
      ∀ ptr, krnl.Waitable ptr → (krnl.unregisterWaiter (.multiWait krnl.currentHandle) ptrs).Waitable ptr := by
  induction ptrs generalizing krnl with
  | nil => exact ⟨.refl, steady, rfl, fun _ waitable => waitable⟩
  | cons ptr rest inductionHypothesis =>
    obtain ⟨object, here⟩ := (waitable ptr List.mem_cons_self).1
    have first : Path [.waiting] krnl (krnl.modify ptr (removeWaiter (.multiWait krnl.currentHandle))) :=
      Path.one (.adjust ptr .unregister) (by simp [Effect.label]) ⟨object, here, inFiber⟩
    have kept : ∀ other, krnl.Waitable other →
        (krnl.modify ptr (removeWaiter (.multiWait krnl.currentHandle))).Waitable other := by
      rintro other ⟨⟨found, before⟩, place⟩
      refine ⟨?_, place⟩
      rw [object?_modify, before]
      split
      · exact ⟨_, rfl⟩
      · exact ⟨_, rfl⟩
    have next : (krnl.modify ptr (removeWaiter (.multiWait krnl.currentHandle))).Steady :=
      ⟨first.ok steady.ok, steady.guest⟩
    obtain ⟨path, last, handle, all⟩ := inductionHypothesis next inFiber
      (fun other member => kept other (waitable other (List.mem_cons_of_mem ptr member)))
    exact ⟨first.trans path, last, handle, fun other place => all other (kept other place)⟩

/-- The code of `wait_multiple` after a wake-up. -/
theorem Steady.resumeMultiple (steady : krnl.Steady) (ptrs : List Ptr) (waitAll : Bool) (ticks : Nat)
    (inFiber : krnl.currentHandle ≠ 0) (waitable : ∀ ptr ∈ ptrs, krnl.Waitable ptr) :
    krnl.Waited (.waitMultiple ptrs waitAll ticks) (krnl.resumeMultiple ptrs waitAll ticks true).1 := by
  obtain ⟨path, next, _, kept⟩ := steady.unregisterWaiter ptrs inFiber waitable
  simp only [XboxKrnl.resumeMultiple, Bool.not_true, Bool.false_eq_true, ↓reduceIte]
  exact Waited.after path (next.waitMultiple ptrs waitAll false ticks
    (fun ptr member => kept ptr (waitable ptr member)))

end XboxKrnl

end SeriesxEmu
