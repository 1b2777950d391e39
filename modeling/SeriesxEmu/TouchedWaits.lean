import SeriesxEmu.Touches

/-!
# What waits touch

A wait that is not satisfied touches no object. One that is takes the objects it was granted,
which the state at its start determines: all of them when WaitAll finds every one satisfied,
and else the first satisfied one.
-/

namespace SeriesxEmu

open Scheduler GuestScheduler

namespace XboxKrnl

variable {krnl next : XboxKrnl} {extent : Extent}

/-- The objects that a wait which starts now takes for the running fiber at once. The host
owns nothing. -/
def granted (krnl : XboxKrnl) (ptrs : List Ptr) (waitAll : Bool) : List Ptr :=
  if !krnl.inFiber then []
  else if waitAll then
    if ptrs.all (krnl.satisfiedAs krnl.currentHandle) then ptrs else []
  else (ptrs.find? (krnl.satisfiedAs krnl.currentHandle)).toList

/-- The fiber may take the mutant: it is free, or the fiber owns it. -/
def MayTake (krnl : XboxKrnl) (ptr : Ptr) : Prop :=
  (krnl.object ptr).kind = .mutant → 0 < (krnl.object ptr).mutant.signalState ∨
    (krnl.object ptr).mutant.owner = krnl.tokenOf krnl.currentHandle

/-- What satisfies a wait may be taken. -/
theorem mayTake_of_satisfied {ptr : Ptr} (satisfied : krnl.satisfiedAs krnl.currentHandle ptr = true) :
    krnl.MayTake ptr := by
  intro kind
  simp only [satisfiedAs, kind, Bool.or_eq_true, decide_eq_true_eq, Bool.and_eq_true, bne_iff_ne,
    beq_iff_eq] at satisfied
  exact satisfied.imp id And.right

/-! ## Taking objects -/

/-- Taking an object touches that object only. -/
theorem Ok.acquire_touched (ok : krnl.Ok) {ptr : Ptr} {object : DispatcherObject}
    (live : krnl.object? ptr = some object)
    (identified : object.kind = .mutant → krnl.currentHandle ≠ 0 →
      ∃ self, krnl.fiberThread? krnl.currentHandle = some self)
    (granted : krnl.currentHandle ≠ 0 → ptr ∈ extent.grants) (mayTake : krnl.MayTake ptr) :
    Touched extent krnl (krnl.dispatcherAcquire ptr).1 := by
  have here := krnl.object_eq ptr object live
  cases kind : object.kind with
  | event =>
    simp only [dispatcherAcquire, here, kind]
    split
    · exact Touched.storeSignaled krnl ptr false
    · exact .refl
  | semaphore =>
    simp only [dispatcherAcquire, here, kind]
    exact Touched.one (.consume ptr) trivial
  | thread =>
    simp only [dispatcherAcquire, here, kind]
    exact .refl
  | mutant =>
    have self := ok.currentThreadToken_identified (identified kind)
    simp only [dispatcherAcquire, here, kind, self]
    split
    · exact .refl
    · rename_i owner
      have inFiber : krnl.currentHandle ≠ 0 := by
        intro host
        have nothing := congrArg Prod.snd self
        rw [XboxKrnl.currentThreadToken, if_pos host] at nothing
        exact owner nothing.symm
      have taken : Touched extent krnl ((Touch.take ptr (krnl.tokenOf krnl.currentHandle)).apply krnl) := by
        refine Touched.one _ ⟨granted inFiber, by rw [here, kind], mayTake (by rw [here, kind])⟩
      simp only [Touch.apply, here] at taken
      split
      · rename_i abandoned
        simp only [abandoned, ↓reduceIte] at taken
        exact taken
      · rename_i clean
        simp only [clean] at taken
        exact taken

/-- Taking one object leaves the others to be taken. -/
theorem mayTake_stored {ptr other : Ptr} {object : DispatcherObject} (live : krnl.object? ptr = some object)
    (inFiber : object.kind = .mutant → krnl.currentHandle ≠ 0) (ram : XbeRam) (mayTake : krnl.MayTake other) :
    (krnl.stored ptr krnl.takeOne ram).MayTake other := by
  have registry : (krnl.stored ptr krnl.takeOne ram).registry = krnl.registry :=
    krnl.registry_modify ptr krnl.takeOne (fun object _ => krnl.takeOne_shape object)
  have token : (krnl.stored ptr krnl.takeOne ram).tokenOf krnl.currentHandle = krnl.tokenOf krnl.currentHandle :=
    tokenOf_congr registry _
  intro kind
  have read := krnl.object?_stored ptr other krnl.takeOne ram
  by_cases same : other = ptr
  · subst same
    rw [if_pos rfl, live] at read
    rw [object_eq _ _ _ read] at kind ⊢
    rw [DispatcherObject.kind_of_shape (krnl.takeOne_shape object)] at kind
    refine Or.inr (Eq.trans ?_ token.symm)
    simp [takeOne, kind, inFiber kind, takeMutant]
  · rw [if_neg same] at read
    simp only [XboxKrnl.object, read] at kind ⊢
    refine (mayTake kind).imp id (fun owner => ?_)
    exact owner.trans token.symm

/-- Taking several objects takes the first and then the rest. -/
theorem acquireAll_cons (krnl : XboxKrnl) (ptr : Ptr) (rest : List Ptr) :
    krnl.taken (ptr :: rest) = (krnl.dispatcherAcquire ptr).1.taken rest :=
  rfl

/-- The acquisition loop in the host takes no mutant, and in a fiber every object of the set. -/
theorem Ok.taken_touched (ok : krnl.Ok) (ptrs : List Ptr)
    (live : ∀ ptr ∈ ptrs, ∃ object, krnl.object? ptr = some object)
    (identified : ∀ ptr ∈ ptrs, (krnl.object ptr).kind = .mutant → krnl.currentHandle ≠ 0 →
      ∃ self, krnl.fiberThread? krnl.currentHandle = some self)
    (granted : krnl.currentHandle ≠ 0 → ∀ ptr ∈ ptrs, ptr ∈ extent.grants) (mayTake : ∀ ptr ∈ ptrs, krnl.MayTake ptr) :
    Touched extent krnl (krnl.taken ptrs) := by
  induction ptrs generalizing krnl with
  | nil => exact .refl
  | cons ptr rest inductionHypothesis =>
    obtain ⟨object, here⟩ := live ptr List.mem_cons_self
    have needs : object.kind = .mutant → krnl.currentHandle ≠ 0 →
        ∃ self, krnl.fiberThread? krnl.currentHandle = some self := by
      intro kind
      refine identified ptr List.mem_cons_self ?_
      rw [krnl.object_eq _ _ here]
      exact kind
    have first := ok.acquire_touched here needs (fun inFiber => granted inFiber ptr List.mem_cons_self)
      (mayTake ptr List.mem_cons_self)
    obtain ⟨next, took⟩ := ok.took live identified
    obtain ⟨ram, same⟩ := took.stored
    obtain rfl : next = krnl.stored ptr krnl.takeOne ram := same
    have acquired : (krnl.dispatcherAcquire ptr).1 = krnl.stored ptr krnl.takeOne ram := congrArg Prod.fst took.acquired
    rw [acquireAll_cons]
    refine first.trans ?_
    rw [acquired]
    refine inductionHypothesis took.ok took.live (fun other member kind => ?_)
      (fun inFiber other member => granted inFiber other (List.mem_cons_of_mem ptr member)) (fun other member => ?_)
    · exact identified other (List.mem_cons_of_mem ptr member) ((took.kind other member).symm.trans kind)
    · by_cases host : krnl.currentHandle = 0
      · -- In the host nothing is taken that could be owned.
        intro kind
        obtain ⟨found, before⟩ := live other (List.mem_cons_of_mem ptr member)
        have untouched : (krnl.takeOne found).mutant = found.mutant := by
          unfold takeOne
          split <;> (try split) <;> rfl
        have read := krnl.object?_stored ptr other krnl.takeOne ram
        rw [before] at read
        have kindBefore : found.kind = .mutant := by
          rw [← krnl.object_eq _ _ before]
          exact (took.kind other member).symm.trans kind
        have earlier := mayTake other (List.mem_cons_of_mem ptr member)
        have token : (krnl.stored ptr krnl.takeOne ram).tokenOf krnl.currentHandle =
            krnl.tokenOf krnl.currentHandle := tokenOf_congr took.registry _
        have sameMutant : ((krnl.stored ptr krnl.takeOne ram).object other).mutant = found.mutant := by
          split at read
          · rw [object_eq _ _ _ read, untouched]
          · rw [object_eq _ _ _ read]
        rw [MayTake, krnl.object_eq _ _ before] at earlier
        rw [sameMutant]
        exact (earlier kindBefore).imp id (fun owner => owner.trans token.symm)
      · exact mayTake_stored here (fun _ => host) ram (mayTake other (List.mem_cons_of_mem ptr member))

/-- What satisfied a wait may be taken after an identity was learned. -/
theorem Learns.mayTake (learns : krnl.Learns next) {ptr : Ptr} {object : DispatcherObject}
    (live : krnl.object? ptr = some object) (satisfied : krnl.satisfiedAs krnl.currentHandle ptr = true) :
    next.MayTake ptr := by
  refine mayTake_of_satisfied ?_
  rw [learns.satisfies ⟨object, live⟩]
  exact satisfied

/-- Taking a satisfied set, with the identity of the caller made on the way. -/
theorem Steady.acquireAll_touched (steady : krnl.Steady) (ptrs : List Ptr) (index worst : Nat)
    (live : ∀ ptr ∈ ptrs, ∃ object, krnl.object? ptr = some object)
    (satisfied : ∀ ptr ∈ ptrs, krnl.satisfiedAs krnl.currentHandle ptr = true)
    (granted : krnl.currentHandle ≠ 0 → ∀ ptr ∈ ptrs, ptr ∈ extent.grants) :
    Touched extent krnl (krnl.acquireAll ptrs index worst).1 := by
  obtain ⟨learned, origin, learns, identified, same⟩ := steady.acquireAll_identified ptrs index worst live
  have touched : Touched extent krnl learned := by
    rcases origin with rfl | rfl
    · exact .refl
    · exact Touched.token krnl
  rw [same, learns.steady.ok.acquireAll_eq ptrs index worst (fun ptr member => learns.lives (live ptr member))
    identified]
  refine touched.trans (learns.steady.ok.taken_touched ptrs (fun ptr member => learns.lives (live ptr member))
    identified (fun inFiber => granted (learns.handle ▸ inFiber)) (fun ptr member => ?_))
  obtain ⟨object, found⟩ := live ptr member
  exact learns.mayTake found (satisfied ptr member)

/-- Taking one satisfied object. -/
theorem Steady.acquire_touched (steady : krnl.Steady) {ptr : Ptr} {object : DispatcherObject}
    (live : krnl.object? ptr = some object) (satisfied : krnl.satisfiedAs krnl.currentHandle ptr = true)
    (granted : krnl.currentHandle ≠ 0 → ptr ∈ extent.grants) : Touched extent krnl (krnl.dispatcherAcquire ptr).1 := by
  have all := steady.acquireAll_touched [ptr] 0 kStatusSuccess (by simpa using ⟨object, live⟩)
    (by simpa using satisfied) (by simpa using granted)
  exact all

/-! ## The waits -/

/-- A wait on one object touches what it is granted. -/
theorem Steady.waitDispatch_touched (steady : krnl.Steady) {ptr : Ptr} {object : DispatcherObject}
    (live : krnl.object? ptr = some object) (immediate : Bool) (ticks : Nat)
    (grants : ∀ other ∈ krnl.granted [ptr] false, other ∈ extent.grants) :
    Touched extent krnl (krnl.waitDispatch ptr immediate ticks).1 := by
  obtain ⟨learns, result⟩ := steady.dispatcherSatisfied live
  unfold XboxKrnl.waitDispatch
  simp only
  split
  · rename_i satisfied
    rw [result] at satisfied
    have member : krnl.currentHandle ≠ 0 → ptr ∈ extent.grants := fun inFiber =>
      grants ptr (by simp [granted, satisfied, (inFiber_iff krnl).mpr inFiber])
    refine (Touched.satisfied krnl ptr).trans (Relation.ReflTransGen.trans ?_ (Touched.note _ _))
    refine learns.steady.acquire_touched (learns.live ptr object live) ?_
      (fun inFiber => member (learns.handle ▸ inFiber))
    rw [learns.satisfies ⟨object, live⟩]
    exact satisfied
  · split
    · exact Touched.satisfied krnl ptr
    · split
      · exact Touched.satisfied krnl ptr
      · exact (Touched.satisfied krnl ptr).trans (Touched.block _ _ _ _)

/-- A wait on several touches what they grant. -/
theorem Steady.waitMultiple_touched (steady : krnl.Steady) (ptrs : List Ptr) (waitAll immediate : Bool)
    (ticks : Nat) (live : ∀ ptr ∈ ptrs, ∃ object, krnl.object? ptr = some object)
    (grants : ∀ ptr ∈ krnl.granted ptrs waitAll, ptr ∈ extent.grants) :
    Touched extent krnl (krnl.waitMultiple ptrs waitAll immediate ticks).1 := by
  obtain ⟨checked, learns, origin, outcome⟩ := steady.waitMultiple_cases ptrs waitAll immediate ticks live
  have scanned : Touched extent krnl checked := by
    rcases origin with rfl | rfl
    · exact Touched.allSatisfied krnl ptrs
    · exact Touched.firstSatisfied krnl ptrs 0
  rcases outcome with ⟨rfl, all, same⟩ | ⟨rfl, ptr, index, result, hit, _, _, same⟩ | ⟨_, same⟩
  · rw [same]
    refine scanned.trans (Relation.ReflTransGen.trans ?_ (Touched.note _ _))
    refine learns.steady.acquireAll_touched ptrs 0 kStatusSuccess (fun ptr member => learns.lives (live ptr member))
      (fun ptr member => ?_) (fun inFiber ptr member => grants ptr (by
        simpa [granted, all, (inFiber_iff krnl).mpr (learns.handle ▸ inFiber)] using member))
    rw [learns.satisfies (live ptr member)]
    exact List.all_eq_true.mp all ptr member
  · rw [same]
    have member := List.mem_of_find?_eq_some hit
    obtain ⟨object, here⟩ := learns.lives (live ptr member)
    refine scanned.trans (Relation.ReflTransGen.trans ?_ (Touched.note _ _))
    refine learns.steady.acquire_touched here ?_ (fun inFiber => grants ptr
      (by simp [granted, hit, (inFiber_iff krnl).mpr (learns.handle ▸ inFiber)]))
    rw [learns.satisfies (live ptr member)]
    exact List.find?_some hit
  · rw [same]
    exact scanned.trans (Touched.blockMultiple _ _ _ _ _)

end XboxKrnl

end SeriesxEmu
