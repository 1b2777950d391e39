import SeriesxEmu.TouchedWaits

/-!
# What every kernel call touches

The extent of a call is read off its arguments and the state it starts in: the objects its
wait is granted, the mutants it releases, the object it registers, the words it stores. Every
call stays within its extent.
-/

namespace SeriesxEmu

open Scheduler GuestScheduler

namespace XboxKrnl

variable {krnl next : XboxKrnl} {extent : Extent}

/-! ## The extent of a call -/

/-- The call is accepted: it returns at once, and reports no error. -/
def accepts (krnl : XboxKrnl) (call : Call) : Bool := ((krnl.exec call).2.map Reply.ok).getD false

/-- What a single wait is granted when its object and its timeout are valid. -/
def singleGrants (krnl : XboxKrnl) (found : Option Ptr) (timeout : Nat) : List Ptr :=
  match found, krnl.readTimeout timeout with
  | some ptr, some _ => krnl.granted [ptr] false
  | _, _ => []

/-- What a multiple wait with valid arguments is granted. -/
def multipleGrants (krnl : XboxKrnl) (count handles waitType timeout : Nat) : List Ptr :=
  match krnl.waitSet count handles waitType timeout with
  | some ptrs => krnl.granted ptrs (waitType == 0)
  | none => []

/-- The objects that a wait of the call may take. -/
def callGrants (krnl : XboxKrnl) : Call → List Ptr
  | .keWaitForSingleObject object _ _ _ timeout => krnl.singleGrants (krnl.findObjectByVa object) timeout
  | .ntWaitForSingleObject handle _ timeout => krnl.singleGrants (krnl.findObjectByHandle handle) timeout
  | .ntWaitForSingleObjectEx handle _ _ timeout => krnl.singleGrants (krnl.findObjectByHandle handle) timeout
  | .ntWaitForMultipleObjectsEx count handles waitType _ _ timeout =>
    krnl.multipleGrants count handles waitType timeout
  | _ => []

/-- The mutants that the call may release. -/
def callFrees (krnl : XboxKrnl) : Call → List Ptr
  | .ntReleaseMutant handle _ => (krnl.findObjectByHandle handle).toList
  | .keReleaseMutant mutant _ _ _ => (krnl.findObjectByVa mutant).toList
  | _ => []

/-- The object a call registers at an address. An event that is there already is set anew. -/
def callRegisters (krnl : XboxKrnl) (call : Call) : List (Kind × Nat) :=
  if krnl.accepts call then
    match call with
    | .keInitializeEvent event _ _ => if (krnl.findObjectByVa event).isNone then [(.event, event)] else []
    | .keInitializeMutant mutant _ => [(.mutant, mutant)]
    | .keInitializeSemaphore semaphore _ _ => [(.semaphore, semaphore)]
    | _ => []
  else []

/-- The calls that put an object into the handle table. -/
def createsHandle : Call → Bool
  | .ntCreateEvent _ _ _ _ => true
  | .ntCreateMutant _ _ _ => true
  | .ntCreateSemaphore _ _ _ _ => true
  | .psCreateSystemThreadEx _ => true
  | _ => false

/-- The call closes a handle. -/
def closesHandle : Call → Bool
  | .ntClose _ => true
  | _ => false

/-- An optional result goes through a pointer that is not null. -/
def outStores (out : Nat) : List (Nat × Nat) := if out = 0 then [] else [(out, 4)]

/-- The words of a critical section that an entry to it stores. -/
def enterStores (krnl : XboxKrnl) (va : Nat) : List (Nat × Nat) :=
  match krnl.csFields va with
  | none => []
  | some (_, _, owner) =>
    if owner = krnl.currentHandle ∧ krnl.currentHandle ≠ 0 then [(at32 va kCsRecursion, 4)]
    else if owner = 0 then [(at32 va kCsOwningThread, 4), (at32 va kCsRecursion, 4)]
    else if !krnl.inFiber then []
    else [(at32 va kCsLockCount, 4)]

/-- Those that leaving it stores. -/
def leaveStores (krnl : XboxKrnl) (va : Nat) : List (Nat × Nat) :=
  match krnl.csFields va with
  | none => []
  | some (lock, recursion, owner) =>
    if owner ≠ krnl.currentHandle then []
    else if 1 < recursion then [(at32 va kCsRecursion, 4)]
    else if 0 ≤ lock then [(at32 va kCsOwningThread, 4), (at32 va kCsRecursion, 4), (at32 va kCsLockCount, 4)]
    else [(at32 va kCsOwningThread, 4), (at32 va kCsRecursion, 4)]

/-- Those that an attempt to enter it stores. -/
def tryStores (krnl : XboxKrnl) (va : Nat) : List (Nat × Nat) :=
  match krnl.ram.read32 (at32 va kCsRecursion), krnl.ram.read32 (at32 va kCsOwningThread) with
  | some _, some owner =>
    if owner = krnl.currentHandle ∧ krnl.currentHandle ≠ 0 then [(at32 va kCsRecursion, 4)]
    else if owner ≠ 0 then []
    else [(at32 va kCsOwningThread, 4), (at32 va kCsRecursion, 4)]
  | _, _ => []

/-- The event header and the three fields of a critical section. -/
def initStores (va : Nat) : List (Nat × Nat) :=
  [(va, 4), (at32 va 4, 4), (at32 va 8, 4), (at32 va 12, 4), (at32 va kCsLockCount, 4),
    (at32 va kCsRecursion, 4), (at32 va kCsOwningThread, 4)]

/-- The results that an accepted call stores. -/
def resultStores : Call → List (Nat × Nat)
  | .ntCreateEvent out _ _ _ => [(out, 4)]
  | .ntSetEvent _ out => outStores out
  | .ntPulseEvent _ out => outStores out
  | .ntCreateMutant out _ _ => [(out, 4)]
  | .ntReleaseMutant _ out => outStores out
  | .ntQueryMutant _ information => [(information, 4), (at32 information 4, 1), (at32 information 5, 1)]
  | .ntCreateSemaphore out _ _ _ => [(out, 4)]
  | .ntReleaseSemaphore _ _ out => outStores out
  | .ntQuerySemaphore _ information => [(information, 4), (at32 information 4, 4)]
  | .psCreateSystemThreadEx request => (request.threadHandle, 4) :: outStores request.threadId
  | .ntResumeThread _ out => outStores out
  | .ntSuspendThread _ out => outStores out
  | .rtlInitializeCriticalSection va => initStores va
  | _ => []

/-- The ranges a call stores to, its mirrors apart. -/
def callStores (krnl : XboxKrnl) (call : Call) : List (Nat × Nat) :=
  match call with
  | .rtlEnterCriticalSection va => krnl.enterStores va
  | .rtlLeaveCriticalSection va => krnl.leaveStores va
  | .rtlTryEnterCriticalSection va => krnl.tryStores va
  | _ => if krnl.accepts call then resultStores call else []

/-- The fibers that the call ends, by their tokens. -/
def callEnds (krnl : XboxKrnl) : Call → List Nat
  | .psTerminateSystemThread _ => [krnl.tokenOf krnl.currentHandle]
  | _ => []

/-- What the call may touch. -/
def callExtent (krnl : XboxKrnl) (call : Call) : Extent :=
  { grants := krnl.callGrants call
    frees := krnl.callFrees call
    ends := krnl.callEnds call
    registers := krnl.callRegisters call
    creates := createsHandle call
    closes := closesHandle call
    stores := krnl.callStores call }

/-! ## Pieces of calls -/

/-- An out-parameter that is given is among the stores. -/
theorem outStores_mem {out : Nat} (given : out ≠ 0) : (out, 4) ∈ outStores out := by
  simp [outStores, given]

/-- Asking for the own token stores nothing for the guest. -/
theorem currentThreadToken_ram (krnl : XboxKrnl) : krnl.currentThreadToken.1.ram = krnl.ram := by
  unfold currentThreadToken ensureThreadObject
  split
  · rfl
  · cases krnl.fiberThread? krnl.currentHandle <;> rfl

/-- A creation stores its handle only. -/
theorem createObject_touched (krnl : XboxKrnl) (out : Nat) (object : DispatcherObject) (pooled : object.guestVa = 0)
    (creates : extent.creates = true) (stores : (out, 4) ∈ extent.stores) :
    Touched extent krnl (krnl.createObject out object).1 := by
  have created : Touched extent krnl ((Touch.create object).apply krnl) := Touched.one _ ⟨creates, pooled⟩
  unfold createObject
  exact created.trans (Touched.write32 _ out _ stores)

/-- A call on the event at an address touches what its operation does. -/
theorem keEvent_touched (krnl : XboxKrnl) (va : Nat) (operation : XboxKrnl → Ptr → XboxKrnl × Nat)
    (touched : ∀ ptr, Touched extent krnl (operation krnl ptr).1) : Touched extent krnl (krnl.keEvent va operation).1 := by
  unfold keEvent
  split
  · exact .refl
  · exact touched _

/-- A single wait takes at most the object that it names. -/
theorem Steady.waitForSingle_touched (steady : krnl.Steady) {found : Option Ptr} (timeout : Nat)
    (live : ∀ ptr, found = some ptr → ∃ object, krnl.object? ptr = some object)
    (grants : ∀ ptr ∈ krnl.singleGrants found timeout, ptr ∈ extent.grants) :
    Touched extent krnl (krnl.waitForSingle found timeout).1 := by
  unfold XboxKrnl.waitForSingle
  split
  · exact .refl
  · rename_i ptr
    split
    · exact .refl
    · rename_i immediate ticks timed
      obtain ⟨object, here⟩ := live ptr rfl
      refine steady.waitDispatch_touched here immediate ticks (fun other member => grants other ?_)
      simpa [singleGrants, timed] using member

/-- A multiple wait takes at most those of its set. -/
theorem Steady.waitForMultiple_touched (steady : krnl.Steady) (count handles waitType timeout : Nat)
    (grants : ∀ ptr ∈ krnl.multipleGrants count handles waitType timeout, ptr ∈ extent.grants) :
    Touched extent krnl (krnl.ntWaitForMultipleObjectsEx count handles waitType timeout).1 := by
  unfold XboxKrnl.ntWaitForMultipleObjectsEx
  split
  · exact .refl
  · rename_i counted
    split
    · exact .refl
    · rename_i readable
      split
      · exact .refl
      · rename_i typed
        split
        · exact .refl
        · rename_i immediate ticks timed
          split
          · exact .refl
          · rename_i ptrs looked
            have set : krnl.waitSet count handles waitType timeout = some ptrs := by
              rw [not_or] at counted
              simp only [Bool.not_eq_true', Bool.not_eq_false] at readable
              simp [waitSet, counted.1, counted.2, readable, typed, timed, looked]
            refine steady.waitMultiple_touched ptrs (waitType == 0) immediate ticks
              (fun ptr member => (steady.ok.readHandles_waitable looked ptr member).1) (fun ptr member => grants ptr ?_)
            rw [multipleGrants, set]
            exact member

/-- Entering a section stores its fields at most. -/
theorem csEnter_touched (krnl : XboxKrnl) (va : Nat) (stores : ∀ range ∈ krnl.enterStores va, range ∈ extent.stores) :
    Touched extent krnl (krnl.csEnter va).1 := by
  unfold csEnter
  unfold enterStores at stores
  split
  · exact .refl
  · rename_i lock recursion owner fields
    rw [fields] at stores
    simp only at stores ⊢
    split
    · rename_i own
      exact Touched.write32 _ _ _ (stores _ (by simp [own]))
    · rename_i other
      split
      · rename_i free
        rw [if_neg other, if_pos free] at stores
        exact (Touched.write32 _ _ _ (stores _ (by simp))).trans (Touched.write32 _ _ _ (stores _ (by simp)))
      · rename_i owned
        split
        · exact .refl
        · rename_i inFiber
          rw [if_neg other, if_neg owned, if_neg inFiber] at stores
          exact (Touched.write32 _ _ _ (stores _ (by simp))).trans (Touched.block _ _ _ _)

/-- Leaving a section stores its fields at most. -/
theorem csLeave_touched (krnl : XboxKrnl) (va : Nat) (stores : ∀ range ∈ krnl.leaveStores va, range ∈ extent.stores) :
    Touched extent krnl (krnl.csLeave va).1 := by
  unfold csLeave
  unfold leaveStores at stores
  split
  · exact .refl
  · rename_i lock recursion owner fields
    rw [fields] at stores
    simp only at stores ⊢
    split
    · exact .refl
    · rename_i own
      split
      · rename_i nested
        simp only [own, ↓reduceIte, nested] at stores
        exact Touched.write32 _ _ _ (stores _ (by simp))
      · rename_i last
        simp only [own, ↓reduceIte, last] at stores
        split
        · rename_i waiting
          simp only [waiting, ↓reduceIte] at stores
          exact (((Touched.write32 _ _ _ (stores _ (by simp))).trans (Touched.write32 _ _ _ (stores _ (by simp)))).trans
            (Touched.write32 _ _ _ (stores _ (by simp)))).trans (Touched.signal _ _ _)
        · rename_i quiet
          simp only [quiet, ↓reduceIte] at stores
          exact (Touched.write32 _ _ _ (stores _ (by simp))).trans (Touched.write32 _ _ _ (stores _ (by simp)))

/-- Trying to enter a section stores its fields at most. -/
theorem csTryEnter_touched (krnl : XboxKrnl) (va : Nat) (stores : ∀ range ∈ krnl.tryStores va, range ∈ extent.stores) :
    Touched extent krnl (krnl.csTryEnter va).1 := by
  unfold csTryEnter
  unfold tryStores at stores
  split
  · rename_i recursion owner counted owned
    simp only [counted, owned] at stores ⊢
    split
    · rename_i own
      exact Touched.write32 _ _ _ (stores _ (by simp [own]))
    · rename_i other
      split
      · exact .refl
      · rename_i free
        simp only [other, ↓reduceIte, free] at stores
        exact (Touched.write32 _ _ _ (stores _ (by simp))).trans (Touched.write32 _ _ _ (stores _ (by simp)))
  · exact .refl

/-- An initialisation stores the fields, where they may be written. -/
theorem csInit_touched (krnl : XboxKrnl) (va : Nat) (stores : krnl.ram.writable va kCsSize = true →
    ∀ range ∈ initStores va, range ∈ extent.stores) : Touched extent krnl (krnl.csInit va).1 := by
  unfold csInit
  split
  · exact .refl
  · rename_i usable
    have inside := stores (by simpa using usable)
    have header : Touched extent krnl { krnl with
        ram := writeDispatcherHeader krnl.ram { kind := .event, guestVa := va } } := by
      unfold writeDispatcherHeader
      split
      · exact .refl
      · exact (((Touched.write32 krnl va _ (inside _ (by simp [initStores]))).trans
          (Touched.write32 _ (at32 va 4) _ (inside _ (by simp [initStores])))).trans
          (Touched.write32 _ (at32 va 8) _ (inside _ (by simp [initStores])))).trans
          (Touched.write32 _ (at32 va 12) _ (inside _ (by simp [initStores])))
    exact ((header.trans (Touched.write32 _ _ _ (inside _ (by simp [initStores])))).trans
      (Touched.write32 _ _ _ (inside _ (by simp [initStores])))).trans
      (Touched.write32 _ _ _ (inside _ (by simp [initStores])))

/-! ## The calls -/

/-- What an accepted call stores. -/
theorem callStores_accepted (krnl : XboxKrnl) (call : Call) (range : Nat × Nat) (result : range ∈ resultStores call) :
    ∀ reply, (krnl.exec call).2 = some reply → reply.ok = true → range ∈ krnl.callStores call := by
  intro reply replied ok
  have accepted : krnl.accepts call = true := by simp [accepts, replied, ok]
  unfold callStores
  split
  · cases result
  · cases result
  · cases result
  · rw [if_pos accepted]
    exact result

/-- An event is created. -/
theorem ntCreateEvent_touched (krnl : XboxKrnl) (out attributes type state : Nat) :
    Touched (krnl.callExtent (.ntCreateEvent out attributes type state)) krnl (krnl.ntCreateEvent out type state).1 := by
  have stores := krnl.callStores_accepted (.ntCreateEvent out attributes type state) (out, 4) (by simp [resultStores])
  simp only [XboxKrnl.exec, returning] at stores
  unfold ntCreateEvent at stores ⊢
  split
  · exact .refl
  · split
    · exact .refl
    · rename_i small usable
      simp only [small, usable] at stores
      exact createObject_touched krnl out _ rfl rfl (stores _ rfl rfl)

/-- A mutant is created. -/
theorem ntCreateMutant_touched (krnl : XboxKrnl) (out attributes initialOwner : Nat) :
    Touched (krnl.callExtent (.ntCreateMutant out attributes initialOwner)) krnl
      (krnl.ntCreateMutant out initialOwner).1 := by
  have stores := krnl.callStores_accepted (.ntCreateMutant out attributes initialOwner) (out, 4)
    (by simp [resultStores])
  simp only [XboxKrnl.exec, returning] at stores
  unfold ntCreateMutant at stores ⊢
  split
  · exact .refl
  · rename_i usable
    simp only [usable] at stores
    split
    · rename_i owned
      simp only [owned] at stores
      split
      · exact .refl
      · rename_i inFiber
        simp only [inFiber] at stores
        exact ((Touched.token krnl).trans (createObject_touched _ out _ rfl rfl (stores _ rfl rfl))).trans
          (Touched.note _ _)
    · rename_i free
      simp only [free] at stores
      exact createObject_touched krnl out _ rfl rfl (stores _ rfl rfl)

/-- A semaphore is created. -/
theorem ntCreateSemaphore_touched (krnl : XboxKrnl) (out attributes initial maximum : Nat) :
    Touched (krnl.callExtent (.ntCreateSemaphore out attributes initial maximum)) krnl
      (krnl.ntCreateSemaphore out initial maximum).1 := by
  have stores := krnl.callStores_accepted (.ntCreateSemaphore out attributes initial maximum) (out, 4)
    (by simp [resultStores])
  simp only [XboxKrnl.exec, returning] at stores
  unfold ntCreateSemaphore at stores ⊢
  split
  · exact .refl
  · split
    · exact .refl
    · rename_i usable valid
      simp only [usable, valid] at stores
      exact (createObject_touched krnl out _ rfl rfl (stores _ rfl rfl)).trans (Touched.note _ _)

/-- The end of a call that stores one result, if it is asked to. -/
theorem result_touched (krnl next : XboxKrnl) (call : Call) (out value : Nat)
    (result : resultStores call = outStores out) (reply : Reply) (replied : (krnl.exec call).2 = some reply)
    (ok : reply.ok = true) (touched : Touched (krnl.callExtent call) krnl next) :
    Touched (krnl.callExtent call) krnl (next.writeOut out value) := by
  refine touched.trans (Touched.writeOut _ _ _ (fun given _ => ?_))
  exact krnl.callStores_accepted call (out, 4) (by rw [result]; exact outStores_mem given) reply replied ok

/-- A result that an accepted call stores after what it does once. -/
theorem result_once (krnl next : XboxKrnl) (call : Call) (out value : Nat)
    (result : resultStores call = outStores out) (reply : Reply) (replied : (krnl.exec call).2 = some reply)
    (ok : reply.ok = true) (once : TouchedOnce (krnl.callExtent call) krnl next) :
    TouchedOnce (krnl.callExtent call) krnl (next.writeOut out value) := by
  refine once.after (Touched.writeOut _ _ _ (fun given _ => ?_))
  exact krnl.callStores_accepted call (out, 4) (by rw [result]; exact outStores_mem given) reply replied ok

/-- The event is set, and its previous state stored. -/
theorem ntSetEvent_touched (krnl : XboxKrnl) (handle out : Nat) :
    Touched (krnl.callExtent (.ntSetEvent handle out)) krnl (krnl.ntSetEvent handle out).1 := by
  have stores := fun next value => krnl.result_touched next (.ntSetEvent handle out) out value rfl
  simp only [XboxKrnl.exec, returning] at stores
  unfold ntSetEvent at stores ⊢
  split
  · exact .refl
  · rename_i ptr found
    simp only [found] at stores
    exact stores _ _ _ rfl rfl (Touched.setEvent krnl ptr)

/-- The event is pulsed, and its previous state stored. -/
theorem ntPulseEvent_touched (krnl : XboxKrnl) (handle out : Nat) :
    Touched (krnl.callExtent (.ntPulseEvent handle out)) krnl (krnl.ntPulseEvent handle out).1 := by
  have stores := fun next value => krnl.result_touched next (.ntPulseEvent handle out) out value rfl
  simp only [XboxKrnl.exec, returning] at stores
  unfold ntPulseEvent at stores ⊢
  split
  · exact .refl
  · rename_i ptr found
    simp only [found] at stores
    exact stores _ _ _ rfl rfl (Touched.pulseEvent krnl ptr)

/-- What is found with its kind is found, and of that kind. -/
theorem ofKind_found {kind : Kind} {found : Option Ptr} {ptr : Ptr} (isKind : krnl.ofKind kind found = some ptr) :
    found = some ptr ∧ (krnl.object ptr).kind = kind := by
  obtain ⟨same, kinds⟩ := Option.filter_eq_some_iff.mp isKind
  exact ⟨same, by simpa using kinds⟩

/-- The mutant is released once, and its previous count stored. -/
theorem ntReleaseMutant_once (krnl : XboxKrnl) (handle out : Nat) :
    TouchedOnce (krnl.callExtent (.ntReleaseMutant handle out)) krnl (krnl.ntReleaseMutant handle out).1 := by
  have stores := fun next value => krnl.result_once next (.ntReleaseMutant handle out) out value rfl
  simp only [XboxKrnl.exec, returning] at stores
  unfold ntReleaseMutant at stores ⊢
  split
  · exact .never .refl
  · rename_i ptr found
    simp only [found] at stores ⊢
    split
    · exact .never (Touched.token krnl)
    · rename_i own
      simp only [own] at stores
      refine stores _ _ _ rfl rfl (.before (Touched.token krnl) (.releaseMutant _ ptr ?_))
      simp [callExtent, callFrees, (ofKind_found found).1]

/-- The mutant at the address is released once. -/
theorem keReleaseMutant_once (krnl : XboxKrnl) (va increment abandoned wait : Nat) :
    TouchedOnce (krnl.callExtent (.keReleaseMutant va increment abandoned wait)) krnl (krnl.keReleaseMutant va).1 := by
  unfold keReleaseMutant
  split
  · exact .never .refl
  · rename_i ptr found
    refine .releaseMutant krnl ptr ?_
    simp [callExtent, callFrees, (ofKind_found found).1]

/-- The answer of the query is stored. -/
theorem ntQueryMutant_touched (krnl : XboxKrnl) (handle information : Nat) :
    Touched (krnl.callExtent (.ntQueryMutant handle information)) krnl (krnl.ntQueryMutant handle information).1 := by
  have stores := fun range result => krnl.callStores_accepted (.ntQueryMutant handle information) range result
  simp only [XboxKrnl.exec, returning] at stores
  unfold ntQueryMutant at stores ⊢
  split
  · exact .refl
  · rename_i ptr found
    simp only [found] at stores
    split
    · exact .refl
    · rename_i usable
      simp only [usable] at stores
      have inside : ∀ range, range ∈ resultStores (.ntQueryMutant handle information) →
          range ∈ krnl.callStores (.ntQueryMutant handle information) :=
        fun range result => stores range result _ rfl rfl
      have told : ∀ (state : XboxKrnl) (counted : Nat) (first second : UInt8),
          Touched (krnl.callExtent (.ntQueryMutant handle information)) state { state with
            ram := (((state.ram.write32 information counted).writeBytes (at32 information 4) [first]).1.writeBytes
              (at32 information 5) [second]).1 } := by
        intro state counted first second
        exact ((Touched.write32 state information counted (inside _ (by simp [resultStores]))).trans
          (Touched.one (.store (at32 information 4) [first]) (inside _ (by simp [resultStores])))).trans
          (Touched.one (.store (at32 information 5) [second]) (inside _ (by simp [resultStores])))
      by_cases owned : (krnl.object ptr).mutant.owner = 0
      · simp only [owned, ne_eq, not_true_eq_false, ↓reduceIte]
        exact told krnl _ _ _
      · simp only [owned, ne_eq, not_false_eq_true, ↓reduceIte]
        exact (Touched.token krnl).trans (told krnl.currentThreadToken.1 _ _ _)

/-- The units of a semaphore are a minor part of it. -/
theorem adjustSemaphore_touched {found : Option Ptr} {word : Nat} {previous : Int}
    (adjusted : krnl.adjustSemaphore found word = some (next, previous)) : Touched extent krnl next := by
  obtain ⟨ptr, _, _, _, rfl⟩ := adjustSemaphore_cases adjusted
  exact Touched.releaseSemaphore krnl ptr (int32 word)

/-- Units are released, and the previous count stored. -/
theorem ntReleaseSemaphore_touched (krnl : XboxKrnl) (handle releaseCount out : Nat) :
    Touched (krnl.callExtent (.ntReleaseSemaphore handle releaseCount out)) krnl
      (krnl.ntReleaseSemaphore handle releaseCount out).1 := by
  have stores := fun next value => krnl.result_touched next (.ntReleaseSemaphore handle releaseCount out) out value rfl
  simp only [XboxKrnl.exec, returning] at stores
  unfold ntReleaseSemaphore at stores ⊢
  split
  · exact .refl
  · rename_i released previous adjusted
    simp only [adjusted] at stores
    refine stores _ _ _ rfl rfl ?_
    exact adjustSemaphore_touched adjusted

/-- The answer of the query is stored. -/
theorem ntQuerySemaphore_touched (krnl : XboxKrnl) (handle information : Nat) :
    Touched (krnl.callExtent (.ntQuerySemaphore handle information)) krnl
      (krnl.ntQuerySemaphore handle information).1 := by
  have stores := fun range result => krnl.callStores_accepted (.ntQuerySemaphore handle information) range result
  simp only [XboxKrnl.exec, returning] at stores
  unfold ntQuerySemaphore at stores ⊢
  split
  · exact .refl
  · rename_i ptr found
    simp only [found] at stores
    split
    · exact .refl
    · rename_i usable
      simp only [usable] at stores
      exact (Touched.write32 krnl information _ (stores _ (by simp [resultStores]) _ rfl rfl)).trans
        (Touched.write32 _ _ _ (stores _ (by simp [resultStores]) _ rfl rfl))

/-- The event is initialised once. -/
theorem keInitializeEvent_once (krnl : XboxKrnl) (va type state : Nat) :
    TouchedOnce (krnl.callExtent (.keInitializeEvent va type state)) krnl (krnl.keInitializeEvent va type state).1 := by
  have accepted : krnl.accepts (.keInitializeEvent va type state) = (krnl.keInitializeEvent va type state).2.ok := rfl
  unfold keInitializeEvent at accepted ⊢
  split
  · exact .never .refl
  · rename_i small
    split
    · exact .never .refl
    · rename_i usable
      split
      · rename_i ptr found
        split
        · exact .never .refl
        · rename_i kind
          have isEvent : (krnl.object ptr).kind = .event := by simpa using kind
          exact .never (Touched.one (.reset ptr { type, signaled := state % 2 == 1 }) isEvent)
      · rename_i absent
        simp only [small, usable, absent] at accepted
        refine .register krnl { kind := .event, guestVa := va, event := { type, signaled := state % 2 == 1 } } ?_
          (by simpa [structSize] using usable)
        simp [callExtent, callRegisters, absent, accepted]

/-- The mutant is initialised once. -/
theorem keInitializeMutant_once (krnl : XboxKrnl) (va initialOwner : Nat) :
    TouchedOnce (krnl.callExtent (.keInitializeMutant va initialOwner)) krnl
      (krnl.keInitializeMutant va initialOwner).1 := by
  have accepted : krnl.accepts (.keInitializeMutant va initialOwner) = (krnl.keInitializeMutant va initialOwner).2.ok :=
    rfl
  unfold keInitializeMutant at accepted ⊢
  split
  · exact .never .refl
  · rename_i usable
    simp only [usable] at accepted
    simp only [Bool.not_eq_true', Bool.not_eq_false] at usable
    split
    · rename_i owned
      simp only [owned] at accepted
      split
      · exact .never .refl
      · rename_i inFiber
        simp only [inFiber] at accepted
        refine .before (Touched.token krnl) (.register _ (newMutant va (some krnl.currentThreadToken.2)) ?_ ?_)
        · simp [callExtent, callRegisters, newMutant, accepted]
        · rw [krnl.currentThreadToken_ram]
          exact usable
    · rename_i free
      simp only [free] at accepted
      refine .register krnl (newMutant va none) ?_ usable
      simp [callExtent, callRegisters, newMutant, accepted]

/-- The semaphore is initialised once. -/
theorem keInitializeSemaphore_once (krnl : XboxKrnl) (va count limit : Nat) :
    TouchedOnce (krnl.callExtent (.keInitializeSemaphore va count limit)) krnl
      (krnl.keInitializeSemaphore va count limit).1 := by
  have accepted : krnl.accepts (.keInitializeSemaphore va count limit) =
      (krnl.keInitializeSemaphore va count limit).2.ok := rfl
  unfold keInitializeSemaphore at accepted ⊢
  split
  · exact .never .refl
  · rename_i usable
    simp only [usable] at accepted
    refine .register krnl { kind := .semaphore, guestVa := va, semaphore := { count := int32 count, limit := int32 limit } }
      ?_ (by simpa [structSize] using usable)
    simp [callExtent, callRegisters, accepted]

/-- A thread is created; its handle and its identifier are stored. -/
theorem psCreateSystemThreadEx_touched (krnl : XboxKrnl) (request : ThreadRequest) :
    Touched (krnl.callExtent (.psCreateSystemThreadEx request)) krnl (krnl.psCreateSystemThreadEx request).1 := by
  have stores := fun range result => krnl.callStores_accepted (.psCreateSystemThreadEx request) range result
  simp only [XboxKrnl.exec, returning] at stores
  unfold psCreateSystemThreadEx at stores ⊢
  split
  · exact .refl
  · rename_i usable
    simp only [usable] at stores
    have spawned : Touched (krnl.callExtent (.psCreateSystemThreadEx request)) krnl
        { krnl with sched := (krnl.sched.spawnReserved { body := .systhread none, point := .entry }
            request.tlsDataSize request.region).1, nextThreadId := krnl.nextThreadId + 2 } :=
      (Touched.schedule krnl (krnl.sched.spawnReserved { body := .systhread none, point := .entry }
        request.tlsDataSize request.region).1).trans (Touched.one (.spend (krnl.nextThreadId + 2)) trivial)
    simp only at stores ⊢
    split
    · exact spawned
    · rename_i created
      simp only [created] at stores
      have inside : ∀ range, range ∈ resultStores (.psCreateSystemThreadEx request) →
          range ∈ krnl.callStores (.psCreateSystemThreadEx request) :=
        fun range result => stores range result _ rfl rfl
      refine .trans ?_ (Touched.writeOut _ _ _ (fun given _ => inside _ (List.mem_cons_of_mem _ (outStores_mem given))))
      refine .trans ?_ (Touched.write32 _ _ _ (inside _ List.mem_cons_self))
      refine .trans ?_ (Touched.note _ _)
      refine .trans ?_ (Touched.adjust _ _ (Touched.minor_thread _))
      exact spawned.trans (Touched.one (.create _) ⟨rfl, rfl⟩)

/-- The suspend count is a minor part of a thread object. -/
theorem resumeThread_touched (krnl : XboxKrnl) (ptr : Ptr) : Touched extent krnl (krnl.resumeThread ptr) := by
  unfold resumeThread
  simp only
  split
  · split
    · exact ((Touched.adjust krnl ptr (Touched.minor_thread _)).trans (Touched.note _ _)).trans (Touched.signal _ _ _)
    · exact Touched.adjust krnl ptr (Touched.minor_thread _)
  · exact .refl

/-- The thread is resumed, and its previous count stored. -/
theorem ntResumeThread_touched (krnl : XboxKrnl) (handle out : Nat) :
    Touched (krnl.callExtent (.ntResumeThread handle out)) krnl (krnl.ntResumeThread handle out).1 := by
  have stores := fun next value => krnl.result_touched next (.ntResumeThread handle out) out value rfl
  simp only [XboxKrnl.exec, returning] at stores
  unfold ntResumeThread at stores ⊢
  split
  · exact .refl
  · rename_i ptr found
    simp only [found] at stores
    exact stores _ _ _ rfl rfl (resumeThread_touched krnl ptr)

/-- A fiber that suspends itself blocks. -/
theorem suspendThread_touched (krnl : XboxKrnl) (found : Option Ptr) (point : Ptr → Nat → Point) :
    Touched extent krnl (krnl.suspendThread found point).1 := by
  unfold suspendThread
  split
  · exact .refl
  · simp only
    split
    · exact Touched.token krnl
    · split
      · exact ((Touched.token krnl).trans (Touched.adjust _ _ (Touched.minor_thread _))).trans (Touched.block _ _ _ _)
      · exact (Touched.token krnl).trans (Touched.adjust _ _ (Touched.minor_thread _))

/-- The thread is suspended, and its previous count stored. -/
theorem ntSuspendThread_touched (krnl : XboxKrnl) (handle out : Nat) :
    Touched (krnl.callExtent (.ntSuspendThread handle out)) krnl (krnl.ntSuspendThread handle out).1 := by
  have stores := fun next value => krnl.result_touched next (.ntSuspendThread handle out) out value rfl
  have suspended : Touched (krnl.callExtent (.ntSuspendThread handle out)) krnl
      (krnl.suspendThread (krnl.findObjectByHandle handle)
        (fun ptr previous => .suspended ptr out previous success)).1 := suspendThread_touched krnl _ _
  simp only [XboxKrnl.exec] at stores
  unfold ntSuspendThread at stores ⊢
  split
  · rename_i rejected outcome
    rw [outcome] at suspended
    exact suspended
  · rename_i blocked outcome
    rw [outcome] at suspended
    exact suspended
  · rename_i raised previous outcome
    rw [outcome] at suspended
    simp only [outcome] at stores
    exact stores _ _ _ rfl rfl suspended

/-- The end of a fiber: its mutants are abandoned, and it is switched out for good. -/
theorem Steady.ends_touched (steady : krnl.Steady) {target : Option Ptr} (ends : krnl.Ends target next)
    (ended : krnl.tokenOf krnl.currentHandle ∈ extent.ends) : Touched extent krnl next := by
  obtain ⟨last, code, path, _, _, _, rfl⟩ := steady.ends ends
  refine (Touched.ending path steady.ok ended).1.trans ?_
  simp only [Effect.apply]
  split
  · exact .refl
  · exact (Touched.schedule last _).trans (Touched.note _ _)

/-- Every call stays within its extent.

Proof: by the call. Most calls have a lemma of their own beside the export, and here the extent of
each is found within the one of the call. -/
theorem Steady.exec_touched (steady : krnl.Steady) (call : Call) :
    Touched (krnl.callExtent call) krnl (krnl.exec call).1 := by
  cases call with
  | keDelayExecutionThread waitMode alertable interval =>
    simp only [XboxKrnl.exec, XboxKrnl.keDelayExecutionThread]
    split
    · exact .refl
    · split
      · exact .refl
      · split
        · exact .refl
        · exact Touched.block _ _ _ _
  | keInitializeEvent event type state => exact (krnl.keInitializeEvent_once event type state).touched
  | keSetEvent event increment wait => exact krnl.keEvent_touched event _ (Touched.setEvent krnl)
  | keResetEvent event => exact krnl.keEvent_touched event _ (fun ptr => Touched.storeSignaled krnl ptr false)
  | keWaitForSingleObject object reason mode alertable timeout =>
    exact steady.waitForSingle_touched timeout (fun ptr found => (steady.ok.waitable_va found).1)
      (fun _ member => member)
  | ntCreateEvent out attributes type state => exact krnl.ntCreateEvent_touched out attributes type state
  | ntSetEvent handle out => exact krnl.ntSetEvent_touched handle out
  | ntClearEvent handle =>
    simp only [XboxKrnl.exec, returning, XboxKrnl.ntClearEvent]
    split
    · exact .refl
    · exact Touched.storeSignaled _ _ _
  | ntPulseEvent handle out => exact krnl.ntPulseEvent_touched handle out
  | ntWaitForSingleObject handle alertable timeout =>
    exact steady.waitForSingle_touched timeout (fun ptr found => live_of_handle steady.ok.registry found)
      (fun _ member => member)
  | ntWaitForSingleObjectEx handle mode alertable timeout =>
    exact steady.waitForSingle_touched timeout (fun ptr found => live_of_handle steady.ok.registry found)
      (fun _ member => member)
  | ntWaitForMultipleObjectsEx count handles waitType mode alertable timeout =>
    exact steady.waitForMultiple_touched count handles waitType timeout (fun _ member => member)
  | ntCreateMutant out attributes initialOwner => exact krnl.ntCreateMutant_touched out attributes initialOwner
  | ntReleaseMutant handle out => exact (krnl.ntReleaseMutant_once handle out).touched
  | ntQueryMutant handle information => exact krnl.ntQueryMutant_touched handle information
  | keInitializeMutant mutant initialOwner => exact (krnl.keInitializeMutant_once mutant initialOwner).touched
  | keReleaseMutant mutant increment abandoned wait =>
    exact (krnl.keReleaseMutant_once mutant increment abandoned wait).touched
  | ntCreateSemaphore out attributes initial maximum =>
    exact krnl.ntCreateSemaphore_touched out attributes initial maximum
  | ntReleaseSemaphore handle releaseCount out => exact krnl.ntReleaseSemaphore_touched handle releaseCount out
  | ntQuerySemaphore handle information => exact krnl.ntQuerySemaphore_touched handle information
  | keInitializeSemaphore semaphore count limit => exact (krnl.keInitializeSemaphore_once semaphore count limit).touched
  | keReleaseSemaphore semaphore increment adjustment wait =>
    simp only [XboxKrnl.exec, returning, XboxKrnl.keReleaseSemaphore]
    split
    · exact .refl
    · rename_i released previous adjusted
      exact adjustSemaphore_touched adjusted
  | keGetCurrentThread => exact Touched.token krnl
  | keSetBasePriorityThread thread increment =>
    simp only [XboxKrnl.exec, returning, XboxKrnl.keSetBasePriorityThread]
    split
    · exact .refl
    · exact Touched.adjust _ _ (Touched.minor_thread _)
  | psCreateSystemThreadEx request => exact krnl.psCreateSystemThreadEx_touched request
  | psTerminateSystemThread exitStatus =>
    cases found : krnl.findThreadByFiber krnl.currentHandle with
    | none =>
      simp only [XboxKrnl.exec, XboxKrnl.psTerminateSystemThread, found]
      exact .refl
    | some ptr =>
      exact steady.ends_touched (steady.psTerminate_ends exitStatus found) (by simp [callExtent, callEnds])
  | ntClose handle =>
    simp only [XboxKrnl.exec, returning, XboxKrnl.ntClose]
    split
    · exact .refl
    · rename_i ptr found
      exact Touched.one (.close (handle / 4 - 1) ptr) ⟨rfl, (krnl.findObjectByHandle_table handle ptr found).1⟩
  | ntResumeThread handle out => exact krnl.ntResumeThread_touched handle out
  | keResumeThread thread =>
    simp only [XboxKrnl.exec, returning, XboxKrnl.keResumeThread]
    split
    · exact .refl
    · exact resumeThread_touched krnl _
  | ntSuspendThread handle out => exact krnl.ntSuspendThread_touched handle out
  | keSuspendThread thread =>
    have suspended : Touched (krnl.callExtent (.keSuspendThread thread)) krnl (krnl.suspendThread
        (krnl.findThreadById thread) (fun ptr previous => .suspended ptr 0 previous { value := previous })).1 :=
      suspendThread_touched krnl _ _
    simp only [XboxKrnl.exec, XboxKrnl.keSuspendThread]
    split <;> rename_i outcome <;> rw [outcome] at suspended <;> exact suspended
  | ntYieldExecution =>
    simp only [XboxKrnl.exec, XboxKrnl.ntYieldExecution]
    split
    · exact .refl
    · exact Touched.schedule _ _
  | rtlInitializeCriticalSection va =>
    refine krnl.csInit_touched va (fun usable range member => ?_)
    refine krnl.callStores_accepted (.rtlInitializeCriticalSection va) range member { value := 0 } ?_ rfl
    simp [XboxKrnl.exec, returning, XboxKrnl.csInit, usable]
  | rtlEnterCriticalSection va => exact krnl.csEnter_touched va (fun _ member => member)
  | rtlLeaveCriticalSection va => exact krnl.csLeave_touched va (fun _ member => member)
  | rtlTryEnterCriticalSection va => exact krnl.csTryEnter_touched va (fun _ member => member)

/-- Every call releases at most one mutant and registers at most one object. -/
theorem Steady.exec_once (steady : krnl.Steady) (call : Call) :
    TouchedOnce (krnl.callExtent call) krnl (krnl.exec call).1 := by
  cases call with
  | ntReleaseMutant handle out => exact krnl.ntReleaseMutant_once handle out
  | keReleaseMutant mutant increment abandoned wait => exact krnl.keReleaseMutant_once mutant increment abandoned wait
  | keInitializeEvent event type state => exact krnl.keInitializeEvent_once event type state
  | keInitializeMutant mutant initialOwner => exact krnl.keInitializeMutant_once mutant initialOwner
  | keInitializeSemaphore semaphore count limit => exact krnl.keInitializeSemaphore_once semaphore count limit
  | _ =>
    refine .never ?_
    rw [Extent.quiet_eq rfl (by simp [callExtent, callRegisters])]
    exact steady.exec_touched _

end XboxKrnl

end SeriesxEmu
