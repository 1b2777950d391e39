import SeriesxEmu.WaitPaths
import SeriesxEmu.EndingPaths

/-!
# Every kernel call is a path of effects

`labelsOf` gives the labels that the code of a call can use, and `Steady.exec`
shows that the effects of a call have these labels and no others.
-/

namespace SeriesxEmu

open Scheduler GuestScheduler

/-- The labels of the effects of a call. -/
def labelsOf : Call → List Label
  | .keInitializeEvent _ _ _ => [.waiting, .routine, .reset, .install]
  | .keInitializeMutant _ _ => [.waiting, .routine, .install]
  | .keInitializeSemaphore _ _ _ => [.waiting, .routine, .install]
  | .keSetEvent _ _ _ => [.waiting, .signal]
  | .ntSetEvent _ _ => [.waiting, .signal]
  | .ntPulseEvent _ _ => [.waiting, .signal]
  | .rtlEnterCriticalSection _ => [.waiting, .lock]
  | .rtlLeaveCriticalSection _ => [.waiting, .lock]
  | .keWaitForSingleObject _ _ _ _ _ => [.waiting, .acquiring]
  | .ntWaitForSingleObject _ _ _ => [.waiting, .acquiring]
  | .ntWaitForSingleObjectEx _ _ _ _ => [.waiting, .acquiring]
  | .ntWaitForMultipleObjectsEx _ _ _ _ _ _ => [.waiting, .acquiring, .grant]
  | .psCreateSystemThreadEx _ => [.waiting, .thread, .spawning]
  | .psTerminateSystemThread _ => [.ending, .exiting]
  | .ntClose _ => [.close]
  | .ntResumeThread _ _ => [.waiting, .resume]
  | .keResumeThread _ => [.waiting, .resume]
  | .ntSuspendThread _ _ => [.waiting, .suspend]
  | .keSuspendThread _ => [.waiting, .suspend]
  | _ => [.waiting, .routine]

namespace XboxKrnl

variable {krnl next : XboxKrnl} {labels : List Label}

/-! ## Memory -/

/-- A change of guest memory is a path of one effect, for code that may wait. -/
theorem memory_path (krnl : XboxKrnl) (ram : XbeRam) (waits : .waiting ∈ labels) :
    Path labels krnl { krnl with ram } :=
  Path.one (.compute ram krnl.filetime) waits trivial

/-- An out-parameter changes guest memory at most. -/
theorem writeOut_eq (krnl : XboxKrnl) (out value : Nat) : ∃ ram, krnl.writeOut out value = { krnl with ram } := by
  unfold writeOut
  split
  · exact ⟨_, rfl⟩
  · exact ⟨krnl.ram, rfl⟩

/-- So storing one is a path. -/
theorem writeOut_path (krnl : XboxKrnl) (out value : Nat) (waits : .waiting ∈ labels) :
    Path labels krnl (krnl.writeOut out value) := by
  obtain ⟨ram, written⟩ := krnl.writeOut_eq out value
  rw [written]
  exact memory_path krnl ram waits

/-- Storing a word is one, too. -/
theorem write32_path (krnl : XboxKrnl) (va value : Nat) (waits : .waiting ∈ labels) :
    Path labels krnl (krnl.write32 va value) :=
  memory_path krnl _ waits

/-- The tick count, at the start of each call, is a word of guest memory. -/
theorem refreshData_eq (krnl : XboxKrnl) : ∃ ram, krnl.refreshData = { krnl with ram } := by
  unfold XboxKrnl.refreshData
  split
  · exact ⟨_, rfl⟩
  · exact ⟨krnl.ram, rfl⟩

/-- So every call starts with such a path. -/
theorem refreshData_path (krnl : XboxKrnl) (waits : .waiting ∈ labels) : Path labels krnl krnl.refreshData := by
  obtain ⟨ram, refreshed⟩ := krnl.refreshData_eq
  rw [refreshed]
  exact memory_path krnl ram waits

/-! ## Lookups -/

/-- An object that is found with its kind is found, and of that kind. -/
theorem ofKind_some {kind : Kind} {found : Option Ptr} {ptr : Ptr} (isKind : krnl.ofKind kind found = some ptr) :
    found = some ptr ∧ (krnl.object ptr).kind = kind := by
  obtain ⟨same, holds⟩ := Option.filter_eq_some_iff.mp isKind
  exact ⟨same, by simpa using holds⟩

/-- The object behind a handle can be waited for. -/
theorem Ok.waitable_handle (ok : krnl.Ok) {handle : Nat} {ptr : Ptr}
    (found : krnl.findObjectByHandle handle = some ptr) : krnl.Waitable ptr :=
  ⟨live_of_handle ok.registry found, Or.inl ⟨_, (krnl.findObjectByHandle_table handle ptr found).1⟩⟩

/-- The object at a guest address can be waited for. -/
theorem Ok.waitable_va (ok : krnl.Ok) {va : Nat} {ptr : Ptr} (found : krnl.findObjectByVa va = some ptr) :
    krnl.Waitable ptr :=
  ⟨(live_of_va ok.registry found).imp (fun _ here => here.1),
    Or.inr (krnl.findObjectByVa_member va ptr found)⟩

/-- No object at a guest address is ever destroyed. -/
theorem Ok.live_registered (ok : krnl.Ok) {ptr : Ptr} (member : ptr ∈ krnl.vaObjects) :
    ∃ object, krnl.object? ptr = some object := by
  obtain ⟨⟨shape, live, _⟩, _⟩ := ok.registry.atAddress ptr member
  obtain ⟨object, here, _⟩ := krnl.of_shapes _ _ live
  exact ⟨object, here⟩

/-- The object of the given kind behind a handle or an address. -/
theorem Ok.ofKind_live (ok : krnl.Ok) {kind : Kind} {found : Option Ptr} {ptr : Ptr}
    (isKind : krnl.ofKind kind found = some ptr)
    (lookup : (∃ handle, found = krnl.findObjectByHandle handle) ∨ (∃ va, found = krnl.findObjectByVa va) ∨
      ∃ threadId, found = krnl.findThreadById threadId) :
    ∃ object, krnl.object? ptr = some object ∧ object.kind = kind := by
  obtain ⟨rfl, holds⟩ := ofKind_some isKind
  have live : ∃ object, krnl.object? ptr = some object := by
    rcases lookup with ⟨handle, same⟩ | ⟨va, same⟩ | ⟨threadId, same⟩
    · exact live_of_handle ok.registry same.symm
    · exact (live_of_va ok.registry same.symm).imp (fun _ here => here.1)
    · obtain ⟨object, live, _⟩ := findThreadById_live ok.registry same.symm
      exact ⟨object, live⟩
  obtain ⟨object, live⟩ := live
  rw [krnl.object_eq _ _ live] at holds
  exact ⟨object, live, holds⟩

/-! ## Events -/

/-- Setting an event is a signal and a store. -/
theorem Steady.keSetEventCore (ptr : Ptr) {object : DispatcherObject} (live : krnl.object? ptr = some object)
    (kind : object.kind = .event) : Path [.waiting, .signal] krnl (krnl.keSetEventCore ptr).1 :=
  Path.one (.setEvent ptr) (by simp [Effect.label]) ⟨object, live, kind⟩

/-- Resetting an event is one change of its object, and a store. -/
theorem Steady.storeSignaled (ptr : Ptr) {object : DispatcherObject} (live : krnl.object? ptr = some object)
    (kind : object.kind = .event) : Path [.waiting, .routine] krnl (krnl.storeSignaled ptr false) := by
  have cleared : Path [.waiting, .routine] krnl _ :=
    Path.one (.adjust ptr .clear) (by simp [Effect.label]) ⟨object, live, kind⟩
  exact cleared.trans (memory_path _ _ (by simp))

/-- A call on the event at an address does nothing, or its operation on an event. -/
theorem Steady.keEvent (steady : krnl.Steady) (va : Nat) (operation : XboxKrnl → Ptr → XboxKrnl × Nat)
    (path : ∀ ptr object, krnl.object? ptr = some object → object.kind = .event →
      Path labels krnl (operation krnl ptr).1) :
    Path labels krnl (krnl.keEvent va operation).1 := by
  unfold XboxKrnl.keEvent
  split
  · exact .refl
  · rename_i ptr found
    obtain ⟨object, live, kind⟩ := steady.ok.ofKind_live found (Or.inr (Or.inl ⟨va, rfl⟩))
    exact path ptr object live kind

/-! ## Registering objects -/

/-- An initialisation creates the object and installs it at its address. -/
theorem registerObject_path (krnl : XboxKrnl) (object : DispatcherObject)
    (newborn : Effect.Newborn krnl object) :
    Path [.waiting, .routine, .install] krnl (krnl.registerObject object) := by
  have installed : Path [.waiting, .routine, .install] krnl _ :=
    Path.one (.install object) (by simp [Effect.label]) newborn
  exact installed.trans (memory_path _ _ (by simp))

/-- `createObject` and the history entry of the creation. -/
theorem createObject_eq (krnl : XboxKrnl) (ok : krnl.Ok) (out : Nat) (object : DispatcherObject) :
    ∃ ram, { (krnl.createObject out object).1 with
        history := krnl.birth object krnl.heap.length ++ krnl.history } =
      { (Effect.create object).apply krnl with ram } ∧
    (krnl.createObject out object).2 = krnl.heap.length ∧
    (krnl.createObject out object).1.currentHandle = krnl.currentHandle ∧
    (krnl.createObject out object).1.history = krnl.history := by
  obtain ⟨slot, objects, freeSlots, inserted, _⟩ := krnl.insert_allocated ok.registry object
  have stored : (krnl.allocate object).1.insertObject (krnl.allocate object).2 = _ := inserted
  simp only [Effect.apply, createObject, stored]
  exact ⟨_, rfl, rfl, rfl, rfl⟩

/-- A creation stores its handle once the object is there. -/
theorem create_path (krnl : XboxKrnl) (object : DispatcherObject) (ram : XbeRam)
    (allowed : (Effect.create object).Allowed krnl) :
    Path [.waiting, .routine] krnl { (Effect.create object).apply krnl with ram } := by
  have created : Path [.waiting, .routine] krnl _ := Path.one (.create object) (by simp [Effect.label]) allowed
  exact created.trans (memory_path _ ram (by simp))

/-- A creation that leaves no history entry. -/
theorem createObject_path (krnl : XboxKrnl) (ok : krnl.Ok) (out : Nat) (object : DispatcherObject)
    (allowed : (Effect.create object).Allowed krnl) (silent : krnl.birth object krnl.heap.length = []) :
    Path [.waiting, .routine] krnl (krnl.createObject out object).1 := by
  obtain ⟨ram, created, _, _, history⟩ := krnl.createObject_eq ok out object
  rw [silent, List.nil_append, ← history] at created
  have path := create_path krnl object ram allowed
  rw [← created] at path
  exact path

/-- A creation with its history entry. -/
theorem createNoted_path (krnl : XboxKrnl) (ok : krnl.Ok) (out : Nat) (object : DispatcherObject)
    (event : Event) (allowed : (Effect.create object).Allowed krnl)
    (noted : krnl.birth object krnl.heap.length = [event]) :
    Path [.waiting, .routine] krnl ((krnl.createObject out object).1.note event) := by
  obtain ⟨ram, created, _, _, history⟩ := krnl.createObject_eq ok out object
  rw [noted, List.singleton_append, ← history] at created
  have path := create_path krnl object ram allowed
  rw [← created] at path
  exact path

/-- A mutant may be born free. -/
theorem newMutant_free (krnl : XboxKrnl) (guestVa : Nat) : Effect.Newborn krnl (newMutant guestVa none) :=
  ⟨by simp [newMutant], rfl, fun _ => ⟨rfl, Or.inl ⟨rfl, rfl⟩⟩⟩

/-- A mutant may be born with the running fiber as its owner, under the token of that fiber. -/
theorem newMutant_owned (krnl : XboxKrnl) (guestVa token : Nat) (positive : token ≠ 0)
    (self : token = krnl.tokenOf krnl.currentHandle) :
    Effect.Newborn krnl (newMutant guestVa (some token)) :=
  ⟨by simp [newMutant], rfl, fun _ => ⟨rfl, Or.inr ⟨rfl, positive, self⟩⟩⟩

/-- The token of a fiber that has asked for it. -/
theorem Steady.ownToken (steady : krnl.Steady) (inFiber : krnl.currentHandle ≠ 0) :
    krnl.Learns krnl.currentThreadToken.1 ∧ krnl.currentThreadToken.2 ≠ 0 ∧
      krnl.currentThreadToken.2 =
        krnl.currentThreadToken.1.tokenOf krnl.currentThreadToken.1.currentHandle := by
  obtain ⟨learns, token, identified⟩ := steady.currentThreadToken
  rw [learns.handle]
  refine ⟨learns, ?_, token⟩
  rw [token]
  exact (learns.steady.ok.tokenOf_ne_zero _).mpr (identified inFiber)

/-- A fiber runs exactly if there is a current handle. -/
theorem inFiber_iff (krnl : XboxKrnl) : krnl.inFiber = true ↔ krnl.currentHandle ≠ 0 := by
  simp [inFiber]

/-- A mutant is created.

Proof: the caller's identity comes first, if it is to be the owner; so the mutant is born with a
token that has a fiber. -/
theorem Steady.ntCreateMutant (steady : krnl.Steady) (out initialOwner : Nat) :
    Path [.waiting, .routine] krnl (krnl.ntCreateMutant out initialOwner).1 := by
  unfold XboxKrnl.ntCreateMutant
  split
  · exact .refl
  · split
    · split
      · exact .refl
      · rename_i inFiber
        obtain ⟨learns, positive, self⟩ := steady.ownToken (by simpa [inFiber_iff] using inFiber)
        refine (learns.path.mono (by simp)).trans ?_
        have created := krnl.currentThreadToken.1.createObject_eq learns.steady.ok out
          (newMutant 0 (some krnl.currentThreadToken.2))
        obtain ⟨_, _, pointer, handle, _⟩ := created
        simp only [pointer, handle]
        refine createNoted_path _ learns.steady.ok out _ _ ⟨newMutant_owned _ 0 _ positive self, ?_⟩ ?_
        · simp [newMutant]
        · simp [birth, newMutant, positive]
    · exact createObject_path krnl steady.ok out _ ⟨newMutant_free krnl 0, by simp [newMutant]⟩
        (by simp [birth, newMutant])

/-- A mutant is initialised, after the identity of its owner. -/
theorem Steady.keInitializeMutant (steady : krnl.Steady) (va initialOwner : Nat) :
    Path [.waiting, .routine, .install] krnl (krnl.keInitializeMutant va initialOwner).1 := by
  unfold XboxKrnl.keInitializeMutant
  split
  · exact .refl
  · split
    · split
      · exact .refl
      · rename_i inFiber
        obtain ⟨learns, positive, self⟩ := steady.ownToken (by simpa [inFiber_iff] using inFiber)
        exact (learns.path.mono (by simp)).trans
          (registerObject_path _ _ (newMutant_owned _ va _ positive self))
    · exact registerObject_path krnl _ (newMutant_free krnl va)

/-- An event is initialised, anew if there is one at the address. -/
theorem Steady.keInitializeEvent (steady : krnl.Steady) (va type state : Nat) :
    Path [.waiting, .routine, .reset, .install] krnl (krnl.keInitializeEvent va type state).1 := by
  unfold XboxKrnl.keInitializeEvent
  split
  · exact .refl
  · split
    · exact .refl
    · split
      · rename_i ptr found
        split
        · exact .refl
        · rename_i kind
          obtain ⟨object, live, _⟩ := live_of_va steady.ok.registry found
          rw [krnl.object_eq _ _ live, not_not] at kind
          have stored : Path [.waiting, .routine, .reset, .install] krnl _ :=
            Path.one (.adjust ptr (.reset type (state % 2 == 1))) (by simp [Effect.label])
              ⟨object, live, kind, krnl.findObjectByVa_member va ptr found⟩
          exact stored.trans (memory_path _ _ (by simp))
      · exact (registerObject_path krnl _ ⟨by simp, rfl, by simp⟩).mono (by simp)

/-- A semaphore is created within its limit. -/
theorem Steady.ntCreateSemaphore (steady : krnl.Steady) (out initial maximum : Nat) :
    Path [.waiting, .routine] krnl (krnl.ntCreateSemaphore out initial maximum).1 := by
  unfold XboxKrnl.ntCreateSemaphore
  split
  · exact .refl
  · split
    · exact .refl
    · rename_i valid
      obtain ⟨_, _, pointer, _⟩ := krnl.createObject_eq steady.ok out
        { kind := .semaphore, semaphore := { count := int32 initial, limit := int32 maximum } }
      simp only [pointer]
      refine createNoted_path krnl steady.ok out _ _ ⟨⟨by simp, rfl, by simp⟩, fun _ => ?_⟩ rfl
      simp only
      omega

/-! ## Releases -/

/-- A mutant is released by its owner only. -/
theorem Steady.ntReleaseMutant (steady : krnl.Steady) (handle out : Nat) :
    Path [.waiting, .routine] krnl (krnl.ntReleaseMutant handle out).1 := by
  unfold XboxKrnl.ntReleaseMutant
  split
  · exact .refl
  · rename_i ptr found
    obtain ⟨object, live, kind⟩ := steady.ok.ofKind_live found (Or.inl ⟨handle, rfl⟩)
    obtain ⟨learns, token, _⟩ := steady.currentThreadToken
    simp only [krnl.object_eq _ _ live]
    split
    · exact learns.path.mono (by simp)
    · rename_i owner
      rw [not_or, not_not] at owner
      have released : Path [.waiting, .routine] krnl.currentThreadToken.1 _ :=
        Path.one (.releaseMutant ptr) (by simp [Effect.label])
          ⟨object, learns.live ptr object live, kind, Or.inr ⟨owner.1, by
            rw [learns.handle, owner.2]
            exact token⟩⟩
      exact ((learns.path.mono (by simp)).trans released).trans (writeOut_path _ _ _ (by simp))

/-- A mutant at an address is released whoever calls. -/
theorem Steady.keReleaseMutant (steady : krnl.Steady) (va : Nat) :
    Path [.waiting, .routine] krnl (krnl.keReleaseMutant va).1 := by
  unfold XboxKrnl.keReleaseMutant
  split
  · exact .refl
  · rename_i ptr found
    obtain ⟨object, live, kind⟩ := steady.ok.ofKind_live found (Or.inr (Or.inl ⟨va, rfl⟩))
    exact Path.one (.releaseMutant ptr) (by simp [Effect.label])
      ⟨object, live, kind, Or.inl (krnl.findObjectByVa_member va ptr (ofKind_some found).1)⟩

/-- A word read as an `int32_t` is below 2^31. -/
theorem int32_lt (word : Nat) : int32 word < 2 ^ 31 := by
  unfold int32
  split <;> omega

/-- An accepted release is one of a semaphore that has room for it. -/
theorem Steady.releases (steady : krnl.Steady) {found : Option Ptr} {word : Nat} {previous : Int}
    (lookup : (∃ handle, found = krnl.findObjectByHandle handle) ∨ ∃ va, found = krnl.findObjectByVa va)
    (adjusted : krnl.adjustSemaphore found word = some (next, previous)) :
    ∃ ptr, (Effect.releaseSemaphore ptr (int32 word)).Allowed krnl ∧
      next = (Effect.releaseSemaphore ptr (int32 word)).apply krnl := by
  obtain ⟨ptr, isKind, positive, fits, rfl⟩ := adjustSemaphore_cases adjusted
  obtain ⟨object, live, kind⟩ := steady.ok.ofKind_live isKind (lookup.imp id Or.inl)
  rw [krnl.object_eq _ _ live] at fits
  exact ⟨ptr, ⟨object, live, kind, by omega, int32_lt word, by omega⟩, rfl⟩

/-- Units are added to a semaphore within its limit. -/
theorem Steady.adjustSemaphore (steady : krnl.Steady) {found : Option Ptr} {word : Nat} {previous : Int}
    (lookup : (∃ handle, found = krnl.findObjectByHandle handle) ∨ ∃ va, found = krnl.findObjectByVa va)
    (adjusted : krnl.adjustSemaphore found word = some (next, previous)) :
    Path [.waiting, .routine] krnl next := by
  obtain ⟨ptr, allowed, rfl⟩ := steady.releases lookup adjusted
  exact Path.one (.releaseSemaphore ptr (int32 word)) (by simp [Effect.label]) allowed

/-! ## Waits -/

/-- The calls for a single wait run its body on an object that can be waited for. -/
theorem Steady.waitForSingle (steady : krnl.Steady) {found : Option Ptr} (timeout : Nat)
    (waitable : ∀ ptr, found = some ptr → krnl.Waitable ptr) :
    Path [.waiting, .acquiring] krnl (krnl.waitForSingle found timeout).1 := by
  unfold XboxKrnl.waitForSingle
  split
  · exact .refl
  · rename_i ptr
    split
    · exact .refl
    · exact steady.waitDispatch_path (waitable ptr rfl) _ _

/-- What a list of lookups finds is found by one of them. -/
theorem mapM_member {α β : Type} {lookup : α → Option β} (keys : List α) (values : List β)
    (found : keys.mapM lookup = some values) : ∀ value ∈ values, ∃ key ∈ keys, lookup key = some value := by
  induction keys generalizing values with
  | nil =>
    obtain rfl : [] = values := Option.some.inj found
    simp
  | cons key rest inductionHypothesis =>
    simp only [List.mapM_cons, Option.bind_eq_bind, Option.bind_eq_some_iff, Option.pure_def,
      Option.some.injEq] at found
    obtain ⟨first, here, others, later, rfl⟩ := found
    intro value member
    rcases List.mem_cons.mp member with rfl | member
    · exact ⟨key, List.mem_cons_self, here⟩
    · obtain ⟨other, inRest, same⟩ := inductionHypothesis others later value member
      exact ⟨other, List.mem_cons_of_mem key inRest, same⟩

/-- A lookup of many keys finds as many values. -/
theorem mapM_some_length {α β : Type} {lookup : α → Option β} (keys : List α) {values : List β}
    (found : keys.mapM lookup = some values) : values.length = keys.length := by
  induction keys generalizing values with
  | nil =>
    obtain rfl : [] = values := Option.some.inj found
    rfl
  | cons key rest inductionHypothesis =>
    simp only [List.mapM_cons, Option.bind_eq_bind, Option.bind_eq_some_iff, Option.pure_def,
      Option.some.injEq] at found
    obtain ⟨first, _, others, later, rfl⟩ := found
    simp [inductionHypothesis later]

/-- The objects of a multiple wait are found by their handles. -/
theorem Ok.readHandles_waitable (ok : krnl.Ok) {array count : Nat} {ptrs : List Ptr}
    (read : krnl.readHandles array count = some ptrs) : ∀ ptr ∈ ptrs, krnl.Waitable ptr := by
  intro ptr member
  obtain ⟨index, _, found⟩ := mapM_member _ ptrs read ptr member
  obtain ⟨handle, _, here⟩ := Option.bind_eq_some_iff.mp found
  exact ok.waitable_handle here

/-- The objects that `NtWaitForMultipleObjectsEx` waits for when it accepts its arguments. -/
def waitSet (krnl : XboxKrnl) (count handles waitType timeout : Nat) : Option (List Ptr) :=
  if count = 0 ∨ kMaxWaitObjects < count ∨ krnl.ram.readable handles (4 * count) = false ∨ 1 < waitType ∨
      (krnl.readTimeout timeout).isNone then none
  else krnl.readHandles handles count

/-- Every object of a set of handles can be waited for. -/
theorem Ok.waitSet_waitable (ok : krnl.Ok) {count handles waitType timeout : Nat} {ptrs : List Ptr}
    (named : krnl.waitSet count handles waitType timeout = some ptrs) : ∀ ptr ∈ ptrs, krnl.Waitable ptr := by
  unfold waitSet at named
  split at named
  · cases named
  · exact ok.readHandles_waitable named

/-- `NtWaitForMultipleObjectsEx` rejects its arguments or waits. -/
theorem Steady.multipleWait (steady : krnl.Steady) (count handles waitType timeout : Nat) :
    (krnl.ntWaitForMultipleObjectsEx count handles waitType timeout).1 = krnl ∨
      ∃ ptrs ticks, krnl.waitSet count handles waitType timeout = some ptrs ∧
        krnl.Waited (.waitMultiple ptrs (waitType == 0) ticks)
          (krnl.ntWaitForMultipleObjectsEx count handles waitType timeout).1 := by
  by_cases many : count = 0 ∨ kMaxWaitObjects < count
  · simp [XboxKrnl.ntWaitForMultipleObjectsEx, many]
  · by_cases readable : krnl.ram.readable handles (4 * count) = true
    · by_cases kind : 1 < waitType
      · simp [XboxKrnl.ntWaitForMultipleObjectsEx, many, readable, kind]
      · cases timing : krnl.readTimeout timeout with
        | none => simp [XboxKrnl.ntWaitForMultipleObjectsEx, many, readable, kind, timing]
        | some read =>
          obtain ⟨immediate, ticks⟩ := read
          cases named : krnl.readHandles handles count with
          | none => simp [XboxKrnl.ntWaitForMultipleObjectsEx, many, readable, kind, timing, named]
          | some ptrs =>
            right
            refine ⟨ptrs, ticks, ?_, ?_⟩
            · simp only [not_or] at many
              simp [waitSet, many, readable, kind, timing, named]
            · simp only [XboxKrnl.ntWaitForMultipleObjectsEx, many, readable, kind, timing, named, ↓reduceIte,
                Bool.not_true, Bool.false_eq_true]
              exact steady.waitMultiple ptrs (waitType == 0) immediate ticks
                (steady.ok.readHandles_waitable named)
    · simp [XboxKrnl.ntWaitForMultipleObjectsEx, many, readable]

/-- The call for a multiple wait runs its body on such a set. -/
theorem Steady.ntWaitForMultipleObjectsEx (steady : krnl.Steady) (count handles waitType timeout : Nat) :
    Path [.waiting, .acquiring, .grant] krnl
      (krnl.ntWaitForMultipleObjectsEx count handles waitType timeout).1 := by
  rcases steady.multipleWait count handles waitType timeout with same | ⟨ptrs, ticks, _, waited⟩
  · rw [same]
  · refine waited.path.mono ?_
    cases waitType == 0 <;> simp [waitLabels]

/-- A delay is a wait on the channel that nobody signals, or a yield. -/
theorem Steady.keDelayExecutionThread (steady : krnl.Steady) (interval : Nat) :
    Path [.waiting, .routine] krnl (krnl.keDelayExecutionThread interval).1 := by
  unfold XboxKrnl.keDelayExecutionThread
  simp only
  split
  · exact .refl
  · split
    · exact .refl
    · split
      · exact .refl
      · rename_i inFiber
        exact Path.one (.block .delay _ (.returning success)) (by simp [Effect.label])
          ⟨steady.fiber (by simpa [inFiber_iff] using inFiber), rfl⟩

/-! ## Threads -/

/-- Two changes of a fiber that agree on it change the list of fibers alike. -/
theorem threads_congr {threads : List Fiber} {index : Nat} {fiber : Fiber}
    (found : threads[index]? = some fiber) (change change' : Fiber → Fiber)
    (same : change fiber = change' fiber) : threads.modify index change = threads.modify index change' := by
  apply List.ext_getElem?
  intro other
  rw [List.getElem?_modify, List.getElem?_modify]
  by_cases here : index = other
  · subst here
    simp [found, same]
  · simp [here]

/-- The running fiber is set to a state and leaves for the scheduler, with its suspension point in
its context. -/
theorem Steady.pause (steady : krnl.Steady) {index : Nat} {fiber : Fiber} (switched : krnl.sched.current = some index)
    (found : krnl.sched.threads[index]? = some fiber) (state : State) (point : Point) (change : Fiber → Fiber)
    (changed : change fiber = { fiber with
      state, wakeTick := (change fiber).wakeTick, joinTarget := (change fiber).joinTarget
      ctx := { fiber.ctx with point } })
    (stops : (state = .ready ∧ ∃ reply, point = .returning reply) ∨
      ((state = .ready ∨ state = .sleeping ∨ state = .blockedJoin) ∧ point = .guest)) :
    Path [.waiting, .routine] krnl
      { krnl with sched := (krnl.sched.modifyThread index change).switchToScheduler } := by
  have running : krnl.currentFiber = some fiber := by simp [currentFiber, switched, found]
  have paused : Path [.waiting, .routine] krnl _ :=
    Path.one (.pause state (change fiber).wakeTick (change fiber).joinTarget point) (by simp [Effect.label])
      ⟨⟨fiber, running, steady.guest fiber running⟩, stops⟩
  have same := threads_congr found change (fun thread =>
    { thread with
      state, wakeTick := (change fiber).wakeTick, joinTarget := (change fiber).joinTarget
      ctx := { thread.ctx with point } }) changed
  simp only [Effect.apply, switched] at paused
  simp only [GuestScheduler.modifyThread, same] at paused ⊢
  exact paused

/-- `NtYieldExecution` when the caller's handle is its position. -/
theorem Steady.ntYieldExecution (steady : krnl.Steady) (self : krnl.findsItself = true) :
    Path [.waiting, .routine] krnl krnl.ntYieldExecution.1 := by
  unfold XboxKrnl.ntYieldExecution
  have position : krnl.sched.find krnl.currentHandle = krnl.sched.current := by simpa [findsItself] using self
  rw [position]
  split
  · exact .refl
  · rename_i index switched
    obtain ⟨fiber, found, _⟩ := steady.ok.current index switched
    exact steady.pause switched found .ready (.returning success) _ rfl (Or.inl ⟨rfl, success, rfl⟩)

/-- A thread is created and spawned; when no stack can be mapped, its handle is closed again. -/
theorem Steady.psCreateSystemThreadEx (steady : krnl.Steady) (request : ThreadRequest) :
    Path [.waiting, .thread, .spawning] krnl (krnl.psCreateSystemThreadEx request).1 := by
  have spend : ∀ handles, Path [.waiting, .thread, .spawning] krnl ((Effect.spend 2 handles).apply krnl) :=
    fun handles => Path.one (.spend 2 handles) (by simp [Effect.label]) trivial
  unfold XboxKrnl.psCreateSystemThreadEx
  split
  · exact .refl
  · by_cases fits : kStackSize - kMinUsable < request.tlsDataSize
    · simp only [spawnReserved, fits, ↓reduceIte]
      exact spend 0
    · cases mapped : request.region with
      | none =>
        simp only [spawnReserved, fits, ↓reduceIte]
        exact spend 1
      | some base =>
        have created : Path [.waiting, .thread, .spawning] krnl _ :=
          Path.one (.createThread request base) (by simp [Effect.label]) (Nat.le_of_not_lt fits)
        have positive := Nat.pos_iff_ne_zero.mp steady.ok.registry.firstHandle
        have named : (krnl.sched.spawnReserved { body := .systhread none, point := .entry }
            request.tlsDataSize (some base)).2 ≠ 0 := by
          rw [spawnReserved_eq krnl.sched _ _ _ (Nat.le_of_not_lt fits)]
          exact positive
        simp only [named, ↓reduceIte]
        exact (created.trans (write32_path _ _ _ (by simp))).trans (writeOut_path _ _ _ (by simp))

/-- The running thread is stopped and ends.

Proof: the object that is found by the handle of the running fiber is stopped as its own, and the
exit abandons what it still holds. -/
theorem Steady.psTerminateSystemThread (steady : krnl.Steady) (exitStatus : Nat) :
    Path [.ending, .exiting] krnl (krnl.psTerminateSystemThread exitStatus).1 := by
  cases found : krnl.findThreadByFiber krnl.currentHandle with
  | none =>
    simp only [XboxKrnl.psTerminateSystemThread, found]
    exact .refl
  | some ptr => exact steady.ends_path (steady.psTerminate_ends exitStatus found)

/-- Closing a handle frees its slot, and the object if nobody else has it. -/
theorem Steady.ntClose (handle : Nat) : Path [.close] krnl (krnl.ntClose handle).1 := by
  unfold XboxKrnl.ntClose
  split
  · exact .refl
  · rename_i ptr found
    exact Path.one (.close (handle / 4 - 1) ptr) (by simp [Effect.label])
      (krnl.findObjectByHandle_table handle ptr found).1

/-- A suspension is taken away, and the last one wakes the parked fiber. -/
theorem Steady.resumeThread {ptr : Ptr} {object : DispatcherObject} (live : krnl.object? ptr = some object)
    (kind : object.kind = .thread) : Path [.waiting, .resume] krnl (krnl.resumeThread ptr) :=
  Path.one (.resumeThread ptr) (by simp [Effect.label]) ⟨object, live, kind⟩

/-- Every thread object names a fiber. -/
theorem Ok.schedHandle_ne_zero (ok : krnl.Ok) {ptr : Ptr} {object : DispatcherObject}
    (live : krnl.object? ptr = some object) (kind : object.kind = .thread) : object.thread.schedHandle ≠ 0 := by
  have shapes := krnl.shapes_eq _ _ live
  rcases ok.registry.owned ptr _ shapes with ⟨slot, tabled⟩ | located | ⟨fiber, identity⟩
  · obtain ⟨shape, again, rest⟩ := ok.registry.tabled slot ptr tabled
    obtain rfl := Option.some.inj (shapes.symm.trans again)
    exact (rest kind).2.1
  · obtain ⟨⟨shape, again, other⟩, _⟩ := ok.registry.atAddress ptr located
    obtain rfl := Option.some.inj (shapes.symm.trans again)
    exact absurd kind other
  · obtain ⟨positive, ⟨shape, again, _, same⟩, _⟩ := ok.registry.identities _ _ identity
    obtain rfl := Option.some.inj (shapes.symm.trans again)
    have handle : object.thread.schedHandle = fiber := same
    rw [handle]
    exact positive

/-- A thread object with the caller's token is the caller's identity. -/
theorem Ok.identity_of_token (ok : krnl.Ok) {ptr : Ptr} {object : DispatcherObject}
    (live : krnl.object? ptr = some object) (kind : object.kind = .thread) {fiber : Nat}
    (token : object.thread.threadId = krnl.tokenOf fiber) : krnl.fiberThread? fiber = some ptr := by
  have positive := (ok.registry.threadIds ptr _ (krnl.shapes_eq _ _ live) kind).1
  have positiveToken : krnl.tokenOf fiber ≠ 0 := by
    rw [← token]
    exact Nat.pos_iff_ne_zero.mp positive
  obtain ⟨self, found⟩ := (ok.tokenOf_ne_zero _).mp positiveToken
  obtain ⟨_, other, there, isThread, _⟩ := live_of_identity ok.registry found
  have same := ok.registry.idsDistinct ptr self _ _ (krnl.shapes_eq _ _ live) (krnl.shapes_eq _ _ there)
    kind isThread (token.trans (krnl.tokenOf_some fiber self other found there))
  rw [found, same]

/-- What a suspend call does: nothing, raise the count of a thread that has ended, or
raise the count of the caller's own identity and park the caller. -/
inductive Suspends (krnl : XboxKrnl) (found : Option Ptr) (next : XboxKrnl) : Prop where
  | declines (path : Path [.waiting] krnl next)
  | raises (middle : XboxKrnl) (ptr : Ptr) (named : krnl.ofKind .thread found = some ptr)
    (before : Path [.waiting] krnl middle) (same : middle.object? ptr = krnl.object? ptr)
    (allowed : (Effect.adjust ptr .suspend).Allowed middle)
    (path : Path [.waiting] ((Effect.adjust ptr .suspend).apply middle) next)
  | parks (ptr : Ptr) (out : Nat) (reply : Reply) (named : krnl.ofKind .thread found = some ptr)
    (allowed : (Effect.suspendSelf ptr out reply).Allowed krnl)
    (path : Path [.waiting] ((Effect.suspendSelf ptr out reply).apply krnl) next)

variable {found : Option Ptr}

/-- A suspension adds to the count, and if it is the caller's own, parks it. -/
theorem Suspends.path (suspends : krnl.Suspends found next) : Path [.waiting, .suspend] krnl next := by
  cases suspends with
  | declines path => exact path.mono (by simp)
  | raises middle ptr named before same allowed path =>
    exact ((before.mono (by simp)).trans (Path.one _ (by simp [Effect.label]) allowed)).trans (path.mono (by simp))
  | parks ptr out reply named allowed path =>
    exact (Path.one _ (by simp [Effect.label]) allowed).trans (path.mono (by simp))

/-- What goes before it may be any store. -/
theorem Suspends.before {first : XboxKrnl} (path : Path [.waiting] next first)
    (suspends : krnl.Suspends found next) : krnl.Suspends found first := by
  cases suspends with
  | declines before => exact .declines (before.trans path)
  | raises middle ptr named before same allowed rest =>
    exact .raises middle ptr named before same allowed (rest.trans path)
  | parks ptr out reply named allowed rest => exact .parks ptr out reply named allowed (rest.trans path)

/-- The caller's token is that of an object which was there before only if the caller
had its identity before. -/
theorem Steady.known_of_token (steady : krnl.Steady) {ptr : Ptr} {object : DispatcherObject}
    (live : krnl.object? ptr = some object) (kind : object.kind = .thread)
    (self : object.thread.threadId = krnl.currentThreadToken.2) :
    krnl.currentThreadToken.1 = krnl ∧ krnl.fiberThread? krnl.currentHandle = some ptr := by
  obtain ⟨positive, below⟩ := steady.ok.registry.threadIds ptr _ (krnl.shapes_eq _ _ live) kind
  obtain ⟨learns, token, _⟩ := steady.currentThreadToken
  by_cases known : krnl.currentHandle ≠ 0 → ∃ other, krnl.fiberThread? krnl.currentHandle = some other
  · have same := steady.ok.currentThreadToken_identified known
    rw [same] at self
    exact ⟨by rw [same], steady.ok.identity_of_token live kind self⟩
  · exfalso
    simp only [Classical.not_imp, not_exists] at known
    obtain ⟨inFiber, absent⟩ := known
    have none : krnl.fiberThread? krnl.currentHandle = none := by
      cases found : krnl.fiberThread? krnl.currentHandle with
      | none => rfl
      | some other => exact absurd found (absent other)
    have made : krnl.currentThreadToken.1 = (krnl.ensureThreadObject krnl.currentHandle).1 := by
      simp [XboxKrnl.currentThreadToken, inFiber]
    have nextOk := learns.steady.ok
    rw [made] at token nextOk
    rw [token, tokenOf_identify none nextOk] at self
    have old : object.thread.threadId < krnl.nextThreadId := below
    omega

/-- The common part of both calls suspends the thread that is found. -/
theorem Steady.suspendThread (steady : krnl.Steady) (out : Nat) (reply : Nat → Reply)
    (lookup : (∃ handle, found = krnl.findObjectByHandle handle) ∨ ∃ threadId, found = krnl.findThreadById threadId) :
    krnl.Suspends found
      (krnl.suspendThread found (fun ptr previous => .suspended ptr out previous (reply previous))).1 := by
  unfold XboxKrnl.suspendThread
  split
  · exact .declines .refl
  · rename_i ptr isKind
    obtain ⟨object, live, kind⟩ := steady.ok.ofKind_live isKind (lookup.imp id Or.inr)
    obtain ⟨learns, _, _⟩ := steady.currentThreadToken
    have raised : ∀ state : XboxKrnl, state.object? ptr = some object →
        state.modify ptr (Change.apply state .suspend) = state.modify ptr (fun o => { o with thread :=
          { o.thread with suspendCount := (object.thread.suspendCount + 1) % 2 ^ 32 } }) :=
      fun state here => state.modify_congr ptr object here _ _ rfl
    simp only [krnl.object_eq _ _ live]
    by_cases self : object.thread.threadId = krnl.currentThreadToken.2
    · obtain ⟨same, identity⟩ := steady.known_of_token live kind self
      have inFiber := (live_of_identity steady.ok.registry identity).1
      simp only [self, beq_self_eq_true, Bool.not_true, Bool.false_and, Bool.false_eq_true, ↓reduceIte]
      refine .parks ptr out (reply object.thread.suspendCount) isKind ⟨identity, steady.fiber inFiber⟩ ?_
      have applied : (Effect.suspendSelf ptr out (reply object.thread.suspendCount)).apply krnl =
          (krnl.modify ptr (fun o => { o with thread :=
            { o.thread with suspendCount := (object.thread.suspendCount + 1) % 2 ^ 32 } })).blockCurrent
            object.token kNoTimeout (.suspended ptr out object.thread.suspendCount
              (reply object.thread.suspendCount)) := by
        simp only [Effect.apply, krnl.object_eq _ _ live]
        rw [raised krnl live]
      rw [applied, same]
    · have other : (object.thread.threadId == krnl.currentThreadToken.2) = false := by simp [self]
      have named : (object.thread.schedHandle != 0) = true := by
        simp [steady.ok.schedHandle_ne_zero live kind]
      have later := learns.live ptr object live
      simp only [other, named, Bool.not_false, Bool.true_and, Bool.and_true, Bool.false_eq_true, ↓reduceIte]
      cases running : object.thread.running with
      | true =>
        simp only [↓reduceIte]
        exact .declines learns.path
      | false =>
        simp only [Bool.false_eq_true, ↓reduceIte]
        rw [← raised _ later]
        exact .raises _ ptr isKind learns.path (later.trans live.symm) ⟨object, later, kind, running⟩ .refl

/-- By a handle. -/
theorem Steady.ntSuspendThread (steady : krnl.Steady) (handle out : Nat) :
    krnl.Suspends (krnl.findObjectByHandle handle) (krnl.ntSuspendThread handle out).1 := by
  have suspends := steady.suspendThread out (fun _ => success) (Or.inl ⟨handle, rfl⟩)
  unfold XboxKrnl.ntSuspendThread
  split
  · rename_i suspended
    rw [suspended] at suspends
    exact suspends
  · rename_i suspended
    rw [suspended] at suspends
    exact suspends
  · rename_i suspended
    rw [suspended] at suspends
    exact suspends.before (writeOut_path _ _ _ (by simp))

/-- By an identifier. -/
theorem Steady.keSuspendThread (steady : krnl.Steady) (thread : Nat) :
    krnl.Suspends (krnl.findThreadById thread) (krnl.keSuspendThread thread).1 := by
  have suspends := steady.suspendThread 0 (fun previous => { value := previous }) (Or.inr ⟨thread, rfl⟩)
  unfold XboxKrnl.keSuspendThread
  split <;>
    · rename_i suspended
      rw [suspended] at suspends
      exact suspends

/-! ## Critical sections and queries -/

/-- A critical section is entered, or the fiber blocks on its channel. -/
theorem Steady.csEnter (steady : krnl.Steady) (va : Nat) :
    Path [.waiting, .lock] krnl (krnl.csEnter va).1 := by
  unfold XboxKrnl.csEnter
  split
  · exact .refl
  · simp only
    split
    · exact write32_path _ _ _ (by simp)
    · split
      · exact memory_path _ _ (by simp)
      · split
        · exact .refl
        · rename_i inFiber
          have counted : ∀ value, Path [.waiting, .lock] krnl (krnl.write32 (at32 va kCsLockCount) value) :=
            fun value => write32_path krnl _ value (by simp)
          exact (counted _).trans (Path.one (.block (.criticalSection va) kNoTimeout (.csEnter va))
            (by simp [Effect.label]) ⟨steady.fiber (by simpa [inFiber_iff] using inFiber), rfl⟩)

/-- Its last leave wakes one fiber on that channel. -/
theorem Steady.csLeave (va : Nat) : Path [.waiting, .lock] krnl (krnl.csLeave va).1 := by
  unfold XboxKrnl.csLeave
  split
  · exact .refl
  · split
    · exact .refl
    · split
      · exact write32_path _ _ _ (by simp)
      · simp only
        split
        · have counted : ∀ ram, Path [.waiting, .lock] krnl { krnl with ram } :=
            fun ram => memory_path krnl ram (by simp)
          exact (counted _).trans (Path.one (.leaveSection va) (by simp [Effect.label]) trivial)
        · exact memory_path _ _ (by simp)

/-- Trying to enter stores its fields at most. -/
theorem Steady.csTryEnter (va : Nat) : Path [.waiting, .routine] krnl (krnl.csTryEnter va).1 := by
  unfold XboxKrnl.csTryEnter
  split
  · simp only
    split
    · exact write32_path _ _ _ (by simp)
    · split
      · exact .refl
      · exact memory_path _ _ (by simp)
  · exact .refl

/-- Its initialisation stores its fields. -/
theorem Steady.csInit (va : Nat) : Path [.waiting, .routine] krnl (krnl.csInit va).1 := by
  unfold XboxKrnl.csInit
  split
  · exact .refl
  · exact memory_path _ _ (by simp)

/-- A query of a mutant makes the caller's identity and stores an answer. -/
theorem Steady.ntQueryMutant (steady : krnl.Steady) (handle information : Nat) :
    Path [.waiting, .routine] krnl (krnl.ntQueryMutant handle information).1 := by
  obtain ⟨learns, _⟩ := steady.currentThreadToken
  have learned : Path [.waiting, .routine] krnl krnl.currentThreadToken.1 := learns.path.mono (by simp)
  unfold XboxKrnl.ntQueryMutant
  split
  · exact .refl
  · split
    · exact .refl
    · simp only
      split
      · exact learned.trans (memory_path _ _ (by simp))
      · exact memory_path _ _ (by simp)

/-- A query of a semaphore stores an answer. -/
theorem Steady.ntQuerySemaphore (handle information : Nat) :
    Path [.waiting, .routine] krnl (krnl.ntQuerySemaphore handle information).1 := by
  unfold XboxKrnl.ntQuerySemaphore
  split
  · exact .refl
  · split
    · exact .refl
    · exact memory_path _ _ (by simp)

/-- An event is created. -/
theorem Steady.ntCreateEvent (steady : krnl.Steady) (out type state : Nat) :
    Path [.waiting, .routine] krnl (krnl.ntCreateEvent out type state).1 := by
  unfold XboxKrnl.ntCreateEvent
  split
  · exact .refl
  · split
    · exact .refl
    · exact createObject_path krnl steady.ok out _ ⟨⟨by simp, rfl, by simp⟩, by simp⟩ rfl

/-- The event behind a handle is set. -/
theorem Steady.ntSetEvent (steady : krnl.Steady) (handle out : Nat) :
    Path [.waiting, .signal] krnl (krnl.ntSetEvent handle out).1 := by
  unfold XboxKrnl.ntSetEvent
  split
  · exact .refl
  · rename_i ptr found
    obtain ⟨object, live, kind⟩ := steady.ok.ofKind_live found (Or.inl ⟨handle, rfl⟩)
    exact (Steady.keSetEventCore ptr live kind).trans (writeOut_path _ _ _ (by simp))

/-- The event behind a handle is reset. -/
theorem Steady.ntClearEvent (steady : krnl.Steady) (handle : Nat) :
    Path [.waiting, .routine] krnl (krnl.ntClearEvent handle).1 := by
  unfold XboxKrnl.ntClearEvent
  split
  · exact .refl
  · rename_i ptr found
    obtain ⟨object, live, kind⟩ := steady.ok.ofKind_live found (Or.inl ⟨handle, rfl⟩)
    exact Steady.storeSignaled ptr live kind

/-- The event behind a handle is set, its waiters woken, and it is reset. -/
theorem Steady.ntPulseEvent (steady : krnl.Steady) (handle out : Nat) :
    Path [.waiting, .signal] krnl (krnl.ntPulseEvent handle out).1 := by
  unfold XboxKrnl.ntPulseEvent
  split
  · exact .refl
  · rename_i ptr found
    obtain ⟨object, live, kind⟩ := steady.ok.ofKind_live found (Or.inl ⟨handle, rfl⟩)
    have pulsed : Path [.waiting, .signal] krnl (krnl.pulseEvent ptr) :=
      Path.one (.pulseEvent ptr) (by simp [Effect.label]) ⟨object, live, kind⟩
    exact pulsed.trans (writeOut_path _ _ _ (by simp))

/-- Units of the semaphore behind a handle are released. -/
theorem Steady.ntReleaseSemaphore (steady : krnl.Steady) (handle releaseCount out : Nat) :
    Path [.waiting, .routine] krnl (krnl.ntReleaseSemaphore handle releaseCount out).1 := by
  unfold XboxKrnl.ntReleaseSemaphore
  split
  · exact .refl
  · rename_i released previous adjusted
    exact (steady.adjustSemaphore (Or.inl ⟨handle, rfl⟩) adjusted).trans (writeOut_path _ _ _ (by simp))

/-- Units of the semaphore at an address are released. -/
theorem Steady.keReleaseSemaphore (steady : krnl.Steady) (semaphore adjustment : Nat) :
    Path [.waiting, .routine] krnl (krnl.keReleaseSemaphore semaphore adjustment).1 := by
  unfold XboxKrnl.keReleaseSemaphore
  split
  · exact .refl
  · rename_i released previous adjusted
    exact steady.adjustSemaphore (Or.inr ⟨semaphore, rfl⟩) adjusted

/-- A semaphore is initialised at a guest address. -/
theorem Steady.keInitializeSemaphore (semaphore count limit : Nat) :
    Path [.waiting, .routine, .install] krnl (krnl.keInitializeSemaphore semaphore count limit).1 := by
  unfold XboxKrnl.keInitializeSemaphore
  split
  · exact .refl
  · exact registerObject_path krnl _ ⟨by simp, rfl, by simp⟩

/-- A priority is stored in the object of a thread. -/
theorem Steady.keSetBasePriorityThread (steady : krnl.Steady) (thread increment : Nat) :
    Path [.waiting, .routine] krnl (krnl.keSetBasePriorityThread thread increment).1 := by
  unfold XboxKrnl.keSetBasePriorityThread
  split
  · exact .refl
  · rename_i ptr found
    obtain ⟨object, live, kind, _⟩ := findThreadById_live steady.ok.registry found
    exact Path.one (.adjust ptr (.priority (int32 increment))) (by simp [Effect.label]) ⟨object, live, kind⟩

/-- The thread behind a handle is resumed. -/
theorem Steady.ntResumeThread (steady : krnl.Steady) (handle out : Nat) :
    Path [.waiting, .resume] krnl (krnl.ntResumeThread handle out).1 := by
  unfold XboxKrnl.ntResumeThread
  split
  · exact .refl
  · rename_i ptr found
    obtain ⟨object, live, kind⟩ := steady.ok.ofKind_live found (Or.inl ⟨handle, rfl⟩)
    exact (Steady.resumeThread live kind).trans (writeOut_path _ _ _ (by simp))

/-- The thread of an identifier is resumed. -/
theorem Steady.keResumeThread (steady : krnl.Steady) (thread : Nat) :
    Path [.waiting, .resume] krnl (krnl.keResumeThread thread).1 := by
  unfold XboxKrnl.keResumeThread
  split
  · exact .refl
  · rename_i ptr found
    obtain ⟨object, live, kind⟩ := steady.ok.ofKind_live found (Or.inr (Or.inr ⟨thread, rfl⟩))
    exact Steady.resumeThread live kind

/-! ## The dispatch switch -/

/-- The effects of a kernel call have the labels of the call. -/
theorem Steady.exec (steady : krnl.Steady) (call : Call) (self : krnl.findsItself = true ∨ looksItselfUp call = false) :
    Path (labelsOf call) krnl (krnl.exec call).1 := by
  cases call with
  | keDelayExecutionThread waitMode alertable interval => exact steady.keDelayExecutionThread interval
  | keInitializeEvent event type state => exact steady.keInitializeEvent event type state
  | keSetEvent event increment wait =>
    exact steady.keEvent event _ (fun ptr object live kind => Steady.keSetEventCore ptr live kind)
  | keResetEvent event =>
    exact steady.keEvent event _ (fun ptr object live kind => Steady.storeSignaled ptr live kind)
  | keWaitForSingleObject object reason mode alertable timeout =>
    exact steady.waitForSingle timeout (fun ptr found => steady.ok.waitable_va found)
  | ntCreateEvent out attributes type state => exact steady.ntCreateEvent out type state
  | ntSetEvent handle out => exact steady.ntSetEvent handle out
  | ntClearEvent handle => exact steady.ntClearEvent handle
  | ntPulseEvent handle out => exact steady.ntPulseEvent handle out
  | ntWaitForSingleObject handle alertable timeout =>
    exact steady.waitForSingle timeout (fun ptr found => steady.ok.waitable_handle found)
  | ntWaitForSingleObjectEx handle mode alertable timeout =>
    exact steady.waitForSingle timeout (fun ptr found => steady.ok.waitable_handle found)
  | ntWaitForMultipleObjectsEx count handles waitType mode alertable timeout =>
    exact steady.ntWaitForMultipleObjectsEx count handles waitType timeout
  | ntCreateMutant out attributes initialOwner => exact steady.ntCreateMutant out initialOwner
  | ntReleaseMutant handle out => exact steady.ntReleaseMutant handle out
  | ntQueryMutant handle information => exact steady.ntQueryMutant handle information
  | keInitializeMutant mutant initialOwner => exact steady.keInitializeMutant mutant initialOwner
  | keReleaseMutant mutant increment abandoned wait => exact steady.keReleaseMutant mutant
  | ntCreateSemaphore out attributes initial maximum => exact steady.ntCreateSemaphore out initial maximum
  | ntReleaseSemaphore handle releaseCount out => exact steady.ntReleaseSemaphore handle releaseCount out
  | ntQuerySemaphore handle information => exact Steady.ntQuerySemaphore handle information
  | keInitializeSemaphore semaphore count limit => exact Steady.keInitializeSemaphore semaphore count limit
  | keReleaseSemaphore semaphore increment adjustment wait => exact steady.keReleaseSemaphore semaphore adjustment
  | keGetCurrentThread => exact steady.currentThreadToken.1.path.mono (by simp [labelsOf])
  | keSetBasePriorityThread thread increment => exact steady.keSetBasePriorityThread thread increment
  | psCreateSystemThreadEx request => exact steady.psCreateSystemThreadEx request
  | psTerminateSystemThread exitStatus => exact steady.psTerminateSystemThread exitStatus
  | ntClose handle => exact Steady.ntClose handle
  | ntResumeThread handle out => exact steady.ntResumeThread handle out
  | keResumeThread thread => exact steady.keResumeThread thread
  | ntSuspendThread handle out => exact (steady.ntSuspendThread handle out).path
  | keSuspendThread thread => exact (steady.keSuspendThread thread).path
  | ntYieldExecution =>
    rcases self with self | never
    · exact steady.ntYieldExecution self
    · cases never
  | rtlInitializeCriticalSection va => exact Steady.csInit va
  | rtlEnterCriticalSection va => exact steady.csEnter va
  | rtlLeaveCriticalSection va => exact Steady.csLeave va
  | rtlTryEnterCriticalSection va => exact Steady.csTryEnter va

end XboxKrnl

end SeriesxEmu
