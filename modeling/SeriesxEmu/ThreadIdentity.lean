import SeriesxEmu.Words

/-!
# The thread objects of a fiber

A fiber is known by the identity that `ensure_thread_object` makes on first use
and, when `PsCreateSystemThreadEx` has made it, by the object in the handle
table. The lookup that makes identities never consults the handle table, so the
two are always different objects.
-/

namespace SeriesxEmu

open Scheduler GuestScheduler

namespace XboxKrnl

variable {krnl : XboxKrnl}

/-- All ways to the thread object of a fiber lead to the same object: the token that
`current_thread_token` gives the fiber and `find_thread_by_id` reads back,
`find_thread_by_fiber` before and after that token is made, and the handle table.
The last two know the fiber by 32 bits of its handle. -/
def OneThread (krnl : XboxKrnl) (fiber : Nat) : Prop :=
  let (identified, self) := krnl.ensureThreadObject fiber
  identified.findThreadById (identified.object self).thread.threadId = some self ∧
    identified.findThreadByFiber (word fiber) = some self ∧
    (∀ ptr, krnl.findThreadByFiber (word fiber) = some ptr → ptr = self) ∧
    ∀ ptr, krnl.TabledThread (word fiber) ptr → ptr = self

/-- An identity is found by its identifier. -/
theorem findThreadById_identity (ok : krnl.registry.Ok) {fiber : Nat} {self : Ptr}
    (identity : krnl.fiberThread? fiber = some self) :
    krnl.findThreadById (krnl.object self).thread.threadId = some self := by
  obtain ⟨_, object, live, kind, _⟩ := live_of_identity ok identity
  have positive := (ok.threadIds self _ (krnl.shapes_eq _ _ live) kind).1
  have identified : object.thread.threadId ≠ 0 := Nat.pos_iff_ne_zero.mp positive
  have member : self ∈ krnl.fiberThreads.map Prod.snd :=
    List.mem_map.mpr ⟨(fiber, self), krnl.fiberThread?_member _ _ identity, rfl⟩
  rw [krnl.object_eq _ _ live]
  cases found : (krnl.fiberThreads.map Prod.snd).find? (fun ptr =>
      (krnl.object ptr).thread.threadId == object.thread.threadId) with
  | none =>
    have missing := List.find?_eq_none.mp found self member
    simp [krnl.object_eq _ _ live] at missing
  | some other =>
    obtain ⟨⟨owner, ptr⟩, entry, rfl⟩ := List.mem_map.mp (List.mem_of_find?_eq_some found)
    obtain ⟨_, rival, there, rivalKind, _⟩ := live_of_identity ok (fiberThread?_of_member ok entry)
    have same := List.find?_some found
    simp only [krnl.object_eq _ _ there, beq_iff_eq] at same
    have equal := ok.idsDistinct ptr self _ _ (krnl.shapes_eq _ _ there) (krnl.shapes_eq _ _ live)
      rivalKind kind same
    subst equal
    simp [findThreadById, identified, found]

/-- What `ensure_thread_object` returns is the identity of the fiber afterwards. -/
theorem ensureThreadObject_identity (ok : krnl.registry.Ok) {fiber : Nat} (positive : fiber ≠ 0) :
    (krnl.ensureThreadObject fiber).1.registry.Ok ∧
      (krnl.ensureThreadObject fiber).1.fiberThread? fiber = some (krnl.ensureThreadObject fiber).2 := by
  cases identity : krnl.fiberThread? fiber with
  | some self =>
    have same : krnl.ensureThreadObject fiber = (krnl, self) := by simp [ensureThreadObject, identity]
    rw [same]
    exact ⟨ok, identity⟩
  | none =>
    have nextOk := identified_ok ok positive identity
    refine ⟨nextOk, fiberThread?_of_member nextOk ?_⟩
    rw [krnl.registry_identify _ identity, krnl.ensureThreadObject_new _ identity]
    simp

/-- The identity is none of the objects in the handle table. -/
theorem ensureThreadObject_not_tabled (ok : krnl.registry.Ok) {fiber : Nat} {ptr : Ptr}
    (tabled : krnl.TabledThread fiber ptr) : ptr ≠ (krnl.ensureThreadObject fiber).2 := by
  obtain ⟨⟨slot, found⟩, object, live, _⟩ := tabled
  cases identity : krnl.fiberThread? fiber with
  | some self =>
    have same : (krnl.ensureThreadObject fiber).2 = self := by simp [ensureThreadObject, identity]
    rw [same]
    rintro rfl
    exact (ok.identities _ _ (krnl.fiberThread?_member _ _ identity)).2.2 slot found
  | none =>
    rw [krnl.ensureThreadObject_new fiber identity]
    exact Nat.ne_of_lt (krnl.object?_inside _ _ live)

/-- In every state reached by a run whose handles and identifiers fit, the ways to the thread
object of a fiber agree exactly when the handle table has no thread object for the fiber.

Proof: the identity is found by its identifier and by its fiber. The handle table has none of the
identities, so an object of the fiber in it is a second one. -/
theorem oneThread_iff_untabled {actions : List Action} (run : krnl.WordRun (fun krnl _ => krnl.Roomy) actions)
    {fiber : Fiber} (member : fiber ∈ krnl.sched.threads) :
    krnl.OneThread fiber.handle ↔ ∀ ptr, ¬ krnl.TabledThread (word fiber.handle) ptr := by
  have steady := (run.reachesUnder (fun _ _ roomy => roomy)).steady
  have ok := steady.ok.registry
  have each := steady.ok.fibers.each fiber member
  have positive := each.positive
  have small : fiber.handle < 2 ^ 32 :=
    Nat.lt_of_lt_of_le each.below (run.fits (fun _ _ roomy => roomy)).handles
  obtain ⟨nextOk, identity⟩ := ensureThreadObject_identity ok positive
  rw [OneThread, word_eq small]
  constructor
  · rintro ⟨_, _, _, agrees⟩ ptr tabled
    exact ensureThreadObject_not_tabled ok tabled (agrees ptr tabled)
  · intro untabled
    refine ⟨findThreadById_identity nextOk identity, findThreadByFiber_identity nextOk identity, ?_,
      fun ptr tabled => absurd tabled (untabled ptr)⟩
    intro ptr found
    rcases (findThreadByFiber_live ok found).2.1 with same | ⟨_, tabled⟩
    · simp [same]
    · exact absurd tabled (untabled ptr)

/-- A host that creates a system thread and a native fiber. -/
def twoFibers : List Action :=
  [.call (.psCreateSystemThreadEx { threadHandle := 16, startRoutine := 4096 }), .spawn 0 (some 0)]

/-- The native fiber has one thread object. -/
theorem oneThread_native : (wordAfter true twoFibers).OneThread 2 := by
  have run := wordRun_after (fun krnl _ => krnl.Roomy) true twoFibers (by decide +kernel) (by decide +kernel)
  have found : (wordAfter true twoFibers).sched.threads[1]?.map GuestThread.handle = some 2 := by decide +kernel
  obtain ⟨fiber, here, handle⟩ := Option.map_eq_some_iff.mp found
  rw [← handle]
  refine (oneThread_iff_untabled run (List.mem_of_getElem? here)).mpr ?_
  rintro ptr ⟨tabled, object, live, _, own⟩
  have table : (wordAfter true twoFibers).objects.filterMap id = [0] := by decide +kernel
  have only := (tabled_member _ ptr).mpr tabled
  rw [table] at only
  obtain rfl := List.mem_singleton.mp only
  have first : ((wordAfter true twoFibers).object 0).thread.schedHandle = 1 := by decide +kernel
  rw [object_eq _ _ _ live, own, handle] at first
  cases first

/-- The system thread has two: its token leads past the object in the handle table. -/
theorem oneThread_fails : ¬ ∀ (krnl : XboxKrnl) actions, krnl.WordRun (fun _ _ => True) actions →
    ∀ fiber ∈ krnl.sched.threads, krnl.OneThread fiber.handle := by
  intro always
  have run := wordRun_after (fun _ _ => True) true twoFibers (by decide +kernel) (Runs.along_true _ _)
  have found : (wordAfter true twoFibers).sched.threads[0]?.map GuestThread.handle = some 1 := by decide +kernel
  obtain ⟨fiber, here, handle⟩ := Option.map_eq_some_iff.mp found
  have agrees := always _ _ run fiber (List.mem_of_getElem? here)
  rw [handle] at agrees
  have tabled : (wordAfter true twoFibers).TabledThread 1 0 :=
    ⟨⟨0, by decide +kernel⟩, (wordAfter true twoFibers).object 0, by decide +kernel, by decide +kernel,
      by decide +kernel⟩
  have same : 0 = ((wordAfter true twoFibers).ensureThreadObject 1).2 := agrees.2.2.2 0 tabled
  have different : ((wordAfter true twoFibers).ensureThreadObject 1).2 = 1 := by decide +kernel
  rw [different] at same
  cases same

end XboxKrnl

end SeriesxEmu
