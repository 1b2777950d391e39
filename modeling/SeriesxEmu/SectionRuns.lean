import SeriesxEmu.CriticalSections

/-!
# Critical sections over whole runs

The calls on a critical section keep its invariant: entering, leaving and trying
by a running fiber, and going on after a wake-up. Every other action leaves the
section and its contenders alone. So the invariant holds in every state of a run
that starts with the initialisation of the section. A fiber whose handle is a
multiple of 2^32 shows what the condition on handles is for: it is inside, and
the section looks free.
-/

namespace SeriesxEmu

open Scheduler GuestScheduler

namespace XboxKrnl

variable {krnl next : XboxKrnl} {va : Nat} {depth : Nat → Int} {lock recursion : Int} {owner : Nat}

/-! ## The calls on the section -/

/-- One more entry of a fiber. -/
def deeper (depth : Nat → Int) (fiber : Nat) (change : Int) (other : Nat) : Int :=
  depth other + if fiber = other then change else 0

/-- The signed fields are in the range of an `int32_t`. -/
theorem csFields_bounds (fields : krnl.csFields va = some (lock, recursion, owner)) :
    -2 ^ 31 ≤ lock ∧ lock < 2 ^ 31 ∧ -2 ^ 31 ≤ recursion ∧ recursion < 2 ^ 31 := by
  obtain ⟨lockWord, recursionWord, _, _, _, rfl, rfl⟩ := csFields_some.mp fields
  unfold int32
  omega

/-- A reply touches neither the fields nor the scheduler. -/
theorem csFields_deliver (krnl : XboxKrnl) (va : Nat) (reply : Option Reply) :
    (krnl.deliver reply).csFields va = krnl.csFields va ∧ (krnl.deliver reply).sched = krnl.sched := by
  cases reply <;> exact ⟨rfl, rfl⟩

/-- The running fiber is no contender. -/
theorem Steady.handle_ne (steady : krnl.Steady) (inFiber : krnl.currentHandle ≠ 0) {fiber : Fiber}
    (member : fiber ∈ krnl.sched.threads) (contends : fiber.contends va = true) :
    fiber.handle ≠ krnl.currentHandle := by
  intro same
  obtain ⟨current, running, guest⟩ := steady.fiber inFiber
  rw [currentHandle_of_fiber running] at same
  obtain rfl := steady.ok.fibers.unique member (steady.ok.running running).1 same
  simp [Fiber.contends, guest] at contends

/-- A fiber that owns the section goes in once more. -/
theorem SectionHeld.deepen (held : krnl.SectionHeld va depth lock recursion owner) (taken : owner ≠ 0)
    {change : Int} (fields : next.csFields va = some (lock, recursion + change, owner))
    (threads : next.sched.threads = krnl.sched.threads) (positive : 0 < recursion + change) :
    next.SectionOk va (deeper depth owner change) lock (recursion + change) owner := by
  obtain ⟨alive, _, own, others⟩ := held.inside taken
  refine ⟨⟨fields, fun free => absurd free taken, fun _ => ⟨?_, positive, ?_, fun fiber other => ?_⟩, ?_, ?_⟩,
    fun free => absurd free taken⟩
  · rw [threads]
    exact alive
  · simp [deeper, own]
  · simp [deeper, others fiber other, Ne.symm other]
  · rw [threads]
    exact held.waiters
  · rw [threads]
    exact held.contenders

/-- The running fiber takes a free section. -/
theorem SectionHeld.take (held : krnl.SectionHeld va depth lock recursion 0) (steady : krnl.Steady)
    (inFiber : krnl.currentHandle ≠ 0) (threads : next.sched.threads = krnl.sched.threads)
    (fields : next.csFields va = some (lock, 1, krnl.currentHandle)) :
    next.SectionOk va (deeper depth krnl.currentHandle 1) lock 1 krnl.currentHandle := by
  obtain ⟨_, outside⟩ := held.free rfl
  obtain ⟨fiber, running, _⟩ := steady.fiber inFiber
  refine ⟨⟨fields, fun free => absurd free inFiber, fun _ => ⟨?_, by decide, ?_, fun other different => ?_⟩, ?_, ?_⟩,
    fun free => absurd free inFiber⟩
  · rw [threads, currentHandle_of_fiber running]
    exact ⟨fiber, (steady.ok.running running).1, rfl⟩
  · simp [deeper, outside]
  · simp [deeper, outside, Ne.symm different]
  · rw [threads]
    exact held.waiters
  · intro contender member contends
    rw [threads] at member
    obtain ⟨_, rest⟩ := held.contenders contender member contends
    exact ⟨steady.handle_ne inFiber member contends, rest⟩

/-- The running fiber counts itself in and blocks. -/
theorem SectionHeld.block (held : krnl.SectionHeld va depth lock recursion owner) (steady : krnl.Steady)
    (inFiber : krnl.currentHandle ≠ 0) (small : krnl.currentHandle < 2 ^ 32) (taken : owner ≠ 0)
    (other : owner ≠ krnl.currentHandle) {ram : XbeRam}
    (fields : { krnl with ram }.csFields va = some (lock + 1, recursion, owner)) :
    ({ krnl with ram }.blockCurrent (.criticalSection va) kNoTimeout (.csEnter va)).SectionOk va depth (lock + 1)
      recursion owner := by
  obtain ⟨fiber, running, guest⟩ := steady.fiber inFiber
  obtain ⟨index, switched, found⟩ := currentFiber_index running
  have handle := currentHandle_of_fiber running
  have still : { krnl with ram }.sched.current = some index := switched
  rw [blockCurrent_eq still]
  refine ⟨⟨fields, fun free => absurd free taken, fun _ => ?_, ?_, fun contender member contends => ?_⟩,
    fun free => absurd free taken⟩
  · obtain ⟨⟨inside, member, same⟩, rest⟩ := held.inside taken
    obtain ⟨position, there⟩ := List.mem_iff_getElem?.mp member
    have elsewhere : index ≠ position := by
      rintro rfl
      obtain rfl := Option.some.inj (found.symm.trans there)
      exact other (same.symm.trans handle.symm)
    refine ⟨⟨inside, List.mem_of_getElem? (i := position) ?_, same⟩, rest⟩
    simp [GuestScheduler.switchToScheduler, GuestScheduler.modifyThread, elsewhere, there]
  · have more := Counting.countP_modify (Fiber.stuck va)
      (blockedAt krnl.sched.tick (.criticalSection va) kNoTimeout (.csEnter va)) found
    have before : Fiber.stuck va fiber = false := by simp [Fiber.stuck, Fiber.contends, guest]
    have after : Fiber.stuck va (blockedAt krnl.sched.tick (.criticalSection va) kNoTimeout (.csEnter va) fiber) =
        true := by simp [Fiber.stuck, Fiber.contends, blockedAt]
    have count := held.waiters
    simp only [before, after, Bool.false_eq_true, ↓reduceIte, Nat.add_zero] at more
    simp only [GuestScheduler.switchToScheduler, GuestScheduler.modifyThread, more]
    omega
  · obtain ⟨position, there⟩ := List.mem_iff_getElem?.mp member
    simp only [GuestScheduler.switchToScheduler, GuestScheduler.modifyThread, List.getElem?_modify] at there
    by_cases here : index = position
    · subst here
      simp only [found, ↓reduceIte, Option.map_eq_map, Option.map_some, Option.some.injEq] at there
      subst there
      refine ⟨?_, ?_, rfl, Or.inr ⟨rfl, by simp [blockedAt]⟩⟩
      · intro same
        exact other (same.symm.trans handle.symm)
      · rw [handle] at small
        exact small
    · simp only [here, ↓reduceIte, Option.map_eq_map, Option.map_id_fun', id_eq] at there
      exact held.contenders contender (List.mem_of_getElem? there) contends

/-- The section is left for good. -/
theorem SectionHeld.release (held : krnl.SectionHeld va depth lock 1 owner) (ok : krnl.Ok) (taken : owner ≠ 0)
    (fields : next.csFields va = some (lock, 0, 0)) (threads : next.sched.threads = krnl.sched.threads) :
    next.SectionHeld va (deeper depth owner (-1)) lock 0 0 := by
  obtain ⟨_, _, own, others⟩ := held.inside taken
  refine ⟨fields, fun _ => ⟨rfl, fun fiber => ?_⟩, fun absent => absurd rfl absent, ?_, ?_⟩
  · by_cases same : owner = fiber
    · simp [deeper, ← same, own]
    · simp [deeper, same, others fiber (Ne.symm same)]
  · rw [threads]
    exact held.waiters
  · intro contender member contends
    rw [threads] at member
    obtain ⟨_, rest⟩ := held.contenders contender member contends
    exact ⟨(ok.fibers.each contender member).positive, rest⟩

/-- A free section with blocked fibers wakes the first of them. -/
theorem SectionHeld.wake (held : krnl.SectionHeld va depth lock 0 0) (ok : krnl.Ok) (waiting : 0 ≤ lock)
    {ram : XbeRam} (fields : { krnl with ram }.csFields va = some (lock - 1, 0, 0)) :
    ({ krnl with ram }.signal (.criticalSection va) false).1.SectionOk va depth (lock - 1) 0 0 := by
  have count := held.waiters
  have stuck : 0 < krnl.sched.threads.countP (Fiber.stuck va) := by omega
  obtain ⟨member, present, isStuck⟩ := List.countP_pos_iff.mp stuck
  obtain ⟨index, fiber, found, blocked, first⟩ := first_blocked (.criticalSection va) krnl.sched.threads
    ⟨member, present, (ok.stuck_iff present).mpr isStuck⟩
  have inside := (List.getElem?_eq_some_iff.mp found).1
  have listed := List.mem_of_getElem? found
  have wasStuck := (ok.stuck_iff listed).mp blocked
  have contends : Fiber.contends va fiber = true := by
    simp only [Fiber.stuck, Bool.and_eq_true] at wasStuck
    exact wasStuck.2
  have signaled := signalThreads_first (.criticalSection va) krnl.sched.threads index fiber found blocked first
  have threads : ({ krnl with ram }.signal (.criticalSection va) false).1.sched.threads =
      krnl.sched.threads.set index fiber.wake := congrArg Prod.fst signaled
  have woken : fiber.wake ∈ krnl.sched.threads.set index fiber.wake := List.mem_set inside _
  refine ⟨⟨fields, fun _ => ⟨rfl, (held.free rfl).2⟩, fun absent => absurd rfl absent, ?_, ?_⟩, fun _ _ => ?_⟩
  · have fewer := List.countP_set (p := Fiber.stuck va) (a := fiber.wake) inside
    have awake : Fiber.stuck va fiber.wake = false := by simp [Fiber.stuck, GuestThread.wake]
    have here : krnl.sched.threads[index] = fiber := (List.getElem?_eq_some_iff.mp found).2
    rw [threads, fewer, here, wasStuck, awake]
    simp only [↓reduceIte, Bool.false_eq_true]
    omega
  · intro contender member also
    rw [threads] at member
    rcases List.mem_or_eq_of_mem_set member with old | rfl
    · exact held.contenders contender old also
    · obtain ⟨handle, small, _, _⟩ := held.contenders fiber listed contends
      exact ⟨handle, small, rfl, Or.inl rfl⟩
  · rw [threads]
    exact ⟨fiber.wake, woken, contends, rfl⟩

/-- Guest memory has no part in the machine's invariant. -/
theorem Ok.stored (ok : krnl.Ok) (ram : XbeRam) : { krnl with ram }.Ok :=
  Effect.sound ok (.compute ram krnl.filetime) trivial

/-- The call has kept the section, and changed the depth of its caller by this much. -/
structure Serves (va : Nat) (depth : Nat → Int) (krnl : XboxKrnl) (outcome : XboxKrnl × Option Reply)
    (change : Int) : Prop where
  history : outcome.1.history = krnl.history
  handle : outcome.2 ≠ none → outcome.1.currentHandle = krnl.currentHandle
  kept : ∃ lock recursion owner,
    outcome.1.SectionOk va (deeper depth krnl.currentHandle change) lock recursion owner

/-- A depth that does not change is the same. -/
theorem deeper_zero (depth : Nat → Int) (fiber : Nat) : deeper depth fiber 0 = depth := by
  funext other
  simp [deeper]

section calls

variable (steady : krnl.Steady) (fits : va + kCsSize ≤ 2 ^ 32) (usable : krnl.ram.writable va kCsSize = true)
  (inFiber : krnl.currentHandle ≠ 0)

include steady fits usable inFiber

omit steady in
/-- The owner is let in once more. -/
theorem SectionHeld.serves_again (held : krnl.SectionHeld va depth lock recursion owner)
    (own : owner = krnl.currentHandle) (shallow : recursion + 1 < 2 ^ 31) (reply : Reply) :
    Serves va depth krnl (krnl.write32 (at32 va kCsRecursion) (uint32 (recursion + 1)), some reply) 1 := by
  have bounds := csFields_bounds held.fields
  have fields := csFields_recursion fits usable held.fields (show -2 ^ 31 ≤ recursion + 1 by omega) (by omega)
  have taken : owner ≠ 0 := by rw [own]; exact inFiber
  have positive := (held.inside taken).2.1
  refine ⟨rfl, fun _ => rfl, lock, recursion + 1, owner, ?_⟩
  rw [← own]
  exact held.deepen taken fields rfl (by omega)

/-- The caller is let in as the first one. -/
theorem SectionHeld.serves_first (held : krnl.SectionHeld va depth lock recursion 0)
    (small : krnl.currentHandle < 2 ^ 32) (reply : Reply) :
    Serves va depth krnl ((krnl.write32 (at32 va kCsOwningThread) krnl.currentHandle).write32
      (at32 va kCsRecursion) 1, some reply) 1 := by
  have fields := csFields_owned fits usable held.fields small (show 1 < 2 ^ 31 by decide)
  exact ⟨rfl, fun _ => rfl, lock, 1, krnl.currentHandle, held.take steady inFiber rfl fields⟩

/-- `cs_enter` lets the caller in or blocks it. -/
theorem SectionHeld.csEnter (held : krnl.SectionHeld va depth lock recursion owner)
    (small : krnl.currentHandle < 2 ^ 32) (shallow : owner = krnl.currentHandle → recursion + 1 < 2 ^ 31)
    (few : krnl.sched.threads.countP (Fiber.stuck va) < 2 ^ 31) :
    ∃ change, Serves va depth krnl (krnl.csEnter va) change ∧
      (((krnl.csEnter va).2 = some { value := 0 } ∧ change = 1) ∨ ((krnl.csEnter va).2 = none ∧ change = 0)) := by
  have bounds := csFields_bounds held.fields
  have count := held.waiters
  by_cases own : owner = krnl.currentHandle
  · have entered : krnl.csEnter va =
        (krnl.write32 (at32 va kCsRecursion) (uint32 (recursion + 1)), some { value := 0 }) := by
      simp [XboxKrnl.csEnter, held.fields, own, inFiber]
    rw [entered]
    exact ⟨1, held.serves_again fits usable inFiber own (shallow own) _, Or.inl ⟨rfl, rfl⟩⟩
  · by_cases free : owner = 0
    · subst free
      have entered : krnl.csEnter va = ((krnl.write32 (at32 va kCsOwningThread) krnl.currentHandle).write32
          (at32 va kCsRecursion) 1, some { value := 0 }) := by
        simp [XboxKrnl.csEnter, held.fields, Ne.symm inFiber]
      rw [entered]
      exact ⟨1, held.serves_first steady fits usable inFiber small _, Or.inl ⟨rfl, rfl⟩⟩
    · have blocked : krnl.csEnter va = ((krnl.write32 (at32 va kCsLockCount) (uint32 (lock + 1))).blockCurrent
          (.criticalSection va) kNoTimeout (.csEnter va), none) := by
        simp [XboxKrnl.csEnter, held.fields, own, free, (inFiber_iff krnl).mpr inFiber]
      have fields := csFields_lock fits usable held.fields (show -2 ^ 31 ≤ lock + 1 by omega) (by omega)
      rw [blocked]
      refine ⟨0, ⟨?_, fun reply => absurd rfl reply, lock + 1, recursion, owner, ?_⟩, Or.inr ⟨rfl, rfl⟩⟩
      · unfold blockCurrent
        split <;> rfl
      · rw [deeper_zero]
        exact held.block steady inFiber small free own fields

/-- `cs_try_enter` lets the caller in or changes nothing. -/
theorem SectionOk.csTryEnter (kept : krnl.SectionOk va depth lock recursion owner)
    (small : krnl.currentHandle < 2 ^ 32) (shallow : owner = krnl.currentHandle → recursion + 1 < 2 ^ 31) :
    ∃ change, Serves va depth krnl (returning (krnl.csTryEnter va)) change ∧
      (((krnl.csTryEnter va).2 = { value := 1 } ∧ change = 1) ∨
        ((krnl.csTryEnter va).2 = { value := 0 } ∧ change = 0)) := by
  have held := kept.toSectionHeld
  obtain ⟨lockWord, recursionWord, _, second, third, _, same⟩ := csFields_some.mp held.fields
  by_cases own : owner = krnl.currentHandle
  · have entered : krnl.csTryEnter va =
        (krnl.write32 (at32 va kCsRecursion) (uint32 (recursion + 1)), { value := 1 }) := by
      simp [XboxKrnl.csTryEnter, second, third, own, inFiber, same]
    rw [entered]
    exact ⟨1, held.serves_again fits usable inFiber own (shallow own) _, Or.inl ⟨rfl, rfl⟩⟩
  · by_cases free : owner = 0
    · subst free
      have entered : krnl.csTryEnter va = ((krnl.write32 (at32 va kCsOwningThread) krnl.currentHandle).write32
          (at32 va kCsRecursion) 1, { value := 1 }) := by
        simp [XboxKrnl.csTryEnter, second, third, Ne.symm inFiber]
      rw [entered]
      exact ⟨1, held.serves_first steady fits usable inFiber small _, Or.inl ⟨rfl, rfl⟩⟩
    · have refused : krnl.csTryEnter va = (krnl, { value := 0 }) := by
        simp [XboxKrnl.csTryEnter, second, third, own, free]
      rw [refused]
      refine ⟨0, ⟨rfl, fun _ => rfl, lock, recursion, owner, ?_⟩, Or.inr ⟨rfl, rfl⟩⟩
      rw [deeper_zero]
      exact kept

/-- `cs_leave` lets the owner out, and changes nothing for anybody else. -/
theorem SectionOk.csLeave (kept : krnl.SectionOk va depth lock recursion owner) :
    ∃ change, Serves va depth krnl (returning (krnl.csLeave va)) change ∧
      (((krnl.csLeave va).2 = { value := 0 } ∧ change = -1) ∨ ((krnl.csLeave va).2 = voidFail ∧ change = 0)) := by
  have held := kept.toSectionHeld
  have bounds := csFields_bounds held.fields
  have count := held.waiters
  by_cases own : owner = krnl.currentHandle
  · have taken : owner ≠ 0 := by rw [own]; exact inFiber
    have positive := (held.inside taken).2.1
    by_cases again : 1 < recursion
    · have left : krnl.csLeave va =
          (krnl.write32 (at32 va kCsRecursion) (uint32 (recursion - 1)), { value := 0 }) := by
        simp [XboxKrnl.csLeave, held.fields, own, again]
      have fields := csFields_recursion fits usable held.fields (show -2 ^ 31 ≤ recursion + -1 by omega) (by omega)
      rw [left]
      refine ⟨-1, ⟨rfl, fun _ => rfl, lock, recursion + -1, owner, ?_⟩, Or.inl ⟨rfl, rfl⟩⟩
      rw [← own]
      exact held.deepen taken fields rfl (by omega)
    · obtain rfl : recursion = 1 := by omega
      have fields := csFields_owned fits usable held.fields (show 0 < 2 ^ 32 by decide) (show 0 < 2 ^ 31 by decide)
      have released := held.release steady.ok taken fields rfl
      by_cases waiting : 0 ≤ lock
      · have left : krnl.csLeave va = (((((krnl.write32 (at32 va kCsOwningThread) 0).write32
            (at32 va kCsRecursion) 0).write32 (at32 va kCsLockCount) (uint32 (lock - 1))).signal
              (.criticalSection va) false).1, { value := 0 }) := by
          simp [XboxKrnl.csLeave, held.fields, own, waiting]
        have still : ((krnl.write32 (at32 va kCsOwningThread) 0).write32 (at32 va kCsRecursion) 0).ram.writable
            va kCsSize = true :=
          (XbeRam.writable_write32 _ _ _).trans ((XbeRam.writable_write32 _ _ _).trans usable)
        have counted := csFields_lock fits still fields (show -2 ^ 31 ≤ lock - 1 by omega) (by omega)
        rw [left]
        refine ⟨-1, ⟨rfl, fun _ => ?_, lock - 1, 0, 0, ?_⟩, Or.inl ⟨rfl, rfl⟩⟩
        · exact Effect.currentHandle_apply (steady.ok.stored _) (show (Effect.leaveSection va).Allowed _ from trivial)
            (by simp [Effect.label]) rfl
        · rw [← own]
          exact released.wake (steady.ok.stored _) waiting counted
      · have left : krnl.csLeave va =
            ((krnl.write32 (at32 va kCsOwningThread) 0).write32 (at32 va kCsRecursion) 0, { value := 0 }) := by
          simp [XboxKrnl.csLeave, held.fields, own, waiting]
        rw [left]
        refine ⟨-1, ⟨rfl, fun _ => rfl, lock, 0, 0, ?_⟩, Or.inl ⟨rfl, rfl⟩⟩
        rw [← own]
        exact ⟨released, fun _ blocked => absurd (by omega) blocked⟩
  · have refused : krnl.csLeave va = (krnl, voidFail) := by simp [XboxKrnl.csLeave, held.fields, own]
    rw [refused]
    refine ⟨0, ⟨rfl, fun _ => rfl, lock, recursion, owner, ?_⟩, Or.inr ⟨rfl, rfl⟩⟩
    rw [deeper_zero]
    exact kept

end calls

/-! ## A turn of the run loop -/

/-- The wake passes leave the contenders alone while no deadline is due. -/
theorem SectionHeld.unpassed (held : krnl.SectionHeld va depth lock recursion owner)
    (clock : uint64Max ≤ krnl.sched.tick → krnl.sched.threads.countP (Fiber.stuck va) = 0) {fiber : Fiber}
    (member : fiber ∈ krnl.sched.threads) (contends : fiber.contends va = true) :
    timeOutWait krnl.sched.tick (wakeSleeper krnl.sched.tick (krnl.sched.unblockJoin fiber)) = fiber := by
  obtain ⟨_, _, _, ready | ⟨blocked, deadline⟩⟩ := held.contenders fiber member contends
  · simp [unblockJoin, wakeSleeper, timeOutWait, ready]
  · have early : ¬ uint64Max ≤ krnl.sched.tick := by
      intro late
      have untimed := List.countP_eq_zero.mp (clock late) fiber member
      simp [Fiber.stuck, blocked, contends] at untimed
    simp [unblockJoin, wakeSleeper, timeOutWait, blocked, deadline, early]

section turns

variable (held : krnl.SectionHeld va depth lock recursion owner) (idle : krnl.sched.current = none)
  (clock : uint64Max ≤ krnl.sched.tick → krnl.sched.threads.countP (Fiber.stuck va) = 0)

include held idle clock

/-- A contender after the turn that was not switched in was the same before. -/
theorem turn_contender {index : Nat} {fiber : Fiber} (contends : fiber.contends va = true)
    (found : ((Effect.turn).apply krnl).sched.threads[index]? = some fiber)
    (elsewhere : ((Effect.turn).apply krnl).sched.current ≠ some index) :
    krnl.sched.threads[index]? = some fiber := by
  obtain ⟨earlier, passed, before, passes, ⟨rfl, _⟩ | ⟨switched, _⟩⟩ := Effect.turn_origin idle found
  · have also : Fiber.contends va earlier = true := by
      rw [Fiber.contends, ← passes.same.2.1]
      exact contends
    have same := held.unpassed clock (List.mem_of_getElem? before) also
    rcases Effect.turn_kept before idle same with ⟨here, _⟩ | ⟨_, switched, _⟩
    · rw [Option.some.inj (found.symm.trans here)]
      exact before
    · exact absurd switched elsewhere
  · exact absurd switched elsewhere

omit held clock in
/-- No fiber is lost in a turn. -/
theorem turn_handles (ok : krnl.Ok) (fiber : Fiber) (member : fiber ∈ krnl.sched.threads) :
    ∃ later ∈ ((Effect.turn).apply krnl).sched.threads, later.handle = fiber.handle := by
  obtain ⟨later, found, same, _⟩ := Effect.fiber_lasts ok (show (Effect.turn).Allowed krnl from idle)
    (by simp [Effect.label]) member
  exact ⟨later, found, same⟩

/-- A turn that switches in another fiber leaves the contenders alone. -/
theorem turn_bystands (ok : krnl.Ok)
    (elsewhere : ∀ fiber, ((Effect.turn).apply krnl).currentFiber = some fiber → Fiber.contends va fiber = false) :
    Bystands va krnl ((Effect.turn).apply krnl) := by
  have other : ∀ {index : Nat} {fiber : Fiber}, fiber.contends va = true →
      ((Effect.turn).apply krnl).sched.threads[index]? = some fiber →
      ((Effect.turn).apply krnl).sched.current ≠ some index := by
    intro index fiber contends found switched
    have running : ((Effect.turn).apply krnl).currentFiber = some fiber := by simp [currentFiber, switched, found]
    rw [elsewhere fiber running] at contends
    cases contends
  refine .intro (fun index fiber contends => ⟨fun found => ?_, fun found => ?_⟩) (turn_handles idle ok)
  · have same := held.unpassed clock (List.mem_of_getElem? found) contends
    rcases Effect.turn_kept found idle same with ⟨here, _⟩ | ⟨here, switched, _⟩
    · exact here
    · exact absurd switched (other (show Fiber.contends va (switchedIn fiber) = true from contends) here)
  · exact turn_contender held idle clock contends found (other contends found)

/-- A fiber that is switched in and goes on was not blocked. -/
theorem turn_attends (ok : krnl.Ok) (proceeds : (Effect.proceed).Allowed ((Effect.turn).apply krnl)) :
    Attends va krnl ((Effect.proceed).apply ((Effect.turn).apply krnl)) := by
  have turnedOk := Effect.sound ok .turn idle
  have quiet : (Effect.proceed).label ≠ .loop := by simp [Effect.label]
  refine ⟨fun index fiber contends found => ?_, fun index fiber stuck found => ?_, fun fiber member => ?_⟩
  · rcases Effect.fiber_origin turnedOk proceeds quiet found with ⟨earlier, before, fate⟩ | ⟨_, spawned⟩
    · rcases fate with ⟨_, rfl⟩ | ⟨switched, rfl | ⟨_, signals, _⟩⟩
      · simp [Fiber.contends, Effect.moves] at contends
      · exact turn_contender held idle clock contends before switched
      · exact signals.elim
    · exact spawned.elim
  · have same := held.unpassed clock (List.mem_of_getElem? found) (contends_of_stuck stuck)
    rcases Effect.turn_kept found idle same with ⟨here, elsewhere⟩ | ⟨_, _, ready⟩
    · obtain ⟨after, later, ⟨switched, _⟩ | ⟨_, rfl | ⟨_, signals, _⟩⟩⟩ :=
        Effect.fiber_fate turnedOk proceeds quiet here
      · exact absurd switched elsewhere
      · exact later
      · exact signals.elim
    · simp [Fiber.stuck, ready] at stuck
  · obtain ⟨later, found, same⟩ := turn_handles idle ok fiber member
    obtain ⟨latest, there, again, _⟩ := Effect.fiber_lasts turnedOk proceeds (by simp [Effect.label]) found
    exact ⟨latest, there, again.trans same⟩

end turns

/-! ## Sections elsewhere -/

/-- A store and an effect that spares the section leave the contenders alone. -/
theorem Steady.bystands_stored (steady : krnl.Steady) (channels : krnl.Channels) (ram : XbeRam) (effect : Effect)
    (allowed : effect.Allowed { krnl with ram }) (spares : effect.spares va = true) :
    Bystands va krnl (effect.apply { krnl with ram }) := by
  have elsewhere : ∀ fiber, krnl.currentFiber = some fiber → Fiber.contends va fiber = false := by
    intro fiber running
    simp [Fiber.contends, steady.guest fiber running]
  have stored : Bystands va krnl { krnl with ram } := .of_threads rfl
  exact stored.trans ((steady.ok.stored ram).bystands channels allowed spares elsewhere)

/-- Entering another section leaves the contenders of this one alone. -/
theorem Steady.csEnter_other (steady : krnl.Steady) (channels : krnl.Channels) {addr : Nat} (other : addr ≠ va) :
    Bystands va krnl (krnl.csEnter addr).1 := by
  unfold XboxKrnl.csEnter
  split
  · exact .of_threads rfl
  · simp only
    split
    · exact .of_threads rfl
    · split
      · exact .of_threads rfl
      · split
        · exact .of_threads rfl
        · rename_i inFiber
          have current := steady.fiber (by simpa [inFiber_iff] using inFiber)
          exact steady.bystands_stored channels _ (.block (.criticalSection addr) kNoTimeout (.csEnter addr))
            ⟨current, rfl⟩ (by simpa [Effect.spares] using other)

/-- Leaving another section leaves the contenders of this one alone. -/
theorem Steady.csLeave_other (steady : krnl.Steady) (channels : krnl.Channels) {addr : Nat} (other : addr ≠ va) :
    Bystands va krnl (krnl.csLeave addr).1 := by
  unfold XboxKrnl.csLeave
  split
  · exact .of_threads rfl
  · split
    · exact .of_threads rfl
    · split
      · exact .of_threads rfl
      · simp only
        split
        · exact steady.bystands_stored channels _ (.leaveSection addr) trivial (by simpa [Effect.spares] using other)
        · exact .of_threads rfl

/-- A reply stands by. -/
theorem deliver_bystands (krnl : XboxKrnl) (reply : Option Reply) : Bystands va krnl (krnl.deliver reply) :=
  .of_threads (congrArg GuestScheduler.threads (krnl.csFields_deliver va reply).2)

/-- An action that is not a call on the section and resumes no contender leaves the
contenders alone. -/
theorem SectionHeld.step_other (held : krnl.SectionHeld va depth lock recursion owner) (steady : krnl.Steady)
    (channels : krnl.Channels) {action : Action} (elsewhere : action.callsSection va = false)
    (resumes : krnl.reenters va action = false)
    (clock : action.turns = true → uint64Max ≤ krnl.sched.tick →
      krnl.sched.threads.countP (Fiber.stuck va) = 0)
    (stepped : krnl.step action = some next) : Bystands va krnl next := by
  have path := (steady.step stepped).1
  cases action with
  | turn =>
    obtain ⟨idle, outcome⟩ := turn_cases stepped
    have absent : ∀ fiber, ((Effect.turn).apply krnl).currentFiber = some fiber → Fiber.contends va fiber = false := by
      intro fiber running
      have same : krnl.reenters va .turn = ((Effect.turn).apply krnl).currentFiber.any (Fiber.contends va) := rfl
      rw [same, running] at resumes
      exact resumes
    have turned := turn_bystands held idle (clock rfl) steady.ok absent
    rcases outcome with ⟨rfl, _⟩ | ⟨fiber, running, resumed⟩
    · exact turned
    · have ok := Effect.sound steady.ok .turn idle
      have turnedChannels := channels.effect steady.ok (show (Effect.turn).Allowed krnl from idle)
      obtain ⟨effect, labeled, allowed, entered, rest⟩ := ok.resumes_first (ok.resume running resumed)
      have first := ok.bystands turnedChannels allowed
        (Effect.spares_of_label (by simp [labeled]) (by simp [labeled]) va) absent
      have enteredChannels := turnedChannels.effect ok allowed
      refine (turned.trans first).trans ?_
      rcases rest with path | ⟨addr, point, rfl, rfl⟩
      · exact entered.bystands_path enteredChannels path (by simp [wakeLabels, proceedLabels])
          (by simp [wakeLabels, proceedLabels])
      · have other : addr ≠ va := by simpa [Fiber.contends, point] using absent fiber running
        exact (entered.csEnter_other enteredChannels other).trans (deliver_bystands _ _)
  | call call =>
    cases call with
    | rtlEnterCriticalSection addr =>
      obtain ⟨_, _, rfl⟩ := call_cases stepped
      have other : addr ≠ va := by
        simpa [Action.callsSection, Action.entersSection, Action.leavesSection] using elsewhere
      have refreshed := channels.path steady.ok
        (refreshData_path krnl (List.mem_singleton.mpr rfl : Label.waiting ∈ [Label.waiting]))
      exact ((Bystands.of_threads (by rw [refreshData_sched])).trans
        (steady.refreshed.csEnter_other refreshed other)).trans (deliver_bystands _ _)
    | rtlLeaveCriticalSection addr =>
      obtain ⟨_, _, rfl⟩ := call_cases stepped
      have other : addr ≠ va := by
        simpa [Action.callsSection, Action.entersSection, Action.leavesSection] using elsewhere
      have refreshed := channels.path steady.ok
        (refreshData_path krnl (List.mem_singleton.mpr rfl : Label.waiting ∈ [Label.waiting]))
      exact ((Bystands.of_threads (by rw [refreshData_sched])).trans
        (steady.refreshed.csLeave_other refreshed other)).trans (deliver_bystands _ _)
    | _ =>
      exact steady.bystands_path channels path (by simp [actionLabels, labelsOf])
        (by simp [actionLabels, labelsOf])
  | run =>
    obtain ⟨_, _, rfl⟩ := run_cases stepped
    exact .of_threads rfl
  | _ => exact steady.bystands_path channels path (by simp [actionLabels]) (by simp [actionLabels])

/-! ## Every step -/

/-- The change of depth that a reply is worth. -/
def worth (va : Nat) (krnl : XboxKrnl) (action : Action) (reply : Option Reply) : Int :=
  (reply.map (fun reply => krnl.deepens va reply action)).getD 0

/-- The reply that is delivered is on record. -/
theorem delivered_deliver {called : XboxKrnl} (history : called.history = krnl.history) (reply : Option Reply) :
    krnl.delivered (called.deliver reply) = reply.map (fun reply => (called.currentHandle, reply)) := by
  cases reply with
  | none =>
    simp only [deliver, delivered, history, Option.map_none]
    split
    · rename_i listed
      simp [listed]
    · rfl
  | some reply => simp [deliver, note, delivered, history]

/-- A step that ends by serving the section adds the depth its reply is worth. -/
theorem Serves.step {middle : XboxKrnl} {outcome : XboxKrnl × Option Reply} {action : Action}
    (serves : Serves va depth middle outcome (krnl.worth va action outcome.2))
    (history : middle.history = krnl.history)
    (taken : krnl.wordStep action = some (outcome.1.deliver outcome.2)) :
    ∃ lock recursion owner, (outcome.1.deliver outcome.2).SectionOk va (depth + krnl.nesting va action) lock
      recursion owner := by
  have sum : depth + krnl.nesting va action =
      deeper depth middle.currentHandle (krnl.worth va action outcome.2) := by
    funext fiber
    have delivered := delivered_deliver (serves.history.trans history) outcome.2
    simp only [Pi.add_apply, nesting, taken, Option.bind_some, delivered, deeper, worth]
    cases reply : outcome.2 with
    | none => simp
    | some value =>
      have handle := serves.handle (by simp [reply])
      simp [handle]
  obtain ⟨lock, recursion, owner, kept⟩ := serves.kept
  refine ⟨lock, recursion, owner, ?_⟩
  rw [sum]
  exact kept.bystands (deliver_bystands _ _) (outcome.1.csFields_deliver va outcome.2).1

/-- Other actions nest nobody. -/
theorem nesting_other {action : Action} (elsewhere : action.callsSection va = false)
    (resumes : krnl.reenters va action = false) : krnl.nesting va action = 0 := by
  have nothing : ∀ reply, krnl.deepens va reply action = 0 := by
    intro reply
    cases action with
    | call call =>
      cases call with
      | rtlEnterCriticalSection addr =>
        have other : addr ≠ va := by
          simpa [Action.callsSection, Action.entersSection, Action.leavesSection] using elsewhere
        simp [deepens, other]
      | rtlTryEnterCriticalSection addr =>
        have other : addr ≠ va := by
          simpa [Action.callsSection, Action.entersSection, Action.leavesSection] using elsewhere
        simp [deepens, other]
      | rtlLeaveCriticalSection addr =>
        have other : addr ≠ va := by
          simpa [Action.callsSection, Action.entersSection, Action.leavesSection] using elsewhere
        simp [deepens, other]
      | _ => rfl
    | turn => simp [deepens, resumes]
    | _ => rfl
  funext fiber
  simp only [nesting, nothing, ite_self, Pi.zero_apply]
  split <;> rfl

/-- Storing the tick count protects nothing. -/
theorem refreshData_writable (krnl : XboxKrnl) (addr size : Nat) :
    krnl.refreshData.ram.writable addr size = krnl.ram.writable addr size := by
  unfold refreshData
  split
  · exact XbeRam.writable_write32 _ _ _
  · rfl

/-- The three calls on a section. -/
theorem callsSection_cases {action : Action} (calls : action.callsSection va = true) :
    action = .call (.rtlEnterCriticalSection va) ∨ action = .call (.rtlTryEnterCriticalSection va) ∨
      action = .call (.rtlLeaveCriticalSection va) := by
  simp only [Action.callsSection, Bool.or_eq_true] at calls
  rcases calls with enters | leaves
  · unfold Action.entersSection at enters
    split at enters
    · exact Or.inl (by rw [beq_iff_eq.mp enters])
    · exact Or.inr (Or.inl (by rw [beq_iff_eq.mp enters]))
    · cases enters
  · unfold Action.leavesSection at leaves
    split at leaves
    · exact Or.inr (Or.inr (by rw [beq_iff_eq.mp leaves]))
    · cases leaves

/-- Moving on in a call touches neither memory nor history. -/
theorem setPoint_memory (krnl : XboxKrnl) (point : Point) :
    (krnl.setPoint point).ram = krnl.ram ∧ (krnl.setPoint point).history = krnl.history := by
  unfold setPoint
  split <;> exact ⟨rfl, rfl⟩

/-- A contender that is switched in is a fiber with a 32-bit handle that does not own the
section. -/
theorem SectionHeld.turn_handle (held : krnl.SectionHeld va depth lock recursion owner)
    (ok : krnl.Ok) (idle : krnl.sched.current = none) {fiber : Fiber}
    (running : ((Effect.turn).apply krnl).currentFiber = some fiber) (contends : fiber.contends va = true) :
    ((Effect.proceed).apply ((Effect.turn).apply krnl)).currentHandle ≠ 0 ∧
      owner ≠ ((Effect.proceed).apply ((Effect.turn).apply krnl)).currentHandle ∧
      ((Effect.proceed).apply ((Effect.turn).apply krnl)).currentHandle < 2 ^ 32 := by
  obtain ⟨index, switched, found⟩ := currentFiber_index running
  obtain ⟨earlier, passed, before, passes, moved⟩ := Effect.turn_origin idle found
  obtain ⟨sameHandle, sameCtx, _⟩ := passes.same
  have origin : fiber.handle = earlier.handle ∧ fiber.ctx = earlier.ctx := by
    rcases moved with ⟨rfl, _⟩ | ⟨_, _, rfl⟩
    · exact ⟨sameHandle, sameCtx⟩
    · exact ⟨sameHandle, sameCtx⟩
  have member := List.mem_of_getElem? before
  have also : Fiber.contends va earlier = true := by
    rw [Fiber.contends, ← origin.2]
    exact contends
  obtain ⟨other, narrow, _⟩ := held.contenders earlier member also
  have handle : ((Effect.proceed).apply ((Effect.turn).apply krnl)).currentHandle = earlier.handle := by
    rw [← origin.1, ← currentHandle_of_fiber running]
    exact (setPoint_same running .guest).2.2.1
  rw [handle]
  exact ⟨(ok.fibers.each earlier member).positive, Ne.symm other, narrow⟩

/-- A woken fiber looks at the section again. -/
theorem SectionOk.reenter (kept : krnl.SectionOk va depth lock recursion owner) (steady : krnl.Steady)
    (fits : va + kCsSize ≤ 2 ^ 32) {action : Action} (usable : krnl.ram.writable va kCsSize = true)
    (clock : action.turns = true → uint64Max ≤ krnl.sched.tick → krnl.sched.threads.countP (Fiber.stuck va) = 0)
    (few : krnl.sched.threads.countP (Fiber.stuck va) < 2 ^ 31) (reenters : krnl.reenters va action = true)
    (taken : krnl.wordStep action = some next) (stepped : krnl.step action = some next) :
    ∃ lock recursion owner, next.SectionOk va (depth + krnl.nesting va action) lock recursion owner := by
  have isTurn : action = .turn := by
    unfold XboxKrnl.reenters at reenters
    split at reenters
    · rfl
    · cases reenters
  subst isTurn
  have same : krnl.reenters va .turn = ((Effect.turn).apply krnl).currentFiber.any (Fiber.contends va) := rfl
  obtain ⟨idle, outcome⟩ := turn_cases stepped
  rw [same] at reenters
  rcases outcome with ⟨rfl, absent⟩ | ⟨fiber, running, resumed⟩
  · simp [currentFiber, absent] at reenters
  · have contends : Fiber.contends va fiber = true := by simpa [running] using reenters
    have point : fiber.ctx.point = .csEnter va := by simpa [Fiber.contends] using contends
    have ok := Effect.sound steady.ok .turn idle
    have proceeds : (Effect.proceed).Allowed ((Effect.turn).apply krnl) :=
      ⟨fiber, running, fun entry => by simp [point] at entry⟩
    have begun := ok.proceeded proceeds
    obtain ⟨handle, unowned, narrow⟩ := kept.toSectionHeld.turn_handle steady.ok idle running contends
    have memory : ((Effect.proceed).apply ((Effect.turn).apply krnl)).ram = krnl.ram :=
      (setPoint_memory ((Effect.turn).apply krnl) .guest).1
    have history : ((Effect.proceed).apply ((Effect.turn).apply krnl)).history = krnl.history :=
      (setPoint_memory ((Effect.turn).apply krnl) .guest).2
    have attends := turn_attends kept.toSectionHeld idle (clock rfl) steady.ok proceeds
    have held := kept.toSectionHeld.attends attends (by simp only [csFields, memory])
    obtain ⟨change, serves, worth⟩ := held.csEnter begun fits (by rw [memory]; exact usable) handle narrow
      (fun own => absurd own unowned) (by rw [attends.countP]; exact few)
    have result : next = (((Effect.proceed).apply ((Effect.turn).apply krnl)).csEnter va).1.deliver
        (((Effect.proceed).apply ((Effect.turn).apply krnl)).csEnter va).2 := by
      simp only [XboxKrnl.resume, running, point] at resumed
      exact (Option.some.inj resumed).symm
    rw [result] at taken ⊢
    refine Serves.step ?_ history taken
    have same : krnl.worth va .turn (((Effect.proceed).apply ((Effect.turn).apply krnl)).csEnter va).2 = change := by
      rcases worth with ⟨reply, rfl⟩ | ⟨reply, rfl⟩ <;> simp [XboxKrnl.worth, reply, deepens, same, reenters]
    exact same ▸ serves

/-- Every guarded step keeps the section. -/
theorem SectionOk.step (kept : krnl.SectionOk va depth lock recursion owner) (steady : krnl.Steady)
    (channels : krnl.Channels) (fits : va + kCsSize ≤ 2 ^ 32) {action : Action} (guarded : Guarded va krnl action)
    (unwrapped : Unwrapped va krnl action) (roomy : krnl.Roomy) (taken : krnl.wordStep action = some next) :
    ∃ lock recursion owner, next.SectionOk va (depth + krnl.nesting va action) lock recursion owner := by
  obtain ⟨usable, calls, shallow, unwritten⟩ := guarded
  obtain ⟨clock, few⟩ := unwrapped
  have stepped := steady.wordStep_refines roomy taken
  by_cases called : action.callsSection va = true
  · obtain ⟨inFiber, sameFields⟩ := calls called
    have sameSched := krnl.refreshData_sched
    have handle : krnl.refreshData.currentHandle = krnl.currentHandle := by rw [currentHandle, sameSched]; rfl
    have begun : krnl.refreshData.SectionOk va depth lock recursion owner :=
      kept.bystands (.of_threads (by rw [sameSched])) sameFields
    have history : krnl.refreshData.history = krnl.history := by
      obtain ⟨ram, refreshed⟩ := krnl.refreshData_eq
      rw [refreshed]
    have held := begun.toSectionHeld
    have writable : krnl.refreshData.ram.writable va kCsSize = true :=
      (krnl.refreshData_writable va kCsSize).trans usable
    have caller : krnl.refreshData.currentHandle ≠ 0 := by rw [handle]; exact inFiber
    have narrow : krnl.refreshData.currentHandle < 2 ^ 32 := by
      rw [handle]
      exact steady.ok.currentHandle_below.trans roomy.handles
    have fewer : krnl.refreshData.sched.threads.countP (Fiber.stuck va) < 2 ^ 31 := by rw [sameSched]; exact few
    have deep : action.entersSection va = true → owner = krnl.refreshData.currentHandle → recursion + 1 < 2 ^ 31 :=
      fun enters own => shallow enters (lock, recursion, owner) (by simp [kept.fields]) (own.trans handle)
    rcases callsSection_cases called with rfl | rfl | rfl
    · obtain ⟨_, _, rfl⟩ := call_cases stepped
      obtain ⟨change, serves, worth⟩ := held.csEnter steady.refreshed fits writable caller narrow
        (deep (by simp [Action.entersSection])) fewer
      refine Serves.step ?_ history taken
      have same : krnl.worth va (.call (.rtlEnterCriticalSection va)) (krnl.refreshData.csEnter va).2 = change := by
        rcases worth with ⟨reply, rfl⟩ | ⟨reply, rfl⟩ <;> simp [XboxKrnl.worth, reply, deepens]
      exact same ▸ serves
    · obtain ⟨_, _, rfl⟩ := call_cases stepped
      obtain ⟨change, serves, worth⟩ := begun.csTryEnter steady.refreshed fits writable caller narrow
        (deep (by simp [Action.entersSection]))
      refine Serves.step ?_ history taken
      have same : krnl.worth va (.call (.rtlTryEnterCriticalSection va))
          (some (krnl.refreshData.csTryEnter va).2) = change := by
        rcases worth with ⟨reply, rfl⟩ | ⟨reply, rfl⟩ <;> simp [XboxKrnl.worth, reply, deepens]
      exact same ▸ serves
    · obtain ⟨_, _, rfl⟩ := call_cases stepped
      obtain ⟨change, serves, worth⟩ := begun.csLeave steady.refreshed fits writable caller
      refine Serves.step ?_ history taken
      have same : krnl.worth va (.call (.rtlLeaveCriticalSection va))
          (some (krnl.refreshData.csLeave va).2) = change := by
        rcases worth with ⟨reply, rfl⟩ | ⟨reply, rfl⟩ <;> simp [XboxKrnl.worth, reply, deepens, voidFail]
      exact same ▸ serves
  · have elsewhere : action.callsSection va = false := eq_false_of_ne_true called
    by_cases reenters : krnl.reenters va action = true
    · exact kept.reenter steady fits usable clock few reenters taken stepped
    · have resumes : krnl.reenters va action = false := eq_false_of_ne_true reenters
      have fields := unwritten elsewhere resumes next (by simp [taken])
      refine ⟨lock, recursion, owner, ?_⟩
      rw [nesting_other elsewhere resumes, add_zero]
      exact kept.bystands (kept.toSectionHeld.step_other steady channels elsewhere resumes clock stepped) fields

/-! ## Whole runs -/

/-- Neither does writing a header protect anything. -/
theorem writable_header (ram : XbeRam) (va addr size : Nat) :
    (writeDispatcherHeader ram { kind := .event, guestVa := va }).writable addr size = ram.writable addr size := by
  unfold writeDispatcherHeader
  split
  · rfl
  · simp only [DispatcherObject.signalState, XbeRam.writable_write32]

/-- The three stores of the initialisation are read back. -/
theorem csFields_written (fits : va + kCsSize ≤ 2 ^ 32) (usable : krnl.ram.writable va kCsSize = true) :
    (((krnl.write32 (at32 va kCsLockCount) (uint32 (-1))).write32 (at32 va kCsRecursion) 0).write32
      (at32 va kCsOwningThread) 0).csFields va = some (-1, 0, 0) := by
  have once : (krnl.write32 (at32 va kCsLockCount) (uint32 (-1))).ram.writable va kCsSize = true :=
    (XbeRam.writable_write32 _ _ _).trans usable
  have twice : ((krnl.write32 (at32 va kCsLockCount) (uint32 (-1))).write32 (at32 va kCsRecursion) 0).ram.writable
      va kCsSize = true := (XbeRam.writable_write32 _ _ _).trans once
  have minus : uint32 (-1) % 2 ^ 32 = 4294967295 := by decide
  refine csFields_some.mpr ⟨4294967295, 0, ?_, ?_, ?_, by decide, by decide⟩
  · rw [read32_field_other fits _ _ _ (by decide) (by decide) (by decide),
      read32_field_other fits _ _ _ (by decide) (by decide) (by decide), read32_field fits usable _ _ (by decide),
      minus]
  · rw [read32_field_other fits _ _ _ (by decide) (by decide) (by decide), read32_field fits once _ _ (by decide),
      Nat.zero_mod]
  · rw [read32_field fits twice _ _ (by decide), Nat.zero_mod]

/-- So a section starts free, and nobody waits. -/
theorem csInit_fields (fits : va + kCsSize ≤ 2 ^ 32) (usable : krnl.ram.writable va kCsSize = true) :
    (krnl.csInit va).1.csFields va = some (-1, 0, 0) ∧ (krnl.csInit va).1.sched = krnl.sched := by
  have headed := (writable_header krnl.ram va va kCsSize).trans usable
  simp only [csInit, usable, Bool.not_true, Bool.false_eq_true, ↓reduceIte]
  exact ⟨csFields_written fits headed, rfl⟩

/-- A section that no fiber is suspended in is free after its initialisation. -/
theorem SectionOk.initialised (fits : va + kCsSize ≤ 2 ^ 32) (usable : krnl.ram.writable va kCsSize = true)
    (fresh : ∀ fiber ∈ krnl.sched.threads, fiber.ctx.point ≠ .csEnter va)
    (called : krnl.step (.call (.rtlInitializeCriticalSection va)) = some next) :
    next.SectionOk va 0 (-1) 0 0 := by
  obtain ⟨_, _, rfl⟩ := call_cases called
  have writable := (krnl.refreshData_writable va kCsSize).trans usable
  obtain ⟨fields, sched⟩ := csInit_fields fits writable
  have threads : (krnl.refreshData.csInit va).1.sched.threads = krnl.sched.threads := by rw [sched, refreshData_sched]
  have untimed : ∀ fiber ∈ krnl.sched.threads, Fiber.contends va fiber = false := by
    intro fiber member
    simpa [Fiber.contends] using fresh fiber member
  have kept : (krnl.refreshData.csInit va).1.SectionOk va 0 (-1) 0 0 := by
    refine ⟨⟨fields, fun _ => ⟨rfl, fun _ => rfl⟩, fun absent => absurd rfl absent, ?_, ?_⟩, fun _ absent => ?_⟩
    · have count : krnl.sched.threads.countP (Fiber.stuck va) = 0 :=
        List.countP_eq_zero.mpr (fun fiber member stuck => by simp [Fiber.stuck, untimed fiber member] at stuck)
      rw [threads, count]
      rfl
    · intro fiber member contends
      rw [threads] at member
      rw [untimed fiber member] at contends
      cases contends
    · exact absurd (by decide) absent
  exact kept.bystands (deliver_bystands _ _) (csFields_deliver _ va _).1

/-- What a run carries from step to step. -/
def SectionRun (va : Nat) (depth : Nat → Int) (krnl : XboxKrnl) : Prop :=
  krnl.Steady ∧ krnl.Channels ∧ ∃ lock recursion owner, krnl.SectionOk va depth lock recursion owner

/-- One action keeps the invariant, with the depths it adds. -/
theorem SectionRun.step (holds : SectionRun va depth krnl) (fits : va + kCsSize ≤ 2 ^ 32) {action : Action}
    (orderly : krnl.Orderly action) (condition : Guarded va krnl action ∧ Unwrapped va krnl action)
    (taken : krnl.wordStep action = some next) : SectionRun va (depth + krnl.nesting va action) next := by
  obtain ⟨steady, channels, lock, recursion, owner, kept⟩ := holds
  obtain ⟨path, later⟩ := steady.step (steady.wordStep_refines orderly.1 taken)
  exact ⟨later, channels.path steady.ok path, kept.step steady channels fits condition.1 condition.2 orderly.1 taken⟩

/-- In every run after the initialisation of a critical section whose steps leave the
section to its calls and stay inside the widths of the source, the fields of the section
say who is inside and who waits, and a free section is not slept on.

Proof: `SectionOk` is the invariant, with the depths counted along the run. The calls on the
section and a woken fiber that looks at it again are the only steps that touch the fields; every
other step keeps the fibers that are suspended in `cs_enter`, or switches one of them in. -/
theorem sections_kept {start begun : XboxKrnl} {before rest : List Action} (run : start.WordRun Orderly before)
    (room : start.Roomy) (fits : va + kCsSize ≤ 2 ^ 32) (usable : start.ram.writable va kCsSize = true)
    (fresh : ∀ fiber ∈ start.sched.threads, fiber.ctx.point ≠ .csEnter va)
    (called : start.wordStep (.call (.rtlInitializeCriticalSection va)) = some begun)
    (completed : Runs.run wordStep begun rest = some krnl)
    (allowed : Runs.Along wordStep
      (fun krnl action => krnl.Orderly action ∧ Guarded va krnl action ∧ Unwrapped va krnl action) begun rest) :
    ∃ lock recursion owner, krnl.SectionKept va (Runs.total wordStep (nesting va) begun rest) lock recursion owner := by
  have reached := (run.reachesUnder (fun _ _ orderly => orderly.1)).reaches
  have initialised := reached.steady.wordStep_refines room called
  have first := SectionOk.initialised fits usable fresh initialised
  have path := reached.steady.step initialised
  have channels := reached.channels.path reached.steady.ok path.1
  have preserved : ∀ spent before action next, SectionRun va spent before →
      before.Orderly action ∧ Guarded va before action ∧ Unwrapped va before action →
      before.wordStep action = some next → SectionRun va (spent + nesting va before action) next :=
    fun _ _ _ _ holds condition taken => holds.step fits condition.1 condition.2 taken
  obtain ⟨steady, _, lock, recursion, owner, kept⟩ :=
    Runs.run_total preserved 0 begun krnl rest ⟨path.2, channels, -1, 0, 0, first⟩ allowed completed
  rw [zero_add] at kept
  exact ⟨lock, recursion, owner, kept.kept steady.ok⟩

/-! ## Two runs -/

/-- The host initialises a section. -/
def initialises : List Action := [.call (.rtlInitializeCriticalSection 64)]

/-- Two fibers enter the section; the second one blocks, and the first one leaves. -/
def contend : List Action :=
  [.spawn 0 (some 4096), .spawn 0 (some 8192), .run, .turn, .call (.rtlEnterCriticalSection 64),
    .call .ntYieldExecution, .turn, .call (.rtlEnterCriticalSection 64), .turn]

/-- The second fiber is inside after the first has left. -/
theorem contend_kept :
    (wordAfter true (initialises ++ contend)).csFields 64 = some (0, 1, 1) ∧
      ∃ lock recursion owner, (wordAfter true (initialises ++ contend)).SectionKept 64
        (Runs.total wordStep (nesting 64) (wordAfter true initialises) contend) lock recursion owner := by
  refine ⟨by decide +kernel, ?_⟩
  have called := wordStep_after true [] (.call (.rtlInitializeCriticalSection 64)) (by decide +kernel)
  exact sections_kept (wordRun_after Orderly true [] (by decide +kernel) (by decide +kernel)) (by decide +kernel)
    (by decide) (by decide +kernel) (by decide +kernel) called
    (word_run_after true initialises contend (by decide +kernel)) (by decide +kernel)

/-- Spawns whose stack cannot be mapped. Each uses up a handle. -/
def failedSpawns (count : Nat) : List Action := List.replicate count (.spawn 0 none)

/-- Nothing but the count of handles changes in a kernel without objects. -/
theorem run_failedSpawns (krnl : XboxKrnl) (active : krnl.active = true) (bare : krnl.heap = [])
    (fits : krnl.nextThreadId < 2 ^ 32) (count : Nat) :
    Runs.run wordStep krnl (failedSpawns count) =
      some { krnl with sched := { krnl.sched with nextHandle := krnl.sched.nextHandle + count } } := by
  induction count generalizing krnl with
  | zero => rfl
  | succ count inductionHypothesis =>
    have looked : krnl.lookupStep (.spawn 0 none) =
        some { krnl with sched := { krnl.sched with nextHandle := krnl.sched.nextHandle + 1 } } := by
      simp [lookupStep, XboxKrnl.step, active, spawnReserved, kStackSize, kMinUsable]
    have stepped : krnl.wordStep (.spawn 0 none) =
        some { krnl with sched := { krnl.sched with nextHandle := krnl.sched.nextHandle + 1 } } := by
      simp [wordStep, looked, overflown, inWords, bare, word_eq fits]
    have still : { krnl with sched := { krnl.sched with nextHandle := krnl.sched.nextHandle + 1 } }.active = true :=
      active
    refine (Runs.run_cons _ _ _ _).mpr ⟨_, stepped, ?_⟩
    rw [← failedSpawns, inductionHypothesis _ still bare fits]
    simp only [Nat.add_assoc, Nat.add_comm 1 count]

/-- Spawns that fail leave the section alone, however many. -/
theorem along_failedSpawns (krnl : XboxKrnl) (usable : krnl.ram.writable va kCsSize = true) (count : Nat) :
    Runs.Along wordStep (Guarded va) krnl (failedSpawns count) := by
  induction count generalizing krnl with
  | zero => trivial
  | succ count inductionHypothesis =>
    have memory : ∀ next, krnl.wordStep (.spawn 0 none) = some next → next.ram = krnl.ram := by
      intro next stepped
      obtain ⟨whole, looked, rfl⟩ := wordStep_cases stepped
      have stored : whole.inWords.ram = whole.ram := rfl
      rw [stored, (spawn_cases looked).2]
    refine ⟨⟨usable, by simp [Action.callsSection, Action.entersSection, Action.leavesSection],
      by simp [Action.entersSection], fun _ _ next stepped => ?_⟩, fun next stepped => inductionHypothesis next ?_⟩
    · simp only [csFields, memory next (by simpa using stepped)]
    · rw [memory next stepped]
      exact usable

/-- A fiber with the handle 2^32 enters. -/
def entersLate : List Action :=
  [.spawn 0 (some 4096), .run, .turn, .call (.rtlEnterCriticalSection 64)]

/-- The initialised machine after so many failed spawns. -/
def exhausted (count : Nat) : XboxKrnl :=
  { wordAfter true initialises with sched := { (wordAfter true initialises).sched with
      nextHandle := (wordAfter true initialises).sched.nextHandle + count } }

/-- The section looks free to everybody while a fiber whose handle is a multiple of 2^32
is inside, so the fields are not kept in every guarded run. -/
theorem sections_kept_fails : ¬ ∀ (va : Nat) (start begun krnl : XboxKrnl) (before rest : List Action),
    start.WordRun (fun _ _ => True) before → va + kCsSize ≤ 2 ^ 32 → start.ram.writable va kCsSize = true →
    (∀ fiber ∈ start.sched.threads, fiber.ctx.point ≠ .csEnter va) →
    start.wordStep (.call (.rtlInitializeCriticalSection va)) = some begun →
    Runs.run wordStep begun rest = some krnl → Runs.Along wordStep (Guarded va) begun rest →
    ∃ lock recursion owner,
      krnl.SectionKept va (Runs.total wordStep (nesting va) begun rest) lock recursion owner := by
  intro always
  have called := wordStep_after true [] (.call (.rtlInitializeCriticalSection 64)) (by decide +kernel)
  have spawned : Runs.run wordStep (wordAfter true initialises) (failedSpawns (2 ^ 32 - 1)) =
      some (exhausted (2 ^ 32 - 1)) := run_failedSpawns _ (by decide +kernel) (by decide +kernel) (by decide +kernel) _
  obtain ⟨final, entered⟩ := Option.isSome_iff_exists.mp
    (show (Runs.run wordStep (exhausted (2 ^ 32 - 1)) entersLate).isSome = true by decide +kernel)
  have fields : (Runs.run wordStep (exhausted (2 ^ 32 - 1)) entersLate).bind (fun krnl => krnl.csFields 64) =
      some (-1, 1, 0) := by decide +kernel
  have guarded : Runs.Along wordStep (Guarded 64) (wordAfter true initialises)
      (failedSpawns (2 ^ 32 - 1) ++ entersLate) := by
    refine Runs.along_append _ _ _ (along_failedSpawns _ (by decide +kernel) _) (fun middle completed => ?_)
    obtain rfl := Option.some.inj (spawned.symm.trans completed)
    decide +kernel
  obtain ⟨lock, recursion, owner, kept⟩ := always 64 (wordAfter true []) (wordAfter true initialises) final []
    (failedSpawns (2 ^ 32 - 1) ++ entersLate) (wordRun_after _ true [] (by decide +kernel) trivial) (by decide)
    (by decide +kernel) (by decide +kernel) called
    ((Runs.run_append _ _ _ _).mpr ⟨_, spawned, entered⟩) guarded
  rw [entered, Option.bind_some, kept.fields] at fields
  obtain ⟨_, rfl, rfl⟩ : lock = -1 ∧ recursion = 1 ∧ owner = 0 := by simpa using fields
  exact absurd (kept.free rfl).1 (by decide)

end XboxKrnl

end SeriesxEmu
