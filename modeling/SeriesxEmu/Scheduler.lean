import Mathlib.Algebra.Order.Ring.Int
import Mathlib.Data.List.Basic

/-!
# The cooperative fiber scheduler

`GuestScheduler` runs all guest threads on one host thread. A thread keeps the
processor until it yields, sleeps, blocks or ends; virtual time advances only
when no thread is ready. The machine context of a thread is abstract here: the
field `ctx` stands for `fn_` before the first switch and for `ctx_` after it,
and the type of wait channels is a parameter, since the scheduler only compares
them. Handles are unbounded naturals, as `threads_` never shrinks and a stack
is mapped for each of its entries; the virtual clock and the deadlines keep
their 64-bit arithmetic.

`swapcontext` is assumed to succeed. A failing `mmap` or `mprotect` of a stack
is an argument of `spawnReserved`.
-/

namespace SeriesxEmu.Scheduler

/-- `GuestThread::State`. -/
inductive State where
  | ready
  | running
  | sleeping
  | blockedJoin
  | finished
  | blockedWait
deriving DecidableEq, Repr

/-- `UINT64_MAX`. -/
def uint64Max : Nat := 2 ^ 64 - 1

/-- The bytes of a stack's mapping. -/
def kStackSize : Nat := 256 * 1024

/-- The bytes of the guard page below it. -/
def kGuardSize : Nat := 4096

/-- What a reserve has to leave of a stack. -/
def kMinUsable : Nat := 16 * 1024

/-- `block_current` timeout sentinel: wait forever. -/
def kNoTimeout : Nat := 0

/-- One guest thread. A thread that resumes after its first switch keeps the
state `ready` while it runs: only the trampoline stores `running`. -/
structure GuestThread (τ κ : Type) where
  ctx : κ
  started : Bool := false
  handle : Nat
  switches : Nat := 0
  state : State := .ready
  wakeTick : Nat := 0
  joinTarget : Nat := 0
  waitToken : τ
  waitTimedOut : Bool := false
  exitCode : Int := 0
  stackBase : Nat := 0
  stackMapSize : Nat := 0
  stackTopReserve : Nat := 0

/-- `current` is the position in `threads` of the thread switched in, and
`inLoop` says that control is inside `run_until_complete`. -/
structure GuestScheduler (τ κ : Type) where
  threads : List (GuestThread τ κ) := []
  current : Option Nat := none
  nextHandle : Nat := 1
  tick : Nat := 0
  rrCursor : Nat := 0
  switchesTotal : Nat := 0
  deadlocked : Bool := false
  inLoop : Bool := false

variable {τ κ : Type}

namespace GuestThread

/-- Blocked on the given wait channel. -/
def BlockedOn (thread : GuestThread τ κ) (token : τ) : Prop :=
  thread.state = .blockedWait ∧ thread.waitToken = token

instance [DecidableEq τ] (thread : GuestThread τ κ) (token : τ) :
    Decidable (thread.BlockedOn token) :=
  inferInstanceAs (Decidable (_ ∧ _))

/-- What `signal` does to a waiter. -/
def wake (thread : GuestThread τ κ) : GuestThread τ κ :=
  { thread with state := .ready, waitTimedOut := false }

end GuestThread

namespace GuestScheduler

/-- `find`: handles are read as one-based positions. The result may lie past the
end of `threads` once a stack mapping has failed. -/
def find (sched : GuestScheduler τ κ) (handle : Nat) : Option Nat :=
  if handle = 0 ∨ sched.nextHandle ≤ handle then none else some (handle - 1)

/-- `current_handle`: zero outside any thread. -/
def currentHandle (sched : GuestScheduler τ κ) : Nat :=
  match sched.current with
  | none => 0
  | some index => (sched.threads[index]?.map GuestThread.handle).getD 0

/-- The scheduler with one of its threads changed. -/
def modifyThread (sched : GuestScheduler τ κ) (index : Nat)
    (change : GuestThread τ κ → GuestThread τ κ) : GuestScheduler τ κ :=
  { sched with threads := sched.threads.modify index change }

/-- `spawn_reserved`. The stack region is `none` when mapping it fails; the
handle counter has advanced by then. -/
def spawnReserved [Inhabited τ] (sched : GuestScheduler τ κ) (ctx : κ) (stackTopReserve : Nat)
    (region : Option Nat) : GuestScheduler τ κ × Nat :=
  if kStackSize - kMinUsable < stackTopReserve then (sched, 0)
  else
    match region with
    | none => ({ sched with nextHandle := sched.nextHandle + 1 }, 0)
    | some base =>
      let thread : GuestThread τ κ :=
        { ctx, handle := sched.nextHandle, waitToken := default, stackBase := base,
          stackMapSize := kGuardSize + kStackSize, stackTopReserve }
      ({ sched with threads := sched.threads ++ [thread], nextHandle := sched.nextHandle + 1 },
        sched.nextHandle)

/-- `switch_to_scheduler`: the run loop clears `current_` as soon as the thread
has swapped away. The callers store the context that the swap saves, given as a
change of the context the thread was switched in with. -/
def switchToScheduler (sched : GuestScheduler τ κ) : GuestScheduler τ κ :=
  { sched with current := none }

/-- `thread_yield`. -/
def threadYield (sched : GuestScheduler τ κ) (index : Nat) (save : κ → κ) : GuestScheduler τ κ :=
  (sched.modifyThread index (fun thread =>
    { thread with state := .ready, ctx := save thread.ctx })).switchToScheduler

/-- `thread_sleep`. -/
def threadSleep (sched : GuestScheduler τ κ) (index ticks : Nat) (save : κ → κ) :
    GuestScheduler τ κ :=
  if ticks = 0 then sched.threadYield index save
  else
    (sched.modifyThread index (fun thread =>
      { thread with
        state := .sleeping, wakeTick := (sched.tick + ticks) % 2 ^ 64,
        ctx := save thread.ctx })).switchToScheduler

/-- `thread_block`, the switching part of `block_current`. -/
def threadBlock (sched : GuestScheduler τ κ) (index : Nat) (token : τ) (timeout : Nat)
    (save : κ → κ) : GuestScheduler τ κ :=
  (sched.modifyThread index (fun thread =>
    { thread with
      state := .blockedWait, waitToken := token, waitTimedOut := false,
      wakeTick := if timeout = kNoTimeout then uint64Max else (sched.tick + timeout) % 2 ^ 64,
      ctx := save thread.ctx })).switchToScheduler

/-- The thread list after `signal`, and the number of threads woken. -/
def signalThreads [DecidableEq τ] (token : τ) (all : Bool) :
    List (GuestThread τ κ) → List (GuestThread τ κ) × Nat
  | [] => ([], 0)
  | thread :: rest =>
    if thread.BlockedOn token then
      if all then
        let (woken, count) := signalThreads token all rest
        (thread.wake :: woken, count + 1)
      else (thread.wake :: rest, 1)
    else
      let (woken, count) := signalThreads token all rest
      (thread :: woken, count)

/-- `signal`. -/
def signal [DecidableEq τ] (sched : GuestScheduler τ κ) (token : τ) (all : Bool) :
    GuestScheduler τ κ × Nat :=
  let (threads, woken) := signalThreads token all sched.threads
  ({ sched with threads }, woken)

/-- `join` from inside a thread: the result when the call returns at once, and no
result when it blocks. -/
def join (sched : GuestScheduler τ κ) (index target : Nat) (save : κ → κ) :
    GuestScheduler τ κ × Option Bool :=
  if target = sched.currentHandle then (sched, some false)
  else
    match sched.find target with
    | none => (sched, some false)
    | some position =>
      if (sched.threads[position]?.map GuestThread.state) = some .finished then (sched, some true)
      else
        ((sched.modifyThread index (fun thread =>
          { thread with
            joinTarget := target, state := .blockedJoin,
            ctx := save thread.ctx })).switchToScheduler, none)

/-- A join returns at once, or the thread that is switched in waits for the target. -/
theorem join_cases (sched : GuestScheduler τ κ) (index target : Nat) (save : κ → κ) :
    (sched.join index target save).1 = sched ∨
      (sched.join index target save).1 = (sched.modifyThread index (fun thread =>
        { thread with joinTarget := target, state := .blockedJoin, ctx := save thread.ctx })).switchToScheduler := by
  unfold join
  split
  · exact Or.inl rfl
  · split
    · exact Or.inl rfl
    · split
      · exact Or.inl rfl
      · exact Or.inr rfl

/-- The first pass of `pick_next`: joins whose target is gone or finished. -/
def unblockJoin (sched : GuestScheduler τ κ) (thread : GuestThread τ κ) : GuestThread τ κ :=
  if thread.state = .blockedJoin then
    match sched.find thread.joinTarget with
    | none => { thread with state := .ready }
    | some position =>
      if (sched.threads[position]?.map GuestThread.state) = some .finished then
        { thread with state := .ready }
      else thread
  else thread

/-- The second pass of `pick_next`. -/
def wakeSleeper (tick : Nat) (thread : GuestThread τ κ) : GuestThread τ κ :=
  if thread.state = .sleeping ∧ thread.wakeTick ≤ tick then { thread with state := .ready }
  else thread

/-- The third pass of `pick_next`: the wake reason is stored before the thread
runs again. -/
def timeOutWait (tick : Nat) (thread : GuestThread τ κ) : GuestThread τ κ :=
  if thread.state = .blockedWait ∧ thread.wakeTick ≤ tick then
    { thread with state := .ready, waitTimedOut := true }
  else thread

/-- The three wake passes of `pick_next`. A pass changes no thread to or from
`finished`, so reading the join targets before the pass is reading them in it. -/
def wakePasses (sched : GuestScheduler τ κ) : List (GuestThread τ κ) :=
  sched.threads.map (fun thread =>
    timeOutWait sched.tick (wakeSleeper sched.tick (sched.unblockJoin thread)))

/-- The positions in the order the round-robin scan visits them. -/
def scanOrder (cursor count : Nat) : List Nat :=
  (List.range count).map (fun offset => (cursor + offset) % count)

/-- `pick_next`. -/
def pickNext (sched : GuestScheduler τ κ) : GuestScheduler τ κ × Option Nat :=
  let threads := sched.wakePasses
  let isReady := fun index => (threads[index]?.map GuestThread.state) == some State.ready
  match (scanOrder sched.rrCursor threads.length).find? isReady with
  | none => ({ sched with threads }, none)
  | some index => ({ sched with threads, rrCursor := (index + 1) % threads.length }, some index)

/-- The thread keeps virtual time running: it sleeps or has a finite deadline. -/
def timed (thread : GuestThread τ κ) : Bool :=
  thread.state == .sleeping || (thread.state == .blockedWait && thread.wakeTick != uint64Max)

/-- The thread waits for another one, without a deadline. -/
def blocked (thread : GuestThread τ κ) : Bool :=
  thread.state == .blockedJoin || (thread.state == .blockedWait && thread.wakeTick == uint64Max)

/-- The switch into a thread. The trampoline of a fresh thread stores `running`. -/
def dispatch (sched : GuestScheduler τ κ) (index : Nat) : GuestScheduler τ κ :=
  { sched with
    threads := sched.threads.modify index (fun thread =>
      { thread with
        started := true, switches := thread.switches + 1,
        state := if thread.started then thread.state else .running })
    current := some index
    switchesTotal := sched.switchesTotal + 1 }

/-- What one turn of the loop in `run_until_complete` comes to. -/
inductive Turn where
  | dispatched (index : Nat)
  | idle
  | returned (complete : Bool)
deriving DecidableEq, Repr

/-- One turn of the loop in `run_until_complete`. -/
def loopTurn (sched : GuestScheduler τ κ) : GuestScheduler τ κ × Turn :=
  if sched.threads.all (fun thread => thread.state == .finished) then
    ({ sched with inLoop := false }, .returned true)
  else
    match sched.pickNext with
    | (picked, some index) => (picked.dispatch index, .dispatched index)
    | (picked, none) =>
      if picked.threads.any timed then ({ picked with tick := (picked.tick + 1) % 2 ^ 64 }, .idle)
      else if picked.threads.any blocked then
        ({ picked with deadlocked := true, inLoop := false }, .returned false)
      else ({ picked with inLoop := false }, .returned true)

/-! ## What a signal does to the thread list -/

/-- The second list is the first one with some of the threads woken that were
blocked on a channel of the given kind. -/
structure Wakes (channel : τ → Prop) (before after : List (GuestThread τ κ)) : Prop where
  length : after.length = before.length
  each : ∀ (index : Nat) (thread : GuestThread τ κ), before[index]? = some thread →
    after[index]? = some thread ∨
    (thread.state = .blockedWait ∧ channel thread.waitToken ∧ after[index]? = some thread.wake)

/-- Waking nothing is waking. -/
theorem Wakes.refl (channel : τ → Prop) (threads : List (GuestThread τ κ)) :
    Wakes channel threads threads :=
  ⟨rfl, fun _ _ found => Or.inl found⟩

/-- What is woken on some tokens is woken on more. -/
theorem Wakes.mono {channel wider : τ → Prop} {before after : List (GuestThread τ κ)}
    (included : ∀ token, channel token → wider token) (woken : Wakes channel before after) :
    Wakes wider before after := by
  refine ⟨woken.length, fun index thread found => ?_⟩
  rcases woken.each index thread found with same | ⟨blocked, member, changed⟩
  · exact Or.inl same
  · exact Or.inr ⟨blocked, included _ member, changed⟩

/-- A woken thread is no longer blocked, so waking twice wakes no thread again. -/
theorem Wakes.trans {channel : τ → Prop} {first second third : List (GuestThread τ κ)}
    (left : Wakes channel first second) (right : Wakes channel second third) :
    Wakes channel first third := by
  refine ⟨right.length.trans left.length, fun index thread found => ?_⟩
  rcases left.each index thread found with same | ⟨blocked, member, changed⟩
  · exact right.each index thread same
  · rcases right.each index _ changed with kept | ⟨again, _, _⟩
    · exact Or.inr ⟨blocked, member, kept⟩
    · simp [GuestThread.wake] at again

/-- Every thread of the later list comes from one of the earlier list. -/
theorem Wakes.origin {channel : τ → Prop} {before after : List (GuestThread τ κ)}
    (woken : Wakes channel before after) (index : Nat) (thread : GuestThread τ κ)
    (found : after[index]? = some thread) :
    ∃ earlier, before[index]? = some earlier ∧ (thread = earlier ∨
      (earlier.state = .blockedWait ∧ channel earlier.waitToken ∧ thread = earlier.wake)) := by
  have inside : index < before.length := by
    have bound := (List.getElem?_eq_some_iff.mp found).1
    rw [woken.length] at bound
    exact bound
  refine ⟨before[index], List.getElem?_eq_getElem inside, ?_⟩
  rcases woken.each index _ (List.getElem?_eq_getElem inside) with same | ⟨blocked, member, changed⟩
  · exact Or.inl (Option.some.inj (found.symm.trans same))
  · exact Or.inr ⟨blocked, member, Option.some.inj (found.symm.trans changed)⟩

/-- A thread that is still blocked was not touched. -/
theorem Wakes.still_blocked {channel : τ → Prop} {before after : List (GuestThread τ κ)}
    (woken : Wakes channel before after) (index : Nat) (thread : GuestThread τ κ)
    (found : after[index]? = some thread) (blocked : thread.state = .blockedWait) :
    before[index]? = some thread := by
  obtain ⟨earlier, origin, same | ⟨_, _, changed⟩⟩ := woken.origin index thread found
  · exact same ▸ origin
  · rw [changed] at blocked
    simp [GuestThread.wake] at blocked

section signals

variable [DecidableEq τ]

/-- A signal wakes on its own token only. -/
theorem signalThreads_wakes (token : τ) (all : Bool) (threads : List (GuestThread τ κ)) :
    Wakes (· = token) threads (signalThreads token all threads).1 := by
  induction threads with
  | nil => exact Wakes.refl _ _
  | cons thread rest inductionHypothesis =>
    by_cases blocked : thread.BlockedOn token
    · cases all with
      | true =>
        simp only [signalThreads, blocked, ↓reduceIte]
        refine ⟨by simp [inductionHypothesis.length], fun index found same => ?_⟩
        cases index with
        | zero =>
          have first : thread = found := by simpa using same
          subst first
          exact Or.inr ⟨blocked.1, blocked.2, by simp⟩
        | succ index => simpa using inductionHypothesis.each index found (by simpa using same)
      | false =>
        simp only [signalThreads, blocked, ↓reduceIte]
        refine ⟨by simp, fun index found same => ?_⟩
        cases index with
        | zero =>
          have first : thread = found := by simpa using same
          subst first
          exact Or.inr ⟨blocked.1, blocked.2, by simp⟩
        | succ index => exact Or.inl (by simpa using same)
    · simp only [signalThreads, blocked, ↓reduceIte]
      refine ⟨by simp [inductionHypothesis.length], fun index found same => ?_⟩
      cases index with
      | zero => exact Or.inl (by simpa using same)
      | succ index => simpa using inductionHypothesis.each index found (by simpa using same)

/-- Nobody is woken exactly when nobody waits, and then nothing changes. -/
theorem signalThreads_zero (token : τ) (all : Bool) (threads : List (GuestThread τ κ))
    (unwoken : (signalThreads token all threads).2 = 0) :
    (signalThreads token all threads).1 = threads ∧
      ∀ thread ∈ threads, ¬ thread.BlockedOn token := by
  induction threads with
  | nil => simp [signalThreads]
  | cons thread rest inductionHypothesis =>
    by_cases blocked : thread.BlockedOn token
    · cases all <;> simp [signalThreads, blocked] at unwoken
    · simp only [signalThreads, blocked, ↓reduceIte] at unwoken ⊢
      obtain ⟨same, free⟩ := inductionHypothesis unwoken
      refine ⟨by rw [same], fun found member => ?_⟩
      rcases List.mem_cons.mp member with rfl | member
      · exact blocked
      · exact free found member

/-- Signalling all waiters leaves unwoken. -/
theorem signalThreads_all (token : τ) (threads : List (GuestThread τ κ)) :
    ∀ thread ∈ (signalThreads token true threads).1, ¬ thread.BlockedOn token := by
  induction threads with
  | nil => simp [signalThreads]
  | cons thread rest inductionHypothesis =>
    intro found member
    by_cases blocked : thread.BlockedOn token
    · simp only [signalThreads, blocked, ↓reduceIte, List.mem_cons] at member
      rcases member with rfl | member
      · simp [GuestThread.BlockedOn, GuestThread.wake]
      · exact inductionHypothesis found member
    · simp only [signalThreads, blocked, ↓reduceIte, List.mem_cons] at member
      rcases member with rfl | member
      · exact blocked
      · exact inductionHypothesis found member

/-- A single signal wakes the first waiter in spawn order. -/
theorem signalThreads_first (token : τ) (threads : List (GuestThread τ κ)) (index : Nat)
    (thread : GuestThread τ κ) (found : threads[index]? = some thread)
    (blocked : thread.BlockedOn token)
    (first : ∀ earlier < index, ∀ other, threads[earlier]? = some other → ¬ other.BlockedOn token) :
    signalThreads token false threads = (threads.set index thread.wake, 1) := by
  induction threads generalizing index with
  | nil => simp at found
  | cons head rest inductionHypothesis =>
    cases index with
    | zero =>
      have same : head = thread := by simpa using found
      subst same
      simp [signalThreads, blocked]
    | succ index =>
      have free : ¬ head.BlockedOn token := first 0 (Nat.succ_pos index) head (by simp)
      have tail := inductionHypothesis index (by simpa using found) (fun earlier before other same =>
        first (earlier + 1) (Nat.succ_lt_succ before) other (by simpa using same))
      simp [signalThreads, free, tail]

/-- Some waiter is the first one. -/
theorem first_blocked (token : τ) (threads : List (GuestThread τ κ))
    (waiting : ∃ thread ∈ threads, thread.BlockedOn token) :
    ∃ (index : Nat) (thread : GuestThread τ κ), threads[index]? = some thread ∧ thread.BlockedOn token ∧
      ∀ earlier < index, ∀ other, threads[earlier]? = some other → ¬ other.BlockedOn token := by
  induction threads with
  | nil => simp at waiting
  | cons head rest inductionHypothesis =>
    by_cases blocked : head.BlockedOn token
    · exact ⟨0, head, by simp, blocked, fun earlier before => absurd before (Nat.not_lt_zero earlier)⟩
    · have tail : ∃ thread ∈ rest, thread.BlockedOn token := by
        obtain ⟨thread, member, waits⟩ := waiting
        rcases List.mem_cons.mp member with rfl | member
        · exact absurd waits blocked
        · exact ⟨thread, member, waits⟩
      obtain ⟨index, thread, found, waits, first⟩ := inductionHypothesis tail
      refine ⟨index + 1, thread, by simpa using found, waits, fun earlier before other same => ?_⟩
      cases earlier with
      | zero =>
        have front : head = other := by simpa using same
        exact front ▸ blocked
      | succ earlier =>
        exact first earlier (Nat.lt_of_succ_lt_succ before) other (by simpa using same)

end signals

end GuestScheduler

/-! ## One turn of the loop -/

section turns

open GuestScheduler

variable {τ κ : Type}

/-- The three wake passes of `pick_next` on one thread. -/
def passed (sched : GuestScheduler τ κ) (thread : GuestThread τ κ) : GuestThread τ κ :=
  timeOutWait sched.tick (wakeSleeper sched.tick (sched.unblockJoin thread))

/-- A thread is ready after the passes in one of four ways, and else as it was. -/
theorem passed_cases (sched : GuestScheduler τ κ) (thread : GuestThread τ κ) :
    (passed sched thread = thread ∧
      (thread.state = .sleeping ∨ thread.state = .blockedWait → sched.tick < thread.wakeTick)) ∨
    (thread.state = .sleeping ∧ thread.wakeTick ≤ sched.tick ∧
      passed sched thread = { thread with state := .ready }) ∨
    (thread.state = .blockedWait ∧ thread.wakeTick ≤ sched.tick ∧
      passed sched thread = { thread with state := .ready, waitTimedOut := true }) ∨
    (thread.state = .blockedJoin ∧ passed sched thread = { thread with state := .ready }) := by
  cases state : thread.state with
  | ready => simp [passed, unblockJoin, wakeSleeper, timeOutWait, state]
  | running => simp [passed, unblockJoin, wakeSleeper, timeOutWait, state]
  | finished => simp [passed, unblockJoin, wakeSleeper, timeOutWait, state]
  | sleeping =>
    by_cases due : thread.wakeTick ≤ sched.tick
    · simp [passed, unblockJoin, wakeSleeper, timeOutWait, state, due]
    · simp [passed, unblockJoin, wakeSleeper, timeOutWait, state, due]
      omega
  | blockedWait =>
    by_cases due : thread.wakeTick ≤ sched.tick
    · simp [passed, unblockJoin, wakeSleeper, timeOutWait, state, due]
    · simp [passed, unblockJoin, wakeSleeper, timeOutWait, state, due]
      omega
  | blockedJoin =>
    have joined : sched.unblockJoin thread = thread ∨
        sched.unblockJoin thread = { thread with state := .ready } := by
      simp only [unblockJoin, state, ↓reduceIte]
      split
      · exact Or.inr rfl
      · split
        · exact Or.inr rfl
        · exact Or.inl rfl
    rcases joined with same | ready
    · simp [passed, same, wakeSleeper, timeOutWait, state]
    · simp [passed, ready, wakeSleeper, timeOutWait]

/-- A join that a pass leaves blocked has a target that has not finished. -/
theorem passed_join {sched : GuestScheduler τ κ} {thread : GuestThread τ κ}
    (blocked : (passed sched thread).state = .blockedJoin) :
    passed sched thread = thread ∧ ∃ position, sched.find thread.joinTarget = some position ∧
      (sched.threads[position]?.map GuestThread.state) ≠ some .finished := by
  rcases passed_cases sched thread with ⟨same, _⟩ | ⟨_, _, ready⟩ | ⟨_, _, ready⟩ | ⟨_, ready⟩
  · refine ⟨same, ?_⟩
    rw [same] at blocked
    cases target : sched.find thread.joinTarget with
    | none =>
      have woken : sched.unblockJoin thread = { thread with state := .ready } := by
        simp [unblockJoin, blocked, target]
      simp only [passed, woken, wakeSleeper, timeOutWait, reduceCtorEq, false_and, ↓reduceIte] at same
      rw [← same] at blocked
      cases blocked
    | some position =>
      refine ⟨position, rfl, fun finished => ?_⟩
      have woken : sched.unblockJoin thread = { thread with state := .ready } := by
        simp [unblockJoin, blocked, target, finished]
      simp only [passed, woken, wakeSleeper, timeOutWait, reduceCtorEq, false_and, ↓reduceIte] at same
      rw [← same] at blocked
      cases blocked
  all_goals
    rw [ready] at blocked
    cases blocked

/-- The round-robin scan visits every position. -/
theorem scanOrder_covers (cursor : Nat) {count index : Nat} (inside : index < count) :
    index ∈ scanOrder cursor count := by
  have positive : 0 < count := Nat.lt_of_le_of_lt (Nat.zero_le index) inside
  have bound := Nat.mod_lt cursor positive
  refine List.mem_map.mpr ⟨(index + (count - cursor % count)) % count,
    List.mem_range.mpr (Nat.mod_lt _ positive), ?_⟩
  calc (cursor + (index + (count - cursor % count)) % count) % count
      = (cursor % count + (index + (count - cursor % count))) % count := by
        rw [Nat.add_mod_mod, Nat.mod_add_mod]
    _ = (index + count) % count := by
        congr 1
        omega
    _ = index := by rw [Nat.add_mod_right, Nat.mod_eq_of_lt inside]

/-- The switch into a thread, on the thread. -/
def switched (thread : GuestThread τ κ) : GuestThread τ κ :=
  { thread with
    started := true, switches := thread.switches + 1
    state := if thread.started then thread.state else .running }

/-- No thread is ready after the wake passes. -/
def Unready (sched : GuestScheduler τ κ) : Prop :=
  ∀ thread ∈ sched.threads, (passed sched thread).state ≠ .ready

/-- Everything one turn of the loop in `run_until_complete` can come to. -/
inductive Turns (sched : GuestScheduler τ κ) : GuestScheduler τ κ → Turn → Prop where
  | complete (finished : ∀ thread ∈ sched.threads, thread.state = .finished) :
    Turns sched { sched with inLoop := false } (.returned true)
  | dispatches (index : Nat) (thread : GuestThread τ κ) (found : sched.threads[index]? = some thread)
    (ready : (passed sched thread).state = .ready) :
    Turns sched { sched with
      threads := (sched.threads.map (passed sched)).modify index switched, current := some index
      rrCursor := (index + 1) % (sched.threads.map (passed sched)).length
      switchesTotal := sched.switchesTotal + 1 } (.dispatched index)
  | idles (unready : Unready sched) (time : ∃ thread ∈ sched.threads, timed (passed sched thread) = true) :
    Turns sched { sched with
      threads := sched.threads.map (passed sched), tick := (sched.tick + 1) % 2 ^ 64 } .idle
  | deadlocks (unready : Unready sched)
    (still : ∀ thread ∈ sched.threads, timed (passed sched thread) = false) :
    Turns sched { sched with
      threads := sched.threads.map (passed sched), deadlocked := true, inLoop := false } (.returned false)
  | falls (unready : Unready sched)
    (still : ∀ thread ∈ sched.threads, timed (passed sched thread) = false)
    (free : ∀ thread ∈ sched.threads, blocked (passed sched thread) = false)
    (unfinished : ∃ thread ∈ sched.threads, thread.state ≠ .finished) :
    Turns sched { sched with threads := sched.threads.map (passed sched), inLoop := false } (.returned true)

/-- The pass over the due threads treats each thread by itself. -/
theorem wakePasses_eq (sched : GuestScheduler τ κ) : sched.wakePasses = sched.threads.map (passed sched) :=
  rfl

/-- A turn passes the due threads and then picks one, or stops. -/
theorem loopTurn_turns (sched : GuestScheduler τ κ) : Turns sched sched.loopTurn.1 sched.loopTurn.2 := by
  unfold GuestScheduler.loopTurn
  split
  · rename_i done
    refine .complete (fun thread member => ?_)
    simpa using List.all_eq_true.mp done thread member
  · rename_i undone
    have unfinished : ∃ thread ∈ sched.threads, thread.state ≠ .finished := by
      simpa using undone
    unfold GuestScheduler.pickNext
    simp only [wakePasses_eq]
    cases scan : (scanOrder sched.rrCursor (sched.threads.map (passed sched)).length).find? (fun index =>
        ((sched.threads.map (passed sched))[index]?.map GuestThread.state) == some State.ready) with
    | some index =>
      have ready := List.find?_some scan
      simp only [List.getElem?_map, Option.map_map, beq_iff_eq, Option.map_eq_some_iff] at ready
      obtain ⟨thread, found, state⟩ := ready
      exact .dispatches index thread found state
    | none =>
      have unready : Unready sched := by
        intro thread member ready
        obtain ⟨index, found⟩ := List.mem_iff_getElem?.mp member
        have inside : index < (sched.threads.map (passed sched)).length := by
          simpa using (List.getElem?_eq_some_iff.mp found).1
        have missed := List.find?_eq_none.mp scan index (scanOrder_covers sched.rrCursor inside)
        simp [found, ready] at missed
      simp only [List.any_map]
      split
      · rename_i time
        refine .idles unready ?_
        simpa using time
      · rename_i still
        have untimed : ∀ thread ∈ sched.threads, timed (passed sched thread) = false := by
          simpa using still
        split
        · exact .deadlocks unready untimed
        · rename_i free
          exact .falls unready untimed (by simpa using free) unfinished

end turns

end SeriesxEmu.Scheduler
