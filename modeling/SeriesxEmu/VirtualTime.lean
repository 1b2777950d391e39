import SeriesxEmu.ThreadFates

/-!
# Virtual time is exact

The clock advances only when no thread is ready after the wake passes. A thread
whose deadline has come is made ready by the passes of that very tick and runs
before the next one. So whenever code runs, the deadlines of all threads that
sleep or wait lie strictly in the future. Failed stack mappings use up handles
and change nothing of this.
-/

namespace SeriesxEmu.Scheduler

open GuestScheduler

variable {τ : Type}

/-- Some signal on the channel has woken the thread since it last blocked. -/
def SignaledSince (log : List (Entry τ)) (handle : Nat) (token : τ) : Prop :=
  ∃ later woken earlier, log = later ++ .signaled token woken :: earlier ∧ handle ∈ woken ∧
    .blocked handle ∉ later

/-- A token that was signaled since the call stays so, until the thread blocks again. -/
theorem SignaledSince.cons {log : List (Entry τ)} {handle : Nat} {token : τ}
    (signaled : SignaledSince log handle token) {entry : Entry τ} (other : entry ≠ .blocked handle) :
    SignaledSince (entry :: log) handle token := by
  obtain ⟨later, woken, earlier, rfl, member, unblocked⟩ := signaled
  refine ⟨entry :: later, woken, earlier, rfl, member, ?_⟩
  rw [List.mem_cons, not_or]
  exact ⟨fun same => other same.symm, unblocked⟩

/-- The deadline has not passed, and is still ahead while code runs. -/
def Ahead (tick : Nat) (active : Bool) (deadline : Nat) : Prop :=
  tick ≤ deadline ∧ (active = true → tick < deadline)

/-- What the clock says about a thread that is not switched in. -/
structure Punctual (tick : Nat) (active : Bool) (log : List (Entry τ)) (thread : GuestThread τ (Call τ)) :
    Prop where
  sleeps : thread.state = .sleeping → ∃ since ticks, thread.ctx = .sleepTicks since ticks ∧
    (since + ticks < uint64Max → thread.wakeTick = since + ticks ∧ Ahead tick active (since + ticks))
  waits : thread.state = .blockedWait → ∃ token since timeout,
    thread.ctx = .blockCurrent token since timeout ∧ thread.waitToken = token ∧
    (timeout ≠ 0 → since + timeout < uint64Max → thread.wakeTick = since + timeout ∧
      Ahead tick active (since + timeout))
  joins : thread.state = .blockedJoin → ∃ target, thread.ctx = .join target
  slept : thread.state = .ready → ∀ since ticks, thread.ctx = .sleepTicks since ticks → ticks ≠ 0 →
    since + ticks < uint64Max → tick = since + ticks
  waited : thread.state = .ready → ∀ token since timeout, thread.ctx = .blockCurrent token since timeout →
    timeout ≠ 0 → since + timeout < uint64Max →
    (thread.waitTimedOut = true ∧ tick = since + timeout) ∨
    (thread.waitTimedOut = false ∧ tick < since + timeout ∧ SignaledSince log thread.handle token)

/-- Every thread that is not switched in is on time. -/
def OnTime (machine : Machine τ) : Prop :=
  ∀ index thread, machine.sched.threads[index]? = some thread → machine.sched.current ≠ some index →
    Punctual machine.sched.tick machine.sched.active machine.log thread

/-- A thread that is finished or running, or ready in a call without a deadline. -/
theorem Punctual.free {tick : Nat} {active : Bool} {log : List (Entry τ)} {thread : GuestThread τ (Call τ)}
    (state : thread.state = .finished ∨ thread.state = .running ∨
      (thread.state = .ready ∧ (∀ since ticks, thread.ctx = .sleepTicks since ticks → ticks = 0) ∧
        ∀ token since timeout, thread.ctx ≠ .blockCurrent token since timeout)) :
    Punctual tick active log thread := by
  refine ⟨fun asleep => ?_, fun blocked => ?_, fun blocked => ?_, fun ready since ticks saved nonzero _ => ?_,
    fun ready token since timeout saved _ _ => ?_⟩
  · rcases state with other | other | ⟨other, _⟩ <;> rw [other] at asleep <;> cases asleep
  · rcases state with other | other | ⟨other, _⟩ <;> rw [other] at blocked <;> cases blocked
  · rcases state with other | other | ⟨other, _⟩ <;> rw [other] at blocked <;> cases blocked
  · rcases state with other | other | ⟨_, unslept, _⟩
    · rw [other] at ready; cases ready
    · rw [other] at ready; cases ready
    · exact absurd (unslept since ticks saved) nonzero
  · rcases state with other | other | ⟨_, _, unblocked⟩
    · rw [other] at ready; cases ready
    · rw [other] at ready; cases ready
    · exact absurd saved (unblocked token since timeout)

/-- Control goes back to the scheduler, or other threads are blocked and woken. -/
theorem Punctual.relax {tick : Nat} {active still : Bool} {log later : List (Entry τ)}
    {thread : GuestThread τ (Call τ)} (punctual : Punctual tick active log thread)
    (weaker : still = true → active = true)
    (kept : ∀ token, SignaledSince log thread.handle token → SignaledSince later thread.handle token) :
    Punctual tick still later thread := by
  refine ⟨fun asleep => ?_, fun blocked => ?_, punctual.joins, punctual.slept,
    fun ready token since timeout saved some bound => ?_⟩
  · obtain ⟨since, ticks, saved, ahead⟩ := punctual.sleeps asleep
    refine ⟨since, ticks, saved, fun bound => ?_⟩
    obtain ⟨deadline, before, strict⟩ := ahead bound
    exact ⟨deadline, before, fun runs => strict (weaker runs)⟩
  · obtain ⟨token, since, timeout, saved, channel, ahead⟩ := punctual.waits blocked
    refine ⟨token, since, timeout, saved, channel, fun some bound => ?_⟩
    obtain ⟨deadline, before, strict⟩ := ahead some bound
    exact ⟨deadline, before, fun runs => strict (weaker runs)⟩
  · rcases punctual.waited ready token since timeout saved some bound with expired | ⟨woken, early, signaled⟩
    · exact Or.inl expired
    · exact Or.inr ⟨woken, early, kept token signaled⟩

/-! ## A turn of the loop -/

variable {sched : GuestScheduler τ (Call τ)} {log : List (Entry τ)} {thread : GuestThread τ (Call τ)}

/-- The passes of a tick make exactly the threads ready whose deadline it is. -/
theorem Punctual.passed (punctual : Punctual sched.tick false log thread) :
    Punctual sched.tick true log (passed sched thread) := by
  rcases passed_cases sched thread with ⟨same, future⟩ | ⟨asleep, due, woken⟩ | ⟨blocked, due, expired⟩ |
    ⟨blocked, woken⟩
  · rw [same]
    refine ⟨fun asleep => ?_, fun blocked => ?_, punctual.joins, punctual.slept, punctual.waited⟩
    · obtain ⟨since, ticks, saved, ahead⟩ := punctual.sleeps asleep
      refine ⟨since, ticks, saved, fun bound => ?_⟩
      obtain ⟨deadline, before, _⟩ := ahead bound
      have strict := future (Or.inl asleep)
      exact ⟨deadline, before, fun _ => by omega⟩
    · obtain ⟨token, since, timeout, saved, channel, ahead⟩ := punctual.waits blocked
      refine ⟨token, since, timeout, saved, channel, fun some bound => ?_⟩
      obtain ⟨deadline, before, _⟩ := ahead some bound
      have strict := future (Or.inr blocked)
      exact ⟨deadline, before, fun _ => by omega⟩
  · obtain ⟨since, ticks, saved, ahead⟩ := punctual.sleeps asleep
    rw [woken]
    refine ⟨by simp, by simp, by simp, fun _ since' ticks' saved' some bound => ?_,
      fun _ token since' timeout saved' => ?_⟩
    · obtain ⟨rfl, rfl⟩ := Call.sleepTicks.inj (saved.symm.trans saved')
      obtain ⟨deadline, before, _⟩ := ahead bound
      omega
    · cases saved.symm.trans saved'
  · obtain ⟨token, since, timeout, saved, channel, ahead⟩ := punctual.waits blocked
    rw [expired]
    refine ⟨by simp, by simp, by simp, fun _ since' ticks saved' => ?_,
      fun _ token' since' timeout' saved' some bound => ?_⟩
    · cases saved.symm.trans saved'
    · obtain ⟨rfl, rfl, rfl⟩ := Call.blockCurrent.inj (saved.symm.trans saved')
      obtain ⟨deadline, before, _⟩ := ahead some bound
      exact Or.inl ⟨rfl, by omega⟩
  · obtain ⟨target, saved⟩ := punctual.joins blocked
    rw [woken]
    refine Punctual.free (Or.inr (Or.inr ⟨rfl, fun since ticks saved' => ?_, fun token since timeout saved' => ?_⟩))
    · cases saved.symm.trans saved'
    · cases saved.symm.trans saved'

/-- No thread is ready when the clock advances, and every deadline was ahead. -/
theorem Punctual.advance {tick : Nat} (punctual : Punctual tick true log thread)
    (unready : thread.state ≠ .ready) : Punctual ((tick + 1) % 2 ^ 64) false log thread := by
  refine ⟨fun asleep => ?_, fun blocked => ?_, punctual.joins, fun ready => absurd ready unready,
    fun ready => absurd ready unready⟩
  · obtain ⟨since, ticks, saved, ahead⟩ := punctual.sleeps asleep
    refine ⟨since, ticks, saved, fun bound => ?_⟩
    obtain ⟨deadline, _, strict⟩ := ahead bound
    have before := strict rfl
    have small : tick + 1 < 2 ^ 64 := by
      unfold uint64Max at bound
      omega
    rw [Nat.mod_eq_of_lt small]
    exact ⟨deadline, by omega, by simp⟩
  · obtain ⟨token, since, timeout, saved, channel, ahead⟩ := punctual.waits blocked
    refine ⟨token, since, timeout, saved, channel, fun some bound => ?_⟩
    obtain ⟨deadline, _, strict⟩ := ahead some bound
    have before := strict rfl
    have small : tick + 1 < 2 ^ 64 := by
      unfold uint64Max at bound
      omega
    rw [Nat.mod_eq_of_lt small]
    exact ⟨deadline, by omega, by simp⟩

/-- The thread returns on time from the call it is suspended in: from `sleep_ticks`
at its deadline, and from `block_current` either with false at the deadline or
with true before it, when a signal on the channel has woken it. -/
structure ReturnsExactly (log : List (Entry τ)) (tick : Nat) (thread : GuestThread τ (Call τ)) : Prop where
  sleep : ∀ since ticks, thread.ctx = .sleepTicks since ticks → 1 ≤ ticks → since + ticks < 2 ^ 64 - 1 →
    tick = since + ticks
  block : ∀ token since timeout, thread.ctx = .blockCurrent token since timeout → 1 ≤ timeout →
    since + timeout < 2 ^ 64 - 1 →
    (!thread.waitTimedOut) = false ∧ tick = since + timeout ∨
    (!thread.waitTimedOut) = true ∧ tick < since + timeout ∧ SignaledSince log thread.handle token

namespace OnTime

variable {machine : Machine τ}

/-- A turn keeps the machine on time. -/
theorem turn (onTime : OnTime machine) (idle : machine.sched.current = none)
    (inLoop : machine.sched.inLoop = true) : OnTime { machine with sched := machine.sched.loopTurn.1 } := by
  have resting : machine.sched.active = false := by simp [active, idle, inLoop]
  have passes : ∀ (index : Nat) thread, machine.sched.threads[index]? = some thread →
      Punctual machine.sched.tick true machine.log (passed machine.sched thread) := by
    intro index thread found
    have punctual := onTime index thread found (by simp [idle])
    rw [resting] at punctual
    exact punctual.passed
  have weaker : ∀ active (index : Nat) thread, machine.sched.threads[index]? = some thread →
      Punctual machine.sched.tick active machine.log (passed machine.sched thread) :=
    fun active index thread found =>
      (passes index thread found).relax (fun _ => rfl) (fun _ signaled => signaled)
  have turns := loopTurn_turns machine.sched
  generalize machine.sched.loopTurn.1 = after at turns ⊢
  generalize machine.sched.loopTurn.2 = outcome at turns
  intro index thread found other
  cases turns with
  | complete finished => exact Punctual.free (Or.inl (finished thread (List.mem_of_getElem? found)))
  | dispatches position dispatched here ready =>
    obtain ⟨middle, between, rfl⟩ := modify_origin found
    obtain ⟨earlier, before, rfl⟩ := Option.map_eq_some_iff.mp (List.getElem?_map ▸ between)
    rw [if_neg (fun same => other (congrArg some same))]
    exact weaker _ index earlier before
  | idles unready time =>
    obtain ⟨earlier, before, rfl⟩ := Option.map_eq_some_iff.mp (List.getElem?_map ▸ found)
    have advanced := (passes index earlier before).advance (unready earlier (List.mem_of_getElem? before))
    have still : GuestScheduler.active { machine.sched with
        threads := machine.sched.threads.map (passed machine.sched)
        tick := (machine.sched.tick + 1) % 2 ^ 64 } = false := resting
    rw [still]
    exact advanced
  | deadlocks unready still =>
    obtain ⟨earlier, before, rfl⟩ := Option.map_eq_some_iff.mp (List.getElem?_map ▸ found)
    exact weaker _ index earlier before
  | falls unready still free unfinished =>
    obtain ⟨earlier, before, rfl⟩ := Option.map_eq_some_iff.mp (List.getElem?_map ▸ found)
    exact weaker _ index earlier before

/-- The thread that a turn picks returns at the right time. -/
theorem dispatched (onTime : OnTime machine) (idle : machine.sched.current = none)
    (inLoop : machine.sched.inLoop = true) {index : Nat} {thread : GuestThread τ (Call τ)}
    (dispatched : machine.sched.loopTurn.1.current = some index)
    (found : machine.sched.loopTurn.1.threads[index]? = some thread) :
    ReturnsExactly machine.log machine.sched.loopTurn.1.tick thread := by
  have turns := loopTurn_turns machine.sched
  generalize machine.sched.loopTurn.1 = after at turns dispatched found ⊢
  generalize machine.sched.loopTurn.2 = outcome at turns
  cases turns with
  | dispatches position earlier here ready =>
    obtain rfl := Option.some.inj dispatched
    obtain rfl : switched (passed machine.sched earlier) = thread := by simpa [here] using found
    have resting : machine.sched.active = false := by simp [active, idle, inLoop]
    have punctual := onTime position earlier here (by simp [idle])
    rw [resting] at punctual
    have passed := punctual.passed
    refine ⟨fun since ticks saved some bound => ?_, fun token since timeout saved some bound => ?_⟩
    · exact passed.slept ready since ticks saved (Nat.pos_iff_ne_zero.mp some) bound
    · rcases passed.waited ready token since timeout saved (Nat.pos_iff_ne_zero.mp some) bound with
        ⟨expired, exactly⟩ | ⟨woken, early, signaled⟩
      · exact Or.inl ⟨by simp [switched, expired], exactly⟩
      · exact Or.inr ⟨by simp [switched, woken], early, signaled⟩
  | complete finished => cases idle.symm.trans dispatched
  | idles unready time => cases idle.symm.trans dispatched
  | deadlocks unready still => cases idle.symm.trans dispatched
  | falls unready still free unfinished => cases idle.symm.trans dispatched

/-- The thread that is switched in makes a call that switches it out. -/
theorem switchOut (onTime : OnTime machine) (ordered : Ordered machine.sched) {index : Nat}
    (switched : machine.sched.current = some index) (inLoop : machine.sched.inLoop = true)
    (change : GuestThread τ (Call τ) → GuestThread τ (Call τ))
    {log : List (Entry τ)} (noted : log = machine.log ∨ log = .blocked machine.sched.currentHandle :: machine.log)
    (punctual : ∀ thread, Punctual machine.sched.tick false log (change thread)) :
    OnTime { sched := (machine.sched.modifyThread index change).switchToScheduler, log } := by
  intro other thread found _
  obtain ⟨running, here, _⟩ := ordered.current index switched
  have resting : (machine.sched.modifyThread index change).switchToScheduler.active = false := by
    simp [active, switchToScheduler, modifyThread, inLoop]
  rw [resting]
  obtain ⟨earlier, before, rfl⟩ := modify_origin found
  split
  · exact punctual earlier
  · rename_i different
    have still := onTime other earlier before (by rw [switched]; simpa using different)
    refine still.relax (by simp) (fun token signaled => ?_)
    rcases noted with rfl | rfl
    · exact signaled
    · -- the entry is about the running thread, which has another handle
      refine signaled.cons (fun same => ?_)
      have own : machine.sched.currentHandle = running.handle := by simp [currentHandle, switched, here]
      have handles := Entry.blocked.inj same
      rw [own] at handles
      exact different (ordered.unique here before handles)

/-- A signal keeps the machine on time: it notes what it wakes. -/
theorem signal [DecidableEq τ] (onTime : OnTime machine)
    (active : machine.sched.active = true) (token : τ) (all : Bool) :
    OnTime
      { sched := (machine.sched.signal token all).1
        log := .signaled token (wokenHandles machine.sched.threads (machine.sched.signal token all).1.threads) ::
          machine.log } := by
  intro index thread found other
  have woken := signalThreads_wakes token all machine.sched.threads
  obtain ⟨earlier, before, changed⟩ := woken.origin index thread found
  have punctual := onTime index earlier before other
  rcases changed with rfl | ⟨blocked, rfl, rfl⟩
  · exact punctual.relax id (fun _ signaled => signaled.cons (by simp))
  · obtain ⟨token', since, timeout, saved, channel, ahead⟩ := punctual.waits blocked
    refine ⟨by simp [GuestThread.wake], by simp [GuestThread.wake], by simp [GuestThread.wake],
      fun _ since' ticks saved' => ?_, fun _ token'' since' timeout' saved' some bound => ?_⟩
    · cases saved.symm.trans saved'
    · obtain ⟨rfl, rfl, rfl⟩ := Call.blockCurrent.inj (saved.symm.trans saved')
      obtain ⟨_, _, strict⟩ := ahead some bound
      subst channel
      refine Or.inr ⟨rfl, strict active, [], _, machine.log, rfl, ?_, by simp⟩
      · have inside : (earlier, earlier.wake) ∈ machine.sched.threads.zip
            (machine.sched.signal earlier.waitToken all).1.threads := by
          refine List.mem_iff_getElem?.mpr ⟨index, ?_⟩
          rw [List.getElem?_zip_eq_some]
          exact ⟨before, found⟩
        refine List.mem_filterMap.mpr ⟨_, inside, ?_⟩
        simp [blocked, GuestThread.wake]

end OnTime

/-! ## Runs -/

namespace Machine

variable [DecidableEq τ] [Inhabited τ] {machine next : Machine τ}

/-- What holds between two attempts. A thread is switched in by the loop only. -/
structure Timely (machine : Machine τ) : Prop where
  ordered : Ordered machine.sched
  inLoop : machine.sched.current.isSome = true → machine.sched.inLoop = true
  onTime : OnTime machine

/-- A thread runs inside of the loop only. -/
theorem inLoop_step {operation : Operation τ}
    (inLoop : machine.sched.current.isSome = true → machine.sched.inLoop = true)
    (stepped : machine.step operation = some next) : next.sched.current.isSome = true → next.sched.inLoop = true := by
  have out {sched : GuestScheduler τ (Call τ)} (switched : sched.switchToScheduler.current.isSome = true) :
      sched.switchToScheduler.inLoop = true := by cases switched
  cases operation with
  | run =>
    obtain ⟨_, rfl⟩ := run_cases stepped
    exact fun _ => rfl
  | turn =>
    obtain ⟨idle, loop, rfl⟩ := turn_cases stepped
    have turns := loopTurn_turns machine.sched
    generalize machine.sched.loopTurn.1 = after at turns ⊢
    generalize machine.sched.loopTurn.2 = outcome at turns
    cases turns with
    | dispatches _ _ _ _ => exact fun _ => loop
    | complete _ | idles _ _ | deadlocks _ _ | falls _ _ _ _ => simp [idle]
  | yield | exit =>
    obtain ⟨index, _, rfl⟩ := Option.map_eq_some_iff.mp stepped
    exact out
  | sleepTicks ticks =>
    obtain ⟨index, _, rfl⟩ := Option.map_eq_some_iff.mp stepped
    simp only [threadSleep, threadYield]
    split
    · exact out
    · exact out
  | join target =>
    rcases join_cases stepped with rfl | ⟨index, _, rfl⟩
    · exact inLoop
    · exact out
  | blockCurrent token timeout =>
    rcases blockCurrent_cases stepped with rfl | ⟨index, _, rfl⟩
    · exact inLoop
    · exact out
  | signal token all =>
    obtain ⟨_, rfl⟩ := signal_cases stepped
    exact inLoop
  | spawn stackTopReserve base =>
    obtain ⟨_, rfl⟩ := spawn_cases stepped
    simp only [spawnReserved]
    split
    · exact inLoop
    · exact inLoop

/-- Every operation keeps the machine on time. -/
theorem onTime_step {operation : Operation τ} (timely : Timely machine)
    (stepped : machine.step operation = some next) : OnTime next := by
  obtain ⟨ordered, looping, onTime⟩ := timely
  have inLoop {index : Nat} (switched : machine.sched.current = some index) : machine.sched.inLoop = true :=
    looping (by rw [switched]; rfl)
  cases operation with
  | run =>
    obtain ⟨idle, rfl⟩ := run_cases stepped
    intro index thread found other
    exact (onTime index thread found other).relax (by simp [active, idle]) (fun _ signaled => signaled)
  | turn =>
    obtain ⟨idle, inLoop, rfl⟩ := turn_cases stepped
    exact onTime.turn idle inLoop
  | yield =>
    obtain ⟨index, switched, rfl⟩ := Option.map_eq_some_iff.mp stepped
    exact onTime.switchOut ordered switched (inLoop switched) _ (Or.inl rfl)
      (fun _ => Punctual.free (Or.inr (Or.inr ⟨rfl, by simp, by simp⟩)))
  | sleepTicks ticks =>
    obtain ⟨index, switched, rfl⟩ := Option.map_eq_some_iff.mp stepped
    simp only [threadSleep, threadYield]
    split
    · rename_i zero
      exact onTime.switchOut ordered switched (inLoop switched) _ (Or.inl rfl)
        (fun _ => Punctual.free (Or.inr (Or.inr ⟨rfl, by simp [zero], by simp⟩)))
    · refine onTime.switchOut ordered switched (inLoop switched) _ (Or.inl rfl) (fun _ =>
        ⟨fun _ => ⟨_, _, rfl, fun bound => ⟨?_, Nat.le_add_right _ _, by simp⟩⟩, by simp, by simp, by simp, by simp⟩)
      exact Nat.mod_eq_of_lt (Nat.lt_of_lt_of_le bound (Nat.sub_le _ _))
  | join target =>
    rcases join_cases stepped with rfl | ⟨index, switched, rfl⟩
    · exact onTime
    · exact onTime.switchOut ordered switched (inLoop switched) _ (Or.inl rfl)
        (fun _ => ⟨by simp, by simp, fun _ => ⟨target, rfl⟩, by simp, by simp⟩)
  | blockCurrent token timeout =>
    rcases blockCurrent_cases stepped with rfl | ⟨index, switched, rfl⟩
    · exact onTime
    · refine onTime.switchOut ordered switched (inLoop switched) _ (Or.inr rfl) (fun _ => ⟨by simp,
        fun _ => ⟨_, _, _, rfl, rfl, fun some bound => ⟨?_, Nat.le_add_right _ _, by simp⟩⟩, by simp, by simp, by simp⟩)
      rw [if_neg (by simpa [kNoTimeout] using some)]
      exact Nat.mod_eq_of_lt (Nat.lt_of_lt_of_le bound (Nat.sub_le _ _))
  | signal token all =>
    obtain ⟨active, rfl⟩ := signal_cases stepped
    exact onTime.signal active token all
  | spawn stackTopReserve base =>
    obtain ⟨_, rfl⟩ := spawn_cases stepped
    unfold GuestScheduler.spawnReserved
    split
    · exact onTime
    · intro index thread found other
      rcases append_origin found with old | ⟨_, rfl⟩
      · exact onTime index thread old other
      · exact Punctual.free (Or.inr (Or.inr ⟨rfl, by simp, by simp⟩))
  | exit code =>
    obtain ⟨index, switched, rfl⟩ := Option.map_eq_some_iff.mp stepped
    exact onTime.switchOut ordered switched (inLoop switched) _ (Or.inl rfl) (fun _ => Punctual.free (Or.inl rfl))

/-- A mapping that fails touches no thread, and neither the clock nor the log. -/
theorem Timely.attempt (timely : Timely machine) {attempt : Attempt τ} (stepped : machine.attempt attempt = some next) :
    Timely next := by
  have ordered := (ordered_attempt timely.ordered stepped).1
  cases attempt with
  | operation operation => exact ⟨ordered, inLoop_step timely.inLoop stepped, onTime_step timely stepped⟩
  | unmapped stackTopReserve =>
    obtain ⟨_, ⟨_, rfl⟩ | ⟨_, rfl⟩⟩ := unmapped_cases stepped
    · exact timely
    · exact ⟨ordered, timely.inLoop, timely.onTime⟩

/-- Every reached machine is on time.

Proof: induction over the attempts, with the failing ones left out of the threads. -/
theorem timely_run {attempts : List (Attempt τ)} (reached : Runs.run Machine.attempt {} attempts = some machine) :
    Timely machine := by
  have start : Timely ({} : Machine τ) := ⟨Ordered.initial, by simp, by intro index thread found; cases found⟩
  exact Runs.run_preserves (fun _ _ _ timely stepped => timely.attempt stepped) {} machine attempts start reached

/-- **Exact time.** Whatever the threads do and whichever stack mappings fail, every thread that a
turn switches in returns exactly on time, and while code runs no blocked thread has reached its
deadline, so no signal wakes one that has.

Proof: the clock advances only when nothing is ready, and the passes of a tick make ready every
thread whose deadline it is. So deadlines are ahead while code runs, which every attempt keeps. -/
theorem exact_time {attempts : List (Attempt τ)} (reached : Runs.run Machine.attempt {} attempts = some machine) :
    (∀ index thread, machine.step .turn = some next → next.sched.current = some index →
      next.sched.threads[index]? = some thread → ReturnsExactly next.log next.sched.tick thread) ∧
    (∀ thread ∈ machine.sched.threads, machine.sched.active = true → thread.state = .blockedWait →
      ∃ token since timeout, thread.ctx = .blockCurrent token since timeout ∧ thread.waitToken = token ∧
        (1 ≤ timeout → since + timeout < 2 ^ 64 - 1 → machine.sched.tick < since + timeout)) := by
  obtain ⟨ordered, looping, onTime⟩ := timely_run reached
  constructor
  · intro index thread stepped dispatched found
    obtain ⟨idle, inLoop, rfl⟩ := turn_cases stepped
    exact onTime.dispatched idle inLoop dispatched found
  · intro thread member active blocked
    obtain ⟨index, found⟩ := List.mem_iff_getElem?.mp member
    have other : machine.sched.current ≠ some index := by
      intro switched
      obtain ⟨same, again, state⟩ := ordered.current index switched
      obtain rfl := Option.some.inj (found.symm.trans again)
      rw [blocked] at state
      simp at state
    obtain ⟨token, since, timeout, saved, channel, ahead⟩ := (onTime index thread found other).waits blocked
    refine ⟨token, since, timeout, saved, channel, fun some bound => ?_⟩
    exact (ahead (Nat.pos_iff_ne_zero.mp some) bound).2.2 active

/-- A stack cannot be mapped, and two threads are spawned. One sleeps for two ticks; the other waits
for one tick and then waits again for three, and is signaled by the first after two. -/
def sleepsAndSignals : List (Attempt Nat) :=
  [.unmapped 0] ++ [.spawn 0 0, .spawn 0 0, .run, .turn, .sleepTicks 2, .turn, .blockCurrent 5 1, .turn, .turn,
    .blockCurrent 5 3, .turn, .turn, .signal 5 false, .exit 0].map Attempt.operation

/-- A thread that is signaled before its deadline returns with the signal. -/
theorem sleepsAndSignals_exact : ∃ machine next thread, Runs.run Machine.attempt {} sleepsAndSignals = some machine ∧
    machine.step .turn = some next ∧ thread.ctx = .blockCurrent 5 1 3 ∧
      ReturnsExactly next.log next.sched.tick thread := by
  have switches : (Runs.run Machine.attempt {} sleepsAndSignals).bind (fun machine => (machine.step .turn).bind
      (fun next => next.sched.threads[1]?.map (fun thread => (next.sched.current, thread.ctx)))) =
      some (some 1, .blockCurrent 5 1 3) := by decide +kernel
  obtain ⟨machine, reached, turned⟩ := Option.bind_eq_some_iff.mp switches
  obtain ⟨next, stepped, found⟩ := Option.bind_eq_some_iff.mp turned
  obtain ⟨thread, here, same⟩ := Option.map_eq_some_iff.mp found
  obtain ⟨dispatched, saved⟩ := Prod.mk.inj same
  exact ⟨machine, next, thread, reached, stepped, saved, (exact_time reached).1 1 thread stepped dispatched here⟩

end Machine

end SeriesxEmu.Scheduler
