import SeriesxEmu.Scheduler
import SeriesxEmu.Runs

/-!
# Runs of the scheduler alone

Fibers with arbitrary bodies, on a scheduler of their own. A body is a sequence
of calls of the scheduler's interface, so a run is a list of operations: the
host spawns threads, signals and enters `run_until_complete`, each turn of the
loop switches a thread in, lets virtual time pass or returns, and the thread
that is switched in makes calls until one of them switches it out. Whatever the
bodies compute is in the choice of the next operation. Stack mappings and
`swapcontext` are assumed to succeed, and no finish hook is installed.

The context of a switched-out thread is the call it is suspended in, with the
tick at which it made that call.
-/

namespace SeriesxEmu.Scheduler

/-- The call that a thread was in when it was last switched out. -/
inductive Call (τ : Type) where
  | entry
  | yield
  | sleepTicks (since ticks : Nat)
  | join (target : Nat)
  | blockCurrent (token : τ) (since timeout : Nat)
deriving DecidableEq, Repr

/-- What the scheduler was asked to do: a thread blocked itself, or the threads
waiting on a channel were signaled and these were woken. -/
inductive Entry (τ : Type) where
  | blocked (handle : Nat)
  | signaled (token : τ) (woken : List Nat)
deriving DecidableEq, Repr

/-- The scheduler and a log of the blocks and signals so far, newest first. No
operation reads the log. -/
structure Machine (τ : Type) where
  sched : GuestScheduler τ (Call τ) := {}
  log : List (Entry τ) := []

/-- What the host and the fibers ask of the scheduler. -/
inductive Operation (τ : Type) where
  /-- The host calls `run_until_complete`. -/
  | run
  /-- One turn of its loop. -/
  | turn
  | yield
  | sleepTicks (ticks : Nat)
  | join (target : Nat)
  | blockCurrent (token : τ) (timeout : Nat)
  | signal (token : τ) (all : Bool)
  | spawn (stackTopReserve base : Nat)
  | exit (code : Int)

variable {τ κ : Type}

namespace GuestScheduler

/-- Code is running: a thread is switched in, or control is with the host. -/
def active (sched : GuestScheduler τ κ) : Bool := sched.current.isSome || !sched.inLoop

/-- `thread_finish` without hooks. -/
def threadExit (sched : GuestScheduler τ κ) (index : Nat) (code : Int) : GuestScheduler τ κ :=
  (sched.modifyThread index (fun thread =>
    { thread with exitCode := code, state := .finished })).switchToScheduler

/-- The handles of the threads that a signal has made ready. -/
def wokenHandles (before after : List (GuestThread τ κ)) : List Nat :=
  (before.zip after).filterMap (fun pair =>
    if pair.1.state = .blockedWait ∧ pair.2.state = .ready then some pair.1.handle else none)

end GuestScheduler

open GuestScheduler

namespace Machine

variable [DecidableEq τ] [Inhabited τ]

/-- One operation. The calls of a thread's own interface need a thread that is
switched in; `join` and `block_current` return at once when the host calls them. -/
def step (machine : Machine τ) : Operation τ → Option (Machine τ)
  | .run =>
    if machine.sched.current.isNone && !machine.sched.inLoop then
      some { machine with sched := { machine.sched with inLoop := true } }
    else none
  | .turn =>
    if machine.sched.current.isNone && machine.sched.inLoop then
      some { machine with sched := machine.sched.loopTurn.1 }
    else none
  | .yield => machine.sched.current.map (fun index =>
      { machine with sched := machine.sched.threadYield index (fun _ => .yield) })
  | .sleepTicks ticks => machine.sched.current.map (fun index =>
      { machine with sched :=
          machine.sched.threadSleep index ticks (fun _ => .sleepTicks machine.sched.tick ticks) })
  | .join target =>
    match machine.sched.current with
    | none => if machine.sched.inLoop then none else some machine
    | some index =>
      some { machine with sched := (machine.sched.join index target (fun _ => .join target)).1 }
  | .blockCurrent token timeout =>
    match machine.sched.current with
    | none => if machine.sched.inLoop then none else some machine
    | some index =>
      some
        { sched := machine.sched.threadBlock index token timeout
            (fun _ => .blockCurrent token machine.sched.tick timeout)
          log := .blocked machine.sched.currentHandle :: machine.log }
  | .signal token all =>
    if machine.sched.active then
      some
        { sched := (machine.sched.signal token all).1
          log := .signaled token
            (wokenHandles machine.sched.threads (machine.sched.signal token all).1.threads) :: machine.log }
    else none
  | .spawn stackTopReserve base =>
    if machine.sched.active then
      some { machine with
        sched := (machine.sched.spawnReserved .entry stackTopReserve (some base)).1 }
    else none
  | .exit code => machine.sched.current.map (fun index =>
      { machine with sched := machine.sched.threadExit index code })

/-- The operations lead from a new scheduler to the machine. -/
def Reaches (machine : Machine τ) (operations : List (Operation τ)) : Prop :=
  Runs.run step {} operations = some machine

end Machine

/-! ## Changed lists of threads -/

/-- After a change of one entry each is an old one, perhaps changed. -/
theorem modify_origin {α : Type} {entries : List α} {index other : Nat} {change : α → α} {after : α}
    (found : (entries.modify index change)[other]? = some after) :
    ∃ entry, entries[other]? = some entry ∧ after = if index = other then change entry else entry := by
  rw [List.getElem?_modify] at found
  obtain ⟨entry, before, same⟩ := Option.map_eq_some_iff.mp found
  exact ⟨entry, before, same.symm⟩

/-- After one more, each is an old one or that. -/
theorem append_origin {α : Type} {entries : List α} {last after : α} {index : Nat}
    (found : (entries ++ [last])[index]? = some after) :
    entries[index]? = some after ∨ (index = entries.length ∧ after = last) := by
  rw [List.getElem?_append] at found
  split at found
  · exact Or.inl found
  · have inside := (List.getElem?_eq_some_iff.mp found).1
    have zero : index - entries.length = 0 := by simpa using inside
    rw [zero] at found
    exact Or.inr ⟨by omega, (by simpa using found.symm)⟩

/-! ## The states a run goes through -/

/-- What holds between two operations. Handles are positions; a thread that is
switched in is neither asleep nor blocked nor finished, control is in the loop
meanwhile, and no other thread is left in the state `running`. -/
structure Sound (sched : GuestScheduler τ κ) : Prop where
  handles : ∀ index thread, sched.threads[index]? = some thread → thread.handle = index + 1
  next : sched.nextHandle = sched.threads.length + 1
  current : ∀ index, sched.current = some index → sched.inLoop = true ∧
    ∃ thread, sched.threads[index]? = some thread ∧ (thread.state = .ready ∨ thread.state = .running)
  running : ∀ index thread, sched.threads[index]? = some thread → thread.state = .running →
    sched.current = some index

/-- The thread that is switched in changes and is switched out. -/
theorem Sound.switchOut {sched : GuestScheduler τ κ} (sound : Sound sched) {index : Nat}
    (switched : sched.current = some index) (change : GuestThread τ κ → GuestThread τ κ)
    (handle : ∀ thread, (change thread).handle = thread.handle)
    (stops : ∀ thread, (change thread).state ≠ .running) :
    Sound (sched.modifyThread index change).switchToScheduler := by
  refine ⟨fun other thread found => ?_, ?_, fun other again => ?_, fun other thread found runs => ?_⟩
  · obtain ⟨earlier, before, rfl⟩ := modify_origin found
    have same := sound.handles other earlier before
    split
    · rw [handle]
      exact same
    · exact same
  · simpa [switchToScheduler, modifyThread] using sound.next
  · cases again
  · obtain ⟨earlier, before, rfl⟩ := modify_origin found
    split at runs
    · exact absurd runs (stops earlier)
    · rename_i different
      have same := sound.running other earlier before runs
      rw [switched] at same
      exact absurd (Option.some.inj same) different

/-- The passes keep handles. -/
theorem passed_handle (sched : GuestScheduler τ κ) (thread : GuestThread τ κ) :
    (passed sched thread).handle = thread.handle := by
  rcases passed_cases sched thread with ⟨same, _⟩ | ⟨_, _, same⟩ | ⟨_, _, same⟩ | ⟨_, same⟩ <;> rw [same]

/-- They set nobody running. -/
theorem passed_running {sched : GuestScheduler τ κ} {thread : GuestThread τ κ}
    (runs : (passed sched thread).state = .running) : thread.state = .running := by
  rcases passed_cases sched thread with ⟨same, _⟩ | ⟨_, _, same⟩ | ⟨_, _, same⟩ | ⟨_, same⟩
  · rwa [same] at runs
  all_goals
    rw [same] at runs
    cases runs

/-- While control is in the scheduler no thread is in the state `running`. -/
theorem Sound.stopped {sched : GuestScheduler τ κ} (sound : Sound sched) (idle : sched.current = none)
    {thread : GuestThread τ κ} (member : thread ∈ sched.threads) : thread.state ≠ .running := by
  intro runs
  obtain ⟨index, found⟩ := List.mem_iff_getElem?.mp member
  have switched := sound.running index thread found runs
  rw [idle] at switched
  cases switched

/-- The wake passes, with no thread switched in. -/
theorem Sound.passes {sched : GuestScheduler τ κ} (sound : Sound sched) (idle : sched.current = none)
    (tick : Nat) (inLoop deadlocked : Bool) :
    Sound { sched with threads := sched.threads.map (passed sched), tick, inLoop, deadlocked } := by
  refine ⟨fun index thread found => ?_, by simpa using sound.next, fun index switched => ?_,
    fun index thread found runs => ?_⟩
  · obtain ⟨earlier, before, rfl⟩ := Option.map_eq_some_iff.mp (List.getElem?_map ▸ found)
    rw [passed_handle]
    exact sound.handles index earlier before
  · rw [idle] at switched
    cases switched
  · obtain ⟨earlier, before, rfl⟩ := Option.map_eq_some_iff.mp (List.getElem?_map ▸ found)
    exact absurd (passed_running runs) (sound.stopped idle (List.mem_of_getElem? before))

/-- A turn of the loop keeps the scheduler sound. -/
theorem Sound.turn {sched : GuestScheduler τ κ} (sound : Sound sched) (idle : sched.current = none)
    (inLoop : sched.inLoop = true) : Sound sched.loopTurn.1 := by
  have turns := loopTurn_turns sched
  generalize sched.loopTurn.1 = after at turns
  generalize sched.loopTurn.2 = outcome at turns
  cases turns with
  | complete finished =>
    refine ⟨sound.handles, sound.next, fun index switched => ?_, sound.running⟩
    rw [idle] at switched
    cases switched
  | idles unready time => exact sound.passes idle _ sched.inLoop sched.deadlocked
  | deadlocks unready still => exact sound.passes idle sched.tick false true
  | falls unready still free unfinished => exact sound.passes idle sched.tick false sched.deadlocked
  | dispatches index thread found ready =>
    have passes := sound.passes idle sched.tick sched.inLoop sched.deadlocked
    have here : (sched.threads.map (passed sched))[index]? = some (passed sched thread) := by simp [found]
    refine ⟨fun other after again => ?_, by simpa using sound.next, fun other again => ?_,
      fun other after again runs => ?_⟩
    · obtain ⟨earlier, before, rfl⟩ := modify_origin again
      have same := passes.handles other earlier before
      split
      · exact same
      · exact same
    · obtain rfl := Option.some.inj again
      refine ⟨inLoop, switched (passed sched thread), by simp [found], ?_⟩
      simp only [switched, ready]
      split
      · exact Or.inl rfl
      · exact Or.inr rfl
    · obtain ⟨earlier, before, rfl⟩ := modify_origin again
      split at runs
      · rename_i same
        rw [same]
      · have stale := passes.running other earlier before runs
        rw [show sched.current = some other from stale] at idle
        cases idle

/-- Wake-ups touch only blocked threads. -/
theorem Sound.wakes {sched : GuestScheduler τ κ} (sound : Sound sched) {channel : τ → Prop}
    {threads : List (GuestThread τ κ)} (woken : Wakes channel sched.threads threads) :
    Sound { sched with threads } := by
  refine ⟨fun index thread found => ?_, by simpa [woken.length] using sound.next, fun index switched => ?_,
    fun index thread found runs => ?_⟩
  · obtain ⟨earlier, before, rfl | ⟨_, _, rfl⟩⟩ := woken.origin index thread found
    · exact sound.handles index thread before
    · exact sound.handles index earlier before
  · obtain ⟨inLoop, thread, found, state⟩ := sound.current index switched
    refine ⟨inLoop, thread, ?_, state⟩
    rcases woken.each index thread found with same | ⟨blocked, _, _⟩
    · exact same
    · rw [blocked] at state
      simp at state
  · obtain ⟨earlier, before, rfl | ⟨_, _, rfl⟩⟩ := woken.origin index thread found
    · exact sound.running index thread before runs
    · cases runs

/-- So does a spawn. -/
theorem Sound.spawn [Inhabited τ] {sched : GuestScheduler τ κ} (sound : Sound sched) (ctx : κ)
    (stackTopReserve base : Nat) : Sound (sched.spawnReserved ctx stackTopReserve (some base)).1 := by
  unfold GuestScheduler.spawnReserved
  split
  · exact sound
  · refine ⟨fun index thread found => ?_, by simp [sound.next], fun index switched => ?_,
      fun index thread found runs => ?_⟩
    · rcases append_origin found with old | ⟨rfl, rfl⟩
      · exact sound.handles index thread old
      · exact sound.next
    · obtain ⟨inLoop, thread, found, state⟩ := sound.current index switched
      refine ⟨inLoop, thread, ?_, state⟩
      rw [List.getElem?_append_left (List.getElem?_eq_some_iff.mp found).1]
      exact found
    · rcases append_origin found with old | ⟨_, rfl⟩
      · exact sound.running index thread old runs
      · cases runs

namespace Machine

variable [DecidableEq τ] [Inhabited τ] {machine next : Machine τ}

/-! ## What one operation does -/

/-- What starting the loop does. -/
theorem run_cases (stepped : machine.step .run = some next) :
    machine.sched.current = none ∧ next = { machine with sched := { machine.sched with inLoop := true } } := by
  simp only [step] at stepped
  split at stepped
  · rename_i idle
    simp only [Bool.and_eq_true, Option.isNone_iff_eq_none] at idle
    exact ⟨idle.1, (Option.some.inj stepped).symm⟩
  · cases stepped

/-- What one turn does. -/
theorem turn_cases (stepped : machine.step .turn = some next) :
    machine.sched.current = none ∧ machine.sched.inLoop = true ∧
      next = { machine with sched := machine.sched.loopTurn.1 } := by
  simp only [step] at stepped
  split at stepped
  · rename_i idle
    simp only [Bool.and_eq_true, Option.isNone_iff_eq_none] at idle
    exact ⟨idle.1, idle.2, (Option.some.inj stepped).symm⟩
  · cases stepped

/-- What a join does. -/
theorem join_cases {target : Nat} (stepped : machine.step (.join target) = some next) :
    next = machine ∨ ∃ index, machine.sched.current = some index ∧
      next = { machine with sched := (machine.sched.modifyThread index (fun thread =>
        { thread with joinTarget := target, state := .blockedJoin, ctx := .join target })).switchToScheduler } := by
  simp only [step] at stepped
  split at stepped
  · split at stepped
    · cases stepped
    · exact Or.inl (Option.some.inj stepped).symm
  · rename_i index switched
    obtain rfl := Option.some.inj stepped
    rcases GuestScheduler.join_cases machine.sched index target (fun _ => .join target) with same | same
    · exact Or.inl (by rw [same])
    · exact Or.inr ⟨index, switched, by rw [same]⟩

/-- The host is not blocked; a thread that is switched in is. -/
theorem blockCurrent_cases {token : τ} {timeout : Nat} (stepped : machine.step (.blockCurrent token timeout) = some next) :
    next = machine ∨ ∃ index, machine.sched.current = some index ∧
      next =
        { sched := machine.sched.threadBlock index token timeout
            (fun _ => .blockCurrent token machine.sched.tick timeout)
          log := .blocked machine.sched.currentHandle :: machine.log } := by
  simp only [step] at stepped
  split at stepped
  · split at stepped
    · cases stepped
    · exact Or.inl (Option.some.inj stepped).symm
  · rename_i index switched
    exact Or.inr ⟨index, switched, (Option.some.inj stepped).symm⟩

/-- What a signal does. -/
theorem signal_cases {token : τ} {all : Bool} (stepped : machine.step (.signal token all) = some next) :
    machine.sched.active = true ∧ next =
      { sched := (machine.sched.signal token all).1
        log := .signaled token
          (wokenHandles machine.sched.threads (machine.sched.signal token all).1.threads) :: machine.log } := by
  simp only [step] at stepped
  split at stepped
  · rename_i active
    exact ⟨active, (Option.some.inj stepped).symm⟩
  · cases stepped

/-- What a spawn does. -/
theorem spawn_cases {stackTopReserve base : Nat} (stepped : machine.step (.spawn stackTopReserve base) = some next) :
    machine.sched.active = true ∧
      next = { machine with sched := (machine.sched.spawnReserved .entry stackTopReserve (some base)).1 } := by
  simp only [step] at stepped
  split at stepped
  · rename_i active
    exact ⟨active, (Option.some.inj stepped).symm⟩
  · cases stepped

/-- Every operation keeps the scheduler sound. -/
theorem sound_step {operation : Operation τ} (sound : Sound machine.sched)
    (stepped : machine.step operation = some next) : Sound next.sched := by
  cases operation with
  | run =>
    obtain ⟨idle, rfl⟩ := run_cases stepped
    refine ⟨sound.handles, sound.next, fun index switched => ?_, sound.running⟩
    cases idle.symm.trans switched
  | turn =>
    obtain ⟨idle, inLoop, rfl⟩ := turn_cases stepped
    exact sound.turn idle inLoop
  | yield =>
    obtain ⟨index, switched, rfl⟩ := Option.map_eq_some_iff.mp stepped
    exact sound.switchOut switched _ (fun _ => rfl) (fun _ => by simp)
  | sleepTicks ticks =>
    obtain ⟨index, switched, rfl⟩ := Option.map_eq_some_iff.mp stepped
    simp only [threadSleep, threadYield]
    split
    · exact sound.switchOut switched _ (fun _ => rfl) (fun _ => by simp)
    · exact sound.switchOut switched _ (fun _ => rfl) (fun _ => by simp)
  | join target =>
    rcases join_cases stepped with rfl | ⟨index, switched, rfl⟩
    · exact sound
    · exact sound.switchOut switched _ (fun _ => rfl) (fun _ => by simp)
  | blockCurrent token timeout =>
    rcases blockCurrent_cases stepped with rfl | ⟨index, switched, rfl⟩
    · exact sound
    · exact sound.switchOut switched _ (fun _ => rfl) (fun _ => by simp)
  | signal token all =>
    obtain ⟨_, rfl⟩ := signal_cases stepped
    exact sound.wakes (signalThreads_wakes token all machine.sched.threads)
  | spawn stackTopReserve base =>
    obtain ⟨_, rfl⟩ := spawn_cases stepped
    exact sound.spawn _ _ _
  | exit code =>
    obtain ⟨index, switched, rfl⟩ := Option.map_eq_some_iff.mp stepped
    exact sound.switchOut switched _ (fun _ => rfl) (fun _ => by simp)

/-- So it is sound in every reachable state. -/
theorem Reaches.sound {operations : List (Operation τ)} (reached : machine.Reaches operations) :
    Sound machine.sched := by
  have start : Sound ({} : Machine τ).sched := ⟨by simp, rfl, by simp, by simp⟩
  exact Runs.run_preserves (fun _ _ _ holds stepped => sound_step holds stepped) {} machine operations
    start reached

end Machine

/-! ## What `run_until_complete` reports -/

/-- The state in which `run_until_complete` may report a deadlock. `wake_tick_` is
the deadline of a blocked thread, and its greatest value stands for no deadline. -/
structure Stuck (sched : GuestScheduler τ κ) : Prop where
  reported : sched.deadlocked = true
  quiet : ∀ thread ∈ sched.threads, thread.state ≠ .ready ∧ thread.state ≠ .running ∧
    thread.state ≠ .sleeping ∧ (thread.state = .blockedWait → thread.wakeTick = uint64Max)
  unfinished : ∀ thread ∈ sched.threads, thread.state ≠ .finished →
    (thread.state = .blockedJoin ∧ ∃ target ∈ sched.threads, target.handle = thread.joinTarget ∧
      target.state ≠ .finished) ∨
    (thread.state = .blockedWait ∧ thread.wakeTick = uint64Max)

/-- The passes finish nobody. -/
theorem passed_finished {sched : GuestScheduler τ κ} {thread : GuestThread τ κ} :
    (passed sched thread).state = .finished ↔ thread.state = .finished := by
  rcases passed_cases sched thread with ⟨same, _⟩ | ⟨state, _, same⟩ | ⟨state, _, same⟩ | ⟨state, same⟩ <;>
    simp_all

/-- A thread that is neither ready nor timed has finished or waits without a deadline. -/
theorem unready_cases {thread : GuestThread τ κ} (unready : thread.state ≠ .ready)
    (stopped : thread.state ≠ .running) (still : timed thread = false) :
    thread.state = .finished ∨ thread.state = .blockedJoin ∨
      (thread.state = .blockedWait ∧ thread.wakeTick = uint64Max) := by
  cases state : thread.state <;> simp_all [timed]

/-- When nobody is ready and no deadline is left, the scheduler is stuck. -/
theorem Sound.stuck {sched : GuestScheduler τ κ} (sound : Sound sched) (idle : sched.current = none)
    (unready : Unready sched) (still : ∀ thread ∈ sched.threads, timed (passed sched thread) = false) :
    Stuck { sched with threads := sched.threads.map (passed sched), deadlocked := true, inLoop := false } := by
  have cases := fun thread member => unready_cases (unready thread member)
    (fun runs => sound.stopped idle member (passed_running runs)) (still thread member)
  refine ⟨rfl, fun after member => ?_, fun after member unfinished => ?_⟩
  · obtain ⟨thread, before, rfl⟩ := List.mem_map.mp member
    rcases cases thread before with state | state | ⟨state, forever⟩
    · simp [state]
    · simp [state]
    · simp [state, forever]
  · obtain ⟨thread, before, rfl⟩ := List.mem_map.mp member
    rcases cases thread before with state | state | waits
    · exact absurd state unfinished
    · left
      refine ⟨state, ?_⟩
      obtain ⟨same, position, found, running⟩ := passed_join state
      simp only [GuestScheduler.find] at found
      split at found
      · cases found
      · rename_i valid
        have next := sound.next
        have inside : position < sched.threads.length := by
          have here : thread.joinTarget - 1 = position := Option.some.inj found
          omega
        have target := List.getElem?_eq_getElem inside
        refine ⟨passed sched sched.threads[position], List.mem_map.mpr ⟨_, List.getElem_mem inside, rfl⟩, ?_, ?_⟩
        · rw [passed_handle, sound.handles position _ target, same]
          have here : thread.joinTarget - 1 = position := Option.some.inj found
          omega
        · rw [Ne, passed_finished]
          simpa [target] using running
    · exact Or.inr waits

namespace Machine

variable [DecidableEq τ] [Inhabited τ] {machine next : Machine τ}

/-- When `run_until_complete` returns true, every thread had finished before the last
turn; when it returns false, the threads are stuck.

Proof: a turn returns true only when all threads had finished, and false only when none can become
ready any more. The third return of the source is unreachable, since an unfinished thread is ready,
has a deadline or is blocked. -/
theorem reports_truthful {operations : List (Operation τ)} (reached : machine.Reaches operations)
    (idle : machine.sched.current = none) {after : GuestScheduler τ (Call τ)} {complete : Bool}
    (returned : machine.sched.loopTurn = (after, .returned complete)) :
    (complete = true → after = { machine.sched with inLoop := false } ∧
      ∀ thread ∈ after.threads, thread.state = .finished) ∧
    (complete = false → Stuck after) := by
  have sound := reached.sound
  have turns := loopTurn_turns machine.sched
  rw [returned] at turns
  cases turns with
  | complete finished => exact ⟨fun _ => ⟨rfl, finished⟩, by simp⟩
  | deadlocks unready still => exact ⟨by simp, fun _ => sound.stuck idle unready still⟩
  | falls unready still free unfinished =>
    -- the fall-through return: the one unfinished thread would be ready, timed or blocked
    exfalso
    obtain ⟨thread, member, running⟩ := unfinished
    have unblocked := free thread member
    rcases unready_cases (unready thread member)
      (fun runs => sound.stopped idle member (passed_running runs)) (still thread member) with
      state | state | ⟨state, forever⟩
    · exact running (passed_finished.mp state)
    · simp [blocked, state] at unblocked
    · simp [blocked, state, forever] at unblocked

/-- The state a concrete run ends in. -/
def after (operations : List (Operation τ)) : Machine τ := (Runs.run step {} operations).getD {}

/-- A run that completes is a run of the machine. -/
theorem reaches_after (operations : List (Operation τ))
    (completes : (Runs.run step {} operations).isSome = true) : (after operations).Reaches operations := by
  obtain ⟨final, completed⟩ := Option.isSome_iff_exists.mp completes
  rw [Reaches, after, completed, Option.getD_some]

/-- A thread blocks without a deadline, and a second one joins it. -/
def joinsBlocked : List (Operation Nat) :=
  [.spawn 0 0, .spawn 0 0, .run, .turn, .blockCurrent 7 0, .turn, .join 1]

/-- A fiber that joins a blocked one leaves both stuck. -/
theorem joinsBlocked_stuck : Stuck (after joinsBlocked).sched.loopTurn.1 := by
  have reached := reaches_after joinsBlocked (by decide +kernel)
  have idle : (after joinsBlocked).sched.current = none := by decide +kernel
  have outcome : (after joinsBlocked).sched.loopTurn.2 = .returned false := by decide +kernel
  have returned : (after joinsBlocked).sched.loopTurn =
      ((after joinsBlocked).sched.loopTurn.1, .returned false) := by rw [← outcome]
  exact (reports_truthful reached idle returned).2 rfl

end Machine

end SeriesxEmu.Scheduler
