import SeriesxEmu.ThreadHandles

/-!
# The round-robin scan passes no ready thread

`pick_next` starts its scan at the cursor, takes the first ready thread and moves the cursor just
past it. From one dispatch of a thread on, the cursor runs ahead of it through the positions of the
other threads, and as the table only grows at its end it cannot come back to the thread without
having passed every other position that was there.
-/

namespace SeriesxEmu.Scheduler

open GuestScheduler Runs

variable {τ κ : Type}

namespace GuestScheduler

/-- The thread is ready when the round-robin scan of the next pick comes to it. -/
def isReadyAtScan (sched : GuestScheduler τ κ) (index : Nat) : Bool :=
  (sched.wakePasses[index]?.map GuestThread.state) == some State.ready

/-- The next turn of the loop gets as far as `pick_next`. -/
def Picks (sched : GuestScheduler τ κ) : Prop := ∃ thread ∈ sched.threads, thread.state ≠ .finished

/-- A turn either leaves the cursor, or it dispatches what the scan finds and puts the cursor past it. -/
theorem loopTurn_cursor (sched : GuestScheduler τ κ) :
    ((∀ index, sched.loopTurn.2 ≠ .dispatched index) ∧ sched.loopTurn.1.rrCursor = sched.rrCursor) ∨
      ∃ index, sched.loopTurn.2 = .dispatched index ∧ sched.Picks ∧
        sched.loopTurn.1.rrCursor = (index + 1) % sched.threads.length ∧
        (scanOrder sched.rrCursor sched.threads.length).find? sched.isReadyAtScan = some index := by
  have count : sched.wakePasses.length = sched.threads.length := by simp [wakePasses]
  unfold loopTurn
  split
  · exact Or.inl ⟨fun _ => by simp, rfl⟩
  · rename_i undone
    have picks : sched.Picks := by simpa [Picks] using undone
    have scanned : (fun index => (sched.wakePasses[index]?.map GuestThread.state) == some State.ready) =
        sched.isReadyAtScan := rfl
    unfold pickNext
    simp only [count, scanned]
    cases scan : (scanOrder sched.rrCursor sched.threads.length).find? sched.isReadyAtScan with
    | some index => exact Or.inr ⟨index, rfl, picks, rfl, rfl⟩
    | none =>
      left
      simp only
      split
      · exact ⟨fun _ => by simp, rfl⟩
      · split
        · exact ⟨fun _ => by simp, rfl⟩
        · exact ⟨fun _ => by simp, rfl⟩

end GuestScheduler

/-! ## The cursor -/

/-- The cursor is past the one position and has not passed the other, in cyclic order. -/
def Approaches (cursor behind ahead : Nat) : Prop :=
  (behind < cursor ∧ cursor ≤ ahead) ∨ (ahead < behind ∧ (behind < cursor ∨ cursor ≤ ahead))

/-- The scan stops at the first ready position. -/
theorem scan_first {cursor count index : Nat} {ready : Nat → Bool}
    (found : (scanOrder cursor count).find? ready = some index) :
    ∃ offset < count, index = (cursor + offset) % count ∧
      ∀ earlier < offset, ready ((cursor + earlier) % count) = false := by
  rw [scanOrder, List.find?_map, Option.map_eq_some_iff] at found
  obtain ⟨offset, first, rfl⟩ := found
  rw [List.find?_range_eq_some] at first
  refine ⟨offset, List.mem_range.mp first.2.1, rfl, fun earlier less => ?_⟩
  simpa using first.2.2 earlier less

/-- Just past the first position, the cursor approaches every other one. -/
theorem approaches_next {count behind ahead : Nat} (insideBehind : behind < count)
    (insideAhead : ahead < count) (different : ahead ≠ behind) :
    Approaches ((behind + 1) % count) behind ahead := by
  unfold Approaches
  rcases Nat.lt_or_ge (behind + 1) count with inner | last
  · rw [Nat.mod_eq_of_lt inner]
    omega
  · obtain rfl : behind + 1 = count := by omega
    rw [Nat.mod_self]
    omega

/-- A pick while the position ahead is ready takes a position on the way to it. -/
theorem Approaches.pick {cursor count behind ahead index : Nat} {ready : Nat → Bool}
    (approaches : Approaches cursor behind ahead) (insideCursor : cursor < count)
    (insideAhead : ahead < count) (isReady : ready ahead = true)
    (found : (scanOrder cursor count).find? ready = some index) :
    index ≠ behind ∧ (index = ahead ∨ Approaches ((index + 1) % count) behind ahead) := by
  obtain ⟨offset, bound, taken, first⟩ := scan_first found
  -- So many steps after its start the scan would reach the position ahead.
  obtain ⟨distance, reached, near⟩ : ∃ distance, (cursor + distance) % count = ahead ∧
      (cursor + distance = ahead ∨ (ahead < cursor ∧ cursor + distance = ahead + count)) := by
    rcases Nat.lt_or_ge ahead cursor with after | before
    · refine ⟨ahead + count - cursor, ?_, by omega⟩
      rw [Nat.add_sub_cancel' (by omega), Nat.add_mod_right, Nat.mod_eq_of_lt insideAhead]
    · exact ⟨ahead - cursor, by rw [Nat.add_sub_cancel' before, Nat.mod_eq_of_lt insideAhead], by omega⟩
  have early : offset ≤ distance := by
    by_contra late
    have passed := first distance (by omega)
    rw [reached, isReady] at passed
    cases passed
  have place : index = cursor + offset ∨ (count ≤ cursor + offset ∧ index = cursor + offset - count) := by
    rcases Nat.lt_or_ge (cursor + offset) count with inner | wrapped
    · exact Or.inl (taken.trans (Nat.mod_eq_of_lt inner))
    · rw [Nat.mod_eq_sub_mod wrapped, Nat.mod_eq_of_lt (by omega)] at taken
      exact Or.inr ⟨wrapped, taken⟩
  have bounded : index < count := taken ▸ Nat.mod_lt _ (by omega)
  unfold Approaches at approaches ⊢
  have apart : index ≠ behind := by omega
  refine ⟨apart, ?_⟩
  by_cases arrived : index = ahead
  · exact Or.inl arrived
  · right
    rcases Nat.lt_or_ge (index + 1) count with inner | last
    · rw [Nat.mod_eq_of_lt inner]
      omega
    · obtain rfl : index + 1 = count := by omega
      rw [Nat.mod_self]
      omega

/-! ## One operation -/

namespace Machine

variable [DecidableEq τ] [Inhabited τ] {machine next : Machine τ} {thread other : Nat}

/-- The thread that an operation switches in. -/
def dispatched (machine : Machine τ) : Attempt τ → Option Nat
  | .operation .turn =>
    match machine.sched.loopTurn.2 with
    | .dispatched index => some index
    | _ => none
  | _ => none

/-- If the operation picks, then the thread is ready when the scan comes to it. -/
def ReadyIfPicking (other : Nat) (machine : Machine τ) : Attempt τ → Prop
  | .operation .turn => machine.sched.Picks → machine.sched.isReadyAtScan other = true
  | _ => True

instance (other : Nat) (machine : Machine τ) : (attempt : Attempt τ) → Decidable (ReadyIfPicking other machine attempt)
  | .operation .turn => inferInstanceAs (Decidable ((∃ _ ∈ _, _ ≠ _) → _ = _))
  | .operation .run | .operation .yield | .operation (.sleepTicks _) | .operation (.join _)
  | .operation (.blockCurrent _ _) | .operation (.signal _ _) | .operation (.spawn _ _) | .operation (.exit _)
  | .unmapped _ => inferInstanceAs (Decidable True)

/-- The cursor is past the one thread and on its way to the other. -/
structure Awaits (machine : Machine τ) (thread other : Nat) : Prop where
  cursor : machine.sched.rrCursor < machine.sched.threads.length
  inside : other < machine.sched.threads.length
  approaches : Approaches machine.sched.rrCursor thread other

/-- Only a turn moves the cursor. -/
theorem attempt_cursor {attempt : Attempt τ} (stepped : machine.attempt attempt = some next)
    (other : attempt ≠ .operation .turn) : next.sched.rrCursor = machine.sched.rrCursor := by
  have same : ∀ index change, ((machine.sched.modifyThread index change).switchToScheduler).rrCursor =
      machine.sched.rrCursor := fun _ _ => rfl
  cases attempt with
  | unmapped stackTopReserve =>
    obtain ⟨_, ⟨_, rfl⟩ | ⟨_, rfl⟩⟩ := unmapped_cases stepped
    · rfl
    · rfl
  | operation operation =>
    cases operation with
    | turn => exact absurd rfl other
    | run =>
      obtain ⟨_, rfl⟩ := run_cases stepped
      rfl
    | yield | exit =>
      obtain ⟨index, _, rfl⟩ := Option.map_eq_some_iff.mp stepped
      rfl
    | sleepTicks ticks =>
      obtain ⟨index, _, rfl⟩ := Option.map_eq_some_iff.mp stepped
      simp only [threadSleep, threadYield]
      split <;> exact same _ _
    | join target =>
      rcases join_cases stepped with rfl | ⟨index, _, rfl⟩
      · rfl
      · exact same _ _
    | blockCurrent token timeout =>
      rcases blockCurrent_cases stepped with rfl | ⟨index, _, rfl⟩
      · rfl
      · exact same _ _
    | signal token all =>
      obtain ⟨_, rfl⟩ := signal_cases stepped
      rfl
    | spawn stackTopReserve base =>
      obtain ⟨_, rfl⟩ := spawn_cases stepped
      simp only [spawnReserved]
      split <;> rfl

/-- What a turn does to the cursor. -/
theorem turn_cursor (stepped : machine.attempt (.operation .turn) = some next) :
    (machine.dispatched (.operation .turn) = none ∧ next.sched.rrCursor = machine.sched.rrCursor) ∨
      ∃ index, machine.dispatched (.operation .turn) = some index ∧ machine.sched.Picks ∧
        next.sched.rrCursor = (index + 1) % machine.sched.threads.length ∧
        (scanOrder machine.sched.rrCursor machine.sched.threads.length).find?
          machine.sched.isReadyAtScan = some index := by
  obtain ⟨_, _, rfl⟩ := turn_cases stepped
  simp only [dispatched]
  rcases machine.sched.loopTurn_cursor with ⟨quiet, same⟩ | ⟨index, turned, picks, cursor, scan⟩
  · left
    refine ⟨?_, same⟩
    split
    · rename_i index turned
      exact absurd turned (quiet index)
    · rfl
  · right
    exact ⟨index, by rw [turned], picks, cursor, scan⟩

/-- No attempt takes a thread out of the table. -/
theorem attempt_grows {attempt : Attempt τ} (stepped : machine.attempt attempt = some next) :
    machine.sched.threads.length ≤ next.sched.threads.length := by
  cases attempt with
  | operation operation => exact step_grows stepped
  | unmapped stackTopReserve =>
    obtain ⟨_, ⟨_, rfl⟩ | ⟨_, rfl⟩⟩ := unmapped_cases stepped
    · exact Nat.le_refl _
    · exact Nat.le_refl _

/-- After a dispatch the cursor is on its way to every other thread. -/
theorem awaits_dispatched (stepped : machine.attempt (.operation .turn) = some next)
    (switched : machine.dispatched (.operation .turn) = some thread)
    (present : other < machine.sched.threads.length) (different : other ≠ thread) : next.Awaits thread other := by
  have grows := attempt_grows stepped
  rcases turn_cursor stepped with ⟨quiet, _⟩ | ⟨index, same, _, cursor, scan⟩
  · rw [quiet] at switched
    cases switched
  · rw [same] at switched
    obtain rfl := Option.some.inj switched
    obtain ⟨offset, _, taken, _⟩ := scan_first scan
    have positive : 0 < machine.sched.threads.length := Nat.zero_lt_of_lt present
    have inside : index < machine.sched.threads.length := taken ▸ Nat.mod_lt _ positive
    refine ⟨?_, present.trans_le grows, ?_⟩
    · rw [cursor]
      exact (Nat.mod_lt _ positive).trans_le grows
    · rw [cursor]
      exact approaches_next inside present different

/-- One operation, while the other thread is ready at every pick: the one thread is not switched
in, and the other is, or the cursor is still on its way. -/
theorem Awaits.attempt (awaits : machine.Awaits thread other) {attempt : Attempt τ}
    (ready : ReadyIfPicking other machine attempt) (stepped : machine.attempt attempt = some next) :
    machine.dispatched attempt ≠ some thread ∧
      (machine.dispatched attempt = some other ∨ next.Awaits thread other) := by
  have grows := attempt_grows stepped
  have kept : next.sched.rrCursor = machine.sched.rrCursor → next.Awaits thread other := by
    intro same
    exact ⟨same ▸ awaits.cursor.trans_le grows, awaits.inside.trans_le grows, same ▸ awaits.approaches⟩
  by_cases turn : attempt = .operation .turn
  · subst turn
    rcases turn_cursor stepped with ⟨quiet, same⟩ | ⟨index, switched, picks, cursor, scan⟩
    · rw [quiet]
      exact ⟨by simp, Or.inr (kept same)⟩
    · obtain ⟨apart, arrived⟩ := awaits.approaches.pick awaits.cursor awaits.inside (ready picks) scan
      rw [switched]
      refine ⟨by simpa using apart, arrived.imp (congrArg some) (fun approaches => ?_)⟩
      rw [← cursor] at approaches
      refine ⟨?_, awaits.inside.trans_le grows, approaches⟩
      rw [cursor]
      exact (Nat.mod_lt _ (Nat.zero_lt_of_lt awaits.inside)).trans_le grows
  · have none : machine.dispatched attempt = none := by
      unfold dispatched
      split
      · exact absurd rfl turn
      · rfl
    rw [none]
    exact ⟨by simp, Or.inr (kept (attempt_cursor stepped turn))⟩

/-- A run during which the other thread is ready at every pick switches it in, or the cursor is
still on its way at the end. -/
theorem Awaits.run {final : Machine τ} {attempts : List (Attempt τ)} (awaits : machine.Awaits thread other)
    (ready : Along Machine.attempt (ReadyIfPicking other) machine attempts)
    (completed : Runs.run Machine.attempt machine attempts = some final) :
    (∃ earlier attempt later state, attempts = earlier ++ attempt :: later ∧
      Runs.run Machine.attempt machine earlier = some state ∧ state.dispatched attempt = some other) ∨
      final.Awaits thread other := by
  induction attempts generalizing machine with
  | nil =>
    obtain rfl := Option.some.inj completed
    exact Or.inr awaits
  | cons attempt rest inductionHypothesis =>
    obtain ⟨next, stepped, followed⟩ := (run_cons _ _ _ _).mp completed
    rcases (awaits.attempt ready.1 stepped).2 with arrived | onward
    · exact Or.inl ⟨[], attempt, rest, machine, rfl, rfl, arrived⟩
    · rcases inductionHypothesis onward (ready.2 next stepped) followed with found | awaits
      · obtain ⟨earlier, last, later, state, rfl, reached, arrived⟩ := found
        exact Or.inl ⟨attempt :: earlier, last, later, state, rfl,
          (run_cons _ _ _ _).mpr ⟨next, stepped, reached⟩, arrived⟩
      · exact Or.inr awaits

/-- Between two dispatches of a thread, every other thread that was there at the first of them and
is ready at the scan of each pick up to the second is dispatched.

Proof: a thread that is not picked stands ahead of the cursor. Between two dispatches the cursor
goes round once, so it reaches every other thread. -/
theorem never_bypassed {first second last : Machine τ} {attempts : List (Attempt τ)}
    (dispatches : machine.attempt (.operation .turn) = some first)
    (switched : machine.dispatched (.operation .turn) = some thread)
    (between : Runs.run Machine.attempt first attempts = some second)
    (again : second.attempt (.operation .turn) = some last)
    (switchedAgain : second.dispatched (.operation .turn) = some thread)
    (present : other < machine.sched.threads.length) (different : other ≠ thread)
    (ready : Along Machine.attempt (ReadyIfPicking other) first attempts)
    (readyAgain : ReadyIfPicking other second (.operation .turn)) :
    ∃ earlier attempt later state, attempts = earlier ++ attempt :: later ∧
      Runs.run Machine.attempt first earlier = some state ∧ state.dispatched attempt = some other := by
  have awaits := awaits_dispatched dispatches switched present different
  rcases awaits.run ready between with found | awaits
  · exact found
  · exact absurd switchedAgain (awaits.attempt readyAgain again).1

/-- Three threads are spawned, and the first of them is switched in. -/
def startsRound : Machine Nat := after [.spawn 0 0, .spawn 0 0, .spawn 0 0, .run, .turn]

/-- It spawns a fourth thread and yields, and each of the others has its turn. -/
def aroundOnce : List (Attempt Nat) :=
  [.operation (.spawn 0 0), .operation .yield, .operation .turn, .operation .yield, .operation .turn,
    .operation (.sleepTicks 1), .operation .turn, .operation .yield]

/-- In one round the other thread is dispatched once. -/
theorem aroundOnce_bypassed : ∃ earlier attempt later state, aroundOnce = earlier ++ attempt :: later ∧
    Runs.run Machine.attempt startsRound earlier = some state ∧ state.dispatched attempt = some 1 :=
  @never_bypassed Nat _ _ (after [.spawn 0 0, .spawn 0 0, .spawn 0 0, .run]) 0 1 startsRound _ _ aroundOnce
    rfl rfl rfl rfl rfl (by decide) (by decide) (by decide +kernel) (by decide +kernel)

end Machine

end SeriesxEmu.Scheduler
