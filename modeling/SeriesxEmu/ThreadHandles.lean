import SeriesxEmu.SchedulerRuns

/-!
# Handles when stack mappings fail

`spawn_reserved` advances the handle counter before it maps the stack, and stores the thread
only after. `find` reads a handle below the counter as a one-based position. One failed
mapping therefore leaves the counter ahead of the table: the lookup of the last handle goes
past the end, and later handles lead to the threads after theirs. Until a mapping fails every
handle leads to the thread it was returned for.
-/

namespace SeriesxEmu.Scheduler

open GuestScheduler Runs

variable {τ κ : Type}

/-- An operation whose stack mapping, if it needs one, succeeds, or a `spawn_reserved` whose
`mmap` or `mprotect` would fail. -/
inductive Attempt (τ : Type) where
  | operation (operation : Operation τ)
  | unmapped (stackTopReserve : Nat)

/-- The handles that calls have returned, with the positions at which their threads were
stored. Threads are never moved or removed. -/
abbrev Returned := List (Nat × Nat)

namespace Machine

variable [DecidableEq τ] [Inhabited τ] {machine next : Machine τ} {returned : Returned}

/-- One attempt: an operation, or a spawn whose mapping fails. -/
def attempt (machine : Machine τ) : Attempt τ → Option (Machine τ)
  | .operation operation => machine.step operation
  | .unmapped stackTopReserve =>
    if machine.sched.active then
      some { machine with sched := (machine.sched.spawnReserved .entry stackTopReserve none).1 }
    else none

/-- The handle that a spawn returns. -/
def spawned (machine : Machine τ) : Attempt τ → Nat
  | .operation (.spawn stackTopReserve base) => (machine.sched.spawnReserved .entry stackTopReserve (some base)).2
  | .operation _ => 0
  | .unmapped stackTopReserve => (machine.sched.spawnReserved .entry stackTopReserve none).2

/-- A thread that is created is stored at the end of the table. -/
def recordSpawn (machine : Machine τ) (attempt : Attempt τ) (_ : Machine τ) (returned : Returned) : Returned :=
  if machine.spawned attempt = 0 then returned
  else (machine.spawned attempt, machine.sched.threads.length) :: returned

/-- Every handle returned is found at the position of its thread, which carries it, and no
lookup goes past the end of the table. -/
structure HandlesKept (machine : Machine τ) (returned : Returned) : Prop where
  found : ∀ handle position, (handle, position) ∈ returned → machine.sched.find handle = some position ∧
    (machine.sched.threads[position]?.map GuestThread.handle) = some handle
  inside : ∀ handle position, machine.sched.find handle = some position → position < machine.sched.threads.length

/-- The attempt maps every stack it asks for. A reserve that is refused asks for none. -/
def StackMapped (machine : Machine τ) : Attempt τ → Prop
  | .operation _ => True
  | .unmapped stackTopReserve => machine.sched.active = true → kStackSize - kMinUsable < stackTopReserve

/-- The table and the counter agree, and so do the handles returned. -/
structure Aligned (machine : Machine τ) (returned : Returned) : Prop where
  sound : Sound machine.sched
  returned : ∀ handle position, (handle, position) ∈ returned →
    handle = position + 1 ∧ position < machine.sched.threads.length

omit [DecidableEq τ] [Inhabited τ] in
/-- A machine whose handles are aligned keeps the handles that it returned. -/
theorem Aligned.kept (aligned : Aligned machine returned) : HandlesKept machine returned := by
  refine ⟨fun handle position member => ?_, fun handle position found => ?_⟩
  · obtain ⟨rfl, inside⟩ := aligned.returned handle position member
    refine ⟨?_, ?_⟩
    · rw [find, aligned.sound.next, if_neg (by omega), Nat.add_sub_cancel]
    · have same := aligned.sound.handles position _ (List.getElem?_eq_getElem inside)
      simp [List.getElem?_eq_getElem inside, same]
  · rw [find, aligned.sound.next] at found
    split at found
    · cases found
    · obtain rfl := Option.some.inj found
      omega

/-- When the stack cannot be mapped, a spawn that does not refuse the reserve uses up a handle. -/
theorem unmapped_cases {stackTopReserve : Nat} (stepped : machine.attempt (.unmapped stackTopReserve) = some next) :
    machine.sched.active = true ∧
      ((kStackSize - kMinUsable < stackTopReserve ∧ next = machine) ∨
        (¬ kStackSize - kMinUsable < stackTopReserve ∧
          next = { machine with sched := { machine.sched with nextHandle := machine.sched.nextHandle + 1 } })) := by
  simp only [attempt, spawnReserved] at stepped
  split at stepped
  · rename_i active
    cases stepped
    split
    · rename_i refused
      exact ⟨active, Or.inl ⟨refused, rfl⟩⟩
    · rename_i fits
      exact ⟨active, Or.inr ⟨fits, rfl⟩⟩
  · cases stepped

/-- No operation removes a thread. -/
theorem step_grows {operation : Operation τ} (stepped : machine.step operation = some next) :
    machine.sched.threads.length ≤ next.sched.threads.length := by
  cases operation with
  | run =>
    obtain ⟨_, rfl⟩ := run_cases stepped
    exact Nat.le_refl _
  | turn =>
    obtain ⟨_, _, rfl⟩ := turn_cases stepped
    have turns := loopTurn_turns machine.sched
    generalize machine.sched.loopTurn.1 = after at turns
    generalize machine.sched.loopTurn.2 = outcome at turns
    cases turns with
    | complete | dispatches | idles | deadlocks | falls => simp
  | yield =>
    obtain ⟨index, _, rfl⟩ := Option.map_eq_some_iff.mp stepped
    simp [threadYield, switchToScheduler, modifyThread]
  | sleepTicks ticks =>
    obtain ⟨index, _, rfl⟩ := Option.map_eq_some_iff.mp stepped
    simp only [threadSleep, threadYield]
    split <;> simp [switchToScheduler, modifyThread]
  | join target =>
    rcases join_cases stepped with rfl | ⟨index, _, rfl⟩
    · exact Nat.le_refl _
    · simp [switchToScheduler, modifyThread]
  | blockCurrent token timeout =>
    rcases blockCurrent_cases stepped with rfl | ⟨index, _, rfl⟩
    · exact Nat.le_refl _
    · simp [threadBlock, switchToScheduler, modifyThread]
  | signal token all =>
    obtain ⟨_, rfl⟩ := signal_cases stepped
    exact Nat.le_of_eq (signalThreads_wakes token all machine.sched.threads).length.symm
  | spawn stackTopReserve base =>
    obtain ⟨_, rfl⟩ := spawn_cases stepped
    simp only [spawnReserved]
    split <;> simp
  | exit code =>
    obtain ⟨index, _, rfl⟩ := Option.map_eq_some_iff.mp stepped
    simp [threadExit, switchToScheduler, modifyThread]

/-- A handle that is returned is that of the thread stored by the call. -/
theorem spawned_last (sound : Sound machine.sched) {attempt : Attempt τ}
    (stepped : machine.attempt attempt = some next) (created : machine.spawned attempt ≠ 0) :
    machine.spawned attempt = machine.sched.threads.length + 1 ∧
      machine.sched.threads.length < next.sched.threads.length := by
  cases attempt with
  | unmapped stackTopReserve =>
    simp only [spawned, spawnReserved] at created
    split at created <;> exact absurd rfl created
  | operation operation =>
    cases operation with
    | spawn stackTopReserve base =>
      obtain ⟨_, rfl⟩ := spawn_cases stepped
      simp only [spawned, spawnReserved] at created ⊢
      split at created
      · exact absurd rfl created
      · rename_i fits
        simp [fits, sound.next]
    | run | turn | yield | sleepTicks | join | blockCurrent | signal | exit => exact absurd rfl created

/-- A mapped attempt keeps the table and the counter together. -/
theorem Aligned.attempt (aligned : Aligned machine returned) {attempt : Attempt τ}
    (mapped : machine.StackMapped attempt) (stepped : machine.attempt attempt = some next) :
    Aligned next (machine.recordSpawn attempt next returned) := by
  have sound : Sound next.sched ∧ machine.sched.threads.length ≤ next.sched.threads.length := by
    cases attempt with
    | operation operation => exact ⟨sound_step aligned.sound stepped, step_grows stepped⟩
    | unmapped stackTopReserve =>
      obtain ⟨active, ⟨_, rfl⟩ | ⟨fits, _⟩⟩ := unmapped_cases stepped
      · exact ⟨aligned.sound, Nat.le_refl _⟩
      · exact absurd (mapped active) fits
  refine ⟨sound.1, fun handle position member => ?_⟩
  have old : (handle, position) ∈ returned → handle = position + 1 ∧ position < next.sched.threads.length := by
    intro earlier
    obtain ⟨same, inside⟩ := aligned.returned handle position earlier
    exact ⟨same, Nat.lt_of_lt_of_le inside sound.2⟩
  unfold recordSpawn at member
  split at member
  · exact old member
  · rename_i created
    rcases List.mem_cons.mp member with fresh | earlier
    · cases fresh
      exact spawned_last aligned.sound stepped created
    · exact old earlier

/-- After a failed mapping the lookup of the handle it used up goes past the end. -/
theorem Aligned.unmapped_lost (aligned : Aligned machine returned) {attempt : Attempt τ}
    (unmapped : ¬ machine.StackMapped attempt) (stepped : machine.attempt attempt = some next)
    (later : Returned) : ¬ HandlesKept next later := by
  intro kept
  cases attempt with
  | operation operation => exact unmapped trivial
  | unmapped stackTopReserve =>
    obtain ⟨_, ⟨refused, _⟩ | ⟨_, rfl⟩⟩ := unmapped_cases stepped
    · exact unmapped (fun _ => refused)
    · have past := kept.inside (machine.sched.threads.length + 1) machine.sched.threads.length
        (by simp [find, aligned.sound.next])
      exact Nat.lt_irrefl _ past

/-- **Thread handles.** In every state of a run the handles returned so far lead to their
threads and no lookup leaves the table, if and only if every stack mapping succeeds.

Proof: with all stacks mapped the handles are aligned with the table. A mapping that fails leaves
the handle behind, and the next spawn returns one that is already taken. -/
theorem handlesKept_iff (attempts : List (Attempt τ)) :
    Visits (watch attempt recordSpawn) (fun watched => HandlesKept watched.1 watched.2) (({} : Machine τ), [])
        attempts ↔
      Along attempt StackMapped ({} : Machine τ) attempts := by
  have start : Aligned ({} : Machine τ) [] := ⟨⟨by simp, rfl, by simp, by simp⟩, by simp⟩
  have decides : ∀ (state : Machine τ × Returned) action next, Aligned state.1 state.2 →
      watch attempt recordSpawn state action = some next →
      (HandlesKept next.1 next.2 ↔ state.1.StackMapped action) ∧
        (HandlesKept next.1 next.2 → Aligned next.1 next.2) := by
    intro state action next aligned watched
    obtain ⟨after, stepped, rfl⟩ := Option.map_eq_some_iff.mp watched
    by_cases mapped : state.1.StackMapped action
    · have later := aligned.attempt mapped stepped
      exact ⟨iff_of_true later.kept mapped, fun _ => later⟩
    · have lost := aligned.unmapped_lost mapped stepped (state.1.recordSpawn action after state.2)
      exact ⟨iff_of_false lost mapped, fun kept => absurd kept lost⟩
  have carried : Visits (watch attempt recordSpawn) (fun watched => HandlesKept watched.1 watched.2)
      (({} : Machine τ), []) attempts ↔
      Visits (watch attempt recordSpawn) (fun watched => Aligned watched.1 watched.2) ({}, []) attempts :=
    visits_strengthen (fun _ => Aligned.kept)
      (fun state action next aligned watched => (decides state action next aligned watched).2) _ _ start
  have decided : Visits (watch attempt recordSpawn) (fun watched => Aligned watched.1 watched.2)
      (({} : Machine τ), []) attempts ↔
      Along (watch attempt recordSpawn) (fun watched action => watched.1.StackMapped action) ({}, []) attempts := by
    refine visits_iff_along (fun state action next aligned watched => ?_) (fun state action stuck => ?_) _ _ start
    · obtain ⟨kept, later⟩ := decides state action next aligned watched
      exact ⟨fun aligned => kept.mp aligned.kept, fun mapped => later (kept.mpr mapped)⟩
    · cases action with
      | operation operation => trivial
      | unmapped stackTopReserve =>
        intro active
        simp [watch, attempt, active] at stuck
  exact carried.trans (decided.trans (along_watch _ _ _))

/-- A mapping that fails after one spawn: `find 2` leads past the end of the table. -/
theorem failedMapping_loses : ¬ ∀ attempts : List (Attempt Nat),
    Visits (watch attempt recordSpawn) (fun watched => HandlesKept watched.1 watched.2) ({}, []) attempts := by
  intro always
  obtain ⟨_, visits⟩ := always [.operation (.spawn 0 0x10000), .unmapped 0]
  obtain ⟨_, visits⟩ := visits _ rfl
  have kept : HandlesKept _ _ := visits _ rfl
  exact absurd (kept.inside 2 1 (by decide)) (by decide)

end Machine

end SeriesxEmu.Scheduler
