import SeriesxEmu.ThreadHandles

/-!
# What becomes of a thread

Whatever a scheduler is asked to do, a thread keeps its handle and its stack, threads are only
added at the end of the table, and only the thread that is switched in finishes, by its exit.
This holds whether or not stack mappings fail: a failed one leaves a gap in the handles, which
still increase along the table.
-/

namespace SeriesxEmu.Scheduler

open GuestScheduler

variable {τ κ : Type}

/-- What a thread keeps from its creation on. -/
structure Placement where
  handle : Nat
  stackBase : Nat
  stackMapSize : Nat
  stackTopReserve : Nat
deriving DecidableEq

/-- The part of a thread that never changes. -/
def GuestThread.placement (thread : GuestThread τ κ) : Placement :=
  { handle := thread.handle, stackBase := thread.stackBase
    stackMapSize := thread.stackMapSize, stackTopReserve := thread.stackTopReserve }

/-! ## Threads that stay where they are -/

/-- Every thread keeps its place and its stack, and only the one at the given position has finished. -/
structure Carried (ends : Option Nat) (before after : List (GuestThread τ κ)) : Prop where
  length : after.length = before.length
  each : ∀ (index : Nat) thread, before[index]? = some thread → ∃ later, after[index]? = some later ∧
    later.placement = thread.placement ∧ (later.state = .finished ↔ thread.state = .finished ∨ ends = some index)

namespace Carried

variable {ends : Option Nat} {before middle after threads : List (GuestThread τ κ)}

/-- Threads are carried into themselves. -/
theorem refl (threads : List (GuestThread τ κ)) : Carried none threads threads :=
  ⟨rfl, fun _ thread found => ⟨thread, found, rfl, by simp⟩⟩

/-- Threads that are carried twice are carried. -/
theorem trans (early : Carried none before middle) (late : Carried none middle after) : Carried none before after := by
  refine ⟨late.length.trans early.length, fun index thread found => ?_⟩
  obtain ⟨next, there, place, finished⟩ := early.each index thread found
  obtain ⟨last, here, stays, ended⟩ := late.each index next there
  exact ⟨last, here, stays.trans place, by rw [ended, finished]; simp⟩

/-- A change of each thread carries them when it keeps their place and their end. -/
theorem map {change : GuestThread τ κ → GuestThread τ κ}
    (place : ∀ thread, (change thread).placement = thread.placement)
    (finished : ∀ thread, (change thread).state = .finished ↔ thread.state = .finished)
    (threads : List (GuestThread τ κ)) : Carried none threads (threads.map change) := by
  refine ⟨List.length_map change, fun index thread found => ⟨change thread, ?_, place thread, ?_⟩⟩
  · rw [List.getElem?_map, found, Option.map_some]
  · rw [finished]
    simp

/-- One thread changes. -/
theorem modify {index : Nat} {thread : GuestThread τ κ} (found : threads[index]? = some thread)
    {change : GuestThread τ κ → GuestThread τ κ} (place : (change thread).placement = thread.placement)
    (finished : (change thread).state = .finished ↔ thread.state = .finished ∨ ends = some index)
    (only : ∀ other, ends = some other → other = index) : Carried ends threads (threads.modify index change) := by
  refine ⟨List.length_modify .., fun other entry there => ?_⟩
  by_cases same : index = other
  · subst same
    obtain rfl := Option.some.inj (found.symm.trans there)
    exact ⟨change thread, by rw [List.getElem?_modify, found]; simp, place, finished⟩
  · refine ⟨entry, by rw [List.getElem?_modify, there]; simp [same], rfl, ?_⟩
    refine ⟨Or.inl, fun either => either.resolve_right (fun ending => same (only other ending).symm)⟩

/-- Waking carries them. -/
theorem wakes {channel : τ → Prop} (woken : Wakes channel before after) : Carried none before after := by
  refine ⟨woken.length, fun index thread found => ?_⟩
  rcases woken.each index thread found with same | ⟨blocked, _, changed⟩
  · exact ⟨thread, same, rfl, by simp⟩
  · refine ⟨thread.wake, changed, rfl, ?_⟩
    rw [blocked]
    simp [GuestThread.wake]

/-- The wake passes of a turn. -/
theorem passes (sched : GuestScheduler τ κ) : Carried none sched.threads (sched.threads.map (passed sched)) := by
  refine map (fun thread => ?_) (fun thread => ?_) _
  · rcases passed_cases sched thread with ⟨same, _⟩ | ⟨_, _, same⟩ | ⟨_, _, same⟩ | ⟨_, same⟩ <;> rw [same] <;> rfl
  · rcases passed_cases sched thread with ⟨same, _⟩ | ⟨state, _, same⟩ | ⟨state, _, same⟩ | ⟨state, same⟩ <;>
      rw [same] <;> simp [*]

end Carried

/-! ## Handles that increase along the table -/

/-- What holds of the table in every state, however many mappings have failed. -/
structure Ordered (sched : GuestScheduler τ κ) : Prop where
  increasing : sched.threads.Pairwise (fun left right => left.handle < right.handle)
  below : ∀ thread ∈ sched.threads, 0 < thread.handle ∧ thread.handle < sched.nextHandle
  next : 0 < sched.nextHandle
  current : ∀ index, sched.current = some index → ∃ thread, sched.threads[index]? = some thread ∧
    (thread.state = .ready ∨ thread.state = .running)

/-- An empty table is ordered. -/
theorem Ordered.initial : Ordered ({} : GuestScheduler τ κ) := ⟨.nil, by simp, Nat.one_pos, by simp⟩

/-- The thread that is switched in has not finished. -/
theorem Ordered.unfinished {sched : GuestScheduler τ κ} (ordered : Ordered sched) {index : Nat}
    (switched : sched.current = some index) :
    ∃ thread, sched.threads[index]? = some thread ∧ thread.state ≠ .finished := by
  obtain ⟨thread, found, state⟩ := ordered.current index switched
  refine ⟨thread, found, fun ended => ?_⟩
  rw [ended] at state
  simp at state

/-- Two threads with one handle are the same. -/
theorem Ordered.unique {sched : GuestScheduler τ κ} (ordered : Ordered sched) {left right : Nat}
    {thread other : GuestThread τ κ} (found : sched.threads[left]? = some thread)
    (there : sched.threads[right]? = some other) (same : thread.handle = other.handle) : left = right := by
  obtain ⟨inside, rfl⟩ := List.getElem?_eq_some_iff.mp found
  obtain ⟨within, rfl⟩ := List.getElem?_eq_some_iff.mp there
  rcases Nat.lt_trichotomy left right with before | equal | behind
  · have less := List.pairwise_iff_getElem.mp ordered.increasing left right inside within before
    omega
  · exact equal
  · have less := List.pairwise_iff_getElem.mp ordered.increasing right left within inside behind
    omega

/-- The later scheduler has the threads of the earlier one, and perhaps a new one. -/
structure Advances (ends : Option Nat) (sched next : GuestScheduler τ κ) (fresh : Option (GuestThread τ κ)) : Prop where
  threads : ∃ moved, next.threads = moved ++ fresh.toList ∧ Carried ends sched.threads moved
  nextHandle : sched.nextHandle + fresh.toList.length ≤ next.nextHandle
  fresh : ∀ thread ∈ fresh, thread.handle = sched.nextHandle ∧ thread.state = .ready

namespace Advances

variable {ends : Option Nat} {sched next : GuestScheduler τ κ} {fresh : Option (GuestThread τ κ)}

/-- A thread of the later scheduler is new or was there before. -/
theorem origin (advances : Advances ends sched next fresh) {index : Nat} {later : GuestThread τ κ}
    (found : next.threads[index]? = some later) :
    (∃ thread, sched.threads[index]? = some thread ∧ later.placement = thread.placement ∧
      (later.state = .finished ↔ thread.state = .finished ∨ ends = some index)) ∨
    (fresh = some later ∧ index = sched.threads.length) := by
  obtain ⟨moved, threads, carried⟩ := advances.threads
  rw [threads, List.getElem?_append] at found
  split at found
  · rename_i inside
    have within : index < sched.threads.length := carried.length ▸ inside
    obtain ⟨other, there, place, finished⟩ := carried.each index _ (List.getElem?_eq_getElem within)
    obtain rfl := Option.some.inj (there.symm.trans found)
    exact Or.inl ⟨_, List.getElem?_eq_getElem within, place, finished⟩
  · rename_i outside
    rw [carried.length] at found outside
    cases fresh with
    | none => simp at found
    | some new =>
      have position : index - sched.threads.length = 0 := by
        have bound := (List.getElem?_eq_some_iff.mp found).1
        simpa using bound
      rw [position] at found
      have same : new = later := by simpa using found
      exact Or.inr ⟨congrArg some same, by omega⟩

/-- A thread of the earlier scheduler is still there. -/
theorem carries (advances : Advances ends sched next fresh) {index : Nat} {thread : GuestThread τ κ}
    (found : sched.threads[index]? = some thread) : ∃ later, next.threads[index]? = some later ∧
      later.placement = thread.placement ∧
      (later.state = .finished ↔ thread.state = .finished ∨ ends = some index) := by
  obtain ⟨moved, threads, carried⟩ := advances.threads
  obtain ⟨later, there, kept⟩ := carried.each index thread found
  refine ⟨later, ?_, kept⟩
  rw [threads, List.getElem?_append_left (List.getElem?_eq_some_iff.mp there).1, there]

/-- The same, without its place in the table. -/
theorem survives (advances : Advances ends sched next fresh) {thread : GuestThread τ κ}
    (member : thread ∈ sched.threads) : ∃ later ∈ next.threads, later.placement = thread.placement := by
  obtain ⟨index, found⟩ := List.mem_iff_getElem?.mp member
  obtain ⟨later, there, place, _⟩ := advances.carries found
  exact ⟨later, List.mem_of_getElem? there, place⟩

/-- Threads with the same placement have the same handle. -/
theorem handle_eq {left right : GuestThread τ κ} (same : left.placement = right.placement) :
    left.handle = right.handle := congrArg Placement.handle same

/-- The table stays ordered, when the thread that is then switched in is at work. -/
theorem ordered (advances : Advances ends sched next fresh) (ordered : Ordered sched)
    (current : ∀ index, next.current = some index → ∃ thread, next.threads[index]? = some thread ∧
      (thread.state = .ready ∨ thread.state = .running)) : Ordered next := by
  have counter := advances.nextHandle
  constructor
  · rw [List.pairwise_iff_getElem]
    intro left right inside within before
    rcases advances.origin (List.getElem?_eq_getElem inside) with ⟨thread, there, place, _⟩ | ⟨_, last⟩
    · rcases advances.origin (List.getElem?_eq_getElem within) with ⟨other, here, placed, _⟩ | ⟨new, _⟩
      · obtain ⟨bound, rfl⟩ := List.getElem?_eq_some_iff.mp there
        obtain ⟨limit, rfl⟩ := List.getElem?_eq_some_iff.mp here
        rw [handle_eq place, handle_eq placed]
        exact List.pairwise_iff_getElem.mp ordered.increasing left right bound limit before
      · rw [handle_eq place, (advances.fresh _ new).1]
        exact (ordered.below thread (List.mem_of_getElem? there)).2
    · rcases advances.origin (List.getElem?_eq_getElem within) with ⟨other, here, _, _⟩ | ⟨_, end_⟩
      · have limit := (List.getElem?_eq_some_iff.mp here).1
        omega
      · omega
  · intro later member
    obtain ⟨index, found⟩ := List.mem_iff_getElem?.mp member
    rcases advances.origin found with ⟨thread, there, place, _⟩ | ⟨new, _⟩
    · have bounds := ordered.below thread (List.mem_of_getElem? there)
      rw [handle_eq place]
      omega
    · rw [(advances.fresh later new).1]
      subst new
      have positive := ordered.next
      simp only [Option.toList_some, List.length_singleton] at counter
      omega
  · have positive := ordered.next
    omega
  · exact current

/-- Nothing is added. -/
theorem same (carried : Carried ends sched.threads next.threads) (counter : next.nextHandle = sched.nextHandle) :
    Advances ends sched next none :=
  ⟨⟨next.threads, by simp, carried⟩, by simp [counter], by simp⟩

end Advances

/-! ## What a scheduler is asked to do -/

/-- The thread that `spawn_reserved` makes. -/
def spawnedThread [Inhabited τ] (sched : GuestScheduler τ κ) (ctx : κ) (stackTopReserve base : Nat) :
    GuestThread τ κ :=
  { ctx, handle := sched.nextHandle, waitToken := default, stackBase := base
    stackMapSize := kGuardSize + kStackSize, stackTopReserve }

/-- A spawn is refused for its reserve, fails to map the stack, or makes a thread. -/
theorem spawnReserved_cases [Inhabited τ] (sched : GuestScheduler τ κ) (ctx : κ) (stackTopReserve : Nat)
    (region : Option Nat) :
    (kStackSize - kMinUsable < stackTopReserve ∧ sched.spawnReserved ctx stackTopReserve region = (sched, 0)) ∨
    (region = none ∧
      sched.spawnReserved ctx stackTopReserve region = ({ sched with nextHandle := sched.nextHandle + 1 }, 0)) ∨
    ∃ base, region = some base ∧ stackTopReserve ≤ kStackSize - kMinUsable ∧
      sched.spawnReserved ctx stackTopReserve region =
        ({ sched with
            threads := sched.threads ++ [spawnedThread sched ctx stackTopReserve base]
            nextHandle := sched.nextHandle + 1 }, sched.nextHandle) := by
  unfold spawnReserved
  split
  · rename_i refused
    exact Or.inl ⟨refused, rfl⟩
  · rename_i fits
    cases region with
    | none => exact Or.inr (Or.inl ⟨rfl, rfl⟩)
    | some base => exact Or.inr (Or.inr ⟨base, rfl, Nat.le_of_not_lt fits, rfl⟩)

/-- A handle is used up. -/
theorem Ordered.unmapped {sched : GuestScheduler τ κ} (ordered : Ordered sched) :
    Ordered { sched with nextHandle := sched.nextHandle + 1 } ∧
      Advances none sched { sched with nextHandle := sched.nextHandle + 1 } none := by
  have advances : Advances none sched { sched with nextHandle := sched.nextHandle + 1 } none :=
    ⟨⟨sched.threads, by simp, .refl _⟩, by simp, by simp⟩
  exact ⟨advances.ordered ordered ordered.current, advances⟩

section spawns

variable [Inhabited τ] {sched : GuestScheduler τ κ}

/-- A spawned thread comes last, with the highest handle. -/
theorem Ordered.spawned (ordered : Ordered sched) (ctx : κ) (stackTopReserve base : Nat) :
    Ordered { sched with
        threads := sched.threads ++ [spawnedThread sched ctx stackTopReserve base]
        nextHandle := sched.nextHandle + 1 } ∧
      Advances none sched { sched with
        threads := sched.threads ++ [spawnedThread sched ctx stackTopReserve base]
        nextHandle := sched.nextHandle + 1 } (some (spawnedThread sched ctx stackTopReserve base)) := by
  have advances : Advances none sched { sched with
      threads := sched.threads ++ [spawnedThread sched ctx stackTopReserve base]
      nextHandle := sched.nextHandle + 1 } (some (spawnedThread sched ctx stackTopReserve base)) := by
    refine ⟨⟨sched.threads, rfl, .refl _⟩, Nat.le_refl _, fun thread same => ?_⟩
    obtain rfl := Option.some.inj same
    exact ⟨rfl, rfl⟩
  refine ⟨advances.ordered ordered (fun index switched => ?_), advances⟩
  obtain ⟨thread, found, state⟩ := ordered.current index switched
  refine ⟨thread, ?_, state⟩
  rw [List.getElem?_append_left (List.getElem?_eq_some_iff.mp found).1]
  exact found

end spawns

/-- The thread that is switched in changes and is switched out. -/
theorem Ordered.switchOut {sched : GuestScheduler τ κ} (ordered : Ordered sched) {index : Nat}
    (switched : sched.current = some index) (ends : Option Nat) {change : GuestThread τ κ → GuestThread τ κ}
    (place : ∀ thread, (change thread).placement = thread.placement)
    (finished : ∀ thread, (change thread).state = .finished ↔ ends = some index)
    (only : ∀ other, ends = some other → other = index) :
    Ordered (sched.modifyThread index change).switchToScheduler ∧
      Advances ends sched (sched.modifyThread index change).switchToScheduler none := by
  obtain ⟨thread, found, unfinished⟩ := ordered.unfinished switched
  have advances : Advances ends sched (sched.modifyThread index change).switchToScheduler none :=
    .same (.modify found (place thread) (by rw [finished]; simp [unfinished]) only) rfl
  exact ⟨advances.ordered ordered (fun other again => by cases again), advances⟩

/-- One turn of the loop. -/
theorem Ordered.turn {sched : GuestScheduler τ κ} (ordered : Ordered sched) (idle : sched.current = none) :
    Ordered sched.loopTurn.1 ∧ Advances none sched sched.loopTurn.1 none := by
  have turns := loopTurn_turns sched
  generalize sched.loopTurn.1 = after at turns
  generalize sched.loopTurn.2 = outcome at turns
  have passes := Carried.passes sched
  have stays : ∀ after : GuestScheduler τ κ, Advances none sched after none → after.current = none →
      Ordered after ∧ Advances none sched after none := by
    intro after advances out
    refine ⟨advances.ordered ordered (fun index switched => ?_), advances⟩
    rw [out] at switched
    cases switched
  cases turns with
  | complete finished => exact stays _ (.same (.refl _) rfl) idle
  | idles unready time => exact stays _ (.same passes rfl) idle
  | deadlocks unready still => exact stays _ (.same passes rfl) idle
  | falls unready still free unfinished => exact stays _ (.same passes rfl) idle
  | dispatches index thread found ready =>
    have here : (sched.threads.map (passed sched))[index]? = some (passed sched thread) := by simp [found]
    have working : (switched (passed sched thread)).state = .ready ∨
        (switched (passed sched thread)).state = .running := by
      simp only [switched, ready]
      split
      · exact Or.inl rfl
      · exact Or.inr rfl
    have dispatched : Carried none (sched.threads.map (passed sched))
        ((sched.threads.map (passed sched)).modify index switched) := by
      refine .modify here rfl ?_ (by simp)
      rw [ready]
      rcases working with state | state <;> simp [state]
    have advances : Advances none sched { sched with
        threads := (sched.threads.map (passed sched)).modify index switched, current := some index
        rrCursor := (index + 1) % (sched.threads.map (passed sched)).length
        switchesTotal := sched.switchesTotal + 1 } none := .same (passes.trans dispatched) rfl
    refine ⟨advances.ordered ordered (fun other again => ?_), advances⟩
    obtain rfl := Option.some.inj again
    exact ⟨switched (passed sched thread), by simp [found], working⟩

namespace Machine

variable [DecidableEq τ] [Inhabited τ] {machine next : Machine τ}

/-- The thread that finishes. -/
def ending (machine : Machine τ) : Attempt τ → Option Nat
  | .operation (.exit _) => machine.sched.current
  | _ => none

/-- Every attempt carries the threads along, and adds at most the one that it spawns.

Proof: by the operation. Five of them switch the running thread out, which is one rule; a signal
wakes threads in place, a turn switches one in, and only a spawn adds one. -/
theorem ordered_attempt (ordered : Ordered machine.sched) {attempt : Attempt τ}
    (stepped : machine.attempt attempt = some next) :
    Ordered next.sched ∧ ∃ fresh, Advances (machine.ending attempt) machine.sched next.sched fresh ∧
      ∀ thread ∈ fresh, ∃ stackTopReserve base, attempt = .operation (.spawn stackTopReserve base) ∧
        thread = spawnedThread machine.sched .entry stackTopReserve base := by
  have plain : ∀ {ends : Option Nat} {after : GuestScheduler τ (Call τ)},
      Ordered after ∧ Advances ends machine.sched after none → Ordered after ∧ ∃ fresh,
        Advances ends machine.sched after fresh ∧ ∀ thread ∈ fresh, ∃ stackTopReserve base,
          attempt = .operation (.spawn stackTopReserve base) ∧
            thread = spawnedThread machine.sched .entry stackTopReserve base :=
    fun both => ⟨both.1, none, both.2, by simp⟩
  have unchanged : Ordered machine.sched ∧ Advances none machine.sched machine.sched none :=
    ⟨ordered, .same (.refl _) rfl⟩
  cases attempt with
  | unmapped stackTopReserve =>
    obtain ⟨_, ⟨_, rfl⟩ | ⟨_, rfl⟩⟩ := unmapped_cases stepped
    · exact plain unchanged
    · exact plain ordered.unmapped
  | operation operation =>
    have step : machine.step operation = some next := stepped
    cases operation with
    | run =>
      obtain ⟨_, rfl⟩ := run_cases step
      exact plain ⟨⟨ordered.increasing, ordered.below, ordered.next, ordered.current⟩, .same (.refl _) rfl⟩
    | turn =>
      obtain ⟨idle, _, rfl⟩ := turn_cases step
      exact plain (ordered.turn idle)
    | yield =>
      obtain ⟨index, switched, rfl⟩ := Option.map_eq_some_iff.mp step
      exact plain (ordered.switchOut switched none (fun _ => rfl) (by simp) (by simp))
    | sleepTicks ticks =>
      obtain ⟨index, switched, rfl⟩ := Option.map_eq_some_iff.mp step
      simp only [threadSleep, threadYield]
      split
      · exact plain (ordered.switchOut switched none (fun _ => rfl) (by simp) (by simp))
      · exact plain (ordered.switchOut switched none (fun _ => rfl) (by simp) (by simp))
    | join target =>
      rcases join_cases step with rfl | ⟨index, switched, rfl⟩
      · exact plain unchanged
      · exact plain (ordered.switchOut switched none (fun _ => rfl) (by simp) (by simp))
    | blockCurrent token timeout =>
      rcases blockCurrent_cases step with rfl | ⟨index, switched, rfl⟩
      · exact plain unchanged
      · exact plain (ordered.switchOut switched none (fun _ => rfl) (by simp) (by simp))
    | signal token all =>
      obtain ⟨_, rfl⟩ := signal_cases step
      have woken := signalThreads_wakes token all machine.sched.threads
      have advances : Advances none machine.sched (machine.sched.signal token all).1 none := .same (.wakes woken) rfl
      refine plain ⟨advances.ordered ordered (fun index switched => ?_), advances⟩
      obtain ⟨thread, found, state⟩ := ordered.current index switched
      refine ⟨thread, ?_, state⟩
      rcases woken.each index thread found with same | ⟨blocked, _, _⟩
      · exact same
      · rw [blocked] at state
        simp at state
    | spawn stackTopReserve base =>
      obtain ⟨_, rfl⟩ := spawn_cases step
      rcases spawnReserved_cases machine.sched .entry stackTopReserve (some base) with
        ⟨_, same⟩ | ⟨missing, _⟩ | ⟨_, mapped, _, same⟩
      · rw [same]
        exact plain unchanged
      · cases missing
      · obtain rfl := Option.some.inj mapped
        rw [same]
        obtain ⟨later, advances⟩ := ordered.spawned .entry stackTopReserve base
        refine ⟨later, _, advances, fun thread made => ?_⟩
        exact ⟨stackTopReserve, base, rfl, (Option.some.inj made).symm⟩
    | exit code =>
      obtain ⟨index, switched, rfl⟩ := Option.map_eq_some_iff.mp step
      exact plain (ordered.switchOut switched machine.sched.current (fun _ => rfl) (by simp [switched])
        (fun other same => by rw [switched] at same; exact (Option.some.inj same).symm))

end Machine

end SeriesxEmu.Scheduler
