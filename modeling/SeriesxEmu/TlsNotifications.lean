import SeriesxEmu.TlsHost

/-!
# Bracketed notifications

A fiber spawned with storage is announced to every callback when it is spawned, and its end is
recorded by the finish hook. The hook does not ask whether the fiber that finishes has storage:
once it is set, the end of any other fiber is recorded too, without an attach before it. The
notifications are well bracketed exactly in the runs in which no such fiber finishes.
-/

namespace SeriesxEmu

open Scheduler GuestScheduler

namespace FiberTls

/-- The attach records of all fibers with storage: the first one is the main fiber. -/
def attaches : TlsHost.Stored → List TlsEvent
  | [] => []
  | main :: later => notified kReasonProcessAttach main ++ later.flatMap (notified kReasonThreadAttach)

/-- The number of detach records of a fiber. -/
def detaches (events : List TlsEvent) (fiber : Nat) : Nat :=
  events.countP (fun event => event.fiber == fiber && event.reason == kReasonThreadDetach)

/-- Every detach record comes after an attach record of the same fiber. -/
def Preceded (events : List TlsEvent) : Prop :=
  ∀ (index : Nat) detach, events[index]? = some detach → detach.reason = kReasonThreadDetach →
    ∃ (earlier : Nat) (attach : TlsEvent), earlier < index ∧ events[earlier]? = some attach ∧
      attach.fiber = detach.fiber ∧ attach.reason ≠ kReasonThreadDetach

variable {tls : FiberTls} {init : TlsInit} {fiber reason : Nat} {top : Option Nat} {entry : Nat × TlsInit}
  {events added : List TlsEvent} {stored : TlsHost.Stored}

/-! ## Records -/

/-- A notification names the fiber of its entry, and its reason. -/
theorem mem_notified {event : TlsEvent} (member : event ∈ notified reason entry) :
    event.fiber = entry.1 ∧ event.reason = reason := by
  obtain ⟨callback, _, rfl⟩ := List.mem_map.mp member
  exact ⟨rfl, rfl⟩

/-- Every entry is notified. -/
theorem notified_nonempty (reason : Nat) (entry : Nat × TlsInit) : notified reason entry ≠ [] := by
  unfold notified
  cases entry.2.callbacks with
  | nil => simp
  | cons callback rest => simp

/-- A new entry adds its own notifications. -/
theorem attaches_append (stored : TlsHost.Stored) (entry : Nat × TlsInit) :
    attaches (stored ++ [entry]) = attaches stored ++
      notified (if !stored.isEmpty then kReasonThreadAttach else kReasonProcessAttach) entry := by
  cases stored with
  | nil => simp [attaches]
  | cons main later => simp [attaches, List.append_assoc]

/-- The records of a new fiber are its own, and no detach records. -/
theorem mem_attach {seen : Bool} {event : TlsEvent}
    (member : event ∈ notified (if seen then kReasonThreadAttach else kReasonProcessAttach) entry) :
    event.fiber = entry.1 ∧ event.reason ≠ kReasonThreadDetach := by
  obtain ⟨fiber, reason⟩ := mem_notified member
  rw [reason]
  cases seen with
  | false => exact ⟨fiber, by decide⟩
  | true => exact ⟨fiber, by decide⟩

/-- Every fiber with storage has been announced. -/
theorem announced (known : fiber ∈ stored.map Prod.fst) : ∃ attach ∈ attaches stored, attach.fiber = fiber := by
  have attached : ∀ reason entry, ∃ attach ∈ notified reason entry, attach.fiber = entry.1 := by
    intro reason entry
    obtain ⟨attach, member⟩ := List.exists_mem_of_ne_nil _ (notified_nonempty reason entry)
    exact ⟨attach, member, (mem_notified member).1⟩
  obtain ⟨entry, member, rfl⟩ := List.mem_map.mp known
  cases stored with
  | nil => cases member
  | cons main later =>
    rcases List.mem_cons.mp member with rfl | behind
    · obtain ⟨attach, inside, same⟩ := attached kReasonProcessAttach entry
      exact ⟨attach, List.mem_append_left _ inside, same⟩
    · obtain ⟨attach, inside, same⟩ := attached kReasonThreadAttach entry
      exact ⟨attach, List.mem_append_right _ (List.mem_flatMap.mpr ⟨entry, behind, inside⟩), same⟩

/-- Records that are added are preceded, if what they detach is attached already. -/
theorem Preceded.append (preceded : Preceded events)
    (attached : ∀ detach ∈ added, detach.reason = kReasonThreadDetach →
      ∃ attach ∈ events, attach.fiber = detach.fiber ∧ attach.reason ≠ kReasonThreadDetach) :
    Preceded (events ++ added) := by
  intro index detach found reason
  rw [List.getElem?_append] at found
  split at found
  · obtain ⟨earlier, attach, before, there, same⟩ := preceded index detach found reason
    refine ⟨earlier, attach, before, ?_, same⟩
    rw [List.getElem?_append_left (List.getElem?_eq_some_iff.mp there).1, there]
  · rename_i behind
    obtain ⟨attach, member, same⟩ := attached detach (List.mem_of_getElem? found) reason
    obtain ⟨earlier, there⟩ := List.mem_iff_getElem?.mp member
    have inside := (List.getElem?_eq_some_iff.mp there).1
    refine ⟨earlier, attach, by omega, ?_, same⟩
    rw [List.getElem?_append_left inside, there]

/-- Detach records add up. -/
theorem detaches_append (events added : List TlsEvent) (fiber : Nat) :
    detaches (events ++ added) fiber = detaches events fiber + detaches added fiber := List.countP_append

/-- A fiber without records, or with attach records only, has no detach record. -/
theorem detaches_zero (undetached : ∀ event ∈ events, event.fiber = fiber → event.reason ≠ kReasonThreadDetach) :
    detaches events fiber = 0 := by
  refine List.countP_eq_zero.mpr (fun event member => ?_)
  simp only [Bool.and_eq_true, beq_iff_eq, not_and]
  exact undetached event member

end FiberTls

namespace TlsHost

open FiberTls

variable {τ : Type}

/-- The notifications are well bracketed. -/
structure Bracketed (host : TlsHost τ) (stored : Stored) : Prop where
  attached : host.tls.events.filter (fun event => event.reason != kReasonThreadDetach) = attaches stored
  preceded : Preceded host.tls.events
  spawned : ∀ fiber ∈ stored.map Prod.fst, ∃ thread ∈ host.machine.sched.threads, thread.handle = fiber
  finished : ∀ thread ∈ host.machine.sched.threads, thread.handle ∈ stored.map Prod.fst →
    detaches host.tls.events thread.handle = if thread.state = .finished then 1 else 0
  others : ∀ event ∈ host.tls.events, event.fiber ∈ stored.map Prod.fst

/-- What holds of a host and the fibers spawned with storage. -/
structure Tracked (host : TlsHost τ) (stored : Stored) : Prop where
  ordered : Ordered host.machine.sched
  bracketed : host.Bracketed stored
  hooked : stored ≠ [] → host.tls.hookInstalled = true
  main : host.tls.mainSeen = !stored.isEmpty

/-- A thread that finishes while the hook is set has storage. -/
def FinishesStored (watched : TlsHost τ × Stored) : TlsAction τ → Prop
  | .attempt (.operation (.exit _)) => watched.1.machine.sched.current.isSome = true →
    watched.1.tls.hookInstalled = true → watched.1.machine.sched.currentHandle ∈ watched.2.map Prod.fst
  | _ => True

variable {host next : TlsHost τ} {stored : Stored}

/-- Handles that are not used up yet belong to no fiber with storage. -/
theorem Tracked.fresh (tracked : host.Tracked stored) : host.machine.sched.nextHandle ∉ stored.map Prod.fst := by
  intro known
  obtain ⟨thread, member, handle⟩ := tracked.bracketed.spawned _ known
  exact Nat.lt_irrefl _ (handle ▸ (tracked.ordered.below thread member).2)

/-- A step without a record, in which no fiber with storage finishes. -/
theorem Tracked.quiet (tracked : host.Tracked stored) {ends : Option Nat}
    {fresh : Option (GuestThread τ (Scheduler.Call τ))} (ordered : Ordered next.machine.sched)
    (advances : Advances ends host.machine.sched next.machine.sched fresh)
    (events : next.tls.events = host.tls.events) (mainSeen : next.tls.mainSeen = host.tls.mainSeen)
    (hook : host.tls.hookInstalled = true → next.tls.hookInstalled = true) (goes : ends = none ∨ stored = []) :
    next.Tracked stored := by
  have unknown := tracked.fresh
  obtain ⟨_, ⟨attached, preceded, spawned, finished, others⟩, hooked, main⟩ := tracked
  refine ⟨ordered, ?_, fun some => hook (hooked some), mainSeen.trans main⟩
  constructor
  · rw [events]
    exact attached
  · rw [events]
    exact preceded
  · intro fiber known
    obtain ⟨thread, member, handle⟩ := spawned fiber known
    obtain ⟨later, there, place⟩ := advances.survives member
    exact ⟨later, there, (Advances.handle_eq place).trans handle⟩
  · intro later member known
    obtain ⟨index, found⟩ := List.mem_iff_getElem?.mp member
    have running : ends = none := goes.resolve_right (fun none => by simp [none] at known)
    rcases advances.origin found with ⟨thread, there, place, state⟩ | ⟨new, _⟩
    · rw [Advances.handle_eq place] at known ⊢
      rw [events, finished thread (List.mem_of_getElem? there) known]
      simp only [running, reduceCtorEq, or_false] at state
      simp only [state]
    · rw [(advances.fresh later new).1] at known
      exact absurd known unknown
  · rw [events]
    exact others

/-- The record of the finish hook. -/
def detached (fiber : Nat) : TlsEvent := { fiber, callback := 0, reason := kReasonThreadDetach }

/-- A fiber with storage finishes. -/
theorem Tracked.ends (tracked : host.Tracked stored) {index : Nat}
    {thread : GuestThread τ (Scheduler.Call τ)} (found : host.machine.sched.threads[index]? = some thread)
    (unfinished : thread.state ≠ .finished) (ordered : Ordered next.machine.sched)
    (advances : Advances (some index) host.machine.sched next.machine.sched none)
    (tls : next.tls = host.tls.record thread.handle 0 kReasonThreadDetach)
    (known : thread.handle ∈ stored.map Prod.fst) : next.Tracked stored := by
  obtain ⟨before, ⟨attached, preceded, spawned, finished, others⟩, hooked, main⟩ := tracked
  have events : next.tls.events = host.tls.events ++ [detached thread.handle] := by rw [tls]; rfl
  refine ⟨ordered, ?_, fun some => ?_, ?_⟩
  · constructor
    · rw [events, List.filter_append, attached]
      exact List.append_nil _
    · rw [events]
      refine preceded.append (fun detach member _ => ?_)
      obtain ⟨attach, announced, same⟩ := announced known
      rw [← attached] at announced
      obtain ⟨member', reason⟩ := List.mem_filter.mp announced
      rw [List.mem_singleton.mp member]
      exact ⟨attach, member', same, by simpa using reason⟩
    · intro fiber inside
      obtain ⟨other, member, handle⟩ := spawned fiber inside
      obtain ⟨later, there, place⟩ := advances.survives member
      exact ⟨later, there, (Advances.handle_eq place).trans handle⟩
    · intro later member inside
      obtain ⟨position, there⟩ := List.mem_iff_getElem?.mp member
      rcases advances.origin there with ⟨other, here, place, state⟩ | ⟨new, _⟩
      · rw [Advances.handle_eq place] at inside ⊢
        rw [events, detaches_append, finished other (List.mem_of_getElem? here) inside]
        by_cases same : position = index
        · subst same
          obtain rfl := Option.some.inj (found.symm.trans here)
          have ended : later.state = .finished := state.mpr (Or.inr rfl)
          have one : detaches [detached thread.handle] thread.handle = 1 := by simp [detaches, detached]
          rw [if_neg unfinished, if_pos ended, one]
        · have other_handle : thread.handle ≠ other.handle :=
            fun equal => same (before.unique found here equal).symm
          have nothing : detaches [detached thread.handle] other.handle = 0 := by
            simp [detaches, detached, other_handle]
          have stays : later.state = .finished ↔ other.state = .finished := by
            rw [state]
            exact ⟨fun either => either.resolve_right (fun ending => same (Option.some.inj ending).symm), Or.inl⟩
          rw [nothing]
          simp only [stays, Nat.add_zero]
      · cases new
    · intro event member
      rw [events] at member
      rcases List.mem_append.mp member with old | new
      · exact others event old
      · rw [List.mem_singleton.mp new]
        exact known
  · rw [tls]
    exact hooked some
  · rw [tls]
    exact main

/-- What a fiber spawned with storage adds to the records. -/
theorem Stores.records [Inhabited τ] {init : TlsInit} {base : Nat} {stray : Option Nat}
    (made : host.Stores next init base stray) : next.tls.hookInstalled = true ∧ next.tls.mainSeen = true ∧
      next.tls.events = host.tls.events ++
        notified (if host.tls.mainSeen then kReasonThreadAttach else kReasonProcessAttach)
          (host.machine.sched.nextHandle, init) := by
  rw [made.tls, attach_eq]
  cases stackTopReserve next.machine.sched host.machine.sched.nextHandle stray <;> exact ⟨rfl, rfl, rfl⟩

/-- A fiber is spawned with storage. -/
theorem Tracked.stores [Inhabited τ] (tracked : host.Tracked stored) {init : TlsInit} {base : Nat}
    {stray : Option Nat} (made : host.Stores next init base stray) :
    next.Tracked (stored ++ [(host.machine.sched.nextHandle, init)]) := by
  have unknown := tracked.fresh
  obtain ⟨before, ⟨attached, preceded, spawned, finished, others⟩, hooked, main⟩ := tracked
  obtain ⟨ordered, advances⟩ := made.advances before
  obtain ⟨hook, seen, events⟩ := made.records
  have known_iff : ∀ fiber, fiber ∈ (stored ++ [(host.machine.sched.nextHandle, init)]).map Prod.fst ↔
      fiber ∈ stored.map Prod.fst ∨ fiber = host.machine.sched.nextHandle := by
    simp [List.map_append]
  refine ⟨ordered, ?_, fun _ => hook, by rw [seen]; simp⟩
  constructor
  · rw [events, List.filter_append, attached, attaches_append, ← main]
    congr 1
    exact List.filter_eq_self.mpr (fun event member => by simpa using (mem_attach member).2)
  · rw [events]
    exact preceded.append (fun event member detach => absurd detach (mem_attach member).2)
  · intro fiber known
    rcases (known_iff fiber).mp known with old | rfl
    · obtain ⟨thread, member, handle⟩ := spawned fiber old
      obtain ⟨later, there, place⟩ := advances.survives member
      exact ⟨later, there, (Advances.handle_eq place).trans handle⟩
    · exact ⟨_, made.member, rfl⟩
  · intro later member known
    obtain ⟨index, found⟩ := List.mem_iff_getElem?.mp member
    rcases advances.origin found with ⟨thread, there, place, state⟩ | ⟨new, _⟩
    · have below := (before.below thread (List.mem_of_getElem? there)).2
      rw [Advances.handle_eq place] at known ⊢
      have old := ((known_iff _).mp known).resolve_right (Nat.ne_of_lt below)
      rw [events, detaches_append, finished thread (List.mem_of_getElem? there) old,
        detaches_zero (fun event inside _ => (mem_attach inside).2), Nat.add_zero]
      simp only [reduceCtorEq, or_false] at state
      simp only [state]
    · obtain rfl := Option.some.inj new
      have nothing : detaches next.tls.events host.machine.sched.nextHandle = 0 := by
        rw [events]
        refine detaches_zero (fun event inside same => ?_)
        rcases List.mem_append.mp inside with old | new
        · exact absurd (same ▸ others event old) unknown
        · exact (mem_attach new).2
      exact nothing
  · intro event member
    rw [events] at member
    refine (known_iff _).mpr ?_
    rcases List.mem_append.mp member with old | new
    · exact Or.inl (others event old)
    · exact Or.inr (mem_attach new).1

/-- Every attempt but an exit leaves the storage alone and ends no thread. -/
theorem unending {attempt : Attempt τ} (goes : ∀ code, attempt ≠ .operation (.exit code)) (host : TlsHost τ)
    (stored : Stored) : host.observed attempt = host.tls ∧ host.machine.ending attempt = none ∧
      FinishesStored (host, stored) (.attempt attempt) := by
  cases attempt with
  | unmapped stackTopReserve => exact ⟨rfl, rfl, trivial⟩
  | operation operation =>
    cases operation with
    | exit code => exact absurd rfl (goes code)
    | run | turn | yield | sleepTicks | join | blockCurrent | signal | spawn => exact ⟨rfl, rfl, trivial⟩

/-- The thread that is switched in finishes. -/
theorem Tracked.exits [DecidableEq τ] [Inhabited τ] (tracked : host.Tracked stored) {code : Int}
    (stepped : host.step (.attempt (.operation (.exit code))) = some next) :
    (next.Bracketed stored ↔ FinishesStored (host, stored) (.attempt (.operation (.exit code)))) ∧
      (FinishesStored (host, stored) (.attempt (.operation (.exit code))) → next.Tracked stored) := by
  obtain ⟨machine, tried, rfl⟩ := Option.map_eq_some_iff.mp stepped
  obtain ⟨ordered, fresh, advances, new⟩ := Machine.ordered_attempt tracked.ordered tried
  have exits : host.machine.step (.exit code) = some machine := tried
  obtain ⟨index, switched, rfl⟩ := Option.map_eq_some_iff.mp exits
  obtain ⟨thread, found, unfinished⟩ := tracked.ordered.unfinished switched
  have handle : host.machine.sched.currentHandle = thread.handle := by
    simp [currentHandle, switched, found]
  have nothing : fresh = none := by
    cases fresh with
    | none => rfl
    | some made =>
      obtain ⟨_, _, impossible, _⟩ := new made rfl
      cases impossible
  subst nothing
  have ending : host.machine.ending (.operation (.exit code)) = some index := switched
  rw [ending] at advances
  cases hook : host.tls.hookInstalled with
  | false =>
    have nothing : stored = [] := by
      by_contra some
      rw [tracked.hooked some] at hook
      cases hook
    have same : host.observed (.operation (.exit code)) = host.tls := by
      simp [observed, FiberTls.finished, hook]
    have meets : FinishesStored (host, stored) (.attempt (.operation (.exit code))) := by
      intro _ set
      rw [hook] at set
      cases set
    have later : Tracked ({ host with
        machine := { host.machine with sched := host.machine.sched.threadExit index code }
        tls := host.observed (.operation (.exit code)) }) stored :=
      tracked.quiet ordered advances (by rw [same]) (by rw [same]) (by rw [same]; exact id) (Or.inr nothing)
    exact ⟨iff_of_true later.bracketed meets, fun _ => later⟩
  | true =>
    have recorded : host.observed (.operation (.exit code)) =
        host.tls.record thread.handle 0 kReasonThreadDetach := by
      simp [observed, FiberTls.finished, hook, handle]
    have condition : FinishesStored (host, stored) (.attempt (.operation (.exit code))) ↔
        thread.handle ∈ stored.map Prod.fst := by
      simp only [FinishesStored, switched, Option.isSome_some, hook, handle, true_imp_iff]
    rw [condition]
    have later : thread.handle ∈ stored.map Prod.fst → Tracked ({ host with
        machine := { host.machine with sched := host.machine.sched.threadExit index code }
        tls := host.observed (.operation (.exit code)) }) stored :=
      fun known => tracked.ends found unfinished ordered advances recorded known
    refine ⟨⟨fun bracketed => ?_, fun known => (later known).bracketed⟩, later⟩
    refine bracketed.others (detached thread.handle) ?_
    rw [recorded]
    exact List.mem_append_right _ (List.mem_singleton_self _)

/-- One step keeps the notifications bracketed if and only if the thread that it ends has storage,
or the hook is not set. -/
theorem Tracked.step [DecidableEq τ] [Inhabited τ] (tracked : host.Tracked stored) {action : TlsAction τ}
    (stepped : host.step action = some next) :
    (next.Bracketed (recordStored host action next stored) ↔ FinishesStored (host, stored) action) ∧
      (FinishesStored (host, stored) action → next.Tracked (recordStored host action next stored)) := by
  have kept : next.Tracked (recordStored host action next stored) →
      FinishesStored (host, stored) action →
      (next.Bracketed (recordStored host action next stored) ↔ FinishesStored (host, stored) action) ∧
        (FinishesStored (host, stored) action → next.Tracked (recordStored host action next stored)) :=
    fun later meets => ⟨iff_of_true later.bracketed meets, fun _ => later⟩
  cases action with
  | setInit init =>
    rcases setInit_step stepped with rfl | ⟨_, rfl⟩
    · exact kept tracked trivial
    · exact kept (tracked.quiet tracked.ordered (.same (.refl _) rfl) rfl rfl id (Or.inl rfl)) trivial
  | store addr bytes =>
    obtain rfl := store_step stepped
    exact kept (tracked.quiet tracked.ordered (.same (.refl _) rfl) rfl rfl id (Or.inl rfl)) trivial
  | spawnWithTls region stray =>
    rcases spawnWithTls_step tracked.ordered stepped stored with ⟨fails, same⟩ | ⟨init, base, _, made, grown⟩
    · refine kept ?_ trivial
      rw [same]
      rcases fails.tls with tls | tls
      · exact tracked.quiet fails.ordered fails.advances (by rw [tls]) (by rw [tls]) (by rw [tls]; exact id)
          (Or.inl rfl)
      · exact tracked.quiet fails.ordered fails.advances (by rw [tls]; rfl) (by rw [tls]; rfl)
          (by rw [tls]; exact fun _ => rfl) (Or.inl rfl)
    · refine kept ?_ trivial
      rw [grown]
      exact tracked.stores made
  | attempt attempt =>
    by_cases exits : ∃ code, attempt = .operation (.exit code)
    · obtain ⟨code, rfl⟩ := exits
      exact tracked.exits stepped
    · obtain ⟨same, going, meets⟩ := unending (fun code equal => exits ⟨code, equal⟩) host stored
      obtain ⟨machine, tried, rfl⟩ := Option.map_eq_some_iff.mp stepped
      obtain ⟨ordered, fresh, advances, _⟩ := Machine.ordered_attempt tracked.ordered tried
      refine kept ?_ meets
      exact tracked.quiet ordered advances (by rw [same]) (by rw [same]) (by rw [same]; exact id) (Or.inl going)

/-- **TLS notifications.** In every state of a run the notifications are well bracketed, if and
only if no fiber without storage finishes while the hook is set.

Proof: every fiber with storage is attached once, and detached by the hook when it finishes. The
hook detaches a fiber without storage too, and that one was never attached. -/
theorem bracketed_iff [DecidableEq τ] [Inhabited τ] (actions : List (TlsAction τ)) :
    Runs.Visits (Runs.watch step recordStored) (fun watched => watched.1.Bracketed watched.2)
        (({} : TlsHost τ), []) actions ↔
      Runs.Along (Runs.watch step recordStored) FinishesStored (({} : TlsHost τ), []) actions := by
  have start : Tracked ({} : TlsHost τ) [] := by
    refine ⟨.initial, ?_, fun some => absurd rfl some, rfl⟩
    constructor
    · rfl
    · intro index detach found
      cases found
    · simp
    · simp
    · simp
  have decides : ∀ (watched : TlsHost τ × Stored) action next, watched.1.Tracked watched.2 →
      Runs.watch step recordStored watched action = some next →
      (next.1.Bracketed next.2 ↔ FinishesStored watched action) ∧
        (FinishesStored watched action → next.1.Tracked next.2) := by
    intro watched action next tracked taken
    obtain ⟨after, stepped, rfl⟩ := Option.map_eq_some_iff.mp taken
    exact tracked.step stepped
  have carried : Runs.Visits (Runs.watch step recordStored) (fun watched => watched.1.Bracketed watched.2)
      (({} : TlsHost τ), []) actions ↔
      Runs.Visits (Runs.watch step recordStored) (fun watched => watched.1.Tracked watched.2) ({}, []) actions :=
    Runs.visits_strengthen (fun _ => Tracked.bracketed)
      (fun watched action next tracked taken bracketed =>
        (decides watched action next tracked taken).2
          ((decides watched action next tracked taken).1.mp bracketed)) _ _ start
  refine carried.trans (Runs.visits_iff_along (fun watched action next tracked taken => ?_)
    (fun watched action stuck => ?_) _ _ start)
  · obtain ⟨bracketed, later⟩ := decides watched action next tracked taken
    exact ⟨fun after => bracketed.mp after.bracketed, later⟩
  · cases action with
    | setInit | spawnWithTls | store => trivial
    | attempt attempt =>
      by_cases exits : ∃ code, attempt = .operation (.exit code)
      · obtain ⟨code, rfl⟩ := exits
        intro switched
        obtain ⟨index, current⟩ := Option.isSome_iff_exists.mp switched
        simp [Runs.watch, TlsHost.step, Machine.attempt, Machine.step, current] at stuck
      · exact (unending (fun code equal => exits ⟨code, equal⟩) watched.1 watched.2).2.2

/-- A plain fiber that was spawned before the first one with storage ends while the hook is set. -/
theorem plainFiber_detached : ¬ ∀ actions : List (TlsAction Nat),
    Runs.Visits (Runs.watch step recordStored) (fun watched => watched.1.Bracketed watched.2) ({}, []) actions := by
  intro always
  obtain ⟨_, visits⟩ := always
    [.attempt (.operation (.spawn 0 0x10000)), .setInit {}, .spawnWithTls (some 0x80000) none,
      .attempt (.operation .run), .attempt (.operation .turn), .attempt (.operation (.exit 0))]
  obtain ⟨_, visits⟩ := visits _ rfl
  obtain ⟨_, visits⟩ := visits _ rfl
  obtain ⟨_, visits⟩ := visits _ rfl
  obtain ⟨_, visits⟩ := visits _ rfl
  obtain ⟨_, visits⟩ := visits _ rfl
  have bracketed : Bracketed _ _ := visits _ rfl
  exact absurd (bracketed.others (detached 1) (by decide)) (by decide)

end TlsHost

end SeriesxEmu
