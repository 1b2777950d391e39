import SeriesxEmu.CriticalSections
import SeriesxEmu.HandleClosing
import SeriesxEmu.ThreadResumption
import SeriesxEmu.ThreadTermination

/-!
# How a system thread starts, and what closing its handle does to it

The body of a system thread looks its own object up at the first dispatch, in the
handle table. `NtClose` destroys that object, so the body of a thread that has
not begun its routine finds nothing: it does not park, and the runner gets no
handle. A thread that has begun has no more use for the object, until it calls
`PsTerminateSystemThread`, which needs the object or an identity.
-/

namespace SeriesxEmu

open Scheduler GuestScheduler

/-- The fiber of a system thread that has not begun its routine: it has never been
dispatched, or it has been parked at its first dispatch. -/
def Fiber.unstarted (fiber : Fiber) : Bool :=
  (fiber.ctx.point == .entry && fiber.ctx.body == .systhread none) || fiber.ctx.point == .parked

/-- A fiber has not begun when it waits at its entry, or when its body parked it there. -/
theorem Fiber.unstarted_iff (fiber : Fiber) : Fiber.unstarted fiber = true ↔
    (fiber.ctx.point = .entry ∧ fiber.ctx.body = .systhread none) ∨ fiber.ctx.point = .parked := by
  simp [Fiber.unstarted]

/-- The fiber whose start or creation an entry of the history is about. -/
def Event.about : Event → Option Nat
  | .created fiber _ _ => some fiber
  | .ran fiber _ _ => some fiber
  | _ => none

/-- Whenever the runner was called from the fiber of a system thread, it read the start
information the thread was created with, and a thread created suspended had been resumed. -/
def RunsRight (history : List Event) : Prop :=
  ∀ later earlier fiber handle found, history = later ++ .ran fiber handle found :: earlier →
    ∀ start suspended, .created fiber start suspended ∈ history →
      found = some start ∧ (suspended = true → .resumed fiber ∈ earlier)

/-- An entry more in the history. -/
theorem RunsRight.cons {history : List Event} (right : RunsRight history) {event : Event}
    (ran : ∀ fiber handle found, event = .ran fiber handle found → ∀ start suspended,
      .created fiber start suspended ∈ history →
        found = some start ∧ (suspended = true → .resumed fiber ∈ history))
    (created : ∀ fiber start suspended, event = .created fiber start suspended →
      ∀ handle found, .ran fiber handle found ∉ history) : RunsRight (event :: history) := by
  intro later earlier fiber handle found split start suspended member
  cases later with
  | nil =>
    obtain ⟨rfl, rfl⟩ := List.cons.inj split
    rcases List.mem_cons.mp member with same | old
    · cases same
    · exact ran fiber handle found rfl start suspended old
  | cons last later =>
    obtain ⟨rfl, rest⟩ := List.cons.inj split
    rcases List.mem_cons.mp member with same | old
    · exact absurd (rest ▸ List.mem_append_right _ List.mem_cons_self)
        (created fiber start suspended same.symm handle found)
    · exact right later earlier fiber handle found rest start suspended old

/-- Entries that are about no start and no creation. -/
theorem RunsRight.append {history : List Event} (right : RunsRight history) (events : List Event)
    (others : ∀ event ∈ events, event.about = none) : RunsRight (events ++ history) := by
  induction events with
  | nil => exact right
  | cons event events inductionHypothesis =>
    have here := others event List.mem_cons_self
    refine (inductionHypothesis (fun other member => others other (List.mem_cons_of_mem _ member))).cons ?_ ?_
    · rintro fiber handle found rfl
      cases here
    · rintro fiber start suspended rfl
      cases here

namespace XboxKrnl

variable {krnl next : XboxKrnl}

/-- The thread object of a fiber that has not begun its routine is in the handle table, and
a thread created suspended has been resumed or is held back. -/
structure Held (krnl : XboxKrnl) (fiber : Fiber) (ptr : Ptr) : Prop where
  tabled : krnl.TabledThread fiber.handle ptr
  captured : fiber.ctx.point = .parked → fiber.ctx.body = .systhread (some ptr)
  runs : fiber.ctx.point = .entry → (krnl.object ptr).thread.running = true
  suspended : ∀ start, .created fiber.handle start true ∈ krnl.history → .resumed fiber.handle ∈ krnl.history ∨
    (fiber.ctx.point = .entry ∧ 0 < (krnl.object ptr).thread.suspendCount) ∨
    (fiber.ctx.point = .parked ∧ fiber.state = .blockedWait)

/-- The invariant of the starts of threads. While the fiber `entering` is on its way from
its point of suspension to the runner, it has neither begun nor not begun. -/
structure Begins (krnl : XboxKrnl) (entering : Option Nat) : Prop where
  channels : krnl.Channels
  numbered : ∀ event ∈ krnl.history, ∀ fiber, event.about = some fiber → fiber < krnl.sched.nextHandle
  recorded : ∀ fiber start suspended ptr, .created fiber start suspended ∈ krnl.history →
    krnl.TabledThread fiber ptr → startInfo (krnl.object ptr).thread = start
  system : ∀ fiber ∈ krnl.sched.threads, ∀ start suspended,
    .created fiber.handle start suspended ∈ krnl.history → fiber.ctx.body ≠ .native
  held : ∀ fiber ∈ krnl.sched.threads, Fiber.unstarted fiber = true → ∃ ptr, krnl.Held fiber ptr
  ran : RunsRight krnl.history
  begun : ∀ fiber ∈ krnl.sched.threads, ∀ start suspended,
    .created fiber.handle start suspended ∈ krnl.history → entering ≠ some fiber.handle →
    Fiber.unstarted fiber = true ∨ ∃ handle found, .ran fiber.handle handle found ∈ krnl.history

/-! ## The history and the handle table -/

/-- Only the creation of a system thread and the call of the runner are recorded about a fiber. -/
theorem events_about {effect : Effect} {event : Event} {fiber : Nat} (new : event ∈ effect.events krnl)
    (about : event.about = some fiber) :
    (∃ request base, effect = .createThread request base ∧ fiber = krnl.sched.nextHandle) ∨
      ∃ handle, effect = .ran handle ∧ fiber = krnl.currentHandle := by
  cases effect with
  | ran handle =>
    obtain rfl := List.mem_singleton.mp new
    exact Or.inr ⟨handle, rfl, (Option.some.inj about).symm⟩
  | createThread request base =>
    obtain rfl := List.mem_singleton.mp new
    exact Or.inl ⟨request, base, rfl, (Option.some.inj about).symm⟩
  | deliver reply =>
    obtain rfl := List.mem_singleton.mp new
    cases about
  | consume ptr =>
    obtain rfl := List.mem_singleton.mp new
    cases about
  | acquire mode ptrs status =>
    obtain rfl := List.mem_singleton.mp new
    cases about
  | releaseMutant ptr =>
    obtain rfl := List.mem_singleton.mp new
    cases about
  | releaseSemaphore ptr adjustment =>
    obtain rfl := List.mem_singleton.mp new
    cases about
  | create object =>
    simp only [Effect.events, birth] at new
    split at new
    · split at new
      · cases new
      · obtain rfl := List.mem_singleton.mp new
        cases about
    · obtain rfl := List.mem_singleton.mp new
      cases about
    · cases new
  | resumeThread ptr =>
    simp only [Effect.events] at new
    split at new
    · obtain rfl := List.mem_singleton.mp new
      cases about
    · cases new
  | exit code =>
    simp only [Effect.events] at new
    split at new
    · obtain rfl := List.mem_singleton.mp new
      cases about
    · cases new
  | _ => cases new

/-- A creation in the history is old, or that of the thread being created. -/
theorem created_origin (ok : krnl.Ok) {effect : Effect} (allowed : effect.Allowed krnl) {fiber : Nat}
    {start : StartInfo} {suspended : Bool} (member : .created fiber start suspended ∈ (effect.apply krnl).history) :
    .created fiber start suspended ∈ krnl.history ∨
      ∃ request base, effect = .createThread request base ∧ fiber = krnl.sched.nextHandle := by
  rw [history_apply ok allowed] at member
  rcases List.mem_append.mp member with new | old
  · rcases events_about new rfl with created | ⟨handle, rfl, _⟩
    · exact Or.inr created
    · cases List.mem_singleton.mp new
  · exact Or.inl old

/-- A creation recorded for a fiber that was spawned before the effect was recorded before it. -/
theorem Ok.created_before (ok : krnl.Ok) {effect : Effect} (allowed : effect.Allowed krnl) {fiber : Fiber}
    (spawned : fiber ∈ krnl.sched.threads) {start : StartInfo} {suspended : Bool}
    (member : .created fiber.handle start suspended ∈ (effect.apply krnl).history) :
    .created fiber.handle start suspended ∈ krnl.history := by
  rcases created_origin ok allowed member with old | ⟨_, _, _, fresh⟩
  · exact old
  · exact absurd fresh (ok.nextHandle_fresh fiber spawned)

/-- No effect removes an event from the history. -/
theorem history_grows (ok : krnl.Ok) {effect : Effect} (allowed : effect.Allowed krnl) {event : Event}
    (member : event ∈ krnl.history) : event ∈ (effect.apply krnl).history := by
  rw [history_apply ok allowed]
  exact List.mem_append_right _ member

/-- The handle counter never goes back. -/
theorem nextHandle_grows (ok : krnl.Ok) {effect : Effect} (allowed : effect.Allowed krnl) :
    krnl.sched.nextHandle ≤ (effect.apply krnl).sched.nextHandle := by
  by_cases closes : ∃ slot ptr, effect = .close slot ptr
  · obtain ⟨slot, ptr, rfl⟩ := closes
    exact Nat.le_refl _
  · exact (Effect.extends_apply ok allowed (fun slot ptr same => closes ⟨slot, ptr, same⟩)).handles

/-- The object and the entry that the creation of a system thread leaves. -/
theorem Ok.created_thread (ok : krnl.Ok) {request : ThreadRequest} {base : Nat}
    (allowed : (Effect.createThread request base).Allowed krnl) :
    ((Effect.createThread request base).apply krnl).TabledThread krnl.sched.nextHandle krnl.heap.length ∧
      ∃ slot, (((Effect.createThread request base).apply krnl).object krnl.heap.length).thread =
        (krnl.systemThread request slot).thread := by
  obtain ⟨slot, objects, freeSlots, created, table, _⟩ := krnl.createThread_eq ok.registry request base allowed
  have live : ((Effect.createThread request base).apply krnl).object? krnl.heap.length =
      some { krnl.systemThread request slot with token := .object krnl.freshAddress } := by
    simp [Effect.apply, created, tabledWith, allocate, object?]
  refine ⟨⟨⟨slot, ?_⟩, _, live, rfl, rfl⟩, slot, ?_⟩
  · simp only [Effect.apply, created, krnl.registry_tabledWith _ slot _ _ _ _ _ table]
    exact Function.update_self _ _ _
  · rw [object_eq _ _ _ live]

namespace Begins

variable {entering : Option Nat}

/-- Every event speaks of a fiber that has been numbered, after the effect as before it. -/
theorem numbered_apply (begins : krnl.Begins entering) (ok : krnl.Ok) {effect : Effect}
    (allowed : effect.Allowed krnl) : ∀ event ∈ (effect.apply krnl).history, ∀ fiber,
      event.about = some fiber → fiber < (effect.apply krnl).sched.nextHandle := by
  have grows := nextHandle_grows ok allowed
  intro event member fiber about
  rw [history_apply ok allowed] at member
  rcases List.mem_append.mp member with new | old
  · rcases events_about new about with ⟨request, base, rfl, rfl⟩ | ⟨handle, rfl, rfl⟩
    · obtain ⟨slot, objects, freeSlots, created, _⟩ := krnl.createThread_eq ok.registry request base allowed
      simp only [Effect.apply, created]
      exact Nat.lt_succ_self _
    · obtain ⟨current, running, _⟩ := allowed
      rw [currentHandle_of_fiber running]
      exact Nat.lt_of_lt_of_le (ok.running running).2.1.below grows
  · exact Nat.lt_of_lt_of_le (begins.numbered event old fiber about) grows

/-- A fiber that is yet to be spawned is not in the history. -/
theorem unrecorded (begins : krnl.Begins entering) {start : StartInfo} {suspended : Bool} :
    .created krnl.sched.nextHandle start suspended ∉ krnl.history :=
  fun member => Nat.lt_irrefl _ (begins.numbered _ member _ rfl)

/-- The token of a recorded thread holds what the creation recorded, after the effect as before it. -/
theorem recorded_apply (begins : krnl.Begins entering) (ok : krnl.Ok) {effect : Effect}
    (allowed : effect.Allowed krnl) : ∀ fiber start suspended ptr,
      .created fiber start suspended ∈ (effect.apply krnl).history →
      (effect.apply krnl).TabledThread fiber ptr →
      startInfo ((effect.apply krnl).object ptr).thread = start := by
  intro fiber start suspended ptr member tabled
  rcases Effect.tabledThread_origin ok allowed tabled with before | ⟨⟨request, base, rfl⟩, rfl, rfl⟩
  · rcases created_origin ok allowed member with old | ⟨request, base, rfl, rfl⟩
    · have same := begins.recorded fiber start suspended ptr old before
      obtain ⟨_, object, live, _⟩ := before
      obtain ⟨_, after, later, _⟩ := tabled
      rcases Effect.object_origin ok allowed later with ⟨earlier, again, rfl⟩ | ⟨fresh, _⟩
      · obtain rfl := Option.some.inj (live.symm.trans again)
        rw [krnl.object_eq _ _ live] at same
        rw [object_eq _ _ _ later, ← same]
        exact congrArg (fun shape => startInfo shape.thread) (effect.rewrite_shape krnl ptr object)
      · exact absurd fresh (Nat.ne_of_lt (krnl.object?_inside _ _ live))
    · obtain ⟨⟨slot, found⟩, object, live, kind, handle⟩ := before
      obtain ⟨shape, shaped, numbers⟩ := ok.registry.tabled slot ptr found
      obtain rfl := Option.some.inj (shaped.symm.trans (krnl.shapes_eq _ _ live))
      have below := (numbers kind).2.2
      exact absurd handle (Nat.ne_of_lt below)
  · obtain ⟨_, slot, thread⟩ := ok.created_thread allowed
    rw [history_apply ok allowed] at member
    rcases List.mem_append.mp member with new | old
    · cases List.mem_singleton.mp new
      rw [thread]
      rfl
    · exact absurd old begins.unrecorded

/-- The calls of the runner stay right under every effect that is not such a call. -/
theorem ran_apply (begins : krnl.Begins entering) (ok : krnl.Ok) {effect : Effect} (allowed : effect.Allowed krnl)
    (silent : ∀ handle, effect ≠ .ran handle) : RunsRight (effect.apply krnl).history := by
  rw [history_apply ok allowed]
  by_cases creates : ∃ request base, effect = .createThread request base
  · obtain ⟨request, base, rfl⟩ := creates
    refine begins.ran.cons (fun fiber handle found same => by cases same) ?_
    rintro fiber start suspended ⟨⟩ handle found member
    exact Nat.lt_irrefl _ (begins.numbered _ member _ rfl)
  · refine begins.ran.append _ (fun event new => ?_)
    cases about : event.about with
    | none => rfl
    | some fiber =>
      rcases events_about new about with ⟨request, base, same, _⟩ | ⟨handle, same, _⟩
      · exact absurd ⟨request, base, same⟩ creates
      · exact absurd same (silent handle)

end Begins

/-! ## Fibers that have not begun -/

/-- An effect that suspends is the adjustment of a suspend count or a suspension of the caller. -/
theorem label_suspend {effect : Effect} (suspends : effect.label = .suspend) :
    ∃ ptr, effect = .adjust ptr .suspend ∨ ∃ out reply, effect = .suspendSelf ptr out reply := by
  unfold Effect.label at suspends
  split at suspends <;>
    first
      | exact ⟨_, Or.inl rfl⟩
      | exact ⟨_, Or.inr ⟨_, _, rfl⟩⟩
      | cases suspends

/-- An effect that resumes is the resumption of some thread object. -/
theorem label_resume {effect : Effect} (resumes : effect.label = .resume) :
    ∃ ptr, effect = .resumeThread ptr := by
  unfold Effect.label at resumes
  split at resumes <;> first | exact ⟨_, rfl⟩ | cases resumes

/-- A running object of the handle table stays suspended, or its thread is resumed. -/
theorem Ok.stays_suspended (ok : krnl.Ok) {effect : Effect} (allowed : effect.Allowed krnl) {slot : Nat} {ptr : Ptr}
    {object : DispatcherObject} (tabled : krnl.registry.table slot = some ptr)
    (live : krnl.object? ptr = some object) (running : object.thread.running = true)
    (suspended : 0 < object.thread.suspendCount) :
    0 < (effect.rewrite krnl ptr object).thread.suspendCount ∨
      .resumed object.thread.schedHandle ∈ (effect.apply krnl).history := by
  by_cases suspends : effect.label = .suspend
  · left
    obtain ⟨target, rfl | ⟨out, reply, rfl⟩⟩ := label_suspend suspends
    · obtain ⟨other, there, _, stopped⟩ := allowed
      have elsewhere : ptr ≠ target := by
        rintro rfl
        obtain rfl := Option.some.inj (live.symm.trans there)
        rw [running] at stopped
        cases stopped
      simpa [Effect.rewrite, Effect.onlyAt, elsewhere] using suspended
    · have elsewhere : ptr ≠ target := by
        rintro rfl
        exact (ok.registry.identities _ _ (krnl.fiberThread?_member _ _ allowed.1)).2.2 slot tabled
      simpa [Effect.rewrite, Effect.onlyAt, elsewhere] using suspended
  · by_cases resumes : effect.label = .resume
    · obtain ⟨target, rfl⟩ := label_resume resumes
      by_cases same : ptr = target
      · subst same
        by_cases last : object.thread.suspendCount = 1
        · right
          rw [history_apply ok allowed]
          simp [Effect.events, krnl.object_eq _ _ live, last]
        · left
          simp only [Effect.rewrite, Effect.onlyAt, ↓reduceIte]
          omega
      · simpa [Effect.rewrite, Effect.onlyAt, same] using Or.inl suspended
    · rw [rewrite_suspendCount suspends resumes]
      exact Or.inl suspended

/-- A fiber that is neither running nor woken goes on being held. -/
theorem Held.apply {fiber : Fiber} {ptr : Ptr} (held : krnl.Held fiber ptr) (ok : krnl.Ok) {effect : Effect}
    (allowed : effect.Allowed krnl) (opens : ∀ slot, effect ≠ .close slot ptr)
    (member : fiber ∈ krnl.sched.threads) (other : fiber.handle ≠ krnl.currentHandle) :
    (effect.apply krnl).Held fiber ptr := by
  have tabled := Effect.tabledThread_apply ok allowed opens held.tabled
  obtain ⟨⟨slot, found⟩, object, live, kind, handle⟩ := held.tabled
  have later : (effect.apply krnl).object? ptr = some (effect.rewrite krnl ptr object) := by
    rcases Effect.object_fate ok allowed live with later | ⟨place, closes⟩
    · exact later
    · exact absurd closes (opens place)
  have unstopped : effect ≠ .adjust ptr .stop := by
    rintro rfl
    obtain ⟨again, there, _, own⟩ := allowed
    obtain rfl := Option.some.inj (live.symm.trans there)
    exact other (handle.symm.trans own)
  have runs := held.runs
  have suspended := held.suspended
  rw [krnl.object_eq _ _ live] at runs suspended
  refine ⟨tabled, held.captured, fun entry => ?_, fun start member' => ?_⟩
  · rw [object_eq _ _ _ later, Effect.rewrite_running krnl unstopped]
    exact runs entry
  · rw [object_eq _ _ _ later]
    rcases suspended start (ok.created_before allowed member member') with resumed | ⟨entry, positive⟩ | parked
    · exact Or.inl (history_grows ok allowed resumed)
    · rcases ok.stays_suspended allowed found live (runs entry) positive with still | resumed
      · exact Or.inr (Or.inl ⟨entry, still⟩)
      · rw [handle] at resumed
        exact Or.inl resumed
    · exact Or.inr (Or.inr parked)

/-- A parked thread is woken by the resume that takes its last suspension. -/
theorem Channels.wake_resumes (channels : krnl.Channels) (ok : krnl.Ok) {effect : Effect}
    (allowed : effect.Allowed krnl) (quiet : effect.label ≠ .loop) {index : Nat} {fiber : Fiber}
    (found : krnl.sched.threads[index]? = some fiber) (blocked : fiber.state = .blockedWait) {ptr : Ptr}
    (tabled : krnl.TabledThread fiber.handle ptr) (parked : fiber.ctx.point = .parked)
    (body : fiber.ctx.body = .systhread (some ptr))
    (woken : (effect.apply krnl).sched.threads[index]? = some fiber.wake)
    (signals : effect.Signals krnl fiber.waitToken) : .resumed fiber.handle ∈ (effect.apply krnl).history := by
  have member := List.mem_of_getElem? found
  obtain ⟨_, object, live, kind, handle⟩ := tabled
  have onPtr : Fiber.parkedOn fiber = some ptr := by simp [Fiber.parkedOn, parked, body, Body.captured]
  have token := (ok.parkedOn_channel member blocked onPtr live).2
  rw [token] at signals
  have named := channels.signals_target ok allowed live signals
  have wrongKind : ∀ {target : Ptr} {there : DispatcherObject}, some target = some ptr →
      krnl.object? target = some there → there.kind ≠ .thread → False := by
    rintro target there ⟨rfl⟩ here other
    obtain rfl := Option.some.inj (live.symm.trans here)
    exact other kind
  cases effect with
  | setEvent target =>
    obtain ⟨there, here, isEvent⟩ := allowed
    exact (wrongKind named here (by simp [isEvent])).elim
  | pulseEvent target =>
    obtain ⟨there, here, isEvent⟩ := allowed
    exact (wrongKind named here (by simp [isEvent])).elim
  | releaseMutant target =>
    obtain ⟨there, here, isMutant, _⟩ := allowed
    exact (wrongKind named here (by simp [isMutant])).elim
  | releaseSemaphore target adjustment =>
    obtain ⟨there, here, isSemaphore, _⟩ := allowed
    exact (wrongKind named here (by simp [isSemaphore])).elim
  | abandon target =>
    obtain ⟨there, here, isMutant, _⟩ := allowed
    exact (wrongKind named here (by simp [isMutant])).elim
  | wakeJoiner target =>
    obtain rfl := Option.some.inj named
    obtain ⟨there, here, _, own⟩ := allowed
    obtain rfl := Option.some.inj (live.symm.trans here)
    exact absurd (handle.symm.trans own) (ok.blocked_other member blocked)
  | resumeThread target =>
    obtain rfl := Option.some.inj named
    by_cases last : object.thread.suspendCount = 1
    · rw [history_apply ok allowed]
      simp [Effect.events, krnl.object_eq _ _ live, last, handle]
    · have threads := (Effect.leads ok (.resumeThread target) allowed quiet).threads
      simp only [Effect.threads, krnl.object_eq _ _ live, last, ↓reduceIte] at threads
      rw [threads, found] at woken
      have state := congrArg GuestThread.state (Option.some.inj woken)
      rw [blocked] at state
      cases state
  | _ => cases named

/-- A woken fiber goes on being held until it is dispatched. -/
theorem Held.wake {fiber : Fiber} {ptr : Ptr} (held : krnl.Held fiber ptr) (channels : krnl.Channels) (ok : krnl.Ok)
    {effect : Effect} (allowed : effect.Allowed krnl) (quiet : effect.label ≠ .loop)
    (opens : ∀ slot, effect ≠ .close slot ptr) {index : Nat} (found : krnl.sched.threads[index]? = some fiber)
    (blocked : fiber.state = .blockedWait) (unstarted : Fiber.unstarted fiber = true)
    (woken : (effect.apply krnl).sched.threads[index]? = some fiber.wake)
    (signals : effect.Signals krnl fiber.waitToken) : (effect.apply krnl).Held fiber.wake ptr := by
  have member := List.mem_of_getElem? found
  have waits := (ok.fibers.each fiber member).waits blocked
  have parked : fiber.ctx.point = .parked := by
    rcases (Fiber.unstarted_iff fiber).mp unstarted with ⟨entry, _⟩ | parked
    · simp [Registry.Waits, entry] at waits
    · exact parked
  have kept := held.apply ok allowed opens member (ok.blocked_other member blocked)
  have resumed := channels.wake_resumes ok allowed quiet found blocked held.tabled parked (held.captured parked)
    woken signals
  exact ⟨kept.tabled, kept.captured, kept.runs, fun _ _ => Or.inl resumed⟩

/-- A turn of the run loop moves no fiber on. -/
theorem turn_same {index : Nat} {after : Fiber} (idle : krnl.sched.current = none)
    (later : ((Effect.turn).apply krnl).sched.threads[index]? = some after) :
    ∃ fiber, krnl.sched.threads[index]? = some fiber ∧ after.handle = fiber.handle ∧ after.ctx = fiber.ctx := by
  obtain ⟨fiber, passed, before, passes, moved⟩ := Effect.turn_origin idle later
  obtain ⟨handle, ctx, _⟩ := passes.same
  refine ⟨fiber, before, ?_⟩
  rcases moved with ⟨rfl, _⟩ | ⟨_, _, rfl⟩
  · exact ⟨handle, ctx⟩
  · exact ⟨handle, ctx⟩

/-- A turn of the run loop that times no parked fiber out leaves the fibers held. -/
theorem Held.turn {fiber after : Fiber} {ptr : Ptr} (held : krnl.Held fiber ptr) {index : Nat}
    (idle : krnl.sched.current = none) (found : krnl.sched.threads[index]? = some fiber)
    (later : ((Effect.turn).apply krnl).sched.threads[index]? = some after)
    (inTime : fiber.ctx.point = .parked → fiber.state = .blockedWait → krnl.sched.tick < fiber.wakeTick) :
    ((Effect.turn).apply krnl).Held after ptr := by
  obtain ⟨other, before, handle, ctx⟩ := turn_same idle later
  obtain rfl := Option.some.inj (found.symm.trans before)
  refine ⟨?_, ?_, ?_, ?_⟩
  · rw [handle]
    exact held.tabled
  · rw [ctx]
    exact held.captured
  · rw [ctx]
    exact held.runs
  · intro start member
    rw [handle] at member ⊢
    rw [ctx]
    rcases held.suspended start member with resumed | entry | ⟨parked, blocked⟩
    · exact Or.inl resumed
    · exact Or.inr (Or.inl entry)
    · have early := inTime parked blocked
      have waits : timeOutWait krnl.sched.tick (wakeSleeper krnl.sched.tick (krnl.sched.unblockJoin fiber)) =
          fiber := by
        simp [unblockJoin, wakeSleeper, timeOutWait, blocked, early]
      rcases Effect.turn_kept found idle waits with ⟨again, _⟩ | ⟨_, _, ready⟩
      · obtain rfl := Option.some.inj (later.symm.trans again)
        exact Or.inr (Or.inr ⟨parked, blocked⟩)
      · rw [blocked] at ready
        cases ready

/-- The thread that has just been created is held. -/
theorem Begins.held_created {entering : Option Nat} (begins : krnl.Begins entering) (ok : krnl.Ok)
    {request : ThreadRequest} {base : Nat} (allowed : (Effect.createThread request base).Allowed krnl) {fiber : Fiber}
    (spawned : (Effect.createThread request base).Spawns krnl fiber) :
    ((Effect.createThread request base).apply krnl).Held fiber krnl.heap.length := by
  obtain rfl : fiber = _ := spawned
  obtain ⟨tabled, slot, thread⟩ := ok.created_thread allowed
  refine ⟨tabled, fun parked => ?_, fun _ => ?_, fun start member => ?_⟩
  · cases parked
  · rw [thread]
    rfl
  · rw [history_apply ok allowed] at member
    rcases List.mem_append.mp member with new | old
    · have same := List.mem_singleton.mp new
      simp only [Event.created.injEq] at same
      have odd : request.createSuspended % 2 = 1 := by simpa using same.2.2.symm
      have positive : 0 < request.createSuspended % 2 := by omega
      refine Or.inr (Or.inl ⟨rfl, ?_⟩)
      rw [thread]
      exact positive
    · exact absurd old begins.unrecorded

/-! ## Effects -/

/-- The running fiber stays in its routine. -/
theorem moves_started {effect : Effect} (allowed : effect.Allowed krnl) (outside : effect.label ≠ .entering)
    {fiber : Fiber} (guest : fiber.ctx.point = .guest) :
    Fiber.unstarted (effect.moves krnl fiber) = false ∧ (effect.moves krnl fiber).ctx.body = fiber.ctx.body := by
  cases effect with
  | block token ticks point =>
    cases point with
    | entry => exact allowed.2.elim
    | parked => exact absurd rfl outside
    | _ => exact ⟨rfl, rfl⟩
  | suspendSelf ptr out reply => exact ⟨rfl, rfl⟩
  | pause state wakeTick joinTarget point =>
    obtain ⟨_, ⟨_, reply, rfl⟩ | ⟨_, rfl⟩⟩ := allowed <;> exact ⟨rfl, rfl⟩
  | enter => exact absurd rfl outside
  | proceed => exact absurd rfl outside
  | exit code => exact ⟨by simp [Fiber.unstarted, Effect.moves, ended, guest], rfl⟩
  | _ => exact ⟨by simp [Fiber.unstarted, Effect.moves, guest], rfl⟩

/-- The effect closes no handle of a thread that has not begun. -/
def SparesUnstarted (krnl : XboxKrnl) (effect : Effect) : Prop :=
  ∀ slot ptr, effect = .close slot ptr → ∀ fiber ∈ krnl.sched.threads, Fiber.unstarted fiber = true →
    ¬ krnl.TabledThread fiber.handle ptr

namespace Begins

variable {entering : Option Nat}

/-- The rule for an effect: what is left to show is about the running fiber.

Proof: every fiber after the effect was spawned by it, moved by it, woken by it or left alone, and
each clause goes through these four origins. What the effect does to the running fiber is the
hypothesis. -/
theorem carry (begins : krnl.Begins entering) (ok : krnl.Ok) {effect : Effect} (allowed : effect.Allowed krnl)
    (quiet : effect.label ≠ .loop) (silent : ∀ handle, effect ≠ .ran handle) (spares : krnl.SparesUnstarted effect)
    (others : ∀ handle, entering = some handle → handle = krnl.currentHandle) {later : Option Nat}
    (moved : ∀ fiber, krnl.currentFiber = some fiber →
      ((effect.moves krnl fiber).ctx.body = .native → fiber.ctx.body = .native) ∧
      (Fiber.unstarted (effect.moves krnl fiber) = true →
        ∃ ptr, (effect.apply krnl).Held (effect.moves krnl fiber) ptr) ∧
      (later ≠ some fiber.handle → Fiber.unstarted (effect.moves krnl fiber) = true ∨
        (Fiber.unstarted fiber = false ∧ entering ≠ some fiber.handle))) :
    (effect.apply krnl).Begins later := by
  have current : ∀ {index : Nat} {fiber : Fiber}, krnl.sched.current = some index →
      krnl.sched.threads[index]? = some fiber → krnl.currentFiber = some fiber := by
    intro index fiber switched found
    simp [currentFiber, switched, found]
  refine ⟨begins.channels.effect ok allowed, begins.numbered_apply ok allowed, begins.recorded_apply ok allowed,
    fun after member => ?_, fun after member => ?_, begins.ran_apply ok allowed silent, fun after member => ?_⟩
  all_goals
    obtain ⟨index, found⟩ := List.mem_iff_getElem?.mp member
    have origin := Effect.fiber_origin ok allowed quiet found
  · -- A system thread keeps a body of its own.
    intro start suspended created
    rcases origin with ⟨fiber, before, ⟨switched, rfl⟩ | ⟨_, rfl | ⟨_, _, rfl⟩⟩⟩ | ⟨_, spawned⟩
    · rw [effect.moves_handle] at created
      have old := ok.created_before allowed (List.mem_of_getElem? before) created
      exact fun native => begins.system fiber (List.mem_of_getElem? before) start suspended old
        ((moved fiber (current switched before)).1 native)
    · exact begins.system after (List.mem_of_getElem? before) start suspended
        (ok.created_before allowed (List.mem_of_getElem? before) created)
    · exact begins.system fiber (List.mem_of_getElem? before) start suspended
        (ok.created_before allowed (List.mem_of_getElem? before) created)
    · cases effect with
      | createThread request base =>
        obtain rfl : after = _ := spawned
        exact fun native => by cases native
      | spawn stackTopReserve base =>
        obtain rfl : after = _ := spawned
        rcases created_origin ok allowed created with old | ⟨_, _, other, _⟩
        · exact absurd old begins.unrecorded
        · cases other
      | _ => exact spawned.elim
  · -- A fiber that has not begun is held.
    intro unstarted
    have stillOpen : ∀ fiber ∈ krnl.sched.threads, Fiber.unstarted fiber = true → ∀ ptr,
        krnl.TabledThread fiber.handle ptr → ∀ slot, effect ≠ .close slot ptr :=
      fun fiber member unstarted ptr tabled slot closes =>
        spares slot ptr closes fiber member unstarted tabled
    rcases origin with ⟨fiber, before, ⟨switched, rfl⟩ | ⟨elsewhere, rfl | ⟨blocked, signals, rfl⟩⟩⟩ | ⟨_, spawned⟩
    · exact (moved fiber (current switched before)).2.1 unstarted
    · have there := List.mem_of_getElem? before
      obtain ⟨ptr, held⟩ := begins.held after there unstarted
      exact ⟨ptr, held.apply ok allowed (stillOpen after there unstarted ptr held.tabled) there
        (ok.handle_other before elsewhere)⟩
    · have there := List.mem_of_getElem? before
      obtain ⟨ptr, held⟩ := begins.held fiber there unstarted
      exact ⟨ptr, held.wake begins.channels ok allowed quiet (stillOpen fiber there unstarted ptr held.tabled)
        before blocked unstarted found signals⟩
    · cases effect with
      | createThread request base => exact ⟨_, begins.held_created ok allowed spawned⟩
      | spawn stackTopReserve base =>
        obtain rfl : after = _ := spawned
        cases unstarted
      | _ => exact spawned.elim
  · -- A fiber that has begun has called the runner.
    intro start suspended created exempt
    have ran : ∀ {handle : Nat}, (∃ number found, .ran handle number found ∈ krnl.history) →
        ∃ number found, .ran handle number found ∈ (effect.apply krnl).history := by
      rintro handle ⟨number, found, old⟩
      exact ⟨number, found, history_grows ok allowed old⟩
    rcases origin with ⟨fiber, before, ⟨switched, rfl⟩ | ⟨elsewhere, either⟩⟩ | ⟨_, spawned⟩
    · rw [effect.moves_handle] at created exempt ⊢
      have there := List.mem_of_getElem? before
      rcases (moved fiber (current switched before)).2.2 exempt with unstarted | ⟨started, inside⟩
      · exact Or.inl unstarted
      · rcases begins.begun fiber there start suspended (ok.created_before allowed there created) inside with
          unstarted | old
        · rw [started] at unstarted
          cases unstarted
        · exact Or.inr (ran old)
    · have there := List.mem_of_getElem? before
      have same : after.handle = fiber.handle ∧ after.ctx = fiber.ctx := by
        rcases either with rfl | ⟨_, _, rfl⟩ <;> exact ⟨rfl, rfl⟩
      rw [same.1] at created ⊢
      have outside : entering ≠ some fiber.handle := fun inside =>
        ok.handle_other before elsewhere (others _ inside)
      rcases begins.begun fiber there start suspended (ok.created_before allowed there created) outside with
        unstarted | old
      · refine Or.inl ?_
        rw [Fiber.unstarted, same.2]
        exact unstarted
      · exact Or.inr (ran old)
    · cases effect with
      | createThread request base =>
        obtain rfl : after = _ := spawned
        exact Or.inl rfl
      | spawn stackTopReserve base =>
        obtain rfl : after = _ := spawned
        rcases created_origin ok allowed created with old | ⟨_, _, other, _⟩
        · exact absurd old begins.unrecorded
        · cases other
      | _ => exact spawned.elim

/-- The effects of a thread that is in its routine. -/
theorem effect (begins : krnl.Begins none) (steady : krnl.Steady) {effect : Effect} (allowed : effect.Allowed krnl)
    (quiet : effect.label ≠ .loop) (outside : effect.label ≠ .entering) (spares : krnl.SparesUnstarted effect) :
    (effect.apply krnl).Begins none := by
  have silent : ∀ handle, effect ≠ .ran handle := by
    rintro handle rfl
    exact outside rfl
  refine begins.carry steady.ok allowed quiet silent spares (fun handle inside => by cases inside)
    (fun fiber running => ?_)
  have guest := steady.guest fiber running
  obtain ⟨started, body⟩ := moves_started allowed outside guest
  refine ⟨fun native => body.symm.trans native, fun unstarted => ?_, fun _ => Or.inr ⟨?_, by simp⟩⟩
  · rw [started] at unstarted
    cases unstarted
  · simp [Fiber.unstarted, guest]

/-- The invariant passes along a path of effects without entries, closings and turns. -/
theorem path (begins : krnl.Begins none) (steady : krnl.Steady) {labels : List Label} (path : Path labels krnl next)
    (quiet : .loop ∉ labels) (outside : .entering ∉ labels) (opens : .close ∉ labels) : next.Begins none := by
  induction path with
  | refl => exact begins
  | tail before last inductionHypothesis =>
    obtain ⟨effect, labeled, allowed, rfl⟩ := last
    refine inductionHypothesis.effect (Path.steady before steady quiet) allowed (fun loop => quiet (loop ▸ labeled))
      (fun enters => outside (enters ▸ labeled)) ?_
    rintro slot ptr rfl
    exact absurd labeled opens

/-- The fiber that has been switched in leaves its point of suspension. -/
theorem leave (begins : krnl.Begins none) (ok : krnl.Ok) {effect : Effect} (allowed : effect.Allowed krnl)
    (leaves : effect = .enter ∨ effect = .proceed) : (effect.apply krnl).Begins (some krnl.currentHandle) := by
  refine begins.carry ok allowed ?_ ?_ ?_ (fun handle inside => by cases inside) (fun fiber running => ?_)
  · rcases leaves with rfl | rfl <;> simp [Effect.label]
  · rintro handle rfl
    rcases leaves with other | other <;> cases other
  · rintro slot ptr rfl
    rcases leaves with other | other <;> cases other
  · rw [currentHandle_of_fiber running]
    rcases leaves with rfl | rfl
    · refine ⟨fun native => ?_, fun unstarted => ?_, fun absent => absurd rfl absent⟩
      · cases native
      · cases unstarted
    · refine ⟨fun native => native, fun unstarted => ?_, fun absent => absurd rfl absent⟩
      cases unstarted

/-- A fiber that has left its point of suspension may do so without starting, when it had
begun before. -/
theorem proceed (begins : krnl.Begins none) (ok : krnl.Ok) (allowed : (Effect.proceed).Allowed krnl)
    {fiber : Fiber} (running : krnl.currentFiber = some fiber) (started : Fiber.unstarted fiber = false) :
    ((Effect.proceed).apply krnl).Begins none := by
  refine begins.carry ok allowed (by simp [Effect.label]) (fun handle other => by cases other)
    (fun slot ptr other => by cases other) (fun handle inside => by cases inside) (fun other again => ?_)
  obtain rfl := Option.some.inj (running.symm.trans again)
  refine ⟨fun native => native, fun unstarted => ?_, fun _ => Or.inr ⟨started, by simp⟩⟩
  cases unstarted

/-- A thread that finds itself suspended at its first dispatch parks. -/
theorem park (begins : krnl.Begins (some krnl.currentHandle)) (steady : krnl.Steady) {token : Token} {ticks : Nat}
    (allowed : (Effect.block token ticks .parked).Allowed krnl) :
    ((Effect.block token ticks .parked).apply krnl).Begins none := by
  have ok := steady.ok
  refine begins.carry ok allowed (by simp [Effect.label]) (fun handle other => by cases other)
    (fun slot ptr other => by cases other) (fun handle inside => (Option.some.inj inside).symm)
    (fun fiber running => ⟨fun native => native, fun _ => ?_, fun _ => Or.inl rfl⟩)
  obtain ⟨current, self, object, again, body, live, _⟩ := allowed.2
  obtain rfl := Option.some.inj (running.symm.trans again)
  obtain ⟨kind, handle, tabled⟩ := (ok.running running).2.1.captured self _ (by rw [body]; rfl)
    (krnl.shapes_eq _ _ live)
  have named : krnl.TabledThread fiber.handle self := ⟨tabled, object, live, kind, handle⟩
  refine ⟨self, Effect.tabledThread_apply ok allowed (fun slot other => by cases other) named, fun _ => body, ?_,
    fun _ _ => Or.inr (Or.inr ⟨rfl, rfl⟩)⟩
  intro entry
  cases entry

/-- The runner is called from a fiber whose object is in the handle table and that is not
held back. -/
theorem runner (begins : krnl.Begins (some krnl.currentHandle)) (steady : krnl.Steady) {handle : Nat}
    (allowed : (Effect.ran handle).Allowed krnl) {ptr : Ptr} (tabled : krnl.TabledThread krnl.currentHandle ptr)
    (resumed : ∀ start, .created krnl.currentHandle start true ∈ krnl.history →
      .resumed krnl.currentHandle ∈ krnl.history) : ((Effect.ran handle).apply krnl).Begins none := by
  have ok := steady.ok
  have reads : ∀ start suspended, .created krnl.currentHandle start suspended ∈ krnl.history →
      krnl.threadStartInfo handle = some start := by
    intro start suspended created
    have recorded := begins.recorded _ start suspended ptr created tabled
    obtain ⟨fiber, running, _, named⟩ := allowed
    rw [steady.captured_tabled running tabled] at named
    obtain ⟨⟨slot, found⟩, object, live, kind, _⟩ := tabled
    obtain ⟨shape, shaped, numbers⟩ := ok.registry.tabled slot ptr found
    obtain rfl := Option.some.inj (shaped.symm.trans (krnl.shapes_eq _ _ live))
    have place : object.thread.objectHandle = 4 * (slot + 1) := (numbers kind).1
    rw [krnl.object_eq _ _ live] at recorded
    simp only [Option.map_some, Option.getD_some, krnl.object_eq _ _ live, place] at named
    rw [named, threadStartInfo, findObjectByHandle_of_table, found]
    simp [krnl.object_eq _ _ live, kind, recorded]
  have old : ∀ {fiber : Nat} {start : StartInfo} {suspended : Bool},
      .created fiber start suspended ∈ ((Effect.ran handle).apply krnl).history →
      .created fiber start suspended ∈ krnl.history := by
    intro fiber start suspended member
    rcases List.mem_cons.mp member with other | old
    · cases other
    · exact old
  refine ⟨begins.channels, begins.numbered_apply ok allowed, begins.recorded_apply ok allowed,
    fun fiber member start suspended created => begins.system fiber member start suspended (old created),
    fun fiber member unstarted => ?_, ?_, fun fiber member start suspended created _ => ?_⟩
  · obtain ⟨other, held⟩ := begins.held fiber member unstarted
    refine ⟨other, held.tabled, held.captured, held.runs, fun start created => ?_⟩
    rcases held.suspended start (old created) with resumed | rest
    · exact Or.inl (List.mem_cons_of_mem _ resumed)
    · exact Or.inr rest
  · refine begins.ran.cons ?_ (fun fiber start suspended other => by cases other)
    rintro fiber number found ⟨⟩ start suspended created
    refine ⟨reads start suspended created, fun isSuspended => ?_⟩
    subst isSuspended
    exact resumed start created
  · by_cases own : fiber.handle = krnl.currentHandle
    · rw [own]
      exact Or.inr ⟨handle, _, List.mem_cons_self⟩
    · rcases begins.begun fiber member start suspended (old created) (fun same =>
        own (Option.some.inj same).symm) with unstarted | ⟨number, found, earlier⟩
      · exact Or.inl unstarted
      · exact Or.inr ⟨number, found, List.mem_cons_of_mem _ earlier⟩

/-! ## Turns of the run loop -/

/-- A turn of the run loop alone keeps the invariant, when no parked fiber is due. -/
theorem turned (begins : krnl.Begins none) (ok : krnl.Ok) (idle : krnl.sched.current = none)
    (inTime : ∀ fiber ∈ krnl.sched.threads, fiber.ctx.point = .parked → fiber.state = .blockedWait →
      krnl.sched.tick < fiber.wakeTick) : ((Effect.turn).apply krnl).Begins none := by
  have allowed : (Effect.turn).Allowed krnl := idle
  refine ⟨begins.channels.effect ok allowed, begins.numbered_apply ok allowed, begins.recorded_apply ok allowed,
    fun after member => ?_, fun after member => ?_,
    begins.ran_apply ok allowed (fun handle other => by cases other), fun after member => ?_⟩
  all_goals
    obtain ⟨index, later⟩ := List.mem_iff_getElem?.mp member
    obtain ⟨fiber, found, handle, ctx⟩ := turn_same idle later
    have there := List.mem_of_getElem? found
  · intro start suspended created
    rw [handle] at created
    rw [ctx]
    exact begins.system fiber there start suspended created
  · intro unstarted
    rw [Fiber.unstarted, ctx] at unstarted
    obtain ⟨ptr, held⟩ := begins.held fiber there unstarted
    exact ⟨ptr, held.turn idle found later (inTime fiber there)⟩
  · intro start suspended created _
    rw [handle] at created ⊢
    rw [Fiber.unstarted, ctx]
    exact begins.begun fiber there start suspended created (by simp)

/-- A thread that is not held back goes on to the runner. -/
theorem runsOn (begins : krnl.Begins none) (ok : krnl.Ok) {effect : Effect} (allowed : effect.Allowed krnl)
    (leaves : effect = .enter ∨ effect = .proceed) {fiber : Fiber} (running : krnl.currentFiber = some fiber)
    {ptr : Ptr} (held : krnl.Held fiber ptr) (installed : krnl.threadRunner = true)
    (released : ∀ start, .created fiber.handle start true ∈ krnl.history → .resumed fiber.handle ∈ krnl.history)
    (runs : (effect.apply krnl).RunsOn next) : next.Begins none := by
  have quiet : effect.label ≠ .loop := by rcases leaves with rfl | rfl <;> simp [Effect.label]
  have stays : effect.leaves = false := by rcases leaves with rfl | rfl <;> rfl
  have handle := Effect.currentHandle_apply ok allowed quiet stays
  have own := currentHandle_of_fiber running
  have steady : (effect.apply krnl).Steady := by
    rcases leaves with rfl | rfl
    · exact ok.entered allowed
    · exact ok.proceeded allowed
  have runner : (effect.apply krnl).threadRunner = true := by
    obtain ⟨index, switched, _⟩ := currentFiber_index running
    rcases leaves with rfl | rfl
    · simp [Effect.apply, setPoint, setBody, switched, GuestScheduler.modifyThread, installed]
    · simp [Effect.apply, setPoint, switched, installed]
  have tabled : (effect.apply krnl).TabledThread fiber.handle ptr := by
    refine Effect.tabledThread_apply ok allowed ?_ held.tabled
    rintro slot rfl
    rcases leaves with other | other <;> cases other
  have left : (effect.apply krnl).Begins (some (effect.apply krnl).currentHandle) := by
    rw [handle]
    exact begins.leave ok allowed leaves
  rcases runs with ⟨_, number, allowed', rfl⟩ | ⟨missing, _⟩
  · refine left.runner steady allowed' (by rw [handle, own]; exact tabled) (fun start created => ?_)
    rw [handle, own] at created ⊢
    exact history_grows ok allowed (released start (ok.created_before allowed (ok.running running).1 created))
  · rw [runner] at missing
    cases missing

/-- The fiber that has been switched in resumes. -/
theorem resumes (begins : krnl.Begins none) (ok : krnl.Ok) {fiber : Fiber} (running : krnl.currentFiber = some fiber)
    (installed : krnl.threadRunner = true) (resumed : krnl.resume = some next) : next.Begins none := by
  have there := (ok.running running).1
  by_cases parked : fiber.ctx.point = .parked
  · -- A parked fiber is not blocked any more, so it has been resumed.
    obtain ⟨self, body, alive, runs⟩ := ok.resume_parked running parked resumed
    obtain ⟨ptr, held⟩ := begins.held fiber there ((Fiber.unstarted_iff fiber).mpr (Or.inr parked))
    have proceeds : (Effect.proceed).Allowed krnl := ⟨fiber, running, by simp [parked]⟩
    refine begins.runsOn ok proceeds (Or.inr rfl) running held installed (fun start created => ?_) runs
    rcases held.suspended start created with done | ⟨entry, _⟩ | ⟨_, blocked⟩
    · exact done
    · rw [parked] at entry
      cases entry
    · exact absurd (currentHandle_of_fiber running).symm (ok.blocked_other there blocked)
  · have started : (Effect.proceed).Allowed krnl → Fiber.unstarted fiber = false := by
      rintro ⟨current, again, native⟩
      obtain rfl := Option.some.inj (running.symm.trans again)
      rw [← Bool.not_eq_true, Fiber.unstarted_iff]
      rintro (⟨entry, body⟩ | other)
      · rw [native entry] at body
        cases body
      · exact parked other
    have entered : fiber.ctx.point = .entry → (Effect.enter).Allowed krnl → ∃ ptr, krnl.Held fiber ptr := by
      rintro entry ⟨current, again, _, body⟩
      obtain rfl := Option.some.inj (running.symm.trans again)
      exact begins.held fiber there ((Fiber.unstarted_iff fiber).mpr (Or.inl ⟨entry, body⟩))
    cases ok.resume running resumed with
    | parks self object entry found live suspended enters allowed result =>
      rw [result]
      have handle := Effect.currentHandle_apply ok enters (by simp [Effect.label]) rfl
      exact Begins.park (by rw [handle]; exact begins.leave ok enters (Or.inl rfl)) (ok.entered enters) allowed
    | starts entry enters ready runs =>
      obtain ⟨ptr, held⟩ := entered entry enters
      refine begins.runsOn ok enters (Or.inl rfl) running held installed (fun start created => ?_) runs
      rcases held.suspended start created with done | ⟨_, positive⟩ | ⟨other, _⟩
      · exact done
      · have found := (ok.enter running entry).2 ptr
        rw [currentHandle_of_fiber running] at found ready
        rw [ready ptr (found.mpr held.tabled)] at positive
        exact absurd positive (Nat.lt_irrefl 0)
      · rw [entry] at other
        cases other
    | unparks self point body proceeds alive runs => exact absurd point parked
    | waits middle woken alive proceeds waited path =>
      have steady := ok.proceeded proceeds
      have waitPath := waited.path
      have quiet : .loop ∉ waitLabels fiber.ctx.point ∧ .entering ∉ waitLabels fiber.ctx.point ∧
          .close ∉ waitLabels fiber.ctx.point := by
        unfold waitLabels
        split <;> simp
      have gone := begins.proceed ok proceeds running (started proceeds)
      exact (gone.path steady waitPath quiet.1 quiet.2.1 quiet.2.2).path (waitPath.steady steady quiet.1) path
        (by simp) (by simp) (by simp)
    | contends va point proceeds result =>
      exact (begins.proceed ok proceeds running (started proceeds)).path (ok.proceeded proceeds)
        ((ok.proceeded proceeds).contended result) (by simp) (by simp) (by simp)
    | continues _ proceeds path =>
      exact (begins.proceed ok proceeds running (started proceeds)).path (ok.proceeded proceeds) path
        (by simp) (by simp) (by simp)

/-- A whole turn keeps the invariant: the loop picks a fiber, and its entry may park it or begin it. -/
theorem turn (begins : krnl.Begins none) (steady : krnl.Steady) (installed : krnl.threadRunner = true)
    (inTime : ∀ fiber ∈ krnl.sched.threads, fiber.ctx.point = .parked → fiber.state = .blockedWait →
      krnl.sched.tick < fiber.wakeTick) (stepped : krnl.step .turn = some next) : next.Begins none := by
  obtain ⟨idle, outcome⟩ := turn_cases stepped
  have turned := begins.turned steady.ok idle inTime
  rcases outcome with ⟨rfl, _⟩ | ⟨fiber, running, resumed⟩
  · exact turned
  · exact turned.resumes (Effect.sound steady.ok .turn idle) running installed resumed

end Begins

/-! ## Whole runs -/

/-- A fiber body returns. -/
def returns : Action → Bool
  | .finish _ => true
  | _ => false

/-- What closing a handle must leave alone. The handle of a thread is closed when the
thread has begun its routine. Whenever the loop turns, a runner is installed and the clock
has not come to the end of the wait without timeout of a parked thread. A thread calls
`PsTerminateSystemThread` while its handle is open or it has an identity. And when the routine
of a thread returns, the object that its body has captured has not been destroyed. -/
def SparesThreads (krnl : XboxKrnl) (action : Action) : Prop :=
  (∀ ptr ∈ ((closedBy action).bind krnl.findObjectByHandle).toList, (krnl.object ptr).kind = .thread →
    ∀ fiber ∈ krnl.sched.threads, fiber.handle = (krnl.object ptr).thread.schedHandle →
      Fiber.unstarted fiber = false) ∧
  (action.turns = true → krnl.threadRunner = true ∧ ∀ fiber ∈ krnl.sched.threads,
    fiber.ctx.point = .parked → fiber.state = .blockedWait → krnl.sched.tick < fiber.wakeTick) ∧
  (terminates action = true → ∀ fiber ∈ krnl.currentFiber.toList, fiber.ctx.body ≠ .native →
    krnl.fiberThread? fiber.handle ≠ none ∨ ∃ ptr ∈ krnl.objects.filterMap id,
      (krnl.object ptr).kind = .thread ∧ (krnl.object ptr).thread.schedHandle = fiber.handle) ∧
  (returns action = true → ∀ fiber ∈ krnl.currentFiber.toList, ∀ self ∈ fiber.ctx.body.captured.toList,
    krnl.live self = true)

instance (krnl : XboxKrnl) (action : Action) : Decidable (krnl.SparesThreads action) :=
  inferInstanceAs (Decidable (_ ∧ _ ∧ _ ∧ _))

/-- The same, while handles and identifiers fit and calls find their callers. -/
def KeepsThreads (krnl : XboxKrnl) (action : Action) : Prop := krnl.Orderly action ∧ krnl.SparesThreads action

instance (krnl : XboxKrnl) (action : Action) : Decidable (krnl.KeepsThreads action) :=
  inferInstanceAs (Decidable (_ ∧ _))

/-- The system threads do what they were created for: the runner is called with the start
information of the thread, for a thread created suspended after it has been resumed; a
thread that has begun its routine has had the runner called; a call of
`PsTerminateSystemThread` that the condition admits ends the fiber that makes it; and so does
the return of the routine. -/
structure ThreadsKept (condition : XboxKrnl → Action → Prop) (krnl : XboxKrnl) : Prop where
  runs : RunsRight krnl.history
  invoked : ∀ fiber ∈ krnl.sched.threads, ∀ start suspended,
    .created fiber.handle start suspended ∈ krnl.history →
    Fiber.unstarted fiber = true ∨ ∃ handle, .ran fiber.handle handle (some start) ∈ krnl.history
  terminated : ∀ action next, condition krnl action → terminates action = true → krnl.wordStep action = some next →
    ∀ fiber start suspended, krnl.currentFiber = some fiber →
    .created fiber.handle start suspended ∈ krnl.history →
    ∃ after ∈ next.sched.threads, after.handle = fiber.handle ∧ after.state = .finished
  returned : ∀ code, condition krnl (.finish code) → ∀ fiber, krnl.currentFiber = some fiber →
    ∃ next, krnl.lookupStep (.finish code) = some next ∧
      ∃ after ∈ next.sched.threads, after.handle = fiber.handle ∧ after.state = .finished

/-- One step keeps the invariant when its action spares the threads. -/
theorem Begins.step (begins : krnl.Begins none) (steady : krnl.Steady) {action : Action}
    (condition : krnl.SparesThreads action) (stepped : krnl.step action = some next) : next.Begins none := by
  obtain ⟨closes, turns, _, _⟩ := condition
  have path := (steady.step stepped).1
  cases action with
  | turn =>
    obtain ⟨installed, inTime⟩ := turns rfl
    exact begins.turn steady installed inTime stepped
  | run =>
    obtain ⟨_, _, rfl⟩ := run_cases stepped
    refine ⟨begins.channels, begins.numbered, begins.recorded, begins.system, fun fiber member unstarted => ?_,
      begins.ran, begins.begun⟩
    obtain ⟨ptr, held⟩ := begins.held fiber member unstarted
    exact ⟨ptr, held.tabled, held.captured, held.runs, held.suspended⟩
  | call call =>
    by_cases closing : .close ∈ actionLabels (.call call)
    · obtain ⟨handle, same⟩ := closedBy_of_label closing
      obtain rfl := Action.call.inj same
      rcases ntClose_cases stepped with ⟨_, waits⟩ | ⟨ptr, ram, found, allowed, rest⟩
      · exact begins.path steady waits (by simp) (by simp) (by simp)
      · have begun : Path [.waiting] krnl { krnl with ram } :=
          Path.one (.compute ram krnl.filetime) (by simp [Effect.label]) trivial
        have ready := begun.steady steady (by simp)
        have closed := (begins.path steady begun (by simp) (by simp) (by simp)).effect ready allowed
          (by simp [Effect.label]) (by simp [Effect.label]) (by
            rintro slot target ⟨⟩ fiber member unstarted ⟨_, object, live, kind, own⟩
            have here : krnl.object ptr = object := krnl.object_eq _ _ live
            have begunAlready := closes ptr (by simp [closedBy, found]) (by rw [here]; exact kind) fiber member
              (by rw [here]; exact own.symm)
            rw [unstarted] at begunAlready
            cases begunAlready)
        exact closed.path (Effect.steady ready allowed (by simp [Effect.label])) rest (by simp) (by simp) (by simp)
    · exact begins.path steady path (by cases call <;> simp [actionLabels, labelsOf])
        (by cases call <;> simp [actionLabels, labelsOf]) closing
  | _ => exact begins.path steady path (by simp [actionLabels]) (by simp [actionLabels]) (by simp [actionLabels])

/-- The code that ends a thread leaves its fiber finished. -/
theorem Steady.ends_finished (steady : krnl.Steady) {target : Option Ptr} (ends : krnl.Ends target next) {fiber : Fiber}
    (running : krnl.currentFiber = some fiber) :
    ∃ after ∈ next.sched.threads, after.handle = fiber.handle ∧ after.state = .finished := by
  obtain ⟨last, code, path, stays, allowed, _, rfl⟩ := steady.ends ends
  obtain ⟨index, switched, here⟩ := currentFiber_index (stays.fiber.trans running)
  obtain ⟨after, later, fate⟩ := Effect.fiber_fate (path.ok steady.ok) allowed (by simp [Effect.label]) here
  rcases fate with ⟨_, rfl⟩ | ⟨elsewhere, _⟩
  · exact ⟨_, List.mem_of_getElem? later, rfl, rfl⟩
  · exact absurd switched elsewhere

/-- A routine can return as long as the object its body has captured is there. -/
theorem finishBody_isSome {fiber : Fiber} (running : krnl.currentFiber = some fiber)
    (there : ∀ self ∈ fiber.ctx.body.captured.toList, krnl.live self = true) (code : Int) :
    (krnl.finishBody code).isSome = true := by
  cases body : fiber.ctx.body with
  | native => simp [XboxKrnl.finishBody, running, body]
  | systhread self =>
    cases self with
    | none => simp [XboxKrnl.finishBody, running, body]
    | some ptr =>
      have alive : krnl.live ptr = true := there ptr (by simp [body, Body.captured])
      simp [XboxKrnl.finishBody, running, body, alive]

/-- A fiber that finds a thread object of its own is ended by `PsTerminateSystemThread`. -/
theorem Steady.terminates_fiber (steady : krnl.Steady) {action : Action} (terminating : terminates action = true)
    (stepped : krnl.step action = some next) {fiber : Fiber} (running : krnl.currentFiber = some fiber) {ptr : Ptr}
    (found : krnl.findThreadByFiber fiber.handle = some ptr) :
    ∃ after ∈ next.sched.threads, after.handle = fiber.handle ∧ after.state = .finished := by
  cases action with
  | call call =>
    cases call with
    | psTerminateSystemThread exitStatus =>
      obtain ⟨_, _, rfl⟩ := call_cases stepped
      obtain ⟨ram, refreshed⟩ := krnl.refreshData_eq
      have begun := steady.refreshed
      rw [refreshed] at begun ⊢
      have own : ({ krnl with ram } : XboxKrnl).findThreadByFiber ({ krnl with ram } : XboxKrnl).currentHandle =
          some ptr := by
        have handle := currentHandle_of_fiber running
        exact (congrArg krnl.findThreadByFiber handle).trans found
      have silent : (({ krnl with ram } : XboxKrnl).psTerminateSystemThread exitStatus).2 = none := by
        simp [XboxKrnl.psTerminateSystemThread, own]
      simp only [XboxKrnl.exec, silent, XboxKrnl.deliver]
      exact begun.ends_finished (begun.psTerminate_ends exitStatus own) running
    | _ => cases terminating
  | _ => cases terminating

/-- Every state reached under the condition satisfies the invariant.

Proof: induction over the run, with one step at a time. -/
theorem ReachesUnder.begins {actions : List Action} (reached : krnl.ReachesUnder SparesThreads actions) :
    krnl.Steady ∧ krnl.Begins none := by
  have start : ∀ ram addresses threadRunner kernelDataVa,
      (initial ram addresses threadRunner kernelDataVa).Begins none := by
    intro ram addresses threadRunner kernelDataVa
    refine ⟨fun ptr object live => ?_, ?_, ?_, ?_, ?_, fun later earlier fiber handle found split => ?_, ?_⟩
    · simp [initial, object?] at live
    · simp [initial]
    · simp [initial]
    · simp [initial]
    · simp [initial]
    · simp [initial] at split
    · simp [initial]
  exact reached.invariant start
    (fun krnl action next steady begins condition stepped => Begins.step begins steady condition stepped)

/-- In a run whose steps leave the threads alone, closing their handles changes nothing.

Proof: `Begins` is the invariant: a fiber that has not begun its routine finds its object in the
handle table, so it parks while it is suspended and the runner is called with the handle of that
object. What has begun needs the object when it ends, and then it is there or an identity is. -/
theorem closing_keeps_threads {actions : List Action} (run : krnl.WordRun KeepsThreads actions) :
    krnl.ThreadsKept KeepsThreads := by
  have reached := run.reachesUnder (fun _ _ met => met.1.1)
  obtain ⟨steady, begins⟩ := (reached.mono (fun _ _ => And.right)).begins
  refine ⟨begins.ran, ?_, ?_, ?_⟩
  · intro fiber member start suspended created
    rcases begins.begun fiber member start suspended created (by simp) with unstarted | ⟨handle, found, ran⟩
    · exact Or.inl unstarted
    · obtain ⟨later, earlier, split⟩ := List.append_of_mem ran
      obtain ⟨rfl, _⟩ := begins.ran later earlier fiber.handle handle found split start suspended created
      exact Or.inr ⟨handle, ran⟩
  · rintro action next ⟨⟨roomy, _⟩, spares⟩ terminating taken fiber start suspended running created
    have stepped := steady.wordStep_refines roomy taken
    have member := (steady.ok.running running).1
    have positive := (steady.ok.fibers.each fiber member).positive
    have system := begins.system fiber member start suspended created
    cases identity : krnl.fiberThread? fiber.handle with
    | some self =>
      exact steady.terminates_fiber terminating stepped running (findThreadByFiber_identity steady.ok.registry identity)
    | none =>
      rcases spares.2.2.1 terminating fiber (by simp [running]) system with known | ⟨ptr, tabled, kind, handle⟩
      · exact absurd identity known
      · have named := (tabledThread_iff steady.ok.registry fiber.handle ptr).mpr ⟨tabled, kind, handle⟩
        exact steady.terminates_fiber terminating stepped running
          ((findThreadByFiber_table steady.ok.registry positive identity ptr).mpr named)
  · rintro code ⟨⟨roomy, _⟩, spares⟩ fiber running
    obtain ⟨next, ended⟩ := Option.isSome_iff_exists.mp
      (finishBody_isSome running (spares.2.2.2 rfl fiber (by simp [running])) code)
    obtain ⟨other, same, ends⟩ := steady.finishBody ended
    refine ⟨next, ?_, steady.ends_finished ends running⟩
    rw [steady.lookupStep_eq (Nat.le_of_lt roomy.handles)]
    exact ended

/-- The start information of the thread in the runs below. -/
def plainStart : StartInfo :=
  { startRoutine := 100, startContext := 0, systemRoutine := 0, kernelStackSize := 0, tlsDataSize := 0 }

/-- A thread is created suspended and parks; the host resumes it. When it has begun, it
asks for its own token, and its handle is closed. -/
def closesBegun : List Action :=
  parksAlone ++
    ([.call (.ntResumeThread 4 0), .run, .turn, .call .keGetCurrentThread, .call (.ntClose 4)] : List Action)

/-- It has started as it should, and it can still terminate. -/
theorem closesBegun_kept :
    .ran 1 4 (some plainStart) ∈ (wordAfter true closesBegun).history ∧
      (wordAfter true closesBegun).ThreadsKept KeepsThreads ∧
      (wordAfter true closesBegun).KeepsThreads (.call (.psTerminateSystemThread 0)) := by
  refine ⟨by decide +kernel, ?_, by decide +kernel⟩
  exact closing_keeps_threads (wordRun_after KeepsThreads true closesBegun (by decide +kernel) (by decide +kernel))

/-- A thread is created suspended, and its handle is closed before its first dispatch. -/
def closesUnbegun : List Action := [createsSuspended, .call (.ntClose 4), .run, .turn]

/-- It starts at once, with no start routine. -/
theorem closing_keeps_threads_fails : ¬ ∀ (krnl : XboxKrnl) actions, krnl.WordRun (fun _ _ => True) actions →
    krnl.threadRunner = true → krnl.ThreadsKept (fun _ _ => True) := by
  intro always
  have run := wordRun_after (fun _ _ => True) true closesUnbegun (by decide +kernel) (Runs.along_true _ _)
  have kept := always _ _ run (by decide +kernel)
  have created : .created 1 plainStart true ∈ (wordAfter true closesUnbegun).history := by decide +kernel
  have ran : .ran 1 0 none ∈ (wordAfter true closesUnbegun).history := by decide +kernel
  obtain ⟨later, earlier, split⟩ := List.append_of_mem ran
  have right := (kept.runs later earlier 1 0 none split _ _ created).1
  cases right

end XboxKrnl

end SeriesxEmu
