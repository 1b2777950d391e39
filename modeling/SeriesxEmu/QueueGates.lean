import SeriesxEmu.QueueOrder
import Mathlib.Data.List.Nodup

/-!
# Tags and the submit gate

Three laws of the queue depend on what happens between two critical sections. A tag
is checked before a caller waits for a slot, and not again afterwards. The gate is
one flag for the whole queue, closed only when nothing is pending; so a request that
arrives while it is open is started without a submit of its own, and nothing that
was in the queue when the gate was opened is left when it is closed.
-/

namespace SeriesxEmu.IoSystem

open IoQueue

variable {sys next : IoSystem}

/-! ## Tags -/

/-- No two requests carry the same tag. -/
def TagsUnique (sys : IoSystem) : Prop := (sys.queue.reqs.map Req.tag).Nodup

/-- A caller that wakes up to a free slot brings a tag that is still unused. -/
def Undisputed (sys : IoSystem) : Action → Prop
  | .wake index => ∀ req ∈ sys.waiters[index]?, sys.queue.full = false →
      ∀ other ∈ sys.queue.reqs, other.tag ≠ req.tag
  | _ => True

instance (sys : IoSystem) : (action : Action) → Decidable (sys.Undisputed action)
  | .wake _ => inferInstanceAs (Decidable (∀ req ∈ _, _ → ∀ other ∈ _, _))
  | .enqueue _ _ _ _ _ | .enqueueWait _ _ _ _ _ | .cancel _ | .submit | .setAutoSubmitEnabled _ | .stop
  | .worker | .files _ | .memory _ => inferInstanceAs (Decidable True)

/-- A change of status keeps the tags. -/
theorem setFirst_tags (wanted : Req → Bool) (status : Status) (reqs : List Req) :
    (setFirst wanted status reqs).map Req.tag = reqs.map Req.tag := by
  induction reqs with
  | nil => rfl
  | cons req rest inductionHypothesis =>
    rw [setFirst]
    split
    · rfl
    · rw [List.map_cons, inductionHypothesis, List.map_cons]

/-- Tags stay unique when a request is stored, if its tag is unused. -/
theorem push_unique (unique : sys.TagsUnique) (req : Req) :
    ((sys.queue.push req).reqs.map Req.tag).Nodup ↔ ∀ other ∈ sys.queue.reqs, other.tag ≠ req.tag := by
  have tags : (sys.queue.push req).reqs.map Req.tag = (sys.queue.reqs.map Req.tag).concat req.tag := by
    simp [push]
  rw [tags, List.nodup_concat]
  simp only [List.mem_map, not_exists, not_and]
  exact and_iff_left unique

/-- Enqueueing keeps the tags unique: a tag already in the list is refused. -/
theorem enqueueCommon_unique (unique : sys.TagsUnique) (req : Req) (waitForSlot : Bool) :
    (sys.enqueueCommon req waitForSlot).1.TagsUnique := by
  rw [enqueueCommon]
  split
  · exact unique
  · split
    · exact unique
    · rename_i unused
      split
      · split <;> exact unique
      · refine (push_unique unique req).mpr (fun other member same => unused ?_)
        exact List.any_eq_true.mpr ⟨other, member, by simpa using same⟩

/-- A turn of the worker keeps the tags. -/
theorem workerStep_tags (stepped : sys.workerStep = some next) :
    next.queue.reqs.map Req.tag = sys.queue.reqs.map Req.tag := by
  rw [workerStep] at stepped
  split at stepped
  · split at stepped
    · cases stepped
      rfl
    · split at stepped
      · cases stepped
        rw [takeNext]
        split
        · rfl
        · exact setFirst_tags _ _ _
      · cases stepped
  · split at stepped <;> cases stepped <;> rfl
  · cases stepped
    rfl
  · cases stepped
    exact setFirst_tags _ _ _
  · cases stepped

/-- Only a caller that wakes up can bring a tag twice. -/
theorem TagsUnique.step_iff (unique : sys.TagsUnique) {action : Action} (stepped : sys.step action = some next) :
    next.TagsUnique ↔ sys.Undisputed action := by
  cases action with
  | enqueue path srcOffset size dest tag =>
    cases stepped
    exact iff_of_true (enqueueCommon_unique unique _ false) trivial
  | enqueueWait path srcOffset size dest tag =>
    cases stepped
    exact iff_of_true (enqueueCommon_unique unique _ true) trivial
  | wake index =>
    rw [step, wakeWaiter] at stepped
    rw [Undisputed]
    split at stepped
    · cases stepped
    · rename_i req found
      simp only [found, Option.mem_def, Option.some.injEq, forall_eq']
      split at stepped
      · rename_i full
        cases stepped
        refine iff_of_true unique (fun room => ?_)
        rw [full] at room
        cases room
      · rename_i room
        cases stepped
        rw [TagsUnique, push_unique unique req]
        exact ⟨fun unused _ => unused, fun unused => unused (Bool.eq_false_iff.mpr room)⟩
  | cancel tag =>
    cases stepped
    refine iff_of_true ?_ trivial
    rw [TagsUnique, IoQueue.cancel, setFirst_tags]
    exact unique
  | submit =>
    cases stepped
    refine iff_of_true ?_ trivial
    rw [IoQueue.submit]
    split <;> exact unique
  | worker =>
    refine iff_of_true ?_ trivial
    rw [TagsUnique, workerStep_tags stepped]
    exact unique
  | setAutoSubmitEnabled _ | stop | files _ | memory _ =>
    cases stepped
    exact iff_of_true unique trivial

/-- **Tags are unique** in every state of a run exactly when no caller that wakes up to a
free slot in `enqueue_wait` finds its tag used meanwhile.

Proof: only a caller that wakes up stores a request unchecked, and it stores its tag once more
exactly when the tag was used meanwhile. -/
theorem tags_unique_iff (mem : MemMap) (vfs : Vfs) (actions : List Action) :
    Runs.Visits step TagsUnique { mem, vfs } actions ↔ Runs.Along step Undisputed { mem, vfs } actions := by
  refine Runs.visits_iff_along (fun sys action next unique stepped => unique.step_iff stepped) ?_ _ _ List.nodup_nil
  intro sys action stuck
  cases action with
  | wake index =>
    rw [step, wakeWaiter] at stuck
    split at stuck
    · rename_i missing
      simp [Undisputed, missing]
    · split at stuck <;> cases stuck
  | enqueue _ _ _ _ _ | enqueueWait _ _ _ _ _ | cancel _ | submit | setAutoSubmitEnabled _ | stop | worker
  | files _ | memory _ => trivial

/-- The queue is full, two callers wait with the same tag, and two requests finish. -/
def sameTagTwice : List Action :=
  [.enqueue payload 0 1 0x1000 1, .enqueue payload 0 1 0x1000 2, .enqueue payload 0 1 0x1000 3,
    .enqueue payload 0 1 0x1000 4, .enqueue payload 0 1 0x1000 5, .enqueue payload 0 1 0x1000 6,
    .enqueue payload 0 1 0x1000 7, .enqueue payload 0 1 0x1000 8, .enqueueWait payload 0 1 0x1000 9,
    .enqueueWait payload 0 1 0x1000 9, .worker, .worker, .worker, .worker, .wake 0,
    .worker, .worker, .worker, .worker, .wake 0]

/-- Both callers store their request. -/
theorem sameTagTwice_clashes :
    ¬ Runs.Visits step TagsUnique { mem := onePage, vfs := payloadFile } sameTagTwice := by
  have tags : (Runs.run step { mem := onePage, vfs := payloadFile } sameTagTwice).map
      (fun sys => sys.queue.reqs.map Req.tag) = some [1, 2, 3, 4, 5, 6, 7, 8, 9, 9] := by decide +kernel
  obtain ⟨sys, reached, same⟩ := Option.map_eq_some_iff.mp tags
  intro visits
  have unique := Runs.visits_final visits reached
  rw [TagsUnique, same] at unique
  exact absurd unique (by decide)

/-! ## The gate -/

/-- What an observer of the gate notes down: how many requests were in the queue when the
gate was last opened, and at which places requests were stored while it was open. -/
structure GateNotes where
  covered : Nat := 0
  storedOpen : Nat → Bool := fun _ => false

/-- Opening is `submit` returning true or an auto-submit, whose own request counts. -/
def noteGate (sys : IoSystem) (_ : Action) (next : IoSystem) (notes : GateNotes) : GateNotes where
  covered := if !sys.queue.submitted && next.queue.submitted then next.queue.reqs.length else notes.covered
  storedOpen := fun index =>
    if sys.queue.reqs.length ≤ index ∧ index < next.queue.reqs.length then sys.queue.submitted
    else notes.storedOpen index

/-- With the gate closed the worker is idle, everything the last opening covered is
terminal, and what is pending was stored behind the closed gate. With the gate open the
pending requests that were stored behind a closed gate are those the opening covered. -/
structure Gated (sys : IoSystem) (notes : GateNotes) : Prop where
  known : notes.covered ≤ sys.queue.reqs.length
  idle : sys.queue.submitted = false → sys.worker.current = []
  covered : sys.queue.submitted = false → ∀ (index : Nat) (req : Req), index < notes.covered →
    sys.queue.reqs[index]? = some req → req.status.terminal = true
  closed : sys.queue.submitted = false → ∀ (index : Nat) (req : Req), sys.queue.reqs[index]? = some req →
    req.status = .pending → notes.storedOpen index = false
  opened : sys.queue.submitted = true → ∀ (index : Nat) (req : Req), sys.queue.reqs[index]? = some req →
    req.status = .pending → (index < notes.covered ↔ notes.storedOpen index = false)

/-- A terminal status only moves to a terminal one. -/
theorem Advance.of_terminal {status later : Status} (advance : Advance status later)
    (terminal : status.terminal = true) : later.terminal = true := by
  cases advance with
  | stay => exact terminal
  | start | complete | fail | cancel => cases terminal

/-- What is pending now was pending before. -/
theorem Advance.to_pending {status : Status} (advance : Advance status .pending) : status = .pending := by
  cases advance
  rfl

/-- What a request was before a step that stored nothing. -/
theorem Progress.earlier {reqs later : List Req} (progress : Progress reqs later)
    (length : later.length = reqs.length) {index : Nat} {req : Req} (place : later[index]? = some req) :
    ∃ old : Req, reqs[index]? = some old ∧ Advance old.status req.status := by
  have inside := (List.getElem?_eq_some_iff.mp place).1
  have known := List.getElem?_eq_getElem (length ▸ inside)
  obtain ⟨status, changed, advance⟩ := progress.kept index _ known
  rw [changed] at place
  cases place
  exact ⟨_, known, advance⟩

/-- A step that neither stores a request nor opens the gate is not worth a note. -/
theorem noteGate_quiet {action : Action} {notes : GateNotes}
    (length : next.queue.reqs.length = sys.queue.reqs.length)
    (unopened : next.queue.submitted = true → sys.queue.submitted = true) :
    noteGate sys action next notes = notes := by
  have quiet : (!sys.queue.submitted && next.queue.submitted) = false := by
    cases gate : next.queue.submitted with
    | true => simp [unopened gate]
    | false => simp
  have nothing : ∀ index, ¬ (sys.queue.reqs.length ≤ index ∧ index < next.queue.reqs.length) := by
    intro index
    omega
  simp [noteGate, quiet, nothing]

/-- The invariant of the gate survives a step that leaves the gate alone and starts nothing. -/
theorem Gated.steady {notes : GateNotes} (gated : sys.Gated notes) (progress : Progress sys.queue.reqs next.queue.reqs)
    (length : next.queue.reqs.length = sys.queue.reqs.length)
    (submitted : next.queue.submitted = sys.queue.submitted)
    (idle : next.queue.submitted = false → next.worker.current = []) : next.Gated notes := by
  constructor
  · rw [length]
    exact gated.known
  · exact idle
  · intro shut index req below place
    obtain ⟨old, known, advance⟩ := progress.earlier length place
    exact advance.of_terminal (gated.covered (submitted ▸ shut) index old below known)
  · intro shut index req place pending
    obtain ⟨old, known, advance⟩ := progress.earlier length place
    rw [pending] at advance
    exact gated.closed (submitted ▸ shut) index old known advance.to_pending
  · intro wide index req place pending
    obtain ⟨old, known, advance⟩ := progress.earlier length place
    rw [pending] at advance
    exact gated.opened (submitted ▸ wide) index old known advance.to_pending

/-- When the worker is idle and nothing is pending, everything is settled. -/
theorem Split.all_terminal {before after : List Req} (split : sys.Split before after)
    (idle : sys.worker.current = []) (drained : ∀ req ∈ sys.queue.reqs, req.isPending = false) {req : Req}
    (member : req ∈ sys.queue.reqs) : req.status.terminal = true := by
  have unpending := drained req member
  rw [Bool.eq_false_iff, Ne, isPending_iff] at unpending
  rw [split.reqs, idle, List.append_nil] at member
  rcases List.mem_append.mp member with old | waiting
  · exact split.settled req old
  · have unstarted := split.unstarted req waiting
    cases status : req.status <;> simp_all [Status.unstarted, Status.terminal]

/-- The gate is closed when everything is settled. -/
theorem Gated.shut {notes : GateNotes} (gated : sys.Gated notes) {before after : List Req}
    (split : next.Split before after) (idle : next.worker.current = [])
    (drained : ∀ req ∈ next.queue.reqs, req.isPending = false)
    (length : next.queue.reqs.length = sys.queue.reqs.length) (shut : next.queue.submitted = false) :
    next.Gated notes := by
  constructor
  · rw [length]
    exact gated.known
  · exact fun _ => idle
  · intro _ index req _ place
    exact split.all_terminal idle drained (List.mem_of_getElem? place)
  · intro _ index req place pending
    have unpending := drained req (List.mem_of_getElem? place)
    rw [isPending_iff.mpr pending] at unpending
    cases unpending
  · intro wide
    rw [shut] at wide
    cases wide

/-- A stored request is noted with the gate it found.

Proof: by the gate before and after the request is stored. While it stays shut the new request is
noted as stored behind it; when this request opens it, the note of what is covered takes in the
whole list. -/
theorem Gated.accept {notes : GateNotes} (gated : sys.Gated notes) (action : Action) {req : Req}
    (queue : next.queue = sys.queue.push req) (worker : next.worker = sys.worker) :
    next.Gated (noteGate sys action next notes) := by
  have reqs : next.queue.reqs = sys.queue.reqs ++ [{ req with status := .pending }] := by rw [queue]; rfl
  have length : next.queue.reqs.length = sys.queue.reqs.length + 1 := by rw [reqs]; simp
  have known := gated.known
  have split : ∀ (index : Nat) (other : Req), next.queue.reqs[index]? = some other →
      (index < sys.queue.reqs.length ∧ sys.queue.reqs[index]? = some other) ∨ index = sys.queue.reqs.length := by
    intro index other place
    have inside := (List.getElem?_eq_some_iff.mp place).1
    by_cases old : index < sys.queue.reqs.length
    · rw [reqs, List.getElem?_append_left old] at place
      exact Or.inl ⟨old, place⟩
    · exact Or.inr (by omega)
  have storedOld : ∀ index, index < sys.queue.reqs.length →
      (noteGate sys action next notes).storedOpen index = notes.storedOpen index := by
    intro index old
    exact if_neg (by omega)
  have storedNew : (noteGate sys action next notes).storedOpen sys.queue.reqs.length = sys.queue.submitted :=
    if_pos (by omega)
  cases gate : sys.queue.submitted with
  | true =>
    have still : next.queue.submitted = true := by rw [queue, push, gate]; rfl
    have covered : (noteGate sys action next notes).covered = notes.covered := by simp [noteGate, gate]
    constructor
    · omega
    · simp [still]
    · simp [still]
    · simp [still]
    · intro _ index other place pending
      rw [covered]
      rcases split index other place with ⟨old, known⟩ | rfl
      · rw [storedOld index old]
        exact gated.opened gate index other known pending
      · rw [storedNew, gate]
        simp [known]
  | false =>
    cases opens : next.queue.submitted with
    | false =>
      have covered : (noteGate sys action next notes).covered = notes.covered := by simp [noteGate, opens]
      constructor
      · omega
      · rw [worker]
        exact fun _ => gated.idle gate
      · intro _ index other below place
        rw [covered] at below
        rcases split index other place with ⟨old, known⟩ | rfl
        · exact gated.covered gate index other below known
        · omega
      · intro _ index other place pending
        rcases split index other place with ⟨old, known⟩ | rfl
        · rw [storedOld index old]
          exact gated.closed gate index other known pending
        · rw [storedNew, gate]
      · simp [opens]
    | true =>
      have covered : (noteGate sys action next notes).covered = next.queue.reqs.length := by
        simp [noteGate, gate, opens]
      constructor
      · omega
      · simp [opens]
      · simp [opens]
      · simp [opens]
      · intro _ index other place pending
        rw [covered]
        refine iff_of_true (List.getElem?_eq_some_iff.mp place).1 ?_
        rcases split index other place with ⟨old, known⟩ | rfl
        · rw [storedOld index old]
          exact gated.closed gate index other known pending
        · rw [storedNew, gate]

/-- Opening the gate covers every request that is in the list. -/
theorem Gated.submit {notes : GateNotes} (gated : sys.Gated notes) (action : Action)
    (closed : sys.queue.submitted = false) (queue : next.queue = { sys.queue with submitted := true }) :
    next.Gated (noteGate sys action next notes) := by
  have reqs : next.queue.reqs = sys.queue.reqs := by rw [queue]
  have opens : next.queue.submitted = true := by rw [queue]
  have covered : (noteGate sys action next notes).covered = next.queue.reqs.length := by
    simp [noteGate, closed, opens]
  have stored : ∀ index, (noteGate sys action next notes).storedOpen index = notes.storedOpen index := by
    intro index
    exact if_neg (by rw [reqs]; omega)
  constructor
  · exact Nat.le_of_eq covered
  · simp [opens]
  · simp [opens]
  · simp [opens]
  · intro _ index req place pending
    rw [covered, stored]
    refine iff_of_true (List.getElem?_eq_some_iff.mp place).1 ?_
    exact gated.closed closed index req (reqs ▸ place) pending

/-- The completion of a request shuts the gate when it leaves nothing pending, and keeps it
otherwise. -/
theorem finish_drained (sys : IoSystem) (req : Req) (ok : Bool) : ((sys.finish req ok).queue.submitted = false ∧
    ∀ other ∈ (sys.finish req ok).queue.reqs, other.isPending = false) ∨
      (sys.finish req ok).queue.submitted = sys.queue.submitted := by
  by_cases empty : (sys.finish req ok).queue.reqs.countP Req.isPending = 0
  · refine Or.inl ⟨if_pos empty, fun other member => ?_⟩
    simpa using List.countP_eq_zero.mp empty other member
  · exact Or.inr (if_neg empty)

/-- Every move keeps the gate's law. -/
theorem Gated.move {notes : GateNotes} (gated : sys.Gated notes) {before after : List Req}
    (split : sys.Split before after) (move : Move sys next) (action : Action) :
    next.Gated (noteGate sys action next notes) := by
  have progress := move.progress
  obtain ⟨front, back, nextSplit⟩ := split.move move
  cases move with
  | keep reqs inFlight submitted current =>
    rw [noteGate_quiet (by rw [reqs]) (fun wide => submitted ▸ wide)]
    refine gated.steady progress (by rw [reqs]) submitted (fun shut => ?_)
    rw [current]
    exact gated.idle (submitted ▸ shut)
  | accept req room queue worker => exact gated.accept action queue worker
  | cancel tag queue worker =>
    have length : next.queue.reqs.length = sys.queue.reqs.length := by
      rw [queue]
      exact setFirst_length _
    have submitted : next.queue.submitted = sys.queue.submitted := by rw [queue]; rfl
    rw [noteGate_quiet length (fun wide => submitted ▸ wide)]
    refine gated.steady progress length submitted (fun shut => ?_)
    rw [worker]
    exact gated.idle (submitted ▸ shut)
  | submit closed queue worker => exact gated.submit action closed queue
  | close idle opened drained queue worker =>
    have reqs : next.queue.reqs = sys.queue.reqs := by rw [queue]
    have shut : next.queue.submitted = false := by rw [queue]
    rw [noteGate_quiet (by rw [reqs]) (fun _ => opened)]
    refine gated.shut nextSplit ?_ (reqs ▸ drained) (by rw [reqs]) shut
    rw [worker, idle]
    rfl
  | start passed req rest idle opened parts skipped fresh queue worker =>
    have length : next.queue.reqs.length = sys.queue.reqs.length := by
      rw [queue, parts]
      simp
    have submitted : next.queue.submitted = sys.queue.submitted := by rw [queue]
    rw [noteGate_quiet length (fun wide => submitted ▸ wide)]
    refine gated.steady progress length submitted (fun shut => ?_)
    rw [submitted, opened] at shut
    cases shut
  | finish req ok finishing result =>
    subst result
    have length : (sys.finish req ok).queue.reqs.length = sys.queue.reqs.length := setFirst_length _
    rcases finish_drained sys req ok with ⟨shut, drained⟩ | submitted
    · rw [noteGate_quiet length (fun wide => by rw [shut] at wide; cases wide)]
      exact gated.shut nextSplit rfl drained length shut
    · rw [noteGate_quiet length (fun wide => submitted ▸ wide)]
      exact gated.steady progress length submitted (fun _ => rfl)

/-- The empty queue with its gate shut satisfies the invariant. -/
theorem gated_start (mem : MemMap) (vfs : Vfs) : Gated { mem, vfs } {} := by
  constructor
  · exact Nat.le_refl _
  · exact fun _ => rfl
  · intro _ index req below
    exact absurd below (Nat.not_lt_zero index)
  · exact fun _ _ _ _ _ => rfl
  · intro wide
    cases wide

/-- Every state of every watched run keeps the shape and the gate's law. -/
theorem gated_of_run {mem : MemMap} {vfs : Vfs} {actions : List Action} {notes : GateNotes}
    (reached : Runs.run (Runs.watch step noteGate) ({ mem, vfs }, {}) actions = some (sys, notes)) :
    (∃ before after, sys.Split before after) ∧ sys.Gated notes := by
  have preserved : ∀ state notes action next, ((∃ before after, Split state before after) ∧ Gated state notes) →
      True → step state action = some next →
      (∃ before after, Split next before after) ∧ Gated next (noteGate state action next notes) := by
    rintro state notes action next ⟨⟨before, after, split⟩, gated⟩ _ stepped
    have move := step_move stepped
    exact ⟨split.move move, gated.move split move action⟩
  exact Runs.watch_invariant preserved ⟨⟨[], [], split_start mem vfs⟩, gated_start mem vfs⟩
    (Runs.along_true _ _) reached

/-! ## Requests and the openings that cover them -/

/-- The request at a place is started in this step. -/
def Starts (sys next : IoSystem) (index : Nat) : Prop :=
  (sys.queue.reqs.map Req.status)[index]? ≠ some .inFlight ∧
    (next.queue.reqs.map Req.status)[index]? = some .inFlight

/-- A request that starts was pending in the state before. -/
theorem Starts.pending {index : Nat} (starts : Starts sys next index)
    (progress : Progress sys.queue.reqs next.queue.reqs) :
    ∃ req, sys.queue.reqs[index]? = some req ∧ req.status = .pending := by
  obtain ⟨idle, running⟩ := starts
  rw [List.getElem?_map] at idle running
  obtain ⟨later, place, status⟩ := Option.map_eq_some_iff.mp running
  cases known : sys.queue.reqs[index]? with
  | none =>
    have pending := progress.added index later (List.getElem?_eq_none_iff.mp known) place
    rw [status] at pending
    cases pending
  | some req =>
    refine ⟨req, rfl, ?_⟩
    obtain ⟨changed, same, advance⟩ := progress.kept index req known
    rw [same] at place
    cases place
    simp only at status
    rw [known, Option.map_some] at idle
    rw [status] at advance
    generalize req.status = before at advance idle
    cases advance with
    | stay => exact absurd rfl idle
    | start => rfl

/-- Nothing is started while the gate is closed. -/
theorem Starts.opened {index : Nat} (starts : Starts sys next index) (move : Move sys next) :
    sys.queue.submitted = true := by
  obtain ⟨req, known, pending⟩ := starts.pending move.progress
  obtain ⟨_, running⟩ := starts
  rw [List.getElem?_map] at running
  have unchanged : next.queue.reqs[index]? = some req → sys.queue.submitted = true := by
    intro same
    rw [same, Option.map_some, pending] at running
    cases running
  cases move with
  | keep reqs inFlight submitted current => exact unchanged (reqs ▸ known)
  | accept other room queue worker =>
    refine unchanged ?_
    rw [queue, push]
    simp only
    rw [List.getElem?_append_left (List.getElem?_eq_some_iff.mp known).1]
    exact known
  | cancel tag queue worker =>
    rcases setFirst_at known with same | ⟨_, changed⟩
    · exact unchanged (queue ▸ same)
    · rw [queue, IoQueue.cancel] at running
      simp only [changed, Option.map_some] at running
      cases running
  | submit closed queue worker => exact unchanged (queue ▸ known)
  | close idle opened drained queue worker => exact opened
  | start passed other rest idle opened parts skipped fresh queue worker => exact opened
  | finish other ok finishing result =>
    rcases setFirst_at known with same | ⟨found, _⟩
    · exact unchanged (result ▸ same)
    · rw [Req.runningAs, pending, Bool.and_eq_true] at found
      cases found.2

/-- **Nothing starts unsubmitted**, except what arrived behind the open gate: in every run,
a request that is started has been covered by an opening since it was stored exactly when
the gate was closed at the time it was stored.

Proof: whatever starts was pending behind an opening, and the notes say which requests the last
opening covered. -/
theorem started_covered_iff (mem : MemMap) (vfs : Vfs) (actions : List Action) (sys : IoSystem) (notes : GateNotes)
    (reached : Runs.run (Runs.watch step noteGate) ({ mem, vfs }, {}) actions = some (sys, notes))
    (action : Action) (next : IoSystem) (stepped : sys.step action = some next) (index : Nat)
    (starts : Starts sys next index) : index < notes.covered ↔ notes.storedOpen index = false := by
  obtain ⟨_, gated⟩ := gated_of_run reached
  have move := step_move stepped
  obtain ⟨req, known, pending⟩ := starts.pending move.progress
  exact gated.opened (starts.opened move) index req known pending

/-- What the last step of a watched run starts, and what the last opening covered. -/
def lastStart (actions : List Action) : Option (List Status × List Status × Nat) :=
  (Runs.run (Runs.watch step noteGate) ({ mem := onePage, vfs := payloadFile }, {}) actions).bind (fun state =>
    (state.1.step .worker).map (fun next =>
      (state.1.queue.reqs.map Req.status, next.queue.reqs.map Req.status, state.2.covered)))

/-- An evaluated schedule is a run, and its last step is the start that was read off. -/
theorem lastStart_some {actions : List Action} {before after : List Status} {covered : Nat}
    (evaluated : lastStart actions = some (before, after, covered)) : ∃ sys notes next,
      Runs.run (Runs.watch step noteGate) ({ mem := onePage, vfs := payloadFile }, {}) actions = some (sys, notes) ∧
      sys.step .worker = some next ∧ sys.queue.reqs.map Req.status = before ∧
      next.queue.reqs.map Req.status = after ∧ notes.covered = covered := by
  obtain ⟨⟨sys, notes⟩, reached, last⟩ := Option.bind_eq_some_iff.mp evaluated
  obtain ⟨next, stepped, same⟩ := Option.map_eq_some_iff.mp last
  simp only [Prod.mk.injEq] at same
  exact ⟨sys, notes, next, reached, stepped, same.1, same.2.1, same.2.2⟩

/-- A second request arrives behind the gate that was opened for the first. -/
def lateArrival : List Action :=
  [.enqueue payload 0 1 0x1000 1, .submit, .enqueue payload 1 1 0x1001 2, .worker, .worker, .worker, .worker]

/-- The worker starts it without another submit. -/
theorem lateArrival_uncovered : ¬ ∀ sys notes next,
    Runs.run (Runs.watch step noteGate) ({ mem := onePage, vfs := payloadFile }, {}) lateArrival = some (sys, notes) →
    sys.step .worker = some next → ∀ index, Starts sys next index → index < notes.covered := by
  have evaluated : lastStart lateArrival = some ([.done, .pending], [.done, .inFlight], 1) := by decide +kernel
  obtain ⟨sys, notes, next, reached, stepped, before, after, covered⟩ := lastStart_some evaluated
  intro every
  have starts : Starts sys next 1 := by
    rw [Starts, before, after]
    decide
  have below := every sys notes next reached stepped 1 starts
  omega

/-- A request that was stored behind the closed gate, and its start. -/
theorem firstArrival_covered : ∃ sys notes next,
    Runs.run (Runs.watch step noteGate) ({ mem := onePage, vfs := payloadFile }, {}) (lateArrival.take 3) =
      some (sys, notes) ∧ sys.step .worker = some next ∧ Starts sys next 0 ∧
    (0 < notes.covered ↔ notes.storedOpen 0 = false) := by
  have evaluated : lastStart (lateArrival.take 3) = some ([.pending, .pending], [.inFlight, .pending], 1) := by
    decide +kernel
  obtain ⟨sys, notes, next, reached, stepped, before, after, covered⟩ := lastStart_some evaluated
  have starts : Starts sys next 0 := by
    rw [Starts, before, after]
    decide
  exact ⟨sys, notes, next, reached, stepped, starts,
    started_covered_iff _ _ _ sys notes reached .worker next stepped 0 starts⟩

/-- **`wait_all` leaves no submitted request behind.** When it may return with the gate
closed, everything in the queue at the last opening is terminal; when it may return with
the gate open, everything is.

Proof: the split of the queue and the notes of the gate are invariants. With nothing running and
nothing pending in the covered part, that part is terminal. -/
theorem drained_settled (mem : MemMap) (vfs : Vfs) (actions : List Action) (sys : IoSystem) (notes : GateNotes)
    (reached : Runs.run (Runs.watch step noteGate) ({ mem, vfs }, {}) actions = some (sys, notes)) :
    (sys.queue.submitted = false → sys.queue.inFlight = 0 → ∀ (index : Nat) (req : Req), index < notes.covered →
      sys.queue.reqs[index]? = some req → req.status.terminal = true) ∧
    (sys.queue.submitted = true → sys.queue.drained = true → ∀ req ∈ sys.queue.reqs, req.status.terminal = true) := by
  obtain ⟨⟨before, after, split⟩, gated⟩ := gated_of_run reached
  constructor
  · intro closed _ index req below place
    exact gated.covered closed index req below place
  · intro opened drained req member
    simp only [IoQueue.drained, opened, Bool.not_true, Bool.false_or, Bool.and_eq_true, beq_iff_eq] at drained
    have idle : sys.worker.current = [] := List.eq_nil_of_length_eq_zero (split.counted ▸ drained.1)
    refine split.all_terminal idle (fun other known => ?_) member
    simpa using List.countP_eq_zero.mp drained.2 other known

/-- Two requests are submitted and drained, the gate closes, and a third one is stored. -/
def drainedOnce : List Action :=
  [.enqueue payload 0 1 0x1000 1, .enqueue payload 9 1 0x1001 2, .submit, .worker, .worker, .worker, .worker,
    .worker, .worker, .worker, .enqueue payload 0 1 0x1002 3]

/-- In one schedule every request settles before the drain returns. -/
theorem drainedOnce_settled : ∃ sys notes,
    Runs.run (Runs.watch step noteGate) ({ mem := onePage, vfs := payloadFile }, {}) drainedOnce = some (sys, notes) ∧
    sys.queue.reqs.map Req.status = [.done, .error, .pending] ∧ notes.covered = 2 ∧
    ((sys.queue.submitted = false → sys.queue.inFlight = 0 → ∀ (index : Nat) (req : Req), index < notes.covered →
      sys.queue.reqs[index]? = some req → req.status.terminal = true) ∧
    (sys.queue.submitted = true → sys.queue.drained = true →
      ∀ req ∈ sys.queue.reqs, req.status.terminal = true)) := by
  have evaluated : (Runs.run (Runs.watch step noteGate) ({ mem := onePage, vfs := payloadFile }, {}) drainedOnce).map
      (fun state => (state.1.queue.reqs.map Req.status, state.2.covered)) =
        some ([.done, .error, .pending], 2) := by decide +kernel
  obtain ⟨⟨sys, notes⟩, reached, same⟩ := Option.map_eq_some_iff.mp evaluated
  simp only [Prod.mk.injEq] at same
  exact ⟨sys, notes, reached, same.1, same.2, drained_settled _ _ _ sys notes reached⟩

end SeriesxEmu.IoSystem
