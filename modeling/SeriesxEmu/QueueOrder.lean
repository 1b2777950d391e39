import SeriesxEmu.IoQueue
import Mathlib.Data.List.Pairwise

/-!
# Accounting and order in the file queue

The queue is processed from front to back: behind the requests that are settled
comes the one the worker has started, if any, and behind it only requests that have
not been started. What a step of any client or of the worker does to this shape is
said once, in `Move`, and the accounting follows from the shape.
-/

namespace SeriesxEmu

open IoQueue

namespace IoQueue

/-! ## Searching for the first request -/

variable {wanted : Req → Bool} {status : Status}

/-- What is not wanted is skipped. -/
theorem setFirst_skip {front : List Req} (back : List Req) (skipped : ∀ req ∈ front, wanted req = false) :
    setFirst wanted status (front ++ back) = front ++ setFirst wanted status back := by
  induction front with
  | nil => rfl
  | cons req rest inductionHypothesis =>
    have later := inductionHypothesis (fun other member => skipped other (List.mem_cons_of_mem _ member))
    have here := skipped req List.mem_cons_self
    simp only [List.cons_append, setFirst, here, Bool.false_eq_true, ↓reduceIte, later]

/-- The first one that is wanted gets the status. -/
theorem setFirst_here {req : Req} (rest : List Req) (found : wanted req = true) :
    setFirst wanted status (req :: rest) = { req with status } :: rest := by
  simp only [setFirst, found, ↓reduceIte]

/-- What a search leaves at a place. -/
theorem setFirst_at {reqs : List Req} {index : Nat} {req : Req} (found : reqs[index]? = some req) :
    (setFirst wanted status reqs)[index]? = some req ∨
      (wanted req = true ∧ (setFirst wanted status reqs)[index]? = some { req with status }) := by
  induction reqs generalizing index with
  | nil => cases found
  | cons first rest inductionHypothesis =>
    rw [setFirst]
    cases index with
    | zero =>
      cases found
      split
      · rename_i here
        exact Or.inr ⟨here, rfl⟩
      · exact Or.inl rfl
    | succ index =>
      split
      · exact Or.inl found
      · exact inductionHypothesis found

/-- No request is added or lost. -/
@[simp] theorem setFirst_length (reqs : List Req) : (setFirst wanted status reqs).length = reqs.length := by
  induction reqs with
  | nil => rfl
  | cons first rest inductionHypothesis =>
    rw [setFirst]
    split
    · rfl
    · rw [List.length_cons, inductionHypothesis, List.length_cons]

/-- Every request is an old one, perhaps with the new status. -/
theorem mem_setFirst {reqs : List Req} {req : Req} (member : req ∈ setFirst wanted status reqs) :
    req ∈ reqs ∨ ∃ old ∈ reqs, wanted old = true ∧ req = { old with status } := by
  obtain ⟨index, place⟩ := List.mem_iff_getElem?.mp member
  have inside : index < reqs.length := by
    have bound := (List.getElem?_eq_some_iff.mp place).1
    rwa [setFirst_length] at bound
  have old := List.getElem?_eq_getElem inside
  have known := List.mem_of_getElem? old
  rcases setFirst_at old with same | ⟨found, changed⟩
  · rw [same] at place
    exact Or.inl (Option.some.inj place ▸ known)
  · rw [changed] at place
    exact Or.inr ⟨_, known, found, (Option.some.inj place).symm⟩

/-- A search that gives another status makes no request pending. -/
theorem setFirst_pending (lost : status ≠ .pending) (reqs : List Req) :
    (setFirst wanted status reqs).countP Req.isPending ≤ reqs.countP Req.isPending := by
  induction reqs with
  | nil => exact Nat.le_refl _
  | cons first rest inductionHypothesis =>
    rw [setFirst]
    split
    · have other : Req.isPending { first with status } = false := by simpa [Req.isPending] using lost
      rw [List.countP_cons, List.countP_cons, other]
      simp
    · rw [List.countP_cons, List.countP_cons]
      omega

/-! ## What a step does -/

/-- A terminal status. -/
def Status.terminal : Status → Bool
  | .done | .cancelled | .error => true
  | .pending | .inFlight => false

/-- The status of a request that the worker has not taken. -/
def Status.unstarted : Status → Bool
  | .pending | .cancelled => true
  | .inFlight | .done | .error => false

/-- The request that the worker has started. -/
def Worker.current : Worker → List Req
  | .waiting | .stopped => []
  | .reading req | .writing req _ | .finishing req _ => [req]

end IoQueue

namespace IoSystem

/-- The change that a step makes to the queue and to the request the worker is at. -/
inductive Move (sys next : IoSystem) : Prop where
  | keep (reqs : next.queue.reqs = sys.queue.reqs) (inFlight : next.queue.inFlight = sys.queue.inFlight)
      (submitted : next.queue.submitted = sys.queue.submitted) (current : next.worker.current = sys.worker.current)
  | accept (req : Req) (room : sys.queue.full = false)
      (queue : next.queue = sys.queue.push req) (worker : next.worker = sys.worker)
  | cancel (tag : Nat) (queue : next.queue = (sys.queue.cancel tag).1) (worker : next.worker = sys.worker)
  | submit (closed : sys.queue.submitted = false) (queue : next.queue = { sys.queue with submitted := true })
      (worker : next.worker = sys.worker)
  | close (idle : sys.worker = .waiting) (opened : sys.queue.submitted = true)
      (drained : ∀ req ∈ sys.queue.reqs, req.isPending = false)
      (queue : next.queue = { sys.queue with submitted := false }) (worker : next.worker = sys.worker)
  | start (before : List Req) (req : Req) (after : List Req) (idle : sys.worker = .waiting)
      (opened : sys.queue.submitted = true) (split : sys.queue.reqs = before ++ req :: after)
      (passed : ∀ other ∈ before, other.isPending = false) (fresh : req.isPending = true)
      (queue : next.queue = { sys.queue with
        reqs := before ++ { req with status := .inFlight } :: after, inFlight := sys.queue.inFlight + 1 })
      (worker : next.worker = .reading { req with status := .inFlight })
  | finish (req : Req) (ok : Bool) (finishing : sys.worker = .finishing req ok) (result : next = sys.finish req ok)

variable {sys next : IoSystem}

/-- An enqueue is a move. -/
theorem enqueueCommon_move (req : Req) (waitForSlot : Bool) :
    Move sys (sys.enqueueCommon req waitForSlot).1 := by
  rw [enqueueCommon]
  split
  · exact .keep rfl rfl rfl rfl
  · split
    · exact .keep rfl rfl rfl rfl
    · split
      · split <;> exact .keep rfl rfl rfl rfl
      · rename_i room
        exact .accept req (Bool.eq_false_iff.mpr room) rfl rfl

/-- So is a client that is woken. -/
theorem wakeWaiter_move {index : Nat} (stepped : sys.wakeWaiter index = some next) :
    Move sys next := by
  rw [wakeWaiter] at stepped
  split at stepped
  · cases stepped
  · rename_i req found
    split at stepped
    · cases stepped
      exact .keep rfl rfl rfl rfl
    · rename_i room
      cases stepped
      exact .accept req (Bool.eq_false_iff.mpr room) rfl rfl

/-- So is the worker taking a request. -/
theorem takeNext_move (idle : sys.worker = .waiting) (opened : sys.queue.submitted = true) :
    Move sys sys.takeNext := by
  rw [takeNext]
  split
  · rename_i missing
    exact .close idle opened (fun req member => by simpa using List.find?_eq_none.mp missing req member) rfl rfl
  · rename_i req found
    obtain ⟨fresh, before, after, split, passed⟩ := List.find?_eq_some_iff_append.mp found
    have skipped : ∀ other ∈ before, other.isPending = false := by
      intro other member
      simpa using passed other member
    refine .start before req after idle opened split skipped fresh ?_ rfl
    rw [split, setFirst_skip _ skipped, setFirst_here _ fresh]

/-- So is every turn of the worker. -/
theorem workerStep_move (stepped : sys.workerStep = some next) : Move sys next := by
  rw [workerStep] at stepped
  split at stepped
  · rename_i idle
    split at stepped
    · cases stepped
      exact .keep rfl rfl rfl (by rw [idle]; rfl)
    · split at stepped
      · rename_i opened
        cases stepped
        exact takeNext_move idle opened
      · cases stepped
  · rename_i req reading
    split at stepped <;>
    · cases stepped
      exact .keep rfl rfl rfl (by rw [reading]; rfl)
  · rename_i req data writing
    cases stepped
    exact .keep rfl rfl rfl (by rw [writing]; rfl)
  · rename_i req ok finishing
    cases stepped
    exact .finish req ok finishing rfl
  · cases stepped

/-- Every step of every party is one of the moves. -/
theorem step_move {action : Action} (stepped : sys.step action = some next) :
    Move sys next := by
  cases action with
  | enqueue path srcOffset size dest tag =>
    cases stepped
    exact enqueueCommon_move _ false
  | enqueueWait path srcOffset size dest tag =>
    cases stepped
    exact enqueueCommon_move _ true
  | wake index => exact wakeWaiter_move stepped
  | cancel tag =>
    cases stepped
    exact .cancel tag rfl rfl
  | submit =>
    cases stepped
    rw [IoQueue.submit]
    split
    · exact .keep rfl rfl rfl rfl
    · rename_i closed
      rw [Bool.or_eq_true, not_or, Bool.not_eq_true] at closed
      exact .submit closed.1 rfl rfl
  | setAutoSubmitEnabled on =>
    cases stepped
    exact .keep rfl rfl rfl rfl
  | stop =>
    cases stepped
    exact .keep rfl rfl rfl rfl
  | worker => exact workerStep_move stepped
  | files op =>
    cases stepped
    exact .keep rfl rfl rfl rfl
  | memory op =>
    cases stepped
    exact .keep rfl rfl rfl rfl

/-! ## The shape of the queue -/

/-- The queue is split at the worker: what is settled, what is started and what is not. -/
structure Split (sys : IoSystem) (before after : List Req) : Prop where
  reqs : sys.queue.reqs = before ++ sys.worker.current ++ after
  settled : ∀ req ∈ before, req.status.terminal = true
  running : ∀ req ∈ sys.worker.current, req.status = .inFlight
  unstarted : ∀ req ∈ after, req.status.unstarted = true
  counted : sys.queue.inFlight = sys.worker.current.length
  capacity : sys.queue.pendingLocked + sys.queue.inFlight ≤ kCapacity

variable {before after : List Req}

/-- A request is pending by its status. -/
theorem isPending_iff {req : Req} : req.isPending = true ↔ req.status = .pending := by
  rw [Req.isPending, beq_iff_eq]

/-- What is settled is not pending. -/
theorem Split.settled_not_pending (split : sys.Split before after) {req : Req} (member : req ∈ before) :
    req.isPending = false := by
  have terminal := split.settled req member
  rw [Bool.eq_false_iff, Ne, isPending_iff]
  intro pending
  rw [pending] at terminal
  cases terminal

/-- What runs is not pending, either. -/
theorem Split.running_not_pending (split : sys.Split before after) {req : Req} (member : req ∈ sys.worker.current) :
    req.isPending = false := by
  rw [Bool.eq_false_iff, Ne, isPending_iff, split.running req member]
  decide

/-- The pending requests are the unstarted ones that are not cancelled. -/
theorem Split.pendingLocked (split : sys.Split before after) :
    sys.queue.pendingLocked = after.countP Req.isPending := by
  have idle : (before ++ sys.worker.current).countP Req.isPending = 0 := by
    rw [List.countP_eq_zero]
    intro req member
    rw [Bool.not_eq_true]
    rcases List.mem_append.mp member with settled | running
    · exact split.settled_not_pending settled
    · exact split.running_not_pending running
  rw [IoQueue.pendingLocked, split.reqs, List.countP_append, idle, Nat.zero_add]

/-- One more request is pending. -/
theorem push_pendingLocked (queue : IoQueue) (req : Req) :
    (queue.push req).pendingLocked = queue.pendingLocked + 1 := by
  have one : List.countP Req.isPending [{ req with status := Status.pending }] = 1 := rfl
  rw [IoQueue.pendingLocked, push, List.countP_append, one, IoQueue.pendingLocked]

/-- A request that is accepted is the last one that is left. -/
theorem Split.accept (split : sys.Split before after) {req : Req} (room : sys.queue.full = false)
    (queue : next.queue = sys.queue.push req) (worker : next.worker = sys.worker) :
    next.Split before (after ++ [{ req with status := .pending }]) := by
  have slot : sys.queue.pendingLocked + sys.queue.inFlight < kCapacity := by
    simpa [full] using room
  constructor
  · rw [queue, worker, push]
    simp only [split.reqs, List.append_assoc]
  · exact split.settled
  · rw [worker]
    exact split.running
  · intro other member
    rcases List.mem_append.mp member with old | new
    · exact split.unstarted other old
    · rw [List.mem_singleton.mp new]
      rfl
  · rw [queue, worker]
    exact split.counted
  · have sameFlight : (sys.queue.push req).inFlight = sys.queue.inFlight := rfl
    rw [queue, push_pendingLocked, sameFlight]
    omega

/-- A cancelled request stays among the unstarted ones. -/
theorem Split.cancel (split : sys.Split before after) {tag : Nat} (queue : next.queue = (sys.queue.cancel tag).1)
    (worker : next.worker = sys.worker) :
    next.Split before (setFirst (Req.pendingAs tag) .cancelled after) := by
  have skipped : ∀ req ∈ before ++ sys.worker.current, req.pendingAs tag = false := by
    intro req member
    rw [Req.pendingAs, Bool.and_eq_false_iff]
    right
    rcases List.mem_append.mp member with settled | running
    · exact split.settled_not_pending settled
    · exact split.running_not_pending running
  constructor
  · rw [queue, worker, IoQueue.cancel]
    simp only [split.reqs]
    exact setFirst_skip after skipped
  · exact split.settled
  · rw [worker]
    exact split.running
  · intro req member
    rcases mem_setFirst member with old | ⟨old, _, _, rfl⟩
    · exact split.unstarted req old
    · rfl
  · rw [queue, worker]
    exact split.counted
  · have fewer : (sys.queue.cancel tag).1.pendingLocked ≤ sys.queue.pendingLocked := setFirst_pending (by decide) _
    have sameFlight : (sys.queue.cancel tag).1.inFlight = sys.queue.inFlight := rfl
    rw [queue, sameFlight]
    exact Nat.le_trans (Nat.add_le_add_right fewer _) split.capacity

/-- Everything in front of the first pending request is settled when the worker is idle. -/
theorem Split.start (split : sys.Split before after) {passed rest : List Req} {req : Req}
    (idle : sys.worker = .waiting) (parts : sys.queue.reqs = passed ++ req :: rest)
    (skipped : ∀ other ∈ passed, other.isPending = false) (fresh : req.isPending = true)
    (queue : next.queue = { sys.queue with
      reqs := passed ++ { req with status := .inFlight } :: rest, inFlight := sys.queue.inFlight + 1 })
    (worker : next.worker = .reading { req with status := .inFlight }) : next.Split passed rest := by
  have reqs := split.reqs
  rw [idle] at reqs
  have current : next.worker.current = [{ req with status := .inFlight }] := by rw [worker]; rfl
  have whole : before ++ after = passed ++ req :: rest := by
    rw [← parts, reqs, Worker.current, List.append_nil]
  -- the pending request is not among the settled ones, so these all come before it
  obtain ⟨between, passedParts, afterParts⟩ : ∃ between, passed = before ++ between ∧
      after = between ++ req :: rest := by
    rcases List.append_eq_append_iff.mp whole with ⟨between, front, back⟩ | ⟨between, front, back⟩
    · exact ⟨between, front, back⟩
    · cases between with
      | nil => exact ⟨[], by simpa using front.symm, by simpa using back.symm⟩
      | cons first others =>
        rw [List.cons_append, List.cons.injEq] at back
        have settled := split.settled_not_pending (front ▸ List.mem_append_right passed List.mem_cons_self)
        rw [← back.1, fresh] at settled
        cases settled
  have counted := split.counted
  rw [idle, Worker.current, List.length_nil] at counted
  constructor
  · rw [queue, current]
    simp
  · intro other member
    have unpending := skipped other member
    rw [passedParts] at member
    rcases List.mem_append.mp member with old | new
    · exact split.settled other old
    · have unstarted := split.unstarted other (afterParts ▸ List.mem_append_left _ new)
      rw [Bool.eq_false_iff, Ne, isPending_iff] at unpending
      cases status : other.status <;> simp_all [Status.unstarted, Status.terminal]
  · intro other member
    rw [current, List.mem_singleton] at member
    rw [member]
  · intro other member
    exact split.unstarted other (afterParts ▸ List.mem_append_right _ (List.mem_cons_of_mem _ member))
  · rw [queue, current, counted]
    rfl
  · have pendingBefore : sys.queue.pendingLocked = rest.countP Req.isPending + 1 := by
      rw [IoQueue.pendingLocked, parts, List.countP_append, List.countP_cons, fresh,
        List.countP_eq_zero.mpr (by simpa using skipped)]
      simp
    have capacity := split.capacity
    have pendingAfter : next.queue.pendingLocked = rest.countP Req.isPending := by
      have started : Req.isPending { req with status := .inFlight } = false := rfl
      rw [IoQueue.pendingLocked, queue, List.countP_append, List.countP_cons, started,
        List.countP_eq_zero.mpr (by simpa using skipped)]
      simp
    rw [pendingAfter, queue]
    simp only
    omega

/-- A request that is finished is the last one that is settled. -/
theorem Split.finish (split : sys.Split before after) {req : Req} {ok : Bool}
    (finishing : sys.worker = .finishing req ok) :
    (sys.finish req ok).Split (before ++ [{ req with status := if ok then .done else .error }]) after := by
  have current : sys.worker.current = [req] := by rw [finishing]; rfl
  have running := split.running req (by rw [current]; exact List.mem_singleton_self req)
  have counted := split.counted
  rw [current, List.length_singleton] at counted
  have skipped : ∀ other ∈ before, other.runningAs req.tag = false := by
    intro other member
    have terminal := split.settled other member
    rw [Req.runningAs, Bool.and_eq_false_iff]
    right
    cases status : other.status <;> simp_all [Status.terminal]
  have here : req.runningAs req.tag = true := by simp [Req.runningAs, running]
  have reqs : setFirst (Req.runningAs req.tag) (if ok then .done else .error) sys.queue.reqs =
      before ++ { req with status := if ok then .done else .error } :: after := by
    rw [split.reqs, current, List.append_assoc, setFirst_skip _ skipped, List.singleton_append, setFirst_here _ here]
  have idle : (sys.finish req ok).worker.current = [] := rfl
  constructor
  · rw [idle, IoSystem.finish]
    simp only [reqs, List.append_nil, List.append_assoc, List.singleton_append]
  · intro other member
    rcases List.mem_append.mp member with old | new
    · exact split.settled other old
    · rw [List.mem_singleton.mp new]
      cases ok <;> rfl
  · rw [idle]
    intro other member
    cases member
  · exact split.unstarted
  · rw [idle, IoSystem.finish, counted]
    rfl
  · have capacity := split.capacity
    have fewer : (sys.finish req ok).queue.pendingLocked ≤ sys.queue.pendingLocked :=
      setFirst_pending (by cases ok <;> decide) _
    have flight : (sys.finish req ok).queue.inFlight = sys.queue.inFlight - 1 := rfl
    omega

/-- The split is told by the requests and the one that runs. -/
theorem Split.congr (split : sys.Split before after) (reqs : next.queue.reqs = sys.queue.reqs)
    (inFlight : next.queue.inFlight = sys.queue.inFlight) (current : next.worker.current = sys.worker.current) :
    next.Split before after := by
  constructor
  · rw [reqs, current]
    exact split.reqs
  · exact split.settled
  · rw [current]
    exact split.running
  · exact split.unstarted
  · rw [inFlight, current]
    exact split.counted
  · rw [IoQueue.pendingLocked, reqs, inFlight]
    exact split.capacity

/-- Every move keeps the shape. -/
theorem Split.move (split : sys.Split before after) (move : Move sys next) : ∃ front back, next.Split front back := by
  cases move with
  | keep reqs inFlight submitted current => exact ⟨_, _, split.congr reqs inFlight current⟩
  | accept req room queue worker => exact ⟨_, _, split.accept room queue worker⟩
  | cancel tag queue worker => exact ⟨_, _, split.cancel queue worker⟩
  | submit closed queue worker => exact ⟨_, _, split.congr (by rw [queue]) (by rw [queue]) (by rw [worker])⟩
  | close idle opened drained queue worker =>
    exact ⟨_, _, split.congr (by rw [queue]) (by rw [queue]) (by rw [worker])⟩
  | start passed req rest idle opened parts skipped fresh queue worker =>
    exact ⟨_, _, split.start idle parts skipped fresh queue worker⟩
  | finish req ok finishing result => exact ⟨_, _, result ▸ split.finish finishing⟩

/-- At first there are none. -/
theorem split_start (mem : MemMap) (vfs : Vfs) : Split { mem, vfs } [] [] :=
  ⟨rfl, by simp, by simp [Worker.current], by simp, rfl, Nat.zero_le _⟩

/-- Every state of every run has the shape. -/
theorem split_of_run {mem : MemMap} {vfs : Vfs} {actions : List Action}
    (reached : Runs.run step { mem, vfs } actions = some sys) : ∃ before after, sys.Split before after := by
  have preserved : ∀ state action next, (∃ before after, Split state before after) →
      step state action = some next → ∃ before after, Split next before after := by
    rintro state action next ⟨before, after, split⟩ stepped
    exact split.move (step_move stepped)
  exact Runs.run_preserves preserved _ _ _ ⟨[], [], split_start mem vfs⟩ reached

/-! ## Statuses -/

/-- How the status of a request may change in one step. -/
inductive Advance : Status → Status → Prop where
  | stay (status : Status) : Advance status status
  | start : Advance .pending .inFlight
  | complete : Advance .inFlight .done
  | fail : Advance .inFlight .error
  | cancel : Advance .pending .cancelled

/-- Every request keeps its place and changes in its status only; a new one is pending. -/
structure Progress (reqs later : List Req) : Prop where
  kept : ∀ (index : Nat) (req : Req), reqs[index]? = some req →
    ∃ status, later[index]? = some { req with status := status } ∧ Advance req.status status
  added : ∀ (index : Nat) (req : Req), reqs.length ≤ index → later[index]? = some req → req.status = .pending

/-- Requests that are left alone have made progress. -/
theorem Progress.refl (reqs : List Req) : Progress reqs reqs := by
  constructor
  · intro index req found
    exact ⟨req.status, found, .stay req.status⟩
  · intro index req beyond found
    rw [List.getElem?_eq_none beyond] at found
    cases found

/-- So have those of which the first one has. -/
theorem Progress.cons {reqs later : List Req} (progress : Progress reqs later) {req : Req} {status : Status}
    (advance : Advance req.status status) : Progress (req :: reqs) ({ req with status } :: later) := by
  constructor
  · intro index other found
    cases index with
    | zero =>
      cases found
      exact ⟨status, rfl, advance⟩
    | succ index => exact progress.kept index other found
  · intro index other beyond found
    cases index with
    | zero => cases beyond
    | succ index => exact progress.added index other (Nat.le_of_succ_le_succ beyond) found

/-- A new request comes behind. -/
theorem Progress.push (reqs : List Req) (req : Req) :
    Progress reqs (reqs ++ [{ req with status := .pending }]) := by
  constructor
  · intro index other found
    have inside := List.getElem?_eq_some_iff.mp found
    refine ⟨other.status, ?_, .stay other.status⟩
    rw [List.getElem?_append_left inside.1]
    exact found
  · intro index other beyond found
    rw [List.getElem?_append_right beyond] at found
    rw [List.mem_singleton.mp (List.mem_of_getElem? found)]

/-- A search changes the status of the request it finds. -/
theorem setFirst_progress {wanted : Req → Bool} {status : Status}
    (advances : ∀ req, wanted req = true → Advance req.status status) (reqs : List Req) :
    Progress reqs (setFirst wanted status reqs) := by
  constructor
  · intro index req place
    rcases setFirst_at place with same | ⟨found, changed⟩
    · exact ⟨req.status, same, .stay req.status⟩
    · exact ⟨status, changed, advances req found⟩
  · intro index req beyond place
    rw [List.getElem?_eq_none (by rwa [setFirst_length])] at place
    cases place

/-- One request in the middle changes its status. -/
theorem Progress.change {front back : List Req} {req : Req} {status : Status} (advance : Advance req.status status) :
    Progress (front ++ req :: back) (front ++ { req with status } :: back) := by
  induction front with
  | nil => exact (Progress.refl back).cons advance
  | cons first rest inductionHypothesis => exact inductionHypothesis.cons (.stay first.status)

/-- Every move is progress. -/
theorem Move.progress (move : Move sys next) : Progress sys.queue.reqs next.queue.reqs := by
  cases move with
  | keep reqs inFlight submitted current =>
    rw [reqs]
    exact Progress.refl _
  | accept req room queue worker =>
    rw [queue]
    exact Progress.push _ req
  | cancel tag queue worker =>
    rw [queue]
    refine setFirst_progress (fun req found => ?_) _
    rw [Req.pendingAs, Bool.and_eq_true, beq_iff_eq, beq_iff_eq] at found
    rw [found.2]
    exact .cancel
  | submit closed queue worker =>
    rw [queue]
    exact Progress.refl _
  | close idle opened drained queue worker =>
    rw [queue]
    exact Progress.refl _
  | start passed req rest idle opened parts skipped fresh queue worker =>
    rw [queue, parts]
    refine Progress.change ?_
    rw [isPending_iff.mp fresh]
    exact .start
  | finish req ok finishing result =>
    rw [result]
    refine setFirst_progress (fun other found => ?_) _
    rw [Req.runningAs, Bool.and_eq_true, beq_iff_eq, beq_iff_eq] at found
    rw [found.2]
    cases ok with
    | true => exact .complete
    | false => exact .fail

/-! ## The accounting -/

/-- The counters and the order of the queue, and what the next step can do to statuses. -/
structure Accounted (sys : IoSystem) : Prop where
  single : sys.queue.inFlight ≤ 1
  counted : sys.queue.inFlight = sys.queue.reqs.countP (fun req => req.status == .inFlight)
  capacity : sys.queue.pendingLocked + sys.queue.inFlight ≤ kCapacity
  inOrder : sys.queue.reqs.Pairwise (fun earlier later => earlier.status = .pending →
    later.status ≠ .inFlight ∧ later.status ≠ .done ∧ later.status ≠ .error)
  advances : ∀ action next, sys.step action = some next → Progress sys.queue.reqs next.queue.reqs

/-- The worker runs at most one request. -/
theorem current_length (worker : Worker) : worker.current.length ≤ 1 := by
  cases worker <;> simp [Worker.current]

/-- One request is in flight if the worker runs one. -/
theorem Split.counts (split : sys.Split before after) :
    sys.queue.inFlight = sys.queue.reqs.countP (fun req => req.status == .inFlight) := by
  have settled : before.countP (fun req => req.status == .inFlight) = 0 := by
    rw [List.countP_eq_zero]
    intro req member
    have terminal := split.settled req member
    cases status : req.status <;> simp_all [Status.terminal]
  have unstarted : after.countP (fun req => req.status == .inFlight) = 0 := by
    rw [List.countP_eq_zero]
    intro req member
    have waiting := split.unstarted req member
    cases status : req.status <;> simp_all [Status.unstarted]
  have running : sys.worker.current.countP (fun req => req.status == .inFlight) = sys.worker.current.length := by
    rw [List.countP_eq_length]
    intro req member
    simp [split.running req member]
  rw [split.reqs, List.countP_append, List.countP_append, settled, unstarted, running, split.counted]
  omega

/-- Behind a pending request none has been started. -/
theorem Split.inOrder (split : sys.Split before after) :
    sys.queue.reqs.Pairwise (fun earlier later => earlier.status = .pending →
      later.status ≠ .inFlight ∧ later.status ≠ .done ∧ later.status ≠ .error) := by
  have settled : ∀ req ∈ before ++ sys.worker.current, req.status ≠ .pending := by
    intro req member
    rcases List.mem_append.mp member with old | running
    · have terminal := split.settled req old
      intro pending
      rw [pending] at terminal
      cases terminal
    · rw [split.running req running]
      decide
  have unstarted : ∀ req ∈ after, req.status ≠ .inFlight ∧ req.status ≠ .done ∧ req.status ≠ .error := by
    intro req member
    have waiting := split.unstarted req member
    cases status : req.status <;> simp_all [Status.unstarted]
  rw [split.reqs, List.pairwise_append]
  refine ⟨?_, ?_, ?_⟩
  · exact List.pairwise_of_forall_mem_list (fun earlier member later _ pending =>
      absurd pending (settled earlier member))
  · exact List.pairwise_of_forall_mem_list (fun earlier _ later member _ => unstarted later member)
  · exact fun earlier member later _ pending => absurd pending (settled earlier member)

/-- **Accounting and order.** In every state that any interleaving of clients, the worker
and changes to files and memory reaches, the counters are right, the slots suffice, the
queue is processed in order and statuses only advance.

Proof: the requests split into settled, running and waiting ones. Every step moves the border of the
split, and the parts of the statement are read off the split. -/
theorem queue_accounted (mem : MemMap) (vfs : Vfs) (actions : List Action) (sys : IoSystem)
    (reached : Runs.run step { mem, vfs } actions = some sys) : sys.Accounted := by
  obtain ⟨before, after, split⟩ := split_of_run reached
  constructor
  · rw [split.counted]
    exact current_length sys.worker
  · exact split.counts
  · exact split.capacity
  · exact split.inOrder
  · intro action next stepped
    exact (step_move stepped).progress

/-- One committed page. -/
def onePage : MemMap := { reserved := true, committed := fun page => page == 1 }

/-- A file of four bytes. -/
def payload : List Char := ['S', ':', '\\', 'a']

/-- A file with four bytes. -/
def payloadFile : Vfs := { files := [(payload, [1, 2, 3, 4])] }

/-- Three requests, the second cancelled; the worker finishes the first and starts the third. -/
def threeReads : List Action :=
  [.enqueue payload 0 2 0x1000 1, .enqueueWait payload 2 2 0x1002 2, .enqueue payload 1 2 0x1004 3, .submit,
    .worker, .cancel 2, .worker, .worker, .worker, .worker]

/-- Three reads are accounted for in the end. -/
theorem threeReads_accounted : ∃ sys, Runs.run step { mem := onePage, vfs := payloadFile } threeReads = some sys ∧
    sys.queue.reqs.map Req.status = [.done, .cancelled, .inFlight] ∧ sys.Accounted := by
  have statuses : (Runs.run step { mem := onePage, vfs := payloadFile } threeReads).map
      (fun sys => sys.queue.reqs.map Req.status) = some [.done, .cancelled, .inFlight] := by decide +kernel
  obtain ⟨sys, reached, same⟩ := Option.map_eq_some_iff.mp statuses
  exact ⟨sys, reached, same, queue_accounted _ _ _ _ reached⟩

end IoSystem

end SeriesxEmu
