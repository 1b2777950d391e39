import SeriesxEmu.Potentials
import SeriesxEmu.QueueGates

/-!
# The worker drains an open gate

Once the gate is open the worker needs nobody else: its turns alone settle every request in the order of
the queue, and leave what carrying the requests out one after the other would leave. Whatever the clients do
in between, the worker has no turn that settles nothing, apart from the one that closes a gate.
-/

namespace SeriesxEmu

open IoQueue

/-! ## Requests carried out at once -/

namespace IoQueue

/-- A request carried out at once. -/
def Req.transfer (req : Req) (vfs : Vfs) (mem : MemMap) : MemMap × Bool :=
  match vfs.readSlice req.path req.srcOffset req.size with
  | none => (mem, false)
  | some data => mem.writeBytes req.dest data

/-- The request with its outcome. -/
def Req.settle (req : Req) (ok : Bool) : Req := { req with status := if ok then .done else .error }

/-- The requests in their order, each pending one carried out. -/
def serve (vfs : Vfs) : MemMap → List Req → MemMap × List Req
  | mem, [] => (mem, [])
  | mem, req :: rest =>
    let first := if req.isPending then req.transfer vfs mem else (mem, false)
    let later := serve vfs first.1 rest
    (later.1, (if req.isPending then req.settle first.2 else req) :: later.2)

variable {vfs : Vfs} {mem : MemMap} {req : Req} {front back reqs : List Req}

/-- A settled request is not pending. -/
theorem settle_not_pending (req : Req) (ok : Bool) : (req.settle ok).isPending = false := by
  cases ok <;> rfl

/-- Requests that are not pending are passed over. -/
theorem serve_skip (passed : ∀ other ∈ front, other.isPending = false) : serve vfs mem (front ++ back) =
    ((serve vfs mem back).1, front ++ (serve vfs mem back).2) := by
  induction front with
  | nil => rfl
  | cons first rest inductionHypothesis =>
    have here := passed first List.mem_cons_self
    have later := inductionHypothesis (fun other member => passed other (List.mem_cons_of_mem _ member))
    simp only [List.cons_append, serve, here, later, Bool.false_eq_true, ↓reduceIte]

/-- Where nothing is pending, nothing is served. -/
theorem serve_idle (passed : ∀ other ∈ reqs, other.isPending = false) : serve vfs mem reqs = (mem, reqs) := by
  simpa [serve] using @serve_skip vfs mem reqs [] passed

/-- Carrying the first request out ahead of the others changes nothing. -/
theorem serve_ahead (fresh : req.isPending = true) : serve vfs mem (req :: back) =
    serve vfs (req.transfer vfs mem).1 (req.settle (req.transfer vfs mem).2 :: back) := by
  simp only [serve, fresh, settle_not_pending, Bool.false_eq_true, ↓reduceIte]

/-- The request the worker is at, with what becomes of it. -/
def Worker.ahead (vfs : Vfs) (mem : MemMap) : Worker → Option (Req × MemMap × Bool)
  | .waiting | .stopped => none
  | .reading req => some (req, req.transfer vfs mem)
  | .writing req data => some (req, mem.writeBytes req.dest data)
  | .finishing req ok => some (req, mem, ok)

/-- The turns that the worker has before it waits at the gate, with the one that stops it. -/
def Worker.turns : Worker → Nat
  | .stopped => 0
  | .waiting => 1
  | .finishing _ _ => 2
  | .writing _ _ => 3
  | .reading _ => 4

end IoQueue

namespace IoSystem

variable {sys next : IoSystem} {before after : List Req}

/-- The worker is through with the request it is at. -/
def handed (sys : IoSystem) : IoSystem :=
  match sys.worker.ahead sys.vfs sys.mem with
  | none => sys
  | some (req, mem, ok) => { sys with mem }.finish req ok

/-- Everything is settled, and the worker is back at a closed gate. -/
def drain (sys : IoSystem) : IoSystem :=
  let handed := sys.handed
  let served := serve handed.vfs handed.mem handed.queue.reqs
  { handed with
    mem := served.1
    queue := { handed.queue with reqs := served.2, inFlight := 0, submitted := false }
    worker := .waiting }

/-! ## One turn of the worker -/

/-- What the worker may still have to do: the gate counts for the turn that closes it. -/
def level (sys : IoSystem) : Nat :=
  4 * sys.queue.pendingLocked + sys.worker.turns + sys.queue.submitted.toNat

/-- Where nothing is pending, the count is zero. -/
theorem pendingLocked_zero (idle : ∀ req ∈ sys.queue.reqs, req.isPending = false) :
    sys.queue.pendingLocked = 0 :=
  List.countP_eq_zero.mpr (by simpa using idle)

/-- What the worker takes is the first pending request. -/
theorem takeNext_cases (sys : IoSystem) :
    (sys.takeNext = { sys with queue := { sys.queue with submitted := false } } ∧
      ∀ req ∈ sys.queue.reqs, req.isPending = false) ∨
    ∃ passed req rest, sys.queue.reqs = passed ++ req :: rest ∧ (∀ other ∈ passed, other.isPending = false) ∧
      req.isPending = true ∧ sys.takeNext = { sys with
        queue := { sys.queue with
          reqs := passed ++ { req with status := .inFlight } :: rest, inFlight := sys.queue.inFlight + 1 }
        worker := .reading { req with status := .inFlight } } := by
  rw [takeNext]
  split
  · rename_i missing
    exact Or.inl ⟨rfl, fun req member => by simpa using List.find?_eq_none.mp missing req member⟩
  · rename_i req found
    obtain ⟨fresh, passed, rest, parts, before⟩ := List.find?_eq_some_iff_append.mp found
    have skipped : ∀ other ∈ passed, other.isPending = false := fun other member => by simpa using before other member
    refine Or.inr ⟨passed, req, rest, parts, skipped, fresh, ?_⟩
    rw [parts, setFirst_skip _ skipped, setFirst_here _ fresh]

/-- Every turn lowers the level. -/
theorem workerStep_level (stepped : sys.workerStep = some next) :
    next.level < sys.level ∧ next.queue.reqs.length = sys.queue.reqs.length := by
  rw [workerStep] at stepped
  split at stepped
  · rename_i idle
    split at stepped
    · cases stepped
      refine ⟨?_, rfl⟩
      simp only [level, idle, Worker.turns]
      omega
    · split at stepped
      · rename_i opened
        cases stepped
        rcases sys.takeNext_cases with ⟨closed, _⟩ | ⟨passed, req, rest, parts, skipped, fresh, taken⟩
        · rw [closed]
          exact ⟨by simp [level, opened, IoQueue.pendingLocked], rfl⟩
        · -- the request is worth the four turns that are paid for it
          have skippedAll := List.countP_eq_zero.mpr (by simpa using skipped)
          have running : Req.isPending { req with status := .inFlight } = false := rfl
          rw [taken]
          refine ⟨?_, by simp [parts]⟩
          simp only [level, IoQueue.pendingLocked, parts, List.countP_append, List.countP_cons, fresh,
            skippedAll, running, idle, Worker.turns, ↓reduceIte, Bool.false_eq_true]
          omega
      · cases stepped
  · rename_i req reading
    split at stepped <;>
    · cases stepped
      refine ⟨?_, rfl⟩
      simp only [level, reading, Worker.turns]
      omega
  · rename_i req data writing
    cases stepped
    refine ⟨?_, rfl⟩
    simp only [level, writing, Worker.turns]
    omega
  · rename_i req ok finishing
    cases stepped
    have fewer : (sys.finish req ok).queue.pendingLocked ≤ sys.queue.pendingLocked :=
      setFirst_pending (by cases ok <;> decide) _
    have gate : (sys.finish req ok).queue.submitted.toNat ≤ sys.queue.submitted.toNat := by
      rcases finish_drained sys req ok with ⟨shut, _⟩ | kept
      · rw [shut]
        exact Nat.zero_le _
      · rw [kept]
    have idle : (sys.finish req ok).worker = .waiting := rfl
    refine ⟨?_, setFirst_length _⟩
    simp only [level, finishing, idle, Worker.turns]
    omega
  · cases stepped

/-- The worker is at work, and the gate is open for everything that it has to do. -/
structure Draining (sys : IoSystem) : Prop where
  split : ∃ before after, sys.Split before after
  running : sys.queue.stopping = false ∧ sys.worker ≠ .stopped
  gate : sys.queue.submitted = true ∨ sys.worker = .waiting ∧ sys.queue.pendingLocked = 0

/-- Starting a request makes it the one that is ahead. -/
theorem Split.drain_start (split : sys.Split before after) {passed rest : List Req} {req : Req}
    (idle : sys.worker = .waiting) (parts : sys.queue.reqs = passed ++ req :: rest)
    (skipped : ∀ other ∈ passed, other.isPending = false) (fresh : req.isPending = true)
    (result : next = { sys with
      queue := { sys.queue with
        reqs := passed ++ { req with status := .inFlight } :: rest, inFlight := sys.queue.inFlight + 1 }
      worker := .reading { req with status := .inFlight } }) : next.drain = sys.drain := by
  have started : next.Split passed rest :=
    split.start idle parts skipped fresh (by rw [result]) (by rw [result])
  -- nothing in front of it runs, so the request is the one that gets the outcome
  have others : ∀ ok, ∀ other ∈ passed, other.runningAs req.tag = ok → ok = false := by
    intro ok other member same
    have terminal := started.settled other member
    rw [← same, Req.runningAs, Bool.and_eq_false_iff]
    right
    cases status : other.status <;> simp_all [Status.terminal]
  have settled : ∀ status, setFirst (Req.runningAs req.tag) status
      (passed ++ { req with status := .inFlight } :: rest) = passed ++ { req with status } :: rest := by
    intro status
    rw [setFirst_skip _ (fun other member => others _ other member rfl), setFirst_here _ (by simp [Req.runningAs])]
  have whole : serve sys.vfs sys.mem sys.queue.reqs = serve sys.vfs (req.transfer sys.vfs sys.mem).1
      (passed ++ req.settle (req.transfer sys.vfs sys.mem).2 :: rest) := by
    rw [parts, serve_skip skipped, serve_skip skipped, serve_ahead fresh]
  rw [result]
  simp only [drain, handed, Worker.ahead, idle, whole, IoSystem.finish, settled]
  rfl

/-- A turn keeps what the queue comes to. -/
theorem Draining.turn (draining : sys.Draining) (stepped : sys.workerStep = some next) :
    next.Draining ∧ next.drain = sys.drain := by
  obtain ⟨before, after, split⟩ := draining.split
  have shaped := split.move (workerStep_move stepped)
  rw [workerStep] at stepped
  split at stepped
  · rename_i idle
    rw [if_neg (by simp [draining.running.1])] at stepped
    split at stepped
    · rename_i opened
      cases stepped
      rcases sys.takeNext_cases with ⟨closed, none⟩ | ⟨passed, req, rest, parts, skipped, fresh, taken⟩
      · rw [closed] at shaped ⊢
        refine ⟨⟨shaped, draining.running, Or.inr ⟨idle, pendingLocked_zero none⟩⟩, ?_⟩
        simp only [drain, handed, Worker.ahead, idle]
      · refine ⟨?_, split.drain_start idle parts skipped fresh taken⟩
        rw [taken] at shaped ⊢
        exact ⟨shaped, ⟨draining.running.1, by simp⟩, Or.inl opened⟩
    · cases stepped
  · rename_i req reading
    have opened := draining.gate.resolve_right (fun closed => by simp [reading] at closed)
    split at stepped <;>
    · rename_i slice
      cases stepped
      refine ⟨⟨shaped, ⟨draining.running.1, by simp⟩, Or.inl opened⟩, ?_⟩
      simp only [drain, handed, Worker.ahead, reading, Req.transfer, slice]
      rfl
  · rename_i req data writing
    have opened := draining.gate.resolve_right (fun closed => by simp [writing] at closed)
    cases stepped
    refine ⟨⟨shaped, ⟨draining.running.1, by simp⟩, Or.inl opened⟩, ?_⟩
    simp only [drain, handed, Worker.ahead, writing]
    rfl
  · rename_i req ok finishing
    have opened := draining.gate.resolve_right (fun closed => by simp [finishing] at closed)
    cases stepped
    refine ⟨⟨shaped, ⟨draining.running.1, by simp [finish]⟩, ?_⟩, ?_⟩
    · rcases finish_drained sys req ok with ⟨_, none⟩ | kept
      · exact Or.inr ⟨rfl, pendingLocked_zero none⟩
      · exact Or.inl (kept.trans opened)
    · simp only [drain, handed, Worker.ahead, finishing]
      rfl
  · cases stepped

/-- Without another turn there is nothing left to drain. -/
theorem Draining.stuck (draining : sys.Draining) (still : sys.workerStep = none) :
    sys.drain = sys ∧ 1 ≤ sys.level ∧ ∀ req ∈ sys.queue.reqs, req.status.terminal = true := by
  obtain ⟨before, after, split⟩ := draining.split
  rw [workerStep] at still
  split at still
  · rename_i idle
    rw [if_neg (by simp [draining.running.1])] at still
    split at still
    · cases still
    · rename_i closed
      obtain ⟨_, empty⟩ := draining.gate.resolve_left closed
      have passed : ∀ req ∈ sys.queue.reqs, req.isPending = false := by simpa using List.countP_eq_zero.mp empty
      have counted := split.counted
      rw [idle, Worker.current, List.length_nil] at counted
      refine ⟨?_, ?_, fun req member => split.all_terminal (by rw [idle]; rfl) passed member⟩
      · simp only [drain, handed, Worker.ahead, idle, serve_idle passed]
        rw [← idle, ← counted, ← Bool.eq_false_iff.mpr closed]
      · simp only [level, idle, Worker.turns]
        omega
  · split at still <;> cases still
  · cases still
  · cases still
  · rename_i stopped
    exact absurd stopped draining.running.2

/-! ## Whole runs -/

/-- Nobody else moves the worker, and nobody takes a stop back. -/
theorem step_other {action : Action} (other : action ≠ .worker) (stepped : sys.step action = some next) :
    next.worker = sys.worker ∧ (sys.queue.stopping = true → next.queue.stopping = true) := by
  have accepting : ∀ req waitForSlot, (sys.enqueueCommon req waitForSlot).1.worker = sys.worker ∧
      (sys.enqueueCommon req waitForSlot).1.queue.stopping = sys.queue.stopping := by
    intro req waitForSlot
    rw [enqueueCommon]
    split
    · exact ⟨rfl, rfl⟩
    · split
      · exact ⟨rfl, rfl⟩
      · split
        · split <;> exact ⟨rfl, rfl⟩
        · exact ⟨rfl, rfl⟩
  cases action with
  | worker => exact absurd rfl other
  | enqueue path srcOffset size dest tag =>
    cases stepped
    exact (accepting _ _).imp id (fun same told => same.trans told)
  | enqueueWait path srcOffset size dest tag =>
    cases stepped
    exact (accepting _ _).imp id (fun same told => same.trans told)
  | wake index =>
    rw [step, wakeWaiter] at stepped
    split at stepped
    · cases stepped
    · split at stepped <;> cases stepped <;> exact ⟨rfl, id⟩
  | submit =>
    cases stepped
    rw [IoQueue.submit]
    split <;> exact ⟨rfl, id⟩
  | stop =>
    cases stepped
    exact ⟨rfl, fun _ => rfl⟩
  | cancel _ | setAutoSubmitEnabled _ | files _ | memory _ =>
    cases stepped
    exact ⟨rfl, id⟩

/-- The worker stops only when it was told to. -/
theorem workerStep_stopping (stepped : sys.workerStep = some next) :
    next.queue.stopping = sys.queue.stopping ∧ (next.worker = .stopped → sys.queue.stopping = true) := by
  rw [workerStep] at stepped
  split at stepped
  · rename_i idle
    split at stepped
    · rename_i told
      cases stepped
      exact ⟨rfl, fun _ => told⟩
    · split at stepped
      · cases stepped
        rw [takeNext]
        split
        · exact ⟨rfl, fun stopped => by simp [idle] at stopped⟩
        · exact ⟨rfl, by simp⟩
      · cases stepped
  · split at stepped <;> cases stepped <;> exact ⟨rfl, by simp⟩
  · cases stepped
    exact ⟨rfl, by simp⟩
  · cases stepped
    exact ⟨rfl, by simp [finish]⟩
  · cases stepped

/-- A worker that has stopped was told to. -/
theorem stopped_told {mem : MemMap} {vfs : Vfs} {actions : List Action}
    (reached : Runs.run step { mem, vfs } actions = some sys) (stopped : sys.worker = .stopped) :
    sys.queue.stopping = true := by
  have kept : ∀ state action next, (state.worker = .stopped → state.queue.stopping = true) →
      step state action = some next → next.worker = .stopped → next.queue.stopping = true := by
    intro state action next told stepped ended
    by_cases turn : action = .worker
    · rw [turn] at stepped
      exact (workerStep_stopping stepped).1.trans ((workerStep_stopping stepped).2 ended)
    · obtain ⟨same, lasts⟩ := step_other turn stepped
      exact lasts (told (same ▸ ended))
  exact Runs.run_preserves kept _ _ _ (fun waiting => by cases waiting) reached stopped

/-- With the gate open, a few turns of the worker alone settle everything, as if each request were carried
out at once, and close the gate.

Proof: each turn of the worker lowers the level of the queue and leaves what carrying out all
requests at once would come to. When no turn is left, that has been reached. -/
theorem submitted_drains (mem : MemMap) (vfs : Vfs) (actions : List Action) (sys : IoSystem)
    (reached : Runs.run step { mem, vfs } actions = some sys) (opened : sys.queue.submitted = true)
    (running : sys.queue.stopping = false) :
    (∃ turns, turns ≤ 4 * (sys.queue.pendingLocked + sys.queue.inFlight) + 1 ∧
      Runs.run step sys (List.replicate turns .worker) = some sys.drain) ∧
      sys.drain.queue.drained = true ∧ ∀ req ∈ sys.drain.queue.reqs, req.status.terminal = true := by
  obtain ⟨before, after, split⟩ := split_of_run reached
  have working : sys.worker ≠ .stopped := by
    intro stopped
    rw [stopped_told reached stopped] at running
    cases running
  have draining : sys.Draining := ⟨⟨before, after, split⟩, ⟨running, working⟩, Or.inl opened⟩
  have lowers : ∀ state next, state.Draining → step state .worker = some next →
      next.Draining ∧ next.level < state.level ∧ next.drain = state.drain :=
    fun state next holds stepped =>
      ⟨(holds.turn stepped).1, (workerStep_level stepped).1, (holds.turn stepped).2⟩
  obtain ⟨turns, final, completed, stuck, few, kept, same⟩ := Runs.repeated lowers sys draining
  obtain ⟨settled, left, terminal⟩ := kept.stuck stuck
  have drained : final = sys.drain := settled.symm.trans same
  refine ⟨⟨turns, ?_, drained ▸ completed⟩, rfl, drained ▸ terminal⟩
  have ahead : sys.worker.turns ≤ 4 * sys.worker.current.length + 1 := by
    cases sys.worker <;> simp [Worker.turns, Worker.current]
  rw [← split.counted] at ahead
  simp only [level, opened, Bool.toNat_true] at few left
  omega

/-- Two requests of a full run are settled; the third, which is being read, is copied by the next turns. -/
theorem threeReads_drained : ∃ sys, Runs.run step { mem := onePage, vfs := payloadFile } threeReads = some sys ∧
    sys.drain.queue.reqs.map Req.status = [.done, .cancelled, .done] ∧
    [0x1000, 0x1001, 0x1004, 0x1005].map sys.drain.mem.bytes = [1, 2, 2, 3] ∧
    (∃ turns, turns ≤ 4 * (sys.queue.pendingLocked + sys.queue.inFlight) + 1 ∧
      Runs.run step sys (List.replicate turns .worker) = some sys.drain) ∧
      sys.drain.queue.drained = true ∧ ∀ req ∈ sys.drain.queue.reqs, req.status.terminal = true := by
  have evaluated : (Runs.run step { mem := onePage, vfs := payloadFile } threeReads).map
      (fun sys => (sys.drain.queue.reqs.map Req.status, [0x1000, 0x1001, 0x1004, 0x1005].map sys.drain.mem.bytes,
        sys.queue.submitted, sys.queue.stopping)) =
      some ([.done, .cancelled, .done], [1, 2, 2, 3], true, false) := by decide +kernel
  obtain ⟨sys, reached, same⟩ := Option.map_eq_some_iff.mp evaluated
  simp only [Prod.mk.injEq] at same
  exact ⟨sys, reached, same.1, same.2.1, submitted_drains _ _ _ sys reached same.2.2.1 same.2.2.2⟩

/-! ## No turn is wasted -/

/-- A turn of the worker. -/
def turn (_ : IoSystem) (action : Action) : Nat := if action = .worker then 1 else 0

/-- A step that opens the gate. -/
def opening (sys : IoSystem) (action : Action) : Nat :=
  match sys.step action with
  | none => 0
  | some next => if sys.queue.submitted = false ∧ next.queue.submitted = true then 1 else 0

/-- What a step costs the worker is paid for: four turns by a new request, one by an opening. -/
theorem step_paid {action : Action} (stepped : sys.step action = some next) :
    turn sys action + next.level + 4 * sys.queue.reqs.length ≤
      sys.level + 4 * next.queue.reqs.length + opening sys action := by
  by_cases own : action = .worker
  · rw [own] at stepped
    obtain ⟨lower, same⟩ := workerStep_level stepped
    rw [turn, if_pos own, same]
    omega
  · obtain ⟨still, _⟩ := step_other own stepped
    rw [turn, if_neg own, opening, stepped]
    cases step_move stepped with
    | keep reqs inFlight submitted current =>
      simp only [level, IoQueue.pendingLocked, reqs, submitted, still]
      omega
    | accept req room queue worker =>
      have one := push_pendingLocked sys.queue req
      have longer : (sys.queue.push req).reqs.length = sys.queue.reqs.length + 1 := by simp [push]
      simp only [level, queue, still, one, longer]
      cases was : sys.queue.submitted <;> cases is : (sys.queue.push req).submitted <;> simp <;> omega
    | cancel tag queue worker =>
      have fewer : (sys.queue.cancel tag).1.pendingLocked ≤ sys.queue.pendingLocked := setFirst_pending (by decide) _
      have same : (sys.queue.cancel tag).1.reqs.length = sys.queue.reqs.length := setFirst_length _
      have gate : (sys.queue.cancel tag).1.submitted = sys.queue.submitted := rfl
      simp only [level, queue, still, same, gate]
      omega
    | submit closed queue worker =>
      simp [level, queue, still, closed, IoQueue.pendingLocked]
      omega
    | close idle opened drained queue worker =>
      simp [level, queue, still, opened, IoQueue.pendingLocked]
    | start passed req rest idle opened parts skipped fresh queue worker =>
      rw [idle, worker] at still
      cases still
    | finish req ok finishing result =>
      rw [result, finishing] at still
      cases still

/-- **The worker never spins.** In every run it has at most four turns for each request that was
accepted, one for each opening of the gate and the one that stops it.

Proof: a turn pays with the level of the queue. A request raises the level by four and an opening by
one, and it starts at one. -/
theorem worker_turns (mem : MemMap) (vfs : Vfs) (actions : List Action) (sys : IoSystem)
    (reached : Runs.run step { mem, vfs } actions = some sys) :
    Runs.total step turn { mem, vfs } actions ≤
      4 * sys.queue.reqs.length + Runs.total step opening { mem, vfs } actions + 1 := by
  have paid : ∀ state action next, step state action = some next →
      turn state action + next.level + 4 * state.queue.reqs.length ≤
        state.level + 4 * next.queue.reqs.length + opening state action :=
    fun _ _ _ stepped => step_paid stepped
  have bounded := @Runs.total_paid IoSystem Action step level (fun sys => 4 * sys.queue.reqs.length) turn opening paid
    { mem, vfs } sys actions reached
  have start : level { mem, vfs } = 1 := rfl
  have empty : ({ mem, vfs } : IoSystem).queue.reqs.length = 0 := rfl
  omega

/-- The turns of one schedule are within their bound. -/
theorem drainedOnce_turns : ∃ sys, Runs.run step { mem := onePage, vfs := payloadFile } drainedOnce = some sys ∧
    Runs.total step turn { mem := onePage, vfs := payloadFile } drainedOnce = 7 ∧
    Runs.total step turn { mem := onePage, vfs := payloadFile } drainedOnce ≤
      4 * sys.queue.reqs.length + Runs.total step opening { mem := onePage, vfs := payloadFile } drainedOnce + 1 := by
  have completes : (Runs.run step { mem := onePage, vfs := payloadFile } drainedOnce).isSome = true := by
    decide +kernel
  obtain ⟨sys, reached⟩ := Option.isSome_iff_exists.mp completes
  exact ⟨sys, reached, by decide +kernel, worker_turns _ _ _ sys reached⟩

end IoSystem

end SeriesxEmu
