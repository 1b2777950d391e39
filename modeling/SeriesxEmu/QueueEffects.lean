import SeriesxEmu.QueueOrder

/-!
# What the queue does to memory

Only the worker's write changes memory, once for each request whose slice was read
and whose destination could be written. An observer notes for every request the
slice its file held when the worker read it, and where its destination was backed
when the worker wrote it; replaying the requests that are done, in the order of the
queue, then gives the memory in every state of every run.
-/

namespace SeriesxEmu

open IoQueue

/-- The write has landed and the status is still to come. -/
def IoQueue.Worker.wrote : Worker → Bool
  | .finishing _ ok => ok
  | .waiting | .reading _ | .writing _ _ | .stopped => false

/-- Other operations on the memory change its layout. -/
theorem MemMap.exec_bytes (mem : MemMap) (op : MemMap.Op)
    (other : ∀ addr source, op ≠ .writeBytes addr source) : (mem.exec op).1.bytes = mem.bytes := by
  cases op with
  | writeBytes addr source => exact absurd rfl (other addr source)
  | reserve =>
    rw [MemMap.exec, MemMap.reserve]
    split <;> rfl
  | commitPage addr =>
    rw [MemMap.exec, MemMap.commitPage]
    split <;> rfl
  | commitRange addr size =>
    rw [MemMap.exec, MemMap.commitRange]
    split <;> rfl
  | protect addr size prot =>
    rw [MemMap.exec, MemMap.protect]
    split <;> rfl
  | aliasMap dst src size =>
    rw [MemMap.exec, MemMap.aliasMap]
    split
    · rfl
    · split
      · rfl
      · split <;> rfl
  | aliasUnmap dst => rfl

namespace IoSystem

variable {sys next : IoSystem}

/-! ## The record and its replay -/

/-- For every place in the queue, the slice that was read for the request there and the
address its destination was backed by. -/
structure Journal where
  slices : Nat → List UInt8 := fun _ => []
  places : Nat → Nat := fun _ => 0

/-- What a request has read. -/
def Journal.noteSlice (journal : Journal) (index : Nat) (slice : List UInt8) : Journal :=
  { journal with slices := Function.update journal.slices index slice }

/-- Where its bytes have been put. -/
def Journal.notePlace (journal : Journal) (index place : Nat) : Journal :=
  { journal with places := Function.update journal.places index place }

/-- The slice that is noted is there. -/
theorem Journal.slices_noteSlice (journal : Journal) (index : Nat) (slice : List UInt8) :
    (journal.noteSlice index slice).slices index = slice := Function.update_self _ _ _

/-- So is the place. -/
theorem Journal.places_notePlace (journal : Journal) (index place : Nat) :
    (journal.notePlace index place).places index = place := Function.update_self _ _ _

/-- The request is in flight. -/
def isRunning (req : Req) : Bool := req.status == .inFlight

/-- The place of the request in flight. -/
def runningIndex (sys : IoSystem) : Nat := sys.queue.reqs.findIdx isRunning

/-- The slice of the request in flight, as its file is now. -/
def runningSlice (sys : IoSystem) : List UInt8 :=
  match sys.queue.reqs.find? isRunning with
  | some req => (sys.vfs.readSlice req.path req.srcOffset req.size).getD []
  | none => []

/-- The backing of the destination of the request in flight, as the memory is laid out now. -/
def runningPlace (sys : IoSystem) : Nat :=
  match sys.queue.reqs.find? isRunning with
  | some req => sys.mem.resolveAlias req.dest req.size
  | none => 0

/-- Note the slice when the worker reads it and the place when the worker writes it. -/
def noteEffects (sys : IoSystem) (action : Action) (_ : IoSystem) (journal : Journal) : Journal :=
  match action, sys.worker with
  | .worker, .reading _ => journal.noteSlice sys.runningIndex sys.runningSlice
  | .worker, .writing _ _ => journal.notePlace sys.runningIndex sys.runningPlace
  | _, _ => journal

/-- The request counts as done. -/
def landed (worker : Worker) (req : Req) : Bool :=
  match req.status with
  | .done => true
  | .inFlight => worker.wrote
  | .pending | .cancelled | .error => false

/-- Write the slices of the requests that count as done, from the given place on. -/
def replay (journal : Journal) : Nat → List Bool → (Nat → UInt8) → (Nat → UInt8)
  | _, [], bytes => bytes
  | index, counts :: rest, bytes => replay journal (index + 1) rest
      (if counts then MemMap.store bytes (journal.places index) (journal.slices index) else bytes)

/-- The memory that the requests so far have left behind. -/
def effect (initial : Nat → UInt8) (sys : IoSystem) (journal : Journal) : Nat → UInt8 :=
  replay journal 0 (sys.queue.reqs.map (landed sys.worker)) initial

/-- A replay goes on where its first part has stopped. -/
theorem replay_append (journal : Journal) (index : Nat) (front back : List Bool) (bytes : Nat → UInt8) :
    replay journal index (front ++ back) bytes =
      replay journal (index + front.length) back (replay journal index front bytes) := by
  induction front generalizing index bytes with
  | nil => rfl
  | cons counts rest inductionHypothesis =>
    rw [List.cons_append, replay, inductionHypothesis, replay, List.length_cons]
    congr 1
    omega

/-- Requests that do not count leave the memory alone. -/
theorem replay_none {journal : Journal} {index : Nat} {flags : List Bool} {bytes : Nat → UInt8}
    (uncounted : ∀ counts ∈ flags, counts = false) : replay journal index flags bytes = bytes := by
  induction flags generalizing index with
  | nil => rfl
  | cons counts rest inductionHypothesis =>
    rw [replay, uncounted counts List.mem_cons_self]
    exact inductionHypothesis (fun other member => uncounted other (List.mem_cons_of_mem _ member))

/-- Only the notes about the replayed places matter. -/
theorem replay_congr {journal other : Journal} {index : Nat} {flags : List Bool} {bytes : Nat → UInt8}
    (same : ∀ place, index ≤ place → place < index + flags.length →
      other.slices place = journal.slices place ∧ other.places place = journal.places place) :
    replay other index flags bytes = replay journal index flags bytes := by
  induction flags generalizing index bytes with
  | nil => rfl
  | cons counts rest inductionHypothesis =>
    have here := same index (Nat.le_refl _) (by simp)
    rw [replay, replay, here.1, here.2]
    refine inductionHypothesis (fun place low high => same place (by omega) ?_)
    rw [List.length_cons]
    omega

/-- The last request that counts is written last. -/
theorem replay_last {journal : Journal} {front back : List Bool} {bytes : Nat → UInt8} (counts : Bool)
    (uncounted : ∀ later ∈ back, later = false) : replay journal 0 (front ++ counts :: back) bytes =
      if counts then MemMap.store (replay journal 0 front bytes) (journal.places front.length)
        (journal.slices front.length)
      else replay journal 0 front bytes := by
  rw [replay_append, replay, replay_none uncounted, Nat.zero_add]

/-! ## Which requests count -/

/-- Whether a request has landed depends on whether the worker has written. -/
theorem landed_congr {worker other : Worker} (same : other.wrote = worker.wrote) : landed other = landed worker := by
  funext req
  rw [landed, landed, same]

/-- A status that says the same leaves the flags alone. -/
theorem setFirst_landed {wanted : Req → Bool} {status : Status} {worker : Worker} (reqs : List Req)
    (same : ∀ req, wanted req = true → landed worker { req with status } = landed worker req) :
    (setFirst wanted status reqs).map (landed worker) = reqs.map (landed worker) := by
  induction reqs with
  | nil => rfl
  | cons req rest inductionHypothesis =>
    rw [setFirst]
    split
    · rename_i found
      rw [List.map_cons, same req found, List.map_cons]
    · rw [List.map_cons, inductionHypothesis, List.map_cons]

variable {before after : List Req}

/-- What has not been started has not landed. -/
theorem Split.unstarted_flags (split : sys.Split before after) (worker : Worker) :
    ∀ counts ∈ after.map (landed worker), counts = false := by
  intro counts member
  obtain ⟨req, known, rfl⟩ := List.mem_map.mp member
  have unstarted := split.unstarted req known
  rw [landed]
  cases status : req.status <;> simp_all [Status.unstarted]

/-- Settled requests count whatever the worker does. -/
theorem Split.settled_flags (split : sys.Split before after) (worker other : Worker) :
    before.map (landed other) = before.map (landed worker) := by
  refine List.map_congr_left (fun req member => ?_)
  have terminal := split.settled req member
  rw [landed, landed]
  cases status : req.status <;> simp_all [Status.terminal]

/-- A step that leaves the worker where it is leaves the settled requests where they are. -/
theorem Split.still (split : sys.Split before after) (move : Move sys next) (worker : next.worker = sys.worker) :
    ∃ later, next.Split before later := by
  cases move with
  | keep reqs inFlight submitted current => exact ⟨_, split.congr reqs inFlight current⟩
  | accept req room queue same => exact ⟨_, split.accept room queue same⟩
  | cancel tag queue same => exact ⟨_, split.cancel queue same⟩
  | submit closed queue same => exact ⟨_, split.congr (by rw [queue]) (by rw [queue]) (by rw [same])⟩
  | close idle opened drained queue same =>
    exact ⟨_, split.congr (by rw [queue]) (by rw [queue]) (by rw [same])⟩
  | start passed req rest idle opened parts skipped fresh queue started =>
    rw [started, idle] at worker
    cases worker
  | finish req ok finishing result =>
    rw [result, finishing] at worker
    cases worker

/-- Nor does it change which requests count. -/
theorem Move.still (move : Move sys next) (worker : next.worker = sys.worker) :
    ∃ added, next.queue.reqs.map (landed next.worker) = sys.queue.reqs.map (landed sys.worker) ++ added ∧
      ∀ counts ∈ added, counts = false := by
  rw [worker]
  cases move with
  | keep reqs inFlight submitted current => exact ⟨[], by rw [reqs, List.append_nil], by simp⟩
  | accept req room queue same =>
    refine ⟨[false], ?_, by simp⟩
    rw [queue, push, List.map_append]
    rfl
  | cancel tag queue same =>
    refine ⟨[], ?_, by simp⟩
    rw [queue, List.append_nil]
    refine setFirst_landed _ (fun req found => ?_)
    rw [Req.pendingAs, Bool.and_eq_true, beq_iff_eq, beq_iff_eq] at found
    rw [landed, landed, found.2]
  | submit closed queue same => exact ⟨[], by rw [queue, List.append_nil], by simp⟩
  | close idle opened drained queue same => exact ⟨[], by rw [queue, List.append_nil], by simp⟩
  | start passed req rest idle opened parts skipped fresh queue started =>
    rw [started, idle] at worker
    cases worker
  | finish req ok finishing result =>
    rw [result, finishing] at worker
    cases worker

/-- The request in flight is the one the worker has started. -/
theorem Split.found (split : sys.Split before after) {req : Req} (current : sys.worker.current = [req]) :
    sys.queue.reqs.find? isRunning = some req ∧ sys.runningIndex = before.length := by
  have passed : ∀ other ∈ before, isRunning other = false := by
    intro other member
    have terminal := split.settled other member
    cases status : other.status <;> simp_all [Status.terminal, isRunning]
  have here : isRunning req = true := by
    simp [isRunning, split.running req (current ▸ List.mem_singleton_self req)]
  have reqs : sys.queue.reqs = before ++ req :: after := by
    rw [split.reqs, current, List.append_assoc]
    rfl
  constructor
  · rw [reqs, List.find?_append, List.find?_eq_none.mpr (by simpa using passed), Option.none_or, List.find?_cons, here]
  · rw [runningIndex, reqs, List.findIdx_append, List.findIdx_eq_length_of_false passed, if_neg (Nat.lt_irrefl _),
      List.findIdx_cons, here, cond_true, Nat.zero_add]

/-! ## The steps of the clients -/

/-- The memory is what the requests that count have made of it, and the worker carries the
slice that was noted. -/
structure Effected (initial : Nat → UInt8) (sys : IoSystem) (journal : Journal) : Prop where
  bytes : sys.mem.bytes = effect initial sys journal
  carried : ∀ req data, sys.worker = .writing req data →
    data.length = req.size ∧ journal.slices sys.runningIndex = data

variable {initial : Nat → UInt8} {journal : Journal}

/-- A step that touches neither memory nor the worker leaves the record true. -/
theorem Effected.still (effected : Effected initial sys journal) (split : sys.Split before after)
    (move : Move sys next) (worker : next.worker = sys.worker) (bytes : next.mem.bytes = sys.mem.bytes) :
    Effected initial next journal := by
  constructor
  · obtain ⟨added, flags, none⟩ := move.still worker
    rw [bytes, effected.bytes, effect, effect, flags, replay_append, replay_none none]
  · intro req data writing
    obtain ⟨later, nextSplit⟩ := split.still move worker
    have earlier := worker ▸ writing
    have current : sys.worker.current = [req] := by rw [earlier]; rfl
    have nextCurrent : next.worker.current = [req] := by rw [writing]; rfl
    rw [(nextSplit.found nextCurrent).2, ← (split.found current).2]
    exact effected.carried req data earlier

/-- Nobody but the worker writes guest memory. -/
def OnlyWorkerWrites (_ : IoSystem) (action : Action) : Prop :=
  ∀ addr source, action ≠ .memory (.writeBytes addr source)

/-- An enqueue is such a step. -/
theorem enqueueCommon_still (sys : IoSystem) (req : Req) (waitForSlot : Bool) :
    (sys.enqueueCommon req waitForSlot).1.worker = sys.worker ∧
      (sys.enqueueCommon req waitForSlot).1.mem = sys.mem := by
  rw [enqueueCommon]
  split
  · exact ⟨rfl, rfl⟩
  · split
    · exact ⟨rfl, rfl⟩
    · split
      · split <;> exact ⟨rfl, rfl⟩
      · exact ⟨rfl, rfl⟩

/-- The steps of clients and title move neither the worker nor a byte. -/
theorem step_still {action : Action} (other : action ≠ .worker) (allowed : OnlyWorkerWrites sys action)
    (stepped : sys.step action = some next) : next.worker = sys.worker ∧ next.mem.bytes = sys.mem.bytes := by
  cases action with
  | worker => exact absurd rfl other
  | enqueue path srcOffset size dest tag =>
    cases stepped
    have still := enqueueCommon_still sys { path, srcOffset, size, dest, tag } false
    exact ⟨still.1, by rw [still.2]⟩
  | enqueueWait path srcOffset size dest tag =>
    cases stepped
    have still := enqueueCommon_still sys { path, srcOffset, size, dest, tag } true
    exact ⟨still.1, by rw [still.2]⟩
  | wake index =>
    rw [step, wakeWaiter] at stepped
    split at stepped
    · cases stepped
    · split at stepped <;> cases stepped <;> exact ⟨rfl, rfl⟩
  | memory op =>
    cases stepped
    exact ⟨rfl, MemMap.exec_bytes _ op (fun addr source same => allowed addr source (by rw [same]))⟩
  | cancel _ | submit | setAutoSubmitEnabled _ | stop | files _ =>
    cases stepped
    exact ⟨rfl, rfl⟩

/-! ## The steps of the worker -/

/-- A slice has the length that was asked for. -/
theorem readSlice_length {vfs : Vfs} {path : List Char} {offset size : Nat} {data : List UInt8}
    (read : vfs.readSlice path offset size = some data) : data.length = size := by
  rw [Vfs.readSlice] at read
  split at read
  · cases read
  · split at read
    · cases read
    · split at read
      · cases read
      · rename_i inside
        cases read
        simp only [Bool.or_eq_true, decide_eq_true_eq, not_or, Nat.not_lt] at inside
        rw [List.length_take, List.length_drop]
        omega

/-- The queue with the request the worker is at, and what counts in it. -/
theorem Split.flags (split : sys.Split before after) {req : Req} (current : sys.worker.current = [req])
    (worker : Worker) : sys.queue.reqs.map (landed worker) =
      before.map (landed sys.worker) ++ landed worker req :: after.map (landed worker) := by
  rw [split.reqs, current, List.map_append, List.map_append, split.settled_flags sys.worker worker, List.append_assoc]
  rfl

/-- The request in flight has landed once the worker has written. -/
theorem Split.flag_running (split : sys.Split before after) {req : Req} (current : sys.worker.current = [req])
    (worker : Worker) : landed worker req = worker.wrote := by
  rw [landed, split.running req (current ▸ List.mem_singleton_self req)]

/-- What the settled requests alone have made of the memory. -/
theorem Split.effect_running (split : sys.Split before after) {req : Req} (current : sys.worker.current = [req]) :
    effect initial sys journal =
      if sys.worker.wrote then MemMap.store (replay journal 0 (before.map (landed sys.worker)) initial)
        (journal.places before.length) (journal.slices before.length)
      else replay journal 0 (before.map (landed sys.worker)) initial := by
  rw [effect, split.flags current, replay_last _ (split.unstarted_flags sys.worker), split.flag_running current,
    List.length_map]

/-- Notes about the request in flight do not touch the settled ones. -/
theorem replay_noteSlice {flags : List Bool} {index : Nat} (settled : flags.length ≤ index) (slice : List UInt8) :
    replay (journal.noteSlice index slice) 0 flags initial = replay journal 0 flags initial := by
  refine replay_congr (fun place _ below => ⟨Function.update_of_ne ?_ _ _, rfl⟩)
  omega

/-- A place that is not replayed yet does not matter. -/
theorem replay_notePlace {flags : List Bool} {index : Nat} (settled : flags.length ≤ index) (address : Nat) :
    replay (journal.notePlace index address) 0 flags initial = replay journal 0 flags initial := by
  refine replay_congr (fun place _ below => ⟨rfl, Function.update_of_ne ?_ _ _⟩)
  omega

/-- Taking a request changes no memory. -/
theorem Effected.take (effected : Effected initial sys journal) (split : sys.Split before after)
    (idle : sys.worker = .waiting) (opened : sys.queue.submitted = true) : Effected initial sys.takeNext journal := by
  have move := takeNext_move idle opened
  cases found : sys.queue.reqs.find? Req.isPending with
  | none =>
    have same : sys.takeNext.worker = sys.worker ∧ sys.takeNext.mem.bytes = sys.mem.bytes := by
      rw [takeNext, found]
      exact ⟨rfl, rfl⟩
    exact effected.still split move same.1 same.2
  | some req =>
    rw [takeNext, found]
    constructor
    · have quiet : landed (.reading { req with status := .inFlight }) = landed sys.worker :=
        landed_congr (by rw [idle]; rfl)
      have flags : (setFirst Req.isPending .inFlight sys.queue.reqs).map (landed sys.worker) =
          sys.queue.reqs.map (landed sys.worker) := by
        refine setFirst_landed _ (fun other pending => ?_)
        rw [landed, landed, isPending_iff.mp pending, idle]
        rfl
      simp only [effect, quiet, flags]
      exact effected.bytes
    · intro _ _ writing
      cases writing

/-- Reading its slice does not, either, and notes it. -/
theorem Effected.read (effected : Effected initial sys journal) (split : sys.Split before after) {req : Req}
    (reading : sys.worker = .reading req) (worker : Worker) (quiet : worker.wrote = false)
    (carries : ∀ other data, worker = .writing other data →
      other = req ∧ sys.vfs.readSlice req.path req.srcOffset req.size = some data) :
    Effected initial { sys with worker } (journal.noteSlice sys.runningIndex sys.runningSlice) := by
  have current : sys.worker.current = [req] := by rw [reading]; rfl
  obtain ⟨running, place⟩ := split.found current
  have flags := split.flags current worker
  constructor
  · have earlier : sys.worker.wrote = false := by rw [reading]; rfl
    have settled : effect initial sys journal = replay journal 0 (before.map (landed sys.worker)) initial := by
      rw [split.effect_running current, earlier]
      rfl
    rw [effect]
    simp only [flags]
    rw [replay_last _ (split.unstarted_flags worker), split.flag_running current worker, quiet, effected.bytes, settled]
    refine (replay_noteSlice ?_ _).symm
    rw [List.length_map, place]
  · intro other data writing
    obtain ⟨rfl, read⟩ := carries other data writing
    refine ⟨readSlice_length read, ?_⟩
    refine (journal.slices_noteSlice sys.runningIndex sys.runningSlice).trans ?_
    simp only [runningSlice, running, read, Option.getD_some]

/-- Writing it lands the request, and nothing else. -/
theorem Effected.write (effected : Effected initial sys journal) (split : sys.Split before after) {req : Req}
    {data : List UInt8} (writing : sys.worker = .writing req data) :
    Effected initial { sys with
      mem := (sys.mem.writeBytes req.dest data).1, worker := .finishing req (sys.mem.writeBytes req.dest data).2 }
      (journal.notePlace sys.runningIndex sys.runningPlace) := by
  have current : sys.worker.current = [req] := by rw [writing]; rfl
  obtain ⟨running, place⟩ := split.found current
  obtain ⟨length, slice⟩ := effected.carried req data writing
  have earlier : sys.worker.wrote = false := by rw [writing]; rfl
  have settled : sys.mem.bytes = replay journal 0 (before.map (landed sys.worker)) initial := by
    rw [effected.bytes, split.effect_running current, earlier]
    rfl
  constructor
  · have kept : replay (journal.notePlace sys.runningIndex sys.runningPlace) 0 (before.map (landed sys.worker))
        initial = sys.mem.bytes := by
      rw [settled]
      refine replay_notePlace ?_ _
      rw [List.length_map, place]
    have noted : (journal.notePlace sys.runningIndex sys.runningPlace).places sys.runningIndex =
        sys.mem.resolveAlias req.dest data.length := by
      rw [Journal.places_notePlace, runningPlace, running, length]
    have carried : (journal.notePlace sys.runningIndex sys.runningPlace).slices sys.runningIndex = data := slice
    rw [effect]
    simp only [split.flags current]
    rw [replay_last _ (split.unstarted_flags _), split.flag_running current, Worker.wrote, kept, List.length_map,
      ← place, noted, carried, MemMap.writeBytes]
    split <;> rfl
  · intro _ _ again
    cases again

/-- A request that is finished keeps its flag. -/
theorem Effected.finish (effected : Effected initial sys journal) (split : sys.Split before after) {req : Req}
    {ok : Bool} (finishing : sys.worker = .finishing req ok) : Effected initial (sys.finish req ok) journal := by
  have current : sys.worker.current = [req] := by rw [finishing]; rfl
  have later := split.finish finishing
  have idle : (sys.finish req ok).worker.current = [] := rfl
  constructor
  · have reqs := later.reqs
    rw [idle, List.append_nil, List.append_assoc, List.singleton_append] at reqs
    have flag : landed .waiting { req with status := if ok then .done else .error } = sys.worker.wrote := by
      rw [finishing]
      cases ok <;> rfl
    have worker : (sys.finish req ok).worker = .waiting := rfl
    have bytes : (sys.finish req ok).mem.bytes = sys.mem.bytes := rfl
    rw [bytes, effected.bytes, split.effect_running current, effect, reqs, List.map_append, List.map_cons, worker, flag,
      replay_last _ (split.unstarted_flags _), List.length_map, split.settled_flags sys.worker .waiting]
  · intro _ _ writing
    cases writing

/-- Every turn of the worker keeps the record true. -/
theorem Effected.worker (effected : Effected initial sys journal) (split : sys.Split before after)
    (stepped : sys.workerStep = some next) : Effected initial next (noteEffects sys .worker next journal) := by
  rw [workerStep] at stepped
  cases position : sys.worker with
  | waiting =>
    simp only [noteEffects, position] at stepped ⊢
    split at stepped
    · cases stepped
      constructor
      · have quiet : landed .stopped = landed sys.worker := landed_congr (by rw [position]; rfl)
        rw [effect]
        simp only [quiet]
        exact effected.bytes
      · intro _ _ writing
        cases writing
    · split at stepped
      · rename_i opened
        cases stepped
        exact effected.take split position opened
      · cases stepped
  | reading req =>
    simp only [noteEffects, position] at stepped ⊢
    split at stepped
    · rename_i data read
      cases stepped
      refine effected.read split position _ rfl (fun other carried writing => ?_)
      cases writing
      exact ⟨rfl, read⟩
    · cases stepped
      refine effected.read split position _ rfl (fun other carried writing => ?_)
      cases writing
  | writing req data =>
    simp only [noteEffects, position] at stepped ⊢
    cases stepped
    exact effected.write split position
  | finishing req ok =>
    simp only [noteEffects, position] at stepped ⊢
    cases stepped
    exact effected.finish split position
  | stopped =>
    simp only [position] at stepped
    cases stepped

/-- Every step does, if only the worker writes. -/
theorem Effected.step (effected : Effected initial sys journal) (split : sys.Split before after) {action : Action}
    (allowed : OnlyWorkerWrites sys action) (stepped : sys.step action = some next) :
    Effected initial next (noteEffects sys action next journal) := by
  by_cases works : action = .worker
  · subst works
    exact effected.worker split stepped
  · have nothing : noteEffects sys action next journal = journal := by
      cases action with
      | worker => exact absurd rfl works
      | enqueue _ _ _ _ _ | enqueueWait _ _ _ _ _ | wake _ | cancel _ | submit | setAutoSubmitEnabled _ | stop
      | files _ | memory _ => rfl
    obtain ⟨worker, bytes⟩ := step_still works allowed stepped
    rw [nothing]
    exact effected.still split (step_move stepped) worker bytes

/-- **The effect of the queue.** As long as only the worker writes guest memory, memory is
in every state what the requests that are done, in the order of the queue, have written:
each one its slice as the file was when it was read, at its destination.

Proof: every turn of the worker stores one slice and notes it, so the memory is the replay of the
notes. Nothing else may write. -/
theorem memory_effect (mem : MemMap) (vfs : Vfs) (actions : List Action) (sys : IoSystem) (journal : Journal)
    (exclusive : Runs.Along step OnlyWorkerWrites { mem, vfs } actions)
    (reached : Runs.run (Runs.watch step noteEffects) ({ mem, vfs }, {}) actions = some (sys, journal)) :
    sys.mem.bytes = effect mem.bytes sys journal := by
  have preserved : ∀ state notes action next,
      ((∃ before after, Split state before after) ∧ Effected mem.bytes state notes) →
      OnlyWorkerWrites state action → step state action = some next →
      (∃ before after, Split next before after) ∧ Effected mem.bytes next (noteEffects state action next notes) := by
    rintro state notes action next ⟨⟨before, after, split⟩, effected⟩ allowed stepped
    exact ⟨split.move (step_move stepped), effected.step split allowed stepped⟩
  have initial : (∃ before after, Split { mem, vfs } before after) ∧ Effected mem.bytes { mem, vfs } {} := by
    refine ⟨⟨[], [], split_start mem vfs⟩, rfl, ?_⟩
    intro _ _ writing
    cases writing
  exact (Runs.watch_invariant preserved initial exclusive reached).2.bytes

/-- The file changes between the read and the write of the first request, the second one
is cancelled, the third asks for bytes that the file does not have. -/
def changingFile : List Action :=
  [.enqueue payload 0 2 0x1000 1, .enqueue payload 1 2 0x1004 2, .enqueue payload 3 2 0x1008 3, .submit, .worker,
    .worker, .files (.writeFile payload [9, 9, 9, 9]), .cancel 2, .worker, .worker, .worker, .worker, .worker]

instance (sys : IoSystem) : (action : Action) → Decidable (OnlyWorkerWrites sys action)
  | .memory (.writeBytes addr source) => .isFalse (fun exclusive => exclusive addr source rfl)
  | .memory .reserve | .memory (.commitPage _) | .memory (.commitRange _ _) | .memory (.protect _ _ _)
  | .memory (.aliasMap _ _ _) | .memory (.aliasUnmap _) | .enqueue _ _ _ _ _ | .enqueueWait _ _ _ _ _ | .wake _
  | .cancel _ | .submit | .setAutoSubmitEnabled _ | .stop | .worker | .files _ =>
    .isTrue (fun _ _ same => by cases same)

/-- A file that changes between two reads is told by the record. -/
theorem changingFile_effect :
    Runs.Along step OnlyWorkerWrites { mem := onePage, vfs := payloadFile } changingFile ∧ ∃ sys journal,
      Runs.run (Runs.watch step noteEffects) ({ mem := onePage, vfs := payloadFile }, {}) changingFile =
        some (sys, journal) ∧
      sys.queue.reqs.map Req.status = [.done, .cancelled, .error] ∧ journal.slices 0 = [1, 2] ∧
      sys.mem.bytes = effect onePage.bytes sys journal := by
  have exclusive : Runs.Along step OnlyWorkerWrites { mem := onePage, vfs := payloadFile } changingFile := by
    decide +kernel
  have evaluated : (Runs.run (Runs.watch step noteEffects) ({ mem := onePage, vfs := payloadFile }, {})
      changingFile).map (fun state => (state.1.queue.reqs.map Req.status, state.2.slices 0)) =
        some ([.done, .cancelled, .error], [1, 2]) := by decide +kernel
  obtain ⟨⟨sys, journal⟩, reached, same⟩ := Option.map_eq_some_iff.mp evaluated
  simp only [Prod.mk.injEq] at same
  exact ⟨exclusive, sys, journal, reached, same.1, same.2, memory_effect _ _ _ sys journal exclusive reached⟩

end IoSystem

end SeriesxEmu
