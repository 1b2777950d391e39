import SeriesxEmu.RootArguments

/-!
# The history of a batch

The registrations of a batch, the fence that it has signalled, its count of submissions and the packets in
the title's log are those of the requests that were accepted. A registration that was checked against the
guest's memory keeps its memory, and it is found until the title gives it up.
-/

namespace SeriesxEmu

/-! ## The guest's memory -/

namespace MemMap

variable {mem : MemMap}

/-- No operation takes a page back. -/
theorem exec_keeps (reserved : mem.reserved = true) (op : Op) :
    (mem.exec op).1.reserved = true ∧ (mem.exec op).1.pageBits = mem.pageBits ∧
      ∀ page, mem.committed page = true → (mem.exec op).1.committed page = true := by
  have same : mem.reserved = true ∧ mem.pageBits = mem.pageBits ∧
      ∀ page, mem.committed page = true → mem.committed page = true := ⟨reserved, rfl, fun _ => id⟩
  cases op with
  | reserve =>
    rw [exec, MemMap.reserve, if_pos reserved]
    exact same
  | commitPage addr =>
    rw [exec, commitPage]
    split
    · exact ⟨reserved, rfl, fun page held => by simp [held]⟩
    · exact same
  | commitRange addr size =>
    rw [exec, commitRange]
    split
    · exact ⟨reserved, rfl, fun page held => by simp [held]⟩
    · exact same
  | protect addr size prot =>
    rw [exec, protect]
    split
    · exact same
    · exact same
  | writeBytes addr source =>
    rw [exec, writeBytes]
    split
    · exact same
    · exact same
  | aliasMap dst src size =>
    rw [exec, aliasMap]
    split
    · exact same
    · split
      · exact same
      · split
        · exact same
        · exact same
  | aliasUnmap dst => exact same

/-- No operation gives a page back. -/
theorem isCommitted_exec {addr size : Nat} (held : mem.isCommitted addr size = true) (op : Op) :
    (mem.exec op).1.isCommitted addr size = true := by
  simp only [isCommitted, Bool.and_eq_true, List.all_eq_true] at held ⊢
  obtain ⟨⟨reserved, inside⟩, committed⟩ := held
  obtain ⟨still, pageBits, kept⟩ := exec_keeps reserved op
  refine ⟨⟨still, inside⟩, fun page member => kept page (committed page ?_)⟩
  rwa [pages, pageSize, pageBits] at member

end MemMap

namespace GpuBatch

/-- What has been checked of a registration. -/
structure Admitted (batch : GpuBatch) (mem : MemMap) (gpa : Nat) (buffer : VulkanBuffer) : Prop where
  valid : buffer.valid = true
  positive : 0 < buffer.size
  free : batch.findBinding gpa = none
  committed : batch.mem = true → mem.isCommitted gpa buffer.size = true
  fast : batch.mem = true → buffer.fast = true → MemMap.isFast gpa = true

/-- A registration is refused, or adds a pair. -/
theorem registerBuffer_cases (batch : GpuBatch) (mem : MemMap) (gpa index : Nat) (buffer : VulkanBuffer) :
    batch.registerBuffer mem gpa index buffer = (batch, false) ∨
      (batch.registerBuffer mem gpa index buffer =
        ({ batch with bindings := batch.bindings ++ [(gpa, index)] }, true) ∧ batch.Admitted mem gpa buffer) := by
  rw [registerBuffer]
  split
  · exact Or.inl rfl
  · rename_i live
    split
    · exact Or.inl rfl
    · split
      · exact Or.inl rfl
      · rename_i held
        split
        · exact Or.inl rfl
        · rename_i fast
          split
          · exact Or.inl rfl
          · rename_i free
            refine Or.inr ⟨rfl, ?_⟩
            constructor
            · simp at live
              exact live.1
            · simp at live
              exact Nat.pos_of_ne_zero live.2
            · simpa using free
            · intro attached
              simp [attached] at held
              exact held.2
            · intro attached own
              simpa [attached, own] using fast

end GpuBatch

namespace Title

open Transcripts

/-! ## What a history leaves -/

/-- What one exchange does to the registrations. -/
def registeredTurn (registered : Nat → Option Nat) (exchange : Request × Reply) : Nat → Option Nat :=
  match exchange.1 with
  | .init _ _ | .shutdown => fun _ => none
  | .registerBuffer gpa index => if exchange.2.ok then Function.update registered gpa (some index) else registered
  | .unregisterBuffer gpa => Function.update registered gpa none
  | _ => registered

/-- The buffer that is registered under each address. -/
def registered (past : List (Request × Reply)) : Nat → Option Nat := past.foldl registeredTurn (fun _ => none)

/-- What it does to the fences. -/
def fencesTurn (fences : List Nat) (exchange : Request × Reply) : List Nat :=
  match exchange.1 with
  | .init _ _ | .shutdown => []
  | .submit _ _ => if exchange.2.ok then fences ++ [fences.getLast?.getD 0 + 1] else fences
  | .submitFence _ fenceValue _ => if exchange.2.ok then fences ++ [fenceValue] else fences
  | _ => fences

/-- The fences signalled since the batch was opened or closed last. -/
def fences (past : List (Request × Reply)) : List Nat := past.foldl fencesTurn []

/-- A submission that went through, or one that was also logged. -/
def isSubmission (onlyLogged : Bool) (exchange : Request × Reply) : Bool :=
  exchange.2.ok && match exchange.1 with
    | .submit logged _ | .submitFence logged _ _ => logged || !onlyLogged
    | _ => false

/-- What the history says of the batch and of the log. -/
structure Accounts (past : List (Request × Reply)) (title : Title) : Prop where
  registrations : title.batch.findBinding = registered past
  fences : (0 :: fences past).Pairwise (· < ·)
  fenceSignalled : title.batch.fenceSignalled = (Title.fences past).getLast?.getD 0
  submits : title.batch.submits = past.countP (isSubmission false) % 2 ^ 64
  logged : title.log.submitted = past.countP (isSubmission true) % 2 ^ 64

/-- The account, and the keys of the registrations are distinct. -/
structure Kept (past : List (Request × Reply)) (title : Title) : Prop where
  distinct : (KeyedLists.keys title.batch.bindings).Nodup
  accounts : Accounts past title

section exchanges
variable {past : List (Request × Reply)} {title next : Title} {exchange : Request × Reply}

/-- The registrations after one more exchange. -/
theorem registered_append : registered (past ++ [exchange]) = registeredTurn (registered past) exchange := by
  rw [registered, List.foldl_append]
  rfl

/-- The fences after it. -/
theorem fences_append : fences (past ++ [exchange]) = fencesTurn (fences past) exchange := by
  rw [fences, List.foldl_append]
  rfl

/-- Other exchanges are not counted. -/
theorem countP_silent {onlyLogged : Bool} (silent : isSubmission onlyLogged exchange = false) :
    (past ++ [exchange]).countP (isSubmission onlyLogged) = past.countP (isSubmission onlyLogged) := by
  rw [List.countP_append, List.countP_singleton, silent]
  rfl

/-- A submission is. -/
theorem countP_counted {onlyLogged : Bool} (counted : isSubmission onlyLogged exchange = true) :
    (past ++ [exchange]).countP (isSubmission onlyLogged) = past.countP (isSubmission onlyLogged) + 1 := by
  rw [List.countP_append, List.countP_singleton, counted]
  rfl

/-- What an exchange that is no submission changes. -/
theorem Kept.quiet (kept : Kept past title) (silent : ∀ onlyLogged, isSubmission onlyLogged exchange = false)
    (distinct : (KeyedLists.keys next.batch.bindings).Nodup)
    (registrations : next.batch.findBinding = registeredTurn (registered past) exchange)
    (fences : next.batch.fenceSignalled = title.batch.fenceSignalled ∧ fencesTurn (fences past) exchange = fences past ∨
      next.batch.fenceSignalled = 0 ∧ fencesTurn (fences past) exchange = [])
    (submits : next.batch.submits = title.batch.submits) (log : next.log = title.log) :
    Kept (past ++ [exchange]) next := by
  obtain ⟨-, accounts⟩ := kept
  refine ⟨distinct, ?_, ?_, ?_, ?_, ?_⟩
  · rw [registrations, registered_append]
  · rw [fences_append]
    obtain ⟨-, same⟩ | ⟨-, empty⟩ := fences
    · rw [same]
      exact accounts.fences
    · rw [empty]
      exact List.pairwise_singleton _ _
  · rw [fences_append]
    obtain ⟨signalled, same⟩ | ⟨signalled, empty⟩ := fences
    · rw [same, signalled]
      exact accounts.fenceSignalled
    · rw [empty, signalled]
      rfl
  · rw [submits, accounts.submits, countP_silent (silent false)]
  · rw [log, accounts.logged, countP_silent (silent true)]

/-- An exchange that neither registers nor submits nor closes. -/
theorem Kept.idle (kept : Kept past title) (silent : ∀ onlyLogged, isSubmission onlyLogged exchange = false)
    (registrations : registeredTurn (registered past) exchange = registered past)
    (fences : fencesTurn (fences past) exchange = fences past) (bindings : next.batch.bindings = title.batch.bindings)
    (signalled : next.batch.fenceSignalled = title.batch.fenceSignalled)
    (submits : next.batch.submits = title.batch.submits) (log : next.log = title.log) :
    Kept (past ++ [exchange]) next := by
  refine kept.quiet silent ?_ ?_ (Or.inl ⟨signalled, fences⟩) submits log
  · rw [bindings]
    exact kept.distinct
  · rw [registrations, ← kept.accounts.registrations]
    funext gpa
    rw [GpuBatch.findBinding, GpuBatch.findBinding, bindings]

/-- A bind keeps the account. -/
theorem kept_bind (kept : Kept past title) (rootIndex : Nat) (buffer : VulkanBuffer) {request : Request}
    (silent : ∀ onlyLogged reply, isSubmission onlyLogged (request, reply) = false)
    (registrations : ∀ registered reply, registeredTurn registered (request, reply) = registered)
    (fences : ∀ fences reply, fencesTurn fences (request, reply) = fences) :
    Kept (past ++ [(request, (title.bindBuffer rootIndex buffer).2)]) (title.bindBuffer rootIndex buffer).1 := by
  obtain ⟨descriptors, same⟩ := title.bindBuffer_fst rootIndex buffer
  exact kept.idle (fun onlyLogged => silent onlyLogged _) (registrations _ _) (fences _ _) (by rw [same])
    (by rw [same]) (by rw [same]) (by rw [same])

/-- So does a copy. -/
theorem kept_copy (kept : Kept past title) (dst src : Nat) {request : Request}
    (silent : ∀ onlyLogged reply, isSubmission onlyLogged (request, reply) = false)
    (registrations : ∀ registered reply, registeredTurn registered (request, reply) = registered)
    (fences : ∀ fences reply, fencesTurn fences (request, reply) = fences) :
    Kept (past ++ [(request, (title.copyBuffers dst src).2)]) (title.copyBuffers dst src).1 := by
  obtain ⟨recorded, same⟩ := title.copyBuffers_fst dst src
  exact kept.idle (fun onlyLogged => silent onlyLogged _) (registrations _ _) (fences _ _) (by rw [same])
    (by rw [same]) (by rw [same]) (by rw [same])

/-- A submission is entered into it. -/
theorem kept_submitted (kept : Kept past title) (logged : Bool) (fenceValue : Nat) (answers : SubmitAnswers)
    (request : Request) (silent : ∀ onlyLogged reply, isSubmission onlyLogged (request, reply) =
      (reply.ok && (logged || !onlyLogged)))
    (registrations : ∀ registered reply, registeredTurn registered (request, reply) = registered)
    (unchanged : ∀ reply, reply.ok = false → fencesTurn (fences past) (request, reply) = fences past)
    (signalled : ∀ reply, reply.ok = true → title.batch.fenceSignalled < fenceValue →
      fencesTurn (fences past) (request, reply) = fences past ++ [fenceValue]) :
    Kept (past ++ [(request, (title.submitted logged
        (fun log => title.batch.submitFence log fenceValue answers)).2)])
      (title.submitted logged (fun log => title.batch.submitFence log fenceValue answers)).1 := by
  obtain ⟨refused, same, cmd, recorded, batch⟩ | ⟨accepted, beyond, log, batch⟩ :=
    GpuBatch.submitFence_cases title.batch (if logged then some title.log else none) fenceValue answers
  · simp only [submitted, refused, same, batch]
    have log : (if logged then some title.log else none).getD title.log = title.log := by
      cases logged with
      | true => rfl
      | false => rfl
    refine kept.idle (fun onlyLogged => ?_) (registrations _ _) (unchanged _ rfl) rfl rfl rfl log
    rw [silent]
    rfl
  · simp only [submitted, accepted, log, batch]
    refine ⟨kept.distinct, ?_, ?_, ?_, ?_, ?_⟩
    · rw [registered_append, registrations]
      exact kept.accounts.registrations
    · obtain ⟨positive, increasing⟩ := List.pairwise_cons.mp kept.accounts.fences
      rw [kept.accounts.fenceSignalled] at beyond
      rw [fences_append, signalled _ rfl (by rwa [kept.accounts.fenceSignalled]), List.pairwise_cons,
        List.pairwise_append]
      refine ⟨fun value member => ?_, increasing, List.pairwise_singleton _ _, fun earlier member value last => ?_⟩
      · rcases List.mem_append.mp member with early | last
        · exact positive value early
        · rw [List.mem_singleton.mp last]
          exact Nat.zero_lt_of_lt beyond
      · rw [List.mem_singleton.mp last]
        exact Nat.lt_of_le_of_lt (GpuStub.le_last increasing earlier member) beyond
    · rw [fences_append, signalled _ rfl beyond, List.getLast?_concat, Option.getD_some]
    · have counted : isSubmission false (request, { ok := true, events := (title.batch.submitFence
          (if logged then some title.log else none) fenceValue answers).2.2.1 }) = true := by
        rw [silent, Bool.not_false, Bool.or_true]
        rfl
      rw [countP_counted counted, kept.accounts.submits, Nat.mod_add_mod]
    · cases logged with
      | false =>
        rw [countP_silent (silent true _)]
        exact kept.accounts.logged
      | true =>
        rw [countP_counted (silent true _)]
        simp only [if_true, Option.map_some, Option.getD_some, GpuStub.submit, GpuStub.counted]
        rw [kept.accounts.logged, Nat.mod_add_mod]

end exchanges

/-- Every exchange keeps the account.

Proof: by the request. Most requests leave the account alone; a registration, a binding, a copy and
a submission each have their own rule, and `init` and `shutdown` empty what the account looks at. -/
theorem kept_serve (past : List (Request × Reply)) (title : Title) (request : Request) (kept : Kept past title) :
    Kept (past ++ [(request, (title.serve request).2)]) (title.serve request).1 := by
  cases request with
  | memory op => exact kept.idle (fun _ => Bool.and_false _) rfl rfl rfl rfl rfl rfl
  | createBuffer size fast answers => exact kept.idle (fun _ => Bool.and_false _) rfl rfl rfl rfl rfl rfl
  | destroyBuffer index => exact kept.idle (fun _ => Bool.and_false _) rfl rfl rfl rfl rfl rfl
  | init params answers =>
    obtain ⟨submits, ⟨-, closed⟩ | ⟨-, fresh⟩⟩ := GpuBatch.init_cases title.batch title.device params answers
    · refine kept.quiet (fun _ => Bool.and_false _) ?_ ?_ (Or.inr ⟨?_, rfl⟩) submits rfl
      · simp only [serve, closed]
        exact List.nodup_nil
      · simp only [serve, closed]
        rfl
      · simp only [serve, closed]
    · refine kept.quiet (fun _ => Bool.and_false _) ?_ ?_ (Or.inr ⟨fresh.fenceSignalled, rfl⟩) submits rfl
      · simp only [serve, fresh.bindings]
        exact List.nodup_nil
      · funext gpa
        simp only [serve, GpuBatch.findBinding, fresh.bindings]
        rfl
  | shutdown => exact kept.quiet (fun _ => Bool.and_false _) List.nodup_nil rfl (Or.inr ⟨rfl, rfl⟩) rfl rfl
  | attachMem attached => exact kept.idle (fun _ => Bool.and_false _) rfl rfl rfl rfl rfl rfl
  | registerBuffer gpa index =>
    obtain refused | ⟨accepted, admitted⟩ :=
      GpuBatch.registerBuffer_cases title.batch title.mem gpa index (title.buffer index)
    · simp only [serve, refused]
      exact kept.idle (fun _ => Bool.and_false _) rfl rfl rfl rfl rfl rfl
    · simp only [serve, accepted]
      refine kept.quiet (fun _ => Bool.and_false _) (KeyedLists.keys_append kept.distinct admitted.free index) ?_
        (Or.inl ⟨rfl, rfl⟩) rfl rfl
      simp only [registeredTurn, ← kept.accounts.registrations]
      exact KeyedLists.lookup_append admitted.free index
  | unregisterBuffer gpa =>
    refine kept.quiet (fun _ => Bool.and_false _) (KeyedLists.keys_eraseP kept.distinct gpa) ?_ (Or.inl ⟨rfl, rfl⟩) rfl
      rfl
    simp only [registeredTurn, ← kept.accounts.registrations]
    exact KeyedLists.lookup_eraseP kept.distinct gpa
  | push rootIndex vals =>
    have same : ∃ pushData, (title.batch.push rootIndex vals).1 = { title.batch with pushData } := by
      cases vals with
      | none => exact ⟨_, rfl⟩
      | some vals =>
        simp only [GpuBatch.push]
        repeat' split
        all_goals exact ⟨_, rfl⟩
    obtain ⟨pushData, same⟩ := same
    simp only [serve, same]
    exact kept.idle (fun _ => Bool.and_false _) rfl rfl rfl rfl rfl rfl
  | bind rootIndex index => exact kept_bind kept _ _ (fun _ _ => Bool.and_false _) (fun _ _ => rfl) (fun _ _ => rfl) 
  | bindGpa rootIndex gpa =>
    rw [serve]
    cases title.batch.findBinding gpa with
    | none => exact kept.idle (fun _ => Bool.and_false _) rfl rfl rfl rfl rfl rfl
    | some index => exact kept_bind kept _ _ (fun _ _ => Bool.and_false _) (fun _ _ => rfl) (fun _ _ => rfl)
  | begin answers =>
    have same : ∃ cmd recorded, (title.batch.begin answers).1 = { title.batch with cmd, recorded } := by
      rw [GpuBatch.begin]
      repeat' split
      all_goals exact ⟨_, _, rfl⟩
    obtain ⟨cmd, recorded, same⟩ := same
    simp only [serve, same]
    exact kept.idle (fun _ => Bool.and_false _) rfl rfl rfl rfl rfl rfl
  | copy dst src => exact kept_copy kept dst src (fun _ _ => Bool.and_false _) (fun _ _ => rfl) (fun _ _ => rfl)
  | copyGpa dst src size =>
    rw [serve]
    obtain refused | ⟨target, origin, copied⟩ := title.copyRegistered_cases dst src size
    · rw [refused]
      exact kept.idle (fun _ => Bool.and_false _) rfl rfl rfl rfl rfl rfl
    · rw [copied]
      exact kept_copy kept target origin (fun _ _ => Bool.and_false _) (fun _ _ => rfl) (fun _ _ => rfl)
  | submit logged answers =>
    refine kept_submitted kept logged ((title.batch.fenceSignalled + 1) % 2 ^ 64) answers _ (fun _ _ => rfl)
      (fun _ _ => rfl) (fun reply refused => if_neg (by simp [refused])) fun reply accepted beyond => ?_
    have next : (title.batch.fenceSignalled + 1) % 2 ^ 64 = (fences past).getLast?.getD 0 + 1 := by
      rw [← kept.accounts.fenceSignalled]
      omega
    rw [next]
    exact if_pos accepted
  | submitFence logged fenceValue answers =>
    exact kept_submitted kept logged fenceValue answers _ (fun _ _ => rfl) (fun _ _ => rfl)
      (fun _ refused => if_neg (by simp [refused])) fun _ accepted _ => if_pos accepted

/-- **The history of a batch.** After every sequence of requests the batch finds under each address
what was registered there and not given up; the fences signalled since it was opened are increasing
and the last of them is reported; and its count of submissions, like the log's count of packets, is
that of the requests that went through.

Proof: `Kept` is the invariant of the dialogue, and what it says of the counters and of the bindings
is the account. -/
theorem batch_history (opening : DeviceAnswers) (requests : List Request) :
    Accounts (dialogue serve (opened opening) requests) (after serve (opened opening) requests) := by
  have start : Kept [] (opened opening) := ⟨List.nodup_nil, rfl, List.pairwise_singleton _ _, rfl, rfl, rfl⟩
  exact (@dialogue_invariant _ _ _ serve Kept kept_serve requests [] (opened opening) start).accounts

/-! ## Registrations -/

/-- The requests that give a registration up. -/
def Request.releases (gpa : Nat) : Request → Bool
  | .init _ _ | .shutdown => true
  | .unregisterBuffer other => other == gpa
  | _ => false

section registrations
variable {past : List (Request × Reply)} {title : Title} {gpa index : Nat}

/-- An address that is taken stays with its buffer. -/
theorem found_serve (kept : Kept past title) (found : title.batch.findBinding gpa = some index) (request : Request)
    (holds : request.releases gpa = false) : (title.serve request).1.batch.findBinding gpa = some index := by
  have here : registered past gpa = some index := by rw [← kept.accounts.registrations, found]
  rw [(kept_serve past title request kept).accounts.registrations, registered_append]
  cases request with
  | init params answers => cases holds
  | shutdown => cases holds
  | registerBuffer other place =>
    rw [registeredTurn]
    split
    · rename_i accepted
      obtain refused | ⟨-, admitted⟩ :=
        GpuBatch.registerBuffer_cases title.batch title.mem other place (title.buffer place)
      · simp only [serve, refused] at accepted
        cases accepted
      · have apart : gpa ≠ other := by
          rintro rfl
          rw [admitted.free] at found
          cases found
        exact (Function.update_of_ne apart _ _).trans here
    · exact here
  | unregisterBuffer other =>
    have apart : gpa ≠ other := by
      rintro rfl
      simp [Request.releases] at holds
    exact (Function.update_of_ne apart _ _).trans here
  | memory op => exact here
  | createBuffer size fast answers => exact here
  | destroyBuffer place => exact here
  | attachMem attached => exact here
  | push rootIndex vals => exact here
  | bind rootIndex place => exact here
  | bindGpa rootIndex other => exact here
  | begin answers => exact here
  | copy dst src => exact here
  | copyGpa dst src size => exact here
  | submit logged answers => exact here
  | submitFence logged fenceValue answers => exact here

/-- A registration is found until it is given up. -/
theorem found_run (requests : List Request) (kept : Kept past title)
    (found : title.batch.findBinding gpa = some index) (holds : ∀ request ∈ requests, request.releases gpa = false) :
    (after serve title requests).batch.findBinding gpa = some index := by
  induction requests generalizing past title with
  | nil => exact found
  | cons request rest inductionHypothesis =>
    rw [List.forall_mem_cons] at holds
    exact inductionHypothesis (kept_serve past title request kept) (found_serve kept found request holds.1) holds.2

/-- Only an operation on memory changes memory. -/
theorem serve_mem (title : Title) (request : Request) :
    (title.serve request).1.mem = title.mem ∨ ∃ op, (title.serve request).1.mem = (title.mem.exec op).1 := by
  have bound (rootIndex : Nat) (buffer : VulkanBuffer) : (title.bindBuffer rootIndex buffer).1.mem = title.mem := by
    obtain ⟨descriptors, same⟩ := title.bindBuffer_fst rootIndex buffer
    rw [same]
  cases request with
  | memory op => exact Or.inr ⟨op, rfl⟩
  | bind rootIndex place => exact Or.inl (bound _ _)
  | bindGpa rootIndex other =>
    rw [serve]
    cases title.batch.findBinding other with
    | none => exact Or.inl rfl
    | some place => exact Or.inl (bound _ _)
  | copyGpa dst src size =>
    rw [serve]
    obtain refused | ⟨target, origin, copied⟩ := title.copyRegistered_cases dst src size
    · rw [refused]
      exact Or.inl rfl
    · rw [copied]
      exact Or.inl rfl
  | _ => exact Or.inl rfl

/-- So a range stays committed. -/
theorem committed_run {addr size : Nat} (requests : List Request) (held : title.mem.isCommitted addr size = true) :
    (after serve title requests).mem.isCommitted addr size = true := by
  induction requests generalizing title with
  | nil => exact held
  | cons request rest inductionHypothesis =>
    refine inductionHypothesis ?_
    obtain same | ⟨op, same⟩ := serve_mem title request
    · rw [same]
      exact held
    · rw [same]
      exact MemMap.isCommitted_exec held op

/-- **Registrations last.** Once a batch has accepted a buffer under an address, it finds this
buffer there, and takes no other, until the title gives the address up or closes the batch. If guest
memory was attached, the range of the buffer stays committed for good, and a buffer of the fast pool
starts in the fast pool.

Proof: only the release of the address or the closing of the batch takes a binding away. No request
takes pages away from the memory. -/
theorem registration_lasts (opening : DeviceAnswers) (earlier : List Request) (gpa index : Nat)
    (accepted : ((after serve (opened opening) earlier).serve (.registerBuffer gpa index)).2.ok = true)
    (later : List Request) :
    let title := after serve (opened opening) earlier
    let final := after serve (title.serve (.registerBuffer gpa index)).1 later
    ((∀ request ∈ later, request.releases gpa = false) → final.batch.findBinding gpa = some index ∧
        ∀ other, (final.serve (.registerBuffer gpa other)).2.ok = false) ∧
      (title.batch.mem = true → final.mem.isCommitted gpa (title.buffer index).size = true ∧
        ((title.buffer index).fast = true → MemMap.isFast gpa = true)) := by
  intro title final
  have start : Kept [] (opened opening) := ⟨List.nodup_nil, rfl, List.pairwise_singleton _ _, rfl, rfl, rfl⟩
  have kept := @dialogue_invariant _ _ _ serve Kept kept_serve earlier [] (opened opening) start
  obtain refused | ⟨registers, admitted⟩ :=
    GpuBatch.registerBuffer_cases title.batch title.mem gpa index (title.buffer index)
  · have not : (title.serve (.registerBuffer gpa index)).2.ok = false := by simp only [serve, refused]
    rw [not] at accepted
    cases accepted
  · have next := kept_serve _ title (.registerBuffer gpa index) kept
    constructor
    · intro holds
      have found : (title.serve (.registerBuffer gpa index)).1.batch.findBinding gpa = some index := by
        simp only [serve, registers, GpuBatch.findBinding]
        rw [KeyedLists.lookup_append admitted.free, Function.update_self]
      have still := found_run later next found holds
      refine ⟨still, fun other => ?_⟩
      obtain refused | ⟨-, again⟩ :=
        GpuBatch.registerBuffer_cases final.batch final.mem gpa other (final.buffer other)
      · simp only [serve, refused]
      · rw [again.free] at still
        cases still
    · intro attached
      exact ⟨committed_run later (admitted.committed attached), admitted.fast attached⟩

end registrations

/-- A title that commits a page, makes a buffer and attaches its memory. -/
def attaches : List Request :=
  [.memory .reserve, .memory (.commitPage 0x1000), .createBuffer 16 false
    { buf := some 5, typeBits := 3, mem := some 6, bound := true }, .attachMem true]

/-- A buffer that has been destroyed is still registered: the batch is told nothing of it. -/
theorem attaches_lasts :
    (after serve ((after serve (opened mappedAnswers) attaches).serve (.registerBuffer 0x1000 0)).1 [.destroyBuffer 0,
      .unregisterBuffer 0]).batch.findBinding 0x1000 = some 0 :=
  ((registration_lasts mappedAnswers attaches 0x1000 0 (by decide +kernel) [.destroyBuffer 0, .unregisterBuffer 0]).1
    (by decide)).1

end Title

end SeriesxEmu
