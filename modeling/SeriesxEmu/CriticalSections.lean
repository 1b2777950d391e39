import SeriesxEmu.EventConservation
import SeriesxEmu.GuestWords
import SeriesxEmu.Words

/-!
# Critical sections

The three fields of a critical section live in guest memory, and a fiber that
finds the section owned counts itself in and blocks. Over every run that leaves
the fields to the calls on the section, the fields say who is inside, how deep,
and how many fibers are blocked, and a free section with blocked fibers has a
woken fiber on its way. Three widths of the source bound this: the owner field
holds 32 bits of a 64-bit handle, the lock count is a signed word, and the last
tick of the virtual clock is also the deadline that stands for no deadline.
-/

namespace SeriesxEmu

open Scheduler GuestScheduler

/-- The fiber is suspended in `cs_enter` of the section. -/
def Fiber.contends (va : Nat) (fiber : Fiber) : Bool := fiber.ctx.point == .csEnter va

/-- The fiber is blocked in `cs_enter` of the section. -/
def Fiber.stuck (va : Nat) (fiber : Fiber) : Bool := fiber.state == .blockedWait && fiber.contends va

/-- A call that may enter the section. -/
def Action.entersSection (va : Nat) : Action → Bool
  | .call (.rtlEnterCriticalSection addr) => addr == va
  | .call (.rtlTryEnterCriticalSection addr) => addr == va
  | _ => false

/-- A call that may leave the section. -/
def Action.leavesSection (va : Nat) : Action → Bool
  | .call (.rtlLeaveCriticalSection addr) => addr == va
  | _ => false

/-- A turn of the run loop. -/
def Action.turns : Action → Bool
  | .turn => true
  | _ => false

/-- A call on the section. -/
def Action.callsSection (va : Nat) (action : Action) : Bool := action.entersSection va || action.leavesSection va

namespace XboxKrnl

/-- A turn of the run loop that switches in a fiber suspended in `cs_enter` of the
section. -/
def reenters (va : Nat) (krnl : XboxKrnl) : Action → Bool
  | .turn => { krnl with sched := krnl.sched.loopTurn.1 }.currentFiber.any (Fiber.contends va)
  | _ => false

/-- The reply that the step has delivered, with the fiber it went to. -/
def delivered (krnl next : XboxKrnl) : Option (Nat × Reply) :=
  match next.history with
  | .returned fiber reply :: earlier => if earlier.length = krnl.history.length then some (fiber, reply) else none
  | _ => none

/-- What a call on the section that returns this reply adds to the nesting depth. -/
def deepens (va : Nat) (krnl : XboxKrnl) (reply : Reply) : Action → Int
  | .call (.rtlEnterCriticalSection addr) => if addr = va ∧ reply.ok then 1 else 0
  | .call (.rtlTryEnterCriticalSection addr) => if addr = va then reply.value else 0
  | .call (.rtlLeaveCriticalSection addr) => if addr = va ∧ reply.ok then -1 else 0
  | .turn => if krnl.reenters va .turn ∧ reply.ok then 1 else 0
  | _ => 0

/-- What the action adds to the nesting depth of each fiber in the section. -/
def nesting (va : Nat) (krnl : XboxKrnl) (action : Action) (fiber : Nat) : Int :=
  match (krnl.wordStep action).bind krnl.delivered with
  | some (caller, reply) => if caller = fiber then krnl.deepens va reply action else 0
  | none => 0

variable {krnl next : XboxKrnl} {va : Nat} {depth : Nat → Int}

/-- The section is left to the calls on it, which fibers make, and its owner goes less than 2^31
deep. Every other action leaves the fields alone, and the memory is writable. -/
def Guarded (va : Nat) (krnl : XboxKrnl) (action : Action) : Prop :=
  krnl.ram.writable va kCsSize = true ∧
    (action.callsSection va = true →
      krnl.currentHandle ≠ 0 ∧ krnl.refreshData.csFields va = krnl.csFields va) ∧
    (action.entersSection va = true → ∀ fields ∈ (krnl.csFields va).toList,
      fields.2.2 = krnl.currentHandle → fields.2.1 + 1 < 2 ^ 31) ∧
    (action.callsSection va = false → krnl.reenters va action = false →
      ∀ next ∈ (krnl.wordStep action).toList, next.csFields va = krnl.csFields va)

/-- The widths of the lock are not exceeded: no turn at the last tick finds a fiber blocked on the
section, and fewer than 2^31 fibers are blocked on it. -/
def Unwrapped (va : Nat) (krnl : XboxKrnl) (action : Action) : Prop :=
  (action.turns = true → uint64Max ≤ krnl.sched.tick → krnl.sched.threads.countP (Fiber.stuck va) = 0) ∧
    krnl.sched.threads.countP (Fiber.stuck va) < 2 ^ 31

instance (va : Nat) (krnl : XboxKrnl) (action : Action) : Decidable (Guarded va krnl action) :=
  inferInstanceAs (Decidable (_ ∧ _ ∧ _ ∧ _))

instance (va : Nat) (krnl : XboxKrnl) (action : Action) : Decidable (Unwrapped va krnl action) :=
  inferInstanceAs (Decidable (_ ∧ _))

/-- What the fields of a critical section say, given how deep each fiber is inside. -/
structure SectionKept (krnl : XboxKrnl) (va : Nat) (depth : Nat → Int) (lock recursion : Int) (owner : Nat) :
    Prop where
  fields : krnl.csFields va = some (lock, recursion, owner)
  free : owner = 0 → recursion = 0 ∧ ∀ fiber, depth fiber = 0
  inside : owner ≠ 0 → (∃ fiber ∈ krnl.sched.threads, fiber.handle = owner) ∧ 0 < recursion ∧
    depth owner = recursion ∧ ∀ fiber, fiber ≠ owner → depth fiber = 0
  waiters : lock + 1 = krnl.sched.threads.countP (fun fiber => fiber.BlockedOn (.criticalSection va))
  leave : owner ≠ krnl.currentHandle → krnl.csLeave va = (krnl, voidFail)
  woken : owner = 0 → (∃ fiber ∈ krnl.sched.threads, fiber.BlockedOn (.criticalSection va)) →
    ∃ fiber ∈ krnl.sched.threads, fiber.state = .ready ∧ fiber.waitTimedOut = false ∧
      fiber.ctx.point = .csEnter va

/-! ## The fields in memory -/

/-- The fields of a section that does not wrap lie at its address. -/
theorem at32_inside {offset : Nat} (fits : va + kCsSize ≤ 2 ^ 32) (small : offset + 4 ≤ kCsSize) :
    at32 va offset = va + offset := by
  have inside : va + offset < 2 ^ 32 := by omega
  exact Nat.mod_eq_of_lt inside

/-- A count that fits its field is read back. -/
theorem int32_uint32 {value : Int} (low : -2 ^ 31 ≤ value) (high : value < 2 ^ 31) :
    int32 (uint32 value % 2 ^ 32) = value := by
  unfold int32 uint32
  omega

/-- The fields are three words, two of them signed. -/
theorem csFields_some {lock recursion : Int} {owner : Nat} :
    krnl.csFields va = some (lock, recursion, owner) ↔ ∃ lockWord recursionWord,
      krnl.ram.read32 (at32 va kCsLockCount) = some lockWord ∧
      krnl.ram.read32 (at32 va kCsRecursion) = some recursionWord ∧
      krnl.ram.read32 (at32 va kCsOwningThread) = some owner ∧
      int32 lockWord = lock ∧ int32 recursionWord = recursion := by
  simp only [csFields, Option.bind_eq_bind, Option.bind_eq_some_iff, Option.pure_def, Option.some.injEq,
    Prod.mk.injEq]
  constructor
  · rintro ⟨lockWord, first, recursionWord, second, word, third, rfl, rfl, rfl⟩
    exact ⟨lockWord, recursionWord, first, second, third, rfl, rfl⟩
  · rintro ⟨lockWord, recursionWord, first, second, third, rfl, rfl⟩
    exact ⟨lockWord, first, recursionWord, second, owner, third, rfl, rfl, rfl⟩

section stores

variable (fits : va + kCsSize ≤ 2 ^ 32) (usable : krnl.ram.writable va kCsSize = true)
  {lock recursion : Int} {owner : Nat} (fields : krnl.csFields va = some (lock, recursion, owner))

include fits usable

/-- A field that has been stored is there. -/
theorem read32_field (offset value : Nat) (inside : offset + 4 ≤ kCsSize) :
    (krnl.write32 (at32 va offset) value).ram.read32 (at32 va offset) = some (value % 2 ^ 32) := by
  have word := XbeRam.writable_word usable (Nat.le_add_right va offset) (by omega)
  rw [at32_inside fits inside]
  exact XbeRam.read32_write32 word value

omit usable in
/-- The other fields stay. -/
theorem read32_field_other (offset other value : Nat) (inside : offset + 4 ≤ kCsSize) (also : other + 4 ≤ kCsSize)
    (apart : offset + 4 ≤ other ∨ other + 4 ≤ offset) :
    (krnl.write32 (at32 va offset) value).ram.read32 (at32 va other) = krnl.ram.read32 (at32 va other) := by
  rw [at32_inside fits inside, at32_inside fits also]
  exact XbeRam.read32_write32_other (by omega) value

include fields

/-- `LockCount` is stored alone. -/
theorem csFields_lock {value : Int} (low : -2 ^ 31 ≤ value) (high : value < 2 ^ 31) :
    (krnl.write32 (at32 va kCsLockCount) (uint32 value)).csFields va = some (value, recursion, owner) := by
  obtain ⟨lockWord, recursionWord, first, second, third, rfl, rfl⟩ := csFields_some.mp fields
  refine csFields_some.mpr ⟨_, recursionWord, read32_field fits usable _ _ (by decide), ?_, ?_,
    int32_uint32 low high, rfl⟩
  · rw [read32_field_other fits _ _ _ (by decide) (by decide) (by decide)]
    exact second
  · rw [read32_field_other fits _ _ _ (by decide) (by decide) (by decide)]
    exact third

/-- So is `RecursionCount`. -/
theorem csFields_recursion {value : Int} (low : -2 ^ 31 ≤ value) (high : value < 2 ^ 31) :
    (krnl.write32 (at32 va kCsRecursion) (uint32 value)).csFields va = some (lock, value, owner) := by
  obtain ⟨lockWord, recursionWord, first, second, third, rfl, rfl⟩ := csFields_some.mp fields
  refine csFields_some.mpr ⟨lockWord, _, ?_, read32_field fits usable _ _ (by decide), ?_, rfl,
    int32_uint32 low high⟩
  · rw [read32_field_other fits _ _ _ (by decide) (by decide) (by decide)]
    exact first
  · rw [read32_field_other fits _ _ _ (by decide) (by decide) (by decide)]
    exact third

/-- So is `OwningThread`. -/
theorem csFields_owner {value : Nat} (small : value < 2 ^ 32) :
    (krnl.write32 (at32 va kCsOwningThread) value).csFields va = some (lock, recursion, value) := by
  obtain ⟨lockWord, recursionWord, first, second, third, rfl, rfl⟩ := csFields_some.mp fields
  refine csFields_some.mpr ⟨lockWord, recursionWord, ?_, ?_, ?_, rfl, rfl⟩
  · rw [read32_field_other fits _ _ _ (by decide) (by decide) (by decide)]
    exact first
  · rw [read32_field_other fits _ _ _ (by decide) (by decide) (by decide)]
    exact second
  · rw [read32_field fits usable _ _ (by decide), Nat.mod_eq_of_lt small]

/-- The section changes hands: the owner and its first entry are stored. -/
theorem csFields_owned {value count : Nat} (small : value < 2 ^ 32) (few : count < 2 ^ 31) :
    ((krnl.write32 (at32 va kCsOwningThread) value).write32 (at32 va kCsRecursion) count).csFields va =
      some (lock, (count : Int), value) := by
  have first := csFields_owner fits usable fields small
  have still : (krnl.write32 (at32 va kCsOwningThread) value).ram.writable va kCsSize = true :=
    (XbeRam.writable_write32 _ _ _).trans usable
  have word : uint32 (count : Int) = count := by
    unfold uint32
    omega
  have second := csFields_recursion fits still first (show -2 ^ 31 ≤ (count : Int) by omega) (by omega)
  rw [word] at second
  exact second

end stores

/-! ## The invariant -/

/-- A fiber suspended in `cs_enter` does not own the section and was not timed out. -/
def Contender (owner : Nat) (fiber : Fiber) : Prop :=
  fiber.handle ≠ owner ∧ fiber.handle < 2 ^ 32 ∧ fiber.waitTimedOut = false ∧
    (fiber.state = .ready ∨ (fiber.state = .blockedWait ∧ fiber.wakeTick = uint64Max))

/-- The invariant of a critical section while a woken fiber may be about to look at it. -/
structure SectionHeld (krnl : XboxKrnl) (va : Nat) (depth : Nat → Int) (lock recursion : Int) (owner : Nat) :
    Prop where
  fields : krnl.csFields va = some (lock, recursion, owner)
  free : owner = 0 → recursion = 0 ∧ ∀ fiber, depth fiber = 0
  inside : owner ≠ 0 → (∃ fiber ∈ krnl.sched.threads, fiber.handle = owner) ∧ 0 < recursion ∧
    depth owner = recursion ∧ ∀ fiber, fiber ≠ owner → depth fiber = 0
  waiters : lock + 1 = krnl.sched.threads.countP (Fiber.stuck va)
  contenders : ∀ fiber ∈ krnl.sched.threads, Fiber.contends va fiber = true → Contender owner fiber

/-- The invariant of a critical section. -/
structure SectionOk (krnl : XboxKrnl) (va : Nat) (depth : Nat → Int) (lock recursion : Int) (owner : Nat) :
    Prop extends krnl.SectionHeld va depth lock recursion owner where
  woken : owner = 0 → lock + 1 ≠ 0 → ∃ fiber ∈ krnl.sched.threads, Fiber.contends va fiber = true ∧ fiber.state = .ready

/-- A fiber blocked in `cs_enter` is blocked on the channel of the section, and no other
fiber is. -/
theorem Ok.stuck_iff (ok : krnl.Ok) {fiber : Fiber} (member : fiber ∈ krnl.sched.threads) :
    fiber.BlockedOn (.criticalSection va) ↔ fiber.stuck va = true := by
  have waits := (ok.fibers.each fiber member).waits
  simp only [GuestThread.BlockedOn, Fiber.stuck, Fiber.contends, Bool.and_eq_true, beq_iff_eq]
  refine and_congr_right (fun blocked => ?_)
  have channel := waits blocked
  unfold Registry.Waits at channel
  split at channel <;> rename_i point <;> simp only [point]
  · exact channel.elim
  · exact channel.elim
  · simp [channel]
  · obtain ⟨⟨addr, token⟩, _⟩ := channel
    simp [token]
  · simp [channel]
  · obtain ⟨_, _, ⟨addr, token⟩, _⟩ := channel
    simp [token]
  · obtain ⟨_, ⟨addr, token⟩, _⟩ := channel
    simp [token]
  · simp [channel]

/-- The fibers on the channel of a section are those that are stuck in entering it. -/
theorem Ok.countP_stuck (ok : krnl.Ok) (va : Nat) :
    krnl.sched.threads.countP (fun fiber => fiber.BlockedOn (.criticalSection va)) =
      krnl.sched.threads.countP (Fiber.stuck va) := by
  refine List.countP_congr (fun fiber member => ?_)
  rw [decide_eq_true_iff]
  exact ok.stuck_iff member

/-- The invariant says what the fields are to say. -/
theorem SectionOk.kept {lock recursion : Int} {owner : Nat} (kept : krnl.SectionOk va depth lock recursion owner)
    (ok : krnl.Ok) : krnl.SectionKept va depth lock recursion owner := by
  refine ⟨kept.fields, kept.free, kept.inside, ?_, fun other => ?_, fun free waiting => ?_⟩
  · rw [ok.countP_stuck]
    exact kept.waiters
  · simp [csLeave, kept.fields, other]
  · obtain ⟨fiber, member, blocked⟩ := waiting
    have stuck : 0 < krnl.sched.threads.countP (Fiber.stuck va) :=
      List.countP_pos_iff.mpr ⟨fiber, member, (ok.stuck_iff member).mp blocked⟩
    have count := kept.waiters
    obtain ⟨woken, found, contends, ready⟩ := kept.woken free (by omega)
    exact ⟨woken, found, ready, (kept.contenders woken found contends).2.2.1, by simpa [Fiber.contends] using contends⟩

/-! ## What leaves the contenders alone -/

/-- No fiber comes to contend, no blocked fiber goes away, and no fiber is gone. -/
structure Attends (va : Nat) (krnl next : XboxKrnl) : Prop where
  earlier : ∀ (index : Nat) (fiber : Fiber), fiber.contends va = true →
    next.sched.threads[index]? = some fiber → krnl.sched.threads[index]? = some fiber
  stuck : ∀ (index : Nat) (fiber : Fiber), fiber.stuck va = true →
    krnl.sched.threads[index]? = some fiber → next.sched.threads[index]? = some fiber
  handles : ∀ fiber ∈ krnl.sched.threads, ∃ later ∈ next.sched.threads, later.handle = fiber.handle

/-- The contenders are the same fibers. -/
structure Bystands (va : Nat) (krnl next : XboxKrnl) : Prop extends Attends va krnl next where
  later : ∀ (index : Nat) (fiber : Fiber), fiber.contends va = true →
    krnl.sched.threads[index]? = some fiber → next.sched.threads[index]? = some fiber

/-- A fiber that is stuck contends. -/
theorem contends_of_stuck {fiber : Fiber} (stuck : fiber.stuck va = true) : fiber.contends va = true := by
  simp only [Fiber.stuck, Bool.and_eq_true] at stuck
  exact stuck.2

/-- The contenders are the same, and handles stay. -/
theorem Bystands.intro
    (contenders : ∀ (index : Nat) (fiber : Fiber), fiber.contends va = true →
      (krnl.sched.threads[index]? = some fiber ↔ next.sched.threads[index]? = some fiber))
    (handles : ∀ fiber ∈ krnl.sched.threads, ∃ later ∈ next.sched.threads, later.handle = fiber.handle) :
    Bystands va krnl next :=
  ⟨⟨fun index fiber contends => (contenders index fiber contends).mpr,
    fun index fiber stuck => (contenders index fiber (contends_of_stuck stuck)).mp, handles⟩,
    fun index fiber contends => (contenders index fiber contends).mp⟩

/-- Where no fiber changes, the contenders do not, either. -/
theorem Bystands.of_threads (same : next.sched.threads = krnl.sched.threads) : Bystands va krnl next := by
  refine .intro (fun index fiber _ => by rw [same]) (fun fiber member => ⟨fiber, ?_, rfl⟩)
  rw [same]
  exact member

/-- Two changes that stand by do so together. -/
theorem Bystands.trans {last : XboxKrnl} (first : Bystands va krnl next) (second : Bystands va next last) :
    Bystands va krnl last := by
  refine .intro (fun index fiber contends => ⟨fun found => ?_, fun found => ?_⟩) (fun fiber member => ?_)
  · exact second.later index fiber contends (first.later index fiber contends found)
  · exact first.earlier index fiber contends (second.earlier index fiber contends found)
  · obtain ⟨later, found, same⟩ := first.handles fiber member
    obtain ⟨latest, there, again⟩ := second.handles later found
    exact ⟨latest, there, again.trans same⟩

/-- As many fibers are stuck as before. -/
theorem Attends.countP (attends : Attends va krnl next) :
    next.sched.threads.countP (Fiber.stuck va) = krnl.sched.threads.countP (Fiber.stuck va) := by
  apply Nat.le_antisymm
  · refine Counting.countP_pointwise _ _ _ (fun index fiber found stuck => ⟨fiber, ?_, stuck⟩)
    exact attends.earlier index fiber (contends_of_stuck stuck) found
  · refine Counting.countP_pointwise _ _ _ (fun index fiber found stuck => ⟨fiber, ?_, stuck⟩)
    exact attends.stuck index fiber stuck found

/-- The invariant survives what leaves the fields and the blocked fibers alone. -/
theorem SectionHeld.attends {lock recursion : Int} {owner : Nat}
    (held : krnl.SectionHeld va depth lock recursion owner) (attends : Attends va krnl next)
    (fields : next.csFields va = krnl.csFields va) : next.SectionHeld va depth lock recursion owner := by
  refine ⟨fields.trans held.fields, held.free, fun taken => ?_, ?_, fun fiber member contends => ?_⟩
  · obtain ⟨⟨fiber, member, handle⟩, rest⟩ := held.inside taken
    obtain ⟨later, found, same⟩ := attends.handles fiber member
    exact ⟨⟨later, found, same.trans handle⟩, rest⟩
  · rw [attends.countP]
    exact held.waiters
  · obtain ⟨index, found⟩ := List.mem_iff_getElem?.mp member
    exact held.contenders fiber (List.mem_of_getElem? (attends.earlier index fiber contends found)) contends

/-- Code that stands by and leaves the fields alone keeps the invariant. -/
theorem SectionOk.bystands {lock recursion : Int} {owner : Nat}
    (kept : krnl.SectionOk va depth lock recursion owner) (stands : Bystands va krnl next)
    (fields : next.csFields va = krnl.csFields va) : next.SectionOk va depth lock recursion owner := by
  refine ⟨kept.toSectionHeld.attends stands.toAttends fields, fun free waiting => ?_⟩
  obtain ⟨fiber, member, contends, ready⟩ := kept.woken free waiting
  obtain ⟨index, found⟩ := List.mem_iff_getElem?.mp member
  exact ⟨fiber, List.mem_of_getElem? (stands.later index fiber contends found), contends, ready⟩

end XboxKrnl

open XboxKrnl

namespace Effect

/-- The effect neither wakes a fiber blocked on the section nor blocks one on it. -/
def spares (va : Nat) : Effect → Bool
  | .block _ _ (.csEnter addr) => addr != va
  | .leaveSection addr => addr != va
  | .enterLoop => false
  | .turn => false
  | _ => true

/-- Effects that neither wake a section's fibers nor turn the loop spare it. -/
theorem spares_of_label {effect : Effect} (lock : effect.label ≠ .lock) (loop : effect.label ≠ .loop) (va : Nat) :
    effect.spares va = true := by
  unfold Effect.spares
  split
  · exact absurd rfl lock
  · exact absurd rfl lock
  · exact absurd rfl loop
  · exact absurd rfl loop
  · rfl

/-- An effect that spares the section is no turn of the loop. -/
theorem quiet_of_spares {effect : Effect} {va : Nat} (spares : effect.spares va = true) : effect.label ≠ .loop := by
  intro loop
  rcases label_loop loop with rfl | rfl <;> cases spares

/-- The channel of a section is signaled by leaving the section only. -/
theorem signals_section {krnl : XboxKrnl} {va : Nat} (channels : krnl.Channels) (ok : krnl.Ok) {effect : Effect}
    (allowed : effect.Allowed krnl) (spares : effect.spares va = true) :
    ¬ effect.Signals krnl (.criticalSection va) := by
  have never : ∀ {ptr : Ptr} {object : DispatcherObject}, krnl.object? ptr = some object →
      ¬ (Token.criticalSection va = (krnl.object ptr).token ∨
        Token.criticalSection va ∈ (krnl.object ptr).mwWaiters) := by
    intro ptr object live either
    rw [krnl.object_eq _ _ live] at either
    rcases either with own | registered
    · obtain ⟨addr, form⟩ := ok.registry.tokenForm ptr _ (krnl.shapes_eq _ _ live)
      have token : object.token = .object addr := form
      rw [token] at own
      cases own
    · obtain ⟨handle, other⟩ := channels ptr object live _ registered
      cases other
  intro signals
  cases effect with
  | setEvent ptr =>
    obtain ⟨object, live, _⟩ := allowed
    exact never live signals
  | pulseEvent ptr =>
    obtain ⟨object, live, _⟩ := allowed
    exact never live signals
  | releaseMutant ptr =>
    obtain ⟨object, live, _⟩ := allowed
    exact never live signals
  | releaseSemaphore ptr adjustment =>
    obtain ⟨object, live, _⟩ := allowed
    exact never live signals
  | resumeThread ptr =>
    obtain ⟨object, live, _⟩ := allowed
    exact never live (Or.inl signals)
  | abandon ptr =>
    obtain ⟨object, live, _⟩ := allowed
    exact never live signals
  | wakeJoiner ptr =>
    obtain ⟨object, live, _⟩ := allowed
    exact never live signals
  | leaveSection addr =>
    have same : Token.criticalSection va = .criticalSection addr := signals
    injection same with same
    simp [Effect.spares, same] at spares
  | _ => exact signals

end Effect

namespace XboxKrnl

variable {krnl next : XboxKrnl} {va : Nat} {depth : Nat → Int}

/-- The running fiber does not come to contend by an effect that spares the section. -/
theorem moves_contends {effect : Effect} (allowed : effect.Allowed krnl) (spares : effect.spares va = true)
    {fiber : Fiber} (elsewhere : fiber.contends va = false) :
    Fiber.contends va (effect.moves krnl fiber) = false := by
  cases effect with
  | block token ticks point =>
    cases point with
    | csEnter addr => simpa [Effect.moves, blockedAt, Fiber.contends, Effect.spares] using spares
    | _ => rfl
  | pause state wakeTick joinTarget point =>
    obtain ⟨_, ⟨_, reply, rfl⟩ | ⟨_, rfl⟩⟩ := allowed <;> rfl
  | suspendSelf ptr out reply => rfl
  | enter => rfl
  | proceed => rfl
  | _ => exact elsewhere

/-- An effect that spares the section stands by, unless the running fiber contends. -/
theorem Ok.bystands (ok : krnl.Ok) (channels : krnl.Channels) {effect : Effect} (allowed : effect.Allowed krnl)
    (spares : effect.spares va = true)
    (elsewhere : ∀ fiber, krnl.currentFiber = some fiber → Fiber.contends va fiber = false) :
    Bystands va krnl (effect.apply krnl) := by
  have quiet := Effect.quiet_of_spares spares
  have silent := Effect.signals_section channels ok allowed spares
  have running : ∀ {index : Nat} {fiber : Fiber}, krnl.sched.threads[index]? = some fiber →
      krnl.sched.current = some index → fiber.contends va = false := by
    intro index fiber found switched
    refine elsewhere fiber ?_
    simp [currentFiber, switched, found]
  have asleep : ∀ {index : Nat} {fiber : Fiber}, krnl.sched.threads[index]? = some fiber →
      fiber.contends va = true → fiber.state = .blockedWait → ¬ effect.Signals krnl fiber.waitToken := by
    intro index fiber found contends blocked
    have stuck : fiber.stuck va = true := by simp [Fiber.stuck, blocked, contends]
    rw [((ok.stuck_iff (List.mem_of_getElem? found)).mpr stuck).2]
    exact silent
  refine .intro (fun index fiber contends => ⟨fun found => ?_, fun found => ?_⟩) (fun fiber member => ?_)
  · obtain ⟨after, later, fate⟩ := Effect.fiber_fate ok allowed quiet found
    rcases fate with ⟨switched, _⟩ | ⟨_, rfl | ⟨blocked, signals, _⟩⟩
    · rw [running found switched] at contends
      cases contends
    · exact later
    · exact absurd signals (asleep found contends blocked)
  · rcases Effect.fiber_origin ok allowed quiet found with ⟨earlier, before, fate⟩ | ⟨_, spawned⟩
    · rcases fate with ⟨switched, rfl⟩ | ⟨_, rfl | ⟨blocked, signals, rfl⟩⟩
      · rw [moves_contends allowed spares (running before switched)] at contends
        cases contends
      · exact before
      · exact absurd signals (asleep before contends blocked)
    · have entry := (Effect.spawned_fresh spawned).1
      simp [Fiber.contends, entry] at contends
  · obtain ⟨index, found⟩ := List.mem_iff_getElem?.mp member
    obtain ⟨after, later, fate⟩ := Effect.fiber_fate ok allowed quiet found
    refine ⟨after, List.mem_of_getElem? later, ?_⟩
    rcases fate with ⟨_, rfl⟩ | ⟨_, rfl | ⟨_, _, rfl⟩⟩
    · exact effect.moves_handle krnl fiber
    · rfl
    · rfl

/-- Kernel code without the labels of critical sections leaves the contenders alone. -/
theorem Steady.bystands_path {labels : List Label} (steady : krnl.Steady) (channels : krnl.Channels)
    (path : Path labels krnl next) (unlocked : .lock ∉ labels) (quiet : .loop ∉ labels) :
    Bystands va krnl next := by
  induction path with
  | refl => exact .of_threads rfl
  | tail earlier last inductionHypothesis =>
    obtain ⟨effect, labeled, allowed, rfl⟩ := last
    have before := Path.steady earlier steady quiet
    refine inductionHypothesis.trans (before.ok.bystands (channels.path steady.ok earlier) allowed
      (Effect.spares_of_label ?_ ?_ va) (fun fiber running => ?_))
    · exact fun lock => unlocked (lock ▸ labeled)
    · exact fun loop => quiet (loop ▸ labeled)
    · simp [Fiber.contends, before.guest fiber running]

end XboxKrnl

end SeriesxEmu
