import SeriesxEmu.TouchedSteps
import SeriesxEmu.Slots
import SeriesxEmu.GuestWords

/-!
# The handle table

Handles are the slots of a table whose free slots are recycled. An accepted creation call puts
the new object into the next slot and stores its handle, an accepted `NtClose` empties the
slot, and nothing else changes the table. An observer who notes down which object each handle
was given out for and which handles were closed therefore knows what every lookup finds.
-/

namespace SeriesxEmu

open Scheduler GuestScheduler

namespace XboxKrnl

variable {krnl next : XboxKrnl} {extent : Extent}

/-- The handle table as a table of slots. -/
def slots (krnl : XboxKrnl) : SlotTable Ptr := { cells := krnl.objects, free := krnl.freeSlots }

/-- The handle that `insert_object` returns next. -/
def freshHandle (krnl : XboxKrnl) : Nat := (krnl.insertObject krnl.heap.length).2

/-- `insert_object` takes a slot and returns its handle. -/
theorem insertObject_slots (krnl : XboxKrnl) (ptr : Ptr) :
    (krnl.insertObject ptr).1.slots = krnl.slots.insert ptr ∧ (krnl.insertObject ptr).2 = krnl.freshHandle := by
  unfold freshHandle insertObject slots SlotTable.insert
  cases krnl.freeSlots.getLast? <;> exact ⟨rfl, rfl⟩

/-- The next handle is four times the number of the next slot, counted from one. -/
theorem freshHandle_eq (krnl : XboxKrnl) : krnl.freshHandle = 4 * (krnl.slots.next + 1) := by
  unfold freshHandle insertObject slots SlotTable.next
  cases krnl.freeSlots.getLast? <;> rfl

/-- A handle is looked up in its slot. -/
theorem findObjectByHandle_slots (krnl : XboxKrnl) (handle : Nat) : krnl.findObjectByHandle handle =
    if handle = 0 ∨ handle % 4 ≠ 0 then none else krnl.slots.lookup (handle / 4 - 1) :=
  rfl

/-- So lookups depend on the slots only. -/
theorem findObjectByHandle_congr (same : next.slots = krnl.slots) (handle : Nat) :
    next.findObjectByHandle handle = krnl.findObjectByHandle handle := by
  rw [findObjectByHandle_slots, same, findObjectByHandle_slots]

/-- And so does the next handle. -/
theorem freshHandle_congr (same : next.slots = krnl.slots) : next.freshHandle = krnl.freshHandle := by
  rw [freshHandle_eq, same, freshHandle_eq]

/-- A new entry changes the lookup of its own handle only. -/
theorem findObjectByHandle_insert (ok : krnl.slots.Ok) {ptr : Ptr} (inserted : next.slots = krnl.slots.insert ptr)
    (handle : Nat) : next.findObjectByHandle handle =
      if handle = krnl.freshHandle then some ptr else krnl.findObjectByHandle handle := by
  rw [findObjectByHandle_slots, inserted, ok.lookup_insert, findObjectByHandle_slots, freshHandle_eq]
  by_cases shaped : handle = 0 ∨ handle % 4 ≠ 0
  · have other : handle ≠ 4 * (krnl.slots.next + 1) := by omega
    simp only [shaped, ↓reduceIte, other]
  · have slot : handle / 4 - 1 = krnl.slots.next ↔ handle = 4 * (krnl.slots.next + 1) := by omega
    simp only [shaped, ↓reduceIte, slot]

/-- A closed handle finds nothing, and every other handle what it found before. -/
theorem findObjectByHandle_remove {closed : Nat} (valid : ¬ (closed = 0 ∨ closed % 4 ≠ 0))
    (removed : next.slots = krnl.slots.remove (closed / 4 - 1)) (handle : Nat) :
    next.findObjectByHandle handle = if handle = closed then none else krnl.findObjectByHandle handle := by
  rw [findObjectByHandle_slots, removed, SlotTable.lookup_remove, findObjectByHandle_slots]
  by_cases shaped : handle = 0 ∨ handle % 4 ≠ 0
  · simp only [shaped, ↓reduceIte, ite_self]
  · have slot : handle / 4 - 1 = closed / 4 - 1 ↔ handle = closed := by omega
    simp only [shaped, ↓reduceIte, slot]

/-- An identity has no handle. -/
theorem ensureThreadObject_slots (krnl : XboxKrnl) (fiber : Nat) :
    (krnl.ensureThreadObject fiber).1.slots = krnl.slots := by
  unfold ensureThreadObject
  cases krnl.fiberThread? fiber <;> rfl

/-- Kernel code that neither creates nor closes handles leaves the table alone. -/
theorem Touched.slots (touched : Touched extent krnl next) (creates : extent.creates = false)
    (closes : extent.closes = false) : next.slots = krnl.slots := by
  have kept : ∀ state touch, state.slots = krnl.slots → extent.Allows state touch →
      (touch.apply state).slots = krnl.slots := by
    intro state touch same allowed
    cases touch with
    | identify fiber => exact (ensureThreadObject_slots state fiber).trans same
    | take ptr token =>
      simp only [Touch.apply]
      split <;> exact same
    | create object =>
      exact absurd (creates.symm.trans allowed.1) Bool.false_ne_true
    | close slot ptr =>
      exact absurd (closes.symm.trans allowed.1) Bool.false_ne_true
    | _ => exact same
  exact touched.keeps kept rfl

/-! ## Calls that create a handle -/

/-- The kind of the object that a call creates and the pointer its handle goes to. -/
def creation : Call → Option (Kind × Nat)
  | .ntCreateEvent out _ _ _ => some (.event, out)
  | .ntCreateMutant out _ _ => some (.mutant, out)
  | .ntCreateSemaphore out _ _ _ => some (.semaphore, out)
  | .psCreateSystemThreadEx request => some (.thread, request.threadHandle)
  | _ => none

/-- Nothing that the call stores after the handle lands on it: the thread identifier goes
elsewhere, nowhere, or to the same word. -/
def ResultApart : Call → Prop
  | .psCreateSystemThreadEx request => request.threadId = 0 ∨ request.threadId = request.threadHandle ∨
      request.threadId + 4 ≤ request.threadHandle ∨ request.threadHandle + 4 ≤ request.threadId
  | _ => True

/-- An accepted creation: a new object of the kind is in the next slot, and the handle of the
slot is stored. -/
structure Creates (krnl : XboxKrnl) (call : Call) (kind : Kind) (out : Nat) (next : XboxKrnl) : Prop where
  heap : krnl.heap.length < next.heap.length
  slots : next.slots = krnl.slots.insert (next.heap.length - 1)
  kind : (next.object (next.heap.length - 1)).kind = kind
  stored : ResultApart call → next.ram.read32 out = some (krnl.freshHandle % 2 ^ 32)

/-- Putting a new object into the table and storing its handle. -/
theorem createObject_creates (krnl : XboxKrnl) {call : Call} {kind : Kind} {out : Nat} (object : DispatcherObject)
    (isKind : object.kind = kind) (usable : krnl.ram.writable out 4 = true) :
    krnl.Creates call kind out (krnl.createObject out object).1 := by
  obtain ⟨inserted, handle⟩ := (krnl.allocate object).1.insertObject_slots krnl.heap.length
  have heap : (krnl.createObject out object).1.heap = (krnl.allocate object).1.heap := by
    simp only [createObject, XboxKrnl.write32, insertObject]
    split <;> rfl
  have size : (krnl.createObject out object).1.heap.length = krnl.heap.length + 1 := by
    rw [heap]
    simp [allocate]
  refine ⟨by omega, ?_, ?_, fun _ => ?_⟩
  · rw [size, Nat.add_sub_cancel]
    exact inserted
  · have placed : (krnl.createObject out object).1.object? krnl.heap.length =
        some { object with token := .object krnl.freshAddress } := by
      rw [object?, heap]
      exact (krnl.object?_allocate object krnl.heap.length).trans (if_pos rfl)
    rw [size, Nat.add_sub_cancel, object_eq _ _ _ placed]
    exact isKind
  · have ram : (krnl.createObject out object).1.ram =
        krnl.ram.write32 out ((krnl.allocate object).1.insertObject krnl.heap.length).2 := by
      simp only [createObject, XboxKrnl.write32, insertObject]
      split <;> rfl
    have same : (krnl.allocate object).1.freshHandle = krnl.freshHandle := freshHandle_congr rfl
    rw [ram, handle, XbeRam.read32_write32 usable, same]

/-- Asking for the own token takes no slot. -/
theorem currentThreadToken_slots (krnl : XboxKrnl) : krnl.currentThreadToken.1.slots = krnl.slots ∧
    krnl.heap.length ≤ krnl.currentThreadToken.1.heap.length ∧ krnl.currentThreadToken.1.ram = krnl.ram := by
  unfold currentThreadToken ensureThreadObject
  split
  · exact ⟨rfl, Nat.le_refl _, rfl⟩
  · cases krnl.fiberThread? krnl.currentHandle with
    | some ptr => exact ⟨rfl, Nat.le_refl _, rfl⟩
    | none => exact ⟨rfl, by simp [allocate], rfl⟩

/-- A creation after the caller has got its identity. -/
theorem Creates.of_token {call : Call} {kind : Kind} {out : Nat}
    (creates : krnl.currentThreadToken.1.Creates call kind out next) : krnl.Creates call kind out next := by
  obtain ⟨slots, heap, _⟩ := krnl.currentThreadToken_slots
  refine ⟨Nat.lt_of_le_of_lt heap creates.heap, slots ▸ creates.slots, creates.kind, fun apart => ?_⟩
  rw [← freshHandle_congr slots]
  exact creates.stored apart

/-- An entry of the history is no part of a creation. -/
theorem Creates.note {call : Call} {kind : Kind} {out : Nat} (creates : krnl.Creates call kind out next) (event : Event) :
    krnl.Creates call kind out (next.note event) :=
  ⟨creates.heap, creates.slots, creates.kind, creates.stored⟩

/-- The call creates a mutant, or leaves the slots alone. -/
theorem ntCreateMutant_creates (krnl : XboxKrnl) {call : Call} (out initialOwner : Nat) :
    if (krnl.ntCreateMutant out initialOwner).2.ok then
      krnl.Creates call .mutant out (krnl.ntCreateMutant out initialOwner).1
    else (krnl.ntCreateMutant out initialOwner).1.slots = krnl.slots := by
  unfold ntCreateMutant
  split
  · rfl
  · rename_i usable
    simp only [Bool.not_eq_true', Bool.not_eq_false] at usable
    split
    · split
      · rfl
      · have stored : krnl.currentThreadToken.1.ram.writable out 4 = true := by
          rw [krnl.currentThreadToken_slots.2.2]
          exact usable
        have created : krnl.currentThreadToken.1.Creates call .mutant out (krnl.currentThreadToken.1.createObject out
            (newMutant 0 (some krnl.currentThreadToken.2))).1 :=
          createObject_creates _ _ rfl stored
        exact created.of_token.note _
    · exact createObject_creates krnl _ rfl usable

/-- An out-parameter that can be stored is. -/
theorem writeOut_ram (krnl : XboxKrnl) (out value : Nat) : krnl.writeOut out value = { krnl with
    ram := if out ≠ 0 ∧ krnl.ram.writable out 4 then krnl.ram.write32 out value else krnl.ram } := by
  unfold XboxKrnl.writeOut
  split
  · rfl
  · rfl

/-- The results of a thread creation: the handle, and the identifier through an optional
pointer. -/
theorem read32_results {ram : XbeRam} {request : ThreadRequest} (usable : ram.writable request.threadHandle 4 = true)
    (apart : ResultApart (.psCreateSystemThreadEx request)) (handle : Nat) :
    (if request.threadId ≠ 0 ∧ (ram.write32 request.threadHandle handle).writable request.threadId 4 then
      (ram.write32 request.threadHandle handle).write32 request.threadId handle
      else ram.write32 request.threadHandle handle).read32 request.threadHandle = some (handle % 2 ^ 32) := by
  split
  · rename_i given
    rcases apart with absent | same | below | above
    · exact absurd absent given.1
    · rw [same, XbeRam.read32_write32]
      rw [XbeRam.writable_write32]
      exact usable
    · rw [XbeRam.read32_write32_other (Or.inl below), XbeRam.read32_write32 usable]
    · rw [XbeRam.read32_write32_other (Or.inr above), XbeRam.read32_write32 usable]
  · exact XbeRam.read32_write32 usable handle

/-- A spawned fiber's object goes into the table, learns its handle, and the results are stored. -/
theorem spawned_creates {spawned : XboxKrnl} (sameSlots : spawned.slots = krnl.slots)
    (sameHeap : spawned.heap = krnl.heap) (sameRam : spawned.ram = krnl.ram) {request : ThreadRequest}
    (usable : krnl.ram.writable request.threadHandle 4 = true) (object : DispatcherObject)
    (isThread : object.kind = .thread) (event : Event) :
    let inserted := (spawned.allocate object).1.insertObject spawned.heap.length
    let filled := (inserted.1.modify spawned.heap.length (fun o =>
      { o with thread := { o.thread with objectHandle := inserted.2 } })).note event
    krnl.Creates (.psCreateSystemThreadEx request) .thread request.threadHandle
      ((filled.write32 request.threadHandle inserted.2).writeOut request.threadId inserted.2) := by
  intro inserted filled
  have table := (spawned.allocate object).1.insertObject_slots spawned.heap.length
  have handle : inserted.2 = krnl.freshHandle :=
    table.2.trans (freshHandle_congr (show (spawned.allocate object).1.slots = krnl.slots from sameSlots))
  have same : inserted.1.heap = (spawned.allocate object).1.heap ∧ inserted.1.ram = spawned.ram := by
    simp only [inserted]
    unfold insertObject
    split <;> exact ⟨rfl, rfl⟩
  have placed : inserted.1.object? spawned.heap.length = some { object with token := .object spawned.freshAddress } := by
    rw [object?, same.1]
    exact (spawned.object?_allocate object spawned.heap.length).trans (if_pos rfl)
  have isKind : (filled.object spawned.heap.length).kind = .thread := by
    have changed := inserted.1.object?_modify spawned.heap.length spawned.heap.length
      (fun o => { o with thread := { o.thread with objectHandle := inserted.2 } })
    rw [if_pos rfl, placed, Option.map_some] at changed
    rw [object_eq filled _ _ changed]
    exact isThread
  have size : filled.heap.length = krnl.heap.length + 1 := by
    simp [filled, XboxKrnl.note, XboxKrnl.modify, same.1, allocate, sameHeap]
  have memory : filled.ram = krnl.ram := same.2.trans sameRam
  rw [writeOut_ram]
  refine ⟨?_, ?_, ?_, fun apart => ?_⟩
  · exact Nat.lt_of_lt_of_eq (Nat.lt_succ_self _) size.symm
  · change filled.slots = krnl.slots.insert (filled.heap.length - 1)
    rw [size, Nat.add_sub_cancel, ← sameSlots, ← sameHeap]
    exact table.1
  · change (filled.object (filled.heap.length - 1)).kind = .thread
    rw [size, Nat.add_sub_cancel, ← sameHeap]
    exact isKind
  · have read := read32_results usable apart inserted.2
    rw [← memory] at read
    rw [← handle]
    exact read

/-- The call creates a thread, or frees its slot again. -/
theorem psCreateSystemThreadEx_creates (krnl : XboxKrnl) (request : ThreadRequest) :
    if (krnl.psCreateSystemThreadEx request).2.ok then krnl.Creates (.psCreateSystemThreadEx request) .thread
      request.threadHandle (krnl.psCreateSystemThreadEx request).1
    else (krnl.psCreateSystemThreadEx request).1.slots = krnl.slots := by
  unfold psCreateSystemThreadEx
  split
  · rfl
  · rename_i usable
    simp only [Bool.not_eq_true', Bool.not_eq_false] at usable
    generalize krnl.sched.spawnReserved { body := .systhread none, point := .entry } request.tlsDataSize
      request.region = outcome
    simp only
    split
    · rfl
    · have spawned : XboxKrnl.slots { krnl with sched := outcome.1, nextThreadId := krnl.nextThreadId + 2 } =
          krnl.slots := rfl
      exact spawned_creates spawned rfl rfl usable _ rfl _

/-- A call that creates a handle is accepted and does so, or leaves the table alone. -/
theorem exec_creates (krnl : XboxKrnl) {call : Call} {kind : Kind} {out : Nat}
    (creates : creation call = some (kind, out)) :
    if krnl.accepts call then krnl.Creates call kind out (krnl.exec call).1
    else (krnl.exec call).1.slots = krnl.slots := by
  cases call with
  | ntCreateEvent target attributes type state =>
    cases creates
    simp only [accepts, XboxKrnl.exec, returning, Option.map_some, Option.getD_some]
    unfold XboxKrnl.ntCreateEvent
    split
    · rfl
    · split
      · rfl
      · rename_i usable
        exact createObject_creates krnl _ rfl (by simpa using usable)
  | ntCreateMutant target attributes initialOwner =>
    cases creates
    exact krnl.ntCreateMutant_creates out initialOwner
  | ntCreateSemaphore target attributes initial maximum =>
    cases creates
    simp only [accepts, XboxKrnl.exec, returning, Option.map_some, Option.getD_some]
    unfold XboxKrnl.ntCreateSemaphore
    split
    · rfl
    · rename_i usable
      split
      · rfl
      · have created : krnl.Creates (.ntCreateSemaphore out attributes initial maximum) .semaphore out
            (krnl.createObject out
              { kind := .semaphore, semaphore := { count := int32 initial, limit := int32 maximum } }).1 :=
          createObject_creates krnl _ rfl (by simpa using usable)
        exact created.note _
  | psCreateSystemThreadEx request =>
    cases creates
    exact krnl.psCreateSystemThreadEx_creates request
  | _ => cases creates

/-! ## Every call -/

/-- Closing a handle that is open frees its slot, and is accepted. -/
theorem ntClose_slots (krnl : XboxKrnl) (handle : Nat) :
    (krnl.accepts (.ntClose handle) = (krnl.findObjectByHandle handle).isSome) ∧
      (krnl.exec (.ntClose handle)).1.slots = if (krnl.findObjectByHandle handle).isSome then
        krnl.slots.remove (handle / 4 - 1) else krnl.slots := by
  simp only [accepts, XboxKrnl.exec, returning, XboxKrnl.ntClose]
  cases krnl.findObjectByHandle handle with
  | none => exact ⟨rfl, rfl⟩
  | some ptr => exact ⟨rfl, rfl⟩

/-- A call that neither creates a handle nor closes one leaves the table alone. -/
theorem Steady.exec_slots (steady : krnl.Steady) {call : Call} (creates : creation call = none)
    (closes : ∀ handle, call ≠ .ntClose handle) : (krnl.exec call).1.slots = krnl.slots := by
  refine Touched.slots (steady.exec_touched call) ?_ ?_
  · cases call with
    | ntCreateEvent | ntCreateMutant | ntCreateSemaphore | psCreateSystemThreadEx => cases creates
    | _ => rfl
  · cases call with
    | ntClose handle => exact absurd rfl (closes handle)
    | _ => rfl

/-! ## Runs with a record of the handles -/

/-- The observer notes which object a creation call gave a handle out for, and which handles
were closed. -/
def noteHandles (krnl : XboxKrnl) (action : Action) (next : XboxKrnl) (issued : Nat → Option Ptr) :
    Nat → Option Ptr :=
  match action with
  | .call call =>
    if krnl.refreshData.accepts call then
      match call, creation call with
      | .ntClose handle, _ => Function.update issued handle none
      | _, some _ => Function.update issued krnl.freshHandle (some (next.heap.length - 1))
      | _, none => issued
    else issued
  | _ => issued

/-- The table is well formed, and lookups find what the observer has noted down. -/
structure Told (krnl : XboxKrnl) (issued : Nat → Option Ptr) : Prop where
  slots : krnl.slots.Ok
  lookups : ∀ handle, krnl.findObjectByHandle handle = issued handle

/-- What a step does to the table. -/
structure HandleStep (krnl : XboxKrnl) (issued : Nat → Option Ptr) (action : Action) (next : XboxKrnl) : Prop where
  created : ∀ call kind out, action = .call call → creation call = some (kind, out) →
    krnl.refreshData.accepts call = true →
      (krnl.freshHandle ≠ 0 ∧ krnl.freshHandle % 4 = 0 ∧ issued krnl.freshHandle = none ∧
        (krnl.objects.length < 2 ^ 30 - 1 → krnl.freshHandle < 2 ^ 32)) ∧
      (krnl.heap.length < next.heap.length ∧ (next.object (next.heap.length - 1)).kind = kind ∧
        next.findObjectByHandle krnl.freshHandle = some (next.heap.length - 1)) ∧
      (ResultApart call → next.ram.read32 out = some (krnl.freshHandle % 2 ^ 32))
  closed : ∀ handle, action = .call (.ntClose handle) →
    (krnl.refreshData.accepts (.ntClose handle) = true ↔ (issued handle).isSome = true) ∧
      next.findObjectByHandle handle = none
  others : ∀ handle, next.findObjectByHandle handle ≠ krnl.findObjectByHandle handle →
    ∃ call, action = .call call ∧ krnl.refreshData.accepts call = true ∧
      (((creation call).isSome = true ∧ handle = krnl.freshHandle) ∨ call = .ntClose handle)

/-- The tick count is in no slot. -/
theorem refreshData_slots (krnl : XboxKrnl) : krnl.refreshData.slots = krnl.slots ∧
    krnl.refreshData.heap = krnl.heap := by
  obtain ⟨ram, refreshed⟩ := krnl.refreshData_eq
  rw [refreshed]
  exact ⟨rfl, rfl⟩

/-- A reply changes neither slots nor objects nor memory. -/
theorem deliver_same (krnl : XboxKrnl) (reply : Option Reply) : (krnl.deliver reply).slots = krnl.slots ∧
    (krnl.deliver reply).heap = krnl.heap ∧ (krnl.deliver reply).ram = krnl.ram := by
  cases reply <;> exact ⟨rfl, rfl, rfl⟩

/-- The table right after a step: as before, with one handle more, or with one less. -/
inductive TableStep (krnl : XboxKrnl) (action : Action) (next : XboxKrnl) : Prop where
  | keeps (same : next.slots = krnl.slots) (unmarked : ∀ issued, noteHandles krnl action next issued = issued)
      (refused : ∀ call, action = .call call → krnl.refreshData.accepts call = true →
        creation call = none ∧ ∀ handle, call ≠ .ntClose handle)
      (dead : ∀ handle, action = .call (.ntClose handle) → krnl.findObjectByHandle handle = none)
  | creates (call : Call) (kind : Kind) (out : Nat) (made : action = .call call)
      (creation : creation call = some (kind, out)) (accepted : krnl.refreshData.accepts call = true)
      (done : krnl.Creates call kind out next)
  | closes (handle : Nat) (ptr : Ptr) (made : action = .call (.ntClose handle))
      (accepted : krnl.refreshData.accepts (.ntClose handle) = true)
      (found : krnl.findObjectByHandle handle = some ptr) (removed : next.slots = krnl.slots.remove (handle / 4 - 1))

/-- The creation as the caller sees it, before the data exports are refreshed and after the
reply is delivered. -/
theorem Creates.of_call {call : Call} {kind : Kind} {out : Nat} (reply : Option Reply)
    (creates : krnl.refreshData.Creates call kind out next) : krnl.Creates call kind out (next.deliver reply) := by
  obtain ⟨slots, heap⟩ := krnl.refreshData_slots
  obtain ⟨laterSlots, laterHeap, laterRam⟩ := next.deliver_same reply
  refine ⟨?_, ?_, ?_, fun apart => ?_⟩
  · rw [laterHeap, ← heap]
    exact creates.heap
  · rw [laterSlots, laterHeap, ← slots]
    exact creates.slots
  · rw [laterHeap, object, object?, laterHeap]
    exact creates.kind
  · rw [laterRam, ← freshHandle_congr slots]
    exact creates.stored apart

/-- A fiber that goes on neither creates nor closes a handle. -/
theorem resumeExtent_slots (krnl : XboxKrnl) : krnl.resumeExtent.creates = false ∧ krnl.resumeExtent.closes = false := by
  unfold resumeExtent
  cases krnl.currentFiber <;> exact ⟨rfl, rfl⟩

/-- Every action creates a handle, closes one, or leaves the table alone.

Proof: by the action. A call creates, closes or does neither, by its kind alone; the resumption of a
fiber, and the host, stay within an extent that names no slot. -/
theorem Steady.tableStep (steady : krnl.Steady) {action : Action} (stepped : krnl.step action = some next) :
    krnl.TableStep action next := by
  cases action with
  | call call =>
    obtain ⟨_, _, rfl⟩ := call_cases stepped
    obtain ⟨slots, heap⟩ := krnl.refreshData_slots
    obtain ⟨later, _, _⟩ := (krnl.refreshData.exec call).1.deliver_same (krnl.refreshData.exec call).2
    cases made : creation call with
    | some made' =>
      obtain ⟨kind, out⟩ := made'
      have result := krnl.refreshData.exec_creates made
      split at result
      · rename_i accepted
        exact .creates call kind out rfl made accepted (result.of_call _)
      · rename_i refused
        refine .keeps (later.trans (result.trans slots)) (fun issued => ?_) (fun other same accepted => ?_)
          (fun handle same => ?_)
        · simp [noteHandles, refused]
        · cases same
          exact absurd accepted refused
        · cases same
          cases made
    | none =>
      by_cases closes : ∃ handle, call = .ntClose handle
      · obtain ⟨handle, rfl⟩ := closes
        obtain ⟨accepts, closed⟩ := krnl.refreshData.ntClose_slots handle
        rw [findObjectByHandle_congr slots] at accepts closed
        cases found : krnl.findObjectByHandle handle with
        | some ptr =>
          rw [found] at accepts closed
          refine .closes handle ptr rfl accepts found (later.trans (closed.trans ?_))
          rw [slots]
          rfl
        | none =>
          rw [found] at accepts closed
          refine .keeps (later.trans (closed.trans slots)) (fun issued => ?_) (fun other same accepted => ?_)
            (fun other same => ?_)
          · simp [noteHandles, accepts]
          · cases same
            rw [accepts] at accepted
            cases accepted
          · cases same
            exact found
      · have quiet : ∀ handle, call ≠ .ntClose handle := fun handle same => closes ⟨handle, same⟩
        refine .keeps (later.trans ((steady.refreshed.exec_slots made quiet).trans slots)) (fun issued => ?_)
          (fun other same _ => ?_) (fun handle same => ?_)
        · simp only [noteHandles, made]
          split <;> rfl
        · cases same
          exact ⟨made, quiet⟩
        · cases same
          exact absurd rfl (quiet handle)
  | compute ram filetime =>
    obtain touched | ⟨_, _, _, rfl⟩ := steady.step_touched stepped
    · exact .keeps (Touched.slots touched rfl rfl) (fun _ => rfl) (fun _ same => by cases same)
        (fun _ same => by cases same)
    · exact .keeps rfl (fun _ => rfl) (fun _ same => by cases same) (fun _ same => by cases same)
  | turn =>
    obtain touched | ⟨_, _, same, _⟩ := steady.step_touched stepped
    · obtain ⟨creates, closes⟩ := ((Effect.turn).apply krnl).resumeExtent_slots
      exact .keeps (Touched.slots touched creates closes) (fun _ => rfl) (fun _ same => by cases same)
        (fun _ same => by cases same)
    · cases same
  | run | finish _ | spawn _ _ | sleep _ | join _ =>
    obtain touched | ⟨_, _, same, _⟩ := steady.step_touched stepped
    · exact .keeps (Touched.slots touched rfl rfl) (fun _ => rfl) (fun _ same => by cases same)
        (fun _ same => by cases same)
    · cases same

/-- A step keeps the table and the notes together. -/
theorem Told.step {issued : Nat → Option Ptr} {action : Action} (told : krnl.Told issued)
    (step : krnl.TableStep action next) : next.Told (noteHandles krnl action next issued) := by
  cases step with
  | keeps same unmarked _ _ =>
    rw [unmarked]
    refine ⟨same ▸ told.slots, fun handle => ?_⟩
    rw [findObjectByHandle_congr same]
    exact told.lookups handle
  | creates call kind out made creation accepted done =>
    have notes : noteHandles krnl action next issued =
        Function.update issued krnl.freshHandle (some (next.heap.length - 1)) := by
      rw [made]
      simp only [noteHandles, accepted, ↓reduceIte, creation]
      split
      · cases creation
      · rfl
      · rename_i absent
        cases absent
    rw [notes]
    refine ⟨done.slots ▸ told.slots.insert _, fun handle => ?_⟩
    rw [findObjectByHandle_insert told.slots done.slots, Function.update_apply, told.lookups]
  | closes handle ptr made accepted found removed =>
    have notes : noteHandles krnl action next issued = Function.update issued handle none := by
      rw [made]
      simp [noteHandles, accepted]
    rw [notes]
    have valid : ¬ (handle = 0 ∨ handle % 4 ≠ 0) := by
      intro shaped
      rw [findObjectByHandle_slots, if_pos shaped] at found
      cases found
    have occupied : krnl.slots.lookup (handle / 4 - 1) = some ptr := by
      rw [findObjectByHandle_slots, if_neg valid] at found
      exact found
    refine ⟨removed ▸ told.slots.remove occupied, fun other => ?_⟩
    rw [findObjectByHandle_remove valid removed, Function.update_apply, told.lookups]

/-- What a step does to the table, in terms of the handles noted down. -/
theorem Told.handleStep {issued : Nat → Option Ptr} {action : Action} (told : krnl.Told issued)
    (step : krnl.TableStep action next) : krnl.HandleStep issued action next := by
  have shape : krnl.freshHandle = 4 * (krnl.slots.next + 1) := krnl.freshHandle_eq
  have unused : krnl.findObjectByHandle krnl.freshHandle = none := by
    rw [findObjectByHandle_slots, shape, if_neg (by omega), show 4 * (krnl.slots.next + 1) / 4 - 1 = krnl.slots.next by omega]
    exact told.slots.lookup_next
  cases step with
  | keeps same unmarked refused dead =>
    refine ⟨fun call kind out made creation accepted => ?_, fun handle made => ⟨⟨fun accepted => ?_, fun known => ?_⟩, ?_⟩,
      fun handle changed => ?_⟩
    · rw [(refused call made accepted).1] at creation
      cases creation
    · exact absurd rfl ((refused _ made accepted).2 handle)
    · rw [← told.lookups, dead handle made] at known
      cases known
    · rw [findObjectByHandle_congr same]
      exact dead handle made
    · exact absurd (findObjectByHandle_congr same handle) changed
  | creates call kind out made creation accepted done =>
    have lookups := findObjectByHandle_insert told.slots done.slots
    refine ⟨fun other otherKind otherOut same otherCreation _ => ?_, fun handle same => ?_, fun handle changed => ?_⟩
    · cases made.symm.trans same
      cases creation.symm.trans otherCreation
      refine ⟨⟨by omega, by omega, ?_, fun small => ?_⟩, ⟨done.heap, done.kind, ?_⟩, done.stored⟩
      · rw [← told.lookups]
        exact unused
      · have inside : krnl.slots.next ≤ krnl.objects.length := SlotTable.next_le told.slots
        omega
      · rw [lookups, if_pos rfl]
    · cases made.symm.trans same
      cases creation
    · rw [lookups] at changed
      split at changed
      · rename_i same
        exact ⟨call, made, accepted, Or.inl ⟨by rw [creation]; rfl, same⟩⟩
      · exact absurd rfl changed
  | closes handle ptr made accepted found removed =>
    have valid : ¬ (handle = 0 ∨ handle % 4 ≠ 0) := by
      intro shaped
      rw [findObjectByHandle_slots, if_pos shaped] at found
      cases found
    have lookups := findObjectByHandle_remove valid removed
    refine ⟨fun other kind out same creation _ => ?_, fun other same => ?_, fun other changed => ?_⟩
    · cases made.symm.trans same
      cases creation
    · cases made.symm.trans same
      refine ⟨⟨fun _ => ?_, fun _ => accepted⟩, ?_⟩
      · rw [← told.lookups, found]
        rfl
      · rw [lookups, if_pos rfl]
    · rw [lookups] at changed
      split at changed
      · rename_i same
        subst same
        exact ⟨_, made, accepted, Or.inr rfl⟩
      · exact absurd rfl changed

/-- The handle table of a state, with the objects that handles were issued for. -/
structure HandleTable (krnl : XboxKrnl) (issued : Nat → Option Ptr) : Prop where
  once : krnl.freeSlots.Nodup
  lists : ∀ slot, slot ∈ krnl.freeSlots ↔ krnl.objects[slot]? = some none
  lookups : ∀ handle, krnl.findObjectByHandle handle = issued handle
  handles : ∀ handle ptr, issued handle = some ptr → handle ≠ 0 ∧ handle % 4 = 0 ∧ krnl.live ptr = true
  distinct : ∀ handle other ptr, issued handle = some ptr → issued other = some ptr → handle = other
  steps : ∀ action next, krnl.step action = some next → krnl.HandleStep issued action next

/-- Over every run, the free list names the empty slots, and every lookup finds the object its
handle was issued for until the handle is closed.

Proof: the notes of what was issued and the slots of the table stay in step. A creation takes the
last free slot or a new one, a closing gives its slot back, and nothing else touches the table. -/
theorem handle_table {ram : XbeRam} {addresses : Nat → Nat} {threadRunner : Bool} {kernelDataVa : Nat}
    {actions : List Action} {issued : Nat → Option Ptr} (reached : Runs.run (Runs.watch step noteHandles)
      (initial ram addresses threadRunner kernelDataVa, fun _ => none) actions = some (krnl, issued)) :
    krnl.HandleTable issued := by
  have preserved : ∀ state notes action next, XboxKrnl.Steady state ∧ XboxKrnl.Told state notes → True →
      state.step action = some next → next.Steady ∧ next.Told (noteHandles state action next notes) :=
    fun state notes action next holds _ stepped =>
      ⟨(holds.1.step stepped).2, holds.2.step (holds.1.tableStep stepped)⟩
  have start : (initial ram addresses threadRunner kernelDataVa).Told (fun _ => none) :=
    ⟨SlotTable.ok_empty, fun handle => by simp [findObjectByHandle, initial]⟩
  have steadyStart := initial_steady ram addresses threadRunner kernelDataVa
  obtain ⟨steady, told⟩ := Runs.watch_invariant preserved ⟨steadyStart, start⟩
    (Runs.along_true _ actions) reached
  refine ⟨told.slots.once, told.slots.lists, told.lookups, fun handle ptr known => ?_,
    fun handle other ptr known again => ?_, fun action next stepped => told.handleStep (steady.tableStep stepped)⟩
  · rw [← told.lookups] at known
    obtain ⟨table, shape⟩ := krnl.findObjectByHandle_table handle ptr known
    obtain ⟨object, live⟩ := live_of_handle steady.ok.registry known
    exact ⟨by omega, by omega, Option.isSome_iff_exists.mpr ⟨object, live⟩⟩
  · rw [← told.lookups] at known again
    obtain ⟨table, shape⟩ := krnl.findObjectByHandle_table handle ptr known
    obtain ⟨otherTable, otherShape⟩ := krnl.findObjectByHandle_table other ptr again
    have same := steady.ok.registry.tabledOnce _ _ ptr table otherTable
    omega

/-- The slot of the first event is recycled for a semaphore. -/
def recyclesSlot : List Action :=
  [.call (.ntCreateEvent 16 0 0 0), .call (.ntCreateEvent 20 0 0 0), .call (.ntClose 4), .call (.ntClose 4),
    .call (.ntCreateSemaphore 24 0 1 2)]

/-- A slot is used again, and its handle finds the new object. -/
theorem recyclesSlot_table : ∃ krnl issued, Runs.run (Runs.watch step noteHandles) (onePage true, fun _ => none)
    recyclesSlot = some (krnl, issued) ∧ krnl.findObjectByHandle 4 = some 2 ∧ krnl.HandleTable issued := by
  have evaluated : (Runs.run (Runs.watch step noteHandles) (onePage true, fun _ => none) recyclesSlot).map
      (fun watched => watched.1.findObjectByHandle 4) = some (some 2) := by decide +kernel
  obtain ⟨⟨krnl, issued⟩, reached, found⟩ := Option.map_eq_some_iff.mp evaluated
  exact ⟨krnl, issued, reached, found, handle_table reached⟩

end XboxKrnl

end SeriesxEmu
