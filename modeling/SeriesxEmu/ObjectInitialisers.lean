import SeriesxEmu.SystemPaths
import SeriesxEmu.SectionRuns

/-!
# Initialising objects at guest addresses

`KeInitializeEvent` looks for an object that is already registered at the address and sets it
anew. `KeInitializeMutant` and `KeInitializeSemaphore` append an entry to the registry, and
lookups by address return the first entry, so on reused memory the older object stays in
effect and hides the new one.
-/

namespace SeriesxEmu

open Scheduler GuestScheduler

/-- The three calls that initialise an object at an address, with their other arguments. -/
inductive Initialiser where
  | event (type state : Nat)
  | mutant (initialOwner : Nat)
  | semaphore (count limit : Nat)
deriving DecidableEq, Repr

namespace Initialiser

open XboxKrnl

/-- The kernel call that performs an initialisation. -/
def call (va : Nat) : Initialiser → Call
  | .event type state => .keInitializeEvent va type state
  | .mutant initialOwner => .keInitializeMutant va initialOwner
  | .semaphore count limit => .keInitializeSemaphore va count limit

/-- The object is of the kind and in the state the call asks for. The caller of an initially
owned mutant is its owner. -/
def Requested (krnl : XboxKrnl) : Initialiser → DispatcherObject → Prop
  | .event type state, object => object.kind = .event ∧ object.event = { type, signaled := state % 2 == 1 }
  | .mutant initialOwner, object => object.kind = .mutant ∧ object.mutant =
      if initialOwner % 2 = 1 then { signalState := 0, owner := krnl.currentThreadToken.2 } else { signalState := 1 }
  | .semaphore count limit, object => object.kind = .semaphore ∧
      object.semaphore = { count := int32 count, limit := int32 limit }

end Initialiser

namespace XboxKrnl

variable {krnl next : XboxKrnl} {va : Nat}

/-- The objects registered at an address, oldest first. -/
def registeredAt (krnl : XboxKrnl) (va : Nat) : List Ptr :=
  krnl.vaObjects.filter (fun ptr => (krnl.object ptr).guestVa == va)

/-- What the arguments and the memory must be like for the call to be accepted. -/
def AcceptsInit (krnl : XboxKrnl) (va : Nat) : Initialiser → Prop
  | .event type _ => type ≤ kEventSync ∧ krnl.ram.writable va 16 = true ∧
      ∀ ptr, krnl.findObjectByVa va = some ptr → (krnl.object ptr).kind = .event
  | .mutant initialOwner => krnl.ram.writable va 28 = true ∧ (initialOwner % 2 = 1 → krnl.inFiber = true)
  | .semaphore _ _ => krnl.ram.writable va 20 = true

/-- Nothing registered at the address is in the way: an event may be there once already, and
no object may be there before a mutant or a semaphore. -/
def VacantFor (krnl : XboxKrnl) (va : Nat) : Initialiser → Prop
  | .event _ _ => (krnl.registeredAt va).length ≤ 1
  | _ => krnl.registeredAt va = []

/-- An accepted call leaves one object at the address, as requested, and lookups find it. -/
def InitTakesEffect (krnl : XboxKrnl) (va : Nat) (init : Initialiser) : Prop :=
  ∀ reply, (krnl.refreshData.exec (init.call va)).2 = some reply → reply.ok = true →
    ∃ ptr, (krnl.refreshData.exec (init.call va)).1.registeredAt va = [ptr] ∧
      (krnl.refreshData.exec (init.call va)).1.findObjectByVa va = some ptr ∧
      init.Requested krnl ((krnl.refreshData.exec (init.call va)).1.object ptr)

/-! ## The registry by address -/

/-- The lookup gives the first object that is registered at an address. -/
theorem findObjectByVa_head (krnl : XboxKrnl) (va : Nat) :
    krnl.findObjectByVa va = (krnl.registeredAt va).head? := by
  rw [registeredAt, List.head?_filter]
  rfl

/-- What is registered at an address depends on the list and on the objects' addresses. -/
theorem registeredAt_congr (same : next.vaObjects = krnl.vaObjects)
    (kept : ∀ ptr ∈ krnl.vaObjects, (next.object ptr).guestVa = (krnl.object ptr).guestVa) :
    next.registeredAt va = krnl.registeredAt va := by
  unfold registeredAt
  rw [same]
  exact List.filter_congr (fun ptr member => by rw [kept ptr member])

/-- A new object goes behind those registered at its address before. -/
theorem Ok.registered_last (ok : krnl.Ok) (object : DispatcherObject) :
    (krnl.registerObject object).registeredAt object.guestVa =
        krnl.registeredAt object.guestVa ++ [krnl.heap.length] ∧
      (krnl.registerObject object).object krnl.heap.length = { object with token := .object krnl.freshAddress } := by
  have placed : ∀ ptr, (krnl.registerObject object).object? ptr = (krnl.allocate object).1.object? ptr :=
    fun _ => rfl
  have here : (krnl.registerObject object).object krnl.heap.length =
      { object with token := .object krnl.freshAddress } := by
    refine object_eq _ _ _ ?_
    rw [placed, object?_allocate, if_pos rfl]
  have older : ∀ ptr ∈ krnl.vaObjects, (krnl.registerObject object).object ptr = krnl.object ptr := by
    intro ptr member
    obtain ⟨before, live⟩ := ok.live_registered member
    have inside := krnl.object?_inside ptr before live
    rw [object_eq _ _ _ live]
    refine object_eq _ _ _ ?_
    rw [placed, object?_allocate, if_neg (Nat.ne_of_lt inside), live]
  refine ⟨?_, here⟩
  have entries : (krnl.registerObject object).vaObjects = krnl.vaObjects ++ [krnl.heap.length] := rfl
  have kept : krnl.vaObjects.filter
      (fun ptr => ((krnl.registerObject object).object ptr).guestVa == object.guestVa) =
      krnl.registeredAt object.guestVa :=
    List.filter_congr (fun ptr member => by rw [older ptr member])
  rw [registeredAt, entries, List.filter_append, kept]
  simp [here]

/-- Setting an event anew moves no object. -/
theorem registeredAt_reset (krnl : XboxKrnl) (ptr : Ptr) (event : EventPart) (va : Nat) :
    ((krnl.modify ptr (fun o => { o with event })).mirrorHeader ptr).registeredAt va = krnl.registeredAt va := by
  refine registeredAt_congr rfl (fun other _ => ?_)
  have placed : ((krnl.modify ptr (fun o => { o with event })).mirrorHeader ptr).object? other =
      (krnl.modify ptr (fun o => { o with event })).object? other := rfl
  rw [object, object, placed, object?_modify]
  split
  · rename_i same
    subst same
    cases krnl.object? other <;> rfl
  · rfl

/-! ## The three calls -/

/-- The entry of a new object is the only one if and only if there was none before. -/
theorem Ok.registered_only (ok : krnl.Ok) (object : DispatcherObject) (requested : DispatcherObject → Prop)
    (fits : requested { object with token := .object krnl.freshAddress }) :
    (∃ ptr, (krnl.registerObject object).registeredAt object.guestVa = [ptr] ∧
        (krnl.registerObject object).findObjectByVa object.guestVa = some ptr ∧
        requested ((krnl.registerObject object).object ptr)) ↔
      krnl.registeredAt object.guestVa = [] := by
  obtain ⟨entries, here⟩ := ok.registered_last object
  constructor
  · rintro ⟨ptr, only, _, _⟩
    have length := congrArg List.length (entries.symm.trans only)
    simpa using length
  · intro vacant
    rw [vacant, List.nil_append] at entries
    refine ⟨krnl.heap.length, entries, ?_, ?_⟩
    · rw [findObjectByVa_head, entries]
      rfl
    · rw [here]
      exact fits

/-- An accepted `KeInitializeEvent` registers one event at its address. -/
theorem keInitializeEvent_effect (ok : krnl.Ok) (va type state : Nat)
    (accepted : krnl.AcceptsInit va (.event type state)) :
    (∃ ptr, (krnl.keInitializeEvent va type state).1.registeredAt va = [ptr] ∧
        (krnl.keInitializeEvent va type state).1.findObjectByVa va = some ptr ∧
        (Initialiser.event type state).Requested krnl ((krnl.keInitializeEvent va type state).1.object ptr)) ↔
      (krnl.registeredAt va).length ≤ 1 := by
  obtain ⟨small, usable, kinds⟩ := accepted
  have fits : ¬ kEventSync < type := Nat.not_lt.mpr small
  cases found : krnl.findObjectByVa va with
  | none =>
    have called : krnl.keInitializeEvent va type state = (krnl.registerObject
        { kind := .event, guestVa := va, event := { type, signaled := state % 2 == 1 } }, { value := 0 }) := by
      simp [keInitializeEvent, fits, usable, found]
    have vacant : krnl.registeredAt va = [] := by
      rw [findObjectByVa_head] at found
      exact List.head?_eq_none_iff.mp found
    rw [called]
    have only := ok.registered_only { kind := .event, guestVa := va, event := { type, signaled := state % 2 == 1 } }
      ((Initialiser.event type state).Requested krnl) ⟨rfl, rfl⟩
    refine iff_of_true (only.mpr vacant) ?_
    simp [vacant]
  | some ptr =>
    have called : (krnl.keInitializeEvent va type state).1 = (krnl.modify ptr
        (fun o => { o with event := { type, signaled := state % 2 == 1 } })).mirrorHeader ptr := by
      simp [keInitializeEvent, fits, usable, found, kinds ptr found]
    obtain ⟨before, live, _⟩ := live_of_va ok.registry found
    have kind := kinds ptr found
    rw [object_eq _ _ _ live] at kind
    have here : ((krnl.modify ptr (fun o => { o with event := { type, signaled := state % 2 == 1 } })).mirrorHeader
        ptr).object ptr = { before with event := { type, signaled := state % 2 == 1 } } := by
      refine object_eq _ _ _ ?_
      have placed := krnl.object?_modify ptr ptr (fun o => { o with event := { type, signaled := state % 2 == 1 } })
      rw [if_pos rfl, live] at placed
      exact placed
    rw [called, findObjectByVa_head, registeredAt_reset]
    rw [findObjectByVa_head] at found
    constructor
    · rintro ⟨_, only, _⟩
      simp [only]
    · intro short
      obtain ⟨rest, entries⟩ := List.head?_eq_some_iff.mp found
      have last : rest = [] := by
        rw [entries] at short
        simpa using short
      refine ⟨ptr, by rw [entries, last], found, ?_⟩
      rw [here]
      exact ⟨kind, rfl⟩

/-- An accepted `KeInitializeSemaphore` registers one semaphore. -/
theorem keInitializeSemaphore_effect (ok : krnl.Ok) (va count limit : Nat)
    (accepted : krnl.AcceptsInit va (.semaphore count limit)) :
    (∃ ptr, (krnl.keInitializeSemaphore va count limit).1.registeredAt va = [ptr] ∧
        (krnl.keInitializeSemaphore va count limit).1.findObjectByVa va = some ptr ∧
        (Initialiser.semaphore count limit).Requested krnl
          ((krnl.keInitializeSemaphore va count limit).1.object ptr)) ↔
      krnl.registeredAt va = [] := by
  have usable : krnl.ram.writable va 20 = true := accepted
  simp only [keInitializeSemaphore, usable, Bool.not_true, Bool.false_eq_true, ↓reduceIte]
  exact ok.registered_only { kind := .semaphore, guestVa := va, semaphore := { count := int32 count, limit := int32 limit } }
    ((Initialiser.semaphore count limit).Requested krnl) ⟨rfl, rfl⟩

/-- An accepted `KeInitializeMutant` registers one mutant, with the caller as its owner if asked. -/
theorem keInitializeMutant_effect (steady : krnl.Steady) (va initialOwner : Nat)
    (accepted : krnl.AcceptsInit va (.mutant initialOwner)) :
    (∃ ptr, (krnl.keInitializeMutant va initialOwner).1.registeredAt va = [ptr] ∧
        (krnl.keInitializeMutant va initialOwner).1.findObjectByVa va = some ptr ∧
        (Initialiser.mutant initialOwner).Requested krnl ((krnl.keInitializeMutant va initialOwner).1.object ptr)) ↔
      krnl.registeredAt va = [] := by
  obtain ⟨usable, fiber⟩ := accepted
  by_cases owned : initialOwner % 2 = 1
  · obtain ⟨learns, _, _⟩ := steady.currentThreadToken
    have same : krnl.currentThreadToken.1.registeredAt va = krnl.registeredAt va := by
      refine registeredAt_congr learns.vaObjects (fun ptr member => ?_)
      obtain ⟨object, live⟩ := steady.ok.live_registered member
      rw [object_eq _ _ _ live, object_eq _ _ _ (learns.live ptr object live)]
    simp only [keInitializeMutant, usable, Bool.not_true, Bool.false_eq_true, ↓reduceIte, owned, fiber owned]
    rw [← same]
    exact learns.steady.ok.registered_only (newMutant va (some krnl.currentThreadToken.2))
      ((Initialiser.mutant initialOwner).Requested krnl)
      ⟨rfl, by simp [newMutant, owned]⟩
  · simp only [keInitializeMutant, usable, Bool.not_true, Bool.false_eq_true, ↓reduceIte, owned]
    exact steady.ok.registered_only (newMutant va none) ((Initialiser.mutant initialOwner).Requested krnl)
      ⟨rfl, by simp [newMutant, owned]⟩

/-- Memory plays no part in the identity of the caller. -/
theorem currentThreadToken_written (krnl : XboxKrnl) (ram : XbeRam) :
    ({ krnl with ram } : XboxKrnl).currentThreadToken.2 = krnl.currentThreadToken.2 := by
  have handle : ({ krnl with ram } : XboxKrnl).currentHandle = krnl.currentHandle := rfl
  have identity : ({ krnl with ram } : XboxKrnl).fiberThread? krnl.currentHandle =
      krnl.fiberThread? krnl.currentHandle := rfl
  unfold XboxKrnl.currentThreadToken
  rw [handle]
  by_cases outside : krnl.currentHandle = 0
  · rw [if_pos outside, if_pos outside]
  · rw [if_neg outside, if_neg outside]
    unfold ensureThreadObject
    rw [identity]
    cases krnl.fiberThread? krnl.currentHandle <;> rfl

/-- The call is accepted when the checks say so. -/
theorem exec_initialiser (krnl : XboxKrnl) (va : Nat) (init : Initialiser) :
    ∃ reply, (krnl.exec (init.call va)).2 = some reply ∧ (reply.ok = true ↔ krnl.AcceptsInit va init) := by
  cases init with
  | event type state =>
    refine ⟨_, rfl, ?_⟩
    unfold keInitializeEvent
    split
    · rename_i wide
      exact iff_of_false (by simp [reject]) (fun accepted => Nat.not_lt.mpr accepted.1 wide)
    · rename_i small
      split
      · rename_i closed
        exact iff_of_false (by simp [reject]) (fun accepted => by simp [accepted.2.1] at closed)
      · rename_i usable
        cases found : krnl.findObjectByVa va with
        | none => exact iff_of_true rfl ⟨Nat.not_lt.mp small, by simpa using usable, by simp [found]⟩
        | some ptr =>
          by_cases kind : (krnl.object ptr).kind = .event
          · simp [kind, AcceptsInit, Nat.not_lt.mp small, found]
            simpa using usable
          · simp [kind, AcceptsInit, found, reject]
  | mutant initialOwner =>
    refine ⟨_, rfl, ?_⟩
    by_cases usable : krnl.ram.writable va 28 = true
    · by_cases owned : initialOwner % 2 = 1
      · by_cases fiber : krnl.inFiber = true
        · simp [keInitializeMutant, AcceptsInit, usable, owned, fiber]
        · simp [keInitializeMutant, AcceptsInit, usable, owned, fiber, reject]
      · simp [keInitializeMutant, AcceptsInit, usable, owned]
    · simp [keInitializeMutant, AcceptsInit, usable, reject]
  | semaphore count limit =>
    refine ⟨_, rfl, ?_⟩
    by_cases usable : krnl.ram.writable va 20 = true
    · simp [keInitializeSemaphore, AcceptsInit, usable]
    · simp [keInitializeSemaphore, AcceptsInit, usable, reject]

/-- **Initialisation at an address.** A call that is accepted takes effect if and only if
nothing registered at the address is in its way.

Proof: one lemma for each of the three calls says what a call that passes its checks registers. What
is in the way is an object that was registered at the address before. -/
theorem initialises_iff {actions : List Action} (reached : krnl.Reaches actions) (va : Nat) (init : Initialiser) :
    krnl.InitTakesEffect va init ↔ (krnl.AcceptsInit va init → krnl.VacantFor va init) := by
  have steady := reached.steady.refreshed
  obtain ⟨ram, begun⟩ := krnl.refreshData_eq
  have checks : krnl.refreshData.AcceptsInit va init ↔ krnl.AcceptsInit va init := by
    cases init <;> simp only [AcceptsInit, refreshData_writable] <;> rw [begun] <;> exact Iff.rfl
  have places : krnl.refreshData.registeredAt va = krnl.registeredAt va := by
    rw [begun]
    rfl
  have requests : ∀ object, init.Requested krnl.refreshData object ↔ init.Requested krnl object := by
    intro object
    cases init with
    | mutant initialOwner =>
      have token : krnl.refreshData.currentThreadToken.2 = krnl.currentThreadToken.2 := by
        rw [begun, currentThreadToken_written]
      simp only [Initialiser.Requested, token]
    | event | semaphore => exact Iff.rfl
  obtain ⟨reply, replied, accepted⟩ := krnl.refreshData.exec_initialiser va init
  rw [checks] at accepted
  have effect : krnl.AcceptsInit va init →
      ((∃ ptr, (krnl.refreshData.exec (init.call va)).1.registeredAt va = [ptr] ∧
        (krnl.refreshData.exec (init.call va)).1.findObjectByVa va = some ptr ∧
        init.Requested krnl ((krnl.refreshData.exec (init.call va)).1.object ptr)) ↔ krnl.VacantFor va init) := by
    intro admitted
    simp only [← requests]
    have here := checks.mpr admitted
    cases init with
    | event type state =>
      simp only [VacantFor, ← places]
      exact keInitializeEvent_effect steady.ok va type state here
    | mutant initialOwner =>
      simp only [VacantFor, ← places]
      exact keInitializeMutant_effect steady va initialOwner here
    | semaphore count limit =>
      simp only [VacantFor, ← places]
      exact keInitializeSemaphore_effect steady.ok va count limit here
  constructor
  · intro takes admitted
    exact (effect admitted).mp (takes reply replied (accepted.mpr admitted))
  · intro vacant other given ok
    rw [replied] at given
    obtain rfl := Option.some.inj given
    exact (effect (accepted.mp ok)).mpr (vacant (accepted.mp ok))

/-- On a fresh kernel a semaphore takes effect. -/
theorem firstSemaphore_initialises : (onePage true).InitTakesEffect 0x100 (.semaphore 1 4) := by
  have reached : (onePage true).Reaches [] := ⟨_, _, _, _, rfl⟩
  exact (initialises_iff reached 0x100 (.semaphore 1 4)).mpr (fun _ => rfl)

/-- A semaphore on memory that held another one: the lookup finds the old count. -/
theorem secondSemaphore_ignored : ¬ ∀ (krnl : XboxKrnl) actions (va : Nat) (init : Initialiser),
    krnl.Reaches actions → krnl.InitTakesEffect va init := by
  intro always
  have takes := always _ _ 0x100 (.semaphore 2 4)
    (reaches_after true [.call (.keInitializeSemaphore 0x100 1 4)] (by decide +kernel))
  obtain ⟨ptr, only, _⟩ := takes { value := 0 } (by decide +kernel) rfl
  have two : ((after true [.call (.keInitializeSemaphore 0x100 1 4)]).refreshData.exec
      (Initialiser.call 0x100 (.semaphore 2 4))).1.registeredAt 0x100 = [0, 1] := by decide +kernel
  rw [two] at only
  cases only

end XboxKrnl

end SeriesxEmu
