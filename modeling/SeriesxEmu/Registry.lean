import SeriesxEmu.Dispatcher
import Mathlib.Logic.Function.Basic

/-!
# Every object has one home

A registered object keeps its kind, its address, its wait channel and the fixed
fields of its thread part for as long as it lives; this is its shape. The shapes
together with the three registries are all that lookups depend on, and most
kernel operations leave them alone. The invariant `Registry.Ok` says that every
live object is found in exactly one registry, under one key, and that channels
and thread identifiers tell live objects apart.
-/

namespace SeriesxEmu

open Scheduler

/-- The part of an object that is fixed when it is registered. -/
def DispatcherObject.shape (object : DispatcherObject) : DispatcherObject :=
  { kind := object.kind, guestVa := object.guestVa, token := object.token
    thread := { object.thread with
      suspendCount := 0, basePriority := 0, running := false, runnableMissingCore := false } }

/-- The shape of an object has its kind. -/
theorem DispatcherObject.kind_of_shape {object other : DispatcherObject}
    (same : object.shape = other.shape) : object.kind = other.kind := by
  have kinds := congrArg DispatcherObject.kind same
  exact kinds

/-- It has its channel, too. -/
theorem DispatcherObject.token_of_shape {object other : DispatcherObject}
    (same : object.shape = other.shape) : object.token = other.token := by
  have tokens := congrArg DispatcherObject.token same
  exact tokens

/-- What the lookups depend on: the shapes of the live objects, the handle table
by slot, the objects at guest addresses and the identities by fiber. -/
structure Registry where
  shapes : Ptr → Option DispatcherObject
  heapSize : Nat
  table : Nat → Option Ptr
  tableSize : Nat
  freeSlots : List Nat
  vaObjects : List Ptr
  fiberThreads : List (Nat × Ptr)
  nextThreadId : Nat
  nextHandle : Nat

namespace Registry

/-- The invariant of the registries. -/
structure Ok (registry : Registry) : Prop where
  sized : ∀ ptr shape, registry.shapes ptr = some shape → ptr < registry.heapSize
  owned : ∀ ptr shape, registry.shapes ptr = some shape →
    (∃ slot, registry.table slot = some ptr) ∨ ptr ∈ registry.vaObjects ∨
      ∃ fiber, (fiber, ptr) ∈ registry.fiberThreads
  tokenForm : ∀ ptr shape, registry.shapes ptr = some shape → ∃ addr, shape.token = .object addr
  tokens : ∀ ptr other shape shape', registry.shapes ptr = some shape →
    registry.shapes other = some shape' → shape.token = shape'.token → ptr = other
  threadIds : ∀ ptr shape, registry.shapes ptr = some shape → shape.kind = .thread →
    0 < shape.thread.threadId ∧ shape.thread.threadId < registry.nextThreadId
  idsDistinct : ∀ ptr other shape shape', registry.shapes ptr = some shape →
    registry.shapes other = some shape' → shape.kind = .thread → shape'.kind = .thread →
    shape.thread.threadId = shape'.thread.threadId → ptr = other
  tabled : ∀ slot ptr, registry.table slot = some ptr →
    ∃ shape, registry.shapes ptr = some shape ∧ (shape.kind = .thread →
      shape.thread.objectHandle = 4 * (slot + 1) ∧ shape.thread.schedHandle ≠ 0 ∧
      shape.thread.schedHandle < registry.nextHandle)
  tabledInside : ∀ slot ptr, registry.table slot = some ptr → slot < registry.tableSize
  tabledOnce : ∀ slot slot' ptr, registry.table slot = some ptr → registry.table slot' = some ptr →
    slot = slot'
  tabledFibers : ∀ slot slot' ptr other shape shape', registry.table slot = some ptr →
    registry.table slot' = some other → registry.shapes ptr = some shape →
    registry.shapes other = some shape' → shape.kind = .thread → shape'.kind = .thread →
    shape.thread.schedHandle = shape'.thread.schedHandle → ptr = other
  atAddress : ∀ ptr ∈ registry.vaObjects,
    (∃ shape, registry.shapes ptr = some shape ∧ shape.kind ≠ .thread) ∧
      ∀ slot, registry.table slot ≠ some ptr
  identities : ∀ fiber ptr, (fiber, ptr) ∈ registry.fiberThreads →
    fiber ≠ 0 ∧ (∃ shape, registry.shapes ptr = some shape ∧ shape.kind = .thread ∧
      shape.thread.schedHandle = fiber) ∧ ∀ slot, registry.table slot ≠ some ptr
  keysOnce : ∀ fiber ptr other, (fiber, ptr) ∈ registry.fiberThreads →
    (fiber, other) ∈ registry.fiberThreads → ptr = other
  free : ∀ slot ∈ registry.freeSlots, registry.table slot = none ∧ slot < registry.tableSize
  freeOnce : registry.freeSlots.Nodup
  firstId : 0 < registry.nextThreadId
  firstHandle : 0 < registry.nextHandle

/-- A fresh object: its pointer is new, and so are its channel and identifier. -/
structure Fresh (registry : Registry) (shape : DispatcherObject) : Prop where
  tokenForm : ∃ addr, shape.token = .object addr
  token : ∀ ptr other, registry.shapes ptr = some other → other.token ≠ shape.token
  threadId : shape.kind = .thread → 0 < shape.thread.threadId ∧
    registry.nextThreadId ≤ shape.thread.threadId

/-- The registry with one more live object, not yet registered anywhere. -/
def allocate (registry : Registry) (shape : DispatcherObject) : Registry :=
  { registry with
    shapes := Function.update registry.shapes registry.heapSize (some shape)
    heapSize := registry.heapSize + 1 }

variable {registry : Registry} {shape other : DispatcherObject} {ptr : Ptr}

/-- The next place of the heap is free. -/
theorem Ok.unused (ok : registry.Ok) : registry.shapes registry.heapSize = none := by
  cases found : registry.shapes registry.heapSize with
  | none => rfl
  | some shape => exact absurd (ok.sized _ _ found) (Nat.lt_irrefl _)

/-- No handle leads there. -/
theorem Ok.not_tabled (ok : registry.Ok) (slot : Nat) : registry.table slot ≠ some registry.heapSize := by
  intro found
  obtain ⟨shape, live, _⟩ := ok.tabled _ _ found
  rw [ok.unused] at live
  cases live

/-- No guest address does. -/
theorem Ok.not_at_address (ok : registry.Ok) : registry.heapSize ∉ registry.vaObjects := by
  intro found
  obtain ⟨⟨shape, live, _⟩, _⟩ := ok.atAddress _ found
  rw [ok.unused] at live
  cases live

/-- And no fiber. -/
theorem Ok.not_identity (ok : registry.Ok) (fiber : Nat) :
    (fiber, registry.heapSize) ∉ registry.fiberThreads := by
  intro found
  obtain ⟨_, ⟨shape, live, _⟩, _⟩ := ok.identities _ _ found
  rw [ok.unused] at live
  cases live

/-! ## The objects by themselves -/

/-- What the invariant says of the live objects alone. -/
structure Shaped (shapes : Ptr → Option DispatcherObject) (heapSize nextThreadId : Nat) : Prop where
  sized : ∀ ptr shape, shapes ptr = some shape → ptr < heapSize
  tokenForm : ∀ ptr shape, shapes ptr = some shape → ∃ addr, shape.token = .object addr
  tokens : ∀ ptr other shape shape', shapes ptr = some shape → shapes other = some shape' →
    shape.token = shape'.token → ptr = other
  threadIds : ∀ ptr shape, shapes ptr = some shape → shape.kind = .thread →
    0 < shape.thread.threadId ∧ shape.thread.threadId < nextThreadId
  idsDistinct : ∀ ptr other shape shape', shapes ptr = some shape → shapes other = some shape' →
    shape.kind = .thread → shape'.kind = .thread → shape.thread.threadId = shape'.thread.threadId → ptr = other

/-- The shapes of a sound registry are sound by themselves. -/
theorem Ok.shaped (ok : registry.Ok) : Shaped registry.shapes registry.heapSize registry.nextThreadId :=
  ⟨ok.sized, ok.tokenForm, ok.tokens, ok.threadIds, ok.idsDistinct⟩

/-- Identifiers may be spent. -/
theorem Shaped.spend {shapes : Ptr → Option DispatcherObject} {heapSize nextThreadId later : Nat}
    (shaped : Shaped shapes heapSize nextThreadId) (grown : nextThreadId ≤ later) : Shaped shapes heapSize later where
  sized := shaped.sized
  tokenForm := shaped.tokenForm
  tokens := shaped.tokens
  threadIds ptr shape live kind :=
    have bounds := shaped.threadIds ptr shape live kind
    ⟨bounds.1, Nat.lt_of_lt_of_le bounds.2 grown⟩
  idsDistinct := shaped.idsDistinct

/-- Objects may be destroyed. -/
theorem Shaped.sub {shapes fewer : Ptr → Option DispatcherObject} {heapSize nextThreadId : Nat}
    (shaped : Shaped shapes heapSize nextThreadId)
    (kept : ∀ ptr shape, fewer ptr = some shape → shapes ptr = some shape) : Shaped fewer heapSize nextThreadId where
  sized ptr shape live := shaped.sized ptr shape (kept ptr shape live)
  tokenForm ptr shape live := shaped.tokenForm ptr shape (kept ptr shape live)
  tokens ptr other shape shape' left right :=
    shaped.tokens ptr other shape shape' (kept ptr shape left) (kept other shape' right)
  threadIds ptr shape live := shaped.threadIds ptr shape (kept ptr shape live)
  idsDistinct ptr other shape shape' left right :=
    shaped.idsDistinct ptr other shape shape' (kept ptr shape left) (kept other shape' right)

/-- A new object is at the next place. -/
theorem allocate_new (registry : Registry) (shape : DispatcherObject) :
    (registry.allocate shape).shapes registry.heapSize = some shape := Function.update_self _ _ _

/-- An object that lived before the allocation still lives after it. -/
theorem Ok.allocate_old (ok : registry.Ok) (live : registry.shapes ptr = some other) :
    (registry.allocate shape).shapes ptr = some other :=
  (Function.update_of_ne (Nat.ne_of_lt (ok.sized _ _ live)) _ _).trans live

/-- There is nothing else. -/
theorem allocate_cases (live : (registry.allocate shape).shapes ptr = some other) :
    (ptr = registry.heapSize ∧ other = shape) ∨ registry.shapes ptr = some other := by
  by_cases new : ptr = registry.heapSize
  · subst new
    exact Or.inl ⟨rfl, Option.some.inj (live.symm.trans (registry.allocate_new shape))⟩
  · exact Or.inr ((Function.update_of_ne new _ _).symm.trans live)

/-- An object of the handle table was there before. -/
theorem Ok.allocate_tabled (ok : registry.Ok) {slot : Nat} (found : registry.table slot = some ptr)
    (live : (registry.allocate shape).shapes ptr = some other) : registry.shapes ptr = some other := by
  rcases allocate_cases live with ⟨rfl, _⟩ | old
  · exact absurd found (ok.not_tabled slot)
  · exact old

/-- A fresh object fits in. -/
theorem Ok.allocate_shaped (ok : registry.Ok) (fresh : registry.Fresh shape) {nextThreadId : Nat}
    (grown : registry.nextThreadId ≤ nextThreadId)
    (threadId : shape.kind = .thread → shape.thread.threadId < nextThreadId) :
    Shaped (registry.allocate shape).shapes (registry.heapSize + 1) nextThreadId where
  sized ptr object live := by
    rcases allocate_cases live with ⟨rfl, _⟩ | old
    · exact Nat.lt_succ_self _
    · exact Nat.lt_succ_of_lt (ok.sized _ _ old)
  tokenForm ptr object live := by
    rcases allocate_cases live with ⟨_, rfl⟩ | old
    · exact fresh.tokenForm
    · exact ok.tokenForm _ _ old
  tokens ptr ptr' object object' live live' same := by
    rcases allocate_cases live with ⟨rfl, rfl⟩ | old <;> rcases allocate_cases live' with ⟨rfl, rfl⟩ | old'
    · rfl
    · exact absurd same.symm (fresh.token _ _ old')
    · exact absurd same (fresh.token _ _ old)
    · exact ok.tokens _ _ _ _ old old' same
  threadIds ptr object live kind := by
    rcases allocate_cases live with ⟨_, rfl⟩ | old
    · exact ⟨(fresh.threadId kind).1, threadId kind⟩
    · have bounds := ok.threadIds _ _ old kind
      exact ⟨bounds.1, Nat.lt_of_lt_of_le bounds.2 grown⟩
  idsDistinct ptr ptr' object object' live live' kind kind' same := by
    -- An identifier that is given out is below the next one, a fresh one is not.
    have older : ∀ {ptr object}, registry.shapes ptr = some object → object.kind = .thread → shape.kind = .thread →
        object.thread.threadId < shape.thread.threadId := fun old kind isThread =>
      Nat.lt_of_lt_of_le (ok.threadIds _ _ old kind).2 (fresh.threadId isThread).2
    rcases allocate_cases live with ⟨rfl, rfl⟩ | old <;> rcases allocate_cases live' with ⟨rfl, rfl⟩ | old'
    · rfl
    · exact absurd same.symm (Nat.ne_of_lt (older old' kind' kind))
    · exact absurd same (Nat.ne_of_lt (older old kind kind'))
    · exact ok.idsDistinct _ _ _ _ old old' kind kind' same

/-! ## What becomes of a registry -/

/-- A new object goes to a slot of the handle table. -/
def tabling (registry : Registry) (shape : DispatcherObject) (slot tableSize : Nat) (freeSlots : List Nat)
    (nextThreadId nextHandle : Nat) : Registry :=
  { registry.allocate shape with
    table := Function.update registry.table slot (some registry.heapSize)
    tableSize, freeSlots, nextThreadId, nextHandle }

/-- A new object is entered into a free slot of the handle table.

Proof: the object is at a place to which nothing leads yet, so each table stays free of repetitions. -/
theorem Ok.tabling (ok : registry.Ok) (fresh : registry.Fresh shape) (slot tableSize : Nat)
    (freeSlots : List Nat) (nextThreadId nextHandle : Nat)
    (empty : registry.table slot = none) (inside : slot < tableSize)
    (grown : registry.tableSize ≤ tableSize)
    (kept : ∀ other ∈ freeSlots, other ∈ registry.freeSlots ∧ other ≠ slot)
    (once : freeSlots.Nodup)
    (nextId : registry.nextThreadId ≤ nextThreadId) (next : registry.nextHandle ≤ nextHandle)
    (threadId : shape.kind = .thread → shape.thread.threadId < nextThreadId)
    (thread : shape.kind = .thread → shape.thread.objectHandle = 4 * (slot + 1) ∧
      shape.thread.schedHandle ≠ 0 ∧ registry.nextHandle ≤ shape.thread.schedHandle ∧
      shape.thread.schedHandle < nextHandle) :
    (registry.tabling shape slot tableSize freeSlots nextThreadId nextHandle).Ok := by
  have shaped := ok.allocate_shaped fresh nextId threadId
  have here : Function.update registry.table slot (some registry.heapSize) slot = some registry.heapSize :=
    Function.update_self _ _ _
  have there : ∀ {place ptr}, registry.table place = some ptr →
      Function.update registry.table slot (some registry.heapSize) place = some ptr := by
    intro place ptr found
    have apart : place ≠ slot := fun same => by rw [same, empty] at found; cases found
    exact (Function.update_of_ne apart _ _).trans found
  have placed : ∀ {place ptr}, Function.update registry.table slot (some registry.heapSize) place = some ptr →
      (place = slot ∧ ptr = registry.heapSize) ∨ registry.table place = some ptr := by
    intro place ptr found
    by_cases same : place = slot
    · subst same
      exact Or.inl ⟨rfl, Option.some.inj (found.symm.trans here)⟩
    · exact Or.inr ((Function.update_of_ne same _ _).symm.trans found)
  refine
    { sized := shaped.sized, tokenForm := shaped.tokenForm, tokens := shaped.tokens
      threadIds := shaped.threadIds, idsDistinct := shaped.idsDistinct
      owned := fun ptr object live => ?_
      tabled := fun place ptr found => ?_
      tabledInside := fun place ptr found => ?_
      tabledOnce := fun place place' ptr found found' => ?_
      tabledFibers := fun place place' ptr ptr' object object' found found' live live' kind kind' same => ?_
      atAddress := fun ptr member => ?_
      identities := fun fiber ptr member => ?_
      keysOnce := ok.keysOnce
      free := fun place member => ?_
      freeOnce := once
      firstId := Nat.lt_of_lt_of_le ok.firstId nextId
      firstHandle := Nat.lt_of_lt_of_le ok.firstHandle next }
  · rcases allocate_cases live with ⟨rfl, _⟩ | old
    · exact Or.inl ⟨slot, here⟩
    · exact (ok.owned _ _ old).imp_left (fun ⟨place, found⟩ => ⟨place, there found⟩)
  · rcases placed found with ⟨rfl, rfl⟩ | old
    · exact ⟨shape, registry.allocate_new shape, fun kind => ⟨(thread kind).1, (thread kind).2.1, (thread kind).2.2.2⟩⟩
    · obtain ⟨object, live, handles⟩ := ok.tabled _ _ old
      exact ⟨object, ok.allocate_old live, fun kind => ⟨(handles kind).1, (handles kind).2.1,
        Nat.lt_of_lt_of_le (handles kind).2.2 next⟩⟩
  · rcases placed found with ⟨rfl, _⟩ | old
    · exact inside
    · exact Nat.lt_of_lt_of_le (ok.tabledInside _ _ old) grown
  · rcases placed found with ⟨rfl, rfl⟩ | old <;> rcases placed found' with ⟨rfl, new⟩ | old'
    · rfl
    · exact absurd old' (ok.not_tabled _)
    · exact absurd (new ▸ old) (ok.not_tabled _)
    · exact ok.tabledOnce _ _ _ old old'
  · -- The fiber of a new thread is one that no thread in the table names.
    have older : ∀ {place ptr object}, registry.table place = some ptr → registry.shapes ptr = some object →
        object.kind = .thread → shape.kind = .thread → object.thread.schedHandle < shape.thread.schedHandle := by
      intro place ptr object found live isThread new
      obtain ⟨_, same, handles⟩ := ok.tabled _ _ found
      obtain rfl := Option.some.inj (same.symm.trans live)
      exact Nat.lt_of_lt_of_le (handles isThread).2.2 (thread new).2.2.1
    rcases placed found with ⟨_, rfl⟩ | old <;> rcases placed found' with ⟨_, rfl⟩ | old'
    · rfl
    · obtain rfl := Option.some.inj (live.symm.trans (registry.allocate_new shape))
      exact absurd same.symm (Nat.ne_of_lt (older old' (ok.allocate_tabled old' live') kind' kind))
    · obtain rfl := Option.some.inj (live'.symm.trans (registry.allocate_new shape))
      exact absurd same (Nat.ne_of_lt (older old (ok.allocate_tabled old live) kind kind'))
    · exact ok.tabledFibers _ _ _ _ _ _ old old' (ok.allocate_tabled old live) (ok.allocate_tabled old' live') kind
        kind' same
  · obtain ⟨⟨object, live, kind⟩, nowhere⟩ := ok.atAddress ptr member
    refine ⟨⟨object, ok.allocate_old live, kind⟩, fun place found => ?_⟩
    rcases placed found with ⟨_, rfl⟩ | old
    · exact ok.not_at_address member
    · exact nowhere place old
  · obtain ⟨positive, ⟨object, live, named⟩, nowhere⟩ := ok.identities fiber ptr member
    refine ⟨positive, ⟨object, ok.allocate_old live, named⟩, fun place found => ?_⟩
    rcases placed found with ⟨_, rfl⟩ | old
    · exact ok.not_identity fiber member
    · exact nowhere place old
  · obtain ⟨listed, apart⟩ := kept place member
    obtain ⟨unused, bound⟩ := ok.free place listed
    exact ⟨(Function.update_of_ne apart _ _).trans unused, Nat.lt_of_lt_of_le bound grown⟩

/-- A new object is registered at a guest address. -/
theorem Ok.atVa (ok : registry.Ok) (fresh : registry.Fresh shape) (kind : shape.kind ≠ .thread) :
    ({ registry.allocate shape with
        vaObjects := registry.vaObjects ++ [registry.heapSize] } : Registry).Ok := by
  have shaped := ok.allocate_shaped fresh (Nat.le_refl _) (fun isThread => absurd isThread kind)
  refine
    { sized := shaped.sized, tokenForm := shaped.tokenForm, tokens := shaped.tokens
      threadIds := shaped.threadIds, idsDistinct := shaped.idsDistinct
      owned := fun ptr object live => ?_
      tabled := fun place ptr found => ?_
      tabledInside := ok.tabledInside
      tabledOnce := ok.tabledOnce
      tabledFibers := fun place place' ptr ptr' object object' found found' live live' => ?_
      atAddress := fun ptr member => ?_
      identities := fun fiber ptr member => ?_
      keysOnce := ok.keysOnce
      free := ok.free
      freeOnce := ok.freeOnce
      firstId := ok.firstId
      firstHandle := ok.firstHandle }
  · rcases allocate_cases live with ⟨rfl, _⟩ | old
    · exact Or.inr (Or.inl (List.mem_append_right _ (List.mem_singleton_self _)))
    · exact (ok.owned _ _ old).imp_right (Or.imp_left (List.mem_append_left _))
  · obtain ⟨object, live, handles⟩ := ok.tabled _ _ found
    exact ⟨object, ok.allocate_old live, handles⟩
  · exact ok.tabledFibers _ _ _ _ _ _ found found' (ok.allocate_tabled found live) (ok.allocate_tabled found' live')
  · rcases List.mem_append.mp member with old | new
    · obtain ⟨⟨object, live, other⟩, nowhere⟩ := ok.atAddress ptr old
      exact ⟨⟨object, ok.allocate_old live, other⟩, nowhere⟩
    · obtain rfl := List.mem_singleton.mp new
      exact ⟨⟨shape, registry.allocate_new shape, kind⟩, ok.not_tabled⟩
  · obtain ⟨positive, ⟨object, live, named⟩, nowhere⟩ := ok.identities fiber ptr member
    exact ⟨positive, ⟨object, ok.allocate_old live, named⟩, nowhere⟩

/-- A new object becomes the identity of a fiber that had none. -/
theorem Ok.identity (ok : registry.Ok) (fresh : registry.Fresh shape) (fiber nextThreadId : Nat)
    (positive : fiber ≠ 0) (kind : shape.kind = .thread) (handle : shape.thread.schedHandle = fiber)
    (absent : ∀ ptr, (fiber, ptr) ∉ registry.fiberThreads)
    (threadId : shape.thread.threadId < nextThreadId) :
    ({ registry.allocate shape with
        fiberThreads := registry.fiberThreads ++ [(fiber, registry.heapSize)]
        nextThreadId } : Registry).Ok := by
  have grown : registry.nextThreadId ≤ nextThreadId :=
    Nat.le_of_lt (Nat.lt_of_le_of_lt (fresh.threadId kind).2 threadId)
  have shaped := ok.allocate_shaped fresh grown (fun _ => threadId)
  refine
    { sized := shaped.sized, tokenForm := shaped.tokenForm, tokens := shaped.tokens
      threadIds := shaped.threadIds, idsDistinct := shaped.idsDistinct
      owned := fun ptr object live => ?_
      tabled := fun place ptr found => ?_
      tabledInside := ok.tabledInside
      tabledOnce := ok.tabledOnce
      tabledFibers := fun place place' ptr ptr' object object' found found' live live' => ?_
      atAddress := fun ptr member => ?_
      identities := fun named ptr member => ?_
      keysOnce := fun named ptr ptr' member member' => ?_
      free := ok.free
      freeOnce := ok.freeOnce
      firstId := Nat.lt_of_lt_of_le ok.firstId grown
      firstHandle := ok.firstHandle }
  · rcases allocate_cases live with ⟨rfl, _⟩ | old
    · exact Or.inr (Or.inr ⟨fiber, List.mem_append_right _ (List.mem_singleton_self _)⟩)
    · exact (ok.owned _ _ old).imp_right (Or.imp_right (Exists.imp (fun _ => List.mem_append_left _)))
  · obtain ⟨object, live, handles⟩ := ok.tabled _ _ found
    exact ⟨object, ok.allocate_old live, handles⟩
  · exact ok.tabledFibers _ _ _ _ _ _ found found' (ok.allocate_tabled found live) (ok.allocate_tabled found' live')
  · obtain ⟨⟨object, live, other⟩, nowhere⟩ := ok.atAddress ptr member
    exact ⟨⟨object, ok.allocate_old live, other⟩, nowhere⟩
  · rcases List.mem_append.mp member with old | new
    · obtain ⟨nonzero, ⟨object, live, same⟩, nowhere⟩ := ok.identities named ptr old
      exact ⟨nonzero, ⟨object, ok.allocate_old live, same⟩, nowhere⟩
    · cases List.mem_singleton.mp new
      exact ⟨positive, ⟨shape, registry.allocate_new shape, kind, handle⟩, ok.not_tabled⟩
  · rcases List.mem_append.mp member with old | new <;> rcases List.mem_append.mp member' with old' | new'
    · exact ok.keysOnce _ _ _ old old'
    · cases List.mem_singleton.mp new'
      exact absurd old (absent ptr)
    · cases List.mem_singleton.mp new
      exact absurd old' (absent ptr')
    · cases List.mem_singleton.mp new
      cases List.mem_singleton.mp new'
      rfl

/-- An object of the handle table is destroyed and its slot is free again. -/
def close (registry : Registry) (slot : Nat) (ptr : Ptr) : Registry :=
  { registry with
    shapes := Function.update registry.shapes ptr none
    table := Function.update registry.table slot none
    freeSlots := registry.freeSlots ++ [slot] }

/-- A slot that is freed leaves the registry sound: its object goes if no guest address leads to it.

Proof: what is live, and what is tabled, after the close was so before it, and was not the slot that
is freed. Each clause then restricts to what is left. -/
theorem Ok.close (ok : registry.Ok) (slot : Nat) (ptr : Ptr) (found : registry.table slot = some ptr) :
    (registry.close slot ptr).Ok := by
  have lived : ∀ other object, (registry.close slot ptr).shapes other = some object →
      other ≠ ptr ∧ registry.shapes other = some object := by
    intro other object live
    by_cases same : other = ptr
    · subst same
      have gone : (registry.close slot other).shapes other = none := Function.update_self _ _ _
      rw [gone] at live
      cases live
    · exact ⟨same, (Function.update_of_ne same _ _).symm.trans live⟩
  have lives : ∀ {other object}, other ≠ ptr → registry.shapes other = some object →
      (registry.close slot ptr).shapes other = some object :=
    fun apart live => (Function.update_of_ne apart _ _).trans live
  have stood : ∀ {place other}, (registry.close slot ptr).table place = some other →
      place ≠ slot ∧ registry.table place = some other := by
    intro place other here
    by_cases same : place = slot
    · subst same
      have gone : (registry.close place ptr).table place = none := Function.update_self _ _ _
      rw [gone] at here
      cases here
    · exact ⟨same, (Function.update_of_ne same _ _).symm.trans here⟩
  have shaped := ok.shaped.sub (fun other object live => (lived other object live).2)
  refine
    { sized := shaped.sized, tokenForm := shaped.tokenForm, tokens := shaped.tokens
      threadIds := shaped.threadIds, idsDistinct := shaped.idsDistinct
      owned := fun other object live => ?_
      tabled := fun place other here => ?_
      tabledInside := fun place other here => ok.tabledInside _ _ (stood here).2
      tabledOnce := fun place place' other here here' => ok.tabledOnce _ _ _ (stood here).2 (stood here').2
      tabledFibers := fun place place' other other' object object' here here' live live' =>
        ok.tabledFibers _ _ _ _ _ _ (stood here).2 (stood here').2 (lived _ _ live).2 (lived _ _ live').2
      atAddress := fun other member => ?_
      identities := fun fiber other member => ?_
      keysOnce := ok.keysOnce
      free := fun place member => ?_
      freeOnce := ?_
      firstId := ok.firstId
      firstHandle := ok.firstHandle }
  · obtain ⟨apart, old⟩ := lived other object live
    refine (ok.owned _ _ old).imp_left (fun ⟨place, here⟩ => ⟨place, ?_⟩)
    refine (Function.update_of_ne (fun same => apart ?_) _ _).trans here
    rw [same, found] at here
    exact (Option.some.inj here).symm
  · obtain ⟨elsewhere, here⟩ := stood here
    obtain ⟨object, live, handles⟩ := ok.tabled _ _ here
    refine ⟨object, lives (fun same => elsewhere ?_) live, handles⟩
    exact ok.tabledOnce _ _ _ here (same ▸ found)
  · obtain ⟨⟨object, live, kind⟩, nowhere⟩ := ok.atAddress other member
    exact ⟨⟨object, lives (fun same => nowhere slot (same ▸ found)) live, kind⟩,
      fun place here => nowhere place (stood here).2⟩
  · obtain ⟨positive, ⟨object, live, named⟩, nowhere⟩ := ok.identities fiber other member
    exact ⟨positive, ⟨object, lives (fun same => nowhere slot (same ▸ found)) live, named⟩,
      fun place here => nowhere place (stood here).2⟩
  · by_cases same : place = slot
    · subst same
      exact ⟨Function.update_self _ _ _, ok.tabledInside _ _ found⟩
    · have old : place ∈ registry.freeSlots := (List.mem_append.mp member).resolve_right
        (fun new => same (List.mem_singleton.mp new))
      exact ⟨(Function.update_of_ne same _ _).trans (ok.free place old).1, (ok.free place old).2⟩
  · refine List.nodup_append.mpr ⟨ok.freeOnce, List.pairwise_singleton _ _, fun place member other new => ?_⟩
    rw [List.mem_singleton.mp new]
    rintro rfl
    rw [(ok.free place member).1] at found
    cases found

/-- Identifiers and handles may be spent without making an object. -/
theorem Ok.spend (ok : registry.Ok) (nextThreadId nextHandle : Nat)
    (nextId : registry.nextThreadId ≤ nextThreadId) (next : registry.nextHandle ≤ nextHandle) :
    ({ registry with nextThreadId, nextHandle } : Registry).Ok :=
  { ok with
    threadIds := (ok.shaped.spend nextId).threadIds
    tabled := fun slot ptr found =>
      have ⟨object, live, handles⟩ := ok.tabled slot ptr found
      ⟨object, live, fun kind =>
        ⟨(handles kind).1, (handles kind).2.1, Nat.lt_of_lt_of_le (handles kind).2.2 next⟩⟩
    firstId := Nat.lt_of_lt_of_le ok.firstId nextId
    firstHandle := Nat.lt_of_lt_of_le ok.firstHandle next }

end Registry

namespace XboxKrnl

/-! ## Reading the heap after a change -/

/-- What is found after a change of one object. -/
theorem object?_modify (krnl : XboxKrnl) (ptr other : Ptr)
    (change : DispatcherObject → DispatcherObject) :
    (krnl.modify ptr change).object? other =
      if other = ptr then (krnl.object? other).map change else krnl.object? other := by
  by_cases same : other = ptr
  · subst same
    cases found : krnl.heap[other]? with
    | none => simp [object?, modify, found]
    | some cell => cases cell <;> simp [object?, modify, found]
  · simp [object?, modify, same, Ne.symm same]

/-- What is found after a new one. -/
theorem object?_allocate (krnl : XboxKrnl) (object : DispatcherObject) (other : Ptr) :
    (krnl.allocate object).1.object? other =
      if other = krnl.heap.length then some { object with token := .object krnl.freshAddress }
      else krnl.object? other := by
  by_cases same : other = krnl.heap.length
  · subst same
    simp [object?, allocate]
  · simp only [object?, allocate, same, ↓reduceIte]
    rcases Nat.lt_or_gt_of_ne same with inside | outside
    · rw [List.getElem?_append_left inside]
    · rw [List.getElem?_eq_none (by simp; omega), List.getElem?_eq_none (by omega)]

/-- A live object is the one that is read. -/
theorem object_eq (krnl : XboxKrnl) (ptr : Ptr) (object : DispatcherObject)
    (found : krnl.object? ptr = some object) : krnl.object ptr = object := by
  simp [XboxKrnl.object, found]

/-- Live objects are inside the heap. -/
theorem object?_inside (krnl : XboxKrnl) (ptr : Ptr) (object : DispatcherObject)
    (found : krnl.object? ptr = some object) : ptr < krnl.heap.length := by
  by_contra outside
  simp [object?, List.getElem?_eq_none (Nat.le_of_not_lt outside)] at found

/-- The lookups of a kernel state. -/
def registry (krnl : XboxKrnl) : Registry :=
  { shapes := fun ptr => (krnl.object? ptr).map DispatcherObject.shape
    heapSize := krnl.heap.length
    table := fun slot => (krnl.objects[slot]?).join
    tableSize := krnl.objects.length
    freeSlots := krnl.freeSlots
    vaObjects := krnl.vaObjects
    fiberThreads := krnl.fiberThreads
    nextThreadId := krnl.nextThreadId
    nextHandle := krnl.sched.nextHandle }

/-- A change that keeps the shape of the object keeps the registry. -/
theorem registry_modify (krnl : XboxKrnl) (ptr : Ptr) (change : DispatcherObject → DispatcherObject)
    (kept : ∀ object, krnl.object? ptr = some object → (change object).shape = object.shape) :
    (krnl.modify ptr change).registry = krnl.registry := by
  have shapes : ∀ other, ((krnl.modify ptr change).object? other).map DispatcherObject.shape =
      (krnl.object? other).map DispatcherObject.shape := by
    intro other
    rw [object?_modify]
    split
    · rename_i same
      subst same
      cases found : krnl.object? other with
      | none => rfl
      | some object => simp [kept object found]
    · rfl
  simp only [registry, shapes]
  simp [modify]

/-! ## Fresh addresses -/

/-- An address is occupied by the object whose token has it. -/
theorem occupied_iff (krnl : XboxKrnl) (addr : Nat) :
    krnl.occupied addr = true ↔ ∃ ptr object, krnl.object? ptr = some object ∧ object.token = .object addr := by
  simp only [occupied, List.any_eq_true]
  constructor
  · rintro ⟨cell, member, holds⟩
    obtain ⟨ptr, inside, found⟩ := List.mem_iff_getElem.mp member
    cases cell with
    | none => simp at holds
    | some object =>
      refine ⟨ptr, object, ?_, by simpa using holds⟩
      simp [object?, List.getElem?_eq_getElem inside, found]
  · rintro ⟨ptr, object, found, token⟩
    have inside := krnl.object?_inside ptr object found
    refine ⟨some object, ?_, by simp [token]⟩
    have cell : krnl.heap[ptr] = some object := by
      simpa [object?, List.getElem?_eq_getElem inside] using found
    exact cell ▸ List.getElem_mem inside

/-- The spare address is beyond all that are occupied. -/
theorem spareAddress_above (krnl : XboxKrnl) (ptr : Ptr) (object : DispatcherObject)
    (found : krnl.object? ptr = some object) : object.token.encode < krnl.spareAddress := by
  have inside := krnl.object?_inside ptr object found
  have member : some object ∈ krnl.heap := by
    have cell : krnl.heap[ptr] = some object := by
      simpa [object?, List.getElem?_eq_getElem inside] using found
    exact cell ▸ List.getElem_mem inside
  unfold spareAddress
  clear found inside
  revert member
  generalize krnl.heap = heap
  intro member
  induction heap with
  | nil => simp at member
  | cons cell rest inductionHypothesis =>
    simp only [List.foldr_cons]
    rcases List.mem_cons.mp member with same | member
    · subst same
      exact Nat.lt_of_lt_of_le (Nat.lt_succ_self _) (Nat.le_max_right _ _)
    · have below := inductionHypothesis member
      cases cell with
      | none => exact below
      | some other => exact Nat.lt_of_lt_of_le below (Nat.le_max_left _ _)

/-- The allocator never hands out the address of a live object. -/
theorem freshAddress_free (krnl : XboxKrnl) (ptr : Ptr) (object : DispatcherObject)
    (found : krnl.object? ptr = some object) : object.token ≠ .object krnl.freshAddress := by
  intro same
  unfold freshAddress at same
  simp only at same
  split at same
  · have below := krnl.spareAddress_above ptr object found
    rw [same, Token.encode] at below
    omega
  · rename_i free
    exact free ((krnl.occupied_iff _).mpr ⟨ptr, object, found, same⟩)

/-! ## What the lookups find -/

/-- The registry shows the shape of each live object. -/
theorem shapes_eq (krnl : XboxKrnl) (ptr : Ptr) (object : DispatcherObject)
    (found : krnl.object? ptr = some object) : krnl.registry.shapes ptr = some object.shape := by
  simp [registry, found]

/-- And no others. -/
theorem of_shapes (krnl : XboxKrnl) (ptr : Ptr) (shape : DispatcherObject)
    (found : krnl.registry.shapes ptr = some shape) :
    ∃ object, krnl.object? ptr = some object ∧ object.shape = shape :=
  Option.map_eq_some_iff.mp found

/-- A handle that finds something is four times a number of a slot, counted from one. -/
theorem findObjectByHandle_table (krnl : XboxKrnl) (handle : Nat) (ptr : Ptr)
    (found : krnl.findObjectByHandle handle = some ptr) :
    krnl.registry.table (handle / 4 - 1) = some ptr ∧ handle = 4 * (handle / 4 - 1 + 1) := by
  unfold findObjectByHandle at found
  split at found
  · cases found
  · exact ⟨found, by omega⟩

/-- The handle of a slot finds what is there. -/
theorem findObjectByHandle_of_table (krnl : XboxKrnl) (slot : Nat) :
    krnl.findObjectByHandle (4 * (slot + 1)) = krnl.registry.table slot := by
  have index : 4 * (slot + 1) / 4 - 1 = slot := by omega
  have valid : ¬ (4 * (slot + 1) = 0 ∨ 4 * (slot + 1) % 4 ≠ 0) := by omega
  simp only [findObjectByHandle, valid, ↓reduceIte, index, registry]

/-- An address finds an object that has been initialised. -/
theorem findObjectByVa_member (krnl : XboxKrnl) (va : Nat) (ptr : Ptr)
    (found : krnl.findObjectByVa va = some ptr) : ptr ∈ krnl.registry.vaObjects :=
  List.mem_of_find?_eq_some found

/-- An identity that is found is listed. -/
theorem fiberThread?_member (krnl : XboxKrnl) (fiber : Nat) (ptr : Ptr)
    (found : krnl.fiberThread? fiber = some ptr) : (fiber, ptr) ∈ krnl.registry.fiberThreads := by
  unfold fiberThread? at found
  obtain ⟨⟨key, value⟩, entry, same⟩ := Option.map_eq_some_iff.mp found
  have member := List.mem_of_find?_eq_some entry
  have keyed := List.find?_some entry
  simp only [beq_iff_eq] at keyed same
  subst keyed same
  exact member

/-- None is found if none is listed. -/
theorem fiberThread?_eq_none (krnl : XboxKrnl) (fiber : Nat) :
    krnl.fiberThread? fiber = none ↔ ∀ ptr, (fiber, ptr) ∉ krnl.registry.fiberThreads := by
  simp only [fiberThread?, Option.map_eq_none_iff, List.find?_eq_none, beq_iff_eq, Prod.forall]
  constructor
  · intro absent ptr member
    exact absent fiber ptr member rfl
  · intro absent key ptr member same
    exact absent ptr (same ▸ member)

section lookups

variable {krnl : XboxKrnl} (ok : krnl.registry.Ok)

include ok

/-- In a sound registry the handle table leads to live objects. -/
theorem live_of_table {slot : Nat} {ptr : Ptr} (found : krnl.registry.table slot = some ptr) :
    ∃ object, krnl.object? ptr = some object := by
  obtain ⟨shape, live, _⟩ := ok.tabled _ _ found
  obtain ⟨object, live, _⟩ := krnl.of_shapes _ _ live
  exact ⟨object, live⟩

/-- So do handles. -/
theorem live_of_handle {handle : Nat} {ptr : Ptr} (found : krnl.findObjectByHandle handle = some ptr) :
    ∃ object, krnl.object? ptr = some object :=
  live_of_table ok (krnl.findObjectByHandle_table _ _ found).1

/-- A guest address leads to a live object, which is no thread. -/
theorem live_of_va {va : Nat} {ptr : Ptr} (found : krnl.findObjectByVa va = some ptr) :
    ∃ object, krnl.object? ptr = some object ∧ object.kind ≠ .thread := by
  obtain ⟨⟨shape, live, kind⟩, _⟩ := ok.atAddress _ (krnl.findObjectByVa_member _ _ found)
  obtain ⟨object, live, same⟩ := krnl.of_shapes _ _ live
  exact ⟨object, live, by rw [← same] at kind; exact kind⟩

/-- In a sound registry each identity that is listed is found. -/
theorem fiberThread?_of_member {fiber : Nat} {ptr : Ptr}
    (member : (fiber, ptr) ∈ krnl.registry.fiberThreads) : krnl.fiberThread? fiber = some ptr := by
  cases found : krnl.fiberThread? fiber with
  | none => exact absurd member ((krnl.fiberThread?_eq_none fiber).mp found ptr)
  | some other => rw [ok.keysOnce _ _ _ (krnl.fiberThread?_member _ _ found) member]

/-- The identity of a fiber is a live thread object that names the fiber. -/
theorem live_of_identity {fiber : Nat} {ptr : Ptr} (found : krnl.fiberThread? fiber = some ptr) :
    fiber ≠ 0 ∧ ∃ object, krnl.object? ptr = some object ∧ object.kind = .thread ∧
      object.thread.schedHandle = fiber := by
  obtain ⟨positive, ⟨shape, live, kind, handle⟩, _⟩ :=
    ok.identities _ _ (krnl.fiberThread?_member _ _ found)
  obtain ⟨object, found, same⟩ := krnl.of_shapes _ _ live
  subst same
  exact ⟨positive, object, found, kind, handle⟩

/-- The thread object of a system thread that is still in the handle table. -/
def TabledThread (krnl : XboxKrnl) (fiber : Nat) (ptr : Ptr) : Prop :=
  (∃ slot, krnl.registry.table slot = some ptr) ∧
    ∃ object, krnl.object? ptr = some object ∧ object.kind = .thread ∧
      object.thread.schedHandle = fiber

omit ok in
/-- The objects in the handle table are those that it leads to. -/
theorem tabled_member (krnl : XboxKrnl) (ptr : Ptr) :
    ptr ∈ krnl.objects.filterMap id ↔ ∃ slot, krnl.registry.table slot = some ptr := by
  rw [List.mem_filterMap]
  constructor
  · rintro ⟨cell, member, same⟩
    obtain ⟨slot, found⟩ := List.mem_iff_getElem?.mp member
    exact ⟨slot, by simpa [registry, found] using same⟩
  · rintro ⟨slot, found⟩
    refine ⟨some ptr, List.mem_iff_getElem?.mpr ⟨slot, ?_⟩, rfl⟩
    cases cell : krnl.objects[slot]? with
    | none => simp [registry, cell] at found
    | some value => simpa [registry, cell] using found

/-- The thread objects of a fiber there, as a condition reads them. -/
theorem tabledThread_iff (fiber : Nat) (ptr : Ptr) :
    krnl.TabledThread fiber ptr ↔ ptr ∈ krnl.objects.filterMap id ∧ (krnl.object ptr).kind = .thread ∧
      (krnl.object ptr).thread.schedHandle = fiber := by
  rw [tabled_member]
  constructor
  · rintro ⟨tabled, object, live, kind, handle⟩
    rw [krnl.object_eq _ _ live]
    exact ⟨tabled, kind, handle⟩
  · rintro ⟨⟨slot, tabled⟩, kind, handle⟩
    obtain ⟨object, live⟩ := live_of_table ok tabled
    rw [krnl.object_eq _ _ live] at kind handle
    exact ⟨⟨slot, tabled⟩, object, live, kind, handle⟩

/-- A fiber has at most one. -/
theorem tabledThread_unique {fiber : Nat} {ptr other : Ptr} (left : krnl.TabledThread fiber ptr)
    (right : krnl.TabledThread fiber other) : ptr = other := by
  obtain ⟨⟨slot, found⟩, object, live, kind, handle⟩ := left
  obtain ⟨⟨slot', found'⟩, object', live', kind', handle'⟩ := right
  exact ok.tabledFibers _ _ _ _ _ _ found found' (krnl.shapes_eq _ _ live) (krnl.shapes_eq _ _ live')
    kind kind' (handle.trans handle'.symm)

/-- `find_thread_by_fiber` prefers the identity to the object in the handle table. -/
theorem findThreadByFiber_identity {fiber : Nat} {ptr : Ptr}
    (found : krnl.fiberThread? fiber = some ptr) : krnl.findThreadByFiber fiber = some ptr := by
  obtain ⟨positive, object, live, _, handle⟩ := live_of_identity ok found
  simp [findThreadByFiber, positive, found, krnl.object_eq _ _ live, handle]

/-- A fiber without an identity is found by that one. -/
theorem findThreadByFiber_table {fiber : Nat} (positive : fiber ≠ 0)
    (absent : krnl.fiberThread? fiber = none) (ptr : Ptr) :
    krnl.findThreadByFiber fiber = some ptr ↔ krnl.TabledThread fiber ptr := by
  have isThread := tabledThread_iff ok fiber
  simp only [findThreadByFiber, positive, ↓reduceIte, absent, Option.filter_none, Option.none_or]
  constructor
  · intro found
    have member := List.mem_of_find?_eq_some found
    have holds := List.find?_some found
    simp only [Bool.and_eq_true, beq_iff_eq] at holds
    exact (isThread ptr).mpr ⟨member, holds⟩
  · intro tabled
    obtain ⟨member, kind, handle⟩ := (isThread ptr).mp tabled
    cases found : (krnl.objects.filterMap id).find? (fun ptr =>
        (krnl.object ptr).kind == .thread && (krnl.object ptr).thread.schedHandle == fiber) with
    | none =>
      have missing := List.find?_eq_none.mp found ptr member
      simp [kind, handle] at missing
    | some other =>
      have otherMember := List.mem_of_find?_eq_some found
      have holds := List.find?_some found
      simp only [Bool.and_eq_true, beq_iff_eq] at holds
      rw [tabledThread_unique ok ((isThread other).mpr ⟨otherMember, holds⟩) tabled]

/-- What `find_thread_by_fiber` finds is a live thread object of the fiber. -/
theorem findThreadByFiber_live {fiber : Nat} {ptr : Ptr}
    (found : krnl.findThreadByFiber fiber = some ptr) :
    fiber ≠ 0 ∧ (krnl.fiberThread? fiber = some ptr ∨
      (krnl.fiberThread? fiber = none ∧ krnl.TabledThread fiber ptr)) ∧
    ∃ object, krnl.object? ptr = some object ∧ object.kind = .thread ∧
      object.thread.schedHandle = fiber := by
  have positive : fiber ≠ 0 := by
    intro zero
    simp [findThreadByFiber, zero] at found
  cases identity : krnl.fiberThread? fiber with
  | some other =>
    have same := findThreadByFiber_identity ok identity
    rw [found] at same
    cases same
    exact ⟨positive, Or.inl rfl, (live_of_identity ok identity).2⟩
  | none =>
    have tabled := (findThreadByFiber_table ok positive identity ptr).mp found
    exact ⟨positive, Or.inr ⟨rfl, tabled⟩, tabled.2⟩

/-- What `find_thread_by_id` finds is a live thread object with the identifier. -/
theorem findThreadById_live {threadId : Nat} {ptr : Ptr}
    (found : krnl.findThreadById threadId = some ptr) :
    ∃ object, krnl.object? ptr = some object ∧ object.kind = .thread ∧
      object.thread.threadId = threadId := by
  unfold findThreadById at found
  split at found
  · cases found
  · rcases Option.or_eq_some_iff.mp found with identity | ⟨_, rest⟩
    · have member := List.mem_of_find?_eq_some identity
      have same := List.find?_some identity
      obtain ⟨⟨fiber, ptr'⟩, entry, rfl⟩ := List.mem_map.mp member
      obtain ⟨_, object, live, kind, _⟩ := live_of_identity ok (fiberThread?_of_member ok entry)
      simp only [beq_iff_eq, krnl.object_eq _ _ live] at same
      exact ⟨object, live, kind, same⟩
    · have both : ∃ object, krnl.object? ptr = some object := by
        rcases Option.or_eq_some_iff.mp rest with tabled | ⟨_, va⟩
        · obtain ⟨slot, tabled⟩ := (krnl.tabled_member ptr).mp (List.mem_of_find?_eq_some tabled)
          exact live_of_table ok tabled
        · obtain ⟨⟨shape, live, _⟩, _⟩ := ok.atAddress _ (List.mem_of_find?_eq_some va)
          obtain ⟨object, live, _⟩ := krnl.of_shapes _ _ live
          exact ⟨object, live⟩
      have holds : (krnl.object ptr).kind = .thread ∧ (krnl.object ptr).thread.threadId = threadId := by
        rcases Option.or_eq_some_iff.mp rest with tabled | ⟨_, va⟩
        · simpa using List.find?_some tabled
        · simpa using List.find?_some va
      obtain ⟨object, live⟩ := both
      rw [krnl.object_eq _ _ live] at holds
      exact ⟨object, live, holds⟩

end lookups

end XboxKrnl

end SeriesxEmu
