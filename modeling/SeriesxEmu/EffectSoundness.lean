import SeriesxEmu.MachineInvariant

/-!
# Every effect keeps the invariant

One lemma for each kind of effect that is not a plain change of one object, and
the theorem over all effects.
-/

namespace SeriesxEmu

open Scheduler GuestScheduler

namespace XboxKrnl

variable {krnl : XboxKrnl}

/-! ## Registration -/

/-- The identity `ensure_thread_object` makes for a fiber. -/
def newIdentity (krnl : XboxKrnl) (fiber : Nat) : DispatcherObject :=
  { kind := .thread, thread := { schedHandle := fiber, threadId := krnl.nextThreadId, running := true } }

/-- The identity of a fiber that has none is a new object. -/
theorem ensureThreadObject_new (krnl : XboxKrnl) (fiber : Nat) (absent : krnl.fiberThread? fiber = none) :
    krnl.ensureThreadObject fiber =
      ({ (krnl.allocate (krnl.newIdentity fiber)).1 with
          nextThreadId := krnl.nextThreadId + 2
          fiberThreads := krnl.fiberThreads ++ [(fiber, krnl.heap.length)] }, krnl.heap.length) := by
  simp only [ensureThreadObject, absent]
  rfl

/-- The registry then has its shape at a new place, and the identity. -/
theorem registry_identify (krnl : XboxKrnl) (fiber : Nat) (absent : krnl.fiberThread? fiber = none) :
    (krnl.ensureThreadObject fiber).1.registry =
      { krnl.registry.allocate
          (DispatcherObject.shape { krnl.newIdentity fiber with token := .object krnl.freshAddress }) with
        fiberThreads := krnl.fiberThreads ++ [(fiber, krnl.heap.length)]
        nextThreadId := krnl.nextThreadId + 2 } := by
  rw [krnl.ensureThreadObject_new fiber absent, ← krnl.registry_allocate]
  rfl

/-- So the registry stays sound. -/
theorem identified_ok (ok : krnl.registry.Ok) {fiber : Nat} (positive : fiber ≠ 0)
    (absent : krnl.fiberThread? fiber = none) : (krnl.ensureThreadObject fiber).1.registry.Ok := by
  have fresh := krnl.allocate_fresh (krnl.newIdentity fiber) (fun _ => ⟨ok.firstId, Nat.le_refl _⟩)
  rw [krnl.registry_identify _ absent]
  exact ok.identity fresh fiber (krnl.nextThreadId + 2) positive rfl rfl
    ((krnl.fiberThread?_eq_none fiber).mp absent) (Nat.lt_add_of_pos_right (by decide))

/-- The machine does, too: the running fiber is the one that has the identity now. -/
theorem Ok.identify (ok : krnl.Ok) (absent : krnl.fiberThread? krnl.currentHandle = none) {fiber : Fiber}
    (running : krnl.currentFiber = some fiber) (guest : fiber.ctx.point = .guest) :
    (krnl.ensureThreadObject krnl.currentHandle).1.Ok := by
  have inFiber := ok.currentHandle_ne_zero running
  obtain ⟨member, fiberOk, _⟩ := ok.running running
  have handle := currentHandle_of_fiber running
  have registryEq := krnl.registry_identify _ absent
  have nextOk := identified_ok ok.registry inFiber absent
  have extension : krnl.registry.Extends (krnl.ensureThreadObject krnl.currentHandle).1.registry := by
    rw [registryEq]
    refine ⟨Nat.le_succ _, fun ptr inside => ?_, fun slot ptr found => found, fun ptr found => found,
      fun entry found => List.mem_append_left _ found, Nat.le_refl _⟩
    exact Function.update_of_ne (Nat.ne_of_lt inside) _ _
  refine ok.grow _ (by simp only [ensureThreadObject, absent]; rfl) nextOk extension ?_ ?_
    (fun kind => by cases kind)
  · have sched : (krnl.ensureThreadObject krnl.currentHandle).1.sched = krnl.sched := by
      simp [ensureThreadObject, absent, allocate]
    rw [sched]
    refine ok.fibers.extend extension ?_ ?_ ?_ ok.registry
    · intro other found entering ptr entry
      rw [registryEq] at entry
      rcases List.mem_append.mp entry with old | new
      · exact ((ok.fibers.each other found).entry entering).1 ptr old
      · have same : other.handle = krnl.currentHandle := by
          have pair := List.mem_singleton.mp new
          exact congrArg Prod.fst pair
        have equal := ok.fibers.unique found member (same.trans handle)
        rw [equal, guest] at entering
        cases entering
    · intro key ptr entry
      rw [registryEq] at entry
      rcases List.mem_append.mp entry with old | new
      · exact ok.fibers.identified key ptr old
      · have pair := List.mem_singleton.mp new
        exact ⟨fiber, member, handle.symm.trans (congrArg Prod.fst pair).symm⟩
    · intro slot ptr shape found _ _
      rw [registryEq] at found
      exact Or.inl found
  · intro index switched
    simp only [ensureThreadObject, absent, allocate] at switched ⊢
    exact ok.current index switched

/-- The slot that a new object of the handle table takes. -/
theorem insert_allocated (krnl : XboxKrnl) (ok : krnl.registry.Ok) (object : DispatcherObject) :
    ∃ slot objects freeSlots,
      (krnl.allocate object).1.insertObject krnl.heap.length =
        ({ (krnl.allocate object).1 with objects, freeSlots }, 4 * (slot + 1)) ∧
      (fun index => (objects[index]?).join) =
        Function.update krnl.registry.table slot (some krnl.heap.length) ∧
      krnl.registry.table slot = none ∧ slot < objects.length ∧ krnl.objects.length ≤ objects.length ∧
      (∀ other ∈ freeSlots, other ∈ krnl.freeSlots ∧ other ≠ slot) ∧ freeSlots.Nodup :=
  (krnl.allocate object).1.insertObject_spec krnl.heap.length ok.free ok.freeOnce

/-- The machine right after an object has gone to the handle table. -/
def tabledWith (krnl : XboxKrnl) (object : DispatcherObject) (objects : List (Option Ptr))
    (freeSlots : List Nat) (sched : GuestScheduler Token Context) (nextThreadId : Nat)
    (history : List Event) : XboxKrnl :=
  { (krnl.allocate object).1 with objects, freeSlots, sched, nextThreadId, history }

/-- The registry of a machine with a new object in its table. -/
theorem registry_tabledWith (krnl : XboxKrnl) (object : DispatcherObject) (slot : Nat)
    (objects : List (Option Ptr)) (freeSlots : List Nat) (sched : GuestScheduler Token Context)
    (nextThreadId : Nat) (history : List Event)
    (table : (fun index => (objects[index]?).join) =
      Function.update krnl.registry.table slot (some krnl.heap.length)) :
    (krnl.tabledWith object objects freeSlots sched nextThreadId history).registry =
      krnl.registry.tabling (DispatcherObject.shape { object with token := .object krnl.freshAddress })
        slot objects.length freeSlots nextThreadId sched.nextHandle := by
  unfold Registry.tabling
  rw [← krnl.registry_allocate object]
  have place : Function.update krnl.registry.table slot (some krnl.registry.heapSize) =
      fun index => (objects[index]?).join := table.symm
  rw [place]
  rfl

/-- The tables that were there stay when an object is entered. -/
theorem extends_tabling (registry : Registry) (shape : DispatcherObject) (slot tableSize : Nat)
    (freeSlots : List Nat) (nextThreadId nextHandle : Nat) (empty : registry.table slot = none)
    (next : registry.nextHandle ≤ nextHandle) :
    registry.Extends (registry.tabling shape slot tableSize freeSlots nextThreadId nextHandle) := by
  refine ⟨Nat.le_succ _, fun ptr below => ?_, fun place ptr found => ?_, fun ptr found => found,
    fun entry found => found, next⟩
  · exact Function.update_of_ne (Nat.ne_of_lt below) _ _
  · have elsewhere : place ≠ slot := by
      rintro rfl
      rw [empty] at found
      cases found
    simpa only [Registry.tabling, Function.update_of_ne elsewhere] using found

/-- What is found in the handle table afterwards is the new object or was there. -/
theorem tabling_found {registry : Registry} {shape found : DispatcherObject} {slot tableSize : Nat}
    {freeSlots : List Nat} {nextThreadId nextHandle place : Nat} {ptr : Ptr}
    (tabled : (registry.tabling shape slot tableSize freeSlots nextThreadId nextHandle).table place =
      some ptr)
    (live : (registry.tabling shape slot tableSize freeSlots nextThreadId nextHandle).shapes ptr =
      some found) :
    registry.table place = some ptr ∨ (ptr = registry.heapSize ∧ found = shape) := by
  simp only [Registry.tabling, Registry.allocate, Function.update_apply] at tabled live
  split at tabled
  · obtain rfl := Option.some.inj tabled
    rw [if_pos rfl] at live
    exact Or.inr ⟨rfl, (Option.some.inj live).symm⟩
  · exact Or.inl tabled

/-- A creation keeps the machine sound.

Proof: the object is entered into a free slot, and its token is fresh, so nobody waits on it yet. -/
theorem Ok.create (ok : krnl.Ok) (object : DispatcherObject) (newborn : Effect.Newborn krnl object) :
    ((Effect.create object).apply krnl).Ok := by
  obtain ⟨kind, _, mutant⟩ := newborn
  obtain ⟨slot, objects, freeSlots, inserted, table, empty, inside, grown, kept, once⟩ :=
    krnl.insert_allocated ok.registry object
  have applied : (Effect.create object).apply krnl = krnl.tabledWith object objects freeSlots krnl.sched
      krnl.nextThreadId (krnl.birth object krnl.heap.length ++ krnl.history) := by
    have stored : (krnl.allocate object).1.insertObject (krnl.allocate object).2 = _ := inserted
    simp only [Effect.apply, stored]
    rfl
  have registryEq := krnl.registry_tabledWith object slot objects freeSlots krnl.sched krnl.nextThreadId
    (krnl.birth object krnl.heap.length ++ krnl.history) table
  have fresh := krnl.allocate_fresh object (fun thread => absurd thread kind)
  have nextOk := ok.registry.tabling fresh slot objects.length freeSlots krnl.nextThreadId
    krnl.sched.nextHandle empty inside grown kept once (Nat.le_refl _) (Nat.le_refl _)
    (fun thread => absurd thread kind) (fun thread => absurd thread kind)
  have extension := extends_tabling krnl.registry
    (DispatcherObject.shape { object with token := .object krnl.freshAddress }) slot objects.length freeSlots
    krnl.nextThreadId krnl.sched.nextHandle empty (Nat.le_refl _)
  rw [← registryEq] at nextOk extension
  rw [applied]
  refine ok.grow object rfl nextOk extension ?_ ok.current ?_
  · refine ok.fibers.extend extension ?_ ?_ ?_ ok.registry
    · rw [registryEq]
      intro fiber member entering
      exact ((ok.fibers.each fiber member).entry entering).1
    · rw [registryEq]
      exact ok.fibers.identified
    · intro place ptr shape found live isThread
      rw [registryEq] at found live
      rcases tabling_found found live with old | ⟨_, same⟩
      · exact Or.inl old
      · rw [same] at isThread
        exact absurd isThread kind
  · intro isMutant owned
    rcases (mutant isMutant).2 with ⟨_, zero⟩ | ⟨_, _, token⟩
    · exact absurd zero owned
    · exact ⟨krnl.currentHandle, token.symm⟩

/-- So does an initialisation at a guest address. -/
theorem Ok.install (ok : krnl.Ok) (object : DispatcherObject) (newborn : Effect.Newborn krnl object) :
    ((Effect.install object).apply krnl).Ok := by
  obtain ⟨kind, _, mutant⟩ := newborn
  have fresh := krnl.allocate_fresh object (fun thread => absurd thread kind)
  have registryEq : ((Effect.install object).apply krnl).registry =
      { krnl.registry.allocate (DispatcherObject.shape { object with token := .object krnl.freshAddress }) with
        vaObjects := krnl.vaObjects ++ [krnl.heap.length] } := by
    rw [← krnl.registry_allocate object]
    rfl
  have nextOk : ((Effect.install object).apply krnl).registry.Ok := by
    rw [registryEq]
    exact ok.registry.atVa fresh kind
  have extension : krnl.registry.Extends ((Effect.install object).apply krnl).registry := by
    rw [registryEq]
    refine ⟨Nat.le_succ _, fun ptr below => ?_, fun place ptr found => found,
      fun ptr found => List.mem_append_left _ found, fun entry found => found, Nat.le_refl _⟩
    exact Function.update_of_ne (Nat.ne_of_lt below) _ _
  refine ok.grow object rfl nextOk extension ?_ ok.current ?_
  · refine ok.fibers.extend extension ?_ ok.fibers.identified ?_ ok.registry
    · intro fiber member entering
      exact ((ok.fibers.each fiber member).entry entering).1
    · intro place ptr shape found live isThread
      rw [registryEq] at found
      exact Or.inl found
  · intro isMutant owned
    rcases (mutant isMutant).2 with ⟨_, zero⟩ | ⟨_, _, token⟩
    · exact absurd zero owned
    · exact ⟨krnl.currentHandle, token.symm⟩

/-! ## Spawning -/

/-- The fiber `spawn_reserved` appends. -/
def spawnedFiber (sched : GuestScheduler Token Context) (body : Body) (stackTopReserve base : Nat) : Fiber :=
  { ctx := { body, point := .entry }, handle := sched.nextHandle, waitToken := default, stackBase := base
    stackMapSize := kGuardSize + kStackSize, stackTopReserve }

/-- The scheduler with one more fiber. -/
def spawnedSched (sched : GuestScheduler Token Context) (body : Body) (stackTopReserve base : Nat) :
    GuestScheduler Token Context :=
  { sched with
    threads := sched.threads ++ [spawnedFiber sched body stackTopReserve base]
    nextHandle := sched.nextHandle + 1 }

/-- A spawn that gets its stack appends one fiber. -/
theorem spawnReserved_eq (sched : GuestScheduler Token Context) (body : Body) (stackTopReserve base : Nat)
    (fits : stackTopReserve ≤ kStackSize - kMinUsable) :
    sched.spawnReserved { body, point := .entry } stackTopReserve (some base) =
      (spawnedSched sched body stackTopReserve base, sched.nextHandle) := by
  simp only [GuestScheduler.spawnReserved, Nat.not_lt.mpr fits, ↓reduceIte]
  rfl

/-- A spawned fiber is sound: it has no identity yet, and waits for nothing. -/
theorem spawnedFiber_ok {registry : Registry} (sched : GuestScheduler Token Context) (body : Body)
    (stackTopReserve base : Nat) (captured : body.captured = none) (positive : sched.nextHandle ≠ 0)
    (below : sched.nextHandle < registry.nextHandle)
    (absent : ∀ ptr, (sched.nextHandle, ptr) ∉ registry.fiberThreads) :
    registry.FiberOk (spawnedFiber sched body stackTopReserve base) where
  positive := positive
  below := below
  entry := fun _ => ⟨absent, captured⟩
  fresh := fun _ => ⟨rfl, rfl⟩
  waits := fun blocked => by cases blocked
  idle := fun asleep => by rcases asleep with asleep | asleep <;> cases asleep
  held := fun ptr member => by simp [spawnedFiber, Point.pointers] at member
  waited := fun ptr member => by simp [spawnedFiber, Point.waited] at member
  capturedHeld := fun self found => by rw [spawnedFiber, captured] at found; cases found
  captured := fun self shape found => by rw [spawnedFiber, captured] at found; cases found

/-- No fiber has the next handle yet. -/
theorem Ok.nextHandle_fresh (ok : krnl.Ok) (fiber : Fiber) (member : fiber ∈ krnl.sched.threads) :
    fiber.handle ≠ krnl.sched.nextHandle :=
  Nat.ne_of_lt (ok.fibers.each fiber member).below

/-- The next handle is nobody's, so nobody has made an identity under it. -/
theorem Ok.nextHandle_unidentified (ok : krnl.Ok) (ptr : Ptr) :
    (krnl.sched.nextHandle, ptr) ∉ krnl.registry.fiberThreads := by
  intro entry
  obtain ⟨fiber, member, same⟩ := ok.fibers.identified _ _ entry
  exact ok.nextHandle_fresh fiber member same

/-- The fibers with one more, once the handle counter has advanced. -/
theorem Ok.fibers_spawn (ok : krnl.Ok) (body : Body) (stackTopReserve base : Nat)
    (captured : body.captured = none) :
    ({ krnl.registry with nextHandle := krnl.sched.nextHandle + 1 } : Registry).Fibers
      (krnl.sched.threads ++ [spawnedFiber krnl.sched body stackTopReserve base]) := by
  have wider : krnl.registry.Extends { krnl.registry with nextHandle := krnl.sched.nextHandle + 1 } :=
    ⟨Nat.le_refl _, fun _ _ => rfl, fun _ _ found => found, fun _ found => found, fun _ found => found, Nat.le_succ _⟩
  have old := ok.fibers.extend wider (fun fiber member entering =>
    ((ok.fibers.each fiber member).entry entering).1) ok.fibers.identified
    (fun _ _ _ found _ _ => Or.inl found) ok.registry
  exact old.spawn _ (spawnedFiber_ok krnl.sched body stackTopReserve base captured
    (Nat.pos_iff_ne_zero.mp ok.registry.firstHandle) (Nat.lt_succ_self _) ok.nextHandle_unidentified)
    ok.nextHandle_fresh

/-- The running fiber is not the one appended. -/
theorem Ok.current_append (ok : krnl.Ok) (fiber : Fiber) (index : Nat)
    (switched : krnl.sched.current = some index) :
    ∃ found, (krnl.sched.threads ++ [fiber])[index]? = some found ∧ found.started = true ∧
      (found.state = .ready ∨ found.state = .running) := by
  obtain ⟨found, here, rest⟩ := ok.current index switched
  exact ⟨found, by rw [List.getElem?_append_left (List.getElem?_eq_some_iff.mp here).1]; exact here, rest⟩

/-- A spawn keeps the machine sound. -/
theorem Ok.spawn (ok : krnl.Ok) (body : Body) (stackTopReserve base : Nat) (captured : body.captured = none) :
    { krnl with sched := spawnedSched krnl.sched body stackTopReserve base }.Ok := by
  refine ⟨ok.registry.spend krnl.nextThreadId (krnl.sched.nextHandle + 1) (Nat.le_refl _) (Nat.le_succ _),
    ok.fibers_spawn body stackTopReserve base captured, ok.current_append _, ok.owners⟩

/-- Handles and identifiers may be used up. -/
theorem Ok.spend (ok : krnl.Ok) (identifiers handles : Nat) :
    ((Effect.spend identifiers handles).apply krnl).Ok := by
  have wider : krnl.registry.Extends ((Effect.spend identifiers handles).apply krnl).registry :=
    ⟨Nat.le_refl _, fun _ _ => rfl, fun _ _ found => found, fun _ found => found, fun _ found => found,
      Nat.le_add_right _ _⟩
  exact ⟨ok.registry.spend _ _ (Nat.le_add_right _ _) (Nat.le_add_right _ _),
    ok.fibers.extend wider (fun fiber member entering =>
      ((ok.fibers.each fiber member).entry entering).1) ok.fibers.identified
      (fun _ _ _ found _ _ => Or.inl found) ok.registry, ok.current, ok.owners⟩

/-! ## System threads -/

/-- The thread object of a system thread as it stands in the handle table. -/
def systemThread (krnl : XboxKrnl) (request : ThreadRequest) (slot : Nat) : DispatcherObject :=
  let object := newThread request krnl.nextThreadId
  { object with thread :=
      { object.thread with schedHandle := krnl.sched.nextHandle, objectHandle := 4 * (slot + 1) } }

/-- A change at the last place. -/
theorem modify_last {α : Type} (front : List α) (last : α) (change : α → α) :
    (front ++ [last]).modify front.length change = front ++ [change last] := by
  induction front with
  | nil => rfl
  | cons head rest inductionHypothesis =>
    simp only [List.cons_append, List.length_cons, List.modify_succ_cons, inductionHypothesis]

/-- The call that creates a thread, as one change: a new object in the table, a new fiber, and what
the guest is told. -/
theorem createThread_eq (krnl : XboxKrnl) (ok : krnl.registry.Ok) (request : ThreadRequest) (base : Nat)
    (fits : request.tlsDataSize ≤ kStackSize - kMinUsable) :
    ∃ slot objects freeSlots,
      krnl.createThread request base = krnl.tabledWith (krnl.systemThread request slot) objects freeSlots
        (spawnedSched krnl.sched (.systhread none) request.tlsDataSize base) (krnl.nextThreadId + 2)
        (.created krnl.sched.nextHandle (startInfo (newThread request krnl.nextThreadId).thread)
          (request.createSuspended % 2 == 1) :: krnl.history) ∧
      (fun index => (objects[index]?).join) =
        Function.update krnl.registry.table slot (some krnl.heap.length) ∧
      krnl.registry.table slot = none ∧ slot < objects.length ∧ krnl.objects.length ≤ objects.length ∧
      (∀ other ∈ freeSlots, other ∈ krnl.freeSlots ∧ other ≠ slot) ∧ freeSlots.Nodup := by
  let spawned : XboxKrnl := { krnl with
    sched := spawnedSched krnl.sched (.systhread none) request.tlsDataSize base
    nextThreadId := krnl.nextThreadId + 2 }
  let object : DispatcherObject := { newThread request krnl.nextThreadId with thread :=
    { (newThread request krnl.nextThreadId).thread with schedHandle := krnl.sched.nextHandle } }
  obtain ⟨slot, objects, freeSlots, inserted, rest⟩ :=
    (spawned.allocate object).1.insertObject_spec krnl.heap.length ok.free ok.freeOnce
  refine ⟨slot, objects, freeSlots, ?_, rest⟩
  have stored : (spawned.allocate object).1.insertObject (spawned.allocate object).2 = _ := inserted
  have filled : (krnl.heap ++ [some { object with token := .object krnl.freshAddress }]).modify
      krnl.heap.length (Option.map (fun o =>
        { o with thread := { o.thread with objectHandle := 4 * (slot + 1) } })) =
      (krnl.allocate (krnl.systemThread request slot)).1.heap := by
    rw [modify_last]
    rfl
  unfold createThread
  rw [spawnReserved_eq krnl.sched _ _ _ fits]
  simp only
  rw [stored]
  exact XboxKrnl.mk.injEq .. ▸ ⟨rfl, rfl, filled, rfl, rfl, rfl, rfl, rfl, rfl, rfl, rfl, rfl, rfl⟩

/-- It keeps the machine sound. -/
theorem Ok.createThread (ok : krnl.Ok) (request : ThreadRequest) (base : Nat)
    (fits : request.tlsDataSize ≤ kStackSize - kMinUsable) : (krnl.createThread request base).Ok := by
  obtain ⟨slot, objects, freeSlots, created, table, empty, inside, grown, kept, once⟩ :=
    krnl.createThread_eq ok.registry request base fits
  rw [created]
  have registryEq := krnl.registry_tabledWith (krnl.systemThread request slot) slot objects freeSlots
    (spawnedSched krnl.sched (.systhread none) request.tlsDataSize base) (krnl.nextThreadId + 2)
    (.created krnl.sched.nextHandle (startInfo (newThread request krnl.nextThreadId).thread)
      (request.createSuspended % 2 == 1) :: krnl.history) table
  have positive := Nat.pos_iff_ne_zero.mp ok.registry.firstHandle
  have fresh := krnl.allocate_fresh (krnl.systemThread request slot)
    (fun _ => ⟨ok.registry.firstId, Nat.le_refl _⟩)
  have nextOk := ok.registry.tabling fresh slot objects.length freeSlots (krnl.nextThreadId + 2)
    (krnl.sched.nextHandle + 1) empty inside grown kept once (Nat.le_add_right _ _) (Nat.le_succ _)
    (fun _ => Nat.lt_add_of_pos_right (by decide))
    (fun _ => ⟨rfl, positive, Nat.le_refl _, Nat.lt_succ_self _⟩)
  have extension := extends_tabling krnl.registry
    (DispatcherObject.shape { krnl.systemThread request slot with token := .object krnl.freshAddress }) slot
    objects.length freeSlots (krnl.nextThreadId + 2) (krnl.sched.nextHandle + 1) empty (Nat.le_succ _)
  have spawned := ok.fibers_spawn (.systhread none) request.tlsDataSize base rfl
  have spent := ok.registry.spend krnl.nextThreadId (krnl.sched.nextHandle + 1) (Nat.le_refl _)
    (Nat.le_succ _)
  have later := extends_tabling { krnl.registry with nextHandle := krnl.sched.nextHandle + 1 }
    (DispatcherObject.shape { krnl.systemThread request slot with token := .object krnl.freshAddress }) slot
    objects.length freeSlots (krnl.nextThreadId + 2) (krnl.sched.nextHandle + 1) empty (Nat.le_refl _)
  have fibers := spawned.extend later (fun fiber member entering =>
    ((spawned.each fiber member).entry entering).1) spawned.identified (by
      intro place ptr shape found live _
      rcases tabling_found found live with old | ⟨same, same'⟩
      · exact Or.inl old
      · refine Or.inr ⟨spawnedFiber krnl.sched (.systhread none) request.tlsDataSize base, by simp, ?_,
          Or.inl ⟨rfl, rfl⟩⟩
        rw [same']
        rfl) spent
  refine ok.grow (krnl.systemThread request slot) rfl ?_ ?_ ?_ (ok.current_append _)
    (fun kind => by cases kind)
  · rw [registryEq]
    exact nextOk
  · rw [registryEq]
    exact extension
  · rw [registryEq]
    exact fibers

/-- What is found after a slot has been freed. -/
theorem object?_close (krnl : XboxKrnl) (slot : Nat) (ptr other : Ptr) :
    (krnl.closeSlot slot ptr).object? other = if other = ptr then none else krnl.object? other := by
  simp only [object?, closeSlot, List.getElem?_set]
  by_cases same : ptr = other
  · subst same
    by_cases inside : ptr < krnl.heap.length
    · simp [inside]
    · simp [inside]
  · simp [same, Ne.symm same]

/-- Freeing a slot, as the registry sees it. -/
theorem registry_close (krnl : XboxKrnl) (slot : Nat) (ptr : Ptr) :
    (krnl.closeSlot slot ptr).registry = krnl.registry.close slot ptr := by
  have shapes : (krnl.closeSlot slot ptr).registry.shapes = (krnl.registry.close slot ptr).shapes := by
    funext other
    simp only [registry, Registry.close, Function.update_apply, object?_close]
    split <;> rfl
  have table : (krnl.closeSlot slot ptr).registry.table = (krnl.registry.close slot ptr).table := by
    funext place
    simp only [registry, Registry.close, Function.update_apply, closeSlot, List.getElem?_set]
    by_cases same : slot = place
    · subst same
      by_cases inside : slot < krnl.objects.length <;> simp [inside]
    · simp [same, Ne.symm same]
  have size : (krnl.closeSlot slot ptr).registry.heapSize = krnl.registry.heapSize := by
    simp [registry, closeSlot]
  have tableSize : (krnl.closeSlot slot ptr).registry.tableSize = krnl.registry.tableSize := by
    simp [registry, closeSlot]
  exact Registry.mk.injEq .. ▸ ⟨shapes, size, table, tableSize, rfl, rfl, rfl, rfl, rfl⟩

/-- Closing a handle takes no identity away. -/
theorem Ok.tokenOf_close (ok : krnl.Ok) {slot : Nat} {ptr : Ptr} (found : krnl.registry.table slot = some ptr)
    (fiber : Nat) (token : krnl.tokenOf fiber ≠ 0) :
    (krnl.closeSlot slot ptr).tokenOf fiber = krnl.tokenOf fiber := by
  obtain ⟨self, identity⟩ := (ok.tokenOf_ne_zero fiber).mp token
  obtain ⟨_, object, live, _⟩ := live_of_identity ok.registry identity
  have apart := (ok.registry.identities _ _ (krnl.fiberThread?_member _ _ identity)).2.2 slot
  have kept : (krnl.closeSlot slot ptr).object? self = some object := by
    rw [object?_close]
    have different : self ≠ ptr := by
      rintro rfl
      exact apart found
    simpa [different] using live
  rw [krnl.tokenOf_some _ _ _ identity live,
    (krnl.closeSlot slot ptr).tokenOf_some fiber self object identity kept]

/-- Freeing a slot keeps the machine sound.

Proof: what waits for the object, or has captured it, is not asked to be alive. -/
theorem Ok.close (ok : krnl.Ok) (slot : Nat) (ptr : Ptr) (found : krnl.registry.table slot = some ptr) :
    (krnl.closeSlot slot ptr).Ok := by
  have registryEq := krnl.registry_close slot ptr
  refine ⟨by rw [registryEq]; exact ok.registry.close slot ptr found, ?_, ok.current, ?_⟩
  · rw [registryEq]
    refine ⟨fun fiber member => (ok.fibers.each fiber member).close slot ptr found, ok.fibers.distinct,
      ok.fibers.identified, fun place other shape tabled live kind => ?_⟩
    simp only [Registry.close, Function.update_apply] at tabled live
    split at tabled
    · cases tabled
    · split at live
      · cases live
      · exact ok.fibers.tabled place other shape tabled live kind
  · intro other object live kind owned
    rw [object?_close] at live
    split at live
    · cases live
    · obtain ⟨fiber, token⟩ := ok.owners other object live kind owned
      exact ⟨fiber, (ok.tokenOf_close found fiber (by rw [token]; exact owned)).trans token⟩

/-! ## The running fiber moves on -/

/-- A fiber that has started goes to another point of the same body. -/
theorem fiberOk_moved {registry : Registry} {fiber next : Fiber} (ok : registry.FiberOk fiber)
    (handle : next.handle = fiber.handle) (body : next.ctx.body = fiber.ctx.body)
    (started : next.started = true) (entered : next.ctx.point ≠ .entry)
    (waits : next.state = .blockedWait → registry.Waits next)
    (idle : next.state = .sleeping ∨ next.state = .blockedJoin → next.ctx.point = .guest)
    (held : ∀ ptr ∈ next.ctx.point.pointers, ptr < registry.heapSize)
    (waited : ∀ ptr ∈ next.ctx.point.waited, ∀ shape, registry.shapes ptr = some shape →
      (∃ slot, registry.table slot = some ptr) ∨ ptr ∈ registry.vaObjects) : registry.FiberOk next where
  positive := by rw [handle]; exact ok.positive
  below := by rw [handle]; exact ok.below
  entry := fun point => absurd point entered
  fresh := fun unstarted => by rw [started] at unstarted; cases unstarted
  waits := waits
  idle := idle
  held := held
  waited := waited
  capturedHeld := by rw [body]; exact ok.capturedHeld
  captured := by rw [body, handle]; exact ok.captured

/-- A fiber past its entry keeps running the thread object it has captured. -/
theorem runs_moved {fiber next : Fiber} (guest : fiber.ctx.point = .guest)
    (body : next.ctx.body = fiber.ctx.body) (ptr : Ptr) (runs : Registry.Runs fiber ptr) :
    Registry.Runs next ptr := by
  rcases runs with ⟨entry, _⟩ | captured
  · rw [guest] at entry
    cases entry
  · exact Or.inr (body.trans captured)

/-- What can be waited for has a place in the heap. -/
theorem Waitable.inside {ptr : Ptr} (waitable : krnl.Waitable ptr) : ptr < krnl.registry.heapSize := by
  obtain ⟨⟨object, live⟩, _⟩ := waitable
  exact krnl.object?_inside ptr object live

/-- The channel of a live object is its own. -/
theorem Ok.channel (ok : krnl.Ok) {ptr : Ptr} {object : DispatcherObject}
    (live : krnl.object? ptr = some object) : krnl.registry.ChannelOf object.token ptr := by
  have shapes := krnl.shapes_eq ptr object live
  obtain ⟨addr, form⟩ := ok.registry.tokenForm ptr _ shapes
  refine ⟨⟨addr, form⟩, fun shape found => ?_⟩
  obtain rfl := Option.some.inj (shapes.symm.trans found)
  rfl

/-- The fiber as `thread_block` leaves it. -/
def blockedAt (tick : Nat) (token : Token) (ticks : Nat) (point : Point) (fiber : Fiber) : Fiber :=
  { fiber with
    state := .blockedWait, waitToken := token, waitTimedOut := false
    wakeTick := if ticks = kNoTimeout then uint64Max else (tick + ticks) % 2 ^ 64
    ctx := { fiber.ctx with point } }

/-- A fiber that blocks is changed at its place, and the scheduler runs. -/
theorem blockCurrent_eq {index : Nat} (switched : krnl.sched.current = some index) (token : Token)
    (ticks : Nat) (point : Point) :
    krnl.blockCurrent token ticks point = { krnl with sched :=
      (krnl.sched.modifyThread index (blockedAt krnl.sched.tick token ticks point)).switchToScheduler } := by
  unfold blockCurrent
  rw [switched]
  rfl

/-- A fiber may block wherever its wait is recorded. -/
theorem Ok.block (ok : krnl.Ok) {token : Token} {point : Point} (ticks : Nat) {fiber : Fiber}
    (running : krnl.currentFiber = some fiber) (guest : fiber.ctx.point = .guest)
    (blocks : Effect.Blocks krnl token point) : (krnl.blockCurrent token ticks point).Ok := by
  obtain ⟨index, switched, found⟩ := currentFiber_index running
  obtain ⟨_, fiberOk, started, _⟩ := ok.running running
  have handle := currentHandle_of_fiber running
  rw [blockCurrent_eq switched]
  refine ok.switchOut found _ rfl (fiberOk_moved fiberOk rfl rfl started ?_ ?_ ?_ ?_ ?_)
    (fun ptr _ runs => runs_moved guest (by rfl) ptr runs)
  · intro entering
    have atEntry : point = .entry := entering
    rw [atEntry] at blocks
    exact blocks
  · intro _
    cases point with
    | entry => exact blocks
    | guest => exact blocks
    | returning reply => exact blocks
    | waitDispatch ptr ticks =>
      obtain ⟨⟨⟨object, live⟩, _⟩, same, _⟩ := blocks
      rw [krnl.object_eq _ _ live] at same
      subst same
      exact ok.channel live
    | waitMultiple ptrs waitAll ticks =>
      have same := blocks.1
      rw [handle] at same
      exact same
    | parked =>
      obtain ⟨other, self, object, again, body, live, same, _⟩ := blocks
      obtain rfl := Option.some.inj (running.symm.trans again)
      subst same
      exact ⟨self, body, ok.channel live⟩
    | suspended thread out previous reply => exact blocks.elim
    | csEnter va => exact blocks
  · rintro (asleep | asleep) <;> cases asleep
  · intro ptr member
    cases point with
    | waitDispatch object ticks =>
      obtain rfl := List.mem_singleton.mp member
      exact blocks.1.inside
    | waitMultiple ptrs waitAll ticks => exact (blocks.2.1 ptr member).inside
    | suspended thread out previous reply => exact blocks.elim
    | _ => simp [blockedAt, Point.pointers] at member
  · intro ptr member shape _
    cases point with
    | waitDispatch object ticks =>
      obtain rfl := List.mem_singleton.mp member
      exact blocks.1.2
    | waitMultiple ptrs waitAll ticks => exact (blocks.2.1 ptr member).2
    | _ => simp [blockedAt, Point.waited] at member

/-- A fiber may suspend itself on its own identity. -/
theorem Ok.suspendSelf (ok : krnl.Ok) {ptr : Ptr} (out : Nat) (reply : Reply) {fiber : Fiber}
    (identity : krnl.fiberThread? krnl.currentHandle = some ptr)
    (running : krnl.currentFiber = some fiber) (guest : fiber.ctx.point = .guest) :
    ((Effect.suspendSelf ptr out reply).apply krnl).Ok := by
  obtain ⟨_, object, live, _⟩ := live_of_identity ok.registry identity
  have raised := ok.modify live (Change.apply krnl .suspend) rfl rfl
  have sameRegistry : (krnl.modify ptr (Change.apply krnl .suspend)).registry = krnl.registry :=
    krnl.registry_modify ptr _ (fun _ _ => rfl)
  obtain ⟨index, switched, found⟩ := currentFiber_index running
  obtain ⟨_, fiberOk, started, _⟩ := ok.running running
  have handle := currentHandle_of_fiber running
  rw [← sameRegistry] at fiberOk
  have stillSwitched : (krnl.modify ptr (Change.apply krnl .suspend)).sched.current = some index := switched
  simp only [Effect.apply]
  rw [blockCurrent_eq stillSwitched]
  refine raised.switchOut found _ rfl (fiberOk_moved fiberOk rfl rfl started (by simp [blockedAt]) ?_ ?_ ?_
    (by simp [blockedAt, Point.waited]))
    (fun ptr _ runs => runs_moved guest (by rfl) ptr runs)
  · intro _
    rw [krnl.object_eq _ _ live, sameRegistry]
    refine ⟨?_, ok.channel live⟩
    have member := krnl.fiberThread?_member _ _ identity
    rw [handle] at member
    exact member
  · rintro (asleep | asleep) <;> cases asleep
  · intro other member
    obtain rfl := List.mem_singleton.mp member
    rw [sameRegistry]
    exact krnl.object?_inside _ _ live

/-- A fiber may leave for the scheduler with a reply to be returned. -/
theorem Ok.pause (ok : krnl.Ok) {state : State} (wakeTick joinTarget : Nat) {point : Point} {fiber : Fiber}
    (running : krnl.currentFiber = some fiber) (guest : fiber.ctx.point = .guest)
    (stops : (state = .ready ∧ ∃ reply, point = .returning reply) ∨
      ((state = .ready ∨ state = .sleeping ∨ state = .blockedJoin) ∧ point = .guest)) :
    ((Effect.pause state wakeTick joinTarget point).apply krnl).Ok := by
  obtain ⟨index, switched, found⟩ := currentFiber_index running
  obtain ⟨_, fiberOk, started, _⟩ := ok.running running
  simp only [Effect.apply, switched]
  refine ok.switchOut found _ rfl (fiberOk_moved fiberOk rfl rfl started ?_ ?_ ?_ ?_ ?_)
    (fun ptr _ runs => runs_moved guest (by rfl) ptr runs)
  · rcases stops with ⟨_, reply, rfl⟩ | ⟨_, rfl⟩ <;> simp
  · rcases stops with ⟨rfl, _⟩ | ⟨rfl | rfl | rfl, _⟩ <;> simp
  · rcases stops with ⟨rfl, _⟩ | ⟨_, rfl⟩
    · simp
    · simp
  · rcases stops with ⟨_, reply, rfl⟩ | ⟨_, rfl⟩ <;> simp [Point.pointers]
  · rcases stops with ⟨_, reply, rfl⟩ | ⟨_, rfl⟩ <;> simp [Point.waited]

/-- A fiber may end. -/
theorem Ok.exit (ok : krnl.Ok) (code : Int) {fiber : Fiber} (running : krnl.currentFiber = some fiber)
    (guest : fiber.ctx.point = .guest) : ((Effect.exit code).apply krnl).Ok := by
  obtain ⟨index, switched, found⟩ := currentFiber_index running
  obtain ⟨_, fiberOk, started, _⟩ := ok.running running
  simp only [Effect.apply, switched]
  refine Ok.note (ok.switchOut found _ rfl (fiberOk_moved fiberOk rfl rfl started (by simp [guest]) ?_ ?_ ?_
    (by simp [guest, Point.waited]))
    (fun ptr _ runs => runs_moved guest (by rfl) ptr runs)) _
  · intro blocked
    cases blocked
  · rintro (asleep | asleep) <;> cases asleep
  · simp [guest, Point.pointers]

/-- A fiber that has been switched in goes on in guest code. -/
theorem Ok.proceed (ok : krnl.Ok) {fiber : Fiber} (running : krnl.currentFiber = some fiber)
    (native : fiber.ctx.point = .entry → fiber.ctx.body = .native) : (krnl.setPoint .guest).Ok := by
  obtain ⟨index, switched, found⟩ := currentFiber_index running
  obtain ⟨_, fiberOk, started, state⟩ := ok.running running
  unfold setPoint
  rw [switched]
  refine ok.change switched found _ rfl (fiberOk_moved fiberOk rfl rfl started (by simp) ?_ (by simp)
    (by simp [Point.pointers]) (by simp [Point.waited])) ?_ rfl rfl
  · intro blocked
    simp only at blocked
    rw [blocked] at state
    simp at state
  · rintro ptr _ (⟨entry, body⟩ | captured)
    · rw [native entry] at body
      cases body
    · exact Or.inr captured

/-- The first dispatch of a system thread captures its object, if that is still in
the handle table. -/
theorem Ok.enter (ok : krnl.Ok) {fiber : Fiber} (running : krnl.currentFiber = some fiber)
    (entry : fiber.ctx.point = .entry) :
    ((Effect.enter).apply krnl).Ok ∧
      ∀ ptr, krnl.findThreadByFiber krnl.currentHandle = some ptr ↔ krnl.TabledThread krnl.currentHandle ptr := by
  obtain ⟨index, switched, found⟩ := currentFiber_index running
  obtain ⟨_, fiberOk, started, state⟩ := ok.running running
  have handle := currentHandle_of_fiber running
  have absent : krnl.fiberThread? krnl.currentHandle = none := by
    rw [fiberThread?_eq_none, handle]
    exact (fiberOk.entry entry).1
  have lookup := findThreadByFiber_table ok.registry (ok.currentHandle_ne_zero running) absent
  refine ⟨?_, lookup⟩
  have applied : (Effect.enter).apply krnl = { krnl with sched := krnl.sched.modifyThread index (fun thread =>
      { thread with ctx :=
        { body := .systhread (krnl.findThreadByFiber krnl.currentHandle), point := .guest } }) } := by
    simp only [Effect.apply, setPoint, setBody, switched, GuestScheduler.modifyThread,
      List.modify_modify_eq]
    rfl
  rw [applied]
  refine ok.change switched found _ rfl ?_ ?_ rfl rfl
  · refine ⟨fiberOk.positive, fiberOk.below, by simp, ?_, ?_, by simp, by simp [Point.pointers],
      by simp [Point.waited], ?_, ?_⟩
    · intro unstarted
      simp only at unstarted
      rw [started] at unstarted
      cases unstarted
    · intro blocked
      simp only at blocked
      rw [blocked] at state
      simp at state
    · intro self captured
      obtain ⟨_, object, live, _⟩ := (lookup self).mp captured
      exact krnl.object?_inside _ _ live
    · intro self shape captured live
      obtain ⟨tabled, object, here, kind, same⟩ := (lookup self).mp captured
      rw [krnl.shapes_eq _ _ here] at live
      obtain rfl := Option.some.inj live
      exact ⟨kind, same.trans handle, tabled⟩
  · rintro ptr ⟨slot, shape, tabled, live, kind, same⟩ _
    obtain ⟨object, here, rfl⟩ := krnl.of_shapes _ _ live
    exact Or.inr (congrArg Body.systhread
      ((lookup ptr).mpr ⟨⟨slot, tabled⟩, object, here, kind, same.trans handle.symm⟩))

/-! ## A turn of the run loop -/

/-- The three wake passes of `pick_next` on one fiber. -/
theorem wakePass_cases (sched : GuestScheduler Token Context) (fiber : Fiber) :
    timeOutWait sched.tick (wakeSleeper sched.tick (sched.unblockJoin fiber)) = fiber ∨
      ((fiber.state = .sleeping ∨ fiber.state = .blockedJoin) ∧
        timeOutWait sched.tick (wakeSleeper sched.tick (sched.unblockJoin fiber)) =
          { fiber with state := .ready }) ∨
      (fiber.state = .blockedWait ∧
        timeOutWait sched.tick (wakeSleeper sched.tick (sched.unblockJoin fiber)) =
          { fiber with state := .ready, waitTimedOut := true }) := by
  rcases passed_cases sched fiber with ⟨same, _⟩ | ⟨asleep, _, ready⟩ | ⟨blocked, _, timedOut⟩ | ⟨joins, ready⟩
  · exact Or.inl same
  · exact Or.inr (Or.inl ⟨Or.inl asleep, ready⟩)
  · exact Or.inr (Or.inr ⟨blocked, timedOut⟩)
  · exact Or.inr (Or.inl ⟨Or.inr joins, ready⟩)

/-- The passes over the fibers wake a fiber or let it be. -/
theorem Ok.wakePass (ok : krnl.Ok) (fiber : Fiber) (member : fiber ∈ krnl.sched.threads) :
    krnl.registry.FiberOk
      (timeOutWait krnl.sched.tick (wakeSleeper krnl.sched.tick (krnl.sched.unblockJoin fiber))) := by
  have fiberOk := ok.fibers.each fiber member
  rcases wakePass_cases krnl.sched fiber with same | ⟨_, ready⟩ | ⟨_, timedOut⟩
  · rw [same]
    exact fiberOk
  · rw [ready]
    exact fiberOk.ready fiber.waitTimedOut
  · rw [timedOut]
    exact fiberOk.ready true

/-- They change neither its handle nor its context. -/
theorem wakePass_same (sched : GuestScheduler Token Context) (fiber : Fiber) :
    (timeOutWait sched.tick (wakeSleeper sched.tick (sched.unblockJoin fiber))).handle = fiber.handle ∧
      (timeOutWait sched.tick (wakeSleeper sched.tick (sched.unblockJoin fiber))).ctx = fiber.ctx := by
  rcases wakePass_cases sched fiber with same | ⟨_, ready⟩ | ⟨_, timedOut⟩
  · rw [same]
    exact ⟨rfl, rfl⟩
  · rw [ready]
    exact ⟨rfl, rfl⟩
  · rw [timedOut]
    exact ⟨rfl, rfl⟩

/-- So all fibers stay sound. -/
theorem Ok.wakePasses (ok : krnl.Ok) : krnl.registry.Fibers krnl.sched.wakePasses := by
  refine ok.fibers.pointwise (by simp [GuestScheduler.wakePasses]) (fun index fiber fiber' before after => ?_)
  simp only [GuestScheduler.wakePasses, List.getElem?_map, before, Option.map_some, Option.some.injEq] at after
  subst after
  obtain ⟨handle, ctx⟩ := wakePass_same krnl.sched fiber
  refine ⟨handle, ok.wakePass fiber (List.mem_of_getElem? before), fun ptr _ runs => ?_⟩
  rw [Registry.Runs, ctx]
  exact runs

/-- The switch into a fiber, on the fiber. -/
def switchedIn (fiber : Fiber) : Fiber :=
  { fiber with
    started := true, switches := fiber.switches + 1
    state := if fiber.started then fiber.state else .running }

/-- What one turn of the run loop does. -/
theorem loopTurn_cases (sched : GuestScheduler Token Context) :
    (∃ inLoop deadlocked tick, sched.loopTurn.1 = { sched with inLoop, deadlocked, tick } ∧
        sched.loopTurn.2 = .returned true) ∨
      (∃ inLoop deadlocked tick, sched.loopTurn.1 =
        { sched with threads := sched.wakePasses, inLoop, deadlocked, tick } ∧
          ∀ index, sched.loopTurn.2 ≠ .dispatched index) ∨
      ∃ index fiber, sched.wakePasses[index]? = some fiber ∧ fiber.state = .ready ∧
        sched.loopTurn.2 = .dispatched index ∧
        sched.loopTurn.1 = { sched with
          threads := sched.wakePasses.modify index switchedIn, current := some index
          rrCursor := (index + 1) % sched.wakePasses.length, switchesTotal := sched.switchesTotal + 1 } := by
  have turns := loopTurn_turns sched
  generalize sched.loopTurn.1 = after at turns ⊢
  generalize sched.loopTurn.2 = outcome at turns ⊢
  cases turns with
  | complete finished => exact Or.inl ⟨false, sched.deadlocked, sched.tick, rfl, rfl⟩
  | dispatches index fiber found ready =>
    exact Or.inr (Or.inr ⟨index, passed sched fiber, by simp [wakePasses_eq, found], ready, rfl, rfl⟩)
  | idles unready time => exact Or.inr (Or.inl ⟨sched.inLoop, sched.deadlocked, _, rfl, by simp⟩)
  | deadlocks unready still => exact Or.inr (Or.inl ⟨false, true, sched.tick, rfl, by simp⟩)
  | falls unready still free unfinished => exact Or.inr (Or.inl ⟨false, sched.deadlocked, sched.tick, rfl, by simp⟩)

/-- A turn of the loop keeps the machine sound.

Proof: the passes do, and the fiber that is switched to was ready. -/
theorem Ok.turn (ok : krnl.Ok) (idle : krnl.sched.current = none) : ((Effect.turn).apply krnl).Ok := by
  simp only [Effect.apply]
  rcases loopTurn_cases krnl.sched with ⟨inLoop, deadlocked, tick, turned, _⟩ |
    ⟨inLoop, deadlocked, tick, turned, _⟩ | ⟨index, fiber, found, ready, _, turned⟩
  · rw [turned]
    exact ok.transport rfl ok.fibers ok.current (OwnersFrom.of_heap rfl)
  · rw [turned]
    refine ok.transport rfl ok.wakePasses (fun index switched => ?_) (OwnersFrom.of_heap rfl)
    rw [show krnl.sched.current = some index from switched] at idle
    cases idle
  · rw [turned]
    have fiberOk := ok.wakePasses.each fiber (List.mem_of_getElem? found)
    have moved : krnl.registry.FiberOk (switchedIn fiber) := by
      refine { fiberOk with fresh := fun unstarted => (by cases unstarted), waits := ?_, idle := ?_ }
      · intro blocked
        simp only [switchedIn, ready] at blocked
        split at blocked <;> cases blocked
      · intro asleep
        simp only [switchedIn, ready] at asleep
        split at asleep <;> rcases asleep with asleep | asleep <;> cases asleep
    refine ok.transport rfl (ok.wakePasses.modify index fiber found switchedIn rfl moved
      (fun _ _ runs => runs)) (fun other switched => ?_) (OwnersFrom.of_heap rfl)
    have same : index = other := Option.some.inj switched
    subst same
    refine ⟨switchedIn fiber, by simp [found], rfl, ?_⟩
    simp only [switchedIn, ready]
    split
    · exact Or.inl rfl
    · exact Or.inr rfl

/-! ## The theorem over all effects -/

/-- A resume does nothing, or takes a suspension away and wakes. -/
theorem resumeThread_eq (krnl : XboxKrnl) (ptr : Ptr) :
    (krnl.resumeThread ptr = krnl ∧ (krnl.object ptr).thread.suspendCount = 0) ∨
      ∃ threads history, krnl.resumeThread ptr = krnl.updated ptr
      (fun o => { o with thread := { o.thread with
        suspendCount := (krnl.object ptr).thread.suspendCount - 1 } }) threads krnl.ram history ∧
      Wakes (· = (krnl.object ptr).token) krnl.sched.threads threads := by
  simp only [XboxKrnl.resumeThread]
  split
  · right
    split
    · exact ⟨_, _, rfl, signalThreads_wakes _ _ _⟩
    · exact ⟨_, _, rfl, Wakes.refl _ _⟩
  · rename_i none
    exact Or.inl ⟨rfl, Nat.eq_zero_of_not_pos none⟩

end XboxKrnl

open XboxKrnl

/-- Every effect that kernel code can have keeps the invariant of the machine.

Proof: by the effect. An effect that rewrites one object and wakes the waiters goes through one
lemma, an effect on the running fiber through another, and what creates or closes an entry through
the registry. -/
theorem Effect.sound {krnl : XboxKrnl} (ok : krnl.Ok) (effect : Effect) (allowed : effect.Allowed krnl) :
    (effect.apply krnl).Ok := by
  cases effect with
  | compute ram filetime => exact ok.transport rfl ok.fibers ok.current (OwnersFrom.of_heap rfl)
  | deliver reply => exact ok.note _
  | ran threadHandle => exact ok.note _
  | consume ptr => exact ok.note _
  | identify =>
    obtain ⟨_, absent, fiber, running, guest⟩ := allowed
    exact ok.identify absent running guest
  | acquire mode ptrs status =>
    obtain ⟨waitable, identified, _⟩ := allowed
    exact (ok.taken_eq ptrs (fun ptr member => (waitable ptr member).1.1) identified).1.note _
  | block token ticks point =>
    obtain ⟨⟨fiber, running, guest⟩, blocks⟩ := allowed
    exact ok.block ticks running guest blocks
  | suspendSelf ptr out reply =>
    obtain ⟨identity, fiber, running, guest⟩ := allowed
    exact ok.suspendSelf out reply identity running guest
  | adjust ptr change =>
    obtain ⟨object, live, _⟩ := allowed
    exact ok.modify live (change.apply krnl) (by cases change <;> rfl) (by cases change <;> rfl)
  | setEvent ptr =>
    obtain ⟨object, live, _⟩ := allowed
    obtain ⟨ram, set⟩ := krnl.keSetEventCore_eq ptr object live
    simp only [Effect.apply, set]
    exact ok.update live _ rfl (Or.inl rfl) (krnl.releasedBy_wakes object) ram krnl.history
  | pulseEvent ptr =>
    obtain ⟨object, live, _⟩ := allowed
    obtain ⟨ram, pulsed⟩ := krnl.pulseEvent_eq ptr object live
    simp only [Effect.apply, pulsed]
    exact ok.update live _ rfl (Or.inl rfl) (krnl.releasedBy_wakes object) ram krnl.history
  | releaseMutant ptr =>
    obtain ⟨object, live, _⟩ := allowed
    by_cases freed : 0 < object.mutant.signalState + 1
    · obtain ⟨ram, released⟩ := krnl.releaseMutant_freed ptr object live freed
      simp only [Effect.apply, released]
      exact ok.update live _ rfl (Or.inr (Or.inl (by simp [clearWaiters, putMutant, freed])))
        (krnl.wokenBy_wakes ptr 1) ram _
    · obtain ⟨ram, released⟩ := krnl.releaseMutant_held ptr object live freed
      simp only [Effect.apply, released]
      exact ok.update live _ rfl (Or.inl (by simp [putMutant, freed]))
        (Wakes.refl (fun _ => False) _) ram _
  | releaseSemaphore ptr adjustment =>
    obtain ⟨object, live, _⟩ := allowed
    obtain ⟨ram, released⟩ := krnl.releaseSemaphore_eq ptr object live adjustment
    simp only [Effect.apply, released]
    exact ok.update live _ rfl (Or.inl rfl) (krnl.wokenBy_wakes ptr _) ram _
  | create object => exact ok.create object allowed.1
  | install object => exact ok.install object allowed
  | createThread request base => exact ok.createThread request base allowed
  | spend identifiers handles => exact ok.spend identifiers handles
  | close slot ptr => exact ok.close slot ptr allowed
  | resumeThread ptr =>
    obtain ⟨object, live, _⟩ := allowed
    rcases krnl.resumeThread_eq ptr with ⟨same, _⟩ | ⟨threads, history, resumed, woken⟩
    · simp only [Effect.apply, same]
      exact ok
    · simp only [Effect.apply, resumed]
      exact ok.update live _ rfl (Or.inl rfl) woken krnl.ram history
  | enter =>
    obtain ⟨fiber, running, entry, _⟩ := allowed
    exact (ok.enter running entry).1
  | proceed =>
    obtain ⟨fiber, running, native⟩ := allowed
    exact ok.proceed running native
  | abandon ptr =>
    obtain ⟨object, live, kind, owner, _⟩ := allowed
    obtain ⟨ram, abandoned⟩ := krnl.abandon_owned _ ptr object live kind owner
    simp only [Effect.apply, abandoned]
    exact ok.update live _ rfl (Or.inr (Or.inl rfl)) (krnl.wokenBy_wakes ptr 1) ram _
  | wakeJoiner ptr =>
    obtain ⟨object, live, _⟩ := allowed
    simp only [Effect.apply, krnl.wakeObject_eq ptr 1]
    exact ok.update live clearWaiters rfl (Or.inl rfl) (krnl.wokenBy_wakes ptr 1) krnl.ram krnl.history
  | exit code =>
    obtain ⟨⟨fiber, running, guest⟩, _⟩ := allowed
    exact ok.exit code running guest
  | leaveSection va => exact ok.wake (signalThreads_wakes _ _ _)
  | pause state wakeTick joinTarget point =>
    obtain ⟨⟨fiber, running, guest⟩, stops⟩ := allowed
    exact ok.pause wakeTick joinTarget running guest stops
  | spawn stackTopReserve base =>
    simp only [Effect.apply, spawnReserved_eq krnl.sched _ _ _ allowed]
    exact ok.spawn .native stackTopReserve base rfl
  | enterLoop => exact ok.transport rfl ok.fibers ok.current (OwnersFrom.of_heap rfl)
  | turn => exact ok.turn allowed

end SeriesxEmu
