import SeriesxEmu.WakeUps

/-!
# What a suspended fiber holds

A fiber that is not running waits at a point of kernel code. The invariant of
this module ties the channel a blocked fiber waits on to that point, the body of
a system thread to its object in the handle table, and the identities to the
fibers they were made for. It reads the kernel only through the registry, so it
survives every operation that keeps the registry and moves fibers along.
-/

namespace SeriesxEmu

open Scheduler GuestScheduler

/-- The objects the kernel code suspended at a point still refers to. -/
def Point.pointers : Point → List Ptr
  | .waitDispatch object _ => [object]
  | .waitMultiple objects _ _ => objects
  | .suspended thread _ _ _ => [thread]
  | _ => []

/-- The objects a wait is on. -/
def Point.waited : Point → List Ptr
  | .waitDispatch object _ => [object]
  | .waitMultiple objects _ _ => objects
  | _ => []

/-- The objects that a point waits for are among its pointers. -/
theorem Point.waited_pointers (point : Point) (ptr : Ptr) (member : ptr ∈ point.waited) :
    ptr ∈ point.pointers := by
  cases point <;> first | exact member | simp [Point.waited] at member

/-- The thread object a body has captured. -/
def Body.captured : Body → Option Ptr
  | .native => none
  | .systhread self => self

namespace Registry

/-- The channel belongs to the object, for as long as the object lives. -/
def ChannelOf (registry : Registry) (token : Token) (ptr : Ptr) : Prop :=
  (∃ addr, token = .object addr) ∧ ∀ shape, registry.shapes ptr = some shape → token = shape.token

/-- The channel a blocked fiber waits on, by the point it continues at. -/
def Waits (registry : Registry) (fiber : Fiber) : Prop :=
  match fiber.ctx.point with
  | .entry => False
  | .guest => False
  | .returning _ => fiber.waitToken = .delay
  | .waitDispatch ptr _ => registry.ChannelOf fiber.waitToken ptr
  | .waitMultiple _ _ _ => fiber.waitToken = .multiWait fiber.handle
  | .parked => ∃ self, fiber.ctx.body = .systhread (some self) ∧
      registry.ChannelOf fiber.waitToken self
  | .suspended ptr _ _ _ => (fiber.handle, ptr) ∈ registry.fiberThreads ∧
      registry.ChannelOf fiber.waitToken ptr
  | .csEnter va => fiber.waitToken = .criticalSection va

/-- The invariant of one fiber. -/
structure FiberOk (registry : Registry) (fiber : Fiber) : Prop where
  positive : fiber.handle ≠ 0
  below : fiber.handle < registry.nextHandle
  entry : fiber.ctx.point = .entry → (∀ ptr, (fiber.handle, ptr) ∉ registry.fiberThreads) ∧
    fiber.ctx.body.captured = none
  fresh : fiber.started = false → fiber.ctx.point = .entry ∧ fiber.state = .ready
  waits : fiber.state = .blockedWait → registry.Waits fiber
  idle : fiber.state = .sleeping ∨ fiber.state = .blockedJoin → fiber.ctx.point = .guest
  held : ∀ ptr ∈ fiber.ctx.point.pointers, ptr < registry.heapSize
  waited : ∀ ptr ∈ fiber.ctx.point.waited, ∀ shape, registry.shapes ptr = some shape →
    (∃ slot, registry.table slot = some ptr) ∨ ptr ∈ registry.vaObjects
  capturedHeld : ∀ self, fiber.ctx.body.captured = some self → self < registry.heapSize
  captured : ∀ self shape, fiber.ctx.body.captured = some self → registry.shapes self = some shape →
    shape.kind = .thread ∧ shape.thread.schedHandle = fiber.handle ∧
      ∃ slot, registry.table slot = some self

/-- The fiber is the one a tabled thread object was made for: it has not entered
its body yet, or it has captured the object. -/
def Runs (fiber : Fiber) (ptr : Ptr) : Prop :=
  (fiber.ctx.point = .entry ∧ fiber.ctx.body = .systhread none) ∨ fiber.ctx.body = .systhread (some ptr)

/-- The object in the handle table that was made for a fiber. -/
def ThreadOf (registry : Registry) (handle : Nat) (ptr : Ptr) : Prop :=
  ∃ slot shape, registry.table slot = some ptr ∧ registry.shapes ptr = some shape ∧
    shape.kind = .thread ∧ shape.thread.schedHandle = handle

/-- The invariant of all fibers. -/
structure Fibers (registry : Registry) (threads : List Fiber) : Prop where
  each : ∀ fiber ∈ threads, registry.FiberOk fiber
  distinct : ∀ (index other : Nat) fiber fiber', threads[index]? = some fiber →
    threads[other]? = some fiber' → fiber.handle = fiber'.handle → index = other
  identified : ∀ handle ptr, (handle, ptr) ∈ registry.fiberThreads →
    ∃ fiber ∈ threads, fiber.handle = handle
  tabled : ∀ slot ptr shape, registry.table slot = some ptr → registry.shapes ptr = some shape →
    shape.kind = .thread → ∃ fiber ∈ threads, fiber.handle = shape.thread.schedHandle ∧ Runs fiber ptr

variable {registry : Registry}

/-- Handles tell fibers apart. -/
theorem Fibers.unique {threads : List Fiber} (fibers : registry.Fibers threads) {fiber fiber' : Fiber}
    (member : fiber ∈ threads) (member' : fiber' ∈ threads) (same : fiber.handle = fiber'.handle) :
    fiber = fiber' := by
  obtain ⟨index, found⟩ := List.mem_iff_getElem?.mp member
  obtain ⟨other, found'⟩ := List.mem_iff_getElem?.mp member'
  have position := fibers.distinct index other fiber fiber' found found' same
  subst position
  exact Option.some.inj (found.symm.trans found')

/-- Each fiber moves on by itself: every new fiber comes from the one at its
position, keeps its handle, and still runs the thread object it ran before. -/
theorem Fibers.pointwise {threads next : List Fiber} (fibers : registry.Fibers threads)
    (length : next.length = threads.length)
    (moved : ∀ (index : Nat) fiber fiber', threads[index]? = some fiber → next[index]? = some fiber' →
      fiber'.handle = fiber.handle ∧ registry.FiberOk fiber' ∧
        ∀ ptr, registry.ThreadOf fiber.handle ptr → Runs fiber ptr → Runs fiber' ptr) :
    registry.Fibers next := by
  have origin : ∀ (index : Nat) fiber', next[index]? = some fiber' →
      ∃ fiber, threads[index]? = some fiber := by
    intro index fiber' found
    have inside := (List.getElem?_eq_some_iff.mp found).1
    rw [length] at inside
    exact ⟨threads[index], List.getElem?_eq_getElem inside⟩
  have image : ∀ fiber ∈ threads, ∃ (index : Nat) (fiber' : Fiber), threads[index]? = some fiber ∧
      next[index]? = some fiber' := by
    intro fiber member
    obtain ⟨index, found⟩ := List.mem_iff_getElem?.mp member
    have inside := (List.getElem?_eq_some_iff.mp found).1
    rw [← length] at inside
    exact ⟨index, next[index], found, List.getElem?_eq_getElem inside⟩
  constructor
  · intro fiber' member
    obtain ⟨index, found⟩ := List.mem_iff_getElem?.mp member
    obtain ⟨fiber, before⟩ := origin index fiber' found
    exact (moved index fiber fiber' before found).2.1
  · intro index other fiber fiber' found found' same
    obtain ⟨earlier, before⟩ := origin index fiber found
    obtain ⟨earlier', before'⟩ := origin other fiber' found'
    refine fibers.distinct index other earlier earlier' before before' ?_
    rw [← (moved index earlier fiber before found).1, same, (moved other earlier' fiber' before' found').1]
  · intro handle ptr entry
    obtain ⟨fiber, member, same⟩ := fibers.identified handle ptr entry
    obtain ⟨index, fiber', before, after⟩ := image fiber member
    exact ⟨fiber', List.mem_of_getElem? after, (moved index fiber fiber' before after).1.trans same⟩
  · intro slot ptr shape tabled live kind
    obtain ⟨fiber, member, same, runs⟩ := fibers.tabled slot ptr shape tabled live kind
    obtain ⟨index, fiber', before, after⟩ := image fiber member
    obtain ⟨handle, _, keeps⟩ := moved index fiber fiber' before after
    exact ⟨fiber', List.mem_of_getElem? after, handle.trans same,
      keeps ptr ⟨slot, shape, tabled, live, kind, same.symm⟩ runs⟩

/-- A fiber becomes ready where it is. -/
theorem FiberOk.ready {fiber : Fiber} (ok : registry.FiberOk fiber) (timedOut : Bool) :
    registry.FiberOk { fiber with state := .ready, waitTimedOut := timedOut } :=
  { ok with
    fresh := fun unstarted => ⟨(ok.fresh unstarted).1, rfl⟩
    waits := fun blocked => by cases blocked
    idle := fun asleep => by simp at asleep }

/-- Waking fibers keeps the invariant. -/
theorem Fibers.wakes {threads next : List Fiber} {channel : Token → Prop}
    (fibers : registry.Fibers threads) (woken : Wakes channel threads next) : registry.Fibers next := by
  refine fibers.pointwise woken.length (fun index fiber fiber' before after => ?_)
  have ok := fibers.each fiber (List.mem_of_getElem? before)
  rcases woken.each index fiber before with same | ⟨_, _, changed⟩
  · obtain rfl := Option.some.inj (same.symm.trans after)
    exact ⟨rfl, ok, fun _ _ runs => runs⟩
  · obtain rfl := Option.some.inj (changed.symm.trans after)
    exact ⟨rfl, ok.ready false, fun _ _ runs => runs⟩

/-- One fiber changes. -/
theorem Fibers.modify {threads : List Fiber} (fibers : registry.Fibers threads) (index : Nat)
    (fiber : Fiber) (found : threads[index]? = some fiber) (change : Fiber → Fiber)
    (handle : (change fiber).handle = fiber.handle) (ok : registry.FiberOk (change fiber))
    (runs : ∀ ptr, registry.ThreadOf fiber.handle ptr → Runs fiber ptr → Runs (change fiber) ptr) :
    registry.Fibers (threads.modify index change) := by
  refine fibers.pointwise (by simp) (fun position before after foundBefore foundAfter => ?_)
  rw [List.getElem?_modify, foundBefore] at foundAfter
  by_cases same : index = position
  · subst same
    obtain rfl := Option.some.inj (found.symm.trans foundBefore)
    simp only [↓reduceIte, Option.map_eq_map, Option.map_some, Option.some.injEq] at foundAfter
    subst foundAfter
    exact ⟨handle, ok, runs⟩
  · simp only [same, ↓reduceIte, Option.map_eq_map, Option.map_some, Option.some.injEq] at foundAfter
    subst foundAfter
    exact ⟨rfl, fibers.each before (List.mem_of_getElem? foundBefore), fun _ _ runs => runs⟩

/-- A fiber is spawned. -/
theorem Fibers.spawn {threads : List Fiber} (fibers : registry.Fibers threads) (fiber : Fiber)
    (ok : registry.FiberOk fiber) (fresh : ∀ other ∈ threads, other.handle ≠ fiber.handle) :
    registry.Fibers (threads ++ [fiber]) := by
  obtain ⟨each, distinct, identified, tabled⟩ := fibers
  refine ⟨?_, ?_, ?_, ?_⟩
  · intro other member
    rcases List.mem_append.mp member with old | new
    · exact each other old
    · exact List.mem_singleton.mp new ▸ ok
  · intro index other left right foundLeft foundRight same
    rw [List.getElem?_append] at foundLeft foundRight
    split at foundLeft <;> split at foundRight
    · exact distinct index other left right foundLeft foundRight same
    · have last : right = fiber := by
        have member := List.mem_of_getElem? foundRight
        simpa using member
      exact absurd (last ▸ same) (fresh left (List.mem_of_getElem? foundLeft))
    · have last : left = fiber := by
        have member := List.mem_of_getElem? foundLeft
        simpa using member
      exact absurd (last ▸ same).symm (fresh right (List.mem_of_getElem? foundRight))
    · have insideLeft := (List.getElem?_eq_some_iff.mp foundLeft).1
      have insideRight := (List.getElem?_eq_some_iff.mp foundRight).1
      simp only [List.length_cons, List.length_nil] at insideLeft insideRight
      omega
  · intro handle ptr entry
    obtain ⟨other, member, same⟩ := identified handle ptr entry
    exact ⟨other, List.mem_append_left _ member, same⟩
  · intro slot ptr shape found live kind
    obtain ⟨other, member, same⟩ := tabled slot ptr shape found live kind
    exact ⟨other, List.mem_append_left _ member, same⟩

/-! ## When the registry changes -/

/-- The later registry has more objects, and the pointers known before keep their
meaning. -/
structure Extends (registry next : Registry) : Prop where
  size : registry.heapSize ≤ next.heapSize
  shapes : ∀ ptr < registry.heapSize, next.shapes ptr = registry.shapes ptr
  table : ∀ slot ptr, registry.table slot = some ptr → next.table slot = some ptr
  addresses : ∀ ptr ∈ registry.vaObjects, ptr ∈ next.vaObjects
  identities : ∀ entry ∈ registry.fiberThreads, entry ∈ next.fiberThreads
  handles : registry.nextHandle ≤ next.nextHandle

/-- A channel stays that of its object while the registry grows. -/
theorem ChannelOf.extend {next : Registry} {token : Token} {ptr : Ptr}
    (channel : registry.ChannelOf token ptr) (extension : registry.Extends next)
    (inside : ptr < registry.heapSize) : next.ChannelOf token ptr :=
  ⟨channel.1, fun shape live => channel.2 shape ((extension.shapes ptr inside).symm.trans live)⟩

/-- A fiber for which no identity is made keeps its invariant. -/
theorem FiberOk.extend {next : Registry} {fiber : Fiber} (ok : registry.FiberOk fiber)
    (extension : registry.Extends next)
    (identity : fiber.ctx.point = .entry → ∀ ptr, (fiber.handle, ptr) ∉ next.fiberThreads) :
    next.FiberOk fiber := by
  have waits : fiber.state = .blockedWait → next.Waits fiber := by
    intro blocked
    have waits := ok.waits blocked
    have held := ok.held
    have capturedHeld := ok.capturedHeld
    unfold Waits at waits ⊢
    split at waits <;> rename_i point <;> simp only [point, Point.pointers] at held ⊢
    all_goals first
      | exact waits
      | exact ChannelOf.extend waits extension (held _ (by simp))
      | skip
    · obtain ⟨self, body, channel⟩ := waits
      exact ⟨self, body, channel.extend extension (capturedHeld self (by simp [body, Body.captured]))⟩
    · exact ⟨extension.identities _ waits.1, waits.2.extend extension (held _ (by simp))⟩
  exact
    { positive := ok.positive
      below := Nat.lt_of_lt_of_le ok.below extension.handles
      entry := fun point => ⟨identity point, (ok.entry point).2⟩
      fresh := ok.fresh
      waits := waits
      idle := ok.idle
      held := fun ptr member => Nat.lt_of_lt_of_le (ok.held ptr member) extension.size
      waited := by
        intro ptr member shape live
        rw [extension.shapes ptr (ok.held ptr (Point.waited_pointers _ ptr member))] at live
        rcases ok.waited ptr member shape live with ⟨slot, found⟩ | found
        · exact Or.inl ⟨slot, extension.table slot ptr found⟩
        · exact Or.inr (extension.addresses ptr found)
      capturedHeld := fun self body => Nat.lt_of_lt_of_le (ok.capturedHeld self body) extension.size
      captured := by
        intro self shape body live
        rw [extension.shapes self (ok.capturedHeld self body)] at live
        obtain ⟨kind, handle, slot, found⟩ := ok.captured self shape body live
        exact ⟨kind, handle, slot, extension.table slot self found⟩ }

/-- Destroying an object of the handle table only removes obligations. -/
theorem FiberOk.close {fiber : Fiber} (ok : registry.FiberOk fiber) (slot : Nat) (ptr : Ptr)
    (found : registry.table slot = some ptr) :
    (registry.close slot ptr).FiberOk fiber := by
  have survive : ∀ other shape, (registry.close slot ptr).shapes other = some shape →
      other ≠ ptr ∧ registry.shapes other = some shape := by
    intro other shape live
    simp only [Registry.close, Function.update_apply] at live
    split at live
    · cases live
    · rename_i different
      exact ⟨different, live⟩
  have channel : ∀ token other, registry.ChannelOf token other →
      (registry.close slot ptr).ChannelOf token other :=
    fun token other holds => ⟨holds.1, fun shape live => holds.2 shape (survive other shape live).2⟩
  have waits : fiber.state = .blockedWait → (registry.close slot ptr).Waits fiber := by
    intro blocked
    have waits := ok.waits blocked
    unfold Waits at waits ⊢
    split at waits
    all_goals first
      | exact waits
      | exact channel _ _ waits
      | skip
    · obtain ⟨self, body, holds⟩ := waits
      exact ⟨self, body, channel _ _ holds⟩
    · exact ⟨waits.1, channel _ _ waits.2⟩
  have stays : ∀ other place, other ≠ ptr → registry.table place = some other →
      (registry.close slot ptr).table place = some other := by
    intro other place different tabled
    have elsewhere : place ≠ slot := by
      rintro rfl
      exact different (Option.some.inj (tabled.symm.trans found))
    simpa only [Registry.close, Function.update_apply, elsewhere, ↓reduceIte] using tabled
  exact
    { ok with
      waits := waits
      waited := by
        intro other member shape live
        obtain ⟨different, live⟩ := survive other shape live
        rcases ok.waited other member shape live with ⟨place, tabled⟩ | located
        · exact Or.inl ⟨place, stays other place different tabled⟩
        · exact Or.inr located
      captured := by
        intro self shape body live
        obtain ⟨different, live⟩ := survive self shape live
        obtain ⟨kind, handle, place, tabled⟩ := ok.captured self shape body live
        exact ⟨kind, handle, place, stays self place different tabled⟩ }

end Registry

end SeriesxEmu
