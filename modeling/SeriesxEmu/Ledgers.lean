import SeriesxEmu.Runs
import Mathlib.Data.Multiset.AddSub

/-!
# Ledgers of objects

A ledger lists the objects that a program creates, uses and destroys, in order. Settling it keeps the
objects that are alive, and it fails at the first object that is used or destroyed without being alive:
a ledger that can be settled has no use after a destruction and no second destruction, and what is left
in the end has leaked. Handles may be handed out again.
-/

namespace SeriesxEmu.Ledgers

variable {Object : Type} [DecidableEq Object]

/-- An object is created, used or destroyed. -/
inductive Event (Object : Type) where
  | create (object : Object)
  | use (object : Object)
  | destroy (object : Object)
deriving DecidableEq

/-- One event, for the objects that are alive. -/
def settle (alive : Multiset Object) : Event Object → Option (Multiset Object)
  | .create object => some (object ::ₘ alive)
  | .use object => if object ∈ alive then some alive else none
  | .destroy object => if object ∈ alive then some (alive.erase object) else none

/-- The object that an event is about. -/
def Event.object : Event Object → Object
  | .create object => object
  | .use object => object
  | .destroy object => object

/-- A ledger in which the parents of an object are used at each of its events. -/
def backed (parents : Object → List Object) (events : List (Event Object)) : List (Event Object) :=
  events.flatMap fun event => (parents event.object).map Event.use ++ [event]

/-- The ledger can be settled and leaves these objects. -/
def Settles (alive : Multiset Object) (events : List (Event Object)) (left : Multiset Object) : Prop :=
  Runs.run settle alive events = some left

section settles
variable {alive left : Multiset Object} {events : List (Event Object)}

/-- Nothing settles what is alive. -/
theorem Settles.nil (alive : Multiset Object) : Settles alive [] alive := rfl

/-- Two ledgers settle one after the other. -/
theorem Settles.append {middle : Multiset Object} {later : List (Event Object)} (first : Settles alive events middle)
    (second : Settles middle later left) : Settles alive (events ++ later) left :=
  (Runs.run_append alive left events later).mpr ⟨middle, first, second⟩

/-- A creation adds its object. -/
theorem Settles.create (alive : Multiset Object) (object : Object) :
    Settles alive [.create object] (object ::ₘ alive) := rfl

/-- A use needs its object alive. -/
theorem Settles.use {object : Object} (lives : object ∈ alive) : Settles alive [.use object] alive := by
  rw [Settles, Runs.run, settle, if_pos lives]
  rfl

/-- A destruction takes its object away. -/
theorem Settles.destroy (alive : Multiset Object) (object : Object) :
    Settles (object ::ₘ alive) [.destroy object] alive := by
  rw [Settles, Runs.run, settle, if_pos (Multiset.mem_cons_self object alive), Multiset.erase_cons_head]
  rfl

/-- An object that has just been made is used. -/
theorem Settles.createUse (alive : Multiset Object) (object : Object) :
    Settles alive [.create object, .use object] (object ::ₘ alive) :=
  (Settles.create alive object).append (Settles.use (Multiset.mem_cons_self object alive))

/-- All objects are destroyed, one after the other. -/
theorem Settles.releases (objects : List Object) : Settles objects (objects.map Event.destroy) 0 := by
  induction objects with
  | nil => exact Settles.nil 0
  | cons object rest inductionHypothesis => exact (Settles.destroy _ object).append inductionHypothesis

/-- Objects that are alive can be used in any order. -/
theorem Settles.uses (objects : List Object) (live : ∀ object ∈ objects, object ∈ alive) :
    Settles alive (objects.map Event.use) alive := by
  induction objects with
  | nil => exact Settles.nil alive
  | cons object rest inductionHypothesis =>
    rw [List.forall_mem_cons] at live
    exact (Settles.use live.1).append (inductionHypothesis live.2)

/-- What else is alive is not touched. -/
theorem Settles.frame (settles : Settles alive events left) (rest : Multiset Object) :
    Settles (alive + rest) events (left + rest) := by
  induction events generalizing alive with
  | nil =>
    obtain rfl : alive = left := Option.some.inj settles
    exact Settles.nil _
  | cons event events inductionHypothesis =>
    obtain ⟨middle, settled, later⟩ := (Runs.run_cons alive left event events).mp settles
    refine (Runs.run_cons (alive + rest) (left + rest) event events).mpr ⟨middle + rest, ?_, inductionHypothesis later⟩
    cases event with
    | create object =>
      obtain rfl := Option.some.inj settled
      exact congrArg some (Multiset.cons_add object alive rest).symm
    | use object =>
      rw [settle] at settled ⊢
      split at settled
      · rename_i lives
        obtain rfl := Option.some.inj settled
        rw [if_pos (Multiset.mem_add.mpr (Or.inl lives))]
      · cases settled
    | destroy object =>
      rw [settle] at settled ⊢
      split at settled
      · rename_i lives
        obtain rfl := Option.some.inj settled
        rw [if_pos (Multiset.mem_add.mpr (Or.inl lives)), Multiset.erase_add_left_pos rest lives]
      · cases settled

omit [DecidableEq Object] in
/-- The backing uses of two ledgers come one after the other. -/
@[simp] theorem backed_append (parents : Object → List Object) (first second : List (Event Object)) :
    backed parents (first ++ second) = backed parents first ++ backed parents second :=
  List.flatMap_append

omit [DecidableEq Object] in
/-- A backed ledger has its own events, and a use of each parent beside them. -/
theorem mem_backed {parents : Object → List Object} {event : Event Object} : event ∈ backed parents events ↔
    event ∈ events ∨ ∃ other ∈ events, ∃ parent ∈ parents other.object, Event.use parent = event := by
  simp only [backed, List.mem_flatMap, List.mem_append, List.mem_map, List.mem_singleton]
  constructor
  · rintro ⟨other, member, named | rfl⟩
    · exact Or.inr ⟨other, member, named⟩
    · exact Or.inl member
  · rintro (member | ⟨other, member, named⟩)
    · exact ⟨event, member, Or.inr rfl⟩
    · exact ⟨other, member, Or.inl named⟩

/-- The ledger can still be settled when the parents are used too, as long as they are alive. -/
theorem Settles.backed {parents : Object → List Object} {host : Multiset Object}
    (live : ∀ object, ∀ parent ∈ parents object, parent ∈ host) (settles : Settles alive events left) :
    Settles (alive + host) (backed parents events) (left + host) := by
  induction events generalizing alive with
  | nil =>
    obtain rfl : alive = left := Option.some.inj settles
    exact Settles.nil _
  | cons event events inductionHypothesis =>
    obtain ⟨middle, settled, later⟩ := (Runs.run_cons alive left event events).mp settles
    have parentsUsed : Settles (alive + host) ((parents event.object).map Event.use) (alive + host) :=
      Settles.uses _ fun parent member => Multiset.mem_add.mpr (Or.inr (live event.object parent member))
    have once : Settles alive [event] middle := (Runs.run_cons alive middle event []).mpr ⟨middle, settled, rfl⟩
    exact (parentsUsed.append (once.frame host)).append (inductionHypothesis later)

/-- An object that is not alive, and that nothing creates, is not used in a ledger that can be settled. -/
theorem Settles.unused {object : Object} (settles : Settles alive events left) (dead : object ∉ alive)
    (never : Event.create object ∉ events) : Event.use object ∉ events := by
  induction events generalizing alive with
  | nil => exact List.not_mem_nil
  | cons event events inductionHypothesis =>
    obtain ⟨middle, settled, later⟩ := (Runs.run_cons alive left event events).mp settles
    rw [List.mem_cons, not_or] at never ⊢
    have still : object ∉ middle := by
      cases event with
      | create other =>
        obtain rfl := Option.some.inj settled
        rw [Multiset.mem_cons, not_or]
        exact ⟨fun same => never.1 (congrArg Event.create same), dead⟩
      | use other =>
        obtain ⟨-, same⟩ := Option.ite_none_right_eq_some.mp settled
        rwa [← Option.some.inj same]
      | destroy other =>
        obtain ⟨-, same⟩ := Option.ite_none_right_eq_some.mp settled
        rw [← Option.some.inj same]
        exact fun member => dead (Multiset.mem_of_mem_erase member)
    refine ⟨?_, inductionHypothesis later still never.2⟩
    rintro rfl
    obtain ⟨member, -⟩ := Option.ite_none_right_eq_some.mp settled
    exact dead member

end settles

end SeriesxEmu.Ledgers
