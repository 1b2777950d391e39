import SeriesxEmu.TouchedSteps
import SeriesxEmu.GuestWords

/-!
# Structures that mirror kernel objects

An object at a guest address is mirrored in the structure there. Structures that do not
overlap can be carried along a run one by one: an operation on one object stores into its own
structure only, and everything else that the kernel stores stays outside of all of them as
long as the guest passes no pointer into one.
-/

namespace SeriesxEmu

open Scheduler GuestScheduler

/-! ## The range a mirror stores into -/

/-- What the mirror of an object covers. The last byte of a mutant lies behind the structure
that its initialiser checks. -/
def mirrorSize : Kind → Nat
  | .event => 16
  | .mutant => 29
  | .semaphore => 20
  | .thread => 0

/-- An address that does not wrap is a sum. -/
theorem at32_small {va offset : Nat} (fits : va + offset < 2 ^ 32) : at32 va offset = va + offset :=
  Nat.mod_eq_of_lt fits

/-- The mirror of an object that lies inside the address space stays inside its range. -/
theorem writeSignalState_within (ram : XbeRam) (object : DispatcherObject)
    (fits : object.guestVa + mirrorSize object.kind ≤ 2 ^ 32) :
    ram.Within (writeSignalState ram object) object.guestVa (object.guestVa + mirrorSize object.kind) := by
  unfold writeSignalState
  split
  · exact .refl _ _ _
  · split
    · exact .refl _ _ _
    · rename_i state shown
      have long : 16 ≤ mirrorSize object.kind := by
        cases kind : object.kind <;> simp [mirrorSize, DispatcherObject.signalState, kind] at shown ⊢
      rw [at32_small (by omega)]
      exact (XbeRam.Within.write32 _ _ _).mono (by omega) (by omega)

/-- The header of an object is written inside its structure. -/
theorem writeDispatcherHeader_within (ram : XbeRam) (object : DispatcherObject)
    (fits : object.guestVa + mirrorSize object.kind ≤ 2 ^ 32) :
    ram.Within (writeDispatcherHeader ram object) object.guestVa (object.guestVa + mirrorSize object.kind) := by
  have store : ∀ (ram : XbeRam) offset value, offset + 4 ≤ mirrorSize object.kind →
      ram.Within (ram.write32 (at32 object.guestVa offset) value) object.guestVa
        (object.guestVa + mirrorSize object.kind) := by
    intro ram offset value inside
    rw [at32_small (by omega)]
    exact (XbeRam.Within.write32 _ _ _).mono (by omega) (by omega)
  unfold writeDispatcherHeader
  split
  · exact .refl _ _ _
  · split
    · exact .refl _ _ _
    · rename_i state shown
      have long : 16 ≤ mirrorSize object.kind := by
        cases kind : object.kind <;> simp [mirrorSize, DispatcherObject.signalState, kind] at shown ⊢
      have first : ram.Within (ram.write32 object.guestVa (object.headerSize * 2 ^ 16)) object.guestVa
          (object.guestVa + mirrorSize object.kind) :=
        (XbeRam.Within.write32 _ _ _).mono (Nat.le_refl _) (by omega)
      have headed := ((first.trans (store _ 4 (uint32 state) (by omega))).trans
        (store _ 8 (at32 object.guestVa 8) (by omega))).trans (store _ 12 (at32 object.guestVa 8) (by omega))
      cases kind : object.kind with
      | event =>
        rw [kind] at headed
        exact headed
      | semaphore =>
        rw [kind] at headed store
        exact headed.trans (store _ 0x10 _ (by simp [mirrorSize]))
      | mutant =>
        rw [kind] at headed store fits
        have last : ∀ (ram : XbeRam) (byte : UInt8), ram.Within (ram.writeBytes (at32 object.guestVa 0x1C) [byte]).1
            object.guestVa (object.guestVa + mirrorSize .mutant) := by
          intro ram byte
          simp only [mirrorSize] at fits ⊢
          rw [at32_small (by omega)]
          exact (XbeRam.Within.writeBytes _ _ _).mono (by omega) (by simp)
        exact (((headed.trans (store _ 0x10 _ (by simp [mirrorSize]))).trans
          (store _ 0x14 _ (by simp [mirrorSize]))).trans (store _ 0x18 _ (by simp [mirrorSize]))).trans (last _ _)
      | thread => simp [DispatcherObject.signalState, kind] at shown

/-! ## Operations that change an object and its mirror -/

namespace Touch

/-- The object that an operation changes, how it changes, and whether the whole header is
written or the signal state only. -/
def change (krnl : XboxKrnl) : Touch → Option (Ptr × (DispatcherObject → DispatcherObject) × Bool)
  | .signal ptr signaled => some (ptr, fun o => { o with event := { o.event with signaled } }, false)
  | .reset ptr event => some (ptr, fun o => { o with event }, true)
  | .take ptr token => some (ptr, XboxKrnl.takeMutant token, (krnl.object ptr).mutant.abandoned)
  | .consume ptr => some (ptr, addUnits (-1), false)
  | .put ptr => some (ptr, XboxKrnl.putMutant, false)
  | .supply ptr adjustment => some (ptr, addUnits adjustment, false)
  | .abandon ptr => some (ptr, XboxKrnl.abandonMutant, false)
  | _ => none

/-- The mirror that an operation writes. -/
def mirror (header : Bool) (ram : XbeRam) (object : DispatcherObject) : XbeRam :=
  if header then writeDispatcherHeader ram object else writeSignalState ram object

variable {krnl : XboxKrnl} {touch : Touch} {ptr : Ptr} {changed : DispatcherObject → DispatcherObject} {header : Bool}

/-- An operation that changes an object and its mirror does the one, then the other. -/
theorem apply_change (changes : touch.change krnl = some (ptr, changed, header)) : touch.apply krnl =
    { krnl.modify ptr changed with ram := mirror header krnl.ram ((krnl.modify ptr changed).object ptr) } := by
  cases touch with
  | take other token =>
    cases changes
    simp only [apply, mirror]
    split <;> rfl
  | signal | reset | consume | put | supply | abandon =>
    cases changes
    rfl
  | _ => cases changes

/-- It moves no structure. -/
theorem change_place (changes : touch.change krnl = some (ptr, changed, header)) (object : DispatcherObject) :
    (changed object).kind = object.kind ∧ (changed object).guestVa = object.guestVa := by
  cases touch with
  | take | signal | reset | consume | put | supply | abandon =>
    cases changes
    exact ⟨rfl, rfl⟩
  | _ => cases changes

end Touch

/-! ## Structures that stay apart -/

/-- What a mirror shows of an object does not depend on its waiters or its thread part. -/
def DispatcherObject.face (object : DispatcherObject) : DispatcherObject :=
  { object with mwWaiters := [], thread := {} }

/-- What the structure of an object shows depends on the structure only, its first byte apart. -/
structure Watches (size : Kind → Nat) (shows : XbeRam → DispatcherObject → Prop) : Prop where
  checked : ∀ kind, structSize kind ≤ size kind
  held : ∀ (ram next : XbeRam) (object : DispatcherObject), object.guestVa + mirrorSize object.kind ≤ 2 ^ 32 →
    ram.writable object.guestVa (size object.kind) = true → next.writable object.guestVa (size object.kind) = true →
    (∀ address, object.guestVa < address → address < object.guestVa + size object.kind →
      next.bytes address = ram.bytes address) → shows ram object → shows next object
  face : ∀ ram object other, DispatcherObject.face object = other.face → shows ram object → shows ram other

/-- A store elsewhere leaves what the structure shows. -/
theorem Watches.frame {size : Kind → Nat} {shows : XbeRam → DispatcherObject → Prop} (watches : Watches size shows)
    {ram next : XbeRam} {object : DispatcherObject} {low high : Nat} (within : ram.Within next low high)
    (fits : object.guestVa + mirrorSize object.kind ≤ 2 ^ 32 ∧
      ram.writable object.guestVa (size object.kind) = true)
    (apart : object.guestVa + size object.kind ≤ low ∨ high ≤ object.guestVa + 1) (shown : shows ram object) :
    shows next object :=
  watches.held ram next object fits.1 fits.2 ((within.writable _ _).trans fits.2)
    (fun address _ _ => within.bytes address (by omega)) shown

namespace XboxKrnl

/-- The structure of an object: its kind and its address. -/
def place (krnl : XboxKrnl) (ptr : Ptr) : Kind × Nat := ((krnl.object ptr).kind, (krnl.object ptr).guestVa)

/-- Two structures do not overlap. -/
def Apart (size : Kind → Nat) (first second : Kind × Nat) : Prop :=
  first.2 + size first.1 ≤ second.2 ∨ second.2 + size second.1 ≤ first.2

instance (size : Kind → Nat) (first second : Kind × Nat) : Decidable (Apart size first second) :=
  inferInstanceAs (Decidable (_ ∨ _))

/-- The objects registered at addresses have structures apart from each other in writable
memory, and no other object has one. -/
structure Placed (size : Kind → Nat) (krnl : XboxKrnl) : Prop where
  registered : ∀ ptr ∈ krnl.vaObjects, ∃ object, krnl.object? ptr = some object
  fits : ∀ ptr ∈ krnl.vaObjects, (krnl.place ptr).2 ≠ 0 →
    (krnl.place ptr).2 + mirrorSize (krnl.place ptr).1 ≤ 2 ^ 32 ∧
      krnl.ram.writable (krnl.place ptr).2 (size (krnl.place ptr).1) = true
  apart : ∀ ptr ∈ krnl.vaObjects, ∀ other ∈ krnl.vaObjects, ptr ≠ other → (krnl.place ptr).2 ≠ 0 →
    (krnl.place other).2 ≠ 0 → Apart size (krnl.place ptr) (krnl.place other)
  pooled : ∀ ptr object, krnl.object? ptr = some object → ptr ∉ krnl.vaObjects → object.guestVa = 0
  tabled : ∀ slot ptr, krnl.registry.table slot = some ptr → ptr < krnl.heap.length ∧ ptr ∉ krnl.vaObjects

/-- Every structure shows its object. -/
structure Mirrored (size : Kind → Nat) (shows : XbeRam → DispatcherObject → Prop) (krnl : XboxKrnl) : Prop
    extends Placed size krnl where
  shown : ∀ ptr ∈ krnl.vaObjects, (krnl.place ptr).2 ≠ 0 → shows krnl.ram (krnl.object ptr)

/-- A mirror reaches at most one byte beyond its structure. -/
theorem mirrorSize_le (kind : Kind) : mirrorSize kind ≤ structSize kind + 1 := by
  cases kind <;> decide

/-- The same structures, and the same memory is writable. -/
structure SamePlaces (krnl next : XboxKrnl) : Prop where
  vaObjects : next.vaObjects = krnl.vaObjects
  place : ∀ ptr ∈ krnl.vaObjects, next.place ptr = krnl.place ptr
  writable : ∀ addr size, next.ram.writable addr size = krnl.ram.writable addr size

variable {krnl next : XboxKrnl} {size : Kind → Nat} {shows : XbeRam → DispatcherObject → Prop} {extent : Extent}

/-- Two changes that move no structure move none together. -/
theorem SamePlaces.trans {middle : XboxKrnl} (first : krnl.SamePlaces middle) (second : middle.SamePlaces next) :
    krnl.SamePlaces next :=
  ⟨second.vaObjects.trans first.vaObjects,
    fun ptr member => (second.place ptr (first.vaObjects ▸ member)).trans (first.place ptr member),
    fun addr size => (second.writable addr size).trans (first.writable addr size)⟩

/-- The structures stay where they are, and what they show is given. -/
theorem Mirrored.keeps (mirrored : krnl.Mirrored size shows) {low high : Nat}
    (within : krnl.ram.Within next.ram low high) (vaObjects : next.vaObjects = krnl.vaObjects)
    (objects : ∀ ptr ∈ krnl.vaObjects, ∃ object, next.object? ptr = some object)
    (places : ∀ ptr ∈ krnl.vaObjects, next.place ptr = krnl.place ptr)
    (pooled : ∀ ptr object, next.object? ptr = some object → ptr ∉ krnl.vaObjects → object.guestVa = 0)
    (tabled : ∀ slot ptr, next.registry.table slot = some ptr → ptr < next.heap.length ∧ ptr ∉ krnl.vaObjects)
    (shown : ∀ ptr ∈ krnl.vaObjects, (krnl.place ptr).2 ≠ 0 → shows next.ram (next.object ptr)) :
    next.Mirrored size shows ∧ krnl.SamePlaces next := by
  refine ⟨⟨⟨fun ptr member => ?_, fun ptr member given => ?_, fun ptr member other also distinct given givenOther => ?_,
    fun ptr object live outside => ?_, fun slot ptr found => ?_⟩, fun ptr member given => ?_⟩,
    vaObjects, places, within.writable⟩
  · rw [vaObjects] at member
    exact objects ptr member
  · rw [vaObjects] at member
    rw [places ptr member] at given ⊢
    rw [within.writable]
    exact mirrored.fits ptr member given
  · rw [vaObjects] at member also
    rw [places ptr member] at given ⊢
    rw [places other also] at givenOther ⊢
    exact mirrored.apart ptr member other also distinct given givenOther
  · rw [vaObjects] at outside
    exact pooled ptr object live outside
  · rw [vaObjects]
    exact tabled slot ptr found
  · rw [vaObjects] at member
    rw [places ptr member] at given
    exact shown ptr member given

/-- Nothing happens to the structures: other objects come and go, or lists of waiters change. -/
theorem Mirrored.idle (mirrored : krnl.Mirrored size shows) (watches : Watches size shows)
    (ram : next.ram = krnl.ram) (vaObjects : next.vaObjects = krnl.vaObjects)
    (objects : ∀ ptr ∈ krnl.vaObjects, ∀ object, krnl.object? ptr = some object →
      ∃ later, next.object? ptr = some later ∧ later.face = object.face)
    (pooled : ∀ ptr object, next.object? ptr = some object → ptr ∉ krnl.vaObjects → object.guestVa = 0)
    (tabled : ∀ slot ptr, next.registry.table slot = some ptr → ptr < next.heap.length ∧ ptr ∉ krnl.vaObjects) :
    next.Mirrored size shows ∧ krnl.SamePlaces next := by
  have faces : ∀ ptr ∈ krnl.vaObjects, (next.object ptr).face = (krnl.object ptr).face := by
    intro ptr member
    obtain ⟨object, live⟩ := mirrored.registered ptr member
    obtain ⟨later, found, same⟩ := objects ptr member object live
    rw [object_eq _ _ _ found, object_eq _ _ _ live, same]
  have within : krnl.ram.Within next.ram 0 0 := by
    rw [ram]
    exact .refl _ _ _
  refine mirrored.keeps within vaObjects (fun ptr member => ?_) (fun ptr member => ?_) pooled tabled
    (fun ptr member given => ?_)
  · obtain ⟨object, live⟩ := mirrored.registered ptr member
    obtain ⟨later, found, _⟩ := objects ptr member object live
    exact ⟨later, found⟩
  · have same := congrArg (fun face : DispatcherObject => (face.kind, face.guestVa)) (faces ptr member)
    exact same
  · rw [ram]
    exact watches.face _ _ _ (faces ptr member).symm (mirrored.shown ptr member given)

end XboxKrnl

/-- The results that kernel code stores stay clear of the structures. -/
def Extent.Clear (extent : Extent) (size : Kind → Nat) (krnl : XboxKrnl) : Prop :=
  ∀ range ∈ extent.stores, krnl.ram.writable range.1 range.2 = true → ∀ ptr ∈ krnl.vaObjects,
    (krnl.place ptr).2 ≠ 0 →
      range.1 + range.2 ≤ (krnl.place ptr).2 ∨ (krnl.place ptr).2 + size (krnl.place ptr).1 ≤ range.1

instance (extent : Extent) (size : Kind → Nat) (krnl : XboxKrnl) : Decidable (extent.Clear size krnl) :=
  inferInstanceAs (Decidable (∀ _ ∈ _, _))

namespace XboxKrnl

variable {krnl next : XboxKrnl} {size : Kind → Nat} {shows : XbeRam → DispatcherObject → Prop} {extent : Extent}

/-- An extent that is clear of the structures stays so. -/
theorem SamePlaces.clear (same : krnl.SamePlaces next) (clear : extent.Clear size krnl) : extent.Clear size next := by
  intro range member usable ptr registered given
  rw [same.vaObjects] at registered
  rw [same.place ptr registered] at given ⊢
  exact clear range member ((same.writable _ _).symm.trans usable) ptr registered given

/-- A result is stored clear of the structures. -/
theorem Mirrored.stored (mirrored : krnl.Mirrored size shows) (watches : Watches size shows)
    (clear : extent.Clear size krnl) (addr : Nat) (bytes : List UInt8) (inside : (addr, bytes.length) ∈ extent.stores) :
    ((Touch.store addr bytes).apply krnl).Mirrored size shows ∧
      krnl.SamePlaces ((Touch.store addr bytes).apply krnl) := by
  refine mirrored.keeps (XbeRam.Within.writeBytes krnl.ram addr bytes) rfl mirrored.registered (fun _ _ => rfl)
    mirrored.pooled mirrored.tabled (fun ptr member given => ?_)
  have shown := mirrored.shown ptr member given
  change shows (krnl.ram.writeBytes addr bytes).1 (krnl.object ptr)
  by_cases usable : krnl.ram.writable addr bytes.length = true
  · refine watches.frame (XbeRam.Within.writeBytes krnl.ram addr bytes) (mirrored.fits ptr member given) ?_ shown
    have outside := clear _ inside usable ptr member given
    simp only [place] at outside
    omega
  · have refused : (krnl.ram.writeBytes addr bytes).1 = krnl.ram := congrArg Prod.fst (if_neg usable)
    rw [refused]
    exact shown

/-- What is read after a change of one object. -/
theorem object_modify (krnl : XboxKrnl) (ptr other : Ptr) (changed : DispatcherObject → DispatcherObject)
    (live : ∃ object, krnl.object? other = some object) :
    (krnl.modify ptr changed).object other = if other = ptr then changed (krnl.object other) else krnl.object other := by
  obtain ⟨object, here⟩ := live
  rw [krnl.object_eq _ _ here, XboxKrnl.object, object?_modify, here]
  split <;> rfl

/-- Changing an object moves none. -/
theorem Mirrored.modified (mirrored : krnl.Mirrored size shows) (ptr : Ptr) (changed : DispatcherObject → DispatcherObject)
    (slot : Nat) (other : Ptr) (found : krnl.registry.table slot = some other) :
    other < (krnl.modify ptr changed).heap.length ∧ other ∉ krnl.vaObjects := by
  rw [XboxKrnl.modify, List.length_modify]
  exact mirrored.tabled slot other found

/-- An object without a structure has no mirror. -/
theorem mirror_pooled (header : Bool) (ram : XbeRam) {object : DispatcherObject} (pooled : object.guestVa = 0) :
    Touch.mirror header ram object = ram := by
  cases header <;> simp [Touch.mirror, writeSignalState, writeDispatcherHeader, pooled]

/-- A mirror is written inside the structure. -/
theorem mirror_within (header : Bool) (ram : XbeRam) (object : DispatcherObject)
    (fits : object.guestVa + mirrorSize object.kind ≤ 2 ^ 32) : ram.Within (Touch.mirror header ram object)
      object.guestVa (object.guestVa + mirrorSize object.kind) := by
  cases header
  · exact writeSignalState_within ram object fits
  · exact writeDispatcherHeader_within ram object fits

/-- An operation changes one object and its structure.

Proof: the places of all objects stay. If the object has a structure in guest memory, the store
stays within that structure and the structures are apart; if it has none, nothing is stored. -/
theorem Mirrored.changed (mirrored : krnl.Mirrored size shows) (watches : Watches size shows) {touch : Touch}
    {ptr : Ptr} {changed : DispatcherObject → DispatcherObject} {header : Bool}
    (changes : touch.change krnl = some (ptr, changed, header))
    (own : ptr ∈ krnl.vaObjects → (krnl.place ptr).2 ≠ 0 →
      shows (Touch.mirror header krnl.ram (changed (krnl.object ptr))) (changed (krnl.object ptr))) :
    (touch.apply krnl).Mirrored size shows ∧ krnl.SamePlaces (touch.apply krnl) := by
  have kept := Touch.change_place changes
  rw [Touch.apply_change changes]
  have places : ∀ other, (∃ object, krnl.object? other = some object) →
      (krnl.modify ptr changed).place other = krnl.place other := by
    intro other live
    rw [place, object_modify krnl ptr other changed live]
    split
    · rename_i same
      rw [(kept _).1, (kept _).2]
      rfl
    · rfl
  have pooled : ∀ other object, (krnl.modify ptr changed).object? other = some object → other ∉ krnl.vaObjects →
      object.guestVa = 0 := by
    intro other object live outside
    rw [object?_modify] at live
    split at live
    · obtain ⟨before, found, rfl⟩ := Option.map_eq_some_iff.mp live
      rw [(kept before).2]
      exact mirrored.pooled other before found outside
    · exact mirrored.pooled other object live outside
  have registered : ∀ other ∈ krnl.vaObjects, ∃ object, (krnl.modify ptr changed).object? other = some object := by
    intro other member
    obtain ⟨object, live⟩ := mirrored.registered other member
    rw [object?_modify, live]
    split <;> exact ⟨_, rfl⟩
  by_cases member : ptr ∈ krnl.vaObjects ∧ (krnl.place ptr).2 ≠ 0
  · obtain ⟨member, given⟩ := member
    have here := object_modify krnl ptr ptr changed (mirrored.registered ptr member)
    rw [if_pos rfl] at here
    have fits := (mirrored.fits ptr member given).1
    have within : krnl.ram.Within (Touch.mirror header krnl.ram ((krnl.modify ptr changed).object ptr))
        (krnl.place ptr).2 ((krnl.place ptr).2 + mirrorSize (krnl.place ptr).1) := by
      rw [here]
      have inside := mirror_within header krnl.ram (changed (krnl.object ptr)) (by
        rw [(kept _).1, (kept _).2]
        exact fits)
      rw [(kept _).1, (kept _).2] at inside
      exact inside
    refine mirrored.keeps within rfl registered (fun other also => places other (mirrored.registered other also)) pooled
      (mirrored.modified ptr changed) (fun other also givenOther => ?_)
    have there := object_modify krnl ptr other changed (mirrored.registered other also)
    change shows (Touch.mirror header krnl.ram ((krnl.modify ptr changed).object ptr))
      ((krnl.modify ptr changed).object other)
    by_cases same : other = ptr
    · subst same
      rw [here]
      exact own member given
    · rw [if_neg same] at there
      rw [there]
      refine watches.frame within (mirrored.fits other also givenOther) ?_ (mirrored.shown other also givenOther)
      have apart := mirrored.apart other also ptr member same givenOther given
      have overlap := Nat.le_trans (mirrorSize_le (krnl.place ptr).1) (Nat.succ_le_succ (watches.checked (krnl.place ptr).1))
      simp only [Apart] at apart
      simp only [place] at apart overlap ⊢
      omega
  · have silent : ((krnl.modify ptr changed).object ptr).guestVa = 0 := by
      cases live : krnl.object? ptr with
      | none =>
        rw [XboxKrnl.object, object?_modify, if_pos rfl, live]
        rfl
      | some object =>
        have here := object_modify krnl ptr ptr changed ⟨object, live⟩
        rw [here, if_pos rfl, (kept _).2]
        by_cases inside : ptr ∈ krnl.vaObjects
        · exact Classical.byContradiction (fun given => member ⟨inside, given⟩)
        · rw [krnl.object_eq _ _ live]
          exact mirrored.pooled ptr object live inside
    rw [mirror_pooled _ _ silent]
    refine mirrored.keeps (XbeRam.Within.refl krnl.ram 0 0) rfl registered
      (fun other also => places other (mirrored.registered other also)) pooled
      (mirrored.modified ptr changed)
      (fun other also given => ?_)
    have there := object_modify krnl ptr other changed (mirrored.registered other also)
    have distinct : other ≠ ptr := by
      rintro rfl
      exact member ⟨also, given⟩
    rw [if_neg distinct] at there
    change shows krnl.ram ((krnl.modify ptr changed).object other)
    rw [there]
    exact mirrored.shown other also given

/-- A new object without an address. -/
theorem Mirrored.allocated (mirrored : krnl.Mirrored size shows) (watches : Watches size shows)
    (object : DispatcherObject) (unmapped : object.guestVa = 0) (ram : next.ram = krnl.ram)
    (heap : next.heap = (krnl.allocate object).1.heap) (vaObjects : next.vaObjects = krnl.vaObjects)
    (tabled : ∀ slot ptr, next.registry.table slot = some ptr →
      ptr = krnl.heap.length ∨ krnl.registry.table slot = some ptr) :
    next.Mirrored size shows ∧ krnl.SamePlaces next := by
  have cells : ∀ ptr, next.object? ptr = (krnl.allocate object).1.object? ptr := fun ptr => by
    rw [object?, heap, ← object?]
  have inside : ∀ ptr ∈ krnl.vaObjects, ptr ≠ krnl.heap.length := by
    intro ptr member same
    obtain ⟨found, live⟩ := mirrored.registered ptr member
    exact Nat.ne_of_lt (krnl.object?_inside ptr found live) same
  have grown : next.heap.length = krnl.heap.length + 1 := by
    rw [heap]
    simp [allocate]
  refine mirrored.idle watches ram vaObjects (fun ptr member found live => ⟨found, ?_, rfl⟩)
    (fun ptr found live outside => ?_) (fun slot ptr found => ?_)
  · rw [cells, object?_allocate, if_neg (inside ptr member), live]
  · rw [cells, object?_allocate] at live
    split at live
    · cases live
      exact unmapped
    · exact mirrored.pooled ptr found live outside
  · rcases tabled slot ptr found with same | before
    · rw [grown, same]
      exact ⟨Nat.lt_succ_self _, fun member => inside _ member rfl⟩
    · have held := mirrored.tabled slot ptr before
      rw [grown]
      exact ⟨Nat.lt_succ_of_lt held.1, held.2⟩

/-- An object that no structure belongs to is destroyed. -/
theorem Mirrored.closed (mirrored : krnl.Mirrored size shows) (watches : Watches size shows) {slot : Nat} {ptr : Ptr}
    (found : krnl.registry.table slot = some ptr) :
    (krnl.closeSlot slot ptr).Mirrored size shows ∧ krnl.SamePlaces (krnl.closeSlot slot ptr) := by
  have outside := (mirrored.tabled slot ptr found).2
  have size : (krnl.closeSlot slot ptr).heap.length = krnl.heap.length := by simp [closeSlot]
  refine mirrored.idle watches rfl rfl (fun other member object live => ⟨object, ?_, rfl⟩)
    (fun other object live unregistered => ?_) (fun index other held => ?_)
  · have distinct : other ≠ ptr := fun same => outside (same ▸ member)
    rw [object?_close, if_neg distinct, live]
  · rw [object?_close] at live
    split at live
    · cases live
    · exact mirrored.pooled other object live unregistered
  · have after : ((krnl.objects.set slot none)[index]?).join = some other := held
    rw [size]
    refine mirrored.tabled index other ?_
    rw [List.getElem?_set] at after
    split at after
    · split at after <;> cases after
    · exact after

/-- Neither memory nor an object changes. -/
theorem Mirrored.still (mirrored : krnl.Mirrored size shows) (watches : Watches size shows) (ram : next.ram = krnl.ram)
    (heap : next.heap = krnl.heap) (vaObjects : next.vaObjects = krnl.vaObjects)
    (objects : next.objects = krnl.objects) : next.Mirrored size shows ∧ krnl.SamePlaces next := by
  have cells : next.object? = krnl.object? := by
    funext ptr
    rw [object?, heap, ← object?]
  have table : next.registry.table = krnl.registry.table := by
    funext slot
    exact congrArg (fun objects : List (Option Ptr) => (objects[slot]?).join) objects
  refine mirrored.idle watches ram vaObjects (fun ptr _ object live => ⟨object, cells ▸ live, rfl⟩)
    (fun ptr object live outside => ?_) (fun slot ptr found => ?_)
  · rw [cells] at live
    exact mirrored.pooled ptr object live outside
  · rw [table] at found
    rw [heap]
    exact mirrored.tabled slot ptr found

/-- A slot holds the object just inserted, or what it held before. -/
theorem insertObject_cells (krnl : XboxKrnl) (ptr : Ptr) {slot : Nat} {other : Ptr}
    (found : (krnl.insertObject ptr).1.registry.table slot = some other) :
    other = ptr ∨ krnl.registry.table slot = some other := by
  unfold insertObject at found
  split at found
  · rename_i freed _
    have cell : ((krnl.objects.set freed (some ptr))[slot]?).join = some other := found
    rw [List.getElem?_set] at cell
    split at cell
    · split at cell
      · exact Or.inl (Option.some.inj cell).symm
      · cases cell
    · exact Or.inr cell
  · have cell : ((krnl.objects ++ [some ptr])[slot]?).join = some other := found
    rw [List.getElem?_append] at cell
    split at cell
    · exact Or.inr cell
    · rcases Nat.eq_zero_or_pos (slot - krnl.objects.length) with last | beyond
      · rw [last] at cell
        exact Or.inl (Option.some.inj cell).symm
      · rw [List.getElem?_eq_none (by simp; omega)] at cell
        cases cell

/-- One operation of kernel code, up to those that happen once. -/
theorem Mirrored.touch (mirrored : krnl.Mirrored size shows) (watches : Watches size shows) {touch : Touch}
    (allowed : extent.quiet.Allows krnl touch) (clear : extent.Clear size krnl)
    (own : ∀ ptr changed header, touch.change krnl = some (ptr, changed, header) → ptr ∈ krnl.vaObjects →
      (krnl.place ptr).2 ≠ 0 →
        shows (Touch.mirror header krnl.ram (changed (krnl.object ptr))) (changed (krnl.object ptr))) :
    (touch.apply krnl).Mirrored size shows ∧ krnl.SamePlaces (touch.apply krnl) := by
  cases touch with
  | note | schedule | spend => exact mirrored.still watches rfl rfl rfl rfl
  | identify fiber =>
    simp only [Touch.apply, ensureThreadObject]
    split
    · exact mirrored.still watches rfl rfl rfl rfl
    · exact mirrored.allocated watches _ (by rfl) rfl rfl rfl (fun _ _ found => Or.inr found)
  | adjust ptr change =>
    refine mirrored.idle watches rfl rfl (fun other _ object live => ?_) (fun other object live outside => ?_)
      (mirrored.modified ptr change)
    · simp only [Touch.apply, object?_modify, live]
      split
      · obtain ⟨mwWaiters, thread, same⟩ := allowed object
        exact ⟨change object, rfl, by rw [same]; rfl⟩
      · exact ⟨object, rfl, rfl⟩
    · simp only [Touch.apply, object?_modify] at live
      split at live
      · obtain ⟨before, found, rfl⟩ := Option.map_eq_some_iff.mp live
        obtain ⟨mwWaiters, thread, same⟩ := allowed before
        rw [same]
        exact mirrored.pooled other before found outside
      · exact mirrored.pooled other object live outside
  | create object =>
    have inserted : ((Touch.create object).apply krnl).ram = krnl.ram ∧
        ((Touch.create object).apply krnl).heap = (krnl.allocate object).1.heap ∧
        ((Touch.create object).apply krnl).vaObjects = krnl.vaObjects := by
      simp only [Touch.apply, insertObject]
      split <;> exact ⟨rfl, rfl, rfl⟩
    refine mirrored.allocated watches object allowed.2 inserted.1 inserted.2.1 inserted.2.2 (fun slot ptr found => ?_)
    exact (krnl.allocate object).1.insertObject_cells krnl.heap.length found
  | register object => cases allowed
  | close slot ptr => exact mirrored.closed watches allowed.2
  | store addr bytes => exact mirrored.stored watches clear addr bytes allowed
  | signal | reset | take | consume | put | supply | abandon => exact mirrored.changed watches rfl (own _ _ _ rfl)

/-- Kernel code without its operations that happen once. A side condition may be carried along. -/
theorem Mirrored.quiet (mirrored : krnl.Mirrored size shows) (watches : Watches size shows)
    (clear : extent.Clear size krnl) {side : XboxKrnl → Prop} (begun : side krnl)
    (carried : ∀ state touch, state.Placed size → krnl.SamePlaces state → side state →
      extent.quiet.Allows state touch → side (touch.apply state))
    (own : ∀ state touch ptr changed header, state.Mirrored size shows → krnl.SamePlaces state → side state →
      extent.quiet.Allows state touch → touch.change state = some (ptr, changed, header) → ptr ∈ state.vaObjects →
      (state.place ptr).2 ≠ 0 →
        shows (Touch.mirror header state.ram (changed (state.object ptr))) (changed (state.object ptr)))
    (touched : Touched extent.quiet krnl next) : next.Mirrored size shows ∧ krnl.SamePlaces next ∧ side next := by
  induction touched with
  | refl => exact ⟨mirrored, ⟨rfl, fun _ _ => rfl, fun _ _ => rfl⟩, begun⟩
  | @tail state last _ one inductionHypothesis =>
    obtain ⟨before, same, held⟩ := inductionHypothesis
    obtain ⟨touch, allowed, rfl⟩ := one
    obtain ⟨after, later⟩ := before.touch watches allowed (same.clear clear)
      (fun ptr changed header changes => own state touch ptr changed header before same held allowed changes)
    exact ⟨after, same.trans later, carried state touch before.toPlaced same held allowed⟩

/-- A structure for a new object that is apart from all others. -/
def Vacant (size : Kind → Nat) (krnl : XboxKrnl) (place : Kind × Nat) : Prop :=
  place.2 + mirrorSize place.1 ≤ 2 ^ 32 ∧ krnl.ram.writable place.2 (size place.1) = true ∧
    ∀ ptr ∈ krnl.vaObjects, (krnl.place ptr).2 ≠ 0 → Apart size place (krnl.place ptr)

instance (size : Kind → Nat) (krnl : XboxKrnl) (place : Kind × Nat) : Decidable (krnl.Vacant size place) :=
  inferInstanceAs (Decidable (_ ∧ _ ∧ ∀ _ ∈ _, _))

/-- A vacant place stays vacant when no structure moves. -/
theorem SamePlaces.vacant (same : krnl.SamePlaces next) {place : Kind × Nat} (vacant : krnl.Vacant size place) :
    next.Vacant size place := by
  obtain ⟨fits, usable, apart⟩ := vacant
  refine ⟨fits, (same.writable _ _).trans usable, fun ptr member given => ?_⟩
  rw [same.vaObjects] at member
  rw [same.place ptr member] at given ⊢
  exact apart ptr member given

/-- The registry by address with one more object. -/
structure Installs (krnl : XboxKrnl) (object : DispatcherObject) (next : XboxKrnl) : Prop where
  entries : next.vaObjects = krnl.vaObjects ++ [krnl.heap.length]
  here : ∃ token, next.object? krnl.heap.length = some { object with token } ∧
    next.ram = writeDispatcherHeader krnl.ram { object with token }
  older : ∀ ptr, ptr ≠ krnl.heap.length → next.object? ptr = krnl.object? ptr
  table : next.registry.table = krnl.registry.table
  grown : next.heap.length = krnl.heap.length + 1

/-- An initialisation installs the object and writes its header. -/
theorem registerObject_installs (krnl : XboxKrnl) (object : DispatcherObject) :
    krnl.Installs object (krnl.registerObject object) := by
  have cells : ∀ ptr, (krnl.registerObject object).object? ptr = (krnl.allocate object).1.object? ptr := fun _ => rfl
  have here : (krnl.registerObject object).object? krnl.heap.length =
      some { object with token := .object krnl.freshAddress } := by
    rw [cells, object?_allocate, if_pos rfl]
  refine ⟨rfl, ⟨_, here, ?_⟩, fun ptr other => ?_, rfl, by simp [registerObject, allocate, mirrorHeader]⟩
  · rw [← object_eq _ _ _ here]
    rfl
  · rw [cells, object?_allocate, if_neg other]

/-- The old structures stay where they are, and there is one more. -/
theorem Installs.places (placed : krnl.Placed size) {object : DispatcherObject} (installs : krnl.Installs object next) :
    (∀ ptr ∈ krnl.vaObjects, ptr ≠ krnl.heap.length ∧ next.object ptr = krnl.object ptr ∧
      next.place ptr = krnl.place ptr) ∧ next.place krnl.heap.length = (object.kind, object.guestVa) := by
  refine ⟨fun ptr member => ?_, ?_⟩
  · obtain ⟨before, live⟩ := placed.registered ptr member
    have distinct := Nat.ne_of_lt (krnl.object?_inside ptr before live)
    have same : next.object ptr = krnl.object ptr := by rw [XboxKrnl.object, installs.older ptr distinct, XboxKrnl.object]
    exact ⟨distinct, same, by rw [place, same]; rfl⟩
  · obtain ⟨token, live, _⟩ := installs.here
    rw [place, object_eq _ _ _ live]

/-- The header of the new object is all that is written. -/
theorem Installs.within {object : DispatcherObject} (installs : krnl.Installs object next)
    (vacant : object.guestVa ≠ 0 → krnl.Vacant size (object.kind, object.guestVa)) :
    (object.guestVa = 0 → next.ram = krnl.ram) ∧ (object.guestVa ≠ 0 → krnl.ram.Within next.ram object.guestVa
      (object.guestVa + mirrorSize object.kind)) ∧
    ∀ addr count, next.ram.writable addr count = krnl.ram.writable addr count := by
  obtain ⟨token, _, ram⟩ := installs.here
  have unwritten : object.guestVa = 0 → next.ram = krnl.ram := by
    intro absent
    rw [ram]
    exact @mirror_pooled true krnl.ram { object with token } absent
  have within : object.guestVa ≠ 0 → krnl.ram.Within next.ram object.guestVa
      (object.guestVa + mirrorSize object.kind) := by
    intro given
    rw [ram]
    exact writeDispatcherHeader_within krnl.ram { object with token } (vacant given).1
  refine ⟨unwritten, within, fun addr count => ?_⟩
  by_cases given : object.guestVa = 0
  · rw [unwritten given]
  · exact (within given).writable addr count

/-- A new object is registered at an address, and its whole header is written.

Proof: the entries are the old ones and the new one. The new structure is vacant ground, so that the
store of its header stays off all the old ones. -/
theorem Mirrored.register (mirrored : krnl.Mirrored size shows) (watches : Watches size shows)
    {object : DispatcherObject} (installs : krnl.Installs object next)
    (vacant : object.guestVa ≠ 0 → krnl.Vacant size (object.kind, object.guestVa))
    (own : ∀ token, object.guestVa ≠ 0 →
      shows (writeDispatcherHeader krnl.ram { object with token }) { object with token }) :
    next.Mirrored size shows := by
  obtain ⟨older, newPlace⟩ := installs.places mirrored.toPlaced
  obtain ⟨unwritten, within, writable⟩ := installs.within vacant
  have oldPlace := fun ptr member => (older ptr member).2.2
  have entries := installs.entries
  refine ⟨⟨fun ptr member => ?_, fun ptr member given => ?_,
    fun ptr member other also distinct given givenOther => ?_, fun ptr found live outside => ?_,
    fun slot ptr found => ?_⟩, fun ptr member given => ?_⟩
  · rw [entries, List.mem_append] at member
    rcases member with old | new
    · rw [installs.older ptr (older ptr old).1]
      exact mirrored.registered ptr old
    · rw [List.mem_singleton.mp new]
      obtain ⟨token, live, _⟩ := installs.here
      exact ⟨_, live⟩
  · rw [writable]
    rw [entries, List.mem_append] at member
    rcases member with old | new
    · rw [oldPlace ptr old] at given ⊢
      exact mirrored.fits ptr old given
    · rw [List.mem_singleton.mp new, newPlace] at given ⊢
      exact ⟨(vacant given).1, (vacant given).2.1⟩
  · rw [entries, List.mem_append] at member also
    rcases member with old | new
    · rcases also with oldOther | newOther
      · rw [oldPlace ptr old] at given ⊢
        rw [oldPlace other oldOther] at givenOther ⊢
        exact mirrored.apart ptr old other oldOther distinct given givenOther
      · rw [oldPlace ptr old] at given ⊢
        rw [List.mem_singleton.mp newOther, newPlace] at givenOther ⊢
        exact ((vacant givenOther).2.2 ptr old given).symm
    · rcases also with oldOther | newOther
      · rw [oldPlace other oldOther] at givenOther ⊢
        rw [List.mem_singleton.mp new, newPlace] at given ⊢
        exact (vacant given).2.2 other oldOther givenOther
      · exact absurd ((List.mem_singleton.mp new).trans (List.mem_singleton.mp newOther).symm) distinct
  · rw [entries, List.mem_append, not_or, List.mem_singleton] at outside
    rw [installs.older ptr outside.2] at live
    exact mirrored.pooled ptr found live outside.1
  · rw [installs.table] at found
    have before := mirrored.tabled slot ptr found
    refine ⟨installs.grown ▸ Nat.lt_succ_of_lt before.1, fun member => ?_⟩
    rw [entries, List.mem_append, List.mem_singleton] at member
    exact member.elim before.2 (Nat.ne_of_lt before.1)
  · rw [entries, List.mem_append] at member
    rcases member with old | new
    · rw [oldPlace ptr old] at given
      rw [(older ptr old).2.1]
      have shown := mirrored.shown ptr old given
      by_cases absent : object.guestVa = 0
      · rw [unwritten absent]
        exact shown
      · have apart := (vacant absent).2.2 ptr old given
        have overlap := Nat.le_trans (mirrorSize_le object.kind) (Nat.succ_le_succ (watches.checked object.kind))
        refine watches.frame (within absent) (mirrored.fits ptr old given) ?_ shown
        simp only [Apart, place] at apart ⊢
        omega
    · rw [List.mem_singleton.mp new, newPlace] at given
      obtain ⟨token, live, ram⟩ := installs.here
      rw [List.mem_singleton.mp new, object_eq _ _ _ live, ram]
      exact own token given

/-- What stays clear of the old structures and of the new one stays clear of all. -/
theorem Installs.clear (placed : krnl.Placed size) {object : DispatcherObject} (installs : krnl.Installs object next)
    (vacant : object.guestVa ≠ 0 → krnl.Vacant size (object.kind, object.guestVa)) (clear : extent.Clear size krnl)
    (beside : object.guestVa ≠ 0 → ∀ range ∈ extent.stores, krnl.ram.writable range.1 range.2 = true →
      range.1 + range.2 ≤ object.guestVa ∨ object.guestVa + size object.kind ≤ range.1) :
    extent.Clear size next := by
  obtain ⟨older, newPlace⟩ := installs.places placed
  intro range member usable ptr registered given
  rw [(installs.within vacant).2.2] at usable
  rw [installs.entries, List.mem_append] at registered
  rcases registered with old | new
  · rw [(older ptr old).2.2] at given ⊢
    exact clear range member usable ptr old given
  · rw [List.mem_singleton.mp new, newPlace] at given ⊢
    exact beside given range member usable

/-- Computation leaves the structures alone, and their memory writable. -/
def ComputesApart (size : Kind → Nat) (krnl : XboxKrnl) : Action → Prop
  | .compute ram _ => ∀ ptr ∈ krnl.vaObjects, (krnl.place ptr).2 ≠ 0 →
      ram.writable (krnl.place ptr).2 (size (krnl.place ptr).1) = true ∧
        ∀ offset ∈ List.range (size (krnl.place ptr).1),
          ram.bytes ((krnl.place ptr).2 + offset) = krnl.ram.bytes ((krnl.place ptr).2 + offset)
  | _ => True

instance (size : Kind → Nat) (krnl : XboxKrnl) (action : Action) : Decidable (krnl.ComputesApart size action) :=
  match action with
  | .compute _ _ => inferInstanceAs (Decidable (∀ _ ∈ _, _))
  | .run | .turn | .call _ | .finish _ | .spawn _ _ | .sleep _ | .join _ => .isTrue trivial

/-- Only the kernel writes to the structures, each of which belongs to one object: results go
elsewhere, a new object comes to vacant memory, and guest code computes elsewhere. -/
def SparesStructures (size : Kind → Nat) (krnl : XboxKrnl) (action : Action) : Prop :=
  (krnl.actionExtent action).Clear size krnl ∧
    (∀ place ∈ (krnl.actionExtent action).registers, place.2 ≠ 0 → krnl.Vacant size place ∧
      ∀ range ∈ (krnl.actionExtent action).stores, krnl.ram.writable range.1 range.2 = true →
        range.1 + range.2 ≤ place.2 ∨ place.2 + size place.1 ≤ range.1) ∧
    krnl.ComputesApart size action

instance (size : Kind → Nat) (krnl : XboxKrnl) (action : Action) : Decidable (krnl.SparesStructures size action) :=
  inferInstanceAs (Decidable (_ ∧ (∀ _ ∈ _, _) ∧ _))

/-- Guest code that stays away from the structures leaves them as they show. -/
theorem Mirrored.compute (mirrored : krnl.Mirrored size shows) (watches : Watches size shows) {ram : XbeRam}
    {filetime : Nat} (apart : krnl.ComputesApart size (.compute ram filetime)) :
    Mirrored size shows { krnl with ram, filetime } := by
  refine ⟨⟨mirrored.registered, fun ptr member given => ⟨(mirrored.fits ptr member given).1,
    (apart ptr member given).1⟩, mirrored.apart, mirrored.pooled, mirrored.tabled⟩, fun ptr member given => ?_⟩
  obtain ⟨usable, kept⟩ := apart ptr member given
  obtain ⟨fits, before⟩ := mirrored.fits ptr member given
  refine watches.held krnl.ram ram (krnl.object ptr) fits before usable (fun address above below => ?_)
    (mirrored.shown ptr member given)
  have same := kept (address - (krnl.object ptr).guestVa) (List.mem_range.mpr (by simp only [place]; omega))
  simp only [place] at same
  rw [Nat.add_sub_cancel' (Nat.le_of_lt above)] at same
  exact same

/-- At first there is no structure. -/
theorem initial_mirrored (ram : XbeRam) (addresses : Nat → Nat) (threadRunner : Bool) (kernelDataVa : Nat) :
    (initial ram addresses threadRunner kernelDataVa).Mirrored size shows := by
  have empty : ∀ ptr, ptr ∉ (initial ram addresses threadRunner kernelDataVa).vaObjects := by simp [initial]
  refine ⟨⟨fun ptr member => absurd member (empty ptr), fun ptr member => absurd member (empty ptr),
    fun ptr member => absurd member (empty ptr), fun ptr object live => ?_, fun slot ptr found => ?_⟩,
    fun ptr member => absurd member (empty ptr)⟩
  · simp [object?, initial] at live
  · simp [registry, initial] at found

end XboxKrnl

end SeriesxEmu
