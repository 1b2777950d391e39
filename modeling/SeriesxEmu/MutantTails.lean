import SeriesxEmu.GuestMirrors
import SeriesxEmu.Words

/-!
# The owner and the abandoned flag that guest code sees

Only the initialiser of a mutant and the first acquisition after an abandonment write the tail
of its structure. Taking a free mutant, giving it up and abandoning it change the owner or the
flag and write the signal state alone, so the tail is right as long as none of them happens.
-/

namespace SeriesxEmu

open Scheduler GuestScheduler

/-- The offset of the owner in the guest's mutant. -/
def kMutantOwner : Nat := 0x18

/-- The offset of the abandoned flag. -/
def kMutantAbandoned : Nat := 0x1C

/-- The tail of the structure names the owner and holds the abandoned flag. -/
def ShowsTail (ram : XbeRam) (object : DispatcherObject) : Prop :=
  object.kind = .mutant →
    ram.read32 (at32 object.guestVa kMutantOwner) = some (object.mutant.owner % 2 ^ 32) ∧
      ram.readBytes (at32 object.guestVa kMutantAbandoned) 1 = some [if object.mutant.abandoned then 1 else 0]

/-- Neither address of the tail wraps around when the structure fits. -/
theorem mutant_fits {object : DispatcherObject} (kind : object.kind = .mutant)
    (fits : object.guestVa + mirrorSize object.kind ≤ 2 ^ 32) :
    at32 object.guestVa kMutantOwner = object.guestVa + 0x18 ∧
      at32 object.guestVa kMutantAbandoned = object.guestVa + 0x1C := by
  simp only [kind, mirrorSize] at fits
  exact ⟨at32_small (by simp only [kMutantOwner]; omega), at32_small (by simp only [kMutantAbandoned]; omega)⟩

/-- A byte that is stored is read back. -/
theorem readBytes_writeBytes {ram : XbeRam} {addr : Nat} (usable : ram.writable addr 1 = true) (byte : UInt8) :
    (ram.writeBytes addr [byte]).1.readBytes addr 1 = some [byte] := by
  have still : (ram.writeBytes addr [byte]).1.writable addr 1 = true :=
    ((XbeRam.Within.writeBytes ram addr [byte]).writable addr 1).trans usable
  have readable : (ram.writeBytes addr [byte]).1.readable addr 1 = true := XbeRam.isCommitted_of_writable still
  have stored : (ram.writeBytes addr [byte]).1.bytes addr = byte := by
    simp [XbeRam.writeBytes, usable]
  simp [XbeRam.readBytes, readable, stored]

/-- The whole header shows the tail: the owner is written before the flag. -/
theorem showsTail_header (ram : XbeRam) (object : DispatcherObject) (given : object.guestVa ≠ 0)
    (fits : object.guestVa + mirrorSize object.kind ≤ 2 ^ 32)
    (usable : ram.writable object.guestVa (mirrorSize object.kind) = true) :
    ShowsTail (writeDispatcherHeader ram object) object := by
  intro kind
  obtain ⟨ownerPlace, flagPlace⟩ := mutant_fits kind fits
  obtain ⟨state, shown⟩ : ∃ state, object.signalState = some state :=
    ⟨_, by rw [DispatcherObject.signalState, kind]⟩
  have header : ∃ listed : XbeRam, (∀ addr size, listed.writable addr size = ram.writable addr size) ∧
      writeDispatcherHeader ram object = ((listed.write32 (object.guestVa + 0x18) object.mutant.owner).writeBytes
        (object.guestVa + 0x1C) [if object.mutant.abandoned then 1 else 0]).1 := by
    rw [← ownerPlace, ← flagPlace]
    unfold writeDispatcherHeader
    simp only [given, ↓reduceIte, shown, kind]
    refine ⟨_, fun addr size => ?_, rfl⟩
    simp only [XbeRam.writable_write32]
  obtain ⟨listed, same, header⟩ := header
  rw [kind, mirrorSize] at usable
  have ownerUsable : listed.writable (object.guestVa + 0x18) 4 = true := by
    rw [same]
    exact XbeRam.writable_inner usable (by decide) (by omega) (by omega)
  have flagUsable : (listed.write32 (object.guestVa + 0x18) object.mutant.owner).writable (object.guestVa + 0x1C) 1 =
      true := by
    rw [XbeRam.writable_write32, same]
    exact XbeRam.writable_inner usable (by decide) (by omega) (by omega)
  rw [ownerPlace, flagPlace, header]
  refine ⟨?_, readBytes_writeBytes flagUsable _⟩
  rw [(XbeRam.Within.writeBytes _ (object.guestVa + 0x1C) _).read32 (Or.inl (by omega)),
    XbeRam.read32_write32 ownerUsable]

/-- Writing the signal state leaves the tail, so it still shows an object with the same owner
and flag. -/
theorem showsTail_signal (ram : XbeRam) {object changed : DispatcherObject} (sameKind : changed.kind = object.kind)
    (samePlace : changed.guestVa = object.guestVa) (owner : changed.mutant.owner = object.mutant.owner)
    (abandoned : changed.mutant.abandoned = object.mutant.abandoned)
    (fits : object.guestVa + mirrorSize object.kind ≤ 2 ^ 32) (shown : ShowsTail ram object) :
    ShowsTail (writeSignalState ram changed) changed := by
  intro kind
  rw [sameKind] at kind
  obtain ⟨ownerPlace, flagPlace⟩ := mutant_fits kind fits
  obtain ⟨ownerShown, flagShown⟩ := shown kind
  simp only [kind, mirrorSize] at fits
  have within : ram.Within (writeSignalState ram changed) (object.guestVa + 4) (object.guestVa + 8) := by
    unfold writeSignalState
    split
    · exact .refl _ _ _
    · split
      · exact .refl _ _ _
      · rw [samePlace, at32_small (by omega)]
        exact XbeRam.Within.write32 _ _ _
  rw [samePlace, owner, abandoned, ownerPlace, flagPlace] at *
  rw [within.read32 (Or.inr (by omega)), within.readBytes (Or.inr (by omega))]
  exact ⟨ownerShown, flagShown⟩

/-- The tail depends on the structure's own memory and on the object. -/
theorem watches_tail : Watches mirrorSize ShowsTail := by
  refine ⟨fun kind => by cases kind <;> decide, fun ram next object fits usable still bytes shown kind => ?_,
    fun ram object other same shown kind => ?_⟩
  · obtain ⟨ownerPlace, flagPlace⟩ := mutant_fits kind fits
    obtain ⟨ownerShown, flagShown⟩ := shown kind
    rw [kind, mirrorSize] at usable still bytes
    rw [ownerPlace] at ownerShown ⊢
    rw [flagPlace] at flagShown ⊢
    rw [XbeRam.read32_held usable still (by omega) (by omega) (fun address _ _ => bytes address (by omega) (by omega)),
      XbeRam.readBytes_held usable still (by decide) (by omega) (by omega)
        (fun address _ _ => bytes address (by omega) (by omega))]
    exact ⟨ownerShown, flagShown⟩
  · have kinds := congrArg DispatcherObject.kind same
    have places := congrArg DispatcherObject.guestVa same
    have mutants := congrArg DispatcherObject.mutant same
    have sameKind : object.kind = other.kind := kinds
    have samePlace : object.guestVa = other.guestVa := places
    have sameMutant : object.mutant = other.mutant := mutants
    rw [← samePlace, ← sameMutant]
    exact shown (sameKind.trans kind)

namespace XboxKrnl

variable {krnl next state : XboxKrnl} {extent : Extent} {size : Kind → Nat}

/-! ## What operations do to a registered object -/

/-- Two states that agree on the table agree on the object. -/
theorem object_congr {ptr : Ptr} (same : next.object? ptr = krnl.object? ptr) : next.object ptr = krnl.object ptr := by
  rw [object, same, object]

/-- An operation that changes no object leaves the face of every registered one. -/
theorem Placed.face (placed : krnl.Placed size) {touch : Touch} (allowed : extent.quiet.Allows krnl touch)
    (idle : touch.change krnl = none) {ptr : Ptr} (registered : ptr ∈ krnl.vaObjects) :
    ((touch.apply krnl).object ptr).face = (krnl.object ptr).face := by
  obtain ⟨object, live⟩ := placed.registered ptr registered
  have older : ptr ≠ krnl.heap.length := Nat.ne_of_lt (krnl.object?_inside ptr object live)
  cases touch with
  | note | schedule | spend | store => rfl
  | identify fiber =>
    simp only [Touch.apply, ensureThreadObject]
    split
    · rfl
    · refine congrArg DispatcherObject.face (object_congr ?_)
      exact (krnl.object?_allocate _ ptr).trans (if_neg older)
  | create object =>
    have heap : ((Touch.create object).apply krnl).heap = (krnl.allocate object).1.heap := by
      simp only [Touch.apply, insertObject]
      split <;> rfl
    refine congrArg DispatcherObject.face (object_congr ?_)
    rw [object?, heap, ← object?, object?_allocate, if_neg older]
  | adjust other change =>
    simp only [Touch.apply]
    rw [object_modify krnl other ptr change ⟨object, live⟩]
    split
    · obtain ⟨mwWaiters, thread, same⟩ := allowed (krnl.object ptr)
      rw [same]
      rfl
    · rfl
  | close slot other =>
    have distinct : ptr ≠ other := by
      rintro rfl
      exact (placed.tabled slot ptr allowed.2).2 registered
    refine congrArg DispatcherObject.face (object_congr ?_)
    exact (krnl.object?_close slot other ptr).trans (if_neg distinct)
  | register object => cases allowed
  | signal | reset | take | consume | put | supply | abandon => cases idle

/-- An operation changes the registered object that it names, and leaves the others. -/
theorem Placed.object_change (placed : krnl.Placed size) {touch : Touch} {ptr : Ptr}
    {changed : DispatcherObject → DispatcherObject} {header : Bool}
    (changes : touch.change krnl = some (ptr, changed, header)) {other : Ptr} (registered : other ∈ krnl.vaObjects) :
    (touch.apply krnl).object other = if other = ptr then changed (krnl.object other) else krnl.object other := by
  rw [Touch.apply_change changes]
  exact krnl.object_modify ptr other changed (placed.registered other registered)

/-! ## The steps that leave the tails right -/

/-- The mutant has a structure. -/
def Shown (krnl : XboxKrnl) (ptr : Ptr) : Prop :=
  ptr ∈ krnl.vaObjects ∧ (krnl.place ptr).1 = .mutant ∧ (krnl.place ptr).2 ≠ 0

instance (krnl : XboxKrnl) (ptr : Ptr) : Decidable (krnl.Shown ptr) := inferInstanceAs (Decidable (_ ∧ _ ∧ _))

/-- No mutant with a structure changes hands: a wait takes none that is free, a release frees
none that is owned, and a thread that ends owns none. -/
def KeepsTails (krnl : XboxKrnl) (action : Action) : Prop :=
  ∀ ptr ∈ krnl.vaObjects, krnl.Shown ptr →
    (ptr ∈ (krnl.actionExtent action).grants → (krnl.object ptr).mutant.signalState ≤ 0) ∧
      (ptr ∈ (krnl.actionExtent action).frees →
        (krnl.object ptr).mutant.signalState < 0 ∨ (krnl.object ptr).mutant.owner = 0) ∧
      ((krnl.object ptr).mutant.owner ≠ 0 → (krnl.object ptr).mutant.owner ∉ (krnl.actionExtent action).ends)

instance (krnl : XboxKrnl) (action : Action) : Decidable (krnl.KeepsTails action) :=
  inferInstanceAs (Decidable (∀ _ ∈ _, _))

/-- What holds of a mutant between two operations of a step that started in `krnl`. -/
structure TailKept (extent : Extent) (krnl state : XboxKrnl) (ptr : Ptr) : Prop where
  same : extent.grants = [] → extent.ends = [] → (state.object ptr).mutant = (krnl.object ptr).mutant
  granted : ptr ∈ extent.grants → (state.object ptr).mutant.signalState ≤ 0
  owner : (state.object ptr).mutant.owner ≠ 0 → (state.object ptr).mutant.owner ∉ extent.ends

/-- A kept tail stays kept when the mutant is the same. -/
theorem TailKept.congr {ptr : Ptr} (settled : TailKept extent krnl state ptr)
    (mutant : (next.object ptr).mutant = (state.object ptr).mutant) : TailKept extent krnl next ptr :=
  ⟨fun grants ends => mutant.trans (settled.same grants ends), fun granted => mutant ▸ settled.granted granted,
    fun owned => mutant ▸ settled.owner (mutant ▸ owned)⟩

/-- An operation that stays in its extent keeps the tail. -/
theorem TailKept.touch (exclusive : extent.grants = [] ∨ extent.ends = []) (placed : state.Placed size) {touch : Touch}
    (allowed : extent.quiet.Allows state touch) {ptr : Ptr} (registered : ptr ∈ state.vaObjects)
    (settled : TailKept extent krnl state ptr) : TailKept extent krnl (touch.apply state) ptr := by
  cases changes : touch.change state with
  | none =>
    have mutants := congrArg DispatcherObject.mutant (placed.face allowed changes registered)
    exact settled.congr mutants
  | some change =>
    obtain ⟨other, changed, header⟩ := change
    have after := placed.object_change changes registered
    by_cases here : ptr = other
    · rw [if_pos here] at after
      cases touch with
      | signal | reset | consume | supply =>
        cases changes
        have mutants := congrArg DispatcherObject.mutant after
        exact settled.congr mutants
      | take target token =>
        cases changes
        subst here
        have granted : ptr ∈ extent.grants := allowed.1
        have ends : extent.ends = [] := exclusive.resolve_left (List.ne_nil_of_mem granted)
        refine ⟨fun grants => absurd grants (List.ne_nil_of_mem granted), fun _ => ?_, fun _ => by rw [ends]; simp⟩
        have taken := settled.granted granted
        rw [after]
        simp only [takeMutant]
        omega
      | put target => cases allowed
      | abandon target =>
        cases changes
        subst here
        exact absurd allowed.1 (settled.owner allowed.2)
      | _ => cases changes
    · rw [if_neg here] at after
      exact settled.congr (by rw [after])

/-! ## What an action may do at once -/

/-- No action takes objects and ends a thread. -/
theorem actionExtent_exclusive (krnl : XboxKrnl) (action : Action) :
    (krnl.actionExtent action).grants = [] ∨ (krnl.actionExtent action).ends = [] := by
  cases action with
  | call call => cases call <;> first | exact Or.inl rfl | exact Or.inr rfl
  | turn =>
    simp only [actionExtent, resumeExtent]
    cases ((Effect.turn).apply krnl).currentFiber with
    | none => exact Or.inl rfl
    | some fiber =>
      simp only [resumeGrants, resumeEnds]
      cases fiber.ctx.point <;> simp
  | run | finish | spawn | sleep | join | compute => exact Or.inl rfl

/-- Neither happens when a mutant is released or an object is registered. -/
theorem actionExtent_main (krnl : XboxKrnl) (action : Action) {touch : Touch} {state : XboxKrnl}
    (main : Main (krnl.actionExtent action) state touch) :
    (krnl.actionExtent action).grants = [] ∧ (krnl.actionExtent action).ends = [] := by
  have busy : (krnl.actionExtent action).frees ≠ [] ∨ (krnl.actionExtent action).registers ≠ [] := by
    cases main with
    | put ptr freed => exact Or.inl (List.ne_nil_of_mem freed)
    | register object listed usable => exact Or.inr (List.ne_nil_of_mem listed)
  cases action with
  | call call =>
    cases call <;>
      simp [actionExtent, Extent.storing, callExtent, callGrants, callFrees, callEnds, callRegisters] at busy ⊢
  | turn =>
    rw [show krnl.actionExtent .turn = ((Effect.turn).apply krnl).resumeExtent.quiet from
      (resumeExtent_quiet _).symm] at busy
    simp [Extent.quiet] at busy
  | run | finish | spawn | sleep | join | compute => simp [actionExtent] at busy

/-! ## Runs -/

/-- The operations that may change the owner or the flag without showing it leave both. -/
theorem Mirrored.quiet_tail (mirrored : krnl.Mirrored mirrorSize ShowsTail) (clear : extent.Clear mirrorSize krnl)
    (exclusive : extent.grants = [] ∨ extent.ends = []) (settled : ∀ ptr, krnl.Shown ptr → TailKept extent krnl krnl ptr)
    (touched : Touched extent.quiet krnl next) :
    next.Mirrored mirrorSize ShowsTail ∧ krnl.SamePlaces next ∧
      ∀ ptr, krnl.Shown ptr → TailKept extent krnl next ptr := by
  have carried : ∀ state touch, state.Placed mirrorSize → krnl.SamePlaces state →
      (∀ ptr, krnl.Shown ptr → TailKept extent krnl state ptr) → extent.quiet.Allows state touch →
      ∀ ptr, krnl.Shown ptr → TailKept extent krnl (touch.apply state) ptr := by
    intro state touch placed same holds allowed ptr shown
    exact (holds ptr shown).touch exclusive placed allowed (same.vaObjects ▸ shown.1)
  have own : ∀ state touch ptr changed header, state.Mirrored mirrorSize ShowsTail → krnl.SamePlaces state →
      (∀ ptr, krnl.Shown ptr → TailKept extent krnl state ptr) → extent.quiet.Allows state touch →
      touch.change state = some (ptr, changed, header) → ptr ∈ state.vaObjects → (state.place ptr).2 ≠ 0 →
        ShowsTail (Touch.mirror header state.ram (changed (state.object ptr))) (changed (state.object ptr)) := by
    intro state touch ptr changed header holds same side allowed changes member given
    obtain ⟨fits, usable⟩ := holds.fits ptr member given
    have before := holds.shown ptr member given
    have isShown : (state.object ptr).kind = .mutant → krnl.Shown ptr := by
      intro kind
      have old : ptr ∈ krnl.vaObjects := same.vaObjects ▸ member
      exact ⟨old, same.place ptr old ▸ kind, same.place ptr old ▸ given⟩
    cases touch with
    | signal | consume | supply =>
      cases changes
      exact showsTail_signal state.ram rfl rfl rfl rfl fits before
    | reset =>
      cases changes
      intro kind
      exact absurd (allowed.symm.trans kind) (by decide)
    | take target token =>
      cases changes
      obtain ⟨granted, kind, owned⟩ := allowed
      cases abandoned : (state.object ptr).mutant.abandoned with
      | true => exact showsTail_header state.ram _ given fits usable
      | false =>
        have taken := (side ptr (isShown kind)).granted granted
        have owner : (state.object ptr).mutant.owner = token := owned.resolve_left (by omega)
        exact @showsTail_signal state.ram (state.object ptr) (takeMutant token (state.object ptr)) rfl rfl owner.symm
          abandoned.symm fits before
    | abandon target =>
      cases changes
      intro kind
      exact absurd allowed.1 ((side ptr (isShown kind)).owner allowed.2)
    | put target => cases allowed
    | _ => cases changes
  exact mirrored.quiet watches_tail clear settled carried own touched

/-- One step mirrors the tails when its action keeps them. -/
theorem Mirrored.step_tail (mirrored : krnl.Mirrored mirrorSize ShowsTail) (steady : krnl.Steady) {action : Action}
    (spares : krnl.SparesStructures mirrorSize action) (keeps : krnl.KeepsTails action)
    (stepped : krnl.step action = some next) : next.Mirrored mirrorSize ShowsTail := by
  obtain ⟨clear, vacant, computes⟩ := spares
  have exclusive := krnl.actionExtent_exclusive action
  have settled : ∀ ptr, krnl.Shown ptr → TailKept (krnl.actionExtent action) krnl krnl ptr := by
    intro ptr shown
    obtain ⟨granted, _, owner⟩ := keeps ptr shown.1 shown
    exact ⟨fun _ _ => rfl, granted, owner⟩
  rcases steady.step_once stepped with once | ⟨ram, filetime, rfl, rfl⟩
  · cases once with
    | never touched => exact (mirrored.quiet_tail clear exclusive settled touched).1
    | once touch middle before main after =>
      obtain ⟨grants, ends⟩ := krnl.actionExtent_main action main
      have idle : ∀ state ptr, state.Shown ptr → TailKept (krnl.actionExtent action) state state ptr := by
        intro state ptr _
        exact ⟨fun _ _ => rfl, by simp [grants], by simp [ends]⟩
      obtain ⟨holds, same, kept⟩ := mirrored.quiet_tail clear exclusive settled before
      have later := same.clear clear
      cases main with
      | put ptr freed =>
        have own : ptr ∈ middle.vaObjects → (middle.place ptr).2 ≠ 0 →
            ShowsTail (Touch.mirror false middle.ram (putMutant (middle.object ptr))) (putMutant (middle.object ptr)) := by
          intro member given kind
          obtain ⟨fits, _⟩ := holds.fits ptr member given
          have old : ptr ∈ krnl.vaObjects := same.vaObjects ▸ member
          have shown : krnl.Shown ptr := ⟨old, same.place ptr old ▸ kind, same.place ptr old ▸ given⟩
          have owner : (putMutant (middle.object ptr)).mutant.owner = (middle.object ptr).mutant.owner := by
            obtain ⟨_, unowned, _⟩ := keeps ptr old shown
            simp only [putMutant, (kept ptr shown).same grants ends]
            have free := unowned freed
            split <;> omega
          exact @showsTail_signal middle.ram (middle.object ptr) (putMutant (middle.object ptr)) rfl rfl owner rfl fits
            (holds.shown ptr member given) kind
        obtain ⟨put, still⟩ := holds.changed watches_tail (show (Touch.put ptr).change middle = _ from rfl) own
        exact (put.quiet_tail (still.clear later) exclusive (idle _) after).1
      | register object listed usable =>
        have installs := middle.registerObject_installs object
        have place : object.guestVa ≠ 0 → middle.Vacant mirrorSize (object.kind, object.guestVa) :=
          fun given => same.vacant (vacant _ listed given).1
        have beside : object.guestVa ≠ 0 → ∀ range ∈ (krnl.actionExtent action).stores,
            middle.ram.writable range.1 range.2 = true →
              range.1 + range.2 ≤ object.guestVa ∨ object.guestVa + mirrorSize object.kind ≤ range.1 :=
          fun given range member held => (vacant _ listed given).2 range member ((same.writable _ _).symm.trans held)
        have registered := holds.register watches_tail installs place (fun token given =>
          showsTail_header middle.ram { object with token } given (place given).1 (place given).2.1)
        exact (registered.quiet_tail (installs.clear holds.toPlaced place later beside) exclusive (idle _) after).1
  · exact mirrored.compute watches_tail computes

/-- As long as handles and identifiers fit, only the kernel writes to the structures and no mutant
with a structure changes hands, the tail of the structure names the owner and holds the abandoned
flag.

Proof: `Mirrored` with `ShowsTail` is the invariant. A step that stores to no structure and
changes no owner keeps it; the one effect that writes the tail is the initialisation, and a
release or an acquisition that leaves the owner as it was rewrites the signal state only. -/
theorem mutant_tails {actions : List Action}
    (run : krnl.WordRun (fun krnl action =>
      krnl.Roomy ∧ krnl.SparesStructures mirrorSize action ∧ krnl.KeepsTails action) actions)
    {ptr : Ptr} (registered : ptr ∈ krnl.vaObjects) (mapped : (krnl.object ptr).guestVa ≠ 0)
    (mutant : (krnl.object ptr).kind = .mutant) :
    krnl.ram.read32 (at32 (krnl.object ptr).guestVa 0x18) = some ((krnl.object ptr).mutant.owner % 2 ^ 32) ∧
      krnl.ram.readBytes (at32 (krnl.object ptr).guestVa 0x1C) 1 =
        some [if (krnl.object ptr).mutant.abandoned then 1 else 0] := by
  have mirrored : krnl.Mirrored mirrorSize ShowsTail :=
    ((run.reachesUnder (fun _ _ met => met.1)).invariant initial_mirrored (fun _ _ _ steady holds met stepped =>
      holds.step_tail steady met.2.1 met.2.2 stepped)).2
  exact mirrored.shown ptr registered mapped mutant

/-- A fiber creates a mutant that it owns, enters it once more and leaves it once. -/
def takesTwice : List Action :=
  [.spawn 0 (some 0), .run, .turn, .call (.keInitializeMutant 64 1), .call (.keWaitForSingleObject 64 0 0 0 0),
    .call (.keReleaseMutant 64 0 0 0)]

/-- A mutant that is taken twice shows its owner in its tail. -/
theorem takesTwice_tails : ((wordAfter true takesTwice).object 1).mutant.owner ≠ 0 ∧
    (wordAfter true takesTwice).ram.read32 (at32 ((wordAfter true takesTwice).object 1).guestVa 0x18) =
      some (((wordAfter true takesTwice).object 1).mutant.owner % 2 ^ 32) ∧
    (wordAfter true takesTwice).ram.readBytes (at32 ((wordAfter true takesTwice).object 1).guestVa 0x1C) 1 =
      some [if ((wordAfter true takesTwice).object 1).mutant.abandoned then 1 else 0] := by
  have run := wordRun_after
    (fun krnl action => krnl.Roomy ∧ krnl.SparesStructures mirrorSize action ∧ krnl.KeepsTails action)
    true takesTwice (by decide +kernel) (by decide +kernel)
  exact ⟨by decide +kernel, mutant_tails run (by decide +kernel) (by decide +kernel) (by decide +kernel)⟩

/-- The fiber that takes a free mutant does not become its owner in the structure. -/
theorem free_mutant_tail : ¬ ∀ (krnl : XboxKrnl) actions, krnl.WordRun (SparesStructures mirrorSize) actions →
    ∀ ptr ∈ krnl.vaObjects, (krnl.object ptr).guestVa ≠ 0 → (krnl.object ptr).kind = .mutant →
      krnl.ram.read32 (at32 (krnl.object ptr).guestVa 0x18) = some ((krnl.object ptr).mutant.owner % 2 ^ 32) ∧
        krnl.ram.readBytes (at32 (krnl.object ptr).guestVa 0x1C) 1 =
          some [if (krnl.object ptr).mutant.abandoned then 1 else 0] := by
  intro claimed
  have run := wordRun_after (SparesStructures mirrorSize) true [.call (.keInitializeMutant 64 0),
    .spawn 0 (some 0), .run, .turn, .call (.keWaitForSingleObject 64 0 0 0 0)] (by decide +kernel) (by decide +kernel)
  have read := claimed _ _ run 0 (by decide +kernel) (by decide +kernel) (by decide +kernel)
  exact absurd read.1 (by decide +kernel)

end XboxKrnl

end SeriesxEmu
