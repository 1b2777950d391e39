import SeriesxEmu.GuestMirrors

/-!
# The signal state that guest code sees

Every operation that changes an object at a guest address writes its signal state into the
structure there. As long as the structures are apart and only the kernel writes to them, the
`SignalState` field is the state of the object after every kernel call and every switch. An
object registered at address zero is not mirrored: zero stands for objects without an address.
-/

namespace SeriesxEmu

open Scheduler GuestScheduler

/-- The `SignalState` field of the structure is the state of the object. -/
def ShowsState (ram : XbeRam) (object : DispatcherObject) : Prop :=
  ∀ state, object.signalState = some state → ram.read32 (at32 object.guestVa 4) = some (uint32 state)

/-- A word of 32 bits survives its storing. -/
theorem uint32_small (value : Int) : uint32 value % 2 ^ 32 = uint32 value := by
  have range : value % 2 ^ 32 < 2 ^ 32 := Int.emod_lt_of_pos value (by decide)
  unfold uint32
  omega

/-- Structures have a header. -/
theorem structSize_signalState {object : DispatcherObject} {state : Int} (shown : object.signalState = some state) :
    16 ≤ structSize object.kind ∧ 16 ≤ mirrorSize object.kind := by
  cases kind : object.kind <;> simp [structSize, mirrorSize, DispatcherObject.signalState, kind] at shown ⊢

/-- The header that is written shows the state: what is written after it lies behind it. -/
theorem showsState_header (ram : XbeRam) (object : DispatcherObject) (given : object.guestVa ≠ 0)
    (fits : object.guestVa + mirrorSize object.kind ≤ 2 ^ 32)
    (usable : ram.writable object.guestVa (structSize object.kind) = true) :
    ShowsState (writeDispatcherHeader ram object) object := by
  intro state shown
  obtain ⟨long, longer⟩ := structSize_signalState shown
  have place : at32 object.guestVa 4 = object.guestVa + 4 := at32_small (by omega)
  have word : (ram.write32 object.guestVa (object.headerSize * 2 ^ 16)).writable (at32 object.guestVa 4) 4 = true := by
    rw [XbeRam.writable_write32, place]
    exact XbeRam.writable_word usable (by omega) (by omega)
  have stored := XbeRam.read32_write32 word (uint32 state)
  rw [uint32_small] at stored
  have later : ∀ (middle : XbeRam) offset value, 8 ≤ offset → offset + 4 ≤ mirrorSize object.kind →
      (middle.write32 (at32 object.guestVa offset) value).read32 (at32 object.guestVa 4) =
        middle.read32 (at32 object.guestVa 4) := by
    intro middle offset value behind inside
    rw [place, at32_small (show object.guestVa + offset < 2 ^ 32 by omega)]
    exact XbeRam.read32_write32_other (Or.inr (by omega)) value
  have headed := (later _ 12 (at32 object.guestVa 8) (by omega) (by omega)).trans
    ((later _ 8 (at32 object.guestVa 8) (by omega) (by omega)).trans stored)
  unfold writeDispatcherHeader
  simp only [given, ↓reduceIte, shown]
  cases kind : object.kind with
  | event => exact headed
  | thread => simp [DispatcherObject.signalState, kind] at shown
  | semaphore =>
    rw [kind] at later
    exact (later _ 0x10 _ (by decide) (by decide)).trans headed
  | mutant =>
    rw [kind] at later fits
    have last : ∀ (middle : XbeRam) (byte : UInt8),
        (middle.writeBytes (at32 object.guestVa 0x1C) [byte]).1.read32 (at32 object.guestVa 4) =
          middle.read32 (at32 object.guestVa 4) := by
      intro middle byte
      simp only [mirrorSize] at fits
      refine (XbeRam.Within.writeBytes middle _ [byte]).read32 (Or.inl ?_)
      rw [place, at32_small (by omega)]
      omega
    exact (last _ _).trans ((later _ 0x18 _ (by decide) (by decide)).trans ((later _ 0x14 _ (by decide) (by decide)).trans
      ((later _ 0x10 _ (by decide) (by decide)).trans headed)))

/-- Storing the signal state shows it. -/
theorem showsState_signal (ram : XbeRam) (object : DispatcherObject) (given : object.guestVa ≠ 0)
    (fits : object.guestVa + mirrorSize object.kind ≤ 2 ^ 32)
    (usable : ram.writable object.guestVa (structSize object.kind) = true) :
    ShowsState (writeSignalState ram object) object := by
  intro state shown
  obtain ⟨long, longer⟩ := structSize_signalState shown
  have word : ram.writable (at32 object.guestVa 4) 4 = true := by
    rw [at32_small (by omega)]
    exact XbeRam.writable_word usable (by omega) (by omega)
  unfold writeSignalState
  simp only [given, ↓reduceIte, shown]
  rw [XbeRam.read32_write32 word, uint32_small]

/-- So does mirroring the whole object. -/
theorem showsState_mirror (header : Bool) (ram : XbeRam) (object : DispatcherObject) (given : object.guestVa ≠ 0)
    (fits : object.guestVa + mirrorSize object.kind ≤ 2 ^ 32)
    (usable : ram.writable object.guestVa (structSize object.kind) = true) :
    ShowsState (Touch.mirror header ram object) object := by
  cases header
  · exact showsState_signal ram object given fits usable
  · exact showsState_header ram object given fits usable

/-- What is shown depends on the structure's own memory and on the object. -/
theorem watches_state : Watches structSize ShowsState := by
  refine ⟨fun _ => Nat.le_refl _, fun ram next object fits usable still bytes shown state is => ?_,
    fun ram object other same shown state is => ?_⟩
  · obtain ⟨long, longer⟩ := structSize_signalState is
    have place : at32 object.guestVa 4 = object.guestVa + 4 := at32_small (by omega)
    rw [← shown state is, place]
    exact XbeRam.read32_held usable still (by omega) (by omega)
      (fun address above below => bytes address (by omega) (by omega))
  · have states := congrArg DispatcherObject.signalState same
    have places := congrArg DispatcherObject.guestVa same
    have sameState : object.signalState = other.signalState := states
    have samePlace : object.guestVa = other.guestVa := places
    rw [← samePlace]
    exact shown state (sameState.trans is)

namespace XboxKrnl

variable {krnl next : XboxKrnl} {extent : Extent}

/-- Kernel code keeps the states shown, as long as it stores its results elsewhere. -/
theorem Mirrored.quiet_state (mirrored : krnl.Mirrored structSize ShowsState) (clear : extent.Clear structSize krnl)
    (touched : Touched extent.quiet krnl next) : next.Mirrored structSize ShowsState ∧ krnl.SamePlaces next := by
  have own : ∀ state touch ptr changed header, state.Mirrored structSize ShowsState → krnl.SamePlaces state → True →
      extent.quiet.Allows state touch → touch.change state = some (ptr, changed, header) → ptr ∈ state.vaObjects →
      (state.place ptr).2 ≠ 0 →
        ShowsState (Touch.mirror header state.ram (changed (state.object ptr))) (changed (state.object ptr)) := by
    intro state touch ptr changed header holds _ _ _ changes member given
    obtain ⟨kind, place⟩ := Touch.change_place changes (state.object ptr)
    obtain ⟨fits, usable⟩ := holds.fits ptr member given
    exact showsState_mirror header _ _ (by rwa [place]) (by rwa [place, kind]) (by rwa [place, kind])
  obtain ⟨after, same, _⟩ := @Mirrored.quiet krnl next structSize ShowsState extent mirrored watches_state clear
    (fun _ => True) trivial (fun _ _ _ _ _ _ => trivial) own touched
  exact ⟨after, same⟩

/-- One step mirrors the states when it spares the structures. -/
theorem Mirrored.step_state (mirrored : krnl.Mirrored structSize ShowsState) (steady : krnl.Steady) {action : Action}
    (spares : krnl.SparesStructures structSize action) (stepped : krnl.step action = some next) :
    next.Mirrored structSize ShowsState := by
  obtain ⟨clear, vacant, computes⟩ := spares
  rcases steady.step_once stepped with once | ⟨ram, filetime, rfl, rfl⟩
  · cases once with
    | never touched => exact (mirrored.quiet_state clear touched).1
    | once touch middle before main after =>
      obtain ⟨holds, same⟩ := mirrored.quiet_state clear before
      have later := same.clear clear
      cases main with
      | put ptr freed =>
        have own : ptr ∈ middle.vaObjects → (middle.place ptr).2 ≠ 0 →
            ShowsState (Touch.mirror false middle.ram (putMutant (middle.object ptr))) (putMutant (middle.object ptr)) := by
          intro member given
          obtain ⟨fits, usable⟩ := holds.fits ptr member given
          exact showsState_mirror false middle.ram (putMutant (middle.object ptr)) given fits usable
        obtain ⟨put, still⟩ := holds.changed watches_state (show (Touch.put ptr).change middle = _ from rfl) own
        exact (put.quiet_state (still.clear later) after).1
      | register object listed usable =>
        have installs := middle.registerObject_installs object
        have place : object.guestVa ≠ 0 → middle.Vacant structSize (object.kind, object.guestVa) :=
          fun given => same.vacant (vacant _ listed given).1
        have beside : object.guestVa ≠ 0 → ∀ range ∈ (krnl.actionExtent action).stores,
            middle.ram.writable range.1 range.2 = true →
              range.1 + range.2 ≤ object.guestVa ∨ object.guestVa + structSize object.kind ≤ range.1 :=
          fun given range member held => (vacant _ listed given).2 range member ((same.writable _ _).symm.trans held)
        have registered := holds.register watches_state installs place (fun token given =>
          showsState_header middle.ram { object with token } given (place given).1 (place given).2.1)
        exact (registered.quiet_state (installs.clear holds.toPlaced place later beside) after).1
  · exact mirrored.compute watches_state computes

/-- Whenever only the kernel writes to the structures, and no two of them overlap, the state
that guest code reads in the structure of an object is the object's.

Proof: the mirror of every registered object is an invariant of the runs whose stores spare the
structures. -/
theorem signal_states {actions : List Action} (reached : krnl.ReachesUnder (SparesStructures structSize) actions)
    {ptr : Ptr} (registered : ptr ∈ krnl.vaObjects) (mapped : (krnl.object ptr).guestVa ≠ 0) {state : Int}
    (current : (krnl.object ptr).signalState = some state) :
    krnl.ram.read32 (at32 (krnl.object ptr).guestVa 4) = some (uint32 state) := by
  have mirrored : krnl.Mirrored structSize ShowsState :=
    (reached.invariant initial_mirrored (fun _ _ _ steady holds spares stepped =>
      holds.step_state steady spares stepped)).2
  exact mirrored.shown ptr registered mapped state current

/-- A fiber waits for a semaphore that the host has initialised, and the host releases it. -/
def releasesMirrored : List Action :=
  [.call (.keInitializeSemaphore 64 0 4), .call (.keInitializeEvent 128 1 1), .spawn 0 (some 0), .run, .turn,
    .call (.keWaitForSingleObject 128 0 0 0 0), .call (.keReleaseSemaphore 64 0 3 0)]

/-- A run with two objects in guest memory shows both states. -/
theorem releasesMirrored_states : (after true releasesMirrored).vaObjects = [0, 1] ∧
    (after true releasesMirrored).ram.read32 (at32 ((after true releasesMirrored).object 0).guestVa 4) =
      some (uint32 3) ∧
    (after true releasesMirrored).ram.read32 (at32 ((after true releasesMirrored).object 1).guestVa 4) =
      some (uint32 0) := by
  have reached := reachesUnder_after (SparesStructures structSize) true releasesMirrored (by decide +kernel)
    (by decide +kernel)
  exact ⟨by decide +kernel, signal_states reached (by decide +kernel) (by decide +kernel) (by decide +kernel),
    signal_states reached (by decide +kernel) (by decide +kernel) (by decide +kernel)⟩

/-- An object registered at address zero is not mirrored. -/
theorem signal_state_at_zero : ¬ ∀ (krnl : XboxKrnl) actions, krnl.ReachesUnder (SparesStructures structSize) actions →
    ∀ ptr ∈ krnl.vaObjects, ∀ state, (krnl.object ptr).signalState = some state →
      krnl.ram.read32 (at32 (krnl.object ptr).guestVa 4) = some (uint32 state) := by
  intro claimed
  have reached := reachesUnder_after (SparesStructures structSize) true [.call (.keInitializeEvent 0 0 1)]
    (by decide +kernel) (by decide +kernel)
  have read := claimed _ _ reached 0 (by decide +kernel) 1 (by decide +kernel)
  exact absurd read (by decide +kernel)

end XboxKrnl

end SeriesxEmu
