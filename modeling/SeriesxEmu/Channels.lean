import SeriesxEmu.Histories

/-!
# Who can signal a channel

The channel of a live object is signaled by the operations on that object and by
nothing else: live objects have different channels, the channels of critical
sections and of multiple waits are of another form, and only channels of
multiple waits are ever registered on an object.
-/

namespace SeriesxEmu

open Scheduler GuestScheduler

namespace XboxKrnl

variable {krnl next : XboxKrnl}

/-- Only channels of multiple waits are registered on objects. -/
def Channels (krnl : XboxKrnl) : Prop :=
  ∀ ptr object, krnl.object? ptr = some object → ∀ token ∈ object.mwWaiters, ∃ handle, token = .multiWait handle

/-- An effect registers at most the channel of the running fiber. -/
theorem rewrite_waiters (effect : Effect) (ptr : Ptr) (object : DispatcherObject) :
    ∀ token ∈ (effect.rewrite krnl ptr object).mwWaiters,
      token ∈ object.mwWaiters ∨ token = .multiWait krnl.currentHandle := by
  have only : ∀ (target : Ptr) (change : DispatcherObject → DispatcherObject),
      (∀ token ∈ (change object).mwWaiters, token ∈ object.mwWaiters ∨ token = .multiWait krnl.currentHandle) →
      ∀ token ∈ (Effect.onlyAt target change ptr object).mwWaiters,
        token ∈ object.mwWaiters ∨ token = .multiWait krnl.currentHandle :=
    fun target change here => Effect.onlyAt_holds (fun o => ∀ token ∈ o.mwWaiters, token ∈ object.mwWaiters ∨
      token = .multiWait krnl.currentHandle) here (fun _ member => Or.inl member)
  have same : ∀ token ∈ object.mwWaiters, token ∈ object.mwWaiters ∨ token = .multiWait krnl.currentHandle :=
    fun _ member => Or.inl member
  cases effect with
  | acquire mode ptrs status =>
    have kept := Effect.taken_part krnl DispatcherObject.mwWaiters
      (fun o => by unfold takeOne; split <;> (try split) <;> rfl) (ptrs.count ptr) object
    simp only [Effect.rewrite, kept]
    exact same
  | suspendSelf target out reply => exact only target _ same
  | adjust target change =>
    refine only target _ ?_
    cases change with
    | register => simp [Change.apply, addWaiter]
    | unregister =>
      intro token member
      exact Or.inl (List.mem_of_mem_filter member)
    | _ => exact same
  | setEvent target => exact only target _ (by simp [withSignal])
  | pulseEvent target => exact only target _ (by simp [withSignal])
  | releaseMutant target =>
    refine only target _ ?_
    split
    · simp [clearWaiters]
    · exact same
  | releaseSemaphore target adjustment => exact only target _ (by simp [addUnits])
  | resumeThread target => exact only target _ same
  | abandon target => exact only target _ (by simp [clearWaiters])
  | wakeJoiner target => exact only target _ (by simp [clearWaiters])
  | _ => exact same

/-- A new object has no registrations. -/
theorem born_waiters {effect : Effect} {object : DispatcherObject} (allowed : effect.Allowed krnl)
    (born : effect.Births krnl object) : object.mwWaiters = [] := by
  cases effect with
  | identify =>
    obtain rfl : object = _ := born
    rfl
  | create made =>
    obtain rfl : object = _ := born
    exact allowed.1.2.1
  | install made =>
    obtain rfl : object = _ := born
    exact allowed.2.1
  | createThread request base =>
    obtain ⟨slot, rfl⟩ := born
    rfl
  | _ => exact born.elim

/-- The channels stay apart after an effect. -/
theorem Channels.effect (channels : krnl.Channels) (ok : krnl.Ok) {effect : Effect} (allowed : effect.Allowed krnl) :
    (effect.apply krnl).Channels := by
  intro ptr object live token member
  rcases Effect.object_origin ok allowed live with ⟨earlier, before, rfl⟩ | ⟨_, born⟩
  · rcases rewrite_waiters effect ptr earlier token member with old | rfl
    · exact channels ptr earlier before token old
    · exact ⟨_, rfl⟩
  · rw [born_waiters allowed born] at member
    cases member

/-- They stay apart along a path. -/
theorem Channels.path (channels : krnl.Channels) (ok : krnl.Ok) {labels : List Label}
    (path : Path labels krnl next) : next.Channels :=
  Path.keeps (fun _ _ ok holds _ allowed => holds.effect ok allowed) path ok channels

/-- They are apart in every reachable state. -/
theorem Reaches.channels {actions : List Action} (reached : krnl.Reaches actions) : krnl.Channels := by
  have invariant : krnl.Steady ∧ krnl.Channels := reached.invariant ?_ ?_
  · exact invariant.2
  · intro ram addresses threadRunner kernelDataVa ptr object live
    simp [initial, object?] at live
  · intro krnl action next steady channels stepped
    exact channels.path steady.ok (steady.step stepped).1

/-- The object whose own channel an effect signals. -/
def target? : Effect → Option Ptr
  | .setEvent ptr => some ptr
  | .pulseEvent ptr => some ptr
  | .releaseMutant ptr => some ptr
  | .releaseSemaphore ptr _ => some ptr
  | .resumeThread ptr => some ptr
  | .abandon ptr => some ptr
  | .wakeJoiner ptr => some ptr
  | _ => none

/-- The channel of a live object is signaled by the operations on the object. -/
theorem Channels.signals_target (channels : krnl.Channels) (ok : krnl.Ok) {effect : Effect}
    (allowed : effect.Allowed krnl) {ptr : Ptr} {object : DispatcherObject} (live : krnl.object? ptr = some object)
    (signals : effect.Signals krnl object.token) : target? effect = some ptr := by
  have shape := krnl.shapes_eq _ _ live
  obtain ⟨addr, form⟩ := ok.registry.tokenForm ptr _ shape
  have own : object.token = .object addr := form
  have same : ∀ {target : Ptr} {found : DispatcherObject}, krnl.object? target = some found →
      object.token = (krnl.object target).token ∨ object.token ∈ (krnl.object target).mwWaiters →
      some target = some ptr := by
    intro target found there either
    rw [krnl.object_eq _ _ there] at either
    rcases either with equal | registered
    · rw [ok.registry.tokens target ptr _ _ (krnl.shapes_eq _ _ there) shape equal.symm]
    · obtain ⟨handle, other⟩ := channels target found there _ registered
      rw [own] at other
      cases other
  cases effect with
  | setEvent target =>
    obtain ⟨found, there, _⟩ := allowed
    exact same there signals
  | pulseEvent target =>
    obtain ⟨found, there, _⟩ := allowed
    exact same there signals
  | releaseMutant target =>
    obtain ⟨found, there, _⟩ := allowed
    exact same there signals
  | releaseSemaphore target adjustment =>
    obtain ⟨found, there, _⟩ := allowed
    exact same there signals
  | resumeThread target =>
    obtain ⟨found, there, _⟩ := allowed
    exact same there (Or.inl signals)
  | abandon target =>
    obtain ⟨found, there, _⟩ := allowed
    exact same there signals
  | wakeJoiner target =>
    obtain ⟨found, there, _⟩ := allowed
    exact same there signals
  | leaveSection va =>
    have other : object.token = .criticalSection va := signals
    rw [own] at other
    cases other
  | _ => exact signals.elim

end XboxKrnl

end SeriesxEmu
