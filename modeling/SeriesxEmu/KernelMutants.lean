import SeriesxEmu.WaitingFibers
import SeriesxEmu.MutantOwnership

/-!
# Mutants at guest addresses

`KeReleaseMutant` makes no ownership check. A release of a mutant that some fiber holds gives up
that hold, whoever makes it; a release of a free one lets two fibers in. As long as only held
mutants are released, a mutant that `KeInitializeMutant` has made is free or has one owner, and
nobody acquires it while another fiber holds it.
-/

namespace SeriesxEmu

open Scheduler GuestScheduler

/-- How often the fiber holds the mutant that has the first owner: an acquisition adds to it, and
a release by any fiber takes from it. A fiber that has ended holds nothing. -/
def holdOf (ptr : Ptr) (first fiber : Nat) : List Event → Int
  | [] => if first ≠ 0 ∧ first = fiber then 1 else 0
  | .satisfied holder _ objects _ :: earlier =>
    if holder = fiber then holdOf ptr first fiber earlier + objects.count ptr else holdOf ptr first fiber earlier
  | .released _ object _ :: earlier =>
    if object = ptr ∧ 0 < holdOf ptr first fiber earlier then holdOf ptr first fiber earlier - 1
    else holdOf ptr first fiber earlier
  | .finished ended :: earlier => if ended = fiber then 0 else holdOf ptr first fiber earlier
  | _ :: earlier => holdOf ptr first fiber earlier

/-- An event that says nothing of the mutant changes no hold. -/
theorem holdOf_cons {ptr : Ptr} {event : Event} (absent : ptr ∉ event.mentions)
    (alive : ∀ fiber, event ≠ .finished fiber) (first fiber : Nat) (earlier : List Event) :
    holdOf ptr first fiber (event :: earlier) = holdOf ptr first fiber earlier := by
  cases event with
  | satisfied holder mode objects status =>
    have uncounted : objects.count ptr = 0 := List.count_eq_zero.mpr absent
    simp [holdOf, uncounted]
  | released holder object count =>
    have different : object ≠ ptr := fun same => absent (List.mem_singleton.mpr same.symm)
    simp [holdOf, different]
  | finished ended => exact absurd rfl (alive ended)
  | _ => rfl

/-- Neither do several. -/
theorem holdOf_append {ptr : Ptr} {events : List Event} (absent : ∀ event ∈ events, ptr ∉ event.mentions)
    (alive : ∀ fiber, .finished fiber ∉ events) (first fiber : Nat) (earlier : List Event) :
    holdOf ptr first fiber (events ++ earlier) = holdOf ptr first fiber earlier := by
  induction events with
  | nil => rfl
  | cons event rest inductionHypothesis =>
    rw [List.cons_append, holdOf_cons (absent event List.mem_cons_self)]
    · exact inductionHypothesis (fun other member => absent other (List.mem_cons_of_mem event member))
        (fun fiber member => alive fiber (List.mem_cons_of_mem event member))
    · rintro fiber rfl
      exact alive fiber List.mem_cons_self

/-- Before anything has happened to the mutant only its first owner holds it. -/
theorem holdOf_unmentioned {ptr : Ptr} {history : List Event} (absent : ∀ event ∈ history, ptr ∉ event.mentions)
    (first fiber : Nat) : holdOf ptr first fiber history ≤ 1 ∧
      (0 < holdOf ptr first fiber history → first ≠ 0 ∧ first = fiber) := by
  induction history with
  | nil =>
    simp only [holdOf]
    split
    · rename_i owner
      exact ⟨le_rfl, fun _ => owner⟩
    · exact ⟨by decide, fun positive => absurd positive (lt_irrefl 0)⟩
  | cons event earlier inductionHypothesis =>
    have before := inductionHypothesis (fun other member => absent other (List.mem_cons_of_mem event member))
    by_cases ended : ∃ other, event = .finished other
    · obtain ⟨other, rfl⟩ := ended
      simp only [holdOf]
      split
      · exact ⟨by decide, fun positive => absurd positive (lt_irrefl 0)⟩
      · exact before
    · rw [holdOf_cons (absent event List.mem_cons_self) (fun other same => ended ⟨other, same⟩)]
      exact before

namespace XboxKrnl

variable {krnl next : XboxKrnl} {first : Ptr → Nat}

/-- A live mutant at a guest address; only `KeInitializeMutant` makes one. -/
def InstalledMutant (krnl : XboxKrnl) (ptr : Ptr) (object : DispatcherObject) : Prop :=
  ptr ∈ krnl.vaObjects ∧ krnl.object? ptr = some object ∧ object.kind = .mutant

/-- The mutant is free or has one owner, and nobody else holds it. While the running fiber is
being ended, it may still hold a mutant that it has left behind. -/
structure HeldMutant (krnl : XboxKrnl) (dying : Bool) (first : Nat) (ptr : Ptr) (object : DispatcherObject) : Prop where
  free : object.mutant.owner = 0 → object.mutant.signalState = 1
  owned : object.mutant.owner ≠ 0 → object.mutant.signalState ≤ 0 ∧
    ∃ fiber, krnl.tokenOf fiber = object.mutant.owner ∧
      holdOf ptr first fiber krnl.history ≤ 1 - object.mutant.signalState
  holders : ∀ fiber, 0 < holdOf ptr first fiber krnl.history →
    (object.mutant.owner ≠ 0 ∧ krnl.tokenOf fiber = object.mutant.owner) ∨ (dying = true ∧ fiber = krnl.currentHandle)

/-! ## Effects -/

/-- Effects other than `.install` leave the list of objects at guest addresses alone. -/
theorem vaObjects_apply (ok : krnl.Ok) {effect : Effect} (allowed : effect.Allowed krnl) :
    (effect.apply krnl).vaObjects =
      match effect with
      | .install _ => krnl.vaObjects ++ [krnl.heap.length]
      | _ => krnl.vaObjects := by
  cases keeps : effect.registers with
  | false =>
    have same : (effect.apply krnl).vaObjects = krnl.vaObjects :=
      congrArg Registry.vaObjects (Effect.registry_apply ok allowed keeps)
    rw [same]
    cases effect with
    | install object => cases keeps
    | _ => rfl
  | true =>
    have inserted : ∀ (state : XboxKrnl) ptr, (state.insertObject ptr).1.vaObjects = state.vaObjects := by
      intro state ptr
      unfold insertObject
      split <;> rfl
    cases effect with
    | identify =>
      simp only [Effect.apply, ensureThreadObject]
      split <;> rfl
    | create object => exact inserted _ _
    | createThread request base => exact inserted _ _
    | install | spend | close | spawn => rfl
    | _ => cases keeps

/-- A mutant at a guest address was there before, or is being made. -/
theorem installedMutant_origin (ok : krnl.Ok) {effect : Effect} (allowed : effect.Allowed krnl) {ptr : Ptr}
    {after : DispatcherObject} (installed : (effect.apply krnl).InstalledMutant ptr after) :
    (∃ object, krnl.InstalledMutant ptr object ∧ after = effect.rewrite krnl ptr object) ∨
      ∃ made, effect = .install made ∧ made.kind = .mutant ∧ ptr = krnl.heap.length ∧
        after = { made with token := .object krnl.freshAddress } := by
  obtain ⟨located, live, kind⟩ := installed
  rw [vaObjects_apply ok allowed] at located
  have inside : ∀ other ∈ krnl.vaObjects, other < krnl.heap.length := by
    intro other member
    obtain ⟨object, here⟩ := ok.live_registered member
    exact krnl.object?_inside _ _ here
  rcases Effect.object_origin ok allowed live with ⟨object, before, rfl⟩ | ⟨fresh, born⟩
  · refine Or.inl ⟨object, ⟨?_, before, ?_⟩, rfl⟩
    · split at located
      · rcases List.mem_append.mp located with old | new
        · exact old
        · rw [List.mem_singleton.mp new] at before
          exact absurd (krnl.object?_inside _ _ before) (Nat.lt_irrefl _)
      · exact located
    · exact (DispatcherObject.kind_of_shape (effect.rewrite_shape krnl ptr object)).symm.trans kind
  · cases effect with
    | install made => exact Or.inr ⟨made, rfl, by rw [born] at kind; exact kind, fresh, born⟩
    | _ =>
      have old := inside ptr located
      exact absurd fresh (Nat.ne_of_lt old)

section effects

variable {dying : Bool} {initial : Nat} {ptr : Ptr} {object : DispatcherObject}

/-- Tokens of fibers that have one do not change. -/
theorem tokenOf_kept (ok : krnl.Ok) {effect : Effect} (allowed : effect.Allowed krnl) {fiber owner : Nat}
    (nonzero : owner ≠ 0) (token : krnl.tokenOf fiber = owner) : (effect.apply krnl).tokenOf fiber = owner := by
  rcases Effect.tokenOf_apply ok allowed fiber with kept | ⟨_, _, zero, _⟩
  · exact kept.trans token
  · exact absurd (token.symm.trans zero) nonzero

/-- What does not concern the mutant leaves it as it was. -/
theorem HeldMutant.idle (held : krnl.HeldMutant dying initial ptr object) (ok : krnl.Ok) {effect : Effect}
    (allowed : effect.Allowed krnl) (stays : effect.label ≠ .exiting) {after : DispatcherObject}
    (same : after.mutant = object.mutant) (unmentioned : ∀ event ∈ effect.events krnl, ptr ∉ event.mentions)
    (current : dying = true → (effect.apply krnl).currentHandle = krnl.currentHandle) :
    (effect.apply krnl).HeldMutant dying initial ptr after := by
  have holds : ∀ fiber, holdOf ptr initial fiber (effect.apply krnl).history =
      holdOf ptr initial fiber krnl.history := by
    intro fiber
    rw [history_apply ok allowed]
    exact holdOf_append unmentioned (events_alive stays) initial fiber krnl.history
  refine ⟨same ▸ held.free, ?_, fun fiber positive => ?_⟩
  · rw [same]
    intro owner
    obtain ⟨signaled, fiber, token, bound⟩ := held.owned owner
    exact ⟨signaled, fiber, tokenOf_kept ok allowed owner token, (holds fiber).symm ▸ bound⟩
  · rw [holds] at positive
    rw [same]
    rcases held.holders fiber positive with ⟨owner, token⟩ | ⟨ending, here⟩
    · exact Or.inl ⟨owner, tokenOf_kept ok allowed owner token⟩
    · exact Or.inr ⟨ending, here.trans (current ending).symm⟩

/-- Whoever is told that the mutant is there is its owner, or it is free. -/
theorem HeldMutant.available (held : krnl.HeldMutant false initial ptr object) (ok : krnl.Ok)
    (live : krnl.object? ptr = some object) (kind : object.kind = .mutant)
    (satisfied : krnl.satisfiedAs krnl.currentHandle ptr = true) :
    object.mutant.signalState ≤ 1 ∧
      holdOf ptr initial krnl.currentHandle krnl.history ≤ 1 - object.mutant.signalState ∧
        ∀ fiber, 0 < holdOf ptr initial fiber krnl.history → fiber = krnl.currentHandle := by
  by_cases zero : object.mutant.owner = 0
  · have nobody : ∀ fiber, ¬ 0 < holdOf ptr initial fiber krnl.history := by
      intro fiber positive
      rcases held.holders fiber positive with ⟨owner, _⟩ | ⟨ending, _⟩
      · exact owner zero
      · cases ending
    have free := held.free zero
    have mine := nobody krnl.currentHandle
    exact ⟨by omega, by omega, fun fiber positive => absurd positive (nobody fiber)⟩
  · obtain ⟨signaled, fiber, token, bound⟩ := held.owned zero
    have self : object.mutant.owner = krnl.tokenOf krnl.currentHandle := by
      have unsignaled : ¬ 0 < object.mutant.signalState := by omega
      simpa [satisfiedAs, krnl.object_eq _ _ live, kind, unsignaled, zero] using satisfied
    have unique : ∀ other, krnl.tokenOf other = object.mutant.owner → other = krnl.currentHandle := fun other same =>
      ok.tokenOf_injective (by rw [same]; exact zero) (same.trans self)
    refine ⟨by omega, unique fiber token ▸ bound, fun other positive => ?_⟩
    rcases held.holders other positive with ⟨_, same⟩ | ⟨ending, _⟩
    · exact unique other same
    · cases ending

/-- An acquisition keeps the account of the mutant. -/
theorem HeldMutant.acquire (held : krnl.HeldMutant false initial ptr object) (ok : krnl.Ok) {mode : WaitMode}
    {ptrs : List Ptr} {status : Nat} (allowed : (Effect.acquire mode ptrs status).Allowed krnl)
    (live : krnl.object? ptr = some object) (kind : object.kind = .mutant) (inFiber : krnl.currentHandle ≠ 0)
    (named : ptr ∈ ptrs) :
    ((Effect.acquire mode ptrs status).apply krnl).HeldMutant false initial ptr
      ((Effect.acquire mode ptrs status).rewrite krnl ptr object) := by
  obtain ⟨signaled, mine, unique⟩ := held.available ok live kind (allowed.1 ptr named).2
  have token : krnl.tokenOf krnl.currentHandle ≠ 0 :=
    (ok.tokenOf_ne_zero _).mpr (allowed.2.1 ptr named (by rw [krnl.object_eq _ _ live]; exact kind) inFiber)
  have positive : 0 < ptrs.count ptr := List.count_pos_iff.mpr named
  obtain ⟨times, counted⟩ : ∃ times, ptrs.count ptr = times + 1 := ⟨ptrs.count ptr - 1, by omega⟩
  have all : ptrs.filter krnl.acquirable = ptrs :=
    List.filter_eq_self.mpr (fun other _ => by simp [acquirable, XboxKrnl.inFiber, inFiber])
  have part : ((Effect.acquire mode ptrs status).rewrite krnl ptr object).mutant = _ :=
    (congrArg (fun times => (krnl.takeOne^[times] object).mutant) counted).trans
      (krnl.taken_mutant inFiber times object kind)
  have sameToken : ((Effect.acquire mode ptrs status).apply krnl).tokenOf krnl.currentHandle =
      krnl.tokenOf krnl.currentHandle := tokenOf_congr (Effect.registry_apply ok allowed rfl) _
  have holds : ∀ fiber, holdOf ptr initial fiber ((Effect.acquire mode ptrs status).apply krnl).history =
      if krnl.currentHandle = fiber then holdOf ptr initial fiber krnl.history + (times + 1)
      else holdOf ptr initial fiber krnl.history := by
    intro fiber
    rw [history_apply ok allowed]
    simp [Effect.events, holdOf, all, counted]
  refine ⟨?_, ?_, fun fiber positive => ?_⟩
  · rw [part]
    exact fun zero => absurd zero token
  · rw [part]
    refine fun _ => ⟨by simp only; omega, krnl.currentHandle, sameToken, ?_⟩
    rw [holds, if_pos rfl]
    simp only
    omega
  · rw [part]
    rw [holds] at positive
    left
    have same : fiber = krnl.currentHandle := by
      split at positive
      · exact Eq.symm ‹_›
      · exact unique fiber positive
    rw [same]
    exact ⟨token, sameToken⟩

/-- A release of a mutant that is held gives up the hold of its owner. -/
theorem HeldMutant.release (held : krnl.HeldMutant false initial ptr object) (ok : krnl.Ok)
    (allowed : (Effect.releaseMutant ptr).Allowed krnl) (taken : object.mutant.signalState ≤ 0) :
    ((Effect.releaseMutant ptr).apply krnl).HeldMutant false initial ptr
      ((Effect.releaseMutant ptr).rewrite krnl ptr object) := by
  have owner : object.mutant.owner ≠ 0 := fun zero => by
    have free := held.free zero
    omega
  obtain ⟨_, holder, token, bound⟩ := held.owned owner
  have unique : ∀ other, krnl.tokenOf other = object.mutant.owner → other = holder := fun other same =>
    ok.tokenOf_injective (by rw [same]; exact owner) (same.trans token.symm)
  have part : ((Effect.releaseMutant ptr).rewrite krnl ptr object).mutant =
      ⟨object.mutant.signalState + 1, if 0 < object.mutant.signalState + 1 then 0 else object.mutant.owner,
        object.mutant.abandoned⟩ := by
    simp only [Effect.rewrite, Effect.onlyAt, ↓reduceIte]
    split <;> rename_i freed <;> simp [putMutant, clearWaiters, freed]
  have holds : ∀ fiber, holdOf ptr initial fiber ((Effect.releaseMutant ptr).apply krnl).history =
      if 0 < holdOf ptr initial fiber krnl.history then holdOf ptr initial fiber krnl.history - 1
      else holdOf ptr initial fiber krnl.history := by
    intro fiber
    rw [history_apply ok allowed]
    simp [Effect.events, holdOf]
  have sameToken : ((Effect.releaseMutant ptr).apply krnl).tokenOf = krnl.tokenOf :=
    funext (tokenOf_congr (Effect.registry_apply ok allowed rfl))
  refine ⟨?_, ?_, fun fiber positive => ?_⟩
  · rw [part]
    simp only
    split
    · omega
    · exact fun zero => absurd zero owner
  · rw [part]
    simp only
    split
    · exact fun nonzero => absurd rfl nonzero
    · refine fun _ => ⟨by omega, holder, by rw [sameToken]; exact token, ?_⟩
      rw [holds]
      split <;> omega
  · rw [holds] at positive
    rw [part, sameToken]
    have before : 0 < holdOf ptr initial fiber krnl.history := by split at positive <;> omega
    rcases held.holders fiber before with ⟨_, same⟩ | ⟨ending, _⟩
    · left
      obtain rfl := unique fiber same
      rw [if_pos before] at positive
      have more : ¬ 0 < object.mutant.signalState + 1 := by omega
      simp only [if_neg more]
      exact ⟨owner, token⟩
    · cases ending

/-- Abandoning it keeps the account while its owner ends. -/
theorem HeldMutant.abandon (held : krnl.HeldMutant true initial ptr object) (ok : krnl.Ok)
    (allowed : (Effect.abandon ptr).Allowed krnl) (owner : object.mutant.owner ≠ 0)
    (self : object.mutant.owner = krnl.tokenOf krnl.currentHandle) :
    ((Effect.abandon ptr).apply krnl).HeldMutant true initial ptr ((Effect.abandon ptr).rewrite krnl ptr object) := by
  have part : ((Effect.abandon ptr).rewrite krnl ptr object).mutant = ⟨1, 0, true⟩ := by
    simp [Effect.rewrite, Effect.onlyAt, clearWaiters, abandonMutant]
  have history : ((Effect.abandon ptr).apply krnl).history = krnl.history := history_apply ok allowed
  have current := Effect.currentHandle_apply ok allowed (by simp [Effect.label]) rfl
  refine ⟨fun _ => by rw [part], fun owner => absurd (by rw [part]) owner, fun fiber positive => ?_⟩
  rw [history] at positive
  rw [current]
  rcases held.holders fiber positive with ⟨_, token⟩ | ⟨_, here⟩
  · exact Or.inr ⟨rfl, ok.tokenOf_injective (by rw [token]; exact owner) (token.trans self)⟩
  · exact Or.inr ⟨rfl, here⟩

/-- The exit of the running fiber ends what it still held. -/
theorem HeldMutant.exit (held : krnl.HeldMutant true initial ptr object) (ok : krnl.Ok) {code : Int}
    (allowed : (Effect.exit code).Allowed krnl) :
    ((Effect.exit code).apply krnl).HeldMutant false initial ptr object := by
  obtain ⟨fiber, running, _⟩ := allowed.1
  obtain ⟨index, switched, _⟩ := currentFiber_index running
  have history : ((Effect.exit code).apply krnl).history = .finished krnl.currentHandle :: krnl.history := by
    rw [history_apply ok allowed]
    simp [Effect.events, switched]
  have sameToken : ((Effect.exit code).apply krnl).tokenOf = krnl.tokenOf :=
    funext (tokenOf_congr (Effect.registry_apply ok allowed rfl))
  have holds : ∀ other, holdOf ptr initial other ((Effect.exit code).apply krnl).history =
      if krnl.currentHandle = other then 0 else holdOf ptr initial other krnl.history := by
    intro other
    rw [history]
    rfl
  refine ⟨held.free, fun owner => ?_, fun other positive => ?_⟩
  · obtain ⟨signaled, holder, token, bound⟩ := held.owned owner
    refine ⟨signaled, holder, by rw [sameToken]; exact token, ?_⟩
    rw [holds]
    split <;> omega
  · rw [holds] at positive
    split at positive
    · exact absurd positive (lt_irrefl 0)
    · rename_i different
      rcases held.holders other positive with ⟨owner, token⟩ | ⟨_, here⟩
      · exact Or.inl ⟨owner, by rw [sameToken]; exact token⟩
      · exact absurd here.symm different

/-- The account is kept while a fiber ends. -/
theorem HeldMutant.relax (held : krnl.HeldMutant false initial ptr object) :
    krnl.HeldMutant true initial ptr object := by
  refine ⟨held.free, held.owned, fun fiber positive => ?_⟩
  rcases held.holders fiber positive with owner | ⟨ending, _⟩
  · exact Or.inl owner
  · cases ending

/-- A new mutant is free, or its first owner holds it once. -/
theorem HeldMutant.install (recorded : krnl.Recorded) (ok : krnl.Ok) {made : DispatcherObject}
    (allowed : (Effect.install made).Allowed krnl) (kind : made.kind = .mutant)
    (first : initial = if made.mutant.owner = 0 then 0 else krnl.currentHandle) :
    ((Effect.install made).apply krnl).HeldMutant false initial krnl.heap.length
      { made with token := .object krnl.freshAddress } := by
  have unmentioned : ∀ event ∈ krnl.history, krnl.heap.length ∉ event.mentions := fun event member mentioned =>
    absurd (recorded event member _ mentioned) (Nat.lt_irrefl _)
  have history : ((Effect.install made).apply krnl).history = krnl.history := history_apply ok allowed
  rcases (allowed.2.2 kind).2 with ⟨signaled, owner⟩ | ⟨signaled, owner, self⟩
  · rw [if_pos owner] at first
    refine ⟨fun _ => signaled, fun nonzero => absurd owner nonzero, fun fiber positive => ?_⟩
    rw [history] at positive
    exact absurd first ((holdOf_unmentioned unmentioned initial fiber).2 positive).1
  · rw [if_neg owner] at first
    have token := tokenOf_kept ok allowed owner self.symm
    refine ⟨fun zero => absurd zero owner, fun _ => ⟨by simp [signaled], krnl.currentHandle, token, ?_⟩,
      fun fiber positive => ?_⟩
    · rw [history]
      simpa [signaled] using (holdOf_unmentioned unmentioned initial krnl.currentHandle).1
    · rw [history] at positive
      have same := ((holdOf_unmentioned unmentioned initial fiber).2 positive).2
      exact Or.inl ⟨owner, by rw [← same, first]; exact token⟩

end effects

/-! ## All mutants at guest addresses -/

/-- No wait has acquired such a mutant while another fiber held it. -/
def Exclusive (krnl : XboxKrnl) (first : Ptr → Nat) : Prop :=
  ∀ later earlier fiber mode objects status, krnl.history = later ++ .satisfied fiber mode objects status :: earlier →
    ∀ ptr ∈ objects, ∀ object, krnl.InstalledMutant ptr object →
      ∀ other, 0 < holdOf ptr (first ptr) other earlier → other = fiber

/-- The mutants at guest addresses, given their first owners. -/
structure MutantsHeld (krnl : XboxKrnl) (dying : Bool) (first : Ptr → Nat) : Prop where
  recorded : krnl.Recorded
  fresh : ∀ ptr, krnl.heap.length ≤ ptr → first ptr = 0
  each : ∀ ptr object, krnl.InstalledMutant ptr object → krnl.HeldMutant dying (first ptr) ptr object
  exclusive : krnl.Exclusive first

/-- Only a fiber acquires such a mutant. -/
theorem InstalledMutant.acquired {ptr : Ptr} {object : DispatcherObject} (installed : krnl.InstalledMutant ptr object)
    (usable : krnl.acquirable ptr = true) : krnl.currentHandle ≠ 0 := by
  simpa [acquirable, krnl.object_eq _ _ installed.2.1, installed.2.2, inFiber] using usable

/-- An effect keeps the mutants exclusive. -/
theorem Exclusive.effect (exclusive : krnl.Exclusive first) (recorded : krnl.Recorded) (ok : krnl.Ok) {effect : Effect}
    (allowed : effect.Allowed krnl) {later : Ptr → Nat} (kept : ∀ ptr, ptr < krnl.heap.length → later ptr = first ptr)
    (alone : ∀ mode ptrs status, effect = .acquire mode ptrs status → krnl.currentHandle ≠ 0 → ∀ ptr ∈ ptrs,
      ∀ object, krnl.InstalledMutant ptr object → ∀ other, 0 < holdOf ptr (first ptr) other krnl.history →
        other = krnl.currentHandle) : (effect.apply krnl).Exclusive later := by
  intro front earlier fiber mode objects status parts ptr named after installed other holds
  have before : ptr < krnl.heap.length → ∃ object, krnl.InstalledMutant ptr object := by
    intro old
    rcases installedMutant_origin ok allowed installed with ⟨object, before, _⟩ | ⟨_, _, _, rfl, _⟩
    · exact ⟨object, before⟩
    · exact absurd old (Nat.lt_irrefl _)
  have keeps : ∀ recent, krnl.history = recent ++ .satisfied fiber mode objects status :: earlier → other = fiber := by
    intro recent split
    have old : ptr < krnl.heap.length := recorded (.satisfied fiber mode objects status) (by simp [split]) ptr named
    obtain ⟨object, installed⟩ := before old
    rw [kept ptr old] at holds
    exact exclusive recent earlier fiber mode objects status split ptr named object installed other holds
  rw [history_apply ok allowed] at parts
  rcases List.append_eq_append_iff.mp parts with ⟨recent, _, split⟩ | ⟨rest, new, split⟩
  · exact keeps recent split
  · cases rest with
    | nil => exact keeps [] split.symm
    | cons event rest =>
      obtain ⟨rfl, rfl⟩ := List.cons.inj split
      obtain ⟨rfl, rfl, ⟨ptrs, rfl, rfl⟩ | ⟨target, rfl, rfl, rfl, rfl⟩⟩ := satisfied_new new
      · obtain ⟨member, usable⟩ := List.mem_filter.mp named
        obtain ⟨object, live⟩ := (allowed.1 ptr member).1.1
        have old := krnl.object?_inside _ _ live
        obtain ⟨object, installed⟩ := before old
        rw [kept ptr old] at holds
        exact alone mode ptrs status rfl (installed.acquired usable) ptr member object installed other holds
      · obtain rfl := List.mem_singleton.mp named
        obtain ⟨object, live, isEvent⟩ := allowed
        obtain ⟨same, _, again, kind⟩ := before (krnl.object?_inside _ _ live)
        obtain rfl := Option.some.inj (live.symm.trans again)
        rw [isEvent] at kind
        cases kind

/-- An effect that ends no thread, gives up only mutants that are held and makes no new mutant. -/
theorem MutantsHeld.effect (mutants : krnl.MutantsHeld false first) (ok : krnl.Ok) {effect : Effect}
    (allowed : effect.Allowed krnl) (alive : effect.label ∈ aliveLabels)
    (held : ∀ ptr object, effect = .releaseMutant ptr → krnl.InstalledMutant ptr object →
      object.mutant.signalState ≤ 0)
    (makes : ∀ made, effect = .install made → made.kind ≠ .mutant) : (effect.apply krnl).MutantsHeld false first := by
  have lives : effect.label ≠ .ending := fun ending => by simp [ending, aliveLabels] at alive
  have stays : effect.label ≠ .exiting := fun exits => by simp [exits, aliveLabels] at alive
  refine ⟨mutants.recorded.effect ok allowed, fun ptr above => mutants.fresh ptr ((heap_grows ok allowed).trans above),
    fun ptr after installed => ?_, mutants.exclusive.effect mutants.recorded ok allowed (fun _ _ => rfl) ?_⟩
  · rcases installedMutant_origin ok allowed installed with ⟨object, before, rfl⟩ | ⟨made, same, kind, _⟩
    · have here := mutants.each ptr object before
      by_cases acquires : ∃ mode ptrs status, effect = .acquire mode ptrs status ∧ krnl.currentHandle ≠ 0 ∧ ptr ∈ ptrs
      · obtain ⟨mode, ptrs, status, rfl, inFiber, named⟩ := acquires
        exact here.acquire ok allowed before.2.1 before.2.2 inFiber named
      · by_cases releases : effect = .releaseMutant ptr
        · subst releases
          exact here.release ok allowed (held ptr object rfl before)
        · have keeps : ∀ mode ptrs status, effect = .acquire mode ptrs status → krnl.currentHandle ≠ 0 → ptr ∉ ptrs :=
            fun mode ptrs status same inFiber named => acquires ⟨mode, ptrs, status, same, inFiber, named⟩
          have unmentioned := mutant_unmentioned allowed before.2.1 before.2.2 keeps releases
          have same : (effect.rewrite krnl ptr object).mutant = object.mutant :=
            rewrite_mutant before.2.2 keeps releases (by rintro rfl; exact lives rfl)
          exact here.idle ok allowed stays same unmentioned (fun dying => by cases dying)
    · exact absurd kind (makes made same)
  · rintro mode ptrs status rfl inFiber ptr named object installed other holds
    have here := mutants.each ptr object installed
    exact (here.available ok installed.2.1 installed.2.2 (allowed.1 ptr named).2).2.2 other holds

/-- A new mutant has the running fiber as its first owner, or none. -/
theorem MutantsHeld.install (mutants : krnl.MutantsHeld false first) (ok : krnl.Ok) {made : DispatcherObject}
    (allowed : (Effect.install made).Allowed krnl) (kind : made.kind = .mutant) :
    ((Effect.install made).apply krnl).MutantsHeld false
      (Function.update first krnl.heap.length (if made.mutant.owner = 0 then 0 else krnl.currentHandle)) := by
  have kept : ∀ {owner : Nat} ptr, ptr < krnl.heap.length →
      Function.update first krnl.heap.length owner ptr = first ptr :=
    fun ptr old => Function.update_of_ne (Nat.ne_of_lt old) _ _
  refine ⟨mutants.recorded.effect ok allowed, fun ptr above => ?_, fun ptr after installed => ?_,
    mutants.exclusive.effect mutants.recorded ok allowed kept (fun _ _ _ other => by cases other)⟩
  · have size : ((Effect.install made).apply krnl).heap.length = krnl.heap.length + 1 := by
      simp [Effect.apply, allocate]
    rw [size] at above
    rw [Function.update_of_ne (Nat.ne_of_gt above)]
    exact mutants.fresh ptr (Nat.le_of_succ_le above)
  · rcases installedMutant_origin ok allowed installed with ⟨object, before, same⟩ | ⟨_, same, _, rfl, rfl⟩
    · obtain rfl : after = object := same
      rw [kept ptr (krnl.object?_inside _ _ before.2.1)]
      have unmentioned := mutant_unmentioned allowed before.2.1 before.2.2 (fun _ _ _ other => by cases other)
        (fun other => by cases other)
      exact (mutants.each ptr after before).idle ok allowed (by simp [Effect.label]) rfl unmentioned
        (fun dying => by cases dying)
    · cases same
      rw [Function.update_self]
      exact HeldMutant.install mutants.recorded ok allowed kind rfl

/-- An effect of an ending keeps the accounts of all mutants. -/
theorem MutantsHeld.ending (mutants : krnl.MutantsHeld true first) (ok : krnl.Ok) {effect : Effect}
    (allowed : effect.Allowed krnl) (ending : effect.label = .ending) : (effect.apply krnl).MutantsHeld true first := by
  have stays : effect.label ≠ .exiting := by rw [ending]; simp
  have quiet : effect.label ≠ .loop := by rw [ending]; simp
  have noAcquire : ∀ mode ptrs status, effect ≠ .acquire mode ptrs status := by
    rintro mode ptrs status rfl
    cases mode <;> simp [Effect.label] at ending
  refine ⟨mutants.recorded.effect ok allowed, fun ptr above => mutants.fresh ptr ((heap_grows ok allowed).trans above),
    fun ptr after installed => ?_, mutants.exclusive.effect mutants.recorded ok allowed (fun _ _ => rfl)
      (fun mode ptrs status same => absurd same (noAcquire mode ptrs status))⟩
  rcases installedMutant_origin ok allowed installed with ⟨object, before, rfl⟩ | ⟨made, rfl, _⟩
  · have here := mutants.each ptr object before
    by_cases abandons : effect = .abandon ptr
    · subst abandons
      obtain ⟨other, again, _, self, owner⟩ := allowed
      obtain rfl := Option.some.inj (before.2.1.symm.trans again)
      exact here.abandon ok ⟨object, again, before.2.2, self, owner⟩ owner self
    · have keeps : ∀ mode ptrs status, effect = .acquire mode ptrs status → krnl.currentHandle ≠ 0 → ptr ∉ ptrs :=
        fun mode ptrs status same => absurd same (noAcquire mode ptrs status)
      have releases : effect ≠ .releaseMutant ptr := by
        rintro rfl
        cases ending
      have runs : effect.leaves = false := by
        obtain ⟨target, rfl | rfl | rfl⟩ := Effect.label_ending ending <;> rfl
      exact here.idle ok allowed stays (rewrite_mutant before.2.2 keeps releases abandons)
        (mutant_unmentioned allowed before.2.1 before.2.2 keeps releases)
        (fun _ => Effect.currentHandle_apply ok allowed quiet runs)
  · cases ending

/-- The exit closes the ending. -/
theorem MutantsHeld.exit (mutants : krnl.MutantsHeld true first) (ok : krnl.Ok) {code : Int}
    (allowed : (Effect.exit code).Allowed krnl) : ((Effect.exit code).apply krnl).MutantsHeld false first := by
  refine ⟨mutants.recorded.effect ok allowed, fun ptr above => mutants.fresh ptr ((heap_grows ok allowed).trans above),
    fun ptr after installed => ?_, mutants.exclusive.effect mutants.recorded ok allowed (fun _ _ => rfl)
      (fun _ _ _ other => by cases other)⟩
  rcases installedMutant_origin ok allowed installed with ⟨object, before, same⟩ | ⟨_, other, _⟩
  · obtain rfl : after = object := same
    exact (mutants.each ptr after before).exit ok allowed
  · cases other

/-- The accounts are kept while a fiber ends. -/
theorem MutantsHeld.relax (mutants : krnl.MutantsHeld false first) : krnl.MutantsHeld true first :=
  ⟨mutants.recorded, mutants.fresh, fun ptr object installed => (mutants.each ptr object installed).relax,
    mutants.exclusive⟩

end XboxKrnl

end SeriesxEmu
