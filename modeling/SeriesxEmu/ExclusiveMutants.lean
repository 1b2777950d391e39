import SeriesxEmu.KernelMutants
import SeriesxEmu.Words

/-!
# Exclusive use of kernel mutants

Only release calls record a release and only the three initialisers put objects at guest
addresses, so all other code keeps the mutants there as they should be. What is left is a look
at those calls: a release through a handle names another mutant, and `KeReleaseMutant` keeps the
mutant exclusive if it finds it held.
-/

namespace SeriesxEmu

open Scheduler GuestScheduler

/-- What an effect adds to the releases and to the objects at guest addresses. -/
def Effect.mark : Effect → Nat
  | .releaseMutant _ => 1
  | .releaseSemaphore _ _ => 1
  | .install _ => 1
  | _ => 0

/-- The first owner of each mutant at a guest address; zero when there is none. -/
def noteFirst (krnl : XboxKrnl) (action : Action) (next : XboxKrnl) (first : Ptr → Nat) : Ptr → Nat :=
  match action with
  | .call (.keInitializeMutant _ initialOwner) => fun ptr =>
    if initialOwner % 2 = 1 ∧ ptr ∈ next.vaObjects ∧ ptr ∉ krnl.vaObjects then krnl.currentHandle else first ptr
  | _ => first

namespace XboxKrnl

variable {krnl next : XboxKrnl} {first : Ptr → Nat}

/-- The releases and the objects at guest addresses so far. -/
def marks (krnl : XboxKrnl) : Nat := krnl.releases.length + krnl.vaObjects.length

/-- An effect adds as many entries to the mutants' record as it is marked with. -/
theorem marks_apply (ok : krnl.Ok) {effect : Effect} (allowed : effect.Allowed krnl) :
    (effect.apply krnl).marks = krnl.marks + effect.mark := by
  have recorded : (effect.apply krnl).releases = (effect.events krnl).filter Event.isRelease ++ krnl.releases := by
    simp [releases, history_apply ok allowed]
  simp only [marks, recorded, vaObjects_apply ok allowed, List.length_append]
  cases effect with
  | install made =>
    simp only [Effect.events, Effect.mark, List.filter_nil, List.length_nil, List.length_append, List.length_singleton]
    omega
  | create made =>
    simp only [Effect.events, Effect.mark, birth]
    split <;> (try split) <;> simp [Event.isRelease]
  | resumeThread target =>
    simp only [Effect.events, Effect.mark]
    split <;> simp [Event.isRelease]
  | exit code =>
    simp only [Effect.events, Effect.mark]
    split <;> simp [Event.isRelease]
  | releaseMutant | releaseSemaphore =>
    simp only [Effect.events, Effect.mark]
    rw [List.filter_cons_of_pos rfl, List.filter_nil, List.length_singleton]
    omega
  | _ => simp [Effect.events, Effect.mark, Event.isRelease]

/-- The record only grows. -/
theorem marks_path {labels : List Label} (path : Path labels krnl next) (ok : krnl.Ok) : krnl.marks ≤ next.marks := by
  have kept : ∀ (state : XboxKrnl) (effect : Effect), state.Ok → krnl.marks ≤ state.marks → effect.label ∈ labels →
      effect.Allowed state → krnl.marks ≤ (effect.apply state).marks := by
    intro state effect stateOk below _ allowed
    rw [marks_apply stateOk allowed]
    exact Nat.le_add_right_of_le below
  exact path.keeps kept ok le_rfl

/-- Code without routine effects leaves no marks. -/
theorem marks_quiet {labels : List Label} (path : Path labels krnl next) (ok : krnl.Ok) (calm : .routine ∉ labels)
    (fixed : .install ∉ labels) : next.marks = krnl.marks := by
  have kept : ∀ (state : XboxKrnl) (effect : Effect), state.Ok → state.marks = krnl.marks → effect.label ∈ labels →
      effect.Allowed state → (effect.apply state).marks = krnl.marks := by
    intro state effect stateOk same labeled allowed
    have unmarked : effect.mark = 0 := by
      cases effect with
      | releaseMutant | releaseSemaphore => exact absurd labeled calm
      | install => exact absurd labeled fixed
      | _ => rfl
    rw [marks_apply stateOk allowed, unmarked, same]
    rfl
  exact path.keeps kept ok rfl

/-! ## Code that leaves no marks -/

/-- Code that adds nothing to the record leaves the mutants as they are held. -/
theorem MutantsHeld.path {labels : List Label} (mutants : krnl.MutantsHeld false first) (ok : krnl.Ok)
    (path : Path labels krnl next) (alive : ∀ label ∈ labels, label ∈ aliveLabels) (still : next.marks = krnl.marks) :
    next.MutantsHeld false first := by
  induction path with
  | refl => exact mutants
  | tail earlier last inductionHypothesis =>
    obtain ⟨effect, labeled, allowed, rfl⟩ := last
    have middleOk := Path.ok earlier ok
    have before := marks_path earlier ok
    have after := marks_apply middleOk allowed
    have unmarked : effect.mark = 0 := by omega
    refine (inductionHypothesis (by omega)).effect middleOk allowed (alive _ labeled) ?_ ?_
    · rintro ptr object rfl
      cases unmarked
    · rintro made rfl
      cases unmarked

/-- Waiting adds nothing. -/
theorem MutantsHeld.waiting (mutants : krnl.MutantsHeld false first) (ok : krnl.Ok) (path : Path [.waiting] krnl next) :
    next.MutantsHeld false first :=
  mutants.path ok path (by simp [aliveLabels]) (marks_quiet path ok (by simp) (by simp))

/-- A thread that ends gives its mutants up: they become free, and it holds none as it is finished. -/
theorem MutantsHeld.ends (mutants : krnl.MutantsHeld false first) (steady : krnl.Steady) {target : Option Ptr}
    (ends : krnl.Ends target next) : next.MutantsHeld false first := by
  obtain ⟨last, code, path, _, allowed, _, rfl⟩ := steady.ends ends
  have ending : last.MutantsHeld true first :=
    path.keeps (fun state effect stateOk ending labeled allowed =>
      MutantsHeld.ending ending stateOk allowed (List.mem_singleton.mp labeled)) steady.ok mutants.relax
  exact ending.exit (path.ok steady.ok) allowed

/-- Code that ends no thread, or ends it, keeps the mutants held. -/
theorem MutantsHeld.survives (mutants : krnl.MutantsHeld false first) (steady : krnl.Steady)
    (survives : krnl.Survives next) (still : next.marks = krnl.marks) : next.MutantsHeld false first := by
  rcases survives with path | ⟨middle, target, path, running, ends⟩
  · exact mutants.path steady.ok path (fun _ member => member) still
  · have before := marks_path path steady.ok
    have after := marks_path (running.ends_path ends) running.ok
    exact (mutants.path steady.ok path (fun _ member => member) (by omega)).ends running ends

/-! ## Actions that leave no marks -/

/-- Only an initialisation adds an object at a guest address. -/
theorem vaObjects_path {labels : List Label} (path : Path labels krnl next) (ok : krnl.Ok) (fixed : .install ∉ labels) :
    next.vaObjects = krnl.vaObjects := by
  have kept : ∀ (state : XboxKrnl) (effect : Effect), state.Ok → state.vaObjects = krnl.vaObjects →
      effect.label ∈ labels → effect.Allowed state → (effect.apply state).vaObjects = krnl.vaObjects := by
    intro state effect stateOk same labeled allowed
    rw [vaObjects_apply stateOk allowed]
    cases effect with
    | install made => exact absurd labeled fixed
    | _ => exact same
  exact path.keeps kept ok rfl

/-- Code that waits releases nothing. -/
theorem Blocking.releases {point : Option Point} (blocking : krnl.Blocking point next) :
    next.releases = krnl.releases := by
  cases blocking with
  | stays same => exact releases_of_frame same
  | blocks same token ticks spot expected =>
    refine Eq.trans ?_ (releases_of_frame same)
    unfold XboxKrnl.blockCurrent
    split <;> rfl

/-- Neither does a reply. -/
theorem releases_deliver (krnl : XboxKrnl) (reply : Option Reply) : (krnl.deliver reply).releases = krnl.releases :=
  releases_of_frame (krnl.frame_deliver reply)

/-- Without an initialisation and without a release nothing is added. -/
theorem marks_of_releases {labels : List Label} (path : Path labels krnl next) (ok : krnl.Ok) (fixed : .install ∉ labels)
    (releases : next.releases = krnl.releases) : next.marks = krnl.marks := by
  rw [marks, marks, releases, vaObjects_path path ok fixed]

/-- A resumption records no release. -/
theorem Ok.resume_marks (ok : krnl.Ok) {fiber : Fiber} (running : krnl.currentFiber = some fiber)
    (resumed : krnl.resume = some next) : next.marks = krnl.marks := by
  rcases ok.resume_blocking running resumed with ⟨middle, reply, blocking, rfl⟩ | ⟨_, path⟩
  · have path := (ok.resumes_path (ok.resume running resumed)).1
    exact marks_of_releases path ok (by decide) ((releases_deliver middle reply).trans blocking.releases)
  · exact marks_quiet path ok (by decide) (by decide)

/-- A call that neither releases nor installs an object. -/
theorem Steady.call_marks (steady : krnl.Steady) {call : Call} (stepped : krnl.step (.call call) = some next)
    (plain : call.releases = false) (fixed : .install ∉ labelsOf call) : next.marks = krnl.marks := by
  have path := (steady.step stepped).1
  obtain ⟨_, self, rfl⟩ := call_cases stepped
  have same : (krnl.refreshData.exec call).1.releases = krnl.refreshData.releases →
      ((krnl.refreshData.exec call).1.deliver (krnl.refreshData.exec call).2).marks = krnl.marks := by
    intro executed
    refine marks_of_releases path steady.ok (by simp [actionLabels, fixed]) ((releases_deliver _ _).trans ?_)
    exact executed.trans (releases_of_frame krnl.frame_refreshData)
  cases itself : looksItselfUp call with
  | false => exact same (krnl.refreshData.exec_blocking itself plain).releases
  | true =>
    cases call with
    | ntYieldExecution =>
      refine same ?_
      simp only [XboxKrnl.exec, XboxKrnl.ntYieldExecution]
      split <;> rfl
    | psTerminateSystemThread exitStatus =>
      exact marks_quiet path steady.ok (by simp [actionLabels, labelsOf]) (by simp [actionLabels, labelsOf])
    | _ => cases itself

/-- So actions that are not calls add nothing. -/
theorem Steady.action_marks (steady : krnl.Steady) {action : Action} (stepped : krnl.step action = some next)
    (other : ∀ call, action ≠ .call call) : next.marks = krnl.marks := by
  have path := (steady.step stepped).1
  cases action with
  | turn =>
    obtain ⟨idle, ⟨rfl, _⟩ | ⟨fiber, running, resumed⟩⟩ := turn_cases stepped
    · rfl
    · exact (Effect.sound steady.ok .turn idle).resume_marks running resumed
  | call call => exact absurd rfl (other call)
  | run =>
    obtain ⟨_, _, rfl⟩ := run_cases stepped
    rfl
  | finish code => exact marks_quiet path steady.ok (by simp [actionLabels]) (by simp [actionLabels])
  | compute ram filetime => exact marks_quiet path steady.ok (by simp [actionLabels]) (by simp [actionLabels])
  | spawn stackTopReserve region =>
    obtain ⟨_, rfl⟩ := spawn_cases stepped
    rfl
  | sleep ticks =>
    obtain ⟨index, switched, rfl⟩ := Option.map_eq_some_iff.mp stepped
    rfl
  | join target =>
    obtain ⟨index, switched, rfl⟩ := Option.map_eq_some_iff.mp stepped
    rfl

/-! ## Releases -/

/-- The address that `KeReleaseMutant` is given. -/
def keReleases : Action → Option Nat
  | .call (.keReleaseMutant mutant _ _ _) => some mutant
  | _ => none

/-- `KeReleaseMutant` finds its mutant held. -/
def ReleasesHeld (krnl : XboxKrnl) (action : Action) : Prop :=
  ∀ ptr ∈ ((keReleases action).bind (fun va => krnl.ofKind .mutant (krnl.findObjectByVa va))).toList,
    (krnl.object ptr).mutant.signalState ≤ 0

instance (krnl : XboxKrnl) (action : Action) : Decidable (krnl.ReleasesHeld action) :=
  inferInstanceAs (Decidable (∀ _ ∈ _, _))

/-- Guest memory has no part in it. -/
theorem MutantsHeld.written (mutants : krnl.MutantsHeld false first) (ok : krnl.Ok) (ram : XbeRam) :
    ({ krnl with ram } : XboxKrnl).MutantsHeld false first :=
  mutants.waiting ok (memory_path krnl ram (by simp))

/-- A release of a held mutant takes one unit from its owner, whoever calls. -/
theorem MutantsHeld.keReleaseMutant (mutants : krnl.MutantsHeld false first) (steady : krnl.Steady) (va : Nat)
    (held : ∀ ptr ∈ krnl.ofKind .mutant (krnl.findObjectByVa va), (krnl.object ptr).mutant.signalState ≤ 0) :
    (krnl.keReleaseMutant va).1.MutantsHeld false first := by
  unfold XboxKrnl.keReleaseMutant
  split
  · exact mutants
  · rename_i ptr found
    obtain ⟨object, live, kind⟩ := steady.ok.ofKind_live found (Or.inr (Or.inl ⟨va, rfl⟩))
    have located := krnl.findObjectByVa_member va ptr (ofKind_some found).1
    have allowed : (Effect.releaseMutant ptr).Allowed krnl := ⟨object, live, kind, Or.inl located⟩
    refine mutants.effect steady.ok allowed (by simp [Effect.label, aliveLabels]) ?_ (fun _ other => by cases other)
    rintro _ other ⟨⟩ ⟨_, again, _⟩
    have taken := held ptr found
    rwa [krnl.object_eq _ _ again] at taken

/-- A mutant that a handle names is not one at a guest address. -/
theorem MutantsHeld.ntReleaseMutant (mutants : krnl.MutantsHeld false first) (steady : krnl.Steady) (handle out : Nat) :
    (krnl.ntReleaseMutant handle out).1.MutantsHeld false first := by
  unfold XboxKrnl.ntReleaseMutant
  split
  · exact mutants
  · rename_i ptr found
    obtain ⟨object, live, kind⟩ := steady.ok.ofKind_live found (Or.inl ⟨handle, rfl⟩)
    obtain ⟨learns, token, _⟩ := steady.currentThreadToken
    have learned := mutants.waiting steady.ok learns.path
    have tabled := (krnl.findObjectByHandle_table handle ptr (ofKind_some found).1).1
    simp only [krnl.object_eq _ _ live]
    split
    · exact learned
    · rename_i owner
      rw [not_or, not_not] at owner
      have allowed : (Effect.releaseMutant ptr).Allowed krnl.currentThreadToken.1 :=
        ⟨object, learns.live ptr object live, kind, Or.inr ⟨owner.1, by
          rw [learns.handle, owner.2]
          exact token⟩⟩
      have released := learned.effect learns.steady.ok allowed (by simp [Effect.label, aliveLabels])
        (by
          rintro _ other ⟨⟩ ⟨located, _⟩
          rw [learns.vaObjects] at located
          exact absurd tabled ((steady.ok.registry.atAddress ptr located).2 _))
        (fun _ other => by cases other)
      obtain ⟨ram, written⟩ := writeOut_eq ((Effect.releaseMutant ptr).apply krnl.currentThreadToken.1) out
        (uint32 object.mutant.signalState)
      have stored := released.written (Effect.sound learns.steady.ok _ allowed) ram
      rw [← written] at stored
      exact stored

/-- A semaphore is no mutant. -/
theorem MutantsHeld.adjustSemaphore (mutants : krnl.MutantsHeld false first) (steady : krnl.Steady) {found : Option Ptr}
    {word : Nat} {previous : Int}
    (lookup : (∃ handle, found = krnl.findObjectByHandle handle) ∨ ∃ va, found = krnl.findObjectByVa va)
    (adjusted : krnl.adjustSemaphore found word = some (next, previous)) : next.MutantsHeld false first := by
  obtain ⟨ptr, allowed, rfl⟩ := steady.releases lookup adjusted
  exact mutants.effect steady.ok allowed (by simp [Effect.label, aliveLabels]) (fun _ _ other => by cases other)
    (fun _ other => by cases other)

/-! ## New objects at guest addresses -/

/-- Neither is another object that is initialised. -/
theorem MutantsHeld.register (mutants : krnl.MutantsHeld false first) (ok : krnl.Ok) {made : DispatcherObject}
    (newborn : Effect.Newborn krnl made) (kind : made.kind ≠ .mutant) :
    (krnl.registerObject made).MutantsHeld false first := by
  have allowed : (Effect.install made).Allowed krnl := newborn
  have installed := mutants.effect ok allowed (by simp [Effect.label, aliveLabels]) (fun _ _ other => by cases other)
    (by rintro _ ⟨⟩; exact kind)
  exact installed.written (Effect.sound ok _ allowed) _

/-- Nor an event, which may be there already. -/
theorem MutantsHeld.keInitializeEvent (mutants : krnl.MutantsHeld false first) (steady : krnl.Steady)
    (va type state : Nat) : (krnl.keInitializeEvent va type state).1.MutantsHeld false first := by
  unfold XboxKrnl.keInitializeEvent
  split
  · exact mutants
  · split
    · exact mutants
    · split
      · rename_i ptr found
        split
        · exact mutants
        · rename_i kind
          obtain ⟨object, live, _⟩ := live_of_va steady.ok.registry found
          rw [krnl.object_eq _ _ live, not_not] at kind
          have allowed : (Effect.adjust ptr (.reset type (state % 2 == 1))).Allowed krnl :=
            ⟨object, live, kind, krnl.findObjectByVa_member va ptr found⟩
          have stored := mutants.effect steady.ok allowed (by simp [Effect.label, aliveLabels])
            (fun _ _ other => by cases other) (fun _ other => by cases other)
          exact stored.written (Effect.sound steady.ok _ allowed) _
      · exact mutants.register steady.ok ⟨by simp, rfl, by simp⟩ (by simp)

/-- A new mutant is free or held once, by its first owner. -/
theorem MutantsHeld.registerMutant (mutants : krnl.MutantsHeld false first) (ok : krnl.Ok) {made : DispatcherObject}
    (newborn : Effect.Newborn krnl made) (kind : made.kind = .mutant) :
    (krnl.registerObject made).MutantsHeld false
      (Function.update first krnl.heap.length (if made.mutant.owner = 0 then 0 else krnl.currentHandle)) :=
  (mutants.install ok newborn kind).written (Effect.sound ok (.install made) newborn) _

/-- Nothing is noted when no object is new. -/
theorem noteFirst_same {action : Action} (same : next.vaObjects = krnl.vaObjects) :
    noteFirst krnl action next first = first := by
  unfold noteFirst
  split
  · funext ptr
    rw [same, if_neg (fun new => absurd new.2.1 new.2.2)]
  · rfl

/-- The first owner that is noted depends on the caller and the new object only. -/
theorem noteFirst_congr {before after : XboxKrnl} {action : Action} (handle : before.currentHandle = krnl.currentHandle)
    (here : before.vaObjects = krnl.vaObjects) (there : after.vaObjects = next.vaObjects) :
    noteFirst before action after first = noteFirst krnl action next first := by
  unfold noteFirst
  split
  · rw [handle, here, there]
  · rfl

/-- A mutant is initialised, and its first owner noted. -/
theorem MutantsHeld.keInitializeMutant (mutants : krnl.MutantsHeld false first) (steady : krnl.Steady)
    (va initialOwner : Nat) : (krnl.keInitializeMutant va initialOwner).1.MutantsHeld false
      (noteFirst krnl (.call (.keInitializeMutant va initialOwner)) (krnl.keInitializeMutant va initialOwner).1
        first) := by
  unfold XboxKrnl.keInitializeMutant
  split
  · rw [noteFirst_same rfl]
    exact mutants
  · split
    · rename_i owned
      split
      · rw [noteFirst_same rfl]
        exact mutants
      · rename_i inFiber
        obtain ⟨learns, positive, self⟩ := steady.ownToken (by simpa [inFiber_iff] using inFiber)
        have registered := (mutants.waiting steady.ok learns.path).registerMutant learns.steady.ok
          (newMutant_owned krnl.currentThreadToken.1 va krnl.currentThreadToken.2 positive self) rfl
        have owner : (newMutant va (some krnl.currentThreadToken.2)).mutant.owner ≠ 0 := positive
        rw [if_neg owner, learns.handle] at registered
        have located : (krnl.currentThreadToken.1.registerObject
            (newMutant va (some krnl.currentThreadToken.2))).vaObjects =
              krnl.vaObjects ++ [krnl.currentThreadToken.1.heap.length] :=
          congrArg (· ++ [krnl.currentThreadToken.1.heap.length]) learns.vaObjects
        have fresh : krnl.currentThreadToken.1.heap.length ∉ krnl.vaObjects := by
          intro member
          rw [← learns.vaObjects] at member
          obtain ⟨object, live⟩ := learns.steady.ok.live_registered member
          exact absurd (object?_inside _ _ _ live) (Nat.lt_irrefl _)
        have noted : noteFirst krnl (.call (.keInitializeMutant va initialOwner))
            (krnl.currentThreadToken.1.registerObject (newMutant va (some krnl.currentThreadToken.2))) first =
            Function.update first krnl.currentThreadToken.1.heap.length krnl.currentHandle := by
          funext ptr
          simp only [noteFirst, owned, located, List.mem_append, List.mem_singleton, true_and]
          by_cases new : ptr = krnl.currentThreadToken.1.heap.length
          · rw [new, Function.update_self, if_pos ⟨Or.inr rfl, fresh⟩]
          · rw [Function.update_of_ne new, if_neg (by simp [new])]
        rw [noted]
        exact registered
    · rename_i free
      have registered := mutants.registerMutant steady.ok (newMutant_free krnl va) rfl
      have unowned : noteFirst krnl (.call (.keInitializeMutant va initialOwner))
          (krnl.registerObject (newMutant va none)) first = first := by
        funext ptr
        simp [noteFirst, free]
      rw [unowned]
      rwa [Function.update_eq_self_iff.mpr (mutants.fresh krnl.heap.length (Nat.le_refl _)).symm] at registered

/-! ## Whole runs -/

/-- The calls that release keep the mutants held. -/
theorem MutantsHeld.exec_release (mutants : krnl.MutantsHeld false first) (steady : krnl.Steady) {call : Call}
    (releases : call.releases = true) (held : krnl.ReleasesHeld (.call call)) :
    (krnl.exec call).1.MutantsHeld false first := by
  cases call with
  | ntReleaseMutant handle out => exact mutants.ntReleaseMutant steady handle out
  | keReleaseMutant mutant increment abandoned wait =>
    refine mutants.keReleaseMutant steady mutant (fun ptr found => held ptr ?_)
    simpa [keReleases] using found
  | ntReleaseSemaphore handle releaseCount out =>
    simp only [XboxKrnl.exec, returning, XboxKrnl.ntReleaseSemaphore]
    split
    · exact mutants
    · rename_i released previous adjusted
      have counted := mutants.adjustSemaphore steady (Or.inl ⟨handle, rfl⟩) adjusted
      have ok := (steady.adjustSemaphore (Or.inl ⟨handle, rfl⟩) adjusted).ok steady.ok
      obtain ⟨ram, written⟩ := released.writeOut_eq out (uint32 previous)
      rw [written]
      exact counted.written ok ram
  | keReleaseSemaphore semaphore increment adjustment wait =>
    simp only [XboxKrnl.exec, returning, XboxKrnl.keReleaseSemaphore]
    split
    · exact mutants
    · rename_i released previous adjusted
      exact mutants.adjustSemaphore steady (Or.inr ⟨semaphore, rfl⟩) adjusted
  | _ => cases releases

/-- So do the calls that initialise. -/
theorem MutantsHeld.exec_install (mutants : krnl.MutantsHeld false first) (steady : krnl.Steady) {call : Call}
    (installs : .install ∈ labelsOf call) :
    (krnl.exec call).1.MutantsHeld false (noteFirst krnl (.call call) (krnl.exec call).1 first) := by
  cases call with
  | keInitializeEvent event type state => exact mutants.keInitializeEvent steady event type state
  | keInitializeMutant mutant initialOwner => exact mutants.keInitializeMutant steady mutant initialOwner
  | keInitializeSemaphore semaphore count limit =>
    simp only [XboxKrnl.exec, returning, XboxKrnl.keInitializeSemaphore]
    split
    · exact mutants
    · exact mutants.register steady.ok ⟨by simp, rfl, by simp⟩ (by simp)
  | _ => simp [labelsOf] at installs

/-- One action keeps them held, if it releases held mutants only.

Proof: the calls that release and those that initialise are on record; all other code leaves the
record as it is. -/
theorem MutantsHeld.step (mutants : krnl.MutantsHeld false first) (steady : krnl.Steady) {action : Action}
    (held : krnl.ReleasesHeld action) (stepped : krnl.step action = some next) :
    next.MutantsHeld false (noteFirst krnl action next first) := by
  have survives := steady.step_survives stepped
  cases action with
  | call call =>
    obtain ⟨_, self, rfl⟩ := call_cases stepped
    obtain ⟨ram, refreshed⟩ := krnl.refreshData_eq
    have begun := mutants.waiting steady.ok (refreshData_path krnl (by simp))
    have executedOk := (steady.refreshed.exec call self).ok steady.refreshed.ok
    have replied := deliver_path (krnl.refreshData.exec call).1 (krnl.refreshData.exec call).2
    cases releases : call.releases with
    | true =>
      have noted : noteFirst krnl (.call call)
          ((krnl.refreshData.exec call).1.deliver (krnl.refreshData.exec call).2) first = first := by
        cases call <;> first | rfl | cases releases
      rw [noted]
      refine (begun.exec_release steady.refreshed releases ?_).waiting executedOk replied
      rw [refreshed]
      exact held
    | false =>
      by_cases installs : .install ∈ labelsOf call
      · have executed := (begun.exec_install steady.refreshed installs).waiting executedOk replied
        have noted : noteFirst krnl.refreshData (.call call) (krnl.refreshData.exec call).1 first =
            noteFirst krnl (.call call) ((krnl.refreshData.exec call).1.deliver (krnl.refreshData.exec call).2)
              first := by
          refine noteFirst_congr ?_ ?_ (vaObjects_path replied executedOk (by simp)).symm
          · rw [refreshed]
            rfl
          · rw [refreshed]
        rwa [noted] at executed
      · have still := steady.call_marks stepped releases installs
        rw [noteFirst_same (vaObjects_path (steady.step stepped).1 steady.ok (by simp [actionLabels, installs]))]
        exact mutants.survives steady survives still
  | _ => exact mutants.survives steady survives (steady.action_marks stepped (by simp))

/-- Every mutant at a guest address is free or held once at most, and no wait has acquired one
while another fiber held it. -/
def KernelMutantsExclusive (krnl : XboxKrnl) (first : Ptr → Nat) : Prop :=
  (∀ ptr object, krnl.InstalledMutant ptr object → object.mutant.signalState ≤ 1) ∧ krnl.Exclusive first

/-- Mutants that are held so are exclusive. -/
theorem MutantsHeld.exclusive_of (mutants : krnl.MutantsHeld false first) : krnl.KernelMutantsExclusive first := by
  refine ⟨fun ptr object installed => ?_, mutants.exclusive⟩
  have held := mutants.each ptr object installed
  by_cases zero : object.mutant.owner = 0
  · exact (held.free zero).le
  · exact (held.owned zero).1.trans (by decide)

/-- At first there is no mutant. -/
theorem initial_mutantsHeld (ram : XbeRam) (addresses : Nat → Nat) (threadRunner : Bool) (kernelDataVa : Nat) :
    (initial ram addresses threadRunner kernelDataVa).MutantsHeld false (fun _ => 0) := by
  refine ⟨initial_recorded ram addresses threadRunner kernelDataVa, fun _ _ => rfl, fun ptr object installed => ?_, ?_⟩
  · cases installed.1
  · intro later earlier fiber mode objects status parts
    simp [initial] at parts

/-- A fiber that owns a mutant hands it over to one that waits for it. -/
def handsOver : List Action :=
  [.spawn 0 (some 4096), .spawn 0 (some 8192), .run, .turn, .call (.keInitializeMutant 64 1), .sleep 1, .turn,
    .call (.keWaitForSingleObject 64 0 0 0 0), .turn, .turn, .call (.keReleaseMutant 64 0 0 0), .sleep 1, .turn]

/-- A fiber releases a mutant that nobody holds. -/
def releasesFree : List Action :=
  [.spawn 0 (some 4096), .spawn 0 (some 8192), .run, .turn, .call (.keInitializeMutant 64 0),
    .call (.keReleaseMutant 64 0 0 0)]

/-- Then it and another fiber both acquire the mutant. -/
def sharesMutant : List Action :=
  releasesFree ++ ([.call (.keWaitForSingleObject 64 0 0 0 0), .sleep 1, .turn,
    .call (.keWaitForSingleObject 64 0 0 0 0)] : List Action)

end XboxKrnl

end SeriesxEmu
