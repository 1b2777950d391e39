import SeriesxEmu.Histories

/-!
# What a satisfied wait returns

The history records a satisfied wait with its status when the objects are taken, and the reply of
a call when the call returns. The status of a satisfied wait is what the call returns: in the
history of every reachable state the reply to the fiber, with that status, comes directly after
the entry of the wait.
-/

namespace SeriesxEmu

open Scheduler GuestScheduler

/-- The entry of a satisfied wait. -/
def Event.satisfies : Event → Bool
  | .satisfied _ _ _ _ => true
  | _ => false

/-- Directly after every satisfied wait its fiber is returned the status of the wait. The last
entry of the history comes first. -/
def Answered (history : List Event) : Prop :=
  ∀ later earlier fiber mode objects status,
    history = later ++ .satisfied fiber mode objects status :: earlier →
    ∃ rest, later = rest ++ [.returned fiber (waitReply status)]

/-- Entries that are no satisfied waits. -/
theorem Answered.append {history : List Event} (answered : Answered history) (events : List Event)
    (others : ∀ event ∈ events, event.satisfies = false) : Answered (events ++ history) := by
  intro later earlier fiber mode objects status split
  rcases List.append_eq_append_iff.mp split with ⟨between, rfl, old⟩ | ⟨between, rfl, rest⟩
  · obtain ⟨rest, rfl⟩ := answered between earlier fiber mode objects status old
    exact ⟨events ++ rest, (List.append_assoc _ _ _).symm⟩
  · cases between with
    | nil =>
      obtain ⟨rest, none⟩ := answered [] earlier fiber mode objects status rest.symm
      cases rest <;> cases none
    | cons event between =>
      obtain ⟨rfl, _⟩ := List.cons.inj rest
      have other := others (.satisfied fiber mode objects status) (by simp)
      cases other

/-- A satisfied wait and the reply to it. -/
theorem Answered.reply {history : List Event} (answered : Answered history) (fiber : Nat) (mode : WaitMode)
    (objects : List Ptr) (status : Nat) :
    Answered (.returned fiber (waitReply status) :: .satisfied fiber mode objects status :: history) := by
  intro later earlier other otherMode others otherStatus split
  cases later with
  | nil => cases split
  | cons last later =>
    obtain ⟨same, split⟩ := List.cons.inj split
    cases later with
    | nil =>
      cases split
      exact ⟨[], congrArg (· :: []) same.symm⟩
    | cons wait later =>
      obtain ⟨_, old⟩ := List.cons.inj split
      obtain ⟨rest, rfl⟩ := answered later earlier other otherMode others otherStatus old
      exact ⟨_ :: _ :: rest, rfl⟩

namespace XboxKrnl

variable {krnl next : XboxKrnl}

/-! ## The code of a wait -/

/-- The outcome of a wait: nothing is noted down, or the wait was satisfied with the status that it
returns. -/
def Noted (krnl : XboxKrnl) (outcome : XboxKrnl × Option Nat) : Prop :=
  outcome.1.history = krnl.history ∨ ∃ mode objects status, outcome.2 = some status ∧
    outcome.1.history = .satisfied outcome.1.currentHandle mode objects status :: krnl.history

/-- When the reply is delivered, every satisfied wait has been answered. -/
theorem Noted.answers {outcome : XboxKrnl × Option Nat} (noted : krnl.Noted outcome)
    (answered : Answered krnl.history) :
    Answered (outcome.1.deliver (outcome.2.map waitReply)).history := by
  rcases noted with same | ⟨mode, objects, status, returned, satisfied⟩
  · cases replied : outcome.2 with
    | none =>
      simp only [Option.map_none, deliver, same]
      exact answered
    | some status =>
      simp only [Option.map_some, deliver, note, same]
      exact answered.append [_] (by simp [Event.satisfies])
  · simp only [returned, Option.map_some, deliver, note, satisfied]
    exact answered.reply _ mode objects status

/-- What comes before the wait may be any code that puts nothing on record. -/
theorem Noted.of_history {middle : XboxKrnl} {outcome : XboxKrnl × Option Nat} (noted : middle.Noted outcome)
    (same : middle.history = krnl.history) : krnl.Noted outcome := by
  rw [Noted, ← same]
  exact noted

/-- A wait that takes its objects notes down the status that it returns. -/
theorem noteSatisfied_noted {acquired : XboxKrnl} (same : acquired.history = krnl.history) (mode : WaitMode)
    (objects : List Ptr) (status : Nat) : krnl.Noted (acquired.noteSatisfied mode objects status, some status) := by
  refine Or.inr ⟨mode, objects.filter acquired.acquirable, status, rfl, ?_⟩
  rw [← same]
  rfl

/-- An identity is not on record. -/
theorem ensureThreadObject_history (krnl : XboxKrnl) (fiber : Nat) :
    (krnl.ensureThreadObject fiber).1.history = krnl.history := by
  unfold ensureThreadObject
  split <;> rfl

/-- So asking for the own token is not. -/
theorem currentThreadToken_history (krnl : XboxKrnl) : krnl.currentThreadToken.1.history = krnl.history := by
  unfold currentThreadToken
  split
  · rfl
  · exact krnl.ensureThreadObject_history krnl.currentHandle

/-- Neither is looking at an object. -/
theorem dispatcherSatisfied_history (krnl : XboxKrnl) (ptr : Ptr) :
    (krnl.dispatcherSatisfied ptr).1.history = krnl.history := by
  unfold dispatcherSatisfied
  simp only
  split
  · rfl
  · split
    · rfl
    · split
      · exact krnl.currentThreadToken_history
      · rfl
  · rfl
  · rfl

/-- Nor taking one: the wait that takes it is recorded at its end. -/
theorem dispatcherAcquire_history (krnl : XboxKrnl) (ptr : Ptr) :
    (krnl.dispatcherAcquire ptr).1.history = krnl.history := by
  unfold dispatcherAcquire
  simp only
  split
  · split <;> rfl
  · split
    · exact krnl.currentThreadToken_history
    · split <;> exact krnl.currentThreadToken_history
  · rfl
  · rfl

/-- A fiber that blocks is not on record. -/
theorem blockCurrent_history (krnl : XboxKrnl) (token : Token) (ticks : Nat) (point : Point) :
    (krnl.blockCurrent token ticks point).history = krnl.history := by
  unfold blockCurrent
  split <;> rfl

/-- A single wait that is satisfied returns the status that it records. -/
theorem waitDispatch_noted (krnl : XboxKrnl) (ptr : Ptr) (immediate : Bool) (ticks : Nat) :
    krnl.Noted (krnl.waitDispatch ptr immediate ticks) := by
  have checked := krnl.dispatcherSatisfied_history ptr
  unfold waitDispatch
  simp only
  split
  · exact noteSatisfied_noted ((dispatcherAcquire_history _ ptr).trans checked) .single [ptr] _
  · split
    · exact Or.inl checked
    · split
      · exact Or.inl checked
      · exact Or.inl ((blockCurrent_history _ _ _ _).trans checked)

/-- So does one that goes on. -/
theorem resumeDispatch_noted (krnl : XboxKrnl) (ptr : Ptr) (ticks : Nat) (woken : Bool) :
    krnl.Noted (krnl.resumeDispatch ptr ticks woken) := by
  unfold resumeDispatch
  split
  · exact Or.inl rfl
  · split
    · exact noteSatisfied_noted rfl .single [ptr] kStatusSuccess
    · exact krnl.waitDispatch_noted ptr false ticks

/-- A WaitAll looks at its set without a record. -/
theorem allSatisfied_history (krnl : XboxKrnl) (ptrs : List Ptr) :
    (krnl.allSatisfied ptrs).1.history = krnl.history := by
  induction ptrs generalizing krnl with
  | nil => rfl
  | cons ptr rest inductionHypothesis =>
    simp only [allSatisfied]
    split
    · exact (inductionHypothesis _).trans (krnl.dispatcherSatisfied_history ptr)
    · exact krnl.dispatcherSatisfied_history ptr

/-- It takes the set without one. -/
theorem acquireAll_history (krnl : XboxKrnl) (ptrs : List Ptr) (index worst : Nat) :
    (krnl.acquireAll ptrs index worst).1.history = krnl.history := by
  induction ptrs generalizing krnl index worst with
  | nil => rfl
  | cons ptr rest inductionHypothesis =>
    exact (inductionHypothesis _ _ _).trans (krnl.dispatcherAcquire_history ptr)

/-- A WaitAny looks for its object without a record. -/
theorem firstSatisfied_history (krnl : XboxKrnl) (ptrs : List Ptr) (index : Nat) :
    (krnl.firstSatisfied ptrs index).1.history = krnl.history := by
  induction ptrs generalizing krnl index with
  | nil => rfl
  | cons ptr rest inductionHypothesis =>
    simp only [firstSatisfied]
    split
    · exact krnl.dispatcherSatisfied_history ptr
    · exact (inductionHypothesis _ _).trans (krnl.dispatcherSatisfied_history ptr)

/-- The waiter lists are not on record. -/
theorem registerWaiter_history (krnl : XboxKrnl) (token : Token) (ptrs : List Ptr) :
    (registerWaiter token krnl ptrs).history = krnl.history := by
  induction ptrs generalizing krnl with
  | nil => rfl
  | cons ptr rest inductionHypothesis =>
    simp only [registerWaiter]
    refine (inductionHypothesis _).trans ?_
    split <;> exact krnl.dispatcherSatisfied_history ptr

/-- Neither is striking a fiber off them. -/
theorem unregisterWaiter_history (krnl : XboxKrnl) (token : Token) (ptrs : List Ptr) :
    (krnl.unregisterWaiter token ptrs).history = krnl.history := by
  unfold unregisterWaiter
  induction ptrs generalizing krnl with
  | nil => rfl
  | cons ptr rest inductionHypothesis => exact inductionHypothesis (krnl.modify ptr (removeWaiter token))

/-- A multiple wait that cannot be satisfied records nothing. -/
theorem blockMultiple_noted (krnl : XboxKrnl) (ptrs : List Ptr) (waitAll immediate : Bool) (ticks : Nat) :
    krnl.Noted (krnl.blockMultiple ptrs waitAll immediate ticks) := by
  unfold blockMultiple
  split
  · exact Or.inl rfl
  · split
    · exact Or.inl rfl
    · exact Or.inl ((blockCurrent_history _ _ _ _).trans (krnl.registerWaiter_history _ ptrs))

/-- One that is satisfied returns the status that it records. -/
theorem waitMultiple_noted (krnl : XboxKrnl) (ptrs : List Ptr) (waitAll immediate : Bool) (ticks : Nat) :
    krnl.Noted (krnl.waitMultiple ptrs waitAll immediate ticks) := by
  unfold waitMultiple
  split
  · have checked := krnl.allSatisfied_history ptrs
    simp only
    split
    · exact noteSatisfied_noted ((acquireAll_history _ ptrs 0 kStatusSuccess).trans checked) .all ptrs _
    · exact (blockMultiple_noted _ ptrs waitAll immediate ticks).of_history checked
  · have checked := krnl.firstSatisfied_history ptrs 0
    cases found : krnl.firstSatisfied ptrs 0 with
    | mk scanned choice =>
      rw [found] at checked
      cases choice with
      | none => exact (blockMultiple_noted scanned ptrs waitAll immediate ticks).of_history checked
      | some chosen =>
        exact noteSatisfied_noted ((dispatcherAcquire_history scanned chosen.2).trans checked) (.any chosen.1)
          [chosen.2] _

/-- So does one that goes on. -/
theorem resumeMultiple_noted (krnl : XboxKrnl) (ptrs : List Ptr) (waitAll : Bool) (ticks : Nat) (woken : Bool) :
    krnl.Noted (krnl.resumeMultiple ptrs waitAll ticks woken) := by
  have unregistered := krnl.unregisterWaiter_history (.multiWait krnl.currentHandle) ptrs
  unfold resumeMultiple
  simp only
  split
  · exact Or.inl unregistered
  · exact (waitMultiple_noted _ ptrs waitAll false ticks).of_history unregistered

/-! ## Every step -/

/-- Code that is no wait notes down no satisfied wait. -/
theorem answered_path {labels : List Label} (path : Path labels krnl next) (ok : krnl.Ok)
    (plain : ∀ label ∈ labels, label ∉ [.acquiring, .consume, .grant]) (answered : Answered krnl.history) :
    Answered next.history := by
  refine @Path.keeps labels krnl next (fun krnl => Answered krnl.history)
    (fun krnl effect ok answered labeled allowed => ?_) path ok answered
  rw [history_apply ok allowed]
  refine Answered.append answered _ (fun event noted => ?_)
  have other := plain _ labeled
  cases event with
  | satisfied fiber mode objects status =>
    exfalso
    cases effect with
    | acquire mode ptrs status => cases mode <;> simp [Effect.label] at other
    | consume ptr => simp [Effect.label] at other
    | create object =>
      simp only [Effect.events, birth] at noted
      repeat' split at noted
      all_goals simp at noted
    | _ => simp [Effect.events] at noted
  | _ => rfl

/-- The calls for a single wait are answered. -/
theorem waitForSingle_answered (krnl : XboxKrnl) (found : Option Ptr) (timeout : Nat)
    (answered : Answered krnl.history) :
    Answered ((krnl.waitForSingle found timeout).1.deliver (krnl.waitForSingle found timeout).2).history := by
  have rejected : Answered (krnl.deliver (some reject)).history := answered.append [_] (by simp [Event.satisfies])
  unfold waitForSingle
  split
  · exact rejected
  · rename_i ptr
    split
    · exact rejected
    · exact (krnl.waitDispatch_noted ptr _ _).answers answered

/-- So is the call for a multiple wait. -/
theorem ntWaitForMultipleObjectsEx_answered (krnl : XboxKrnl) (count handles waitType timeout : Nat)
    (answered : Answered krnl.history) :
    Answered ((krnl.ntWaitForMultipleObjectsEx count handles waitType timeout).1.deliver
      (krnl.ntWaitForMultipleObjectsEx count handles waitType timeout).2).history := by
  have rejected : Answered (krnl.deliver (some reject)).history := answered.append [_] (by simp [Event.satisfies])
  unfold ntWaitForMultipleObjectsEx
  split
  · exact rejected
  · split
    · exact rejected
    · split
      · exact rejected
      · split
        · exact rejected
        · split
          · exact rejected
          · exact (krnl.waitMultiple_noted _ _ _ _).answers answered

/-- A wait that a fiber was suspended in goes on, or the fiber goes on with something else. -/
theorem Ok.resume_answered (ok : krnl.Ok) {fiber : Fiber} (running : krnl.currentFiber = some fiber)
    (resumed : krnl.resume = some next) (answered : Answered krnl.history) : Answered next.history := by
  have still : Answered (krnl.setPoint .guest).history := by
    unfold setPoint
    split <;> exact answered
  have resumes := ok.resume running resumed
  simp only [XboxKrnl.resume, running] at resumed
  cases point : fiber.ctx.point with
  | waitDispatch ptr ticks =>
    simp only [point] at resumed
    split at resumed
    · cases resumed
    · obtain rfl := Option.some.inj resumed
      exact (resumeDispatch_noted _ ptr ticks _).answers still
  | waitMultiple ptrs waitAll ticks =>
    simp only [point] at resumed
    split at resumed
    · cases resumed
    · obtain rfl := Option.some.inj resumed
      exact (resumeMultiple_noted _ ptrs waitAll ticks _).answers still
  | _ =>
    rcases ok.resumes_cases resumes with path | ⟨middle, _, _, proceeds, waited, path⟩
    · exact answered_path path ok (by simp [proceedLabels]) answered
    · rw [point] at waited
      obtain ⟨last, before, ⟨rfl, _⟩ | ⟨effect, fulfils, _⟩⟩ := waited
      · have first : Path [.entering, .waiting] krnl ((Effect.proceed).apply krnl) :=
          Path.one .proceed (by simp [Effect.label]) proceeds
        have proceeded := answered_path first ok (by simp) answered
        exact answered_path (before.trans path) (first.ok ok) (by simp) proceeded
      · exact fulfils.elim

/-- Every action keeps all satisfied waits answered.

Proof: only a call that waits, or one that goes on waiting, records a satisfied wait, and its reply
is delivered in the same step. -/
theorem Steady.step_answered (steady : krnl.Steady) {action : Action} (stepped : krnl.step action = some next)
    (answered : Answered krnl.history) : Answered next.history := by
  have path := (steady.step stepped).1
  cases action with
  | turn =>
    obtain ⟨idle, outcome⟩ := turn_cases stepped
    have turned : Path [.loop] krnl ((Effect.turn).apply krnl) := Path.one .turn (by simp [Effect.label]) idle
    have still := answered_path turned steady.ok (by simp) answered
    rcases outcome with ⟨rfl, _⟩ | ⟨fiber, running, resumed⟩
    · exact still
    · exact (turned.ok steady.ok).resume_answered running resumed still
  | call call =>
    have refreshed : Answered krnl.refreshData.history :=
      answered_path (@refreshData_path [.waiting] krnl (by simp)) steady.ok (by simp) answered
    cases call with
    | keWaitForSingleObject object reason mode alertable timeout =>
      obtain ⟨_, _, rfl⟩ := call_cases stepped
      exact waitForSingle_answered _ _ timeout refreshed
    | ntWaitForSingleObject handle alertable timeout =>
      obtain ⟨_, _, rfl⟩ := call_cases stepped
      exact waitForSingle_answered _ _ timeout refreshed
    | ntWaitForSingleObjectEx handle mode alertable timeout =>
      obtain ⟨_, _, rfl⟩ := call_cases stepped
      exact waitForSingle_answered _ _ timeout refreshed
    | ntWaitForMultipleObjectsEx count handles waitType mode alertable timeout =>
      obtain ⟨_, _, rfl⟩ := call_cases stepped
      exact ntWaitForMultipleObjectsEx_answered _ count handles waitType timeout refreshed
    | _ => exact answered_path path steady.ok (by simp only [actionLabels, labelsOf]; decide) answered
  | _ => exact answered_path path steady.ok (by simp only [actionLabels]; decide) answered

/-- In every reachable state the waits that were satisfied have returned their status. -/
theorem Reaches.answered {actions : List Action} (reached : krnl.Reaches actions) : Answered krnl.history := by
  refine (reached.invariant ?_ (fun krnl action next steady answered stepped =>
    steady.step_answered stepped answered)).2
  intro ram addresses threadRunner kernelDataVa later earlier fiber mode objects status split
  simp [initial] at split

end XboxKrnl

end SeriesxEmu
