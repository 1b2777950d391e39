import Mathlib.Logic.Basic

/-!
# Live cells of a straight program

A state gives values to cells; an instruction reads some cells and writes some. The cells that are live in
front of a program are found from its end: a cell is live when the next instruction reads it, or when it is
live behind that instruction and not written by it. Two states with the same live cells run alike. A cell
that no instruction writes keeps its value.
-/

namespace SeriesxEmu.Liveness

universe u v w

/-! ## Results that match -/

section results

variable {α β γ δ : Type u} {ε : Type u} {holds later : α → β → Prop} {alike : ε → ε → Prop}

/-- Both computations have a value, and the values are related; or both stop alike. -/
inductive Matches (holds : α → β → Prop) (alike : ε → ε → Prop) : Except ε α → Except ε β → Prop where
  | ok {left : α} {right : β} (related : holds left right) : Matches holds alike (.ok left) (.ok right)
  | stop {left right : ε} (related : alike left right) : Matches holds alike (.error left) (.error right)

variable {left : Except ε α} {right : Except ε β}

/-- Results that match under a relation match under a weaker one. -/
theorem Matches.mono (matched : Matches holds alike left right) (weaker : ∀ a b, holds a b → later a b) :
    Matches later alike left right := by
  cases matched with
  | ok related => exact .ok (weaker _ _ related)
  | stop related => exact .stop related

/-- Results that match go on to match. -/
theorem Matches.bind {next : γ → δ → Prop} {first : α → Except ε γ} {second : β → Except ε δ}
    (matched : Matches holds alike left right)
    (continued : ∀ a b, holds a b → Matches next alike (first a) (second b)) :
    Matches next alike (left >>= first) (right >>= second) := by
  cases matched with
  | ok related => exact continued _ _ related
  | stop related => exact .stop related

end results

/-! ## Cells -/

variable {κ ι : Type} {β : Type v} {σ ε : Type u} {value : σ → κ → β} {alike : ε → ε → Prop}
  {cells others writes : κ → Bool} {left right leftNext rightNext : σ}

/-- The two states have the same values in these cells. -/
def Agree (value : σ → κ → β) (cells : κ → Bool) (left right : σ) : Prop :=
  ∀ cell, cells cell = true → value left cell = value right cell

/-- A state agrees with itself. -/
theorem Agree.refl (value : σ → κ → β) (cells : κ → Bool) (state : σ) : Agree value cells state state :=
  fun _ _ => rfl

/-- Agreement passes on. -/
theorem Agree.trans {middle : σ} (first : Agree value cells left middle) (second : Agree value cells middle right) :
    Agree value cells left right :=
  fun cell inside => (first cell inside).trans (second cell inside)

/-- States that agree on some cells agree on fewer. -/
theorem Agree.mono (agree : Agree value cells left right) (fewer : ∀ cell, others cell = true → cells cell = true) :
    Agree value others left right :=
  fun cell inside => agree cell (fewer cell inside)

/-- The same values are assigned to some cells of both states. -/
theorem Agree.assign {fresh : κ → β} (agree : Agree value cells left right)
    (leftValue : ∀ cell, value leftNext cell = if writes cell then fresh cell else value left cell)
    (rightValue : ∀ cell, value rightNext cell = if writes cell then fresh cell else value right cell) :
    Agree value (fun cell => cells cell || writes cell) leftNext rightNext := by
  intro cell inside
  rw [leftValue, rightValue]
  cases written : writes cell with
  | true => rfl
  | false => exact agree cell (by simpa [written] using inside)

/-! ## Programs -/

variable {run : ι → σ → Except ε σ} {reads written : ι → κ → Bool}

/-- What an instruction leaves in the cells it writes is settled by the cells it reads. -/
def Needs (value : σ → κ → β) (alike : ε → ε → Prop) (run : σ → Except ε σ) (reads writes : κ → Bool) : Prop :=
  ∀ cells left right, (∀ cell, reads cell = true → cells cell = true) → Agree value cells left right →
    Matches (Agree value (fun cell => cells cell || writes cell)) alike (run left) (run right)

/-- An instruction leaves the cells alone that it does not write. -/
def Confined (value : σ → κ → β) (run : σ → Except ε σ) (writes : κ → Bool) : Prop :=
  ∀ state next, run state = .ok next → Agree value (fun cell => !writes cell) state next

/-- One instruction after the other. -/
def runAll (run : ι → σ → Except ε σ) : List ι → σ → Except ε σ
  | [], state => .ok state
  | instruction :: rest, state => run instruction state >>= runAll run rest

/-- The cells that are live in front of a program, given those that are live behind it. -/
def liveIn (reads written : ι → κ → Bool) : List ι → (κ → Bool) → κ → Bool
  | [], live => live
  | instruction :: rest, live => fun cell =>
    reads instruction cell || (liveIn reads written rest live cell && !written instruction cell)

/-- States that agree on the live cells run alike, and agree on what is live behind the program. -/
theorem live_run {program : List ι}
    (needs : ∀ instruction ∈ program, Needs value alike (run instruction) (reads instruction) (written instruction))
    {live : κ → Bool} (agree : Agree value (liveIn reads written program live) left right) :
    Matches (Agree value live) alike (runAll run program left) (runAll run program right) := by
  induction program generalizing left right with
  | nil => exact .ok agree
  | cons instruction rest inductionHypothesis =>
    have first := needs instruction List.mem_cons_self _ left right
      (fun cell read => by simp only [liveIn, read, Bool.true_or]) agree
    refine first.bind (fun leftNext rightNext next => ?_)
    refine inductionHypothesis (fun other member => needs other (List.mem_cons_of_mem _ member)) (next.mono ?_)
    intro cell inside
    cases overwritten : written instruction cell <;> simp [liveIn, inside, overwritten]

/-- A program leaves the cells alone that none of its instructions writes. -/
theorem confined_run {program : List ι}
    (confined : ∀ instruction ∈ program, Confined value (run instruction) (written instruction)) {final : σ}
    (completed : runAll run program left = .ok final) :
    Agree value (fun cell => program.all (fun instruction => !written instruction cell)) left final := by
  induction program generalizing left with
  | nil =>
    cases completed
    exact Agree.refl value _ _
  | cons instruction rest inductionHypothesis =>
    rw [runAll] at completed
    cases first : run instruction left with
    | error stop =>
      rw [first] at completed
      cases completed
    | ok next =>
      rw [first] at completed
      have here := confined instruction List.mem_cons_self left next first
      have behind := inductionHypothesis (fun other member => confined other (List.mem_cons_of_mem _ member)) completed
      intro cell untouched
      simp only [List.all_cons, Bool.and_eq_true] at untouched
      exact (here cell untouched.1).trans (behind cell untouched.2)

end SeriesxEmu.Liveness
