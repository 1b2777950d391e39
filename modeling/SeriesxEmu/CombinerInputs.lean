import SeriesxEmu.Combiners
import Mathlib.Tactic.Common

/-!
# What the alpha portion reads

A stage loads the registers that its rgb selectors name, and both portions compute with
them: the alpha selectors only choose the component and the mapping. The alpha portion
reads its own inputs as long as this makes no difference.
-/

namespace SeriesxEmu

universe u

open Scalar

variable {F : Type u} [Scalar F] {config : RcConfig} {inputs : RcInputs F} {s : Fin 8} {w : Work F}

/-- A run of the general stages comes to the stage with the working set. -/
def RcConfig.Reaches (config : RcConfig) (inputs : RcInputs F) (s : Fin 8) (w : Work F) : Prop :=
  ∃ early late, config.activeStages = early ++ s :: late ∧ runStages config inputs early = w

/-- The register that an alpha selector names, at the start of the stage. -/
def ownAlpha (config : RcConfig) (inputs : RcInputs F) (s : Fin 8) (w : Work F) (i : Fin 4) : Rgba F :=
  loadValue inputs w (RcConfig.constIndex config.uniqueConst0 s) (RcConfig.constIndex config.uniqueConst1 s)
    ((config.stages s).alpha i).reg

/-- The operands of the alpha portion are the components of the registers that its selectors name. -/
def ReadsOwnAlpha (config : RcConfig) (inputs : RcInputs F) (s : Fin 8) (w : Work F) : Prop :=
  ∀ i, alphaOperand config inputs s w i = alphaOf ((config.stages s).alpha i) (ownAlpha config inputs s w i)

/-- Where the two portions name different registers, the alpha selector takes both to the same value. -/
def AlphaAligned (config : RcConfig) (inputs : RcInputs F) (s : Fin 8) (w : Work F) : Prop :=
  ∀ i, ((config.stages s).rgb i).reg ≠ ((config.stages s).alpha i).reg →
    alphaOf ((config.stages s).alpha i) (loadOperand config inputs s w i) =
      alphaOf ((config.stages s).alpha i) (ownAlpha config inputs s w i)

/-- The alpha products of a stage. -/
def stageAlpha (config : RcConfig) (inputs : RcInputs F) (s : Fin 8) (w : Work F) : AlphaProducts F :=
  alphaProducts (config.stages s).alphaOut (w.spare0 3) (alphaOperand config inputs s w)

/-- The same configuration with other rgb selectors in one stage. -/
def RcConfig.withRgb (config : RcConfig) (s : Fin 8) (rgb : Fin 4 → RcInput) : RcConfig :=
  { config with stages := Function.update config.stages s { config.stages s with rgb } }

/-- A stage reads its own alpha in one working set exactly when the operands align. -/
theorem readsOwnAlpha_iff : ReadsOwnAlpha config inputs s w ↔ AlphaAligned config inputs s w := by
  constructor
  · intro reads i _
    exact reads i
  · intro aligned i
    by_cases same : ((config.stages s).rgb i).reg = ((config.stages s).alpha i).reg
    · rw [alphaOperand, loadOperand, ownAlpha, same]
    · exact aligned i same

/-- Stages that read their own alpha inputs and differ in their rgb selectors have the same alpha products. -/
theorem ReadsOwnAlpha.products {rgb : Fin 4 → RcInput} (reads : ReadsOwnAlpha config inputs s w)
    (others : ReadsOwnAlpha (config.withRgb s rgb) inputs s w) :
    stageAlpha (config.withRgb s rgb) inputs s w = stageAlpha config inputs s w := by
  have stage : (config.withRgb s rgb).stages s = { config.stages s with rgb } := Function.update_self _ _ _
  have operands : alphaOperand (config.withRgb s rgb) inputs s w = alphaOperand config inputs s w := by
    funext i
    rw [reads i, others i, ownAlpha, ownAlpha, stage]
    rfl
  rw [stageAlpha, stageAlpha, operands, stage]

/-! ## In every working set -/

namespace RcRegister

/-- The register reads as zero whatever the working set and the constants hold. -/
def isDead : RcRegister → Bool
  | zero | v1R0Sum | efProduct | other _ => true
  | _ => false

end RcRegister

/-- Registers and constants that hold one value each. -/
def flatInputs (value : RcRegister → F) : RcInputs F where
  primary := fun _ => value .primary
  secondary := fun _ => value .secondary
  fog := fun _ => value .fog
  tex := ![fun _ => value .tex0, fun _ => value .tex1, fun _ => value .tex2, fun _ => value .tex3]
  const0 := fun _ _ => value .const0
  const1 := fun _ _ => value .const1
  spare0 := fun _ => value .spare0
  spare1 := fun _ => value .spare1

/-- A working set with flat registers loads the value of the register on every channel. -/
theorem loadValue_flat (value : RcRegister → F) (cidx0 cidx1 : Fin 9) (reg : RcRegister) :
    loadValue (flatInputs value) (flatInputs value).work cidx0 cidx1 reg =
      fun _ => if reg.isDead then literal 0 else value reg := by
  cases reg <;> rfl

/-- The alpha of a flat value is the mapped value. -/
theorem alphaOf_flat (input : RcInput) (value : F) : alphaOf input (fun _ => value) = rcMap input.mapping value := by
  unfold alphaOf
  split <;> rfl

/-- The two portions of the stage name the same registers, or ones that read as zero. -/
def SelectsAlike (config : RcConfig) (s : Fin 8) : Prop :=
  ∀ i, ((config.stages s).rgb i).reg = ((config.stages s).alpha i).reg ∨
    (((config.stages s).rgb i).reg.isDead = true ∧ ((config.stages s).alpha i).reg.isDead = true)

instance (config : RcConfig) (s : Fin 8) : Decidable (SelectsAlike config s) :=
  inferInstanceAs (Decidable (∀ _, _ ∨ (_ ∧ _)))

/-- No mapping is constant. -/
def Separates (F : Type u) [Scalar F] : Prop := ∀ mapping, ∃ x y : F, rcMap mapping x ≠ rcMap mapping y

/-- Where no mapping is constant, a stage reads its own alpha inputs from every working set if and
only if its selectors are alike.

Proof: when they are not, one of the two registers is live and the other holds something else, and
some value of the live one is told apart by the mapping. -/
theorem readsOwnAlpha_always_iff (mapped : Separates F) (config : RcConfig) (s : Fin 8) :
    (∀ (inputs : RcInputs F) (w : Work F), ReadsOwnAlpha config inputs s w) ↔ SelectsAlike config s := by
  constructor
  · intro reads i
    by_contra differ
    obtain ⟨distinct, live⟩ := not_or.mp differ
    generalize first : ((config.stages s).rgb i).reg = loaded at distinct live
    generalize second : ((config.stages s).alpha i).reg = named at distinct live
    -- Two values that the mapping separates, one of them in a register that is live.
    have separated : ∃ value : RcRegister → F, rcMap ((config.stages s).alpha i).mapping
        (if loaded.isDead then literal 0 else value loaded) ≠ rcMap ((config.stages s).alpha i).mapping
          (if named.isDead then literal 0 else value named) := by
      obtain ⟨x, y, apart⟩ := mapped ((config.stages s).alpha i).mapping
      have other : ∀ z : F, ∃ t, rcMap ((config.stages s).alpha i).mapping t ≠
          rcMap ((config.stages s).alpha i).mapping z := by
        intro z
        by_cases same : rcMap ((config.stages s).alpha i).mapping x = rcMap ((config.stages s).alpha i).mapping z
        · exact ⟨y, fun equal => apart (same.trans equal.symm)⟩
        · exact ⟨x, same⟩
      by_cases deadLoaded : loaded.isDead = true
      · have liveNamed : ¬ named.isDead = true := fun dead => live ⟨deadLoaded, dead⟩
        obtain ⟨t, differs⟩ := other (literal 0)
        refine ⟨fun _ => t, ?_⟩
        rw [if_pos deadLoaded, if_neg liveNamed]
        exact fun same => differs same.symm
      · obtain ⟨t, differs⟩ := other (if named.isDead then literal 0 else x)
        refine ⟨fun reg => if reg = loaded then t else x, ?_⟩
        have elsewhere : named ≠ loaded := fun same => distinct same.symm
        rw [if_neg deadLoaded]
        simp only [↓reduceIte, elsewhere]
        exact differs
    obtain ⟨value, differs⟩ := separated
    have own := reads (flatInputs value) (flatInputs value).work i
    rw [alphaOperand, loadOperand, ownAlpha, loadValue_flat, loadValue_flat, alphaOf_flat, alphaOf_flat, first,
      second] at own
    exact differs own
  · intro same inputs w i
    rcases same i with equal | ⟨deadLoaded, deadNamed⟩
    · rw [alphaOperand, loadOperand, ownAlpha, equal]
    · have zero : ∀ reg : RcRegister, reg.isDead = true → ∀ cidx0 cidx1, loadValue inputs w cidx0 cidx1 reg =
          fun _ => literal 0 := by
        intro reg dead cidx0 cidx1
        cases reg <;> first | rfl | cases dead
      rw [alphaOperand, loadOperand, ownAlpha, zero _ deadLoaded, zero _ deadNamed]

/-! ## In every run -/

/-- **Alpha inputs.** In every stage of a run the alpha portion reads its own inputs if and only if
the two portions are aligned there; and stages that are aligned and differ only in their rgb
selectors compute the same alpha products from the same working set. Whatever the inputs and the
working set are, a stage reads its own inputs if and only if its two portions select the same
registers, or ones that read as zero.

Proof: the stage reads the selectors of its rgb portion for its alpha portion. On one working set
these agree where the values do, on all of them where the selectors do. -/
theorem alpha_inputs_iff (config : RcConfig) (inputs : RcInputs F) :
    ((∀ s w, config.Reaches inputs s w → ReadsOwnAlpha config inputs s w) ↔
      ∀ s w, config.Reaches inputs s w → AlphaAligned config inputs s w) ∧
    (∀ s w rgb, AlphaAligned config inputs s w → AlphaAligned (config.withRgb s rgb) inputs s w →
      stageAlpha (config.withRgb s rgb) inputs s w = stageAlpha config inputs s w) ∧
    (Separates F → ∀ s, (∀ (others : RcInputs F) (w : Work F), ReadsOwnAlpha config others s w) ↔
      SelectsAlike config s) := by
  refine ⟨?_, fun s w rgb aligned others => ?_, fun separates s => readsOwnAlpha_always_iff separates config s⟩
  · exact forall_congr' (fun s => forall_congr' (fun w => imp_congr_right (fun _ => readsOwnAlpha_iff)))
  · exact (readsOwnAlpha_iff.mpr aligned).products (readsOwnAlpha_iff.mpr others)

/-- The rationals separate the mappings. -/
theorem separates_rat : @Separates ℚ (ofOrderedField ℚ) := by
  intro mapping
  refine ⟨0, 1, ?_⟩
  cases mapping with
  | other value => exact (by decide : (0 : ℚ) ≠ 1)
  | _ => decide +kernel

/-- One stage that multiplies the alpha of the diffuse colour with itself; its rgb portion is idle. -/
def squaresAlpha : RcConfig :=
  { numStages := 1
    stages := fun _ =>
      { alpha := fun i => if i < 2 then { reg := .primary, channel := .alpha } else {}, alphaOut := { ab := .spare0 } } }

/-- The same with rgb selectors for the same registers. -/
def squaresBoth : RcConfig := squaresAlpha.withRgb 0 fun i => if i < 2 then { reg := .primary } else {}

/-- The diffuse colour is one, everything else is zero. -/
def whiteDiffuse : RcInputs ℚ where
  primary := fun _ => 1
  secondary := fun _ => 0
  fog := fun _ => 0
  tex := fun _ _ => 0
  const0 := fun _ _ => 0
  const1 := fun _ _ => 0
  spare0 := fun _ => 0
  spare1 := fun _ => 0

/-- Its stage reads its own alpha inputs from every working set, and the other one's does not. -/
theorem squaresBoth_reads :
    (∀ (inputs : RcInputs ℚ) w, @ReadsOwnAlpha ℚ (ofOrderedField ℚ) squaresBoth inputs 0 w) ∧
      ¬ ∀ (inputs : RcInputs ℚ) w, @ReadsOwnAlpha ℚ (ofOrderedField ℚ) squaresAlpha inputs 0 w := by
  let _ := ofOrderedField ℚ
  constructor
  · exact ((alpha_inputs_iff squaresBoth whiteDiffuse).2.2 separates_rat 0).mpr (by decide)
  · exact mt ((alpha_inputs_iff squaresAlpha whiteDiffuse).2.2 separates_rat 0).mp (by decide)

/-- The alpha portion reads the zero register of the rgb portion. -/
theorem squaresAlpha_misreads : ¬ ∀ (F : Type) [Scalar F] (config : RcConfig) (inputs : RcInputs F),
    config.validate = none → ∀ s w, config.Reaches inputs s w → ReadsOwnAlpha config inputs s w := by
  intro always
  let _ := ofOrderedField ℚ
  have reads := always ℚ squaresAlpha whiteDiffuse (by decide) 0 whiteDiffuse.work ⟨[], [], by decide, rfl⟩ 0
  exact absurd reads (by decide +kernel)

end SeriesxEmu
