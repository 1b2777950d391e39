import SeriesxEmu.CombinerInputs
import Mathlib.Data.List.Induction
import Mathlib.Tactic.Linarith

/-!
# Ranges of the combiner outputs

A general stage clamps what it writes to `[-1, 1]`, all but the blue products that it
copies to an alpha component: those are neither scaled nor clamped. The final combiner
clamps to `[0, 1]`. The scalars are those of an ordered field.
-/

namespace SeriesxEmu

universe u

open Scalar

/-- The value lies in `[-1, 1]`. -/
def InRange {F : Type u} [Field F] [LinearOrder F] (value : F) : Prop := -1 ≤ value ∧ value ≤ 1

/-! ## Registers of the working set -/

namespace RcRegister

/-- A register that a stage can write. -/
def isTarget (reg : RcRegister) : Bool := reg.isWritableTarget && reg != .zero

end RcRegister

section registers

variable {F : Type u} [Scalar F]

/-- A register of the working set. -/
def Work.register (w : Work F) (reg : RcRegister) : Rgba F :=
  match reg with
  | .primary => w.primary
  | .secondary => w.secondary
  | .tex0 => w.tex 0
  | .tex1 => w.tex 1
  | .tex2 => w.tex 2
  | .tex3 => w.tex 3
  | .spare0 => w.spare0
  | .spare1 => w.spare1
  | _ => fun _ => literal 0

variable {w : Work F} {target reg : RcRegister}

/-- A change of one register shows in that one. -/
theorem Work.register_modify (live : reg.isTarget = true) (change : Rgba F → Rgba F) :
    (w.modify target change).register reg = if target = reg then change (w.register reg) else w.register reg := by
  by_cases same : target = reg
  · subst same
    rw [if_pos rfl]
    cases target <;> first | rfl | cases live
  · rw [if_neg same]
    cases target <;> cases reg <;> first | exact absurd rfl same | rfl

/-- A colour that is written shows in its register. -/
theorem Work.writeRgb_color (live : reg.isTarget = true) (v : Rgb F) (i : Fin 3) :
    (w.writeRgb target v).register reg i.castSucc = if target = reg then v i else w.register reg i.castSucc := by
  rw [writeRgb, register_modify live]
  split
  · match i with
    | 0 | 1 | 2 => rfl
  · rfl

/-- It leaves all alpha components alone. -/
theorem Work.writeRgb_alpha (live : reg.isTarget = true) (v : Rgb F) :
    (w.writeRgb target v).register reg 3 = w.register reg 3 := by
  rw [writeRgb, register_modify live]
  split <;> rfl

/-- An alpha that is written leaves all colours alone. -/
theorem Work.writeAlpha_color (live : reg.isTarget = true) (a : F) (i : Fin 3) :
    (w.writeAlpha target a).register reg i.castSucc = w.register reg i.castSucc := by
  rw [writeAlpha, register_modify live]
  split
  · match i with
    | 0 | 1 | 2 => rfl
  · rfl

/-- It shows in its register. -/
theorem Work.writeAlpha_alpha (live : reg.isTarget = true) (a : F) :
    (w.writeAlpha target a).register reg 3 = if target = reg then a else w.register reg 3 := by
  rw [writeAlpha, register_modify live]
  split <;> rfl

end registers

/-! ## What a stage writes -/

/-- The targets of one portion. -/
def RcOutput.targets (out : RcOutput) : List RcRegister := [out.ab, out.cd, out.sum]

namespace RcStage

/-- A blue product is copied to the alpha component of the register. -/
def CopiesBlue (stage : RcStage) (reg : RcRegister) : Prop :=
  (stage.rgbOut.abBlueToAlpha = true ∧ stage.rgbOut.ab = reg) ∨
    (stage.rgbOut.cdBlueToAlpha = true ∧ stage.rgbOut.cd = reg)

/-- The stage writes the component of the register: the last component is alpha. -/
def Writes (stage : RcStage) (reg : RcRegister) (i : Fin 4) : Prop :=
  reg.isTarget = true ∧
    if i = 3 then reg ∈ stage.alphaOut.targets ∨ stage.CopiesBlue reg else reg ∈ stage.rgbOut.targets

end RcStage

section stages

variable {F : Type u} [Scalar F] {w : Work F} {out : RcOutput} {reg : RcRegister}

/-- What the rgb portion leaves in a colour: the last of the products that is written there. -/
theorem writeRgbPortion_color (live : reg.isTarget = true) (products : RgbProducts F) (i : Fin 3) :
    (writeRgbPortion out products w).register reg i.castSucc =
      if out.sum = reg then scaleScalar (products.sum i) out.scale
      else if out.cd = reg then scaleScalar (products.cd i) out.scale
      else if out.ab = reg then scaleScalar (products.ab i) out.scale
      else w.register reg i.castSucc := by
  -- The copies of the blue products leave the colour alone.
  have copied : ∀ (v : Work F) target (blue : Rgb F),
      (v.writeBlueToAlpha target blue).register reg i.castSucc = v.register reg i.castSucc := by
    intro v target blue
    exact Work.writeAlpha_color live _ i
  unfold writeRgbPortion
  simp only [apply_ite (fun v : Work F => v.register reg i.castSucc), copied, ite_self, Work.writeRgb_color live,
    scaleVec]

/-- What it leaves in an alpha component: a blue that is copied. -/
theorem writeRgbPortion_alpha (live : reg.isTarget = true) (products : RgbProducts F) :
    (writeRgbPortion out products w).register reg 3 =
      if out.cdBlueToAlpha = true ∧ out.cd = reg then products.cd 2
      else if out.abBlueToAlpha = true ∧ out.ab = reg then products.ab 2
      else w.register reg 3 := by
  unfold writeRgbPortion Work.writeBlueToAlpha
  simp only [apply_ite (fun v : Work F => v.register reg 3), Work.writeAlpha_alpha live, Work.writeRgb_alpha live]
  cases out.cdBlueToAlpha <;> cases out.abBlueToAlpha <;>
    simp only [Bool.false_eq_true, if_false, if_true, true_and, false_and]

/-- The alpha portion leaves all colours alone. -/
theorem writeAlphaPortion_color (live : reg.isTarget = true) (products : AlphaProducts F) (i : Fin 3) :
    (writeAlphaPortion out products w).register reg i.castSucc = w.register reg i.castSucc := by
  rw [writeAlphaPortion, Work.writeAlpha_color live, Work.writeAlpha_color live, Work.writeAlpha_color live]

/-- What it leaves in an alpha component: the last of the products that is written there. -/
theorem writeAlphaPortion_alpha (live : reg.isTarget = true) (products : AlphaProducts F) :
    (writeAlphaPortion out products w).register reg 3 =
      if out.sum = reg then scaleScalar products.sum out.scale
      else if out.cd = reg then scaleScalar products.cd out.scale
      else if out.ab = reg then scaleScalar products.ab out.scale
      else w.register reg 3 := by
  rw [writeAlphaPortion, Work.writeAlpha_alpha live, Work.writeAlpha_alpha live, Work.writeAlpha_alpha live]

end stages

/-! ## The range of one stage -/

namespace RcConfig

/-- A stage that runs has passed its checks. -/
theorem validate_stage {config : RcConfig} {s : Fin 8} (valid : config.validate = none)
    (active : s ∈ config.activeStages) : (config.stages s).error? = none := by
  unfold validate at valid
  split at valid
  · cases valid
  · split at valid
    · cases valid
    · cases found : config.activeStages.findSome? (fun t => (config.stages t).error?) with
      | some err =>
        rw [found] at valid
        cases valid
      | none => exact List.findSome?_eq_none_iff.mp found s active

end RcConfig

/-- The rgb targets of a stage that has passed its checks are distinct. -/
theorem RcStage.error?_unique {stage : RcStage} (valid : stage.error? = none) : stage.rgbOut.targetsUnique = true := by
  by_contra shared
  have failed : stage.rgbOut.targetsUnique = false := eq_false_of_ne_true shared
  simp only [error?, failed, Bool.not_false, if_true] at valid
  repeat' split at valid
  all_goals cases valid

section ranges

variable {F : Type u} [Field F] [LinearOrder F]

attribute [local instance] ofOrderedField

/-- The product whose copy becomes an alpha component: a dot product has one value for all components. -/
def blueProduct (dot : Bool) (x y : Rgb F) : F := if dot then x 0 * y 0 + x 1 * y 1 + x 2 * y 2 else x 2 * y 2

/-- A copy to the register stays: the register can be written and the alpha portion does not write
it afterwards. -/
def RcStage.KeepsCopy (stage : RcStage) (reg : RcRegister) : Prop :=
  reg.isTarget = true ∧ reg ∉ stage.alphaOut.targets

/-- Every blue product whose copy stays lies in the range. -/
def BlueFits (config : RcConfig) (inputs : RcInputs F) (s : Fin 8) (w : Work F) : Prop :=
  let stage := config.stages s
  let operand := rgbOperand config inputs s w
  (stage.rgbOut.abBlueToAlpha = true → stage.KeepsCopy stage.rgbOut.ab →
    InRange (blueProduct stage.rgbOut.abDot (operand 0) (operand 1))) ∧
  (stage.rgbOut.cdBlueToAlpha = true → stage.KeepsCopy stage.rgbOut.cd →
    InRange (blueProduct stage.rgbOut.cdDot (operand 2) (operand 3)))

variable {config : RcConfig} {inputs : RcInputs F} {s : Fin 8} {w : Work F} {reg : RcRegister}

/-- The blue of a product is that of its operands, or their dot product. -/
theorem rgbProducts_blue (out : RcOutput) (spare0Alpha : F) (operand : Fin 4 → Rgb F) :
    (rgbProducts out spare0Alpha operand).ab 2 = blueProduct out.abDot (operand 0) (operand 1) ∧
      (rgbProducts out spare0Alpha operand).cd 2 = blueProduct out.cdDot (operand 2) (operand 3) := by
  unfold rgbProducts blueProduct
  constructor
  · cases out.abDot <;> rfl
  · cases out.cdDot <;> rfl

/-- What a stage leaves in the alpha component of a register. -/
theorem runStage_alpha (live : reg.isTarget = true) :
    (runStage config inputs w s).register reg 3 =
      let stage := config.stages s
      let operand := rgbOperand config inputs s w
      let alpha := alphaProducts stage.alphaOut (w.spare0 3) (alphaOperand config inputs s w)
      if stage.alphaOut.sum = reg then scaleScalar alpha.sum stage.alphaOut.scale
      else if stage.alphaOut.cd = reg then scaleScalar alpha.cd stage.alphaOut.scale
      else if stage.alphaOut.ab = reg then scaleScalar alpha.ab stage.alphaOut.scale
      else if stage.rgbOut.cdBlueToAlpha = true ∧ stage.rgbOut.cd = reg then
        blueProduct stage.rgbOut.cdDot (operand 2) (operand 3)
      else if stage.rgbOut.abBlueToAlpha = true ∧ stage.rgbOut.ab = reg then
        blueProduct stage.rgbOut.abDot (operand 0) (operand 1)
      else w.register reg 3 := by
  have blue := rgbProducts_blue (config.stages s).rgbOut (w.spare0 3) (rgbOperand config inputs s w)
  rw [runStage, writeAlphaPortion_alpha live, writeRgbPortion_alpha live, blue.1, blue.2]

/-- A register that is no target is written by none of the three. -/
theorem not_targets {out : RcOutput} :
    reg ∉ out.targets ↔ out.ab ≠ reg ∧ out.cd ≠ reg ∧ out.sum ≠ reg := by
  simp only [RcOutput.targets, List.mem_cons, List.not_mem_nil, or_false, not_or, ne_eq]
  exact and_congr ne_comm (and_congr ne_comm ne_comm)

variable [IsStrictOrderedRing F]

/-- The clamp of the output scales. -/
theorem scaleScalar_inRange (x : F) (scale : RcOutputScale) : InRange (scaleScalar x scale) := by
  have one : (0 : F) ≤ 1 := zero_le_one
  have ordered : (-1 : F) ≤ 1 := (neg_nonpos.mpr one).trans one
  have bounds : ∀ y : F, -1 ≤ clamp y (-literal 1) (literal 1) ∧ clamp y (-literal 1) (literal 1) ≤ 1 := by
    intro y
    have clamped := clamp_bounds ordered y
    simpa only [literal_eq, Rat.cast_one] using clamped
  exact bounds _

/-- The last of the scaled writes of a portion is in range. -/
theorem lastWrite_inRange {out : RcOutput} (written : reg ∈ out.targets) (ab cd sum old : F) :
    InRange (if out.sum = reg then scaleScalar sum out.scale
      else if out.cd = reg then scaleScalar cd out.scale
      else if out.ab = reg then scaleScalar ab out.scale else old) := by
  split
  · exact scaleScalar_inRange _ _
  · rename_i notSum
    split
    · exact scaleScalar_inRange _ _
    · rename_i notCd
      split
      · exact scaleScalar_inRange _ _
      · rename_i notAb
        exact absurd written (not_targets.mpr ⟨notAb, notCd, notSum⟩)

/-- A colour that a stage writes is scaled into the range. -/
theorem runStage_color_inRange (live : reg.isTarget = true) (written : reg ∈ (config.stages s).rgbOut.targets)
    (i : Fin 3) : InRange ((runStage config inputs w s).register reg i.castSucc) := by
  rw [runStage, writeAlphaPortion_color live, writeRgbPortion_color live]
  exact lastWrite_inRange written _ _ _ _

/-- So is an alpha, but for a blue that is copied, which must fit. -/
theorem runStage_alpha_inRange (live : reg.isTarget = true) (fits : BlueFits config inputs s w)
    (written : reg ∈ (config.stages s).alphaOut.targets ∨ (config.stages s).CopiesBlue reg) :
    InRange ((runStage config inputs w s).register reg 3) := by
  rw [runStage_alpha live]
  by_cases alpha : reg ∈ (config.stages s).alphaOut.targets
  · -- The last write is one of the alpha portion.
    exact lastWrite_inRange alpha _ _ _ _
  · obtain ⟨notAb, notCd, notSum⟩ := not_targets.mp alpha
    have copies := written.resolve_left alpha
    simp only [if_neg notSum, if_neg notCd, if_neg notAb]
    split
    · rename_i cd
      exact fits.2 cd.1 ⟨cd.2 ▸ live, cd.2 ▸ alpha⟩
    · rename_i notCopyCd
      have ab := copies.resolve_right notCopyCd
      rw [if_pos ab]
      exact fits.1 ab.1 ⟨ab.2 ▸ live, ab.2 ▸ alpha⟩

/-- What a stage writes lies in the range if the blue products fit. -/
theorem runStage_writes_inRange (fits : BlueFits config inputs s w) {i : Fin 4}
    (written : (config.stages s).Writes reg i) : InRange ((runStage config inputs w s).register reg i) := by
  obtain ⟨live, target⟩ := written
  induction i using Fin.lastCases with
  | last => exact runStage_alpha_inRange live fits target
  | cast i =>
    have color : i.castSucc ≠ 3 := Fin.castSucc_ne_last i
    rw [if_neg color] at target
    exact runStage_color_inRange live target i

omit [IsStrictOrderedRing F] in
/-- What a stage does not write stays as it is. -/
theorem runStage_unwritten (live : reg.isTarget = true) {i : Fin 4} (kept : ¬ (config.stages s).Writes reg i) :
    (runStage config inputs w s).register reg i = w.register reg i := by
  have unwritten := fun target => kept ⟨live, target⟩
  induction i using Fin.lastCases with
  | last =>
    obtain ⟨alpha, copies⟩ := not_or.mp unwritten
    obtain ⟨notAb, notCd, notSum⟩ := not_targets.mp alpha
    obtain ⟨copyAb, copyCd⟩ := not_or.mp copies
    change (runStage config inputs w s).register reg 3 = w.register reg 3
    rw [runStage_alpha live]
    simp only [if_neg notSum, if_neg notCd, if_neg notAb, if_neg copyCd, if_neg copyAb]
  | cast i =>
    have color : i.castSucc ≠ 3 := Fin.castSucc_ne_last i
    rw [if_neg color] at unwritten
    obtain ⟨notAb, notCd, notSum⟩ := not_targets.mp unwritten
    rw [runStage, writeAlphaPortion_color live, writeRgbPortion_color live, if_neg notSum, if_neg notCd, if_neg notAb]

/-! ## The range of a run -/

/-- Every register that a stage can write lies in the range. -/
def Work.InRange (w : Work F) : Prop :=
  ∀ reg : RcRegister, reg.isTarget = true → ∀ i, SeriesxEmu.InRange (w.register reg i)

/-- A stage whose copies fit keeps the working set in the range. -/
theorem runStage_inRange (fits : BlueFits config inputs s w) (start : w.InRange) :
    (runStage config inputs w s).InRange := by
  intro reg live i
  by_cases written : (config.stages s).Writes reg i
  · exact runStage_writes_inRange fits written
  · rw [runStage_unwritten live written]
    exact start reg live i

/-- The range is an invariant of the stages if every blue product on the way fits. -/
theorem runStages_inRange (fits : ∀ s w, config.Reaches inputs s w → BlueFits config inputs s w)
    (start : inputs.work.InRange) {early late : List (Fin 8)} (split : config.activeStages = early ++ late) :
    (runStages config inputs early).InRange := by
  induction early using List.reverseRecOn generalizing late with
  | nil => exact start
  | append_singleton before s inductionHypothesis =>
    rw [List.append_assoc, List.singleton_append] at split
    have reached : config.Reaches inputs s (runStages config inputs before) := ⟨before, late, split, rfl⟩
    have step := runStage_inRange (fits s _ reached) (inductionHypothesis split)
    rwa [runStages, List.foldl_append]

/-- The final colour is clamped. -/
theorem finalColor_bounds (final : RcFinal) (w : Work F) (i : Fin 4) :
    0 ≤ finalColor final inputs w i ∧ finalColor final inputs w i ≤ 1 := by
  have bounds : ∀ y : F, 0 ≤ clamp y (literal 0) (literal 1) ∧ clamp y (literal 0) (literal 1) ≤ 1 := by
    intro y
    simpa only [literal_eq, Rat.cast_zero, Rat.cast_one] using clamp_bounds (zero_le_one : (0 : F) ≤ 1) y
  match i with
  | 0 | 1 | 2 | 3 => exact bounds _

/-- The colour lies in `[0, 1]`, whatever the stages leave and also after an error. -/
theorem rcEvaluate_bounds (config : RcConfig) (inputs : RcInputs F) (i : Fin 4) :
    0 ≤ (rcEvaluate config inputs).rgba i ∧ (rcEvaluate config inputs).rgba i ≤ 1 := by
  have zero : (0 : F) ≤ literal 0 ∧ (literal 0 : F) ≤ 1 := by
    rw [literal_eq, Rat.cast_zero]
    exact ⟨le_refl 0, zero_le_one⟩
  unfold rcEvaluate
  cases config.validate with
  | some err => exact zero
  | none =>
    simp only
    split
    · exact zero
    · exact finalColor_bounds _ _ i

/-- What a stage of the run writes lies in the range, inputs in the range keep the working set in
the range after any number of stages, and the colour lies in `[0, 1]`. -/
structure StaysInRange (config : RcConfig) (inputs : RcInputs F) : Prop where
  writes : ∀ s w, config.Reaches inputs s w → ∀ reg i, (config.stages s).Writes reg i →
    InRange ((runStage config inputs w s).register reg i)
  stages : inputs.work.InRange → ∀ early late, config.activeStages = early ++ late →
    (runStages config inputs early).InRange
  color : ∀ i, 0 ≤ (rcEvaluate config inputs).rgba i ∧ (rcEvaluate config inputs).rgba i ≤ 1

omit [IsStrictOrderedRing F] in
/-- A copy that stays is what the stage leaves. -/
theorem blueFits_of_writes (unique : (config.stages s).rgbOut.targetsUnique = true)
    (writes : ∀ reg i, (config.stages s).Writes reg i → InRange ((runStage config inputs w s).register reg i)) :
    BlueFits config inputs s w := by
  constructor
  · intro copied keeps
    obtain ⟨notAb, notCd, notSum⟩ := not_targets.mp keeps.2
    have apart : ¬ ((config.stages s).rgbOut.cdBlueToAlpha = true ∧
        (config.stages s).rgbOut.cd = (config.stages s).rgbOut.ab) := by
      rintro ⟨-, same⟩
      have live := keeps.1
      simp only [RcOutput.targetsUnique, same, bne_self_eq_false, Bool.or_false] at unique
      simp only [Bool.and_eq_true, beq_iff_eq] at unique
      rw [unique.1.1] at live
      cases live
    have value := writes _ 3 ⟨keeps.1, Or.inr (Or.inl ⟨copied, rfl⟩)⟩
    rw [runStage_alpha keeps.1] at value
    simpa only [if_neg notSum, if_neg notCd, if_neg notAb, if_neg apart, copied, true_and, if_true] using value
  · intro copied keeps
    obtain ⟨notAb, notCd, notSum⟩ := not_targets.mp keeps.2
    have value := writes _ 3 ⟨keeps.1, Or.inr (Or.inr ⟨copied, rfl⟩)⟩
    rw [runStage_alpha keeps.1] at value
    simpa only [if_neg notSum, if_neg notCd, if_neg notAb, copied, true_and, if_true] using value

/-- **Combiner ranges.** A valid configuration stays in range if and only if every blue product
whose copy stays lies in the range, in every stage that the run comes to.

Proof: every write is scaled and clamped, but for the blue product that is copied to the alpha. A
run composes its stages, each of which keeps the range. -/
theorem combiner_ranges_iff (config : RcConfig) (inputs : RcInputs F) (valid : config.validate = none) :
    StaysInRange config inputs ↔ ∀ s w, config.Reaches inputs s w → BlueFits config inputs s w := by
  constructor
  · intro stays s w reached
    have ⟨early, late, split, _⟩ := reached
    have active : s ∈ config.activeStages := split ▸ List.mem_append_right early (List.mem_cons_self ..)
    have unique := RcStage.error?_unique (RcConfig.validate_stage valid active)
    exact blueFits_of_writes unique (stays.writes s w reached)
  · intro fits
    exact ⟨fun s w reached reg i written => runStage_writes_inRange (fits s w reached) written,
      fun start early late split => runStages_inRange fits start split, rcEvaluate_bounds config inputs⟩

/-! ## Copies that always fit -/

/-- The registers, the fog and the constants lie in the range. -/
structure RcInputs.InRange (inputs : RcInputs F) : Prop where
  work : inputs.work.InRange
  fog : ∀ i, SeriesxEmu.InRange (inputs.fog i)
  const0 : ∀ c i, SeriesxEmu.InRange (inputs.const0 c i)
  const1 : ∀ c i, SeriesxEmu.InRange (inputs.const1 c i)

/-- A product of values in the range is in it. -/
theorem InRange.mul {x y : F} (first : InRange x) (second : InRange y) : InRange (x * y) := by
  have bound : |x * y| ≤ 1 := by
    rw [abs_mul]
    exact mul_le_one₀ (abs_le.mpr first) (abs_nonneg y) (abs_le.mpr second)
  exact abs_le.mp bound

/-- So is zero. -/
theorem inRange_zero : InRange (literal 0 : F) := by
  have one : (0 : F) ≤ 1 := zero_le_one
  rw [literal_eq, Rat.cast_zero]
  exact ⟨neg_nonpos.mpr one, one⟩

/-- No mapping leaves the range. -/
theorem rcMap_inRange (mapping : RcMapping) {e : F} (fits : InRange e) : InRange (rcMap mapping e) := by
  obtain ⟨low, high⟩ := fits
  have one : (0 : F) < 1 := zero_lt_one
  have positive : 0 ≤ Scalar.max (literal 0) e ∧ Scalar.max (literal 0) e ≤ 1 := by
    rw [Scalar.max_eq, literal_eq, Rat.cast_zero]
    exact ⟨le_sup_left, sup_le one.le high⟩
  have clipped : 0 ≤ Scalar.min (Scalar.max e (literal 0)) (literal 1) ∧
      Scalar.min (Scalar.max e (literal 0)) (literal 1) ≤ 1 := by
    rw [Scalar.min_eq, Scalar.max_eq, literal_eq, literal_eq, Rat.cast_zero, Rat.cast_one]
    exact ⟨le_inf le_sup_right one.le, inf_le_right⟩
  have half : (literal 0.5 : F) = 1 / 2 := by
    rw [literal_eq]
    norm_num
  have two : (literal 2 : F) = 2 := by
    rw [literal_eq]
    norm_num
  have unit : (literal 1 : F) = 1 := by rw [literal_eq, Rat.cast_one]
  unfold InRange
  cases mapping with
  | signedIdentity | other => exact ⟨low, high⟩
  | signedNegate => exact ⟨neg_le_neg high, neg_le.mp low⟩
  | _ =>
    simp only [rcMap, half, two, unit] at *
    constructor <;> linarith

/-- So is what a stage loads. -/
theorem loadValue_inRange (range : inputs.InRange) (start : w.InRange) (cidx0 cidx1 : Fin 9) (reg : RcRegister)
    (i : Fin 4) : InRange (loadValue inputs w cidx0 cidx1 reg i) := by
  cases reg with
  | const0 => exact range.const0 _ _
  | const1 => exact range.const1 _ _
  | fog => exact range.fog _
  | zero | v1R0Sum | efProduct | other => exact inRange_zero
  | primary => exact start .primary rfl i
  | secondary => exact start .secondary rfl i
  | tex0 => exact start .tex0 rfl i
  | tex1 => exact start .tex1 rfl i
  | tex2 => exact start .tex2 rfl i
  | tex3 => exact start .tex3 rfl i
  | spare0 => exact start .spare0 rfl i
  | spare1 => exact start .spare1 rfl i

/-- So is a mapped operand. -/
theorem rgbOperand_inRange (range : inputs.InRange) (start : w.InRange) (i : Fin 4) (component : Fin 3) :
    InRange (rgbOperand config inputs s w i component) := by
  unfold rgbOperand rgbOf
  split
  · exact rcMap_inRange _ (loadValue_inRange range start _ _ _ _)
  · exact rcMap_inRange _ (loadValue_inRange range start _ _ _ _)

/-- A stage copies no dot product: the copies of its other products fit. -/
def RcStage.DotStays (stage : RcStage) : Prop :=
  (stage.rgbOut.abBlueToAlpha = true → stage.rgbOut.abDot = false) ∧
    (stage.rgbOut.cdBlueToAlpha = true → stage.rgbOut.cdDot = false)

/-- A product that is copied always fits; a dot product may not. -/
theorem RcStage.DotStays.fits (stays : (config.stages s).DotStays) (range : inputs.InRange) (start : w.InRange) :
    BlueFits config inputs s w := by
  constructor
  · intro copied _
    rw [blueProduct, stays.1 copied]
    exact (rgbOperand_inRange range start 0 2).mul (rgbOperand_inRange range start 1 2)
  · intro copied _
    rw [blueProduct, stays.2 copied]
    exact (rgbOperand_inRange range start 2 2).mul (rgbOperand_inRange range start 3 2)

end ranges

/-- One stage that stores the dot product of the diffuse colour with itself and copies its blue component. -/
def copiesDot : RcConfig :=
  { numStages := 1
    stages := fun _ =>
      { rgb := fun i => if i < 2 then { reg := .primary } else {}
        rgbOut := { ab := .spare0, abDot := true, abBlueToAlpha := true } } }

/-- The alpha component of the target is three. -/
theorem copiesDot_escapes : ¬ ∀ (F : Type) [Field F] [LinearOrder F] [IsStrictOrderedRing F] (config : RcConfig)
    (inputs : RcInputs F), config.validate = none → StaysInRange config inputs := by
  intro always
  have stays := (always ℚ copiesDot whiteDiffuse (by decide)).writes 0 whiteDiffuse.work ⟨[], [], by decide, rfl⟩
  have written := stays .spare0 3 ⟨by decide, Or.inr (Or.inl ⟨rfl, rfl⟩)⟩
  exact absurd written.2 (by decide +kernel)

/-- The same stage with the product of each component. -/
def copiesProduct : RcConfig :=
  { numStages := 1
    stages := fun _ =>
      { rgb := fun i => if i < 2 then { reg := .primary } else {}
        rgbOut := { ab := .spare0, abBlueToAlpha := true } } }

/-- A stage that copies the blue of a product stays in the range from the start on. -/
theorem copiesProduct_inRange : copiesProduct.validate = none ∧ StaysInRange copiesProduct whiteDiffuse := by
  have valid : copiesProduct.validate = none := by decide
  refine ⟨valid, (combiner_ranges_iff copiesProduct whiteDiffuse valid).mpr ?_⟩
  rintro s w ⟨early, late, split, rfl⟩
  have only : [0] = early ++ s :: late := split
  cases early with
  | nil =>
    cases only
    refine ⟨fun _ _ => ?_, nofun⟩
    constructor <;> decide +kernel
  | cons first rest =>
    have short := congrArg List.length only
    simp only [List.length_cons, List.length_append, List.length_nil] at short
    omega

end SeriesxEmu
