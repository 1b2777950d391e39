import SeriesxEmu.Scalars
import Mathlib.Data.Fin.VecNotation
import Mathlib.Data.List.FinRange

/-!
# Register combiners

The combiner chain runs up to eight general stages over a working set of registers and
then the final combiner. An enumeration has a fixed underlying type in the source, so it
also has values that are none of its enumerators. The scalars are a parameter.
-/

namespace SeriesxEmu

universe u

open Scalar

/-- A register that a stage or the final combiner names. The last two exist in the final combiner
only, and a selector may hold any other byte. -/
inductive RcRegister where
  | zero | const0 | const1 | fog | primary | secondary | tex0 | tex1 | tex2 | tex3 | spare0 | spare1
  | v1R0Sum | efProduct
  | other (value : UInt8)
deriving DecidableEq, Repr

/-- How an input is mapped before it is used. -/
inductive RcMapping where
  | unsignedIdentity | unsignedInvert | expandNormal | expandNegate | halfBiasNormal | halfBiasNegate
  | signedIdentity | signedNegate
  | other (value : UInt8)
deriving DecidableEq, Repr

/-- Which channel of a register an input takes. -/
inductive RcChannel where
  | rgb | alpha
  | other (value : UInt8)
deriving DecidableEq, Repr

/-- How an output is scaled. -/
inductive RcOutputScale where
  | identity | bias | shiftLeft1 | shiftLeft1Bias | shiftLeft2 | shiftRight1
  | other (value : UInt8)
deriving DecidableEq, Repr

/-- Which bit of `spare0.alpha` a mux would look at. -/
inductive RcMuxMode where
  | msb | lsb
  | other (value : UInt8)
deriving DecidableEq, Repr

/-- One input: a register, a channel and a mapping. -/
structure RcInput where
  reg : RcRegister := .zero
  channel : RcChannel := .rgb
  mapping : RcMapping := .unsignedIdentity
deriving DecidableEq, Repr

/-- The outputs of one portion: three targets, a scale, and what is done to the products. -/
structure RcOutput where
  ab : RcRegister := .zero
  cd : RcRegister := .zero
  sum : RcRegister := .zero
  scale : RcOutputScale := .identity
  abDot : Bool := false
  cdDot : Bool := false
  muxSum : Bool := false
  abBlueToAlpha : Bool := false
  cdBlueToAlpha : Bool := false
deriving DecidableEq, Repr

/-- The operands of both portions are A, B, C and D. -/
structure RcStage where
  rgb : Fin 4 → RcInput := fun _ => {}
  alpha : Fin 4 → RcInput := fun _ => {}
  rgbOut : RcOutput := {}
  alphaOut : RcOutput := {}

/-- The operands are A to G. -/
structure RcFinal where
  input : Fin 7 → RcInput := fun _ => {}
  clampSum : Bool := false
  complementV1 : Bool := false
  complementR0 : Bool := false

/-- A configuration of the combiners. -/
structure RcConfig where
  numStages : Nat := 0
  mux : RcMuxMode := .msb
  uniqueConst0 : Bool := false
  uniqueConst1 : Bool := false
  stages : Fin 8 → RcStage := fun _ => {}
  final : RcFinal := {}

/-- Three components. -/
abbrev Rgb (F : Type u) := Fin 3 → F

/-- Four components, with alpha as the last. -/
abbrev Rgba (F : Type u) := Fin 4 → F

/-- What a fragment brings: its colours and textures, and the constants of all stages. -/
structure RcInputs (F : Type u) where
  primary : Rgba F
  secondary : Rgba F
  fog : Rgba F
  tex : Fin 4 → Rgba F
  const0 : Fin 9 → Rgba F
  const1 : Fin 9 → Rgba F
  spare0 : Rgba F
  spare1 : Rgba F

/-- What the combiners return. -/
structure RcResult (F : Type u) where
  rgba : Rgba F
  ok : Bool := false
  error : String := ""

/-- The registers that flow from stage to stage. -/
structure Work (F : Type u) where
  primary : Rgba F
  secondary : Rgba F
  spare0 : Rgba F
  spare1 : Rgba F
  tex : Fin 4 → Rgba F

/-! ## Validation -/

namespace RcRegister

/-- `is_writable_target`. -/
def isWritableTarget : RcRegister → Bool
  | zero | primary | secondary | spare0 | spare1 | tex0 | tex1 | tex2 | tex3 => true
  | _ => false

/-- `is_pseudo`. -/
def isPseudo : RcRegister → Bool
  | v1R0Sum | efProduct => true
  | _ => false

end RcRegister

namespace RcOutput

/-- All three targets can be written. -/
def writable (out : RcOutput) : Bool :=
  out.ab.isWritableTarget && out.cd.isWritableTarget && out.sum.isWritableTarget

/-- `targets_unique`. -/
def targetsUnique (out : RcOutput) : Bool :=
  (out.ab == .zero || out.ab != out.cd) && (out.ab == .zero || out.ab != out.sum) &&
    (out.cd == .zero || out.cd != out.sum)

end RcOutput

/-- The checks of `validate` on one stage: the first that fails. -/
def RcStage.error? (stage : RcStage) : Option String :=
  if (List.finRange 4).any (fun i => (stage.rgb i).reg.isPseudo) then
    some "pseudo register is only valid in the final combiner"
  else if (List.finRange 4).any (fun i => (stage.alpha i).reg.isPseudo) then
    some "pseudo register is only valid in the final combiner"
  else if !stage.rgbOut.writable then some "combiner output targets a non-writable register"
  else if !stage.rgbOut.targetsUnique then some "combiner outputs must target unique registers"
  else if !stage.alphaOut.writable then some "combiner output targets a non-writable register"
  else if !stage.alphaOut.targetsUnique then some "combiner outputs must target unique registers"
  else if stage.alphaOut.abDot || stage.alphaOut.cdDot then
    some "dot product is valid only for the RGB combiner portion"
  else none

/-- The checks of `validate` on the final combiner. -/
def RcFinal.error? (final : RcFinal) : Option String :=
  if (List.finRange 7).any (fun i => (final.input i).mapping != .unsignedIdentity &&
      (final.input i).mapping != .unsignedInvert) then
    some "final combiner allows only unsigned identity/invert mappings"
  else if (final.input 4).reg.isPseudo || (final.input 5).reg.isPseudo || (final.input 6).reg.isPseudo then
    some "final combiner E/F/G cannot be a pseudo register"
  else if (final.input 0).reg == .v1R0Sum then some "final combiner A cannot be the V1+Spare0 sum"
  else none

namespace RcConfig

/-- The stages that run, in their order. -/
def activeStages (config : RcConfig) : List (Fin 8) := (List.finRange 8).take config.numStages

/-- `validate`: the error, if there is one. -/
def validate (config : RcConfig) : Option String :=
  if 8 < config.numStages then some "too many combiner stages"
  else if config.mux ≠ .msb then some "NV2A MUX LSB mode is not reverse-engineered"
  else
    match config.activeStages.findSome? (fun s => (config.stages s).error?) with
    | some err => some err
    | none => config.final.error?

end RcConfig

section evaluation

variable {F : Type u} [Scalar F]

/-! ## Inputs -/

/-- `load_value`. -/
def loadValue (inputs : RcInputs F) (w : Work F) (cidx0 cidx1 : Fin 9) : RcRegister → Rgba F
  | .zero => fun _ => literal 0
  | .const0 => inputs.const0 cidx0
  | .const1 => inputs.const1 cidx1
  | .fog => inputs.fog
  | .primary => w.primary
  | .secondary => w.secondary
  | .tex0 => w.tex 0
  | .tex1 => w.tex 1
  | .tex2 => w.tex 2
  | .tex3 => w.tex 3
  | .spare0 => w.spare0
  | .spare1 => w.spare1
  | .v1R0Sum | .efProduct | .other _ => fun _ => literal 0

/-- `rc_map`. -/
def rcMap (mapping : RcMapping) (e : F) : F :=
  match mapping with
  | .unsignedIdentity => Scalar.max (literal 0) e
  | .unsignedInvert => literal 1 - Scalar.min (Scalar.max e (literal 0)) (literal 1)
  | .expandNormal => literal 2 * Scalar.max (literal 0) e - literal 1
  | .expandNegate => -literal 2 * Scalar.max (literal 0) e + literal 1
  | .halfBiasNormal => Scalar.max (literal 0) e - literal 0.5
  | .halfBiasNegate => -Scalar.max (literal 0) e + literal 0.5
  | .signedIdentity => e
  | .signedNegate => -e
  | .other _ => e

/-- `rgb_of`. -/
def rgbOf (input : RcInput) (v : Rgba F) : Rgb F :=
  if input.channel = .rgb then fun i => rcMap input.mapping (v i.castSucc) else fun _ => rcMap input.mapping (v 3)

/-- `alpha_of`. -/
def alphaOf (input : RcInput) (v : Rgba F) : F :=
  rcMap input.mapping (if input.channel = .alpha then v 3 else v 2)

/-! ## Outputs -/

/-- `scale_scalar`. -/
def scaleScalar (x : F) (scale : RcOutputScale) : F :=
  let y := match scale with
    | .identity => x
    | .bias => x - literal 0.5
    | .shiftLeft1 => x * literal 2
    | .shiftLeft1Bias => (x - literal 0.5) * literal 2
    | .shiftLeft2 => x * literal 4
    | .shiftRight1 => x * literal 0.5
    | .other _ => x
  clamp y (-literal 1) (literal 1)

/-- `scale_vec`. -/
def scaleVec (v : Rgb F) (scale : RcOutputScale) : Rgb F := fun i => scaleScalar (v i) scale

/-- Change the register that `target_ptr` points to, if there is one. -/
def Work.modify (w : Work F) (target : RcRegister) (change : Rgba F → Rgba F) : Work F :=
  match target with
  | .primary => { w with primary := change w.primary }
  | .secondary => { w with secondary := change w.secondary }
  | .spare0 => { w with spare0 := change w.spare0 }
  | .spare1 => { w with spare1 := change w.spare1 }
  | .tex0 => { w with tex := Function.update w.tex 0 (change (w.tex 0)) }
  | .tex1 => { w with tex := Function.update w.tex 1 (change (w.tex 1)) }
  | .tex2 => { w with tex := Function.update w.tex 2 (change (w.tex 2)) }
  | .tex3 => { w with tex := Function.update w.tex 3 (change (w.tex 3)) }
  | _ => w

/-- `write_rgb`. -/
def Work.writeRgb (w : Work F) (target : RcRegister) (v : Rgb F) : Work F :=
  w.modify target (fun old => ![v 0, v 1, v 2, old 3])

/-- `write_alpha`. -/
def Work.writeAlpha (w : Work F) (target : RcRegister) (a : F) : Work F :=
  w.modify target (fun old => ![old 0, old 1, old 2, a])

/-- `write_blue_to_alpha`. -/
def Work.writeBlueToAlpha (w : Work F) (target : RcRegister) (v : Rgb F) : Work F := w.writeAlpha target (v 2)

/-! ## General stages -/

/-- The dot product, in all three components. -/
def dot3 (x y : Rgb F) : Rgb F := fun _ => x 0 * y 0 + x 1 * y 1 + x 2 * y 2

/-- The product by components. -/
def mul3 (x y : Rgb F) : Rgb F := fun i => x i * y i

/-- The sum by components. -/
def add3 (x y : Rgb F) : Rgb F := fun i => x i + y i

/-- The rgb products of a stage. -/
structure RgbProducts (F : Type u) where
  ab : Rgb F
  cd : Rgb F
  sum : Rgb F

/-- The alpha products of a stage. -/
structure AlphaProducts (F : Type u) where
  ab : F
  cd : F
  sum : F

/-- The products of the rgb portion. The mux looks at the alpha of `spare0`. -/
def rgbProducts (out : RcOutput) (spare0Alpha : F) (operand : Fin 4 → Rgb F) : RgbProducts F :=
  let ab := if out.abDot then dot3 (operand 0) (operand 1) else mul3 (operand 0) (operand 1)
  let cd := if out.cdDot then dot3 (operand 2) (operand 3) else mul3 (operand 2) (operand 3)
  { ab, cd, sum := if out.muxSum then (if atLeast spare0Alpha (literal 0.5) then cd else ab) else add3 ab cd }

/-- Those of the alpha portion. -/
def alphaProducts (out : RcOutput) (spare0Alpha : F) (operand : Fin 4 → F) : AlphaProducts F :=
  let ab := operand 0 * operand 1
  let cd := operand 2 * operand 3
  { ab, cd, sum := if out.muxSum then (if atLeast spare0Alpha (literal 0.5) then cd else ab) else ab + cd }

/-- The constants a stage reads. -/
def RcConfig.constIndex (unique : Bool) (s : Fin 8) : Fin 9 := if unique then s.castSucc else 0

/-- The values that a stage loads: those of the registers that the rgb portion names. -/
def loadOperand (config : RcConfig) (inputs : RcInputs F) (s : Fin 8) (w : Work F) (i : Fin 4) : Rgba F :=
  loadValue inputs w (RcConfig.constIndex config.uniqueConst0 s) (RcConfig.constIndex config.uniqueConst1 s)
    ((config.stages s).rgb i).reg

/-- The operands of the rgb portion. -/
def rgbOperand (config : RcConfig) (inputs : RcInputs F) (s : Fin 8) (w : Work F) (i : Fin 4) : Rgb F :=
  rgbOf ((config.stages s).rgb i) (loadOperand config inputs s w i)

/-- The operands of the alpha portion. -/
def alphaOperand (config : RcConfig) (inputs : RcInputs F) (s : Fin 8) (w : Work F) (i : Fin 4) : F :=
  alphaOf ((config.stages s).alpha i) (loadOperand config inputs s w i)

/-- The writes of the rgb portion. -/
def writeRgbPortion (out : RcOutput) (products : RgbProducts F) (w : Work F) : Work F :=
  let scaled := ((w.writeRgb out.ab (scaleVec products.ab out.scale)).writeRgb out.cd
    (scaleVec products.cd out.scale)).writeRgb out.sum (scaleVec products.sum out.scale)
  let first := if out.abBlueToAlpha then scaled.writeBlueToAlpha out.ab products.ab else scaled
  if out.cdBlueToAlpha then first.writeBlueToAlpha out.cd products.cd else first

/-- The writes of the alpha portion. -/
def writeAlphaPortion (out : RcOutput) (products : AlphaProducts F) (w : Work F) : Work F :=
  ((w.writeAlpha out.ab (scaleScalar products.ab out.scale)).writeAlpha out.cd
    (scaleScalar products.cd out.scale)).writeAlpha out.sum (scaleScalar products.sum out.scale)

/-- One turn of the loop of `rc_evaluate`. -/
def runStage (config : RcConfig) (inputs : RcInputs F) (w : Work F) (s : Fin 8) : Work F :=
  let stage := config.stages s
  let rgb := rgbProducts stage.rgbOut (w.spare0 3) (rgbOperand config inputs s w)
  let alpha := alphaProducts stage.alphaOut (w.spare0 3) (alphaOperand config inputs s w)
  writeAlphaPortion stage.alphaOut alpha (writeRgbPortion stage.rgbOut rgb w)

/-- The working set that the first stage starts from. -/
def RcInputs.work (inputs : RcInputs F) : Work F where
  primary := inputs.primary
  secondary := inputs.secondary
  spare0 := inputs.spare0
  spare1 := inputs.spare1
  tex := inputs.tex

/-- The loop of `rc_evaluate`, over some of the stages. -/
def runStages (config : RcConfig) (inputs : RcInputs F) (stages : List (Fin 8)) : Work F :=
  stages.foldl (runStage config inputs) inputs.work

/-! ## The final combiner -/

/-- A register of the final combiner, which has constants of its own. -/
def finalRegister (inputs : RcInputs F) (w : Work F) (reg : RcRegister) : Rgba F := loadValue inputs w 8 8 reg

/-- The product of E and F. -/
def efProduct (final : RcFinal) (inputs : RcInputs F) (w : Work F) : Rgb F :=
  let e := rgbOf (final.input 4) (finalRegister inputs w (final.input 4).reg)
  let f := rgbOf (final.input 5) (finalRegister inputs w (final.input 5).reg)
  fun i => e i * f i

/-- The sum of V1 and R0. -/
def v1R0Sum (final : RcFinal) (w : Work F) : Rgb F :=
  let term := fun (complement : Bool) (reg : Rgba F) (i : Fin 3) =>
    let unsigned := rcMap .unsignedIdentity (reg i.castSucc)
    if complement then rcMap .unsignedInvert unsigned else unsigned
  let sum := fun i => term final.complementV1 w.secondary i + term final.complementR0 w.spare0 i
  if final.clampSum then fun i => clamp (sum i) (literal 0) (literal 1) else sum

/-- `final_val`. -/
def finalValue (final : RcFinal) (inputs : RcInputs F) (w : Work F) (reg : RcRegister) : Rgba F :=
  match reg with
  | .efProduct => let ef := efProduct final inputs w; ![ef 0, ef 1, ef 2, literal 0]
  | .v1R0Sum => let sum := v1R0Sum final w; ![sum 0, sum 1, sum 2, literal 0]
  | reg => finalRegister inputs w reg

/-- The colour that the final combiner makes of the working set. -/
def finalColor (final : RcFinal) (inputs : RcInputs F) (w : Work F) : Rgba F :=
  let rgb := fun i => rgbOf (final.input i) (finalValue final inputs w (final.input i).reg)
  let alpha := alphaOf (final.input 6) (finalValue final inputs w (final.input 6).reg)
  let color := fun (i : Fin 3) =>
    clamp (Scalar.min (rgb 3 i + (literal 1 - rgb 0 i) * rgb 2 i + rgb 0 i * rgb 1 i) (literal 1)) (literal 0) (literal 1)
  ![color 0, color 1, color 2, clamp alpha (literal 0) (literal 1)]

/-- `rc_evaluate`. -/
def rcEvaluate (config : RcConfig) (inputs : RcInputs F) : RcResult F :=
  match config.validate with
  | some err => { rgba := fun _ => literal 0, error := err }
  | none =>
    if config.mux ≠ .msb then
      { rgba := fun _ => literal 0, error := "NV2A MUX LSB mode is not reverse-engineered" }
    else
      { rgba := finalColor config.final inputs (runStages config inputs config.activeStages), ok := true }

end evaluation

end SeriesxEmu
