import SeriesxEmu.BatchLedgers
import SeriesxEmu.PackedFields

/-!
# Root arguments

A title sees one argument for each parameter of its root signature: the constants pushed last, or the
descriptors of a table, of which it can bind the first. The batch lays all constants end to end in one
block of words, and all descriptors in one set. Whatever the title does, these two are the arguments.
-/

namespace SeriesxEmu

open PackedFields Transcripts

/-- The argument of a root parameter: words of constants, or buffers in slots. -/
inductive RootArgument where
  | constants (words : List Nat)
  | descriptors (bound : List BoundBuffer)
deriving DecidableEq

namespace RootArgument

/-- Its words. -/
def words : RootArgument → List Nat
  | constants words => words
  | descriptors _ => []

/-- Its slots. -/
def slots : RootArgument → List BoundBuffer
  | constants _ => []
  | descriptors bound => bound

/-- What a batch starts with. -/
def fresh (param : RootParam) : RootArgument :=
  if param.isConstants then constants (List.replicate param.count 0) else descriptors (List.replicate param.count none)

/-- All words are replaced, by as many. -/
def push (roots : List RootArgument) (index : Nat) (vals : Option (List Nat)) : List RootArgument × Bool :=
  match roots[index]?, vals with
  | some (constants words), some vals =>
    if vals.length = words.length then (roots.set index (constants vals), true) else (roots, false)
  | _, _ => (roots, false)

/-- The first descriptor is replaced. -/
def bind (roots : List RootArgument) (index : Nat) (buffer : VulkanBuffer) : List RootArgument × Bool :=
  match roots[index]? with
  | some (descriptors bound) =>
    if buffer.valid then (roots.set index (descriptors (bound.set 0 (some (buffer.buf, buffer.size)))), true)
    else (roots, false)
  | _ => (roots, false)

end RootArgument

namespace Title

/-- What a request does to the arguments, and its result. -/
def rootTurn (title : Title) (roots : List RootArgument) : Request → List RootArgument × Bool
  | .init params answers =>
    if (title.batch.init title.device params answers).2.2 then (params.map RootArgument.fresh, true) else ([], false)
  | .shutdown => ([], true)
  | .push rootIndex vals => RootArgument.push roots rootIndex vals
  | .bind rootIndex index => RootArgument.bind roots rootIndex (title.buffer index)
  | .bindGpa rootIndex gpa =>
    match title.batch.findBinding gpa with
    | none => (roots, false)
    | some index => RootArgument.bind roots rootIndex (title.buffer index)
  | request => (roots, (title.serve request).2.ok)

/-- The arguments after some requests. -/
def rootsAfter : Title → List RootArgument → List Request → List RootArgument
  | _, roots, [] => roots
  | title, roots, request :: rest => rootsAfter (title.serve request).1 (title.rootTurn roots request).1 rest

/-- The block of words and the descriptor set hold the arguments end to end, and nothing else. -/
structure Holds (title : Title) (roots : List RootArgument) : Prop where
  words : title.batch.pushData = (roots.map RootArgument.words).flatten
  slots : ∀ binding, title.descriptors binding = (roots.map RootArgument.slots).flatten[binding]?.join

end Title

/-! ## Parameters and arguments -/

/-- The argument is one for the parameter. -/
structure Fits (param : RootParam) (root : RootArgument) : Prop where
  words : param.words = root.words.length
  slots : param.slots = root.slots.length
  kind : param.isConstants = true ↔ ∃ words, root = .constants words
  positive : 0 < param.count

section fits
variable {params : List RootParam} {roots : List RootArgument}

/-- A parameter has the argument at its place. -/
theorem fits_at (fits : List.Forall₂ Fits params roots) (index : Nat) :
    (params[index]? = none ∧ roots[index]? = none) ∨
      ∃ param root, params[index]? = some param ∧ roots[index]? = some root ∧ Fits param root := by
  induction fits generalizing index with
  | nil => exact Or.inl ⟨rfl, rfl⟩
  | cons here later inductionHypothesis =>
    cases index with
    | zero => exact Or.inr ⟨_, _, rfl, rfl, here⟩
    | succ index => exact inductionHypothesis index

/-- The constants of a parameter start where those before it end. -/
theorem pushOffset_eq (fits : List.Forall₂ Fits params roots) (index : Nat) :
    GpuBatch.pushOffset params index = start (roots.map RootArgument.words) index := by
  induction fits generalizing index with
  | nil => simp [GpuBatch.pushOffset, start]
  | cons here later inductionHypothesis =>
    cases index with
    | zero => rfl
    | succ index =>
      rw [List.map_cons, start_succ, ← inductionHypothesis, ← here.words]
      rfl

/-- So do its slots. -/
theorem bindingOf_eq (fits : List.Forall₂ Fits params roots) (index : Nat) :
    GpuBatch.bindingOf params index = start (roots.map RootArgument.slots) index := by
  induction fits generalizing index with
  | nil => simp [GpuBatch.bindingOf, start]
  | cons here later inductionHypothesis =>
    cases index with
    | zero => rfl
    | succ index =>
      rw [List.map_cons, start_succ, ← inductionHypothesis, ← here.slots]
      rfl

/-- Replacing an argument by one of the same shape. -/
theorem fits_set (fits : List.Forall₂ Fits params roots) {index : Nat} {param : RootParam} {root : RootArgument}
    (here : params[index]? = some param) (fit : Fits param root) : List.Forall₂ Fits params (roots.set index root) := by
  induction fits generalizing index with
  | nil => cases here
  | cons first later inductionHypothesis =>
    cases index with
    | zero =>
      obtain rfl := Option.some.inj here
      exact List.Forall₂.cons fit later
    | succ index => exact List.Forall₂.cons first (inductionHypothesis here)

/-- Fresh arguments fit their parameters. -/
theorem fresh_fits (params : List RootParam) (positive : ∀ param ∈ params, 0 < param.count) :
    List.Forall₂ Fits params (params.map RootArgument.fresh) := by
  induction params with
  | nil => exact List.Forall₂.nil
  | cons param rest inductionHypothesis =>
    rw [List.forall_mem_cons] at positive
    refine List.Forall₂.cons ?_ (inductionHypothesis positive.2)
    cases kind : param.isConstants with
    | true => constructor <;> simp [RootArgument.fresh, RootArgument.words, RootArgument.slots, RootParam.words,
        RootParam.slots, kind, positive.1]
    | false => constructor <;> simp [RootArgument.fresh, RootArgument.words, RootArgument.slots, RootParam.words,
        RootParam.slots, kind, positive.1]

/-- They have zeros as constants. -/
theorem fresh_words (params : List RootParam) :
    ((params.map RootArgument.fresh).map RootArgument.words).flatten =
      List.replicate (params.map RootParam.words).sum 0 := by
  induction params with
  | nil => rfl
  | cons param rest inductionHypothesis =>
    rw [List.map_cons, List.map_cons, List.flatten_cons, inductionHypothesis, List.map_cons, List.sum_cons,
      ← List.replicate_append_replicate]
    cases kind : param.isConstants with
    | true => simp [RootArgument.fresh, RootArgument.words, RootParam.words, kind]
    | false => simp [RootArgument.fresh, RootArgument.words, RootParam.words, kind]

/-- They have nothing in their slots. -/
theorem fresh_slots (params : List RootParam) :
    ((params.map RootArgument.fresh).map RootArgument.slots).flatten =
      List.replicate (params.map RootParam.slots).sum none := by
  induction params with
  | nil => rfl
  | cons param rest inductionHypothesis =>
    rw [List.map_cons, List.map_cons, List.flatten_cons, inductionHypothesis, List.map_cons, List.sum_cons,
      ← List.replicate_append_replicate]
    cases kind : param.isConstants with
    | true => simp [RootArgument.fresh, RootArgument.slots, RootParam.slots, kind]
    | false => simp [RootArgument.fresh, RootArgument.slots, RootParam.slots, kind]

end fits

/-! ## Opening -/

/-- What is counted is the sum of all words and slots, if no parameter is empty. -/
theorem countRoots_some {params : List RootParam} {words slots pushCount bindings : Nat}
    (counted : GpuBatch.countRoots params words slots = some (pushCount, bindings)) :
    pushCount = words + (params.map RootParam.words).sum ∧ bindings = slots + (params.map RootParam.slots).sum ∧
      ∀ param ∈ params, 0 < param.count := by
  induction params generalizing words slots with
  | nil =>
    cases counted
    exact ⟨rfl, rfl, List.forall_mem_nil _⟩
  | cons param rest inductionHypothesis =>
    rw [GpuBatch.countRoots] at counted
    rw [List.map_cons, List.map_cons, List.sum_cons, List.sum_cons, List.forall_mem_cons, RootParam.words,
      RootParam.slots]
    cases kind : param.isConstants with
    | true =>
      simp only [kind, if_true] at counted ⊢
      split at counted
      · cases counted
      · rename_i positive
        obtain ⟨rfl, rfl, later⟩ := inductionHypothesis counted
        have count : 0 < param.count := by simp at positive; omega
        exact ⟨by omega, by omega, count, later⟩
    | false =>
      simp only [kind, Bool.false_eq_true, if_false] at counted ⊢
      split at counted
      · cases counted
      · rename_i positive
        obtain ⟨rfl, rfl, later⟩ := inductionHypothesis counted
        have count : 0 < param.count := by simp at positive; omega
        exact ⟨by omega, by omega, count, later⟩

namespace GpuBatch

/-- A batch that has just been opened. -/
structure Fresh (batch : GpuBatch) (params : List RootParam) : Prop where
  valid : batch.valid = true
  given : batch.params = params
  positive : ∀ param ∈ params, 0 < param.count
  pushData : batch.pushData = List.replicate (params.map RootParam.words).sum 0
  uniformBindings : batch.uniformBindings = (params.map RootParam.slots).sum
  set : 0 < batch.uniformBindings → batch.set.isSome = true
  bindings : batch.bindings = []
  fenceSignalled : batch.fenceSignalled = 0

/-- A call of `init` leaves the batch closed or fresh. -/
theorem init_cases (batch : GpuBatch) (device : VulkanDev) (params : List RootParam) (answers : BatchAnswers) :
    (batch.init device params answers).1.submits = batch.submits ∧
      (((batch.init device params answers).2.2 = false ∧
        (batch.init device params answers).1 = { submits := batch.submits }) ∨
      ((batch.init device params answers).2.2 = true ∧ (batch.init device params answers).1.Fresh params)) := by
  rw [init]
  split
  · exact ⟨rfl, Or.inl ⟨rfl, rfl⟩⟩
  · cases counted : countRoots params 0 0 with
    | none => exact ⟨rfl, Or.inl ⟨rfl, rfl⟩⟩
    | some counts =>
      obtain ⟨pushCount, bindings⟩ := counts
      obtain ⟨words, slots, positive⟩ := countRoots_some counted
      rw [Nat.zero_add] at words slots
      simp only
      split
      · exact ⟨rfl, Or.inl ⟨rfl, rfl⟩⟩
      · rw [start]
        by_cases noSlots : bindings = 0
        · rw [if_pos noSlots]
          have set : 0 < bindings → (none : Option Nat).isSome = true := fun positive => by omega
          cases laid : answers.pipelineLayout with
          | none =>
            simp only [makeLayout, laid]
            exact ⟨rfl, Or.inl ⟨trivial, rfl⟩⟩
          | some layout =>
            simp only [makeLayout, laid]
            exact ⟨rfl, Or.inr ⟨trivial, rfl, rfl, positive, by rw [words], slots, set, rfl, rfl⟩⟩
        · rw [if_neg noSlots, makeSet]
          cases answers.setLayout with
          | none => exact ⟨rfl, Or.inl ⟨rfl, rfl⟩⟩
          | some setLayout =>
            cases answers.pool with
            | none => exact ⟨rfl, Or.inl ⟨rfl, rfl⟩⟩
            | some pool =>
              cases made : answers.set with
              | none => exact ⟨rfl, Or.inl ⟨rfl, rfl⟩⟩
              | some set =>
                cases laid : answers.pipelineLayout with
                | none =>
                  simp only [makeLayout, laid, Option.isSome_some]
                  exact ⟨rfl, Or.inl ⟨trivial, rfl⟩⟩
                | some layout =>
                  simp only [makeLayout, laid, Option.isSome_some]
                  exact ⟨rfl, Or.inr ⟨trivial, rfl, rfl, positive, by rw [words], slots, fun _ => rfl, rfl, rfl⟩⟩

/-- A submission is refused, but may end the recording, or it goes through and is logged. -/
theorem submitFence_cases (batch : GpuBatch) (log : Option GpuStub) (fenceValue : Nat) (answers : SubmitAnswers) :
    ((batch.submitFence log fenceValue answers).2.2.2 = false ∧ (batch.submitFence log fenceValue answers).2.1 = log ∧
      ∃ cmd recorded, (batch.submitFence log fenceValue answers).1 = { batch with cmd, recorded }) ∨
    ((batch.submitFence log fenceValue answers).2.2.2 = true ∧ batch.fenceSignalled < fenceValue ∧
      (batch.submitFence log fenceValue answers).2.1 = log.map (fun log => log.submit
        { type := 10, addr := batch.pushSize, size := (batch.submits + 1) % 2 ^ 64 % 2 ^ 32 }) ∧
      (batch.submitFence log fenceValue answers).1 =
        { batch with
          cmd := none
          recorded := []
          submits := (batch.submits + 1) % 2 ^ 64
          fenceSignalled := fenceValue }) := by
  rw [submitFence]
  split
  · exact Or.inl ⟨rfl, rfl, _, _, rfl⟩
  · rename_i beyond
    split
    · exact Or.inl ⟨rfl, rfl, _, _, rfl⟩
    · split
      · exact Or.inl ⟨rfl, rfl, _, _, rfl⟩
      · split
        · exact Or.inl ⟨rfl, rfl, _, _, rfl⟩
        · simp only
          split
          · exact Or.inr ⟨rfl, Nat.lt_of_not_le beyond, rfl, rfl⟩
          · exact Or.inl ⟨rfl, rfl, _, _, rfl⟩

/-! ## Storing -/

/-- The loop of `push` fills what remains of a field. -/
theorem storeValues_field {fields : List (List Nat)} {index : Nat} {field : List Nat}
    (here : fields[index]? = some field) {place : Nat} {vals : List Nat}
    (whole : place + vals.length = field.length) :
    storeValues fields.flatten (PackedFields.start fields index + place) vals =
      (fields.set index (field.take place ++ vals)).flatten := by
  induction vals generalizing fields field place with
  | nil =>
    have all : field.length ≤ place := Nat.le_of_eq whole.symm
    rw [List.append_nil, List.take_of_length_le all, set_same here]
    rfl
  | cons value rest inductionHypothesis =>
    rw [List.length_cons] at whole
    have inside : place < field.length := by omega
    have changed : (fields.set index (field.set place value))[index]? = some (field.set place value) :=
      List.getElem?_set_self (List.getElem?_eq_some_iff.mp here).1
    have shorter : place + 1 + rest.length = (field.set place value).length := by
      rw [List.length_set]
      omega
    have later := inductionHypothesis changed shorter
    have taken : (field.set place value).take (place + 1) = field.take place ++ [value] := by
      rw [List.take_set, List.take_succ_eq_append_getElem inside, List.set_append_right _ _ (by simp)]
      simp [Nat.min_eq_left (Nat.le_of_lt inside)]
    rw [PackedFields.start_set, List.set_set, taken, List.append_assoc, List.singleton_append] at later
    rw [storeValues, ← PackedFields.flatten_set here inside, Nat.add_assoc, ← later]

end GpuBatch

namespace Title

variable {title : Title} {roots : List RootArgument}

/-- The arguments fit the parameters, and the two storages hold them. -/
structure Laid (title : Title) (roots : List RootArgument) : Prop where
  fits : List.Forall₂ Fits title.batch.params roots
  holds : title.Holds roots
  closed : title.batch.valid = false → title.batch.params = []
  bindings : title.batch.uniformBindings = (roots.map RootArgument.slots).flatten.length
  set : 0 < title.batch.uniformBindings → title.batch.set.isSome = true

/-- A change that the arguments do not see. -/
theorem Laid.congr (laid : Laid title roots) {next : Title} (params : next.batch.params = title.batch.params)
    (pushData : next.batch.pushData = title.batch.pushData) (descriptors : next.descriptors = title.descriptors)
    (valid : next.batch.valid = title.batch.valid)
    (uniformBindings : next.batch.uniformBindings = title.batch.uniformBindings)
    (set : next.batch.set = title.batch.set) : Laid next roots := by
  constructor
  · rw [params]
    exact laid.fits
  · constructor
    · rw [pushData]
      exact laid.holds.words
    · rw [descriptors]
      exact laid.holds.slots
  · rw [valid, params]
    exact laid.closed
  · rw [uniformBindings]
    exact laid.bindings
  · rw [uniformBindings, set]
    exact laid.set

/-- A batch that is closed has no arguments. -/
theorem laid_closed (closed : title.batch.params = [] ∧ title.batch.pushData = [] ∧ title.batch.uniformBindings = 0)
    (empty : title.descriptors = fun _ => none) : Laid title [] := by
  obtain ⟨params, pushData, bindings⟩ := closed
  constructor
  · rw [params]
    exact List.Forall₂.nil
  · exact ⟨pushData, fun binding => by rw [empty]; rfl⟩
  · exact fun _ => params
  · exact bindings
  · intro positive
    omega

/-- One that has just been opened has fresh ones. -/
theorem laid_fresh {params : List RootParam} (fresh : title.batch.Fresh params)
    (empty : title.descriptors = fun _ => none) : Laid title (params.map RootArgument.fresh) := by
  constructor
  · rw [fresh.given]
    exact fresh_fits params fresh.positive
  · constructor
    · rw [fresh.pushData, fresh_words]
    · intro binding
      rw [empty, fresh_slots, List.getElem?_replicate]
      split
      · rfl
      · rfl
  · intro invalid
    rw [fresh.valid] at invalid
    cases invalid
  · rw [fresh.uniformBindings, fresh_slots, List.length_replicate]
  · exact fresh.set

/-- A push is answered by the arguments, and stored where its parameter is.

Proof: along the checks of `push`, on the parameter and on the argument side by side. A push that is
accepted replaces the words of one argument, and the data area is the words of all of them, one
behind another. -/
theorem laid_push (laid : Laid title roots) (rootIndex : Nat) (vals : Option (List Nat)) :
    (title.batch.push rootIndex vals).2 = (RootArgument.push roots rootIndex vals).2 ∧
      Laid { title with batch := (title.batch.push rootIndex vals).1 } (RootArgument.push roots rootIndex vals).1 := by
  cases vals with
  | none =>
    have refused : RootArgument.push roots rootIndex none = (roots, false) := by
      rw [RootArgument.push]
      exact fun _ _ _ noSlots => by cases noSlots
    rw [refused]
    exact ⟨rfl, laid⟩
  | some vals =>
    obtain ⟨missing, absent⟩ | ⟨param, root, there, here, fit⟩ := fits_at laid.fits rootIndex
    · simp only [GpuBatch.push, RootArgument.push, missing, absent]
      exact ⟨trivial, laid⟩
    · have valid : title.batch.valid = true := by
        cases valid : title.batch.valid with
        | true => rfl
        | false =>
          rw [laid.closed valid] at there
          cases there
      cases root with
      | descriptors bound =>
        have kind : param.isConstants = false := by
          cases kind : param.isConstants with
          | false => rfl
          | true => simpa using fit.kind.mp kind
        simp only [GpuBatch.push, RootArgument.push, there, here, kind, Bool.not_false, Bool.or_true, Bool.true_or,
          if_true]
        exact ⟨trivial, laid⟩
      | constants words =>
        have kind : param.isConstants = true := fit.kind.mpr ⟨words, rfl⟩
        have count : param.count = words.length := by
          have same := fit.words
          rwa [RootParam.words, if_pos kind] at same
        by_cases whole : vals.length = words.length
        · have field : (roots.map RootArgument.words)[rootIndex]? = some words := by
            rw [List.getElem?_map, here]
            rfl
          have stored := @GpuBatch.storeValues_field _ _ _ field 0 vals (by rw [Nat.zero_add, whole])
          rw [Nat.add_zero, List.take_zero, List.nil_append, ← laid.holds.words,
            ← pushOffset_eq laid.fits] at stored
          have inside : ¬ title.batch.pushData.length <
              GpuBatch.pushOffset title.batch.params rootIndex + words.length := by
            have positive := fit.positive
            have last := @start_lt _ _ _ _ field (words.length - 1) (by omega)
            rw [← laid.holds.words, ← pushOffset_eq laid.fits] at last
            omega
          have slots : (roots.set rootIndex (.constants vals)).map RootArgument.slots =
              roots.map RootArgument.slots := by
            rw [List.map_set]
            exact set_same (by rw [List.getElem?_map, here]; rfl)
          simp only [GpuBatch.push, RootArgument.push, there, here, valid, kind, count, whole, bne_self_eq_false,
            Bool.not_true, Bool.or_false, Bool.false_eq_true, if_false, if_true, if_neg inside]
          refine ⟨trivial, ?_⟩
          constructor
          · have fit' : Fits param (.constants vals) :=
              ⟨fit.words.trans whole.symm, fit.slots, iff_of_true kind ⟨vals, rfl⟩, fit.positive⟩
            exact fits_set laid.fits there fit'
          · constructor
            · rw [List.map_set]
              exact stored
            · rw [slots]
              exact laid.holds.slots
          · rintro ⟨⟩
          · rw [slots]
            exact laid.bindings
          · exact laid.set
        · simp only [GpuBatch.push, RootArgument.push, there, here, valid, kind, count, whole, Bool.not_true,
            Bool.false_or, bne_iff_ne, ne_eq, not_false_eq_true, if_true, if_false]
          exact ⟨trivial, laid⟩

/-- So is a bind.

Proof: along the checks of `bind`, on both sides at once. A bind that is accepted fills the first
slot of one argument, and the bindings are the slots of all of them, one behind another. -/
theorem laid_bind (laid : Laid title roots) (rootIndex : Nat) (buffer : VulkanBuffer) :
    (title.bindBuffer rootIndex buffer).2.ok = (RootArgument.bind roots rootIndex buffer).2 ∧
      Laid (title.bindBuffer rootIndex buffer).1 (RootArgument.bind roots rootIndex buffer).1 := by
  obtain ⟨missing, absent⟩ | ⟨param, root, there, here, fit⟩ := fits_at laid.fits rootIndex
  · simp only [bindBuffer, GpuBatch.bind, RootArgument.bind, missing, absent]
    exact ⟨trivial, laid⟩
  · have valid : title.batch.valid = true := by
      cases valid : title.batch.valid with
      | true => rfl
      | false =>
        rw [laid.closed valid] at there
        cases there
    cases root with
    | constants words =>
      have kind : param.isConstants = true := fit.kind.mpr ⟨words, rfl⟩
      simp only [bindBuffer, GpuBatch.bind, RootArgument.bind, there, here, kind, Bool.or_true, if_true]
      exact ⟨trivial, laid⟩
    | descriptors bound =>
      have kind : param.isConstants = false := by
        cases kind : param.isConstants with
        | false => rfl
        | true => simpa using fit.kind.mp kind
      cases live : buffer.valid with
      | false =>
        simp only [bindBuffer, GpuBatch.bind, RootArgument.bind, there, here, live, Bool.not_false, Bool.or_true,
          Bool.true_or, if_true, Bool.false_eq_true, if_false]
        exact ⟨trivial, laid⟩
      | true =>
        have count : 0 < bound.length := by
          have same := fit.slots
          rw [RootParam.slots, if_neg (by simp [kind])] at same
          rw [← show param.count = bound.length from same]
          exact fit.positive
        have field : (roots.map RootArgument.slots)[rootIndex]? = some bound := by
          rw [List.getElem?_map, here]
          rfl
        have inside := start_lt field count
        have written := flatten_set field count (some (buffer.buf, buffer.size))
        rw [Nat.add_zero, ← bindingOf_eq laid.fits] at inside written
        have positive : ¬ title.batch.uniformBindings ≤ GpuBatch.bindingOf title.batch.params rootIndex := by
          rw [laid.bindings]
          omega
        obtain ⟨set, made⟩ := Option.isSome_iff_exists.mp (laid.set (by omega))
        have words : (roots.set rootIndex (.descriptors (bound.set 0 (some (buffer.buf, buffer.size))))).map
            RootArgument.words = roots.map RootArgument.words := by
          rw [List.map_set]
          exact set_same (by rw [List.getElem?_map, here]; rfl)
        simp only [bindBuffer, GpuBatch.bind, RootArgument.bind, there, here, kind, live, valid, made, Bool.not_true,
          Bool.or_false, Bool.false_eq_true, if_false, if_true, if_neg positive]
        refine ⟨trivial, ?_⟩
        constructor
        · refine fits_set laid.fits there ⟨fit.words, ?_, ?_, fit.positive⟩
          · rw [fit.slots]
            exact (List.length_set).symm
          · exact iff_of_false (by simp [kind]) (by simp)
        · constructor
          · rw [words]
            exact laid.holds.words
          · intro binding
            rw [List.map_set]
            refine Eq.trans ?_ (congrArg (fun slots => slots[binding]?.join) written.symm)
            by_cases same : binding = GpuBatch.bindingOf title.batch.params rootIndex
            · subst same
              simp only [if_true]
              rw [List.getElem?_set_self inside]
              rfl
            · simp only [if_neg same]
              rw [List.getElem?_set_ne (Ne.symm same)]
              exact laid.holds.slots binding
        · intro invalid
          rw [show title.batch.valid = false from invalid] at valid
          cases valid
        · have length := congrArg List.length written
          rw [List.length_set] at length
          rw [List.map_set]
          exact laid.bindings.trans length.symm
        · exact laid.set

/-- A submission leaves the arguments. -/
theorem laid_submitted (laid : Laid title roots) (logged : Bool) (fenceValue : Nat) (answers : SubmitAnswers) :
    Laid (title.submitted logged (fun log => title.batch.submitFence log fenceValue answers)).1 roots := by
  obtain ⟨-, -, cmd, recorded, same⟩ | ⟨-, -, -, same⟩ :=
    GpuBatch.submitFence_cases title.batch (if logged then some title.log else none) fenceValue answers
  · simp only [submitted, same]
    exact laid.congr rfl rfl rfl rfl rfl rfl
  · simp only [submitted, same]
    exact laid.congr rfl rfl rfl rfl rfl rfl

/-- So does a copy. -/
theorem laid_copy (laid : Laid title roots) (dst src : Nat) : Laid (title.copyBuffers dst src).1 roots := by
  obtain ⟨recorded, same⟩ := title.copyBuffers_fst dst src
  rw [same]
  exact laid.congr rfl rfl rfl rfl rfl rfl

/-- One request keeps the storages and the arguments together, and both sides give the same answer. -/
theorem laid_turn (laid : Laid title roots) (request : Request) :
    (title.serve request).2.ok = (title.rootTurn roots request).2 ∧
      Laid (title.serve request).1 (title.rootTurn roots request).1 := by
  cases request with
  | memory op => exact ⟨rfl, laid.congr rfl rfl rfl rfl rfl rfl⟩
  | createBuffer size fast answers => exact ⟨rfl, laid.congr rfl rfl rfl rfl rfl rfl⟩
  | destroyBuffer index => exact ⟨rfl, laid.congr rfl rfl rfl rfl rfl rfl⟩
  | init params answers =>
    obtain ⟨-, ⟨refused, closed⟩ | ⟨accepted, fresh⟩⟩ :=
      GpuBatch.init_cases title.batch title.device params answers
    · simp only [serve, rootTurn, refused]
      refine ⟨rfl, laid_closed ?_ rfl⟩
      rw [closed]
      exact ⟨rfl, rfl, rfl⟩
    · simp only [serve, rootTurn, accepted]
      exact ⟨rfl, laid_fresh fresh rfl⟩
  | shutdown => exact ⟨rfl, laid_closed ⟨rfl, rfl, rfl⟩ rfl⟩
  | attachMem attached => exact ⟨rfl, laid.congr rfl rfl rfl rfl rfl rfl⟩
  | registerBuffer gpa index =>
    refine ⟨rfl, ?_⟩
    have kept : ∀ buffer, ∃ bindings, (title.batch.registerBuffer title.mem gpa index buffer).1 =
        { title.batch with bindings } := by
      intro buffer
      rw [GpuBatch.registerBuffer]
      repeat' split
      all_goals exact ⟨_, rfl⟩
    obtain ⟨bindings, same⟩ := kept (title.buffer index)
    simp only [serve, rootTurn, same]
    exact laid.congr rfl rfl rfl rfl rfl rfl
  | unregisterBuffer gpa => exact ⟨rfl, laid.congr rfl rfl rfl rfl rfl rfl⟩
  | push rootIndex vals => exact laid_push laid rootIndex vals
  | bind rootIndex index => exact laid_bind laid rootIndex (title.buffer index)
  | bindGpa rootIndex gpa =>
    rw [serve, rootTurn]
    cases title.batch.findBinding gpa with
    | none => exact ⟨rfl, laid⟩
    | some index => exact laid_bind laid rootIndex (title.buffer index)
  | begin answers =>
    refine ⟨rfl, ?_⟩
    have kept : ∃ cmd recorded, (title.batch.begin answers).1 = { title.batch with cmd, recorded } := by
      rw [GpuBatch.begin]
      repeat' split
      all_goals exact ⟨_, _, rfl⟩
    obtain ⟨cmd, recorded, same⟩ := kept
    simp only [serve, rootTurn, same]
    exact laid.congr rfl rfl rfl rfl rfl rfl
  | copy dst src => exact ⟨rfl, laid_copy laid dst src⟩
  | copyGpa dst src size =>
    refine ⟨rfl, ?_⟩
    rw [serve]
    obtain refused | ⟨target, origin, copied⟩ := title.copyRegistered_cases dst src size
    · rw [refused]
      exact laid
    · rw [copied]
      exact laid_copy laid target origin
  | submit logged answers =>
    exact ⟨rfl, laid_submitted laid logged ((title.batch.fenceSignalled + 1) % 2 ^ 64) answers⟩
  | submitFence logged fenceValue answers => exact ⟨rfl, laid_submitted laid logged fenceValue answers⟩

/-- After every run of requests the batch holds the arguments end to end.

Proof: induction on the requests, one request at a time. -/
theorem laid_run (requests : List Request) (laid : Laid title roots) :
    Laid (after serve title requests) (rootsAfter title roots requests) := by
  induction requests generalizing title roots with
  | nil => exact laid
  | cons request rest inductionHypothesis => exact inductionHypothesis (laid_turn laid request).2

/-- **Root arguments.** Whatever a title has done with its batch, the block of push constants and
the descriptor set hold the arguments of its root signature end to end, each where only its own
parameter reaches; and every push and every binding is answered as the arguments alone decide, so
none is refused for want of room.

Proof: `Laid` is the invariant of the requests: the block holds the arguments one after the other,
and there is room for all of the signature. -/
theorem root_arguments (opening : DeviceAnswers) (requests : List Request) (request : Request) :
    Holds (after serve (opened opening) requests) (rootsAfter (opened opening) [] requests) ∧
      (serve (after serve (opened opening) requests) request).2.ok =
        (rootTurn (after serve (opened opening) requests) (rootsAfter (opened opening) [] requests) request).2 := by
  have start : Laid (opened opening) [] := laid_closed ⟨rfl, rfl, rfl⟩ rfl
  have laid := laid_run requests start
  exact ⟨laid.holds, (laid_turn laid request).1⟩

end Title

end SeriesxEmu
