import SeriesxEmu.Batches
import SeriesxEmu.GuestRuns

/-!
# The guest as one machine

The engine does not know the kernel: it is stopped at every marker and started again behind the
call, with what is left of the budget. The machine that the guest sees takes one step for an
instruction and one for a kernel call. On an engine that runs instruction by instruction both
give the same results, so stopping and starting cannot be observed.
-/

namespace SeriesxEmu

/-- What an instruction does. When it stops the engine, the code hook may have been called before,
and an invalid access has been shown to the memory hook. -/
inductive Executed (Engine : Type) where
  | done (engine : Engine) (ram : XbeRam)
  | stopped (counted : Bool) (access : Option (MemType × Nat × Nat)) (engine : Engine) (ram : XbeRam) (error : String)

/-- The hooks of an instruction that stops the engine. -/
def stopHooks (eip : Nat) (counted : Bool) (access : Option (MemType × Nat × Nat)) : List HookCall :=
  (if counted then [.code eip] else []) ++
    (access.map (fun (type, addr, fetched) => HookCall.mem type addr fetched)).toList

/-- A round by single instructions: it ends at the sentinel, after so many instructions, at an
instruction whose hook asks to stop, or at one that stops the engine. -/
def rounds {Engine : Type} (eipOf : Engine → UInt32) (exec : Engine → XbeRam → Executed Engine) :
    Nat → Engine → XbeRam → Round Engine
  | 0, engine, ram => { engine, ram }
  | count + 1, engine, ram =>
    let eip := (eipOf engine).toNat
    if eip = kExitVa then { engine, ram }
    else if HleCpu.isMarker eip then { engine, ram, hooks := [.code eip] }
    else
      match exec engine ram with
      | .done next after =>
        let rest := rounds eipOf exec count next after
        { rest with hooks := .code eip :: rest.hooks }
      | .stopped counted access next after error =>
        { engine := next, ram := after, hooks := stopHooks eip counted access, error := some error }

/-- The engine runs instruction by instruction, from the entry on. -/
def Emulator.Follows (em : Emulator) (exec : em.Engine → XbeRam → Executed em.Engine) : Prop :=
  ∀ engine ram begin count, em.start engine ram begin count =
    rounds (em.reg · .eip) exec count (em.setReg engine .eip (UInt32.ofNat begin)) ram

namespace HleCpu

variable {em : Emulator} {exec : em.Engine → XbeRam → Executed em.Engine} {world : Surroundings em}
  {maxInstructions : Nat}

/-- The CPU at an address. -/
def enter (cpu : HleCpu em) (eip : Nat) : HleCpu em :=
  { cpu with engine := em.setReg cpu.engine .eip (UInt32.ofNat eip) }

/-- The end of a run whose budget is spent. -/
def overrun (cpu : HleCpu em) (kernel : Kernel) : Turn em :=
  .returned false (cpu.recordFault .instructionLimit (cpu.reg .eip) (cpu.reg .eip) didNotExit) kernel

/-- The kernel with the memory of the engine. -/
def share (kernel : Kernel) (ram : XbeRam) : Kernel := { kernel with krnl := { kernel.krnl with ram } }

/-- A call of the kernel as one step. -/
def nativeCall (world : Surroundings em) (cpu : HleCpu em) (kernel : Kernel) (ordinal : Nat) :
    Except (Turn em) (HleCpu em × Kernel) :=
  match handleHleCall world cpu kernel ordinal with
  | none => .error .away
  | some (handled, after) =>
    let next := { handled with served := handled.served ++ [ordinal] }
    if next.fault.kind ≠ .none then .error (.returned false next after) else .ok (next.enter next.pendingRet, after)

/-- An instruction as one step. -/
def nativeInstruction (exec : em.Engine → XbeRam → Executed em.Engine) (cpu : HleCpu em) (kernel : Kernel) :
    Except (Turn em) (HleCpu em × Kernel) :=
  match exec cpu.engine kernel.krnl.ram with
  | .done engine ram => .ok ({ cpu with engine, instructions := cpu.instructions + 1 }, share kernel ram)
  | .stopped counted access engine ram detail =>
    let stopped := { cpu with engine, instructions := cpu.instructions + counted.toNat }
    match access with
    | some (type, addr, eip) => .error (.returned false (stopped.memHook type addr eip) (share kernel ram))
    | none =>
      let fault := { cpu.fault with kind := .emuError, va := stopped.reg .eip, eip := stopped.reg .eip, detail }
      .error (.returned false { stopped with fault } (share kernel ram))

/-- One step of the machine that the guest sees. -/
def nativeStep (exec : em.Engine → XbeRam → Executed em.Engine) (world : Surroundings em) (maxInstructions : Nat)
    (state : HleCpu em × Kernel) : Except (Turn em) (HleCpu em × Kernel) :=
  let (cpu, kernel) := state
  let eip := cpu.reg .eip
  if eip = kExitVa then .error (.returned true cpu kernel)
  else if maxInstructions ≤ cpu.instructions then .error (cpu.overrun kernel)
  else if isMarker eip then
    let called := { cpu with pendingAddr := eip }
    if eip % 2 ^ 16 = 0 then .error (called.overrun kernel) else nativeCall world called kernel (eip % 2 ^ 16)
  else nativeInstruction exec cpu kernel

/-! ## A pass covers the steps of its round -/

/-- The part of a pass that follows the round. -/
def conclude (world : Surroundings em) (cpu : HleCpu em) (kernel : Kernel) (round : Round em.Engine) : Turn em :=
  let hooked := round.hooks.foldl hook { cpu with engine := round.engine }
  if hooked.fault.kind ≠ .none then .returned false hooked (share kernel round.ram)
  else
    match round.error with
    | some detail =>
      let fault := { hooked.fault with kind := .emuError, va := hooked.reg .eip, eip := hooked.reg .eip, detail }
      .returned false { hooked with fault } (share kernel round.ram)
    | none => settle world hooked (share kernel round.ram)

/-- A pass is the run of the engine and what follows it. -/
theorem turn_conclude {cpu : HleCpu em} (left : cpu.instructions < maxInstructions) (kernel : Kernel) (eip : Nat) :
    turn world maxInstructions cpu kernel eip =
      conclude world cpu kernel (em.start cpu.engine kernel.krnl.ram eip (maxInstructions - cpu.instructions)) :=
  if_neg (Nat.not_le.mpr left)

/-- A pass as a turn of the library. -/
def Turn.toExcept : Turn em → Except (Turn em) (HleCpu em × Kernel × Nat)
  | .again cpu kernel eip => .ok (cpu, kernel, eip)
  | ended => .error ended

/-- The state in which the machine goes on after a pass. -/
def resumed (batch : HleCpu em × Kernel × Nat) : HleCpu em × Kernel := (batch.1.enter batch.2.2, batch.2.1)

/-- What holds at the start of a pass. -/
structure Fresh (maxInstructions : Nat) (cpu : HleCpu em) : Prop where
  clean : cpu.fault.kind = .none
  idle : cpu.pendingOrdinal = 0
  left : cpu.instructions < maxInstructions

variable {cpu : HleCpu em} {kernel : Kernel}

/-- A memory hook records a fault. -/
theorem memHook_kind (cpu : HleCpu em) (type : MemType) (addr eip : Nat) :
    (cpu.memHook type addr eip).fault.kind ≠ .none := by
  cases type with
  | fetchUnmapped =>
    simp only [memHook]
    split
    · exact FaultKind.noConfusion
    · exact recordFault_kind _ FaultKind.noConfusion _ _ _
  | readUnmapped | writeUnmapped | writeProt | readProt | fetchProt =>
    exact recordFault_kind _ FaultKind.noConfusion _ _ _

/-- The code hook off the markers only counts. -/
theorem codeHook_counts (cpu : HleCpu em) {addr : Nat} (word : addr < 2 ^ 32) (plain : isMarker addr = false) :
    cpu.hook (.code addr) = { cpu with instructions := cpu.instructions + 1 } := by
  simp only [hook, codeHook, Nat.mod_eq_of_lt word, plain, Bool.false_eq_true, ↓reduceIte]

/-- The hook of a marker notes its ordinal and its address. -/
theorem codeHook_marks (cpu : HleCpu em) {addr : Nat} (word : addr < 2 ^ 32) (marker : isMarker addr = true) :
    cpu.hook (.code addr) = { cpu with pendingOrdinal := addr % 2 ^ 16, pendingAddr := addr } := by
  simp only [hook, codeHook, Nat.mod_eq_of_lt word, marker, ↓reduceIte]

/-- A round that stops without hooks ends the run. -/
theorem conclude_quiet (clean : cpu.fault.kind = .none) (idle : cpu.pendingOrdinal = 0) :
    conclude world cpu kernel { engine := cpu.engine, ram := kernel.krnl.ram } =
      if cpu.reg .eip = kExitVa then .returned true cpu kernel else cpu.overrun kernel := by
  have settles : conclude world cpu kernel { engine := cpu.engine, ram := kernel.krnl.ram } =
      settle world cpu kernel := if_neg (not_not.mpr clean)
  rw [settles, settle, if_neg (not_not.mpr idle)]
  rfl

/-- A round that ends at a marker does what the call does as one step. -/
theorem conclude_call (fresh : Fresh maxInstructions cpu) (inside : cpu.reg .eip ≠ kExitVa)
    (marker : isMarker (cpu.reg .eip) = true) :
    let turned := conclude world cpu kernel
      { engine := cpu.engine, ram := kernel.krnl.ram, hooks := [.code (cpu.reg .eip)] }
    nativeStep exec world maxInstructions (cpu, kernel) = turned.toExcept.map resumed ∧
      ∀ next after eip, turned = .again next after eip → Fresh maxInstructions next := by
  obtain ⟨clean, idle, left⟩ := fresh
  have step : nativeStep exec world maxInstructions (cpu, kernel) =
      if cpu.reg .eip % 2 ^ 16 = 0 then .error (({ cpu with pendingAddr := cpu.reg .eip } : HleCpu em).overrun kernel)
      else nativeCall world { cpu with pendingAddr := cpu.reg .eip } kernel (cpu.reg .eip % 2 ^ 16) := by
    simp only [nativeStep, if_neg inside, if_neg (Nat.not_le.mpr left), marker, ↓reduceIte]
  have word : cpu.reg .eip < 2 ^ 32 := UInt32.toNat_lt _
  let marked : HleCpu em := { cpu with pendingOrdinal := cpu.reg .eip % 2 ^ 16, pendingAddr := cpu.reg .eip }
  have concluded : conclude world cpu kernel
      { engine := cpu.engine, ram := kernel.krnl.ram, hooks := [.code (cpu.reg .eip)] } =
        settle world marked kernel := by
    have hooks : [HookCall.code (cpu.reg .eip)].foldl hook { cpu with engine := cpu.engine } = marked := by
      rw [List.foldl_cons, List.foldl_nil]
      exact codeHook_marks { cpu with engine := cpu.engine } word marker
    have quiet : ¬ marked.fault.kind ≠ .none := not_not.mpr clean
    rw [conclude]
    simp only [hooks, if_neg quiet]
    rfl
  have settles : settle world marked kernel =
      if cpu.reg .eip % 2 ^ 16 ≠ 0 then
        match handleHleCall world { marked with pendingOrdinal := 0 } kernel (cpu.reg .eip % 2 ^ 16) with
        | none => .away
        | some (handled, after) =>
          let next := { handled with served := handled.served ++ [cpu.reg .eip % 2 ^ 16] }
          if next.fault.kind ≠ .none then .returned false next after else .again next after next.pendingRet
      else marked.overrun kernel := if_neg inside
  have called : ({ marked with pendingOrdinal := 0 } : HleCpu em) = { cpu with pendingAddr := cpu.reg .eip } := by
    rw [← idle]
  rw [concluded, settles, step, called]
  by_cases zero : cpu.reg .eip % 2 ^ 16 = 0
  · have same : marked = { cpu with pendingAddr := cpu.reg .eip } := by
      rw [← called, ← zero]
    rw [if_pos zero, if_neg (not_not.mpr zero), same]
    exact ⟨rfl, fun next after eip again => by cases again⟩
  · rw [if_neg zero, if_pos zero, nativeCall]
    cases handled : handleHleCall world { cpu with pendingAddr := cpu.reg .eip } kernel (cpu.reg .eip % 2 ^ 16) with
    | none => exact ⟨rfl, fun next after eip again => by cases again⟩
    | some answered =>
      obtain ⟨next, after⟩ := answered
      obtain ⟨⟨-, instructions, pending⟩, -⟩ := handleHleCall_frame handled
      simp only
      by_cases faulted : next.fault.kind = .none
      · rw [if_neg (not_not.mpr faulted), if_neg (not_not.mpr faulted)]
        refine ⟨rfl, fun last _ eip again => ?_⟩
        cases again
        exact ⟨faulted, pending.trans idle, instructions ▸ left⟩
      · rw [if_pos faulted, if_pos faulted]
        exact ⟨rfl, fun last _ eip again => by cases again⟩

/-- An instruction that stops the engine ends the run. -/
theorem conclude_stopped (clean : cpu.fault.kind = .none) (plain : isMarker (cpu.reg .eip) = false) {counted : Bool}
    {access : Option (MemType × Nat × Nat)} {engine : em.Engine} {ram : XbeRam} {detail : String}
    (stops : exec cpu.engine kernel.krnl.ram = .stopped counted access engine ram detail) :
    nativeInstruction exec cpu kernel =
      (conclude world cpu kernel
        { engine, ram, hooks := stopHooks (cpu.reg .eip) counted access, error := some detail }).toExcept.map
          resumed := by
  have word : cpu.reg .eip < 2 ^ 32 := UInt32.toNat_lt _
  let stopped : HleCpu em := { cpu with engine, instructions := cpu.instructions + counted.toNat }
  have hooked : (stopHooks (cpu.reg .eip) counted access).foldl hook { cpu with engine } =
      match access with
      | some (type, addr, eip) => stopped.memHook type addr eip
      | none => stopped := by
    have first : ((if counted then [HookCall.code (cpu.reg .eip)] else []).foldl hook { cpu with engine }) =
        stopped := by
      cases counted with
      | true =>
        rw [if_pos rfl, List.foldl_cons, List.foldl_nil]
        exact codeHook_counts { cpu with engine } word plain
      | false => rfl
    rw [stopHooks, List.foldl_append, first]
    cases access <;> rfl
  rw [nativeInstruction, stops, conclude]
  simp only [hooked]
  cases access with
  | none =>
    have quiet : ¬ stopped.fault.kind ≠ .none := not_not.mpr clean
    simp only [if_neg quiet]
    rfl
  | some invalid =>
    simp only [if_pos (memHook_kind stopped invalid.1 invalid.2.1 invalid.2.2)]
    rfl

/-- An instruction that is done leaves the rest of the round. -/
theorem conclude_done (plain : isMarker (cpu.reg .eip) = false) (engine : em.Engine) (round : Round em.Engine) :
    conclude world cpu kernel { round with hooks := .code (cpu.reg .eip) :: round.hooks } =
      conclude world { cpu with engine, instructions := cpu.instructions + 1 } kernel round := by
  have word : cpu.reg .eip < 2 ^ 32 := UInt32.toNat_lt _
  rw [conclude, List.foldl_cons, codeHook_counts { cpu with engine := round.engine } word plain]
  rfl

/-- The rounds of a pass cover as many steps.

Proof: induction on the rounds that are left, as `exec` runs them: a round is an instruction, a
marker or the exit, and only an instruction that is done leaves more rounds to run. -/
theorem rounds_covers (count : Nat) (clean : cpu.fault.kind = .none) (idle : cpu.pendingOrdinal = 0)
    (budget : cpu.instructions + count = maxInstructions) :
    let turned := conclude world cpu kernel (rounds (em.reg · .eip) exec count cpu.engine kernel.krnl.ram)
    Batches.Covers (nativeStep exec world maxInstructions) resumed (cpu, kernel) turned.toExcept ∧
      ∀ next after eip, turned = .again next after eip → Fresh maxInstructions next := by
  induction count generalizing cpu kernel with
  | zero =>
    rw [rounds, conclude_quiet clean idle]
    have step : nativeStep exec world maxInstructions (cpu, kernel) =
        if cpu.reg .eip = kExitVa then .error (.returned true cpu kernel) else .error (cpu.overrun kernel) := by
      simp only [nativeStep, if_pos (show maxInstructions ≤ cpu.instructions by omega)]
    by_cases exits : cpu.reg .eip = kExitVa
    · rw [if_pos exits] at step ⊢
      exact ⟨Batches.Covers.one step, fun next after eip again => by cases again⟩
    · rw [if_neg exits] at step ⊢
      exact ⟨Batches.Covers.one step, fun next after eip again => by cases again⟩
  | succ count inductionHypothesis =>
    have left : cpu.instructions < maxInstructions := by omega
    by_cases exits : cpu.reg .eip = kExitVa
    · have round : rounds (em.reg · .eip) exec (count + 1) cpu.engine kernel.krnl.ram =
          { engine := cpu.engine, ram := kernel.krnl.ram } := if_pos exits
      rw [round, conclude_quiet clean idle, if_pos exits]
      exact ⟨Batches.Covers.one (if_pos exits), fun next after eip again => by cases again⟩
    · cases marker : isMarker (cpu.reg .eip) with
      | true =>
        have round : rounds (em.reg · .eip) exec (count + 1) cpu.engine kernel.krnl.ram =
            { engine := cpu.engine, ram := kernel.krnl.ram, hooks := [.code (cpu.reg .eip)] } := by
          exact (if_neg exits).trans (if_pos marker)
        rw [round]
        obtain ⟨same, freshens⟩ := conclude_call ⟨clean, idle, left⟩ exits marker
        exact ⟨Batches.Covers.one same, freshens⟩
      | false =>
        have step : nativeStep exec world maxInstructions (cpu, kernel) = nativeInstruction exec cpu kernel := by
          simp only [nativeStep, if_neg exits, if_neg (Nat.not_le.mpr left), marker, Bool.false_eq_true, ↓reduceIte]
        have plain : ¬ isMarker (cpu.reg .eip) = true := by rw [marker]; exact Bool.false_ne_true
        cases executed : exec cpu.engine kernel.krnl.ram with
        | done engine ram =>
          let rest := rounds (em.reg · .eip) exec count engine ram
          have round : rounds (em.reg · .eip) exec (count + 1) cpu.engine kernel.krnl.ram =
              { rest with hooks := .code (cpu.reg .eip) :: rest.hooks } :=
            (if_neg exits).trans ((if_neg plain).trans (by rw [executed]; rfl))
          have goes : nativeStep exec world maxInstructions (cpu, kernel) =
              .ok ({ cpu with engine, instructions := cpu.instructions + 1 }, share kernel ram) := by
            rw [step, nativeInstruction, executed]
          obtain ⟨covers, freshens⟩ := @inductionHypothesis
            { cpu with engine, instructions := cpu.instructions + 1 } (share kernel ram) clean idle
            (by simp only; omega)
          have same : conclude world cpu kernel _ = _ := conclude_done marker engine rest
          rw [round, same]
          exact ⟨Batches.Covers.cons goes covers, freshens⟩
        | stopped counted access engine ram detail =>
          have round : rounds (em.reg · .eip) exec (count + 1) cpu.engine kernel.krnl.ram =
              { engine, ram, hooks := stopHooks (cpu.reg .eip) counted access, error := some detail } :=
            (if_neg exits).trans ((if_neg plain).trans (by rw [executed]; rfl))
          rw [round]
          have ends : _ = (conclude world cpu kernel _).toExcept.map resumed :=
            conclude_stopped clean marker executed
          refine ⟨Batches.Covers.one (step.trans ends), fun next after eip again => ?_⟩
          rw [nativeInstruction, executed, again] at ends
          cases access <;> cases ends

/-- A pass covers the steps of its round, whatever the engine does with them. -/
theorem turn_covers (follows : em.Follows exec) (fresh : Fresh maxInstructions cpu) (eip : Nat) :
    Batches.Covers (nativeStep exec world maxInstructions) resumed (resumed (cpu, kernel, eip))
      (turn world maxInstructions cpu kernel eip).toExcept ∧
        ∀ next after again, turn world maxInstructions cpu kernel eip = .again next after again →
          Fresh maxInstructions next := by
  have budget : (cpu.enter eip).instructions + (maxInstructions - cpu.instructions) = maxInstructions :=
    Nat.add_sub_cancel' (Nat.le_of_lt fresh.left)
  rw [turn_conclude fresh.left, follows]
  exact @rounds_covers em exec world maxInstructions (cpu.enter eip) kernel _ fresh.clean fresh.idle budget

/-! ## The whole run -/

/-- The loop of `run` takes turns. -/
theorem loop_iterate (passes : Nat) (cpu : HleCpu em) (kernel : Kernel) (eip : Nat) :
    loop world maxInstructions passes cpu kernel eip = Batches.iterate
      (fun batch : HleCpu em × Kernel × Nat => (turn world maxInstructions batch.1 batch.2.1 batch.2.2).toExcept)
      passes (cpu, kernel, eip) := by
  induction passes generalizing cpu kernel eip with
  | zero => rfl
  | succ passes inductionHypothesis =>
    rw [loop, Batches.iterate]
    cases turned : turn world maxInstructions cpu kernel eip with
    | again next after resumes => exact inductionHypothesis next after resumes
    | returned exited final after => rfl
    | away => rfl

/-- **Stopping and starting the engine cannot be observed.** On an engine that runs instruction by
instruction, `run` ends as the machine does that takes one step for an instruction and one for a
kernel call: with the same verdict, fault, registers, memory, kernel and calls, after the same
number of instructions.

Proof: a pass of the loop covers as many steps of the machine as the engine executes instructions,
and one more for the kernel call it stopped at. -/
theorem run_native (follows : em.Follows exec) (positive : 0 < maxInstructions) (world : Surroundings em)
    (cpu : HleCpu em) (kernel : Kernel) (entryEip esp : Nat) (ended : Turn em) :
    (∃ passes, run world passes cpu kernel entryEip esp maxInstructions = some ended) ↔
      ∃ steps, Batches.iterate (nativeStep exec world maxInstructions) steps
        ((cpu.begin esp).enter entryEip, kernel) = some ended := by
  simp only [run, loop_iterate]
  refine @Batches.results_iff _ _ _ _ _ resumed (fun batch => Fresh maxInstructions batch.1)
    (fun batch fresh => (turn_covers follows fresh batch.2.2).1) (fun batch next fresh turned => ?_) _
    ⟨rfl, rfl, positive⟩ ended
  obtain ⟨cpu', kernel', eip'⟩ := batch
  cases outcome : turn world maxInstructions cpu' kernel' eip' with
  | again following after resumes =>
    rw [outcome] at turned
    cases turned
    exact (turn_covers follows fresh eip').2 _ _ _ outcome
  | returned exited final after =>
    rw [outcome] at turned
    cases turned
  | away =>
    rw [outcome] at turned
    cases turned

/-- A processor whose every instruction is `ret`. -/
def ret (engine : Reg → UInt32) (ram : XbeRam) : Executed (Reg → UInt32) :=
  let esp := (engine .esp).toNat
  match ram.read32 esp with
  | some target =>
    let popped := registersOnly.setReg engine .esp (UInt32.ofNat (esp + 4))
    .done (registersOnly.setReg popped .eip (UInt32.ofNat target)) ram
  | none => .stopped true (some (.readUnmapped, esp, (engine .eip).toNat)) engine ram "UC_ERR_READ_UNMAPPED"

/-- The engine that knows one instruction, the return. -/
def retCore : Emulator :=
  { registersOnly with
    start := fun engine ram begin count =>
      rounds (· .eip) ret count (registersOnly.setReg engine .eip (UInt32.ofNat begin)) ram }

/-- It follows its own instruction. -/
theorem retCore_follows : retCore.Follows ret := by
  intro engine ram begin count
  rfl

/-- A stack with the marker of `DbgBreakPoint` and the exit sentinel. -/
def returnStack : Kernel :=
  { krnl := { ram := { committed := fun page => page == 0
                       bytes := fun address => [5, 0, 0x0F, 0xF0, 0xFF, 0x0F, 0x0F, 0xF0].getD address 0 } } }

/-- The guest returns to the marker and from there to the sentinel. -/
theorem retCore_native : ∃ final after,
    run (aloneWorld retCore) 2 { engine := fun _ => 0 } returnStack 16 0 2 = some (.returned true final after) ∧
      ∃ steps, Batches.iterate (nativeStep ret (aloneWorld retCore) 2) steps
        ((({ engine := fun _ => 0 } : HleCpu retCore).begin 0).enter 16, returnStack) =
          some (.returned true final after) := by
  have ran : ∃ final after, run (aloneWorld retCore) 2 { engine := fun _ => 0 } returnStack 16 0 2 =
      some (.returned true final after) := ⟨_, _, rfl⟩
  obtain ⟨final, after, ran⟩ := ran
  exact ⟨final, after, ran, (run_native retCore_follows (by decide) _ _ _ _ _ _).mp ⟨2, ran⟩⟩

end HleCpu

end SeriesxEmu
