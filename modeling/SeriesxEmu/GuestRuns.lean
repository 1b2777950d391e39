import SeriesxEmu.GuestCalls

/-!
# What a run reports

One pass of the loop keeps an account of the run: no fault so far, every export that was called is
one the kernel implements, and the budget is not overdrawn. The pass that returns adds at most one
call, and when that one fails the fault names it.
-/

namespace SeriesxEmu

/-- The call is for an instruction. -/
def HookCall.isCode : HookCall → Bool
  | .code _ => true
  | .mem _ _ _ => false

/-- A round calls the code hook at most as often as it was allowed to. -/
def Emulator.Counted (em : Emulator) : Prop :=
  ∀ engine ram begin count, (em.start engine ram begin count).hooks.countP HookCall.isCode ≤ count

namespace HleCpu

variable {em : Emulator} {world : Surroundings em} {cpu next : HleCpu em} {kernel after : Kernel} {ordinal : Nat}

/-! ## The hooks -/

/-- A recorded fault has a kind. -/
theorem recordFault_kind (cpu : HleCpu em) {kind : FaultKind} (real : kind ≠ .none) (va eip : Nat) (why : String) :
    (cpu.recordFault kind va eip why).fault.kind ≠ .none := by
  rw [recordFault]
  split
  · exact real
  · assumption

/-- Recording a fault changes nothing else. -/
theorem recordFault_frame (cpu : HleCpu em) (kind : FaultKind) (va eip : Nat) (why : String) :
    ∃ fault, cpu.recordFault kind va eip why = { cpu with fault } := by
  rw [recordFault]
  split
  · exact ⟨_, rfl⟩
  · exact ⟨cpu.fault, rfl⟩

/-- The memory hook only records. -/
theorem memHook_frame (cpu : HleCpu em) (type : MemType) (addr eip : Nat) :
    ∃ fault, cpu.memHook type addr eip = { cpu with fault } := by
  cases type with
  | fetchUnmapped =>
    simp only [memHook]
    split
    · exact ⟨_, rfl⟩
    · exact recordFault_frame _ _ _ _ _
  | readUnmapped | writeUnmapped | writeProt | readProt | fetchProt => exact recordFault_frame _ _ _ _ _

/-- Hooks leave the calls that were served alone, and each call of the code hook costs one
instruction at most. -/
theorem hooks_frame (hooks : List HookCall) (cpu : HleCpu em) :
    (hooks.foldl hook cpu).served = cpu.served ∧
      (hooks.foldl hook cpu).instructions ≤ cpu.instructions + hooks.countP HookCall.isCode ∧
        (hooks.foldl hook cpu).engine = cpu.engine := by
  induction hooks generalizing cpu with
  | nil => exact ⟨rfl, Nat.le_refl _, rfl⟩
  | cons call hooks inductionHypothesis =>
    obtain ⟨served, instructions, engine⟩ := inductionHypothesis (cpu.hook call)
    rw [List.foldl_cons, served, engine]
    cases call with
    | code addr =>
      rw [List.countP_cons_of_pos rfl]
      have counted : (cpu.hook (.code addr)).served = cpu.served ∧ (cpu.hook (.code addr)).engine = cpu.engine ∧
          (cpu.hook (.code addr)).instructions ≤ cpu.instructions + 1 := by
        simp only [hook, codeHook]
        split
        · exact ⟨rfl, rfl, Nat.le_succ _⟩
        · exact ⟨rfl, rfl, Nat.le_refl _⟩
      exact ⟨counted.1, by omega, counted.2.1⟩
    | mem type addr eip =>
      obtain ⟨fault, recorded⟩ := cpu.memHook_frame type addr eip
      have hooked : cpu.hook (.mem type addr eip) = { cpu with fault } := recorded
      rw [hooked] at instructions ⊢
      rw [List.countP_cons_of_neg Bool.false_ne_true]
      exact ⟨rfl, instructions, rfl⟩

/-! ## One call -/

/-- Only a function that is implemented is answered with success. -/
theorem answer_implemented {entry : Export} (exported : findExport ordinal = some entry)
    (function : entry.conv ≠ .data) {index : Nat} {ecx edx : UInt32} {stackArg : Nat → UInt32} {reply : Reply}
    {wide : Nat}
    (answered : world.answer index kernel ordinal (entry.arguments ecx edx stackArg) = some (after, reply, wide))
    (ok : reply.ok = true) : implementedFunction ordinal = true := by
  have table : (world.platformAt index).findExport = exportConv := rfl
  refine (Service.decode_table table exported function ecx edx stackArg).mp ?_
  intro unknown
  rw [Surroundings.answer, Kernel.call, unknown] at answered
  simp only [Option.some.injEq, Prod.mk.injEq] at answered
  rw [← answered.2.1] at ok
  cases ok

/-- What a served call changes in the account: nothing, or it ends in a fault that names the export. -/
theorem handleHleCall_frame (handled : handleHleCall world cpu kernel ordinal = some (next, after)) :
    (next.served = cpu.served ∧ next.instructions = cpu.instructions ∧ next.pendingOrdinal = cpu.pendingOrdinal) ∧
      ((next.fault = cpu.fault ∧ implementedFunction ordinal = true) ∨
        (next.fault.kind = .unimplementedImport ∧ next.fault.ordinal = ordinal ∧
          next.fault.detail = "kernel import not implemented: " ++ nameOf ordinal)) := by
  rw [handleHleCall] at handled
  cases exported : findExport ordinal with
  | none =>
    rw [exported] at handled
    obtain ⟨rfl, -⟩ := Prod.mk.inj (Option.some.inj handled)
    exact ⟨⟨rfl, rfl, rfl⟩, Or.inr ⟨rfl, rfl, rfl⟩⟩
  | some entry =>
    rw [exported] at handled
    simp only at handled
    by_cases function : entry.conv = .data
    · rw [if_pos function] at handled
      obtain ⟨rfl, -⟩ := Prod.mk.inj (Option.some.inj handled)
      exact ⟨⟨rfl, rfl, rfl⟩, Or.inr ⟨rfl, rfl, rfl⟩⟩
    · rw [if_neg function] at handled
      split at handled
      · cases handled
      · rename_i answered
        split at handled <;> obtain ⟨rfl, -⟩ := Prod.mk.inj (Option.some.inj handled)
        · rename_i ok
          exact ⟨⟨rfl, rfl, rfl⟩, Or.inl ⟨rfl, answer_implemented exported function answered ok⟩⟩
        · exact ⟨⟨rfl, rfl, rfl⟩, Or.inr ⟨rfl, rfl, rfl⟩⟩

/-! ## One pass -/

/-- The account at the start of a pass. -/
structure Account (maxInstructions : Nat) (cpu : HleCpu em) : Prop where
  clean : cpu.fault.kind = .none
  budget : cpu.instructions ≤ maxInstructions
  served : ∀ ordinal ∈ cpu.served, implementedFunction ordinal = true

/-- What a run reports in the end. A call that the kernel does not implement can only be the last
one, and it ends the run with a fault that names it. -/
structure Report (maxInstructions : Nat) (exited : Bool) (cpu : HleCpu em) : Prop where
  clean : exited = true ↔ cpu.fault.kind = .none
  place : exited = true → cpu.reg .eip = kExitVa
  budget : cpu.instructions ≤ maxInstructions
  served : ∀ earlier ordinal later, cpu.served = earlier ++ ordinal :: later →
    implementedFunction ordinal = true ∨ (later = [] ∧ cpu.fault.kind = .unimplementedImport ∧
      cpu.fault.ordinal = ordinal ∧ cpu.fault.detail = "kernel import not implemented: " ++ nameOf ordinal)

/-- An account with its outcome is a report. -/
theorem Report.of_account {maxInstructions : Nat} {exited : Bool} (clean : exited = true ↔ cpu.fault.kind = .none)
    (place : exited = true → cpu.reg .eip = kExitVa) (budget : cpu.instructions ≤ maxInstructions)
    (served : ∀ ordinal ∈ cpu.served, implementedFunction ordinal = true) : Report maxInstructions exited cpu :=
  ⟨clean, place, budget, fun earlier ordinal later listed => Or.inl (served ordinal (by simp [listed]))⟩

/-- A member of a list with one more is that one, or stands in the list. -/
theorem before_last {before earlier later : List Nat} {last called : Nat}
    (listed : before ++ [last] = earlier ++ called :: later) : (later = [] ∧ called = last) ∨ called ∈ before := by
  rcases List.eq_nil_or_concat later with rfl | ⟨between, tail, rfl⟩
  · exact Or.inl ⟨rfl, (List.append_singleton_inj.mp listed).2.symm⟩
  · rw [List.concat_eq_append, ← List.cons_append, ← List.append_assoc] at listed
    obtain ⟨rfl, -⟩ := List.append_singleton_inj.mp listed
    exact Or.inr (by simp)

/-- What a pass makes of the account. -/
def Turn.Accounted (maxInstructions : Nat) : Turn em → Prop
  | .again next _ _ => Account maxInstructions next
  | .returned exited final _ => Report maxInstructions exited final
  | .away => True

/-- An account closes with the recorded fault. -/
theorem Account.recorded {maxInstructions : Nat} (account : Account maxInstructions cpu) {kind : FaultKind}
    (real : kind ≠ .none) (va eip : Nat) (why : String) :
    Report maxInstructions false (cpu.recordFault kind va eip why) := by
  have kept := recordFault_kind cpu real va eip why
  obtain ⟨fault, recorded⟩ := cpu.recordFault_frame kind va eip why
  rw [recorded] at kept ⊢
  exact Report.of_account (iff_of_false Bool.false_ne_true kept) Bool.noConfusion account.budget account.served

/-- The end of a pass keeps the account. -/
theorem settle_accounted {maxInstructions : Nat} (account : Account maxInstructions cpu) :
    (settle world cpu kernel).Accounted maxInstructions := by
  rw [settle]
  split
  · rename_i exits
    exact Report.of_account (iff_of_true rfl account.clean) (fun _ => exits) account.budget account.served
  · split
    · split
      · exact trivial
      · rename_i handled
        obtain ⟨⟨served, instructions, -⟩, outcome⟩ := handleHleCall_frame handled
        simp only at served instructions
        rcases outcome with ⟨fault, implemented⟩ | ⟨kind, named, detail⟩
        · rw [if_neg (by rw [fault]; exact not_not.mpr account.clean)]
          refine ⟨fault ▸ account.clean, instructions ▸ account.budget, fun called member => ?_⟩
          rw [served] at member
          rcases List.mem_append.mp member with earlier | last
          · exact account.served called earlier
          · exact List.mem_singleton.mp last ▸ implemented
        · rw [if_pos (by rw [kind]; exact FaultKind.noConfusion)]
          refine ⟨iff_of_false Bool.false_ne_true (by rw [kind]; exact FaultKind.noConfusion), Bool.noConfusion,
            instructions ▸ account.budget, fun earlier called later listed => ?_⟩
          rw [served] at listed
          rcases before_last listed with ⟨rfl, rfl⟩ | member
          · exact Or.inr ⟨rfl, kind, named, detail⟩
          · exact Or.inl (account.served called member)
    · exact account.recorded FaultKind.noConfusion _ _ _

/-- One pass keeps the account. -/
theorem turn_accounted (counted : em.Counted) {maxInstructions eip : Nat} (account : Account maxInstructions cpu) :
    (turn world maxInstructions cpu kernel eip).Accounted maxInstructions := by
  rw [turn]
  split
  · exact account.recorded FaultKind.noConfusion _ _ _
  · rename_i left
    have allowed := counted cpu.engine kernel.krnl.ram eip (maxInstructions - cpu.instructions)
    simp only
    generalize em.start cpu.engine kernel.krnl.ram eip (maxInstructions - cpu.instructions) = round at allowed
    obtain ⟨served, instructions, -⟩ := hooks_frame round.hooks { cpu with engine := round.engine }
    simp only at served instructions
    have budget : (round.hooks.foldl hook { cpu with engine := round.engine }).instructions ≤ maxInstructions := by
      omega
    have implemented : ∀ ordinal ∈ (round.hooks.foldl hook { cpu with engine := round.engine }).served,
        implementedFunction ordinal = true := by
      rw [served]
      exact account.served
    generalize round.hooks.foldl hook { cpu with engine := round.engine } = hooked at budget implemented
    split
    · rename_i faulted
      exact Report.of_account (by simpa using faulted) Bool.noConfusion budget implemented
    · rename_i clean
      split
      · exact Report.of_account (iff_of_false Bool.false_ne_true FaultKind.noConfusion) Bool.noConfusion budget
          implemented
      · exact settle_accounted ⟨not_not.mp clean, budget, implemented⟩

/-- All passes keep it.

Proof: induction over the passes. -/
theorem loop_accounted (counted : em.Counted) {maxInstructions passes eip : Nat} {ended : Turn em}
    (account : Account maxInstructions cpu)
    (looped : loop world maxInstructions passes cpu kernel eip = some ended) : ended.Accounted maxInstructions := by
  induction passes generalizing cpu kernel eip with
  | zero => cases looped
  | succ passes inductionHypothesis =>
    have accounted : (turn world maxInstructions cpu kernel eip).Accounted maxInstructions :=
      turn_accounted counted account
    rw [loop] at looped
    split at looped
    · rename_i turned
      rw [turned] at accounted
      exact inductionHypothesis accounted looped
    · rw [← Option.some.inj looped]
      exact accounted

/-- **The report of a run.** Whatever the guest does: `run` reports a clean exit exactly when there
is no fault, and then the CPU is at the exit sentinel; the instructions stay within the budget; and
every kernel call of the run was one that the kernel implements, but for the last one when the fault
names it.

Proof: every pass of the loop ends in another pass or in a report, and keeps the account in between.
The account counts the instructions and lists the calls. -/
theorem run_reports (counted : em.Counted) (world : Surroundings em) (cpu : HleCpu em) (kernel after : Kernel)
    (passes entryEip esp maxInstructions : Nat) (exited : Bool) (final : HleCpu em)
    (ran : run world passes cpu kernel entryEip esp maxInstructions = some (.returned exited final after)) :
    Report maxInstructions exited final := by
  have account : Account maxInstructions (cpu.begin esp) :=
    ⟨rfl, Nat.zero_le _, fun ordinal member => absurd member List.not_mem_nil⟩
  exact loop_accounted counted account ran

/-- A guest that calls `DbgBreakPoint` at once and exits when it is back at zero. -/
def callsOnce : Emulator :=
  { registersOnly with
    start := fun engine ram begin count =>
      if begin = 0 ∨ count = 0 then { engine := registersOnly.setReg engine .eip 0xF00F0FFF, ram }
      else { engine := registersOnly.setReg engine .eip 0xF00F0005, ram, hooks := [.code 0xF00F0005] } }

/-- The emulator of the example counts its instructions. -/
theorem callsOnce_counted : callsOnce.Counted := by
  intro engine ram begin count
  simp only [callsOnce]
  split
  · exact Nat.zero_le _
  · rename_i working
    exact Nat.one_le_iff_ne_zero.mpr fun none => working (Or.inr none)

/-- The call is reported, and the exit. -/
theorem callsOnce_reports : ∃ final after, run (aloneWorld callsOnce) 2 { engine := fun _ => 0 } aloneKernel 1 0 1 =
    some (.returned true final after) ∧ final.served = [5] ∧ Report 1 true final := by
  have ran : ∃ final after, run (aloneWorld callsOnce) 2 { engine := fun _ => 0 } aloneKernel 1 0 1 =
      some (.returned true final after) ∧ final.served = [5] := ⟨_, _, rfl, rfl⟩
  obtain ⟨final, after, ran, served⟩ := ran
  exact ⟨final, after, ran, served, run_reports callsOnce_counted _ _ _ _ _ _ _ _ _ _ ran⟩

end HleCpu

end SeriesxEmu
