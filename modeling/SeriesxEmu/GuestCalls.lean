import SeriesxEmu.GuestRun
import SeriesxEmu.ThunkOrdinals

/-!
# Kernel calls of the guest

A patched thunk slot and the code hook have to agree on what an address stands for, and the export
table has to agree with the switch on the number of arguments. Then a call through a patched slot
reaches its case whatever registers and stack hold, and the virtual return leaves the guest as a
callee of that convention would.
-/

namespace SeriesxEmu

/-! ## The table and the switch -/

/-- What `NEED` asks for in the cases of the switch. -/
def Service.needs (ordinal : Nat) : Option Nat :=
  match ordinal with
  | 5 | 104 | 126 | 127 | 238 => some 0
  | 8 | 52 | 53 | 128 | 138 | 140 | 152 | 165 | 171 | 180 | 186 | 187 | 258 | 277 | 291 | 294 | 306 => some 1
  | 54 | 55 | 110 | 143 | 205 | 213 | 214 | 221 | 224 | 225 | 231 | 305 | 320 => some 2
  | 51 | 99 | 108 | 112 | 145 | 192 | 222 | 233 | 284 | 298 => some 3
  | 131 | 132 | 189 | 193 | 234 => some 4
  | 159 | 166 => some 5
  | 235 => some 6
  | 255 => some 10
  | _ => none

/-- A call is decoded when it has enough arguments. -/
theorem Service.enough {service : Service} {count length : Nat} :
    (if length < count then none else some service) ≠ none ↔ count ≤ length := by
  rw [ne_eq, ite_eq_left_iff]
  simp only [reduceCtorEq, imp_false, not_lt, Decidable.not_not]

/-- A case is reached with as many arguments as it asks for. -/
theorem Service.select_reaches {platform : Platform} {ordinal count : Nat} {args : List Nat}
    (needs : Service.needs ordinal = some count) :
    select platform ordinal args ≠ none ↔ count ≤ args.length := by
  unfold Service.needs at needs
  split at needs <;> cases needs <;> first | exact enough | exact iff_of_true (Option.some_ne_none _) (Nat.zero_le _)

/-- An ordinal without an entry in the switch selects nothing. -/
theorem Service.select_unknown {platform : Platform} {ordinal : Nat} {args : List Nat}
    (unknown : Service.needs ordinal = none) : select platform ordinal args = none := by
  unfold select
  split <;> first | cases unknown | rfl

/-- The cases of the switch are the implemented functions. -/
theorem Service.needs_isSome (ordinal : Nat) : (Service.needs ordinal).isSome = implementedFunction ordinal := by
  unfold Service.needs implementedFunction
  split
  case h_55 => simp_all only [Option.isSome_none, imp_false, List.contains_eq_mem, List.mem_cons, List.not_mem_nil,
    or_self, decide_false]
  all_goals rfl

/-- How many arguments a call passes depends on the export alone. -/
theorem Export.arguments_length (entry : Export) (ecx edx : UInt32) (stackArg : Nat → UInt32) :
    (entry.arguments ecx edx stackArg).length = (entry.arguments 0 0 (fun _ => 0)).length := by
  unfold arguments
  cases entry.conv with
  | stdcall | cdecl | data => simp only [List.length_map, List.length_nil]
  | fastcall =>
    simp only [List.length_append, List.length_map, List.length_range]
    split <;> rfl

set_option maxRecDepth 4096 in
/-- Every case of the switch stands in the table, as a function with arguments enough. -/
theorem Service.needs_exported {ordinal count : Nat} (needs : Service.needs ordinal = some count) :
    ∃ entry, findExport ordinal = some entry ∧ entry.conv ≠ .data ∧
      count ≤ (entry.arguments 0 0 (fun _ => 0)).length := by
  unfold Service.needs at needs
  split at needs <;> cases needs <;> exact ⟨_, rfl, by decide, by decide⟩

/-- A call that takes its arguments by the table reaches a case exactly when the function is implemented. -/
theorem Service.decode_table {platform : Platform} (table : platform.findExport = exportConv) {ordinal : Nat}
    {entry : Export} (exported : findExport ordinal = some entry) (function : entry.conv ≠ .data) (ecx edx : UInt32)
    (stackArg : Nat → UInt32) :
    decode platform ordinal ((entry.arguments ecx edx stackArg).map UInt32.toNat) ≠ none ↔
      implementedFunction ordinal = true := by
  have selects (args : List Nat) : decode platform ordinal args = select platform ordinal args := by
    rw [decode, table, exportConv, exported, Option.map_some]
    cases conv : entry.conv with
    | data => exact absurd conv function
    | stdcall | fastcall | cdecl => rfl
  rw [selects, ← needs_isSome]
  cases needed : Service.needs ordinal with
  | none => simp only [select_unknown needed, ne_eq, not_true_eq_false, Option.isSome_none, Bool.false_eq_true]
  | some count =>
    obtain ⟨found, foundExport, _, suffices'⟩ := needs_exported needed
    obtain rfl : entry = found := Option.some.inj (exported.symm.trans foundExport)
    rw [select_reaches needed, List.length_map, Export.arguments_length]
    simp only [suffices', Option.isSome_some]

/-! ## Slots -/

/-- The exports carry their ordinals, from 1 to 378. -/
theorem exported_small {ordinal : Nat} {entry : Export} (exported : findExport ordinal = some entry) :
    entry.ordinal = ordinal ∧ 0 < ordinal ∧ ordinal ≤ 378 := by
  have known : entry ∈ kExports := List.mem_of_find?_eq_some exported
  have same : entry.ordinal = ordinal := by
    unfold findExport at exported
    have found := List.find?_some exported
    exact eq_of_beq found
  have bounds : ∀ listed ∈ kExports, 0 < listed.ordinal ∧ listed.ordinal ≤ 378 := by decide +kernel
  exact ⟨same, same ▸ bounds entry known⟩

/-- The code hook takes the marker of an ordinal apart again. -/
theorem marker_parts {ordinal : Nat} (small : ordinal < 2 ^ 16) :
    HleCpu.isMarker (kHleMarker ||| ordinal) = true ∧ (kHleMarker ||| ordinal) % 2 ^ 16 = ordinal ∧
      (kHleMarker ||| ordinal) % 2 ^ 32 = kHleMarker ||| ordinal := by
  have marker : kHleMarker ||| ordinal = 0xF00F0000 + ordinal := (Nat.two_pow_add_eq_or_of_lt small 0xF00F).symm
  rw [marker, HleCpu.isMarker, beq_iff_eq, kHleMarker]
  omega

/-- A jump to the slot is stopped by the code hook as a call of this export, and the call finds a
case of the switch whatever registers and stack hold. -/
structure Dispatched (em : Emulator) (entry : Export) (slot : ThunkSlot) : Prop where
  stops : ∀ cpu : HleCpu em, cpu.hook (.code slot.newValue) =
    { cpu with pendingOrdinal := entry.ordinal, pendingAddr := slot.newValue }
  pending : entry.ordinal ≠ 0
  inside : slot.newValue ≠ kExitVa
  served : ∀ platform : Platform, platform.findExport = exportConv → ∀ ecx edx stackArg,
    Service.decode platform entry.ordinal ((entry.arguments ecx edx stackArg).map UInt32.toNat) ≠ none

/-- A jump to the slot is not stopped by the code hook; the fault of its fetch names this export,
and no call of it would find a case. -/
structure Refused (em : Emulator) (entry : Export) (slot : ThunkSlot) : Prop where
  passes : HleCpu.isMarker slot.newValue = false
  faults : ∀ (cpu : HleCpu em) (eip : Nat), cpu.hook (.mem .fetchUnmapped slot.newValue eip) =
    { cpu with
      fault := { cpu.fault with
        kind := .unimplementedImport, va := slot.newValue, ordinal := entry.ordinal
        detail := "call through unimplemented kernel import: " ++ entry.name } }
  unserved : ∀ platform : Platform, platform.findExport = exportConv → ∀ ecx edx stackArg,
    Service.decode platform entry.ordinal ((entry.arguments ecx edx stackArg).map UInt32.toNat) = none

open LoadedXbe in
/-- The value that a patch stores for a function leads back to the function's ordinal. -/
theorem slotOf_dispatches {em : Emulator} (kernelDataVa slotVa : Nat) {raw : Nat} (word : raw < 2 ^ 32)
    (imported : raw.testBit 31 = true) {entry : Export} (exported : findExport (raw % 2 ^ 31) = some entry)
    (function : entry.conv ≠ .data) :
    if implementedFunction (raw % 2 ^ 31) then Dispatched em entry (slotOf exportConv kernelDataVa slotVa raw)
    else Refused em entry (slotOf exportConv kernelDataVa slotVa raw) := by
  obtain ⟨same, positive, small⟩ := exported_small exported
  have top : 2 ^ 31 ≤ raw := Nat.ge_two_pow_of_testBit imported
  have imports : Imports exportConv raw ↔ implementedFunction (raw % 2 ^ 31) = true := by
    rw [Imports, exportConv, exported]
    cases conv : entry.conv with
    | data => exact absurd conv function
    | stdcall | fastcall | cdecl => simp only [imported, Option.map_some, conv, true_and]
  cases implemented : implementedFunction (raw % 2 ^ 31) with
  | true =>
    have marker : (slotOf exportConv kernelDataVa slotVa raw).newValue = kHleMarker ||| raw % 2 ^ 31 := by
      rw [slotOf, imported, exportConv, exported]
      cases conv : entry.conv with
      | data => exact absurd conv function
      | stdcall | fastcall | cdecl => simp only [↓reduceIte, Option.map_some, conv, implemented]
    obtain ⟨isMarker, ordinal, value⟩ := marker_parts (show raw % 2 ^ 31 < 2 ^ 16 by omega)
    simp only [↓reduceIte]
    refine ⟨fun cpu => ?_, by omega, ?_, fun platform table ecx edx stackArg => ?_⟩
    · rw [marker, same, HleCpu.hook, HleCpu.codeHook, value, isMarker, ordinal]
      rfl
    · have sentinel : kExitVa % 2 ^ 16 = 0xFFF := by decide
      intro exits
      rw [← exits, marker, ordinal] at sentinel
      omega
    · rw [same]
      exact (Service.decode_table table exported function ecx edx stackArg).mpr implemented
  | false =>
    have untouched : (slotOf exportConv kernelDataVa slotVa raw).newValue = raw :=
      newValue_untouched _ _ (by rw [imports, implemented]; exact Bool.false_ne_true)
    simp only [Bool.false_eq_true, ↓reduceIte]
    refine ⟨?_, fun cpu eip => ?_, fun platform table ecx edx stackArg => ?_⟩
    · rw [untouched, HleCpu.isMarker, kHleMarker]
      exact beq_eq_false_iff_ne.mpr (by omega)
    · have named : nameOf (raw % 2 ^ 31) = entry.name := by rw [nameOf, exported]
      simp only [untouched, HleCpu.hook, HleCpu.memHook, Nat.mod_eq_of_lt word]
      rw [if_pos (by omega : 0x80000000 ≤ raw), named, same]
    · rw [same, ← not_ne_iff, Service.decode_table table exported function ecx edx stackArg, implemented]
      exact Bool.false_ne_true

/-- So many bytes hold a value below their power of 256. -/
theorem XbeRam.ofLittleEndian_lt (bytes : List UInt8) : ofLittleEndian bytes < 256 ^ bytes.length := by
  induction bytes with
  | nil => exact Nat.one_pos
  | cons byte rest inductionHypothesis =>
    have low : byte.toNat < 256 := byte.toNat_lt
    have unfolded : ofLittleEndian (byte :: rest) = byte.toNat + 256 * ofLittleEndian rest := rfl
    rw [unfolded, List.length_cons, Nat.pow_succ]
    omega

/-- A word that is read fits into 32 bits. -/
theorem XbeRam.read32_lt {ram : XbeRam} {addr value : Nat} (reads : ram.read32 addr = some value) :
    value < 2 ^ 32 := by
  obtain ⟨bytes, found, rfl⟩ := Option.map_eq_some_iff.mp reads
  have length : bytes.length = 4 := by
    rw [readBytes] at found
    split at found
    · rw [← Option.some.inj found, List.length_map, List.length_range]
    · cases found
  have bound := ofLittleEndian_lt bytes
  rwa [length] at bound

/-- A result that is there was a success. -/
theorem ok_of_toOption {Fault Value : Type} {result : Except Fault Value} {value : Value}
    (found : result.toOption = some value) : result = .ok value := by
  cases result with
  | error fault => cases found
  | ok given => exact congrArg Except.ok (Option.some.inj found)

/-- Registers without a processor. -/
def registersOnly : Emulator :=
  { Engine := Reg → UInt32
    reg := fun engine register => engine register
    setReg := fun engine register value other => if other = register then value else engine other
    start := fun engine ram _ _ => { engine, ram } }

namespace LoadedXbe

open Traced

/-- Every slot of a walk is made from a word of the memory. -/
theorem walk_words {findExport : Nat → Option Conv} {kernelDataVa kt room index : Nat} {ram : XbeRam}
    {slot : ThunkSlot} (member : slot ∈ (walk findExport kernelDataVa kt room index ram).2) :
    ∃ slotVa raw, raw < 2 ^ 32 ∧ slot = slotOf findExport kernelDataVa slotVa raw := by
  induction room generalizing index ram with
  | zero => cases member
  | succ room inductionHypothesis =>
    rw [walk] at member
    cases reading : ram.read32 ((kt + 4 * index) % 2 ^ 32) with
    | none =>
      rw [reading] at member
      cases member
    | some raw =>
      rw [reading] at member
      cases raw with
      | zero => cases member
      | succ raw =>
        rcases List.mem_cons.mp member with rfl | later
        · exact ⟨_, _, XbeRam.read32_lt reading, rfl⟩
        · exact inductionHypothesis later

/-- **Calls through the thunk table.** After an installation a guest call through the slot of any
function export is dispatched to exactly this export and finds its case with arguments enough, if
the kernel implements it; if not, the fault of its fetch names the export.

Proof: every slot of the walk is that of a word of the table. What is stored for a function is a
marker with its ordinal, the hook of the marker's address finds the ordinal again, and the switch
has a case for every function that is implemented. -/
theorem installed_slots_dispatch (em : Emulator) (loaded : LoadedXbe) (tick : Nat) (ram : XbeRam)
    (slots : List ThunkSlot) (installed : (installThunks exportConv tick loaded).2.outcome = .ok (ram, slots))
    (slot : ThunkSlot) (member : slot ∈ slots) (imported : slot.raw.testBit 31 = true) (entry : Export)
    (exported : findExport slot.ordinal = some entry) (function : entry.conv ≠ .data) :
    if implementedFunction slot.ordinal then Dispatched em entry slot else Refused em entry slot := by
  obtain ⟨opened, _, named⟩ := outcome_bind.mp installed
  obtain ⟨name, _, walked⟩ := outcome_bind.mp named
  have walks : _ = slots := congrArg Prod.snd (Except.ok.inj walked)
  rw [← walks] at member
  obtain ⟨slotVa, raw, word, rfl⟩ := walk_words member
  obtain ⟨-, ordinal⟩ := slotOf_names exportConv loaded.layout.kernelDataVa slotVa raw
  have same : (slotOf exportConv loaded.layout.kernelDataVa slotVa raw).raw = raw := by
    unfold slotOf
    simp only
    split
    · rfl
    · split <;> rfl
    · split <;> rfl
  rw [same] at imported
  rw [ordinal] at exported ⊢
  exact slotOf_dispatches _ _ word imported exported function

/-- The one slot of that table is for `DbgBreakPoint`. -/
theorem lastWord_dispatches : ∃ loaded ram slots slot, (load lastWord).outcome = .ok loaded ∧
    (installThunks exportConv 0 loaded).2.outcome = .ok (ram, slots) ∧ slot ∈ slots ∧
      Dispatched registersOnly ⟨5, "DbgBreakPoint", .stdcall, 0⟩ slot := by
  have facts : (load lastWord).outcome.toOption.any (fun loaded =>
      (installThunks exportConv 0 loaded).2.outcome.toOption.any (fun installed =>
        installed.2.any (fun slot => slot.raw == 0x80000005 && slot.ordinal == 5))) = true := by
    decide +kernel
  obtain ⟨loaded, loads, installs⟩ := (Option.any_eq_true _ _).mp facts
  obtain ⟨⟨ram, slots⟩, installed, slotted⟩ := (Option.any_eq_true _ _).mp installs
  obtain ⟨slot, member, entry⟩ := List.any_eq_true.mp slotted
  rw [Bool.and_eq_true, beq_iff_eq, beq_iff_eq] at entry
  obtain ⟨raw, ordinal⟩ := entry
  have exported : findExport slot.ordinal = some ⟨5, "DbgBreakPoint", .stdcall, 0⟩ := by
    rw [ordinal]
    decide +kernel
  have dispatched := installed_slots_dispatch registersOnly loaded 0 ram slots (ok_of_toOption installed) slot member
    (by rw [raw]; decide) _ exported Conv.noConfusion
  rw [ordinal] at dispatched
  exact ⟨loaded, ram, slots, slot, ok_of_toOption loads, ok_of_toOption installed, member, dispatched⟩

end LoadedXbe

/-! ## The virtual return -/

/-- A register that is set reads as set, the others as before. -/
def Emulator.Lawful (em : Emulator) : Prop :=
  ∀ engine register value other,
    em.reg (em.setReg engine register value) other = if other = register then value else em.reg engine other

/-- Mapping and unmapping leaves the registers alone. -/
def Surroundings.Quiet {em : Emulator} (world : Surroundings em) : Prop :=
  ∀ index engine register, em.reg (world.remapped index engine) register = em.reg engine register

/-- The parameters that a caller pushes. -/
def Export.onStack (entry : Export) (params : List UInt32) : List UInt32 :=
  if entry.conv = .fastcall then params.drop 2 else params

/-- What a caller has done when it passes parameters to a function that pops them. -/
structure Passed {em : Emulator} (entry : Export) (cpu : HleCpu em) (ram : XbeRam) (params : List UInt32) : Prop where
  pops : entry.conv = .stdcall ∨ (entry.conv = .fastcall ∧ params ≠ [])
  length : 4 * params.length = entry.argBytes
  ecx : entry.conv = .fastcall → ∀ param, params[0]? = some param → em.reg cpu.engine .ecx = param
  edx : entry.conv = .fastcall → ∀ param, params[1]? = some param → em.reg cpu.engine .edx = param
  stack : ∀ index param, (entry.onStack params)[index]? = some param →
    ram.read32 ((cpu.reg .esp + 4 + 4 * index) % 2 ^ 32) = some param.toNat

namespace Passed

variable {em : Emulator} {entry : Export} {cpu : HleCpu em} {ram : XbeRam} {params : List UInt32}

/-- The arguments that are read off the stack are those that the caller pushed. -/
theorem stackArgs (passed : Passed entry cpu ram params) :
    (List.range (entry.onStack params).length).map (HleCpu.stackArg ram (cpu.reg .esp)) = entry.onStack params := by
  refine List.ext_getElem (by rw [List.length_map, List.length_range]) fun index inside _ => ?_
  rw [List.length_map, List.length_range] at inside
  rw [List.getElem_map, List.getElem_range, HleCpu.stackArg, passed.stack index _ (List.getElem?_eq_getElem inside),
    Option.getD_some, UInt32.ofNat_toNat]

/-- The kernel finds exactly the parameters. -/
theorem arguments (passed : Passed entry cpu ram params) (few : params.length ≤ 14) :
    entry.arguments (em.reg cpu.engine .ecx) (em.reg cpu.engine .edx) (HleCpu.stackArg ram (cpu.reg .esp)) =
      params := by
  have length := passed.length
  have onStack := passed.stackArgs
  rcases passed.pops with stdcall | ⟨fastcall, positive⟩
  · have whole : entry.onStack params = params := by
      rw [Export.onStack, stdcall]
      rfl
    have count : min (entry.argBytes / 4) 14 = params.length := by omega
    rw [whole] at onStack
    rw [Export.arguments, stdcall]
    simp only [count, onStack]
  · have rest : entry.onStack params = params.drop 2 := if_pos fastcall
    rw [rest] at onStack
    rw [Export.arguments, fastcall]
    simp only
    cases params with
    | nil => exact absurd rfl positive
    | cons first others =>
      rw [passed.ecx fastcall first rfl]
      cases others with
      | nil =>
        rw [List.length_singleton] at length
        simp only [← length, Nat.lt_irrefl, ↓reduceIte, List.length_singleton, Nat.mul_one]
        rfl
      | cons second others =>
        rw [List.length_cons, List.length_cons] at length few
        have wide : 4 < entry.argBytes := by omega
        have count : min ((entry.argBytes - 8 + 3) / 4) (14 - 2) = others.length := by omega
        simp only [List.drop_succ_cons, List.drop_zero] at onStack
        rw [passed.edx fastcall second rfl]
        simp only [wide, ↓reduceIte, List.length_cons, List.length_nil, Nat.zero_add, Nat.reduceAdd, count, onStack]
        rfl

/-- The callee pops what the caller has pushed. -/
theorem stackBytes (passed : Passed entry cpu ram params) :
    entry.stackBytes = 4 * (entry.onStack params).length := by
  have length := passed.length
  rcases passed.pops with stdcall | ⟨fastcall, -⟩
  · rw [Export.stackBytes, Export.onStack, stdcall]
    exact length.symm
  · rw [Export.stackBytes, Export.onStack, fastcall]
    simp only [↓reduceIte, List.length_drop]
    split <;> omega

end Passed

namespace HleCpu

variable {em : Emulator} {world : Surroundings em} {cpu : HleCpu em} {kernel : Kernel} {ordinal : Nat}

/-- How a callee leaves the CPU that pops so many words: it is at the return address, with the
result in `EAX` and in `EDX` if it is wide, and nothing else has changed. -/
structure Returned (cpu next : HleCpu em) (ram : XbeRam) (ordinal pushed : Nat) (reply : Reply) (edx : Nat) :
    Prop where
  eip : next.reg .eip = (ram.read32 (cpu.reg .esp)).getD 0
  resumes : next.pendingRet = next.reg .eip
  esp : next.reg .esp = (cpu.reg .esp + 4 * (pushed + 1)) % 2 ^ 32
  eax : next.reg .eax = reply.value % 2 ^ 32
  edx : next.reg .edx = if returns64 ordinal then edx % 2 ^ 32 else cpu.reg .edx
  ecx : next.reg .ecx = cpu.reg .ecx
  fault : next.fault = cpu.fault
  instructions : next.instructions = cpu.instructions

/-- How a call is refused: the fault names the export, and the CPU stays at the marker. -/
structure Faulted (cpu next : HleCpu em) (ordinal : Nat) : Prop where
  fault : next.fault = { kind := .unimplementedImport, va := cpu.pendingAddr, eip := cpu.reg .eip, ordinal
                         detail := "kernel import not implemented: " ++ nameOf ordinal }
  registers : ∀ register, next.reg register = cpu.reg register
  instructions : next.instructions = cpu.instructions

/-- A word fits, and so does the zero in its place. -/
theorem word_getD (ram : XbeRam) (addr : Nat) : (ram.read32 addr).getD 0 < 2 ^ 32 := by
  cases reading : ram.read32 addr with
  | none => exact Nat.two_pow_pos 32
  | some value => exact XbeRam.read32_lt reading

/-- The virtual return pops the address and the arguments, and puts the reply into its registers. -/
theorem returnToCaller_returned (lawful : em.Lawful) {entry : Export} {ram : XbeRam} {pushed : Nat}
    (pops : entry.stackBytes = 4 * pushed) (reply : Reply) (edx : Nat) :
    Returned cpu (cpu.returnToCaller ram entry reply.value edx) ram entry.ordinal pushed reply edx := by
  have returnAddress := word_getD ram (cpu.reg .esp)
  constructor
  case eip =>
    rw [reg, returnToCaller, lawful, if_pos rfl, UInt32.toNat_ofNat', Nat.mod_eq_of_lt returnAddress]
  case resumes =>
    rw [reg, returnToCaller, lawful, if_pos rfl, UInt32.toNat_ofNat', Nat.mod_eq_of_lt returnAddress]
  case esp =>
    rw [reg, returnToCaller, lawful, if_neg Reg.noConfusion, lawful, if_pos rfl, UInt32.toNat_ofNat', pops]
    omega
  case eax =>
    rw [reg, returnToCaller, lawful, if_neg Reg.noConfusion, lawful, if_neg Reg.noConfusion]
    split
    · rw [lawful, if_neg Reg.noConfusion, lawful, if_pos rfl, UInt32.toNat_ofNat']
    · rw [lawful, if_pos rfl, UInt32.toNat_ofNat']
  case edx =>
    rw [reg, returnToCaller, lawful, if_neg Reg.noConfusion, lawful, if_neg Reg.noConfusion]
    split
    · rw [lawful, if_pos rfl, UInt32.toNat_ofNat']
    · rw [lawful, if_neg Reg.noConfusion]
      rfl
  case ecx =>
    rw [reg, returnToCaller, lawful, if_neg Reg.noConfusion, lawful, if_neg Reg.noConfusion]
    split
    · rw [lawful, if_neg Reg.noConfusion, lawful, if_neg Reg.noConfusion]
      rfl
    · rw [lawful, if_neg Reg.noConfusion]
      rfl
  all_goals rfl

/-- No export takes more than 40 bytes. -/
theorem argBytes_few {entry : Export} (exported : findExport ordinal = some entry) : entry.argBytes ≤ 40 := by
  have bounds : ∀ listed ∈ kExports, listed.argBytes ≤ 40 := by decide +kernel
  exact bounds entry (List.mem_of_find?_eq_some exported)

/-- **The virtual return.** A caller passes parameters to an export whose convention lets the callee
pop them. Then the kernel gets exactly these parameters; when it answers, the CPU is where a callee
of the convention would leave it, with the stack as before the parameters were pushed; when it
fails, the fault names the export.

Proof: the arguments that are read off the registers and the stack are the parameters, and what the
export pops is what was pushed for it. -/
theorem call_balanced (lawful : em.Lawful) (quiet : world.Quiet) {entry : Export}
    (exported : findExport ordinal = some entry) {params : List UInt32}
    (passed : Passed entry cpu kernel.krnl.ram params) :
    match world.answer cpu.served.length kernel ordinal params with
    | none => handleHleCall world cpu kernel ordinal = none
    | some (after, reply, edx) => ∃ next, handleHleCall world cpu kernel ordinal = some (next, after) ∧
        if reply.ok then Returned cpu next after.krnl.ram ordinal (entry.onStack params).length reply edx
        else Faulted cpu next ordinal := by
  have few : params.length ≤ 14 := by
    have bytes := argBytes_few exported
    have length := passed.length
    omega
  have function : entry.conv ≠ .data := by
    rcases passed.pops with stdcall | ⟨fastcall, -⟩
    · rw [stdcall]
      exact Conv.noConfusion
    · rw [fastcall]
      exact Conv.noConfusion
  have named : entry.ordinal = ordinal := (exported_small exported).1
  rw [handleHleCall, exported]
  simp only [if_neg function, passed.arguments few]
  cases world.answer cpu.served.length kernel ordinal params with
  | none => rfl
  | some answered =>
    obtain ⟨after, reply, edx⟩ := answered
    let mapped : HleCpu em := { cpu with engine := world.remapped cpu.served.length cpu.engine }
    have same (register : Reg) : mapped.reg register = cpu.reg register :=
      congrArg UInt32.toNat (quiet cpu.served.length cpu.engine register)
    cases ok : reply.ok with
    | true =>
      obtain ⟨eip, resumes, esp, eax, wide, ecx, fault, instructions⟩ :
          Returned mapped (mapped.returnToCaller after.krnl.ram entry reply.value edx) _ _ _ _ _ :=
        returnToCaller_returned lawful passed.stackBytes reply edx
      rw [same] at eip esp wide ecx
      exact ⟨mapped.returnToCaller after.krnl.ram entry reply.value edx, if_pos ok,
        (if_pos ok).mpr ⟨eip, resumes, esp, eax, named ▸ wide, ecx, fault, instructions⟩⟩
    | false =>
      have refused : ¬ reply.ok = true := by rw [ok]; exact Bool.false_ne_true
      exact ⟨mapped.missing ordinal, if_neg refused, (if_neg refused).mpr ⟨by rw [missing, same], same, rfl⟩⟩

/-- The stack is at `0x100`, and everything else is zero. -/
def callingCpu : HleCpu registersOnly := { engine := fun register => if register = .esp then 0x100 else 0 }

/-- A host on which no fiber is switched in again. -/
def aloneWorld (em : Emulator) : Surroundings em :=
  { platform := fun _ =>
      { findExport := exportConv, qpcNow := 0, printf := { high := fun _ _ => 0, unspecified := fun _ _ => [] }
        stackRegion := none }
    resumed := fun _ _ => none
    remapped := fun _ engine => engine }

/-- The first page of the window is committed. -/
def aloneKernel : Kernel := { krnl := { ram := { committed := fun page => page == 0 } } }

/-- The words on the stack: the return address, and sixteen bytes at `0x800` as the parameters. -/
def callingStack : List UInt8 := [0x45, 0x23, 0x01, 0, 0, 0x08, 0, 0, 0x10, 0, 0, 0]

/-- The memory that is not on the stack has bytes of ones. -/
def callingKernel : Kernel :=
  { krnl :=
      { ram :=
          { committed := fun page => page == 0
            bytes := fun address => if address < 0x100 then 0xFF else callingStack.getD (address - 0x100) 0xFF } } }

/-- `RtlZeroMemory(0x800, 16)` clears these bytes and returns behind its parameters. -/
theorem zeroMemory_balanced : ∃ next after,
    handleHleCall (aloneWorld registersOnly) callingCpu callingKernel 320 = some (next, after) ∧
      next.reg .eip = 0x12345 ∧ next.reg .esp = 0x10C ∧ after.krnl.ram.bytes 0x80F = 0 ∧
        after.krnl.ram.bytes 0x810 = 0xFF := by
  have passed : Passed ⟨320, "RtlZeroMemory", .stdcall, 8⟩ callingCpu callingKernel.krnl.ram [0x800, 0x10] := by
    refine ⟨Or.inl rfl, rfl, fun fastcall => Conv.noConfusion fastcall, fun fastcall => Conv.noConfusion fastcall,
      fun index param pushed => ?_⟩
    match index with
    | 0 | 1 =>
      obtain rfl := Option.some.inj pushed
      decide +kernel
  have quiet : (aloneWorld registersOnly).Quiet := fun _ _ _ => rfl
  have exported : findExport 320 = some ⟨320, "RtlZeroMemory", .stdcall, 8⟩ := by decide +kernel
  have balanced := call_balanced (fun _ _ _ _ => rfl) quiet exported passed
  have clears : ((aloneWorld registersOnly).answer callingCpu.served.length callingKernel 320 [0x800, 0x10]).map
      (fun answer => (answer.2.1.ok, answer.1.krnl.ram.bytes 0x80F, answer.1.krnl.ram.bytes 0x810,
        answer.1.krnl.ram.read32 0x100)) = some (true, 0, 0xFF, some 0x12345) := by
    decide +kernel
  obtain ⟨⟨after, reply, edx⟩, answered, seen⟩ := Option.map_eq_some_iff.mp clears
  obtain ⟨ok, cleared, kept, target⟩ : reply.ok = true ∧ after.krnl.ram.bytes 0x80F = 0 ∧
      after.krnl.ram.bytes 0x810 = 0xFF ∧ after.krnl.ram.read32 0x100 = some 0x12345 := by
    simpa using seen
  rw [answered] at balanced
  obtain ⟨next, handled, outcome⟩ := balanced
  rw [if_pos ok] at outcome
  have stack : callingCpu.reg .esp = 0x100 := by decide
  refine ⟨next, after, handled, ?_, ?_, cleared, kept⟩
  · rw [outcome.eip, stack, target]
    rfl
  · rw [outcome.esp, stack]
    rfl

end HleCpu

end SeriesxEmu
