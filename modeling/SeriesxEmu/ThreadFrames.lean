import SeriesxEmu.CpuMappings
import SeriesxEmu.GuestWords
import SeriesxEmu.Objects
import Mathlib.Data.List.Induction

/-!
# The entry frame of a system thread

`run_system_thread` hands out a stack and pushes the return address and the arguments of
the thread routine. The return address is pushed first, so it ends up above the arguments.
-/

namespace SeriesxEmu

/-- A guest routine that returns here leaves the guest. -/
def kExitVa : Nat := kHleMarker ||| 0x0FFF

namespace XbeRam

/-! ## Pushing words -/

/-- The `push` of `run_system_thread`. -/
def push (state : XbeRam × Nat) (value : Nat) : XbeRam × Nat :=
  let esp := (state.2 + 2 ^ 32 - 4) % 2 ^ 32
  (state.1.write32 esp value, esp)

/-- The words lie below the place, the first one highest. -/
structure Stacked (ram : XbeRam) (top : Nat) (words : List Nat) (after : XbeRam × Nat) : Prop where
  esp : after.2 + 4 * words.length = top
  within : ram.Within after.1 after.2 top
  words : ∀ i (inside : i < words.length), after.1.read32 (top - 4 * (i + 1)) = some (words[i] % 2 ^ 32)

variable {ram : XbeRam} {addr size : Nat}

/-- Words that are pushed onto writable memory. -/
theorem stacked_push (usable : ram.writable addr size = true) (word : addr + size < 2 ^ 32) (words : List Nat)
    (room : 4 * words.length ≤ size) : Stacked ram (addr + size) words (words.foldl push (ram, addr + size)) := by
  induction words using List.reverseRecOn with
  | nil => exact ⟨rfl, Within.refl _ _ _, nofun⟩
  | append_singleton before value inductionHypothesis =>
    rw [List.length_append, List.length_singleton] at room
    obtain ⟨esp, within, each⟩ := inductionHypothesis (by omega)
    rw [List.foldl_append, List.foldl_cons, List.foldl_nil]
    generalize before.foldl push (ram, addr + size) = state at esp within each
    have lower : (state.2 + 2 ^ 32 - 4) % 2 ^ 32 = state.2 - 4 := by omega
    have still : state.1.writable addr size = true := by
      rw [within.writable]
      exact usable
    have usableWord : state.1.writable (state.2 - 4) 4 = true := writable_word still (by omega) (by omega)
    have place : push state value = (state.1.write32 (state.2 - 4) value, state.2 - 4) := by rw [push, lower]
    rw [place]
    refine ⟨?_, ?_, fun i inside => ?_⟩
    · simp only [List.length_append, List.length_singleton]
      omega
    · refine (within.mono (by omega) (Nat.le_refl _)).trans ?_
      exact (Within.write32 _ _ _).mono (Nat.le_refl _) (by omega)
    · simp only [List.length_append, List.length_singleton] at inside
      by_cases last : i = before.length
      · -- The new word lies below the others.
        have lowest : addr + size - 4 * (i + 1) = state.2 - 4 := by omega
        simp only [last, List.getElem_concat_length]
        rw [← last, lowest]
        exact read32_write32 usableWord value
      · have earlier : i < before.length := by omega
        have above : state.2 - 4 + 4 ≤ addr + size - 4 * (i + 1) := by omega
        rw [read32_write32_other (Or.inl above), List.getElem_append_left earlier]
        exact each i earlier

/-- From the stack pointer upwards the words lie in the opposite order. -/
theorem Stacked.upward {top : Nat} {words : List Nat} {after : XbeRam × Nat} (stacked : Stacked ram top words after)
    {i value : Nat} (found : words.reverse[i]? = some value) :
    after.1.read32 (after.2 + 4 * i) = some (value % 2 ^ 32) := by
  obtain ⟨inside, same⟩ := List.getElem?_eq_some_iff.mp found
  rw [List.length_reverse] at inside
  have place : after.2 + 4 * i = top - 4 * (words.length - 1 - i + 1) := by
    have esp := stacked.esp
    omega
  rw [List.getElem_reverse] at same
  rw [place, stacked.words (words.length - 1 - i) (by omega), same]

end XbeRam

namespace UnicornRuntime

variable {uc : Unicorn}

/-- What `cpu.run` is called with. -/
structure ThreadEntry where
  teb : Nat
  entry : Nat
  esp : Nat
deriving DecidableEq, Repr

/-- The size of the stack: the requested one when it is plausible. -/
def stackBytes (info : StartInfo) : Nat := if 0x2000 ≤ info.kernelStackSize then info.kernelStackSize else 0x10000

/-- The words that `run_system_thread` pushes, in this order. -/
def pushedWords (info : StartInfo) : List Nat :=
  if info.systemRoutine ≠ 0 then [kExitVa, info.startContext, info.startRoutine] else [kExitVa, info.startContext]

/-- `run_system_thread` up to the call of `cpu.run`, from what `thread_start_info` gives. Without an
entry nothing is run. No result when the fill of an allocation faults. -/
def runSystemThread (rt : UnicornRuntime uc) (info : Option StartInfo) :
    Option (UnicornRuntime uc × Option ThreadEntry) :=
  match info with
  | none => some (rt, none)
  | some info =>
    if info.startRoutine = 0 then some (rt, none)
    else
      match rt.buildTeb with
      | none => none
      | some (built, teb) =>
        match GuestCpu.attach uc built.pool.ram with
        | none => some (built, none)
        | some cpu =>
          match { built with cpus := built.cpus ++ [cpu] }.allocStack (stackBytes info) with
          | none => none
          | some (stacked, top) =>
            if top = 0 then some (stacked, none)
            else
              let entry := if info.systemRoutine ≠ 0 then info.systemRoutine else info.startRoutine
              let (ram, esp) := (pushedWords info).foldl XbeRam.push (stacked.pool.ram, top)
              some ({ stacked with pool := { stacked.pool with ram } }, some { teb, entry, esp })

/-! ## The stack -/

variable {rt next : UnicornRuntime uc}

/-- `alloc_pages` keeps the page size and does not raise its cursor; what it hands out can be written. -/
theorem allocPages_writable (paged : 0 < rt.pool.ram.pageSize) {bytes base : Nat}
    (applied : rt.allocPages bytes = some (next, base)) :
    (0 < next.pool.ram.pageSize ∧ next.top ≤ rt.top) ∧ (base ≠ 0 →
      next.pool.ram.writable base (pageRound bytes) = true ∧ next.top = base ∧ base + pageRound bytes = rt.top) := by
  unfold allocPages at applied
  cases found : rt.pagesBelow bytes with
  | none =>
    rw [found] at applied
    obtain ⟨rfl, rfl⟩ := Prod.mk.inj (Option.some.inj applied)
    exact ⟨⟨paged, Nat.le_refl _⟩, fun positive => absurd rfl positive⟩
  | some start =>
    have reaches := pagesBelow_reaches found
    simp only [found] at applied
    split at applied
    · obtain ⟨rfl, rfl⟩ := Prod.mk.inj (Option.some.inj applied)
      exact ⟨⟨paged, Nat.le_refl _⟩, fun positive => absurd rfl positive⟩
    · rename_i ram committing
      obtain ⟨filled, fills, result⟩ := Option.map_eq_some_iff.mp applied
      obtain ⟨rfl, rfl⟩ := Prod.mk.inj result
      have fits : 0 < pageRound bytes ∧ start + pageRound bytes ≤ rt.pool.ram.size :=
        XbeRam.commit_ok.mp (congrArg Prod.snd committing)
      obtain ⟨_, becomes⟩ := XbeRam.commit_becomes paged fits
      rw [committing] at becomes
      have still : 0 < ram.pageSize := by
        rw [becomes.pageSize]
        exact paged
      -- The pages have just been committed, so the fill has gone through and they are writable.
      have held : ram.isCommitted start (pageRound bytes) = true := by
        rw [XbeRam.isCommitted_iff still, becomes.size]
        refine ⟨fits, fun page covered => ?_⟩
        rw [XbeRam.Covers.congr becomes.pageSize] at covered
        rw [becomes.committed, decide_eq_true covered, Bool.or_true]
      rw [XbeRam.hostPtr_of_committed still held] at fills
      simp only [XbeRam.zeroFill] at fills
      split at fills
      · rename_i usable
        cases fills
        exact ⟨⟨still, Nat.le.intro reaches⟩, fun _ => ⟨usable, rfl, reaches⟩⟩
      · cases fills

/-- A stack that is handed out can be written up to the place where the words are pushed. -/
theorem allocStack_writable (paged : 0 < rt.pool.ram.pageSize) (word : rt.top < 2 ^ 32) {bytes top : Nat}
    (applied : rt.allocStack bytes = some (next, top)) (handed : top ≠ 0) :
    next.pool.ram.writable next.top (pageRound bytes) = true ∧ top = next.top + pageRound bytes ∧ top < 2 ^ 32 := by
  obtain ⟨⟨after, base⟩, allocated, result⟩ := Option.map_eq_some_iff.mp applied
  obtain ⟨rfl, place⟩ := Prod.mk.inj result
  by_cases zero : base = 0
  · rw [if_pos zero] at place
    exact absurd place.symm handed
  · obtain ⟨usable, cursor, reaches⟩ := (allocPages_writable paged allocated).2 zero
    rw [if_neg zero, Nat.mod_eq_of_lt (by omega)] at place
    subst cursor
    exact ⟨usable, place.symm, by omega⟩

/-- A new thread block leaves the size of a page, and never raises the top. -/
theorem buildTeb_keeps (paged : 0 < rt.pool.ram.pageSize) {teb : Nat} (built : rt.buildTeb = some (next, teb)) :
    0 < next.pool.ram.pageSize ∧ next.top ≤ rt.top := by
  obtain ⟨⟨after, base⟩, allocated, written⟩ := Option.map_eq_some_iff.mp built
  have kept := (allocPages_writable paged allocated).1
  simp only at written
  split at written
  · obtain ⟨rfl, rfl⟩ := Prod.mk.inj written
    exact kept
  · obtain ⟨rfl, rfl⟩ := Prod.mk.inj written
    simp only [poke, (XbeRam.writeBytes_pages _ _ _).2.1]
    exact kept

/-- A page holds the words that are pushed. -/
theorem pushedWords_room {ram : XbeRam} {base bytes : Nat} (usable : ram.writable base (pageRound bytes) = true)
    (info : StartInfo) : 4 * (pushedWords info).length ≤ pageRound bytes := by
  have inside : ram.rangeOk base (pageRound bytes) = true := by
    simp only [XbeRam.writable, XbeRam.isCommitted, Bool.and_eq_true] at usable
    exact usable.1.1
  have positive := (XbeRam.rangeOk_iff.mp inside).1
  have page : kPage ≤ pageRound bytes :=
    Nat.le_of_dvd positive (Nat.dvd_of_mod_eq_zero (pageRound_whole bytes))
  have few : (pushedWords info).length ≤ 3 := by
    unfold pushedWords
    split <;> simp
  unfold kPage at page
  omega

/-- What `run_system_thread` has done when it calls `cpu.run`: the words are stacked below the top
of a stack that reaches down to the cursor. -/
theorem runSystemThread_stacked (paged : 0 < rt.pool.ram.pageSize) (word : rt.top < 2 ^ 32) {info : StartInfo}
    {start : ThreadEntry} (entered : rt.runSystemThread (some info) = some (next, some start)) :
    ∃ ram, ram.writable next.top (pageRound (stackBytes info)) = true ∧
      next.top + pageRound (stackBytes info) < 2 ^ 32 ∧
      XbeRam.Stacked ram (next.top + pageRound (stackBytes info)) (pushedWords info) (next.pool.ram, start.esp) := by
  unfold runSystemThread at entered
  simp only at entered
  split at entered
  · cases entered
  · split at entered
    · cases entered
    · rename_i built teb building
      obtain ⟨stillPaged, lower⟩ := buildTeb_keeps paged building
      split at entered
      · cases entered
      · split at entered
        · cases entered
        · rename_i stacked top stacking
          split at entered
          · cases entered
          · rename_i handed
            obtain ⟨usable, place, small⟩ :=
              allocStack_writable (by exact stillPaged) (by exact Nat.lt_of_le_of_lt lower word) stacking handed
            obtain ⟨rfl, outcome⟩ := Prod.mk.inj (Option.some.inj entered)
            cases outcome
            subst place
            exact ⟨stacked.pool.ram, usable, small, XbeRam.stacked_push usable small _ (pushedWords_room usable info)⟩

/-! ## The frame -/

/-- The arguments of the routine that is entered, in their order. -/
def routineArguments (info : StartInfo) : List Nat :=
  if info.systemRoutine ≠ 0 then [info.startRoutine, info.startContext] else [info.startContext]

/-- A return that removes the arguments: where the guest goes on, and with which stack pointer. -/
def stdcallReturn (ram : XbeRam) (esp argBytes : Nat) : Option (Nat × Nat) :=
  (ram.read32 esp).map (fun target => (target, (esp + 4 + argBytes) % 2 ^ 32))

/-- At the stack pointer lie the return address `kExitVa` and then the arguments, all inside the
stack that reaches down to the cursor. A routine that keeps its return address returns to it. -/
structure StdcallFrame (info : StartInfo) (rt : UnicornRuntime uc) (esp : Nat) : Prop where
  returnAddress : rt.pool.ram.read32 esp = some kExitVa
  arguments : ∀ i value, (routineArguments info)[i]? = some value → rt.pool.ram.read32 (esp + 4 + 4 * i) = some value
  inside : rt.top ≤ esp ∧ esp + 4 + 4 * (routineArguments info).length ≤ rt.top + pageRound (stackBytes info)
  returns : ∀ later : XbeRam, later.read32 esp = rt.pool.ram.read32 esp →
    (stdcallReturn later esp (4 * (routineArguments info).length)).map Prod.fst = some kExitVa

variable {info : StartInfo} {start : ThreadEntry}

/-- From the bottom up the pushed words are the arguments and the return address. -/
theorem pushedWords_reverse (info : StartInfo) :
    (pushedWords info).reverse = routineArguments info ++ [kExitVa] := by
  unfold pushedWords routineArguments
  split <;> rfl

/-- The dwords from the stack pointer on are the arguments, and above them the return address. -/
theorem runSystemThread_words (paged : 0 < rt.pool.ram.pageSize) (word : rt.top < 2 ^ 32)
    (small : info.startRoutine < 2 ^ 32 ∧ info.startContext < 2 ^ 32)
    (entered : rt.runSystemThread (some info) = some (next, some start)) :
    (next.top ≤ start.esp ∧
        start.esp + 4 + 4 * (routineArguments info).length = next.top + pageRound (stackBytes info)) ∧
      ∀ i value, (routineArguments info ++ [kExitVa])[i]? = some value →
        next.pool.ram.read32 (start.esp + 4 * i) = some value := by
  obtain ⟨ram, usable, -, stacked⟩ := runSystemThread_stacked paged word entered
  have room := pushedWords_room usable info
  have esp := stacked.esp
  have count : (pushedWords info).length = (routineArguments info).length + 1 := by
    rw [← List.length_reverse, pushedWords_reverse, List.length_append, List.length_singleton]
  have words : ∀ value ∈ routineArguments info ++ [kExitVa], value < 2 ^ 32 := by
    have exit : kExitVa < 2 ^ 32 := by decide
    unfold routineArguments
    split
    · simpa using ⟨small.1, small.2, exit⟩
    · simpa using ⟨small.2, exit⟩
  refine ⟨by omega, fun i value found => ?_⟩
  rw [stacked.upward ((pushedWords_reverse info).symm ▸ found), Nat.mod_eq_of_lt (words value ?_)]
  exact List.mem_of_getElem? found

/-- **System threads.** The routine of a system thread is entered with a stdcall frame if and only
if everything that is pushed is the return address.

Proof: the return address is pushed first, so the frame starts with it exactly when every word above
it is the same one. -/
theorem system_thread_frame_iff (rt next : UnicornRuntime uc) (info : StartInfo) (start : ThreadEntry)
    (paged : 0 < rt.pool.ram.pageSize) (word : rt.top < 2 ^ 32)
    (small : info.startRoutine < 2 ^ 32 ∧ info.startContext < 2 ^ 32)
    (entered : rt.runSystemThread (some info) = some (next, some start)) :
    StdcallFrame info next start.esp ↔
      info.startContext = kExitVa ∧ (info.systemRoutine ≠ 0 → info.startRoutine = kExitVa) := by
  obtain ⟨inside, words⟩ := runSystemThread_words paged word small entered
  constructor
  · intro frame
    have lowest : ∀ value, (routineArguments info ++ [kExitVa])[0]? = some value → value = kExitVa := by
      intro value found
      exact Option.some.inj ((words 0 value found).symm.trans frame.returnAddress)
    by_cases system : info.systemRoutine ≠ 0
    · have shape : routineArguments info = [info.startRoutine, info.startContext] := if_pos system
      rw [shape] at lowest words
      have routine := lowest info.startRoutine rfl
      have second := frame.arguments 0 info.startRoutine (by rw [shape]; rfl)
      have context := Option.some.inj ((words 1 info.startContext rfl).symm.trans second)
      exact ⟨context.trans routine, fun _ => routine⟩
    · have shape : routineArguments info = [info.startContext] := if_neg system
      rw [shape] at lowest
      exact ⟨lowest info.startContext rfl, fun given => absurd given system⟩
  · rintro ⟨context, routine⟩
    -- All dwords of the frame are the same.
    have same : ∀ value ∈ routineArguments info, value = kExitVa := by
      unfold routineArguments
      split
      · rename_i system
        simp [context, routine system]
      · simp [context]
    have each : ∀ i, i < (routineArguments info).length + 1 →
        next.pool.ram.read32 (start.esp + 4 * i) = some kExitVa := by
      intro i bound
      have within : i < (routineArguments info ++ [kExitVa]).length := by
        rw [List.length_append, List.length_singleton]
        exact bound
      have read := words i _ (List.getElem?_eq_getElem within)
      rcases List.mem_append.mp (List.getElem_mem within) with argument | last
      · rwa [same _ argument] at read
      · rwa [List.mem_singleton.mp last] at read
    have address : next.pool.ram.read32 start.esp = some kExitVa := each 0 (Nat.succ_pos _)
    refine ⟨address, fun i value found => ?_, ⟨inside.1, Nat.le_of_eq inside.2⟩, fun later kept => ?_⟩
    · obtain ⟨bound, equal⟩ := List.getElem?_eq_some_iff.mp found
      have value_ : value = kExitVa := same value (equal ▸ List.getElem_mem bound)
      have read := each (i + 1) (Nat.succ_lt_succ bound)
      rw [value_, ← read]
      congr 1
      omega
    · rw [stdcallReturn, kept, address]
      rfl

/-- The thread is entered. -/
def entersThread (rt : UnicornRuntime uc) (info : StartInfo) : Bool :=
  match rt.runSystemThread (some info) with
  | some (_, some _) => true
  | _ => false

/-- A thread that is entered has its entry state. -/
theorem entersThread_entry (enters : rt.entersThread info = true) :
    ∃ next start, rt.runSystemThread (some info) = some (next, some start) := by
  unfold entersThread at enters
  split at enters
  · rename_i next start entered
    exact ⟨next, start, entered⟩
  · cases enters

/-- A thread without a system routine. -/
def plainThread (context : Nat) : StartInfo :=
  { startRoutine := 0x10000, startContext := context, systemRoutine := 0, kernelStackSize := 0, tlsDataSize := 0 }

/-- The routine would return to its own argument. -/
theorem plainThread_misframed : ¬ ∀ (rt next : UnicornRuntime GuestCpu.pageTable) (info : StartInfo)
    (start : ThreadEntry), 0 < rt.pool.ram.pageSize → rt.top < 2 ^ 32 →
      info.startRoutine < 2 ^ 32 ∧ info.startContext < 2 ^ 32 →
        rt.runSystemThread (some info) = some (next, some start) → StdcallFrame info next start.esp := by
  intro frames
  have enters : (create GuestCpu.pageTable emptyMemory 0 []).entersThread (plainThread 0x1234) = true := by
    decide +kernel
  obtain ⟨next, start, entered⟩ := entersThread_entry enters
  have small : (plainThread 0x1234).startRoutine < 2 ^ 32 ∧ (plainThread 0x1234).startContext < 2 ^ 32 := by decide
  have frame := frames _ _ _ _ (by decide) (by decide) small entered
  have lowest := (runSystemThread_words (by decide) (by decide) small entered).2 0 0x1234 rfl
  exact absurd (Option.some.inj (lowest.symm.trans frame.returnAddress)) (by decide)

/-- A thread without arguments finds its frame. -/
theorem exitThread_framed : ∃ next start,
    (create GuestCpu.pageTable emptyMemory 0 []).runSystemThread (some (plainThread kExitVa)) =
        some (next, some start) ∧ StdcallFrame (plainThread kExitVa) next start.esp := by
  have enters : (create GuestCpu.pageTable emptyMemory 0 []).entersThread (plainThread kExitVa) = true := by
    decide +kernel
  obtain ⟨next, start, entered⟩ := entersThread_entry enters
  refine ⟨next, start, entered, ?_⟩
  exact (system_thread_frame_iff _ next (plainThread kExitVa) start (by decide) (by decide) (by decide) entered).mpr
    ⟨rfl, fun given => absurd rfl given⟩

end UnicornRuntime

end SeriesxEmu
