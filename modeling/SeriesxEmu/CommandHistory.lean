import SeriesxEmu.RejectedPackets
import SeriesxEmu.Transcripts
import Mathlib.Algebra.BigOperators.Group.List.Basic

/-!
# The counters of the command processor

Everything that the command processor reports is a function of the packets it has been given and of
the results it has returned: no call of the title, of the memory's owner or of the hook for tests makes
it report anything else.
-/

namespace SeriesxEmu

/-- The packets of the old log. -/
structure GpuPacket where
  type : Nat := 0
  addr : Nat := 0
  size : Nat := 0
deriving DecidableEq, Repr

namespace GpuStub

open Transcripts

/-- `submit`: the packet is counted and logged. -/
def submit (gpu : GpuStub) (pkt : GpuPacket) : GpuStub :=
  let counted := gpu.counted
  { counted with
      lastLog := "gpu pkt#" ++ toString counted.submitted ++ " type=" ++ toString pkt.type ++ " addr=0x" ++
        String.ofList (Nat.toDigits 16 pkt.addr) ++ " size=" ++ toString pkt.size }

/-- `gpu_complete`. -/
def gpuComplete (gpu : GpuStub) (value : Nat) : GpuStub :=
  if gpu.fenceCompleted < value ∧ value ≤ gpu.fenceSignalled then { gpu with fenceCompleted := value } else gpu

/-- What happens to the command processor. -/
inductive Action where
  | memory (op : MemMap.Op)
  | submit (pkt : GpuPacket)
  | submitXbox (pkt : XboxPacket) (qpc : Nat)
  | gpuComplete (value : Nat)
deriving DecidableEq

/-- One such action, with its result. -/
def serve (gpu : GpuStub) : Action → GpuStub × Bool
  | .memory op => ({ gpu with mem := gpu.mem.map (fun mem => (mem.exec op).1) }, true)
  | .submit pkt => (gpu.submit pkt, true)
  | .submitXbox pkt qpc => gpu.submitXbox pkt qpc
  | .gpuComplete value => (gpu.gpuComplete value, true)

/-! ## What a packet adds -/

/-- A packet with the value of the host's counter when it came and the result. -/
structure Entry where
  pkt : XboxPacket
  qpc : Nat
  ok : Bool

namespace Entry

/-- The packet was accepted and is of the type. -/
def isType (type : XboxPktType) (entry : Entry) : Bool := entry.ok && entry.pkt.type == type

/-- A refusal that counts: an unknown operation is refused without an error. -/
def isError (entry : Entry) : Bool :=
  !entry.ok && match entry.pkt.type with
    | .other _ => false
    | _ => true

/-- The bytes that it filled. -/
def filled (entry : Entry) : Nat :=
  if entry.isType .fillMemory then entry.pkt.dst.size
  else if entry.isType .clearRenderTarget then clearSize entry.pkt
  else 0

/-- The bytes that it copied. -/
def copied (entry : Entry) : Nat := if entry.isType .copyMemory then entry.pkt.dst.size else 0

/-- The fence that it signalled. -/
def fence (entry : Entry) : Option Nat := if entry.isType .fenceSignal then some entry.pkt.fenceValue else none

end Entry

/-- The packets of a dialogue. -/
def entries (past : List (Action × Bool)) : List Entry :=
  past.filterMap (fun exchange =>
    match exchange.1 with
    | .submitXbox pkt qpc => some { pkt, qpc, ok := exchange.2 }
    | _ => none)

/-- All packets, those of the old log too. -/
def packets (past : List (Action × Bool)) : Nat :=
  past.countP (fun exchange =>
    match exchange.1 with
    | .submit _ | .submitXbox _ _ => true
    | _ => false)

/-- The value of the counter at the last flip. -/
def lastFlip (entries : List Entry) : Nat :=
  ((entries.filter (Entry.isType .flip)).getLast?.map Entry.qpc).getD 0

/-- The state that a list of packets leads to. -/
structure Accounts (entries : List Entry) (gpu : GpuStub) : Prop where
  errors : gpu.errors = entries.countP Entry.isError % 2 ^ 64
  frameId : gpu.frameId = entries.countP (Entry.isType .flip) % 2 ^ 64
  lastFlipQpc : gpu.lastFlipQpc = lastFlip entries
  timestamps : gpu.timestamps = (entries.filter (Entry.isType .timestamp)).map Entry.qpc
  clears : gpu.clears = entries.countP (Entry.isType .clearRenderTarget) % 2 ^ 64
  bytesFilled : gpu.bytesFilled = (entries.map Entry.filled).sum % 2 ^ 64
  bytesCopied : gpu.bytesCopied = (entries.map Entry.copied).sum % 2 ^ 64
  fences : (entries.filterMap Entry.fence).Pairwise (· < ·)
  fenceSignalled : gpu.fenceSignalled = (entries.filterMap Entry.fence).getLast?.getD 0
  fenceCompleted : gpu.fenceCompleted = gpu.fenceSignalled
  admitted : ∀ before entry after, entries = before ++ entry :: after → entry.pkt.type = .fenceSignal →
    (entry.ok = true ↔ (before.filterMap Entry.fence).getLast?.getD 0 < entry.pkt.fenceValue)

/-- A new command processor has no history. -/
theorem accounts_start (mem : Option MemMap) : Accounts [] { mem } :=
  ⟨rfl, rfl, rfl, rfl, rfl, rfl, rfl, List.Pairwise.nil, rfl, rfl, by simp⟩

/-- A counter grows by this, modulo 2^64. -/
def Adds (before after count : Nat) : Prop := after = (before + count) % 2 ^ 64 ∨ after = before ∧ count = 0

/-- Nothing is added. -/
theorem Adds.same (value : Nat) : Adds value value 0 := Or.inr ⟨rfl, rfl⟩

/-- A counter that wraps adds up. -/
theorem Adds.total {before after count total : Nat} (adds : Adds before after count)
    (counted : before = total % 2 ^ 64) : after = (total + count) % 2 ^ 64 := by
  rcases adds with rfl | ⟨rfl, rfl⟩
  · rw [counted, Nat.mod_add_mod]
  · exact counted

/-- What one packet changes. -/
structure Added (gpu next : GpuStub) (entry : Entry) : Prop where
  submitted : next.submitted = gpu.submitted
  errors : Adds gpu.errors next.errors entry.isError.toNat
  frameId : Adds gpu.frameId next.frameId (entry.isType .flip).toNat
  lastFlipQpc : next.lastFlipQpc = if entry.isType .flip then entry.qpc else gpu.lastFlipQpc
  timestamps : next.timestamps = gpu.timestamps ++ if entry.isType .timestamp then [entry.qpc] else []
  clears : Adds gpu.clears next.clears (entry.isType .clearRenderTarget).toNat
  bytesFilled : Adds gpu.bytesFilled next.bytesFilled entry.filled
  bytesCopied : Adds gpu.bytesCopied next.bytesCopied entry.copied
  fenceSignalled : next.fenceSignalled = entry.fence.getD gpu.fenceSignalled
  fenceCompleted : next.fenceCompleted = entry.fence.getD gpu.fenceCompleted
  admitted : entry.pkt.type = .fenceSignal → (entry.ok = true ↔ gpu.fenceSignalled < entry.pkt.fenceValue)

variable {gpu next : GpuStub} {pkt : XboxPacket} {qpc : Nat}

/-- A refusal, whatever has become of the memory. -/
theorem Added.refuse (gpu : GpuStub) (mem : Option MemMap) (known : ∀ value, pkt.type ≠ .other value)
    (regression : pkt.type = .fenceSignal → pkt.fenceValue ≤ gpu.fenceSignalled) :
    Added gpu (GpuStub.refuse { gpu with mem }).1 ⟨pkt, qpc, false⟩ := by
  have error : Entry.isError ⟨pkt, qpc, false⟩ = true := by
    simp only [Entry.isError]
    cases type : pkt.type with
    | other value => exact absurd type (known value)
    | _ => rfl
  constructor
  · rfl
  · rw [error]
    exact Or.inl rfl
  · exact Adds.same _
  · rfl
  · exact (List.append_nil _).symm
  · exact Adds.same _
  · exact Adds.same _
  · exact Adds.same _
  · rfl
  · rfl
  · intro fence
    exact iff_of_false Bool.false_ne_true (Nat.not_lt.mpr (regression fence))

/-- What a packet adds to each counter.

Proof: by the type of the packet, and within it along the checks. Every refusal is one and the same
packet that adds nothing but the error. -/
theorem execute_added (gpu : GpuStub) (pkt : XboxPacket) (qpc : Nat) :
    Added gpu (gpu.execute pkt qpc).1 ⟨pkt, qpc, (gpu.execute pkt qpc).2⟩ := by
  obtain ⟨type, dst, src, pattern, color, rtWidth, rtHeight, fenceValue⟩ := pkt
  let pkt : XboxPacket := { type, dst, src, pattern, color, rtWidth, rtHeight, fenceValue }
  have refused (known : ∀ value, type ≠ .other value) (other : type ≠ .fenceSignal) (mem : Option MemMap) :
      Added gpu (GpuStub.refuse { gpu with mem }).1 ⟨pkt, qpc, false⟩ :=
    Added.refuse gpu mem known fun fence => absurd fence other
  cases type with
  | nop | other value =>
    exact ⟨rfl, Adds.same _, Adds.same _, rfl, (List.append_nil _).symm, Adds.same _, Adds.same _, Adds.same _,
      rfl, rfl, fun fence => by cases fence⟩
  | flip =>
    exact ⟨rfl, Adds.same _, Or.inl rfl, rfl, (List.append_nil _).symm, Adds.same _, Adds.same _, Adds.same _,
      rfl, rfl, fun fence => by cases fence⟩
  | timestamp =>
    exact ⟨rfl, Adds.same _, Adds.same _, rfl, rfl, Adds.same _, Adds.same _, Adds.same _,
      rfl, rfl, fun fence => by cases fence⟩
  | fenceSignal =>
    simp only [execute, fenceSignal]
    split
    · rename_i later
      exact ⟨rfl, Adds.same _, Adds.same _, rfl, (List.append_nil _).symm, Adds.same _, Adds.same _, Adds.same _,
        rfl, rfl, fun _ => iff_of_true rfl later⟩
    · rename_i regression
      exact Added.refuse gpu gpu.mem (fun _ => XboxPktType.noConfusion) fun _ => Nat.le_of_not_lt regression
  | fillMemory =>
    have refuse := refused (fun _ => XboxPktType.noConfusion) XboxPktType.noConfusion
    simp only [execute, fillMemory]
    split
    · exact refuse gpu.mem
    · split
      · split
        · exact ⟨rfl, Adds.same _, Adds.same _, rfl, (List.append_nil _).symm, Adds.same _, Or.inl rfl, Adds.same _,
            rfl, rfl, fun fence => by cases fence⟩
        · exact refuse _
      · exact refuse gpu.mem
  | copyMemory =>
    have refuse := refused (fun _ => XboxPktType.noConfusion) XboxPktType.noConfusion
    simp only [execute, copyMemory]
    split
    · exact refuse gpu.mem
    · split
      · split
        · exact refuse gpu.mem
        · split
          · exact ⟨rfl, Adds.same _, Adds.same _, rfl, (List.append_nil _).symm, Adds.same _, Adds.same _, Or.inl rfl,
              rfl, rfl, fun fence => by cases fence⟩
          · exact refuse _
      · exact refuse gpu.mem
  | clearRenderTarget =>
    have refuse := refused (fun _ => XboxPktType.noConfusion) XboxPktType.noConfusion
    simp only [execute, clearRenderTarget]
    split
    · exact refuse gpu.mem
    · split
      · split
        · exact ⟨rfl, Adds.same _, Adds.same _, rfl, (List.append_nil _).symm, Or.inl rfl, Or.inl rfl, Adds.same _,
            rfl, rfl, fun fence => by cases fence⟩
        · exact refuse _
      · exact refuse gpu.mem

/-! ## The account of a dialogue -/

/-- A fence is signalled by an accepted packet for it. -/
theorem fence_some {entry : Entry} {value : Nat} (signals : entry.fence = some value) :
    entry.ok = true ∧ entry.pkt.type = .fenceSignal ∧ entry.pkt.fenceValue = value := by
  rw [Entry.fence] at signals
  split at signals
  · rename_i signalled
    rw [Entry.isType, Bool.and_eq_true, beq_iff_eq] at signalled
    exact ⟨signalled.1, signalled.2, Option.some.inj signals⟩
  · cases signals

/-- The last of an increasing list bounds it. -/
theorem le_last {values : List Nat} (increasing : values.Pairwise (· < ·)) :
    ∀ value ∈ values, value ≤ values.getLast?.getD 0 := by
  rcases List.eq_nil_or_concat values with rfl | ⟨before, last, rfl⟩
  · intro value member
    cases member
  · rw [List.concat_eq_append] at increasing ⊢
    rw [List.getLast?_concat, Option.getD_some]
    intro value member
    rcases List.mem_append.mp member with early | here
    · exact ((List.pairwise_append.mp increasing).2.2 value early last List.mem_cons_self).le
    · exact (List.mem_singleton.mp here).le

/-- One more packet is accounted for.

Proof: a count, a sum and a list over the longer history split at the last entry, and what that
entry adds is what the packet has added. -/
theorem Accounts.push {entries : List Entry} {entry : Entry} (accounts : Accounts entries gpu)
    (added : Added gpu next entry) : Accounts (entries ++ [entry]) next := by
  have one (select : Entry → Bool) :
      (entries ++ [entry]).countP select = entries.countP select + (select entry).toNat := by
    rw [List.countP_append, List.countP_singleton]
    cases select entry <;> rfl
  have value (amount : Entry → Nat) :
      ((entries ++ [entry]).map amount).sum = (entries.map amount).sum + amount entry := by
    rw [List.map_append, List.sum_append, List.map_singleton, List.sum_singleton]
  have fences : (entries ++ [entry]).filterMap Entry.fence = entries.filterMap Entry.fence ++ entry.fence.toList := by
    rw [List.filterMap_append]
    cases signals : entry.fence with
    | none => rw [List.filterMap_cons_none signals, List.filterMap_nil, Option.toList_none]
    | some value => rw [List.filterMap_cons_some signals, List.filterMap_nil, Option.toList_some]
  have signalled : next.fenceSignalled = ((entries ++ [entry]).filterMap Entry.fence).getLast?.getD 0 := by
    rw [added.fenceSignalled, fences]
    cases entry.fence with
    | none =>
      rw [Option.toList_none, List.append_nil]
      exact accounts.fenceSignalled
    | some value => rw [Option.toList_some, List.getLast?_concat, Option.getD_some, Option.getD_some]
  constructor
  · rw [one]
    exact added.errors.total accounts.errors
  · rw [one]
    exact added.frameId.total accounts.frameId
  · rw [added.lastFlipQpc, lastFlip, List.filter_append]
    by_cases flips : entry.isType .flip = true
    · rw [if_pos flips, List.filter_cons_of_pos flips, List.filter_nil, List.getLast?_concat]
      rfl
    · rw [if_neg flips, List.filter_cons_of_neg flips, List.filter_nil, List.append_nil]
      exact accounts.lastFlipQpc
  · rw [added.timestamps, accounts.timestamps, List.filter_append, List.map_append]
    by_cases stamps : entry.isType .timestamp = true
    · rw [if_pos stamps, List.filter_cons_of_pos stamps]
      rfl
    · rw [if_neg stamps, List.filter_cons_of_neg stamps]
      rfl
  · rw [one]
    exact added.clears.total accounts.clears
  · rw [value]
    exact added.bytesFilled.total accounts.bytesFilled
  · rw [value]
    exact added.bytesCopied.total accounts.bytesCopied
  · rw [fences, List.pairwise_append]
    refine ⟨accounts.fences, ?_, ?_⟩
    · cases entry.fence with
      | none => exact List.Pairwise.nil
      | some value => exact List.pairwise_singleton _ value
    · intro earlier member value signals
      obtain ⟨ok, type, same⟩ := fence_some (Option.mem_toList.mp signals)
      have later := (added.admitted type).mp ok
      rw [same, accounts.fenceSignalled] at later
      exact Nat.lt_of_le_of_lt (le_last accounts.fences earlier member) later
  · exact signalled
  · rw [added.fenceCompleted, added.fenceSignalled, accounts.fenceCompleted]
  · intro before other after split type
    rcases List.eq_nil_or_concat after with rfl | ⟨rest, last, rfl⟩
    · obtain ⟨same, here⟩ := List.append_inj' split rfl
      obtain rfl := (List.cons.inj here).1
      rw [← same, ← accounts.fenceSignalled]
      exact added.admitted type
    · rw [List.concat_eq_append, ← List.cons_append, ← List.append_assoc] at split
      exact accounts.admitted before other rest (List.append_inj_left' split rfl) type

/-- What holds after a dialogue: the packets account for the counters. -/
structure Explained (past : List (Action × Bool)) (gpu : GpuStub) : Prop where
  submitted : gpu.submitted = packets past % 2 ^ 64
  accounts : Accounts (entries past) gpu

/-- The account does not depend on memory and on the other log. -/
theorem Accounts.congr {entries : List Entry} (accounts : Accounts entries gpu)
    (same : { gpu with mem := next.mem, submitted := next.submitted, lastLog := next.lastLog } = next) :
    Accounts entries next := by
  rw [← same]
  exact ⟨accounts.1, accounts.2, accounts.3, accounts.4, accounts.5, accounts.6, accounts.7, accounts.8, accounts.9,
    accounts.10, accounts.11⟩

/-- The packets after one more action. -/
theorem entries_append (past : List (Action × Bool)) (action : Action) (ok : Bool) :
    entries (past ++ [(action, ok)]) = entries past ++ entries [(action, ok)] := List.filterMap_append

/-- The same for the other kind. -/
theorem packets_append (past : List (Action × Bool)) (action : Action) (ok : Bool) :
    packets (past ++ [(action, ok)]) = packets past + packets [(action, ok)] := List.countP_append

/-- Every action keeps the counters explained. -/
theorem explained_serve (past : List (Action × Bool)) (gpu : GpuStub) (action : Action)
    (explained : Explained past gpu) : Explained (past ++ [(action, (gpu.serve action).2)]) (gpu.serve action).1 := by
  obtain ⟨submitted, accounts⟩ := explained
  have counted : gpu.counted.submitted = (packets past + 1) % 2 ^ 64 := by
    rw [GpuStub.counted, submitted, Nat.mod_add_mod]
  constructor
  · rw [packets_append]
    cases action with
    | memory op => exact submitted
    | submit pkt => exact counted
    | submitXbox pkt qpc => exact (execute_added gpu.counted pkt qpc).submitted.trans counted
    | gpuComplete value =>
      simp only [serve, gpuComplete]
      split
      · exact submitted
      · exact submitted
  · rw [entries_append]
    cases action with
    | memory op =>
      rw [entries, entries, List.filterMap_cons_none rfl, List.filterMap_nil, List.append_nil]
      exact accounts.congr rfl
    | submit pkt =>
      rw [entries, entries, List.filterMap_cons_none rfl, List.filterMap_nil, List.append_nil]
      exact accounts.congr rfl
    | submitXbox pkt qpc =>
      have pushed := (accounts.congr rfl).push (execute_added gpu.counted pkt qpc)
      exact pushed.congr rfl
    | gpuComplete value =>
      rw [entries, entries, List.filterMap_cons_none rfl, List.filterMap_nil, List.append_nil]
      have idle : gpu.gpuComplete value = gpu := by
        rw [gpuComplete, accounts.fenceCompleted, if_neg (by omega)]
      rw [serve, idle]
      exact accounts

/-- **The counters are the history.** After every sequence of packets of both kinds, changes of the
memory by others and calls of the hook for tests, each number that the command processor reports is
the one that its packets and their results add up to; fences were accepted in increasing order, each
exactly when its value was beyond the last, and the last one accepted is both signalled and
completed.

Proof: `Explained` is the invariant of the dialogue, and every request adds to the counters what it
adds to the history. -/
theorem counters_explained (mem : Option MemMap) (actions : List Action) :
    Explained (dialogue serve { mem } actions) (after serve { mem } actions) :=
  @dialogue_invariant _ _ _ serve Explained explained_serve actions [] { mem } ⟨rfl, accounts_start mem⟩

end GpuStub

end SeriesxEmu
