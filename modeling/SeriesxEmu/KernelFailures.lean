import SeriesxEmu.FailedCalls

/-!
# Which failures of the kernel leave a trace

Of all calls that report a failure one can leave a trace: `write64` stores its two dwords one after the
other, so `KeQuerySystemTime` fails with the first dword stored when the second is refused.
-/

namespace SeriesxEmu

open Scheduler

/-! ## The other exports -/

/-- An interlocked call that fails has stored nothing. -/
theorem interlocked_failed {ram : XbeRam} {va : Nat} {operation : Nat → Option Nat × Nat}
    (failed : (interlocked ram va operation).2.ok = false) : (interlocked ram va operation).1 = ram := by
  unfold interlocked at failed ⊢
  cases word : ram.read32 va with
  | none => rfl
  | some old =>
    simp only [word] at failed ⊢
    split
    · rfl
    · rename_i usable
      rw [if_neg usable] at failed
      cases failed

/-- Neither has a fill. -/
theorem rtlFill_failed {ram : XbeRam} {destination length : Nat} {byte : UInt8} {result : XbeRam × Reply}
    (filled : rtlFill ram destination length byte = some result) (failed : result.2.ok = false) : result.1 = ram := by
  unfold rtlFill at filled
  split at filled
  · cases filled
    rfl
  · split at filled
    · cases filled
      rfl
    · split at filled
      · cases filled
        rfl
      · obtain ⟨_, _, rfl⟩ := Option.map_eq_some_iff.mp filled
        cases failed

/-- Neither has a move. -/
theorem rtlMoveMemory_failed {ram : XbeRam} {destination source length : Nat} {result : XbeRam × Reply}
    (moved : rtlMoveMemory ram destination source length = some result) (failed : result.2.ok = false) :
    result.1 = ram := by
  unfold rtlMoveMemory at moved
  split at moved
  · cases moved
    rfl
  · split at moved
    · cases moved
      rfl
    · split at moved
      · obtain ⟨_, _, rfl⟩ := Option.map_eq_some_iff.mp moved
        cases failed
      · cases moved

/-- A word is stored byte by byte where it may be. -/
theorem XbeRam.writeBytes_littleEndian {ram : XbeRam} {va : Nat} (usable : ram.writable va 4 = true) (word : Nat) :
    ram.writeBytes va (littleEndian word) = (ram.write32 va word, true) := by
  have whole : ram.writable va (littleEndian word).length = true := usable
  rw [write32, writeBytes, if_pos whole]

/-- And not at all where it may not. -/
theorem XbeRam.writeBytes_closed {ram : XbeRam} {va : Nat} (closed : ram.writable va 4 = false) (word : Nat) :
    ram.writeBytes va (littleEndian word) = (ram, false) := by
  have whole : ram.writable va (littleEndian word).length = false := closed
  exact writeBytes_refused whole

/-- What `write64` comes to: nothing is stored, the low dword only, or both. -/
theorem write64_cases (ram : XbeRam) (va value : Nat) :
    (ram.writable va 4 = false ∧ ram.write64 va value = (ram, false)) ∨
      (ram.writable va 4 = true ∧ ram.writable (at32 va 4) 4 = false ∧
        ram.write64 va value = (ram.write32 va value, false)) ∨
      (ram.writable va 4 = true ∧ ram.writable (at32 va 4) 4 = true ∧ (ram.write64 va value).2 = true) := by
  have same : (ram.write32 va value).writable (at32 va 4) 4 = ram.writable (at32 va 4) 4 :=
    XbeRam.writable_write32 ram va value
  cases low : ram.writable va 4 with
  | false =>
    refine Or.inl ⟨rfl, ?_⟩
    rw [XbeRam.write64, XbeRam.writeBytes_closed low]
  | true =>
    rw [XbeRam.write64, XbeRam.writeBytes_littleEndian low]
    cases high : ram.writable (at32 va 4) 4 with
    | false => exact Or.inr (Or.inl ⟨rfl, rfl, XbeRam.writeBytes_closed (same.trans high) _⟩)
    | true =>
      refine Or.inr (Or.inr ⟨rfl, rfl, ?_⟩)
      simp only [XbeRam.writeBytes_littleEndian (same.trans high)]

/-! ## The whole call -/

/-- A case that asks for arguments and serves another call does not serve this one. -/
theorem Service.need_other {service : Service} {count length va : Nat} (other : service ≠ .keQuerySystemTime va) :
    (if length < count then none else some service) ≠ some (.keQuerySystemTime va) := by
  split
  · exact (Option.some_ne_none _).symm
  · exact fun same => other (Option.some.inj same)

/-- The switch comes to `KeQuerySystemTime` by its ordinal, with a first argument. -/
theorem Service.select_systemTime {platform : Platform} {ordinal va : Nat} {args : List Nat} :
    select platform ordinal args = some (.keQuerySystemTime va) ↔ ordinal = 128 ∧ args.head? = some va := by
  unfold select
  by_cases time : ordinal = 128
  · subst time
    cases args with
    | nil => simp
    | cons first rest => simp
  · simp only [time, false_and, iff_false]
    split <;>
      first | exact absurd rfl time | exact need_other (fun same => by cases same) | exact fun same => by cases same

/-- So does a call, if the export is a function. -/
theorem Service.decode_systemTime {platform : Platform} {ordinal va : Nat} {args : List Nat} :
    decode platform ordinal args = some (.keQuerySystemTime va) ↔
      (∃ conv, platform.findExport ordinal = some conv ∧ conv ≠ .data) ∧ ordinal = 128 ∧ args.head? = some va := by
  unfold decode
  cases platform.findExport ordinal with
  | none => simp
  | some conv => cases conv <;> simp [select_systemTime]

namespace XboxKrnl

variable {krnl : XboxKrnl}

/-- A dword stored after the refresh is a trace unless each of its bytes was there before or is one of
the tick counter. -/
theorem untraced_write32_iff {va : Nat} (usable : krnl.refreshData.ram.writable va 4 = true) (value : Nat) :
    krnl.Untraced (krnl.refreshData.write32 va value) ↔ ∀ offset < 4, ¬ krnl.InTickCount (va + offset) →
      krnl.ram.bytes (va + offset) = (XbeRam.littleEndian value).getD offset 0 := by
  have refreshed := Untraced.refreshData krnl
  have stored : ∀ offset < 4, (krnl.refreshData.write32 va value).ram.bytes (va + offset) =
      (XbeRam.littleEndian value).getD offset 0 := by
    intro offset inside
    simp only [write32, XbeRam.write32_eq usable]
    rw [if_pos (by omega), Nat.add_sub_cancel_left]
  constructor
  · intro untraced offset inside outside
    rw [← untraced.bytes _ outside, stored offset inside]
  · intro kept
    obtain ⟨pages, elsewhere⟩ := XbeRam.Within.write32 krnl.refreshData.ram va value
    refine { refreshed with
      pages := ?_
      bytes := fun address outside => ?_ }
    · obtain ⟨size, pageSize, committed, readOnly⟩ := refreshed.pages
      exact ⟨pages.1.trans size, pages.2.1.trans pageSize, pages.2.2.1.trans committed, pages.2.2.2.trans readOnly⟩
    · by_cases inside : va ≤ address ∧ address < va + 4
      · obtain ⟨offset, rfl⟩ := Nat.exists_eq_add_of_le inside.1
        have small : offset < 4 := by omega
        rw [stored offset small, kept offset small outside]
      · exact (elsewhere address (by omega)).trans (refreshed.bytes address outside)

end XboxKrnl

/-- The kernel is as it was, but for the debug output and the dword of the tick counter. -/
structure Kernel.Untraced (kernel after : Kernel) : Prop where
  krnl : kernel.krnl.Untraced after.krnl
  memAllocs : after.memAllocs = kernel.memAllocs

/-- The call reports a failure. -/
def Outcome.Failed (outcome : Outcome) : Prop := ∃ reply, outcome.reply = some reply ∧ reply.ok = false

namespace Kernel

variable {platform : Platform} {kernel : Kernel} {outcome : Outcome}

/-- Nothing leaves no trace. -/
theorem Untraced.refl (kernel : Kernel) : kernel.Untraced kernel := ⟨.refl _, rfl⟩

/-- Two changes without a trace leave none together. -/
theorem Untraced.trans {middle next : Kernel} (first : kernel.Untraced middle) (second : middle.Untraced next) :
    kernel.Untraced next :=
  ⟨first.krnl.trans second.krnl, second.memAllocs.trans first.memAllocs⟩

/-- A service of guest memory that leaves it alone when it fails leaves no trace. -/
theorem withRam_failed {result : XbeRam × Reply} (unchanged : result.2.ok = false → result.1 = kernel.krnl.ram)
    (failed : (kernel.withRam result).Failed) : kernel.Untraced (kernel.withRam result).kernel := by
  obtain ⟨reply, answered, refused⟩ := failed
  cases answered
  rw [withRam, unchanged refused]
  exact .refl kernel

/-- Every export but `KeQuerySystemTime` fails without a trace.

Proof: by the export. Those that always answer with success cannot have failed; the others refuse
before they store anything, and a call into the dispatcher is left to `exec_clean`. -/
theorem serve_failed (positive : 0 < kernel.krnl.sched.nextHandle) {service : Service}
    (other : ∀ va, service ≠ .keQuerySystemTime va) (served : kernel.serve platform service = some outcome)
    (failed : outcome.Failed) : kernel.Untraced outcome.kernel := by
  have accepted : ∀ {result : Kernel} {value : Nat} {edx : Option Nat},
      ¬ ({ kernel := result, reply := some { value }, edx } : Outcome).Failed := by
    rintro result value edx ⟨reply, answered, refused⟩
    rw [← Option.some.inj answered] at refused
    cases refused
  cases service with
  | keQuerySystemTime va => exact absurd rfl (other va)
  | dbgBreakPoint =>
    cases served
    exact absurd failed accepted
  | dbgPrint args =>
    simp only [serve] at served
    split at served <;> cases served
    · exact .refl kernel
    · exact absurd failed accepted
  | interlockedIncrement addend | interlockedDecrement addend | interlockedExchange target value
  | interlockedCompareExchange dest exchange comparand | interlockedExchangeAdd addend increment =>
    cases served
    exact withRam_failed interlocked_failed failed
  | keQueryPerformanceCounter | keQueryPerformanceFrequency =>
    cases served
    exact absurd failed accepted
  | rtlTimeToTimeFields time fields =>
    simp only [serve] at served
    split at served <;> cases served
    · exact .refl kernel
    · exact absurd failed accepted
  | mmAllocateContiguousMemory size | mmAllocateContiguousMemoryEx size lowest highest alignment protect =>
    obtain ⟨⟨pool, value⟩, _, rfl⟩ := Option.map_eq_some_iff.mp served
    exact absurd failed accepted
  | mmFreeContiguousMemory va =>
    simp only [serve, MemoryPool.mmFree] at served
    cases found : kernel.pool.memAllocs.find? (fun block => block.va == va) with
    | none =>
      simp only [found, Option.some.injEq] at served
      rw [← served]
      exact .refl kernel
    | some block =>
      simp only [found, Option.some.injEq] at served
      rw [← served] at failed
      exact absurd failed accepted
  | mmQueryAllocationSize va =>
    cases served
    exact absurd failed accepted
  | rtlZeroMemory destination length | rtlFillMemory destination length fill =>
    obtain ⟨result, filled, rfl⟩ := Option.map_eq_some_iff.mp served
    exact withRam_failed (rtlFill_failed filled) failed
  | rtlMoveMemory destination source length =>
    obtain ⟨result, moved, rfl⟩ := Option.map_eq_some_iff.mp served
    exact withRam_failed (rtlMoveMemory_failed moved) failed
  | dispatcher call =>
    simp only [serve] at served
    split at served
    · rename_i self
      cases served
      obtain ⟨reply, answered, refused⟩ := failed
      have clean := XboxKrnl.exec_clean positive call (by simpa using self)
      exact ⟨clean.failed reply answered refused, rfl⟩
    · cases served

/-- `KeQuerySystemTime` stores the low dword of the time, is refused the high one, and the low one is
seen outside the tick counter. -/
structure StoresHalf (platform : Platform) (kernel : Kernel) (ordinal : Nat) (args : List UInt32) (va : Nat) :
    Prop where
  exported : ∃ conv, platform.findExport ordinal = some conv ∧ conv ≠ .data
  systemTime : ordinal = 128
  pointer : (args.map UInt32.toNat).head? = some va
  low : kernel.krnl.ram.writable va 4 = true
  high : kernel.krnl.ram.writable (at32 va 4) 4 = false
  seen : ∃ offset < 4, ¬ kernel.krnl.InTickCount (va + offset) ∧
    kernel.krnl.ram.bytes (va + offset) ≠ (XbeRam.littleEndian kernel.krnl.filetime).getD offset 0

/-- A call that stores half is a `KeQuerySystemTime`. -/
theorem StoresHalf.decoded {ordinal va : Nat} {args : List UInt32} (half : StoresHalf platform kernel ordinal args va) :
    Service.decode platform ordinal (args.map UInt32.toNat) = some (.keQuerySystemTime va) :=
  Service.decode_systemTime.mpr ⟨half.exported, half.systemTime, half.pointer⟩

/-- The tick count is not the clock. -/
theorem refreshData_filetime (krnl : XboxKrnl) : krnl.refreshData.filetime = krnl.filetime := by
  unfold XboxKrnl.refreshData
  split <;> rfl

/-- Storing it protects nothing. -/
theorem refreshData_writable (krnl : XboxKrnl) (addr size : Nat) :
    krnl.refreshData.ram.writable addr size = krnl.ram.writable addr size := by
  unfold XboxKrnl.refreshData
  split
  · exact XbeRam.writable_write32 krnl.ram _ _
  · rfl

/-- The call the exception is about. -/
theorem systemTime_failed_iff {ordinal va : Nat} {args : List UInt32}
    (decoded : Service.decode platform ordinal (args.map UInt32.toNat) = some (.keQuerySystemTime va)) :
    (∀ outcome, kernel.call platform ordinal args = some outcome → outcome.Failed →
      kernel.Untraced outcome.kernel) ↔ ¬ StoresHalf platform kernel ordinal args va := by
  obtain ⟨krnl, krnlIs⟩ : ∃ krnl, krnl = kernel.krnl.refreshData := ⟨_, rfl⟩
  have called : kernel.call platform ordinal args =
      some (({ kernel with krnl } : Kernel).withRam (keQuerySystemTime krnl.ram kernel.krnl.filetime va)) := by
    simp only [call, decoded, serve, refreshData_filetime, krnlIs]
  have refreshed : kernel.krnl.Untraced krnl := krnlIs ▸ .refreshData kernel.krnl
  have low : krnl.ram.writable va 4 = kernel.krnl.ram.writable va 4 := krnlIs ▸ refreshData_writable _ _ _
  have high : krnl.ram.writable (at32 va 4) 4 = kernel.krnl.ram.writable (at32 va 4) 4 :=
    krnlIs ▸ refreshData_writable _ _ _
  rw [called]
  rcases write64_cases krnl.ram va kernel.krnl.filetime with
    ⟨closed, same⟩ | ⟨opened, closed, half⟩ | ⟨opened, both, whole⟩
  · refine iff_of_true (fun outcome reached _ => ?_) (fun half => ?_)
    · rw [← Option.some.inj reached, keQuerySystemTime, same]
      exact ⟨refreshed, rfl⟩
    · rw [low, half.low] at closed
      cases closed
  · have stored := XboxKrnl.untraced_write32_iff (krnlIs ▸ opened) kernel.krnl.filetime
    rw [← krnlIs] at stored
    rw [keQuerySystemTime, half]
    constructor
    · intro clean storesHalf
      obtain ⟨offset, inside, outside, differs⟩ := storesHalf.seen
      have untraced := (clean _ rfl ⟨reject, rfl, rfl⟩).krnl
      exact differs (stored.mp untraced offset inside outside)
    · intro whole outcome reached _
      rw [← Option.some.inj reached]
      refine ⟨stored.mpr (fun offset inside outside => ?_), rfl⟩
      by_contra differs
      obtain ⟨exported, time, pointer⟩ := Service.decode_systemTime.mp decoded
      exact whole ⟨exported, time, pointer, low ▸ opened, high ▸ closed, offset, inside, outside, differs⟩
  · refine iff_of_true (fun outcome reached failed => ?_) (fun half => ?_)
    · obtain ⟨reply, answered, refused⟩ := failed
      rw [← Option.some.inj reached, keQuerySystemTime] at answered
      split at answered
      · rw [← Option.some.inj answered] at refused
        cases refused
      · rename_i written partly
        rw [partly] at whole
        cases whole
    · rw [high, half.high] at both
      cases both

/-- A failed call leaves a trace exactly if it has stored half of its result. -/
theorem call_failed_iff (positive : 0 < kernel.krnl.sched.nextHandle) (ordinal : Nat) (args : List UInt32) :
    (∀ outcome, kernel.call platform ordinal args = some outcome → outcome.Failed →
      kernel.Untraced outcome.kernel) ↔ ∀ va, ¬ StoresHalf platform kernel ordinal args va := by
  have refreshed : kernel.Untraced { kernel with krnl := kernel.krnl.refreshData } :=
    ⟨.refreshData kernel.krnl, rfl⟩
  cases decoded : Service.decode platform ordinal (args.map UInt32.toNat) with
  | none =>
    refine iff_of_true (fun outcome called _ => ?_) (fun va half => ?_)
    · simp only [call, decoded, Option.some.injEq] at called
      rw [← called]
      exact refreshed
    · have same := half.decoded
      rw [decoded] at same
      cases same
  | some service =>
    by_cases time : ∃ va, service = .keQuerySystemTime va
    · obtain ⟨va, rfl⟩ := time
      rw [systemTime_failed_iff decoded]
      refine ⟨fun whole other half => ?_, fun whole => whole va⟩
      have same := half.decoded
      rw [decoded] at same
      cases same
      exact whole half
    · refine iff_of_true (fun outcome called failed => ?_) (fun va half => time ⟨va, ?_⟩)
      · simp only [call, decoded] at called
        have still : 0 < kernel.krnl.refreshData.sched.nextHandle := by
          rw [XboxKrnl.refreshData_sched]
          exact positive
        exact refreshed.trans (serve_failed still (fun va is => time ⟨va, is⟩) called failed)
      · exact Option.some.inj (decoded.symm.trans half.decoded)

/-! ## Calls that suspend their fiber -/

/-- The other exports always reply. -/
theorem serve_replies {service : Service} (other : ∀ call, service ≠ .dispatcher call)
    (served : kernel.serve platform service = some outcome) : outcome.reply ≠ none := by
  cases service with
  | dispatcher call => exact absurd rfl (other call)
  | dbgPrint args | rtlTimeToTimeFields time fields =>
    simp only [serve] at served
    split at served <;> cases served <;> exact Option.some_ne_none _
  | mmAllocateContiguousMemory size | mmAllocateContiguousMemoryEx size lowest highest alignment protect =>
    obtain ⟨⟨pool, value⟩, _, rfl⟩ := Option.map_eq_some_iff.mp served
    exact Option.some_ne_none _
  | rtlZeroMemory destination length | rtlFillMemory destination length fill
  | rtlMoveMemory destination source length =>
    obtain ⟨result, _, rfl⟩ := Option.map_eq_some_iff.mp served
    exact Option.some_ne_none _
  | _ =>
    cases served
    exact Option.some_ne_none _

/-- A call that is suspended stands at a sound point. -/
theorem serve_suspended (positive : 0 < kernel.krnl.sched.nextHandle) {service : Service}
    (served : kernel.serve platform service = some outcome) (silent : outcome.reply = none) {point : Point}
    (suspended : kernel.krnl.SuspendedAt outcome.kernel.krnl point) : point.Sound := by
  by_cases dispatched : ∃ call, service = .dispatcher call
  · obtain ⟨call, rfl⟩ := dispatched
    simp only [serve] at served
    split at served
    · rename_i self
      cases served
      exact (XboxKrnl.exec_clean positive call (by simpa using self)).suspended silent point suspended
    · cases served
  · exact absurd silent (serve_replies (fun call is => dispatched ⟨call, is⟩) served)

/-- Where the fiber that makes the call is suspended in it, one time after the other, with anything
done by other fibers in between. -/
inductive Pending (platform : Platform) (kernel : Kernel) (ordinal : Nat) (args : List UInt32) : Point → Prop where
  | called {outcome : Outcome} {point : Point} (called : kernel.call platform ordinal args = some outcome)
    (silent : outcome.reply = none) (suspended : kernel.krnl.SuspendedAt outcome.kernel.krnl point) :
    Pending platform kernel ordinal args point
  | again {before after : XboxKrnl} {woken : Bool} {earlier point : Point}
    (pending : Pending platform kernel ordinal args earlier) (inFiber : before.inFiber = true)
    (continued : before.continueCall woken earlier = some (after, none)) (suspended : before.SuspendedAt after point) :
    Pending platform kernel ordinal args point

/-- So does one that has been suspended again.

Proof: induction on how often it has been. -/
theorem Pending.sound (positive : 0 < kernel.krnl.sched.nextHandle) {ordinal : Nat} {args : List UInt32}
    {point : Point} (pending : Pending platform kernel ordinal args point) : point.Sound := by
  induction pending with
  | called called silent suspended =>
    simp only [call] at called
    split at called
    · cases called
      cases silent
    · have still : 0 < kernel.krnl.refreshData.sched.nextHandle := by
        rw [XboxKrnl.refreshData_sched]
        exact positive
      refine serve_suspended still called silent ?_
      simp only [XboxKrnl.SuspendedAt, XboxKrnl.refreshData_sched]
      exact suspended
  | again _ inFiber continued suspended inductionHypothesis =>
    exact (XboxKrnl.continueCall_clean inFiber inductionHypothesis continued).suspended rfl _ suspended

/-- In every state of the kernel, a call that fails leaves a trace exactly when it is a
`KeQuerySystemTime` that has stored half of its result. A call that has suspended its fiber, once or
more often, adds no trace with the failure it may report in the end; its rest is what `resume` runs.

Proof: the first part goes by the service. Each of them checks all that it asks for before it
changes anything, but for `write64`, whose two halves are checked one after the other. The second
part needs no more than that a suspended call still has a sound point, by induction on how often it
has been suspended. -/
theorem failed_calls_traceless_iff (platform : Platform) {kernel : Kernel}
    (positive : 0 < kernel.krnl.sched.nextHandle) (ordinal : Nat) (args : List UInt32) :
    ((∀ outcome, kernel.call platform ordinal args = some outcome → outcome.Failed →
        kernel.Untraced outcome.kernel) ↔
      ∀ va, ¬ StoresHalf platform kernel ordinal args va) ∧
    (∀ point, Pending platform kernel ordinal args point → ∀ (before after : XboxKrnl) (woken : Bool) (reply : Reply),
      before.inFiber = true → before.continueCall woken point = some (after, some reply) → reply.ok = false →
        before.Untraced after) ∧
    ∀ (krnl : XboxKrnl) (fiber : Fiber), krnl.currentFiber = some fiber → fiber.ctx.point.inCall = true →
      krnl.resume = ((krnl.setPoint .guest).continueCall (!fiber.waitTimedOut) fiber.ctx.point).map
        (fun (after, reply) => after.deliver reply) := by
  refine ⟨call_failed_iff positive ordinal args, ?_, fun _ _ running inCall => XboxKrnl.resume_eq running inCall⟩
  intro point pending before after woken reply inFiber continued refused
  exact (XboxKrnl.continueCall_clean inFiber (pending.sound positive) continued).failed reply rfl refused

/-- A host with the one export. -/
def timeOnly : Platform :=
  { findExport := fun ordinal => if ordinal = 128 then some .stdcall else none, qpcNow := 0
    printf := { high := fun _ _ => 0, unspecified := fun _ _ => [] }, stackRegion := none }

/-- The first page of the window is committed and holds the kernel data area, some time has
passed, and the clock shows a time. -/
def firstPage : Kernel :=
  { krnl :=
      { XboxKrnl.onePage true with
        filetime := 0x01D9F3A200000001
        kernelDataVa := 512
        sched := { tick := 7 } } }

/-- A time behind the page is refused as a whole; the call has stored the tick count before. -/
theorem firstPage_refuses : ∃ outcome, firstPage.call timeOnly 128 [4096] = some outcome ∧ outcome.Failed ∧
    outcome.kernel.krnl.ram.bytes 520 ≠ firstPage.krnl.ram.bytes 520 ∧ firstPage.Untraced outcome.kernel := by
  have closed : ∀ va, ¬ StoresHalf timeOnly firstPage 128 [4096] va := by
    intro va half
    obtain rfl : 4096 = va := Option.some.inj half.pointer
    exact absurd half.low (by decide)
  have failed : Outcome.Failed (firstPage.withRam (firstPage.krnl.refreshData.ram, reject)) := ⟨reject, rfl, rfl⟩
  refine ⟨_, rfl, failed, by decide +kernel, ?_⟩
  exact (failed_calls_traceless_iff timeOnly (by decide) 128 [4096]).1.mpr closed _ rfl failed

/-- At the end of the page the low dword is stored, and the call fails. -/
theorem firstPage_storesHalf : ¬ ∀ (platform : Platform) (kernel : Kernel), 0 < kernel.krnl.sched.nextHandle →
    ∀ (ordinal : Nat) (args : List UInt32) (outcome : Outcome),
      kernel.call platform ordinal args = some outcome → outcome.Failed → kernel.Untraced outcome.kernel := by
  intro always
  have half : StoresHalf timeOnly firstPage 128 [4092] 4092 :=
    { exported := ⟨.stdcall, rfl, by decide⟩
      systemTime := rfl
      pointer := rfl
      low := by decide
      high := by decide
      seen := ⟨0, by decide, fun shown => absurd shown.2.2 (by decide), by decide⟩ }
  exact (systemTime_failed_iff half.decoded).mp (always timeOnly firstPage (by decide) 128 [4092]) half

end Kernel

end SeriesxEmu
