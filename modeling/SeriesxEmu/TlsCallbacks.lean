import SeriesxEmu.TerminatedTables
import SeriesxEmu.TlsNotifications
import SeriesxEmu.TlsTemplates

/-!
# From the TLS directory to the notifications

The directory of an image points to a table of callbacks, which ends with a zero. `tls_callbacks` reads the table from
the mapped image, and the start of a title hands it to the storage of the fibers together with the template. From then
on every fiber with storage is announced to the callbacks of the table.
-/

namespace SeriesxEmu

open TerminatedTable FiberTls Scheduler GuestScheduler

namespace LoadedXbe

/-! ## The table of callbacks -/

/-- The address at which the loop of `tls_callbacks` has arrived. -/
def callbackVa (loaded : LoadedXbe) : Nat → Nat
  | 0 => loaded.image.tls.callbacksAddr
  | index + 1 => (callbackVa loaded index + 4) % 2 ^ 32

/-- The loop of `tls_callbacks`, from an address on. Without a result the table is given up. -/
def callbacksFrom (loaded : LoadedXbe) : Nat → Nat → Option (List Nat)
  | 0, _ => some []
  | room + 1, va =>
    if va < loaded.image.header.baseAddr ∨ (loaded.image.imageEndAbs + 2 ^ 32 - 4) % 2 ^ 32 < va then none
    else
      match loaded.ram.read32 va with
      | none => none
      | some 0 => some []
      | some callback => (callbacksFrom loaded room ((va + 4) % 2 ^ 32)).map (callback :: ·)

/-- `tls_callbacks`. -/
def tlsCallbacks (loaded : LoadedXbe) : List Nat :=
  if !loaded.image.tlsPresent then []
  else if loaded.image.tls.callbacksAddr = 0 then []
  else (callbacksFrom loaded 1024 loaded.image.tls.callbacksAddr).getD []

/-- The word of the table lies in the image. -/
def CallbackInImage (loaded : LoadedXbe) (index : Nat) : Prop :=
  loaded.image.header.baseAddr ≤ loaded.callbackVa index ∧
    loaded.callbackVa index ≤ (loaded.image.imageEndAbs + 2 ^ 32 - 4) % 2 ^ 32

instance (loaded : LoadedXbe) (index : Nat) : Decidable (CallbackInImage loaded index) :=
  inferInstanceAs (Decidable (_ ∧ _))

/-- The directory has a table with these callbacks: its words lie in the image, and a zero ends it
there unless the limit of the loop is reached. -/
structure CallbackTable (loaded : LoadedXbe) (callbacks : List Nat) : Prop where
  present : loaded.image.tlsPresent = true ∧ loaded.image.tls.callbacksAddr ≠ 0
  few : callbacks.length ≤ 1024
  words : ∀ index, index < callbacks.length → CallbackInImage loaded index ∧
    loaded.ram.read32 (loaded.callbackVa index) = callbacks[index]? ∧ callbacks[index]? ≠ some 0
  ends : callbacks.length < 1024 → CallbackInImage loaded callbacks.length ∧
    loaded.ram.read32 (loaded.callbackVa callbacks.length) = some 0

/-- The loop is the strict reader of the table. -/
theorem callbacksFrom_checked (loaded : LoadedXbe) (room index : Nat) :
    callbacksFrom loaded room (loaded.callbackVa index) =
      checkedEntries (fun later => decide (CallbackInImage loaded later))
        (fun later => loaded.ram.read32 (loaded.callbackVa later)) room index := by
  induction room generalizing index with
  | zero => rfl
  | succ room inductionHypothesis =>
    have next : (loaded.callbackVa index + 4) % 2 ^ 32 = loaded.callbackVa (index + 1) := rfl
    have guard : (loaded.callbackVa index < loaded.image.header.baseAddr ∨
        (loaded.image.imageEndAbs + 2 ^ 32 - 4) % 2 ^ 32 < loaded.callbackVa index) ↔
        ¬ CallbackInImage loaded index := by
      unfold CallbackInImage
      omega
    unfold callbacksFrom checkedEntries
    by_cases inside : CallbackInImage loaded index
    · rw [if_neg (fun outside => guard.mp outside inside), if_pos (decide_eq_true inside), next, inductionHypothesis]
      cases loaded.ram.read32 (loaded.callbackVa index) with
      | none => rfl
      | some value =>
        cases value with
        | zero => rfl
        | succ value => simp only [if_neg (Nat.succ_ne_zero value)]
    · rw [if_pos (guard.mpr inside), if_neg (by simp [inside])]

/-- What the loop lists is the table. -/
theorem callbacks_table_iff (loaded : LoadedXbe) (present : loaded.image.tlsPresent = true)
    (placed : loaded.image.tls.callbacksAddr ≠ 0) (callbacks : List Nat) :
    callbacksFrom loaded 1024 loaded.image.tls.callbacksAddr = some callbacks ↔ CallbackTable loaded callbacks := by
  have first : loaded.image.tls.callbacksAddr = loaded.callbackVa 0 := rfl
  rw [first, callbacksFrom_checked, checkedEntries_eq_some]
  simp only [Nat.zero_add, decide_eq_true_eq]
  constructor
  · rintro ⟨same, inside, last⟩
    refine ⟨⟨present, placed⟩, ?_, fun index before => ⟨inside index before, ?_⟩, last⟩
    · rw [same]
      exact (entries_length.mp rfl).1
    · have there := List.getElem?_eq_getElem before
      have entry : (entries (fun later => loaded.ram.read32 (loaded.callbackVa later)) 1024 0)[index]? =
          some callbacks[index] := same ▸ there
      obtain ⟨_, _, reads, used⟩ := entries_getElem?.mp entry
      rw [Nat.zero_add] at reads
      rw [there, reads]
      exact ⟨rfl, fun zero => used (Option.some.inj zero)⟩
  · rintro ⟨_, few, words, ends⟩
    have entry : ∀ index, index < callbacks.length →
        Entry (fun later => loaded.ram.read32 (loaded.callbackVa later)) index := by
      intro index before
      obtain ⟨_, reads, used⟩ := words index before
      rw [List.getElem?_eq_getElem before] at reads used
      exact ⟨_, reads, fun zero => used (congrArg some zero)⟩
    refine ⟨List.ext_getElem? (fun index => Option.ext (fun value => ?_)),
      fun index before => (words index before).1, ends⟩
    rw [entries_getElem?]
    simp only [Nat.zero_add]
    constructor
    · intro there
      have before := (List.getElem?_eq_some_iff.mp there).1
      obtain ⟨_, reads, used⟩ := words index before
      rw [there] at reads used
      exact ⟨by omega, fun earlier below => entry earlier (by omega), reads, fun zero => used (congrArg some zero)⟩
    · rintro ⟨room, earlier, reads, used⟩
      -- the zero is the first word that is no callback
      have before : index < callbacks.length := by
        by_contra behind
        have zero := (ends (by omega)).2
        rcases Nat.eq_or_lt_of_le (Nat.le_of_not_lt behind) with same | after
        · rw [same, reads] at zero
          exact used (Option.some.inj zero)
        · obtain ⟨other, reading, nonzero⟩ := earlier _ after
          exact nonzero (Option.some.inj (reading.symm.trans zero))
      rw [← (words index before).2.1, reads]

/-- The callbacks are those of the table, if there is one. -/
theorem tlsCallbacks_cases (loaded : LoadedXbe) : CallbackTable loaded loaded.tlsCallbacks ∨
    loaded.tlsCallbacks = [] ∧ ∀ callbacks, ¬ CallbackTable loaded callbacks := by
  by_cases known : loaded.image.tlsPresent = true ∧ loaded.image.tls.callbacksAddr ≠ 0
  · obtain ⟨present, placed⟩ := known
    have reads : loaded.tlsCallbacks = (callbacksFrom loaded 1024 loaded.image.tls.callbacksAddr).getD [] := by
      simp [tlsCallbacks, present, placed]
    cases listed : callbacksFrom loaded 1024 loaded.image.tls.callbacksAddr with
    | some callbacks =>
      rw [listed] at reads
      exact Or.inl (reads ▸ (callbacks_table_iff loaded present placed callbacks).mp listed)
    | none =>
      rw [listed] at reads
      refine Or.inr ⟨reads, fun callbacks table => ?_⟩
      cases listed.symm.trans ((callbacks_table_iff loaded present placed callbacks).mpr table)
  · refine Or.inr ⟨?_, fun callbacks table => known table.present⟩
    unfold tlsCallbacks
    cases present : loaded.image.tlsPresent with
    | false => rfl
    | true =>
      have absent : loaded.image.tls.callbacksAddr = 0 := by
        by_contra placed
        exact known ⟨present, placed⟩
      simp [absent]

/-- What the start of a title hands to the storage of its fibers. -/
def titleInit (loaded : LoadedXbe) : TlsInit where
  raw := loaded.tlsTemplate.bytes
  zeroFill := loaded.image.tls.zeroFill
  index := 0
  callbacks := loaded.tlsCallbacks

end LoadedXbe

namespace TlsHost

/-! ## Announcements -/

variable {τ : Type} [DecidableEq τ] [Inhabited τ] {host next : TlsHost τ} {stored : Stored} {loaded : LoadedXbe}

/-- Nothing but the start of the title sets what the storage is filled with. -/
def InitOf (loaded : LoadedXbe) (_ : TlsHost τ) : TlsAction τ → Prop
  | .setInit init => init = loaded.titleInit
  | _ => True

/-- Every fiber with storage was announced to the callbacks of the title. -/
structure Announced (loaded : LoadedXbe) (host : TlsHost τ) (stored : Stored) : Prop where
  ordered : Ordered host.machine.sched
  init : ∀ init, host.tls.init = some init → init = loaded.titleInit
  filled : ∀ entry ∈ stored, entry.2 = loaded.titleInit
  attached : host.tls.events.filter (fun event => event.reason != kReasonThreadDetach) = attaches stored
  main : host.tls.mainSeen = !stored.isEmpty

/-- An allowed step keeps the announcements. -/
theorem Announced.step {action : TlsAction τ} (announced : Announced loaded host stored)
    (allowed : InitOf loaded host action) (stepped : host.step action = some next) :
    Announced loaded next (recordStored host action next stored) := by
  cases action with
  | setInit init =>
    rcases setInit_step stepped with rfl | ⟨_, rfl⟩
    · exact announced
    · exact { announced with init := fun other same => Option.some.inj same ▸ allowed }
  | store addr bytes =>
    obtain rfl := store_step stepped
    exact { announced with }
  | spawnWithTls region stray =>
    rcases spawnWithTls_step announced.ordered stepped stored with ⟨fails, same⟩ | ⟨init, base, _, made, grown⟩
    · rw [same]
      rcases fails.tls with tls | tls
      · exact ⟨fails.ordered, tls ▸ announced.init, announced.filled, tls ▸ announced.attached, tls ▸ announced.main⟩
      · exact ⟨fails.ordered, tls ▸ announced.init, announced.filled, tls ▸ announced.attached, tls ▸ announced.main⟩
    · rw [grown]
      obtain ⟨_, seen, events⟩ := made.records
      have own := announced.init init made.payload
      refine ⟨(made.advances announced.ordered).1, ?_, ?_, ?_, by rw [seen]; simp⟩
      · intro other same
        refine announced.init other ?_
        rw [← same, made.tls, attach_eq]
        cases stackTopReserve next.machine.sched host.machine.sched.nextHandle stray <;> rfl
      · intro entry member
        rcases List.mem_append.mp member with old | new
        · exact announced.filled entry old
        · rw [List.mem_singleton.mp new]
          exact own
      · rw [events, List.filter_append, announced.attached, attaches_append, ← announced.main]
        congr 1
        exact List.filter_eq_self.mpr (fun event member => by simpa using (mem_attach member).2)
  | attempt attempt =>
    obtain ⟨machine, tried, rfl⟩ := Option.map_eq_some_iff.mp stepped
    obtain ⟨ordered, _⟩ := Machine.ordered_attempt announced.ordered tried
    by_cases exits : ∃ code, attempt = .operation (.exit code)
    · obtain ⟨code, rfl⟩ := exits
      have records : host.observed (.operation (.exit code)) = host.tls ∨
          host.observed (.operation (.exit code)) =
            host.tls.record host.machine.sched.currentHandle 0 kReasonThreadDetach := by
        simp only [observed, FiberTls.finished]
        cases host.tls.hookInstalled <;> simp
      -- the record of an end is no announcement
      rcases records with same | same
      · exact ⟨ordered, same ▸ announced.init, announced.filled, same ▸ announced.attached, same ▸ announced.main⟩
      · refine ⟨ordered, ?_, announced.filled, ?_, ?_⟩
        · rw [same]
          exact announced.init
        · rw [same]
          refine Eq.trans ?_ announced.attached
          rw [FiberTls.record, List.filter_append]
          exact List.append_nil _
        · rw [same]
          exact announced.main
    · have same := (unending (fun code equal => exits ⟨code, equal⟩) host stored).1
      exact ⟨ordered, same ▸ announced.init, announced.filled, same ▸ announced.attached, same ▸ announced.main⟩

/-- An image with one callback in the table behind its TLS directory. -/
def oneCallback : ByteVector := LoadedXbe.ofWords 0x3A4 (LoadedXbe.headerWords 0x3A0 0x2000 1 ++
  [(0x12C, 0x10380), (0x348, kSectionWriteable), (0x34C, 0x11000), (0x350, 0x20), (0x354, 0x3A0), (0x358, 4),
    (0x380, 0x11000), (0x384, 0x11010), (0x388, 0x11010), (0x38C, 0x10398), (0x390, 8), (0x398, 0x11004),
    (0x3A0, 0xAABB)])

/-- Two fibers with storage, of which the first one finishes. -/
def twoFibers (init : TlsInit) : List (TlsAction Nat) :=
  [.setInit init, .spawnWithTls (some 0x80000) none, .spawnWithTls (some 0x180000) none, .attempt (.operation .run),
    .attempt (.operation .turn), .attempt (.operation (.exit 0))]

end TlsHost

end SeriesxEmu
