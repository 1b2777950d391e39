import SeriesxEmu.PageGrants
import SeriesxEmu.Runs

/-!
# CPU mappings and committed pages

Whatever is committed or freed, the runtime maps or unmaps on every attached CPU,
without asking whether that worked. A range that covers both committed and new pages
cannot be mapped, as its committed pages are mapped already, so the new ones are left
out. That is the only way for a CPU to lose track.
-/

namespace SeriesxEmu

open SeriesxEmu.Interval GuestCpu

variable {uc : Unicorn} {ram mapper after : XbeRam} {cpu : GuestCpu uc} {range : Interval}

/-- `mapped_` consists of separate ranges of whole pages, and these are the committed pages,
the marker page and the GDT page. -/
structure GuestCpu.InStep (ram : XbeRam) (cpu : GuestCpu uc) : Prop where
  whole : ∀ range ∈ cpu.mapped, Whole kPage range
  separate : cpu.mapped.Pairwise Separate
  pages : ∀ page, Covered cpu.mapped (page * kPage) ↔ ram.Held page ∨ OwnPage page

/-- The pages of the range are all committed, or none of them is. -/
def XbeRam.Undivided (ram : XbeRam) (range : Interval) : Prop :=
  (∀ page, PageOf range.start range.size page → ram.Held page) ∨
    ∀ page, PageOf range.start range.size page → ¬ ram.Held page

/-- The pages that hold a byte of the range, one after the other. -/
def pagesOf (range : Interval) : List Nat :=
  List.range' (range.start / kPage) ((range.start + range.size + kPage - 1) / kPage - range.start / kPage)

/-- The pages of a range are those that meet it. -/
theorem mem_pagesOf {page : Nat} : page ∈ pagesOf range ↔ PageOf range.start range.size page := by
  rw [pagesOf, List.mem_range'_1]
  unfold PageOf kPage
  omega

instance (ram : XbeRam) (range : Interval) : Decidable (ram.Undivided range) :=
  decidable_of_iff ((∀ page ∈ pagesOf range, ram.Held page) ∨ ∀ page ∈ pagesOf range, ¬ ram.Held page)
    (by simp only [mem_pagesOf, XbeRam.Undivided])

namespace GuestCpu

/-- A CPU that tracks its pages is in step when they are the held ones. -/
theorem Tracks.inStep (tracks : cpu.Tracks)
    (pages : ∀ page, uc.perms cpu.engine page ≠ none ↔ ram.Held page ∨ OwnPage page) : cpu.InStep ram :=
  ⟨tracks.whole, tracks.separate, fun page => (tracks.exact page).trans (pages page)⟩

/-- A page is mapped exactly when the memory holds it or the CPU keeps it for itself. -/
theorem InStep.perms (inStep : cpu.InStep ram) (tracks : cpu.Tracks) (page : Nat) :
    uc.perms cpu.engine page ≠ none ↔ ram.Held page ∨ OwnPage page :=
  (tracks.exact page).symm.trans (inStep.pages page)

/-- Memory that holds the same pages keeps the CPU in step. -/
theorem InStep.congr (inStep : cpu.InStep ram) (same : ∀ page, after.Held page ↔ ram.Held page) :
    cpu.InStep after :=
  ⟨inStep.whole, inStep.separate, fun page => by rw [inStep.pages, same]⟩

/-- A page inside of the memory is none of the CPU's own. -/
theorem not_own (window : ram.size ≤ kHleMarker) (fits : range.start + range.size ≤ ram.size) {page : Nat}
    (inside : PageOf range.start range.size page) : ¬ OwnPage page := by
  have below := inside.2
  unfold OwnPage kGdtVa
  omega

/-- The first page of a committed range has a host pointer. -/
theorem grants_hostPtr (paged : ram.pageSize = kPage) (grants : ram.Grants range.start range.size mapper) :
    mapper.hostPtr (pageDown range.start) = some (pageDown range.start) := by
  have held := (grants.held paged _).mpr (Or.inr (pageOf_first range.start grants.fits.1))
  rw [XbeRam.Held] at held
  rw [pageDown, XbeRam.hostPtr, if_pos held]

/-- A range that is committed is mapped when none of its pages was committed, and is not
when one was. The CPU stays in step exactly when the range was undivided. -/
theorem InStep.map (lawful : uc.Lawful) (paged : ram.pageSize = kPage) (window : ram.size ≤ kHleMarker)
    (tracks : cpu.Tracks) (inStep : cpu.InStep ram) (ro : Bool)
    (mapping : ram.Grants range.start range.size mapper) (grants : ram.Grants range.start range.size after) :
    (cpu.mapRange mapper range.start range.size ro).1.Tracks ∧
      ((cpu.mapRange mapper range.start range.size ro).1.InStep after ↔ ram.Undivided range) := by
  have outside : ∀ page, PageOf range.start range.size page → ¬ OwnPage page :=
    fun page inside => not_own window grants.fits.2 inside
  by_cases fresh : ∀ page, PageOf range.start range.size page → ¬ ram.Held page
  · have unmapped : ∀ page, PageOf range.start range.size page → uc.perms cpu.engine page = none := by
      intro page inside
      by_contra present
      rcases (inStep.perms tracks page).mp present with held | own
      · exact fresh page inside held
      · exact outside page inside own
    obtain ⟨next, mapped, nextTracks, perms⟩ :=
      tracks.map_fresh lawful mapping.fits.1 (grants_hostPtr paged mapping) ro unmapped
    rw [mapped]
    refine ⟨nextTracks, iff_of_true (nextTracks.inStep (fun page => ?_)) (Or.inr fresh)⟩
    rw [perms, grants.held paged]
    by_cases inside : PageOf range.start range.size page
    · simp [inside]
    · simp only [inside, ↓reduceIte, or_false]
      exact inStep.perms tracks page
  · have taken : ∃ page, PageOf range.start range.size page ∧ ram.Held page := by
      simpa using fresh
    obtain ⟨page, inside, held⟩ := taken
    rw [Tracks.map_taken lawful ro inside ((inStep.perms tracks page).mpr (Or.inl held))]
    refine ⟨tracks, ⟨fun still => Or.inl (fun page inside => ?_), fun undivided => ?_⟩⟩
    · have covered := (still.pages page).mpr (Or.inl ((grants.held paged page).mpr (Or.inr inside)))
      exact ((inStep.pages page).mp covered).resolve_right (outside page inside)
    · have whole := undivided.resolve_right fresh
      refine inStep.congr (fun page => ?_)
      rw [grants.held paged]
      exact or_iff_left_of_imp (whole page)

/-- A range that is freed is unmapped: all its pages were mapped. -/
theorem InStep.unmap (lawful : uc.Lawful) (paged : ram.pageSize = kPage) (window : ram.size ≤ kHleMarker)
    (tracks : cpu.Tracks) (inStep : cpu.InStep ram) {va size : Nat} (held : ram.isCommitted va size = true) :
    (cpu.unmapRange va size).1.Tracks ∧ (cpu.unmapRange va size).1.InStep (ram.uncommit va size).1 := by
  have positive : 0 < ram.pageSize := by rw [paged]; decide
  have committed := (XbeRam.isCommitted_iff positive).mp held
  have becomes := XbeRam.uncommit_becomes positive held
  have mapped : ∀ page, PageOf va size page → ram.Held page := by
    intro page inside
    refine (XbeRam.held_iff paged).mpr ⟨committed.2 page ((XbeRam.covers_pageOf paged).mpr inside), ?_⟩
    exact Nat.lt_of_lt_of_le inside.2 committed.1.2
  obtain ⟨next, unmapped, nextTracks, covered⟩ := tracks.unmap lawful
    (fun page inside => (inStep.perms tracks page).mpr (Or.inl (mapped page inside)))
  rw [unmapped]
  refine ⟨nextTracks, nextTracks.whole, nextTracks.separate, fun page => ?_⟩
  have left : (ram.uncommit va size).1.Held page ↔ ram.Held page ∧ ¬ PageOf va size page := by
    rw [XbeRam.held_iff (becomes.pageSize.trans paged), XbeRam.held_iff paged, becomes.committed, becomes.size,
      Bool.and_eq_true, Bool.not_eq_true', decide_eq_false_iff_not, XbeRam.covers_pageOf paged]
    tauto
  have apart : PageOf va size page → ¬ OwnPage page := fun inside => held_not_own window (mapped page inside)
  rw [covered, inStep.pages, left]
  tauto

end GuestCpu

namespace UnicornRuntime

variable {rt next : UnicornRuntime uc}

/-- The window has guest pages and ends below the markers, and every CPU records what its
engine has mapped. -/
structure Sound (rt : UnicornRuntime uc) : Prop where
  paged : rt.pool.ram.pageSize = kPage
  window : rt.pool.ram.size ≤ kHleMarker
  tracks : ∀ cpu ∈ rt.cpus, cpu.Tracks

/-- Every attached CPU has the committed pages mapped. -/
def InStep (rt : UnicornRuntime uc) : Prop := ∀ cpu ∈ rt.cpus, cpu.InStep rt.pool.ram

/-- A range that is handed out while a CPU is attached is undivided. -/
def Undivided (rt : UnicornRuntime uc) (action : Action) : Prop :=
  rt.cpus ≠ [] → rt.step action ≠ none → ∀ range, rt.granted action = some range → rt.pool.ram.Undivided range

instance (rt : UnicornRuntime uc) (action : Action) : Decidable (rt.Undivided action) :=
  decidable_of_iff (rt.cpus = [] ∨ (rt.step action).isNone = true ∨
      (rt.granted action).all (fun range => decide (rt.pool.ram.Undivided range)) = true) (by
    rw [or_iff_not_imp_left, or_iff_not_imp_left, Option.isNone_iff_eq_none, Option.all_eq_true]
    simp only [decide_eq_true_eq]
    exact Iff.rfl)

/-- A spread of a block keeps the CPUs in step exactly when its range is undivided. -/
theorem Spread.step_iff (lawful : uc.Lawful) (sound : rt.Sound) (inStep : rt.InStep) (spread : rt.Spread range next) :
    next.Sound ∧ (next.InStep ↔ (rt.cpus ≠ [] → rt.pool.ram.Undivided range)) := by
  obtain ⟨mapper, ro, mapping, cpus⟩ := spread.mapped
  have grants := spread.grants
  have each : ∀ cpu ∈ rt.cpus, (cpu.mapRange mapper range.start range.size ro).1.Tracks ∧
      ((cpu.mapRange mapper range.start range.size ro).1.InStep next.pool.ram ↔ rt.pool.ram.Undivided range) := by
    intro cpu member
    exact (inStep cpu member).map lawful sound.paged sound.window (sound.tracks cpu member) ro mapping grants
  refine ⟨⟨grants.samePages.trans sound.paged, by rw [grants.sameSize]; exact sound.window, fun cpu member => ?_⟩,
    fun still attached => ?_, fun undivided cpu member => ?_⟩
  · rw [cpus] at member
    obtain ⟨old, known, rfl⟩ := List.mem_map.mp member
    exact (each old known).1
  · obtain ⟨cpu, member⟩ := List.exists_mem_of_ne_nil _ attached
    refine (each cpu member).2.mp (still _ ?_)
    rw [cpus]
    exact List.mem_map_of_mem member
  · rw [cpus] at member
    obtain ⟨old, known, rfl⟩ := List.mem_map.mp member
    exact (each old known).2.mpr (undivided (List.ne_nil_of_mem known))

/-- One step keeps the records right, and the CPUs in step exactly when it hands out an
undivided range or none.

Proof: by what the step changes. A range that is handed out is the only change that can leave a CPU
behind, and the rule for a spread range says when it does. -/
theorem Sound.step_iff (lawful : uc.Lawful) (sound : rt.Sound) (inStep : rt.InStep) {action : Action}
    (stepped : rt.step action = some next) : next.Sound ∧ (next.InStep ↔ rt.Undivided action) := by
  have defined : rt.step action ≠ none := by simp [stepped]
  have change := step_change sound.paged stepped
  have nothing : rt.taken action = none → rt.recorded action = none → rt.Undivided action := by
    intro untaken unrecorded attached _ range granted
    rw [UnicornRuntime.granted, untaken, unrecorded] at granted
    cases granted
  have something : ∀ range, rt.granted action = some range →
      (rt.Undivided action ↔ (rt.cpus ≠ [] → rt.pool.ram.Undivided range)) := by
    intro range granted
    simp [Undivided, defined, granted]
  simp only [UnicornRuntime.granted] at something
  generalize rt.taken action = taken, rt.recorded action = recorded at change nothing something
  cases change with
  | quiet next pool top cpus =>
    refine ⟨⟨?_, ?_, fun cpu member => sound.tracks cpu (cpus cpu member)⟩, iff_of_true ?_ (nothing rfl rfl)⟩
    · rw [pool]
      exact sound.paged
    · rw [pool]
      exact sound.window
    · intro cpu member
      rw [pool]
      exact inStep cpu (cpus cpu member)
  | joined next cpu attached pool top cpus =>
    obtain ⟨tracks, present, _⟩ := attach_spec lawful rt.pool.ram sound.window attached
    refine ⟨⟨?_, ?_, fun cpu member => ?_⟩, iff_of_true ?_ (nothing rfl rfl)⟩
    · rw [pool]
      exact sound.paged
    · rw [pool]
      exact sound.window
    · rw [cpus] at member
      rcases List.mem_append.mp member with old | new
      · exact sound.tracks cpu old
      · rw [List.mem_singleton.mp new]
        exact tracks
    · intro cpu member
      rw [pool]
      rw [cpus] at member
      rcases List.mem_append.mp member with old | new
      · exact inStep cpu old
      · rw [List.mem_singleton.mp new]
        exact tracks.inStep present
  | lowered next range lowered =>
    rw [something range rfl]
    exact lowered.spread.step_iff lawful sound inStep
  | placed next block spread recorded top =>
    rw [something _ rfl]
    exact spread.step_iff lawful sound inStep
  | freed next block live held ram blocks low high top cpus =>
    have positive : 0 < rt.pool.ram.pageSize := by rw [sound.paged]; decide
    have becomes := XbeRam.uncommit_becomes positive held
    have each : ∀ cpu ∈ rt.cpus, (cpu.unmapRange block.va block.size).1.Tracks ∧
        (cpu.unmapRange block.va block.size).1.InStep next.pool.ram := by
      intro cpu member
      rw [ram]
      exact (inStep cpu member).unmap lawful sound.paged sound.window (sound.tracks cpu member) held
    refine ⟨⟨?_, ?_, fun cpu member => ?_⟩, iff_of_true ?_ (nothing rfl rfl)⟩
    · rw [ram, becomes.pageSize]
      exact sound.paged
    · rw [ram, becomes.size]
      exact sound.window
    · rw [cpus] at member
      obtain ⟨old, known, rfl⟩ := List.mem_map.mp member
      exact (each old known).1
    · intro cpu member
      rw [cpus] at member
      obtain ⟨old, known, rfl⟩ := List.mem_map.mp member
      exact (each old known).2
  | dropped next va ram blocks low high top cpus =>
    refine ⟨⟨?_, ?_, ?_⟩, iff_of_true ?_ (nothing rfl rfl)⟩
    · rw [ram]
      exact sound.paged
    · rw [ram]
      exact sound.window
    · rw [cpus]
      exact sound.tracks
    · unfold InStep
      rw [ram, cpus]
      exact inStep

/-- **CPU mappings.** In every state of a run the ranges that a CPU records are separate
whole pages and cover the committed pages, the marker page and the GDT page, exactly
when every range handed out while a CPU is attached was undivided: either all of its
pages were committed already, or none.

Proof: a spread maps a range as a whole, so it fits the pages exactly when all of them or none were
there before. The invariant then decides every state of the run by its next step. -/
theorem mappings_track_iff (lawful : uc.Lawful) (pool : MemoryPool) (kernelDataVa : Nat) (tlsRaw : List UInt8)
    (paged : pool.ram.pageSize = kPage) (window : pool.ram.size ≤ kHleMarker) (actions : List Action) :
    Runs.Visits step InStep (create uc pool kernelDataVa tlsRaw) actions ↔
      Runs.Along step Undivided (create uc pool kernelDataVa tlsRaw) actions := by
  have start : (create uc pool kernelDataVa tlsRaw).Sound ∧ (create uc pool kernelDataVa tlsRaw).InStep :=
    ⟨⟨paged, window, by simp [create]⟩, by simp [create, InStep]⟩
  have strengthened : Runs.Visits step InStep (create uc pool kernelDataVa tlsRaw) actions ↔
      Runs.Visits step (fun rt => rt.Sound ∧ rt.InStep) (create uc pool kernelDataVa tlsRaw) actions := by
    refine Runs.visits_strengthen (fun rt both => both.2) ?_ _ _ start
    rintro rt action next ⟨sound, inStep⟩ stepped still
    exact ⟨(sound.step_iff lawful inStep stepped).1, still⟩
  refine strengthened.trans (Runs.visits_iff_along ?_ ?_ _ _ start)
  · rintro rt action next ⟨sound, inStep⟩ stepped
    obtain ⟨nextSound, iff⟩ := sound.step_iff lawful inStep stepped
    exact (and_iff_right nextSound).trans iff
  · intro rt action stuck _ defined
    exact absurd stuck defined

/-- A guest memory of a little more than 8 MiB, with one page of an image below the last page. -/
def highImage : MemoryPool :=
  { ram := { size := 0x802000, committed := fun page => page == 0x800 }, mmLo := 0x700000, mmHi := 0x700000 }

/-- The range handed out covers the page of the image, so that the page below it is
committed and not mapped. -/
theorem highImage_untracked : ¬ Runs.Visits step InStep (create pageTable highImage 0 [])
    [.attach, .allocPages 0x2000] := by
  intro visits
  have evaluated : (Runs.run step (create pageTable highImage 0 []) [.attach, .allocPages 0x2000]).map
      (fun rt => (rt.cpus.map (fun cpu => decide (Covered cpu.mapped (0x7FF * kPage))),
        decide (rt.pool.ram.Held 0x7FF))) = some ([false], true) := by decide +kernel
  obtain ⟨final, completed, observed⟩ := Option.map_eq_some_iff.mp evaluated
  have inStep := Runs.visits_final visits completed
  obtain ⟨mapped, committed⟩ := Prod.mk.inj observed
  obtain ⟨cpu, rest, cpus⟩ : ∃ cpu rest, final.cpus = cpu :: rest := by
    cases cpus : final.cpus with
    | nil => simp [cpus] at mapped
    | cons cpu rest => exact ⟨cpu, rest, rfl⟩
  rw [cpus, List.map_cons, List.cons.injEq, decide_eq_false_iff_not] at mapped
  have member : cpu ∈ final.cpus := by simp [cpus]
  exact mapped.1 (((inStep cpu member).pages 0x7FF).mpr (Or.inl (of_decide_eq_true committed)))

/-- A guest memory without an image. -/
def emptyMemory : MemoryPool := { ram := { size := 0x802000 }, mmLo := 0x700000, mmHi := 0x801000 }

/-- While a CPU is attached, a stack page is handed out, and a contiguous block is made, freed and
made again smaller. -/
def refills : List Action :=
  [.attach, .allocPages 0x1000, .krnl (.allocateContiguousMemory 0x3000), .krnl (.freeContiguousMemory 0x700000),
    .krnl (.allocateContiguousMemory 0x1000)]

/-- A block that is freed and claimed again stays in step. -/
theorem emptyMemory_tracked : Runs.Visits step InStep (create pageTable emptyMemory 0 []) refills :=
  (mappings_track_iff pageTable_lawful emptyMemory 0 [] rfl (by decide) refills).mpr (by decide +kernel)

end UnicornRuntime

end SeriesxEmu
