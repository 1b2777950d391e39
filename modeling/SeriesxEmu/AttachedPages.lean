import SeriesxEmu.GuestCpu

/-!
# What attaching a CPU maps

`attach` cuts the committed pages into runs and maps each run with the protection of
its first page. The loop that extends a run compares the wrong way round: it goes on
over pages of the other protection and stops at pages of the same. Every committed
page is still mapped once, but a page that is swallowed by a run gets the
permissions of its opposite.
-/

namespace SeriesxEmu

open SeriesxEmu.Interval

variable {uc : Unicorn} {ram : XbeRam}

/-- The page is committed. -/
def XbeRam.Held (ram : XbeRam) (page : Nat) : Prop := ram.isCommitted (page * kPage) 1 = true

instance (ram : XbeRam) (page : Nat) : Decidable (ram.Held page) := inferInstanceAs (Decidable (_ = true))

/-- The page is committed and not read-only. -/
def XbeRam.pageWritable (ram : XbeRam) (page : Nat) : Bool := ram.writable (page * kPage) 1

/-- A page that is held starts inside the window. -/
theorem XbeRam.Held.inside {page : Nat} (held : ram.Held page) : page * kPage < ram.size := by
  rw [XbeRam.Held, XbeRam.isCommitted, Bool.and_eq_true, XbeRam.rangeOk_iff] at held
  omega

namespace GuestCpu

/-! ## One range -/

/-- `mapped_` consists of separate ranges of whole pages, and these are the pages that the
engine has mapped. -/
structure Tracks (cpu : GuestCpu uc) : Prop where
  whole : ∀ range ∈ cpu.mapped, Whole kPage range
  separate : cpu.mapped.Pairwise Separate
  exact : ∀ page, Covered cpu.mapped (page * kPage) ↔ uc.perms cpu.engine page ≠ none

/-- The page holds a byte of the range. -/
def PageOf (va size page : Nat) : Prop := va < (page + 1) * kPage ∧ page * kPage < va + size

instance (va size page : Nat) : Decidable (PageOf va size page) := inferInstanceAs (Decidable (_ ∧ _))

/-- The range that `map_range` and `unmap_range` round to. -/
def rounded (va size : Nat) : Interval := ⟨pageDown va, pageUp (va + size) - pageDown va⟩

/-- The rounded range has the pages that meet the range. -/
theorem rounded_has {va size : Nat} (page : Nat) : (rounded va size).Has (page * kPage) ↔ PageOf va size page := by
  unfold rounded Interval.Has PageOf pageDown pageUp kPage
  simp only
  omega

/-- The same, as the engine says it. -/
theorem onPages_rounded {va size : Nat} (page : Nat) :
    OnPages (pageDown va) (pageUp (va + size) - pageDown va) page ↔ PageOf va size page := rounded_has page

/-- A rounded range is made of whole pages. -/
theorem rounded_whole {va size : Nat} (positive : 0 < size) : Whole kPage (rounded va size) := by
  unfold rounded pageDown pageUp
  constructor
  · unfold kPage
    simp only
    omega
  · exact Nat.dvd_mul_left _ _
  · exact Nat.dvd_sub (Nat.dvd_mul_left _ _) (Nat.dvd_mul_left _ _)

/-- The first page of a range meets it. -/
theorem pageOf_first (va : Nat) {size : Nat} (positive : 0 < size) : PageOf va size (va / kPage) := by
  unfold PageOf kPage
  omega

/-- What the engine has mapped is recorded. -/
theorem Tracks.record (lawful : uc.Lawful) {cpu : GuestCpu uc} (tracks : cpu.Tracks) {va size : Nat} {perms : Perms}
    (whole : Whole kPage ⟨va, size⟩) {engine : uc.Engine}
    (mapping : uc.memMapPtr cpu.engine va size perms = some engine) :
    Tracks { engine, mapped := cpu.mapped ++ [⟨va, size⟩] } := by
  have unmapped : ∀ page, Interval.Has ⟨va, size⟩ (page * kPage) → ¬ Covered cpu.mapped (page * kPage) := by
    intro page inside covered
    have refused := (lawful.mapRefused _ _ _ perms).mpr ⟨page, inside, (tracks.exact page).mp covered⟩
    rw [mapping] at refused
    cases refused
  constructor
  · intro range member
    rcases List.mem_append.mp member with old | new
    · exact tracks.whole range old
    · rw [List.mem_singleton.mp new]
      exact whole
  · refine List.pairwise_append.mpr ⟨tracks.separate, List.pairwise_singleton _ _, ?_⟩
    intro range member other new
    rw [List.mem_singleton.mp new]
    refine (tracks.whole range member).separate whole (fun page here there => ?_)
    exact unmapped page there ⟨range, member, here⟩
  · intro page
    have same : Interval.Has ⟨va, size⟩ (page * kPage) ↔ OnPages va size page := Iff.rfl
    rw [covered_append, covered_singleton, tracks.exact, lawful.mapped _ _ _ _ _ mapping, same]
    by_cases inside : OnPages va size page
    · simp [inside]
    · simp [inside]

/-- A range none of whose pages is mapped is mapped and recorded. -/
theorem Tracks.map_fresh (lawful : uc.Lawful) {cpu : GuestCpu uc} (tracks : cpu.Tracks) {va size : Nat}
    (positive : 0 < size) {host : Nat} (held : ram.hostPtr (pageDown va) = some host) (ro : Bool)
    (fresh : ∀ page, PageOf va size page → uc.perms cpu.engine page = none) :
    ∃ next, cpu.mapRange ram va size ro = (next, true) ∧ next.Tracks ∧
      ∀ page, uc.perms next.engine page =
        if PageOf va size page then some (permsOf ro) else uc.perms cpu.engine page := by
  have outside : cpu.mapped.any (fun range =>
      range.start ≤ pageDown va && pageUp (va + size) ≤ range.start + range.size) = false := by
    rw [List.any_eq_false]
    intro range member contains
    simp only [Bool.and_eq_true, decide_eq_true_eq] at contains
    have first := pageOf_first va positive
    have inside := (rounded_has _).mpr first
    have covered : Covered cpu.mapped (va / kPage * kPage) := by
      refine ⟨range, member, ?_⟩
      unfold Interval.Has rounded at inside
      unfold Interval.Has
      simp only at inside
      omega
    exact (tracks.exact _).mp covered (fresh _ first)
  cases mapping : uc.memMapPtr cpu.engine (pageDown va) (pageUp (va + size) - pageDown va) (permsOf ro) with
  | none =>
    obtain ⟨page, inside, taken⟩ := (lawful.mapRefused _ _ _ _).mp mapping
    exact absurd (fresh page ((onPages_rounded page).mp inside)) taken
  | some engine =>
    refine ⟨{ engine, mapped := cpu.mapped ++ [rounded va size] }, ?_,
      tracks.record lawful (rounded_whole positive) mapping, fun page => ?_⟩
    · simp only [mapRange, outside, Bool.false_eq_true, ↓reduceIte, held, mapping]
      rfl
    · rw [lawful.mapped _ _ _ _ _ mapping page]
      exact if_congr (onPages_rounded page) rfl rfl

/-- A range with a mapped page is not mapped again. -/
theorem Tracks.map_taken (lawful : uc.Lawful) {cpu : GuestCpu uc} {va size : Nat} (ro : Bool) {page : Nat}
    (inside : PageOf va size page) (taken : uc.perms cpu.engine page ≠ none) :
    (cpu.mapRange ram va size ro).1 = cpu := by
  have refused : ∀ perms, uc.memMapPtr cpu.engine (pageDown va) (pageUp (va + size) - pageDown va) perms = none :=
    fun perms => (lawful.mapRefused _ _ _ perms).mpr ⟨page, (onPages_rounded page).mpr inside, taken⟩
  rw [mapRange]
  simp only [refused]
  split
  · rfl
  · split <;> rfl

/-- A mapped range is unmapped and cut out of the record. -/
theorem Tracks.unmap (lawful : uc.Lawful) {cpu : GuestCpu uc} (tracks : cpu.Tracks) {va size : Nat}
    (mapped : ∀ page, PageOf va size page → uc.perms cpu.engine page ≠ none) :
    ∃ next, cpu.unmapRange va size = (next, true) ∧ next.Tracks ∧
      ∀ page, Covered next.mapped (page * kPage) ↔ Covered cpu.mapped (page * kPage) ∧ ¬ PageOf va size page := by
  have ordered : pageDown va ≤ pageUp (va + size) := by
    unfold pageDown pageUp kPage
    omega
  cases unmapping : uc.memUnmap cpu.engine (pageDown va) (pageUp (va + size) - pageDown va) with
  | none =>
    obtain ⟨page, inside, missing⟩ := (lawful.unmapRefused _ _ _).mp unmapping
    exact absurd missing (mapped page ((onPages_rounded page).mp inside))
  | some engine =>
    have cutHas : ∀ page, (pageDown va ≤ page * kPage ∧ page * kPage < pageUp (va + size)) ↔ PageOf va size page := by
      intro page
      rw [← rounded_has, rounded, Interval.Has]
      simp only
      omega
    have covered : ∀ page, Covered (cut (pageDown va) (pageUp (va + size)) cpu.mapped) (page * kPage) ↔
        Covered cpu.mapped (page * kPage) ∧ ¬ PageOf va size page := by
      intro page
      rw [covered_cut, cutHas]
    refine ⟨{ engine, mapped := cut (pageDown va) (pageUp (va + size)) cpu.mapped }, ?_, ?_, covered⟩
    · simp only [unmapRange, unmapping]
    · constructor
      · intro range member
        exact Whole.cut tracks.whole (Nat.dvd_mul_left _ _) (Nat.dvd_mul_left _ _) member
      · exact cut_separate ordered tracks.separate
      · intro page
        rw [covered, lawful.unmapped _ _ _ _ unmapping page, tracks.exact]
        by_cases inside : PageOf va size page
        · simp [inside, (onPages_rounded page).mpr inside]
        · simp [inside, mt (onPages_rounded page).mp inside]

/-! ## The runs of `attach` -/

/-- A run as the loops of `attach` find it: it starts at a committed page with the protection
it is mapped with, goes on over committed pages that are writable exactly when that
protection is read-only, and could not have gone on. -/
structure IsRun (ram : XbeRam) (run : Interval × Bool) (first last : Nat) : Prop where
  nonempty : first < last
  start : run.1.start = first * kPage
  size : run.1.size = (last - first) * kPage
  held : ∀ page, first ≤ page → page < last → ram.Held page
  leads : run.2 = !ram.pageWritable first
  follows : ∀ page, first < page → page < last → ram.pageWritable page = run.2
  stops : ram.Held last → ram.pageWritable last ≠ run.2

/-- The pages of a run lie between its ends. -/
theorem IsRun.has {run : Interval × Bool} {first last : Nat} (isRun : IsRun ram run first last) (page : Nat) :
    run.1.Has (page * kPage) ↔ first ≤ page ∧ page < last := by
  have nonempty := isRun.nonempty
  unfold Interval.Has
  rw [isRun.start, isRun.size]
  unfold kPage
  omega

/-- The inner loop stops at the first page that is not held or has another protection.

Proof: induction on the turns that are left. The pages passed so far are held and of one kind. -/
theorem runEnd_spec (ram : XbeRam) (ro : Bool) (turns start : Nat) :
    ∃ stop, runEnd ram ro turns (start * kPage) = stop * kPage ∧
    start ≤ stop ∧ (∀ page, start ≤ page → page < stop → ram.Held page ∧ ram.pageWritable page = ro) ∧
    (ram.size ≤ (start + turns) * kPage → ram.Held stop → ram.pageWritable stop ≠ ro) := by
  induction turns generalizing start with
  | zero =>
    refine ⟨start, rfl, Nat.le_refl _, fun page low high => by omega, fun enough held => ?_⟩
    have inside := held.inside
    rw [Nat.add_zero] at enough
    omega
  | succ turns inductionHypothesis =>
    rw [runEnd]
    split
    · rename_i goes
      rw [Bool.and_eq_true, Bool.and_eq_true, beq_iff_eq] at goes
      obtain ⟨⟨_, held⟩, same⟩ := goes
      obtain ⟨stop, reached, further, each, stops⟩ := inductionHypothesis (start + 1)
      rw [Nat.succ_mul] at reached
      refine ⟨stop, reached, by omega, fun page low high => ?_, fun enough => stops ?_⟩
      · by_cases here : page = start
        · rw [here]
          exact ⟨held, same⟩
        · exact each page (by omega) high
      · rwa [show start + 1 + turns = start + (turns + 1) by omega]
    · rename_i halts
      refine ⟨start, rfl, Nat.le_refl _, fun page low high => by omega, fun _ held same => halts ?_⟩
      rw [Bool.and_eq_true, Bool.and_eq_true, beq_iff_eq]
      exact ⟨⟨decide_eq_true held.inside, held⟩, same⟩

/-- The runs from a page on: they lie in order behind it and contain every committed page. -/
structure RunsFrom (ram : XbeRam) (origin : Nat) (runs : List (Interval × Bool)) : Prop where
  each : ∀ run ∈ runs, ∃ first last, origin ≤ first ∧ IsRun ram run first last
  ordered : runs.Pairwise (fun left right => left.1.start + left.1.size ≤ right.1.start)
  complete : ∀ page, origin ≤ page → ram.Held page → ∃ run ∈ runs, run.1.Has (page * kPage)

/-- Behind the last page there are no runs. -/
theorem runsFrom_beyond {start : Nat} (beyond : ram.size ≤ start * kPage) : RunsFrom ram start [] := by
  refine ⟨by simp, List.Pairwise.nil, fun page low held => ?_⟩
  have inside := held.inside
  have grown := Nat.mul_le_mul_right kPage low
  omega

/-- The outer loop finds all runs, in order.

Proof: induction on the turns that are left: a page that is not held is skipped, and a run is
skipped whole. -/
theorem attachRuns_spec (turns start : Nat) (enough : ram.size ≤ (start + turns) * kPage) :
    RunsFrom ram start (attachRuns ram turns (start * kPage)) := by
  induction turns generalizing start with
  | zero => exact runsFrom_beyond enough
  | succ turns inductionHypothesis =>
    have later : ∀ next, start + 1 ≤ next → RunsFrom ram next (attachRuns ram turns (next * kPage)) := by
      intro next ahead
      exact inductionHypothesis next (Nat.le_trans enough (Nat.mul_le_mul_right kPage (by omega)))
    rw [attachRuns]
    split
    · split
      · rename_i missing
        have rest := later (start + 1) (Nat.le_refl _)
        rw [Nat.succ_mul] at rest
        refine ⟨fun run member => ?_, rest.ordered, fun page low held => ?_⟩
        · obtain ⟨first, last, behind, isRun⟩ := rest.each run member
          exact ⟨first, last, by omega, isRun⟩
        · by_cases here : page = start
          · rw [here, XbeRam.Held] at held
            rw [held] at missing
            cases missing
          · exact rest.complete page (by omega) held
      · rename_i present
        have held : ram.Held start := by
          rw [XbeRam.Held]
          simpa using present
        obtain ⟨stop, reached, further, each, stops⟩ :=
          runEnd_spec ram (!ram.writable (start * kPage) 1) turns (start + 1)
        rw [Nat.succ_mul] at reached
        have rest := later stop further
        have run : IsRun ram (⟨start * kPage, stop * kPage - start * kPage⟩, !ram.writable (start * kPage) 1)
            start stop := by
          refine ⟨further, rfl, (Nat.sub_mul _ _ _).symm, fun page low high => ?_, rfl,
            fun page low high => (each page low high).2, stops ?_⟩
          · by_cases here : page = start
            · rw [here]
              exact held
            · exact (each page (by omega) high).1
          · rwa [show start + 1 + turns = start + (turns + 1) by omega]
        simp only [reached]
        refine ⟨fun other member => ?_, List.pairwise_cons.mpr ⟨fun other member => ?_, rest.ordered⟩,
          fun page low held => ?_⟩
        · rcases List.mem_cons.mp member with rfl | inRest
          · exact ⟨start, stop, Nat.le_refl _, run⟩
          · obtain ⟨first, last, behind, isRun⟩ := rest.each other inRest
            exact ⟨first, last, by omega, isRun⟩
        · obtain ⟨first, last, behind, isRun⟩ := rest.each other member
          have ends := Nat.mul_le_mul_right kPage behind
          have spans := Nat.mul_le_mul_right kPage (Nat.le_of_lt further)
          simp only [isRun.start]
          omega
        · by_cases here : page < stop
          · exact ⟨_, List.mem_cons_self, (run.has page).mpr ⟨low, here⟩⟩
          · obtain ⟨other, member, has⟩ := rest.complete page (by omega) held
            exact ⟨other, List.mem_cons_of_mem _ member, has⟩
    · rename_i beyond
      exact runsFrom_beyond (by omega)

/-! ## The mapped pages -/

/-- The pages that meet a run are its own. -/
theorem IsRun.pageOf {run : Interval × Bool} {first last : Nat} (isRun : IsRun ram run first last) (page : Nat) :
    PageOf run.1.start run.1.size page ↔ run.1.Has (page * kPage) := by
  have nonempty := isRun.nonempty
  unfold PageOf Interval.Has
  rw [isRun.start, isRun.size]
  unfold kPage
  omega

/-- A run is backed by the window, so it has a host address. -/
theorem IsRun.hostPtr {run : Interval × Bool} {first last : Nat} (isRun : IsRun ram run first last) :
    ram.hostPtr (pageDown run.1.start) = some (first * kPage) := by
  have held := isRun.held first (Nat.le_refl _) isRun.nonempty
  rw [XbeRam.Held] at held
  rw [isRun.start, pageDown, Nat.mul_div_cancel _ (by decide), XbeRam.hostPtr, if_pos held]

/-- Runs that lie apart on unmapped pages are all mapped. -/
theorem Tracks.mapRuns (lawful : uc.Lawful) {cpu : GuestCpu uc} (tracks : cpu.Tracks) {runs : List (Interval × Bool)}
    (each : ∀ run ∈ runs, ∃ first last, IsRun ram run first last)
    (ordered : runs.Pairwise (fun left right => left.1.start + left.1.size ≤ right.1.start))
    (fresh : ∀ run ∈ runs, ∀ page, run.1.Has (page * kPage) → uc.perms cpu.engine page = none) :
    ∃ next, GuestCpu.mapRuns ram cpu runs = some next ∧ next.Tracks ∧
      (∀ page, (∀ run ∈ runs, ¬ run.1.Has (page * kPage)) → uc.perms next.engine page = uc.perms cpu.engine page) ∧
      ∀ run ∈ runs, ∀ page, run.1.Has (page * kPage) → uc.perms next.engine page = some (permsOf run.2) := by
  induction runs generalizing cpu with
  | nil => exact ⟨cpu, rfl, tracks, fun _ _ => rfl, fun run member => by cases member⟩
  | cons run rest inductionHypothesis =>
    obtain ⟨first, last, isRun⟩ := each run List.mem_cons_self
    obtain ⟨before, later⟩ := List.pairwise_cons.mp ordered
    have positive : 0 < run.1.size := by
      have nonempty := isRun.nonempty
      rw [isRun.size]
      exact Nat.mul_pos (by omega) (by decide)
    obtain ⟨middle, mapped, middleTracks, perms⟩ := tracks.map_fresh lawful positive isRun.hostPtr run.2
      (fun page inside => fresh run List.mem_cons_self page ((isRun.pageOf page).mp inside))
    simp only [isRun.pageOf] at perms
    have apart : ∀ other ∈ rest, ∀ page, other.1.Has (page * kPage) → ¬ run.1.Has (page * kPage) := by
      intro other member page there here
      have order := before other member
      unfold Interval.Has at here there
      omega
    obtain ⟨next, completed, nextTracks, others, taken⟩ := inductionHypothesis middleTracks
      (fun other member => each other (List.mem_cons_of_mem _ member)) later (fun other member page inside => by
        rw [perms, if_neg (apart other member page inside)]
        exact fresh other (List.mem_cons_of_mem _ member) page inside)
    refine ⟨next, ?_, nextTracks, fun page outside => ?_, fun other member page inside => ?_⟩
    · rw [GuestCpu.mapRuns, mapped]
      exact completed
    · rw [others page (fun other member => outside other (List.mem_cons_of_mem _ member)), perms,
        if_neg (outside run List.mem_cons_self)]
    · rcases List.mem_cons.mp member with rfl | inRest
      · rw [others page (fun other known there => apart other known page there inside), perms, if_pos inside]
      · exact taken other inRest page inside

/-- An engine that has just been opened has nothing mapped. -/
theorem tracks_opened (lawful : uc.Lawful) {engine : uc.Engine} (opening : uc.opened = some engine) :
    ({ engine } : GuestCpu uc).Tracks := by
  refine ⟨by simp, List.Pairwise.nil, fun page => ?_⟩
  simp [covered_nil, lawful.nothing engine opening page]

/-- The turns suffice for all pages of the window. -/
theorem attach_runs (ram : XbeRam) : RunsFrom ram 0 (attachRuns ram (ram.size / kPage + 1) 0) := by
  have enough : ram.size ≤ (0 + (ram.size / kPage + 1)) * kPage := by
    unfold kPage
    omega
  have runs := attachRuns_spec (ram.size / kPage + 1) 0 enough
  rwa [Nat.zero_mul] at runs

/-- The runs together are the committed pages. -/
theorem attach_runs_has (ram : XbeRam) (page : Nat) :
    (∃ run ∈ attachRuns ram (ram.size / kPage + 1) 0, run.1.Has (page * kPage)) ↔ ram.Held page := by
  have runs := attach_runs ram
  constructor
  · rintro ⟨run, member, has⟩
    obtain ⟨first, last, _, isRun⟩ := runs.each run member
    obtain ⟨low, high⟩ := (isRun.has page).mp has
    exact isRun.held page low high
  · exact runs.complete page (Nat.zero_le _)

/-- The pages of a CPU that are not guest memory. -/
def OwnPage (page : Nat) : Prop := page * kPage = kHleMarker ∨ page * kPage = kGdtVa

instance (page : Nat) : Decidable (OwnPage page) := inferInstanceAs (Decidable (_ ∨ _))

/-- The pages of the processor itself lie above the window. -/
theorem held_not_own (window : ram.size ≤ kHleMarker) {page : Nat} (held : ram.Held page) : ¬ OwnPage page := by
  have inside := held.inside
  unfold OwnPage kGdtVa
  omega

/-- What `attach` has done, when it succeeds with a window that ends below the markers: the runs,
the marker page and the GDT page are mapped and recorded.

Proof: the runs are mapped by the rule for a list of runs, which gives the permissions of the RAM;
each of the two own pages is then one more mapping, recorded on the way, and the window ends below
both. -/
theorem attach_spec (lawful : uc.Lawful) (ram : XbeRam) (window : ram.size ≤ kHleMarker) {cpu : GuestCpu uc}
    (attached : attach uc ram = some cpu) : cpu.Tracks ∧
      (∀ page, uc.perms cpu.engine page ≠ none ↔ ram.Held page ∨ OwnPage page) ∧
      ∀ run ∈ attachRuns ram (ram.size / kPage + 1) 0, ∀ page, run.1.Has (page * kPage) →
        uc.perms cpu.engine page = some (permsOf run.2) := by
  have runs := attach_runs ram
  obtain ⟨engine, opening⟩ : ∃ engine, uc.opened = some engine := by
    cases opening : uc.opened with
    | none => simp [attach, opening] at attached
    | some engine => exact ⟨engine, rfl⟩
  have nothing := lawful.nothing engine opening
  obtain ⟨plain, mapped, tracks, others, taken⟩ := (tracks_opened lawful opening).mapRuns lawful
    (fun run member => (runs.each run member).imp (fun _ found => found.imp (fun _ known => known.2)))
    runs.ordered (fun run _ page _ => nothing page)
  simp only [attach, opening, mapped] at attached
  have plainPerms : ∀ page, uc.perms plain.engine page ≠ none ↔ ram.Held page := by
    intro page
    rw [← attach_runs_has]
    constructor
    · intro present
      by_contra outside
      refine present ((others page (fun run member has => outside ⟨run, member, has⟩)).trans (nothing page))
    · rintro ⟨run, member, has⟩
      simp [taken run member page has]
  have marker : ∀ page, OnPages kHleMarker kPage page ↔ page * kPage = kHleMarker := by
    intro page
    unfold OnPages kHleMarker kPage
    omega
  have gdt : ∀ page, OnPages kGdtVa kPage page ↔ page * kPage = kGdtVa := by
    intro page
    unfold OnPages kGdtVa kHleMarker kPage
    omega
  cases marking : uc.memMapPtr plain.engine kHleMarker kPage .readExec with
  | none => simp [marking] at attached
  | some marked =>
    have markedPerms := lawful.mapped _ _ _ _ _ marking
    cases describing : uc.memMapPtr marked kGdtVa kPage .read with
    | none => simp [marking, describing] at attached
    | some engine =>
      simp only [marking, describing, Option.ite_none_right_eq_some, Option.some.injEq] at attached
      obtain ⟨-, rfl⟩ := attached
      have perms := lawful.mapped _ _ _ _ _ describing
      have whole : ∀ va, kPage ∣ va → Whole kPage ⟨va, kPage⟩ :=
        fun va start => ⟨show 0 < kPage by decide, start, Nat.dvd_refl _⟩
      have markedTracks := tracks.record lawful (whole kHleMarker (by decide)) marking
      have allTracks := markedTracks.record lawful (whole kGdtVa (by decide)) describing
      rw [List.append_assoc] at allTracks
      refine ⟨allTracks, fun page => ?_, fun run member page has => ?_⟩
      · rw [OwnPage, ← plainPerms]
        simp only [perms, markedPerms, gdt, marker]
        split
        · rename_i onGdt
          simp [onGdt]
        · rename_i offGdt
          split
          · rename_i onMarker
            simp [onMarker]
          · rename_i offMarker
            simp [offGdt, offMarker]
      · have held := (attach_runs_has ram page).mp ⟨run, member, has⟩
        have own := held_not_own window held
        unfold OwnPage at own
        rw [not_or] at own
        simp only [perms, markedPerms, gdt, marker, own.1, own.2, ↓reduceIte]
        exact taken run member page has

/-! ## Permissions and protection -/

/-- Every page of the guest memory is mapped as it is protected, and not mapped when it is
not committed. -/
def Mirrors (ram : XbeRam) (cpu : GuestCpu uc) : Prop :=
  ∀ page, ¬ OwnPage page → uc.perms cpu.engine page =
    if ram.Held page then some (if ram.pageWritable page then .readWriteExec else .readExec) else none

/-- The two permissions tell the protection. -/
theorem permsOf_inj {left right : Bool} (same : permsOf left = permsOf right) : left = right := by
  cases left <;> cases right <;> first | rfl | cases same

/-- The flag that the code keeps is the negation. -/
theorem permsOf_not (writable : Bool) : permsOf (!writable) = if writable then .readWriteExec else .readExec := by
  cases writable <;> rfl

/-- The page behind a committed page is protected as that page is, or not committed. -/
def Uniform (ram : XbeRam) : Prop :=
  ∀ page, ram.Held page → ram.Held (page + 1) → ram.pageWritable (page + 1) = ram.pageWritable page

/-- Where no two neighbours are held, a run is one page. -/
theorem IsRun.single {run : Interval × Bool} {first last : Nat} (isRun : IsRun ram run first last)
    (uniform : Uniform ram) : last = first + 1 := by
  have nonempty := isRun.nonempty
  by_contra longer
  have held := isRun.held first (Nat.le_refl _) nonempty
  have next := isRun.held (first + 1) (Nat.le_succ _) (by omega)
  have opposite := isRun.follows (first + 1) (Nat.lt_succ_self _) (by omega)
  rw [uniform first held next, isRun.leads] at opposite
  cases writable : ram.pageWritable first <;> simp [writable] at opposite

/-- **Attaching a CPU.** The permissions mirror the protection of the guest memory exactly
when no two neighbouring committed pages differ in theirs.

Proof: the runs cover the committed pages, and each gets the permissions of its first page. A run
has a second page only where the protections differ. -/
theorem attach_mirrors_iff (lawful : uc.Lawful) (ram : XbeRam) (window : ram.size ≤ kHleMarker) (cpu : GuestCpu uc)
    (attached : attach uc ram = some cpu) : Mirrors ram cpu ↔ Uniform ram := by
  obtain ⟨tracks, present, taken⟩ := attach_spec lawful ram window attached
  have runs := attach_runs ram
  constructor
  · intro mirrors page held next
    have mapped : ∀ page, ram.Held page → uc.perms cpu.engine page = some (permsOf (!ram.pageWritable page)) := by
      intro page held
      rw [mirrors page (held_not_own window held), if_pos held, permsOf_not]
    obtain ⟨run, member, has⟩ := (attach_runs_has ram page).mpr held
    obtain ⟨first, last, _, isRun⟩ := runs.each run member
    obtain ⟨low, high⟩ := (isRun.has page).mp has
    have protection : ∀ page, ram.Held page → run.1.Has (page * kPage) → run.2 = !ram.pageWritable page := by
      intro page held inside
      have given := taken run member page inside
      rw [mapped page held] at given
      exact (permsOf_inj (Option.some.inj given)).symm
    have here := protection page held has
    by_cases leads : page = first
    · -- a page of the other protection would belong to the run, with the wrong permissions
      by_contra differs
      have opposite : ram.pageWritable (page + 1) = run.2 := by
        rw [here]
        cases first : ram.pageWritable page <;> cases second : ram.pageWritable (page + 1) <;> simp_all
      by_cases inside : page + 1 < last
      · have there := protection (page + 1) next ((isRun.has (page + 1)).mpr ⟨by omega, inside⟩)
        rw [← opposite] at there
        cases second : ram.pageWritable (page + 1) <;> simp [second] at there
      · have ends : page + 1 = last := by omega
        exact isRun.stops (ends ▸ next) (ends ▸ opposite)
    · have follows := isRun.follows page (by omega) high
      rw [here] at follows
      cases writable : ram.pageWritable page <;> simp [writable] at follows
  · intro uniform page outside
    by_cases held : ram.Held page
    · obtain ⟨run, member, has⟩ := (attach_runs_has ram page).mpr held
      obtain ⟨first, last, _, isRun⟩ := runs.each run member
      have only := isRun.single uniform
      obtain ⟨low, high⟩ := (isRun.has page).mp has
      have leads : page = first := by omega
      rw [taken run member page has, isRun.leads, if_pos held, permsOf_not, leads]
    · rw [if_neg held]
      by_contra mapped
      rcases (present page).mp mapped with committed | own
      · exact held committed
      · exact outside own

/-- An engine that is a table of pages. -/
def pageTable : Unicorn where
  Engine := Nat → Option Perms
  opened := some fun _ => none
  hooked := fun _ => true
  perms := fun engine page => engine page
  memMapPtr := fun engine va size perms =>
    if (List.range' (pageUp va / kPage) (pageUp (va + size) / kPage - pageUp va / kPage)).any
        (fun page => (engine page).isSome) then none
    else some (fun page => if OnPages va size page then some perms else engine page)
  memUnmap := fun engine va size =>
    if (List.range' (pageUp va / kPage) (pageUp (va + size) / kPage - pageUp va / kPage)).any
        (fun page => (engine page).isNone) then none
    else some (fun page => if OnPages va size page then none else engine page)

/-- The pages of a range that the engine is given. -/
theorem mem_pageRange {va size page : Nat} :
    page ∈ List.range' (pageUp va / kPage) (pageUp (va + size) / kPage - pageUp va / kPage) ↔
      OnPages va size page := by
  rw [List.mem_range'_1]
  unfold OnPages pageUp kPage
  omega

/-- A table of pages behaves as the engine does. -/
theorem pageTable_lawful : pageTable.Lawful where
  nothing := by
    rintro engine ⟨⟩ page
    rfl
  mapRefused := by
    intro engine va size perms
    simp only [pageTable, ite_eq_left_iff, reduceCtorEq, imp_false, not_not, List.any_eq_true, mem_pageRange,
      Option.isSome_iff_ne_none]
  mapped := by
    intro engine va size perms next mapping page
    simp only [pageTable] at mapping ⊢
    split at mapping
    · cases mapping
    · cases mapping
      rfl
  unmapRefused := by
    intro engine va size
    simp only [pageTable, ite_eq_left_iff, reduceCtorEq, imp_false, not_not, List.any_eq_true, mem_pageRange,
      Option.isNone_iff_eq_none]
  unmapped := by
    intro engine va size next unmapping page
    simp only [pageTable] at unmapping ⊢
    split at unmapping
    · cases unmapping
    · cases unmapping
      rfl

/-- A writable page and a read-only page behind it. -/
def writableThenReadOnly : XbeRam :=
  { size := 0x4000, committed := fun page => page == 1 || page == 2, readOnly := fun page => page == 2 }

/-- Both are mapped writable. -/
theorem writableThenReadOnly_differs :
    ¬ ∀ cpu, attach pageTable writableThenReadOnly = some cpu → Mirrors writableThenReadOnly cpu := by
  intro every
  obtain ⟨cpu, attached⟩ : ∃ cpu, attach pageTable writableThenReadOnly = some cpu :=
    Option.isSome_iff_exists.mp (by decide +kernel)
  obtain ⟨_, _, taken⟩ := attach_spec pageTable_lawful writableThenReadOnly (by decide) attached
  have mirrors := every cpu attached 2 (by decide)
  have given := taken (⟨0x1000, 0x2000⟩, false) (by decide +kernel) 2 (by decide)
  rw [mirrors] at given
  exact absurd given (by decide +kernel)

/-- Two writable pages and, behind a gap, a read-only one. -/
def gapBetween : XbeRam :=
  { size := 0x5000, committed := fun page => page != 2, readOnly := fun page => page == 3 || page == 4 }

/-- Two pages with a gap between them are mirrored, though their protections differ. -/
theorem gapBetween_mirrors : ∃ cpu, attach pageTable gapBetween = some cpu ∧ Mirrors gapBetween cpu := by
  have uniform : Uniform gapBetween := by
    have each : ∀ page, page < 5 → gapBetween.Held page → gapBetween.Held (page + 1) →
        gapBetween.pageWritable (page + 1) = gapBetween.pageWritable page := by decide +kernel
    intro page held next
    have inside : page * 0x1000 < 0x5000 := held.inside
    exact each page (by omega) held next
  obtain ⟨cpu, attached⟩ : ∃ cpu, attach pageTable gapBetween = some cpu :=
    Option.isSome_iff_exists.mp (by decide +kernel)
  exact ⟨cpu, attached, (attach_mirrors_iff pageTable_lawful gapBetween (by decide) cpu attached).mpr uniform⟩

end GuestCpu

end SeriesxEmu
