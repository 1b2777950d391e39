import SeriesxEmu.PageGrants
import SeriesxEmu.Runs

/-!
# The two guest allocators

The runtime takes stacks and TEBs from the kernel data page downwards, the kernel
places its blocks by first fit, upwards, in the same region. Neither looks at the
other: the floor of `alloc_pages` lies below its own cursor and moves with it, and
`mm_alloc` knows its own blocks only. They stay apart exactly as long as the runtime
takes pages behind all live blocks and every block has a place below the cursor.
-/

namespace SeriesxEmu

open GuestCpu

namespace MemoryPool

variable {pool : MemoryPool} {request : Request}

/-- The range from `va` on would do for the request. -/
def Suitable (pool : MemoryPool) (request : Request) (va : Nat) : Prop :=
  pool.Suits request.size request.lowest request.highest request.alignment va

/-- What a call asks for is given in words. -/
theorem request_words {call : Call} (asks : call.request = some request) :
    request.alignment < 2 ^ 32 ∧ request.protect < 2 ^ 32 := by
  cases call with
  | allocateContiguousMemory size =>
    cases asks
    exact ⟨Nat.two_pow_pos 32, show kPageReadWrite < 2 ^ 32 by decide⟩
  | allocateContiguousMemoryEx size lowest highest alignment protect =>
    cases asks
    exact ⟨alignment.toNat_lt, protect.toNat_lt⟩
  | freeContiguousMemory va => cases asks

/-- The block is the lowest place for the request. -/
structure Lowest (pool : MemoryPool) (request : Request) (block : MemAlloc) : Prop where
  size : block.size = request.size
  placed : pool.Placed block
  free : ∀ other ∈ pool.memAllocs, Apart other block
  suitable : pool.Suitable request block.va
  first : ∀ va, pool.Suitable request va → block.va ≤ va

/-- In a window with room for the pool, a call chooses the lowest place, and none only when
there is none. -/
theorem Laid.chosen (laid : pool.Laid) (window : pool.mmHi ≤ pool.ram.size) {call : Call}
    (asks : call.request = some request) :
    (∀ block, pool.chosen call = some block → pool.Lowest request block) ∧
      (pool.chosen call = none → ∀ va, ¬ pool.Suitable request va) := by
  obtain ⟨alignmentWord, protectWord⟩ := request_words asks
  obtain ⟨result, fits, suited, lowest⟩ :=
    laid.housed.fit request.size request.lowest request.highest request.alignment alignmentWord
  rw [MemoryPool.chosen, asks, Option.bind_some, blockFor, fits, Option.join_some]
  cases result with
  | none =>
    refine ⟨fun block impossible => (by cases impossible), fun _ va suits => ?_⟩
    obtain ⟨found, impossible, _⟩ := lowest va suits
    cases impossible
  | some found =>
    have suits := suited found rfl
    have below := suits.below
    have inside : pool.ram.rangeOk found request.size = true :=
      XbeRam.rangeOk_iff.mpr ⟨suits.nonempty, Nat.le_trans below window⟩
    rw [Option.map_some, Option.filter_some, if_pos inside]
    refine ⟨fun block same => ?_, fun impossible => by cases impossible⟩
    obtain rfl := Option.some.inj same
    refine ⟨rfl, ?_, suits.free, suits, fun va other => ?_⟩
    · have above := suits.above
      refine ⟨protectWord, ?_, suits.nonempty, by simp only; omega, below⟩
      exact Nat.mod_eq_zero_of_dvd (Nat.dvd_trans (pages_dvd suits.power) suits.multiple)
    · obtain ⟨first, same, least⟩ := lowest va other
      cases same
      exact least

end MemoryPool

namespace UnicornRuntime

variable {uc : Unicorn} {rt next : UnicornRuntime uc} {ranges : List Interval}

/-- The note of what the runtime has taken so far. -/
def noteTaken (rt : UnicornRuntime uc) (action : Action) (_ : UnicornRuntime uc) (ranges : List Interval) :
    List Interval :=
  ranges ++ (rt.taken action).toList

/-- The range of a block. -/
def blockRange (block : MemAlloc) : Interval := ⟨block.va, block.size⟩

/-- No page meets both ranges. -/
def NoPageShared (left right : Interval) : Prop :=
  ∀ page, PageOf left.start left.size page → ¬ PageOf right.start right.size page

/-- What the runtime has taken and the live blocks: no two of them share a page. -/
def AllApart (state : UnicornRuntime uc × List Interval) : Prop :=
  (state.2 ++ state.1.pool.memAllocs.map blockRange).Pairwise NoPageShared

/-- A kernel call leaves the pages and bytes that the runtime has taken as they are. -/
def KernelSpares (state : UnicornRuntime uc × List Interval) (action : Action) : Prop :=
  ∀ call, action = .krnl call → ∀ next, state.1.step action = some next → ∀ range ∈ state.2,
    (∀ page, PageOf range.start range.size page →
      next.pool.ram.committed page = state.1.pool.ram.committed page ∧
        next.pool.ram.readOnly page = state.1.pool.ram.readOnly page) ∧
    ∀ address, range.Has address → next.pool.ram.bytes address = state.1.pool.ram.bytes address

/-- The runtime takes pages behind all live blocks; a block that has a place at all has one
below the cursor. -/
def Room (rt : UnicornRuntime uc) : Action → Prop
  | .krnl call => ∀ request, call.request = some request → (∃ va, rt.pool.Suitable request va) →
    ∃ va, rt.pool.Suitable request va ∧ va + request.size ≤ rt.top
  | action => ∀ range, rt.taken action = some range →
    ∀ block ∈ rt.pool.memAllocs, block.va + block.size ≤ range.start

/-- A step that returns has room. -/
def Clear (rt : UnicornRuntime uc) (action : Action) : Prop := rt.step action ≠ none → rt.Room action

/-- Where everything lies: the blocks in the pool, and what the runtime has taken on the
pages from the cursor up to where it started. -/
structure Stacked (origin : Nat) (rt : UnicornRuntime uc) (ranges : List Interval) : Prop where
  paged : rt.pool.ram.pageSize = kPage
  window : rt.pool.mmHi ≤ rt.pool.ram.size
  laid : rt.pool.Laid
  behind : rt.pool.mmHi ≤ origin
  aligned : rt.top % kPage = 0
  under : rt.top ≤ origin
  covers : ∀ page, (∃ range ∈ ranges, PageOf range.start range.size page) ↔
    rt.top ≤ page * kPage ∧ page * kPage < origin
  apart : ranges.Pairwise NoPageShared

/-- The pages of a block are those of its range. -/
theorem pageOf_block {block : MemAlloc} {page : Nat} :
    PageOf (blockRange block).start (blockRange block).size page ↔ MemoryPool.OnPage block page := Iff.rfl

/-- Everything is apart when all blocks end below the cursor. -/
theorem Stacked.apart_iff {origin : Nat} (stacked : Stacked origin rt ranges) :
    AllApart (rt, ranges) ↔ ∀ block ∈ rt.pool.memAllocs, block.va + block.size ≤ rt.top := by
  have aligned := stacked.aligned
  have behind := stacked.behind
  rw [AllApart, List.pairwise_append]
  constructor
  · rintro ⟨_, _, cross⟩ block member
    have placed := stacked.laid.placed block member
    have blockAligned := placed.aligned
    have nonempty := placed.nonempty
    have below := placed.below
    by_contra higher
    have onBlock : MemoryPool.OnPage block (max block.va rt.top / kPage) := by
      unfold MemoryPool.OnPage
      unfold kPage at aligned ⊢
      omega
    have taken : rt.top ≤ max block.va rt.top / kPage * kPage ∧ max block.va rt.top / kPage * kPage < origin := by
      unfold kPage at aligned ⊢
      omega
    obtain ⟨range, known, onRange⟩ := (stacked.covers _).mpr taken
    exact cross range known _ (List.mem_map_of_mem member) _ onRange (pageOf_block.mpr onBlock)
  · intro below
    refine ⟨stacked.apart, ?_, ?_⟩
    · rw [List.pairwise_map]
      refine stacked.laid.apart.imp_of_mem (fun inLeft inRight apart page onLeft => ?_)
      exact apart.pages (stacked.laid.placed _ inLeft).aligned (stacked.laid.placed _ inRight).aligned onLeft
    · intro range known other mapped page onRange onOther
      obtain ⟨block, member, rfl⟩ := List.mem_map.mp mapped
      have low := ((stacked.covers page).mp ⟨range, known, onRange⟩).1
      have ends := below block member
      have high := onOther.2
      simp only [blockRange] at high
      omega

/-! ## The condition and what a step does -/

/-- There is room for a range if it starts behind all blocks. -/
theorem room_taken (rt : UnicornRuntime uc) (action : Action) (range : Interval)
    (taken : rt.taken action = some range) :
    rt.Room action ↔ ∀ block ∈ rt.pool.memAllocs, block.va + block.size ≤ range.start := by
  cases action with
  | krnl call => cases taken
  | _ =>
    refine ⟨fun room => room range taken, fun below other same => ?_⟩
    rw [← Option.some.inj (taken.symm.trans same)]
    exact below

/-- An action that takes nothing needs no room. -/
theorem Stacked.room_nothing {origin : Nat} (stacked : Stacked origin rt ranges) (action : Action)
    (untaken : rt.taken action = none) (unrecorded : rt.recorded action = none) : rt.Room action := by
  cases action with
  | krnl call =>
    intro request asks some
    obtain ⟨va, suitable⟩ := some
    exact absurd suitable ((stacked.laid.chosen stacked.window asks).2 unrecorded va)
  | _ =>
    intro range taken
    rw [untaken] at taken
    cases taken

/-- The kernel records the lowest place, so there is room when that place is below the
cursor. -/
theorem Stacked.room_recorded {origin : Nat} (stacked : Stacked origin rt ranges) (action : Action)
    (block : MemAlloc) (recorded : rt.recorded action = some block) :
    rt.pool.Placed block ∧ (∀ other ∈ rt.pool.memAllocs, MemoryPool.Apart other block) ∧
      (rt.Room action ↔ block.va + block.size ≤ rt.top) := by
  cases action with
  | krnl call =>
    rw [UnicornRuntime.recorded] at recorded
    cases asks : call.request with
    | none =>
      rw [MemoryPool.chosen, asks] at recorded
      cases recorded
    | some request =>
      have lowest := (stacked.laid.chosen stacked.window asks).1 block recorded
      have size := lowest.size
      refine ⟨lowest.placed, lowest.free, fun room => ?_, fun below other same _ => ?_⟩
      · obtain ⟨va, suitable, ends⟩ := room request asks ⟨block.va, lowest.suitable⟩
        have first := lowest.first va suitable
        omega
      · obtain rfl := Option.some.inj (asks.symm.trans same)
        exact ⟨block.va, lowest.suitable, by omega⟩
  | _ => cases recorded

/-- What is handed out below the cursor is made of whole pages. -/
theorem below_spec {bytes : Nat} {range : Interval} (found : rt.below bytes = some range) :
    0 < range.size ∧ range.size % kPage = 0 := by
  obtain ⟨mapped, inside⟩ := Option.filter_eq_some_iff.mp found
  obtain ⟨base, _, rfl⟩ := Option.map_eq_some_iff.mp mapped
  exact ⟨(XbeRam.rangeOk_iff.mp inside).1, pageRound_whole bytes⟩

/-- So is whatever an action takes. -/
theorem taken_spec (rt : UnicornRuntime uc) (action : Action) (range : Interval)
    (found : rt.taken action = some range) : 0 < range.size ∧ range.size % kPage = 0 := by
  cases action with
  | allocPages bytes => exact below_spec found
  | allocStack bytes => exact below_spec found
  | buildTeb => exact below_spec found
  | _ => cases found

/-- The blocks stay laid out when one is recorded in a free place. -/
theorem laid_recorded {pool after : MemoryPool} (laid : pool.Laid) {block : MemAlloc} (placed : pool.Placed block)
    (free : ∀ other ∈ pool.memAllocs, MemoryPool.Apart other block) (recorded : pool.Recorded block after) :
    after.Laid := by
  constructor
  · rw [recorded.high]
    exact laid.words
  · intro other member
    rw [recorded.blocks] at member
    rcases List.mem_append.mp member with old | new
    · exact (laid.placed other old).congr recorded.low recorded.high
    · rw [List.mem_singleton.mp new]
      exact placed.congr recorded.low recorded.high
  · rw [recorded.blocks]
    refine List.pairwise_append.mpr ⟨laid.apart, List.pairwise_singleton _ _, fun other member last same => ?_⟩
    rw [List.mem_singleton.mp same]
    exact free other member

/-- Fewer blocks are laid out as well. -/
theorem laid_fewer {pool after : MemoryPool} (laid : pool.Laid) (blocks : after.memAllocs.Sublist pool.memAllocs)
    (low : after.mmLo = pool.mmLo) (high : after.mmHi = pool.mmHi) : after.Laid := by
  constructor
  · rw [high]
    exact laid.words
  · intro other member
    exact (laid.placed other (blocks.subset member)).congr low high
  · exact laid.apart.sublist blocks

/-- Fewer blocks and the same cursor: everything stays where it lies. -/
theorem Stacked.fewer {origin : Nat} (stacked : Stacked origin rt ranges) (next : UnicornRuntime uc)
    (paged : next.pool.ram.pageSize = kPage) (size : next.pool.ram.size = rt.pool.ram.size)
    (blocks : next.pool.memAllocs.Sublist rt.pool.memAllocs)
    (low : next.pool.mmLo = rt.pool.mmLo) (high : next.pool.mmHi = rt.pool.mmHi) (top : next.top = rt.top) :
    Stacked origin next ranges ∧ (AllApart (rt, ranges) → AllApart (next, ranges)) := by
  have after : Stacked origin next ranges := by
    refine ⟨paged, ?_, laid_fewer stacked.laid blocks low high, ?_, ?_, ?_, ?_, stacked.apart⟩
    · rw [high, size]
      exact stacked.window
    · rw [high]
      exact stacked.behind
    · rw [top]
      exact stacked.aligned
    · rw [top]
      exact stacked.under
    · rw [top]
      exact stacked.covers
  refine ⟨after, fun apart => after.apart_iff.mpr (fun block member => ?_)⟩
  rw [top]
  exact stacked.apart_iff.mp apart block (blocks.subset member)

/-- The pages of a range that ends at the cursor. -/
theorem pageOf_lowered {start size top page : Nat} (reaches : start + size = top) (aligned : top % kPage = 0)
    (whole : size % kPage = 0) : PageOf start size page ↔ start ≤ page * kPage ∧ page * kPage < top := by
  unfold PageOf
  unfold kPage at *
  omega

/-- The cursor moves down over what the runtime takes. -/
theorem Stacked.lowered {origin : Nat} (stacked : Stacked origin rt ranges) {range : Interval}
    (lowered : Lowered rt range next) (spans : 0 < range.size ∧ range.size % kPage = 0) :
    Stacked origin next (ranges ++ [range]) := by
  have under := stacked.under
  have grants := lowered.spread.grants
  have aligned := stacked.aligned
  have reaches := lowered.reaches
  have onRange : ∀ page, PageOf range.start range.size page ↔ range.start ≤ page * kPage ∧ page * kPage < rt.top :=
    fun page => pageOf_lowered reaches aligned spans.2
  refine ⟨grants.samePages.trans stacked.paged, ?_, ?_, ?_, ?_, ?_, fun page => ?_, ?_⟩
  · rw [lowered.blocks.high, grants.sameSize]
    exact stacked.window
  · refine laid_fewer stacked.laid ?_ lowered.blocks.low lowered.blocks.high
    rw [lowered.blocks.blocks]
  · rw [lowered.blocks.high]
    exact stacked.behind
  · rw [lowered.top]
    unfold kPage at *
    omega
  · rw [lowered.top]
    omega
  · have known := stacked.covers page
    have last := onRange page
    rw [lowered.top]
    simp only [List.mem_append, List.mem_singleton, or_and_right, exists_or, exists_eq_left, known, last]
    omega
  · refine List.pairwise_append.mpr ⟨stacked.apart, List.pairwise_singleton _ _, fun other member last same => ?_⟩
    rw [List.mem_singleton.mp same]
    intro page onOther onLast
    have above := ((stacked.covers page).mp ⟨other, member, onOther⟩).1
    have under := ((onRange page).mp onLast).2
    omega

/-- The kernel records a block in a free place, and the cursor stays. -/
theorem Stacked.placed {origin : Nat} (stacked : Stacked origin rt ranges) {block : MemAlloc}
    (placed : rt.pool.Placed block) (free : ∀ other ∈ rt.pool.memAllocs, MemoryPool.Apart other block)
    (recorded : rt.pool.Recorded block next.pool) (top : next.top = rt.top) : Stacked origin next ranges := by
  have grants := recorded.grants
  refine ⟨grants.samePages.trans stacked.paged, ?_, laid_recorded stacked.laid placed free recorded, ?_, ?_, ?_, ?_,
    stacked.apart⟩
  · rw [recorded.high, grants.sameSize]
    exact stacked.window
  · rw [recorded.high]
    exact stacked.behind
  · rw [top]
    exact stacked.aligned
  · rw [top]
    exact stacked.under
  · rw [top]
    exact stacked.covers

/-- Every step keeps the layout, and keeps everything apart exactly when it has room. -/
theorem Stacked.step_iff {origin : Nat} (stacked : Stacked origin rt ranges) (apart : AllApart (rt, ranges))
    {action : Action} (stepped : rt.step action = some next) :
    Stacked origin next (noteTaken rt action next ranges) ∧
      (AllApart (next, noteTaken rt action next ranges) ↔ rt.Room action) := by
  have change := step_change stacked.paged stepped
  have nothing := stacked.room_nothing action
  have roomTaken := room_taken rt action
  have spans := taken_spec rt action
  have roomRecorded := stacked.room_recorded action
  rw [noteTaken]
  generalize rt.taken action = taken, rt.recorded action = recorded at change nothing roomTaken spans roomRecorded
  cases change with
  | quiet next pool top cpus =>
    rw [Option.toList_none, List.append_nil]
    obtain ⟨after, still⟩ := stacked.fewer next (by rw [pool]; exact stacked.paged) (by rw [pool])
      (by rw [pool]) (by rw [pool]) (by rw [pool]) top
    exact ⟨after, iff_of_true (still apart) (nothing rfl rfl)⟩
  | joined next cpu attached pool top cpus =>
    rw [Option.toList_none, List.append_nil]
    obtain ⟨after, still⟩ := stacked.fewer next (by rw [pool]; exact stacked.paged) (by rw [pool])
      (by rw [pool]) (by rw [pool]) (by rw [pool]) top
    exact ⟨after, iff_of_true (still apart) (nothing rfl rfl)⟩
  | lowered next range lowered =>
    have after := stacked.lowered lowered (spans range rfl)
    rw [Option.toList_some]
    refine ⟨after, ?_⟩
    rw [after.apart_iff, roomTaken range rfl, lowered.blocks.blocks, lowered.top]
  | placed next block spread recorded top =>
    obtain ⟨placed, free, room⟩ := roomRecorded block rfl
    have after := stacked.placed placed free recorded top
    have below := stacked.apart_iff.mp apart
    rw [Option.toList_none, List.append_nil]
    refine ⟨after, ?_⟩
    rw [after.apart_iff, room, recorded.blocks, top]
    simp only [List.mem_append, List.mem_singleton, or_imp, forall_and, forall_eq]
    exact and_iff_right below
  | freed next block live held ram blocks low high top cpus =>
    have positive : 0 < rt.pool.ram.pageSize := by rw [stacked.paged]; decide
    have becomes := XbeRam.uncommit_becomes positive held
    rw [Option.toList_none, List.append_nil]
    obtain ⟨after, still⟩ := stacked.fewer next (by rw [ram, becomes.pageSize, stacked.paged])
      (by rw [ram, becomes.size]) (by rw [blocks]; exact List.eraseP_sublist) low high top
    exact ⟨after, iff_of_true (still apart) (nothing rfl rfl)⟩
  | dropped next va ram blocks low high top cpus =>
    rw [Option.toList_none, List.append_nil]
    obtain ⟨after, still⟩ := stacked.fewer next (by rw [ram]; exact stacked.paged) (by rw [ram])
      (by rw [blocks]; exact List.eraseP_sublist) low high top
    exact ⟨after, iff_of_true (still apart) (nothing rfl rfl)⟩

/-! ## What the kernel leaves alone -/

/-- A range of the runtime and a block of the kernel share no page. -/
theorem AllApart.cross {state : UnicornRuntime uc × List Interval} (apart : AllApart state) {range : Interval}
    (taken : range ∈ state.2) {block : MemAlloc} (live : block ∈ state.1.pool.memAllocs) :
    NoPageShared range (blockRange block) :=
  (List.pairwise_append.mp apart).2.2 range taken _ (List.mem_map_of_mem live)

/-- What happens beside a block spares a range that shares no page with it. -/
theorem spared_beside {ram after : XbeRam} {range : Interval} {block : MemAlloc}
    (apart : NoPageShared range (blockRange block)) (beside : ram.Beside block.va block.size after) :
    (∀ page, PageOf range.start range.size page →
      after.committed page = ram.committed page ∧ after.readOnly page = ram.readOnly page) ∧
    ∀ address, range.Has address → after.bytes address = ram.bytes address := by
  refine ⟨fun page onRange => beside.pages page (apart page onRange), fun address inside => ?_⟩
  refine beside.bytes address ?_
  by_contra within
  have onRange : PageOf range.start range.size (address / kPage) := by
    unfold Interval.Has at inside
    unfold PageOf kPage
    omega
  refine apart _ onRange ?_
  unfold PageOf blockRange kPage
  simp only
  omega

/-- So the kernel's allocator spares what has been handed out. -/
theorem Stacked.kernelSpares {origin : Nat} (stacked : Stacked origin rt ranges) (apart : AllApart (rt, ranges))
    {action : Action} (still : ∀ next, Runs.watch step noteTaken (rt, ranges) action = some next → AllApart next) :
    KernelSpares (rt, ranges) action := by
  rintro call rfl next stepped range taken
  have after := still _ (by rw [Runs.watch, stepped, Option.map_some])
  have change := step_change stacked.paged stepped
  simp only at stepped taken
  generalize rt.recorded (.krnl call) = recorded at change
  cases change with
  | quiet next pool top cpus =>
    rw [pool]
    exact ⟨fun _ _ => ⟨rfl, rfl⟩, fun _ _ => rfl⟩
  | joined next cpu attached pool top cpus =>
    rw [pool]
    exact ⟨fun _ _ => ⟨rfl, rfl⟩, fun _ _ => rfl⟩
  | placed next block spread recorded top =>
    refine spared_beside (after.cross (List.mem_append_left _ taken) ?_) recorded.beside
    rw [recorded.blocks]
    exact List.mem_append_right _ List.mem_cons_self
  | freed next block live held ram blocks low high top cpus =>
    refine spared_beside (apart.cross taken live) ?_
    rw [ram]
    exact XbeRam.uncommit_beside stacked.paged held
  | dropped next va ram blocks low high top cpus =>
    rw [ram]
    exact ⟨fun _ _ => ⟨rfl, rfl⟩, fun _ _ => rfl⟩

/-! ## Every run -/

/-- At first nothing has been handed out. -/
theorem stacked_start {pool : MemoryPool} {kernelDataVa : Nat} (tlsRaw : List UInt8) (untouched : pool.Untouched)
    (aligned : (create uc pool kernelDataVa tlsRaw).top % kPage = 0)
    (behind : pool.mmHi ≤ (create uc pool kernelDataVa tlsRaw).top) :
    Stacked (create uc pool kernelDataVa tlsRaw).top (create uc pool kernelDataVa tlsRaw) [] ∧
      AllApart (create uc pool kernelDataVa tlsRaw, []) := by
  have unused : (create uc pool kernelDataVa tlsRaw).pool.memAllocs = [] := untouched.unused
  have stacked : Stacked (create uc pool kernelDataVa tlsRaw).top (create uc pool kernelDataVa tlsRaw) [] := by
    refine ⟨untouched.paged, untouched.window, untouched.ok.laid, behind, aligned, Nat.le_refl _, fun page => ?_,
      List.Pairwise.nil⟩
    simp only [List.not_mem_nil, false_and, exists_false, false_iff]
    omega
  refine ⟨stacked, stacked.apart_iff.mpr (fun block live => ?_)⟩
  rw [unused] at live
  cases live

/-- **The two allocators.** In every state of a run all pages that the runtime has taken and
all live blocks are apart, and no kernel call changes what the runtime has taken, exactly
when the runtime only takes pages behind all live blocks and every block that has a place
has one below the cursor.

Proof: behind its blocks the runtime only takes pages that nothing else has. So a step keeps both
sides apart exactly when it is clear, and the invariant carries that through the run. -/
theorem allocators_apart_iff (pool : MemoryPool) (kernelDataVa : Nat) (tlsRaw : List UInt8)
    (untouched : pool.Untouched) (aligned : (create uc pool kernelDataVa tlsRaw).top % kPage = 0)
    (behind : pool.mmHi ≤ (create uc pool kernelDataVa tlsRaw).top) (actions : List Action) :
    Runs.Visits (Runs.watch step noteTaken) AllApart (create uc pool kernelDataVa tlsRaw, []) actions ∧
        Runs.Along (Runs.watch step noteTaken) KernelSpares (create uc pool kernelDataVa tlsRaw, []) actions ↔
      Runs.Along step Clear (create uc pool kernelDataVa tlsRaw) actions := by
  have start := stacked_start tlsRaw untouched aligned behind
  generalize (create uc pool kernelDataVa tlsRaw).top = origin at start
  generalize create uc pool kernelDataVa tlsRaw = rt at start
  have stays : ∀ (state : UnicornRuntime uc × List Interval) action next,
      Stacked origin state.1 state.2 ∧ AllApart state → Runs.watch step noteTaken state action = some next →
        Stacked origin next.1 next.2 ∧ (AllApart next ↔ Clear state.1 action) := by
    rintro ⟨before, ranges⟩ action next ⟨stacked, apart⟩ stepped
    obtain ⟨after, taken, rfl⟩ := Option.map_eq_some_iff.mp stepped
    obtain ⟨afterStacked, room⟩ := stacked.step_iff apart taken
    have defined : before.step action ≠ none := by simp [taken]
    exact ⟨afterStacked, room.trans ⟨fun holds _ => holds, fun holds => holds defined⟩⟩
  have strengthened : Runs.Visits (Runs.watch step noteTaken) AllApart (rt, []) actions ↔
      Runs.Visits (Runs.watch step noteTaken) (fun state => Stacked origin state.1 state.2 ∧ AllApart state)
        (rt, []) actions :=
    Runs.visits_strengthen (fun state both => both.2)
      (fun state action next both stepped apart => ⟨(stays state action next both stepped).1, apart⟩) _ _ start
  have decided : Runs.Visits (Runs.watch step noteTaken) (fun state => Stacked origin state.1 state.2 ∧ AllApart state)
      (rt, []) actions ↔ Runs.Along step Clear rt actions := by
    rw [← Runs.along_watch rt ([] : List Interval) actions]
    refine Runs.visits_iff_along (fun state action next both stepped => ?_) (fun state action stuck defined => ?_) _ _
      start
    · obtain ⟨stacked, clear⟩ := stays state action next both stepped
      exact (and_iff_right stacked).trans clear
    · rw [Runs.watch, Option.map_eq_none_iff] at stuck
      exact absurd stuck defined
  rw [strengthened, decided]
  refine and_iff_left_of_imp (fun clear => ?_)
  refine Runs.along_of_visits (fun state action both still => ?_) _ _ (decided.mpr clear)
  exact both.1.kernelSpares both.2 (fun next stepped => (still next stepped).2)

/-- A console on which an image leaves 60 KiB below the kernel data page. -/
def bigImage : MemoryPool := { ram := {}, mmLo := 0x3FF0000, mmHi := 0x3FFF000 }

/-- A title that allocates the whole pool gets the page of the TEB too. -/
theorem wholePool_collides :
    ¬ Runs.Visits (Runs.watch step noteTaken) AllApart (create pageTable bigImage 0x3FFF000 [], [])
      [.buildTeb, .krnl (.allocateContiguousMemory 0xF000)] := by
  intro visits
  have evaluated : (Runs.run (Runs.watch step noteTaken) (create pageTable bigImage 0x3FFF000 [], [])
      [.buildTeb, .krnl (.allocateContiguousMemory 0xF000)]).map
        (fun state => (state.2, state.1.pool.memAllocs)) =
      some ([⟨0x3FFE000, 0x1000⟩], [⟨0x3FF0000, 0xF000, kPageReadWrite⟩]) := by decide +kernel
  obtain ⟨⟨final, ranges⟩, completed, observed⟩ := Option.map_eq_some_iff.mp evaluated
  obtain ⟨taken, live⟩ := Prod.mk.inj observed
  have apart := Runs.visits_final visits completed
  simp only at taken live
  have member : (⟨0x3FFE000, 0x1000⟩ : Interval) ∈ ranges := by simp [taken]
  have recorded : (⟨0x3FF0000, 0xF000, kPageReadWrite⟩ : MemAlloc) ∈ final.pool.memAllocs := by simp [live]
  exact apart.cross member recorded 0x3FFE (by decide) (by decide)

/-- A thread block and a small allocation stay apart. -/
theorem smallBlock_apart :
    Runs.Visits (Runs.watch step noteTaken) AllApart (create pageTable bigImage 0x3FFF000 [], [])
      [.buildTeb, .krnl (.allocateContiguousMemory 0x1000)] := by
  have untouched : bigImage.Untouched :=
    ⟨rfl, by decide, by decide, by decide, by decide, rfl, fun _ _ _ => rfl⟩
  have clear : Runs.Along step Clear (create pageTable bigImage 0x3FFF000 [])
      [.buildTeb, .krnl (.allocateContiguousMemory 0x1000)] := by
    refine ⟨fun _ range _ block live => (by cases live), fun next stepped =>
      ⟨fun _ request asks _ => ?_, fun _ _ => trivial⟩⟩
    have evaluated : ((create pageTable bigImage 0x3FFF000 []).step .buildTeb).map
        (fun rt => (rt.top, rt.pool.memAllocs, rt.pool.mmLo, rt.pool.mmHi)) =
        some (0x3FFE000, [], 0x3FF0000, 0x3FFF000) := by decide +kernel
    rw [stepped, Option.map_some, Option.some.injEq, Prod.mk.injEq, Prod.mk.injEq, Prod.mk.injEq] at evaluated
    obtain ⟨top, live, low, high⟩ := evaluated
    cases asks
    refine ⟨0x3FF0000, ⟨by decide, Or.inl rfl, by decide, ?_, ?_, fun impossible => absurd rfl impossible, ?_⟩, ?_⟩
    · rw [low]
      decide
    · rw [high]
      decide
    · simp [live]
    · rw [top]
      decide
  exact ((allocators_apart_iff bigImage 0x3FFF000 [] untouched (by decide) (by decide) _).mpr clear).1

end UnicornRuntime

end SeriesxEmu
