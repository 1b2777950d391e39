import SeriesxEmu.VulkanDevice
import Mathlib.Data.List.Induction

/-!
# Which device and which memory

Two copies of the selection decide for the same physical device, the first among the best. The memory
types of the pools exist exactly when the device has some that will do. A device that could be opened
can be closed without a leak, and so can most that could not.
-/

namespace SeriesxEmu

/-! ## The first among the best -/

section best
variable {α : Type} (rank : α → Nat)

/-- An item replaces the one that is kept when it is better. -/
def keepBest (kept : Option α) (item : α) : Option α :=
  match kept with
  | none => some item
  | some best => if rank best < rank item then some item else some best

/-- The first among the best of the items. -/
def IsFirstBest (items : List α) (best : α) : Prop :=
  ∃ before after, items = before ++ best :: after ∧ (∀ item ∈ before, rank item < rank best) ∧
    ∀ item ∈ after, rank item ≤ rank best

/-- One more item is kept if it is better than all before. -/
theorem IsFirstBest.snoc {items : List α} {best : α} (first : IsFirstBest rank items best) (item : α) :
    IsFirstBest rank (items ++ [item]) (if rank best < rank item then item else best) := by
  obtain ⟨before, after, rfl, worse, noneBetter⟩ := first
  split
  · rename_i better
    refine ⟨before ++ best :: after, [], rfl, ?_, List.forall_mem_nil _⟩
    intro other member
    rcases List.mem_append.mp member with early | late
    · exact (worse other early).trans better
    · rcases List.mem_cons.mp late with rfl | later
      · exact better
      · exact Nat.lt_of_le_of_lt (noneBetter other later) better
  · rename_i worst
    refine ⟨before, after ++ [item], by rw [List.append_assoc, List.cons_append], worse, ?_⟩
    intro other member
    rcases List.mem_append.mp member with early | late
    · exact noneBetter other early
    · rw [List.mem_singleton.mp late]
      exact Nat.le_of_not_lt worst

/-- The loop keeps the first among the best.

Proof: induction on the items that are left, with those passed as the invariant. -/
theorem foldl_keepBest (first : α) (rest : List α) :
    ∃ best, (first :: rest).foldl (keepBest rank) none = some best ∧ IsFirstBest rank (first :: rest) best := by
  induction rest using List.reverseRecOn with
  | nil => exact ⟨first, rfl, [], [], rfl, List.forall_mem_nil _, List.forall_mem_nil _⟩
  | append_singleton rest item inductionHypothesis =>
    obtain ⟨best, kept, isBest⟩ := inductionHypothesis
    refine ⟨if rank best < rank item then item else best, ?_, isBest.snoc rank item⟩
    rw [← List.cons_append, List.foldl_append, kept, List.foldl_cons, List.foldl_nil, keepBest]
    split
    · rfl
    · rfl

end best

/-! ## Physical devices -/

/-- Discrete devices before others, and those of the vendor first. -/
def PhysicalDevice.rank (device : PhysicalDevice) : Nat :=
  if device.discrete then if device.vendorId = kAmd then 2 else 1 else 0

/-- The loops keep the best device, but one that is not discrete is not recorded. -/
def Recorded (chosen kept : Option PhysicalDevice) : Prop :=
  chosen = kept.filter PhysicalDevice.discrete

/-- The discrete devices are those with a rank. -/
theorem rank_pos (device : PhysicalDevice) : 0 < device.rank ↔ device.discrete = true := by
  rw [PhysicalDevice.rank]
  split
  · rename_i discrete
    refine iff_of_true ?_ discrete
    split <;> decide
  · rename_i other
    exact iff_of_false (Nat.lt_irrefl 0) other

/-- One turn of the loop keeps what the general loop keeps, but for devices without a rank. -/
theorem recorded_turn {chosen kept : Option PhysicalDevice} (recorded : Recorded chosen kept)
    (device : PhysicalDevice) :
    Recorded (pickTurn chosen device) (keepBest PhysicalDevice.rank kept device) := by
  obtain rfl : chosen = _ := recorded
  cases kept with
  | none =>
    cases discrete : device.discrete with
    | true => simp [Recorded, Option.filter, pickTurn, keepBest, discrete]
    | false => simp [Recorded, Option.filter, pickTurn, keepBest, discrete]
  | some best =>
    cases discrete : device.discrete with
    | false =>
      have worst : device.rank = 0 := by simp [PhysicalDevice.rank, discrete]
      simp [Recorded, Option.filter, pickTurn, keepBest, worst, discrete]
    | true =>
      cases recordedBest : best.discrete with
      | false =>
        have better : best.rank < device.rank := by
          have zero : ¬ 0 < best.rank := by simp [rank_pos, recordedBest]
          have positive : 0 < device.rank := (rank_pos device).mpr discrete
          omega
        simp [Recorded, Option.filter, pickTurn, keepBest, discrete, recordedBest, better]
      | true =>
        by_cases own : device.vendorId = kAmd
        · by_cases ownBest : best.vendorId = kAmd
          · simp [Recorded, Option.filter, pickTurn, keepBest, PhysicalDevice.rank, discrete, recordedBest, own,
              ownBest]
          · simp [Recorded, Option.filter, pickTurn, keepBest, PhysicalDevice.rank, discrete, recordedBest, own,
              ownBest]
        · have other : ¬ best.rank < device.rank := by
            have least : 0 < best.rank := (rank_pos best).mpr recordedBest
            have one : device.rank = 1 := by simp [PhysicalDevice.rank, discrete, own]
            omega
          simp [Recorded, Option.filter, pickTurn, keepBest, discrete, recordedBest, own, other]

/-- So does the whole loop. -/
theorem recorded_loop (devices : List PhysicalDevice) {chosen kept : Option PhysicalDevice}
    (recorded : Recorded chosen kept) :
    Recorded (devices.foldl pickTurn chosen) (devices.foldl (keepBest PhysicalDevice.rank) kept) := by
  induction devices generalizing chosen kept with
  | nil => exact recorded
  | cons device rest inductionHypothesis => exact inductionHypothesis (recorded_turn recorded device)

/-- The device that is picked is the first among the best. -/
theorem pick_firstBest (first : PhysicalDevice) (rest : List PhysicalDevice) :
    IsFirstBest PhysicalDevice.rank (first :: rest) (((first :: rest).foldl pickTurn none).getD first) := by
  obtain ⟨best, kept, isBest⟩ := foldl_keepBest PhysicalDevice.rank first rest
  have recorded : Recorded ((first :: rest).foldl pickTurn none) (some best) := by
    rw [← kept]
    exact recorded_loop (first :: rest) rfl
  rw [Recorded] at recorded
  rw [recorded]
  cases discrete : best.discrete with
  | true => rwa [Option.filter_some_pos discrete, Option.getD_some]
  | false =>
    -- Without a discrete device the best is the first one.
    have zero : best.rank = 0 := Nat.eq_zero_of_not_pos fun positive => by
      rw [rank_pos, discrete] at positive
      cases positive
    obtain ⟨before, after, split, worse, noneBetter⟩ := isBest
    have empty : before = [] := by
      refine List.eq_nil_iff_forall_not_mem.mpr fun item member => ?_
      have below := worse item member
      omega
    subst empty
    have here : first = best := (List.cons.inj split).1
    rw [Option.filter_some_neg (by simp [discrete]), Option.getD_none, here]
    exact ⟨[], after, by rw [← here] at split ⊢; exact split, List.forall_mem_nil _, noneBetter⟩

/-- The other copy of the loop keeps the handle beside the device. -/
def Paired (pair : Nat × PhysicalDevice) (chosen : Option PhysicalDevice) : Prop :=
  match chosen with
  | none => pair = (0, { handle := 0 })
  | some device => pair = (device.handle, device) ∧ device.handle ≠ 0

/-- One turn of the query keeps the same device. -/
theorem paired_turn {pair : Nat × PhysicalDevice} {chosen : Option PhysicalDevice} (paired : Paired pair chosen)
    {device : PhysicalDevice} (handle : device.handle ≠ 0) :
    Paired (queryTurn pair device) (pickTurn chosen device) := by
  cases chosen with
  | none =>
    obtain rfl : pair = _ := paired
    cases discrete : device.discrete with
    | true =>
      simp only [queryTurn, pickTurn, discrete, if_true]
      exact ⟨rfl, handle⟩
    | false =>
      simp only [queryTurn, pickTurn, discrete, Bool.false_eq_true, if_false]
      rfl
  | some best =>
    obtain ⟨rfl, nonNull⟩ := paired
    cases discrete : device.discrete with
    | false =>
      simp only [queryTurn, pickTurn, discrete, Bool.false_eq_true, if_false]
      exact ⟨rfl, nonNull⟩
    | true =>
      have chosen : (best.handle == 0) = false := beq_false_of_ne nonNull
      simp only [queryTurn, pickTurn, discrete, if_true, chosen, Bool.false_or]
      split
      · exact ⟨rfl, handle⟩
      · exact ⟨rfl, nonNull⟩

/-- So both loops choose the same device. -/
theorem queried_eq (first : PhysicalDevice) (rest : List PhysicalDevice)
    (handles : ∀ device ∈ first :: rest, device.handle ≠ 0) :
    queriedDevice (first :: rest) = ((first :: rest).foldl pickTurn none).getD first := by
  have loop (devices : List PhysicalDevice) (handles : ∀ device ∈ devices, device.handle ≠ 0)
      {pair : Nat × PhysicalDevice} {chosen : Option PhysicalDevice} (paired : Paired pair chosen) :
      Paired (devices.foldl queryTurn pair) (devices.foldl pickTurn chosen) := by
    induction devices generalizing pair chosen with
    | nil => exact paired
    | cons device rest inductionHypothesis =>
      rw [List.forall_mem_cons] at handles
      exact inductionHypothesis handles.2 (paired_turn paired handles.1)
  have paired : Paired ((first :: rest).foldl queryTurn (0, { handle := 0 })) ((first :: rest).foldl pickTurn none) :=
    loop (first :: rest) handles rfl
  rw [queriedDevice]
  cases chosen : (first :: rest).foldl pickTurn none with
  | none =>
    rw [chosen] at paired
    have pair : (first :: rest).foldl queryTurn (0, { handle := 0 }) = (0, { handle := 0 }) := paired
    rw [pair]
    rfl
  | some device =>
    rw [chosen] at paired
    obtain ⟨pair, nonNull⟩ := paired
    rw [pair]
    exact if_neg (by simpa using nonNull)

/-- With more than eight devices the second query is cut short, and that is no success. -/
theorem enumerate_cons {query : DeviceQuery} {first : PhysicalDevice} {rest : List PhysicalDevice}
    (lists : query.Lists (first :: rest)) :
    enumerate query = if 8 < (first :: rest).length then none else some (first :: rest) := by
  simp only [enumerate, lists.count]
  rw [if_neg (by simp)]
  split
  · rename_i many
    rw [Nat.min_eq_right many.le]
    exact lists.incomplete 8 many
  · rename_i few
    rw [Nat.min_eq_left (Nat.le_of_not_lt few)]
    exact lists.complete _ (Nat.le_refl _)

/-! ## The heaps of a device -/

/-- The size of the largest heap of one kind, or zero when there is none. -/
def LargestHeap (heaps : List MemoryHeap) (own : Bool) (bytes : Nat) : Prop :=
  (∀ heap ∈ heaps, heap.deviceLocal = own → heap.size ≤ bytes) ∧
    (bytes = 0 ∨ ∃ heap ∈ heaps, heap.deviceLocal = own ∧ heap.size = bytes)

/-- Without heaps the largest has no bytes. -/
theorem LargestHeap.nil (own : Bool) : LargestHeap [] own 0 := ⟨List.forall_mem_nil _, Or.inl rfl⟩

/-- One more heap is kept if it is larger. -/
theorem LargestHeap.snoc {heaps : List MemoryHeap} {own : Bool} {bytes : Nat} (largest : LargestHeap heaps own bytes)
    (heap : MemoryHeap) :
    LargestHeap (heaps ++ [heap]) own (if heap.deviceLocal = own ∧ bytes < heap.size then heap.size else bytes) := by
  obtain ⟨bound, reached⟩ := largest
  split
  · rename_i larger
    refine ⟨fun other member kind => ?_, Or.inr ⟨heap, by simp, larger.1, rfl⟩⟩
    rcases List.mem_append.mp member with early | last
    · exact (bound other early kind).trans larger.2.le
    · rw [List.mem_singleton.mp last]
  · rename_i notLarger
    constructor
    · intro other member kind
      rcases List.mem_append.mp member with early | last
      · exact bound other early kind
      · obtain rfl := List.mem_singleton.mp last
        exact Nat.le_of_not_lt fun larger => notLarger ⟨kind, larger⟩
    · rcases reached with zero | ⟨other, member, found⟩
      · exact Or.inl zero
      · exact Or.inr ⟨other, List.mem_append_left _ member, found⟩

/-- Some heap of a kind is at least so large exactly when the largest one is. -/
theorem LargestHeap.le_iff {heaps : List MemoryHeap} {own : Bool} {bytes : Nat} (largest : LargestHeap heaps own bytes)
    {least : Nat} (positive : 0 < least) :
    least ≤ bytes ↔ ∃ heap ∈ heaps, heap.deviceLocal = own ∧ least ≤ heap.size := by
  obtain ⟨bound, reached⟩ := largest
  constructor
  · intro enough
    rcases reached with rfl | ⟨heap, member, kind, rfl⟩
    · exact absurd (positive.trans_le enough) (Nat.lt_irrefl 0)
    · exact ⟨heap, member, kind, enough⟩
  · rintro ⟨heap, member, kind, enough⟩
    exact enough.trans (bound heap member kind)

/-- What the loop over the heaps keeps, for the heaps that it has passed. -/
structure Sized (name : String) (heaps : List MemoryHeap) (info : VulkanHeapInfo) : Prop where
  deviceName : info.deviceName = name
  vram : LargestHeap heaps true info.vramBytes
  gtt : LargestHeap heaps false info.gttBytes

/-- One turn of the loop over the heaps keeps the largest of each kind. -/
theorem Sized.turn {name : String} {heaps : List MemoryHeap} {info : VulkanHeapInfo} (sized : Sized name heaps info)
    (heap : MemoryHeap) : Sized name (heaps ++ [heap]) (heapTurn info heap) := by
  have vram := sized.vram.snoc heap
  have gtt := sized.gtt.snoc heap
  have named := sized.deviceName
  rw [heapTurn]
  cases kind : heap.deviceLocal with
  | true =>
    simp only [kind, true_and, Bool.true_eq_false, false_and, if_false] at vram gtt
    simp only [if_true]
    split
    · rename_i larger
      rw [if_pos larger] at vram
      exact ⟨named, vram, gtt⟩
    · rename_i notLarger
      rw [if_neg notLarger] at vram
      exact ⟨named, vram, gtt⟩
  | false =>
    simp only [kind, true_and, Bool.false_eq_true, false_and, if_false] at vram gtt
    simp only [Bool.false_eq_true, if_false]
    split
    · rename_i larger
      rw [if_pos larger] at gtt
      exact ⟨named, vram, gtt⟩
    · rename_i notLarger
      rw [if_neg notLarger] at gtt
      exact ⟨named, vram, gtt⟩

/-- So does the whole loop.

Proof: induction on the heaps that are left. -/
theorem Sized.loop {name : String} {passed : List MemoryHeap} {info : VulkanHeapInfo} (sized : Sized name passed info)
    (heaps : List MemoryHeap) : Sized name (passed ++ heaps) (heaps.foldl heapTurn info) := by
  induction heaps generalizing passed info with
  | nil => rwa [List.append_nil]
  | cons heap rest inductionHypothesis =>
    have later := inductionHypothesis (sized.turn heap)
    rwa [List.append_assoc] at later

/-- What a report says of a device: its name, the largest heap of its own and of the host, and
whether some memory of its own is visible to the host. -/
structure ReportsOn (info : VulkanHeapInfo) (phys : PhysicalDevice) : Prop where
  found : info.found = true
  deviceName : info.deviceName = phys.deviceName
  vram : LargestHeap phys.memoryHeaps true info.vramBytes
  gtt : LargestHeap phys.memoryHeaps false info.gttBytes
  rebar : info.rebar = true ↔ ∃ type ∈ phys.memoryTypes, type.deviceLocal = true ∧ type.hostVisible = true

/-- The report that the query makes up for a device. -/
theorem reports_chosen (phys : PhysicalDevice) :
    ReportsOn { phys.memoryHeaps.foldl heapTurn { deviceName := phys.deviceName } with
      rebar := phys.memoryTypes.any (fun type => type.deviceLocal && type.hostVisible)
      found := true } phys := by
  have start : Sized phys.deviceName [] { deviceName := phys.deviceName } :=
    ⟨rfl, LargestHeap.nil true, LargestHeap.nil false⟩
  have sized := start.loop phys.memoryHeaps
  exact ⟨rfl, sized.deviceName, sized.vram, sized.gtt, by simp only [List.any_eq_true, Bool.and_eq_true]⟩

/-- The two pools fit when the device has a heap of its own for the fast one and another heap for
the slow one. -/
theorem ReportsOn.split_fits {info : VulkanHeapInfo} {phys : PhysicalDevice} (reports : ReportsOn info phys) :
    xboxSplitFits info = true ↔
      (∃ heap ∈ phys.memoryHeaps, heap.deviceLocal = true ∧ 10 * 2 ^ 30 ≤ heap.size) ∧
        ∃ heap ∈ phys.memoryHeaps, heap.deviceLocal = false ∧ 6 * 2 ^ 30 ≤ heap.size := by
  rw [xboxSplitFits, reports.found, Bool.true_and, Bool.and_eq_true, decide_eq_true_eq, decide_eq_true_eq,
    reports.vram.le_iff (by decide), reports.gtt.le_iff (by decide)]

/-- **Devices.** Whatever devices the driver has, the one that is opened is the first among the
best, discrete ones before others and the vendor's before other discrete ones, and the query reports
on that very device: on its name, its largest heaps and its visible memory, and so on whether the
pools fit. It is only with no device or more than eight that none is opened, and then the query
fails too.

Proof: both loops keep the first among the best of the devices passed, one beside its handle. The
loop over the heaps keeps the largest heap of each kind. -/
theorem devices_agree (query : DeviceQuery) (devices : List PhysicalDevice) (lists : query.Lists devices)
    (handles : ∀ device ∈ devices, device.handle ≠ 0) :
    match pickGpu query with
    | none => (devices = [] ∨ 8 < devices.length) ∧ queryVulkanHeaps true query = ({}, false)
    | some phys => devices ≠ [] ∧ devices.length ≤ 8 ∧ IsFirstBest PhysicalDevice.rank devices phys ∧
      ∃ info, queryVulkanHeaps true query = (info, true) ∧ ReportsOn info phys ∧ (xboxSplitFits info = true ↔
        (∃ heap ∈ phys.memoryHeaps, heap.deviceLocal = true ∧ 10 * 2 ^ 30 ≤ heap.size) ∧
          ∃ heap ∈ phys.memoryHeaps, heap.deviceLocal = false ∧ 6 * 2 ^ 30 ≤ heap.size) := by
  cases devices with
  | nil =>
    have nothing : enumerate query = none := by simp only [enumerate, lists.count, List.length_nil, if_true]
    simp only [pickGpu, queryVulkanHeaps, nothing]
    exact ⟨Or.inl trivial, rfl⟩
  | cons first rest =>
    have all := enumerate_cons lists
    have same := queried_eq first rest handles
    by_cases many : 8 < (first :: rest).length
    · rw [if_pos many] at all
      simp only [pickGpu, queryVulkanHeaps, all]
      exact ⟨Or.inr many, rfl⟩
    · rw [if_neg many] at all
      simp only [pickGpu, queryVulkanHeaps, all, Bool.not_true, Bool.false_eq_true, if_false, List.headD_cons, same]
      have reports := reports_chosen (((first :: rest).foldl pickTurn none).getD first)
      exact ⟨List.cons_ne_nil _ _, Nat.le_of_not_lt many, pick_firstBest first rest, _, rfl, reports,
        reports.split_fits⟩

/-- An integrated device, a discrete one and one of the vendor with two heaps of its own and one of
the host. -/
def threeDevices : List PhysicalDevice :=
  [{ handle := 1, vendorId := kAmd }, { handle := 2, discrete := true },
    { handle := 3
      discrete := true
      vendorId := kAmd
      memoryHeaps :=
        [{ size := 2 ^ 28, deviceLocal := true }, { size := 2 ^ 34 }, { size := 2 ^ 34, deviceLocal := true }]
      deviceName := "third" }]

/-- The third device is the vendor's, and it has both heaps. -/
theorem threeDevices_agree : ∃ info, queryVulkanHeaps true (DeviceQuery.of threeDevices) = (info, true) ∧
    info.deviceName = "third" ∧ xboxSplitFits info = true := by
  have picked : pickGpu (DeviceQuery.of threeDevices) = threeDevices[2]? := by decide
  have agrees := devices_agree _ threeDevices (DeviceQuery.of_lists threeDevices) (by decide)
  rw [picked] at agrees
  obtain ⟨-, -, -, info, queried, reports, fits⟩ := agrees
  exact ⟨info, queried, reports.deviceName, fits.mpr (by decide)⟩

/-! ## Memory types -/

section types
variable {types : List MemoryType} {wanted : MemoryType → Bool}

/-- The type at the index has the property. -/
def TypeAt (types : List MemoryType) (index : Nat) (wanted : MemoryType → Bool) : Prop :=
  ∃ type, types[index]? = some type ∧ wanted type = true

/-- A type at a place is one of the table. -/
theorem TypeAt.mem {index : Nat} (placed : TypeAt types index wanted) : ∃ type ∈ types, wanted type = true := by
  obtain ⟨type, found, suits⟩ := placed
  exact ⟨type, List.mem_of_getElem? found, suits⟩

/-- Its place is inside the table. -/
theorem TypeAt.bound {index : Nat} (placed : TypeAt types index wanted) : index < types.length := by
  obtain ⟨type, found, -⟩ := placed
  exact (List.getElem?_eq_some_iff.mp found).1

/-- A device has at most 32 memory types, so no index is the one that stands for none. -/
theorem firstType_cases (few : types.length ≤ 32) :
    firstType types wanted = kNoType ∧ (∀ type ∈ types, wanted type = false) ∨
      firstType types wanted ≠ kNoType ∧ TypeAt types (firstType types wanted) wanted := by
  rw [firstType]
  cases found : types.findIdx? wanted with
  | none => exact Or.inl ⟨rfl, fun type member => List.findIdx?_eq_none_iff.mp found type member⟩
  | some index =>
    obtain ⟨inside, suits, -⟩ := List.findIdx?_eq_some_iff_getElem.mp found
    refine Or.inr ⟨?_, types[index], List.getElem?_eq_getElem inside, suits⟩
    rw [Option.getD_some, kNoType]
    omega

/-- The first type of the preferred kind, or else the first of the other. -/
def preferType (types : List MemoryType) (preferred other : MemoryType → Bool) : Nat :=
  if firstType types preferred = kNoType then firstType types other else firstType types preferred

/-- There is no type of either kind, or the one that is chosen is preferred if any is. -/
theorem preferType_cases {preferred other : MemoryType → Bool} (few : types.length ≤ 32) :
    preferType types preferred other = kNoType ∧ (∀ type ∈ types, preferred type = false ∧ other type = false) ∨
      preferType types preferred other ≠ kNoType ∧ TypeAt types (preferType types preferred other)
        (fun type => preferred type || other type && types.all (fun another => !preferred another)) := by
  rw [preferType]
  rcases @firstType_cases types preferred few with ⟨missing, noneSuits⟩ | ⟨there, type, found, suits⟩
  · rw [if_pos missing]
    have all : types.all (fun another => !preferred another) = true :=
      List.all_eq_true.mpr fun another member => by rw [noneSuits another member, Bool.not_false]
    rcases @firstType_cases types other few with ⟨gone, nothing⟩ | ⟨there, type, found, suits⟩
    · exact Or.inl ⟨gone, fun type member => ⟨noneSuits type member, nothing type member⟩⟩
    · exact Or.inr ⟨there, type, found, by simp only [suits, all, Bool.and_self, Bool.or_true]⟩
  · rw [if_neg there]
    exact Or.inr ⟨there, type, found, by simp only [suits, Bool.true_or]⟩

/-- The first type of the fast pool is one that the host cannot see, if there is such a type. -/
theorem fastType_eq (types : List MemoryType) : fastType types =
    preferType types (fun type => type.deviceLocal && !type.hostVisible)
      (fun type => type.deviceLocal && type.hostVisible) := rfl

/-- The loop for the slow pool stops at the first type of the host's own memory. -/
theorem slowTurns_eq (types : List MemoryType) (index slow : Nat) (bound : index + types.length < kNoType) :
    slowTurns types index slow =
      match types.findIdx? (fun type => type.hostVisible && type.hostCoherent && !type.deviceLocal) with
      | some place => index + place
      | none =>
        if slow = kNoType then
          ((types.findIdx? (fun type => type.hostVisible && type.hostCoherent)).map (index + ·)).getD kNoType
        else slow := by
  induction types generalizing index slow with
  | nil =>
    rw [slowTurns]
    split
    · rename_i found
      cases found
    · split
      · rename_i missing
        exact missing
      · rfl
  | cons type rest inductionHypothesis =>
    rw [List.length_cons] at bound
    have next (slow : Nat) := inductionHypothesis (index + 1) slow (by omega)
    rw [slowTurns, List.findIdx?_cons, List.findIdx?_cons]
    cases usable : type.hostVisible && type.hostCoherent with
    | false =>
      simp only [Bool.false_and, Bool.false_eq_true, if_false, next]
      cases rest.findIdx? (fun type => type.hostVisible && type.hostCoherent && !type.deviceLocal) with
      | some place => exact Nat.add_right_comm index 1 place
      | none =>
        cases rest.findIdx? (fun type => type.hostVisible && type.hostCoherent) with
        | none => rfl
        | some place =>
          simp only [Option.map_some, Option.map_none, Option.getD_some, Nat.add_right_comm index 1 place]
          rfl
    | true =>
      cases own : type.deviceLocal with
      | false => simp
      | true =>
        simp only [Bool.not_true, Bool.and_false, Bool.false_eq_true, if_false, if_true, next]
        cases rest.findIdx? (fun type => type.hostVisible && type.hostCoherent && !type.deviceLocal) with
        | some place => exact Nat.add_right_comm index 1 place
        | none =>
          simp only [Option.map_none, Option.map_some, Option.getD_some, Nat.add_zero]
          by_cases missing : slow = kNoType
          · have other : index ≠ kNoType := by omega
            simp only [missing, if_true, if_neg other]
          · simp only [if_neg missing]

/-- The slow loop prefers the first plain host type, and takes the last of the others. -/
theorem slowType_eq (few : types.length ≤ 32) : slowType types =
    preferType types (fun type => type.hostVisible && type.hostCoherent && !type.deviceLocal)
      (fun type => type.hostVisible && type.hostCoherent) := by
  have bound : 0 + types.length < kNoType := by
    rw [kNoType]
    omega
  rw [slowType, slowTurns_eq types 0 kNoType bound, preferType, firstType, firstType, if_pos rfl]
  cases found : types.findIdx? (fun type => type.hostVisible && type.hostCoherent && !type.deviceLocal) with
  | none =>
    simp only [Nat.zero_add, Option.getD_none, if_true]
    rw [Option.map_id']
  | some place =>
    obtain ⟨inside, -, -⟩ := List.findIdx?_eq_some_iff_getElem.mp found
    have there : place ≠ kNoType := by
      rw [kNoType]
      omega
    simp only [Nat.zero_add, Option.getD_some, if_neg there]

/-- The fast pool lies in memory of the device, and in hidden memory if there is any. -/
theorem fastType_cases (few : types.length ≤ 32) :
    fastType types = kNoType ∧ (∀ type ∈ types, type.deviceLocal = false) ∨
      fastType types ≠ kNoType ∧ ∃ fast, types[fastType types]? = some fast ∧ fast.deviceLocal = true ∧
        (fast.hostVisible = true → ∀ type ∈ types, type.deviceLocal = true → type.hostVisible = true) := by
  rw [fastType_eq]
  rcases @preferType_cases types (fun type => type.deviceLocal && !type.hostVisible)
    (fun type => type.deviceLocal && type.hostVisible) few with ⟨missing, noneSuits⟩ | ⟨there, fast, found, suits⟩
  · refine Or.inl ⟨missing, fun type member => ?_⟩
    obtain ⟨hidden, seen⟩ := noneSuits type member
    cases visible : type.hostVisible with
    | true => simpa [visible] using seen
    | false => simpa [visible] using hidden
  · refine Or.inr ⟨there, fast, found, ?_, fun visible type member own => ?_⟩
    · cases own : fast.deviceLocal with
      | true => rfl
      | false => simp [own] at suits
    · simp only [visible, Bool.not_true, Bool.and_false, Bool.false_or, Bool.and_eq_true, List.all_eq_true] at suits
      simpa [own] using suits.2 type member

/-- The slow pool lies in visible coherent memory, and outside the device if there is any. -/
theorem slowType_cases (few : types.length ≤ 32) :
    slowType types = kNoType ∧ (∀ type ∈ types, (type.hostVisible && type.hostCoherent) = false) ∨
      slowType types ≠ kNoType ∧ ∃ slow, types[slowType types]? = some slow ∧
        (slow.hostVisible && slow.hostCoherent) = true ∧ (slow.deviceLocal = true → ∀ type ∈ types,
          (type.hostVisible && type.hostCoherent) = true → type.deviceLocal = true) := by
  rw [slowType_eq few]
  rcases @preferType_cases types (fun type => type.hostVisible && type.hostCoherent && !type.deviceLocal)
    (fun type => type.hostVisible && type.hostCoherent) few with ⟨missing, noneSuits⟩ | ⟨there, slow, found, suits⟩
  · exact Or.inl ⟨missing, fun type member => (noneSuits type member).2⟩
  · refine Or.inr ⟨there, slow, found, ?_, fun own type member usable => ?_⟩
    · cases usable : slow.hostVisible && slow.hostCoherent with
      | true => rfl
      | false => simp [usable] at suits
    · simp only [own, Bool.not_true, Bool.and_false, Bool.false_or, Bool.and_eq_true, List.all_eq_true] at suits
      have not := suits.2 type member
      rw [Bool.and_eq_true] at usable
      simpa [usable.1, usable.2] using not

end types

/-- The answers with which the device is ready but for its memory types. -/
structure Opens (answers : DeviceAnswers) (phys : PhysicalDevice) (inst dev pool : Nat) : Prop where
  inst : answers.inst = some inst
  phys : pickGpu answers.devices = some phys
  dev : answers.dev = some dev
  pool : answers.cmdPool = some pool

/-- When instance, device and pool exist, opening comes down to the choice of the types. -/
theorem init_opens {answers : DeviceAnswers} {phys : PhysicalDevice} {inst dev pool : Nat}
    (opens : Opens answers phys inst dev pool) :
    ∃ d : VulkanDev, d.valid = false ∧ d.inst = some inst ∧ d.dev = some dev ∧ d.cmdPool = some pool ∧
      VulkanDev.init answers = ((d.chooseTypes phys inst dev).1,
        [.create (.inst inst), .use (.inst inst), .create (.device dev), .use (.device dev),
          .create (.commandPool pool)] ++ (d.chooseTypes phys inst dev).2.1, (d.chooseTypes phys inst dev).2.2) := by
  obtain ⟨made, picked, created, pooled⟩ := opens
  let d : VulkanDev :=
    { inst := some inst
      phys := some phys
      dev := some dev
      queue := some answers.queue
      cmdPool := some pool
      queueFamily := findQueueFamily phys
      deviceName := phys.deviceName }
  refine ⟨d, rfl, rfl, rfl, rfl, ?_⟩
  simp only [VulkanDev.init, made, picked, created, pooled]
  rfl

/-- What is known of a device that is open. -/
structure VulkanDev.Ready (d : VulkanDev) (types : List MemoryType) : Prop where
  valid : d.valid = true
  fast : TypeAt types d.fastType MemoryType.deviceLocal
  slow : TypeAt types d.slowType (fun type => type.hostVisible && type.hostCoherent)

/-- A device that has been opened has a type for each pool. -/
theorem init_ready {answers : DeviceAnswers} {phys : PhysicalDevice} {inst dev pool : Nat}
    (opens : Opens answers phys inst dev pool) (few : phys.memoryTypes.length ≤ 32)
    (opened : (VulkanDev.init answers).2.2 = true) : (VulkanDev.init answers).1.Ready phys.memoryTypes := by
  obtain ⟨d, -, -, -, -, init⟩ := init_opens opens
  rw [init] at opened ⊢
  rw [VulkanDev.chooseTypes] at opened ⊢
  split at opened
  · cases opened
  · rename_i whole
    rw [if_neg whole]
    constructor
    · rfl
    · rcases fastType_cases few with ⟨missing, -⟩ | ⟨-, fast, found, own, -⟩
      · exact absurd (Or.inl missing) whole
      · exact ⟨fast, found, own⟩
    · rcases slowType_cases few with ⟨missing, -⟩ | ⟨-, slow, found, usable, -⟩
      · exact absurd (Or.inr missing) whole
      · exact ⟨slow, found, usable⟩

/-- **Memory types.** Once the device is there it can be used exactly when it has memory of its own
and memory of the host that is visible and coherent. Then the fast pool lies in memory of the
device, and in memory that the host does not see if there is any; the slow pool lies in visible
coherent memory, and outside the device if there is any.

Proof: both searches go through the types once, and prefer a later one only when it is better. They
give none exactly when none suits. -/
theorem device_types (answers : DeviceAnswers) (phys : PhysicalDevice) (inst dev pool : Nat)
    (opens : Opens answers phys inst dev pool) (few : phys.memoryTypes.length ≤ 32) :
    ((VulkanDev.init answers).2.2 = true ↔ (∃ type ∈ phys.memoryTypes, type.deviceLocal = true) ∧
      ∃ type ∈ phys.memoryTypes, (type.hostVisible && type.hostCoherent) = true) ∧
      ((VulkanDev.init answers).2.2 = true → ∃ fast slow,
        phys.memoryTypes[(VulkanDev.init answers).1.fastType]? = some fast ∧ fast.deviceLocal = true ∧
        (VulkanDev.init answers).1.fastMappable = fast.hostVisible ∧
        (fast.hostVisible = true → ∀ type ∈ phys.memoryTypes, type.deviceLocal = true → type.hostVisible = true) ∧
        phys.memoryTypes[(VulkanDev.init answers).1.slowType]? = some slow ∧
        (slow.hostVisible && slow.hostCoherent) = true ∧
        (slow.deviceLocal = true → ∀ type ∈ phys.memoryTypes,
          (type.hostVisible && type.hostCoherent) = true → type.deviceLocal = true)) := by
  obtain ⟨d, -, -, -, -, init⟩ := init_opens opens
  rw [init]
  have fasts := fastType_cases few
  have slows := slowType_cases few
  rcases fasts with ⟨missing, noneSuits⟩ | ⟨fastThere, fast, fastFound, fastLocal, fastBest⟩
  · rw [VulkanDev.chooseTypes, if_pos (Or.inl missing)]
    refine ⟨iff_of_false Bool.false_ne_true ?_, fun ready => by cases ready⟩
    rintro ⟨⟨type, member, own⟩, -⟩
    rw [noneSuits type member] at own
    cases own
  · rcases slows with ⟨missing, noneSuits⟩ | ⟨slowThere, slow, slowFound, slowUsable, slowBest⟩
    · rw [VulkanDev.chooseTypes, if_pos (Or.inr missing)]
      refine ⟨iff_of_false Bool.false_ne_true ?_, fun ready => by cases ready⟩
      rintro ⟨-, type, member, usable⟩
      rw [noneSuits type member] at usable
      cases usable
    · rw [VulkanDev.chooseTypes, if_neg (not_or.mpr ⟨fastThere, slowThere⟩)]
      constructor
      · exact iff_of_true rfl ⟨⟨fast, List.mem_of_getElem? fastFound, fastLocal⟩,
          slow, List.mem_of_getElem? slowFound, slowUsable⟩
      · intro _
        refine ⟨fast, slow, fastFound, fastLocal, ?_, fastBest, slowFound, slowUsable, slowBest⟩
        rw [List.getD_eq_getElem?_getD, fastFound, Option.getD_some]

/-- A device with a mapped type of its own and one of the host. -/
def mappedPhys : PhysicalDevice :=
  { handle := 2
    memoryTypes := [{ hostVisible := true, hostCoherent := true }, { deviceLocal := true, hostVisible := true }] }

/-- A driver that makes everything. -/
def mappedAnswers : DeviceAnswers :=
  { inst := some 1
    devices := DeviceQuery.of [mappedPhys]
    dev := some 3
    cmdPool := some 4 }

/-- On the one device that can be mapped, both types are found. -/
theorem mappedAnswers_types : (VulkanDev.init mappedAnswers).2.2 = true := by
  obtain ⟨ready, -⟩ := device_types mappedAnswers mappedPhys 1 3 4 ⟨rfl, by decide, rfl, rfl⟩ (by decide)
  exact ready.mpr ⟨⟨_, List.mem_cons_of_mem _ List.mem_cons_self, rfl⟩, _, List.mem_cons_self, rfl⟩

/-! ## Ledgers -/

section ledgers
open Ledgers

/-- The driver has given everything, but the device lacks a memory type. -/
def LacksTypes (answers : DeviceAnswers) : Prop :=
  ∃ phys inst dev pool, Opens answers phys inst dev pool ∧
    (fastType phys.memoryTypes = kNoType ∨ slowType phys.memoryTypes = kNoType)

/-- Everything that opening and closing the device does. -/
def opensAndCloses (answers : DeviceAnswers) : List VkEvent :=
  (VulkanDev.init answers).2.1 ++ (VulkanDev.init answers).1.shutdown.2

/-- What is made and destroyed is settled. -/
theorem settles_once (object : VkObject) : Settles 0 [.create object, .destroy object] 0 :=
  (Settles.create 0 object).append (Settles.destroy 0 object)

/-- It may be used in between. -/
theorem settles_usedOnce (object : VkObject) : Settles 0 [.create object, .use object, .destroy object] 0 :=
  (Settles.createUse 0 object).append (Settles.destroy 0 object)

/-- How `vulkan_dev_init` may end, with the objects that are alive then: refused by the driver,
without a memory type, or ready. -/
inductive Opening (answers : DeviceAnswers) (d : VulkanDev) : Multiset VkObject → Prop where
  | refused (has : ¬ LacksTypes answers) (invalid : d.valid = false) (inst : d.inst = none) (dev : d.dev = none)
    (cmdPool : d.cmdPool = none) : Opening answers d 0
  | lacking {pool : Nat} (lacks : LacksTypes answers) (pooled : answers.cmdPool = some pool) (invalid : d.valid = false)
    (inst : d.inst = none) (dev : d.dev = none) (cmdPool : d.cmdPool = some pool) :
    Opening answers d {VkObject.commandPool pool}
  | ready {inst dev pool : Nat} (has : ¬ LacksTypes answers) (valid : d.valid = true) (made : d.inst = some inst)
    (created : d.dev = some dev) (cmdPool : d.cmdPool = some pool) :
    Opening answers d (VkObject.commandPool pool ::ₘ VkObject.device dev ::ₘ {VkObject.inst inst})

/-- The device that is opened is the only one that can lack a type. -/
theorem Opens.lacks_iff {answers : DeviceAnswers} {phys : PhysicalDevice} {inst dev pool : Nat}
    (opens : Opens answers phys inst dev pool) :
    LacksTypes answers ↔ fastType phys.memoryTypes = kNoType ∨ slowType phys.memoryTypes = kNoType := by
  constructor
  · rintro ⟨other, _, _, _, picked, missing⟩
    obtain rfl := Option.some.inj (opens.phys.symm.trans picked.phys)
    exact missing
  · exact fun missing => ⟨phys, inst, dev, pool, opens, missing⟩

/-- The driver gives everything, so it depends on the memory types whether the device is ready.
Without them the device and the instance are destroyed, but not the command pool. -/
theorem Opens.outcome {answers : DeviceAnswers} {phys : PhysicalDevice} {inst dev pool : Nat}
    (opens : Opens answers phys inst dev pool) :
    ∃ held, Settles 0 (VulkanDev.init answers).2.1 held ∧ Opening answers (VulkanDev.init answers).1 held := by
  obtain ⟨d, invalid, made, device, commands, init⟩ := init_opens opens
  have opened : Settles 0 [.create (VkObject.inst inst), .use (.inst inst)] {VkObject.inst inst} :=
    Settles.createUse 0 (VkObject.inst inst)
  have created := opened.append ((Settles.createUse {VkObject.inst inst} (VkObject.device dev)).append
    (Settles.create _ (VkObject.commandPool pool)))
  by_cases lacks : fastType phys.memoryTypes = kNoType ∨ slowType phys.memoryTypes = kNoType
  · have destroyed : Settles (VkObject.commandPool pool ::ₘ VkObject.device dev ::ₘ {VkObject.inst inst})
        ([.destroy (VkObject.device dev)] ++ [.destroy (.inst inst)]) {VkObject.commandPool pool} := by
      rw [Multiset.cons_swap]
      refine (Settles.destroy _ _).append ?_
      rw [← Multiset.cons_zero, ← Multiset.cons_zero, Multiset.cons_swap]
      exact Settles.destroy _ _
    rw [init, VulkanDev.chooseTypes, if_pos lacks]
    exact ⟨_, created.append destroyed, .lacking (opens.lacks_iff.mpr lacks) opens.pool invalid rfl rfl commands⟩
  · rw [init, VulkanDev.chooseTypes, if_neg lacks]
    exact ⟨_, created.append (Settles.nil _), .ready (mt opens.lacks_iff.mp lacks) rfl made device commands⟩

/-- Whatever the driver answers, one of the three ends is reached. -/
theorem init_outcome (answers : DeviceAnswers) :
    ∃ held, Settles 0 (VulkanDev.init answers).2.1 held ∧ Opening answers (VulkanDev.init answers).1 held := by
  cases made : answers.inst with
  | none =>
    have has : ¬ LacksTypes answers := by
      rintro ⟨_, _, _, _, opens, -⟩
      cases made.symm.trans opens.inst
    simp only [VulkanDev.init, made]
    exact ⟨0, Settles.nil 0, .refused has rfl rfl rfl rfl⟩
  | some inst =>
    cases picked : pickGpu answers.devices with
    | none =>
      have has : ¬ LacksTypes answers := by
        rintro ⟨_, _, _, _, opens, -⟩
        cases picked.symm.trans opens.phys
      simp only [VulkanDev.init, made, picked]
      exact ⟨0, settles_usedOnce _, .refused has rfl rfl rfl rfl⟩
    | some phys =>
      cases created : answers.dev with
      | none =>
        have has : ¬ LacksTypes answers := by
          rintro ⟨_, _, _, _, opens, -⟩
          cases created.symm.trans opens.dev
        simp only [VulkanDev.init, made, picked, created]
        exact ⟨0, settles_usedOnce _, .refused has rfl rfl rfl rfl⟩
      | some dev =>
        cases pooled : answers.cmdPool with
        | none =>
          have has : ¬ LacksTypes answers := by
            rintro ⟨_, _, _, _, opens, -⟩
            cases pooled.symm.trans opens.pool
          simp only [VulkanDev.init, made, picked, created, pooled]
          refine ⟨0, ?_, .refused has rfl rfl rfl rfl⟩
          exact (Settles.createUse _ _).append ((Settles.createUse _ _).append
            (Settles.releases [VkObject.device dev, .inst inst]))
        | some pool => exact (Opens.mk made picked created pooled).outcome

/-- **Opening and closing.** Whatever the driver answers, opening the device and closing it again
destroys what it has created, each object once; but when the device lacks a memory type, the command
pool is leaked. -/
theorem device_ledger (answers : DeviceAnswers) :
    (Settles 0 (opensAndCloses answers) 0 ↔ ¬ LacksTypes answers) ∧
      (LacksTypes answers → ∃ pool, answers.cmdPool = some pool ∧
        Settles 0 (opensAndCloses answers) {VkObject.commandPool pool}) := by
  obtain ⟨held, opened, outcome⟩ := init_outcome answers
  have settles {left : Multiset VkObject} (closed : Settles held (VulkanDev.init answers).1.shutdown.2 left) :
      Settles 0 (opensAndCloses answers) left := opened.append closed
  generalize (VulkanDev.init answers).1 = d at settles outcome
  cases outcome with
  | refused has _ inst dev cmdPool =>
    have closed : Settles 0 d.shutdown.2 0 := by
      rw [VulkanDev.shutdown, inst, dev]
      exact Settles.nil 0
    exact ⟨iff_of_true (settles closed) has, fun lacks => absurd lacks has⟩
  | lacking lacks pooled _ inst dev cmdPool =>
    have leaks : Settles 0 (opensAndCloses answers) {VkObject.commandPool _} := settles (by
      rw [VulkanDev.shutdown, inst, dev]
      exact Settles.nil _)
    refine ⟨iff_of_false (fun clean => ?_) (not_not_intro lacks), fun _ => ⟨_, pooled, leaks⟩⟩
    have same : (0 : Multiset VkObject) = {VkObject.commandPool _} := Option.some.inj (clean.symm.trans leaks)
    exact Multiset.singleton_ne_zero _ same.symm
  | @ready inst dev pool has _ made created cmdPool =>
    have closed : Settles (VkObject.commandPool pool ::ₘ VkObject.device dev ::ₘ {VkObject.inst inst})
        d.shutdown.2 0 := by
      rw [VulkanDev.shutdown, made, created, cmdPool]
      exact (Settles.use (by simp)).append (Settles.releases [VkObject.commandPool pool, .device dev, .inst inst])
    exact ⟨iff_of_true (settles closed) has, fun lacks => absurd lacks has⟩

end ledgers

end SeriesxEmu
