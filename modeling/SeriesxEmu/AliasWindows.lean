import SeriesxEmu.MemMap
import Mathlib.Data.List.Pairwise

/-!
# Alias windows

A window redirects the addresses it contains, and `resolve_alias` asks for the
window of a whole range at once. A range that a window contains only in part is
therefore not redirected at all, while its single bytes are, and a window whose
source lies in another window shows bytes that the source's own addresses do not
reach. Both cases are characterised here: bulk accesses agree with accesses byte
by byte exactly when no window is straddled, and windows mirror their sources in
every run that never lays a window over a source.
-/

namespace SeriesxEmu.MemMap

variable {mem : MemMap} {addr size : Nat}

/-- A page has at least one byte. -/
theorem pageSize_pos (mem : MemMap) : 0 < mem.pageSize := Nat.two_pow_pos _

/-- A range lies in memory if its end does; the 64-bit sum is not trusted. -/
theorem inRange_iff (positive : 0 < size) : inRange addr size = true ↔ addr + size ≤ kTotalSize := by
  simp only [inRange, Bool.and_eq_true, decide_eq_true_eq]
  omega

/-- The pages of a range are those that meet it. -/
theorem mem_pages {page : Nat} : page ∈ mem.pages addr size ↔
    addr < (page + 1) * mem.pageSize ∧ page * mem.pageSize < addr + size := by
  have paged := mem.pageSize_pos
  have first : addr / mem.pageSize ≤ page ↔ addr < (page + 1) * mem.pageSize := by
    rw [← Nat.lt_succ_iff, Nat.div_lt_iff_lt_mul paged]
  have last : page < (addr + size + mem.pageSize - 1) / mem.pageSize ↔ page * mem.pageSize < addr + size := by
    rw [Nat.lt_iff_add_one_le, Nat.le_div_iff_mul_le paged, Nat.succ_mul]
    omega
  simp only [pages, List.mem_range'_1, ← first, ← last]
  omega

/-- A nonempty range visits exactly the pages of its bytes. -/
theorem all_pages {usable : Nat → Bool} (positive : 0 < size) : (mem.pages addr size).all usable = true ↔
    ∀ offset, offset < size → usable ((addr + offset) / mem.pageSize) = true := by
  have paged := mem.pageSize_pos
  rw [List.all_eq_true]
  constructor
  · intro each offset inside
    refine each _ (mem_pages.mpr ⟨?_, ?_⟩)
    · have above := Nat.lt_div_mul_add (a := addr + offset) paged
      rw [Nat.succ_mul]
      omega
    · have below := Nat.div_mul_le_self (addr + offset) mem.pageSize
      omega
  · intro each page member
    obtain ⟨low, high⟩ := mem_pages.mp member
    -- the first byte of the range that lies on the page
    obtain ⟨offset, place⟩ : ∃ offset, addr + offset = max addr (page * mem.pageSize) :=
      ⟨max addr (page * mem.pageSize) - addr, by omega⟩
    have here : (addr + offset) / mem.pageSize = page := by
      rw [place, Nat.div_eq_iff paged]
      rw [Nat.succ_mul] at low
      omega
    rw [← here]
    exact each offset (by omega)

/-- A range may be used if it lies in memory before and after the alias is resolved, and each of its
bytes is on a page that may be. -/
theorem isUsable_iff {usable : Nat → Bool} : mem.isUsable usable addr size = true ↔ mem.reserved = true ∧
    0 < size ∧ addr + size ≤ kTotalSize ∧ mem.resolveAlias addr size + size ≤ kTotalSize ∧
    ∀ offset, offset < size → usable ((mem.resolveAlias addr size + offset) / mem.pageSize) = true := by
  simp only [isUsable, Bool.and_eq_true, bne_iff_ne, and_assoc]
  refine and_congr_right (fun _ => ?_)
  rw [← Nat.pos_iff_ne_zero]
  refine and_congr_right (fun positive => ?_)
  rw [inRange_iff positive, inRange_iff positive, all_pages positive]

/-- What can be written can be read. -/
theorem isReadable_of_isWritable (allowed : mem.isWritable addr size = true) : mem.isReadable addr size = true := by
  rw [isWritable, isUsable_iff] at allowed
  rw [isReadable, isUsable_iff]
  obtain ⟨reserved, positive, inside, backed, each⟩ := allowed
  refine ⟨reserved, positive, inside, backed, fun offset within => ?_⟩
  have usable := each offset within
  simp only [pageWritable, pageReadable, Bool.and_eq_true, beq_iff_eq, bne_iff_ne] at usable ⊢
  exact ⟨usable.1, by rw [usable.2]; decide⟩

/-- The same layout with other contents. -/
def withBytes (mem : MemMap) (contents : Nat → UInt8) : MemMap := { mem with bytes := contents }

/-- The contents that are put in are there. -/
@[simp] theorem withBytes_bytes (contents : Nat → UInt8) : (mem.withBytes contents).bytes = contents := rfl

/-- New contents leave the windows alone. -/
@[simp] theorem withBytes_aliases (contents : Nat → UInt8) : (mem.withBytes contents).aliases = mem.aliases := rfl

/-- So addresses lead where they did. -/
@[simp] theorem withBytes_resolveAlias (contents : Nat → UInt8) :
    (mem.withBytes contents).resolveAlias addr size = mem.resolveAlias addr size := rfl

/-- What could be read still can. -/
@[simp] theorem withBytes_isReadable (contents : Nat → UInt8) :
    (mem.withBytes contents).isReadable addr size = mem.isReadable addr size := rfl

/-- And what could be written, too. -/
@[simp] theorem withBytes_isWritable (contents : Nat → UInt8) :
    (mem.withBytes contents).isWritable addr size = mem.isWritable addr size := rfl

/-! ## The table of windows -/

/-- What `alias_map` has checked about a window. -/
structure Admitted (window : Alias) : Prop where
  nonempty : 0 < window.size
  target : window.dst + window.size ≤ kTotalSize
  source : window.src + window.size ≤ kTotalSize
  apart : window.dst + window.size ≤ window.src ∨ window.src + window.size ≤ window.dst

/-- Two windows have no address in common. -/
def Separate (left right : Alias) : Prop :=
  left.dst + left.size ≤ right.dst ∨ right.dst + right.size ≤ left.dst

/-- The tables that `alias_map` and `alias_unmap` build. -/
structure Table (aliases : List Alias) : Prop where
  admitted : ∀ window ∈ aliases, Admitted window
  separate : aliases.Pairwise Separate

/-- A window holds a range if the range lies inside it. -/
theorem holds_iff {window : Alias} (positive : 0 < size) : window.holds addr size = true ↔
    window.dst ≤ addr ∧ addr + size ≤ window.dst + window.size := by
  simp only [Alias.holds, Bool.and_eq_true, decide_eq_true_eq]
  omega

/-- A window meets a range if they share a byte. -/
theorem meets_iff {window : Alias} : window.meets addr size = true ↔
    addr < window.dst + window.size ∧ window.dst < addr + size := by
  simp only [Alias.meets, Bool.and_eq_true, decide_eq_true_eq]

/-- Two windows of a table that share an address are the same. -/
theorem Table.unique {aliases : List Alias} (table : Table aliases) {left right : Alias}
    (inLeft : left ∈ aliases) (inRight : right ∈ aliases) {address : Nat} (leftHas : left.holds address 1 = true)
    (rightHas : right.holds address 1 = true) : left = right := by
  by_contra different
  have symmetric : Std.Symm Separate := ⟨fun _ _ => Or.symm⟩
  have apart := table.separate.forall inLeft inRight different
  rw [holds_iff (by decide)] at leftHas rightHas
  unfold Separate at apart
  omega

/-- A window that contains a range redirects it. -/
theorem Table.resolve_inside (table : Table mem.aliases) {window : Alias} (member : window ∈ mem.aliases)
    (positive : 0 < size) (inside : window.holds addr size = true) :
    mem.resolveAlias addr size = window.src + (addr - window.dst) := by
  rw [resolveAlias]
  cases found : mem.aliases.find? (fun window => window.holds addr size) with
  | none =>
    have missing := List.find?_eq_none.mp found window member
    exact absurd inside missing
  | some other =>
    have otherInside : other.holds addr size = true := by simpa using List.find?_some found
    have first : ∀ candidate : Alias, candidate.holds addr size = true → candidate.holds addr 1 = true := by
      intro candidate whole
      rw [holds_iff positive] at whole
      rw [holds_iff (by decide)]
      omega
    have same := table.unique (List.mem_of_find?_eq_some found) member (first other otherInside)
      (first window inside)
    rw [same]

/-- A range that no window holds is where it says. -/
theorem resolve_outside (outside : ∀ window ∈ mem.aliases, window.holds addr size = false) :
    mem.resolveAlias addr size = addr := by
  have missing : mem.aliases.find? (fun window => window.holds addr size) = none := by
    rw [List.find?_eq_none]
    intro window member
    simp [outside window member]
  rw [resolveAlias, missing]

/-- An address in a window is not backed by itself. -/
theorem Table.redirected (table : Table mem.aliases) {window : Alias} (member : window ∈ mem.aliases)
    (inside : window.holds addr 1 = true) : mem.resolveAlias addr 1 ≠ addr := by
  rw [table.resolve_inside member (by decide) inside]
  rw [holds_iff (by decide)] at inside
  have apart := (table.admitted window member).apart
  omega

/-- A window is only mapped where there is none. -/
theorem Table.aliasMap (table : Table mem.aliases) (dst src : Nat) :
    Table (mem.aliasMap dst src size).1.aliases := by
  rw [MemMap.aliasMap]
  split
  · exact table
  · rename_i checked
    split
    · exact table
    · rename_i apart
      split
      · exact table
      · rename_i clear
        simp only [Bool.or_eq_true, beq_iff_eq, Bool.not_eq_true', not_or, Bool.not_eq_false] at checked
        obtain ⟨⟨nonempty, target⟩, source⟩ := checked
        have positive : 0 < size := Nat.pos_of_ne_zero nonempty
        rw [inRange_iff positive] at target source
        simp only [Bool.and_eq_true, decide_eq_true_eq, not_and, Nat.not_lt] at apart
        simp only [Bool.not_eq_true, List.any_eq_false, meets_iff, not_and, Nat.not_lt] at clear
        refine ⟨fun window member => ?_, List.pairwise_append.mpr ⟨table.separate, List.pairwise_singleton _ _, ?_⟩⟩
        · rcases List.mem_append.mp member with old | new
          · exact table.admitted window old
          · rw [List.mem_singleton.mp new]
            exact ⟨positive, target, source, by simp only; omega⟩
        · intro window old other new
          have free := clear window old
          rw [List.mem_singleton.mp new, Separate]
          simp only
          omega

/-- Unmapping a window leaves the others apart. -/
theorem Table.aliasUnmap (table : Table mem.aliases) (dst : Nat) : Table (mem.aliasUnmap dst).1.aliases := by
  have part : (mem.aliasUnmap dst).1.aliases.Sublist mem.aliases := List.eraseP_sublist
  exact ⟨fun window member => table.admitted window (part.subset member), table.separate.sublist part⟩

/-- No operation but the two on aliases changes the table, `reserve` apart, which clears it. -/
theorem Table.exec (table : Table mem.aliases) (op : Op) : Table (mem.exec op).1.aliases := by
  cases op with
  | reserve =>
    rw [MemMap.exec, MemMap.reserve]
    split
    · exact table
    · exact ⟨by simp, List.Pairwise.nil⟩
  | commitPage addr =>
    rw [MemMap.exec, MemMap.commitPage]
    split <;> exact table
  | commitRange addr size =>
    rw [MemMap.exec, MemMap.commitRange]
    split <;> exact table
  | protect addr size prot =>
    rw [MemMap.exec, MemMap.protect]
    split <;> exact table
  | writeBytes addr source =>
    rw [MemMap.exec, MemMap.writeBytes]
    split <;> exact table
  | aliasMap dst src size => exact table.aliasMap dst src
  | aliasUnmap dst => exact table.aliasUnmap dst

/-- At first there is none. -/
theorem Table.empty : Table [] := ⟨by simp, List.Pairwise.nil⟩

/-- So in every run the windows stay apart. -/
theorem table_of_run {pageBits : Nat} {ops : List Op} {mem : MemMap}
    (reached : Runs.run step { pageBits } ops = some mem) : Table mem.aliases := by
  have preserved : ∀ state op next, Table state.aliases → step state op = some next → Table next.aliases := by
    intro state op next table stepped
    rw [← Option.some.inj stepped]
    exact table.exec op
  exact Runs.run_preserves preserved _ _ _ Table.empty reached

/-! ## Ranges and their bytes -/

/-- The window contains some addresses of the range but not all. -/
def Straddles (window : Alias) (addr size : Nat) : Prop :=
  window.meets addr size = true ∧ window.holds addr size = false

instance (window : Alias) (addr size : Nat) : Decidable (Straddles window addr size) :=
  inferInstanceAs (Decidable (_ ∧ _))

/-- The addresses of the range are backed by different bytes. -/
def DistinctBacking (mem : MemMap) (addr size : Nat) : Prop :=
  ∀ left right, left < size → right < size →
    mem.resolveAlias (addr + left) 1 = mem.resolveAlias (addr + right) 1 → left = right

/-- A bulk access does what accesses to the single bytes of its range do. -/
structure Agrees (mem : MemMap) (addr size : Nat) : Prop where
  read : ∀ bytes, mem.readBytes addr size = some bytes → bytes.length = size ∧
    ∀ offset, offset < size → mem.readBytes (addr + offset) 1 = some [bytes.getD offset 0]
  write : ∀ source : List UInt8, source.length = size → (mem.writeBytes addr source).2 = true →
    mem.DistinctBacking addr size → ∀ offset, offset < size →
      (mem.writeBytes addr source).1.readBytes (addr + offset) 1 = some [source.getD offset 0]

/-- The bytes of a range that straddles no window are backed one after the other. -/
theorem Table.resolve_byte (table : Table mem.aliases) (clear : ∀ window ∈ mem.aliases, ¬ Straddles window addr size)
    {offset : Nat} (inside : offset < size) :
    mem.resolveAlias (addr + offset) 1 = mem.resolveAlias addr size + offset := by
  have positive : 0 < size := by omega
  by_cases covered : ∃ window ∈ mem.aliases, window.holds addr size = true
  · obtain ⟨window, member, whole⟩ := covered
    have bounds := (holds_iff positive).mp whole
    have byte : window.holds (addr + offset) 1 = true := by
      rw [holds_iff (by decide)]
      omega
    rw [table.resolve_inside member positive whole, table.resolve_inside member (by decide) byte]
    omega
  · have none_holds : ∀ window ∈ mem.aliases, window.holds addr size = false := by
      intro window member
      exact Bool.eq_false_iff.mpr (fun whole => covered ⟨window, member, whole⟩)
    rw [resolve_outside none_holds]
    refine resolve_outside (fun window member => Bool.eq_false_iff.mpr (fun byte => ?_))
    rw [holds_iff (by decide)] at byte
    refine clear window member ⟨?_, none_holds window member⟩
    rw [meets_iff]
    omega

/-- A range that straddles a window is not redirected. -/
theorem Table.resolve_straddling (table : Table mem.aliases) {window : Alias} (member : window ∈ mem.aliases)
    (straddled : Straddles window addr size) (positive : 0 < size) : mem.resolveAlias addr size = addr := by
  refine resolve_outside (fun other inTable => Bool.eq_false_iff.mpr (fun whole => ?_))
  obtain ⟨met, part⟩ := straddled
  rw [meets_iff] at met
  have bounds := (holds_iff positive).mp whole
  have shared : window.holds (max addr window.dst) 1 = true := by
    have nonempty := (table.admitted window member).nonempty
    rw [holds_iff (by decide)]
    omega
  have otherShared : other.holds (max addr window.dst) 1 = true := by
    rw [holds_iff (by decide)]
    omega
  have same := table.unique inTable member otherShared shared
  rw [same, part] at whole
  cases whole

/-- A part of a usable range is usable, as long as it is backed by the same bytes. -/
theorem isUsable_byte {usable : Nat → Bool} (whole : mem.isUsable usable addr size = true) {offset : Nat}
    (inside : offset < size) (backed : mem.resolveAlias (addr + offset) 1 = mem.resolveAlias addr size + offset) :
    mem.isUsable usable (addr + offset) 1 = true := by
  obtain ⟨reserved, positive, bound, backing, each⟩ := isUsable_iff.mp whole
  refine isUsable_iff.mpr ⟨reserved, by decide, by omega, by omega, fun first within => ?_⟩
  have zero : first = 0 := by omega
  rw [backed, zero, Nat.add_zero]
  exact each offset inside

/-- One byte is read where its address leads. -/
theorem readBytes_one (readable : mem.isReadable addr 1 = true) :
    mem.readBytes addr 1 = some [mem.bytes (mem.resolveAlias addr 1)] := by
  simp [readBytes, readable]

/-- What a read returns, byte by byte. -/
theorem readBytes_some {bytes : List UInt8} (read : mem.readBytes addr size = some bytes) :
    mem.isReadable addr size = true ∧ bytes.length = size ∧
      ∀ offset, offset < size → bytes.getD offset 0 = mem.bytes (mem.resolveAlias addr size + offset) := by
  rw [readBytes] at read
  split at read
  · rename_i readable
    have same := (Option.some.inj read).symm
    refine ⟨readable, by simp [same], fun offset inside => ?_⟩
    simp [same, inside]
  · cases read

/-- A range that can be read is. -/
theorem readBytes_of_readable (readable : mem.isReadable addr size = true) :
    ∃ bytes, mem.readBytes addr size = some bytes := by
  rw [readBytes, if_pos readable]
  exact ⟨_, rfl⟩

/-- A write that is accepted stores its bytes where the address leads. -/
theorem writeBytes_ok {source : List UInt8} (wrote : (mem.writeBytes addr source).2 = true) :
    mem.isWritable addr source.length = true ∧ (mem.writeBytes addr source).1 =
      mem.withBytes (store mem.bytes (mem.resolveAlias addr source.length) source) := by
  rw [writeBytes] at wrote ⊢
  split
  · rename_i writable
    exact ⟨writable, rfl⟩
  · rename_i closed
    rw [if_neg closed] at wrote
    cases wrote

/-- The bytes that are stored are there. -/
theorem store_inside {bytes : Nat → UInt8} {source : List UInt8} {offset : Nat} (inside : offset < source.length) :
    store bytes addr source (addr + offset) = source.getD offset 0 := by
  rw [store, if_pos (by omega), Nat.add_sub_cancel_left]

/-- All others are what they were. -/
theorem store_outside {bytes : Nat → UInt8} {source : List UInt8} {address : Nat}
    (outside : address < addr ∨ addr + source.length ≤ address) : store bytes addr source address = bytes address := by
  rw [store, if_neg (by omega)]

/-- A range that no window splits is one block: its bytes follow each other in memory, too. -/
theorem Table.agrees (table : Table mem.aliases)
    (clear : mem.isReadable addr size = true → ∀ window ∈ mem.aliases, ¬ Straddles window addr size) :
    mem.Agrees addr size := by
  constructor
  · intro bytes read
    obtain ⟨readable, length, each⟩ := readBytes_some read
    refine ⟨length, fun offset inside => ?_⟩
    have backed := table.resolve_byte (clear readable) inside
    rw [readBytes_one (isUsable_byte readable inside backed), backed, each offset inside]
  · intro source length wrote _ offset inside
    obtain ⟨writable, result⟩ := writeBytes_ok wrote
    rw [length] at writable result
    have backed := table.resolve_byte (clear (isReadable_of_isWritable writable)) inside
    have readable : mem.isReadable (addr + offset) 1 = true :=
      isReadable_of_isWritable (isUsable_byte writable inside backed)
    rw [result, readBytes_one (by simpa using readable), withBytes_resolveAlias, withBytes_bytes, backed,
      store_inside (by omega)]

/-- Memory with a mark at one address. -/
def markedAt (address : Nat) : Nat → UInt8 := fun other => if other = address then 1 else 0

/-- A straddled window gives a byte that is read from one place alone and from another
as part of the range. -/
theorem Table.disagrees (table : Table mem.aliases) (readable : mem.isReadable addr size = true) {window : Alias}
    (member : window ∈ mem.aliases) (straddled : Straddles window addr size) :
    ∃ contents, ¬ (mem.withBytes contents).Agrees addr size := by
  have positive : 0 < size := (isUsable_iff.mp readable).2.1
  have whole := table.resolve_straddling member straddled positive
  obtain ⟨met, _⟩ := straddled
  rw [meets_iff] at met
  obtain ⟨offset, place⟩ : ∃ offset, addr + offset = max addr window.dst := ⟨max addr window.dst - addr, by omega⟩
  have byte : window.holds (addr + offset) 1 = true := by
    have nonempty := (table.admitted window member).nonempty
    rw [holds_iff (by decide)]
    omega
  have elsewhere := table.redirected member byte
  have inside : offset < size := by omega
  refine ⟨markedAt (addr + offset), fun agrees => ?_⟩
  obtain ⟨bytes, read⟩ : ∃ bytes, (mem.withBytes (markedAt (addr + offset))).readBytes addr size = some bytes :=
    readBytes_of_readable readable
  have together := (readBytes_some read).2.2 offset inside
  have alone := (readBytes_some ((agrees.read bytes read).2 offset inside)).2.2 0 (by decide)
  rw [withBytes_resolveAlias, withBytes_bytes, whole, markedAt, if_pos rfl] at together
  rw [withBytes_resolveAlias, withBytes_bytes, Nat.add_zero, markedAt, if_neg elsewhere, List.getD_cons_zero,
    together] at alone
  exact absurd alone (by decide)

/-- **Bulk and byte-wise access.** In every map that operations have built, a range is
accessed as its single bytes are, whatever the memory contains, exactly when it is
unreadable or straddles no alias window.

Proof: a window redirects a range only as a whole. The bytes of a straddled range that lie in
the window are redirected and the range is not, and some contents tell them apart. -/
theorem bulk_agrees_iff (pageBits : Nat) (ops : List Op) (addr size : Nat) (mem : MemMap)
    (reached : Runs.run step { pageBits } ops = some mem) :
    (∀ contents, (mem.withBytes contents).Agrees addr size) ↔
      (mem.isReadable addr size = true → ∀ window ∈ mem.aliases, ¬ Straddles window addr size) := by
  have table := table_of_run reached
  constructor
  · intro agrees readable window member straddled
    obtain ⟨contents, disagree⟩ := table.disagrees readable member straddled
    exact disagree (agrees contents)
  · intro clear contents
    exact Table.agrees table clear

/-- A window over a page that has a byte of its own. -/
def coveredPage : List Op :=
  [.reserve, .commitRange 0x1000 0x3000, .writeBytes 0x3000 [7], .aliasMap 0x3000 0x1000 0x1000]

/-- Two bytes across the edge of the window: the second one comes from the covered page
when both are read together, and from the source when it is read alone. -/
theorem coveredPage_disagrees :
    ¬ ∀ mem, Runs.run step {} coveredPage = some mem → mem.Agrees 0x2FFF 2 := by
  intro every
  have agrees := every _ rfl
  have alone := (agrees.read [0, 7] (by decide +kernel)).2 1 (by decide)
  exact absurd alone (by decide +kernel)

/-- Inside the window, and in front of it, everything agrees. -/
theorem coveredPage_agrees : ∃ mem, Runs.run step {} coveredPage = some mem ∧
    (∀ contents, (mem.withBytes contents).Agrees 0x3000 0x1000) ∧
      ∀ contents, (mem.withBytes contents).Agrees 0x2000 0x1000 := by
  refine ⟨_, rfl, ?_, ?_⟩
  · exact (bulk_agrees_iff 12 coveredPage 0x3000 0x1000 _ rfl).mpr (fun _ => by decide +kernel)
  · exact (bulk_agrees_iff 12 coveredPage 0x2000 0x1000 _ rfl).mpr (fun _ => by decide +kernel)

/-! ## Windows as mirrors -/

/-- Every window shows its source, at the same host address, and a byte written through
either address is read through the other. -/
structure Mirrors (mem : MemMap) : Prop where
  translate : ∀ window ∈ mem.aliases, ∀ offset, offset < window.size →
    mem.translate (window.dst + offset) = mem.translate (window.src + offset)
  read : ∀ window ∈ mem.aliases, ∀ offset, offset < window.size →
    mem.readBytes (window.dst + offset) 1 = mem.readBytes (window.src + offset) 1
  throughWindow : ∀ window ∈ mem.aliases, ∀ offset, offset < window.size → ∀ byte,
    (mem.writeBytes (window.dst + offset) [byte]).2 = true →
      (mem.writeBytes (window.dst + offset) [byte]).1.readBytes (window.src + offset) 1 = some [byte]
  throughSource : ∀ window ∈ mem.aliases, ∀ offset, offset < window.size → ∀ byte,
    (mem.writeBytes (window.src + offset) [byte]).2 = true →
      (mem.writeBytes (window.src + offset) [byte]).1.readBytes (window.dst + offset) 1 = some [byte]

/-- A window that is accepted has its source outside all windows and covers no source. -/
def Unchained (mem : MemMap) : Op → Prop
  | .aliasMap dst src size => (mem.aliasMap dst src size).2 = true → ∀ window ∈ mem.aliases,
      window.meets src size = false ∧ Alias.meets ⟨dst, src, size⟩ window.src window.size = false
  | _ => True

instance (mem : MemMap) : (op : Op) → Decidable (mem.Unchained op)
  | .aliasMap _ _ _ => inferInstanceAs (Decidable (_ → _))
  | .reserve | .commitPage _ | .commitRange _ _ | .protect _ _ _ | .writeBytes _ _ | .aliasUnmap _ =>
    inferInstanceAs (Decidable True)

/-- No window covers a source. -/
def Flat (aliases : List Alias) : Prop :=
  ∀ window ∈ aliases, ∀ other ∈ aliases, window.meets other.src other.size = false

/-- A window that is not mapped upon another keeps the windows flat. -/
theorem Flat.aliasMap (flat : Flat mem.aliases) {dst src : Nat} (unchained : mem.Unchained (.aliasMap dst src size)) :
    Flat (mem.aliasMap dst src size).1.aliases := by
  rw [Unchained] at unchained
  rw [MemMap.aliasMap] at unchained ⊢
  split
  · exact flat
  · rename_i checked
    split
    · exact flat
    · rename_i apart
      split
      · exact flat
      · rename_i clear
        rw [if_neg checked, if_neg apart, if_neg clear] at unchained
        have own : Alias.meets ⟨dst, src, size⟩ src size = false := by
          rw [Bool.eq_false_iff, Ne, meets_iff]
          simp only [Bool.and_eq_true, decide_eq_true_eq] at apart
          simp only
          omega
        intro window member other otherMember
        simp only [List.mem_append, List.mem_singleton] at member otherMember
        rcases member with old | rfl <;> rcases otherMember with otherOld | rfl
        · exact flat window old other otherOld
        · exact (unchained rfl window old).1
        · exact (unchained rfl other otherOld).2
        · exact own

/-- Only accepting a window can lay it over a source. -/
theorem Flat.exec (flat : Flat mem.aliases) (op : Op) (unchained : mem.Unchained op) :
    Flat (mem.exec op).1.aliases := by
  cases op with
  | reserve =>
    rw [MemMap.exec, MemMap.reserve]
    split
    · exact flat
    · intro window member
      cases member
  | commitPage addr =>
    rw [MemMap.exec, MemMap.commitPage]
    split <;> exact flat
  | commitRange addr size =>
    rw [MemMap.exec, MemMap.commitRange]
    split <;> exact flat
  | protect addr size prot =>
    rw [MemMap.exec, MemMap.protect]
    split <;> exact flat
  | writeBytes addr source =>
    rw [MemMap.exec, MemMap.writeBytes]
    split <;> exact flat
  | aliasMap dst src size => exact flat.aliasMap unchained
  | aliasUnmap dst =>
    have part : (mem.aliasUnmap dst).1.aliases.Sublist mem.aliases := List.eraseP_sublist
    exact fun window member other otherMember =>
      flat window (part.subset member) other (part.subset otherMember)

/-- Two addresses of the memory with the same backing byte. -/
structure Twins (mem : MemMap) (left right : Nat) : Prop where
  leftInside : left < kTotalSize
  rightInside : right < kTotalSize
  backing : mem.resolveAlias left 1 = mem.resolveAlias right 1

/-- Two addresses that lead to one place can be used alike. -/
theorem Twins.isUsable {left right : Nat} (twins : mem.Twins left right) (usable : Nat → Bool) :
    mem.isUsable usable left 1 = mem.isUsable usable right 1 := by
  have leftInside := twins.leftInside
  have rightInside := twins.rightInside
  rw [Bool.eq_iff_iff, isUsable_iff, isUsable_iff, twins.backing]
  refine and_congr_right (fun _ => and_congr_right (fun _ => ?_))
  rw [iff_true_intro (show left + 1 ≤ kTotalSize by omega), iff_true_intro (show right + 1 ≤ kTotalSize by omega)]

/-- They read alike. -/
theorem Twins.readBytes {left right : Nat} (twins : mem.Twins left right) :
    mem.readBytes left 1 = mem.readBytes right 1 := by
  rw [MemMap.readBytes, MemMap.readBytes, twins.backing, isReadable, isReadable, twins.isUsable]

/-- They are translated alike. -/
theorem Twins.translate {left right : Nat} (twins : mem.Twins left right) :
    mem.translate left = mem.translate right := by
  rw [MemMap.translate, MemMap.translate, twins.backing, isReadable, isReadable, twins.isUsable]

/-- What is written through the one is read through the other. -/
theorem Twins.visible {left right : Nat} (twins : mem.Twins left right) (byte : UInt8)
    (wrote : (mem.writeBytes left [byte]).2 = true) :
    (mem.writeBytes left [byte]).1.readBytes right 1 = some [byte] := by
  obtain ⟨writable, result⟩ := writeBytes_ok wrote
  have readable : mem.isReadable right 1 = true := by
    rw [isReadable, ← twins.isUsable]
    exact isReadable_of_isWritable writable
  have stored : store mem.bytes (mem.resolveAlias left 1) [byte] (mem.resolveAlias left 1 + 0) = byte :=
    store_inside Nat.zero_lt_one
  rw [result, readBytes_one (by simpa using readable), withBytes_resolveAlias, withBytes_bytes, ← twins.backing]
  simpa using stored

/-- An address in a flat window and the one it stands for are such. -/
theorem Flat.twins (flat : Flat mem.aliases) (table : Table mem.aliases) {window : Alias}
    (member : window ∈ mem.aliases) {offset : Nat} (inside : offset < window.size) :
    mem.Twins (window.dst + offset) (window.src + offset) := by
  have admitted := table.admitted window member
  have target := admitted.target
  have source := admitted.source
  have redirected : mem.resolveAlias (window.dst + offset) 1 = window.src + offset := by
    rw [table.resolve_inside member (by decide) ((holds_iff (by decide)).mpr (by omega)), Nat.add_sub_cancel_left]
  have direct : mem.resolveAlias (window.src + offset) 1 = window.src + offset := by
    refine resolve_outside (fun other otherMember => Bool.eq_false_iff.mpr (fun held => ?_))
    have clear := flat other otherMember window member
    rw [holds_iff (by decide)] at held
    rw [Bool.eq_false_iff, Ne, meets_iff] at clear
    omega
  exact ⟨by omega, by omega, redirected.trans direct.symm⟩

/-- So flat windows are mirrors. -/
theorem Flat.mirrors (flat : Flat mem.aliases) (table : Table mem.aliases) : mem.Mirrors := by
  constructor
  · intro window member offset inside
    exact (flat.twins table member inside).translate
  · intro window member offset inside
    exact (flat.twins table member inside).readBytes
  · intro window member offset inside byte
    exact (flat.twins table member inside).visible byte
  · intro window member offset inside byte
    have twins := flat.twins table member inside
    exact Twins.visible ⟨twins.rightInside, twins.leftInside, twins.backing.symm⟩ byte

/-- **Aliases mirror their source** in every state of every run in which no accepted
window takes its source from a window or covers the source of one.

Proof: as long as no window covers a source and none is taken from a window, every window stands for
its own source, and a store to one is seen through the other. -/
theorem aliases_mirror (pageBits : Nat) (ops : List Op)
    (unchained : Runs.Along step Unchained { pageBits } ops) : Runs.Visits step Mirrors { pageBits } ops := by
  have preserved : ∀ state op next, Table state.aliases ∧ Flat state.aliases → Unchained state op →
      step state op = some next → Table next.aliases ∧ Flat next.aliases := by
    rintro state op next ⟨table, flat⟩ allowed stepped
    rw [← Option.some.inj stepped]
    exact ⟨table.exec op, flat.exec op allowed⟩
  have initial : Table [] ∧ Flat [] := ⟨Table.empty, fun window member => by cases member⟩
  have kept := Runs.visits_of_along preserved { pageBits } ops initial unchained
  exact Runs.visits_mono (fun state holds => holds.2.mirrors holds.1) _ _ kept

/-- A window whose source lies in an earlier window. -/
def chainedWindows : List Op :=
  [.reserve, .commitRange 0x1000 0x2000, .writeBytes 0x2000 [7], .aliasMap 0x2000 0x1000 0x1000,
    .aliasMap 0x3000 0x2000 0x1000]

/-- The second window shows the covered page, its source shows the page behind the first. -/
theorem chainedWindows_differ : ¬ Runs.Visits step Mirrors {} chainedWindows := by
  intro visits
  have last := (((((visits.2 _ rfl).2 _ rfl).2 _ rfl).2 _ rfl).2 _ rfl)
  have same := last.read ⟨0x3000, 0x2000, 0x1000⟩ (by decide +kernel) 0 (by decide)
  exact absurd same (by decide +kernel)

/-- Two windows on one page, with a write through the first and the removal of the second. -/
def twoViews : List Op :=
  [.reserve, .commitRange 0x1000 0x1000, .aliasMap 0x2000 0x1000 0x1000, .aliasMap 0x3000 0x1000 0x1000,
    .writeBytes 0x2004 [1, 2], .aliasUnmap 0x3000]

/-- Two windows upon the same memory are mirrors in every state of a run. -/
theorem twoViews_mirror : Runs.Along step Unchained {} twoViews ∧ Runs.Visits step Mirrors {} twoViews := by
  have unchained : Runs.Along step Unchained {} twoViews := by decide +kernel
  exact ⟨unchained, aliases_mirror 12 twoViews unchained⟩

end SeriesxEmu.MemMap
