import Solaya.Memory.PageTableProgress
import Solaya.Syscalls.MmOps

/-!
# The memory-management calls within their contract

`do_mmap`, `do_mprotect` and `munmap` hand user values to `map`, `mprotect`
and `unmap_userspace`, which assert alignment, a free range and mapped pages.
`MmInvariant` is what a process keeps between its page table, its regions and
its cursor: `already_mapped` agrees with the tables, every listed range lies
below the cursor or in the upper half, the lower half is clear from the cursor
on, and every region of `mmap_allocations` is a listed range.  Each call
within the contract below keeps it and returns (`serve_of_mmInvariant`), and a
region `mmap` returns is mapped once.

The contract leaves out what panics: a hint that `mmap` takes as it is
(unaligned; or above the cursor, where a later `mmap` collides with it; or on
a second-level table that a `munmap` left behind, where a 2 MiB page finds a
valid entry), `mprotect` of an unmapped page (`doMprotect_eq_none`), and
`MAP_FIXED` over a range that is only partly mapped.
-/

namespace Solaya

open RootPageTableHolder

namespace Process

/-- What a process keeps between its page table, its regions and its cursor. -/
structure MmInvariant (process : Process) : Prop where
  consistent : process.pageTable.Consistent
  cursor_aligned : process.freeMmapAddress % pageSize = 0
  cursor_start : freeMmapStartAddress ≤ process.freeMmapAddress
  cursor_le : process.freeMmapAddress ≤ 2 ^ 38
  below_cursor : ∀ r ∈ process.pageTable.alreadyMapped.map (·.virtualRange),
    r.2 < process.freeMmapAddress ∨ 2 ^ 64 - 2 ^ 38 ≤ r.1
  free : FreeIn process.pageTable.rootTable process.freeMmapAddress (2 ^ 38)
  allocations : ∀ addr pages, process.mmapAllocations addr = some pages →
    (addr, addr + pages.size - 1) ∈ process.pageTable.alreadyMapped.map (·.virtualRange)

/-- A process before its first `mmap`, with nothing mapped. -/
def fresh : Process :=
  ⟨RootPageTableHolder.empty, fun _ => none, freeMmapStartAddress⟩

theorem mmInvariant_fresh : fresh.MmInvariant where
  consistent := consistent_empty
  cursor_aligned := rfl
  cursor_start := le_rfl
  cursor_le := by decide
  below_cursor := by simp [fresh, empty]
  free := freeIn_empty _ _
  allocations := by simp [fresh]

/-- `va` lies in exactly one entry of `already_mapped`, and the tables map it
by a leaf. -/
def MappedOnce (process : Process) (va : ℕ) : Prop :=
  (process.pageTable.alreadyMapped.filter (·.contains (va, va))).length = 1 ∧
    ∃ leaf, resolve process.pageTable.rootTable va = some leaf ∧ leaf.1.isLeaf = true

variable {process : Process}

/-- Every address of `[start, start + length)` is mapped once. -/
def MapsOnce (process : Process) (start length : ℕ) : Prop :=
  ∀ va, start ≤ va → va < start + length → process.MappedOnce va

/-- Under the invariant, a canonical address in a listed range is mapped once. -/
theorem MmInvariant.mappedOnce_of_inRanges (h : process.MmInvariant) {va : ℕ}
    (hva : IsCanonical va) (hin : InRanges (process.pageTable.alreadyMapped.map (·.virtualRange)) va) :
    process.MappedOnce va := by
  obtain ⟨leaf, hleaf⟩ := Option.isSome_iff_exists.mp ((h.consistent.covered va hva).mp hin)
  exact ⟨h.consistent.length_filter_contains hin, leaf, hleaf,
    h.consistent.leavesOnly va hva leaf hleaf⟩

/-- Under the invariant, a canonical address that the tables map is mapped
once. -/
theorem MmInvariant.mappedOnce (h : process.MmInvariant) {va : ℕ} (hva : IsCanonical va)
    (hmapped : (resolve process.pageTable.rootTable va).isSome) : process.MappedOnce va :=
  h.mappedOnce_of_inRanges hva ((h.consistent.covered va hva).mpr hmapped)

/-- `mprotect` to a permission keeps the invariant. -/
theorem MmInvariant.mprotect (h : process.MmInvariant) {addr size : ℕ} {mode : XWRMode}
    {pageTable : RootPageTableHolder} (hmode : mode ≠ .pointerToNextLevel)
    (hserve : process.pageTable.mprotect addr size mode = some pageTable) :
    ({ process with pageTable } : Process).MmInvariant := by
  obtain ⟨hconsistent, hranges⟩ := h.consistent.mprotect hmode hserve
  obtain ⟨root', hloop, rfl⟩ := mprotect_eq_some hserve
  refine ⟨hconsistent, h.cursor_aligned, h.cursor_start, h.cursor_le, ?_, ?_, ?_⟩
  · dsimp only at hranges ⊢
    rw [hranges]
    exact h.below_cursor
  · exact h.free.shrink (mprotectLoop_shrink h.consistent.wellFormed hloop)
  · dsimp only at hranges ⊢
    rw [hranges]
    exact h.allocations

/-- `mmap_pages` of a region with room below the end of the lower half, on
backing pages that `map` accepts, runs to the end, keeps the invariant and
lists the region. -/
theorem MmInvariant.mmapPages (h : process.MmInvariant) {numPages backing : ℕ}
    {permission : XWRMode} (hmode : permission ≠ .pointerToNextLevel) (hpos : 0 < numPages)
    (hroom : process.freeMmapAddress + numPages * pageSize ≤ 2 ^ 38)
    (hbacking : backing % pageSize = 0) (hbackingEnd : backing + numPages * pageSize ≤ 2 ^ 64) :
    ∃ process', process.mmapPages numPages permission backing =
        some (process.freeMmapAddress, process') ∧ process'.MmInvariant ∧
      (process.freeMmapAddress, process.freeMmapAddress + numPages * pageSize - 1) ∈
        process'.pageTable.alreadyMapped.map (·.virtualRange) := by
  have hsize : numPages * pageSize % pageSize = 0 := Nat.mul_mod_left _ _
  have hsizePos : 0 < numPages * pageSize := Nat.mul_pos hpos (by decide)
  have hcursor := h.cursor_start
  unfold freeMmapStartAddress at hcursor
  -- no listed range reaches the cursor's region
  have hdisjoint : ∀ r ∈ process.pageTable.alreadyMapped.map (·.virtualRange),
      RangesDisjoint r (process.freeMmapAddress,
        process.freeMmapAddress + (numPages * pageSize - 1)) := by
    intro r hr
    have := h.below_cursor r hr
    unfold RangesDisjoint
    dsimp only
    omega
  have hnone : process.pageTable.alreadyMapped.any (·.contains (process.freeMmapAddress,
      process.freeMmapAddress + (numPages * pageSize - 1))) = false := by
    refine List.any_eq_false.mpr fun entry hentry hcontains => ?_
    have := hdisjoint entry.virtualRange (List.mem_map_of_mem hentry)
    rw [MappingEntry.contains_iff] at hcontains
    unfold RangesDisjoint at this
    omega
  obtain ⟨root', hmap, hloop, hfree⟩ : ∃ root', process.pageTable.map process.freeMmapAddress
      backing (numPages * pageSize) permission true = some ⟨root', process.pageTable.alreadyMapped ++
        [⟨(process.freeMmapAddress, process.freeMmapAddress + (numPages * pageSize - 1)),
          permission⟩]⟩ ∧
      mapLoop process.freeMmapAddress backing (numPages * pageSize) permission true
        (numPages * pageSize) process.pageTable.rootTable 0 = some root' ∧
      FreeIn root' (process.freeMmapAddress + numPages * pageSize) (2 ^ 38) :=
    map_freeIn hmode h.cursor_aligned (by omega) hbacking hsize hsizePos hbackingEnd
      h.consistent.wellFormed h.free hroom le_rfl hnone
  have hagrees := h.consistent.map hmode h.cursor_aligned hbacking hsize hsizePos
    (by unfold InHalf; omega) hdisjoint hloop
  have hend : process.freeMmapAddress + numPages * pageSize ≤ usizeMax := by
    unfold usizeMax; omega
  refine ⟨⟨⟨root', process.pageTable.alreadyMapped ++
      [⟨(process.freeMmapAddress, process.freeMmapAddress + (numPages * pageSize - 1)),
        permission⟩]⟩,
      Function.update process.mmapAllocations process.freeMmapAddress (some ⟨backing, numPages⟩),
      process.freeMmapAddress + numPages * pageSize⟩,
    by simp [Process.mmapPages, mapUserspace, hmap, checkedAdd_of_le hend], ?_, ?_⟩
  · refine ⟨by simpa [Consistent] using hagrees, ?_, ?_, hroom, ?_, hfree, ?_⟩ <;> dsimp only
    · have := h.cursor_aligned
      unfold pageSize at hsize this ⊢
      omega
    · exact h.cursor_start.trans (Nat.le_add_right _ _)
    · intro r hr
      simp only [List.map_append, List.map_cons, List.map_nil, List.mem_append,
        List.mem_singleton] at hr
      rcases hr with hr | rfl
      · rcases h.below_cursor r hr with hlt | hupper
        · exact .inl (by omega)
        · exact .inr hupper
      · exact .inl (by dsimp only; omega)
    · intro addr pages hpages
      simp only [List.map_append, List.map_cons, List.map_nil, List.mem_append,
        List.mem_singleton]
      rw [Function.update_apply] at hpages
      split_ifs at hpages with haddr
      · cases hpages
        subst haddr
        exact .inr (by simp [PinnedHeapPages.size]; omega)
      · exact .inl (h.allocations addr pages hpages)
  · simp only [List.map_append, List.map_cons, List.map_nil, List.mem_append,
      List.mem_singleton]
    exact .inr (by congr 1; omega)

/-- `munmap_pages` never panics and keeps the invariant: a region of
`mmap_allocations` is a listed range, which `unmap_userspace` removes whole. -/
theorem MmInvariant.munmapPages (h : process.MmInvariant) (addr : ℕ) {length : ℕ}
    (hpos : 0 < length) :
    ∃ result process', process.munmapPages addr length = some (result, process') ∧
      process'.MmInvariant := by
  cases hpages : process.mmapAllocations addr with
  | none => exact ⟨.error .einval, process, by simp [Process.munmapPages, hpages], h⟩
  | some pages =>
      by_cases hsize : pages.size = length
      · have hmem := h.allocations addr pages hpages
        rw [hsize] at hmem
        obtain ⟨pageTable, hserve⟩ := h.consistent.unmapUserspace_isSome hpos hmem
        obtain ⟨hconsistent, hshrink, hsub, hkept⟩ :=
          h.consistent.unmapUserspace_of_mem hpos hmem hserve
        refine ⟨.ok (), { process with
            pageTable := pageTable
            mmapAllocations := Function.update process.mmapAllocations addr none },
          by simp [Process.munmapPages, hpages, hsize, hserve], ?_⟩
        refine ⟨hconsistent, h.cursor_aligned, h.cursor_start, h.cursor_le,
          fun r hr => h.below_cursor r (hsub r hr), h.free.shrink hshrink, ?_⟩
        -- the other regions start elsewhere, so their ranges stay listed
        intro addr' pages' hpages'
        dsimp only at hpages' ⊢
        by_cases haddr : addr' = addr
        · subst haddr
          simp at hpages'
        · rw [Function.update_of_ne haddr] at hpages'
          exact hkept _ (h.allocations addr' pages' hpages') haddr
      · exact ⟨.error .einval, process, by simp [Process.munmapPages, hpages, hsize], h⟩

/-- A region `mmap` places at the cursor: no hint, or one that meets a mapping
(the code's own test), with room below the end of the lower half, on heap pages
at `backing` that `map` accepts. -/
def PlacedAtCursor (process : Process) (addr length backing : ℕ) : Prop :=
  (addr = 0 ∨ addr + length ≤ usizeMax ∧ process.pageTable.isMapped (addr, addr + length) = true) ∧
    process.freeMmapAddress + length ≤ 2 ^ 38 ∧ backing % pageSize = 0 ∧ backing + length ≤ 2 ^ 64

instance (process : Process) (addr length backing : ℕ) :
    Decidable (process.PlacedAtCursor addr length backing) :=
  inferInstanceAs (Decidable (_ ∧ _))

/-- A `MAP_FIXED` range that `mmap` reprotects: page-aligned, in one half of the
address space, with every page mapped by a 4 KiB leaf. -/
def Remaps (process : Process) (addr length : ℕ) : Prop :=
  addr % pageSize = 0 ∧ InHalf addr length ∧ addr + length ≤ usizeMax ∧
    PagesMapped4K process.pageTable.rootTable addr length

instance (process : Process) (addr length : ℕ) : Decidable (process.Remaps addr length) :=
  inferInstanceAs (Decidable (_ ∧ _))

/-- `do_mmap` within the contract: the flags it implements, `fd = -1`,
`offset = 0`, and a rounded length that fits a `usize`, placed at the cursor or,
with `MAP_FIXED`, reprotecting a mapped range. -/
def MmapWithinContract (process : Process) (addr length : ℕ) (flags : UInt32) (fd offset : ℤ)
    (backing : ℕ) : Prop :=
  (flags = mapAnonymous ||| mapPrivate ∨ flags = mapAnonymous ||| mapPrivate ||| mapFixed) ∧
    fd = -1 ∧ offset = 0 ∧
    (length = 0 ∨ alignUp length pageSize ≤ usizeMax ∧
      (flags = mapAnonymous ||| mapPrivate ∧
          process.PlacedAtCursor addr (alignUp length pageSize) backing ∨
        flags = mapAnonymous ||| mapPrivate ||| mapFixed ∧
          (addr = 0 ∨ process.Remaps addr (alignUp length pageSize))))

instance (process : Process) (addr length : ℕ) (flags : UInt32) (fd offset : ℤ) (backing : ℕ) :
    Decidable (process.MmapWithinContract addr length flags fd offset backing) :=
  inferInstanceAs (Decidable (_ ∧ _))

/-- `do_mprotect` within the contract: the rounded length fits a `usize` and
every page of the rounded range is mapped by a 4 KiB leaf. -/
def ReprotectsMapped (process : Process) (addr len : ℕ) : Prop :=
  alignUp len pageSize ≤ usizeMax ∧ addr + alignUp len pageSize ≤ 2 ^ 64 ∧
    PagesMapped4K process.pageTable.rootTable addr (alignUp len pageSize)

instance (process : Process) (addr len : ℕ) : Decidable (process.ReprotectsMapped addr len) :=
  inferInstanceAs (Decidable (_ ∧ _))

variable {addr length backing : ℕ} {permission : XWRMode}

/-- At the cursor, `mmap` maps the whole region, keeps the invariant and
returns the old cursor. -/
theorem MmInvariant.mmapLocked_cursor (h : process.MmInvariant)
    (hmode : permission ≠ .pointerToNextLevel) (hpos : 0 < length)
    (hlength : length % pageSize = 0) (hplaced : process.PlacedAtCursor addr length backing) :
    ∃ process', LinuxSyscallHandler.mmapLocked process addr length false permission backing =
        some (.ok (usizeAsIsize process.freeMmapAddress), process') ∧
      process'.MmInvariant ∧ process'.MapsOnce process.freeMmapAddress length := by
  obtain ⟨hhint, hroom, hbacking, hbackingEnd⟩ := hplaced
  have hpages : length / pageSize * pageSize = length :=
    Nat.div_mul_cancel (Nat.dvd_of_mod_eq_zero hlength)
  have hnum : 0 < length / pageSize := by
    unfold pageSize at hlength ⊢
    omega
  obtain ⟨process', hmmap, h', hmem⟩ := h.mmapPages hmode hnum (by rw [hpages]; exact hroom)
    hbacking (by rw [hpages]; exact hbackingEnd)
  rw [hpages] at hmem
  refine ⟨process', ?_, h', fun va hlo hhi => ?_⟩
  · rw [LinuxSyscallHandler.mmapLocked_toCursor hhint, hmmap]
    rfl
  · -- the region is a listed range of the lower half
    have hva : IsCanonical va := by
      unfold IsCanonical InHalf
      omega
    exact h'.mappedOnce_of_inRanges hva ⟨_, hmem, hlo, by dsimp only; omega⟩

/-- With `MAP_FIXED` over a range whose pages are all mapped, `mmap` only
rewrites their permission, keeps the invariant and returns the address. -/
theorem MmInvariant.mmapLocked_remap (h : process.MmInvariant)
    (hmode : permission ≠ .pointerToNextLevel) (hpos : 0 < length)
    (hlength : length % pageSize = 0) (hremap : process.Remaps addr length) :
    ∃ process', LinuxSyscallHandler.mmapLocked process addr length true permission backing =
        some (.ok (usizeAsIsize addr), process') ∧
      process'.MmInvariant ∧ process'.MapsOnce addr length := by
  obtain ⟨haddr, hhalf, hend, hpages⟩ := hremap
  have hwf := h.consistent.wellFormed
  have hmapped : ∀ va, addr ≤ va → va < addr + length →
      (resolve process.pageTable.rootTable va).isSome :=
    fun va hlo hhi => PagesMapped4K.isSome hpages haddr hlength hlo hhi
  -- the first page is mapped, so `is_mapped` sends the call to `mprotect`
  have hlisted : process.pageTable.isMapped (addr, addr + length) = true := by
    have hfirst : IsCanonical addr := hhalf.isCanonical le_rfl (by omega)
    exact isMapped_of_inRanges
      ((h.consistent.covered addr hfirst).mpr (hmapped addr le_rfl (by omega))) (by omega)
  obtain ⟨pageTable, hserve⟩ := mprotect_isSome permission hwf haddr hpos hlength
    (by unfold usizeMax at hend; omega) hpages
  refine ⟨_, by rw [LinuxSyscallHandler.mmapLocked_remap hend hlisted, hserve]; rfl,
    h.mprotect hmode hserve, fun va hlo hhi => ?_⟩
  obtain ⟨root', hloop, rfl⟩ := mprotect_eq_some hserve
  -- `mprotect` keeps every leaf where it was
  have hlevels := congrArg Option.isSome ((mprotectLoop_spec hwf hloop).levels va)
  rw [Option.isSome_map, Option.isSome_map] at hlevels
  exact (h.mprotect hmode hserve).mappedOnce (hhalf.isCanonical hlo hhi)
    (hlevels.trans (hmapped va hlo hhi))

/-- `do_mmap` within the contract never panics and keeps the invariant; a
region it returns is mapped once. -/
theorem MmInvariant.doMmap (h : process.MmInvariant) {prot flags : UInt32} {fd offset : ℤ}
    (hcontract : process.MmapWithinContract addr length flags fd offset backing) :
    ∃ result process', LinuxSyscallHandler.doMmap process addr length prot flags fd offset backing =
        some (result, process') ∧ process'.MmInvariant ∧
      ∀ ptr, result = .ok ptr →
        ∃ start, ptr = usizeAsIsize start ∧ process'.MapsOnce start (alignUp length pageSize) := by
  obtain ⟨hflags, rfl, rfl, hplace⟩ := hcontract
  by_cases hzero : length = 0
  · -- an empty mapping is refused
    subst hzero
    refine ⟨.error .einval, process, ?_, h, fun _ hresult => by cases hresult⟩
    rcases hflags with rfl | rfl <;> rfl
  obtain ⟨hrounded, hplace⟩ := hplace.resolve_left hzero
  have hL : 0 < alignUp length pageSize :=
    lt_of_lt_of_le (Nat.pos_of_ne_zero hzero) (le_alignUp (by decide))
  have hLmod : alignUp length pageSize % pageSize = 0 := alignUp_mod (by decide)
  rw [LinuxSyscallHandler.doMmap_of_flags hflags (Nat.pos_of_ne_zero hzero) hrounded]
  rcases XWRMode.fromProt_cases prot with ⟨mode, hprot, hmode⟩ | hprot
  · rcases hplace with ⟨rfl, hplaced⟩ | ⟨rfl, hfixed⟩
    · have hfix : decide (0 < (mapAnonymous ||| mapPrivate) &&& mapFixed) = false := by decide
      obtain ⟨process', hmmap, h', honce⟩ := h.mmapLocked_cursor hmode hL hLmod hplaced
      refine ⟨_, process', ?_, h', fun ptr hptr => ⟨_, (Except.ok.inj hptr).symm, honce⟩⟩
      simp only [hfix, Bool.false_eq_true, false_and, if_false, hprot]
      exact hmmap
    · have hfix : decide (0 < (mapAnonymous ||| mapPrivate ||| mapFixed) &&& mapFixed) = true := by
        decide
      simp only [hfix, true_and, hprot]
      split_ifs with haddr
      · exact ⟨_, _, rfl, h, fun _ hresult => by cases hresult⟩
      obtain ⟨process', hmmap, h', honce⟩ :=
        h.mmapLocked_remap hmode hL hLmod (hfixed.resolve_left haddr)
      exact ⟨_, process', hmmap, h', fun ptr hptr => ⟨_, (Except.ok.inj hptr).symm, honce⟩⟩
  · -- a protection `from_prot` refuses
    refine ⟨.error .einval, process, ?_, h, fun _ hresult => by cases hresult⟩
    split_ifs <;> simp [hprot]

/-- `do_mprotect` within the contract never panics and keeps the invariant. -/
theorem MmInvariant.doMprotect (h : process.MmInvariant) {len : ℕ} {prot : Int32}
    (hcontract : process.ReprotectsMapped addr len) :
    ∃ result process', LinuxSyscallHandler.doMprotect process addr len prot =
        some (result, process') ∧ process'.MmInvariant ∧ ∀ ptr, result = .ok ptr → ptr = 0 := by
  obtain ⟨hrounded, hend, hpages⟩ := hcontract
  unfold LinuxSyscallHandler.doMprotect
  split_ifs with hguard hprot
  · exact ⟨_, _, rfl, h, fun _ hresult => by cases hresult⟩
  · exact ⟨_, _, rfl, h, fun _ hresult => by cases hresult⟩
  simp only [ne_eq, not_or, Decidable.not_not] at hguard
  have hpos : 0 < alignUp len pageSize :=
    lt_of_lt_of_le (Nat.pos_of_ne_zero hguard.2) (le_alignUp (by decide))
  rw [nextMultipleOf_eq_alignUp (by decide) hrounded]
  rcases XWRMode.fromProt_cases prot.toUInt32 with ⟨mode, hprot, hmode⟩ | hprot
  · obtain ⟨pageTable, hserve⟩ := mprotect_isSome mode h.consistent.wellFormed hguard.1 hpos
      (alignUp_mod (by decide)) hend hpages
    refine ⟨.ok 0, _, by simp [hprot, hserve], h.mprotect hmode hserve, fun _ hresult => ?_⟩
    cases hresult
    rfl
  · exact ⟨.error .einval, process, by simp [hprot], h, fun _ hresult => by cases hresult⟩

/-- `munmap` never panics and keeps the invariant. -/
theorem MmInvariant.munmap (h : process.MmInvariant) (addr length : ℕ) :
    ∃ result process', LinuxSyscallHandler.munmap process addr length = some (result, process') ∧
      process'.MmInvariant ∧ ∀ ptr, result = .ok ptr → ptr = 0 := by
  unfold LinuxSyscallHandler.munmap
  split_ifs with hguard
  · exact ⟨_, _, rfl, h, fun _ hresult => by cases hresult⟩
  have hpos : 0 < length := Nat.pos_of_ne_zero (not_or.mp hguard).2
  obtain ⟨result, process', hunmap, h'⟩ := h.munmapPages addr hpos
  refine ⟨_, process', by rw [hunmap]; rfl, h', fun ptr hptr => ?_⟩
  cases result <;> simp [Except.map] at hptr
  exact hptr.symm

end Process

namespace LinuxSyscallHandler

open Process

/-- The calls within the contract. -/
def MmRequest.WithinContract (process : Process) : MmRequest → Prop
  | .mmap addr length _ flags fd offset backing =>
      process.MmapWithinContract addr length flags fd offset backing
  | .mprotect addr len _ => process.ReprotectsMapped addr len
  | .munmap _ _ => True

instance (process : Process) : (request : MmRequest) → Decidable (request.WithinContract process)
  | .mmap addr length _ flags fd offset backing =>
      inferInstanceAs (Decidable (process.MmapWithinContract addr length flags fd offset backing))
  | .mprotect addr len _ => inferInstanceAs (Decidable (process.ReprotectsMapped addr len))
  | .munmap _ _ => inferInstanceAs (Decidable True)

/-- What a successful call returns: `mmap` the start of a region of its rounded
length, each of whose addresses is mapped once; `mprotect` and `munmap` zero. -/
def MmRequest.Returns (process' : Process) (ptr : ℤ) : MmRequest → Prop
  | .mmap _ length _ _ _ _ _ =>
      ∃ start, ptr = usizeAsIsize start ∧ process'.MapsOnce start (alignUp length pageSize)
  | .mprotect _ _ _ => ptr = 0
  | .munmap _ _ => ptr = 0

variable {process : Process} {request : MmRequest}

/-- A call within the contract never panics, keeps the invariant and returns
what it should. -/
theorem serve_of_mmInvariant (h : process.MmInvariant) (hcontract : request.WithinContract process) :
    ∃ result process', request.serve process = some (result, process') ∧ process'.MmInvariant ∧
      ∀ ptr, result = .ok ptr → request.Returns process' ptr := by
  cases request with
  | mmap addr length prot flags fd offset backing => exact h.doMmap hcontract
  | mprotect addr len prot => exact h.doMprotect hcontract
  | munmap addr length => exact h.munmap addr length

/-- The process after a call that does not panic. -/
def mmStep (process : Process) (request : MmRequest) : Option Process :=
  (request.serve process).map Prod.snd

/-- The process after a call within the contract. -/
def mmContractStep (process : Process) (request : MmRequest) : Option Process :=
  if request.WithinContract process then mmStep process request else none

theorem mmContractStep_eq_some {process' : Process} (h : mmContractStep process request = some process') :
    request.WithinContract process ∧ ∃ result, request.serve process = some (result, process') := by
  unfold mmContractStep mmStep at h
  split_ifs at h with hcontract
  obtain ⟨⟨result, process''⟩, hserve, rfl⟩ := Option.map_eq_some_iff.mp h
  exact ⟨hcontract, result, hserve⟩

theorem mmInvariant_of_reachable {init : Process} (hinit : init.MmInvariant)
    (hreach : Machine.Reachable mmContractStep init process) : process.MmInvariant := by
  refine Machine.Reachable.induction Process.MmInvariant hinit ?_ hreach
  intro process request process' h hstep
  obtain ⟨hcontract, result, hserve⟩ := mmContractStep_eq_some hstep
  obtain ⟨result', process'', hserve', h', -⟩ := serve_of_mmInvariant h hcontract
  rw [hserve] at hserve'
  cases hserve'
  exact h'

/-- Every call within the contract, in a state that calls within the contract
reach from one that keeps the invariant, returns without a panic; an `mmap`
that succeeds returns the start of a region of its rounded length, each of
whose addresses lies in exactly one entry of `already_mapped` and is mapped by
a leaf. -/
theorem mm_syscalls_never_panic {init process : Process} (hinit : init.MmInvariant)
    (hreach : Machine.Reachable mmContractStep init process) {request : MmRequest}
    (hcontract : request.WithinContract process) :
    ∃ result process', request.serve process = some (result, process') ∧
      ∀ ptr, result = .ok ptr → request.Returns process' ptr := by
  obtain ⟨result, process', hserve, -, hreturns⟩ :=
    serve_of_mmInvariant (mmInvariant_of_reachable hinit hreach) hcontract
  exact ⟨result, process', hserve, hreturns⟩

/-- After a first `mmap` of three pages at the cursor, `MAP_FIXED` over them
with a new protection returns their start. -/
theorem mm_syscalls_never_panic_fixed_remap :
    ∃ process, Machine.run mmContractStep fresh [.mmap 0 0x3000 3 0x22 (-1) 0 0x80000000] =
        some process ∧
      (MmRequest.mmap 0x2000000000 0x3000 1 0x32 (-1) 0 0x80003000).WithinContract process ∧
      ∃ result process', (MmRequest.mmap 0x2000000000 0x3000 1 0x32 (-1) 0 0x80003000).serve process =
          some (result, process') ∧
        ∀ ptr, result = .ok ptr →
          (MmRequest.mmap 0x2000000000 0x3000 1 0x32 (-1) 0 0x80003000).Returns process' ptr :=
  ⟨_, rfl, by decide, mm_syscalls_never_panic mmInvariant_fresh
    (@Machine.Reachable.of_run _ _ _ _ _ [.mmap 0 0x3000 3 0x22 (-1) 0 0x80000000] rfl) (by decide)⟩

/-- `do_mprotect` with a protection `from_prot` takes panics when a page of its
range is unmapped: `mprotect` reaches the `expect` on the missing entry. -/
theorem doMprotect_eq_none {len page : ℕ} {prot : Int32} {mode : XWRMode}
    (hwf : WellFormed process.pageTable.rootTable) (haddr : addr % pageSize = 0)
    (hprot : 0 ≤ prot.toInt) (hmode : XWRMode.fromProt prot.toUInt32 = .ok mode)
    (hrounded : alignUp len pageSize ≤ usizeMax) (hpage : page < len)
    (haligned : page % pageSize = 0)
    (hunmapped : resolve process.pageTable.rootTable (addr + page) = none) :
    doMprotect process addr len prot = none := by
  have hlen : len ≠ 0 := by omega
  have hle : len ≤ alignUp len pageSize := le_alignUp (by decide)
  unfold doMprotect
  simp only [haddr, ne_eq, not_true_eq_false, hlen, or_self, if_false, not_lt.mpr hprot,
    nextMultipleOf_eq_alignUp (by decide) hrounded, Option.bind_eq_bind, Option.bind_some, hmode,
    mprotect_eq_none mode hwf (lt_of_lt_of_le hpage hle) haligned hunmapped, Option.bind_none]

/-- User calls that panic, none of them marked as deliberate in the source
(only `MAP_FIXED` over a partly mapped range is, in a comment of `do_mmap`).
Each starts from a fresh process or one that calls which return reach. -/
theorem mm_syscalls_user_panics :
    -- `mprotect` of a page nothing maps: the `expect` in `mprotect`
    (MmRequest.mprotect 0x1000 0x1000 1).serve fresh = none ∧
    -- a hint that is not page-aligned: the alignment `assert!` of `map`
    (MmRequest.mmap 0x1234 0x1000 3 0x22 (-1) 0 0x80000000).serve fresh = none ∧
    -- a hint whose end overflows: `addr + length` in `do_mmap`
    (MmRequest.mmap (2 ^ 64 - 0x1000) 0x2000 3 0x22 (-1) 0 0x80000000).serve fresh = none ∧
    -- a hint at the cursor, which the next `mmap` without one collides with
    (∃ process,
      Machine.run mmStep fresh [.mmap 0x2000000000 0x1000 3 0x22 (-1) 0 0x80000000] =
        some process ∧
      (MmRequest.mmap 0 0x1000 3 0x22 (-1) 0 0x80001000).serve process = none) ∧
    -- a 2 MiB page over the second-level table a `munmap` left behind
    (∃ process,
      Machine.run mmStep fresh
          [.mmap 0x200000 0x1000 3 0x22 (-1) 0 0x80000000, .munmap 0x200000 0x1000] =
        some process ∧
      (MmRequest.mmap 0x200000 0x200000 3 0x22 (-1) 0 0x80200000).serve process = none) := by
  -- `PROT_READ` asks for `ReadOnly`, and page `0x1000` has no leaf
  have hmode : XWRMode.fromProt (1 : Int32).toUInt32 = .ok .readOnly := by decide
  have hmprotect : doMprotect fresh 0x1000 0x1000 1 = none :=
    doMprotect_eq_none wellFormed_empty (by decide) (by decide) hmode (by decide)
      (show 0 < 0x1000 by decide) (by decide) rfl
  exact ⟨hmprotect, rfl, rfl, ⟨_, rfl, rfl⟩, ⟨_, rfl, rfl⟩⟩

/-- The tables `fork_address_space` gives a child whose parent has one region
of two pages: one `map_userspace` per page, so two entries in
`already_mapped` (the kernel mapping and the trampoline are elsewhere and left
out).  The region stays one allocation of two pages. -/
def forkedChild : Option Process :=
  (Machine.run RootPageTableHolder.serve empty
      [.map 0x2000000000 0x80000000 0x1000 .readWrite true,
        .map 0x2000001000 0x80001000 0x1000 .readWrite true]).map fun pageTable =>
    ⟨pageTable, Function.update (fun _ => none) 0x2000000000 (some ⟨0x80000000, 2⟩),
      0x2000002000⟩

/-- In the forked child, `munmap` of the whole region clears both pages but
`unmap_userspace` removes only the entry that starts at its address: the
second page stays listed in `already_mapped` with no leaf behind it, and a
`MAP_FIXED` `mmap` over it, which `is_mapped` sends to `mprotect`, panics at
its `expect`. -/
theorem bookkeeping_drift_after_forked_munmap :
    ∃ child process, forkedChild = some child ∧
      Machine.run mmStep child [.munmap 0x2000000000 0x2000] = some process ∧
      process.pageTable.isMapped (0x2000001000, 0x2000001000) = true ∧
      resolve process.pageTable.rootTable 0x2000001000 = none ∧
      (MmRequest.mmap 0x2000001000 0x1000 3 0x32 (-1) 0 0x80003000).serve process = none :=
  ⟨_, _, rfl, rfl, rfl, rfl, rfl⟩

end LinuxSyscallHandler

end Solaya
