import Solaya.Headers
import Solaya.Memory.PageTableRefinement
import Solaya.Core.Bytes

/-!
# Reaching user memory from the kernel

`read_userspace_slice` and `write_userspace_slice` turn a user pointer into a
kernel pointer with `get_kernel_space_fat_pointer`: the byte range is checked
page by page with `is_valid_userspace_fat_ptr`, then the first byte is
translated, and the kernel accesses `len` elements from there.  The check
holds for every byte and its loop never runs out of iterations
(`getKernelSpaceFatPointer_eq_ok`); the translation is right for the bytes on
the page of the first one.
-/

namespace Solaya

namespace RootPageTableHolder

variable {holder : RootPageTableHolder}

/-! ## One page -/

theorem getPageTableEntryForAddress_eq_of_div_eq {va va' : ℕ}
    (h : va / pageSize = va' / pageSize) :
    holder.getPageTableEntryForAddress va = holder.getPageTableEntryForAddress va' := by
  unfold getPageTableEntryForAddress getEntryForVirtualAddress
  rw [entryIndex_eq_of_div_eq h 2, entryIndex_eq_of_div_eq h 1, entryIndex_eq_of_div_eq h 0]

/-- On the page of a translated address, the translation moves with the
address. -/
theorem translateUserspaceAddressToPhysicalAddress_of_div_eq {va va' k : ℕ}
    (h : va / pageSize = va' / pageSize) (hle : va ≤ va')
    (hk : holder.translateUserspaceAddressToPhysicalAddress va = some (some k)) :
    holder.translateUserspaceAddressToPhysicalAddress va' = some (some (k + (va' - va))) := by
  cases hget : holder.getPageTableEntryForAddress va with
  | none =>
      simp [translateUserspaceAddressToPhysicalAddress, isUserspaceAddress, hget] at hk
  | some found =>
      cases found with
      | none =>
          simp [translateUserspaceAddressToPhysicalAddress, isUserspaceAddress, hget] at hk
      | some entry =>
          rw [translateUserspaceAddressToPhysicalAddress_of_entry hget] at hk
          rw [translateUserspaceAddressToPhysicalAddress_of_entry
            ((getPageTableEntryForAddress_eq_of_div_eq h).symm.trans hget)]
          split_ifs at hk ⊢
          · cases hk
            -- both offsets are taken from the same page start
            have hmod := Nat.div_add_mod va pageSize
            have hmod' := Nat.div_add_mod va' pageSize
            rw [h] at hmod
            have : va' % pageSize = va % pageSize + (va' - va) := by omega
            rw [this, Nat.add_assoc]
          · cases hk

/-- What `is_valid_userspace_fat_ptr` asks of one page: a valid,
user-accessible entry with a readable mode, `ReadWrite` when writing. -/
def PageAccessible (holder : RootPageTableHolder) (writable : Bool) (page : ℕ) : Prop :=
  ∃ entry, holder.getPageTableEntryForAddress page = some (some entry) ∧
    entry.validity = true ∧ entry.userModeAccessible = true ∧
    entry.xwrMode ∈ [.readOnly, .readWrite, .readExecute] ∧
    (writable = true → entry.xwrMode = .readWrite)

/-! ## The page loop -/

section PageLoop

variable {writable : Bool} {lastPage : ℕ}

/-- One iteration of a page loop that answers `true`: the page passes the
check, and the loop stops there or answers `true` from the next page. -/
theorem userspacePagesValid_succ {fuel addr : ℕ} {entry : PageTableEntry}
    (hget : holder.getPageTableEntryForAddress addr = some (some entry))
    (h : holder.userspacePagesValid writable lastPage (fuel + 1) addr = some true) :
    PageAccessible holder writable addr ∧
      (addr = lastPage ∨
        holder.userspacePagesValid writable lastPage fuel (addr + pageSize) = some true) := by
  rw [userspacePagesValid, hget, Option.bind_some] at h
  dsimp only at h
  split_ifs at h with hbad hwrite hlast
  · cases h
  · cases h
  all_goals
    simp only [Bool.or_eq_true, Bool.not_eq_true', not_or, Bool.not_eq_false,
      decide_eq_true_eq, Bool.and_eq_true, bne_iff_ne, ne_eq] at hbad hwrite
    refine ⟨⟨entry, hget, hbad.1.1, hbad.1.2, hbad.2, fun hw => ?_⟩, ?_⟩
    · by_contra hmode
      exact hwrite ⟨hw, hmode⟩
  · exact .inl hlast
  · exact .inr h

/-- A run of the page loop that answers `true` has checked every page from
`addr` to `lastPage`. -/
theorem userspacePagesValid_eq_some_true :
    ∀ fuel addr, holder.userspacePagesValid writable lastPage fuel addr = some true →
      ∀ page, addr ≤ page → page ≤ lastPage → page % pageSize = addr % pageSize →
        PageAccessible holder writable page := by
  intro fuel
  induction fuel with
  | zero =>
      intro addr h
      cases h
  | succ fuel ih =>
      intro addr h page hlo hhi hmod
      cases hget : holder.getPageTableEntryForAddress addr with
      | none => simp [userspacePagesValid, hget] at h
      | some found =>
          cases found with
          | none => simp [userspacePagesValid, hget] at h
          | some entry =>
              obtain ⟨haccess, hstop | hrest⟩ := userspacePagesValid_succ hget h
              · have : page = addr := by omega
                rwa [this]
              · by_cases hpage : page = addr
                · rwa [hpage]
                -- a later page of the same alignment is at least one page further
                · have hnext : addr + pageSize ≤ page := by
                    unfold pageSize at hmod ⊢
                    omega
                  have hmod' : page % pageSize = (addr + pageSize) % pageSize := by
                    unfold pageSize at hmod ⊢
                    omega
                  exact ih (addr + pageSize) hrest page hnext hhi hmod'

/-- The page loop never runs out of iterations: with one for each page from
`addr` to `lastPage`, it can only fail by a panic of the walk. -/
theorem userspacePagesValid_eq_none :
    ∀ fuel addr, addr ≤ lastPage → addr % pageSize = lastPage % pageSize →
      (lastPage - addr) / pageSize < fuel →
      holder.userspacePagesValid writable lastPage fuel addr = none →
        ∃ page, addr ≤ page ∧ page ≤ lastPage ∧ page % pageSize = addr % pageSize ∧
          holder.getPageTableEntryForAddress page = none := by
  intro fuel
  induction fuel with
  | zero =>
      intro addr _ _ hfuel
      exact absurd hfuel (Nat.not_lt_zero _)
  | succ fuel ih =>
      intro addr hle hmod hfuel h
      cases hget : holder.getPageTableEntryForAddress addr with
      | none => exact ⟨addr, le_rfl, hle, rfl, hget⟩
      | some found =>
          rw [userspacePagesValid, hget, Option.bind_some] at h
          cases found with
          | none => cases h
          | some entry =>
              dsimp only at h
              split_ifs at h with hbad hwrite hlast
              -- only the step to the next page can end in `none`
              have hnext : addr + pageSize ≤ lastPage := by
                unfold pageSize at hmod ⊢
                omega
              have hmod' : (addr + pageSize) % pageSize = lastPage % pageSize := by
                unfold pageSize at hmod ⊢
                omega
              have hfuel' : (lastPage - (addr + pageSize)) / pageSize < fuel := by
                unfold pageSize at hfuel hnext ⊢
                omega
              obtain ⟨page, hlo, hhi, hpmod, hpage⟩ := ih (addr + pageSize) hnext hmod' hfuel' h
              refine ⟨page, by omega, hhi, ?_, hpage⟩
              rw [hpmod]
              unfold pageSize
              omega

end PageLoop

/-- A pointer that passes `is_valid_userspace_fat_ptr` spans bytes below
`usize::MAX` whose pages all pass the check. -/
theorem isValidUserspaceFatPtr_eq_some_true {start elementSize len : ℕ} {writable : Bool}
    (h : holder.isValidUserspaceFatPtr start elementSize len writable = some true) :
    ∀ i < elementSize * len, start + i ≤ usizeMax ∧
      PageAccessible holder writable (alignDown (start + i) pageSize) := by
  intro i hi
  unfold isValidUserspaceFatPtr at h
  split_ifs at h with hmul hzero hlast
  · cases h
  · omega
  · cases h
  · refine ⟨by omega, userspacePagesValid_eq_some_true _ _ h _ ?_ ?_ ?_⟩
    · exact alignDown_mono pageSize (by omega)
    · exact alignDown_mono pageSize (by omega)
    · rw [alignDown_mod, alignDown_mod]

/-- `is_valid_userspace_fat_ptr` fails only by a panic of the walk on a page of
the range, never by running out of iterations. -/
theorem isValidUserspaceFatPtr_eq_none {start elementSize len : ℕ} {writable : Bool}
    (h : holder.isValidUserspaceFatPtr start elementSize len writable = none) :
    ∃ i < elementSize * len,
      holder.getPageTableEntryForAddress (alignDown (start + i) pageSize) = none := by
  unfold isValidUserspaceFatPtr at h
  split_ifs at h with hmul hzero hlast
  set last := start + (elementSize * len - 1)
  have hle : alignDown start pageSize ≤ alignDown last pageSize := alignDown_mono pageSize (by omega)
  obtain ⟨page, hlo, hhi, hpmod, hpage⟩ := userspacePagesValid_eq_none _ _ hle
    (by rw [alignDown_mod, alignDown_mod]) (by omega) h
  rw [alignDown_mod] at hpmod
  -- the page lies in the range, so a byte of the range is on it
  by_cases hstart : page ≤ start
  · refine ⟨0, by omega, ?_⟩
    have hdown := alignDown_mono pageSize hstart
    rw [alignDown_of_mod_eq_zero hpmod] at hdown
    rwa [add_zero, ← le_antisymm hdown hlo]
  · refine ⟨page - start, ?_, ?_⟩
    · have := alignDown_le last pageSize
      omega
    · rwa [show start + (page - start) = page by omega, alignDown_of_mod_eq_zero hpmod]

end RootPageTableHolder

namespace Process

/-- `Process::get_kernel_space_fat_pointer` for a pointer `ptr` to `len`
elements of `elementSize` bytes (`size_of::<PTR::Pointee>()`), writable when
`PTR::WRITABLE`.  Of the process it reads the page table only. -/
def getKernelSpaceFatPointer (pageTable : RootPageTableHolder) (ptr elementSize len : ℕ)
    (writable : Bool) : Option (Except Errno ℕ) := do
  let valid ← pageTable.isValidUserspaceFatPtr ptr elementSize len writable
  if !valid then return .error .efault
  let translated ← pageTable.translateUserspaceAddressToPhysicalAddress ptr
  return match translated with
    | none => .error .efault
    | some k => .ok k

variable {pageTable : RootPageTableHolder}

/-- What a successful `get_kernel_space_fat_pointer` gives: every byte of the
buffer lies below `usize::MAX` on a page the check accepted, and each byte on
the page of the first one translates to the returned address plus its offset. -/
theorem getKernelSpaceFatPointer_eq_ok {ptr elementSize len k : ℕ} {writable : Bool}
    (h : getKernelSpaceFatPointer pageTable ptr elementSize len writable = some (.ok k)) :
    (∀ i < elementSize * len, ptr + i ≤ usizeMax ∧
      pageTable.PageAccessible writable (alignDown (ptr + i) pageSize)) ∧
    ∀ i, ptr / pageSize = (ptr + i) / pageSize →
      pageTable.translateUserspaceAddressToPhysicalAddress (ptr + i) = some (some (k + i)) := by
  unfold getKernelSpaceFatPointer at h
  obtain ⟨valid, hvalid, h⟩ := Option.bind_eq_some_iff.mp h
  cases valid with
  | false => simp at h
  | true =>
      simp only [Bool.not_true, Bool.false_eq_true, if_false] at h
      obtain ⟨translated, htranslated, h⟩ := Option.bind_eq_some_iff.mp h
      cases translated with
      | none => simp at h
      | some k' =>
          simp only [Option.pure_def, Option.some.injEq, Except.ok.injEq] at h
          subst h
          refine ⟨RootPageTableHolder.isValidUserspaceFatPtr_eq_some_true hvalid, fun i hpage => ?_⟩
          have := RootPageTableHolder.translateUserspaceAddressToPhysicalAddress_of_div_eq hpage
            (Nat.le_add_right ptr i) htranslated
          rwa [Nat.add_sub_cancel_left] at this

/-- A buffer over two adjacent user pages with separate backing pages, as two
`mmap_pages` calls leave them, passes the check and comes back as the
physical address of its first byte; the tables send its second page
elsewhere than the page after that one. -/
theorem getKernelSpaceFatPointer_second_page :
    (Machine.run RootPageTableHolder.mapCall RootPageTableHolder.empty
        [⟨0x1000, 0x10000, 0x1000, .readWrite, true⟩,
          ⟨0x2000, 0x30000, 0x1000, .readWrite, true⟩]).map
      (fun pageTable => (getKernelSpaceFatPointer pageTable 0x1000 1 0x2000 false,
        pageTable.translateUserspaceAddressToPhysicalAddress 0x2000)) =
      some (some (.ok 0x10000), some (some 0x30000)) := by
  decide

/-- `Process::read_userspace_slice` of `len` bytes, over the machine's memory
by physical address: `len` bytes from the translation of the first one. -/
def readUserspaceSlice (pageTable : RootPageTableHolder) (memory : ℕ → UInt8) (ptr len : ℕ) :
    Option (Except Errno (List UInt8)) :=
  (getKernelSpaceFatPointer pageTable ptr 1 len false).map fun result =>
    result.map fun k => (List.range len).map fun i => memory (k + i)

/-- `Process::read_userspace_ptr` of a `usize`: the little-endian word at the
translation of its first byte. -/
def readUserspaceUsize (pageTable : RootPageTableHolder) (memory : ℕ → UInt8) (ptr : ℕ) :
    Option (Except Errno ℕ) :=
  (getKernelSpaceFatPointer pageTable ptr 8 1 false).map fun result =>
    result.map fun k => Bytes.decodeLE ((List.range 8).map fun i => memory (k + i))

end Process

/-! ## The address space of a process -/

/-- `PinnedHeapPages`: `count` pages of kernel heap at `addr`, which back one
region of `mmap`. -/
structure PinnedHeapPages where
  addr : ℕ
  count : ℕ
  deriving DecidableEq, Repr

/-- `PinnedHeapPages::size`. -/
def PinnedHeapPages.size (pages : PinnedHeapPages) : ℕ :=
  pages.count * pageSize

/-- `FREE_MMAP_START_ADDRESS`: where the cursor of `mmap_pages` starts. -/
def freeMmapStartAddress : ℕ := 0x2000000000

/-- The fields of `Process` that the memory-management calls read and write:
the page table, `mmap_allocations` (a `BTreeMap` from the start of each region
to its backing pages) and the cursor `free_mmap_address`. -/
structure Process where
  pageTable : RootPageTableHolder
  mmapAllocations : ℕ → Option PinnedHeapPages
  freeMmapAddress : ℕ

namespace Process

/-- `Process::mmap_pages_with_address`: a region of `numPages` pages at the
caller's address, or the null pointer when `is_mapped` finds the range taken.
`backing` is the address of the pages `PinnedHeapPages::new_pages` allocates;
`numPages` comes from a byte length, so `Pages::as_bytes` cannot overflow. -/
def mmapPagesWithAddress (process : Process) (numPages addr : ℕ) (permission : XWRMode)
    (backing : ℕ) : Option (ℕ × Process) := do
  let length := numPages * pageSize
  let rangeEnd ← checkedAdd addr length
  if process.pageTable.isMapped (addr, rangeEnd) then return (0, process)
  let pageTable ← process.pageTable.mapUserspace addr backing length permission
  return (addr, { process with
    pageTable
    mmapAllocations := Function.update process.mmapAllocations addr (some ⟨backing, numPages⟩) })

/-- `Process::mmap_pages`: a region at the cursor, which then moves past it.
Nothing checks that the cursor's range is free: `map` asserts it. -/
def mmapPages (process : Process) (numPages : ℕ) (permission : XWRMode) (backing : ℕ) :
    Option (ℕ × Process) := do
  let length := numPages * pageSize
  let addr := process.freeMmapAddress
  let pageTable ← process.pageTable.mapUserspace addr backing length permission
  let freeMmapAddress ← checkedAdd addr length
  return (addr, ⟨pageTable,
    Function.update process.mmapAllocations addr (some ⟨backing, numPages⟩), freeMmapAddress⟩)

/-- `Process::munmap_pages`: only a whole region of `mmap`, at its own length,
is unmapped; otherwise `EINVAL`, with the allocation put back. -/
def munmapPages (process : Process) (addr length : ℕ) : Option (Except Errno Unit × Process) :=
  match process.mmapAllocations addr with
  | none => some (.error .einval, process)
  | some pages =>
      if pages.size ≠ length then some (.error .einval, process)
      else do
        let pageTable ← process.pageTable.unmapUserspace addr length
        return (.ok (), { process with
          pageTable
          mmapAllocations := Function.update process.mmapAllocations addr none })

end Process

end Solaya
