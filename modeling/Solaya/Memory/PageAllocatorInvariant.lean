import Solaya.Memory.PageAllocator

/-!
# The representation invariant of the page allocator

The metadata is a concatenation of `Free` cells and blocks `Used^k Last`: no
`Used` cell is followed by a `Free` one or ends the array.  Every live
allocation and every reserved area is one such block, and they are pairwise
disjoint.  `dealloc` relies on this to stop at the right `Last`: on the first
page of a live allocation of `n` pages it frees exactly those `n` pages.

The theorems are stated over every sequence of `alloc` and `dealloc` calls
after `init`, where each `dealloc` receives the first page of an allocation
that is still live (the only contract the source relies on).  The sequence is
tracked by `Tracked`, which records beside the allocator the allocations
handed out and the reserved areas marked by `init`.
-/

namespace Solaya.PageAllocator

/-- No `Used` cell is followed by a `Free` cell or ends the metadata. -/
def WellFormed (metadata : List PageStatus) : Prop :=
  ∀ i, metadata[i]? = some .used →
    metadata[i + 1]? = some .used ∨ metadata[i + 1]? = some .last

/-- Pages `start .. start + count` are exactly one block `Used^(count-1) Last`:
it is not the tail of a block that starts further left. -/
structure IsBlock (metadata : List PageStatus) (start count : ℕ) : Prop where
  count_pos : 0 < count
  le_length : start + count ≤ metadata.length
  used : ∀ i, start ≤ i → i + 1 < start + count → metadata[i]? = some .used
  last : metadata[start + count - 1]? = some .last
  starts : ∀ i, i + 1 = start → metadata[i]? ≠ some .used

/-- Two page ranges `(start, count)` share no page. -/
def BlockDisjoint (left right : ℕ × ℕ) : Prop :=
  left.1 + left.2 ≤ right.1 ∨ right.1 + right.2 ≤ left.1

/-- Every page of the range `start .. start + count` is free. -/
def RangeFree (metadata : List PageStatus) (start count : ℕ) : Prop :=
  ∀ i, start ≤ i → i < start + count → metadata[i]? = some .free

theorem IsBlock.not_free {metadata : List PageStatus} {start count : ℕ}
    (hblock : IsBlock metadata start count) {i : ℕ} (hle : start ≤ i)
    (hlt : i < start + count) : metadata[i]? ≠ some .free := by
  by_cases hlast : i + 1 < start + count
  · rw [hblock.used i hle hlast]
    simp
  · rw [show i = start + count - 1 by omega, hblock.last]
    simp

/-- A block and a range of free pages never overlap. -/
theorem blockDisjoint_of_rangeFree {metadata : List PageStatus} {start count : ℕ}
    {block : ℕ × ℕ} (hblock : IsBlock metadata block.1 block.2)
    (hfree : RangeFree metadata start count) (hpos : 0 < count) :
    BlockDisjoint (start, count) block := by
  by_contra hoverlap
  simp only [BlockDisjoint, not_or, not_le] at hoverlap
  have hblockPos := hblock.count_pos
  have hcommon := hfree (max start block.1) (le_max_left _ _) (by omega)
  exact hblock.not_free (le_max_right _ _) (by omega) hcommon

theorem blockDisjoint_comm {left right : ℕ × ℕ} :
    BlockDisjoint left right ↔ BlockDisjoint right left := by
  simp only [BlockDisjoint]
  exact or_comm

/-- A block survives any change of the metadata that keeps its own pages and
does not turn the page before it into `Used`. -/
theorem IsBlock.of_agree {metadata metadata' : List PageStatus} {start count : ℕ}
    (hblock : IsBlock metadata start count) (hlength : metadata'.length = metadata.length)
    (hagree : ∀ i, start ≤ i → i < start + count → metadata'[i]? = metadata[i]?)
    (hbefore : ∀ i, i + 1 = start → metadata'[i]? ≠ some .used) :
    IsBlock metadata' start count where
  count_pos := hblock.count_pos
  le_length := hlength ▸ hblock.le_length
  used i hle hlt := by
    rw [hagree i hle (by omega)]
    exact hblock.used i hle hlt
  last := by
    have hpos := hblock.count_pos
    rw [hagree _ (by omega) (by omega)]
    exact hblock.last
  starts := hbefore

/-! ## Marking a free range -/

section Mark

variable {metadata : List PageStatus} {start count : ℕ}

theorem getElem?_markRangeAsUsed_of_free (hfree : RangeFree metadata start count) (i : ℕ) :
    (markRangeAsUsed metadata start count)[i]? =
      if start ≤ i ∧ i < start + count then
        some (if i = start + count - 1 then .last else .used)
      else metadata[i]? := by
  rw [getElem?_markRangeAsUsed]
  split_ifs with hin
  · rw [hfree i hin.1 hin.2]
    rfl
  · rw [hfree i hin.1 hin.2]
    rfl
  · rfl

theorem markRangeAsUsed_wellFormed (hwf : WellFormed metadata)
    (hfree : RangeFree metadata start count) :
    WellFormed (markRangeAsUsed metadata start count) := by
  intro i hused
  simp only [getElem?_markRangeAsUsed_of_free hfree] at hused ⊢
  by_cases hin : start ≤ i ∧ i < start + count
  · -- a `Used` page written by the mark is followed by the next page of the run
    rw [if_pos hin] at hused
    have hnotlast : i ≠ start + count - 1 := by
      intro heq
      simp [heq] at hused
    rw [if_pos (by omega)]
    by_cases hend : i + 1 = start + count - 1 <;> simp [hend]
  · rw [if_neg hin] at hused
    -- an old `Used` page cannot be followed by the first page of the free range
    have hnext : ¬(start ≤ i + 1 ∧ i + 1 < start + count) := by
      rintro ⟨hle, hlt⟩
      have hstart : i + 1 = start := by omega
      have hcell := hfree (i + 1) hle hlt
      rcases hwf i hused with h | h <;> simp [h] at hcell
    rw [if_neg hnext]
    exact hwf i hused

theorem markRangeAsUsed_isBlock (hwf : WellFormed metadata)
    (hfree : RangeFree metadata start count) (hpos : 0 < count)
    (hlength : start + count ≤ metadata.length) :
    IsBlock (markRangeAsUsed metadata start count) start count where
  count_pos := hpos
  le_length := by simpa using hlength
  used i hle hlt := by
    rw [getElem?_markRangeAsUsed_of_free hfree, if_pos ⟨hle, by omega⟩, if_neg (by omega)]
  last := by
    rw [getElem?_markRangeAsUsed_of_free hfree, if_pos ⟨by omega, by omega⟩, if_pos rfl]
  starts i hi := by
    rw [getElem?_markRangeAsUsed_of_free hfree, if_neg (by omega)]
    intro hused
    have hcell := hfree start le_rfl (by omega)
    rcases hwf i hused with h | h <;> simp [hi, hcell] at h

theorem IsBlock.markRangeAsUsed {block : ℕ × ℕ} (hblock : IsBlock metadata block.1 block.2)
    (hfree : RangeFree metadata start count) (hpos : 0 < count) :
    IsBlock (markRangeAsUsed metadata start count) block.1 block.2 := by
  have hdisjoint := blockDisjoint_of_rangeFree hblock hfree hpos
  refine hblock.of_agree (by simp) (fun i hle hlt => ?_) (fun i hi => ?_)
  · rw [getElem?_markRangeAsUsed_of_free hfree, if_neg (by simp only [BlockDisjoint] at hdisjoint; omega)]
  · rw [getElem?_markRangeAsUsed_of_free hfree]
    split_ifs with hin hlast
    · simp
    · -- the page before the block would be inside the range, and so would the block's first page
      exfalso
      have hfirst := hfree block.1 (by omega) (by omega)
      exact hblock.not_free le_rfl (by have := hblock.count_pos; omega) hfirst
    · exact hblock.starts i hi

end Mark

/-! ## Freeing a block -/

/-- The metadata after `dealloc` frees `count` pages from `start`. -/
def freeRange (metadata : List PageStatus) (start count : ℕ) : List PageStatus :=
  metadata.take start ++ (List.replicate count .free ++ metadata.drop (start + count))

section Free

variable {metadata : List PageStatus} {start count : ℕ}

@[simp]
theorem length_freeRange (hlength : start + count ≤ metadata.length) :
    (freeRange metadata start count).length = metadata.length := by
  simp only [freeRange, List.length_append, List.length_take, List.length_replicate,
    List.length_drop]
  omega

theorem getElem?_freeRange (hlength : start + count ≤ metadata.length) (i : ℕ) :
    (freeRange metadata start count)[i]? =
      if start ≤ i ∧ i < start + count then some .free else metadata[i]? := by
  simp only [freeRange, List.getElem?_append, List.length_take, List.length_replicate,
    List.getElem?_take, List.getElem?_replicate, List.getElem?_drop]
  have hmin : min start metadata.length = start := by omega
  rw [hmin]
  split_ifs <;> first | rfl | omega | (congr 1; omega)

theorem freeRange_wellFormed (hwf : WellFormed metadata) (hblock : IsBlock metadata start count) :
    WellFormed (freeRange metadata start count) := by
  have hlength := hblock.le_length
  intro i hused
  simp only [getElem?_freeRange hlength] at hused ⊢
  by_cases hin : start ≤ i ∧ i < start + count
  · rw [if_pos hin] at hused
    cases hused
  · rw [if_neg hin] at hused
    -- the page after a surviving `Used` page is not the first page of the block
    have hnext : ¬(start ≤ i + 1 ∧ i + 1 < start + count) := by
      rintro ⟨hle, hlt⟩
      exact hblock.starts i (by omega) hused
    rw [if_neg hnext]
    exact hwf i hused

theorem IsBlock.freeRange {block : ℕ × ℕ} (hblock : IsBlock metadata block.1 block.2)
    (hfreed : IsBlock metadata start count) (hdisjoint : BlockDisjoint (start, count) block) :
    IsBlock (freeRange metadata start count) block.1 block.2 := by
  have hlength := hfreed.le_length
  refine hblock.of_agree (length_freeRange hlength) (fun i hle hlt => ?_) (fun i hi => ?_)
  · rw [getElem?_freeRange hlength, if_neg (by simp only [BlockDisjoint] at hdisjoint; omega)]
  · rw [getElem?_freeRange hlength]
    split_ifs
    · simp
    · exact hblock.starts i hi

end Free

namespace MetadataPageAllocator

/-- `dealloc` on the first page of a block frees exactly that block and returns
its length. -/
theorem dealloc_block (a : MetadataPageAllocator) {start count : ℕ}
    (hblock : IsBlock a.metadata start count) :
    ∃ hlength, a.dealloc (a.pagesStart + start * pageSize) =
      some (a.withMetadata (freeRange a.metadata start count) hlength, count) := by
  have hlen := hblock.le_length
  have hpos := hblock.count_pos
  refine ⟨length_freeRange hlen, ?_⟩
  have hindex : a.pagePointerToPageIdx (a.pagesStart + start * pageSize) = some start := by
    have hfits := a.metadata_fits
    have hpage : start * pageSize + pageSize ≤ a.metadata.length * pageSize := by
      rw [← Nat.succ_mul]
      exact Nat.mul_le_mul_right _ (by omega)
    have haligned : (a.pagesStart + start * pageSize) % pageSize = 0 := by
      simp [Nat.add_mod, a.pagesStart_aligned]
    simp only [pagePointerToPageIdx, haligned, and_true]
    rw [if_pos ⟨by omega, by simp only [pageSize] at hpage hfits ⊢; omega⟩]
    simp [pageSize]
  have hfirst : a.metadata[start]? ≠ some .free := hblock.not_free le_rfl (by omega)
  obtain ⟨status, hstatus⟩ : ∃ status, a.metadata[start]? = some status :=
    Option.ne_none_iff_exists'.mp (by
      intro hnone
      rw [List.getElem?_eq_none_iff] at hnone
      omega)
  have hloop : freeUntilLast (a.metadata.drop start) =
      some (List.replicate count .free ++ (a.metadata.drop start).drop count, count) :=
    freeUntilLast_block hpos
      (fun j hj => by rw [List.getElem?_drop]; exact hblock.used _ (by omega) (by omega))
      (by rw [List.getElem?_drop, show start + (count - 1) = start + count - 1 by omega]
          exact hblock.last)
  have hnotfree : status ≠ .free := by
    rintro rfl
    exact hfirst hstatus
  simp only [dealloc, hindex, hstatus, Option.bind_eq_bind, Option.bind_some, hnotfree,
    if_false]
  split
  · rename_i hnone
    rw [hloop] at hnone
    cases hnone
  · rename_i cells n hsome
    rw [hloop] at hsome
    simp only [Option.some.injEq, Prod.mk.injEq] at hsome
    obtain ⟨rfl, rfl⟩ := hsome
    simp [freeRange, List.drop_drop]

end MetadataPageAllocator

@[simp]
theorem markRangeAsUsed_zero (metadata : List PageStatus) (start : ℕ) :
    markRangeAsUsed metadata start 0 = metadata := by
  apply List.ext_getElem?
  intro i
  rw [getElem?_markRangeAsUsed, if_neg (by omega)]

theorem rangeFree_le_length {metadata : List PageStatus} {start count : ℕ}
    (hfree : RangeFree metadata start count) (hpos : 0 < count) :
    start + count ≤ metadata.length := by
  have hlast := hfree (start + count - 1) (by omega) (by omega)
  have hbound := (List.getElem?_eq_some_iff.mp hlast).1
  omega

/-! ## Sequences of calls -/

/-- A call made on the allocator after `init`. -/
inductive Request where
  | alloc (numberOfPagesRequested : ℕ)
  | dealloc (page : ℕ)

/-- The allocator, the allocations it handed out that were not freed yet, and
the reserved areas `init` marked, each as `(first page index, number of
pages)`. -/
structure Tracked where
  allocator : MetadataPageAllocator
  live : List (ℕ × ℕ)
  reserved : List (ℕ × ℕ)

namespace Tracked

/-- The address of the first page of a tracked range. -/
def firstPage (t : Tracked) (block : ℕ × ℕ) : ℕ :=
  t.allocator.pagesStart + block.1 * pageSize

/-- One call.  `dealloc` is only made on the first page of a live allocation:
that is the whole contract between the allocator and its callers. -/
def step (t : Tracked) : Request → Option Tracked
  | .alloc numberOfPagesRequested =>
      (t.allocator.alloc numberOfPagesRequested).map fun (allocator, result) =>
        { allocator
          live := match result with
            | some (first, _) =>
                ((first - allocator.pagesStart) / pageSize, numberOfPagesRequested) :: t.live
            | none => t.live
          reserved := t.reserved }
  | .dealloc page =>
      match t.live.find? (fun block => t.firstPage block == page) with
      | none => none
      | some block =>
          (t.allocator.dealloc page).map fun (allocator, _) =>
            { allocator, live := t.live.erase block, reserved := t.reserved }

/-- `init`'s marking of one reserved area, recording the pages it covers. -/
def reserve (t : Tracked) (range : ℕ × ℕ) : Option Tracked := do
  let (startIdx, numberOfPages) ← t.allocator.rangeToStartAlignedAndNumberOfPages range
  let allocator ← t.allocator.markPointerRangeAsUsedWithoutInitialize range
  some { allocator, live := t.live,
         reserved := if numberOfPages = 0 then t.reserved
           else (startIdx, numberOfPages) :: t.reserved }

/-- `init`, recording the reserved areas. -/
def init (memory : MemorySlice) (reservedAreas : List (ℕ × ℕ)) : Option Tracked := do
  let allocator ← initEmpty memory
  reservedAreas.foldlM reserve { allocator, live := [], reserved := [] }

end Tracked

/-! ## The invariant -/

/-- The representation invariant of a tracked allocator. -/
structure Inv (t : Tracked) : Prop where
  wellFormed : WellFormed t.allocator.metadata
  blocks : ∀ block ∈ t.live ++ t.reserved, IsBlock t.allocator.metadata block.1 block.2
  disjoint : (t.live ++ t.reserved).Pairwise BlockDisjoint
  pagesStart_pos : 0 < t.allocator.pagesStart

theorem BlockDisjoint.symm {left right : ℕ × ℕ} (h : BlockDisjoint left right) :
    BlockDisjoint right left :=
  blockDisjoint_comm.mp h

/-- Adding a block of free pages to the tracked ranges keeps them a family of
disjoint blocks of the marked metadata. -/
theorem blocks_markRangeAsUsed {metadata : List PageStatus} {ranges : List (ℕ × ℕ)}
    {start count : ℕ} (hwf : WellFormed metadata) (hfree : RangeFree metadata start count)
    (hpos : 0 < count)
    (hblocks : ∀ block ∈ ranges, IsBlock metadata block.1 block.2)
    (hdisjoint : ranges.Pairwise BlockDisjoint) :
    (∀ block ∈ (start, count) :: ranges,
        IsBlock (markRangeAsUsed metadata start count) block.1 block.2) ∧
      ((start, count) :: ranges).Pairwise BlockDisjoint := by
  refine ⟨fun block hmem => ?_, List.pairwise_cons.mpr ⟨fun block hmem => ?_, hdisjoint⟩⟩
  · rcases List.mem_cons.mp hmem with rfl | hmem
    · exact markRangeAsUsed_isBlock hwf hfree hpos (rangeFree_le_length hfree hpos)
    · exact (hblocks block hmem).markRangeAsUsed hfree hpos
  · exact blockDisjoint_of_rangeFree (hblocks block hmem) hfree hpos

namespace MetadataPageAllocator

@[simp] theorem withMetadata_self (a : MetadataPageAllocator)
    (h : a.metadata.length = a.metadata.length) : a.withMetadata a.metadata h = a := by
  cases a
  rfl

@[simp] theorem markUsed_metadata (a : MetadataPageAllocator) (start count : ℕ)
    (zeroing : Bool) :
    (a.markUsed start count zeroing).metadata = markRangeAsUsed a.metadata start count :=
  rfl

@[simp] theorem markUsed_pagesStart (a : MetadataPageAllocator) (start count : ℕ)
    (zeroing : Bool) : (a.markUsed start count zeroing).pagesStart = a.pagesStart :=
  rfl

theorem markUsed_heap (a : MetadataPageAllocator) (start count : ℕ) (zeroing : Bool) :
    (a.markUsed start count zeroing).heap =
      if zeroing then zeroPages a.pagesStart a.heap start count else a.heap :=
  rfl

/-- With `initialize_if_needed`, the bytes of the marked pages become zero and
every other byte stays. -/
theorem markUsed_heap_true (a : MetadataPageAllocator) (start count addr : ℕ) :
    (a.markUsed start count true).heap addr =
      if a.pagesStart + start * pageSize ≤ addr ∧ addr < a.pagesStart + (start + count) * pageSize
      then 0 else a.heap addr := by
  rw [markUsed_heap, if_pos rfl, zeroPages_apply]

/-- What marking a reserved area can do: mark a run of free pages. -/
theorem markPointerRangeAsUsedWithoutInitialize_eq_some {a a' : MetadataPageAllocator}
    {range : ℕ × ℕ} (h : a.markPointerRangeAsUsedWithoutInitialize range = some a') :
    ∃ start count, a.rangeToStartAlignedAndNumberOfPages range = some (start, count) ∧
      RangeFree a.metadata start count ∧ a' = a.markUsed start count false := by
  simp only [markPointerRangeAsUsedWithoutInitialize, Option.bind_eq_bind] at h
  cases hrange : a.rangeToStartAlignedAndNumberOfPages range with
  | none => simp [hrange] at h
  | some range' =>
      obtain ⟨start, count⟩ := range'
      simp only [hrange, Option.bind_some] at h
      cases hfree : isRangeFree a.metadata start count with
      | none => simp [hfree] at h
      | some free =>
          cases free
          · simp [hfree] at h
          · simp only [hfree, Option.bind_some, if_true, Option.some.injEq] at h
            exact ⟨start, count, rfl, isRangeFree_eq_some_true.mp hfree, h.symm⟩

/-- What `alloc` can do: leave the allocator alone and return nothing, or mark
a run of free pages and return its address range. -/
theorem alloc_eq_some {a a' : MetadataPageAllocator} {count : ℕ}
    {result : Option (ℕ × ℕ)} (h : a.alloc count = some (a', result)) :
    (a' = a ∧ result = none) ∨
      ∃ start, 0 < count ∧ RangeFree a.metadata start count ∧ a' = a.markUsed start count true ∧
        ∃ past, result = some (a.pagesStart + start * pageSize, past) := by
  unfold alloc at h
  dsimp only at h
  split_ifs at h with hzero hlarge
  · simp only [Option.some.injEq, Prod.mk.injEq] at h
    exact Or.inl ⟨h.1.symm, h.2.symm⟩
  · split at h
    · simp only [Option.some.injEq, Prod.mk.injEq] at h
      exact Or.inl ⟨h.1.symm, h.2.symm⟩
    · rename_i start hfind
      have hfree : isRangeFree a.metadata start count = some true := by
        have := (List.find?_range_eq_some.mp hfind).1
        simpa using this
      split at h
      · rename_i first past hfirst hpast
        simp only [Option.some.injEq, Prod.mk.injEq] at h
        obtain ⟨rfl, rfl⟩ := h
        refine Or.inr ⟨start, Nat.pos_of_ne_zero hzero, isRangeFree_eq_some_true.mp hfree, rfl,
          past, ?_⟩
        rw [pageIdxToPointer_eq_some hfirst, markUsed_pagesStart]
      · cases h

/-- With a heap that does not start at the null address, every page index
has its address. -/
theorem pageIdxToPointer_of_pos {a : MetadataPageAllocator} (hpos : 0 < a.pagesStart)
    (pageIndex : ℕ) : a.pageIdxToPointer pageIndex = some (a.pagesStart + pageIndex * pageSize) := by
  rw [pageIdxToPointer, if_neg (by omega)]

/-- The test `alloc`'s search makes at a start is the run being free. -/
theorem isRangeFree_beq_iff {metadata : List PageStatus} {start count : ℕ} :
    (isRangeFree metadata start count == some true) = true ↔ RangeFree metadata start count := by
  rw [beq_iff_eq]
  exact isRangeFree_eq_some_true

/-- Without a run of `n` free pages, `alloc(n)` returns `None` and changes
nothing: either `n` exceeds the heap, or the search finds no start. -/
theorem alloc_eq_none_of_forall {a : MetadataPageAllocator} {count : ℕ} (hpos : 0 < count)
    (hnone : ∀ start, ¬RangeFree a.metadata start count) : a.alloc count = some (a, none) := by
  unfold alloc
  rw [if_neg (by omega)]
  split_ifs with hlarge
  · rfl
  · have hfind : (List.range (a.totalHeapPages - count + 1)).find?
        (fun idx => isRangeFree a.metadata idx count == some true) = none := by
      rw [List.find?_range_eq_none]
      intro start _
      rw [Bool.not_eq_true', Bool.eq_false_iff]
      exact fun h => hnone start (isRangeFree_beq_iff.mp h)
    rw [hfind]

/-- `alloc(n)` is first fit: given the lowest start of a run of `n` free pages,
it marks that run and returns its address range.  The search bound
`total - n` is where the last run that fits starts, so no run is missed. -/
theorem alloc_eq_of_least {a : MetadataPageAllocator} {count start : ℕ} (hpos : 0 < count)
    (hstart : 0 < a.pagesStart) (hfree : RangeFree a.metadata start count)
    (hleast : ∀ earlier < start, ¬RangeFree a.metadata earlier count) :
    a.alloc count = some (a.markUsed start count true,
      some (a.pagesStart + start * pageSize, a.pagesStart + (start + count) * pageSize)) := by
  have hfits := rangeFree_le_length hfree hpos
  have hfind : (List.range (a.totalHeapPages - count + 1)).find?
      (fun idx => isRangeFree a.metadata idx count == some true) = some start := by
    rw [List.find?_range_eq_some]
    refine ⟨isRangeFree_beq_iff.mpr hfree, List.mem_range.mpr ?_, fun earlier hearlier => ?_⟩
    · unfold totalHeapPages
      omega
    · rw [Bool.not_eq_true', Bool.eq_false_iff]
      exact fun h => hleast earlier hearlier (isRangeFree_beq_iff.mp h)
  unfold alloc
  rw [if_neg (by omega), if_neg (by unfold totalHeapPages; omega), hfind]
  simp only [pageIdxToPointer_of_pos (show 0 < (a.markUsed start count true).pagesStart from hstart),
    markUsed_pagesStart]

end MetadataPageAllocator

namespace Tracked

theorem inv_initial {memory : MemorySlice} {a : MetadataPageAllocator}
    (h : initEmpty memory = some a) : Inv { allocator := a, live := [], reserved := [] } := by
  unfold initEmpty at h
  dsimp only at h
  split_ifs at h
  simp only [Option.some.injEq] at h
  subst h
  refine ⟨fun i hused => ?_, by simp, by simp, ?_⟩
  · simp [List.getElem?_replicate] at hused
  · calc 0 < memory.start := memory.start_pos
      _ ≤ memory.start + memory.len / (pageSize + 1) := Nat.le_add_right _ _
      _ ≤ heapPagesStart memory := le_alignUp (by decide)

/-- A tracked range list with a new range in front of the reserved areas is a
permutation of the list with the new range first. -/
theorem pairwise_middle {live reserved : List (ℕ × ℕ)} {block : ℕ × ℕ} :
    (live ++ block :: reserved).Pairwise BlockDisjoint ↔
      (block :: (live ++ reserved)).Pairwise BlockDisjoint :=
  List.Perm.pairwise_iff (fun h => h.symm) List.perm_middle

theorem inv_reserve {t t' : Tracked} {range : ℕ × ℕ} (hinv : Inv t)
    (h : t.reserve range = some t') : Inv t' := by
  simp only [reserve, Option.bind_eq_bind] at h
  cases hrange : t.allocator.rangeToStartAlignedAndNumberOfPages range with
  | none => simp [hrange] at h
  | some range' =>
      obtain ⟨start, count⟩ := range'
      cases hmark : t.allocator.markPointerRangeAsUsedWithoutInitialize range with
      | none => simp [hrange, hmark] at h
      | some a' =>
          simp only [hrange, hmark, Option.bind_some, Option.some.injEq] at h
          subst h
          obtain ⟨start', count', hrange', hfree, rfl⟩ :=
            MetadataPageAllocator.markPointerRangeAsUsedWithoutInitialize_eq_some hmark
          rw [hrange] at hrange'
          simp only [Option.some.injEq, Prod.mk.injEq] at hrange'
          obtain ⟨rfl, rfl⟩ := hrange'
          by_cases hzero : count = 0
          · -- an empty area marks nothing
            subst hzero
            simpa [MetadataPageAllocator.markUsed] using hinv
          · obtain ⟨hblocks, hdisjoint⟩ := blocks_markRangeAsUsed hinv.wellFormed hfree
              (Nat.pos_of_ne_zero hzero) hinv.blocks hinv.disjoint
            refine ⟨markRangeAsUsed_wellFormed hinv.wellFormed hfree, fun block hmem => ?_,
              ?_, hinv.pagesStart_pos⟩
            · simp only [hzero, if_false] at hmem ⊢
              apply hblocks
              rcases List.mem_append.mp hmem with hlive | hnew
              · exact List.mem_cons_of_mem _ (List.mem_append_left _ hlive)
              · rcases List.mem_cons.mp hnew with rfl | hres
                · exact List.mem_cons_self
                · exact List.mem_cons_of_mem _ (List.mem_append_right _ hres)
            · simp only [hzero, if_false]
              exact pairwise_middle.mpr hdisjoint

theorem inv_foldlM_reserve {reservedAreas : List (ℕ × ℕ)} :
    ∀ {t t' : Tracked}, Inv t → reservedAreas.foldlM reserve t = some t' → Inv t' := by
  induction reservedAreas with
  | nil =>
      intro t t' hinv h
      cases h
      exact hinv
  | cons range rest ih =>
      intro t t' hinv h
      simp only [List.foldlM_cons, Option.bind_eq_bind] at h
      cases hres : t.reserve range with
      | none => simp [hres] at h
      | some t₁ =>
          rw [hres, Option.bind_some] at h
          exact ih (inv_reserve hinv hres) h

theorem inv_init {memory : MemorySlice} {reservedAreas : List (ℕ × ℕ)} {t : Tracked}
    (h : init memory reservedAreas = some t) : Inv t := by
  simp only [init, Option.bind_eq_bind] at h
  cases hempty : initEmpty memory with
  | none => simp [hempty] at h
  | some a =>
      rw [hempty, Option.bind_some] at h
      exact inv_foldlM_reserve (inv_initial hempty) h

theorem inv_alloc {t t' : Tracked} {count : ℕ} (hinv : Inv t)
    (h : t.step (.alloc count) = some t') : Inv t' := by
  simp only [step, Option.map_eq_some_iff] at h
  obtain ⟨⟨a', result⟩, halloc, rfl⟩ := h
  rcases MetadataPageAllocator.alloc_eq_some halloc with
    ⟨rfl, rfl⟩ | ⟨start, hpos, hfree, rfl, past, rfl⟩
  · exact hinv
  · -- the new allocation is the block just marked, recorded by its first page
    have hindex : (t.allocator.pagesStart + start * pageSize - t.allocator.pagesStart) / pageSize =
        start := by
      rw [Nat.add_sub_cancel_left, Nat.mul_div_cancel _ (by decide)]
    obtain ⟨hblocks, hdisjoint⟩ := blocks_markRangeAsUsed hinv.wellFormed hfree hpos
      hinv.blocks hinv.disjoint
    refine ⟨markRangeAsUsed_wellFormed hinv.wellFormed hfree, ?_, ?_, hinv.pagesStart_pos⟩
    · simpa only [MetadataPageAllocator.markUsed_pagesStart, hindex, List.cons_append,
        MetadataPageAllocator.markUsed_metadata] using hblocks
    · simpa only [MetadataPageAllocator.markUsed_pagesStart, hindex, List.cons_append]
        using hdisjoint

theorem inv_dealloc {t t' : Tracked} {page : ℕ} (hinv : Inv t)
    (h : t.step (.dealloc page) = some t') : Inv t' := by
  simp only [step] at h
  split at h
  · cases h
  · rename_i block hfind
    have hmem := List.mem_of_find?_eq_some hfind
    have hpage : t.firstPage block = page := by simpa using List.find?_some hfind
    have hblock := hinv.blocks block (List.mem_append_left _ hmem)
    obtain ⟨hlength, hdealloc⟩ := t.allocator.dealloc_block hblock
    rw [← hpage, firstPage, hdealloc, Option.map_some, Option.some.injEq] at h
    subst h
    -- the freed block is disjoint from every range that stays tracked
    have hperm : (t.live ++ t.reserved).Perm (block :: (t.live.erase block ++ t.reserved)) :=
      (List.perm_cons_erase hmem).append_right _
    obtain ⟨hseparate, hrest⟩ :=
      List.pairwise_cons.mp ((hperm.pairwise_iff (fun h => h.symm)).mp hinv.disjoint)
    refine ⟨freeRange_wellFormed hinv.wellFormed hblock, fun other hother => ?_, hrest,
      hinv.pagesStart_pos⟩
    have hold : other ∈ t.live ++ t.reserved :=
      hperm.symm.subset (List.mem_cons_of_mem _ hother)
    exact (hinv.blocks other hold).freeRange hblock (hseparate other hother)

theorem inv_step {t t' : Tracked} {request : Request} (hinv : Inv t)
    (h : t.step request = some t') : Inv t' := by
  cases request with
  | alloc count => exact inv_alloc hinv h
  | dealloc page => exact inv_dealloc hinv h

end Tracked

/-- The page allocator's representation invariant.  After `init` with any
memory and any reserved areas, and any sequence of `alloc` and `dealloc` calls
in which each `dealloc` receives the first page of a live allocation: the
metadata is made of `Free` cells and blocks `Used^k Last`, every live
allocation and every reserved area is exactly one such block (of the `n` pages
`alloc(n)` returned), they are pairwise disjoint, and `dealloc` on a live
allocation returns its `n`, frees exactly its pages and leaves every other cell
as it was. -/
theorem pageAllocator_invariant {memory : MemorySlice} {reservedAreas : List (ℕ × ℕ)}
    {t₀ t : Tracked} (hinit : Tracked.init memory reservedAreas = some t₀)
    (hreach : Machine.Reachable Tracked.step t₀ t) :
    Inv t ∧ ∀ block ∈ t.live, ∃ a', t.allocator.dealloc (t.firstPage block) = some (a', block.2) ∧
      ∀ i, a'.metadata[i]? =
        if block.1 ≤ i ∧ i < block.1 + block.2 then some .free else t.allocator.metadata[i]? := by
  have hinv : Inv t := Machine.Reachable.induction Inv (Tracked.inv_init hinit)
    (fun _ _ _ hs hstep => Tracked.inv_step hs hstep) hreach
  refine ⟨hinv, fun block hmem => ?_⟩
  have hblock := hinv.blocks block (List.mem_append_left _ hmem)
  obtain ⟨hlength, hdealloc⟩ := t.allocator.dealloc_block hblock
  exact ⟨_, hdealloc, getElem?_freeRange hblock.le_length⟩

/-- Eight pages of memory at address `0xa000`, as in the source's unit tests:
seven metadata bytes and seven heap pages from `0xb000`, every byte filled
with the tests' `MEMORY_PATTERN`. -/
def testMemory : MemorySlice :=
  ⟨0xa000, 8 * pageSize, fun _ => 0x42, by decide, by decide⟩

/-- The run of the source's `metadata_integrity` test: allocations of one, two
and three pages, then the two-page allocation freed. -/
theorem pageAllocator_invariant_metadata_integrity :
    ∃ t₀ t, Tracked.init testMemory [] = some t₀ ∧
      Machine.run Tracked.step t₀ [.alloc 1, .alloc 2, .alloc 3, .dealloc 0xc000] = some t ∧
      (Inv t ∧ ∀ block ∈ t.live, ∃ a', t.allocator.dealloc (t.firstPage block) =
        some (a', block.2) ∧ ∀ i, a'.metadata[i]? =
          if block.1 ≤ i ∧ i < block.1 + block.2 then some .free else t.allocator.metadata[i]?) := by
  have hruns : ((Tracked.init testMemory []).bind fun t₀ =>
      Machine.run Tracked.step t₀ [.alloc 1, .alloc 2, .alloc 3, .dealloc 0xc000]).isSome := by
    decide
  cases hinit : Tracked.init testMemory [] with
  | none => simp [hinit] at hruns
  | some t₀ =>
      cases hrun : Machine.run Tracked.step t₀ [.alloc 1, .alloc 2, .alloc 3, .dealloc 0xc000] with
      | none => simp [hinit, hrun] at hruns
      | some t =>
          exact ⟨t₀, t, rfl, hrun,
            pageAllocator_invariant hinit (Machine.Reachable.of_run hrun)⟩

/-- The metadata page allocator is complete and first fit.  In every state
reachable after `init`, for every `n > 0`: `alloc(n)` returns `None` exactly
when no `n` consecutive pages are free, and otherwise returns the `n` pages
from the lowest start of such a run, marked used, with every byte of them
zeroed and every other byte of memory as it was. -/
theorem alloc_first_fit {memory : MemorySlice} {reservedAreas : List (ℕ × ℕ)} {t₀ t : Tracked}
    (hinit : Tracked.init memory reservedAreas = some t₀)
    (hreach : Machine.Reachable Tracked.step t₀ t) {n : ℕ} (hn : 0 < n) :
    (t.allocator.alloc n = some (t.allocator, none) ↔
        ∀ start, ¬RangeFree t.allocator.metadata start n) ∧
      ∀ start, RangeFree t.allocator.metadata start n →
        (∀ earlier < start, ¬RangeFree t.allocator.metadata earlier n) →
        ∃ a', t.allocator.alloc n = some (a', some (t.allocator.pagesStart + start * pageSize,
            t.allocator.pagesStart + (start + n) * pageSize)) ∧
          a'.metadata = markRangeAsUsed t.allocator.metadata start n ∧
          ∀ addr, a'.heap addr =
            if t.allocator.pagesStart + start * pageSize ≤ addr ∧
                addr < t.allocator.pagesStart + (start + n) * pageSize then 0
            else t.allocator.heap addr := by
  have hinv : Inv t := Machine.Reachable.induction Inv (Tracked.inv_init hinit)
    (fun _ _ _ hs hstep => Tracked.inv_step hs hstep) hreach
  have hfound : ∀ start, RangeFree t.allocator.metadata start n →
      (∀ earlier < start, ¬RangeFree t.allocator.metadata earlier n) →
      t.allocator.alloc n = some (t.allocator.markUsed start n true,
        some (t.allocator.pagesStart + start * pageSize,
          t.allocator.pagesStart + (start + n) * pageSize)) :=
    fun start hfree hleast =>
      MetadataPageAllocator.alloc_eq_of_least hn hinv.pagesStart_pos hfree hleast
  refine ⟨⟨fun hnone start hfree => ?_, MetadataPageAllocator.alloc_eq_none_of_forall hn⟩,
    fun start hfree hleast => ⟨_, hfound start hfree hleast, rfl,
      MetadataPageAllocator.markUsed_heap_true _ start n⟩⟩
  -- a run exists, so there is a lowest one, and `alloc` returns it
  classical
  have hexists : ∃ start, RangeFree t.allocator.metadata start n := ⟨start, hfree⟩
  rw [hfound (Nat.find hexists) (Nat.find_spec hexists)
    (fun earlier h => Nat.find_min hexists h)] at hnone
  rw [Option.some.injEq, Prod.mk.injEq] at hnone
  exact Option.some_ne_none _ hnone.2

/-- On the source tests' eight pages after `init`, one free page is found at
index `0`. -/
theorem alloc_first_fit_testMemory :
    ∃ t₀, Tracked.init testMemory [] = some t₀ ∧ 0 < 1 ∧
      ((t₀.allocator.alloc 1 = some (t₀.allocator, none) ↔
          ∀ start, ¬RangeFree t₀.allocator.metadata start 1) ∧
        ∀ start, RangeFree t₀.allocator.metadata start 1 →
          (∀ earlier < start, ¬RangeFree t₀.allocator.metadata earlier 1) →
          ∃ a', t₀.allocator.alloc 1 = some (a', some (t₀.allocator.pagesStart + start * pageSize,
              t₀.allocator.pagesStart + (start + 1) * pageSize)) ∧
            a'.metadata = markRangeAsUsed t₀.allocator.metadata start 1 ∧
            ∀ addr, a'.heap addr =
              if t₀.allocator.pagesStart + start * pageSize ≤ addr ∧
                  addr < t₀.allocator.pagesStart + (start + 1) * pageSize then 0
              else t₀.allocator.heap addr) := by
  cases hinit : Tracked.init testMemory [] with
  | none => exact absurd hinit (by decide)
  | some t₀ =>
    exact ⟨t₀, rfl, Nat.one_pos, alloc_first_fit hinit Machine.Reachable.refl Nat.one_pos⟩

end Solaya.PageAllocator
