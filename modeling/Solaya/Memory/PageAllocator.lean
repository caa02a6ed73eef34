import Solaya.Klibc.Util
import Solaya.Core.Machine
import Mathlib.Data.List.Basic

/-!
# The metadata page allocator

`memory::page_allocator::MetadataPageAllocator` keeps one status byte per heap
page.  A run of `n` allocated pages is written as `Used^(n-1) Last`; the `Last`
marker is the only thing that tells `dealloc` where an allocation ends.

The model keeps the metadata as a list, the heap as the address range
`pagesStart .. pagesEnd` and the heap's bytes as a function of the address.
Indexing out of the metadata's bounds is a panic in the source and `none`
here; so are the `assert!`s and `expect`s.
-/

namespace Solaya.PageAllocator

/-- `PageStatus`. -/
inductive PageStatus where
  | free
  | used
  | last
  deriving DecidableEq, Repr

/-- `PageStatus::is_free`. -/
def PageStatus.isFree : PageStatus → Bool
  | .free => true
  | _ => false

@[simp] theorem PageStatus.isFree_free : PageStatus.free.isFree = true := rfl
@[simp] theorem PageStatus.isFree_used : PageStatus.used.isFree = false := rfl
@[simp] theorem PageStatus.isFree_last : PageStatus.last.isFree = false := rfl

/-- The allocator after `init`, with the bytes of the memory its pages lie in.
The heap pages start at a page boundary and every metadata cell has its page
inside the heap; `init` establishes both (`metadata.len() <= heap.len()`), and
nothing changes the page range afterwards. -/
structure MetadataPageAllocator where
  metadata : List PageStatus
  pagesStart : ℕ
  pagesEnd : ℕ
  heap : ℕ → UInt8
  pagesStart_aligned : pagesStart % pageSize = 0
  metadata_fits : pagesStart + metadata.length * pageSize ≤ pagesEnd

namespace MetadataPageAllocator

/-- `total_heap_pages`. -/
def totalHeapPages (a : MetadataPageAllocator) : ℕ :=
  a.metadata.length

/-- `page_idx_to_pointer`: the address of page `pageIndex`; the `NonNull`
`expect` fails on the null address. -/
def pageIdxToPointer (a : MetadataPageAllocator) (pageIndex : ℕ) : Option ℕ :=
  let pointer := a.pagesStart + pageIndex * pageSize
  if pointer = 0 then none else some pointer

theorem pageIdxToPointer_eq_some {a : MetadataPageAllocator} {pageIndex pointer : ℕ}
    (h : a.pageIdxToPointer pageIndex = some pointer) :
    pointer = a.pagesStart + pageIndex * pageSize := by
  unfold pageIdxToPointer at h
  dsimp only at h
  split_ifs at h
  exact (Option.some.inj h).symm

/-- `page_pointer_to_page_idx`: the three assertions, then the offset from the
heap start counted in pages. -/
def pagePointerToPageIdx (a : MetadataPageAllocator) (page : ℕ) : Option ℕ :=
  if a.pagesStart ≤ page ∧ page < a.pagesEnd ∧ page % pageSize = 0 then
    some ((page - a.pagesStart) / pageSize)
  else none

end MetadataPageAllocator

/-- `is_range_free`: `(start..start + n).all(|idx| metadata[idx].is_free())`.
`all` stops at the first page that is not free, so an index past the end only
panics when every page before it was free. -/
def isRangeFree (metadata : List PageStatus) (startIdx : ℕ) : ℕ → Option Bool
  | 0 => some true
  | numberOfPages + 1 =>
      match metadata[startIdx]? with
      | none => none
      | some status =>
          if status.isFree then isRangeFree metadata (startIdx + 1) numberOfPages
          else some false

/-- The metadata writes of `mark_range_as_used`: the pages of the range become
`Used`, the last one `Last`.  Both callers check the range against the
metadata first (`alloc` through its search bound, `init` through
`is_range_free`), so no write falls outside.  The page writes are
`zeroPages`. -/
def markRangeAsUsed (metadata : List PageStatus) (startIdx numberOfPages : ℕ) :
    List PageStatus :=
  metadata.mapIdx fun idx status =>
    if startIdx ≤ idx ∧ idx < startIdx + numberOfPages then
      if idx = startIdx + numberOfPages - 1 then .last else .used
    else status

/-- The page writes of `mark_range_as_used` when `initialize_if_needed` is
set, on the heap's bytes by address: page after page of the range is
overwritten with `MaybeUninit::zeroed()`. -/
def zeroPages (pagesStart : ℕ) (heap : ℕ → UInt8) (startIdx numberOfPages : ℕ) : ℕ → UInt8 :=
  (List.range' startIdx numberOfPages).foldl
    (fun heap idx addr =>
      if pagesStart + idx * pageSize ≤ addr ∧ addr < pagesStart + idx * pageSize + pageSize then 0
      else heap addr)
    heap

/-- The writes zero exactly the bytes of the pages of the range. -/
theorem zeroPages_apply (pagesStart : ℕ) (heap : ℕ → UInt8) (startIdx numberOfPages addr : ℕ) :
    zeroPages pagesStart heap startIdx numberOfPages addr =
      if pagesStart + startIdx * pageSize ≤ addr ∧
          addr < pagesStart + (startIdx + numberOfPages) * pageSize then 0
      else heap addr := by
  induction numberOfPages generalizing startIdx heap with
  | zero =>
    rw [zeroPages, List.range'_zero, List.foldl_nil, Nat.add_zero, if_neg (by omega)]
  | succ n ih =>
    have hfirst : zeroPages pagesStart heap startIdx (n + 1) =
        zeroPages pagesStart (fun addr =>
          if pagesStart + startIdx * pageSize ≤ addr ∧
              addr < pagesStart + startIdx * pageSize + pageSize then 0
          else heap addr) (startIdx + 1) n := by
      rw [zeroPages, zeroPages, List.range'_succ, List.foldl_cons]
    rw [hfirst, ih]
    -- the first page and the rest of the range are adjacent
    unfold pageSize
    split_ifs <;> first | rfl | (exfalso; omega)

theorem isRangeFree_eq_some_true {metadata : List PageStatus} {startIdx numberOfPages : ℕ} :
    isRangeFree metadata startIdx numberOfPages = some true ↔
      ∀ i, startIdx ≤ i → i < startIdx + numberOfPages → metadata[i]? = some .free := by
  induction numberOfPages generalizing startIdx with
  | zero =>
      simp only [isRangeFree, true_iff]
      intro i hle hlt
      omega
  | succ n ih =>
      have hsplit : (∀ i, startIdx ≤ i → i < startIdx + (n + 1) → metadata[i]? = some .free) ↔
          metadata[startIdx]? = some .free ∧
            ∀ i, startIdx + 1 ≤ i → i < startIdx + 1 + n → metadata[i]? = some .free := by
        constructor
        · intro hall
          exact ⟨hall _ le_rfl (by omega), fun i hle hlt => hall i (by omega) (by omega)⟩
        · rintro ⟨hfirst, hrest⟩ i hle hlt
          rcases Nat.eq_or_lt_of_le hle with heq | hgt
          · exact heq ▸ hfirst
          · exact hrest i hgt (by omega)
      rw [hsplit, ← ih]
      cases hcell : metadata[startIdx]? with
      | none => simp [isRangeFree, hcell]
      | some status => cases status <;> simp [isRangeFree, hcell]

@[simp]
theorem length_markRangeAsUsed (metadata : List PageStatus) (startIdx numberOfPages : ℕ) :
    (markRangeAsUsed metadata startIdx numberOfPages).length = metadata.length := by
  simp [markRangeAsUsed]

theorem getElem?_markRangeAsUsed (metadata : List PageStatus) (startIdx numberOfPages i : ℕ) :
    (markRangeAsUsed metadata startIdx numberOfPages)[i]? =
      if startIdx ≤ i ∧ i < startIdx + numberOfPages then
        metadata[i]?.map fun _ => if i = startIdx + numberOfPages - 1 then .last else .used
      else metadata[i]? := by
  simp only [markRangeAsUsed, List.getElem?_mapIdx]
  split_ifs <;> cases metadata[i]? <;> simp_all

/-- The `while` loop of `dealloc` together with the final write: free pages up
to and including the first `Last`, counting them.  Running off the end of the
metadata is an index panic. -/
def freeUntilLast : List PageStatus → Option (List PageStatus × ℕ)
  | [] => none
  | .last :: rest => some (.free :: rest, 1)
  | _ :: rest =>
      (freeUntilLast rest).map fun (rest', count) => (.free :: rest', count + 1)

theorem length_freeUntilLast {cells cells' : List PageStatus} {count : ℕ}
    (h : freeUntilLast cells = some (cells', count)) : cells'.length = cells.length := by
  induction cells generalizing cells' count with
  | nil => simp [freeUntilLast] at h
  | cons status rest ih =>
      cases status with
      | last =>
          simp only [freeUntilLast, Option.some.injEq, Prod.mk.injEq] at h
          obtain ⟨rfl, -⟩ := h
          rfl
      | free | used =>
          simp only [freeUntilLast, Option.map_eq_some_iff, Prod.exists] at h
          obtain ⟨rest', count', hrest, rfl, -⟩ := h
          simp [ih hrest]

/-- On a block `Used^(count-1) Last` the loop frees exactly the block and
counts its pages. -/
theorem freeUntilLast_block {cells : List PageStatus} {count : ℕ} (hpos : 0 < count)
    (hused : ∀ j, j + 1 < count → cells[j]? = some .used)
    (hlast : cells[count - 1]? = some .last) :
    freeUntilLast cells = some (List.replicate count .free ++ cells.drop count, count) := by
  induction count generalizing cells with
  | zero => omega
  | succ k ih =>
      cases cells with
      | nil => simp at hlast
      | cons status rest =>
          rcases Nat.eq_zero_or_pos k with rfl | hk
          · simp only [Nat.zero_add, Nat.sub_self, List.getElem?_cons_zero,
              Option.some.injEq] at hlast
            subst hlast
            simp [freeUntilLast]
          · have hfirst : status = .used := by simpa using hused 0 (by omega)
            subst hfirst
            have hrest := ih hk (fun j hj => by simpa using hused (j + 1) (by omega))
              (by
                have := hlast
                rw [show k + 1 - 1 = (k - 1) + 1 by omega, List.getElem?_cons_succ] at this
                exact this)
            simp [freeUntilLast, hrest, List.replicate_succ]

namespace MetadataPageAllocator

/-- Replace the metadata by a list of the same length. -/
def withMetadata (a : MetadataPageAllocator) (metadata : List PageStatus)
    (hlength : metadata.length = a.metadata.length) : MetadataPageAllocator where
  metadata := metadata
  pagesStart := a.pagesStart
  pagesEnd := a.pagesEnd
  heap := a.heap
  pagesStart_aligned := a.pagesStart_aligned
  metadata_fits := hlength ▸ a.metadata_fits

@[simp] theorem withMetadata_metadata (a : MetadataPageAllocator) (metadata : List PageStatus)
    (h : metadata.length = a.metadata.length) : (a.withMetadata metadata h).metadata = metadata :=
  rfl

@[simp] theorem withMetadata_pagesStart (a : MetadataPageAllocator) (metadata : List PageStatus)
    (h : metadata.length = a.metadata.length) :
    (a.withMetadata metadata h).pagesStart = a.pagesStart :=
  rfl

@[simp] theorem withMetadata_pagesEnd (a : MetadataPageAllocator) (metadata : List PageStatus)
    (h : metadata.length = a.metadata.length) :
    (a.withMetadata metadata h).pagesEnd = a.pagesEnd :=
  rfl

@[simp] theorem withMetadata_heap (a : MetadataPageAllocator) (metadata : List PageStatus)
    (h : metadata.length = a.metadata.length) : (a.withMetadata metadata h).heap = a.heap :=
  rfl

/-- `mark_range_as_used`: the metadata of the range marked, and its pages zeroed
when `initialize_if_needed` is set.  The source zeroes each page through
`page_idx_to_pointer`, whose `expect` fails only for a heap at the null
address; `alloc` reaches the same `expect` right after. -/
def markUsed (a : MetadataPageAllocator) (startIdx numberOfPages : ℕ)
    (initializeIfNeeded : Bool) : MetadataPageAllocator :=
  { a.withMetadata (markRangeAsUsed a.metadata startIdx numberOfPages)
      (length_markRangeAsUsed _ _ _) with
    heap := if initializeIfNeeded then zeroPages a.pagesStart a.heap startIdx numberOfPages
      else a.heap }

/-- `alloc`: first fit over `0..=(total - n)`; the result is the page range
`start..end` as addresses, `none` when no run of `n` free pages exists.  The
outer `Option` is the panic of the `assert!` on `n > 0`. -/
def alloc (a : MetadataPageAllocator) (numberOfPagesRequested : ℕ) :
    Option (MetadataPageAllocator × Option (ℕ × ℕ)) :=
  if numberOfPagesRequested = 0 then none
  else if numberOfPagesRequested > a.totalHeapPages then some (a, none)
  else
    match (List.range (a.totalHeapPages - numberOfPagesRequested + 1)).find?
        (fun idx => isRangeFree a.metadata idx numberOfPagesRequested == some true) with
    | none => some (a, none)
    | some startIdx =>
        let a' := a.markUsed startIdx numberOfPagesRequested true
        match a'.pageIdxToPointer startIdx,
            a'.pageIdxToPointer (startIdx + numberOfPagesRequested) with
        | some first, some past => some (a', some (first, past))
        | _, _ => none

/-- `dealloc`: free the allocation whose first page is `page` and return the
number of pages freed.  The source asserts that the first page is `Used` or
`Last` (double-free detection) and then trusts the `Last` marker. -/
def dealloc (a : MetadataPageAllocator) (page : ℕ) : Option (MetadataPageAllocator × ℕ) := do
  let idx ← a.pagePointerToPageIdx page
  let status ← a.metadata[idx]?
  if status = .free then none
  else
    match hfree : freeUntilLast (a.metadata.drop idx) with
    | none => none
    | some (cells, count) =>
        some (a.withMetadata (a.metadata.take idx ++ cells) (by
          have hlen := length_freeUntilLast hfree
          simp only [List.length_append, List.length_take, hlen, List.length_drop]
          omega), count)

/-- `range_to_start_aligned_and_number_of_pages`: the page index and page count
of the pages an address range touches.  `range.end - start_aligned` and the
rounding in `minimum_amount_of_pages` are `usize` arithmetic, and the aligned
start must not be null. -/
def rangeToStartAlignedAndNumberOfPages (a : MetadataPageAllocator) (range : ℕ × ℕ) :
    Option (ℕ × ℕ) := do
  let startAligned := alignDown range.1 pageSize
  if range.2 < startAligned then none
  else
    let newLength := range.2 - startAligned
    -- `minimum_amount_of_pages` is `align_up(new_length, PAGE_SIZE) / PAGE_SIZE`
    let alignedLength ← alignUpChecked newLength pageSize
    if startAligned = 0 then none
    else
      let startIdx ← a.pagePointerToPageIdx startAligned
      some (startIdx, alignedLength / pageSize)

/-- `mark_pointer_range_as_used_without_initialize`: reserved pages must still
be free when they are marked. -/
def markPointerRangeAsUsedWithoutInitialize (a : MetadataPageAllocator) (range : ℕ × ℕ) :
    Option MetadataPageAllocator := do
  let (startIdx, numberOfPages) ← a.rangeToStartAlignedAndNumberOfPages range
  let free ← isRangeFree a.metadata startIdx numberOfPages
  if free then some (a.markUsed startIdx numberOfPages false) else none

end MetadataPageAllocator

/-- The `memory` slice handed to `init`: a non-null address, a length that
stays inside the address space, and the bytes the memory holds (it comes
uninitialised). -/
structure MemorySlice where
  start : ℕ
  len : ℕ
  contents : ℕ → UInt8
  start_pos : 0 < start
  fits : start + len ≤ usizeMax

/-- The heap part of `init`'s memory: one metadata byte per page at the front,
then the largest page-aligned run of whole pages (`align_to_mut::<Page>`). -/
def heapPagesStart (memory : MemorySlice) : ℕ :=
  alignUp (memory.start + memory.len / (pageSize + 1)) pageSize

/-- The number of whole pages of the heap part. -/
def heapPagesCount (memory : MemorySlice) : ℕ :=
  (memory.start + memory.len - heapPagesStart memory) / pageSize

/-- `init` before the reserved areas: all pages free.  `heap[0]` is an index
panic on an empty heap, and the metadata must not outnumber the heap pages. -/
def initEmpty (memory : MemorySlice) : Option MetadataPageAllocator :=
  let numberOfHeapPages := memory.len / (pageSize + 1)
  if h : numberOfHeapPages ≤ heapPagesCount memory ∧ 0 < heapPagesCount memory then
    some {
      metadata := List.replicate numberOfHeapPages .free
      pagesStart := heapPagesStart memory
      pagesEnd := heapPagesStart memory + heapPagesCount memory * pageSize
      heap := memory.contents
      pagesStart_aligned := alignUp_mod (by decide)
      metadata_fits := by
        simp only [List.length_replicate]
        have := Nat.mul_le_mul_right pageSize h.1
        omega }
  else none

/-- `init`: all pages free, then every reserved area marked used. -/
def init (memory : MemorySlice) (reservedAreas : List (ℕ × ℕ)) :
    Option MetadataPageAllocator := do
  let a ← initEmpty memory
  reservedAreas.foldlM MetadataPageAllocator.markPointerRangeAsUsedWithoutInitialize a

end Solaya.PageAllocator
