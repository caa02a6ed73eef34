import Solaya.Memory.PageAllocatorInvariant

/-!
# The kernel heap

`memory::heap::Heap` serves small layouts from a singly linked list of free
blocks and passes a layout of a page or more, or one aligned above
`DATA_ALIGNMENT`, to the page allocator.  A free block's header (its `next`
pointer and its size) sits at the block's own address, and that address is
also the pointer `alloc` returns.  The list is the chain from
`genesis_block.next`, kept here in order as a list of blocks; the page
allocator is a parameter, as the source's `Allocator` type parameter is.

Small blocks come from 8-aligned splits of page-aligned runs, so a small
allocation is 8-aligned; a page-allocator allocation is aligned to a page and
to nothing more.  Every layout aligned to at most a page therefore gets an
aligned pointer (`alloc_aligned`), and a layout aligned above a page need not.
-/

namespace Solaya

/-- The `PageAllocator` trait: `alloc(n)` hands out a run of `n` pages as the
address range `start..end`, or nothing; `dealloc(page)` frees the run that
starts at `page` and returns its length in pages.  `none` is a panic in the
allocator. -/
class PageAllocator (σ : Type) where
  alloc : σ → ℕ → Option (σ × Option (ℕ × ℕ))
  dealloc : σ → ℕ → Option (σ × ℕ)

/-- What the heap needs of its page allocator: every run it hands out starts
at a page boundary. -/
class LawfulPageAllocator (σ : Type) [PageAllocator σ] : Prop where
  alloc_aligned : ∀ {s s' : σ} {n start past : ℕ},
    PageAllocator.alloc s n = some (s', some (start, past)) → start % pageSize = 0

/-- `StaticPageAllocator`: the global `MetadataPageAllocator` under its lock. -/
instance : PageAllocator PageAllocator.MetadataPageAllocator where
  alloc a n := a.alloc n
  dealloc a page := a.dealloc page

instance : LawfulPageAllocator PageAllocator.MetadataPageAllocator where
  alloc_aligned {a _ _ start _} h := by
    rcases PageAllocator.MetadataPageAllocator.alloc_eq_some h with
      ⟨-, hnone⟩ | ⟨idx, -, -, -, past, hresult⟩
    · cases hnone
    · obtain ⟨rfl, -⟩ := Prod.mk.inj (Option.some.inj hresult)
      rw [Nat.add_mul_mod_self_right]
      exact a.pagesStart_aligned

/-- `core::alloc::Layout`: a size and a power-of-two alignment. -/
@[ext]
structure Layout where
  size : ℕ
  align : ℕ
  align_pow : ∃ k, align = 2 ^ k

instance : DecidableEq Layout := fun a b =>
  decidable_of_iff (a.size = b.size ∧ a.align = b.align) Layout.ext_iff.symm

/-- An alignment up to a power of two divides it. -/
theorem Layout.align_dvd (layout : Layout) {n : ℕ} (h : layout.align ≤ 2 ^ n) :
    layout.align ∣ 2 ^ n := by
  obtain ⟨k, hk⟩ := layout.align_pow
  rw [hk] at h ⊢
  exact Nat.pow_dvd_pow 2 ((Nat.pow_le_pow_iff_right (by decide)).mp h)

/-- A block on the free list: its address, where its header sits, and the size
its header records. -/
structure FreeBlock where
  addr : ℕ
  size : ℕ
  deriving DecidableEq, Repr

namespace FreeBlock

/-- `FreeBlock::METADATA_SIZE`: the `next` pointer and the size. -/
def metadataSize : ℕ := 16

/-- `FreeBlock::DATA_ALIGNMENT`: `align_of::<usize>()`. -/
def dataAlignment : ℕ := 8

/-- `FreeBlock::MINIMUM_SIZE`. -/
def minimumSize : ℕ := metadataSize + dataAlignment

end FreeBlock

open FreeBlock

namespace AlignedSizeWithMetadata

/-- `AlignedSizeWithMetadata::from_layout`, whose `assert!` admits alignments
up to `DATA_ALIGNMENT` only. -/
def fromLayout (layout : Layout) : Option ℕ :=
  if layout.align ≤ dataAlignment then
    some (alignUp (max layout.size minimumSize) dataAlignment)
  else none

/-- `AlignedSizeWithMetadata::from_pages`. -/
def fromPages (pages : ℕ) : ℕ :=
  alignUp (pages * pageSize) dataAlignment

/-- `get_remaining_size`, with its `assert!`. -/
def getRemainingSize (size neededSize : ℕ) : Option ℕ :=
  if neededSize + minimumSize ≤ size then some (size - neededSize) else none

end AlignedSizeWithMetadata

namespace FreeBlock

/-- `FreeBlock::initialize`, renamed as `initialize` is a Lean keyword: the
size must hold a header and keep the data alignment. -/
def initializeBlock (blockPtr size : ℕ) : Option FreeBlock :=
  if minimumSize ≤ size ∧ dataAlignment ≤ size ∧ size % dataAlignment = 0 then
    some ⟨blockPtr, size⟩
  else none

/-- `FreeBlock::split`: the part of the block after `requestedSize` becomes a
new block, which is returned.  The source also writes `requestedSize` into the
old header; that block leaves the free list, so nothing reads it again. -/
def split (block : FreeBlock) (requestedSize : ℕ) : Option FreeBlock :=
  if requestedSize + minimumSize ≤ block.size ∧ requestedSize % dataAlignment = 0 then do
    let remainingSize ← AlignedSizeWithMetadata.getRemainingSize block.size requestedSize
    if remainingSize % dataAlignment = 0 then
      initializeBlock (block.addr + requestedSize) remainingSize
    else none
  else none

/-- What the free list keeps of a block: room for a header, the data
alignment, and an aligned address. -/
structure WellFormed (block : FreeBlock) : Prop where
  size_ge : minimumSize ≤ block.size
  size_aligned : block.size % dataAlignment = 0
  addr_aligned : block.addr % dataAlignment = 0

theorem initializeBlock_eq_some {blockPtr size : ℕ} {block : FreeBlock}
    (h : initializeBlock blockPtr size = some block) :
    block = ⟨blockPtr, size⟩ ∧ minimumSize ≤ size ∧ size % dataAlignment = 0 := by
  unfold initializeBlock at h
  split_ifs at h with hsize
  exact ⟨(Option.some.inj h).symm, hsize.1, hsize.2.2⟩

theorem split_eq_some {block newBlock : FreeBlock} {requestedSize : ℕ}
    (h : block.split requestedSize = some newBlock) :
    newBlock = ⟨block.addr + requestedSize, block.size - requestedSize⟩ ∧
      requestedSize % dataAlignment = 0 ∧ minimumSize ≤ block.size - requestedSize ∧
      (block.size - requestedSize) % dataAlignment = 0 := by
  unfold split at h
  split_ifs at h with hfits
  obtain ⟨remaining, hremaining, h⟩ := Option.bind_eq_some_iff.mp h
  unfold AlignedSizeWithMetadata.getRemainingSize at hremaining
  split_ifs at hremaining
  cases hremaining
  split_ifs at h
  obtain ⟨rfl, hmin, haligned⟩ := initializeBlock_eq_some h
  exact ⟨rfl, hfits.2, hmin, haligned⟩

/-- The tail `split` cuts off an aligned block is well formed. -/
theorem WellFormed.split {block newBlock : FreeBlock} {requestedSize : ℕ}
    (hblock : block.addr % dataAlignment = 0) (h : block.split requestedSize = some newBlock) :
    newBlock.WellFormed := by
  obtain ⟨rfl, hrequested, hmin, haligned⟩ := split_eq_some h
  refine ⟨hmin, haligned, ?_⟩
  unfold dataAlignment at hblock hrequested ⊢
  dsimp only
  omega

end FreeBlock

theorem AlignedSizeWithMetadata.fromLayout_eq_some {layout : Layout} {size : ℕ}
    (h : AlignedSizeWithMetadata.fromLayout layout = some size) :
    layout.align ≤ dataAlignment ∧ minimumSize ≤ size ∧ size % dataAlignment = 0 := by
  unfold fromLayout at h
  split_ifs at h with halign
  cases h
  exact ⟨halign, (le_max_right _ _).trans (le_alignUp (by decide)), alignUp_mod (by decide)⟩

/-- `Heap`: the free list, the page allocator and `allocated_memory`. -/
structure Heap (σ : Type) where
  freeList : List FreeBlock
  allocator : σ
  allocatedMemory : ℕ

namespace Heap

variable {σ : Type}

/-- `Heap::new` on a page allocator. -/
def new (allocator : σ) : Heap σ :=
  ⟨[], allocator, 0⟩

/-- `is_page_allocator_allocation`. -/
def isPageAllocatorAllocation (layout : Layout) : Bool :=
  decide (pageSize ≤ layout.size) || decide (dataAlignment < layout.align)

/-- `insert`: push a block at the head of the list.  Its `assert!` that the
block's `next` is empty holds for every block the heap inserts, each written
fresh just before. -/
def insert (heap : Heap σ) (block : FreeBlock) : Heap σ :=
  { heap with freeList := block :: heap.freeList }

/-- `find_and_remove`: unlink the first block whose size is at least
`requestedSize`. -/
def findAndRemove (requestedSize : ℕ) : List FreeBlock → Option (FreeBlock × List FreeBlock)
  | [] => none
  | block :: rest =>
      if block.size < requestedSize then
        (findAndRemove requestedSize rest).map fun (found, rest') => (found, block :: rest')
      else some (block, rest)

/-- `split_if_necessary`: split off and insert the tail when it can hold a
block. -/
def splitIfNecessary (heap : Heap σ) (block : FreeBlock) (requestedSize : ℕ) : Option (Heap σ) :=
  if requestedSize ≤ block.size then
    if block.size - requestedSize < minimumSize then some heap
    else (block.split requestedSize).map heap.insert
  else none

/-- The end of `alloc` once it holds a block: split off what is not needed,
count the requested size and hand out the block's address. -/
def allocFromBlock (heap : Heap σ) (block : FreeBlock) (requestedSize : ℕ) :
    Option (Heap σ × ℕ) := do
  let heap ← heap.splitIfNecessary block requestedSize
  let allocatedMemory ← checkedAdd heap.allocatedMemory requestedSize
  return ({ heap with allocatedMemory }, block.addr)

section Calls

variable [PageAllocator σ]

/-- `alloc`; the pointer `0` is `null_mut()`, returned when the page allocator
has no run. -/
def alloc (heap : Heap σ) (layout : Layout) : Option (Heap σ × ℕ) :=
  if isPageAllocatorAllocation layout then do
    let pages := minimumAmountOfPages layout.size
    let (allocator, allocation) ← PageAllocator.alloc heap.allocator pages
    match allocation with
    | some (start, _) =>
        let allocatedMemory ← checkedAdd heap.allocatedMemory (pages * pageSize)
        return ({ heap with allocator, allocatedMemory }, start)
    | none => return ({ heap with allocator }, 0)
  else do
    let requestedSize ← AlignedSizeWithMetadata.fromLayout layout
    match findAndRemove requestedSize heap.freeList with
    | some (block, freeList) => allocFromBlock { heap with freeList } block requestedSize
    | none =>
        let pages := minimumAmountOfPages requestedSize
        let (allocator, allocation) ← PageAllocator.alloc heap.allocator pages
        match allocation with
        | none => return ({ heap with allocator }, 0)
        | some (start, _) =>
            let block ← initializeBlock start (AlignedSizeWithMetadata.fromPages pages)
            allocFromBlock { heap with allocator } block requestedSize

/-- `dealloc`: a page-allocator allocation goes back to the page allocator;
any other becomes a free block of the size its layout asks for. -/
def dealloc (heap : Heap σ) (ptr : ℕ) (layout : Layout) : Option (Heap σ) :=
  if ptr = 0 then none
  else if isPageAllocatorAllocation layout then do
    let (allocator, pages) ← PageAllocator.dealloc heap.allocator ptr
    let allocatedMemory ← checkedSub heap.allocatedMemory (pages * pageSize)
    return { heap with allocator, allocatedMemory }
  else do
    let size ← AlignedSizeWithMetadata.fromLayout layout
    let heap := heap.insert ⟨ptr, size⟩
    let allocatedMemory ← checkedSub heap.allocatedMemory size
    return { heap with allocatedMemory }

end Calls

/-! ## The free list and alignment -/

/-- Every block on the free list is well formed. -/
def FreeListWellFormed (heap : Heap σ) : Prop :=
  ∀ block ∈ heap.freeList, block.WellFormed

variable {heap heap' : Heap σ} {layout : Layout} {ptr : ℕ}

theorem freeListWellFormed_new (allocator : σ) : (new allocator).FreeListWellFormed := by
  simp [FreeListWellFormed, new]

/-- `find_and_remove` unlinks a block that is large enough and keeps the
others. -/
theorem findAndRemove_eq_some {requestedSize : ℕ} {blocks rest : List FreeBlock}
    {block : FreeBlock} (h : findAndRemove requestedSize blocks = some (block, rest)) :
    requestedSize ≤ block.size ∧ (block :: rest).Perm blocks := by
  induction blocks generalizing rest with
  | nil => cases h
  | cons head tail ih =>
      unfold findAndRemove at h
      split_ifs at h with hsmall
      · -- the head is too small and stays in front of what the search leaves
        obtain ⟨⟨found, rest'⟩, hfind, hpair⟩ := Option.map_eq_some_iff.mp h
        simp only [Prod.mk.injEq] at hpair
        obtain ⟨rfl, rfl⟩ := hpair
        obtain ⟨hsize, hperm⟩ := ih hfind
        exact ⟨hsize, (List.Perm.swap head found rest').trans (hperm.cons head)⟩
      · simp only [Option.some.injEq, Prod.mk.injEq] at h
        obtain ⟨rfl, rfl⟩ := h
        exact ⟨Nat.le_of_not_lt hsmall, List.Perm.refl _⟩

theorem splitIfNecessary_eq_some {block : FreeBlock} {requestedSize : ℕ}
    (h : heap.splitIfNecessary block requestedSize = some heap') :
    requestedSize ≤ block.size ∧ (heap' = heap ∨
      ∃ newBlock, block.split requestedSize = some newBlock ∧ heap' = heap.insert newBlock) := by
  unfold splitIfNecessary at h
  split_ifs at h with hle
  · exact ⟨hle, .inl (Option.some.inj h).symm⟩
  · obtain ⟨newBlock, hsplit, rfl⟩ := Option.map_eq_some_iff.mp h
    exact ⟨hle, .inr ⟨newBlock, hsplit, rfl⟩⟩

/-- The end of `alloc` hands out the block's address and adds to the free list
at most the tail split off it. -/
theorem allocFromBlock_eq_some {block : FreeBlock} {requestedSize : ℕ}
    (h : heap.allocFromBlock block requestedSize = some (heap', ptr)) :
    ptr = block.addr ∧ requestedSize ≤ block.size ∧ (heap'.freeList = heap.freeList ∨
      ∃ newBlock, block.split requestedSize = some newBlock ∧
        heap'.freeList = newBlock :: heap.freeList) := by
  obtain ⟨heap₁, hsplit, h⟩ := Option.bind_eq_some_iff.mp h
  obtain ⟨allocatedMemory, -, h⟩ := Option.bind_eq_some_iff.mp h
  simp only [pure, Option.some.injEq, Prod.mk.injEq] at h
  obtain ⟨rfl, rfl⟩ := h
  obtain ⟨hle, rfl | ⟨newBlock, hnew, rfl⟩⟩ := splitIfNecessary_eq_some hsplit
  · exact ⟨rfl, hle, .inl rfl⟩
  · exact ⟨rfl, hle, .inr ⟨newBlock, hnew, rfl⟩⟩

theorem FreeListWellFormed.allocFromBlock {block : FreeBlock} {requestedSize : ℕ}
    (hwf : heap.FreeListWellFormed) (hblock : block.addr % dataAlignment = 0)
    (h : heap.allocFromBlock block requestedSize = some (heap', ptr)) :
    heap'.FreeListWellFormed := by
  obtain ⟨-, -, hsame | ⟨newBlock, hsplit, hlist⟩⟩ := allocFromBlock_eq_some h
  · intro b hb
    rw [hsame] at hb
    exact hwf b hb
  · intro b hb
    rw [hlist, List.mem_cons] at hb
    rcases hb with rfl | hb
    · exact WellFormed.split hblock hsplit
    · exact hwf b hb

variable [PageAllocator σ]

/-- `dealloc` keeps the free list well formed when a small allocation comes
back at an 8-aligned address. -/
theorem dealloc_wellFormed (hwf : heap.FreeListWellFormed)
    (hptr : isPageAllocatorAllocation layout = false → ptr % dataAlignment = 0)
    (h : heap.dealloc ptr layout = some heap') : heap'.FreeListWellFormed := by
  unfold dealloc at h
  split_ifs at h with hzero hpage
  · obtain ⟨⟨allocator, pages⟩, -, h⟩ := Option.bind_eq_some_iff.mp h
    obtain ⟨allocatedMemory, -, h⟩ := Option.bind_eq_some_iff.mp h
    cases h
    exact hwf
  · obtain ⟨size, hsize, h⟩ := Option.bind_eq_some_iff.mp h
    obtain ⟨allocatedMemory, -, h⟩ := Option.bind_eq_some_iff.mp h
    cases h
    obtain ⟨-, hmin, haligned⟩ := AlignedSizeWithMetadata.fromLayout_eq_some hsize
    intro b hb
    rcases List.mem_cons.mp hb with rfl | hb
    · exact ⟨hmin, haligned, hptr (by simpa using hpage)⟩
    · exact hwf b hb

variable [LawfulPageAllocator σ]

/-- A layout for the page allocator gets the start of the run the page
allocator hands out, aligned to a page and to nothing more, and the free list
stays as it was. -/
theorem alloc_page_aligned (hpage : isPageAllocatorAllocation layout = true)
    (h : heap.alloc layout = some (heap', ptr)) :
    heap'.freeList = heap.freeList ∧ ptr % pageSize = 0 := by
  simp only [alloc, hpage, if_true] at h
  obtain ⟨⟨allocator, allocation⟩, hrun, h⟩ := Option.bind_eq_some_iff.mp h
  cases allocation with
  | none =>
      simp only [pure, Option.some.injEq, Prod.mk.injEq] at h
      obtain ⟨rfl, rfl⟩ := h
      exact ⟨rfl, Nat.zero_mod _⟩
  | some run =>
      obtain ⟨start, past⟩ := run
      obtain ⟨allocatedMemory, -, h⟩ := Option.bind_eq_some_iff.mp h
      simp only [pure, Option.some.injEq, Prod.mk.injEq] at h
      obtain ⟨rfl, rfl⟩ := h
      exact ⟨rfl, LawfulPageAllocator.alloc_aligned hrun⟩

/-- A small layout gets a block of the free list or the start of a fresh run,
both 8-aligned, and the free list stays well formed. -/
theorem alloc_small_aligned (hwf : heap.FreeListWellFormed)
    (hpage : isPageAllocatorAllocation layout = false)
    (h : heap.alloc layout = some (heap', ptr)) :
    heap'.FreeListWellFormed ∧ ptr % dataAlignment = 0 := by
  simp only [alloc, hpage, Bool.false_eq_true, if_false] at h
  obtain ⟨requestedSize, -, h⟩ := Option.bind_eq_some_iff.mp h
  cases hfind : findAndRemove requestedSize heap.freeList with
  | some found =>
      obtain ⟨block, rest⟩ := found
      simp only [hfind] at h
      obtain ⟨-, hperm⟩ := findAndRemove_eq_some hfind
      -- the block and the blocks left behind come from the free list
      have hblock := hwf block (hperm.subset (List.mem_cons_self ..))
      have hrest : FreeListWellFormed { heap with freeList := rest } :=
        fun b hb => hwf b (hperm.subset (List.mem_cons_of_mem _ hb))
      obtain ⟨rfl, -⟩ := allocFromBlock_eq_some h
      exact ⟨hrest.allocFromBlock hblock.addr_aligned h, hblock.addr_aligned⟩
  | none =>
      simp only [hfind] at h
      obtain ⟨⟨allocator, allocation⟩, hrun, h⟩ := Option.bind_eq_some_iff.mp h
      cases allocation with
      | none =>
          simp only [pure, Option.some.injEq, Prod.mk.injEq] at h
          obtain ⟨rfl, rfl⟩ := h
          exact ⟨hwf, Nat.zero_mod _⟩
      | some run =>
          obtain ⟨start, past⟩ := run
          obtain ⟨block, hinit, h⟩ := Option.bind_eq_some_iff.mp h
          obtain ⟨rfl, -, -⟩ := FreeBlock.initializeBlock_eq_some hinit
          -- a fresh run starts at a page boundary
          have hstart : start % dataAlignment = 0 := by
            have := LawfulPageAllocator.alloc_aligned hrun
            unfold pageSize at this
            unfold dataAlignment
            omega
          have hwf' : FreeListWellFormed { heap with allocator } := hwf
          obtain ⟨rfl, -⟩ := allocFromBlock_eq_some h
          exact ⟨hwf'.allocFromBlock hstart h, hstart⟩

/-- Every layout aligned to at most a page gets an aligned pointer, and the
free list stays well formed. -/
theorem alloc_aligned (hwf : heap.FreeListWellFormed) (halign : layout.align ≤ pageSize)
    (h : heap.alloc layout = some (heap', ptr)) :
    heap'.FreeListWellFormed ∧ ptr % layout.align = 0 := by
  cases hpage : isPageAllocatorAllocation layout with
  | true =>
      obtain ⟨hsame, hptr⟩ := alloc_page_aligned hpage h
      have hdvd : layout.align ∣ pageSize := layout.align_dvd (show layout.align ≤ 2 ^ 12 from halign)
      refine ⟨fun b hb => hwf b (hsame ▸ hb), Nat.mod_eq_zero_of_dvd ?_⟩
      exact hdvd.trans (Nat.dvd_of_mod_eq_zero hptr)
  | false =>
      obtain ⟨hwf', hptr⟩ := alloc_small_aligned hwf hpage h
      -- a small layout asks for at most the data alignment
      have hsmall : layout.align ≤ dataAlignment := by
        simp only [isPageAllocatorAllocation, Bool.or_eq_false_iff, decide_eq_false_iff_not,
          not_lt] at hpage
        exact hpage.2
      have hdvd : layout.align ∣ dataAlignment :=
        layout.align_dvd (show layout.align ≤ 2 ^ 3 from hsmall)
      exact ⟨hwf', Nat.mod_eq_zero_of_dvd (hdvd.trans (Nat.dvd_of_mod_eq_zero hptr))⟩

/-- A layout aligned to two pages, on a heap whose page allocator covers the
eight pages at `0xa000` of the source's tests: the page allocator's first page,
`0xb000`, comes back unchanged, and it is not a multiple of `0x2000`. -/
theorem alloc_overaligned_misaligned :
    ((PageAllocator.init PageAllocator.testMemory []).bind fun allocator =>
        ((new allocator).alloc ⟨0x2000, 0x2000, 13, rfl⟩).map Prod.snd) = some 0xb000 ∧
      0xb000 % 0x2000 ≠ 0 := by
  decide

end Heap

/-! ## Runs of calls -/

/-- A `GlobalAlloc` call on the heap. -/
inductive HeapRequest
  | alloc (layout : Layout)
  | dealloc (ptr : ℕ) (layout : Layout)

/-- The layout a call passes. -/
def HeapRequest.layout : HeapRequest → Layout
  | .alloc layout => layout
  | .dealloc _ layout => layout

/-- A heap with the allocations it handed out that were not freed yet, each
with the layout it was asked for. -/
structure TrackedHeap (σ : Type) where
  heap : Heap σ
  live : List (ℕ × Layout)

namespace TrackedHeap

variable {σ : Type} [PageAllocator σ]

/-- One call under the `GlobalAlloc` contract: `dealloc` only of a live
allocation, with its layout; a null pointer is no allocation. -/
def step (t : TrackedHeap σ) : HeapRequest → Option (TrackedHeap σ)
  | .alloc layout => (t.heap.alloc layout).map fun (heap, ptr) =>
      ⟨heap, if ptr = 0 then t.live else (ptr, layout) :: t.live⟩
  | .dealloc ptr layout =>
      if (ptr, layout) ∈ t.live then
        (t.heap.dealloc ptr layout).map fun heap => ⟨heap, t.live.erase (ptr, layout)⟩
      else none

/-- The calls whose layout is aligned to at most a page. -/
def pageAlignedStep (t : TrackedHeap σ) (request : HeapRequest) : Option (TrackedHeap σ) :=
  if request.layout.align ≤ pageSize then t.step request else none

/-- Every live allocation is aligned to its layout, and a small one to the data
alignment, which is where its free block will sit. -/
structure Aligned (t : TrackedHeap σ) : Prop where
  freeList : t.heap.FreeListWellFormed
  live : ∀ allocation ∈ t.live, allocation.1 % allocation.2.align = 0 ∧
    (Heap.isPageAllocatorAllocation allocation.2 = false → allocation.1 % dataAlignment = 0)

variable [LawfulPageAllocator σ] {t t' : TrackedHeap σ} {request : HeapRequest}

theorem Aligned.step (h : t.Aligned) (halign : request.layout.align ≤ pageSize)
    (hstep : t.step request = some t') : t'.Aligned := by
  cases request with
  | alloc layout =>
      obtain ⟨⟨heap, ptr⟩, halloc, rfl⟩ := Option.map_eq_some_iff.mp hstep
      obtain ⟨hwf, hptr⟩ := Heap.alloc_aligned h.freeList halign halloc
      refine ⟨hwf, fun allocation hmem => ?_⟩
      dsimp only at hmem
      split_ifs at hmem with hnull
      · exact h.live allocation hmem
      rcases List.mem_cons.mp hmem with rfl | hmem
      · exact ⟨hptr, fun hsmall => (Heap.alloc_small_aligned h.freeList hsmall halloc).2⟩
      · exact h.live allocation hmem
  | dealloc ptr layout =>
      simp only [TrackedHeap.step] at hstep
      split_ifs at hstep with hlive
      obtain ⟨heap, hdealloc, rfl⟩ := Option.map_eq_some_iff.mp hstep
      refine ⟨Heap.dealloc_wellFormed h.freeList (h.live _ hlive).2 hdealloc,
        fun allocation hmem => h.live allocation (List.mem_of_mem_erase hmem)⟩

/-- Along every run of calls with layouts aligned to at most a page, from a new
heap, every live allocation is aligned to its layout. -/
theorem aligned_of_reachable {allocator : σ}
    (hreach : Machine.Reachable pageAlignedStep ⟨Heap.new allocator, []⟩ t) : t.Aligned := by
  refine Machine.Reachable.induction Aligned ⟨Heap.freeListWellFormed_new allocator, by simp⟩
    ?_ hreach
  intro t request t' h hstep
  unfold pageAlignedStep at hstep
  split_ifs at hstep with halign
  exact h.step halign hstep

end TrackedHeap

end Solaya
