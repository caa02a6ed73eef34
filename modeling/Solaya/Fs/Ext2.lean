import Solaya.Core.Bytes
import Solaya.Klibc.ConsumableBuffer

/-!
# ext2

`mount_ext2` (`fs/ext2`) reads a whole ext2 file system into memory when it
mounts it.  `read_inode_data` collects an inode's bytes by walking its block
map: the twelve direct pointers, then the single, double and triple indirect
blocks, each a block of `block_size / 4` little-endian pointers.  Every level
stops at its first zero pointer and appends the blocks it reads behind what is
already there.  A hole (a zero pointer inside the file) therefore ends the
level early, and the bytes behind it are missing or land at the wrong place.
An `Ext2File` holds the collected bytes and the inode's size, and `read`
slices `data[offset..file_size]`, so a file whose bytes came out short panics
on every read inside it (`sparse_file_read_panics`).

`parse_dir_entries` walks a directory's records along their `rec_len` fields.
It overlays the 8-byte header with `interpret_as`, which asserts the header's
alignment, and `expect`s each name to be UTF-8 (`parseDirEntries_eq`).

The device is its image, a byte list: `block::read` returns the bytes of the
image from the offset on, as many as fit, and each caller asserts that it got
all it asked for.
-/

namespace Solaya.Ext2

open Bytes

/-- `EXT2_NDIR_BLOCKS`. -/
def ext2NdirBlocks : ℕ := 12

/-- `EXT2_IND_BLOCK`. -/
def ext2IndBlock : Fin 15 := 12

/-- `EXT2_DIND_BLOCK`. -/
def ext2DindBlock : Fin 15 := 13

/-- `EXT2_TIND_BLOCK`. -/
def ext2TindBlock : Fin 15 := 14

/-- The field of `Ext2Superblock` that `block_size` reads. -/
structure Ext2Superblock where
  sLogBlockSize : ℕ
  deriving DecidableEq, Repr

/-- `Ext2Superblock::block_size`: `1024 << s_log_block_size` on `usize`, which
panics for a shift of 64 or more. -/
def Ext2Superblock.blockSize (sb : Ext2Superblock) : Option ℕ :=
  if 64 ≤ sb.sLogBlockSize then none else some ((1024 <<< sb.sLogBlockSize) % 2 ^ 64)

/-- The fields of `Ext2Inode` that `read_inode_data` reads. -/
structure Ext2Inode where
  iSize : ℕ
  iBlock : Fin 15 → ℕ

/-- `block::read` of `len` bytes at `offset`, with the `assert!(n == len)` of
its callers: `block::read` returns `min(len, capacity - offset)` bytes, and
none past the end. -/
def readExact (image : List UInt8) (offset len : ℕ) : Option (List UInt8) :=
  let n := if image.length ≤ offset then 0 else min len (image.length - offset)
  if n = len then some ((image.drop offset).take len) else none

/-- `read_block_data`: append the first `min(remaining, block_size)` bytes of
block `blockNum`. -/
def readBlockData (image : List UInt8) (blockNum blockSize remaining : ℕ)
    (data : List UInt8) : Option (List UInt8) :=
  let toRead := min remaining blockSize
  (readExact image (blockNum * blockSize) toRead).map (data ++ ·)

/-- `read_block_pointers`: the `block_size / 4` little-endian `u32` of block
`blockNum`.  The buffer is a heap block, 8-aligned, so `interpret_as::<u32>`
at every fourth byte finds its pointer aligned. -/
def readBlockPointers (image : List UInt8) (blockNum blockSize : ℕ) : Option (List ℕ) :=
  (readExact image (blockNum * blockSize) blockSize).map fun buf =>
    (List.range (blockSize / 4)).map fun i => readLE buf (i * 4) 4

/-- The loop every level of the block map runs: `for &ptr in &pointers { if
ptr == 0 || data.len() >= file_size { break; } visit(ptr) }`. -/
def visitPointers (fileSize : ℕ) (visit : ℕ → List UInt8 → Option (List UInt8)) :
    List ℕ → List UInt8 → Option (List UInt8)
  | [], data => some data
  | ptr :: pointers, data =>
    if ptr = 0 ∨ fileSize ≤ data.length then some data
    else (visit ptr data).bind (visitPointers fileSize visit pointers)

/-- `read_indirect`. -/
def readIndirect (image : List UInt8) (indirectBlock blockSize fileSize : ℕ)
    (data : List UInt8) : Option (List UInt8) :=
  (readBlockPointers image indirectBlock blockSize).bind fun pointers =>
    visitPointers fileSize
      (fun ptr data => readBlockData image ptr blockSize (fileSize - data.length) data)
      pointers data

/-- `read_doubly_indirect`. -/
def readDoublyIndirect (image : List UInt8) (dindBlock blockSize fileSize : ℕ)
    (data : List UInt8) : Option (List UInt8) :=
  (readBlockPointers image dindBlock blockSize).bind fun l1Pointers =>
    visitPointers fileSize (fun l1Ptr data => readIndirect image l1Ptr blockSize fileSize data)
      l1Pointers data

/-- `read_triply_indirect`. -/
def readTriplyIndirect (image : List UInt8) (tindBlock blockSize fileSize : ℕ)
    (data : List UInt8) : Option (List UInt8) :=
  (readBlockPointers image tindBlock blockSize).bind fun l1Pointers =>
    visitPointers fileSize
      (fun l1Ptr data => readDoublyIndirect image l1Ptr blockSize fileSize data) l1Pointers data

/-- `read_inode_data`.  Its loop over the direct blocks breaks on
`remaining == 0` and on `i_block[i] == 0`, the loop of the other levels with
the checks the other way round; `remaining` is `file_size - data.len()`
throughout. -/
def readInodeData (image : List UInt8) (sb : Ext2Superblock) (inode : Ext2Inode) :
    Option (List UInt8) := do
  let fileSize := inode.iSize
  if fileSize = 0 then return []
  let blockSize ← sb.blockSize
  let data ← visitPointers fileSize
    (fun ptr data => readBlockData image ptr blockSize (fileSize - data.length) data)
    ((List.ofFn inode.iBlock).take ext2NdirBlocks) []
  let data ← if data.length < fileSize ∧ inode.iBlock ext2IndBlock ≠ 0 then
      readIndirect image (inode.iBlock ext2IndBlock) blockSize fileSize data
    else pure data
  let data ← if data.length < fileSize ∧ inode.iBlock ext2DindBlock ≠ 0 then
      readDoublyIndirect image (inode.iBlock ext2DindBlock) blockSize fileSize data
    else pure data
  let data ← if data.length < fileSize ∧ inode.iBlock ext2TindBlock ≠ 0 then
      readTriplyIndirect image (inode.iBlock ext2TindBlock) blockSize fileSize data
    else pure data
  pure (data.take fileSize)

/-- `Ext2File`. -/
structure Ext2File where
  ino : ℕ
  data : List UInt8
  fileSize : ℕ

/-- `Ext2File::read` into a buffer of `bufLen` bytes: the bytes it copies.
`None` is the panic of `&self.data[offset..self.file_size]` when the data is
shorter than the file. -/
def Ext2File.read (f : Ext2File) (offset bufLen : ℕ) : Option (List UInt8) :=
  if f.fileSize ≤ offset then some []
  else if f.data.length < f.fileSize then none
  else
    let available := (f.data.drop offset).take (f.fileSize - offset)
    some (available.take (min bufLen available.length))

/-! ## Reading blocks -/

theorem readExact_of_le {image : List UInt8} {offset len : ℕ} (h : offset + len ≤ image.length) :
    readExact image offset len = some ((image.drop offset).take len) := by
  unfold readExact
  rw [if_pos]
  split_ifs <;> omega

theorem readBlockData_of_le {image : List UInt8} {blockNum blockSize remaining : ℕ}
    {data : List UInt8} (h : blockNum * blockSize + blockSize ≤ image.length) :
    readBlockData image blockNum blockSize remaining data =
      some (data ++ ((image.drop (blockNum * blockSize)).take (min remaining blockSize))) := by
  rw [readBlockData, readExact_of_le (by omega), Option.map_some]

theorem readExact_eq_some {image : List UInt8} {offset len : ℕ} {bytes : List UInt8}
    (h : readExact image offset len = some bytes) : bytes = (image.drop offset).take len := by
  unfold readExact at h
  dsimp only at h
  split_ifs at h
  all_goals exact (Option.some.inj h).symm

/-- A block read appends at most a block. -/
theorem length_readBlockData_le {image : List UInt8} {blockNum blockSize remaining : ℕ}
    {data data' : List UInt8} (h : readBlockData image blockNum blockSize remaining data = some data') :
    data'.length ≤ data.length + blockSize := by
  unfold readBlockData at h
  obtain ⟨bytes, hread, rfl⟩ := Option.map_eq_some_iff.mp h
  rw [readExact_eq_some hread, List.length_append, List.length_take]
  omega

/-! ## The loop over one level -/

section VisitPointers

variable {fileSize blockSize : ℕ} {visit : ℕ → List UInt8 → Option (List UInt8)}

/-- The loop reads on as long as every pointer it reaches can be visited. -/
theorem visitPointers_isSome :
    ∀ (pointers : List ℕ), (∀ ptr ∈ pointers, ptr ≠ 0 → ∀ data, (visit ptr data).isSome) →
      ∀ (data : List UInt8), (visitPointers fileSize visit pointers data).isSome := by
  intro pointers
  induction pointers with
  | nil => intro _ data; rfl
  | cons ptr pointers ih =>
    intro hvisit data
    rw [visitPointers]
    split_ifs with hstop
    · rfl
    · obtain ⟨data', hdata'⟩ :=
        Option.isSome_iff_exists.mp (hvisit ptr List.mem_cons_self (by tauto) data)
      rw [hdata', Option.bind_some]
      exact ih (fun p hp => hvisit p (List.mem_cons_of_mem ptr hp)) data'

/-- A zero pointer at position `j` ends the loop there: with each visit
appending at most a block, the loop adds at most `j` blocks. -/
theorem length_visitPointers_le_of_zero
    (hvisit : ∀ ptr data data', visit ptr data = some data' →
      data'.length ≤ data.length + blockSize) :
    ∀ (pointers : List ℕ) (j : ℕ) (data data' : List UInt8), pointers[j]? = some 0 →
      visitPointers fileSize visit pointers data = some data' →
      data'.length ≤ data.length + j * blockSize := by
  intro pointers
  induction pointers with
  | nil => intro j data data' hzero; simp at hzero
  | cons ptr pointers ih =>
    intro j data data' hzero hloop
    rw [visitPointers] at hloop
    split_ifs at hloop with hstop
    · cases hloop
      omega
    · obtain ⟨data₁, hdata₁, hrest⟩ := Option.bind_eq_some_iff.mp hloop
      -- the pointer visited is not the zero one
      obtain ⟨j, rfl⟩ : ∃ j', j = j' + 1 := by
        cases j with
        | zero => simp only [List.getElem?_cons_zero, Option.some.injEq] at hzero; tauto
        | succ j => exact ⟨j, rfl⟩
      rw [List.getElem?_cons_succ] at hzero
      have h₁ := hvisit ptr data data₁ hdata₁
      have h₂ := ih j data₁ data' hzero hrest
      rw [Nat.add_mul, Nat.one_mul]
      omega

end VisitPointers

/-! ## Sparse files -/

/-- A file of direct blocks only with a hole inside it, as `truncate -s` makes
one: `read_inode_data` stops at the hole and returns fewer bytes than the
file's size, and `Ext2File::read` then panics at every offset inside the
file. -/
theorem sparse_file_read_panics {image : List UInt8} {sb : Ext2Superblock} {inode : Ext2Inode}
    {blockSize : ℕ} (hblockSize : sb.blockSize = some blockSize)
    (hdirect : ∀ i : Fin 15, i.val < ext2NdirBlocks →
      inode.iBlock i * blockSize + blockSize ≤ image.length)
    (hindirect : inode.iBlock ext2IndBlock = 0 ∧ inode.iBlock ext2DindBlock = 0 ∧
      inode.iBlock ext2TindBlock = 0)
    {j : Fin 15} (hj : j.val < ext2NdirBlocks) (hhole : inode.iBlock j = 0)
    (hinside : j.val * blockSize < inode.iSize) :
    ∃ data, readInodeData image sb inode = some data ∧ data.length < inode.iSize ∧
      ∀ ino offset bufLen, offset < inode.iSize →
        (Ext2File.mk ino data inode.iSize).read offset bufLen = none := by
  obtain ⟨direct, hdirect_eq⟩ :
      ∃ direct, direct = (List.ofFn inode.iBlock).take ext2NdirBlocks := ⟨_, rfl⟩
  -- every direct pointer lies in the image, so the loop over them ends
  have hmem : ∀ ptr ∈ direct, ptr * blockSize + blockSize ≤ image.length := by
    intro ptr hptr
    obtain ⟨i, hi, rfl⟩ := List.getElem_of_mem hptr
    subst hdirect_eq
    have hi' : i < ext2NdirBlocks := by
      simp only [List.length_take, List.length_ofFn] at hi
      omega
    simp only [List.getElem_take, List.getElem_ofFn]
    exact hdirect ⟨i, by unfold ext2NdirBlocks at hi'; omega⟩ hi'
  obtain ⟨data, hloop⟩ := Option.isSome_iff_exists.mp
    (@visitPointers_isSome inode.iSize
      (fun ptr data => readBlockData image ptr blockSize (inode.iSize - data.length) data) direct
      (fun ptr hptr _ data => by rw [readBlockData_of_le (hmem ptr hptr)]; rfl) [])
  -- the hole at `j` stops the loop after at most `j` blocks
  have hzero : direct[j.val]? = some 0 := by
    subst hdirect_eq
    rw [List.getElem?_take_of_lt hj, List.getElem?_ofFn]
    simp [hhole]
  have hshort : data.length < inode.iSize := by
    have := length_visitPointers_le_of_zero (fun _ _ _ h => length_readBlockData_le h)
      direct j.val [] data hzero hloop
    rw [List.length_nil, Nat.zero_add] at this
    omega
  refine ⟨data, ?_, hshort, fun ino offset bufLen hoffset => ?_⟩
  · -- the indirect levels are absent, and the bytes fit the size
    have hpos : inode.iSize ≠ 0 := by omega
    rw [← List.take_of_length_le (Nat.le_of_lt hshort)]
    simp only [readInodeData, hpos, if_false, hblockSize, ← hdirect_eq, hloop, hindirect.1,
      hindirect.2.1, hindirect.2.2, ne_eq, not_true_eq_false, and_false, if_false,
      Option.bind_some, bind, pure]
  · simp only [Ext2File.read]
    rw [if_neg (by omega), if_pos hshort]

/-- A one-block file with no block allocated, the file `truncate -s 1024`
makes. -/
theorem sparse_file_read_panics_one_block :
    ∃ data, readInodeData (List.replicate 1024 0) ⟨0⟩ ⟨1024, fun _ => 0⟩ = some data ∧
      data.length < 1024 ∧
      ∀ ino offset bufLen, offset < 1024 → (Ext2File.mk ino data 1024).read offset bufLen = none :=
  @sparse_file_read_panics (List.replicate 1024 0) ⟨0⟩ ⟨1024, fun _ => 0⟩ 1024 rfl
    (fun _ _ => by
      show 0 * 1024 + 1024 ≤ (List.replicate 1024 (0 : UInt8)).length
      simp only [List.length_replicate, Nat.zero_mul, Nat.zero_add, Nat.le_refl])
    ⟨rfl, rfl, rfl⟩ 0 (by decide) rfl (by decide)

/-! ## Directories -/

/-- `size_of::<Ext2DirEntry>()`: `inode: u32`, `rec_len: u16`, `name_len: u8`
and `file_type: u8`. -/
def dirEntryHeaderSize : ℕ := 8

/-- The `while` loop of `parse_dir_entries` from `offset` on, with the entries
found so far; `base` is the address of `data`.  `interpret_as` asserts that the
header is 4-aligned, and the name is `expect`ed to be UTF-8. -/
def parseDirEntriesLoop (base : ℕ) (data : List UInt8) (offset : ℕ)
    (entries : List (List UInt8 × ℕ × ℕ)) : Option (List (List UInt8 × ℕ × ℕ)) :=
  if offset + dirEntryHeaderSize ≤ data.length then
    if (base + offset) % 4 ≠ 0 then none
    else
      let inode := readLE data offset 4
      let recLen := readLE data (offset + 4) 2
      let nameLen := readLE data (offset + 6) 1
      let fileType := readLE data (offset + 7) 1
      if recLen = 0 then some entries
      else
        let found : Option (List (List UInt8 × ℕ × ℕ)) :=
          if inode = 0 then some entries
          else
            let nameStart := offset + dirEntryHeaderSize
            let nameEnd := nameStart + nameLen
            if nameEnd ≤ data.length then
              let name := (data.drop nameStart).take nameLen
              if isUtf8 name then
                -- `.` and `..` are skipped to avoid cycles
                if name ≠ [46] ∧ name ≠ [46, 46] then some (entries ++ [(name, inode, fileType)])
                else some entries
              else none
            else some entries
        found.bind (parseDirEntriesLoop base data (offset + recLen))
  else some entries
termination_by data.length - offset
decreasing_by unfold dirEntryHeaderSize at *; omega

/-- `parse_dir_entries` on the bytes at address `base`. -/
def parseDirEntries (base : ℕ) (data : List UInt8) : Option (List (List UInt8 × ℕ × ℕ)) :=
  parseDirEntriesLoop base data 0 []

/-! ### What the walk should find -/

/-- The offsets of the headers the walk reads from `offset` on: it follows
`rec_len` while a whole header fits, and a `rec_len` of 0 ends it. -/
def headerOffsets (data : List UInt8) (offset : ℕ) : List ℕ :=
  if offset + dirEntryHeaderSize ≤ data.length then
    offset :: (if readLE data (offset + 4) 2 = 0 then []
      else headerOffsets data (offset + readLE data (offset + 4) 2))
  else []
termination_by data.length - offset
decreasing_by unfold dirEntryHeaderSize at *; omega

/-- The entry of the record at `offset`: one that follows, names a non-zero
inode, has its name inside the data, and is neither `.` nor `..`. -/
def entryAt (data : List UInt8) (offset : ℕ) : Option (List UInt8 × ℕ × ℕ) :=
  let name := (data.drop (offset + dirEntryHeaderSize)).take (readLE data (offset + 6) 1)
  if readLE data (offset + 4) 2 ≠ 0 ∧ readLE data offset 4 ≠ 0 ∧
      offset + dirEntryHeaderSize + readLE data (offset + 6) 1 ≤ data.length ∧
      name ≠ [46] ∧ name ≠ [46, 46] then
    some (name, readLE data offset 4, readLE data (offset + 7) 1)
  else none

/-- The kernel survives the header at `offset`: it is 4-aligned, and a name it
reads is UTF-8. -/
def headerAccepted (base : ℕ) (data : List UInt8) (offset : ℕ) : Bool :=
  (base + offset) % 4 == 0 &&
    (readLE data (offset + 4) 2 == 0 || readLE data offset 4 == 0 ||
      !decide (offset + dirEntryHeaderSize + readLE data (offset + 6) 1 ≤ data.length) ||
      isUtf8 ((data.drop (offset + dirEntryHeaderSize)).take (readLE data (offset + 6) 1)))

/-! ### The walk against its specification -/

theorem headerOffsets_of_not_fits {data : List UInt8} {offset : ℕ}
    (h : ¬offset + dirEntryHeaderSize ≤ data.length) : headerOffsets data offset = [] := by
  rw [headerOffsets, if_neg h]

theorem headerOffsets_of_fits {data : List UInt8} {offset : ℕ}
    (h : offset + dirEntryHeaderSize ≤ data.length) :
    headerOffsets data offset = offset :: (if readLE data (offset + 4) 2 = 0 then []
      else headerOffsets data (offset + readLE data (offset + 4) 2)) := by
  rw [headerOffsets, if_pos h]

/-- From any offset, the loop appends the entries of the records it reaches, or
panics at the first header it does not survive. -/
theorem parseDirEntriesLoop_eq (base : ℕ) (data : List UInt8) (offset : ℕ)
    (entries : List (List UInt8 × ℕ × ℕ)) :
    parseDirEntriesLoop base data offset entries =
      if (headerOffsets data offset).all (headerAccepted base data) then
        some (entries ++ (headerOffsets data offset).filterMap (entryAt data))
      else none := by
  induction offset, entries using parseDirEntriesLoop.induct base data with
  | case1 offset entries hfits halign =>
    rw [parseDirEntriesLoop, if_pos hfits, if_pos halign, headerOffsets_of_fits hfits]
    simp [headerAccepted, halign]
  | case2 offset entries hfits halign recLen hrec =>
    replace hrec : readLE data (offset + 4) 2 = 0 := hrec
    rw [parseDirEntriesLoop, if_pos hfits, if_neg halign, headerOffsets_of_fits hfits]
    simp [headerAccepted, entryAt, hrec, of_not_not halign]
  | case3 offset entries hfits halign recLen hrec ih =>
    replace hrec : readLE data (offset + 4) 2 ≠ 0 := hrec
    rw [parseDirEntriesLoop, if_pos hfits, if_neg halign, headerOffsets_of_fits hfits]
    simp only [if_neg hrec, List.all_cons, List.filterMap_cons, headerAccepted, entryAt,
      of_not_not halign]
    simp only [recLen] at ih
    generalize List.take (readLE data (offset + 6) 1) (List.drop (offset + dirEntryHeaderSize) data) = name
    -- the record's own fate: skipped, kept, or a panic on its name
    by_cases hinode : readLE data offset 4 = 0
    · simp [hinode, hrec, ih]
    by_cases hend : offset + dirEntryHeaderSize + readLE data (offset + 6) 1 ≤ data.length
    swap
    · simp [hinode, hrec, hend, ih]
    by_cases hutf : isUtf8 name
    swap
    · simp [hinode, hrec, hend, hutf]
    by_cases hdots : name ≠ [46] ∧ name ≠ [46, 46] <;> simp [hinode, hrec, hend, hutf, hdots, ih]
  | case4 offset entries hfits =>
    rw [parseDirEntriesLoop, if_neg hfits, headerOffsets_of_not_fits hfits]
    simp

/-- `parse_dir_entries` returns the entries of the records reached from offset 0
when every header it reads is 4-aligned and every name it reads is UTF-8, and
panics otherwise. -/
theorem parseDirEntries_eq (base : ℕ) (data : List UInt8) :
    parseDirEntries base data =
      if (headerOffsets data 0).all (headerAccepted base data) then
        some ((headerOffsets data 0).filterMap (entryAt data))
      else none := by
  rw [parseDirEntries, parseDirEntriesLoop_eq, List.nil_append]

/-- A record whose one-byte name is 0xFF: the `expect` panics. -/
theorem parseDirEntries_rejects_invalid_name :
    parseDirEntries 0 [5, 0, 0, 0, 12, 0, 1, 1, 0xFF, 0, 0, 0] = none := by
  rw [parseDirEntries_eq, headerOffsets_of_fits (by decide), if_neg (by decide)]

end Solaya.Ext2
