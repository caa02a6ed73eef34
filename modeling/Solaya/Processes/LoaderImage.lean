import Solaya.Processes.Loader
import Solaya.Memory.PageTableRanges

/-!
# What `load_elf` builds

`load_elf` takes `AT_PHDR` to be the first loadable segment's address plus
`e_phoff`, which is where the program header table lies only when that segment
maps the file from its first byte, and it asserts so
(`loadElf_eq_none_of_firstLoad`).  The kernel loads only the userspace
programs it is built with, which are linked that way.

For such a file whose loadable segments lie in the file and follow one another
upwards from the page after the signal trampoline, as the ELF standard orders
them, and for a kernel whose own mappings leave that part of the lower half and
the stack free, `loadElf_loads_segments` says what `load_elf` returns: an error
exactly when the arguments do not fit the stack, and otherwise tables and pages
in which

* every segment has fresh pages, recorded under its first page, that hold its
  file bytes at its offset in that page and zeros everywhere else (the `.bss`
  and the rest of the first and last pages), mapped there for user mode with
  the segment's permissions (`SegmentLoaded`);
* `AT_PHDR` is the address at which the program header table is mapped;
* the stack holds what `set_up_arguments` wrote, the trampoline page is
  mapped, and `brk` starts at `align_up` of the highest segment end with four
  mapped pages after every segment.

The proof follows the loader.  The stack at the top of the upper half needs
unmapped pages only (`map_pages`); the trampoline page, the segments and `brk`
each take the bottom of a clear part of the lower half and leave the part above
them clear (`Room`, `loadSegment_spec`, `loadSegments_spec`).
-/

namespace Solaya.Loader

open Bytes Elf RootPageTableHolder

/-! ## Where a segment goes -/

/-- `mapping_va`: the start of the page of a segment's first byte. -/
def mappingStart (programHeader : ElfProgramHeaderEntry) : ℕ :=
  programHeader.virtualAddress - programHeader.virtualAddress % pageSize

/-- The end of the page of a segment's last byte. -/
def mappingEnd (programHeader : ElfProgramHeaderEntry) : ℕ :=
  alignUp (programHeader.virtualAddress + programHeader.memorySize) pageSize

section Segment

variable (programHeader : ElfProgramHeaderEntry)

theorem pageSize_pos : 0 < pageSize := by decide

theorem sub_mod_eq_mappingStart :
    programHeader.virtualAddress - programHeader.virtualAddress % pageSize =
      mappingStart programHeader := rfl

theorem mappingStart_mod : mappingStart programHeader % pageSize = 0 := by
  unfold mappingStart pageSize
  omega

theorem mappingStart_add_mod :
    mappingStart programHeader + programHeader.virtualAddress % pageSize =
      programHeader.virtualAddress := by
  unfold mappingStart
  have := Nat.mod_le programHeader.virtualAddress pageSize
  omega

theorem mappingEnd_mod : mappingEnd programHeader % pageSize = 0 :=
  alignUp_mod pageSize_pos

theorem le_mappingEnd :
    programHeader.virtualAddress + programHeader.memorySize ≤ mappingEnd programHeader :=
  le_alignUp pageSize_pos

/-- The pages of a segment run from its first page over its offset in that
page and its size, rounded up. -/
theorem mappingEnd_eq :
    mappingEnd programHeader = mappingStart programHeader +
      alignUp (programHeader.virtualAddress % pageSize + programHeader.memorySize) pageSize := by
  have hsplit : programHeader.virtualAddress + programHeader.memorySize =
      mappingStart programHeader +
        (programHeader.virtualAddress % pageSize + programHeader.memorySize) := by
    have := mappingStart_add_mod programHeader
    omega
  rw [mappingEnd, hsplit, alignUp_add_of_mod_eq_zero (mappingStart_mod programHeader)]

theorem mappingStart_lt_mappingEnd (hpos : 0 < programHeader.memorySize) :
    mappingStart programHeader < mappingEnd programHeader := by
  have := mappingStart_add_mod programHeader
  have := le_mappingEnd programHeader
  omega

/-- `size_in_pages`, as `load_elf` adds it up from the rounded sizes, counts
the pages from a segment's first page to its last. -/
theorem sizeInPages_mul (offset size : ℕ) :
    (alignUp size pageSize / pageSize +
        (alignUp (offset + size) pageSize / pageSize - alignUp size pageSize / pageSize)) *
      pageSize = alignUp (offset + size) pageSize := by
  have hle : alignUp size pageSize ≤ alignUp (offset + size) pageSize :=
    alignUp_mono pageSize_pos (Nat.le_add_left size offset)
  have hdiv : alignUp size pageSize / pageSize ≤ alignUp (offset + size) pageSize / pageSize :=
    Nat.div_le_div_right hle
  rw [Nat.add_sub_cancel' hdiv,
    Nat.div_mul_cancel (Nat.dvd_of_mod_eq_zero (alignUp_mod pageSize_pos))]

end Segment

/-- What the amended claim asks of a loadable segment: its bytes lie in the
file, it is no larger in the file than in memory, it takes up memory, and its
permissions are ones the kernel maps. -/
structure SegmentFits (elf : ElfFile) (programHeader : ElfProgramHeaderEntry) : Prop where
  inFile : programHeader.offsetInFile + programHeader.fileSize ≤ elf.data.length
  fileSize_le : programHeader.fileSize ≤ programHeader.memorySize
  memorySize_pos : 0 < programHeader.memorySize
  flags : (XWRMode.fromProgramHeaderFlags programHeader.accessFlags).isSome

/-- The segments' pages follow one another upwards from `lo`. -/
def SegmentsInOrder : ℕ → List ElfProgramHeaderEntry → Prop
  | _, [] => True
  | lo, programHeader :: programHeaders =>
      lo ≤ mappingStart programHeader ∧ SegmentsInOrder (mappingEnd programHeader) programHeaders

instance decSegmentsInOrder :
    (lo : ℕ) → (programHeaders : List ElfProgramHeaderEntry) →
      Decidable (SegmentsInOrder lo programHeaders)
  | _, [] => isTrue trivial
  | _, programHeader :: programHeaders =>
      haveI := decSegmentsInOrder (mappingEnd programHeader) programHeaders
      inferInstanceAs (Decidable (_ ∧ _))

/-- Where the last of the segments ends, `lo` for none. -/
def segmentsEnd : ℕ → List ElfProgramHeaderEntry → ℕ
  | lo, [] => lo
  | _, programHeader :: programHeaders => segmentsEnd (mappingEnd programHeader) programHeaders

section InOrder

variable {elf : ElfFile}

theorem SegmentsInOrder.le_segmentsEnd :
    ∀ {lo : ℕ} {programHeaders : List ElfProgramHeaderEntry},
      SegmentsInOrder lo programHeaders → lo ≤ segmentsEnd lo programHeaders
  | _, [], _ => le_rfl
  | _, programHeader :: _, ⟨hlo, hrest⟩ => by
      have := mappingEnd_eq programHeader
      exact hlo.trans (by have := hrest.le_segmentsEnd; simp only [segmentsEnd]; omega)

theorem SegmentsInOrder.mappingEnd_le :
    ∀ {lo : ℕ} {programHeaders : List ElfProgramHeaderEntry},
      SegmentsInOrder lo programHeaders →
        ∀ programHeader ∈ programHeaders, mappingEnd programHeader ≤ segmentsEnd lo programHeaders
  | _, [], _ => by simp
  | _, programHeader :: _, ⟨_, hrest⟩ => by
      intro programHeader' hmem
      rcases List.mem_cons.mp hmem with rfl | hmem
      · exact hrest.le_segmentsEnd
      · exact hrest.mappingEnd_le programHeader' hmem

/-- The last segment ends where they all end. -/
theorem exists_mappingEnd_eq_segmentsEnd :
    ∀ (lo : ℕ) {programHeaders : List ElfProgramHeaderEntry}, programHeaders ≠ [] →
      ∃ programHeader ∈ programHeaders, mappingEnd programHeader = segmentsEnd lo programHeaders
  | _, [], hne => absurd rfl hne
  | _, [programHeader], _ => ⟨programHeader, List.mem_singleton_self _, rfl⟩
  | _, programHeader :: programHeader' :: programHeaders, _ => by
      obtain ⟨last, hlast, heq⟩ :=
        exists_mappingEnd_eq_segmentsEnd (mappingEnd programHeader)
          (List.cons_ne_nil programHeader' programHeaders)
      exact ⟨last, List.mem_cons_of_mem _ hlast, heq⟩

end InOrder

/-! ## What a segment's pages hold -/

/-- The bytes of a segment's pages: its file bytes at its offset in the first
page, and zeros everywhere else, the `.bss` and the rest of the first and last
pages included. -/
structure SegmentImage (elf : ElfFile) (programHeader : ElfProgramHeaderEntry)
    (bytes : List UInt8) : Prop where
  length_eq : bytes.length = mappingEnd programHeader - mappingStart programHeader
  fileBytes : ∀ i < programHeader.fileSize,
    bytes[programHeader.virtualAddress % pageSize + i]? = elf.data[programHeader.offsetInFile + i]?
  zeros : ∀ j < bytes.length, (j < programHeader.virtualAddress % pageSize ∨
      programHeader.virtualAddress % pageSize + programHeader.fileSize ≤ j) → bytes[j]? = some 0

/-- What `load_elf` leaves for a segment whose pages the heap gave at `addr`:
the pages recorded under the segment's first page, holding `SegmentImage`,
and mapped there for user mode with the segment's permissions. -/
structure SegmentLoaded (elf : ElfFile) (addr : ℕ) (programHeader : ElfProgramHeaderEntry)
    (root : FirstLevelTable) (allocatedPages : List (ℕ × PinnedHeapPages)) : Prop where
  recorded : ∃ bytes, (mappingStart programHeader, ⟨addr, bytes⟩) ∈ allocatedPages ∧
    SegmentImage elf programHeader bytes
  mapped : ∃ privileges, XWRMode.fromProgramHeaderFlags programHeader.accessFlags = some privileges ∧
    MapsOnto root (mappingStart programHeader) addr
      (mappingEnd programHeader - mappingStart programHeader) privileges true

section Image

variable {elf : ElfFile} {programHeader : ElfProgramHeaderEntry}

/-- Zeroed pages filled with the segment's file bytes at its offset in the
first page hold its image. -/
theorem segmentImage_fill {data : List UInt8} (hlength : data.length = programHeader.fileSize)
    (hdata : ∀ i < programHeader.fileSize,
      data[i]? = elf.data[programHeader.offsetInFile + i]?)
    (hfit : programHeader.virtualAddress % pageSize + programHeader.fileSize ≤
      mappingEnd programHeader - mappingStart programHeader) :
    SegmentImage elf programHeader
      ((List.replicate (mappingEnd programHeader - mappingStart programHeader) 0).take
          (programHeader.virtualAddress % pageSize) ++ data ++
        (List.replicate (mappingEnd programHeader - mappingStart programHeader) 0).drop
          (programHeader.virtualAddress % pageSize + data.length)) where
  length_eq := by
    simp only [List.length_append, List.length_take, List.length_replicate, List.length_drop,
      hlength]
    omega
  fileBytes i hi := by
    rw [List.getElem?_append_left (by simp [hlength]; omega),
      List.getElem?_append_right (by simp only [List.length_take, List.length_replicate]; omega)]
    simp only [List.length_take, List.length_replicate]
    rw [← hdata i hi]
    congr 1
    omega
  zeros j hj hout := by
    simp only [List.length_append, List.length_take, List.length_replicate, List.length_drop,
      hlength] at hj
    rcases hout with hlow | hhigh
    · rw [List.getElem?_append_left (by simp; omega), List.getElem?_append_left (by simp; omega),
        List.getElem?_take_of_lt hlow, List.getElem?_replicate_of_lt (by omega)]
    · rw [List.getElem?_append_right (by simp [hlength]; omega), List.getElem?_drop,
        List.getElem?_replicate_of_lt (by simp [hlength]; omega)]

/-- A user-mode access at `p_vaddr + i` goes, with the segment's permissions,
to the byte of its pages that holds `file[p_offset + i]` below `p_filesz` and
zero above. -/
theorem SegmentLoaded.userByte {addr : ℕ} {root : FirstLevelTable}
    {allocatedPages : List (ℕ × PinnedHeapPages)}
    (hloaded : SegmentLoaded elf addr programHeader root allocatedPages) {i : ℕ}
    (hi : i < programHeader.memorySize) :
    ∃ privileges leaf bytes,
      XWRMode.fromProgramHeaderFlags programHeader.accessFlags = some privileges ∧
      resolve root (programHeader.virtualAddress + i) = some leaf ∧ leaf.1.validity = true ∧
      leaf.1.xwrMode = privileges ∧ leaf.1.userModeAccessible = true ∧
      (mappingStart programHeader, ⟨addr, bytes⟩) ∈ allocatedPages ∧
      leafAddress leaf (programHeader.virtualAddress + i) =
        addr + (programHeader.virtualAddress % pageSize + i) ∧
      bytes[programHeader.virtualAddress % pageSize + i]? =
        if i < programHeader.fileSize then elf.data[programHeader.offsetInFile + i]? else some 0 := by
  obtain ⟨bytes, hmem, himage⟩ := hloaded.recorded
  obtain ⟨privileges, hprivileges, hmaps⟩ := hloaded.mapped
  have hstart := mappingStart_add_mod programHeader
  have hend := le_mappingEnd programHeader
  obtain ⟨leaf, hresolve, hvalid, hmode, huser, haddress⟩ :=
    hmaps (programHeader.virtualAddress + i) (by omega) (by omega)
  refine ⟨privileges, leaf, bytes, hprivileges, hresolve, hvalid, hmode, huser, hmem,
    by rw [haddress]; congr 1; omega, ?_⟩
  split_ifs with hfile
  · exact himage.fileBytes i hfile
  · exact himage.zeros _ (by rw [himage.length_eq]; omega) (.inr (by omega))

end Image

/-! ## Room for the next mapping -/

/-- Room for the next mappings between `lo` and `hi`: the tables are well
formed and clear there, and no mapping or pages recorded so far start in it or
reach into it. -/
structure Room (pageTables : RootPageTableHolder) (allocatedPages : List (ℕ × PinnedHeapPages))
    (lo hi : ℕ) : Prop where
  wellFormed : WellFormed pageTables.rootTable
  free : FreeIn pageTables.rootTable lo hi
  mappings : ∀ entry ∈ pageTables.alreadyMapped,
    entry.virtualRange.2 < lo ∨ hi ≤ entry.virtualRange.1
  keys : ∀ entry ∈ allocatedPages, entry.1 < lo ∨ hi ≤ entry.1

namespace Room

variable {pageTables : RootPageTableHolder} {allocatedPages : List (ℕ × PinnedHeapPages)}
  {lo hi : ℕ}

/-- A range inside the room meets no recorded mapping: `map`'s overlap check
passes. -/
theorem not_contains (hroom : Room pageTables allocatedPages lo hi) {v size : ℕ} (hlo : lo ≤ v)
    (hend : v + size ≤ hi) (hpos : 0 < size) :
    pageTables.alreadyMapped.any (·.contains (v, v + (size - 1))) = false := by
  rw [List.any_eq_false]
  intro entry hentry hcontains
  rw [MappingEntry.contains_iff] at hcontains
  rcases hroom.mappings entry hentry with h | h <;> omega

/-- A key inside the room is new: `insert`'s assertion holds. -/
theorem insertNew_eq (hroom : Room pageTables allocatedPages lo hi) {key : ℕ} (hlo : lo ≤ key)
    (hhi : key < hi) (pages : PinnedHeapPages) :
    insertNew allocatedPages key pages = some (allocatedPages ++ [(key, pages)]) :=
  insertNew_of_forall_ne pages fun entry hentry hkey => by
    rcases hroom.keys entry hentry with h | h <;> omega

/-- A map at the bottom of the room leaves the room above it. -/
theorem map (hroom : Room pageTables allocatedPages lo hi) {root' : FirstLevelTable}
    {v size lo' : ℕ} {privileges : XWRMode} (hwf : WellFormed root') (hfree : FreeIn root' lo' hi)
    (hlo : lo ≤ v) (hpos : 0 < size) (hlo' : v + size ≤ lo') :
    Room ⟨root', pageTables.alreadyMapped ++ [⟨(v, v + (size - 1)), privileges⟩]⟩ allocatedPages
      lo' hi where
  wellFormed := hwf
  free := hfree
  mappings entry hentry := by
    rcases List.mem_append.mp hentry with hold | hnew
    · rcases hroom.mappings entry hold with h | h
      · exact .inl (by omega)
      · exact .inr h
    · rw [List.mem_singleton.mp hnew]
      exact .inl (by dsimp only; omega)
  keys entry hentry := by
    rcases hroom.keys entry hentry with h | h
    · exact .inl (by omega)
    · exact .inr h

/-- Pages recorded below the room leave it as it is. -/
theorem insert (hroom : Room pageTables allocatedPages lo hi) {key : ℕ} (hkey : key < lo)
    (pages : PinnedHeapPages) : Room pageTables (allocatedPages ++ [(key, pages)]) lo hi where
  wellFormed := hroom.wellFormed
  free := hroom.free
  mappings := hroom.mappings
  keys entry hentry := by
    rcases List.mem_append.mp hentry with hold | hnew
    · exact hroom.keys entry hold
    · rw [List.mem_singleton.mp hnew]
      exact .inl hkey

end Room

/-- Pages the heap hands out: page aligned, with room below the 2^56 bytes a
leaf can address for the largest run the lower half can hold. -/
def HeapPages (addr : ℕ) : Prop :=
  addr % pageSize = 0 ∧ addr + 2 ^ 38 ≤ 2 ^ 56

instance (addr : ℕ) : Decidable (HeapPages addr) :=
  inferInstanceAs (Decidable (_ ∧ _))

/-! ## One segment, then all of them -/

section Segments

variable {elf : ElfFile}

/-- One iteration of the loop over the loadable segments, at the bottom of a
clear part of the lower half: it records the segment's image and maps it, and
leaves the part above it clear. -/
theorem loadSegment_spec {pageTables : RootPageTableHolder}
    {allocatedPages : List (ℕ × PinnedHeapPages)} {lo hi addr : ℕ}
    {programHeader : ElfProgramHeaderEntry} (hfits : SegmentFits elf programHeader)
    (haddr : HeapPages addr) (hroom : Room pageTables allocatedPages lo hi) (hlo0 : 0 < lo)
    (hlo : lo ≤ mappingStart programHeader) (hend : mappingEnd programHeader ≤ hi)
    (hhi : hi ≤ 2 ^ 38) :
    ∃ pageTables' bytes, loadSegment elf addr (pageTables, allocatedPages) programHeader =
        some (pageTables', allocatedPages ++ [(mappingStart programHeader, ⟨addr, bytes⟩)]) ∧
      SegmentImage elf programHeader bytes ∧
      (∃ privileges, XWRMode.fromProgramHeaderFlags programHeader.accessFlags = some privileges ∧
        MapsRange pageTables.rootTable pageTables'.rootTable (mappingStart programHeader) addr
          (mappingEnd programHeader - mappingStart programHeader) privileges true) ∧
      Room pageTables' (allocatedPages ++ [(mappingStart programHeader, ⟨addr, bytes⟩)])
        (mappingEnd programHeader) hi := by
  obtain ⟨privileges, hprivileges⟩ := Option.isSome_iff_exists.mp hfits.flags
  have hstart := mappingStart_add_mod programHeader
  have hlt := mappingStart_lt_mappingEnd programHeader hfits.memorySize_pos
  have hendEq := mappingEnd_eq programHeader
  have hmemEnd := le_mappingEnd programHeader
  have hoffset := Nat.mod_lt programHeader.virtualAddress pageSize_pos
  -- the sizes `load_elf` computes, none of which overflows in the lower half
  have hreal : alignUpChecked programHeader.memorySize pageSize =
      some (alignUp programHeader.memorySize pageSize) :=
    alignUpChecked_of_le (by unfold usizeMax pageSize at *; omega)
  have hspilled : checkedAdd (programHeader.virtualAddress % pageSize) programHeader.memorySize =
      some (programHeader.virtualAddress % pageSize + programHeader.memorySize) :=
    checkedAdd_of_le (by unfold usizeMax pageSize at *; omega)
  have hspilledPages :
      alignUpChecked (programHeader.virtualAddress % pageSize + programHeader.memorySize)
        pageSize = some (alignUp (programHeader.virtualAddress % pageSize +
          programHeader.memorySize) pageSize) :=
    alignUpChecked_of_le (by unfold usizeMax pageSize at *; omega)
  have hpages := sizeInPages_mul (programHeader.virtualAddress % pageSize) programHeader.memorySize
  have hL := Nat.sub_eq_of_eq_add' hendEq
  have hspan : programHeader.virtualAddress % pageSize + programHeader.memorySize ≤
      mappingEnd programHeader - mappingStart programHeader :=
    hL ▸ le_alignUp pageSize_pos
  have hsizePos : 0 < mappingEnd programHeader - mappingStart programHeader := by omega
  have hsizeMod : (mappingEnd programHeader - mappingStart programHeader) % pageSize = 0 := by
    have := mappingStart_mod programHeader
    have := mappingEnd_mod programHeader
    unfold pageSize at *
    omega
  have hnew : PinnedHeapPages.new addr
      (alignUp programHeader.memorySize pageSize / pageSize +
        (alignUp (programHeader.virtualAddress % pageSize + programHeader.memorySize) pageSize /
          pageSize - alignUp programHeader.memorySize pageSize / pageSize)) =
      some ⟨addr, List.replicate (mappingEnd programHeader - mappingStart programHeader) 0⟩ := by
    rw [PinnedHeapPages.new_of_pos (Nat.pos_of_mul_pos_right ((hpages.trans hL.symm) ▸ hsizePos)),
      hpages, ← hL]
  have hdataLength : ((elf.data.drop programHeader.offsetInFile).take programHeader.fileSize).length =
      programHeader.fileSize := by
    have := hfits.inFile
    simp only [List.length_take, List.length_drop]
    omega
  -- the map at the bottom of the room
  obtain ⟨root', hmap, hmapsRange, hfree'⟩ := map_freeIn_mapsRange
    (XWRMode.fromProgramHeaderFlags_ne hprivileges) (mappingStart_mod programHeader)
    (by omega) haddr.1 hsizeMod hsizePos (by have := haddr.2; omega) hroom.wellFormed
    (hroom.free.mono hlo) (by omega) hhi (hroom.not_contains hlo (by omega) hsizePos)
  refine ⟨⟨root', pageTables.alreadyMapped ++ [⟨(mappingStart programHeader,
      mappingStart programHeader + (mappingEnd programHeader - mappingStart programHeader - 1)),
      privileges⟩]⟩, _, ?_, segmentImage_fill hdataLength (fun i hi => ?_)
      (by have := hfits.fileSize_le; omega), ⟨privileges, hprivileges, hmapsRange⟩, ?_⟩
  · have hfill : (⟨addr, List.replicate (mappingEnd programHeader - mappingStart programHeader) 0⟩ :
        PinnedHeapPages).fill ((elf.data.drop programHeader.offsetInFile).take programHeader.fileSize)
          (programHeader.virtualAddress % pageSize) = some ⟨addr,
        (List.replicate (mappingEnd programHeader - mappingStart programHeader) 0).take
            (programHeader.virtualAddress % pageSize) ++
          (elf.data.drop programHeader.offsetInFile).take programHeader.fileSize ++
          (List.replicate (mappingEnd programHeader - mappingStart programHeader) 0).drop
            (programHeader.virtualAddress % pageSize +
              ((elf.data.drop programHeader.offsetInFile).take programHeader.fileSize).length)⟩ :=
      PinnedHeapPages.fill_of_le (by
        simp only [hdataLength, List.length_replicate]
        have := hfits.fileSize_le
        omega)
    rw [hL] at hmap
    simp only [loadSegment, ElfFile.getProgramHeaderData_of_le hfits.inFile, hdataLength,
      Nat.not_lt.mpr hfits.fileSize_le, hreal, hspilled, hspilledPages, hnew, hfill,
      sub_mod_eq_mappingStart, hroom.insertNew_eq hlo (by omega), hprivileges,
      RootPageTableHolder.mapUserspace, hpages, hmap, Option.bind_eq_bind, Option.bind_some,
      ↓reduceIte]
    rw [← hL]
    rfl
  · rw [List.getElem?_take_of_lt hi, List.getElem?_drop]
  · rw [Nat.add_sub_cancel' hlt.le] at hfree'
    exact (hroom.map hmapsRange.wellFormed hfree' hlo hsizePos (by omega)).insert hlt _

/-- A loaded segment stays loaded under later maps that keep its addresses and
later pages recorded after its own. -/
theorem SegmentLoaded.congr {addr : ℕ} {programHeader : ElfProgramHeaderEntry}
    {root root' : FirstLevelTable} {allocatedPages allocatedPages' : List (ℕ × PinnedHeapPages)}
    (hloaded : SegmentLoaded elf addr programHeader root allocatedPages)
    (hkept : ∀ entry ∈ allocatedPages, entry ∈ allocatedPages')
    (hsame : ∀ va, mappingStart programHeader ≤ va → va < mappingEnd programHeader →
      resolve root' va = resolve root va) :
    SegmentLoaded elf addr programHeader root' allocatedPages' where
  recorded := by
    obtain ⟨bytes, hmem, himage⟩ := hloaded.recorded
    exact ⟨bytes, hkept _ hmem, himage⟩
  mapped := by
    obtain ⟨privileges, hprivileges, hmaps⟩ := hloaded.mapped
    refine ⟨privileges, hprivileges, hmaps.congr fun va hlo hhi => hsame va hlo ?_⟩
    have := mappingStart_lt_mappingEnd programHeader
    omega

/-- The loop over the loadable segments, on a clear part of the lower half into
which they fit in order: every segment is loaded, what lies outside the part
is kept, and the part above the last segment stays clear. -/
theorem loadSegments_spec {segmentAddr : ℕ → ℕ} (haddr : ∀ k, HeapPages (segmentAddr k))
    {hi : ℕ} (hhi : hi ≤ 2 ^ 38) :
    ∀ (programHeaders : List ElfProgramHeaderEntry) (i lo : ℕ) (pageTables : RootPageTableHolder)
      (allocatedPages : List (ℕ × PinnedHeapPages)), 0 < lo →
      (∀ programHeader ∈ programHeaders, SegmentFits elf programHeader) →
      SegmentsInOrder lo programHeaders → segmentsEnd lo programHeaders ≤ hi →
      Room pageTables allocatedPages lo hi →
      ∃ pageTables' allocatedPages',
        loadSegments elf segmentAddr i programHeaders (pageTables, allocatedPages) =
          some (pageTables', allocatedPages') ∧
        Room pageTables' allocatedPages' (segmentsEnd lo programHeaders) hi ∧
        (∀ k (hk : k < programHeaders.length), SegmentLoaded elf (segmentAddr (i + k))
          programHeaders[k] pageTables'.rootTable allocatedPages') ∧
        (∀ va, IsCanonical va → va < lo ∨ hi ≤ va →
          resolve pageTables'.rootTable va = resolve pageTables.rootTable va) ∧
        ∀ entry ∈ allocatedPages, entry ∈ allocatedPages'
  | [], _, _, pageTables, allocatedPages, _, _, _, _, hroom =>
      ⟨pageTables, allocatedPages, rfl, hroom, fun k hk => absurd hk (Nat.not_lt_zero k),
        fun _ _ _ => rfl, fun _ h => h⟩
  | programHeader :: programHeaders, i, lo, pageTables, allocatedPages, hlo0, hfits,
      ⟨hlo, horder⟩, hend, hroom => by
    have hfirst := hfits programHeader List.mem_cons_self
    have hlt := mappingStart_lt_mappingEnd programHeader hfirst.memorySize_pos
    have hendFirst : mappingEnd programHeader ≤ hi := horder.le_segmentsEnd.trans hend
    obtain ⟨pageTables₁, bytes, hstep, himage, ⟨privileges, hprivileges, hmaps⟩, hroom₁⟩ :=
      loadSegment_spec hfirst (haddr i) hroom hlo0 hlo hendFirst hhi
    -- the rest of the segments, in the part above this one
    obtain ⟨pageTables', allocatedPages', hrest, hroom', hloaded, hframe, hkept⟩ :=
      loadSegments_spec haddr hhi programHeaders (i + 1) (mappingEnd programHeader) pageTables₁ _
        (by omega) (fun programHeader' hmem => hfits programHeader' (List.mem_cons_of_mem _ hmem))
        horder hend hroom₁
    refine ⟨pageTables', allocatedPages', ?_, hroom', ?_, ?_, ?_⟩
    · rw [loadSegments_cons, hstep, Option.bind_some]
      exact hrest
    · intro k hk
      cases k with
      | zero =>
        -- this segment: the later ones record pages after its own and map above it
        simp only [List.getElem_cons_zero, Nat.add_zero]
        refine ⟨⟨bytes, hkept _ (List.mem_append_right _ (List.mem_singleton_self _)), himage⟩,
          privileges, hprivileges, hmaps.mapped.congr fun va hva hvahi => hframe va ?_ (.inl ?_)⟩
        · unfold IsCanonical InHalf
          omega
        · omega
      | succ k =>
        have hnext := hloaded k (by simpa using hk)
        rw [show i + 1 + k = i + (k + 1) by omega] at hnext
        simpa using hnext
    · intro va hva hout
      rw [hframe va hva (by omega), hmaps.frame va hva (by omega)]
    · intro entry hentry
      exact hkept entry (List.mem_append_left _ hentry)

end Segments

/-! ## `brk` -/

/-- `Brk::new` after the last segment: four zeroed pages, mapped read-write
from `align_up(bss_end)` on. -/
theorem Brk.new_eq {bssEnd addr : ℕ} {pageTables pageTables' : RootPageTableHolder}
    (hbss : bssEnd + pageSize ≤ usizeMax)
    (hend : alignUp bssEnd pageSize + brkSize * pageSize ≤ usizeMax)
    (hmap : pageTables.map (alignUp bssEnd pageSize) addr (brkSize * pageSize) .readWrite true =
      some pageTables') :
    Brk.new bssEnd pageTables addr = some (⟨addr, List.replicate (brkSize * pageSize) 0⟩,
      ⟨alignUp bssEnd pageSize, alignUp bssEnd pageSize,
        alignUp bssEnd pageSize + brkSize * pageSize⟩, pageTables') := by
  simp only [Brk.new, alignUpChecked_of_le hbss, PinnedHeapPages.new_of_pos (by decide : 0 < brkSize),
    RootPageTableHolder.mapUserspace, List.length_replicate, hmap, checkedAdd_of_le hend,
    Option.bind_eq_bind, Option.bind_some]
  rfl

/-- `max(p_vaddr + p_memsz)` over segments in order rounds up to where the
last one ends. -/
theorem alignUp_max_eq_segmentsEnd {lo : ℕ} {programHeaders : List ElfProgramHeaderEntry}
    (horder : SegmentsInOrder lo programHeaders) (hne : programHeaders ≠ []) {bssEnd : ℕ}
    (hmax : (programHeaders.map fun programHeader =>
      programHeader.virtualAddress + programHeader.memorySize).max? = some bssEnd) :
    alignUp bssEnd pageSize = segmentsEnd lo programHeaders := by
  obtain ⟨hmem, hle⟩ := List.max?_eq_some_iff.mp hmax
  obtain ⟨top, htop, hbss⟩ := List.mem_map.mp hmem
  obtain ⟨last, hlast, hend⟩ := exists_mappingEnd_eq_segmentsEnd lo hne
  have hendMod : segmentsEnd lo programHeaders % pageSize = 0 := hend ▸ mappingEnd_mod last
  apply le_antisymm
  · -- `bss_end` is the end of some segment, below where they all end
    have := horder.mappingEnd_le top htop
    have := le_mappingEnd top
    exact alignUp_le_of_dvd pageSize_pos (by omega) hendMod
  · -- and no lower than the end of the last one
    rw [← hend]
    exact alignUp_mono pageSize_pos (hle _ (List.mem_map_of_mem hlast))

/-! ## `load_elf` -/

/-- What the amended claim assumes of the rest of the kernel, for a program
whose pages end at `hi`: the tables of `new_with_kernel_mapping(false)` are
well formed, clear from the trampoline page up to `hi` and at the stack, and
record no mapping there (they map the kernel's own sections, far above a user
program), and the heap's pages are page aligned and addressable. -/
structure LoadEnvironment.Fits (loadEnv : LoadEnvironment) (hi : ℕ) : Prop where
  lowerHalf : hi ≤ 2 ^ 38
  wellFormed : WellFormed loadEnv.kernelTables.rootTable
  free : FreeIn loadEnv.kernelTables.rootTable TRAMPOLINE_VADDR.toNat hi
  stackFree : ∀ va, stackEnd ≤ va → va < stackEnd + stackSize →
    resolve loadEnv.kernelTables.rootTable va = none
  kernelMappings : ∀ entry ∈ loadEnv.kernelTables.alreadyMapped,
    hi ≤ entry.virtualRange.1 ∧ entry.virtualRange.2 < stackEnd
  stackAddr : HeapPages loadEnv.stackAddr
  trampolinePhysAddr : HeapPages loadEnv.trampolinePhysAddr
  segmentAddr : ∀ k, HeapPages (loadEnv.segmentAddr k)
  brkAddr : HeapPages loadEnv.brkAddr

/-- What the amended claim asks of the file: its loadable segments are
`first :: rest`; the first starts at file offset 0 and holds the program
header table; each lies in the file with permissions the kernel maps; and
their pages follow one another upwards from the page after the trampoline. -/
structure LoadableFile (elf : ElfFile) (first : ElfProgramHeaderEntry)
    (rest : List ElfProgramHeaderEntry) : Prop where
  programHeaders : ∃ programHeaders, elf.getProgramHeaders = some programHeaders ∧
    programHeaders.filter (·.headerType == ptLoad) = first :: rest
  firstAtZero : first.offsetInFile = 0
  tableInFirst : elf.getHeader.startProgramHeader +
    programHeaderEntrySize * elf.getHeader.numberOfEntriesInProgramHeader ≤ first.fileSize
  segments : ∀ programHeader ∈ first :: rest, SegmentFits elf programHeader
  inOrder : SegmentsInOrder (TRAMPOLINE_VADDR.toNat + pageSize) (first :: rest)

/-- What `load_elf` returns for such a file when the arguments fit: the entry
point; the stack as `set_up_arguments` wrote it, with `AT_PHDR` the first
segment's address plus `e_phoff`, mapped read-write at the top of the address
space; the trampoline page; every segment loaded; the program header table
readable at `AT_PHDR`; and `brk` from `align_up` of the highest segment end,
above every segment, with its four zeroed pages recorded and mapped. -/
structure ElfLoaded (loadEnv : LoadEnvironment) (elf : ElfFile) (name : List UInt8)
    (args env : List (List UInt8)) (first : ElfProgramHeaderEntry)
    (rest : List ElfProgramHeaderEntry) (loaded : LoadedElf) : Prop where
  entryAddress : loaded.entryAddress = elf.getHeader.entryPoint
  stack : ∃ stackBytes, (stackEnd, ⟨loadEnv.stackAddr, stackBytes⟩) ∈ loaded.allocatedPages ∧
    setUpArguments (List.replicate stackSize 0) name args env
        ⟨first.virtualAddress + elf.getHeader.startProgramHeader,
          elf.getHeader.sizeProgramHeaderEntry, elf.getHeader.numberOfEntriesInProgramHeader⟩
        loadEnv.randomBytes = some (.ok (loaded.argsStart, stackBytes)) ∧
    MapsOnto loaded.pageTables.rootTable stackEnd loadEnv.stackAddr stackSize .readWrite true
  trampoline : MapsOnto loaded.pageTables.rootTable TRAMPOLINE_VADDR.toNat
    loadEnv.trampolinePhysAddr pageSize .readExecute true
  segments : ∀ k (hk : k < (first :: rest).length), SegmentLoaded elf (loadEnv.segmentAddr k)
    (first :: rest)[k] loaded.pageTables.rootTable loaded.allocatedPages
  programHeaderTable : ∀ j < programHeaderEntrySize * elf.getHeader.numberOfEntriesInProgramHeader,
    ∃ leaf bytes, resolve loaded.pageTables.rootTable
        (first.virtualAddress + elf.getHeader.startProgramHeader + j) = some leaf ∧
      leaf.1.validity = true ∧ leaf.1.userModeAccessible = true ∧
      (mappingStart first, ⟨loadEnv.segmentAddr 0, bytes⟩) ∈ loaded.allocatedPages ∧
      leafAddress leaf (first.virtualAddress + elf.getHeader.startProgramHeader + j) =
        loadEnv.segmentAddr 0 +
          (first.virtualAddress % pageSize + (elf.getHeader.startProgramHeader + j)) ∧
      bytes[first.virtualAddress % pageSize + (elf.getHeader.startProgramHeader + j)]? =
        elf.data[elf.getHeader.startProgramHeader + j]?
  brk : ∃ bssEnd, ((first :: rest).map fun programHeader =>
      programHeader.virtualAddress + programHeader.memorySize).max? = some bssEnd ∧
    loaded.brk = ⟨alignUp bssEnd pageSize, alignUp bssEnd pageSize,
      alignUp bssEnd pageSize + brkSize * pageSize⟩ ∧
    (∀ programHeader ∈ first :: rest, mappingEnd programHeader ≤ alignUp bssEnd pageSize) ∧
    (alignUp bssEnd pageSize, ⟨loadEnv.brkAddr, List.replicate (brkSize * pageSize) 0⟩) ∈
      loaded.allocatedPages ∧
    MapsOnto loaded.pageTables.rootTable (alignUp bssEnd pageSize) loadEnv.brkAddr
      (brkSize * pageSize) .readWrite true

section Load

variable {loadEnv : LoadEnvironment} {hi : ℕ}

theorem trampoline_toNat : TRAMPOLINE_VADDR.toNat = 0x1000 := rfl

/-- The first-level slot of the stack's addresses is the last one, which no
address of the lower half uses. -/
theorem entryIndex_ne_of_stack {b va : ℕ} (hb : b < 2 ^ 38) (hva : stackEnd ≤ va)
    (hva' : va < stackEnd + stackSize) : entryIndex b 2 ≠ entryIndex va 2 := by
  unfold stackEnd stackSize usizeMax pageSize stackSizePages at hva hva'
  simp only [ne_eq, entryIndex, Fin.ext_iff]
  omega

/-- The stack, mapped first, on the kernel's tables at the top of the upper
half: it leaves the room from the trampoline page up to `hi` as it was. -/
theorem mapStack_spec (henv : loadEnv.Fits hi) (stackBytes : List UInt8) :
    ∃ root, loadEnv.kernelTables.mapUserspace stackEnd loadEnv.stackAddr stackSize .readWrite =
        some ⟨root, loadEnv.kernelTables.alreadyMapped ++
          [⟨(stackEnd, stackEnd + (stackSize - 1)), .readWrite⟩]⟩ ∧
      MapsRange loadEnv.kernelTables.rootTable root stackEnd loadEnv.stackAddr stackSize
        .readWrite true ∧
      Room ⟨root, loadEnv.kernelTables.alreadyMapped ++
          [⟨(stackEnd, stackEnd + (stackSize - 1)), .readWrite⟩]⟩
        [(stackEnd, ⟨loadEnv.stackAddr, stackBytes⟩)] TRAMPOLINE_VADDR.toNat hi := by
  have hhi := henv.lowerHalf
  have hstackEnd : 2 ^ 38 < stackEnd := by decide
  -- no kernel mapping reaches the stack
  have hnone : loadEnv.kernelTables.alreadyMapped.any
      (·.contains (stackEnd, stackEnd + (stackSize - 1))) = false := by
    rw [List.any_eq_false]
    intro entry hentry hcontains
    rw [MappingEntry.contains_iff] at hcontains
    have := henv.kernelMappings entry hentry
    omega
  obtain ⟨root, hmap, hmaps, hslots⟩ := map_pages
    (show XWRMode.readWrite ≠ .pointerToNextLevel by decide) (by decide) (by decide)
    henv.stackAddr.1 (by decide) (by decide) (by decide) (by decide)
    (by have := henv.stackAddr.2; unfold stackSize pageSize stackSizePages; omega)
    henv.wellFormed henv.stackFree hnone
  refine ⟨root, hmap, hmaps, ⟨hmaps.wellFormed, ?_, ?_, ?_⟩⟩
  · -- the lower half keeps its addresses and its first-level slots
    refine henv.free.of_frame (fun va _ hva => hmaps.frame va ?_ (by omega)) fun b _ hb =>
      hslots b fun va hva hva' => entryIndex_ne_of_stack (by omega) hva hva'
    unfold IsCanonical InHalf
    omega
  · intro entry hentry
    rcases List.mem_append.mp hentry with hkernel | hstack
    · exact .inr (henv.kernelMappings entry hkernel).1
    · rw [List.mem_singleton.mp hstack]
      exact .inr (by dsimp only; omega)
  · intro entry hentry
    rw [List.mem_singleton.mp hentry]
    exact .inr (by dsimp only; omega)

/-- The trampoline page, at the bottom of the room the stack leaves. -/
theorem mapTrampoline_spec (henv : loadEnv.Fits hi) {pageTables : RootPageTableHolder}
    {allocatedPages : List (ℕ × PinnedHeapPages)}
    (hroom : Room pageTables allocatedPages TRAMPOLINE_VADDR.toNat hi)
    (hroomEnd : TRAMPOLINE_VADDR.toNat + pageSize ≤ hi) :
    ∃ root, pageTables.mapUserspace TRAMPOLINE_VADDR.toNat loadEnv.trampolinePhysAddr pageSize
          .readExecute = some ⟨root, pageTables.alreadyMapped ++
        [⟨(TRAMPOLINE_VADDR.toNat, TRAMPOLINE_VADDR.toNat + (pageSize - 1)), .readExecute⟩]⟩ ∧
      MapsRange pageTables.rootTable root TRAMPOLINE_VADDR.toNat loadEnv.trampolinePhysAddr
        pageSize .readExecute true ∧
      Room ⟨root, pageTables.alreadyMapped ++
          [⟨(TRAMPOLINE_VADDR.toNat, TRAMPOLINE_VADDR.toNat + (pageSize - 1)), .readExecute⟩]⟩
        allocatedPages (TRAMPOLINE_VADDR.toNat + pageSize) hi := by
  obtain ⟨root, hmap, hmaps, hfree⟩ := map_freeIn_mapsRange
    (show XWRMode.readExecute ≠ .pointerToNextLevel by decide) (by decide) (by decide)
    henv.trampolinePhysAddr.1 (by decide) pageSize_pos
    (by have := henv.trampolinePhysAddr.2; unfold pageSize; omega) hroom.wellFormed hroom.free
    hroomEnd henv.lowerHalf (hroom.not_contains le_rfl hroomEnd pageSize_pos)
  exact ⟨root, hmap, hmaps, hroom.map hmaps.wellFormed hfree le_rfl pageSize_pos le_rfl⟩

/-- `brk`, at the bottom of the room the segments leave and filling it:
`Brk::new` maps its four pages there, and `insert` records them. -/
theorem mapBrk_spec (henv : loadEnv.Fits hi) {pageTables : RootPageTableHolder}
    {allocatedPages : List (ℕ × PinnedHeapPages)} {lo bssEnd : ℕ}
    (hroom : Room pageTables allocatedPages lo hi) (hlo0 : 0 < lo)
    (hbrk : alignUp bssEnd pageSize = lo) (hroomEnd : lo + brkSize * pageSize = hi) :
    ∃ root, Brk.new bssEnd pageTables loadEnv.brkAddr =
        some (⟨loadEnv.brkAddr, List.replicate (brkSize * pageSize) 0⟩,
          ⟨lo, lo, lo + brkSize * pageSize⟩,
          ⟨root, pageTables.alreadyMapped ++
            [⟨(lo, lo + (brkSize * pageSize - 1)), .readWrite⟩]⟩) ∧
      MapsRange pageTables.rootTable root lo loadEnv.brkAddr (brkSize * pageSize) .readWrite true ∧
      insertNew allocatedPages lo ⟨loadEnv.brkAddr, List.replicate (brkSize * pageSize) 0⟩ =
        some (allocatedPages ++
          [(lo, ⟨loadEnv.brkAddr, List.replicate (brkSize * pageSize) 0⟩)]) := by
  have hhi := henv.lowerHalf
  have hsize : 0 < brkSize * pageSize := by decide
  have hbss : bssEnd ≤ alignUp bssEnd pageSize := le_alignUp pageSize_pos
  obtain ⟨root, hmap, hmaps, -⟩ := map_freeIn_mapsRange
    (show XWRMode.readWrite ≠ .pointerToNextLevel by decide) (hbrk ▸ alignUp_mod pageSize_pos)
    (by omega) henv.brkAddr.1 (by decide) hsize
    (by have := henv.brkAddr.2; unfold brkSize pageSize; omega) hroom.wellFormed hroom.free
    hroomEnd.le hhi (hroom.not_contains le_rfl hroomEnd.le hsize)
  refine ⟨root, ?_, hmaps, hroom.insertNew_eq le_rfl (by omega) _⟩
  rw [← hbrk] at hmap ⊢
  exact Brk.new_eq (by unfold usizeMax pageSize at *; omega)
    (by unfold usizeMax brkSize pageSize at *; omega) hmap

/-- The segment ends `load_elf` adds up for `bss_end` do not overflow. -/
theorem mapM_checkedAdd {programHeaders : List ElfProgramHeaderEntry}
    (h : ∀ programHeader ∈ programHeaders,
      programHeader.virtualAddress + programHeader.memorySize ≤ usizeMax) :
    programHeaders.mapM (fun l => checkedAdd l.virtualAddress l.memorySize) =
      some (programHeaders.map fun l => l.virtualAddress + l.memorySize) := by
  induction programHeaders with
  | nil => rfl
  | cons programHeader programHeaders ih =>
    rw [List.mapM_cons, checkedAdd_of_le (h _ List.mem_cons_self),
      ih fun programHeader' hmem => h programHeader' (List.mem_cons_of_mem _ hmem)]
    rfl

end Load

/-- `load_elf` on a file whose first loadable segment starts at file offset 0,
whose segments lie in the file in order, on pages the kernel leaves free:
it returns, fails exactly when the arguments do not fit the stack, and
otherwise has loaded the image. -/
theorem loadElf_loads_segments (loadEnv : LoadEnvironment) (elf : ElfFile) (name : List UInt8)
    (args env : List (List UInt8)) {first : ElfProgramHeaderEntry}
    {rest : List ElfProgramHeaderEntry} (hfile : LoadableFile elf first rest)
    (henv : loadEnv.Fits (segmentsEnd (TRAMPOLINE_VADDR.toNat + pageSize) (first :: rest) +
      brkSize * pageSize)) :
    ∃ result, loadElf loadEnv elf name args env = some result ∧
      (result = .error .stackToSmall ↔ stackSize ≤ argumentsImageLength name args env) ∧
      ∀ loaded, result = .ok loaded → ElfLoaded loadEnv elf name args env first rest loaded := by
  obtain ⟨programHeaders, hheaders, hfilter⟩ := hfile.programHeaders
  have hfind : programHeaders.find? (·.headerType == ptLoad) = some first := by
    rw [← List.head?_filter, hfilter]
    rfl
  have hfirst := hfile.segments first List.mem_cons_self
  have hhi := henv.lowerHalf
  have hlow := hfile.inOrder.1
  have hend := hfile.inOrder.mappingEnd_le
  have hphdr : checkedAdd first.virtualAddress elf.getHeader.startProgramHeader =
      some (first.virtualAddress + elf.getHeader.startProgramHeader) := by
    have := le_mappingEnd first
    have := hend first List.mem_cons_self
    have := hfirst.fileSize_le
    have := hfile.tableInFirst
    exact checkedAdd_of_le (by unfold usizeMax; omega)
  have hstack : PinnedHeapPages.new loadEnv.stackAddr stackSizePages =
      some ⟨loadEnv.stackAddr, List.replicate (stackSizePages * pageSize) 0⟩ :=
    PinnedHeapPages.new_of_pos (by decide)
  rw [show stackSizePages * pageSize = stackSize from rfl] at hstack
  -- up to the stack's contents `load_elf` does not look at the arguments; its binds are
  -- taken one at a time, since rewriting them all at once costs the kernel dearly
  unfold loadElf
  rw [hheaders, Option.bind_eq_bind, Option.bind_some, hfind, Option.bind_eq_bind,
    Option.bind_some, if_neg (not_not.mpr hfile.firstAtZero), hphdr, Option.bind_eq_bind,
    Option.bind_some, hstack, Option.bind_eq_bind, Option.bind_some]
  dsimp only
  by_cases hfits : argumentsImageLength name args env < stackSize
  · obtain ⟨argsStart, stackBytes, hargs⟩ : ∃ argsStart stackBytes,
        setUpArguments (List.replicate stackSize 0) name args env
          ⟨first.virtualAddress + elf.getHeader.startProgramHeader,
            elf.getHeader.sizeProgramHeaderEntry, elf.getHeader.numberOfEntriesInProgramHeader⟩
          loadEnv.randomBytes = some (.ok (argsStart, stackBytes)) :=
      ⟨_, _, setUpArguments_of_lt _ _ _ _ _ _ (by simpa using hfits)⟩
    -- the stack, the trampoline page, the segments and `brk`, each in the room the one
    -- before leaves
    have hsegEnd := hfile.inOrder.le_segmentsEnd
    obtain ⟨root₁, hmap₁, hmaps₁, hroom₁⟩ := mapStack_spec henv stackBytes
    obtain ⟨root₂, hmap₂, hmaps₂, hroom₂⟩ := mapTrampoline_spec henv hroom₁ (by omega)
    obtain ⟨pageTables₃, allocatedPages₃, hsegments, hroom₃, hloaded, hframe₃, hkept₃⟩ :=
      loadSegments_spec henv.segmentAddr hhi (first :: rest) 0 _ _ _ (by decide) hfile.segments
        hfile.inOrder (by omega) hroom₂
    have hends := mapM_checkedAdd fun programHeader hmem => by
      have := le_mappingEnd programHeader
      have := hend programHeader hmem
      unfold usizeMax
      omega
    obtain ⟨bssEnd, hmax⟩ : ∃ bssEnd, ((first :: rest).map fun programHeader =>
        programHeader.virtualAddress + programHeader.memorySize).max? = some bssEnd :=
      Option.isSome_iff_exists.mp (List.isSome_max?_of_ne_nil (by simp))
    have hbrkStart := alignUp_max_eq_segmentsEnd hfile.inOrder (List.cons_ne_nil _ _) hmax
    obtain ⟨root₄, hbrk, hmaps₄, hinsert⟩ :=
      mapBrk_spec henv hroom₃ (lt_of_lt_of_le (by decide) hsegEnd) hbrkStart rfl
    refine ⟨.ok ⟨elf.getHeader.entryPoint,
      ⟨root₄, pageTables₃.alreadyMapped ++
        [⟨(segmentsEnd (TRAMPOLINE_VADDR.toNat + pageSize) (first :: rest),
          segmentsEnd (TRAMPOLINE_VADDR.toNat + pageSize) (first :: rest) +
            (brkSize * pageSize - 1)), .readWrite⟩]⟩,
      allocatedPages₃ ++ [(segmentsEnd (TRAMPOLINE_VADDR.toNat + pageSize) (first :: rest),
        ⟨loadEnv.brkAddr, List.replicate (brkSize * pageSize) 0⟩)], argsStart,
      ⟨segmentsEnd (TRAMPOLINE_VADDR.toNat + pageSize) (first :: rest),
        segmentsEnd (TRAMPOLINE_VADDR.toNat + pageSize) (first :: rest),
        segmentsEnd (TRAMPOLINE_VADDR.toNat + pageSize) (first :: rest) + brkSize * pageSize⟩⟩,
      ?_, ⟨(fun h => nomatch h), fun h => by omega⟩, ?_⟩
    · have hinsertStack : insertNew [] stackEnd ⟨loadEnv.stackAddr, stackBytes⟩ =
          some [(stackEnd, ⟨loadEnv.stackAddr, stackBytes⟩)] := rfl
      rw [hargs, Option.bind_eq_bind, Option.bind_some]
      dsimp only
      rw [hinsertStack, Option.bind_eq_bind, Option.bind_some, hmap₁, Option.bind_eq_bind,
        Option.bind_some, hmap₂, Option.bind_eq_bind, Option.bind_some, hfilter, hsegments,
        Option.bind_eq_bind, Option.bind_some]
      dsimp only
      rw [hends, Option.bind_eq_bind, Option.bind_some, hmax]
      dsimp only
      rw [hbrk, Option.bind_eq_bind, Option.bind_some]
      dsimp only
      rw [hinsert]
      rfl
    · rintro loaded hloaded
      cases hloaded
      have hstackEnd : 2 ^ 38 < stackEnd := by decide
      -- the segments lie below `brk`, which is the last map
      have hsegments' : ∀ k (hk : k < (first :: rest).length), SegmentLoaded elf
          (loadEnv.segmentAddr k) (first :: rest)[k] root₄ (allocatedPages₃ ++
            [(segmentsEnd (TRAMPOLINE_VADDR.toNat + pageSize) (first :: rest),
              ⟨loadEnv.brkAddr, List.replicate (brkSize * pageSize) 0⟩)]) := by
        intro k hk
        have hk' := hloaded k hk
        rw [Nat.zero_add] at hk'
        have := hend _ (List.getElem_mem hk)
        refine hk'.congr (fun entry hentry => List.mem_append_left _ hentry)
          fun va _ hva => hmaps₄.frame va ?_ (by omega)
        unfold IsCanonical InHalf
        omega
      refine ⟨rfl, ⟨stackBytes, List.mem_append_left _ (hkept₃ _ (List.mem_singleton_self _)),
        hargs, hmaps₁.mapped.congr fun va hlo hva => ?_⟩, hmaps₂.mapped.congr fun va hlo hva => ?_,
        hsegments', fun j hj => ?_, ⟨bssEnd, hmax, by rw [hbrkStart], ?_, ?_, ?_⟩⟩
      · -- the stack, in the upper half, is out of the way of every later map
        have hcanonical : IsCanonical va := by
          unfold IsCanonical InHalf
          unfold stackEnd stackSize usizeMax pageSize stackSizePages at hlo hva
          omega
        rw [hmaps₄.frame va hcanonical (by omega), hframe₃ va hcanonical (.inr (by omega)),
          hmaps₂.frame va hcanonical (by omega)]
      · have hcanonical : IsCanonical va := by
          unfold IsCanonical InHalf
          omega
        rw [hmaps₄.frame va hcanonical (by omega), hframe₃ va hcanonical (.inl hva)]
      · -- the program header table lies in the first segment's file bytes
        have hfirstLoaded := hsegments' 0 (by simp)
        simp only [List.getElem_cons_zero] at hfirstLoaded
        have := hfile.tableInFirst
        have := hfirst.fileSize_le
        obtain ⟨_, leaf, bytes, -, hresolve, hvalid, -, huser, hmem, haddress, hbyte⟩ :=
          hfirstLoaded.userByte (show elf.getHeader.startProgramHeader + j < first.memorySize by
            omega)
        rw [if_pos (by omega), hfile.firstAtZero, Nat.zero_add] at hbyte
        rw [← Nat.add_assoc] at hresolve haddress
        exact ⟨leaf, bytes, hresolve, hvalid, huser, hmem, haddress, hbyte⟩
      · intro programHeader hmem
        rw [hbrkStart]
        exact hend programHeader hmem
      · rw [hbrkStart]
        exact List.mem_append_right _ (List.mem_singleton_self _)
      · rw [hbrkStart]
        exact hmaps₄.mapped
  · refine ⟨.error .stackToSmall, ?_, ⟨fun _ => by omega, fun _ => rfl⟩, fun _ h => by cases h⟩
    rw [setUpArguments_of_le (List.replicate stackSize 0) name args env _ _ (by simpa using hfits),
      Option.bind_eq_bind, Option.bind_some]
    rfl

/-- A 124-byte RISC-V executable laid out as the kernel's programs are: one
loadable segment, read and execute, mapping the whole file from offset 0 at
`0x10000` with `0x2000` bytes in memory; its code, `j .` at the entry point
`0x10078`, follows the program header table. -/
def sampleElfFile : List UInt8 :=
  [0x7f, 0x45, 0x4c, 0x46, 2, 1, 1, 0] ++ List.replicate 8 0 ++
    encodeLE 2 2 ++ encodeLE 2 0xf3 ++ encodeLE 4 1 ++ encodeLE 8 0x10078 ++ encodeLE 8 0x40 ++
    encodeLE 8 0 ++ encodeLE 4 0 ++ encodeLE 2 64 ++ encodeLE 2 0x38 ++ encodeLE 2 1 ++
    encodeLE 2 0x40 ++ encodeLE 2 0 ++ encodeLE 2 0 ++
    -- the program header table: one `PT_LOAD`, `R | X`, from file offset 0
    encodeLE 4 ptLoad ++ encodeLE 4 5 ++ encodeLE 8 0 ++ encodeLE 8 0x10000 ++
    encodeLE 8 0x10000 ++ encodeLE 8 0x7c ++ encodeLE 8 0x2000 ++ encodeLE 8 0x1000 ++
    encodeLE 4 0x6f

/-- The loadable segment of `sampleElfFile`. -/
def sampleSegment : ElfProgramHeaderEntry :=
  ⟨ptLoad, 5, 0, 0x10000, 0x10000, 0x7c, 0x2000, 0x1000⟩

/-- Empty kernel tables and heap pages in RAM. -/
def sampleEnvironment : LoadEnvironment :=
  ⟨RootPageTableHolder.empty, 0x80000000, 0x80200000, fun _ => 0x80400000, 0x80300000,
    fun _ => 0⟩

theorem loadElf_loads_segments_sample :
    ∃ elf, ElfFile.parse sampleElfFile = some (.ok elf) ∧ LoadableFile elf sampleSegment [] ∧
      sampleEnvironment.Fits 0x16000 ∧
      ∃ result, loadElf sampleEnvironment elf [0x73, 0x68] [] [] = some result ∧
        (result = .error .stackToSmall ↔ stackSize ≤ argumentsImageLength [0x73, 0x68] [] []) ∧
        ∀ loaded, result = .ok loaded →
          ElfLoaded sampleEnvironment elf [0x73, 0x68] [] [] sampleSegment [] loaded := by
  have hvalid : checkValidity sampleElfFile = some none := by decide +kernel
  have hheaders : (ElfFile.mk sampleElfFile hvalid).getProgramHeaders = some [sampleSegment] := by
    simp only [ElfFile.getProgramHeaders, ElfFile.getHeader]
    decide +kernel +revert
  have hfile : LoadableFile ⟨sampleElfFile, hvalid⟩ sampleSegment [] := by
    refine ⟨⟨_, hheaders, rfl⟩, rfl, by decide +kernel +revert, fun programHeader hmem => ?_,
      by decide⟩
    rw [List.mem_singleton.mp hmem]
    exact ⟨by decide +kernel +revert, by decide, by decide, rfl⟩
  have henv : sampleEnvironment.Fits 0x16000 :=
    ⟨by decide, wellFormed_empty, freeIn_empty _ _, fun _ _ _ => rfl, fun _ hmem => (by cases hmem),
      by decide, by decide, fun _ => show HeapPages 0x80400000 by decide, by decide⟩
  exact ⟨_, ElfFile.parse_eq_ok hvalid, hfile, henv,
    loadElf_loads_segments sampleEnvironment _ _ _ _ hfile henv⟩

end Solaya.Loader
