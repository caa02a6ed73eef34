import Solaya.Core.Loop
import Solaya.Core.Vec
import Solaya.Memory.PageTableEntry

/-!
# Three-level Sv39 page tables

`memory::page_tables`.  A `PageTable` is 512 entries; an entry of the first or
second level is either a leaf (a 1 GiB or 2 MiB page) or a pointer to a table
of the next level.  The tree is modelled directly: an entry above the last
level is a `Slot` that carries the table it points to.  The source tells a
pointer entry from an empty one by its physical address, and the tables it
points to are heap pages, never at address zero; so "the physical address is
zero" of a slot is "no table and a zero page number".

`RootPageTableHolder` also keeps `already_mapped`, the list of mapped virtual
ranges used for the overlap check; the names of the mappings only feed the
panic message and `Display` and are left out.
-/

namespace Solaya

/-- An entry of the first or second level with the table it points to. -/
structure Slot (α : Type) where
  entry : PageTableEntry
  table : Option α

namespace Slot

variable {α : Type}

/-- `PageTableEntry(null_mut())`. -/
def null : Slot α := ⟨PageTableEntry.null, none⟩

/-- `get_physical_address() == PhysAddr::zero()`. -/
def physicalAddressIsZero (slot : Slot α) : Bool :=
  slot.table.isNone && slot.entry.physicalPageNumber == 0

/-- `get_target_page_table`: the entry must not be a leaf and must point to a
table. -/
def getTargetPageTable (slot : Slot α) : Option α :=
  if slot.entry.isLeaf then none else slot.table

/-- `map`'s lazy allocation of the next level:
`set_physical_address(Box::leak(PageTable::zero()))` and `set_validity(true)`
when the entry's physical address is zero. -/
def ensureTable (slot : Slot α) (zero : α) : Slot α :=
  if slot.physicalAddressIsZero then ⟨slot.entry.setValidity true, some zero⟩ else slot

/-- A write through the pointer of the slot: the slot now points to `table`. -/
def withTable (slot : Slot α) (table : α) : Slot α :=
  { slot with table := some table }

end Slot

abbrev ThirdLevelTable := Fin 512 → PageTableEntry
abbrev SecondLevelTable := Fin 512 → Slot ThirdLevelTable
abbrev FirstLevelTable := Fin 512 → Slot SecondLevelTable

/-- `PageTable::zero()`. -/
def PageTable.zero {β : Type} (null : β) : Fin 512 → β := fun _ => null

/-- The index `get_entry_for_virtual_address` takes at `level`:
`(virtual_address >> (12 + 9 * level)) & 0x1ff`.  The source asserts
`level <= 2`; every call passes a constant 0, 1 or 2. -/
def entryIndex (virtualAddress level : ℕ) : Fin 512 :=
  ⟨virtualAddress / 2 ^ (12 + 9 * level) % 512, Nat.mod_lt _ (by decide)⟩

/-- The walk indices of an address depend only on its page number. -/
theorem entryIndex_eq_of_div_eq {va va' : ℕ} (h : va / pageSize = va' / pageSize)
    (level : ℕ) : entryIndex va level = entryIndex va' level := by
  have hdiv : ∀ x, x / 2 ^ (12 + 9 * level) = x / pageSize / 2 ^ (9 * level) := by
    intro x
    rw [pow_add, ← Nat.div_div_eq_div_mul]
    rfl
  simp only [entryIndex, hdiv va, hdiv va', h]

/-- `get_entry_for_virtual_address`. -/
def getEntryForVirtualAddress {β : Type} (table : Fin 512 → β) (virtualAddress level : ℕ) : β :=
  table (entryIndex virtualAddress level)

/-- A write through `get_entry_for_virtual_address_mut`. -/
def setEntryForVirtualAddress {β : Type} (table : Fin 512 → β) (virtualAddress level : ℕ)
    (value : β) : Fin 512 → β :=
  Function.update table (entryIndex virtualAddress level) value

/-- `MappingEntry`: the range is `virtual_address_start..virtual_end` with
`virtual_end = start + size - 1`, so both ends are mapped. -/
structure MappingEntry where
  virtualRange : ℕ × ℕ
  privileges : XWRMode
  deriving DecidableEq, Repr

/-- `MappingEntry::contains`: the two ranges, read with both ends included,
intersect. -/
def MappingEntry.contains (mapping : MappingEntry) (range : ℕ × ℕ) : Bool :=
  decide (mapping.virtualRange.1 ≤ range.2) && decide (range.1 ≤ mapping.virtualRange.2)

@[simp]
theorem MappingEntry.contains_iff (mapping : MappingEntry) (range : ℕ × ℕ) :
    mapping.contains range = true ↔
      mapping.virtualRange.1 ≤ range.2 ∧ range.1 ≤ mapping.virtualRange.2 := by
  simp [MappingEntry.contains]

/-- `RootPageTableHolder`. -/
structure RootPageTableHolder where
  rootTable : FirstLevelTable
  alreadyMapped : List MappingEntry

namespace RootPageTableHolder

/-- `RootPageTableHolder::empty`. -/
def empty : RootPageTableHolder :=
  ⟨PageTable.zero Slot.null, []⟩

/-- The `can_be_mapped_with` closure of `map`. -/
def canBeMappedWith (virtualAddressStart physicalAddressStart size mappedBytes offset : ℕ) :
    Bool :=
  decide (mappedBytes ≤ size - offset) && isAligned (virtualAddressStart + offset) mappedBytes &&
    isAligned (physicalAddressStart + offset) mappedBytes

/-- The 1 GiB branch of `map`'s loop: the first-level entry of `va` must be
invalid with a zero address and becomes the leaf. -/
def writeGiB (root : FirstLevelTable) (va pa : ℕ) (privileges : XWRMode)
    (isUserModeAccessible : Bool) : Option FirstLevelTable :=
  let first := getEntryForVirtualAddress root va 2
  if first.entry.validity || !first.physicalAddressIsZero then none
  else (first.entry.setLeaf privileges pa isUserModeAccessible).map fun entry =>
    setEntryForVirtualAddress root va 2 { first with entry }

/-- The 2 MiB branch of `map`'s loop: the first-level entry of `va` gets a
second-level table if it has none, whose entry for `va` must be invalid with a
zero address and becomes the leaf. -/
def writeMiB (root : FirstLevelTable) (va pa : ℕ) (privileges : XWRMode)
    (isUserModeAccessible : Bool) : Option FirstLevelTable :=
  let first := (getEntryForVirtualAddress root va 2).ensureTable (PageTable.zero Slot.null)
  first.getTargetPageTable.bind fun second =>
    let secondEntry := getEntryForVirtualAddress second va 1
    if secondEntry.entry.validity || !secondEntry.physicalAddressIsZero then none
    else (secondEntry.entry.setLeaf privileges pa isUserModeAccessible).map fun entry =>
      setEntryForVirtualAddress root va 2
        (first.withTable (setEntryForVirtualAddress second va 1 { secondEntry with entry }))

/-- The 4 KiB branch of `map`'s loop: tables are allocated on the way down as
needed, and the third-level entry of `va` must be invalid. -/
def writePage (root : FirstLevelTable) (va pa : ℕ) (privileges : XWRMode)
    (isUserModeAccessible : Bool) : Option FirstLevelTable :=
  let first := (getEntryForVirtualAddress root va 2).ensureTable (PageTable.zero Slot.null)
  first.getTargetPageTable.bind fun second =>
    let secondEntry :=
      (getEntryForVirtualAddress second va 1).ensureTable (PageTable.zero PageTableEntry.null)
    secondEntry.getTargetPageTable.bind fun third =>
      let thirdEntry := getEntryForVirtualAddress third va 0
      if thirdEntry.validity then none
      else (thirdEntry.setLeaf privileges pa isUserModeAccessible).map fun entry =>
        setEntryForVirtualAddress root va 2 (first.withTable
          (setEntryForVirtualAddress second va 1 (secondEntry.withTable
            (setEntryForVirtualAddress third va 0 entry))))

/-- One iteration of `map`'s loop at `offset`: the tables after it and the
number of bytes it mapped.  The branches are tried from the largest page
down; the last one asserts the alignment the first two test. -/
def mapStep (root : FirstLevelTable) (virtualAddressStart physicalAddressStart size : ℕ)
    (privileges : XWRMode) (isUserModeAccessible : Bool) (offset : ℕ) :
    Option (FirstLevelTable × ℕ) :=
  let va := virtualAddressStart + offset
  let pa := physicalAddressStart + offset
  if canBeMappedWith virtualAddressStart physicalAddressStart size gib1 offset then
    (writeGiB root va pa privileges isUserModeAccessible).map (·, gib1)
  else if canBeMappedWith virtualAddressStart physicalAddressStart size mib2 offset then
    (writeMiB root va pa privileges isUserModeAccessible).map (·, mib2)
  else if !isAligned va pageSize || !isAligned pa pageSize then none
  else (writePage root va pa privileges isUserModeAccessible).map (·, pageSize)

/-- The `while offset < size` loop of `map`.  Every iteration maps at least one
page, so `size` iterations of fuel are more than enough. -/
def mapLoop (virtualAddressStart physicalAddressStart size : ℕ) (privileges : XWRMode)
    (isUserModeAccessible : Bool) (fuel : ℕ) (root : FirstLevelTable) (offset : ℕ) :
    Option FirstLevelTable :=
  Loop.whileBelow size (fun root offset =>
      (mapStep root virtualAddressStart physicalAddressStart size privileges
        isUserModeAccessible offset).map fun (root', mapped) => (root', offset + mapped))
    fuel root offset

/-- `RootPageTableHolder::map`. -/
def map (holder : RootPageTableHolder) (virtualAddressStart physicalAddressStart size : ℕ)
    (privileges : XWRMode) (isUserModeAccessible : Bool) : Option RootPageTableHolder :=
  if virtualAddressStart % pageSize ≠ 0 ∨ physicalAddressStart % pageSize ≠ 0 ∨
      virtualAddressStart = 0 ∨ size = 0 then none
  else do
    let size ← alignUpChecked size pageSize
    let virtualEnd ← checkedAdd virtualAddressStart (size - 1)
    let _physicalEnd ← checkedAdd physicalAddressStart (size - 1)
    -- the overlap check: `find` an entry that `contains` the new range and panic
    if holder.alreadyMapped.any (·.contains (virtualAddressStart, virtualEnd)) then none
    else
      let rootTable ← mapLoop virtualAddressStart physicalAddressStart size privileges
        isUserModeAccessible size holder.rootTable 0
      some ⟨rootTable, holder.alreadyMapped ++ [⟨(virtualAddressStart, virtualEnd), privileges⟩]⟩

/-- `map_userspace`. -/
def mapUserspace (holder : RootPageTableHolder) (virtualAddressStart physicalAddressStart size : ℕ)
    (privileges : XWRMode) : Option RootPageTableHolder :=
  holder.map virtualAddressStart physicalAddressStart size privileges true

/-- `get_page_table_entry_for_address`: the walk always descends three levels.
`none` is a panic of `get_target_page_table` (an entry on the way is a leaf);
`some none` is the source's `None`. -/
def getPageTableEntryForAddress (holder : RootPageTableHolder) (address : ℕ) :
    Option (Option PageTableEntry) :=
  let first := getEntryForVirtualAddress holder.rootTable address 2
  if !first.entry.validity then some none
  else first.getTargetPageTable.bind fun second =>
    let secondEntry := getEntryForVirtualAddress second address 1
    if !secondEntry.entry.validity then some none
    else secondEntry.getTargetPageTable.bind fun third =>
      let thirdEntry := getEntryForVirtualAddress third address 0
      if !thirdEntry.validity then some none
      else some (some thirdEntry)

/-- `get_page_table_entry_for_address_mut` followed by a write `f` to the entry
it finds: the same walk, with the new tables when it finds a valid entry. -/
def updatePageTableEntryForAddress (root : FirstLevelTable) (address : ℕ)
    (f : PageTableEntry → PageTableEntry) : Option (Option FirstLevelTable) :=
  let first := getEntryForVirtualAddress root address 2
  if !first.entry.validity then some none
  else first.getTargetPageTable.bind fun second =>
    let secondEntry := getEntryForVirtualAddress second address 1
    if !secondEntry.entry.validity then some none
    else secondEntry.getTargetPageTable.bind fun third =>
      let thirdEntry := getEntryForVirtualAddress third address 0
      if !thirdEntry.validity then some none
      else some (some (setEntryForVirtualAddress root address 2 (first.withTable
        (setEntryForVirtualAddress second address 1 (secondEntry.withTable
          (setEntryForVirtualAddress third address 0 (f thirdEntry)))))))

/-- `is_userspace_address`. -/
def isUserspaceAddress (holder : RootPageTableHolder) (address : ℕ) : Option Bool :=
  (holder.getPageTableEntryForAddress address).map fun found =>
    found.any fun entry => entry.validity && entry.userModeAccessible

/-- `get_userspace_permissions`. -/
def getUserspacePermissions (holder : RootPageTableHolder) (va : ℕ) : Option (Option XWRMode) :=
  (holder.getPageTableEntryForAddress va).map (Option.map PageTableEntry.xwrMode)

/-- `translate_userspace_address_to_physical_address`.  The final addition
cannot overflow: a physical address has at most 56 bits. -/
def translateUserspaceAddressToPhysicalAddress (holder : RootPageTableHolder) (address : ℕ) :
    Option (Option ℕ) := do
  let isUser ← holder.isUserspaceAddress address
  if !isUser then some none
  else
    let found ← holder.getPageTableEntryForAddress address
    some (found.map fun entry => entry.getPhysicalAddress + address % pageSize)

/-- The page loop of `is_valid_userspace_fat_ptr`, at the page `addr`, up to
`lastPage`.  The loop visits `(lastPage - firstPage) / PAGE_SIZE + 1` pages; the
fuel counts them. -/
def userspacePagesValid (holder : RootPageTableHolder) (writable : Bool) (lastPage : ℕ) :
    ℕ → ℕ → Option Bool
  | 0, _ => none
  | fuel + 1, addr =>
      (holder.getPageTableEntryForAddress addr).bind fun
        | none => some false
        | some entry =>
            if !entry.validity || !entry.userModeAccessible ||
                !decide (entry.xwrMode ∈ [.readOnly, .readWrite, .readExecute]) then some false
            else if writable && entry.xwrMode != .readWrite then some false
            else if addr = lastPage then some true
            -- `addr < last_page`, so `addr += PAGE_SIZE` cannot overflow
            else userspacePagesValid holder writable lastPage fuel (addr + pageSize)

/-- `is_valid_userspace_fat_ptr` for a pointer to `len` elements of
`elementSize` bytes (`size_of::<PTR::Pointee>()`). -/
def isValidUserspaceFatPtr (holder : RootPageTableHolder) (start elementSize len : ℕ)
    (writable : Bool) : Option Bool :=
  -- `checked_mul` and `checked_add` fail with `false`, not with a panic
  if usizeMax < elementSize * len then some false
  else if elementSize * len = 0 then some true
  else if usizeMax < start + (elementSize * len - 1) then some false
  else
    let firstPage := alignDown start pageSize
    let lastPage := alignDown (start + (elementSize * len - 1)) pageSize
    holder.userspacePagesValid writable lastPage ((lastPage - firstPage) / pageSize + 1) firstPage

/-- `is_mapped`. -/
def isMapped (holder : RootPageTableHolder) (range : ℕ × ℕ) : Bool :=
  holder.alreadyMapped.any (·.contains range)

/-- One iteration of `unmap_userspace`'s loop at the address `addr`: the leaf
found there is cleared, and the loop moves on by the size of its page. -/
def unmapStep (root : FirstLevelTable) (addr : ℕ) : Option (FirstLevelTable × ℕ) :=
  let first := getEntryForVirtualAddress root addr 2
  if !first.entry.validity then none
  else if first.entry.isLeaf then some (setEntryForVirtualAddress root addr 2 Slot.null, gib1)
  else first.getTargetPageTable.bind fun second =>
    let secondEntry := getEntryForVirtualAddress second addr 1
    if !secondEntry.entry.validity then none
    else if secondEntry.entry.isLeaf then
      some (setEntryForVirtualAddress root addr 2
        (first.withTable (setEntryForVirtualAddress second addr 1 Slot.null)), mib2)
    else secondEntry.getTargetPageTable.bind fun third =>
      let thirdEntry := getEntryForVirtualAddress third addr 0
      if !thirdEntry.validity then none
      else some (setEntryForVirtualAddress root addr 2 (first.withTable
        (setEntryForVirtualAddress second addr 1 (secondEntry.withTable
          (setEntryForVirtualAddress third addr 0 PageTableEntry.null)))), pageSize)

/-- The `while offset < size` loop of `unmap_userspace`; every iteration clears
at least one page. -/
def unmapLoop (virtualAddressStart size : ℕ) (fuel : ℕ) (root : FirstLevelTable) (offset : ℕ) :
    Option FirstLevelTable :=
  Loop.whileBelow size (fun root offset => do
      let addr ← checkedAdd virtualAddressStart offset
      let (root', unmapped) ← unmapStep root addr
      let offset' ← checkedAdd offset unmapped
      some (root', offset'))
    fuel root offset

/-- `unmap_userspace`: the entry of `already_mapped` that starts at the address
is `swap_remove`d, then the leaves of `size` bytes are cleared. -/
def unmapUserspace (holder : RootPageTableHolder) (virtualAddressStart size : ℕ) :
    Option RootPageTableHolder :=
  if virtualAddressStart % pageSize ≠ 0 ∨ size = 0 then none
  else do
    let idx ← holder.alreadyMapped.findIdx? (·.virtualRange.1 == virtualAddressStart)
    let rootTable ← unmapLoop virtualAddressStart size size holder.rootTable 0
    some ⟨rootTable, Vec.swapRemove holder.alreadyMapped idx⟩

/-- The page loop of `mprotect`: every page must be mapped by a valid entry
(`expect`), whose XWR bits are overwritten.  `size` is a multiple of
`PAGE_SIZE`, so `offset += PAGE_SIZE` stays below it and cannot overflow. -/
def mprotectLoop (addr size : ℕ) (mode : XWRMode) (fuel : ℕ) (root : FirstLevelTable)
    (offset : ℕ) : Option FirstLevelTable :=
  Loop.whileBelow size (fun root offset => do
      let pageAddr ← checkedAdd addr offset
      let root' ← (← updatePageTableEntryForAddress root pageAddr (·.setXwrMode mode))
      some (root', offset + pageSize))
    fuel root offset

/-- `mprotect`: the entries of the pages, then the privileges of the first
entry of `already_mapped` whose range holds `addr`. -/
def mprotect (holder : RootPageTableHolder) (addr size : ℕ) (mode : XWRMode) :
    Option RootPageTableHolder :=
  if addr % pageSize ≠ 0 ∨ ¬(0 < size ∧ size % pageSize = 0) then none
  else do
    let rootTable ← mprotectLoop addr size mode size holder.rootTable 0
    some ⟨rootTable, Vec.updateFirst
      (fun entry => decide (entry.virtualRange.1 ≤ addr) && decide (addr < entry.virtualRange.2))
      (fun entry => { entry with privileges := mode }) holder.alreadyMapped⟩

end RootPageTableHolder

end Solaya
