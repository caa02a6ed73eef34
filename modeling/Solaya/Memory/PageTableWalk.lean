import Solaya.Memory.PageTables

/-!
# What the tables map

The meaning of a tree of tables is the translation the Sv39 MMU reads from
it: at each level an invalid entry ends the walk with nothing, a leaf ends it
with a page of that level's size, and a pointer descends.  `resolve` is that
reading; unlike `get_page_table_entry_for_address` it accepts a leaf at any
level.  Everything about `map`, `unmap_userspace` and `mprotect` is stated
through `resolve`, and `getPageTableEntryForAddress_eq_resolve` says how the
kernel's own walk relates to it.

`WellFormed` is the shape every reachable tree has: a slot points to a table
exactly when it holds a valid pointer entry, and an invalid slot is null.
-/

namespace Solaya

/-- The bytes a leaf maps at each level: 4 KiB, 2 MiB and 1 GiB. -/
def levelSize (level : ℕ) : ℕ := 2 ^ (12 + 9 * level)

@[simp] theorem levelSize_zero : levelSize 0 = pageSize := rfl
@[simp] theorem levelSize_one : levelSize 1 = mib2 := rfl
@[simp] theorem levelSize_two : levelSize 2 = gib1 := rfl

@[simp]
theorem getEntryForVirtualAddress_setEntryForVirtualAddress {β : Type} (table : Fin 512 → β)
    (a va level : ℕ) (value : β) :
    getEntryForVirtualAddress (setEntryForVirtualAddress table a level value) va level =
      if entryIndex va level = entryIndex a level then value
      else getEntryForVirtualAddress table va level := by
  simp only [getEntryForVirtualAddress, setEntryForVirtualAddress, Function.update_apply]

@[simp]
theorem getEntryForVirtualAddress_zero {β : Type} (null : β) (va level : ℕ) :
    getEntryForVirtualAddress (PageTable.zero null) va level = null := rfl

namespace Slot

variable {α : Type}

/-- A slot's reading at `level`, given the reading `below` of the table it
points to. -/
def resolveWith (slot : Slot α) (level : ℕ) (below : α → Option (PageTableEntry × ℕ)) :
    Option (PageTableEntry × ℕ) :=
  if !slot.entry.validity then none
  else if slot.entry.isLeaf then some (slot.entry, level)
  else slot.table.bind below

/-- The shape of a slot in every reachable tree: null, a valid leaf without a
table, or a valid pointer to a table that has shape `wf`. -/
def WellFormed (wf : α → Prop) (slot : Slot α) : Prop :=
  slot = Slot.null ∨
    (slot.entry.validity = true ∧ slot.entry.isLeaf = true ∧ slot.table = none) ∨
    (slot.entry.validity = true ∧ slot.entry.isLeaf = false ∧ ∃ t, slot.table = some t ∧ wf t)

@[simp] theorem null_entry : (Slot.null : Slot α).entry = PageTableEntry.null := rfl
@[simp] theorem null_table : (Slot.null : Slot α).table = none := rfl
@[simp] theorem withTable_entry (slot : Slot α) (t : α) : (slot.withTable t).entry = slot.entry :=
  rfl
@[simp] theorem withTable_table (slot : Slot α) (t : α) : (slot.withTable t).table = some t :=
  rfl

@[simp]
theorem resolveWith_null (level : ℕ) (below : α → Option (PageTableEntry × ℕ)) :
    (Slot.null : Slot α).resolveWith level below = none := rfl

theorem wellFormed_null (wf : α → Prop) : (Slot.null : Slot α).WellFormed wf := .inl rfl

theorem WellFormed.eq_null {wf : α → Prop} {slot : Slot α} (hwf : slot.WellFormed wf)
    (hinvalid : slot.entry.validity = false) : slot = Slot.null := by
  rcases hwf with rfl | ⟨hvalid, _⟩ | ⟨hvalid, _⟩
  · rfl
  all_goals simp [hvalid] at hinvalid

/-- Pointing a valid pointer entry at a well-formed table. -/
theorem wellFormed_withTable {wf : α → Prop} {slot : Slot α} {t : α}
    (hvalid : slot.entry.validity = true) (hleaf : slot.entry.isLeaf = false) (hwft : wf t) :
    (slot.withTable t).WellFormed wf :=
  .inr (.inr ⟨hvalid, hleaf, t, rfl, hwft⟩)

/-- A valid pointer reads as the table it points to. -/
theorem resolveWith_of_pointer {slot : Slot α} {level : ℕ}
    {below : α → Option (PageTableEntry × ℕ)} {t : α} (hvalid : slot.entry.validity = true)
    (hleaf : slot.entry.isLeaf = false) (htable : slot.table = some t) :
    slot.resolveWith level below = below t := by
  simp [resolveWith, hvalid, hleaf, htable]

theorem getTargetPageTable_eq_some {slot : Slot α} {t : α} (h : slot.getTargetPageTable = some t) :
    slot.entry.isLeaf = false ∧ slot.table = some t := by
  unfold getTargetPageTable at h
  split_ifs at h with hleaf
  exact ⟨by simpa using hleaf, h⟩

/-- A slot that points to a table is a valid pointer to a well-formed one. -/
theorem WellFormed.of_table {wf : α → Prop} {slot : Slot α} {t : α} (hwf : slot.WellFormed wf)
    (htable : slot.table = some t) :
    slot.entry.validity = true ∧ slot.entry.isLeaf = false ∧ wf t := by
  rcases hwf with rfl | ⟨-, -, hnone⟩ | ⟨hvalid, hleaf, t', htable', hwft⟩
  · simp at htable
  · simp [hnone] at htable
  · rw [htable, Option.some.injEq] at htable'
    subst htable'
    exact ⟨hvalid, hleaf, hwft⟩

/-- What `get_target_page_table` returns after the lazy allocation of `map`:
the slot now is a valid pointer to `t`, which is either the fresh table (the
slot was null) or the table the slot already pointed to. -/
theorem ensureTable_target {wf : α → Prop} {slot : Slot α} {zero t : α}
    (hwf : slot.WellFormed wf) (h : (slot.ensureTable zero).getTargetPageTable = some t) :
    (slot.ensureTable zero).entry.validity = true ∧
      (slot.ensureTable zero).entry.isLeaf = false ∧
      (slot = Slot.null ∧ t = zero ∨ slot.entry.validity = true ∧ slot.entry.isLeaf = false ∧
        slot.table = some t ∧ wf t) := by
  rcases hwf with rfl | ⟨hvalid, hleaf, hnone⟩ | ⟨hvalid, hleaf, t', htable, hwft⟩
  · -- a null slot gets the fresh table
    have hens : (Slot.null : Slot α).ensureTable zero =
        ⟨⟨true, .pointerToNextLevel, false, 0⟩, some zero⟩ := rfl
    rw [hens] at h ⊢
    simp only [getTargetPageTable, PageTableEntry.isLeaf, bne_self_eq_false, Bool.false_eq_true,
      if_false, Option.some.injEq] at h
    exact ⟨rfl, rfl, .inl ⟨rfl, h.symm⟩⟩
  · -- a leaf is never a pointer, whether or not a table gets attached to it
    exfalso
    unfold ensureTable at h
    split_ifs at h <;> simp [getTargetPageTable, hleaf] at h
  · -- a pointer keeps its table
    have hens : slot.ensureTable zero = slot := by
      simp [ensureTable, physicalAddressIsZero, htable]
    rw [hens] at h ⊢
    simp only [getTargetPageTable, hleaf, Bool.false_eq_true, if_false, htable,
      Option.some.injEq] at h
    subst h
    exact ⟨hvalid, hleaf, .inr ⟨hvalid, hleaf, htable, hwft⟩⟩

/-- A reading that comes from the table of the slot transfers to another
reading of that table that agrees with it there. -/
theorem resolveWith_congr {slot : Slot α} {level : ℕ}
    {below below' : α → Option (PageTableEntry × ℕ)} {leaf : PageTableEntry × ℕ}
    (h : slot.resolveWith level below = some leaf)
    (hbelow : ∀ t, slot.table = some t → below t = some leaf → below' t = some leaf) :
    slot.resolveWith level below' = some leaf := by
  unfold resolveWith at h ⊢
  split_ifs at h ⊢
  · exact h
  obtain ⟨t, htable, ht⟩ := Option.bind_eq_some_iff.mp h
  rw [htable, Option.bind_some]
  exact hbelow t htable ht

end Slot

namespace RootPageTableHolder

/-- The reading of a third-level table: its valid entries are 4 KiB pages. -/
def resolveThird (third : ThirdLevelTable) (va : ℕ) : Option (PageTableEntry × ℕ) :=
  let entry := getEntryForVirtualAddress third va 0
  if entry.validity then some (entry, 0) else none

/-- The reading of a second-level table. -/
def resolveSecond (second : SecondLevelTable) (va : ℕ) : Option (PageTableEntry × ℕ) :=
  (getEntryForVirtualAddress second va 1).resolveWith 1 (resolveThird · va)

/-- The translation the tables give `va`: the leaf entry and its level. -/
def resolve (root : FirstLevelTable) (va : ℕ) : Option (PageTableEntry × ℕ) :=
  (getEntryForVirtualAddress root va 2).resolveWith 2 (resolveSecond · va)

/-- The translation of an address depends only on its page number. -/
theorem resolve_eq_of_div_eq {root : FirstLevelTable} {va va' : ℕ}
    (h : va / pageSize = va' / pageSize) : resolve root va = resolve root va' := by
  unfold resolve resolveSecond resolveThird getEntryForVirtualAddress
  rw [entryIndex_eq_of_div_eq h 2, entryIndex_eq_of_div_eq h 1, entryIndex_eq_of_div_eq h 0]

/-- The physical address a leaf gives `va`. -/
def leafAddress (leaf : PageTableEntry × ℕ) (va : ℕ) : ℕ :=
  leaf.1.getPhysicalAddress + va % levelSize leaf.2

/-- Every slot of a second-level table has its shape. -/
def SecondWellFormed (second : SecondLevelTable) : Prop :=
  ∀ j, (second j).WellFormed fun _ => True

/-- Every slot of the tree has its shape. -/
def WellFormed (root : FirstLevelTable) : Prop :=
  ∀ i, (root i).WellFormed SecondWellFormed

/-- The kernel's walk read off the tables' meaning: nothing mapped is `None`, a
4 KiB page is its entry, and a larger page is a panic. -/
def walkOutcome : Option (PageTableEntry × ℕ) → Option (Option PageTableEntry)
  | none => some none
  | some (entry, 0) => some (some entry)
  | some (_, _ + 1) => none

@[simp]
theorem resolveSecond_zero (va : ℕ) : resolveSecond (PageTable.zero Slot.null) va = none := rfl

@[simp]
theorem resolveThird_zero (va : ℕ) : resolveThird (PageTable.zero PageTableEntry.null) va = none :=
  rfl

theorem wellFormed_empty : WellFormed empty.rootTable := fun _ => Slot.wellFormed_null _

theorem WellFormed.getEntry {root : FirstLevelTable} (hwf : WellFormed root) (a : ℕ) :
    (getEntryForVirtualAddress root a 2).WellFormed SecondWellFormed :=
  hwf _

theorem SecondWellFormed.getEntry {second : SecondLevelTable} (hwf : SecondWellFormed second)
    (a : ℕ) : (getEntryForVirtualAddress second a 1).WellFormed fun _ => True :=
  hwf _

theorem secondWellFormed_zero : SecondWellFormed (PageTable.zero Slot.null) :=
  fun _ => Slot.wellFormed_null _

theorem wellFormed_setEntryForVirtualAddress {root : FirstLevelTable} {slot : Slot SecondLevelTable}
    (hwf : WellFormed root) (hslot : slot.WellFormed SecondWellFormed) (a : ℕ) :
    WellFormed (setEntryForVirtualAddress root a 2 slot) := by
  intro i
  unfold setEntryForVirtualAddress
  rcases eq_or_ne i (entryIndex a 2) with rfl | hne
  · rw [Function.update_self]
    exact hslot
  · rw [Function.update_of_ne hne]
    exact hwf i

theorem secondWellFormed_setEntryForVirtualAddress {second : SecondLevelTable}
    {slot : Slot ThirdLevelTable} (hwf : SecondWellFormed second)
    (hslot : slot.WellFormed fun _ => True) (a : ℕ) :
    SecondWellFormed (setEntryForVirtualAddress second a 1 slot) := by
  intro j
  unfold setEntryForVirtualAddress
  rcases eq_or_ne j (entryIndex a 1) with rfl | hne
  · rw [Function.update_self]
    exact hslot
  · rw [Function.update_of_ne hne]
    exact hwf j

/-- One level of the kernel's walk against `resolveWith`: an invalid slot is
`None`, a leaf above the last level panics in `get_target_page_table`, and a
pointer descends on both sides. -/
theorem walk_slot {α : Type} {wf : α → Prop} {slot : Slot α} (level : ℕ)
    {below : α → Option (PageTableEntry × ℕ)} {walkBelow : α → Option (Option PageTableEntry)}
    (hwf : slot.WellFormed wf) (hbelow : ∀ t, wf t → walkBelow t = walkOutcome (below t)) :
    (if !slot.entry.validity then some none else slot.getTargetPageTable.bind walkBelow) =
      walkOutcome (slot.resolveWith (level + 1) below) := by
  rcases hwf with rfl | ⟨hvalid, hleaf, hnone⟩ | ⟨hvalid, hleaf, t, htable, hwft⟩
  · rfl
  · simp [Slot.resolveWith, Slot.getTargetPageTable, hvalid, hleaf, walkOutcome]
  · rw [Slot.resolveWith_of_pointer hvalid hleaf htable]
    simp [Slot.getTargetPageTable, hvalid, hleaf, htable, hbelow t hwft]

/-- `get_page_table_entry_for_address` agrees with the tables' meaning on
4 KiB pages and on unmapped addresses, and panics on larger pages. -/
theorem getPageTableEntryForAddress_eq_resolve {holder : RootPageTableHolder}
    (hwf : WellFormed holder.rootTable) (va : ℕ) :
    holder.getPageTableEntryForAddress va = walkOutcome (resolve holder.rootTable va) := by
  unfold getPageTableEntryForAddress resolve
  refine walk_slot 1 (hwf _) fun second hsecond => ?_
  unfold resolveSecond
  refine walk_slot 0 (hsecond _) fun third _ => ?_
  unfold resolveThird
  dsimp only
  cases (getEntryForVirtualAddress third va 0).validity <;> rfl

/-- What `translate_userspace_address_to_physical_address` makes of the entry
the walk finds. -/
theorem translateUserspaceAddressToPhysicalAddress_of_entry {holder : RootPageTableHolder}
    {va : ℕ} {entry : PageTableEntry}
    (h : holder.getPageTableEntryForAddress va = some (some entry)) :
    holder.translateUserspaceAddressToPhysicalAddress va =
      some (if entry.validity && entry.userModeAccessible then
        some (entry.getPhysicalAddress + va % pageSize) else none) := by
  unfold translateUserspaceAddressToPhysicalAddress isUserspaceAddress
  cases hflags : entry.validity && entry.userModeAccessible <;> simp [h, hflags]

/-- `translate_userspace_address_to_physical_address` panics where the walk
does: `is_userspace_address` walks first. -/
theorem translateUserspaceAddressToPhysicalAddress_of_panic {holder : RootPageTableHolder}
    {va : ℕ} (h : holder.getPageTableEntryForAddress va = none) :
    holder.translateUserspaceAddressToPhysicalAddress va = none := by
  unfold translateUserspaceAddressToPhysicalAddress isUserspaceAddress
  rw [h]
  rfl

/-! ## Writing one leaf -/

@[simp]
theorem resolveThird_setEntryForVirtualAddress (third : ThirdLevelTable) (a va : ℕ)
    (entry : PageTableEntry) :
    resolveThird (setEntryForVirtualAddress third a 0 entry) va =
      if entryIndex va 0 = entryIndex a 0 then (if entry.validity then some (entry, 0) else none)
      else resolveThird third va := by
  unfold resolveThird
  rw [getEntryForVirtualAddress_setEntryForVirtualAddress]
  dsimp only
  split_ifs <;> rfl

@[simp]
theorem resolveSecond_setEntryForVirtualAddress (second : SecondLevelTable) (a va : ℕ)
    (slot : Slot ThirdLevelTable) :
    resolveSecond (setEntryForVirtualAddress second a 1 slot) va =
      if entryIndex va 1 = entryIndex a 1 then slot.resolveWith 1 (resolveThird · va)
      else resolveSecond second va := by
  unfold resolveSecond
  rw [getEntryForVirtualAddress_setEntryForVirtualAddress]
  split_ifs <;> rfl

@[simp]
theorem resolve_setEntryForVirtualAddress (root : FirstLevelTable) (a va : ℕ)
    (slot : Slot SecondLevelTable) :
    resolve (setEntryForVirtualAddress root a 2 slot) va =
      if entryIndex va 2 = entryIndex a 2 then slot.resolveWith 2 (resolveSecond · va)
      else resolve root va := by
  unfold resolve
  rw [getEntryForVirtualAddress_setEntryForVirtualAddress]
  split_ifs <;> rfl

/-- The entry `map` writes for a leaf at the physical address `pa`. -/
def leafEntry (privileges : XWRMode) (pa : ℕ) (isUserModeAccessible : Bool) : PageTableEntry :=
  ⟨true, privileges, isUserModeAccessible, pa / pageSize % PageTableEntry.physicalPageBits⟩

/-- `va` goes through the same entries as `a` down to `level`, so that a leaf
at `level` on the path of `a` maps `va` as well. -/
def SharesLeaf (va a : ℕ) : ℕ → Prop
  | 0 => entryIndex va 2 = entryIndex a 2 ∧ entryIndex va 1 = entryIndex a 1 ∧
      entryIndex va 0 = entryIndex a 0
  | 1 => entryIndex va 2 = entryIndex a 2 ∧ entryIndex va 1 = entryIndex a 1
  | _ => entryIndex va 2 = entryIndex a 2

/-- `root'` is `root` with one new leaf at `level` on the path of `a`: the
addresses under it were unmapped and are now mapped by it, and no other
address changes. -/
structure LeafWrite (root root' : FirstLevelTable) (a level : ℕ) (leaf : PageTableEntry) :
    Prop where
  wellFormed : WellFormed root'
  fresh : ∀ va, SharesLeaf va a level → resolve root va = none
  written : ∀ va, SharesLeaf va a level → resolve root' va = some (leaf, level)
  frame : ∀ va, ¬SharesLeaf va a level → resolve root' va = resolve root va

section Write

variable {root root' : FirstLevelTable} {a pa : ℕ} {privileges : XWRMode}
  {isUserModeAccessible : Bool}

@[simp] theorem leafEntry_validity (privileges : XWRMode) (pa : ℕ) (isUserModeAccessible : Bool) :
    (leafEntry privileges pa isUserModeAccessible).validity = true := rfl
@[simp] theorem leafEntry_xwrMode (privileges : XWRMode) (pa : ℕ) (isUserModeAccessible : Bool) :
    (leafEntry privileges pa isUserModeAccessible).xwrMode = privileges := rfl
@[simp] theorem leafEntry_userModeAccessible (privileges : XWRMode) (pa : ℕ)
    (isUserModeAccessible : Bool) :
    (leafEntry privileges pa isUserModeAccessible).userModeAccessible = isUserModeAccessible := rfl

theorem isLeaf_leafEntry (hmode : privileges ≠ .pointerToNextLevel) (pa : ℕ)
    (isUserModeAccessible : Bool) : (leafEntry privileges pa isUserModeAccessible).isLeaf = true :=
  (PageTableEntry.isLeaf_iff _).mpr hmode

theorem setLeaf_eq_leafEntry {entry entry' : PageTableEntry}
    (h : entry.setLeaf privileges pa isUserModeAccessible = some entry') :
    entry' = leafEntry privileges pa isUserModeAccessible :=
  (PageTableEntry.setLeaf_eq_some h).2

/-- A new leaf slot, without a table. -/
theorem wellFormed_leafSlot {α : Type} {wf : α → Prop} (hmode : privileges ≠ .pointerToNextLevel) :
    (⟨leafEntry privileges pa isUserModeAccessible, none⟩ : Slot α).WellFormed wf :=
  .inr (.inl ⟨rfl, isLeaf_leafEntry hmode pa isUserModeAccessible, rfl⟩)

theorem resolveWith_leafSlot {α : Type} (hmode : privileges ≠ .pointerToNextLevel) (level : ℕ)
    (below : α → Option (PageTableEntry × ℕ)) :
    (⟨leafEntry privileges pa isUserModeAccessible, none⟩ : Slot α).resolveWith level below =
      some (leafEntry privileges pa isUserModeAccessible, level) := by
  simp [Slot.resolveWith, isLeaf_leafEntry hmode]

/-- The 1 GiB branch of `map` writes one leaf into the first-level table. -/
theorem writeGiB_spec (hwf : WellFormed root) (hmode : privileges ≠ .pointerToNextLevel)
    (h : writeGiB root a pa privileges isUserModeAccessible = some root') :
    LeafWrite root root' a 2 (leafEntry privileges pa isUserModeAccessible) := by
  unfold writeGiB at h
  dsimp only at h
  split_ifs at h with hcheck
  obtain ⟨entry, hset, rfl⟩ := Option.map_eq_some_iff.mp h
  have hinvalid : (getEntryForVirtualAddress root a 2).entry.validity = false := by
    simp at hcheck
    exact hcheck.1
  have hnull : getEntryForVirtualAddress root a 2 = Slot.null :=
    (hwf (entryIndex a 2)).eq_null hinvalid
  have hslot : { getEntryForVirtualAddress root a 2 with entry } =
      (⟨leafEntry privileges pa isUserModeAccessible, none⟩ : Slot SecondLevelTable) := by
    simp only [hnull, setLeaf_eq_leafEntry hset, Slot.null_table]
  rw [hslot]
  refine ⟨wellFormed_setEntryForVirtualAddress hwf (wellFormed_leafSlot hmode) a,
    fun va hva => ?_, fun va hva => ?_, fun va hva => ?_⟩
  · -- the whole gigabyte of `a` read the null slot
    have hnull' : getEntryForVirtualAddress root va 2 = Slot.null := by
      rw [← hnull]
      exact congrArg root hva
    simp [resolve, hnull']
  · simp [SharesLeaf.eq_def] at hva
    simp [hva, resolveWith_leafSlot hmode]
  · simp [SharesLeaf.eq_def] at hva
    simp [hva]

/-- After `map`'s lazy allocation on the path of `a`, the addresses under the
first-level slot of `a` read as the second-level table it points to. -/
theorem resolve_eq_of_ensureTable {second : SecondLevelTable} (hwf : WellFormed root)
    (h : ((getEntryForVirtualAddress root a 2).ensureTable
      (PageTable.zero Slot.null)).getTargetPageTable = some second) :
    SecondWellFormed second ∧
      ∀ va, entryIndex va 2 = entryIndex a 2 → resolve root va = resolveSecond second va := by
  obtain ⟨-, -, hcase⟩ := Slot.ensureTable_target (hwf.getEntry a) h
  rcases hcase with ⟨hnull, rfl⟩ | ⟨hvalid, hleaf, htable, hwfs⟩
  · refine ⟨secondWellFormed_zero, fun va hva => ?_⟩
    have hnull' : getEntryForVirtualAddress root va 2 = Slot.null := by
      rw [← hnull]
      exact congrArg root hva
    simp [resolve, hnull']
  · refine ⟨hwfs, fun va hva => ?_⟩
    have hsame : getEntryForVirtualAddress root va 2 = getEntryForVirtualAddress root a 2 :=
      congrArg root hva
    rw [resolve, hsame, Slot.resolveWith_of_pointer hvalid hleaf htable]

/-- The same one level down. -/
theorem resolveSecond_eq_of_ensureTable {second : SecondLevelTable} {third : ThirdLevelTable}
    (hwf : SecondWellFormed second)
    (h : ((getEntryForVirtualAddress second a 1).ensureTable
      (PageTable.zero PageTableEntry.null)).getTargetPageTable = some third) :
    ∀ va, entryIndex va 1 = entryIndex a 1 → resolveSecond second va = resolveThird third va := by
  obtain ⟨-, -, hcase⟩ := Slot.ensureTable_target (hwf.getEntry a) h
  intro va hva
  have hsame : getEntryForVirtualAddress second va 1 = getEntryForVirtualAddress second a 1 :=
    congrArg second hva
  rcases hcase with ⟨hnull, rfl⟩ | ⟨hvalid, hleaf, htable, -⟩
  · simp [resolveSecond, hsame, hnull]
  · rw [resolveSecond, hsame, Slot.resolveWith_of_pointer hvalid hleaf htable]

/-- Writing a pointer slot into the first-level table. -/
theorem resolve_setEntryForVirtualAddress_withTable {slot : Slot SecondLevelTable}
    {t : SecondLevelTable} (hvalid : slot.entry.validity = true)
    (hleaf : slot.entry.isLeaf = false) (va : ℕ) :
    resolve (setEntryForVirtualAddress root a 2 (slot.withTable t)) va =
      if entryIndex va 2 = entryIndex a 2 then resolveSecond t va else resolve root va := by
  rw [resolve_setEntryForVirtualAddress,
    Slot.resolveWith_of_pointer (by simpa using hvalid) (by simpa using hleaf) rfl]

/-- The same for the second-level table. -/
theorem resolveSecond_setEntryForVirtualAddress_withTable {second : SecondLevelTable}
    {slot : Slot ThirdLevelTable} {t : ThirdLevelTable} (hvalid : slot.entry.validity = true)
    (hleaf : slot.entry.isLeaf = false) (va : ℕ) :
    resolveSecond (setEntryForVirtualAddress second a 1 (slot.withTable t)) va =
      if entryIndex va 1 = entryIndex a 1 then resolveThird t va else resolveSecond second va := by
  rw [resolveSecond_setEntryForVirtualAddress,
    Slot.resolveWith_of_pointer (by simpa using hvalid) (by simpa using hleaf) rfl]

/-- The 2 MiB branch of `map` writes one leaf into a second-level table. -/
theorem writeMiB_spec (hwf : WellFormed root) (hmode : privileges ≠ .pointerToNextLevel)
    (h : writeMiB root a pa privileges isUserModeAccessible = some root') :
    LeafWrite root root' a 1 (leafEntry privileges pa isUserModeAccessible) := by
  unfold writeMiB at h
  dsimp only at h
  obtain ⟨second, htarget, h⟩ := Option.bind_eq_some_iff.mp h
  obtain ⟨hvalid, hleaf, -⟩ := Slot.ensureTable_target (hwf.getEntry a) htarget
  obtain ⟨hwfs, hread⟩ := resolve_eq_of_ensureTable hwf htarget
  split_ifs at h with hcheck
  obtain ⟨entry, hset, rfl⟩ := Option.map_eq_some_iff.mp h
  have hnull : getEntryForVirtualAddress second a 1 = Slot.null := by
    simp at hcheck
    exact (hwfs (entryIndex a 1)).eq_null hcheck.1
  have hslot : { getEntryForVirtualAddress second a 1 with entry } =
      (⟨leafEntry privileges pa isUserModeAccessible, none⟩ : Slot ThirdLevelTable) := by
    simp only [hnull, setLeaf_eq_leafEntry hset, Slot.null_table]
  rw [hslot]
  refine ⟨wellFormed_setEntryForVirtualAddress hwf (Slot.wellFormed_withTable hvalid hleaf
    (secondWellFormed_setEntryForVirtualAddress hwfs (wellFormed_leafSlot hmode) a)) a,
    fun va hva => ?_, fun va hva => ?_, fun va hva => ?_⟩
  · -- the two megabytes of `a` read the null second-level slot
    obtain ⟨h2, h1⟩ := hva
    have hnull' : getEntryForVirtualAddress second va 1 = Slot.null := by
      rw [← hnull]
      exact congrArg second h1
    rw [hread va h2]
    simp [resolveSecond, hnull']
  · obtain ⟨h2, h1⟩ := hva
    rw [resolve_setEntryForVirtualAddress_withTable hvalid hleaf, if_pos h2,
      resolveSecond_setEntryForVirtualAddress, if_pos h1, resolveWith_leafSlot hmode]
  · rw [resolve_setEntryForVirtualAddress_withTable hvalid hleaf]
    split_ifs with h2
    · have h1 : entryIndex va 1 ≠ entryIndex a 1 := fun h1 => hva ⟨h2, h1⟩
      rw [resolveSecond_setEntryForVirtualAddress, if_neg h1, hread va h2]
    · rfl

/-- The 4 KiB branch of `map` writes one leaf into a third-level table. -/
theorem writePage_spec (hwf : WellFormed root)
    (h : writePage root a pa privileges isUserModeAccessible = some root') :
    LeafWrite root root' a 0 (leafEntry privileges pa isUserModeAccessible) := by
  unfold writePage at h
  dsimp only at h
  obtain ⟨second, htarget, h⟩ := Option.bind_eq_some_iff.mp h
  obtain ⟨hvalid, hleaf, -⟩ := Slot.ensureTable_target (hwf.getEntry a) htarget
  obtain ⟨hwfs, hread⟩ := resolve_eq_of_ensureTable hwf htarget
  obtain ⟨third, htarget', h⟩ := Option.bind_eq_some_iff.mp h
  obtain ⟨hvalid', hleaf', -⟩ := Slot.ensureTable_target (hwfs.getEntry a) htarget'
  have hread' := resolveSecond_eq_of_ensureTable hwfs htarget'
  split_ifs at h with hcheck
  obtain ⟨entry, hset, rfl⟩ := Option.map_eq_some_iff.mp h
  rw [setLeaf_eq_leafEntry hset]
  refine ⟨wellFormed_setEntryForVirtualAddress hwf (Slot.wellFormed_withTable hvalid hleaf
    (secondWellFormed_setEntryForVirtualAddress hwfs
      (Slot.wellFormed_withTable hvalid' hleaf' trivial) a)) a,
    fun va hva => ?_, fun va hva => ?_, fun va hva => ?_⟩
  · -- the page of `a` read the invalid third-level entry
    obtain ⟨h2, h1, h0⟩ := hva
    have hinvalid : (getEntryForVirtualAddress third va 0).validity = false := by
      rw [show getEntryForVirtualAddress third va 0 = getEntryForVirtualAddress third a 0 from
        congrArg third h0]
      simpa using hcheck
    rw [hread va h2, hread' va h1]
    simp [resolveThird, hinvalid]
  · obtain ⟨h2, h1, h0⟩ := hva
    rw [resolve_setEntryForVirtualAddress_withTable hvalid hleaf, if_pos h2,
      resolveSecond_setEntryForVirtualAddress_withTable hvalid' hleaf', if_pos h1,
      resolveThird_setEntryForVirtualAddress, if_pos h0, if_pos (leafEntry_validity ..)]
  · rw [resolve_setEntryForVirtualAddress_withTable hvalid hleaf]
    split_ifs with h2
    · rw [resolveSecond_setEntryForVirtualAddress_withTable hvalid' hleaf', hread va h2]
      split_ifs with h1
      · have h0 : entryIndex va 0 ≠ entryIndex a 0 := fun h0 => hva ⟨h2, h1, h0⟩
        rw [resolveThird_setEntryForVirtualAddress, if_neg h0, hread' va h1]
      · rfl
    · rfl

end Write

/-! ## Clearing one leaf and rewriting one entry -/

section Clear

variable {root root' : FirstLevelTable} {a : ℕ}

/-- Every address under a first-level pointer reads as the table it points to. -/
theorem resolve_of_pointer {second : SecondLevelTable}
    (hvalid : (getEntryForVirtualAddress root a 2).entry.validity = true)
    (hleaf : (getEntryForVirtualAddress root a 2).entry.isLeaf = false)
    (htable : (getEntryForVirtualAddress root a 2).table = some second) {va : ℕ}
    (hva : entryIndex va 2 = entryIndex a 2) : resolve root va = resolveSecond second va := by
  rw [resolve, show getEntryForVirtualAddress root va 2 = getEntryForVirtualAddress root a 2 from
    congrArg root hva, Slot.resolveWith_of_pointer hvalid hleaf htable]

/-- The same one level down. -/
theorem resolveSecond_of_pointer {second : SecondLevelTable} {third : ThirdLevelTable}
    (hvalid : (getEntryForVirtualAddress second a 1).entry.validity = true)
    (hleaf : (getEntryForVirtualAddress second a 1).entry.isLeaf = false)
    (htable : (getEntryForVirtualAddress second a 1).table = some third) {va : ℕ}
    (hva : entryIndex va 1 = entryIndex a 1) : resolveSecond second va = resolveThird third va := by
  rw [resolveSecond, show getEntryForVirtualAddress second va 1 =
    getEntryForVirtualAddress second a 1 from congrArg second hva,
    Slot.resolveWith_of_pointer hvalid hleaf htable]

/-- `root'` is `root` without the leaf at `level` on the path of `a`. -/
structure LeafClear (root root' : FirstLevelTable) (a level : ℕ) : Prop where
  wellFormed : WellFormed root'
  cleared : ∀ va, SharesLeaf va a level → resolve root' va = none
  frame : ∀ va, ¬SharesLeaf va a level → resolve root' va = resolve root va

/-- One iteration of `unmap_userspace`'s loop finds a valid leaf at `a`,
removes it, and moves on by the size of its page. -/
theorem unmapStep_spec {step : ℕ} (hwf : WellFormed root)
    (h : unmapStep root a = some (root', step)) :
    ∃ leaf, resolve root a = some leaf ∧ step = levelSize leaf.2 ∧ LeafClear root root' a leaf.2 := by
  unfold unmapStep at h
  dsimp only at h
  have hfirst := hwf.getEntry a
  split_ifs at h with hvalid hleaf
  · -- a 1 GiB leaf
    cases h
    have hvalid' : (getEntryForVirtualAddress root a 2).entry.validity = true := by simpa using hvalid
    refine ⟨((getEntryForVirtualAddress root a 2).entry, 2),
      by simp [resolve, Slot.resolveWith, hvalid', hleaf], rfl,
      wellFormed_setEntryForVirtualAddress hwf (Slot.wellFormed_null _) a, fun va hva => ?_,
      fun va hva => ?_⟩
    · simp only [SharesLeaf] at hva
      simp [hva]
    · simp only [SharesLeaf] at hva
      simp [hva]
  · -- descend to the second level
    obtain ⟨second, htarget, h⟩ := Option.bind_eq_some_iff.mp h
    obtain ⟨hleaf', htable⟩ := Slot.getTargetPageTable_eq_some htarget
    obtain ⟨hvalid', -, hwfs⟩ := hfirst.of_table htable
    have hread : ∀ {va}, entryIndex va 2 = entryIndex a 2 →
        resolve root va = resolveSecond second va :=
      resolve_of_pointer hvalid' hleaf' htable
    have hsecond := hwfs.getEntry a
    split_ifs at h with hvalid₂ hleaf₂
    · -- a 2 MiB leaf
      cases h
      have hvalid₂' : (getEntryForVirtualAddress second a 1).entry.validity = true := by
        simpa using hvalid₂
      refine ⟨((getEntryForVirtualAddress second a 1).entry, 1), ?_, rfl,
        wellFormed_setEntryForVirtualAddress hwf (Slot.wellFormed_withTable hvalid' hleaf'
          (secondWellFormed_setEntryForVirtualAddress hwfs (Slot.wellFormed_null _) a)) a,
        fun va hva => ?_, fun va hva => ?_⟩
      · rw [hread rfl]
        simp [resolveSecond, Slot.resolveWith, hvalid₂', hleaf₂]
      · obtain ⟨h2, h1⟩ := hva
        rw [resolve_setEntryForVirtualAddress_withTable hvalid' hleaf', if_pos h2,
          resolveSecond_setEntryForVirtualAddress, if_pos h1]
        rfl
      · rw [resolve_setEntryForVirtualAddress_withTable hvalid' hleaf']
        split_ifs with h2
        · have h1 : entryIndex va 1 ≠ entryIndex a 1 := fun h1 => hva ⟨h2, h1⟩
          rw [resolveSecond_setEntryForVirtualAddress, if_neg h1, hread h2]
        · rfl
    · -- descend to the third level: a 4 KiB leaf
      obtain ⟨third, htarget₂, h⟩ := Option.bind_eq_some_iff.mp h
      obtain ⟨hleaf₂', htable₂⟩ := Slot.getTargetPageTable_eq_some htarget₂
      obtain ⟨hvalid₂', -, -⟩ := hsecond.of_table htable₂
      have hread₂ : ∀ {va}, entryIndex va 1 = entryIndex a 1 →
          resolveSecond second va = resolveThird third va :=
        resolveSecond_of_pointer hvalid₂' hleaf₂' htable₂
      split_ifs at h with hvalid₃
      cases h
      have hvalid₃' : (getEntryForVirtualAddress third a 0).validity = true := by
        simpa using hvalid₃
      refine ⟨(getEntryForVirtualAddress third a 0, 0), ?_, rfl,
        wellFormed_setEntryForVirtualAddress hwf (Slot.wellFormed_withTable hvalid' hleaf'
          (secondWellFormed_setEntryForVirtualAddress hwfs
            (Slot.wellFormed_withTable hvalid₂' hleaf₂' trivial) a)) a,
        fun va hva => ?_, fun va hva => ?_⟩
      · rw [hread rfl, hread₂ rfl]
        simp [resolveThird, hvalid₃']
      · obtain ⟨h2, h1, h0⟩ := hva
        rw [resolve_setEntryForVirtualAddress_withTable hvalid' hleaf', if_pos h2,
          resolveSecond_setEntryForVirtualAddress_withTable hvalid₂' hleaf₂', if_pos h1,
          resolveThird_setEntryForVirtualAddress, if_pos h0]
        rfl
      · rw [resolve_setEntryForVirtualAddress_withTable hvalid' hleaf']
        split_ifs with h2
        · rw [resolveSecond_setEntryForVirtualAddress_withTable hvalid₂' hleaf₂', hread h2]
          split_ifs with h1
          · have h0 : entryIndex va 0 ≠ entryIndex a 0 := fun h0 => hva ⟨h2, h1, h0⟩
            rw [resolveThird_setEntryForVirtualAddress, if_neg h0, hread₂ h1]
          · rfl
        · rfl

/-- A successful write through `get_page_table_entry_for_address_mut` found a
valid 4 KiB leaf at `a` and replaced it by `f` of it; with `f` keeping the valid
bit, every other address reads as before. -/
theorem updatePageTableEntryForAddress_spec {f : PageTableEntry → PageTableEntry}
    (hf : ∀ entry, (f entry).validity = entry.validity) (hwf : WellFormed root)
    (h : updatePageTableEntryForAddress root a f = some (some root')) :
    ∃ entry, resolve root a = some (entry, 0) ∧ WellFormed root' ∧
      (∀ va, SharesLeaf va a 0 → resolve root' va = some (f entry, 0)) ∧
      (∀ va, ¬SharesLeaf va a 0 → resolve root' va = resolve root va) := by
  unfold updatePageTableEntryForAddress at h
  dsimp only at h
  split_ifs at h with hvalid
  · simp at h
  obtain ⟨second, htarget, h⟩ := Option.bind_eq_some_iff.mp h
  obtain ⟨hleaf, htable⟩ := Slot.getTargetPageTable_eq_some htarget
  obtain ⟨hvalid', -, hwfs⟩ := (hwf.getEntry a).of_table htable
  have hread : ∀ {va}, entryIndex va 2 = entryIndex a 2 →
      resolve root va = resolveSecond second va :=
    resolve_of_pointer hvalid' hleaf htable
  split_ifs at h with hvalid₂
  · simp at h
  obtain ⟨third, htarget₂, h⟩ := Option.bind_eq_some_iff.mp h
  obtain ⟨hleaf₂, htable₂⟩ := Slot.getTargetPageTable_eq_some htarget₂
  obtain ⟨hvalid₂', -, -⟩ := (hwfs.getEntry a).of_table htable₂
  have hread₂ : ∀ {va}, entryIndex va 1 = entryIndex a 1 →
      resolveSecond second va = resolveThird third va :=
    resolveSecond_of_pointer hvalid₂' hleaf₂ htable₂
  split_ifs at h with hvalid₃
  · simp at h
  cases h
  have hvalid₃' : (getEntryForVirtualAddress third a 0).validity = true := by
    simpa using hvalid₃
  refine ⟨getEntryForVirtualAddress third a 0, ?_,
    wellFormed_setEntryForVirtualAddress hwf (Slot.wellFormed_withTable hvalid' hleaf
      (secondWellFormed_setEntryForVirtualAddress hwfs
        (Slot.wellFormed_withTable hvalid₂' hleaf₂ trivial) a)) a,
    fun va hva => ?_, fun va hva => ?_⟩
  · rw [hread rfl, hread₂ rfl]
    simp [resolveThird, hvalid₃']
  · obtain ⟨h2, h1, h0⟩ := hva
    rw [resolve_setEntryForVirtualAddress_withTable hvalid' hleaf, if_pos h2,
      resolveSecond_setEntryForVirtualAddress_withTable hvalid₂' hleaf₂, if_pos h1,
      resolveThird_setEntryForVirtualAddress, if_pos h0, hf, if_pos hvalid₃']
  · rw [resolve_setEntryForVirtualAddress_withTable hvalid' hleaf]
    split_ifs with h2
    · rw [resolveSecond_setEntryForVirtualAddress_withTable hvalid₂' hleaf₂, hread h2]
      split_ifs with h1
      · have h0 : entryIndex va 0 ≠ entryIndex a 0 := fun h0 => hva ⟨h2, h1, h0⟩
        rw [resolveThird_setEntryForVirtualAddress, if_neg h0, hread₂ h1]
      · rfl
    · rfl

/-- The levels `resolveThird` and `resolveSecond` read leaves at. -/
theorem resolveThird_level {third : ThirdLevelTable} {va : ℕ} {leaf : PageTableEntry × ℕ}
    (h : resolveThird third va = some leaf) : leaf.2 = 0 := by
  unfold resolveThird at h
  dsimp only at h
  split_ifs at h
  cases h
  rfl

theorem resolveSecond_level {second : SecondLevelTable} {va : ℕ} {leaf : PageTableEntry × ℕ}
    (h : resolveSecond second va = some leaf) : leaf.2 ≤ 1 := by
  unfold resolveSecond Slot.resolveWith at h
  split_ifs at h
  · cases h
    rfl
  · obtain ⟨third, -, hthird⟩ := Option.bind_eq_some_iff.mp h
    rw [resolveThird_level hthird]
    omega

/-- Every address under the leaf that `a` reads reads the same leaf. -/
theorem resolve_of_sharesLeaf {va : ℕ} {entry : PageTableEntry} {level : ℕ}
    (h : resolve root a = some (entry, level)) (hva : SharesLeaf va a level) :
    resolve root va = some (entry, level) := by
  have h2 : entryIndex va 2 = entryIndex a 2 := by
    rcases level with _ | _ | level
    · exact hva.1
    · exact hva.1
    · exact hva
  unfold resolve at h ⊢
  rw [show getEntryForVirtualAddress root va 2 = getEntryForVirtualAddress root a 2 from
    congrArg root h2]
  refine Slot.resolveWith_congr h fun second _ hsecond => ?_
  -- below the first level the leaf is at level 1 or 0, so `va` shares that index too
  have h1 : entryIndex va 1 = entryIndex a 1 := by
    have hlevel := resolveSecond_level hsecond
    rcases level with _ | _ | level
    · exact hva.2.1
    · exact hva.2
    · simp at hlevel
  unfold resolveSecond at hsecond ⊢
  rw [show getEntryForVirtualAddress second va 1 = getEntryForVirtualAddress second a 1 from
    congrArg second h1]
  refine Slot.resolveWith_congr hsecond fun third _ hthird => ?_
  have h0 : entryIndex va 0 = entryIndex a 0 := by
    have hlevel := resolveThird_level hthird
    rcases level with _ | level
    · exact hva.2.2
    · simp at hlevel
  unfold resolveThird at hthird ⊢
  rwa [show getEntryForVirtualAddress third va 0 = getEntryForVirtualAddress third a 0 from
    congrArg third h0]

end Clear

end RootPageTableHolder

end Solaya
