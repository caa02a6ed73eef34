import Solaya.Headers
import Solaya.Klibc.Util

/-!
# Sv39 page-table entries

`memory::page_table_entry::PageTableEntry` is one 64-bit word: bit 0 is the
valid bit, bits 1–3 the XWR permissions, bit 4 the user bit and bits 10–53 the
physical page number.  The setters of the source touch one field each and
leave the others alone (the source's Kani harnesses check exactly this), so
the word is modelled by its four fields.  The physical page number keeps the
source's 44-bit mask: a leaf address at or above `2^56` loses its high bits.
-/

namespace Solaya

/-- `XWRMode`: the permission bits of an entry; `pointerToNextLevel` (all three
bits clear) marks an entry that points to the next table. -/
inductive XWRMode where
  | pointerToNextLevel
  | readOnly
  | readWrite
  | executeOnly
  | readExecute
  | readWriteExecute
  deriving DecidableEq, Repr

/-- `XWRMode::from_prot`: the `PROT_*` combinations the kernel maps; `PROT_NONE`
is mapped read-only. -/
def XWRMode.fromProt (prot : UInt32) : Except Errno XWRMode :=
  if prot = protNone ∨ prot = protRead then .ok .readOnly
  else if prot = protExec then .ok .executeOnly
  else if prot = protRead ||| protWrite then .ok .readWrite
  else if prot = protRead ||| protExec then .ok .readExecute
  else if prot = protRead ||| protWrite ||| protExec then .ok .readWriteExecute
  else .error .einval

/-- `from_prot` never yields the pointer mode, and fails only with `EINVAL`. -/
theorem XWRMode.fromProt_cases (prot : UInt32) :
    (∃ mode, XWRMode.fromProt prot = .ok mode ∧ mode ≠ .pointerToNextLevel) ∨
      XWRMode.fromProt prot = .error .einval := by
  unfold XWRMode.fromProt
  split_ifs <;> simp

/-- `PageTableEntry`, field by field. -/
structure PageTableEntry where
  validity : Bool
  xwrMode : XWRMode
  userModeAccessible : Bool
  physicalPageNumber : ℕ
  deriving DecidableEq, Repr

namespace PageTableEntry

/-- `PHYSICAL_PAGE_BITS`: the width of the physical page number field. -/
def physicalPageBits : ℕ := 2 ^ 44

/-- `PageTableEntry(null_mut())`. -/
def null : PageTableEntry :=
  ⟨false, .pointerToNextLevel, false, 0⟩

/-- `set_validity`. -/
def setValidity (entry : PageTableEntry) (isValid : Bool) : PageTableEntry :=
  { entry with validity := isValid }

/-- `set_user_mode_accessible`. -/
def setUserModeAccessible (entry : PageTableEntry) (isUserModeAccessible : Bool) :
    PageTableEntry :=
  { entry with userModeAccessible := isUserModeAccessible }

/-- `set_xwr_mode`. -/
def setXwrMode (entry : PageTableEntry) (mode : XWRMode) : PageTableEntry :=
  { entry with xwrMode := mode }

/-- `is_leaf`. -/
def isLeaf (entry : PageTableEntry) : Bool :=
  entry.xwrMode != .pointerToNextLevel

/-- `set_leaf_address`: the address must be page aligned; its page number is
masked to the field. -/
def setLeafAddress (entry : PageTableEntry) (address : ℕ) : Option PageTableEntry :=
  if address % pageSize = 0 then
    some { entry with physicalPageNumber := address / pageSize % physicalPageBits }
  else none

/-- `get_physical_address`. -/
def getPhysicalAddress (entry : PageTableEntry) : ℕ :=
  entry.physicalPageNumber * pageSize

/-- The four writes `map` makes to a fresh leaf entry, in the source's order:
`set_xwr_mode`, `set_validity(true)`, `set_leaf_address`,
`set_user_mode_accessible`. -/
def setLeaf (entry : PageTableEntry) (privileges : XWRMode) (address : ℕ)
    (isUserModeAccessible : Bool) : Option PageTableEntry :=
  ((entry.setXwrMode privileges).setValidity true).setLeafAddress address |>.map
    fun entry => entry.setUserModeAccessible isUserModeAccessible

@[simp] theorem setValidity_validity (entry : PageTableEntry) (isValid : Bool) :
    (entry.setValidity isValid).validity = isValid := rfl
@[simp] theorem isLeaf_setValidity (entry : PageTableEntry) (isValid : Bool) :
    (entry.setValidity isValid).isLeaf = entry.isLeaf := rfl
@[simp] theorem setXwrMode_validity (entry : PageTableEntry) (mode : XWRMode) :
    (entry.setXwrMode mode).validity = entry.validity := rfl
@[simp] theorem setXwrMode_xwrMode (entry : PageTableEntry) (mode : XWRMode) :
    (entry.setXwrMode mode).xwrMode = mode := rfl
@[simp] theorem setXwrMode_userModeAccessible (entry : PageTableEntry) (mode : XWRMode) :
    (entry.setXwrMode mode).userModeAccessible = entry.userModeAccessible := rfl
@[simp] theorem setXwrMode_physicalPageNumber (entry : PageTableEntry) (mode : XWRMode) :
    (entry.setXwrMode mode).physicalPageNumber = entry.physicalPageNumber := rfl

theorem isLeaf_iff (entry : PageTableEntry) :
    entry.isLeaf = true ↔ entry.xwrMode ≠ .pointerToNextLevel := by
  simp [isLeaf]

@[simp] theorem null_validity : null.validity = false := rfl
@[simp] theorem null_isLeaf : null.isLeaf = false := rfl
@[simp] theorem null_physicalPageNumber : null.physicalPageNumber = 0 := rfl

/-- What a successful `setLeaf` writes. -/
theorem setLeaf_eq_some {entry entry' : PageTableEntry} {privileges : XWRMode} {address : ℕ}
    {isUserModeAccessible : Bool}
    (h : entry.setLeaf privileges address isUserModeAccessible = some entry') :
    address % pageSize = 0 ∧ entry' =
      ⟨true, privileges, isUserModeAccessible, address / pageSize % physicalPageBits⟩ := by
  unfold setLeaf setLeafAddress at h
  split_ifs at h with haligned
  · simp only [Option.map_some, Option.some.injEq] at h
    exact ⟨haligned, h.symm⟩
  · simp at h

theorem setLeaf_of_aligned (entry : PageTableEntry) (privileges : XWRMode) {address : ℕ}
    (isUserModeAccessible : Bool) (haligned : address % pageSize = 0) :
    entry.setLeaf privileges address isUserModeAccessible =
      some ⟨true, privileges, isUserModeAccessible, address / pageSize % physicalPageBits⟩ := by
  simp [setLeaf, setLeafAddress, haligned, setXwrMode, setValidity, setUserModeAccessible]

/-- Below `2^56` the field keeps a page-aligned address whole. -/
theorem getPhysicalAddress_of_lt {privileges : XWRMode} {isUserModeAccessible : Bool}
    {address : ℕ} (haligned : address % pageSize = 0)
    (hlt : address < 2 ^ 56) :
    (⟨true, privileges, isUserModeAccessible, address / pageSize % physicalPageBits⟩ :
      PageTableEntry).getPhysicalAddress = address := by
  have hpage : address / pageSize < physicalPageBits := by
    simp only [pageSize, physicalPageBits]
    omega
  simp only [getPhysicalAddress, Nat.mod_eq_of_lt hpage]
  exact Nat.div_mul_cancel (Nat.dvd_of_mod_eq_zero haligned)

end PageTableEntry

end Solaya
