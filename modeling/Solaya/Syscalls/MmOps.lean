import Solaya.Processes.Process

/-!
# The memory-management system calls

`do_mmap`, `do_mprotect` and `munmap` of `LinuxSyscallHandler`, each run on the
current process under its lock.  `none` is a panic: an `assert_eq!` on flags
the kernel does not implement, an overflow, or an assertion or `expect` in the
page table below.  A new region's pages come from the kernel heap; `backing`
is the address the allocation returns.
-/

namespace Solaya

/-- `usize::next_multiple_of`, with the overflow check of the kernel's build. -/
def nextMultipleOf (value rhs : ℕ) : Option ℕ :=
  if value % rhs = 0 then some value else checkedAdd value (rhs - value % rhs)

/-- Below `usize::MAX`, `next_multiple_of` is `align_up`. -/
theorem nextMultipleOf_eq_alignUp {value rhs : ℕ} (hrhs : 0 < rhs)
    (h : alignUp value rhs ≤ usizeMax) : nextMultipleOf value rhs = some (alignUp value rhs) := by
  unfold nextMultipleOf
  split_ifs with hzero
  · rw [alignUp_of_mod_eq_zero hzero]
  · have hlt := Nat.mod_lt value hrhs
    rw [alignUp_of_mod_ne_zero hzero] at h ⊢
    rw [checkedAdd_of_le (by omega)]
    congr 1
    omega

namespace LinuxSyscallHandler

/-- The closure `do_mmap` runs under the process lock, with the rounded
`length` and the permission `from_prot` gave.  With `MAP_FIXED` a range that
meets a mapping is only reprotected (the source handles no partial overlap);
without it, no hint or a taken one goes to the cursor. -/
def mmapLocked (process : Process) (addr length : ℕ) (fixed : Bool) (permission : XWRMode)
    (backing : ℕ) : Option (Except Errno ℤ × Process) := do
  if fixed then
    let rangeEnd ← checkedAdd addr length
    if process.pageTable.isMapped (addr, rangeEnd) then
      let pageTable ← process.pageTable.mprotect addr length permission
      return (.ok (usizeAsIsize addr), { process with pageTable })
    let (ptr, process) ← process.mmapPagesWithAddress (length / pageSize) addr permission backing
    return (.ok (usizeAsIsize ptr), process)
  -- `addr == 0 || is_mapped(addr..addr + length)`
  let toCursor ← if addr = 0 then some true
    else (checkedAdd addr length).map fun rangeEnd => process.pageTable.isMapped (addr, rangeEnd)
  let (ptr, process) ← if toCursor then process.mmapPages (length / pageSize) permission backing
    else process.mmapPagesWithAddress (length / pageSize) addr permission backing
  return (.ok (usizeAsIsize ptr), process)

variable {process : Process} {addr length : ℕ} {permission : XWRMode} {backing : ℕ}

/-- Without `MAP_FIXED`, no hint or a taken one goes to the cursor. -/
theorem mmapLocked_toCursor
    (hcursor : addr = 0 ∨ addr + length ≤ usizeMax ∧
      process.pageTable.isMapped (addr, addr + length) = true) :
    mmapLocked process addr length false permission backing =
      (process.mmapPages (length / pageSize) permission backing).map fun (ptr, process) =>
        (.ok (usizeAsIsize ptr), process) := by
  unfold mmapLocked
  by_cases haddr : addr = 0
  · simp only [haddr, Bool.false_eq_true, if_false, if_true, Option.bind_eq_bind]
    cases process.mmapPages (length / pageSize) permission backing <;> rfl
  · obtain ⟨hend, hmapped⟩ := hcursor.resolve_left haddr
    simp only [haddr, Bool.false_eq_true, if_false, if_true, checkedAdd_of_le hend,
      Option.map_some, hmapped, Option.bind_eq_bind, Option.bind_some]
    cases process.mmapPages (length / pageSize) permission backing <;> rfl

/-- With `MAP_FIXED` over a range that meets a mapping, the pages are only
reprotected. -/
theorem mmapLocked_remap (hend : addr + length ≤ usizeMax)
    (hmapped : process.pageTable.isMapped (addr, addr + length) = true) :
    mmapLocked process addr length true permission backing =
      (process.pageTable.mprotect addr length permission).map fun pageTable =>
        (.ok (usizeAsIsize addr), { process with pageTable }) := by
  simp only [mmapLocked, if_true, checkedAdd_of_le hend, hmapped, Option.bind_eq_bind,
    Option.bind_some]
  cases process.pageTable.mprotect addr length permission <;> rfl

/-- `do_mmap`: anonymous private mappings only, asserted. -/
def doMmap (process : Process) (addr length : ℕ) (prot flags : UInt32) (fd offset : ℤ)
    (backing : ℕ) : Option (Except Errno ℤ × Process) :=
  if flags &&& ~~~(mapAnonymous ||| mapPrivate ||| mapFixed) ≠ 0 then none
  else if flags &&& (mapAnonymous ||| mapPrivate) ≠ mapAnonymous ||| mapPrivate then none
  else if fd ≠ -1 then none
  else if offset ≠ 0 then none
  else if length = 0 then some (.error .einval, process)
  else do
    let length ← nextMultipleOf length pageSize
    let fixed := decide (0 < flags &&& mapFixed)
    if fixed ∧ addr = 0 then return (.error .einval, process)
    match XWRMode.fromProt prot with
    | .error e => return (.error e, process)
    | .ok permission => mmapLocked process addr length fixed permission backing

/-- `do_mmap` with the flags it implements, `fd = -1`, `offset = 0` and a
length whose rounding fits a `usize`. -/
theorem doMmap_of_flags {prot flags : UInt32}
    (hflags : flags = mapAnonymous ||| mapPrivate ∨ flags = mapAnonymous ||| mapPrivate ||| mapFixed)
    (hlength : 0 < length) (hrounded : alignUp length pageSize ≤ usizeMax) :
    doMmap process addr length prot flags (-1) 0 backing =
      if decide (0 < flags &&& mapFixed) = true ∧ addr = 0 then some (.error .einval, process)
      else match XWRMode.fromProt prot with
        | .error e => some (.error e, process)
        | .ok permission => mmapLocked process addr (alignUp length pageSize)
            (decide (0 < flags &&& mapFixed)) permission backing := by
  have hflags' : flags &&& ~~~(mapAnonymous ||| mapPrivate ||| mapFixed) = 0 ∧
      flags &&& (mapAnonymous ||| mapPrivate) = mapAnonymous ||| mapPrivate := by
    rcases hflags with rfl | rfl <;> decide
  simp only [doMmap, hflags', ne_eq, not_true_eq_false, if_false, hlength.ne',
    nextMultipleOf_eq_alignUp (by decide : 0 < pageSize) hrounded, Option.bind_eq_bind,
    Option.bind_some]
  split_ifs <;> rfl

/-- `do_mprotect`: `prot` must fit a `c_uint`. -/
def doMprotect (process : Process) (addr len : ℕ) (prot : Int32) :
    Option (Except Errno ℤ × Process) :=
  if addr % pageSize ≠ 0 ∨ len = 0 then some (.error .einval, process)
  else if prot.toInt < 0 then some (.error .einval, process)
  else do
    let size ← nextMultipleOf len pageSize
    match XWRMode.fromProt prot.toUInt32 with
    | .error e => return (.error e, process)
    | .ok mode =>
        let pageTable ← process.pageTable.mprotect addr size mode
        return (.ok 0, { process with pageTable })

/-- `munmap`. -/
def munmap (process : Process) (addr length : ℕ) : Option (Except Errno ℤ × Process) :=
  if addr % pageSize ≠ 0 ∨ length = 0 then some (.error .einval, process)
  else (process.munmapPages addr length).map fun (result, process) =>
    (result.map fun _ => 0, process)

/-- The memory-management calls a process makes; a new region's heap pages
come at `backing`. -/
inductive MmRequest
  | mmap (addr length : ℕ) (prot flags : UInt32) (fd offset : ℤ) (backing : ℕ)
  | mprotect (addr len : ℕ) (prot : Int32)
  | munmap (addr length : ℕ)
  deriving DecidableEq, Repr

/-- The dispatch of `LinuxSyscallHandler` to the three handlers. -/
def MmRequest.serve (process : Process) : MmRequest → Option (Except Errno ℤ × Process)
  | .mmap addr length prot flags fd offset backing =>
      doMmap process addr length prot flags fd offset backing
  | .mprotect addr len prot => doMprotect process addr len prot
  | .munmap addr length => LinuxSyscallHandler.munmap process addr length

end LinuxSyscallHandler

end Solaya
