import Solaya.Processes.FdTable
import Solaya.Core.Fallible
import Solaya.Core.Machine
import Mathlib.Algebra.Group.Nat.Defs

/-!
# The system calls on the descriptor table

`do_fcntl` and `do_pipe2` (`syscalls/io_ops.rs`), `close` and `dup3`
(`syscalls/linux.rs`) and the `FIONBIO` arm of `do_ioctl`
(`syscalls/ioctl_ops.rs`) work on the calling process's `FdTable`, each step
under the process lock and each error returned at once by `?`.  A call is a
`Fallible FdTable Errno` computation: what one step changed stays when a later
step fails.

Every call but `pipe2` reads, then makes at most one change by a table method,
and so keeps the table on an error (`syscall_keepsOnError`).  `do_pipe2`
allocates both ends before it writes their numbers to user memory, and a
fault there returns `EFAULT` with the two numbers left in the table.

`F_SETFD` changes the close-on-exec bit of one number and nothing else
(`doFcntl_setfd`).  `F_SETFL` and `FIONBIO` store a whole new `FdFlags`, and
the close-on-exec bit lives in the same word, so they set or clear it with the
status flags (`doFcntl_setfl`).  `dup3` puts the entry on whatever `newfd` the
caller passes, negative numbers included; every other call keeps the table's
numbers non-negative (`run_nonNegative`).
-/

namespace Solaya

/-- A system call on the calling process's descriptor table, returning the
`isize` result. -/
abbrev FdTableOp (α : Type) := Fallible FdTable Errno α

namespace LinuxSyscallHandler

/-- `i32::try_from(arg).map_err(|_| Errno::EINVAL)` for a `c_ulong`. -/
def i32TryFrom (arg : UInt64) : Except Errno Int32 :=
  if arg.toNat < 2 ^ 31 then .ok (Int32.ofNat arg.toNat) else .error .einval

/-- The commands `do_fcntl` names itself. -/
def fDupfdCmd : UInt32 := 0
def fGetfdCmd : UInt32 := 1
def fSetfdCmd : UInt32 := 2
def fdCloexecFlag : Int32 := 1
def fDupfdCloexecCmd : UInt32 := 1030

/-- `LinuxSyscallHandler::do_fcntl`. -/
def doFcntl (fd cmd : Int32) (arg : UInt64) : FdTableOp ℤ := do
  let cmd := cmd.toUInt32
  if cmd = fDupfdCmd then
    let minFd ← Fallible.check (i32TryFrom arg)
    let newFd ← Fallible.update (·.dupFrom fd.toInt minFd.toInt .default)
    pure newFd
  else if cmd = fDupfdCloexecCmd then
    let minFd ← Fallible.check (i32TryFrom arg)
    let newFd ← Fallible.update (·.dupFrom fd.toInt minFd.toInt (.fromRaw oCloexec.toInt32))
    pure newFd
  else if cmd = fGetfdCmd then
    let flags ← Fallible.read (·.getFlags fd.toInt)
    pure (if flags.isCloexec then fdCloexecFlag.toInt else 0)
  else if cmd = fSetfdCmd then
    let raw ← Fallible.check (i32TryFrom arg)
    let current ← Fallible.read (·.getFlags fd.toInt)
    -- the status bits of `current` are kept; only `O_CLOEXEC` follows `raw`
    let newRaw :=
      if (raw &&& fdCloexecFlag) != 0 then current.asRaw ||| oCloexec.toInt32
      else current.asRaw &&& ~~~oCloexec.toInt32
    Fallible.update (·.setFlags fd.toInt (.fromRaw newRaw))
    pure 0
  else if cmd = fGetfl then
    let flags ← Fallible.read (·.getFlags fd.toInt)
    pure flags.asRaw.toInt
  else if cmd = fSetfl then
    let raw ← Fallible.check (i32TryFrom arg)
    -- the whole word is replaced, `O_CLOEXEC` included
    Fallible.update (·.setFlags fd.toInt (.fromRaw raw))
    pure 0
  else throw .einval

/-- `LinuxSyscallHandler::do_pipe2`.  `pipe` names the buffer `new_pipe`
makes, and `writeSlice` is the outcome of writing the two numbers to the
user's array. -/
def doPipe2 (pipe : ℕ) (writeSlice : List RawFd → Except Errno Unit) : FdTableOp ℤ := do
  let readFd ← Fallible.update (·.allocate (.pipeRead pipe))
  let writeFd ← Fallible.update (·.allocate (.pipeWrite pipe))
  Fallible.check (writeSlice [readFd, writeFd])
  pure 0

/-- `LinuxSyscalls::close`. -/
def close (fd : Int32) : FdTableOp ℤ := do
  let _ ← Fallible.update (·.close fd.toInt)
  pure 0

/-- `LinuxSyscalls::dup3`. -/
def dup3 (oldfd newfd flags : Int32) : FdTableOp ℤ := do
  let result ← Fallible.update (·.dupTo oldfd.toInt newfd.toInt flags)
  pure result

/-- The `FIONBIO` arm of `do_ioctl`, the one arm that changes the table.
`value` is the `c_int` read from the user's pointer, or the error of that
read. -/
def doIoctlFionbio (fd : Int32) (value : Except Errno Int32) : FdTableOp ℤ := do
  let descriptor ← Fallible.read (·.getDescriptor fd.toInt)
  match descriptor with
  | .udpSocket _ | .unboundUdpSocket =>
    let value ← Fallible.check value
    let flags := if value != 0 then FdFlags.fromRaw oNonblock.toInt32 else .default
    Fallible.update (·.setFlags fd.toInt flags)
    pure 0
  -- no other arm of `do_ioctl` takes `FIONBIO`
  | _ => throw .einval

/-- `do_execve` gives the new process a copy of the table without its
close-on-exec numbers. -/
def execveFdTable : FdTableOp Unit :=
  Fallible.update fun t => .ok ((), t.closeCloexecFds)

/-! ## An error leaves the table as it was -/

open Fallible in
theorem doFcntl_keepsOnError (fd cmd : Int32) (arg : UInt64) : KeepsOnError (doFcntl fd cmd arg) := by
  unfold doFcntl
  dsimp only
  -- each arm reads and then makes at most one change
  split_ifs
  · exact .of_readOnly_bind (readOnly_check _) fun _ => keepsOnError_update _
  · exact .of_readOnly_bind (readOnly_check _) fun _ => keepsOnError_update _
  · exact ((readOnly_read _).bind fun _ => readOnly_pure _).keepsOnError
  · exact .of_readOnly_bind (readOnly_check _) fun _ =>
      .of_readOnly_bind (readOnly_read _) fun _ => (keepsOnError_update _).bind_pure _
  · exact ((readOnly_read _).bind fun _ => readOnly_pure _).keepsOnError
  · exact .of_readOnly_bind (readOnly_check _) fun _ => (keepsOnError_update _).bind_pure _
  · exact (readOnly_throw _).keepsOnError

open Fallible in
theorem close_keepsOnError (fd : Int32) : KeepsOnError (close fd) :=
  (keepsOnError_update _).bind_pure _

open Fallible in
theorem dup3_keepsOnError (oldfd newfd flags : Int32) : KeepsOnError (dup3 oldfd newfd flags) :=
  keepsOnError_update _

open Fallible in
theorem doIoctlFionbio_keepsOnError (fd : Int32) (value : Except Errno Int32) :
    KeepsOnError (doIoctlFionbio fd value) := by
  refine .of_readOnly_bind (readOnly_read _) fun descriptor => ?_
  cases descriptor
  case udpSocket | unboundUdpSocket =>
    exact .of_readOnly_bind (readOnly_check _) fun _ => (keepsOnError_update _).bind_pure _
  all_goals exact (readOnly_throw _).keepsOnError

/-! ## What `F_DUPFD`, `F_SETFD` and `F_SETFL` do -/

theorem i32TryFrom_nonneg {arg : UInt64} {raw : Int32} (h : i32TryFrom arg = .ok raw) :
    0 ≤ raw.toInt := by
  unfold i32TryFrom at h
  split at h
  · rename_i hlt
    cases h
    rw [Int32.toInt_ofNat_of_lt hlt]
    omega
  · cases h

/-- A successful check passed its value on and left the table. -/
theorem run_check_eq_ok {α : Type} {x : Except Errno α} {t t' : FdTable} {a : α}
    (h : Fallible.run (Fallible.check x) t = (.ok a, t')) : x = .ok a ∧ t = t' := by
  rwa [Fallible.run_check, Prod.mk.injEq] at h

theorem run_getFlags_eq_ok {fd : RawFd} {t t' : FdTable} {flags : FdFlags}
    (h : Fallible.run (Fallible.read (·.getFlags fd)) t = (.ok flags, t')) :
    (∃ entry, t.get fd = some entry ∧ entry.flags = flags) ∧ t = t' := by
  rw [Fallible.run_read, Prod.mk.injEq] at h
  exact ⟨FdTable.getFlags_eq_ok_iff.mp h.1, h.2⟩

/-- `F_DUPFD` that succeeds puts what `fd` refers to, with default flags, on
the least free number from `arg` on, which is not negative. -/
theorem doFcntl_dupfd {fd : Int32} {arg : UInt64} {t t' : FdTable} {newfd : ℤ}
    (h : Fallible.run (doFcntl fd 0 arg) t = (.ok newfd, t')) :
    ∃ minFd entry, i32TryFrom arg = .ok minFd ∧ 0 ≤ minFd.toInt ∧ t.get fd.toInt = some entry ∧
      t.IsLeastFree minFd.toInt newfd ∧
      t' = ⟨t.table.insert newfd ⟨entry.descriptor, .default⟩⟩ := by
  unfold doFcntl at h
  dsimp only at h
  rw [if_pos (by decide)] at h
  obtain ⟨minFd, t₁, hcheck, hdup⟩ := Fallible.run_bind_eq_ok h
  obtain ⟨hmin, rfl⟩ := run_check_eq_ok hcheck
  have hdup := Fallible.run_update_eq_ok hdup
  cases hold : t.get fd.toInt with
  | none => simp [FdTable.dupFrom, hold] at hdup
  | some entry =>
    obtain ⟨newfd', hleast, hok⟩ := FdTable.dupFrom_eq_ok hold minFd.toInt .default
    rw [hok] at hdup
    cases hdup
    exact ⟨minFd, entry, hmin, i32TryFrom_nonneg hmin, rfl, hleast, rfl⟩

/-- `F_SETFD` that succeeds gives `fd` the close-on-exec bit of `arg` and
keeps the rest of its entry, its non-blocking bit included, and every other
number. -/
theorem doFcntl_setfd {fd : Int32} {arg : UInt64} {t t' : FdTable} {r : ℤ}
    (h : Fallible.run (doFcntl fd 2 arg) t = (.ok r, t')) :
    ∃ raw entry flags, i32TryFrom arg = .ok raw ∧ t.get fd.toInt = some entry ∧
      t' = ⟨t.table.insert fd.toInt { entry with flags }⟩ ∧
      flags.isNonblocking = entry.flags.isNonblocking ∧
      flags.isCloexec = ((raw &&& fdCloexecFlag) != 0) := by
  unfold doFcntl at h
  dsimp only at h
  rw [if_neg (by decide), if_neg (by decide), if_neg (by decide), if_pos (by decide)] at h
  obtain ⟨raw, t₁, hcheck, h₁⟩ := Fallible.run_bind_eq_ok h
  obtain ⟨hraw, rfl⟩ := run_check_eq_ok hcheck
  obtain ⟨current, t₂, hcurrent, h₂⟩ := Fallible.run_bind_eq_ok h₁
  obtain ⟨⟨entry, hentry, rfl⟩, rfl⟩ := run_getFlags_eq_ok hcurrent
  obtain ⟨_, t₃, hset, hpure⟩ := Fallible.run_bind_eq_ok h₂
  rw [Fallible.run_pure, Prod.mk.injEq] at hpure
  obtain ⟨-, rfl⟩ := hpure
  have hset := Fallible.run_update_eq_ok hset
  rw [FdTable.setFlags_eq_ok hentry] at hset
  cases hset
  refine ⟨raw, entry, _, hraw, hentry, rfl, ?_⟩
  -- the new word sets or clears `O_CLOEXEC` in the old one
  split
  · rename_i hset
    rw [hset]
    exact FdFlags.fromRaw_or_oCloexec entry.flags
  · rename_i hclear
    rw [Bool.not_eq_true] at hclear
    rw [hclear]
    exact FdFlags.fromRaw_and_not_oCloexec entry.flags

/-- `F_SETFL` that succeeds replaces the flags of `fd` by `from_raw(arg)`: its
close-on-exec bit becomes bit 19 of `arg`, whatever it was. -/
theorem doFcntl_setfl {fd : Int32} {arg : UInt64} {t t' : FdTable} {r : ℤ}
    (h : Fallible.run (doFcntl fd 4 arg) t = (.ok r, t')) :
    ∃ raw entry, i32TryFrom arg = .ok raw ∧ t.get fd.toInt = some entry ∧
      t' = ⟨t.table.insert fd.toInt { entry with flags := .fromRaw raw }⟩ ∧
      (FdFlags.fromRaw raw).isCloexec = raw.toBitVec.getLsbD 19 := by
  unfold doFcntl at h
  dsimp only at h
  rw [if_neg (by decide), if_neg (by decide), if_neg (by decide), if_neg (by decide),
    if_neg (by decide), if_pos (by decide)] at h
  obtain ⟨raw, t₁, hcheck, h₁⟩ := Fallible.run_bind_eq_ok h
  obtain ⟨hraw, rfl⟩ := run_check_eq_ok hcheck
  obtain ⟨_, t₂, hset, hpure⟩ := Fallible.run_bind_eq_ok h₁
  rw [Fallible.run_pure, Prod.mk.injEq] at hpure
  obtain ⟨-, rfl⟩ := hpure
  have hset := Fallible.run_update_eq_ok hset
  cases hentry : t.get fd.toInt with
  | none => simp [FdTable.setFlags, hentry] at hset
  | some entry =>
    rw [FdTable.setFlags_eq_ok hentry] at hset
    cases hset
    exact ⟨raw, entry, hraw, rfl, rfl, FdFlags.fromRaw_isCloexec raw⟩

end LinuxSyscallHandler

/-- A system call that works on the descriptor table. -/
inductive FdSyscall where
  /-- `openat`, `socket` and `accept` allocate a number for what they open. -/
  | allocate (descriptor : FileDescriptor)
  | fcntl (fd cmd : Int32) (arg : UInt64)
  | pipe2 (pipe : ℕ) (writeSlice : List RawFd → Except Errno Unit)
  | close (fd : Int32)
  | dup3 (oldfd newfd flags : Int32)
  | ioctlFionbio (fd : Int32) (value : Except Errno Int32)
  | execve

namespace FdSyscall

/-- The computation of each call. -/
def op : FdSyscall → FdTableOp ℤ
  | .allocate descriptor => Fallible.update (·.allocate descriptor)
  | .fcntl fd cmd arg => LinuxSyscallHandler.doFcntl fd cmd arg
  | .pipe2 pipe writeSlice => LinuxSyscallHandler.doPipe2 pipe writeSlice
  | .close fd => LinuxSyscallHandler.close fd
  | .dup3 oldfd newfd flags => LinuxSyscallHandler.dup3 oldfd newfd flags
  | .ioctlFionbio fd value => LinuxSyscallHandler.doIoctlFionbio fd value
  | .execve => LinuxSyscallHandler.execveFdTable >>= fun _ => pure 0

/-- The table after a call, whatever the call returns. -/
def step (t : FdTable) (call : FdSyscall) : Option FdTable :=
  some (Fallible.run call.op t).2

/-- Every call but `pipe2` keeps the table when it returns an error. -/
theorem op_keepsOnError {call : FdSyscall}
    (hcall : ∀ pipe writeSlice, call ≠ .pipe2 pipe writeSlice) : Fallible.KeepsOnError call.op := by
  cases call with
  | allocate descriptor => exact Fallible.keepsOnError_update _
  | fcntl fd cmd arg => exact LinuxSyscallHandler.doFcntl_keepsOnError fd cmd arg
  | pipe2 pipe writeSlice => exact absurd rfl (hcall pipe writeSlice)
  | close fd => exact LinuxSyscallHandler.close_keepsOnError fd
  | dup3 oldfd newfd flags => exact LinuxSyscallHandler.dup3_keepsOnError oldfd newfd flags
  | ioctlFionbio fd value => exact LinuxSyscallHandler.doIoctlFionbio_keepsOnError fd value
  | execve => exact (Fallible.keepsOnError_update _).bind_pure _

/-! ## Numbers stay non-negative, but for `dup3` -/

/-- The calls that cannot put an entry on a negative number: all but a
`dup3` onto a negative `newfd`. -/
def Admissible : FdSyscall → Prop
  | .dup3 _ newfd _ => 0 ≤ newfd.toInt
  | _ => True

open Fallible in
theorem doFcntl_preserves_nonNegative (fd cmd : Int32) (arg : UInt64) :
    Preserves FdTable.NonNegative (LinuxSyscallHandler.doFcntl fd cmd arg) := by
  unfold LinuxSyscallHandler.doFcntl
  dsimp only
  split_ifs
  · exact .check_bind fun _ hmin => preserves_update fun _ _ _ ht h =>
      ht.dupFrom (LinuxSyscallHandler.i32TryFrom_nonneg hmin) h
  · exact .check_bind fun _ hmin => preserves_update fun _ _ _ ht h =>
      ht.dupFrom (LinuxSyscallHandler.i32TryFrom_nonneg hmin) h
  · exact ((readOnly_read _).bind fun _ => readOnly_pure _).preserves _
  · exact .check_bind fun _ _ => ((readOnly_read _).preserves _).bind fun _ =>
      (preserves_update fun _ _ _ ht h => ht.setFlags h).bind fun _ => (readOnly_pure _).preserves _
  · exact ((readOnly_read _).bind fun _ => readOnly_pure _).preserves _
  · exact .check_bind fun _ _ =>
      (preserves_update fun _ _ _ ht h => ht.setFlags h).bind fun _ => (readOnly_pure _).preserves _
  · exact (readOnly_throw _).preserves _

open Fallible in
theorem op_preserves_nonNegative {call : FdSyscall} (hcall : call.Admissible) :
    Preserves FdTable.NonNegative call.op := by
  cases call with
  | allocate descriptor => exact preserves_update fun _ _ _ ht h => ht.allocate h
  | fcntl fd cmd arg => exact doFcntl_preserves_nonNegative fd cmd arg
  | pipe2 pipe writeSlice =>
    exact (preserves_update fun _ _ _ ht h => ht.allocate h).bind fun _ =>
      (preserves_update fun _ _ _ ht h => ht.allocate h).bind fun _ =>
        ((readOnly_check _).preserves _).bind fun _ => (readOnly_pure _).preserves _
  | close fd =>
    exact (preserves_update fun _ _ _ ht h => ht.close h).bind fun _ => (readOnly_pure _).preserves _
  | dup3 oldfd newfd flags => exact preserves_update fun _ _ _ ht h => ht.dupTo hcall h
  | ioctlFionbio fd value =>
    refine ((readOnly_read _).preserves _).bind fun descriptor => ?_
    cases descriptor
    case udpSocket | unboundUdpSocket =>
      exact ((readOnly_check _).preserves _).bind fun _ =>
        (preserves_update fun _ _ _ ht h => ht.setFlags h).bind fun _ => (readOnly_pure _).preserves _
    all_goals exact (readOnly_throw _).preserves _
  | execve =>
    exact (preserves_update fun _ _ _ ht h => by cases h; exact ht.closeCloexecFds).bind fun _ =>
      (readOnly_pure _).preserves _

theorem new_nonNegative (tty : ℕ) : (FdTable.new tty).NonNegative := by
  intro fd hfd
  simp only [FdTable.new, List.foldl_cons, List.foldl_nil, FdTable.get_insert] at hfd
  split_ifs at hfd with h2 h1 h0
  · subst h2; decide
  · subst h1; decide
  · subst h0; decide
  · exact absurd (AList.lookup_empty fd) hfd

/-- From a table without negative numbers, calls other than a `dup3` onto a
negative number never make one. -/
theorem run_nonNegative {t t' : FdTable} {calls : List FdSyscall} (ht : t.NonNegative)
    (hcalls : ∀ call ∈ calls, call.Admissible) (hrun : Machine.run step t calls = some t') :
    t'.NonNegative :=
  Machine.run_induction FdTable.NonNegative Admissible
    (fun t call t' ht hcall hstep => by
      cases hstep
      exact op_preserves_nonNegative hcall t ht)
    ht hcalls hrun

/-- From the initial table, three calls break the table's contract.
`F_SETFD` sets close-on-exec on 0, and `F_SETFL` with `O_NONBLOCK` clears it.
`dup3(0, -1, 0)` puts an entry on -1.  A `pipe2` whose write of the pair
faults returns `EFAULT` and leaves both ends on 3 and 4. -/
theorem setfl_clears_cloexec_dup3_negative_pipe2_leaks :
    (∃ t t', step (FdTable.new 0) (.fcntl 0 2 1) = some t ∧
      (t.get 0).map (·.flags.isCloexec) = some true ∧
      step t (.fcntl 0 4 0x800) = some t' ∧
      (t'.get 0).map (fun entry => (entry.flags.isNonblocking, entry.flags.isCloexec)) =
        some (true, false)) ∧
    (∃ t, step (FdTable.new 0) (.dup3 0 (-1) 0) = some t ∧ (t.get (-1)).isSome) ∧
    ∃ t, Fallible.run (LinuxSyscallHandler.doPipe2 0 fun _ => .error .efault) (FdTable.new 0) =
        (.error .efault, t) ∧
      (FdTable.new 0).get 3 = none ∧ (t.get 3).map (·.descriptor) = some (.pipeRead 0) ∧
      (t.get 4).map (·.descriptor) = some (.pipeWrite 0) :=
  ⟨⟨_, _, rfl, rfl, rfl, rfl⟩, ⟨_, rfl, rfl⟩, ⟨_, rfl, rfl, rfl, rfl⟩⟩

end FdSyscall

end Solaya
