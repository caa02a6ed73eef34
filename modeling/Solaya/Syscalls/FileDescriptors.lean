import Solaya.Fs.OpenFile
import Solaya.Syscalls.IoOps
import Solaya.Core.Simulation

/-!
# Open files behind the descriptor table

`do_openat` (`syscalls/fs_ops.rs`) ends with `FdTable::allocate`: the new
description goes on the least free number of the calling process's table, and
that number is what `openat` returns.  `read` and `write` find the description
of a number with `get_descriptor_and_flags` and `get_descriptor`
(`syscalls/io_ops.rs`), `lseek` with `get_vfs_file` (`syscalls/linux.rs`), and
`close` takes the number out of the table.

`WithFdTable.step` puts the table in front of a system of open descriptions of
one file whose `openat` replies with the index of the description it makes, as
`TmpfsSystem.step` does: a number that holds `VfsFile file` names the
description at index `file`.  The table does the same in front of the kernel's
descriptions as in front of their pictures, so a refinement between the two
carries over to the calls through the table (`step_refines`).  For the tmpfs
file every run that does not panic gives the replies of the same calls on the
pictures behind the same table, and keeps every number on one of the file's
descriptions (`runReplies_refines_fdTable`).  The numbers are not the indices:
`openat` replies with the least free number (`step_openat`), which after a
`close` lies below the count of descriptions.
-/

namespace Solaya

/-- A system call of the process on one tmpfs file, with the `c_int` numbers
it passes. -/
inductive FdFileCall where
  | openat (flags : Int32)
  | read (fd : Int32) (count : ℕ)
  | write (fd : Int32) (data : List UInt8)
  | lseek (fd : Int32) (offset : Int64) (whence : Int32)
  | close (fd : Int32)
  deriving DecidableEq, Repr

/-- The open descriptions of one file, a system of type `σ`, behind the
calling process's descriptor table: the entry `VfsFile file` on a number names
the description at index `file`. -/
structure WithFdTable (σ : Type) where
  system : σ
  fdTable : FdTable

namespace TmpfsSystem

open Tmpfs

/-- Every number in use holds one of the system's descriptions. -/
def HoldsDescriptions (s : TmpfsSystem) (t : FdTable) : Prop :=
  ∀ fd entry, t.get fd = some entry → ∃ file < s.files.length, entry.descriptor = .vfsFile file

variable {s : TmpfsSystem}

/-- What `openat` can do: refuse with `ENOTDIR`, or add a description at the
end and reply with its index; the content is truncated or not either way. -/
theorem step_openat_cases (s : TmpfsSystem) (flags : Int32) :
    ∃ content, s.step (.openat flags) = some (.error .enotdir, { s with content }) ∨
      s.step (.openat flags) =
        some (.ok (.value s.files.length), ⟨content, s.files ++ [.open flags]⟩) := by
  refine ⟨if (flags &&& oTrunc.toInt32) != 0 then truncate s.content else s.content, ?_⟩
  unfold step openat
  by_cases hdir : ((flags &&& oDirectory.toInt32) != 0) = true
  · exact .inl (by simp only [hdir, if_true])
  · exact .inr (by simp only [hdir, Bool.false_eq_true, if_false])

/-- No call removes a description. -/
theorem length_files_le_of_step {c : FileCall} {r : Except Errno FileReply × TmpfsSystem}
    (h : s.step c = some r) : s.files.length ≤ r.2.files.length := by
  have hset : ∀ fd f, (s.setFile fd f).files.length = s.files.length := fun _ _ => List.length_set
  cases c with
  | openat flags =>
    obtain ⟨content, herr | hok⟩ := s.step_openat_cases flags
    · rw [herr] at h
      cases h
      exact le_refl _
    · rw [hok] at h
      cases h
      simp
  | read fd count =>
    unfold step at h
    cases hf : s.files[fd]? with
    | none =>
      simp only [hf, Option.some.injEq] at h
      subst h
      exact le_refl _
    | some f =>
      simp only [hf] at h
      obtain ⟨_, -, rfl⟩ := Option.map_eq_some_iff.mp h
      exact (hset _ _).ge
  | write fd data =>
    unfold step at h
    cases hf : s.files[fd]? with
    | none =>
      simp only [hf, Option.some.injEq] at h
      subst h
      exact le_refl _
    | some f =>
      simp only [hf] at h
      obtain ⟨_, -, rfl⟩ := Option.map_eq_some_iff.mp h
      exact (hset _ _).ge
  | lseek fd offset whence =>
    unfold step at h
    cases hf : s.files[fd]? with
    | none =>
      simp only [hf, Option.some.injEq] at h
      subst h
      exact le_refl _
    | some f =>
      simp only [hf] at h
      -- a refused seek keeps the system, a done one moves one description
      cases hseek : f.seek (Tmpfs.size s.content) offset whence with
      | ok n =>
        simp only [hseek, Option.some.injEq] at h
        subst h
        exact (hset _ _).ge
      | error e =>
        simp only [hseek, Option.some.injEq] at h
        subst h
        exact le_refl _

variable {t : FdTable}

theorem HoldsDescriptions.mono {s' : TmpfsSystem} (h : s.HoldsDescriptions t)
    (hlen : s.files.length ≤ s'.files.length) : s'.HoldsDescriptions t := by
  intro fd entry hentry
  obtain ⟨file, hfile, hdesc⟩ := h fd entry hentry
  exact ⟨file, by omega, hdesc⟩

theorem HoldsDescriptions.insert (h : s.HoldsDescriptions t) {file : ℕ}
    (hfile : file < s.files.length) (fd : RawFd) (flags : FdFlags) :
    s.HoldsDescriptions ⟨t.table.insert fd ⟨.vfsFile file, flags⟩⟩ := by
  intro n entry hentry
  rw [FdTable.get_insert] at hentry
  split at hentry
  · cases hentry
    exact ⟨file, hfile, rfl⟩
  · exact h n entry hentry

/-- In such a table `get_vfs_file` finds a description for every number in
use: `EBADF` comes only from a free number. -/
theorem HoldsDescriptions.getVfsFile_eq_ok (h : s.HoldsDescriptions t) {fd : RawFd}
    {entry : FdEntry} (hfd : t.get fd = some entry) :
    ∃ file < s.files.length, t.getVfsFile fd = .ok file := by
  obtain ⟨file, hfile, hdesc⟩ := h fd entry hfd
  refine ⟨file, hfile, FdTable.getVfsFile_eq_ok_iff.mpr ⟨entry.flags, ?_⟩⟩
  rw [hfd, ← hdesc]

theorem holdsDescriptions_empty : s.HoldsDescriptions ⟨∅⟩ := by
  intro fd entry hentry
  simp [FdTable.get] at hentry

end TmpfsSystem

namespace WithFdTable

variable {σ τ : Type}

/-- The end of `do_openat`: `FdTable::allocate` puts the description the open
made on a number, which the call returns.  A refused open leaves the table
alone. -/
def allocateFor (fdTable : FdTable) :
    Except Errno FileReply × σ → Except Errno FileReply × WithFdTable σ
  | (.ok (.value file), system) =>
    match fdTable.allocate (.vfsFile file) with
    | .ok (fd, fdTable') => (.ok (.value fd.toNat), ⟨system, fdTable'⟩)
    | .error e => (.error e, ⟨system, fdTable⟩)
  | (reply, system) => (reply, ⟨system, fdTable⟩)

/-- `read`, `write` and `lseek` on the description the number `fd` holds, and
`EBADF` when it holds none.  `lseek` finds it with `get_vfs_file`; `read` and
`write` with `get_descriptor_and_flags` and `get_descriptor`, then take the
`VfsFile` arm of `FileDescriptor::read` (or of `try_read` under `O_NONBLOCK`,
which reads a file the same way) and `write`.  A number that holds another
descriptor gets `EBADF` here, as from `lseek`; the tables of this system hold
only files (`HoldsDescriptions.getVfsFile_eq_ok`). -/
def onFile (serve : σ → FileCall → Option (Except Errno FileReply × σ)) (p : WithFdTable σ)
    (fd : Int32) (call : ℕ → FileCall) : Option (Except Errno FileReply × WithFdTable σ) :=
  match p.fdTable.getVfsFile fd.toInt with
  | .error e => some (.error e, p)
  | .ok file => (serve p.system (call file)).map fun r => (r.1, ⟨r.2, p.fdTable⟩)

/-- `close`: `LinuxSyscalls::close` on the table, which returns 0. -/
def closeFd (p : WithFdTable σ) (fd : Int32) : Except Errno FileReply × WithFdTable σ :=
  let (result, fdTable) := Fallible.run (LinuxSyscallHandler.close fd) p.fdTable
  (result.map fun n => .value n.toNat, ⟨p.system, fdTable⟩)

/-- A call through the table, on descriptions whose calls `serve` makes;
`none` is a kernel panic. -/
def step (serve : σ → FileCall → Option (Except Errno FileReply × σ)) (p : WithFdTable σ) :
    FdFileCall → Option (Except Errno FileReply × WithFdTable σ)
  | .openat flags => (serve p.system (.openat flags)).map (allocateFor p.fdTable)
  | .read fd count => p.onFile serve fd (.read · count)
  | .write fd data => p.onFile serve fd (.write · data)
  | .lseek fd offset whence => p.onFile serve fd (.lseek · offset whence)
  | .close fd => some (p.closeFd fd)

/-- The same table in front of other descriptions. -/
def map (f : σ → τ) (p : WithFdTable σ) : WithFdTable τ := ⟨f p.system, p.fdTable⟩

@[simp]
theorem map_system (f : σ → τ) (p : WithFdTable σ) : (p.map f).system = f p.system := rfl

@[simp]
theorem map_fdTable (f : σ → τ) (p : WithFdTable σ) : (p.map f).fdTable = p.fdTable := rfl

/-! ## What the table does to a call -/

/-- An open that made the description `file` puts it, with default flags, on
the least free number, and replies with that number. -/
theorem allocateFor_value (fdTable : FdTable) (file : ℕ) (system : σ) :
    ∃ fd, fdTable.IsLeastFree 0 fd ∧
      allocateFor fdTable (.ok (.value file), system) =
        (.ok (.value fd.toNat),
          ⟨system, ⟨fdTable.table.insert fd ⟨.vfsFile file, .default⟩⟩⟩) := by
  obtain ⟨fd, hleast, hok⟩ := fdTable.allocate_eq_ok (.vfsFile file)
  exact ⟨fd, hleast, by simp only [allocateFor, hok]⟩

@[simp]
theorem allocateFor_system (fdTable : FdTable) (r : Except Errno FileReply × σ) :
    (allocateFor fdTable r).2.system = r.2 := by
  unfold allocateFor
  split
  · split <;> rfl
  · rfl

/-- The table puts a description on the same number whatever the system
behind it. -/
theorem allocateFor_map (f : σ → τ) (fdTable : FdTable) (reply : Except Errno FileReply)
    (system : σ) :
    allocateFor fdTable (reply, f system) =
      ((allocateFor fdTable (reply, system)).1, (allocateFor fdTable (reply, system)).2.map f) := by
  rcases reply with e | (file | data)
  · rfl
  · simp only [allocateFor]
    cases fdTable.allocate (.vfsFile file) <;> rfl
  · rfl

/-- What a call on the description of a number can do: `EBADF` with nothing
changed, or the call on the description the number holds. -/
theorem onFile_cases {serve : σ → FileCall → Option (Except Errno FileReply × σ)}
    {p : WithFdTable σ} {fd : Int32} {call : ℕ → FileCall}
    {r : Except Errno FileReply × WithFdTable σ}
    (h : p.onFile serve fd call = some r) :
    (∃ e, p.fdTable.getVfsFile fd.toInt = .error e ∧ r = (.error e, p)) ∨
      ∃ file r₀, p.fdTable.getVfsFile fd.toInt = .ok file ∧
        serve p.system (call file) = some r₀ ∧ r = (r₀.1, ⟨r₀.2, p.fdTable⟩) := by
  unfold onFile at h
  cases hfile : p.fdTable.getVfsFile fd.toInt with
  | error e =>
    rw [hfile] at h
    cases h
    exact .inl ⟨e, rfl, rfl⟩
  | ok file =>
    rw [hfile] at h
    obtain ⟨r₀, h₀, rfl⟩ := Option.map_eq_some_iff.mp h
    exact .inr ⟨file, r₀, rfl, h₀, rfl⟩

/-- `close` leaves the descriptions alone and only takes numbers away. -/
theorem get_of_closeFd {p : WithFdTable σ} {fd : Int32} {n : RawFd} {entry : FdEntry}
    (h : (p.closeFd fd).2.fdTable.get n = some entry) : p.fdTable.get n = some entry := by
  unfold closeFd LinuxSyscallHandler.close FdTable.close at h
  rw [Fallible.run_bind, Fallible.run_update] at h
  cases hfd : p.fdTable.get fd.toInt with
  | none =>
    simp only [hfd] at h
    exact h
  | some old =>
    simp only [hfd, Fallible.run_pure, FdTable.get_erase] at h
    split at h
    · cases h
    · exact h

/-! ## Refinement through the table -/

section Refinement

variable {serve : σ → FileCall → Option (Except Errno FileReply × σ)}
  {serve' : τ → FileCall → Option (Except Errno FileReply × τ)}
  (abs : σ → τ) (inv : σ → Prop)
  (hserve : ∀ s c r, inv s → serve s c = some r →
    serve' (abs s) c = some (r.1, abs r.2) ∧ inv r.2)
include hserve

theorem onFile_refines {p : WithFdTable σ} (hp : inv p.system) (fd : Int32) (call : ℕ → FileCall)
    {r : Except Errno FileReply × WithFdTable σ} (h : p.onFile serve fd call = some r) :
    (p.map abs).onFile serve' fd call = some (r.1, r.2.map abs) ∧ inv r.2.system := by
  rcases onFile_cases h with ⟨e, hfile, rfl⟩ | ⟨file, r₀, hfile, h₀, rfl⟩
  · refine ⟨?_, hp⟩
    simp only [onFile, map_fdTable, hfile]
  · obtain ⟨hmatch, hinv⟩ := hserve _ _ _ hp h₀
    refine ⟨?_, hinv⟩
    simp only [onFile, map_fdTable, map_system, hfile, hmatch, Option.map_some]
    rfl

/-- The table does the same in front of both systems, so a call through it is
refined when the call it passes on is. -/
theorem step_refines {p : WithFdTable σ} (hp : inv p.system) (c : FdFileCall)
    {r : Except Errno FileReply × WithFdTable σ} (h : step serve p c = some r) :
    step serve' (p.map abs) c = some (r.1, r.2.map abs) ∧ inv r.2.system := by
  cases c with
  | openat flags =>
    obtain ⟨r₀, h₀, rfl⟩ := Option.map_eq_some_iff.mp h
    obtain ⟨hmatch, hinv⟩ := hserve _ _ _ hp h₀
    refine ⟨?_, by rwa [allocateFor_system]⟩
    simp only [step, map_system, map_fdTable, hmatch, Option.map_some]
    rw [allocateFor_map abs]
  | read fd count => exact onFile_refines abs inv hserve hp fd _ h
  | write fd data => exact onFile_refines abs inv hserve hp fd _ h
  | lseek fd offset whence => exact onFile_refines abs inv hserve hp fd _ h
  | close fd =>
    cases h
    exact ⟨rfl, hp⟩

end Refinement

/-! ## The tmpfs file behind the table -/

variable {p : WithFdTable TmpfsSystem}

/-- `openat` through the table replies with the least free number, on which the
new table puts the description the open made at index `s.files.length`. -/
theorem step_openat {flags : Int32} {file : ℕ} {system : TmpfsSystem}
    (hopen : p.system.openat flags = .ok (file, system)) :
    file = p.system.files.length ∧ ∃ fd, p.fdTable.IsLeastFree 0 fd ∧
      step TmpfsSystem.step p (.openat flags) =
        some (.ok (.value fd.toNat),
          ⟨system, ⟨p.fdTable.table.insert fd ⟨.vfsFile file, .default⟩⟩⟩) := by
  have hstep : p.system.step (.openat flags) = some (.ok (.value file), system) := by
    simp only [TmpfsSystem.step, hopen]
  have hfile : file = p.system.files.length := by
    obtain ⟨content, herr | hok⟩ := p.system.step_openat_cases flags
    · rw [herr] at hstep
      cases hstep
    · rw [hok] at hstep
      cases hstep
      rfl
  obtain ⟨fd, hleast, hfd⟩ := allocateFor_value p.fdTable file system
  exact ⟨hfile, fd, hleast, by simp only [step, hstep, Option.map_some, hfd]⟩

/-- Every call through the table keeps every number on one of the file's
descriptions. -/
theorem holdsDescriptions_step (hp : p.system.HoldsDescriptions p.fdTable) (c : FdFileCall)
    {r : Except Errno FileReply × WithFdTable TmpfsSystem} (h : step TmpfsSystem.step p c = some r) :
    r.2.system.HoldsDescriptions r.2.fdTable := by
  -- `read`, `write` and `lseek` keep the table and never remove a description
  have honFile : ∀ fd call, p.onFile TmpfsSystem.step fd call = some r →
      r.2.system.HoldsDescriptions r.2.fdTable := by
    intro fd call hcall
    rcases onFile_cases hcall with ⟨e, -, rfl⟩ | ⟨file, r₀, -, h₀, rfl⟩
    · exact hp
    · exact hp.mono (TmpfsSystem.length_files_le_of_step h₀)
  cases c with
  | openat flags =>
    obtain ⟨r₀, h₀, rfl⟩ := Option.map_eq_some_iff.mp h
    obtain ⟨content, herr | hok⟩ := p.system.step_openat_cases flags
    · rw [herr] at h₀
      cases h₀
      exact hp.mono (le_refl _)
    · rw [hok] at h₀
      cases h₀
      obtain ⟨fd, -, hfd⟩ := allocateFor_value p.fdTable p.system.files.length
        (⟨content, p.system.files ++ [.open flags]⟩ : TmpfsSystem)
      rw [hfd]
      exact (hp.mono (by simp)).insert (by simp) fd .default
  | read fd count => exact honFile fd _ h
  | write fd data => exact honFile fd _ h
  | lseek fd offset whence => exact honFile fd _ h
  | close fd =>
    cases h
    exact fun n entry hn => hp n entry (get_of_closeFd hn)

/-- Every run of calls through the table from a bounded system whose numbers
hold its descriptions, if it does not panic, gives the replies of the same
calls on the pictures of the descriptions behind the same table, and ends
bounded with every number on one of the file's descriptions. -/
theorem runReplies_refines_fdTable (hb : p.system.Bounded)
    (hp : p.system.HoldsDescriptions p.fdTable) {calls : List FdFileCall}
    {rs : List (Except Errno FileReply) × WithFdTable TmpfsSystem}
    (h : Machine.runReplies (step TmpfsSystem.step) p calls = some rs) :
    Machine.runReplies (step fun t c => some (FileSpec.step t c)) (p.map TmpfsSystem.spec) calls =
        some (rs.1, rs.2.map TmpfsSystem.spec) ∧
      rs.2.system.Bounded ∧ rs.2.system.HoldsDescriptions rs.2.fdTable := by
  -- the kernel's descriptions refine their pictures, call by call
  have hserve : ∀ (s : TmpfsSystem) c r, s.Bounded → s.step c = some r →
      (fun t c => some (FileSpec.step t c)) s.spec c = some (r.1, r.2.spec) ∧ r.2.Bounded := by
    intro s c r hs hr
    obtain ⟨hspec, hbounded⟩ := TmpfsSystem.step_refines hs c hr
    exact ⟨congrArg some hspec, hbounded⟩
  have hstep : ∀ (q : WithFdTable TmpfsSystem) c r,
      (q.system.Bounded ∧ q.system.HoldsDescriptions q.fdTable) →
        step TmpfsSystem.step q c = some r →
        step (fun t c => some (FileSpec.step t c)) (q.map TmpfsSystem.spec) c =
          some (r.1, r.2.map TmpfsSystem.spec) ∧
        (r.2.system.Bounded ∧ r.2.system.HoldsDescriptions r.2.fdTable) := by
    intro q c r ⟨hqb, hqp⟩ hr
    obtain ⟨hmatch, hrb⟩ := @step_refines _ _ _ (fun t c => some (FileSpec.step t c))
      TmpfsSystem.spec TmpfsSystem.Bounded hserve q hqb c r hr
    exact ⟨hmatch, hrb, holdsDescriptions_step hqp c hr⟩
  obtain ⟨hrun, hrb, hrp⟩ := Machine.runReplies_simulates (map TmpfsSystem.spec)
    (fun q : WithFdTable TmpfsSystem => q.system.Bounded ∧ q.system.HoldsDescriptions q.fdTable)
    hstep ⟨hb, hp⟩ h
  exact ⟨hrun, hrb, hrp⟩

/-- Two opens, a `close` of the first number and a third open: the third
description, at index 2, goes on number 0, and a write there lands in it. -/
theorem runReplies_refines_fdTable_reuse :
    ∃ rs, Machine.runReplies (step TmpfsSystem.step) ⟨⟨[], []⟩, ⟨∅⟩⟩
        [.openat 0, .openat 0, .close 0, .openat 0, .write 0 [104, 105]] = some rs ∧
      rs.1 = [.ok (.value 0), .ok (.value 1), .ok (.value 0), .ok (.value 0), .ok (.value 2)] ∧
      rs.2.fdTable.getVfsFile 0 = .ok 2 ∧
      (Machine.runReplies (step fun t c => some (FileSpec.step t c))
          (WithFdTable.map TmpfsSystem.spec ⟨⟨[], []⟩, ⟨∅⟩⟩)
          [.openat 0, .openat 0, .close 0, .openat 0, .write 0 [104, 105]] =
          some (rs.1, rs.2.map TmpfsSystem.spec) ∧
        rs.2.system.Bounded ∧ rs.2.system.HoldsDescriptions rs.2.fdTable) :=
  ⟨_, rfl, rfl, rfl,
    runReplies_refines_fdTable TmpfsSystem.bounded_empty TmpfsSystem.holdsDescriptions_empty rfl⟩

end WithFdTable

end Solaya
