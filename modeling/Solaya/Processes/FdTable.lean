import Solaya.Headers
import Solaya.Core.FirstFree
import Mathlib.Data.List.AList

/-!
# File descriptor tables

`FdTable` (`processes/fd_table.rs`) maps a process's descriptor numbers to
entries: what the number refers to (the tty, a socket, a pipe end, an open
file), shared with every number duplicated from it, and the `FdFlags` of the
number.  `FdFlags` keeps `O_NONBLOCK`, a status flag of the open file in
Linux, and `O_CLOEXEC`, a flag of the number, in one `i32`, which `from_raw`
masks to those two bits.

`allocate` takes the least free number from 0 on and `dup_from` the least
free number from `min_fd` on.  The source runs up an endless range until it
finds one; the model looks at the first `len + 1` numbers, where a free one
always is (`findFree_isSome`), so `EMFILE` never comes.  Every method checks
before it changes anything, so its error leaves the table as it was.
-/

namespace Solaya

/-- `RawFd`, an `i32`. -/
abbrev RawFd := ℤ

/-- `FdFlags`. -/
structure FdFlags where
  raw : Int32
  deriving DecidableEq, Repr

namespace FdFlags

/-- `FdFlags::default()`. -/
def default : FdFlags := ⟨0⟩

/-- `FdFlags::is_nonblocking`. -/
def isNonblocking (flags : FdFlags) : Bool := (flags.raw &&& oNonblock.toInt32) != 0

/-- `FdFlags::as_raw`. -/
def asRaw (flags : FdFlags) : Int32 := flags.raw

/-- `FdFlags::from_raw`. -/
def fromRaw (raw : Int32) : FdFlags := ⟨raw &&& (oNonblock ||| oCloexec).toInt32⟩

/-- `FdFlags::is_cloexec`. -/
def isCloexec (flags : FdFlags) : Bool := (flags.raw &&& oCloexec.toInt32) != 0

/-! Each flag is one bit: `O_NONBLOCK` bit 11 and `O_CLOEXEC` bit 19. -/

theorem oNonblock_toBitVec : oNonblock.toInt32.toBitVec = BitVec.twoPow 32 11 := by decide

theorem oCloexec_toBitVec : oCloexec.toInt32.toBitVec = BitVec.twoPow 32 19 := by decide

/-- A word has a one-bit flag exactly when it has that bit. -/
theorem and_twoPow_ne_zero (raw : Int32) {i : ℕ} (hi : i < 32) (flag : Int32)
    (hflag : flag.toBitVec = BitVec.twoPow 32 i) :
    ((raw &&& flag) != 0) = raw.toBitVec.getLsbD i := by
  have hpow : BitVec.twoPow 32 i ≠ 0#32 := by
    intro hzero
    have hbit := congrArg (fun bits => bits.getLsbD i) hzero
    simp [hi] at hbit
  have hbits : ((raw &&& flag) != 0) = ((raw.toBitVec &&& BitVec.twoPow 32 i) != 0#32) := by
    rw [← hflag, ← Int32.toBitVec_and, Bool.eq_iff_iff, bne_iff_ne, bne_iff_ne, Ne, Ne,
      ← Int32.toBitVec_inj, Int32.toBitVec_zero]
  rw [hbits, BitVec.and_twoPow]
  cases raw.toBitVec.getLsbD i <;> simp [hpow]

theorem isNonblocking_eq (flags : FdFlags) : flags.isNonblocking = flags.raw.toBitVec.getLsbD 11 :=
  and_twoPow_ne_zero flags.raw (by decide) _ oNonblock_toBitVec

theorem isCloexec_eq (flags : FdFlags) : flags.isCloexec = flags.raw.toBitVec.getLsbD 19 :=
  and_twoPow_ne_zero flags.raw (by decide) _ oCloexec_toBitVec

/-- `from_raw` keeps both bits of its argument. -/
theorem fromRaw_isNonblocking (raw : Int32) : (fromRaw raw).isNonblocking = raw.toBitVec.getLsbD 11 := by
  have hmask : ((oNonblock ||| oCloexec).toInt32).toBitVec.getLsbD 11 = true := by decide
  rw [isNonblocking_eq, fromRaw, Int32.toBitVec_and, BitVec.getLsbD_and, hmask, Bool.and_true]

theorem fromRaw_isCloexec (raw : Int32) : (fromRaw raw).isCloexec = raw.toBitVec.getLsbD 19 := by
  have hmask : ((oNonblock ||| oCloexec).toInt32).toBitVec.getLsbD 19 = true := by decide
  rw [isCloexec_eq, fromRaw, Int32.toBitVec_and, BitVec.getLsbD_and, hmask, Bool.and_true]

/-- Setting the `O_CLOEXEC` bit of a word keeps its `O_NONBLOCK` bit. -/
theorem fromRaw_or_oCloexec (flags : FdFlags) :
    (fromRaw (flags.asRaw ||| oCloexec.toInt32)).isNonblocking = flags.isNonblocking ∧
      (fromRaw (flags.asRaw ||| oCloexec.toInt32)).isCloexec = true := by
  have h11 : oCloexec.toInt32.toBitVec.getLsbD 11 = false := by decide
  have h19 : oCloexec.toInt32.toBitVec.getLsbD 19 = true := by decide
  rw [fromRaw_isNonblocking, fromRaw_isCloexec, isNonblocking_eq, asRaw, Int32.toBitVec_or,
    BitVec.getLsbD_or, BitVec.getLsbD_or, h11, h19, Bool.or_false, Bool.or_true]
  exact ⟨rfl, rfl⟩

/-- Clearing the `O_CLOEXEC` bit of a word keeps its `O_NONBLOCK` bit. -/
theorem fromRaw_and_not_oCloexec (flags : FdFlags) :
    (fromRaw (flags.asRaw &&& ~~~oCloexec.toInt32)).isNonblocking = flags.isNonblocking ∧
      (fromRaw (flags.asRaw &&& ~~~oCloexec.toInt32)).isCloexec = false := by
  have h11 : (~~~oCloexec.toInt32).toBitVec.getLsbD 11 = true := by decide
  have h19 : (~~~oCloexec.toInt32).toBitVec.getLsbD 19 = false := by decide
  rw [fromRaw_isNonblocking, fromRaw_isCloexec, isNonblocking_eq, asRaw, Int32.toBitVec_and,
    BitVec.getLsbD_and, BitVec.getLsbD_and, h11, h19, Bool.and_true, Bool.and_false]
  exact ⟨rfl, rfl⟩

end FdFlags

/-- `FileDescriptor`: what a number refers to.  The shared objects (the tty,
sockets, connections, listeners, pipe buffers, open files) are reference
counted in the source and named here by their identity. -/
inductive FileDescriptor where
  | tty (dev : ℕ)
  | unboundUdpSocket
  | udpSocket (socket : ℕ)
  | unboundTcpSocket
  | tcpStream (conn : ℕ)
  | tcpListener (listener : ℕ)
  | pipeRead (pipe : ℕ)
  | pipeWrite (pipe : ℕ)
  | vfsFile (file : ℕ)
  deriving DecidableEq, Repr

/-- `FdEntry`. -/
structure FdEntry where
  descriptor : FileDescriptor
  flags : FdFlags
  deriving DecidableEq, Repr

/-- `FdTable`: its `BTreeMap<RawFd, FdEntry>`. -/
structure FdTable where
  table : AList (fun _ : RawFd => FdEntry)

namespace FdTable

/-- `FdTable::new`: the console tty on 0, 1 and 2. -/
def new (tty : ℕ) : FdTable :=
  ⟨[0, 1, 2].foldl (fun table fd => table.insert fd ⟨.tty tty, .default⟩) ∅⟩

/-- `FdTable::get`. -/
def get (t : FdTable) (fd : RawFd) : Option FdEntry := t.table.lookup fd

/-- `(start..).find(|n| !self.table.contains_key(n))`. -/
def findFree (t : FdTable) (start : RawFd) : Option RawFd := firstFree t.table.keys start

/-- `FdTable::allocate`. -/
def allocate (t : FdTable) (descriptor : FileDescriptor) : Except Errno (RawFd × FdTable) :=
  match t.findFree 0 with
  | none => .error .emfile
  | some fd => .ok (fd, ⟨t.table.insert fd ⟨descriptor, .default⟩⟩)

/-- `FdTable::replace_descriptor`. -/
def replaceDescriptor (t : FdTable) (fd : RawFd) (descriptor : FileDescriptor) :
    Except Errno (Unit × FdTable) :=
  match t.get fd with
  | none => .error .ebadf
  | some entry => .ok ((), ⟨t.table.insert fd { entry with descriptor }⟩)

/-- `FdTable::dup_from`. -/
def dupFrom (t : FdTable) (oldfd minFd : RawFd) (flags : FdFlags) :
    Except Errno (RawFd × FdTable) :=
  match t.get oldfd with
  | none => .error .ebadf
  | some entry =>
    match t.findFree minFd with
    | none => .error .emfile
    | some newfd => .ok (newfd, ⟨t.table.insert newfd ⟨entry.descriptor, flags⟩⟩)

/-- `FdTable::dup_to`: `newfd` is whatever the caller passes. -/
def dupTo (t : FdTable) (oldfd newfd : RawFd) (flags : Int32) : Except Errno (RawFd × FdTable) :=
  if oldfd = newfd then .error .einval
  else
    match t.get oldfd with
    | none => .error .ebadf
    | some entry =>
      .ok (newfd, ⟨(t.table.erase newfd).insert newfd ⟨entry.descriptor, .fromRaw flags⟩⟩)

/-- `FdTable::close`. -/
def close (t : FdTable) (fd : RawFd) : Except Errno (FdEntry × FdTable) :=
  match t.get fd with
  | none => .error .ebadf
  | some entry => .ok (entry, ⟨t.table.erase fd⟩)

/-- `FdTable::get_descriptor`. -/
def getDescriptor (t : FdTable) (fd : RawFd) : Except Errno FileDescriptor :=
  match t.get fd with
  | none => .error .ebadf
  | some entry => .ok entry.descriptor

/-- `FdTable::get_vfs_file`: the open file a number holds, `EBADF` for a free
number and for any other descriptor. -/
def getVfsFile (t : FdTable) (fd : RawFd) : Except Errno ℕ :=
  match t.get fd with
  | some ⟨.vfsFile file, _⟩ => .ok file
  | _ => .error .ebadf

/-- `FdTable::get_flags`. -/
def getFlags (t : FdTable) (fd : RawFd) : Except Errno FdFlags :=
  match t.get fd with
  | none => .error .ebadf
  | some entry => .ok entry.flags

/-- `FdTable::set_flags`. -/
def setFlags (t : FdTable) (fd : RawFd) (flags : FdFlags) : Except Errno (Unit × FdTable) :=
  match t.get fd with
  | none => .error .ebadf
  | some entry => .ok ((), ⟨t.table.insert fd { entry with flags }⟩)

/-- `FdTable::close_cloexec_fds`: `retain` the entries without `O_CLOEXEC`. -/
def closeCloexecFds (t : FdTable) : FdTable :=
  ⟨⟨t.table.entries.filter (fun entry => !entry.2.flags.isCloexec),
    t.table.nodupKeys.sublist List.filter_sublist⟩⟩

/-! ## Lookups after each method -/

theorem get_eq_none_iff {t : FdTable} {fd : RawFd} : t.get fd = none ↔ fd ∉ t.table :=
  AList.lookup_eq_none

@[simp]
theorem get_insert (table : AList (fun _ : RawFd => FdEntry)) (fd : RawFd) (entry : FdEntry)
    (n : RawFd) :
    (FdTable.mk (table.insert fd entry)).get n =
      if n = fd then some entry else (FdTable.mk table).get n := by
  by_cases h : n = fd
  · subst h
    simp [get, AList.lookup_insert]
  · simp [get, AList.lookup_insert_ne h, h]

@[simp]
theorem get_erase (table : AList (fun _ : RawFd => FdEntry)) (fd n : RawFd) :
    (FdTable.mk (table.erase fd)).get n = if n = fd then none else (FdTable.mk table).get n := by
  by_cases h : n = fd
  · subst h
    simp [get, AList.lookup_erase]
  · simp [get, AList.lookup_erase_ne h, h]

/-- `retain` on a map with distinct keys filters each lookup. -/
theorem dlookup_filter {l : List (Σ _ : RawFd, FdEntry)} (nd : l.NodupKeys)
    (p : (Σ _ : RawFd, FdEntry) → Bool) (fd : RawFd) :
    (l.filter p).dlookup fd = (l.dlookup fd).filter (fun entry => p ⟨fd, entry⟩) := by
  apply Option.ext
  intro entry
  rw [← Option.mem_def, List.mem_dlookup_iff (nd.sublist List.filter_sublist),
    Option.filter_eq_some_iff, ← Option.mem_def, List.mem_dlookup_iff nd, List.mem_filter]

theorem get_closeCloexecFds (t : FdTable) (fd : RawFd) :
    t.closeCloexecFds.get fd = (t.get fd).filter (fun entry => !entry.flags.isCloexec) :=
  dlookup_filter t.table.nodupKeys _ fd

/-! ## The least free number -/

/-- `fd` is the least number from `start` on that the table does not use. -/
def IsLeastFree (t : FdTable) (start fd : RawFd) : Prop :=
  start ≤ fd ∧ t.get fd = none ∧ ∀ n, start ≤ n → n < fd → t.get n ≠ none

theorem findFree_eq_some_iff {t : FdTable} {start fd : RawFd} :
    t.findFree start = some fd ↔ t.IsLeastFree start fd := by
  simp only [findFree, firstFree_eq_some_iff, IsLeastFree, Ne, get_eq_none_iff, AList.mem_keys,
    not_not]

theorem findFree_isSome (t : FdTable) (start : RawFd) : (t.findFree start).isSome :=
  firstFree_isSome start

theorem exists_findFree (t : FdTable) (start : RawFd) :
    ∃ fd, t.findFree start = some fd ∧ t.IsLeastFree start fd := by
  obtain ⟨fd, hfd⟩ := Option.isSome_iff_exists.mp (t.findFree_isSome start)
  exact ⟨fd, hfd, findFree_eq_some_iff.mp hfd⟩

/-! ## What each method does -/

/-- `allocate` never fails: it puts the descriptor, with default flags, on the
least free number from 0 on. -/
theorem allocate_eq_ok (t : FdTable) (descriptor : FileDescriptor) :
    ∃ fd, t.IsLeastFree 0 fd ∧
      t.allocate descriptor = .ok (fd, ⟨t.table.insert fd ⟨descriptor, .default⟩⟩) := by
  obtain ⟨fd, hfind, hleast⟩ := t.exists_findFree 0
  exact ⟨fd, hleast, by simp [allocate, hfind]⟩

/-- `dup_from` of a number in use puts the same descriptor, with the given
flags, on the least free number from `min_fd` on. -/
theorem dupFrom_eq_ok {t : FdTable} {oldfd : RawFd} {entry : FdEntry} (hold : t.get oldfd = some entry)
    (minFd : RawFd) (flags : FdFlags) :
    ∃ newfd, t.IsLeastFree minFd newfd ∧
      t.dupFrom oldfd minFd flags = .ok (newfd, ⟨t.table.insert newfd ⟨entry.descriptor, flags⟩⟩) := by
  obtain ⟨newfd, hfind, hleast⟩ := t.exists_findFree minFd
  exact ⟨newfd, hleast, by simp [dupFrom, hold, hfind]⟩

theorem setFlags_eq_ok {t : FdTable} {fd : RawFd} {entry : FdEntry} (hfd : t.get fd = some entry)
    (flags : FdFlags) :
    t.setFlags fd flags = .ok ((), ⟨t.table.insert fd { entry with flags }⟩) := by
  simp [setFlags, hfd]

theorem getFlags_eq_ok_iff {t : FdTable} {fd : RawFd} {flags : FdFlags} :
    t.getFlags fd = .ok flags ↔ ∃ entry, t.get fd = some entry ∧ entry.flags = flags := by
  unfold getFlags
  cases t.get fd <;> simp

theorem getDescriptor_eq_ok_iff {t : FdTable} {fd : RawFd} {descriptor : FileDescriptor} :
    t.getDescriptor fd = .ok descriptor ↔
      ∃ entry, t.get fd = some entry ∧ entry.descriptor = descriptor := by
  unfold getDescriptor
  cases t.get fd <;> simp

theorem getVfsFile_eq_ok_iff {t : FdTable} {fd : RawFd} {file : ℕ} :
    t.getVfsFile fd = .ok file ↔ ∃ flags, t.get fd = some ⟨.vfsFile file, flags⟩ := by
  unfold getVfsFile
  split <;> simp_all

/-! ## Every number in the table is non-negative -/

/-- No entry sits on a negative number. -/
def NonNegative (t : FdTable) : Prop :=
  ∀ fd, t.get fd ≠ none → 0 ≤ fd

theorem NonNegative.insert {t : FdTable} (ht : t.NonNegative) {fd : RawFd} (hfd : 0 ≤ fd)
    (entry : FdEntry) : (FdTable.mk (t.table.insert fd entry)).NonNegative := by
  intro n hn
  rw [get_insert] at hn
  split at hn
  · subst n
    exact hfd
  · exact ht n hn

theorem NonNegative.erase {t : FdTable} (ht : t.NonNegative) (fd : RawFd) :
    (FdTable.mk (t.table.erase fd)).NonNegative := by
  intro n hn
  rw [get_erase] at hn
  split at hn
  · exact absurd rfl hn
  · exact ht n hn

theorem NonNegative.closeCloexecFds {t : FdTable} (ht : t.NonNegative) :
    t.closeCloexecFds.NonNegative := by
  intro n hn
  rw [get_closeCloexecFds] at hn
  exact ht n fun hnone => hn (by rw [hnone, Option.filter_none])

/-- Each method that succeeds keeps every number non-negative, `dup_from`
from a non-negative `min_fd` and `dup_to` onto a non-negative `newfd`. -/
theorem NonNegative.allocate {t t' : FdTable} (ht : t.NonNegative) {descriptor : FileDescriptor}
    {fd : RawFd} (h : t.allocate descriptor = .ok (fd, t')) : t'.NonNegative := by
  obtain ⟨fd', hleast, hok⟩ := t.allocate_eq_ok descriptor
  rw [hok] at h
  cases h
  exact ht.insert hleast.1 _

theorem NonNegative.dupFrom {t t' : FdTable} (ht : t.NonNegative) {oldfd minFd newfd : RawFd}
    {flags : FdFlags} (hmin : 0 ≤ minFd) (h : t.dupFrom oldfd minFd flags = .ok (newfd, t')) :
    t'.NonNegative := by
  cases hold : t.get oldfd with
  | none => simp [FdTable.dupFrom, hold] at h
  | some entry =>
    obtain ⟨newfd', hleast, hok⟩ := dupFrom_eq_ok hold minFd flags
    rw [hok] at h
    cases h
    exact ht.insert (Int.le_trans hmin hleast.1) _

theorem NonNegative.dupTo {t t' : FdTable} (ht : t.NonNegative) {oldfd newfd fd : RawFd}
    {flags : Int32} (hnew : 0 ≤ newfd) (h : t.dupTo oldfd newfd flags = .ok (fd, t')) :
    t'.NonNegative := by
  unfold FdTable.dupTo at h
  split at h
  · cases h
  · split at h
    · cases h
    · cases h
      exact (ht.erase newfd).insert hnew _

theorem NonNegative.close {t t' : FdTable} (ht : t.NonNegative) {fd : RawFd} {entry : FdEntry}
    (h : t.close fd = .ok (entry, t')) : t'.NonNegative := by
  unfold FdTable.close at h
  split at h
  · cases h
  · cases h
    exact ht.erase fd

theorem NonNegative.setFlags {t t' : FdTable} (ht : t.NonNegative) {fd : RawFd} {flags : FdFlags}
    (h : t.setFlags fd flags = .ok ((), t')) : t'.NonNegative := by
  unfold FdTable.setFlags at h
  split at h
  · cases h
  · rename_i entry hfd
    cases h
    exact ht.insert (ht fd (by rw [hfd]; simp)) _

end FdTable

end Solaya
