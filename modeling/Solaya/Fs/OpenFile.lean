import Solaya.Headers
import Solaya.Fs.Tmpfs
import Solaya.Core.Simulation

/-!
# Open tmpfs files

An open file description (`VfsOpenFileInner`, `fs/open_file.rs`) holds its node,
an offset and the flags it was opened with.  Several descriptions of one tmpfs
file share the file's bytes and keep their own offsets.  `read` and `write`
move the description's offset by what they transfer, a write of a description
opened with `O_APPEND` first moves it to the end, and `seek` sets it from the
start, the current offset or the end, refusing a negative or overflowing
result with `EINVAL`.

Above them stand the `VfsFile` arms of `FileDescriptor::read` and `write`
(`processes/fd_table.rs`) and the system calls `read`, `write`, `lseek` and
`openat` on an existing file, with each description named by its index; the
process's numbers and its descriptor table come in front of them in
`WithFdTable`.  `FileDescriptor::read` first allocates a buffer of the
requested size, `vec![0u8; count]`.

`step` is one of those calls on a system of one tmpfs file and its open
descriptions.  It refines `FileSpec.step`, the same calls on the file's picture
(`FileImage`), as long as no call aborts (`step_refines`), and the only calls
that abort are a write that would end past `isize::MAX` bytes and a read that
asks for more than that (`step_eq_none_iff`).  Both are reachable from any
description: `lseek` to `isize::MAX` and a write of one byte is a kernel panic.
-/

namespace Solaya

open Tmpfs

/-- `VfsOpenFileInner` of a tmpfs file: the offset and the open flags.  The
node is the file's bytes, which the methods take as an argument. -/
structure VfsOpenFileInner where
  offset : ℕ
  flags : Int32
  deriving DecidableEq, Repr

namespace VfsOpenFileInner

/-- `open`: a new description at offset 0. -/
def «open» (flags : Int32) : VfsOpenFileInner := ⟨0, flags⟩

/-- `self.flags.cast_unsigned() & O_APPEND != 0`. -/
def isAppend (f : VfsOpenFileInner) : Bool := (f.flags &&& oAppend.toInt32) != 0

/-- `VfsOpenFileInner::read` into a buffer of `bufLen` bytes: the bytes read,
and the description moved past them. -/
def read (f : VfsOpenFileInner) (content : List UInt8) (bufLen : ℕ) :
    List UInt8 × VfsOpenFileInner :=
  let data := Tmpfs.read content f.offset bufLen
  (data, { f with offset := f.offset + data.length })

/-- `VfsOpenFileInner::write`: the count written, the description and the
file's new bytes; `none` when `TmpfsFile::write` panics. -/
def write (f : VfsOpenFileInner) (content data : List UInt8) :
    Option ((ℕ × VfsOpenFileInner) × List UInt8) := do
  let f := if f.isAppend then { f with offset := Tmpfs.size content } else f
  let (content, n) ← Tmpfs.write content f.offset data
  some ((n, { f with offset := f.offset + n }), content)

/-- The offset `base + offset` of `SEEK_CUR` and `SEEK_END`, with `base` read
as an `isize`. -/
def seekFrom (base : ℕ) (offset : ℤ) : Except Errno ℕ :=
  match checkedAddIsize (usizeAsIsize base) offset with
  | none => .error .einval
  | some new => if new < 0 then .error .einval else .ok new.toNat

/-- `VfsOpenFileInner::seek` on a file of `size` bytes. -/
def seek (f : VfsOpenFileInner) (size : ℕ) (offset : Int64) (whence : Int32) :
    Except Errno (ℕ × VfsOpenFileInner) := do
  let newOffset ←
    if whence = seekSet then
      if offset.toInt < 0 then .error .einval else pure offset.toInt.toNat
    else if whence = seekCur then seekFrom f.offset offset.toInt
    else if whence = seekEnd then seekFrom size offset.toInt
    else .error .einval
  pure (newOffset, { f with offset := newOffset })

end VfsOpenFileInner

/-! ## The system calls on one tmpfs file -/

/-- One tmpfs file and its open descriptions, named by their index.  The
process's numbers name them through its descriptor table (`WithFdTable`). -/
structure TmpfsSystem where
  content : List UInt8
  files : List VfsOpenFileInner
  deriving DecidableEq, Repr

/-- A system call on the file. -/
inductive FileCall where
  /-- `openat` of the file with these flags. -/
  | openat (flags : Int32)
  | read (fd : ℕ) (count : ℕ)
  | write (fd : ℕ) (data : List UInt8)
  | lseek (fd : ℕ) (offset : Int64) (whence : Int32)
  deriving DecidableEq, Repr

/-- What a call returns to the process: a count or offset, or the bytes a
`read` copies out with their count. -/
inductive FileReply where
  | value (n : ℕ)
  | bytes (data : List UInt8)
  deriving DecidableEq, Repr

namespace TmpfsSystem

/-- `FileDescriptor::read` of a `VfsFile` without a block device:
`vec![0u8; count]`, which panics past `isize::MAX` bytes, then
`VfsOpenFileInner::read` into it. -/
def readDescriptor (content : List UInt8) (f : VfsOpenFileInner) (count : ℕ) :
    Option (List UInt8 × VfsOpenFileInner) :=
  if isizeMax < count then none else some (f.read content count)

/-- Replace the description `fd`. -/
def setFile (s : TmpfsSystem) (fd : ℕ) (f : VfsOpenFileInner) : TmpfsSystem :=
  { s with files := s.files.set fd f }

/-- `do_openat` of the file (it exists, so `O_CREAT` does nothing) up to
`open`: `O_TRUNC` truncates it, `O_DIRECTORY` is refused with `ENOTDIR` after
that, and a new description joins the others.  The reply is its index; the
number the call returns is the one `FdTable::allocate` then gives it
(`WithFdTable.step_openat`). -/
def openat (s : TmpfsSystem) (flags : Int32) : Except Errno (ℕ × TmpfsSystem) :=
  let content := if (flags &&& oTrunc.toInt32) != 0 then truncate s.content else s.content
  if (flags &&& oDirectory.toInt32) != 0 then .error .enotdir
  else .ok (s.files.length, { content, files := s.files ++ [VfsOpenFileInner.open flags] })

/-- The effect of a call: `none` is a kernel panic, and a refused call leaves
the system as it was. -/
def step (s : TmpfsSystem) : FileCall → Option (Except Errno FileReply × TmpfsSystem)
  | .openat flags =>
    match s.openat flags with
    | .ok (fd, s') => some (.ok (.value fd), s')
    | .error e =>
      -- `O_TRUNC` has already emptied the file
      let content := if (flags &&& oTrunc.toInt32) != 0 then truncate s.content else s.content
      some (.error e, { s with content })
  | .read fd count =>
    match s.files[fd]? with
    | none => some (.error .ebadf, s)
    | some f =>
      (readDescriptor s.content f count).map fun (data, f') => (.ok (.bytes data), s.setFile fd f')
  | .write fd data =>
    match s.files[fd]? with
    | none => some (.error .ebadf, s)
    | some f =>
      -- `do_write` returns `count`, the length of the data
      (f.write s.content data).map fun ((_, f'), content) =>
        (.ok (.value data.length), { s.setFile fd f' with content })
  | .lseek fd offset whence =>
    match s.files[fd]? with
    | none => some (.error .ebadf, s)
    | some f =>
      match f.seek (Tmpfs.size s.content) offset whence with
      | .ok (n, f') => some (.ok (.value n), s.setFile fd f')
      | .error e => some (.error e, s)

/-- The runs the model is about: the file and every offset stay within
`isize::MAX`, as `lseek` and a write that does not panic leave them. -/
structure Bounded (s : TmpfsSystem) : Prop where
  content_le : s.content.length ≤ isizeMax
  offset_le : ∀ f ∈ s.files, f.offset ≤ isizeMax

end TmpfsSystem

/-! ## What the calls are for -/

/-- A file's picture and the open descriptions' offsets and flags. -/
structure FileSpec where
  image : FileImage
  files : List VfsOpenFileInner

namespace FileSpec

/-- Where `lseek` counts from: the start, the description's offset or the end. -/
def origin (f : VfsOpenFileInner) (size : ℕ) (whence : Int32) : Option ℕ :=
  if whence = seekSet then some 0
  else if whence = seekCur then some f.offset
  else if whence = seekEnd then some size
  else none

/-- `lseek`: the new offset is the origin plus `offset`, and a result that is
negative or past `isize::MAX` is refused. -/
def seek (f : VfsOpenFileInner) (size : ℕ) (offset : ℤ) (whence : Int32) : Except Errno ℕ :=
  match origin f size whence with
  | none => .error .einval
  | some base =>
    if base + offset < 0 ∨ (isizeMax : ℤ) < base + offset then .error .einval
    else .ok (base + offset).toNat

/-- `lseek` never leaves an offset past `isize::MAX`. -/
theorem seek_le {f : VfsOpenFileInner} {size : ℕ} {offset : ℤ} {whence : Int32} {n : ℕ}
    (h : seek f size offset whence = .ok n) : n ≤ isizeMax := by
  unfold seek at h
  cases horigin : origin f size whence with
  | none => simp only [horigin] at h; cases h
  | some base =>
    simp only [horigin] at h
    split_ifs at h with hrange
    cases h
    omega

/-- The calls on the picture: reads and writes at the description's offset
(the end, for an `O_APPEND` write) that move it by what they transfer. -/
def step (t : FileSpec) : FileCall → Except Errno FileReply × FileSpec
  | .openat flags =>
    let image := if (flags &&& oTrunc.toInt32) != 0 then FileImage.empty else t.image
    if (flags &&& oDirectory.toInt32) != 0 then (.error .enotdir, { t with image })
    else (.ok (.value t.files.length), ⟨image, t.files ++ [VfsOpenFileInner.open flags]⟩)
  | .read fd count =>
    match t.files[fd]? with
    | none => (.error .ebadf, t)
    | some f =>
      let data := t.image.read f.offset count
      (.ok (.bytes data), { t with files := t.files.set fd { f with offset := f.offset + data.length } })
  | .write fd data =>
    match t.files[fd]? with
    | none => (.error .ebadf, t)
    | some f =>
      let pos := if f.isAppend then t.image.size else f.offset
      (.ok (.value data.length),
        ⟨t.image.write pos data, t.files.set fd { f with offset := pos + data.length }⟩)
  | .lseek fd offset whence =>
    match t.files[fd]? with
    | none => (.error .ebadf, t)
    | some f =>
      match seek f t.image.size offset.toInt whence with
      | .ok n => (.ok (.value n), { t with files := t.files.set fd { f with offset := n } })
      | .error e => (.error e, t)

end FileSpec

namespace TmpfsSystem

/-- The picture of the system. -/
def spec (s : TmpfsSystem) : FileSpec := ⟨image s.content, s.files⟩

end TmpfsSystem

/-! ## The kernel's calls follow the picture -/

namespace VfsOpenFileInner

/-- `SEEK_CUR` and `SEEK_END` from an origin within `isize::MAX`: the sum never
falls below `isize::MIN`, so only a negative or too large result is refused. -/
theorem seekFrom_eq {base : ℕ} (hbase : base ≤ isizeMax) {offset : ℤ} (hoffset : -2 ^ 63 ≤ offset) :
    seekFrom base offset =
      if base + offset < 0 ∨ (isizeMax : ℤ) < base + offset then .error .einval
      else .ok (base + offset).toNat := by
  unfold seekFrom checkedAddIsize
  rw [usizeAsIsize_of_le hbase]
  by_cases hhigh : (isizeMax : ℤ) < base + offset
  · rw [if_pos (Or.inr hhigh), if_pos (Or.inr hhigh)]
  · rw [if_neg (by omega)]
    by_cases hneg : (base : ℤ) + offset < 0
    · simp only [if_pos hneg, if_pos (Or.inl hneg)]
    · simp only [if_neg hneg, if_neg (show ¬((base : ℤ) + offset < 0 ∨ (isizeMax : ℤ) < base + offset)
        by omega)]

/-- `VfsOpenFileInner::seek` is the `lseek` of the picture while the offset
and the size are within `isize::MAX`. -/
theorem seek_eq {f : VfsOpenFileInner} {size : ℕ} (hoffset : f.offset ≤ isizeMax)
    (hsize : size ≤ isizeMax) (offset : Int64) (whence : Int32) :
    f.seek size offset whence =
      (FileSpec.seek f size offset.toInt whence).map fun n => (n, { f with offset := n }) := by
  have hlow := Int64.le_toInt offset
  have hhigh := Int64.toInt_lt offset
  unfold seek FileSpec.seek FileSpec.origin
  by_cases hset : whence = seekSet
  · -- `SEEK_SET` refuses a negative offset, and an `isize` is never too large
    simp only [if_pos hset]
    by_cases hneg : offset.toInt < 0
    · rw [if_pos hneg, if_pos (Or.inl (by omega))]
      rfl
    · have hle : ¬(isizeMax : ℤ) < (0 : ℕ) + offset.toInt := by
        unfold isizeMax
        omega
      rw [if_neg hneg, if_neg (by omega)]
      simp only [Nat.cast_zero, zero_add]
      rfl
  by_cases hcur : whence = seekCur
  · simp only [if_neg hset, if_pos hcur, seekFrom_eq hoffset hlow]
    split_ifs <;> rfl
  by_cases hend : whence = seekEnd
  · simp only [if_neg hset, if_neg hcur, if_pos hend, seekFrom_eq hsize hlow]
    split_ifs <;> rfl
  · simp only [if_neg hset, if_neg hcur, if_neg hend]
    rfl

/-- The read of a description is the read of the picture at its offset, and the
offset stays within `isize::MAX`. -/
theorem read_eq (f : VfsOpenFileInner) (content : List UInt8) (bufLen : ℕ) :
    f.read content bufLen =
      ((image content).read f.offset bufLen,
        { f with offset := f.offset + ((image content).read f.offset bufLen).length }) := by
  simp only [VfsOpenFileInner.read, Tmpfs.read_eq]

theorem offset_read_le {f : VfsOpenFileInner} {content : List UInt8}
    (hoffset : f.offset ≤ isizeMax) (hsize : content.length ≤ isizeMax) (bufLen : ℕ) :
    f.offset + ((image content).read f.offset bufLen).length ≤ isizeMax := by
  simp only [FileImage.length_read, image_size]
  omega

/-- What a write that does not panic leaves: the write of the picture at the
description's offset, or at the end with `O_APPEND`, with the offset moved
behind the data. -/
theorem write_eq_some {f : VfsOpenFileInner} {content data : List UInt8}
    (hsize : content.length ≤ isizeMax) {r : (ℕ × VfsOpenFileInner) × List UInt8}
    (hwrite : f.write content data = some r) :
    let pos := if f.isAppend then content.length else f.offset
    r.1 = (data.length, { f with offset := pos + data.length }) ∧
      image r.2 = (image content).write pos data ∧ pos + data.length ≤ isizeMax := by
  intro pos
  obtain ⟨w, hw, rfl⟩ : ∃ w, Tmpfs.write content pos data = some w ∧
      r = ((w.2, { f with offset := pos + w.2 }), w.1) := by
    unfold VfsOpenFileInner.write at hwrite
    cases happend : f.isAppend <;>
      simp only [happend, pos, Tmpfs.size, if_true, Bool.false_eq_true, if_false] at hwrite ⊢ <;>
      cases hw : Tmpfs.write _ _ data <;> simp_all
  obtain ⟨himage, hcount, hend⟩ := image_write hsize hw
  exact ⟨by rw [hcount], himage, hend⟩

theorem write_eq_none_iff {f : VfsOpenFileInner} {content : List UInt8}
    (hsize : content.length ≤ isizeMax) (data : List UInt8) :
    f.write content data = none ↔
      isizeMax < (if f.isAppend then content.length else f.offset) + data.length := by
  unfold VfsOpenFileInner.write
  cases f.isAppend <;>
    simp only [Tmpfs.size, if_true, Bool.false_eq_true, if_false] <;>
    rw [← Tmpfs.write_eq_none_iff hsize] <;>
    cases Tmpfs.write _ _ data <;> simp

end VfsOpenFileInner

namespace TmpfsSystem

variable {s : TmpfsSystem}

theorem offset_le_of_getElem? (hs : s.Bounded) {fd : ℕ} {f : VfsOpenFileInner}
    (hf : s.files[fd]? = some f) : f.offset ≤ isizeMax :=
  hs.offset_le f (List.mem_of_getElem? hf)

/-- Moving one description keeps the system bounded when its new offset is. -/
theorem Bounded.setFile (hs : s.Bounded) {fd : ℕ} {f : VfsOpenFileInner}
    (hf : f.offset ≤ isizeMax) : (s.setFile fd f).Bounded where
  content_le := hs.content_le
  offset_le g hg := by
    rcases List.mem_or_eq_of_mem_set hg with hg | rfl
    · exact hs.offset_le g hg
    · exact hf

theorem step_openat (hs : s.Bounded) (flags : Int32) {r : Except Errno FileReply × TmpfsSystem}
    (h : s.step (.openat flags) = some r) : s.spec.step (.openat flags) = (r.1, r.2.spec) ∧ r.2.Bounded := by
  obtain ⟨content, hc⟩ : ∃ content, content =
      if (flags &&& oTrunc.toInt32) != 0 then truncate s.content else s.content := ⟨_, rfl⟩
  have hcontent : content.length ≤ isizeMax := by
    rw [hc]
    split_ifs
    exacts [Nat.zero_le _, hs.content_le]
  have himage : image content =
      if (flags &&& oTrunc.toInt32) != 0 then FileImage.empty else image s.content := by
    rw [hc]
    split_ifs
    exacts [image_truncate _, rfl]
  unfold step openat at h
  simp only [← hc] at h
  by_cases hdir : ((flags &&& oDirectory.toInt32) != 0) = true
  · -- `O_DIRECTORY`: refused, after the truncation
    simp only [hdir, if_true, Option.some.injEq] at h
    subst h
    exact ⟨by unfold spec FileSpec.step; simp only [hdir, if_true, ← himage], hcontent, hs.offset_le⟩
  · simp only [hdir, Bool.false_eq_true, if_false, Option.some.injEq] at h
    subst h
    refine ⟨by unfold spec FileSpec.step; simp only [hdir, Bool.false_eq_true, if_false, ← himage],
      hcontent, ?_⟩
    intro g hg
    rcases List.mem_append.mp hg with hg | hg
    · exact hs.offset_le g hg
    · rw [List.mem_singleton.mp hg]
      exact Nat.zero_le _

theorem step_read (hs : s.Bounded) (fd count : ℕ) {r : Except Errno FileReply × TmpfsSystem}
    (h : s.step (.read fd count) = some r) : s.spec.step (.read fd count) = (r.1, r.2.spec) ∧ r.2.Bounded := by
  unfold step at h
  cases hf : s.files[fd]? with
  | none =>
    simp only [hf, Option.some.injEq] at h
    subst h
    exact ⟨by unfold spec FileSpec.step; simp only [hf], hs⟩
  | some f =>
    simp only [hf, readDescriptor] at h
    split_ifs at h with hcount
    · -- the buffer allocation panicked
      cases h
    simp only [Option.map_some, Option.some.injEq] at h
    subst h
    rw [VfsOpenFileInner.read_eq]
    refine ⟨?_, hs.setFile (VfsOpenFileInner.offset_read_le
      (offset_le_of_getElem? hs hf) hs.content_le count)⟩
    unfold spec FileSpec.step
    simp only [hf, setFile]

theorem step_write (hs : s.Bounded) (fd : ℕ) (data : List UInt8)
    {r : Except Errno FileReply × TmpfsSystem} (h : s.step (.write fd data) = some r) :
    s.spec.step (.write fd data) = (r.1, r.2.spec) ∧ r.2.Bounded := by
  unfold step at h
  cases hf : s.files[fd]? with
  | none =>
    simp only [hf, Option.some.injEq] at h
    subst h
    exact ⟨by unfold spec FileSpec.step; simp only [hf], hs⟩
  | some f =>
    simp only [hf] at h
    obtain ⟨w, hw, rfl⟩ := Option.map_eq_some_iff.mp h
    obtain ⟨hcount, himage, hend⟩ := VfsOpenFileInner.write_eq_some hs.content_le hw
    have hlen : w.2.length ≤ isizeMax := by
      have hsize := congrArg FileImage.size himage
      simp only [image_size, FileImage.write] at hsize
      have := hs.content_le
      omega
    refine ⟨?_, ⟨hlen, (@Bounded.setFile s hs fd w.1.2 (by rw [hcount]; exact hend)).offset_le⟩⟩
    unfold spec FileSpec.step
    simp only [hf, image_size, ← himage, hcount, setFile]

theorem step_lseek (hs : s.Bounded) (fd : ℕ) (offset : Int64) (whence : Int32)
    {r : Except Errno FileReply × TmpfsSystem} (h : s.step (.lseek fd offset whence) = some r) :
    s.spec.step (.lseek fd offset whence) = (r.1, r.2.spec) ∧ r.2.Bounded := by
  unfold step at h
  cases hf : s.files[fd]? with
  | none =>
    simp only [hf, Option.some.injEq] at h
    subst h
    exact ⟨by unfold spec FileSpec.step; simp only [hf], hs⟩
  | some f =>
    simp only [hf, Tmpfs.size,
      VfsOpenFileInner.seek_eq (offset_le_of_getElem? hs hf) hs.content_le] at h
    cases hseek : FileSpec.seek f s.content.length offset.toInt whence with
    | error e =>
      simp only [hseek, Except.map, Option.some.injEq] at h
      subst h
      exact ⟨by unfold spec FileSpec.step; simp only [hf, image_size, hseek], hs⟩
    | ok n =>
      simp only [hseek, Except.map, Option.some.injEq] at h
      subst h
      exact ⟨by unfold spec FileSpec.step; simp only [hf, image_size, hseek, setFile],
        hs.setFile (FileSpec.seek_le hseek)⟩

/-- Every call that does not panic gives the reply of the picture's call and
lands on the picture of its new state, which stays bounded. -/
theorem step_refines (hs : s.Bounded) (c : FileCall) {r : Except Errno FileReply × TmpfsSystem}
    (h : s.step c = some r) : s.spec.step c = (r.1, r.2.spec) ∧ r.2.Bounded := by
  cases c with
  | openat flags => exact step_openat hs flags h
  | read fd count => exact step_read hs fd count h
  | write fd data => exact step_write hs fd data h
  | lseek fd offset whence => exact step_lseek hs fd offset whence h

/-- The calls that panic: a read that asks for more than `isize::MAX` bytes,
and a write that would end past `isize::MAX`. -/
def Panics (s : TmpfsSystem) : FileCall → Prop
  | .read fd count => (s.files[fd]?).isSome ∧ isizeMax < count
  | .write fd data => ∃ f, s.files[fd]? = some f ∧
      isizeMax < (if f.isAppend then s.content.length else f.offset) + data.length
  | _ => False

theorem step_eq_none_iff (hs : s.Bounded) (c : FileCall) : s.step c = none ↔ s.Panics c := by
  cases c with
  | openat flags =>
    simp only [step, Panics, iff_false]
    split <;> simp
  | read fd count =>
    simp only [step, Panics]
    cases s.files[fd]? with
    | none => simp
    | some f =>
      simp only [readDescriptor, Option.isSome_some, true_and]
      split_ifs <;> simp_all
  | write fd data =>
    simp only [step, Panics]
    cases s.files[fd]? with
    | none => simp
    | some f =>
      simp only [Option.map_eq_none_iff, VfsOpenFileInner.write_eq_none_iff hs.content_le,
        Option.some.injEq, exists_eq_left']
  | lseek fd offset whence =>
    simp only [step, Panics, iff_false]
    cases s.files[fd]? with
    | none => simp
    | some f =>
      dsimp only
      cases f.seek (Tmpfs.size s.content) offset whence <;> exact Option.some_ne_none _

/-- `lseek(fd, offset, SEEK_SET)` with a non-negative offset moves the
description there. -/
theorem step_lseek_set (hs : s.Bounded) {fd : ℕ} {f : VfsOpenFileInner}
    (hf : s.files[fd]? = some f) {offset : Int64} (hoffset : 0 ≤ offset.toInt) :
    s.step (.lseek fd offset seekSet) =
      some (.ok (.value offset.toInt.toNat), s.setFile fd { f with offset := offset.toInt.toNat }) := by
  have hhigh := Int64.toInt_lt offset
  have hrange : ¬(offset.toInt < 0 ∨ (isizeMax : ℤ) < offset.toInt) := by
    unfold isizeMax
    omega
  unfold step
  simp only [hf, Tmpfs.size,
    VfsOpenFileInner.seek_eq (offset_le_of_getElem? hs hf) hs.content_le, FileSpec.seek,
    FileSpec.origin, if_true, if_neg hrange, Nat.cast_zero, zero_add, Except.map]

/-- Every run of calls from a bounded system that does not panic gives the
replies of the same calls on the picture, and ends on the picture of its
final state. -/
theorem runReplies_refines_spec (hs : s.Bounded) {calls : List FileCall}
    {rs : List (Except Errno FileReply) × TmpfsSystem}
    (h : Machine.runReplies step s calls = some rs) :
    Machine.runSpec FileSpec.step s.spec calls = (rs.1, rs.2.spec) :=
  (Machine.runReplies_refines spec Bounded (fun _ c _ hs' h' => step_refines hs' c h') hs h).1

/-- The system a process starts from: an empty file that nobody has open. -/
theorem bounded_empty : (⟨[], []⟩ : TmpfsSystem).Bounded :=
  ⟨Nat.zero_le _, fun _ hf => absurd hf List.not_mem_nil⟩

/-- A file opened on an empty tmpfs file, written, sought back to the start
and read. -/
theorem runReplies_refines_spec_write_read :
    Machine.runSpec FileSpec.step (spec ⟨[], []⟩)
        [.openat 0, .write 0 [104, 105], .lseek 0 0 seekSet, .read 0 8] =
      ([.ok (.value 0), .ok (.value 2), .ok (.value 0), .ok (.bytes [104, 105])],
        spec ⟨[104, 105], [⟨2, 0⟩]⟩) :=
  @runReplies_refines_spec ⟨[], []⟩ bounded_empty
    [.openat 0, .write 0 [104, 105], .lseek 0 0 seekSet, .read 0 8]
    ([.ok (.value 0), .ok (.value 2), .ok (.value 0), .ok (.bytes [104, 105])],
      ⟨[104, 105], [⟨2, 0⟩]⟩) (by decide)

/-- Every state the calls reach from a bounded one is bounded. -/
theorem Bounded.of_reachable {init : TmpfsSystem} (hinit : init.Bounded)
    (hreach : Machine.Reachable (fun s c => (step s c).map Prod.snd) init s) : s.Bounded := by
  refine Machine.Reachable.induction Bounded hinit ?_ hreach
  intro s c s' hs hstep
  obtain ⟨r, hr, rfl⟩ := Option.map_eq_some_iff.mp hstep
  exact (step_refines hs c hr).2

theorem seek_to_isize_max_then_write_panics (hs : s.Bounded) {fd : ℕ} {f : VfsOpenFileInner}
    (hf : s.files[fd]? = some f) (happend : f.isAppend = false) {data : List UInt8}
    (hdata : data ≠ []) :
    Machine.runReplies step s [.lseek fd 9223372036854775807 seekSet, .write fd data] = none ∧
      ∀ count, isizeMax < count → s.step (.read fd count) = none := by
  have hmax : (9223372036854775807 : Int64).toInt.toNat = isizeMax := by decide
  have hlseek := @step_lseek_set s hs fd f hf 9223372036854775807 (by decide)
  rw [hmax] at hlseek
  have hbounded := (step_refines hs _ hlseek).2
  have hfd : fd < s.files.length := (List.getElem?_eq_some_iff.mp hf).1
  have hwrite : (s.setFile fd { f with offset := isizeMax }).step (.write fd data) = none := by
    rw [step_eq_none_iff hbounded]
    refine ⟨{ f with offset := isizeMax }, List.getElem?_set_self hfd, ?_⟩
    have hlen : 0 < data.length := List.length_pos_of_ne_nil hdata
    simp only [VfsOpenFileInner.isAppend] at happend ⊢
    simp only [happend, Bool.false_eq_true, if_false]
    omega
  refine ⟨?_, fun count hcount => (step_eq_none_iff hs _).mpr ⟨by simp [hf], hcount⟩⟩
  simp only [Machine.runReplies, hlseek, Option.bind_some, hwrite, Option.bind_none,
    Option.map_none]

/-- One description of an empty file, at offset 0: `lseek` to `isize::MAX` and
a one-byte write panic. -/
theorem seek_to_isize_max_then_write_panics_fresh :
    Machine.runReplies step ⟨[], [⟨0, 0⟩]⟩
        [.lseek 0 9223372036854775807 seekSet, .write 0 [120]] = none ∧
      ∀ count, isizeMax < count → step ⟨[], [⟨0, 0⟩]⟩ (.read 0 count) = none :=
  seek_to_isize_max_then_write_panics
    ⟨Nat.zero_le _, fun _ hf => by rw [List.mem_singleton.mp hf]; exact Nat.zero_le _⟩
    rfl (by decide) (List.cons_ne_nil _ _)

end TmpfsSystem

end Solaya
