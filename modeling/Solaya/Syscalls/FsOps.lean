import Solaya.Fs.Vfs
import Solaya.Fs.OpenFile

/-!
# `getdents64`

`do_getdents64` (`syscalls/fs_ops.rs`) lists a directory through an open file
description whose offset counts the entries already returned.  It takes the
whole `readdir` result, skips that many entries and packs one
`linux_dirent64` record per entry into a zeroed buffer of the caller's size,
stopping at the first record that does not fit.  It then moves the offset past
the entries it packed, copies the packed bytes out and returns their number.

A record is `d_ino`, `d_off` (the offset after the entry), `d_reclen`,
`d_type` and the name with its NUL, padded with zeros to a multiple of 8
(`direntRecord`).  The packed bytes are the records of the entries that fit,
one after another (`getdentsLoop_eq`).  When not even the next record fits,
the call returns 0, which a caller takes for the end of the directory, though
entries remain (`getdents_returns_zero_before_end`).
-/

namespace Solaya

open Bytes

/-- `size_of::<linux_dirent64>()`: `d_ino: u64`, `d_off: i64`, `d_reclen: u16`
and `d_type: u8`, padded to the struct's 8-byte alignment. -/
def linuxDirent64Size : ℕ := 24

/-- `(header_size + name_len + 7) & !7`, with `name_len` counting the NUL:
clearing the low three bits rounds down to a multiple of 8. -/
def direntRecLen (nameLen : ℕ) : ℕ :=
  alignDown (linuxDirent64Size + (nameLen + 1) + 7) 8

/-- The `d_type` of a node type. -/
def dType : NodeType → UInt8
  | .file => dtReg
  | .directory => dtDir

/-! ## The records -/

/-- The record of `entry` with `d_off = entryIdx`: the header, the name and its
NUL, and zeros up to `d_reclen`. -/
def direntRecord (entry : DirEntry) (entryIdx : ℕ) : List UInt8 :=
  let reclen := direntRecLen entry.name.length
  encodeLE 8 entry.ino ++ encodeLE 8 entryIdx ++ encodeLE 2 reclen ++ [dType entry.nodeType] ++
    entry.name ++ [0] ++ List.replicate (reclen - (20 + entry.name.length)) 0

/-- The records of `entries`, the first with `d_off = entryIdx + 1`. -/
def direntRecords (entryIdx : ℕ) : List DirEntry → List UInt8
  | [] => []
  | entry :: entries => direntRecord entry (entryIdx + 1) ++ direntRecords (entryIdx + 1) entries

/-- The entries whose records fit behind `pos` in a buffer of `count` bytes:
the longest prefix whose records fill at most `count - pos` bytes. -/
def fitting (count pos : ℕ) : List DirEntry → List DirEntry
  | [] => []
  | entry :: entries =>
    if count < pos + direntRecLen entry.name.length then []
    else entry :: fitting count (pos + direntRecLen entry.name.length) entries

/-- A record has room for the 19 header bytes, the name and its NUL. -/
theorem le_direntRecLen (nameLen : ℕ) : 20 + nameLen ≤ direntRecLen nameLen := by
  unfold direntRecLen alignDown linuxDirent64Size
  omega

theorem direntRecLen_mod (nameLen : ℕ) : direntRecLen nameLen % 8 = 0 :=
  Nat.mul_mod_left _ _

@[simp]
theorem length_direntRecord (entry : DirEntry) (entryIdx : ℕ) :
    (direntRecord entry entryIdx).length = direntRecLen entry.name.length := by
  have := le_direntRecLen entry.name.length
  simp only [direntRecord, List.length_append, length_encodeLE, List.length_singleton,
    List.length_replicate]
  omega

namespace LinuxSyscallHandler

/-- The writes of one record into `out` at `pos`: `d_ino`, `d_off` as an
`i64`, `d_reclen` as a `u16`, `d_type`, the name and its NUL. -/
def writeDirent (out : List UInt8) (pos : ℕ) (entry : DirEntry) (entryIdx reclen : ℕ) :
    List UInt8 :=
  let out := copyFromSlice out pos (encodeLE 8 entry.ino)
  let out := copyFromSlice out (pos + 8) (encodeLE 8 entryIdx)
  let out := copyFromSlice out (pos + 16) (encodeLE 2 reclen)
  let out := out.set (pos + 18) (dType entry.nodeType)
  let out := copyFromSlice out (pos + 19) entry.name
  out.set (pos + 19 + entry.name.length) 0

/-- The `for` loop of `do_getdents64` over the entries from the offset on:
the buffer, the bytes packed and `entry_idx`. -/
def getdentsLoop (count : ℕ) : List DirEntry → List UInt8 → ℕ → ℕ → List UInt8 × ℕ × ℕ
  | [], out, pos, entryIdx => (out, pos, entryIdx)
  | entry :: entries, out, pos, entryIdx =>
    let reclen := direntRecLen entry.name.length
    if count < pos + reclen then (out, pos, entryIdx)
    else
      getdentsLoop count entries (writeDirent out pos entry (entryIdx + 1) reclen) (pos + reclen)
        (entryIdx + 1)

/-- `do_getdents64` on the open description `f` of a node of type `nodeType`
whose `readdir` gives `readdir`; `writeSlice` copies bytes to `dirp`.  The
result is the call's return value and the description after it, and `none`
is a panic: `vec![0u8; count]` past `isize::MAX` bytes.  A directory's `size`
is 0, and `SEEK_SET` does not read it. -/
def doGetdents64 (f : VfsOpenFileInner) (nodeType : NodeType)
    (readdir : Except Errno (List DirEntry)) (count : ℕ)
    (writeSlice : List UInt8 → Except Errno Unit) : Option (Except Errno ℕ × VfsOpenFileInner) :=
  if nodeType ≠ .directory then some (.error .enotdir, f)
  else
    match readdir with
    | .error e => some (.error e, f)
    | .ok entries =>
      if isizeMax < count then none
      else
        let (out, pos, entryIdx) :=
          getdentsLoop count (entries.drop f.offset) (List.replicate count 0) 0 f.offset
        match f.seek 0 (Int64.ofInt (usizeAsIsize entryIdx)) seekSet with
        | .error e => some (.error e, f)
        | .ok (_, f') =>
          if 0 < pos then
            match writeSlice (out.take pos) with
            | .error e => some (.error e, f')
            | .ok () => some (.ok pos, f')
          else some (.ok pos, f')

/-- A record written into the zeros right behind `pre` is `pre` followed by
the record, with the rest of the zeros behind it. -/
theorem writeDirent_append_replicate (pre : List UInt8) (entry : DirEntry) (entryIdx : ℕ)
    {m : ℕ} (hm : direntRecLen entry.name.length ≤ m) :
    writeDirent (pre ++ List.replicate m 0) pre.length entry entryIdx
        (direntRecLen entry.name.length) =
      pre ++ direntRecord entry entryIdx ++ List.replicate (m - direntRecLen entry.name.length) 0 := by
  have hroom := le_direntRecLen entry.name.length
  -- each write lands at the start of the zeros behind the bytes written before it
  have h8 : pre.length + 8 = (pre ++ encodeLE 8 entry.ino).length := by
    simp only [List.length_append, length_encodeLE]
  have h16 : pre.length + 16 = (pre ++ encodeLE 8 entry.ino ++ encodeLE 8 entryIdx).length := by
    simp only [List.length_append, length_encodeLE]
  have h18 : pre.length + 18 = (pre ++ encodeLE 8 entry.ino ++ encodeLE 8 entryIdx ++
      encodeLE 2 (direntRecLen entry.name.length)).length := by
    simp only [List.length_append, length_encodeLE]
  have h19 : pre.length + 19 = (pre ++ encodeLE 8 entry.ino ++ encodeLE 8 entryIdx ++
      encodeLE 2 (direntRecLen entry.name.length) ++ [dType entry.nodeType]).length := by
    simp only [List.length_append, length_encodeLE, List.length_singleton]
  dsimp only [writeDirent]
  rw [copyFromSlice_append_replicate, length_encodeLE, h8, copyFromSlice_append_replicate,
    length_encodeLE, h16, copyFromSlice_append_replicate, length_encodeLE, h18,
    set_append_replicate _ _ (by omega), h19, copyFromSlice_append_replicate,
    ← List.length_append, set_append_replicate _ _ (by omega)]
  have hzeros : m - 8 - 8 - 2 - 1 - entry.name.length - 1 =
      (direntRecLen entry.name.length - (20 + entry.name.length)) +
        (m - direntRecLen entry.name.length) := by omega
  simp only [direntRecord, hzeros, List.replicate_add, List.append_assoc]

/-- The loop packs the records of the entries that fit, one behind the other,
into the zeros behind what is already packed, and counts them in
`entry_idx`. -/
theorem getdentsLoop_eq (count : ℕ) (entries : List DirEntry) (pre : List UInt8) (entryIdx : ℕ)
    (hpre : pre.length ≤ count) :
    getdentsLoop count entries (pre ++ List.replicate (count - pre.length) 0) pre.length entryIdx =
      (pre ++ direntRecords entryIdx (fitting count pre.length entries) ++
          List.replicate (count - pre.length -
            (direntRecords entryIdx (fitting count pre.length entries)).length) 0,
        pre.length + (direntRecords entryIdx (fitting count pre.length entries)).length,
        entryIdx + (fitting count pre.length entries).length) := by
  induction entries generalizing pre entryIdx with
  | nil => simp [getdentsLoop, fitting, direntRecords]
  | cons entry entries ih =>
    by_cases hfull : count < pre.length + direntRecLen entry.name.length
    · simp [getdentsLoop, fitting, direntRecords, hfull]
    · -- the record fits: it is written behind `pre`, and the rest goes behind it
      have hwrite := writeDirent_append_replicate pre entry (entryIdx + 1)
        (m := count - pre.length) (by omega)
      have hnext := ih (pre ++ direntRecord entry (entryIdx + 1)) (entryIdx + 1)
        (by simp only [List.length_append, length_direntRecord]; omega)
      have hlen : (pre ++ direntRecord entry (entryIdx + 1)).length =
          pre.length + direntRecLen entry.name.length := by
        simp only [List.length_append, length_direntRecord]
      rw [getdentsLoop, if_neg hfull, hwrite, ← hlen,
        show count - pre.length - direntRecLen entry.name.length =
          count - (pre ++ direntRecord entry (entryIdx + 1)).length by rw [hlen]; omega, hnext]
      simp only [fitting, if_neg hfull, direntRecords, hlen, List.length_append,
        length_direntRecord, List.length_cons, List.append_assoc, Prod.mk.injEq]
      refine ⟨?_, by omega, by omega⟩
      congr 4
      omega

/-- Moving the description to `entry_idx` with `SEEK_SET`, for an `entry_idx`
within `isize::MAX`. -/
theorem seek_entryIdx {f : VfsOpenFileInner} (hoffset : f.offset ≤ isizeMax) {entryIdx : ℕ}
    (hidx : entryIdx ≤ isizeMax) :
    f.seek 0 (Int64.ofInt (usizeAsIsize entryIdx)) seekSet =
      .ok (entryIdx, { f with offset := entryIdx }) := by
  have hmax : isizeMax < 2 ^ 63 := by decide
  have hint : (Int64.ofInt (usizeAsIsize entryIdx)).toInt = entryIdx := by
    rw [usizeAsIsize_of_le hidx]
    exact Int64.toInt_ofInt_of_le (by omega) (by omega)
  rw [VfsOpenFileInner.seek_eq hoffset (Nat.zero_le _), hint]
  have hrange : ¬((entryIdx : ℤ) < 0 ∨ (isizeMax : ℤ) < entryIdx) := by
    omega
  simp only [FileSpec.seek, FileSpec.origin, if_true, Nat.cast_zero, zero_add, if_neg hrange,
    Int.toNat_natCast, Except.map]

theorem length_fitting_le (count pos : ℕ) (entries : List DirEntry) :
    (fitting count pos entries).length ≤ entries.length := by
  induction entries generalizing pos with
  | nil => exact Nat.le_refl _
  | cons entry entries ih =>
    rw [fitting]
    split_ifs
    · exact Nat.zero_le _
    · exact Nat.succ_le_succ (ih _)

/-- `do_getdents64` on a directory, with the offset and the entries within
`isize::MAX` and a buffer it can allocate: it copies out the records of the
entries from the offset on that fit, when there are any, and moves the offset
past them. -/
theorem doGetdents64_eq {f : VfsOpenFileInner} (hoffset : f.offset ≤ isizeMax)
    {entries : List DirEntry} (hentries : entries.length ≤ isizeMax) {count : ℕ}
    (hcount : count ≤ isizeMax) (writeSlice : List UInt8 → Except Errno Unit) :
    doGetdents64 f .directory (.ok entries) count writeSlice =
      let fit := fitting count 0 (entries.drop f.offset)
      let packed := direntRecords f.offset fit
      let f' := { f with offset := f.offset + fit.length }
      if packed = [] then some (.ok 0, f')
      else
        match writeSlice packed with
        | .error e => some (.error e, f')
        | .ok () => some (.ok packed.length, f') := by
  dsimp only
  have hloop := getdentsLoop_eq count (entries.drop f.offset) [] f.offset (Nat.zero_le _)
  simp only [List.length_nil, Nat.sub_zero, List.nil_append, Nat.zero_add] at hloop
  have hidx : f.offset + (fitting count 0 (entries.drop f.offset)).length ≤ isizeMax := by
    have := length_fitting_le count 0 (entries.drop f.offset)
    simp only [List.length_drop] at this
    omega
  simp only [doGetdents64, ne_eq, not_true_eq_false, if_false, Nat.not_lt.mpr hcount, hloop,
    seek_entryIdx hoffset hidx, List.take_left]
  by_cases hempty : direntRecords f.offset (fitting count 0 (entries.drop f.offset)) = []
  · simp only [hempty, List.length_nil, Nat.lt_irrefl, if_false, if_true]
  · simp only [hempty, if_false, List.length_pos_iff.mpr hempty, if_true]

/-- While entries remain, a buffer too small for the next record gets 0, the
answer for the end of the directory, and leaves the offset where it was. -/
theorem getdents_returns_zero_before_end {f : VfsOpenFileInner} (hoffset : f.offset ≤ isizeMax)
    {entries : List DirEntry} {entry : DirEntry} (hnext : entries[f.offset]? = some entry)
    {count : ℕ} (hcount : count ≤ isizeMax) (hsmall : count < direntRecLen entry.name.length)
    (writeSlice : List UInt8 → Except Errno Unit) :
    doGetdents64 f .directory (.ok entries) count writeSlice = some (.ok 0, f) := by
  have hdrop : entries.drop f.offset = entry :: entries.drop (f.offset + 1) := by
    rw [List.drop_eq_getElem_cons (List.getElem?_eq_some_iff.mp hnext).1,
      (List.getElem?_eq_some_iff.mp hnext).2]
  -- the loop stops at the first entry, with nothing packed
  have hloop : getdentsLoop count (entries.drop f.offset) (List.replicate count 0) 0 f.offset =
      (List.replicate count 0, 0, f.offset) := by
    rw [hdrop, getdentsLoop, if_pos (by omega)]
  simp only [doGetdents64, ne_eq, not_true_eq_false, if_false, Nat.not_lt.mpr hcount, hloop,
    seek_entryIdx hoffset hoffset, Nat.lt_irrefl]

/-- A directory whose one entry is `a`: a 16-byte buffer gets 0, though the
entry's 32-byte record was never returned. -/
theorem getdents_returns_zero_before_end_small_buffer :
    doGetdents64 ⟨0, 0⟩ .directory (.ok [⟨[97], 1, .file⟩]) 16 (fun _ => .ok ()) =
      some (.ok 0, ⟨0, 0⟩) :=
  getdents_returns_zero_before_end (by decide) rfl (by decide) (by decide) _

end LinuxSyscallHandler

end Solaya
