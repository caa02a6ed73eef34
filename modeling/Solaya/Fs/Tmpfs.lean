import Solaya.Core.Bytes
import Solaya.Klibc.Util
import Mathlib.Data.List.GetD
import Mathlib.Order.Basic

/-!
# tmpfs files

A `TmpfsFile` holds its bytes in a `Spinlock<Vec<u8>>`; the model is the list of
those bytes, and each `VfsNode` method of the file is a function on it.  `read`
copies what the caller's buffer can take from the offset on, `write` grows the
vector with `Vec::resize(end, 0)` when the write ends past it and then copies
the data in, and `truncate` clears it.

What a file should hold is stated over a second picture of it, a `FileImage`:
a size and a byte at every position, zero past the end.  A write of `d` at `o`
sets the positions `[o, o + |d|)` and grows the size to cover them, which is
the zero fill of a gap; a read returns the bytes from the offset up to the
buffer's length or the end.  `image` maps the list to its picture, and
`write_eq` and `read_eq` show the list functions follow the picture, up to the
one place where the code does something else: growing a vector past
`isize::MAX` bytes is a "capacity overflow" panic, not an error.
-/

namespace Solaya.Tmpfs

open Bytes

/-! ## The file as the kernel keeps it -/

/-- `Vec::resize(new_len, 0)` on a vector of bytes.  Growing it allocates
`new_len` bytes, which panics past `isize::MAX`; the heap is assumed to have
room for any smaller vector. -/
def resize (content : List UInt8) (newLen : ℕ) : Option (List UInt8) :=
  if newLen ≤ content.length then some (content.take newLen)
  else if isizeMax < newLen then none
  else some (content ++ List.replicate (newLen - content.length) 0)

/-- `TmpfsFile::size`. -/
def size (content : List UInt8) : ℕ := content.length

/-- `TmpfsFile::read`: the bytes copied into a buffer of `bufLen` bytes; their
number is the count returned. -/
def read (content : List UInt8) (offset bufLen : ℕ) : List UInt8 :=
  if content.length ≤ offset then []
  else
    let available := content.drop offset
    available.take (min bufLen available.length)

/-- `TmpfsFile::write`: the new bytes and the count returned, or `none` when
computing `end` overflows or the resize panics. -/
def write (content : List UInt8) (offset : ℕ) (data : List UInt8) :
    Option (List UInt8 × ℕ) := do
  let endOffset ← checkedAdd offset data.length
  let content ← if content.length < endOffset then resize content endOffset else some content
  some (copyFromSlice content offset data, data.length)

/-- `TmpfsFile::truncate`. -/
def truncate (_content : List UInt8) : List UInt8 := []

/-! ## The file as an array of bytes -/

/-- A file's bytes as a function of the position, with the size; every position
at or past the size holds zero. -/
structure FileImage where
  size : ℕ
  byte : ℕ → UInt8
  byte_of_le : ∀ k, size ≤ k → byte k = 0

namespace FileImage

@[ext]
theorem ext {a b : FileImage} (hsize : a.size = b.size) (hbyte : ∀ k, a.byte k = b.byte k) :
    a = b := by
  cases a
  cases b
  cases hsize
  simp only [mk.injEq, true_and]
  exact funext hbyte

/-- The empty file. -/
def empty : FileImage := ⟨0, fun _ => 0, fun _ _ => rfl⟩

/-- Writing `data` at `offset`: the positions `[offset, offset + |data|)` take the
data, the size grows to cover them, and every other position keeps its byte. -/
def write (f : FileImage) (offset : ℕ) (data : List UInt8) : FileImage where
  size := max f.size (offset + data.length)
  byte k := if offset ≤ k ∧ k < offset + data.length then data.getD (k - offset) 0 else f.byte k
  byte_of_le k hk := by
    rw [if_neg (by omega)]
    exact f.byte_of_le k (le_of_max_le_left hk)

/-- Reading at `offset` into a buffer of `bufLen` bytes: the bytes from the
offset on, as many as the buffer takes and the file has. -/
def read (f : FileImage) (offset bufLen : ℕ) : List UInt8 :=
  List.ofFn fun k : Fin (min bufLen (f.size - offset)) => f.byte (offset + k)

@[simp]
theorem length_read (f : FileImage) (offset bufLen : ℕ) :
    (f.read offset bufLen).length = min bufLen (f.size - offset) :=
  List.length_ofFn

end FileImage

/-- Byte `k` of a list of bytes, zero past its end. -/
def byteAt (content : List UInt8) (k : ℕ) : UInt8 := content.getD k 0

theorem byteAt_of_le {content : List UInt8} {k : ℕ} (hk : content.length ≤ k) :
    byteAt content k = 0 :=
  List.getD_eq_default _ _ hk

theorem byteAt_of_lt {content : List UInt8} {k : ℕ} (hk : k < content.length) :
    byteAt content k = content[k] :=
  List.getD_eq_getElem _ _ hk

/-- The picture of the bytes the kernel keeps. -/
def image (content : List UInt8) : FileImage :=
  ⟨content.length, byteAt content, fun _ hk => byteAt_of_le hk⟩

@[simp]
theorem image_size (content : List UInt8) : (image content).size = content.length := rfl

@[simp]
theorem image_byte (content : List UInt8) (k : ℕ) : (image content).byte k = byteAt content k :=
  rfl

/-! ## The kernel's file follows the picture -/

theorem image_truncate (content : List UInt8) : image (truncate content) = FileImage.empty :=
  FileImage.ext rfl fun k => @byteAt_of_le (truncate content) k (Nat.zero_le k)

theorem byteAt_append_left {a : List UInt8} (b : List UInt8) {k : ℕ} (hk : k < a.length) :
    byteAt (a ++ b) k = byteAt a k := by
  simp only [byteAt, List.getD_eq_getElem?_getD, List.getElem?_append_left hk]

theorem byteAt_append_right (a b : List UInt8) {k : ℕ} (hk : a.length ≤ k) :
    byteAt (a ++ b) k = byteAt b (k - a.length) := by
  simp only [byteAt, List.getD_eq_getElem?_getD, List.getElem?_append_right hk]

/-- Growing with zeros changes no byte of the picture. -/
theorem byteAt_resize {content grown : List UInt8} {newLen : ℕ}
    (h : resize content newLen = some grown) (hlen : content.length < newLen) (k : ℕ) :
    byteAt grown k = byteAt content k := by
  simp only [resize, if_neg (Nat.not_le.mpr hlen)] at h
  split_ifs at h
  cases h
  rcases Nat.lt_or_ge k content.length with hk | hk
  · exact byteAt_append_left _ hk
  · rw [byteAt_append_right _ _ hk, byteAt_of_le hk]
    simp only [byteAt, List.getD_eq_getElem?_getD, List.getElem?_replicate]
    split <;> rfl

theorem length_resize {content grown : List UInt8} {newLen : ℕ}
    (h : resize content newLen = some grown) (hlen : content.length < newLen) :
    grown.length = newLen := by
  simp only [resize, if_neg (Nat.not_le.mpr hlen)] at h
  split_ifs at h
  cases h
  simp only [List.length_append, List.length_replicate]
  omega

/-- `copy_from_slice` into `[offset, offset + |data|)` of a vector that holds it. -/
theorem byteAt_copyFromSlice {content data : List UInt8} {offset : ℕ}
    (h : offset + data.length ≤ content.length) (k : ℕ) :
    byteAt (copyFromSlice content offset data) k =
      if offset ≤ k ∧ k < offset + data.length then data.getD (k - offset) 0
      else byteAt content k := by
  have htake : (content.take offset).length = offset := by
    simp only [List.length_take]
    omega
  unfold copyFromSlice
  rcases Nat.lt_or_ge k offset with hlt | hge
  · -- before the data: the prefix kept by `take`
    rw [List.append_assoc, byteAt_append_left _ (by omega), if_neg (by omega)]
    simp only [byteAt, List.getD_eq_getElem?_getD, List.getElem?_take_of_lt hlt]
  rcases Nat.lt_or_ge k (offset + data.length) with hin | hafter
  · -- inside the data
    rw [List.append_assoc, byteAt_append_right _ _ (by omega), htake,
      byteAt_append_left _ (by omega), if_pos ⟨hge, hin⟩]
    rfl
  · -- after the data: the suffix kept by `drop`
    rw [byteAt_append_right _ _ (by simp only [List.length_append]; omega), if_neg (by omega)]
    simp only [byteAt, List.length_append, htake, List.getD_eq_getElem?_getD, List.getElem?_drop]
    congr 2
    omega

/-- Copying the data into a vector with the file's bytes and room for the
data is the write of the picture. -/
theorem image_copyFromSlice {content grown data : List UInt8} {offset : ℕ}
    (hlen : grown.length = max content.length (offset + data.length))
    (hbyte : ∀ k, byteAt grown k = byteAt content k) :
    image (copyFromSlice grown offset data) = (image content).write offset data := by
  have hroom : offset + data.length ≤ grown.length := by omega
  ext k
  · rw [image_size, length_copyFromSlice hroom, hlen]
    rfl
  · rw [image_byte, byteAt_copyFromSlice hroom, hbyte]
    rfl

/-- `TmpfsFile::write` on a file of at most `isize::MAX` bytes: a write that
ends within `isize::MAX` is the write of the picture and returns the data's
length; one that ends past it panics. -/
theorem write_eq {content : List UInt8} (hsize : content.length ≤ isizeMax) (offset : ℕ)
    (data : List UInt8) :
    (write content offset data).map (fun r => (image r.1, r.2)) =
      if offset + data.length ≤ isizeMax then
        some ((image content).write offset data, data.length)
      else none := by
  have hmax : isizeMax < usizeMax := by decide
  unfold write
  by_cases hend : offset + data.length ≤ isizeMax
  · rw [checkedAdd_of_le (by omega), if_pos hend]
    by_cases hgrow : content.length < offset + data.length
    · -- `resize` fills the gap with zeros
      obtain ⟨grown, hgrown⟩ : ∃ grown, resize content (offset + data.length) = some grown := by
        simp only [resize, if_neg (Nat.not_le.mpr hgrow), if_neg (Nat.not_lt.mpr hend),
          Option.some.injEq, exists_eq']
      have hlen : grown.length = max content.length (offset + data.length) := by
        rw [length_resize hgrown hgrow]
        omega
      simp only [if_pos hgrow, hgrown, Option.bind_eq_bind, Option.bind_some, Option.map_some,
        image_copyFromSlice hlen (byteAt_resize hgrown hgrow)]
    · have hlen : content.length = max content.length (offset + data.length) := by omega
      simp only [if_neg hgrow, Option.bind_eq_bind, Option.bind_some, Option.map_some,
        image_copyFromSlice hlen (fun _ => rfl)]
  · rw [if_neg hend]
    by_cases hover : usizeMax < offset + data.length
    · simp only [checkedAdd_of_lt hover, Option.bind_eq_bind, Option.bind_none, Option.map_none]
    · -- the vector must grow past `isize::MAX` bytes
      have hresize : resize content (offset + data.length) = none := by
        simp only [resize, if_neg (show ¬offset + data.length ≤ content.length by omega),
          if_pos (Nat.lt_of_not_le hend)]
      simp only [checkedAdd_of_le (Nat.le_of_not_lt hover), if_pos (show content.length <
        offset + data.length by omega), hresize, Option.bind_eq_bind, Option.bind_some,
        Option.bind_none, Option.map_none]

theorem write_eq_none_iff {content : List UInt8} (hsize : content.length ≤ isizeMax)
    (offset : ℕ) (data : List UInt8) :
    write content offset data = none ↔ isizeMax < offset + data.length := by
  have h := write_eq hsize offset data
  constructor
  · intro hnone
    rw [hnone, Option.map_none] at h
    split_ifs at h with hend
    omega
  · intro hover
    rw [if_neg (by omega)] at h
    exact Option.map_eq_none_iff.mp h

/-- What a write that does not panic leaves: the written picture, the data's
length as the count, and an end within `isize::MAX`. -/
theorem image_write {content : List UInt8} (hsize : content.length ≤ isizeMax) {offset : ℕ}
    {data : List UInt8} {r : List UInt8 × ℕ} (hwrite : write content offset data = some r) :
    image r.1 = (image content).write offset data ∧ r.2 = data.length ∧
      offset + data.length ≤ isizeMax := by
  have h := write_eq hsize offset data
  rw [hwrite, Option.map_some] at h
  split_ifs at h with hend
  simp only [Option.some.injEq, Prod.mk.injEq] at h
  exact ⟨h.1, h.2, hend⟩

/-- `TmpfsFile::read` is the read of the picture. -/
theorem read_eq (content : List UInt8) (offset bufLen : ℕ) :
    read content offset bufLen = (image content).read offset bufLen := by
  apply List.ext_getElem
  · unfold read
    split_ifs with hend
    · simp only [List.length_nil, FileImage.length_read, image_size]
      omega
    · simp only [List.length_take, List.length_drop, FileImage.length_read, image_size]
      omega
  · intro k hk _
    unfold read at hk ⊢
    split_ifs at hk ⊢ with hend
    · simp at hk
    · simp only [List.length_take, List.length_drop] at hk
      simp only [List.getElem_take, List.getElem_drop, FileImage.read, List.getElem_ofFn,
        image_byte, byteAt_of_lt (show offset + k < content.length by omega)]

end Solaya.Tmpfs
