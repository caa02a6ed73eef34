import Solaya.Core.Bytes

/-!
# `WritableBuffer`

A `WritableBuffer` (`klibc/writable_buffer.rs`) fills a byte slice front to
back.  Each write checks that the value fits in what is left of the slice,
answers `BufferTooSmall` otherwise and then leaves the buffer as it was, and
otherwise copies the value over the front of the rest and moves past it.

Since a write that fits moves the offset by exactly the value's length, two
writes one after the other are one write of the two values together
(`writeSlice_append`), and a loop of `write_usize` calls is one write of the
words' little-endian bytes (`foldlM_writeUsize`).
-/

namespace Solaya

/-- `WritableBufferError`. -/
inductive WritableBufferError where
  | bufferTooSmall
  deriving DecidableEq, Repr

/-- `WritableBuffer`: the slice and how much of it is written.  The offset
never passes the end of the slice, so `&mut self.buf[self.offset..]` never
panics. -/
structure WritableBuffer where
  buf : List UInt8
  offset : ℕ
  offset_le : offset ≤ buf.length

namespace WritableBuffer

/-- `WritableBuffer::new`. -/
def new (buf : List UInt8) : WritableBuffer := ⟨buf, 0, Nat.zero_le _⟩

/-- `write_slice`: `copy_slice` puts `value` over the first bytes of the rest
of the slice. -/
def writeSlice (w : WritableBuffer) (value : List UInt8) :
    Except WritableBufferError WritableBuffer :=
  if h : value.length > w.buf.length - w.offset then .error .bufferTooSmall
  else .ok ⟨w.buf.take w.offset ++ value ++ w.buf.drop (w.offset + value.length),
    w.offset + value.length, by have := w.offset_le; simp; omega⟩

/-- `write_usize`: the word's eight bytes `to_le_bytes`, checked and copied
as `write_slice` does. -/
def writeUsize (w : WritableBuffer) (value : ℕ) : Except WritableBufferError WritableBuffer :=
  w.writeSlice (Bytes.encodeLE 8 value)

theorem ext_iff {w w' : WritableBuffer} : w = w' ↔ w.buf = w'.buf ∧ w.offset = w'.offset := by
  cases w
  cases w'
  simp

/-- What a write that fits leaves behind. -/
theorem writeSlice_of_le {w : WritableBuffer} {value : List UInt8}
    (h : value.length ≤ w.buf.length - w.offset) :
    ∃ w', w.writeSlice value = .ok w' ∧
      w'.buf = w.buf.take w.offset ++ value ++ w.buf.drop (w.offset + value.length) ∧
      w'.offset = w.offset + value.length := by
  unfold writeSlice
  rw [dif_neg (by omega)]
  exact ⟨_, rfl, rfl, rfl⟩

theorem writeSlice_of_lt {w : WritableBuffer} {value : List UInt8}
    (h : w.buf.length - w.offset < value.length) :
    w.writeSlice value = .error .bufferTooSmall := by
  unfold writeSlice
  rw [dif_pos h]

@[simp]
theorem writeSlice_nil (w : WritableBuffer) : w.writeSlice [] = .ok w := by
  obtain ⟨w', hw', hbuf, hoffset⟩ := @writeSlice_of_le w [] (by simp)
  rw [hw', Except.ok.injEq, ext_iff, hbuf, hoffset]
  simp

/-- Two writes one after the other are one write of both values: if the
first does not fit, neither does the whole, and if the first fits, the second
fits exactly when the whole does. -/
theorem writeSlice_append (w : WritableBuffer) (first second : List UInt8) :
    w.writeSlice (first ++ second) = w.writeSlice first >>= (·.writeSlice second) := by
  have hoff := w.offset_le
  by_cases hfirst : first.length ≤ w.buf.length - w.offset
  · obtain ⟨w₁, hw₁, hbuf₁, hoffset₁⟩ := writeSlice_of_le hfirst
    have hleft₁ : w₁.buf.length - w₁.offset = w.buf.length - w.offset - first.length := by
      rw [hbuf₁, hoffset₁]
      simp only [List.length_append, List.length_take, List.length_drop]
      omega
    rw [hw₁]
    show w.writeSlice (first ++ second) = w₁.writeSlice second
    by_cases hsecond : second.length ≤ w₁.buf.length - w₁.offset
    · obtain ⟨w₂, hw₂, hbuf₂, hoffset₂⟩ := writeSlice_of_le hsecond
      obtain ⟨w', hw', hbuf', hoffset'⟩ :=
        @writeSlice_of_le w (first ++ second) (by simp; omega)
      -- both ways the bytes before the offset are kept and those after the
      -- two values are the slice's own
      have hbuf : w'.buf = w₂.buf := by
        rw [hbuf', hbuf₂, hbuf₁, hoffset₁]
        simp only [List.append_assoc, List.length_append, List.take_append,
          List.length_take, List.drop_append, List.drop_drop]
        simp [Nat.min_eq_left hoff, List.take_of_length_le, List.drop_eq_nil_of_le, Nat.add_assoc]
      rw [hw', hw₂, Except.ok.injEq, ext_iff]
      exact ⟨hbuf, by simp [hoffset', hoffset₂, hoffset₁, Nat.add_assoc]⟩
    · rw [writeSlice_of_lt (by simp; omega), writeSlice_of_lt (by omega)]
  · rw [writeSlice_of_lt (by simp; omega), writeSlice_of_lt (by omega)]
    rfl

/-- A loop of `write_usize` calls is one write of the words' bytes. -/
theorem foldlM_writeUsize (words : List ℕ) (w : WritableBuffer) :
    words.foldlM writeUsize w = w.writeSlice (words.flatMap (Bytes.encodeLE 8)) := by
  induction words generalizing w with
  | nil =>
    rw [List.foldlM_nil, List.flatMap_nil, writeSlice_nil]
    rfl
  | cons word words ih =>
    simp only [List.foldlM_cons, List.flatMap_cons, writeSlice_append, writeUsize]
    congr 1
    funext w'
    exact ih w'

/-- Writing into a fresh buffer a value that fits puts it at the front. -/
theorem new_writeSlice_of_le {buf value : List UInt8} (h : value.length ≤ buf.length) :
    ∃ w, (new buf).writeSlice value = .ok w ∧ w.buf = value ++ buf.drop value.length := by
  obtain ⟨w, hw, hbuf, -⟩ := @writeSlice_of_le (new buf) value (by simp [new, h])
  exact ⟨w, hw, by simpa [new] using hbuf⟩

end WritableBuffer

end Solaya
