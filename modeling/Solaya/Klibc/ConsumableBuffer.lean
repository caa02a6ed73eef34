import Mathlib.Data.List.TakeWhile
import Solaya.Core.Bytes
import Solaya.Klibc.Util

/-!
# `ConsumableBuffer`

A `ConsumableBuffer` (`klibc/consumable_buffer.rs`) reads a byte slice front
to back.  `consume_str` scans from the current position for a NUL byte; the
bytes before it must be UTF-8, and the buffer then moves past the NUL.  A
buffer without a NUL after the position, or whose string is not UTF-8, gives
`None` and stays where it is.

`consume_slice` takes a fixed number of bytes, `consume_sized_type` reads a
little-endian integer from them, and `consume_unsized_type` lets a value of
variable length (a LEB128 number) parse the rest of the buffer and then moves
past the bytes it says it took.  `consume_alignment` skips to the next multiple
of an alignment, and a `BigEndian<uN>` read with `consume_sized_type` and
`get` is the big-endian number its bytes denote on the kernel's little-endian
machine.

A string is modelled by its bytes.  UTF-8 validity (`core::str::from_utf8`)
is `ByteArray.validateUTF8`, the same check of the Unicode encoding rules.
-/

namespace Solaya

/-- `core::str::from_utf8(bytes).is_ok()`. -/
def isUtf8 (bytes : List UInt8) : Bool :=
  (ByteArray.mk bytes.toArray).validateUTF8

/-- `ConsumableBuffer`. -/
structure ConsumableBuffer where
  buffer : List UInt8
  position : ℕ
  deriving DecidableEq, Repr

/-- `FromU8BufferUnsized`: a value read from the front of a slice, and the
bytes it took. -/
class FromU8BufferUnsized (α : Type) where
  fromU8Buffer : List UInt8 → Option α
  sizeInBytes : α → ℕ

namespace ConsumableBuffer

/-- `ConsumableBuffer::new`. -/
def new (buffer : List UInt8) : ConsumableBuffer := ⟨buffer, 0⟩

/-- `consume_str`: the bytes up to the next NUL, when there is one and they
are UTF-8, and the buffer after the NUL.  The scanning `while` loop is
`takeWhile`. -/
def consumeStr (b : ConsumableBuffer) : Option (List UInt8 × ConsumableBuffer) :=
  let rest := b.buffer.drop b.position
  let string := rest.takeWhile (· != 0)
  -- the scan stopped before the end: at a NUL
  if string.length < rest.length then
    if isUtf8 string then some (string, { b with position := b.position + string.length + 1 })
    else none
  else none

/-- `rest`: the bytes from the position on. -/
def rest (b : ConsumableBuffer) : List UInt8 := b.buffer.drop b.position

/-- `empty`: nothing is left. -/
def empty (b : ConsumableBuffer) : Bool := b.buffer.length ≤ b.position

/-- `consume_slice`: the next `size` bytes and the buffer past them, `None`
when fewer are left. -/
def consumeSlice (b : ConsumableBuffer) (size : ℕ) : Option (List UInt8 × ConsumableBuffer) :=
  if b.buffer.length < b.position + size then none
  else if size = 0 then some ([], b)
  else some ((b.buffer.drop b.position).take size, { b with position := b.position + size })

/-- `consume_sized_type` of an unsigned integer of `size` bytes, which
`from_le_bytes` reads. -/
def consumeSizedType (size : ℕ) (b : ConsumableBuffer) : Option (ℕ × ConsumableBuffer) :=
  (b.consumeSlice size).map fun r => (Bytes.decodeLE r.1, r.2)

/-- `consume_unsized_type`: the value the rest of the buffer starts with, and
the buffer past the bytes it took. -/
def consumeUnsizedType {α : Type} [FromU8BufferUnsized α] (b : ConsumableBuffer) :
    Option (α × ConsumableBuffer) :=
  match FromU8BufferUnsized.fromU8Buffer b.rest with
  | none => none
  | some result =>
    let size := FromU8BufferUnsized.sizeInBytes result
    if b.buffer.length < b.position + size then none
    else some (result, { b with position := b.position + size })

/-- `consume_alignment`: skips to the next multiple of `alignment`; `None`, with
the buffer unmoved, when fewer bytes are left.  The position is at most the
length of a slice in memory, so `align_up` does not overflow. -/
def consumeAlignment (b : ConsumableBuffer) (alignment : ℕ) : Option (Unit × ConsumableBuffer) :=
  let alignedValue := alignUp b.position alignment
  let diff := alignedValue - b.position
  (b.consumeSlice diff).map fun r => ((), r.2)

/-- `consume_sized_type::<BigEndian<uN>>()` of `size` bytes, then `get()`: the
bytes read by `from_le_bytes` and swapped by `from_be`, which is the
big-endian number they denote. -/
def consumeBigEndian (size : ℕ) (b : ConsumableBuffer) : Option (ℕ × ConsumableBuffer) :=
  (b.consumeSlice size).map fun r => (Bytes.decodeBE r.1, r.2)

theorem rest_advance (b : ConsumableBuffer) {byte : UInt8} {bytes : List UInt8}
    (h : b.rest = byte :: bytes) : ({ b with position := b.position + 1 } : ConsumableBuffer).rest = bytes := by
  unfold rest at h ⊢
  rw [← List.drop_drop, h, List.drop_one, List.tail_cons]

/-- `consume_sized_type::<u8>` takes the next byte. -/
theorem consumeSizedType_one_of_rest {b : ConsumableBuffer} {byte : UInt8} {bytes : List UInt8}
    (h : b.rest = byte :: bytes) :
    b.consumeSizedType 1 = some (byte.toNat, { b with position := b.position + 1 }) := by
  have hlen : b.position + 1 ≤ b.buffer.length := by
    have := congrArg List.length h
    rw [rest, List.length_drop, List.length_cons] at this
    omega
  have htake : (b.buffer.drop b.position).take 1 = [byte] := by
    rw [← rest, h, List.take_succ_cons, List.take_zero]
  simp only [consumeSizedType, consumeSlice, if_neg (Nat.not_lt.mpr hlen), Nat.one_ne_zero,
    if_false, Option.map_some, htake, Bytes.decodeLE]
  rfl

/-- At the end of the buffer `consume_sized_type::<u8>` has nothing to read. -/
theorem consumeSizedType_one_of_rest_nil {b : ConsumableBuffer} (h : b.rest = []) :
    b.consumeSizedType 1 = none := by
  have hlen : b.buffer.length < b.position + 1 := by
    have := congrArg List.length h
    rw [rest, List.length_drop, List.length_nil] at this
    omega
  simp only [consumeSizedType, consumeSlice, if_pos hlen, Option.map_none]

/-- `consume_unsized_type` of a value that says it took no more bytes than
the buffer holds: the buffer moves past them. -/
theorem consumeUnsizedType_of_le {α : Type} [FromU8BufferUnsized α] {b : ConsumableBuffer}
    {result : α} (h : FromU8BufferUnsized.fromU8Buffer b.rest = some result)
    (hsize : b.position + FromU8BufferUnsized.sizeInBytes result ≤ b.buffer.length) :
    b.consumeUnsizedType = some (result,
      { b with position := b.position + FromU8BufferUnsized.sizeInBytes result }) := by
  simp only [consumeUnsizedType, h]
  rw [if_neg (Nat.not_lt.mpr hsize)]

theorem consumeUnsizedType_of_none {α : Type} [FromU8BufferUnsized α] {b : ConsumableBuffer}
    (h : FromU8BufferUnsized.fromU8Buffer b.rest = (none : Option α)) :
    b.consumeUnsizedType = (none : Option (α × ConsumableBuffer)) := by
  simp only [consumeUnsizedType, h]

/-- A buffer that holds a NUL-free string and then a NUL gives that string
back exactly when it is UTF-8, whatever follows the NUL. -/
theorem consumeStr_new_append {string : List UInt8} (hnul : ∀ c ∈ string, c ≠ 0)
    (rest : List UInt8) :
    (new (string ++ 0 :: rest)).consumeStr =
      if isUtf8 string then some (string, ⟨string ++ 0 :: rest, string.length + 1⟩)
      else none := by
  have htake : (string ++ 0 :: rest).takeWhile (· != 0) = string := by
    rw [List.takeWhile_append_of_pos (fun c hc => by simpa using hnul c hc)]
    simp
  simp only [consumeStr, new, List.drop_zero, htake, List.length_append, List.length_cons,
    Nat.zero_add]
  rw [if_pos (by omega)]

/-- Without a NUL there is no string. -/
theorem consumeStr_new_of_forall {buffer : List UInt8} (hnul : ∀ c ∈ buffer, c ≠ 0) :
    (new buffer).consumeStr = none := by
  have htake : buffer.takeWhile (· != 0) = buffer :=
    List.takeWhile_eq_self_iff.mpr fun c hc => by simpa using hnul c hc
  simp only [consumeStr, new, List.drop_zero, htake]
  rw [if_neg (Nat.lt_irrefl _)]

/-- `b'` is `b` read further: the same bytes, and a position that has not gone
back. -/
def Advances (b b' : ConsumableBuffer) : Prop :=
  b'.buffer = b.buffer ∧ b.position ≤ b'.position

theorem Advances.refl (b : ConsumableBuffer) : Advances b b := ⟨rfl, Nat.le_refl _⟩

theorem Advances.trans {b b' b'' : ConsumableBuffer} (h : Advances b b') (h' : Advances b' b'') :
    Advances b b'' :=
  ⟨h'.1.trans h.1, h.2.trans h'.2⟩

theorem consumeSlice_eq_some {b b' : ConsumableBuffer} {size : ℕ} {slice : List UInt8}
    (h : b.consumeSlice size = some (slice, b')) :
    b'.buffer = b.buffer ∧ b'.position = b.position + size ∧ b.position + size ≤ b.buffer.length := by
  unfold consumeSlice at h
  split_ifs at h with hlen hzero
  · cases h
    exact ⟨rfl, by rw [hzero, Nat.add_zero], by omega⟩
  · cases h
    exact ⟨rfl, rfl, by omega⟩

theorem consumeSizedType_eq_some {b b' : ConsumableBuffer} {size value : ℕ}
    (h : b.consumeSizedType size = some (value, b')) :
    b'.buffer = b.buffer ∧ b'.position = b.position + size ∧ b.position + size ≤ b.buffer.length := by
  unfold consumeSizedType at h
  obtain ⟨⟨slice, b₁⟩, hslice, hpair⟩ := Option.map_eq_some_iff.mp h
  cases hpair
  exact consumeSlice_eq_some hslice

theorem consumeUnsizedType_eq_some {α : Type} [FromU8BufferUnsized α] {b b' : ConsumableBuffer}
    {result : α} (h : b.consumeUnsizedType = some (result, b')) :
    b'.buffer = b.buffer ∧ b'.position = b.position + FromU8BufferUnsized.sizeInBytes result ∧
      b.position + FromU8BufferUnsized.sizeInBytes result ≤ b.buffer.length := by
  unfold consumeUnsizedType at h
  split at h
  · cases h
  · dsimp only at h
    split_ifs at h with hlen
    cases h
    exact ⟨rfl, rfl, by omega⟩

theorem Advances.of_consumeSizedType {b b' : ConsumableBuffer} {size value : ℕ}
    (h : b.consumeSizedType size = some (value, b')) : Advances b b' := by
  obtain ⟨hbuf, hpos, -⟩ := consumeSizedType_eq_some h
  exact ⟨hbuf, by omega⟩

theorem Advances.of_consumeUnsizedType {α : Type} [FromU8BufferUnsized α] {b b' : ConsumableBuffer}
    {result : α} (h : b.consumeUnsizedType = some (result, b')) : Advances b b' := by
  obtain ⟨hbuf, hpos, -⟩ := consumeUnsizedType_eq_some h
  exact ⟨hbuf, by omega⟩

/-! ### Reading what the buffer is known to hold -/

theorem position_lt_of_rest {b : ConsumableBuffer} {bytes more : List UInt8}
    (h : b.rest = bytes ++ more) (hne : bytes ≠ []) : b.position < b.buffer.length := by
  have hlen := congrArg List.length h
  have hpos : 0 < bytes.length := List.length_pos_iff.mpr hne
  rw [rest, List.length_drop, List.length_append] at hlen
  omega

theorem length_le_of_rest {b : ConsumableBuffer} {bytes more : List UInt8}
    (h : b.rest = bytes ++ more) (hpos : b.position ≤ b.buffer.length) :
    b.position + bytes.length ≤ b.buffer.length := by
  have hlen := congrArg List.length h
  rw [rest, List.length_drop, List.length_append] at hlen
  omega

theorem empty_eq_false_of_rest {b : ConsumableBuffer} {bytes more : List UInt8}
    (h : b.rest = bytes ++ more) (hne : bytes ≠ []) : b.empty = false := by
  have hlt := position_lt_of_rest h hne
  simp only [empty]
  exact decide_eq_false (by omega)

theorem rest_skip {b : ConsumableBuffer} {bytes more : List UInt8} (h : b.rest = bytes ++ more) :
    ({ b with position := b.position + bytes.length } : ConsumableBuffer).rest = more := by
  unfold rest at h ⊢
  rw [← List.drop_drop, h, List.drop_left]

theorem consumeSlice_of_rest {b : ConsumableBuffer} {bytes more : List UInt8}
    (h : b.rest = bytes ++ more) (hpos : b.position ≤ b.buffer.length) :
    b.consumeSlice bytes.length = some (bytes, { b with position := b.position + bytes.length }) := by
  have hlen := length_le_of_rest h hpos
  unfold consumeSlice
  rw [if_neg (Nat.not_lt.mpr hlen)]
  by_cases hnil : bytes = []
  · subst hnil
    simp
  · rw [if_neg (by simpa using hnil), ← rest, h, List.take_left]

theorem consumeBigEndian_of_rest {b : ConsumableBuffer} {width x : ℕ} {more : List UInt8}
    (h : b.rest = Bytes.encodeBE (width + 1) x ++ more) (hx : x < 256 ^ (width + 1)) :
    b.consumeBigEndian (width + 1) = some (x, { b with position := b.position + (width + 1) }) := by
  have hne : Bytes.encodeBE (width + 1) x ≠ [] := by
    simp [Bytes.encodeBE]
  have hslice := consumeSlice_of_rest h (Nat.le_of_lt (position_lt_of_rest h hne))
  rw [Bytes.length_encodeBE] at hslice
  simp only [consumeBigEndian, hslice, Option.map_some, Bytes.decodeBE_encodeBE,
    Nat.mod_eq_of_lt hx]

theorem consumeStr_of_rest {b : ConsumableBuffer} {string more : List UInt8}
    (h : b.rest = string ++ 0 :: more) (hnul : ∀ c ∈ string, c ≠ 0) (hutf : isUtf8 string = true) :
    b.consumeStr = some (string, { b with position := b.position + string.length + 1 }) := by
  have htake : (string ++ 0 :: more).takeWhile (· != 0) = string := by
    rw [List.takeWhile_append_of_pos (fun c hc => by simpa using hnul c hc)]
    simp
  unfold consumeStr
  dsimp only
  rw [← rest, h, htake, if_pos (by simp), if_pos hutf]

/-- At a position `k` short of a multiple of `alignment`, with `k` bytes left
before `more`, `consume_alignment` skips those bytes. -/
theorem consumeAlignment_of_rest {b : ConsumableBuffer} {alignment : ℕ} {pad more : List UInt8}
    (halign : 0 < alignment) (h : b.rest = pad ++ more) (hpos : b.position ≤ b.buffer.length)
    (hpad : pad.length = (alignment - b.position % alignment) % alignment) :
    b.consumeAlignment alignment = some ((), { b with position := b.position + pad.length }) := by
  have hdiff : alignUp b.position alignment - b.position = pad.length := by
    have hlt := Nat.mod_lt b.position halign
    by_cases hzero : b.position % alignment = 0
    · rw [alignUp_of_mod_eq_zero hzero, hpad, hzero, Nat.sub_zero, Nat.mod_self, Nat.sub_self]
    · have hpad' : pad.length = alignment - b.position % alignment := by
        rw [hpad, Nat.mod_eq_of_lt (by omega)]
      rw [alignUp_of_mod_ne_zero hzero, hpad']
      omega
  simp only [consumeAlignment, hdiff, consumeSlice_of_rest h hpos, Option.map_some]

/-- A `BigEndian` number read from the front of a fresh buffer. -/
theorem consumeBigEndian_new (size : ℕ) (value : List UInt8) :
    (new value).consumeBigEndian size =
      if size ≤ value.length then some (Bytes.decodeBE (value.take size), ⟨value, size⟩) else none := by
  by_cases hsize : size ≤ value.length
  · have hrest : (new value).rest = value.take size ++ value.drop size := by
      simp [rest, new]
    have hslice := consumeSlice_of_rest hrest (by simp [new])
    rw [List.length_take_of_le hsize] at hslice
    rw [consumeBigEndian, hslice, Option.map_some, if_pos hsize]
    simp only [new, Nat.zero_add]
  · simp only [consumeBigEndian, consumeSlice, new, Nat.zero_add, if_pos (Nat.lt_of_not_le hsize),
      Option.map_none, if_neg hsize]

end ConsumableBuffer

end Solaya
