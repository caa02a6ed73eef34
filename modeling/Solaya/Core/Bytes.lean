import Mathlib.Data.List.Basic
import Mathlib.Algebra.Group.Nat.Defs

/-!
# Byte strings

A `#[repr(C)]` header whose fields are `BigEndian<T>` is, as bytes, the
concatenation of the big-endian encodings of its fields, and a reader that
overlays such a struct on a buffer reads each field back from its offset.
This file gives that vocabulary for byte strings modelled as `List UInt8`:
`encodeBE width x` is `x.to_be_bytes()` for a `width`-byte integer,
`decodeBE` is `from_be_bytes`, and `readBE bytes offset width` is the field of
`width` bytes at `offset`.  The machine's own words are little-endian:
`encodeLE` is `to_le_bytes` and `decodeLE` is `from_le_bytes`.

The lemmas are what a decoder-after-encoder proof needs: a field written with
`encodeBE` reads back as its value modulo the field's range, wherever it stands
in a concatenation (`readBE_field`), and offsets behind a prefix shift by the
prefix's length (`readBE_append_right`); `decodeLE_encodeLE` is the
little-endian round trip.  `copyFromSlice` is `copy_from_slice` into a range of
a buffer; written into a zero-filled tail it just extends what is in front
(`copyFromSlice_append_replicate`).
-/

namespace Solaya.Bytes

/-- `x.to_be_bytes()` for a `width`-byte unsigned integer: the low `width`
bytes of `x`, most significant first. -/
def encodeBE : ℕ → ℕ → List UInt8
  | 0, _ => []
  | width + 1, x => encodeBE width (x / 256) ++ [UInt8.ofNat x]

theorem encodeBE_zero (x : ℕ) : encodeBE 0 x = [] := rfl

theorem encodeBE_succ (width x : ℕ) :
    encodeBE (width + 1) x = encodeBE width (x / 256) ++ [UInt8.ofNat x] := rfl

/-- `from_be_bytes`: the number a byte string denotes, most significant byte
first. -/
def decodeBE (bytes : List UInt8) : ℕ :=
  bytes.foldl (fun acc b => 256 * acc + b.toNat) 0

/-- The `width`-byte big-endian field at `offset`. -/
def readBE (bytes : List UInt8) (offset width : ℕ) : ℕ :=
  decodeBE ((bytes.drop offset).take width)

@[simp]
theorem length_encodeBE (width x : ℕ) : (encodeBE width x).length = width := by
  induction width generalizing x with
  | zero => rfl
  | succ width ih => simp [encodeBE_succ, ih]

@[simp]
theorem decodeBE_nil : decodeBE [] = 0 := rfl

theorem decodeBE_append_singleton (bytes : List UInt8) (b : UInt8) :
    decodeBE (bytes ++ [b]) = 256 * decodeBE bytes + b.toNat := by
  simp [decodeBE, List.foldl_append]

@[simp]
theorem decodeBE_encodeBE (width x : ℕ) : decodeBE (encodeBE width x) = x % 256 ^ width := by
  induction width generalizing x with
  | zero => simp [encodeBE_zero, Nat.mod_one]
  | succ width ih =>
    have hsplit : x % 256 ^ (width + 1) = x % 256 + 256 * (x / 256 % 256 ^ width) := by
      rw [Nat.pow_succ', @Nat.mod_mul 256 (256 ^ width) x]
    rw [encodeBE_succ, decodeBE_append_singleton, ih, UInt8.toNat_ofNat', hsplit]
    omega

/-- A field written by `encodeBE`, read back at its own offset. -/
theorem readBE_field (pre rest : List UInt8) (width x : ℕ) :
    readBE (pre ++ encodeBE width x ++ rest) pre.length width = x % 256 ^ width := by
  have htake : (encodeBE width x ++ rest).take width = encodeBE width x := by
    simpa only [length_encodeBE] using @List.take_left _ (encodeBE width x) rest
  simp only [readBE, List.append_assoc, List.drop_left, htake, decodeBE_encodeBE]

/-- Offsets behind a prefix are offsets into what follows it. -/
theorem readBE_append_right (pre rest : List UInt8) (offset width : ℕ) :
    readBE (pre ++ rest) (pre.length + offset) width = readBE rest offset width := by
  rw [readBE, readBE, ← List.drop_drop, List.drop_left]

/-- `x.to_le_bytes()` for a `width`-byte unsigned integer: the low `width`
bytes of `x`, least significant first. -/
def encodeLE : ℕ → ℕ → List UInt8
  | 0, _ => []
  | width + 1, x => UInt8.ofNat x :: encodeLE width (x / 256)

/-- `from_le_bytes`: the number a byte string denotes, least significant byte
first. -/
def decodeLE : List UInt8 → ℕ
  | [] => 0
  | b :: rest => b.toNat + 256 * decodeLE rest

theorem encodeLE_zero (x : ℕ) : encodeLE 0 x = [] := rfl

theorem encodeLE_succ (width x : ℕ) :
    encodeLE (width + 1) x = UInt8.ofNat x :: encodeLE width (x / 256) := rfl

theorem decodeLE_nil : decodeLE [] = 0 := rfl

theorem decodeLE_cons (b : UInt8) (rest : List UInt8) :
    decodeLE (b :: rest) = b.toNat + 256 * decodeLE rest := rfl

/-- The `width`-byte little-endian field at `offset`. -/
def readLE (bytes : List UInt8) (offset width : ℕ) : ℕ :=
  decodeLE ((bytes.drop offset).take width)

@[simp]
theorem length_encodeLE (width x : ℕ) : (encodeLE width x).length = width := by
  induction width generalizing x with
  | zero => rfl
  | succ width ih => simp [encodeLE_succ, ih]

@[simp]
theorem decodeLE_encodeLE (width x : ℕ) : decodeLE (encodeLE width x) = x % 256 ^ width := by
  induction width generalizing x with
  | zero => simp [encodeLE_zero, decodeLE_nil, Nat.mod_one]
  | succ width ih =>
    have hsplit : x % 256 ^ (width + 1) = x % 256 + 256 * (x / 256 % 256 ^ width) := by
      rw [Nat.pow_succ', @Nat.mod_mul 256 (256 ^ width) x]
    rw [encodeLE_succ, decodeLE_cons, ih, UInt8.toNat_ofNat', hsplit]

@[simp]
theorem length_flatMap_encodeLE (width : ℕ) (words : List ℕ) :
    (words.flatMap (encodeLE width)).length = width * words.length := by
  induction words with
  | nil => rfl
  | cons word words ih => simp [ih, Nat.mul_succ, Nat.add_comm]

/-- The `i`-th word of an array of `width`-byte little-endian words, found at
`width * i`. -/
theorem take_drop_flatMap_encodeLE (width : ℕ) (words : List ℕ) (rest : List UInt8) (i : ℕ)
    (hi : i < words.length) :
    ((words.flatMap (encodeLE width) ++ rest).drop (width * i)).take width =
      encodeLE width words[i] := by
  induction words generalizing i with
  | nil => simp at hi
  | cons word words ih =>
    rw [List.flatMap_cons, List.append_assoc]
    cases i with
    | zero => simp
    | succ i =>
      rw [Nat.mul_succ, Nat.add_comm, ← List.drop_drop, List.drop_left' (length_encodeLE _ _)]
      exact ih i (by simpa using hi)

/-- `buf[offset..offset + data.len()].copy_from_slice(data)`, for a range
inside `buf`. -/
def copyFromSlice (buf : List UInt8) (offset : ℕ) (data : List UInt8) : List UInt8 :=
  buf.take offset ++ data ++ buf.drop (offset + data.length)

theorem length_copyFromSlice {buf data : List UInt8} {offset : ℕ}
    (h : offset + data.length ≤ buf.length) :
    (copyFromSlice buf offset data).length = buf.length := by
  simp only [copyFromSlice, List.length_append, List.length_take, List.length_drop]
  omega

/-- Copying into the zero-filled tail right behind `pre` puts the data behind
`pre` and keeps the rest of the tail. -/
theorem copyFromSlice_append_replicate (pre data : List UInt8) (m : ℕ) :
    copyFromSlice (pre ++ List.replicate m 0) pre.length data =
      pre ++ data ++ List.replicate (m - data.length) 0 := by
  simp only [copyFromSlice, List.take_left, List.drop_append, List.drop_replicate,
    Nat.add_sub_cancel_left, List.drop_of_length_le (Nat.le_add_right _ _),
    List.nil_append]

/-- `buf[i] = v` at the start of the zero-filled tail behind `pre`. -/
theorem set_append_replicate (pre : List UInt8) (v : UInt8) {m : ℕ} (hm : 0 < m) :
    (pre ++ List.replicate m 0).set pre.length v = pre ++ [v] ++ List.replicate (m - 1) 0 := by
  obtain ⟨k, rfl⟩ : ∃ k, m = k + 1 := ⟨m - 1, by omega⟩
  rw [List.set_append_right _ _ (Nat.le_refl _), Nat.sub_self, List.replicate_succ,
    List.set_cons_zero, List.append_assoc, Nat.add_sub_cancel]
  rfl

end Solaya.Bytes
