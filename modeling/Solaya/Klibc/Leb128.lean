import Solaya.Core.Leb128
import Solaya.Klibc.ConsumableBuffer

/-!
# The kernel's LEB128 parsers

`klibc/leb128.rs` reads the LEB128 numbers of `.eh_frame` through
`ConsumableBuffer::consume_unsized_type`.  Both parsers take one byte per turn
of their loop and OR its low seven bits into the result at the current shift.
`UnsignedLEB128::parse` stops at a byte whose bit 7 is clear, and gives up when
the shift reaches 64 after a byte that continues.  `SignedLEB128::parse` tests
the shift bound first, on every byte, so it gives up on the tenth byte even
when that byte ends the number, and it sign-extends from bit 6 of the last
byte.  The `i64` result is held as its bits.

`parse_uleb128` is the unsigned round trip for every `u64`.  `parse_sleb128`
says exactly which signed encodings come back: those of the values in
`[-2^62, 2^62)`, the ones of at most nine bytes; every longer encoding, among
them those of the `i64` values outside that range, gives `None`.
-/

namespace Solaya

open Leb128

/-- `UnsignedLEB128`. -/
structure UnsignedLEB128 where
  value : ℕ
  size : ℕ
  deriving DecidableEq, Repr

/-- `SignedLEB128`. -/
structure SignedLEB128 where
  value : ℤ
  size : ℕ
  deriving DecidableEq, Repr

/-- The `i64` whose two's-complement bits are `bits`. -/
def toInt64 (bits : ℕ) : ℤ :=
  if bits < 2 ^ 63 then bits else (bits : ℤ) - 2 ^ 64

namespace UnsignedLEB128

/-- The `loop` of `UnsignedLEB128::parse`, with the value so far, the shift and
the bytes taken. -/
def parseLoop (buffer : ConsumableBuffer) (result shift size : ℕ) : Option UnsignedLEB128 :=
  match buffer.consumeSizedType 1 with
  | none => none
  | some (nextByte, buffer) =>
    let size := size + 1
    let result := result ||| ((nextByte &&& 0b1111111) <<< shift) % 2 ^ 64
    if nextByte &&& 0b10000000 = 0 then some ⟨result, size⟩
    else
      let shift := shift + 7
      if 64 ≤ shift then none
      else parseLoop buffer result shift size
termination_by 64 - shift
decreasing_by omega

/-- `UnsignedLEB128::parse`. -/
def parse (buffer : List UInt8) : Option UnsignedLEB128 :=
  parseLoop (ConsumableBuffer.new buffer) 0 0 0

instance : FromU8BufferUnsized UnsignedLEB128 := ⟨parse, size⟩

end UnsignedLEB128

namespace SignedLEB128

/-- The `loop` of `SignedLEB128::parse`: at its `break`, the bits so far, the
shift, the bytes taken and the last byte. -/
def parseLoop (buffer : ConsumableBuffer) (result shift size : ℕ) :
    Option (ℕ × ℕ × ℕ × ℕ) :=
  match buffer.consumeSizedType 1 with
  | none => none
  | some (nextByte, buffer) =>
    let size := size + 1
    let result := result ||| ((nextByte &&& 0b1111111) <<< shift) % 2 ^ 64
    let shift := shift + 7
    -- `result_size` is 64; the bound is tested before the continuation bit
    if 64 ≤ shift then none
    else if nextByte &&& 0b10000000 = 0 then some (result, shift, size, nextByte)
    else parseLoop buffer result shift size
termination_by 64 - shift
decreasing_by omega

/-- `SignedLEB128::parse`: `!0 << shift` is the sign extension. -/
def parse (buffer : List UInt8) : Option SignedLEB128 :=
  match parseLoop (ConsumableBuffer.new buffer) 0 0 0 with
  | none => none
  | some (result, shift, size, nextByte) =>
    let result :=
      if shift < 64 ∧ nextByte &&& 0x40 ≠ 0 then result ||| ((2 ^ 64 - 1) <<< shift) % 2 ^ 64
      else result
    some ⟨toInt64 result, size⟩

instance : FromU8BufferUnsized SignedLEB128 := ⟨parse, size⟩

end SignedLEB128

/-! ## One digit -/

/-- Bit 7 of a byte is clear exactly below 128. -/
theorem continue_bit_iff : ∀ x, x < 256 → (x &&& 0b10000000 = 0 ↔ x < 128) := by
  decide +kernel

/-- ORing a digit in at `shift` above a value of `shift` bits adds it, as long
as nothing passes bit 63. -/
theorem or_shiftLeft_mod_eq_add {result digit shift : ℕ} (hresult : result < 2 ^ shift)
    (hfits : result + digit * 2 ^ shift < 2 ^ 64) :
    result ||| (digit <<< shift) % 2 ^ 64 = result + digit * 2 ^ shift := by
  rw [Nat.shiftLeft_eq, Nat.mod_eq_of_lt (by omega), Nat.or_comm,
    ← Nat.shiftLeft_eq, ← Nat.shiftLeft_add_eq_or_of_lt hresult, Nat.shiftLeft_eq, Nat.add_comm]

/-- A digit placed above a value of `shift` bits leaves a value of `shift + 7` bits. -/
theorem add_digit_lt {result digit shift : ℕ} (hresult : result < 2 ^ shift) (hdigit : digit < 128) :
    result + digit * 2 ^ shift < 2 ^ (shift + 7) := by
  have hstep : 2 ^ (shift + 7) = 128 * 2 ^ shift := by
    rw [Nat.pow_add, Nat.mul_comm]
  have hmul : digit * 2 ^ shift ≤ 127 * 2 ^ shift := Nat.mul_le_mul_right _ (by omega)
  omega

/-- Moving a digit seven bits up the shift is multiplying it by 128. -/
theorem mul_two_pow_add_seven (x shift : ℕ) : x * 2 ^ (shift + 7) = 128 * x * 2 ^ shift := by
  rw [Nat.pow_add, Nat.mul_comm 128 x, Nat.mul_assoc, Nat.mul_comm (2 ^ shift)]

/-! ## Unsigned -/

namespace UnsignedLEB128

/-- The loop on the encoding of `v`, entered with a value of `shift` bits,
adds `v` at the shift and takes the encoding's bytes, as long as the sum fits
in 64 bits.  By induction along `uleb128`. -/
theorem parseLoop_uleb128 (t : List UInt8) :
    ∀ (v : ℕ) {buffer : ConsumableBuffer} {result shift size : ℕ},
      buffer.rest = uleb128 v ++ t → result < 2 ^ shift → result + v * 2 ^ shift < 2 ^ 64 →
      parseLoop buffer result shift size =
        some ⟨result + v * 2 ^ shift, size + (uleb128 v).length⟩ := by
  intro v
  induction v using Nat.strong_induction_on with
  | _ v ih =>
    intro buffer result shift size hrest hresult hfits
    by_cases hlast : v < 128
    · -- the last byte
      have hbits := last_byte_bits v hlast
      rw [uleb128_of_lt hlast, List.singleton_append] at hrest
      rw [parseLoop, ConsumableBuffer.consumeSizedType_one_of_rest hrest]
      simp only [toNat_ofNat_of_lt (by omega : v < 256), hbits.1, hbits.2, if_true,
        or_shiftLeft_mod_eq_add hresult hfits, uleb128_of_lt hlast, List.length_singleton]
    · -- a byte that continues: one digit now, the rest from `v / 128` on
      have hdigit : v % 128 < 128 := Nat.mod_lt _ (by decide)
      have hbits := continued_byte_bits _ hdigit
      have hv : v % 128 + 128 * (v / 128) = v := Nat.mod_add_div v 128
      rw [uleb128_of_le (Nat.le_of_not_lt hlast), List.cons_append] at hrest
      have hsum : result + v % 128 * 2 ^ shift + v / 128 * 2 ^ (shift + 7) =
          result + v * 2 ^ shift := by
        rw [mul_two_pow_add_seven, Nat.add_assoc, ← Nat.add_mul, hv]
      have hfits' : result + v % 128 * 2 ^ shift < 2 ^ 64 := by
        have hfits'' := hfits
        rw [← hsum] at hfits''
        omega
      -- the next digit still fits: `2^(shift+7) ≤ v * 2^shift < 2^64`
      have hshift : shift + 7 < 64 := by
        have hle : 2 ^ (shift + 7) ≤ v * 2 ^ shift :=
          calc 2 ^ (shift + 7) = 128 * 2 ^ shift := by rw [Nat.pow_add, Nat.mul_comm]
            _ ≤ v * 2 ^ shift := Nat.mul_le_mul_right _ (by omega)
        have hlt : 2 ^ (shift + 7) < 2 ^ 64 := by omega
        exact (Nat.pow_lt_pow_iff_right (by decide)).mp hlt
      rw [parseLoop, ConsumableBuffer.consumeSizedType_one_of_rest hrest]
      simp only [toNat_ofNat_of_lt (by omega : v % 128 + 128 < 256), hbits.1, if_neg hbits.2,
        if_neg (Nat.not_le.mpr hshift), or_shiftLeft_mod_eq_add hresult hfits']
      rw [ih (v / 128) (by omega) (ConsumableBuffer.rest_advance _ hrest)
        (add_digit_lt hresult hdigit) (by omega), hsum, uleb128_of_le (Nat.le_of_not_lt hlast),
        List.length_cons]
      congr 2
      omega

/-- `UnsignedLEB128::parse` of the encoding of a `u64`, whatever follows it:
the value, and the encoding's length as the size. -/
theorem parse_uleb128 {v : ℕ} (hv : v < 2 ^ 64) (t : List UInt8) :
    parse (uleb128 v ++ t) = some ⟨v, (uleb128 v).length⟩ := by
  have h := @parseLoop_uleb128 t v (ConsumableBuffer.new (uleb128 v ++ t)) 0 0 0 rfl
    (by decide) (by omega)
  rw [parse]
  simpa using h

/-- The loop at shift `7 * j` gives up exactly when each of the next `10 - j`
bytes, or each byte left if there are fewer, continues the number. -/
theorem parseLoop_eq_none_iff :
    ∀ (bytes : List UInt8) {buffer : ConsumableBuffer} {result j size : ℕ}, j ≤ 9 →
      buffer.rest = bytes →
      (parseLoop buffer result (7 * j) size = none ↔ ∀ x ∈ bytes.take (10 - j), 128 ≤ x.toNat) := by
  intro bytes
  induction bytes with
  | nil =>
    intro buffer result j size _ hrest
    rw [parseLoop, ConsumableBuffer.consumeSizedType_one_of_rest_nil hrest]
    simp
  | cons x xs ih =>
    intro buffer result j size hj hrest
    have hbit := continue_bit_iff x.toNat x.toNat_lt
    rw [parseLoop, ConsumableBuffer.consumeSizedType_one_of_rest hrest]
    obtain ⟨k, hk⟩ : ∃ k, 10 - j = k + 1 := ⟨9 - j, by omega⟩
    rw [hk, List.take_succ_cons, List.forall_mem_cons]
    by_cases hlast : x.toNat < 128
    · -- bit 7 clear: the number ends here
      simp only [if_pos (hbit.mpr hlast), reduceCtorEq, false_iff, not_and]
      intro hx
      omega
    · simp only [if_neg (fun h => hlast (hbit.mp h))]
      by_cases hend : 64 ≤ 7 * j + 7
      · -- the tenth byte continues: the shift reaches 64
        have hk0 : k = 0 := by omega
        rw [if_pos hend]
        simp [hk0, Nat.le_of_not_lt hlast]
      · rw [if_neg hend, show 7 * j + 7 = 7 * (j + 1) by omega,
          ih (by omega) (ConsumableBuffer.rest_advance _ hrest),
          show 10 - (j + 1) = k by omega]
        simp [Nat.le_of_not_lt hlast]

/-- `UnsignedLEB128::parse` gives `None` exactly on a buffer whose first ten
bytes, or all of them if there are fewer, continue the number: a truncated or
an over-long encoding. -/
theorem parse_eq_none_iff (bytes : List UInt8) :
    parse bytes = none ↔ ∀ x ∈ bytes.take 10, 128 ≤ x.toNat :=
  parseLoop_eq_none_iff bytes (Nat.zero_le 9) rfl

end UnsignedLEB128

/-! ## Signed -/

namespace SignedLEB128

/-- The loop on the encoding of `v`, entered with a value of `shift` bits and
room below bit 64 for all of the encoding's digits, stops at its last byte with
the digits added at the shift; bit 6 of that byte is the sign.  By induction
along `sleb128`. -/
theorem parseLoop_sleb128 (t : List UInt8) (v : ℤ) :
    ∀ {buffer : ConsumableBuffer} {result shift size : ℕ},
      buffer.rest = sleb128 v ++ t → result < 2 ^ shift → shift + 7 * (sleb128 v).length < 64 →
      ∃ lastByte, parseLoop buffer result shift size =
          some (result + digitsValue (sleb128 v) * 2 ^ shift, shift + 7 * (sleb128 v).length,
            size + (sleb128 v).length, lastByte) ∧
        (lastByte &&& 0x40 = 0 ↔ 0 ≤ v) := by
  induction v using sleb128.induct with
  | case1 v _ =>
    rename_i hstop
    intro buffer result shift size hrest hresult hroom
    have hdigit := digit_lt v
    have hbits := last_byte_bits _ hdigit
    have hrange := stops_iff.mp hstop
    rw [sleb128_of_stops hstop] at hrest hroom ⊢
    rw [List.singleton_append] at hrest
    rw [List.length_singleton] at hroom
    have hfit : result + (v % 128).toNat * 2 ^ shift < 2 ^ 64 :=
      Nat.lt_of_lt_of_le (add_digit_lt hresult hdigit) (Nat.pow_le_pow_right (by decide) (by omega))
    refine ⟨(v % 128).toNat, ?_, ?_⟩
    · rw [parseLoop, ConsumableBuffer.consumeSizedType_one_of_rest hrest]
      simp only [toNat_ofNat_of_lt (by omega : (v % 128).toNat < 256), hbits.1, hbits.2,
        if_neg (by omega : ¬64 ≤ shift + 7), if_true, or_shiftLeft_mod_eq_add hresult hfit,
        digitsValue_cons, digitsValue_nil, List.length_singleton, Nat.mul_zero, Nat.add_zero,
        Nat.mul_one]
    · rw [sign_bit_iff _ hdigit]
      omega
  | case2 v _ hcont =>
    rename_i ih
    intro buffer result shift size hrest hresult hroom
    have hdigit := digit_lt v
    have hbits := continued_byte_bits _ hdigit
    rw [sleb128_of_not_stops hcont] at hrest hroom ⊢
    rw [List.cons_append] at hrest
    rw [List.length_cons] at hroom
    have hfit : result + (v % 128).toNat * 2 ^ shift < 2 ^ 64 :=
      Nat.lt_of_lt_of_le (add_digit_lt hresult hdigit) (Nat.pow_le_pow_right (by decide) (by omega))
    obtain ⟨lastByte, hloop, hsign⟩ := ih (ConsumableBuffer.rest_advance _ hrest)
      (add_digit_lt hresult hdigit) (by omega)
    refine ⟨lastByte, ?_, by rw [hsign]; have := neg_iff_of_not_stops hcont; omega⟩
    rw [parseLoop, ConsumableBuffer.consumeSizedType_one_of_rest hrest]
    simp only [toNat_ofNat_of_lt (by omega : (v % 128).toNat + 128 < 256), hbits.1,
      if_neg hbits.2, if_neg (by omega : ¬64 ≤ shift + 7), or_shiftLeft_mod_eq_add hresult hfit]
    rw [hloop, digitsValue_cons, toNat_ofNat_of_lt (by omega : (v % 128).toNat + 128 < 256),
      hbits.1, List.length_cons, mul_two_pow_add_seven, Nat.add_mul, Nat.mul_assoc]
    simp only [Option.some.injEq, Prod.mk.injEq, and_true]
    omega

/-- The loop on an encoding whose digits do not all fit below bit 64 gives up:
it reaches a shift of 64 before the encoding's last byte, or at it. -/
theorem parseLoop_sleb128_eq_none (t : List UInt8) (v : ℤ) :
    ∀ {buffer : ConsumableBuffer} {result shift size : ℕ},
      buffer.rest = sleb128 v ++ t → 64 ≤ shift + 7 * (sleb128 v).length →
      parseLoop buffer result shift size = none := by
  induction v using sleb128.induct with
  | case1 v _ =>
    rename_i hstop
    intro buffer result shift size hrest hroom
    rw [sleb128_of_stops hstop, List.singleton_append] at hrest
    rw [sleb128_of_stops hstop, List.length_singleton] at hroom
    rw [parseLoop, ConsumableBuffer.consumeSizedType_one_of_rest hrest]
    simp only [if_pos (by omega : 64 ≤ shift + 7)]
  | case2 v _ hcont =>
    rename_i ih
    intro buffer result shift size hrest hroom
    have hdigit := digit_lt v
    have hbits := continued_byte_bits _ hdigit
    rw [sleb128_of_not_stops hcont, List.cons_append] at hrest
    rw [sleb128_of_not_stops hcont, List.length_cons] at hroom
    rw [parseLoop, ConsumableBuffer.consumeSizedType_one_of_rest hrest]
    by_cases hshift : 64 ≤ shift + 7
    · simp only [if_pos hshift]
    · simp only [if_neg hshift, toNat_ofNat_of_lt (by omega : (v % 128).toNat + 128 < 256),
        hbits.1, if_neg hbits.2]
      exact ih (ConsumableBuffer.rest_advance _ hrest) (by omega)

/-- The loop at shift `7 * j` gives up exactly when each of the next `9 - j`
bytes, or each byte left if there are fewer, continues the number: the byte
after them is read at a shift that reaches 64, whatever its bit 7. -/
theorem parseLoop_eq_none_iff :
    ∀ (bytes : List UInt8) {buffer : ConsumableBuffer} {result j size : ℕ}, j ≤ 9 →
      buffer.rest = bytes →
      (parseLoop buffer result (7 * j) size = none ↔ ∀ x ∈ bytes.take (9 - j), 128 ≤ x.toNat) := by
  intro bytes
  induction bytes with
  | nil =>
    intro buffer result j size _ hrest
    rw [parseLoop, ConsumableBuffer.consumeSizedType_one_of_rest_nil hrest]
    simp
  | cons x xs ih =>
    intro buffer result j size hj hrest
    have hbit := continue_bit_iff x.toNat x.toNat_lt
    rw [parseLoop, ConsumableBuffer.consumeSizedType_one_of_rest hrest]
    by_cases hend : 64 ≤ 7 * j + 7
    · -- the byte is read at shift 63: `None` whatever it holds
      rw [show 9 - j = 0 by omega, List.take_zero]
      simp only [if_pos hend, List.not_mem_nil, false_implies, implies_true]
    obtain ⟨k, hk⟩ : ∃ k, 9 - j = k + 1 := ⟨8 - j, by omega⟩
    rw [hk, List.take_succ_cons, List.forall_mem_cons]
    simp only [if_neg hend]
    by_cases hlast : x.toNat < 128
    · simp only [if_pos (hbit.mpr hlast), reduceCtorEq, false_iff, not_and]
      intro hx
      omega
    · rw [if_neg (fun h => hlast (hbit.mp h)), show 7 * j + 7 = 7 * (j + 1) by omega,
        ih (by omega) (ConsumableBuffer.rest_advance _ hrest), show 9 - (j + 1) = k by omega]
      simp [Nat.le_of_not_lt hlast]

/-- `SignedLEB128::parse` gives `None` exactly on a buffer whose first nine
bytes, or all of them if there are fewer, continue the number.  A ten-byte
encoding is among them: it is neither truncated nor over-long. -/
theorem parse_eq_none_iff (bytes : List UInt8) :
    parse bytes = none ↔ ∀ x ∈ bytes.take 9, 128 ≤ x.toNat := by
  rw [← @parseLoop_eq_none_iff bytes (ConsumableBuffer.new bytes) 0 0 0 (Nat.zero_le 9) rfl]
  unfold parse
  cases parseLoop (ConsumableBuffer.new bytes) 0 (7 * 0) 0 <;> simp

/-- `result |= !0 << shift` at the shifts the loop stops at: above a value of
`shift` bits it sets every bit from `shift` to 63. -/
theorem sign_extension_bits : ∀ n, n ≤ 9 →
    ((2 ^ 64 - 1) <<< (7 * n)) % 2 ^ 64 = (2 ^ (64 - 7 * n) - 1) <<< (7 * n) ∧
      (2 ^ (64 - 7 * n) - 1) <<< (7 * n) = 2 ^ 64 - 2 ^ (7 * n) := by
  decide

/-- `SignedLEB128::parse` of a signed encoding, whatever follows it: the value
and the encoding's length for the values in `[-2^62, 2^62)`, whose encodings
have at most nine bytes, and `None` for every other value. -/
theorem parse_sleb128 (v : ℤ) (t : List UInt8) :
    parse (sleb128 v ++ t) =
      if -2 ^ 62 ≤ v ∧ v < 2 ^ 62 then some ⟨v, (sleb128 v).length⟩ else none := by
  have hfits := fits_length_sleb128 v
  have hdigits := digitsValue_sleb128 v
  -- the bound `2^(7n)` of an encoding of `n` bytes, as a natural number
  have hbound : ((2 ^ (7 * (sleb128 v).length) : ℕ) : ℤ) = 2 ^ (7 * (sleb128 v).length) := by
    push_cast
    rfl
  by_cases hrange : -2 ^ 62 ≤ v ∧ v < 2 ^ 62
  · rw [if_pos hrange]
    have hn : (sleb128 v).length ≤ 9 := length_sleb128_le (by decide) (by omega)
    have hle : 2 ^ (7 * (sleb128 v).length) ≤ 2 ^ 63 := Nat.pow_le_pow_right (by decide) (by omega)
    obtain ⟨lastByte, hloop, hsign⟩ := @parseLoop_sleb128 t v
      (ConsumableBuffer.new (sleb128 v ++ t)) 0 0 0 rfl (by decide) (by omega)
    rw [parse, hloop]
    simp only [Nat.zero_add, Nat.pow_zero, Nat.mul_one, Option.some.injEq, SignedLEB128.mk.injEq,
      and_true]
    by_cases hneg : v < 0
    · -- the last byte's bit 6 is set: the bits above the digits are filled in
      rw [if_pos hneg] at hdigits
      have hdigits_lt : digitsValue (sleb128 v) < 2 ^ (7 * (sleb128 v).length) := by omega
      obtain ⟨hmod, hsub⟩ := sign_extension_bits _ hn
      rw [if_pos ⟨by omega, by rw [Ne, hsign]; omega⟩, hmod, Nat.or_comm,
        ← Nat.shiftLeft_add_eq_or_of_lt hdigits_lt, hsub, toInt64, if_neg (by omega)]
      push_cast [Nat.sub_le_of_le_add (by omega : 2 ^ 64 ≤ 2 ^ 64 + 2 ^ (7 * (sleb128 v).length))]
      omega
    · rw [if_neg hneg] at hdigits
      rw [if_neg (by rw [Ne, hsign]; omega), toInt64, if_pos (by omega)]
      omega
  · rw [if_neg hrange]
    -- nine bytes hold only the values in range, so the encoding has ten or more
    have hn : 10 ≤ (sleb128 v).length := by
      by_contra hshort
      have hle : 2 ^ (7 * (sleb128 v).length) ≤ 2 ^ 63 :=
        Nat.pow_le_pow_right (by decide) (by omega)
      exact hrange (by omega)
    rw [parse, @parseLoop_sleb128_eq_none t v (ConsumableBuffer.new (sleb128 v ++ t)) 0 0 0 rfl
      (by omega)]

end SignedLEB128

/-! ## Through `consume_unsized_type` -/

/-- Both parsers as `consume_unsized_type` runs them, on an encoding followed
by any bytes.  A `u64` comes back, and the buffer moves past its encoding.  A
signed value comes back the same way when it lies in `[-2^62, 2^62)`, and
every other value gives `None`, among them the `i64` values whose encodings
have ten bytes. -/
theorem consumeUnsizedType_leb128 {v : ℕ} (hv : v < 2 ^ 64) (w : ℤ) (t : List UInt8) :
    (ConsumableBuffer.new (uleb128 v ++ t)).consumeUnsizedType =
        some ((⟨v, (uleb128 v).length⟩ : UnsignedLEB128),
          ⟨uleb128 v ++ t, (uleb128 v).length⟩) ∧
      (ConsumableBuffer.new (sleb128 w ++ t)).consumeUnsizedType =
        if -2 ^ 62 ≤ w ∧ w < 2 ^ 62 then
          some ((⟨w, (sleb128 w).length⟩ : SignedLEB128), ⟨sleb128 w ++ t, (sleb128 w).length⟩)
        else none := by
  constructor
  · have hparse := UnsignedLEB128.parse_uleb128 hv t
    rw [ConsumableBuffer.consumeUnsizedType_of_le hparse (by simp [ConsumableBuffer.new,
      FromU8BufferUnsized.sizeInBytes])]
    simp [ConsumableBuffer.new, FromU8BufferUnsized.sizeInBytes]
  · have hparse := SignedLEB128.parse_sleb128 w t
    by_cases hrange : -2 ^ 62 ≤ w ∧ w < 2 ^ 62
    · rw [if_pos hrange] at hparse ⊢
      rw [ConsumableBuffer.consumeUnsizedType_of_le hparse (by simp [ConsumableBuffer.new,
        FromU8BufferUnsized.sizeInBytes])]
      simp [ConsumableBuffer.new, FromU8BufferUnsized.sizeInBytes]
    · rw [if_neg hrange] at hparse ⊢
      exact ConsumableBuffer.consumeUnsizedType_of_none hparse

/-- `u64::MAX`, and `i64::MIN` with its ten-byte encoding. -/
theorem consumeUnsizedType_leb128_extremes :
    (ConsumableBuffer.new (uleb128 (2 ^ 64 - 1))).consumeUnsizedType =
        some ((⟨2 ^ 64 - 1, (uleb128 (2 ^ 64 - 1)).length⟩ : UnsignedLEB128),
          ⟨uleb128 (2 ^ 64 - 1), (uleb128 (2 ^ 64 - 1)).length⟩) ∧
      (ConsumableBuffer.new (sleb128 (-2 ^ 63))).consumeUnsizedType =
        (none : Option (SignedLEB128 × ConsumableBuffer)) := by
  obtain ⟨hunsigned, hsigned⟩ := @consumeUnsizedType_leb128 (2 ^ 64 - 1) (by omega) (-2 ^ 63) []
  rw [List.append_nil] at hunsigned hsigned
  rw [if_neg (by omega)] at hsigned
  exact ⟨hunsigned, hsigned⟩

end Solaya
