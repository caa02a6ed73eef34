import Mathlib.Data.Int.Basic
import Mathlib.Algebra.Order.Group.Nat
import Mathlib.Algebra.Group.Nat.Defs
import Mathlib.Algebra.Ring.Int.Defs

/-!
# LEB128

The variable-length integer encodings of DWARF (version 5, section 7.6).  An
unsigned value is written as its base-128 digits, least significant first, with
bit 7 set on every byte but the last (`uleb128`).  A signed value is written in
two's complement the same way, and the encoding stops at the first digit after
which the rest of the value is the sign extension of that digit's bit 6
(`sleb128`).

A decoder reads the low seven bits of each byte (`digitsValue`).  For the
signed encoding that is the value plus `2^(7n)` when the value is negative,
`n` being the encoding's length (`digitsValue_sleb128`).  An encoding of `n`
bytes holds exactly the values in `[-2^(7n-1), 2^(7n-1))`
(`fits_length_sleb128`, `length_sleb128_le`).
-/

namespace Solaya.Leb128

/-- The unsigned LEB128 encoding. -/
def uleb128 (v : ℕ) : List UInt8 :=
  if v < 128 then [UInt8.ofNat v]
  else UInt8.ofNat (v % 128 + 128) :: uleb128 (v / 128)
termination_by v
decreasing_by omega

/-- The signed LEB128 encoding.  `v % 128` is the low seven bits of `v` and
`v / 128` its arithmetic shift right by seven. -/
def sleb128 (v : ℤ) : List UInt8 :=
  let byte := (v % 128).toNat
  if (v / 128 = 0 ∧ byte < 64) ∨ (v / 128 = -1 ∧ 64 ≤ byte) then [UInt8.ofNat byte]
  else UInt8.ofNat (byte + 128) :: sleb128 (v / 128)
termination_by v.natAbs
decreasing_by omega

/-- What the low seven bits of the bytes denote, least significant first. -/
def digitsValue : List UInt8 → ℕ
  | [] => 0
  | byte :: rest => (byte.toNat &&& 0x7f) + 128 * digitsValue rest

@[simp]
theorem digitsValue_nil : digitsValue [] = 0 := rfl

@[simp]
theorem digitsValue_cons (byte : UInt8) (rest : List UInt8) :
    digitsValue (byte :: rest) = (byte.toNat &&& 0x7f) + 128 * digitsValue rest := rfl

/-! ## The bytes -/

theorem toNat_ofNat_of_lt {x : ℕ} (h : x < 256) : (UInt8.ofNat x).toNat = x := by
  rw [UInt8.toNat_ofNat', Nat.mod_eq_of_lt h]

/-- A last byte: its low seven bits are the digit and bit 7 is clear. -/
theorem last_byte_bits : ∀ x, x < 128 → x &&& 0x7f = x ∧ x &&& 0x80 = 0 := by
  decide

/-- A byte with bit 7 set: its low seven bits are the digit. -/
theorem continued_byte_bits : ∀ x, x < 128 → (x + 128) &&& 0x7f = x ∧ (x + 128) &&& 0x80 ≠ 0 := by
  decide

/-- Bit 6 of a digit is its top bit. -/
theorem sign_bit_iff : ∀ x, x < 128 → (x &&& 0x40 = 0 ↔ x < 64) := by
  decide

/-! ## Unsigned -/

-- The one unfolding of `uleb128`, which its two cases below rewrite with.
theorem uleb128_eq (v : ℕ) :
    uleb128 v = if v < 128 then [UInt8.ofNat v] else UInt8.ofNat (v % 128 + 128) :: uleb128 (v / 128) := by
  rw [uleb128]

theorem uleb128_of_lt {v : ℕ} (h : v < 128) : uleb128 v = [UInt8.ofNat v] := by
  rw [uleb128_eq, if_pos h]

theorem uleb128_of_le {v : ℕ} (h : 128 ≤ v) :
    uleb128 v = UInt8.ofNat (v % 128 + 128) :: uleb128 (v / 128) := by
  rw [uleb128_eq, if_neg (Nat.not_lt.mpr h)]

/-! ## Signed -/

/-- Where `sleb128` stops: the rest of the value is the sign extension of the
digit's bit 6. -/
def Stops (v : ℤ) : Prop :=
  (v / 128 = 0 ∧ (v % 128).toNat < 64) ∨ (v / 128 = -1 ∧ 64 ≤ (v % 128).toNat)

-- The one unfolding of `sleb128`, which its two cases below rewrite with.
theorem sleb128_eq (v : ℤ) :
    sleb128 v =
      if (v / 128 = 0 ∧ (v % 128).toNat < 64) ∨ (v / 128 = -1 ∧ 64 ≤ (v % 128).toNat) then
        [UInt8.ofNat (v % 128).toNat]
      else UInt8.ofNat ((v % 128).toNat + 128) :: sleb128 (v / 128) := by
  rw [sleb128]

theorem sleb128_of_stops {v : ℤ} (h : Stops v) :
    sleb128 v = [UInt8.ofNat (v % 128).toNat] := by
  rw [sleb128_eq]
  exact if_pos h

theorem sleb128_of_not_stops {v : ℤ} (h : ¬Stops v) :
    sleb128 v = UInt8.ofNat ((v % 128).toNat + 128) :: sleb128 (v / 128) := by
  rw [sleb128_eq]
  exact if_neg h

/-- The values that stop after one digit are those of seven signed bits. -/
theorem stops_iff {v : ℤ} : Stops v ↔ -64 ≤ v ∧ v < 64 := by
  unfold Stops
  omega

theorem digit_lt (v : ℤ) : (v % 128).toNat < 128 := by
  omega

/-- The signed encoding keeps the sign at every digit. -/
theorem neg_iff_of_not_stops {v : ℤ} (h : ¬Stops v) : v / 128 < 0 ↔ v < 0 := by
  have hrange : ¬(-64 ≤ v ∧ v < 64) := fun hr => h (stops_iff.mpr hr)
  omega

theorem sleb128_ne_nil (v : ℤ) : sleb128 v ≠ [] := by
  by_cases h : Stops v
  · rw [sleb128_of_stops h]
    exact List.cons_ne_nil _ _
  · rw [sleb128_of_not_stops h]
    exact List.cons_ne_nil _ _

theorem two_pow_seven_mul_succ (n : ℕ) : (2 : ℤ) ^ (7 * (n + 1)) = 128 * 2 ^ (7 * n) := by
  rw [Nat.mul_succ, pow_add, mul_comm]
  rfl

theorem two_pow_seven_mul_even {n : ℕ} (hn : 0 < n) : (2 : ℤ) ^ (7 * n) % 2 = 0 := by
  obtain ⟨m, hm⟩ : ∃ m, 7 * n = m + 1 := ⟨7 * n - 1, by omega⟩
  rw [hm, pow_succ, Int.mul_emod_left]

theorem length_sleb128_pos (v : ℤ) : 0 < (sleb128 v).length :=
  List.length_pos_iff.mpr (sleb128_ne_nil v)

/-- An encoding of `n` bytes holds a value of `7n` signed bits. -/
theorem fits_length_sleb128 (v : ℤ) :
    -(2 : ℤ) ^ (7 * (sleb128 v).length) ≤ 2 * v ∧ 2 * v < 2 ^ (7 * (sleb128 v).length) := by
  induction v using sleb128.induct with
  | case1 v _ hstop =>
    have hrange := stops_iff.mp hstop
    rw [sleb128_of_stops hstop, List.length_singleton]
    omega
  | case2 v _ hcont ih =>
    have heven := two_pow_seven_mul_even (length_sleb128_pos (v / 128))
    rw [sleb128_of_not_stops hcont, List.length_cons, two_pow_seven_mul_succ]
    -- `2^(7n)` is even, so the bound on `2 * (v / 128)` leaves room for the digit
    omega

/-- A value of `7k` signed bits takes at most `k` bytes: the encoding is the
shortest one. -/
theorem length_sleb128_le {v : ℤ} {k : ℕ} (hk : 0 < k)
    (h : -(2 : ℤ) ^ (7 * k) ≤ 2 * v ∧ 2 * v < 2 ^ (7 * k)) : (sleb128 v).length ≤ k := by
  induction v using sleb128.induct generalizing k with
  | case1 v _ =>
    rename_i hstop
    rw [sleb128_of_stops hstop, List.length_singleton]
    exact hk
  | case2 v _ hcont =>
    rename_i ih
    rw [sleb128_of_not_stops hcont, List.length_cons]
    obtain ⟨k, rfl⟩ : ∃ k', k = k' + 1 := ⟨k - 1, by omega⟩
    -- one byte holds every value that does not stop
    have hk' : 0 < k := by
      by_contra hzero
      rw [Nat.eq_zero_of_not_pos hzero] at h
      simp only [Nat.zero_add, Nat.mul_one] at h
      exact hcont (stops_iff.mpr (by omega))
    have heven := two_pow_seven_mul_even hk'
    rw [two_pow_seven_mul_succ] at h
    have := ih hk' (by omega)
    omega

/-- The low seven bits of the encoding denote the value in `7n`-bit two's
complement. -/
theorem digitsValue_sleb128 (v : ℤ) :
    (digitsValue (sleb128 v) : ℤ) = v + if v < 0 then 2 ^ (7 * (sleb128 v).length) else 0 := by
  induction v using sleb128.induct with
  | case1 v _ hstop =>
    have hrange := stops_iff.mp hstop
    rw [sleb128_of_stops hstop, digitsValue_cons, digitsValue_nil,
      toNat_ofNat_of_lt (by have := digit_lt v; omega), (last_byte_bits _ (digit_lt v)).1,
      List.length_singleton, Nat.mul_zero, Nat.add_zero, Nat.mul_one]
    split_ifs <;> omega
  | case2 v _ hcont ih =>
    have hsign := neg_iff_of_not_stops hcont
    rw [sleb128_of_not_stops hcont, digitsValue_cons,
      toNat_ofNat_of_lt (by have := digit_lt v; omega), (continued_byte_bits _ (digit_lt v)).1,
      List.length_cons, two_pow_seven_mul_succ]
    push_cast
    rw [ih]
    split_ifs <;> omega

end Solaya.Leb128
