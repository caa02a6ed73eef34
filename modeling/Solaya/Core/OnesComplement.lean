import Solaya.Core.Bytes
import Mathlib

/-!
# Ones' complement sums (RFC 1071)

The Internet checksum reads a byte string as big-endian 16-bit words, adds
them in a wide accumulator, folds the carries back into the low 16 bits (the
end-around carry) and complements the result.  Folding keeps the sum modulo
`0xFFFF`, since `0x10000` is `1` there, and a non-zero sum never folds to `0`.

`checksumSlot_folds` is the fact every checksum field rests on: when the slot
of a word-aligned checksum field holds the complement of the folded sum taken
with the slot zeroed, the folded sum of the whole string is `0xFFFF`, so a
receiver that recomputes the checksum over it gets `0`.
-/

namespace Solaya.OnesComplement

open Solaya.Bytes

/-- `while sum >> 16 != 0 { sum = (sum & 0xffff) + (sum >> 16) }`, for at
most `fuel` turns. -/
def foldCarriesFuel : ℕ → ℕ → ℕ
  | 0, sum => sum
  | fuel + 1, sum =>
    if sum / 65536 = 0 then sum else foldCarriesFuel fuel (sum % 65536 + sum / 65536)

/-- The end-around-carry loop.  Each turn takes at least `0xFFFF` off a sum of
`0x10000` or more, so `sum` turns are more than it ever runs
(`foldCarries_lt`). -/
def foldCarries (sum : ℕ) : ℕ := foldCarriesFuel sum sum

/-- The byte string as big-endian 16-bit words, summed; an odd last byte is
the high byte of a word whose low byte is zero. -/
def wordSum : List UInt8 → ℕ
  | b0 :: b1 :: rest => (256 * b0.toNat + b1.toNat) + wordSum rest
  | [b] => 256 * b.toNat
  | [] => 0

-- The loop's two equations, which the lemmas below rewrite with.
theorem foldCarriesFuel_zero (sum : ℕ) : foldCarriesFuel 0 sum = sum := rfl

theorem foldCarriesFuel_succ (fuel sum : ℕ) :
    foldCarriesFuel (fuel + 1) sum =
      if sum / 65536 = 0 then sum else foldCarriesFuel fuel (sum % 65536 + sum / 65536) := rfl

theorem foldCarries_of_lt {sum : ℕ} (h : sum < 65536) : foldCarries sum = sum := by
  unfold foldCarries
  cases sum with
  | zero => rfl
  | succ sum => rw [foldCarriesFuel_succ, if_pos (by omega)]

/-- The loop ends below `0x10000` when its budget exceeds the sum by at most
`0xFFFF`: the invariant `sum ≤ fuel + 0xFFFF` survives every turn. -/
theorem foldCarriesFuel_lt (fuel sum : ℕ) (h : sum ≤ fuel + 65535) :
    foldCarriesFuel fuel sum < 65536 := by
  induction fuel generalizing sum with
  | zero => rw [foldCarriesFuel_zero]; omega
  | succ fuel ih =>
    rw [foldCarriesFuel_succ]
    split
    · omega
    · exact ih _ (by omega)

theorem foldCarries_lt (sum : ℕ) : foldCarries sum < 65536 :=
  foldCarriesFuel_lt sum sum (by omega)

/-- Folding is the identity modulo `0xFFFF`. -/
theorem foldCarries_mod (sum : ℕ) : foldCarries sum % 65535 = sum % 65535 := by
  suffices h : ∀ fuel sum, foldCarriesFuel fuel sum % 65535 = sum % 65535 from h sum sum
  intro fuel
  induction fuel with
  | zero => intro sum; rfl
  | succ fuel ih =>
    intro sum
    rw [foldCarriesFuel_succ]
    split
    · rfl
    · rw [ih]; omega

theorem foldCarries_pos {sum : ℕ} (h : 0 < sum) : 0 < foldCarries sum := by
  suffices hfuel : ∀ fuel sum, 0 < sum → 0 < foldCarriesFuel fuel sum from hfuel sum sum h
  intro fuel
  induction fuel with
  | zero => intro sum hsum; exact hsum
  | succ fuel ih =>
    intro sum hsum
    rw [foldCarriesFuel_succ]
    split
    · exact hsum
    · exact ih _ (by omega)

/-- Adding the complement of the folded sum makes the folded sum `0xFFFF`. -/
theorem foldCarries_add_complement (sum : ℕ) :
    foldCarries (sum + (65535 - foldCarries sum)) = 65535 := by
  have hlt := foldCarries_lt sum
  have hmod := foldCarries_mod sum
  have htotal_pos : 0 < sum + (65535 - foldCarries sum) := by
    rcases Nat.eq_zero_or_pos sum with hzero | hpos
    · subst hzero
      rw [foldCarries_of_lt (by omega)]
      omega
    · omega
  have hfold_pos := foldCarries_pos htotal_pos
  have hfold_lt := foldCarries_lt (sum + (65535 - foldCarries sum))
  have hfold_mod := foldCarries_mod (sum + (65535 - foldCarries sum))
  omega

@[simp]
theorem wordSum_nil : wordSum [] = 0 := rfl

theorem wordSum_append_of_even {pre : List UInt8} (hpre : Even pre.length) (rest : List UInt8) :
    wordSum (pre ++ rest) = wordSum pre + wordSum rest := by
  induction pre using wordSum.induct with
  | case1 b0 b1 pre ih =>
    have heven : Even pre.length := by
      simpa [List.length_cons, Nat.even_add_one] using hpre
    simp only [List.cons_append, wordSum, ih heven]
    omega
  | case2 b => simp at hpre
  | case3 => simp

/-- A 16-bit field contributes its value as one word. -/
@[simp]
theorem wordSum_encodeBE_two (x : ℕ) : wordSum (encodeBE 2 x) = x % 65536 := by
  simp only [encodeBE, List.nil_append, List.cons_append, wordSum, UInt8.toNat_ofNat']
  omega

/-- The word sum of a string with a word-aligned 16-bit field, in terms of
the field's value. -/
theorem wordSum_slot {pre : List UInt8} (hpre : Even pre.length) (x : ℕ) (post : List UInt8) :
    wordSum (pre ++ encodeBE 2 x ++ post) = wordSum pre + x % 65536 + wordSum post := by
  have hslot : Even (pre ++ encodeBE 2 x).length := by
    rw [List.length_append, length_encodeBE]
    exact hpre.add ⟨1, rfl⟩
  rw [wordSum_append_of_even hslot, wordSum_append_of_even hpre, wordSum_encodeBE_two]

/-- A checksum slot filled with the complement of the folded sum taken with
the slot zeroed makes the folded sum of the whole string `0xFFFF`. -/
theorem checksumSlot_folds {pre : List UInt8} (hpre : Even pre.length) (post : List UInt8) :
    foldCarries (wordSum (pre ++ encodeBE 2
        (65535 - foldCarries (wordSum (pre ++ encodeBE 2 0 ++ post))) ++ post)) = 65535 := by
  have hzero := wordSum_slot hpre 0 post
  have hslot := wordSum_slot hpre
    (65535 - foldCarries (wordSum (pre ++ encodeBE 2 0 ++ post))) post
  have hvalue : (65535 - foldCarries (wordSum (pre ++ encodeBE 2 0 ++ post))) % 65536 =
      65535 - foldCarries (wordSum (pre ++ encodeBE 2 0 ++ post)) := Nat.mod_eq_of_lt (by omega)
  rw [hslot, hvalue]
  have htotal : wordSum pre + (65535 - foldCarries (wordSum (pre ++ encodeBE 2 0 ++ post))) +
      wordSum post = wordSum (pre ++ encodeBE 2 0 ++ post) +
        (65535 - foldCarries (wordSum (pre ++ encodeBE 2 0 ++ post))) := by
    rw [hzero]
    omega
  rw [htotal, foldCarries_add_complement]

/-! ## The reference definition

RFC 1071 defines the checksum word by word: the one's complement sum of the
16-bit words, each addition carrying out of bit 15 back into bit 0, then
complemented.  A one's complement sum of 16-bit words is determined by three
facts, whichever way it was computed: it is at most `0xFFFF`, it is the plain
sum modulo `0xFFFF`, and it is zero only for a zero sum (`eq_of_mod_of_le`).
-/

/-- One's complement addition of 16-bit words: a carry out of bit 15 comes
back in at bit 0. -/
def onesAdd (a b : ℕ) : ℕ :=
  if a + b < 65536 then a + b else a + b - 65535

/-- The big-endian 16-bit words of a byte string; an odd last byte is padded
with a zero byte. -/
def words : List UInt8 → List ℕ
  | b0 :: b1 :: rest => (256 * b0.toNat + b1.toNat) :: words rest
  | [b] => [256 * b.toNat]
  | [] => []

/-- The RFC 1071 checksum of a byte string. -/
def rfc1071Checksum (bytes : List UInt8) : UInt16 :=
  ~~~(UInt16.ofNat ((words bytes).foldl onesAdd 0))

/-- Two 16-bit one's complement sums agree when their residues modulo `0xFFFF`
do and they are zero together. -/
theorem eq_of_mod_of_le {x y : ℕ} (hx : x ≤ 65535) (hy : y ≤ 65535)
    (hmod : x % 65535 = y % 65535) (hzero : x = 0 ↔ y = 0) : x = y := by
  omega

theorem wordSum_eq_sum_words (bytes : List UInt8) : wordSum bytes = (words bytes).sum := by
  induction bytes using wordSum.induct with
  | case1 b0 b1 rest ih => simp only [wordSum, words, List.sum_cons, ih]
  | case2 b => simp [wordSum, words]
  | case3 => rfl

theorem lt_of_mem_words {bytes : List UInt8} {w : ℕ} (hw : w ∈ words bytes) : w < 65536 := by
  induction bytes using wordSum.induct with
  | case1 b0 b1 rest ih =>
    rcases List.mem_cons.mp hw with rfl | hrest
    · have := b0.toNat_lt
      have := b1.toNat_lt
      omega
    · exact ih hrest
  | case2 b =>
    rw [words, List.mem_singleton] at hw
    have := b.toNat_lt
    omega
  | case3 => simp [words] at hw

/-- The word-by-word sum keeps the three facts that pin it down: its bound,
its residue and whether it is zero, from an accumulator below `0x10000`. -/
theorem foldl_onesAdd (ws : List ℕ) (hws : ∀ w ∈ ws, w < 65536) {acc : ℕ} (hacc : acc ≤ 65535) :
    ws.foldl onesAdd acc ≤ 65535 ∧ ws.foldl onesAdd acc % 65535 = (acc + ws.sum) % 65535 ∧
      (ws.foldl onesAdd acc = 0 ↔ acc + ws.sum = 0) := by
  induction ws generalizing acc with
  | nil => simpa using hacc
  | cons w ws ih =>
    have hw := hws w List.mem_cons_self
    have hstep : onesAdd acc w ≤ 65535 ∧ onesAdd acc w % 65535 = (acc + w) % 65535 ∧
        (onesAdd acc w = 0 ↔ acc + w = 0) := by
      unfold onesAdd
      split <;> omega
    obtain ⟨hle, hmod, hzero⟩ := ih (fun w' hw' => hws w' (List.mem_cons_of_mem w hw')) hstep.1
    rw [List.foldl_cons, List.sum_cons]
    refine ⟨hle, ?_, ?_⟩
    · rw [hmod]
      omega
    · rw [hzero]
      omega

/-- The carry fold of the plain sum is the RFC's word-by-word sum. -/
theorem foldCarries_wordSum (bytes : List UInt8) :
    foldCarries (wordSum bytes) = (words bytes).foldl onesAdd 0 := by
  obtain ⟨hle, hmod, hzero⟩ := foldl_onesAdd (words bytes) (fun _ => lt_of_mem_words)
    (Nat.zero_le 65535)
  rw [Nat.zero_add, ← wordSum_eq_sum_words] at hmod hzero
  have hfold_zero : foldCarries (wordSum bytes) = 0 ↔ wordSum bytes = 0 := by
    constructor
    · intro h
      by_contra hne
      exact absurd h (Nat.pos_iff_ne_zero.mp (foldCarries_pos (Nat.pos_of_ne_zero hne)))
    · intro h
      rw [h]
      rfl
  apply eq_of_mod_of_le (Nat.le_of_lt_succ (foldCarries_lt _)) hle
  · rw [foldCarries_mod, hmod]
  · rw [hfold_zero, hzero]

/-- A byte string of length `len` sums to at most `0xFFFF` per word. -/
theorem wordSum_le (bytes : List UInt8) : wordSum bytes ≤ 65535 * ((bytes.length + 1) / 2) := by
  induction bytes using wordSum.induct with
  | case1 b0 b1 rest ih =>
    have := b0.toNat_lt
    have := b1.toNat_lt
    simp only [wordSum, List.length_cons]
    omega
  | case2 b =>
    have := b.toNat_lt
    simp only [wordSum, List.length_singleton]
    omega
  | case3 => simp

/-- The word sum only grows as bytes are appended. -/
theorem wordSum_le_append (bytes rest : List UInt8) : wordSum bytes ≤ wordSum (bytes ++ rest) := by
  induction bytes using wordSum.induct with
  | case1 b0 b1 bytes ih =>
    simp only [List.cons_append, wordSum]
    omega
  | case2 b =>
    cases rest with
    | nil => simp
    | cons c rest =>
      simp only [List.cons_append, List.nil_append, wordSum]
      omega
  | case3 => exact Nat.zero_le _

end Solaya.OnesComplement
