import Solaya.Core.OnesComplement

/-!
# `ones_complement_checksum`

`net/checksum.rs` sums several byte slices as one RFC 1071 string without
concatenating them: a slice of odd length leaves its last byte over, and that
byte becomes the high byte of a word with the first byte of the next
non-empty slice.  The model keeps that loop as it is (`sumPairs` is the inner
`while`, `addSlice` one turn of the outer `for`); `onesComplementChecksum_eq`
then shows it computes the RFC checksum of the concatenation, which is what
the header code relies on when it passes a pseudo header, a header and a
payload as separate slices.

The accumulator is a `u32`; every call in the network code sums at most
`12 + 65535` bytes, so it stays below `2^31` and is modelled as a natural
number.
-/

namespace Solaya.Net

open Solaya.Bytes Solaya.OnesComplement

/-- The inner `while i + 1 < slice.len()` loop: adds the byte pairs of a slice
to `sum` and returns the odd byte left at its end. -/
def sumPairs (sum : ℕ) : List UInt8 → ℕ × Option UInt8
  | b0 :: b1 :: rest => sumPairs (sum + (256 * b0.toNat + b1.toNat)) rest
  | [b] => (sum, some b)
  | [] => (sum, none)

/-- One turn of the outer loop: a byte left over from the previous slice is
the high byte of a word with this slice's first byte; an empty slice keeps
it pending. -/
def addSlice : ℕ × Option UInt8 → List UInt8 → ℕ × Option UInt8
  | (sum, some high), b :: rest => sumPairs (sum + (256 * high.toNat + b.toNat)) rest
  | (sum, some high), [] => (sum, some high)
  | (sum, none), slice => sumPairs sum slice

/-- `ones_complement_checksum`: the final leftover byte is a high byte, the
carries are folded and the result complemented.  The `expect` on
`u16::try_from` cannot fire, since the fold ends below `2^16`
(`foldCarries_lt`). -/
def onesComplementChecksum (slices : List (List UInt8)) : UInt16 :=
  let (sum, leftover) := slices.foldl addSlice (0, none)
  let sum := match leftover with
    | some high => sum + high.toNat * 256
    | none => sum
  ~~~(UInt16.ofNat (foldCarries sum))

/-- The byte a pending `leftover` stands for. -/
def pending : Option UInt8 → List UInt8
  | some b => [b]
  | none => []

theorem sumPairs_append (sum : ℕ) (l rest : List UInt8) :
    sumPairs sum (l ++ rest) =
      sumPairs (sumPairs sum l).1 (pending (sumPairs sum l).2 ++ rest) := by
  induction sum, l using sumPairs.induct with
  | case1 sum b0 b1 l ih => simpa only [List.cons_append, sumPairs] using ih
  | case2 sum b => simp [sumPairs, pending]
  | case3 sum => simp [sumPairs, pending]

theorem addSlice_eq (sum : ℕ) (leftover : Option UInt8) (slice : List UInt8) :
    addSlice (sum, leftover) slice = sumPairs sum (pending leftover ++ slice) := by
  cases leftover with
  | none => rfl
  | some high =>
    cases slice with
    | nil => rfl
    | cons b rest => rfl

/-- The outer loop is the inner loop over the concatenation of the slices,
after the pending byte. -/
theorem foldl_addSlice (slices : List (List UInt8)) (sum : ℕ) (leftover : Option UInt8) :
    slices.foldl addSlice (sum, leftover) =
      sumPairs sum (pending leftover ++ slices.flatten) := by
  induction slices generalizing sum leftover with
  | nil =>
    cases leftover <;> rfl
  | cons slice slices ih =>
    rw [List.foldl_cons, addSlice_eq, List.flatten_cons, ← List.append_assoc,
      sumPairs_append sum (pending leftover ++ slice)]
    exact ih _ _

/-- What the inner loop leaves, counted with its pending byte, is the RFC 1071
word sum. -/
theorem sumPairs_wordSum (sum : ℕ) (l : List UInt8) :
    (sumPairs sum l).1 + wordSum (pending (sumPairs sum l).2) = sum + wordSum l := by
  induction sum, l using sumPairs.induct with
  | case1 sum b0 b1 l ih =>
    simp only [sumPairs, wordSum] at ih ⊢
    omega
  | case2 sum b => simp [sumPairs, pending, wordSum]
  | case3 sum => simp [sumPairs, pending]

/-- `ones_complement_checksum` is the RFC 1071 checksum of the concatenated
slices. -/
theorem onesComplementChecksum_eq (slices : List (List UInt8)) :
    onesComplementChecksum slices = ~~~(UInt16.ofNat (foldCarries (wordSum slices.flatten))) := by
  have hrun := sumPairs_wordSum 0 slices.flatten
  rw [onesComplementChecksum, foldl_addSlice, pending, List.nil_append]
  cases hleft : (sumPairs 0 slices.flatten).2 with
  | none =>
    rw [hleft, pending, wordSum_nil] at hrun
    simp only [hleft]
    rw [← Nat.zero_add (wordSum _), ← hrun, Nat.add_zero]
  | some high =>
    rw [hleft, pending, wordSum] at hrun
    simp only [hleft]
    rw [← Nat.zero_add (wordSum _), ← hrun, Nat.mul_comm]

theorem toNat_onesComplementChecksum (slices : List (List UInt8)) :
    (onesComplementChecksum slices).toNat = 65535 - foldCarries (wordSum slices.flatten) := by
  have hlt := foldCarries_lt (wordSum slices.flatten)
  rw [onesComplementChecksum_eq, UInt16.toNat_not, UInt16.toNat_ofNat', Nat.mod_eq_of_lt hlt]
  rfl

/-- The receiver's check: a word-aligned checksum field that holds the
checksum computed with the field zeroed makes the checksum of the whole string
zero. -/
theorem onesComplementChecksum_slot {pre : List UInt8} (hpre : Even pre.length)
    (post : List UInt8) :
    onesComplementChecksum
        [pre ++ encodeBE 2 (onesComplementChecksum [pre ++ encodeBE 2 0 ++ post]).toNat ++ post] =
      0 := by
  have hfold := checksumSlot_folds hpre post
  rw [toNat_onesComplementChecksum, List.flatten_singleton]
  rw [onesComplementChecksum_eq, List.flatten_singleton, hfold]
  rfl

/-- The accumulator after the loop has consumed `l` is at most the word sum
of `l`. -/
theorem sumPairs_le_wordSum (l : List UInt8) : (sumPairs 0 l).1 ≤ wordSum l := by
  have h := sumPairs_wordSum 0 l
  omega

/-- `ones_complement_checksum` is the RFC 1071 checksum of the concatenated
slices, so it does not depend on where the slices are cut.  Below `2^17`
bytes the `u32` accumulator does not overflow: after any prefix `l` of the
bytes it holds `(sumPairs 0 l).1` (`foldl_addSlice`), then the padded sum, the
word sum of all bytes, and the carry fold only makes it smaller. -/
theorem onesComplementChecksum_eq_rfc1071 (slices : List (List UInt8))
    (hlen : slices.flatten.length < 2 ^ 17) :
    onesComplementChecksum slices = rfc1071Checksum slices.flatten ∧
      (∀ slices', slices'.flatten = slices.flatten →
        onesComplementChecksum slices' = onesComplementChecksum slices) ∧
      (∀ l, l <+: slices.flatten → (sumPairs 0 l).1 < 2 ^ 32) ∧
      wordSum slices.flatten < 2 ^ 32 := by
  have htotal : wordSum slices.flatten < 2 ^ 32 := by
    have := wordSum_le slices.flatten
    have hwords : (slices.flatten.length + 1) / 2 ≤ 65536 := by omega
    have := Nat.mul_le_mul_left 65535 hwords
    omega
  refine ⟨?_, fun slices' hsame => ?_, fun l hprefix => ?_, htotal⟩
  · rw [onesComplementChecksum_eq, rfc1071Checksum, foldCarries_wordSum]
  · rw [onesComplementChecksum_eq, onesComplementChecksum_eq, hsame]
  · obtain ⟨rest, hrest⟩ := hprefix
    calc (sumPairs 0 l).1 ≤ wordSum l := sumPairs_le_wordSum l
      _ ≤ wordSum (l ++ rest) := wordSum_le_append l rest
      _ = wordSum slices.flatten := by rw [hrest]
      _ < 2 ^ 32 := htotal

/-- A split that puts the odd byte of the first word in its own slice, with an
empty slice after it. -/
theorem onesComplementChecksum_eq_rfc1071_split :
    (([[0x45], [], [0x00, 0x1c, 0x7f]] : List (List UInt8)).flatten.length < 2 ^ 17) ∧
      onesComplementChecksum [[0x45], [], [0x00, 0x1c, 0x7f]] =
          rfc1071Checksum [0x45, 0x00, 0x1c, 0x7f] ∧
        (∀ slices' : List (List UInt8), slices'.flatten = [0x45, 0x00, 0x1c, 0x7f] →
          onesComplementChecksum slices' = onesComplementChecksum [[0x45], [], [0x00, 0x1c, 0x7f]]) ∧
        (∀ l, l <+: [0x45, 0x00, 0x1c, 0x7f] → (sumPairs 0 l).1 < 2 ^ 32) ∧
        wordSum [0x45, 0x00, 0x1c, 0x7f] < 2 ^ 32 :=
  ⟨by decide, onesComplementChecksum_eq_rfc1071 [[0x45], [], [0x00, 0x1c, 0x7f]] (by decide)⟩

end Solaya.Net
