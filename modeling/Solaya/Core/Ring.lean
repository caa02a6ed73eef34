import Mathlib.Algebra.Group.Nat.Defs

/-!
# Ring indices

A ring of `size` slots is read and written through free-running indices that
wrap at a bound the size divides, as a `u16` index wraps at `2^16` over a ring
of a power of two slots; the slot of an index is the index modulo the size.
Two facts carry every argument about such a ring: wrapping an index at the
bound does not move its slot, and two positions fewer than `size` apart never
share a slot, so a ring that never holds more than `size` entries never
overwrites one it still holds.
-/

namespace Solaya.Ring

/-- Wrapping at a bound the size divides does not move the slot. -/
theorem mod_add_mod_of_dvd {size bound : ℕ} (hdvd : size ∣ bound) (a k : ℕ) :
    (a % bound + k) % size = (a + k) % size := by
  rw [Nat.add_mod, Nat.mod_mod_of_dvd a hdvd, ← Nat.add_mod]

/-- Positions fewer than `size` apart are in different slots. -/
theorem mod_add_ne_of_lt {size : ℕ} (start : ℕ) {k j : ℕ} (hkj : k < j) (hj : j < k + size) :
    (start + k) % size ≠ (start + j) % size := by
  intro h
  have hmod : (start + j - (start + k)) % size = 0 := Nat.sub_mod_eq_zero_of_mod_eq h.symm
  rw [show start + j - (start + k) = j - k by omega] at hmod
  have := Nat.eq_zero_of_dvd_of_lt (Nat.dvd_of_mod_eq_zero hmod) (by omega)
  omega

end Solaya.Ring
