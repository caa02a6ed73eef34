import Mathlib.Tactic.Ring
import Mathlib.Tactic.Linarith

/-!
# Address arithmetic of `klibc::util`

The kernel is built with `overflow-checks = true`, so an arithmetic overflow on
`usize` is a panic.  Values are modelled as natural numbers and every place
where the source could overflow compares against `usizeMax` explicitly.

`align_up` is the kernel's own rounding helper; its lemmas below are the only
facts about it the other modules use.
-/

namespace Solaya

/-- `usize::MAX` on the 64-bit target. -/
def usizeMax : ℕ := 2 ^ 64 - 1

/-- `isize::MAX` on the 64-bit target: no allocation may exceed it. -/
def isizeMax : ℕ := 2 ^ 63 - 1

/-- `memory::page::PAGE_SIZE`. -/
def pageSize : ℕ := 4096

/-- `klibc::sizes::MiB(2)`. -/
def mib2 : ℕ := 2 * 2 ^ 20

/-- `klibc::sizes::GiB(1)`. -/
def gib1 : ℕ := 2 ^ 30

/-- `usize` addition with overflow checks: `none` is the panic. -/
def checkedAdd (a b : ℕ) : Option ℕ :=
  if usizeMax < a + b then none else some (a + b)

/-- `usize` multiplication with overflow checks: `none` is the panic. -/
def checkedMul (a b : ℕ) : Option ℕ :=
  if usizeMax < a * b then none else some (a * b)

/-- `usize` subtraction with overflow checks: `none` is the panic. -/
def checkedSub (a b : ℕ) : Option ℕ :=
  if a < b then none else some (a - b)

/-- `as isize` on a `usize`: the same bits, read in two's complement. -/
def usizeAsIsize (value : ℕ) : ℤ :=
  if value < 2 ^ 63 then value else value - 2 ^ 64

/-- `isize::checked_add`. -/
def checkedAddIsize (a b : ℤ) : Option ℤ :=
  if a + b < -2 ^ 63 ∨ (isizeMax : ℤ) < a + b then none else some (a + b)

/-- `klibc::util::align_up`: round `value` up to a multiple of `alignment`. -/
def alignUp (value alignment : ℕ) : ℕ :=
  let remainder := value % alignment
  if remainder = 0 then value else value + alignment - remainder

/-- `align_up` as the kernel evaluates it on `usize`: `value + alignment` is
computed before the remainder is taken off and panics when it overflows. -/
def alignUpChecked (value alignment : ℕ) : Option ℕ :=
  if value % alignment = 0 then some value
  else if usizeMax < value + alignment then none
  else some (value + alignment - value % alignment)

/-- `klibc::util::minimum_amount_of_pages`. -/
def minimumAmountOfPages (value : ℕ) : ℕ :=
  alignUp value pageSize / pageSize

/-- `klibc::util::is_aligned`. -/
def isAligned (value alignment : ℕ) : Bool :=
  value % alignment == 0

/-- `klibc::util::align_down_ptr` for a power-of-two alignment: clearing the low
bits is rounding down to a multiple. -/
def alignDown (value alignment : ℕ) : ℕ :=
  value / alignment * alignment

theorem alignUp_of_mod_eq_zero {value alignment : ℕ} (h : value % alignment = 0) :
    alignUp value alignment = value := by
  simp [alignUp, h]

theorem alignUp_of_mod_ne_zero {value alignment : ℕ} (h : value % alignment ≠ 0) :
    alignUp value alignment = value + alignment - value % alignment := by
  simp [alignUp, h]

theorem le_alignUp {value alignment : ℕ} (halign : 0 < alignment) :
    value ≤ alignUp value alignment := by
  by_cases h : value % alignment = 0
  · rw [alignUp_of_mod_eq_zero h]
  · rw [alignUp_of_mod_ne_zero h]
    have hlt : value % alignment < alignment := Nat.mod_lt _ halign
    omega

theorem alignUp_mod {value alignment : ℕ} (halign : 0 < alignment) :
    alignUp value alignment % alignment = 0 := by
  by_cases h : value % alignment = 0
  · rw [alignUp_of_mod_eq_zero h, h]
  · rw [alignUp_of_mod_ne_zero h]
    have hlt : value % alignment < alignment := Nat.mod_lt _ halign
    have hsplit : value + alignment - value % alignment =
        (value / alignment + 1) * alignment := by
      have := Nat.div_add_mod value alignment
      rw [Nat.add_mul, one_mul]
      nth_rewrite 1 [← this]
      rw [mul_comm]
      omega
    rw [hsplit, Nat.mul_mod_left]

theorem alignUp_lt_add {value alignment : ℕ} (halign : 0 < alignment) :
    alignUp value alignment < value + alignment := by
  by_cases h : value % alignment = 0
  · rw [alignUp_of_mod_eq_zero h]
    omega
  · rw [alignUp_of_mod_ne_zero h]
    omega

/-- The multiples of `alignment` at or above `value` all lie at or above
`align_up value alignment`. -/
theorem alignUp_le_of_dvd {value alignment bound : ℕ} (halign : 0 < alignment)
    (hle : value ≤ bound) (hdvd : bound % alignment = 0) :
    alignUp value alignment ≤ bound := by
  by_cases h : value % alignment = 0
  · rw [alignUp_of_mod_eq_zero h]
    exact hle
  · rw [alignUp_of_mod_ne_zero h]
    have hv := Nat.div_add_mod value alignment
    have hb := Nat.div_add_mod bound alignment
    rw [hdvd, add_zero] at hb
    have hq : value / alignment < bound / alignment := by
      by_contra hlt
      have hge := Nat.le_of_not_lt hlt
      have : alignment * (bound / alignment) ≤ alignment * (value / alignment) :=
        Nat.mul_le_mul_left _ hge
      omega
    have : alignment * (value / alignment + 1) ≤ alignment * (bound / alignment) :=
      Nat.mul_le_mul_left _ hq
    rw [Nat.mul_add, mul_one] at this
    omega

theorem alignUp_mono {value value' alignment : ℕ} (halign : 0 < alignment) (hle : value ≤ value') :
    alignUp value alignment ≤ alignUp value' alignment :=
  alignUp_le_of_dvd halign (hle.trans (le_alignUp halign)) (alignUp_mod halign)

/-- Rounding up past a multiple of `alignment` rounds up what lies beyond it. -/
theorem alignUp_add_of_mod_eq_zero {base value alignment : ℕ} (hbase : base % alignment = 0) :
    alignUp (base + value) alignment = base + alignUp value alignment := by
  have hmod : (base + value) % alignment = value % alignment := by
    rw [Nat.add_mod, hbase, zero_add, Nat.mod_mod]
  have hle := Nat.mod_le value alignment
  unfold alignUp
  simp only [hmod]
  split_ifs <;> omega

theorem checkedAdd_eq_some {a b c : ℕ} (h : checkedAdd a b = some c) :
    c = a + b ∧ a + b ≤ usizeMax := by
  unfold checkedAdd at h
  split_ifs at h with hover
  exact ⟨(Option.some.inj h).symm, Nat.le_of_not_lt hover⟩

theorem checkedAdd_of_le {a b : ℕ} (h : a + b ≤ usizeMax) : checkedAdd a b = some (a + b) := by
  simp [checkedAdd, Nat.not_lt.mpr h]

theorem checkedAdd_of_lt {a b : ℕ} (h : usizeMax < a + b) : checkedAdd a b = none := by
  simp [checkedAdd, h]

theorem checkedMul_of_le {a b : ℕ} (h : a * b ≤ usizeMax) : checkedMul a b = some (a * b) := by
  simp [checkedMul, Nat.not_lt.mpr h]

theorem checkedMul_of_lt {a b : ℕ} (h : usizeMax < a * b) : checkedMul a b = none := by
  simp [checkedMul, h]

theorem checkedSub_of_le {a b : ℕ} (h : b ≤ a) : checkedSub a b = some (a - b) := by
  simp [checkedSub, Nat.not_lt.mpr h]

theorem checkedSub_eq_some {a b c : ℕ} (h : checkedSub a b = some c) : b ≤ a ∧ c = a - b := by
  unfold checkedSub at h
  split_ifs at h with hlt
  exact ⟨Nat.le_of_not_lt hlt, (Option.some.inj h).symm⟩

theorem alignUpChecked_eq_some {value alignment aligned : ℕ}
    (h : alignUpChecked value alignment = some aligned) :
    aligned = alignUp value alignment := by
  unfold alignUpChecked at h
  split_ifs at h with hzero
  · rw [alignUp_of_mod_eq_zero hzero, Option.some.inj h]
  · rw [alignUp_of_mod_ne_zero hzero, Option.some.inj h]

theorem alignUpChecked_of_le {value alignment : ℕ} (h : value + alignment ≤ usizeMax) :
    alignUpChecked value alignment = some (alignUp value alignment) := by
  unfold alignUpChecked
  split_ifs with hzero hover
  · rw [alignUp_of_mod_eq_zero hzero]
  · omega
  · rw [alignUp_of_mod_ne_zero hzero]

theorem alignDown_le (value alignment : ℕ) : alignDown value alignment ≤ value :=
  Nat.div_mul_le_self _ _

theorem alignDown_mono {value value' : ℕ} (alignment : ℕ) (h : value ≤ value') :
    alignDown value alignment ≤ alignDown value' alignment :=
  Nat.mul_le_mul_right _ (Nat.div_le_div_right h)

theorem alignDown_of_mod_eq_zero {value alignment : ℕ} (h : value % alignment = 0) :
    alignDown value alignment = value :=
  Nat.div_mul_cancel (Nat.dvd_of_mod_eq_zero h)

theorem alignDown_mod (value alignment : ℕ) : alignDown value alignment % alignment = 0 :=
  Nat.mul_mod_left _ _

@[simp]
theorem isAligned_iff (value alignment : ℕ) :
    isAligned value alignment = true ↔ value % alignment = 0 := by
  simp [isAligned]

theorem usizeAsIsize_of_le {x : ℕ} (h : x ≤ isizeMax) : usizeAsIsize x = x := by
  unfold isizeMax at h
  rw [usizeAsIsize, if_pos (by omega)]

end Solaya
