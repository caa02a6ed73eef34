import Solaya.Headers
import Solaya.Klibc.Util
import Mathlib.Algebra.Order.Floor.Semifield
import Mathlib.Data.Rat.Floor

/-!
# Sleeping

`do_nanosleep` and `do_clock_nanosleep` (`syscalls/time_ops.rs`) check the
`timespec` they are given and hand it to `timer::sleep`, which converts it to a
wakeup time on the `rdtime` clock: `tv_sec * freq + tv_nsec * freq / 10^9`
clocks after the current one, computed in `u64`.  The kernel is built with
`overflow-checks = true`.

`sleep_eq` says what `sleep` returns for every accepted `timespec`: the
current clock plus the floor of the requested time in clocks when that sum
fits in `u64`, and a panic when it does not.  The panic is reachable from user
space (`nanosleep({i64::MAX, 0})` on a 10 MHz timebase).
-/

namespace Solaya.Timer

/-- `timespec`: both fields are `i64`. -/
structure Timespec where
  tvSec : ℤ
  tvNsec : ℤ
  deriving DecidableEq, Repr

/-- `timer::Sleep`, the future a sleeping call awaits. -/
structure Sleep where
  wakeupTime : ℕ
  registered : Bool
  deriving DecidableEq, Repr

/-- `Sleep::new`. -/
def Sleep.new (wakeupTime : ℕ) : Sleep := ⟨wakeupTime, false⟩

/-- `u64::try_from` of an `i64`; `?` turns its `TryFromIntError` into `EINVAL`. -/
def u64TryFrom (x : ℤ) : Except Errno ℕ :=
  if x < 0 then .error .einval else .ok x.toNat

/-- `timer::sleep` with `TIMEBASE_FREQ` and the clock `get_current_clocks`
reads.  `none` is the panic of an overflow check; `u64` and `usize` have the
same width here. -/
def sleep (timebaseFreq currentClocks : ℕ) (duration : Timespec) :
    Option (Except Errno Sleep) :=
  match u64TryFrom duration.tvSec with
  | .error e => some (.error e)
  | .ok sec => do
    -- the left operand of `+` is evaluated, and checked, first
    let secClocks ← checkedMul sec timebaseFreq
    match u64TryFrom duration.tvNsec with
    | .error e => some (.error e)
    | .ok nsec => do
      let nsecClocks ← checkedMul nsec timebaseFreq
      let clocks ← checkedAdd secClocks (nsecClocks / 1000000000)
      let wakeupTime ← checkedAdd currentClocks clocks
      pure (.ok (Sleep.new wakeupTime))

/-- The check `do_nanosleep` and `do_clock_nanosleep` make:
`tv_sec < 0 || !(0..=999999999).contains(&tv_nsec)` is `EINVAL`. -/
def timespecInvalid (duration : Timespec) : Bool :=
  duration.tvSec < 0 || !(0 ≤ duration.tvNsec && duration.tvNsec ≤ 999999999)

/-- `do_nanosleep` up to its `await`: the future it awaits, or the error it
returns. -/
def doNanosleep (timebaseFreq currentClocks : ℕ) (duration : Timespec) :
    Option (Except Errno Sleep) :=
  if timespecInvalid duration then some (.error .einval)
  else sleep timebaseFreq currentClocks duration

/-- `CLOCK_REALTIME`. -/
def clockRealtime : ℤ := 0

/-- `CLOCK_MONOTONIC`. -/
def clockMonotonic : ℤ := 1

/-- `do_clock_nanosleep`: `do_nanosleep` behind two asserts on its other
arguments. -/
def doClockNanosleep (timebaseFreq currentClocks : ℕ) (clockid flags : ℤ)
    (request : Timespec) : Option (Except Errno Sleep) :=
  if ¬(clockid = clockMonotonic ∨ clockid = clockRealtime) then none
  else if flags ≠ 0 then none
  else doNanosleep timebaseFreq currentClocks request

/-! ## The requested time in clocks -/

/-- The time a `timespec` asks for, in clocks of a timebase of `timebaseFreq`
Hz, as an exact rational. -/
def requestedClocks (timebaseFreq : ℕ) (duration : Timespec) : ℚ :=
  duration.tvSec * timebaseFreq + duration.tvNsec * timebaseFreq / 10 ^ 9

/-- For an accepted `timespec` the floor of the requested time is what
`sleep` computes in integers: the nanoseconds' part alone is rounded down. -/
theorem floor_requestedClocks {timebaseFreq : ℕ} {duration : Timespec}
    (hvalid : timespecInvalid duration = false) :
    ⌊requestedClocks timebaseFreq duration⌋₊ =
      duration.tvSec.toNat * timebaseFreq +
        duration.tvNsec.toNat * timebaseFreq / 1000000000 := by
  simp only [timespecInvalid, Bool.or_eq_false_iff, decide_eq_false_iff_not, not_lt,
    Bool.not_eq_false', Bool.and_eq_true, decide_eq_true_eq] at hvalid
  obtain ⟨hsec, hnsec, -⟩ := hvalid
  have hsec' : ((duration.tvSec : ℚ)) = ((duration.tvSec.toNat : ℕ) : ℚ) := by
    exact_mod_cast (Int.toNat_of_nonneg hsec).symm
  have hnsec' : ((duration.tvNsec : ℚ)) = ((duration.tvNsec.toNat : ℕ) : ℚ) := by
    exact_mod_cast (Int.toNat_of_nonneg hnsec).symm
  have hdiv : ((duration.tvNsec.toNat : ℕ) : ℚ) * timebaseFreq / 10 ^ 9 =
      ((duration.tvNsec.toNat * timebaseFreq : ℕ) : ℚ) / ((1000000000 : ℕ) : ℚ) := by
    push_cast
    norm_num
  rw [requestedClocks, hsec', hnsec', hdiv, add_comm, ← Nat.cast_mul,
    Nat.floor_add_natCast (by positivity), Nat.floor_div_eq_div, add_comm]

theorem u64TryFrom_of_nonneg {x : ℤ} (h : 0 ≤ x) : u64TryFrom x = .ok x.toNat := by
  simp [u64TryFrom, not_lt.mpr h]

theorem timespecInvalid_eq_false {duration : Timespec} :
    timespecInvalid duration = false ↔
      0 ≤ duration.tvSec ∧ 0 ≤ duration.tvNsec ∧ duration.tvNsec ≤ 999999999 := by
  simp [timespecInvalid]

/-- The nanoseconds of an accepted `timespec` times a `u32` frequency never
overflow: `999999999 * (2^32 - 1) < 2^64`. -/
theorem nsec_mul_le_usizeMax {timebaseFreq : ℕ} {duration : Timespec}
    (hfreq : timebaseFreq < 2 ^ 32) (hvalid : timespecInvalid duration = false) :
    duration.tvNsec.toNat * timebaseFreq ≤ usizeMax := by
  obtain ⟨-, -, hnsec⟩ := timespecInvalid_eq_false.mp hvalid
  have hnsec' : duration.tvNsec.toNat ≤ 999999999 := by omega
  calc duration.tvNsec.toNat * timebaseFreq
      ≤ 999999999 * (2 ^ 32 - 1) := Nat.mul_le_mul hnsec' (by omega)
    _ ≤ usizeMax := by simp [usizeMax]

/-- `timer::sleep` on an accepted `timespec` with a timebase that fits `u32`
(`timer::init` reads it as a big-endian `u32`): the current clock plus the
floor of the requested time when that fits in `u64`, and a panic when it does
not.  Each of the checked operations overflows only when the final sum does. -/
theorem sleep_eq {timebaseFreq currentClocks : ℕ} {duration : Timespec}
    (hfreq : timebaseFreq < 2 ^ 32) (hvalid : timespecInvalid duration = false) :
    sleep timebaseFreq currentClocks duration =
      if currentClocks + ⌊requestedClocks timebaseFreq duration⌋₊ ≤ usizeMax then
        some (.ok (Sleep.new (currentClocks + ⌊requestedClocks timebaseFreq duration⌋₊)))
      else none := by
  obtain ⟨hsec, hnsec, -⟩ := timespecInvalid_eq_false.mp hvalid
  have hnsecClocks := nsec_mul_le_usizeMax hfreq hvalid
  rw [floor_requestedClocks hvalid]
  unfold sleep
  rw [u64TryFrom_of_nonneg hsec]
  simp only [bind, Option.bind]
  set secClocks := duration.tvSec.toNat * timebaseFreq
  set nsecClocks := duration.tvNsec.toNat * timebaseFreq
  by_cases hsecClocks : usizeMax < secClocks
  · rw [checkedMul_of_lt hsecClocks, if_neg (by omega)]
  rw [checkedMul_of_le (Nat.le_of_not_lt hsecClocks), u64TryFrom_of_nonneg hnsec]
  simp only
  rw [checkedMul_of_le hnsecClocks]
  dsimp only
  by_cases hclocks : usizeMax < secClocks + nsecClocks / 1000000000
  · rw [checkedAdd_of_lt hclocks, if_neg (by omega)]
  rw [checkedAdd_of_le (Nat.le_of_not_lt hclocks)]
  dsimp only
  by_cases hwakeup : currentClocks + (secClocks + nsecClocks / 1000000000) ≤ usizeMax
  · rw [checkedAdd_of_le hwakeup, if_pos hwakeup]
    rfl
  · rw [checkedAdd_of_lt (Nat.lt_of_not_le hwakeup), if_neg hwakeup]

/-- `nanosleep` on any `timespec`, with a timebase that fits `u32`: `EINVAL`
for one out of range; for an accepted one, a future that wakes at the current
clock plus the floor of the requested time when that fits in `u64`, and a
panic when it does not. -/
theorem doNanosleep_eq {timebaseFreq currentClocks : ℕ} (hfreq : timebaseFreq < 2 ^ 32)
    (duration : Timespec) :
    doNanosleep timebaseFreq currentClocks duration =
      if timespecInvalid duration then some (.error .einval)
      else if currentClocks + ⌊requestedClocks timebaseFreq duration⌋₊ ≤ usizeMax then
        some (.ok (Sleep.new (currentClocks + ⌊requestedClocks timebaseFreq duration⌋₊)))
      else none := by
  unfold doNanosleep
  cases hvalid : timespecInvalid duration with
  | true => rfl
  | false => rw [if_neg Bool.false_ne_true, if_neg Bool.false_ne_true, sleep_eq hfreq hvalid]

/-- `nanosleep({i64::MAX, 0})` on the 10 MHz timebase of QEMU's `virt`
machine: `tv_sec * freq` overflows. -/
theorem doNanosleep_panics_at_max_seconds :
    doNanosleep 10000000 0 ⟨9223372036854775807, 0⟩ = none := by
  have hvalid : timespecInvalid ⟨9223372036854775807, 0⟩ = false := by decide
  rw [doNanosleep_eq (by norm_num), hvalid, if_neg Bool.false_ne_true,
    floor_requestedClocks hvalid, if_neg (by decide)]

/-- `clock_nanosleep` on a supported clock with no flags is `nanosleep`. -/
theorem doClockNanosleep_of_supported {timebaseFreq currentClocks : ℕ} {clockid : ℤ}
    (hclock : clockid = clockMonotonic ∨ clockid = clockRealtime) (request : Timespec) :
    doClockNanosleep timebaseFreq currentClocks clockid 0 request =
      doNanosleep timebaseFreq currentClocks request := by
  rw [doClockNanosleep, if_neg (not_not.mpr hclock), if_neg (not_not.mpr rfl)]

end Solaya.Timer
