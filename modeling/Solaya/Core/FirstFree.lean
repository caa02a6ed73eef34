import Mathlib.Data.List.Nodup
import Mathlib.Data.List.Range

/-!
# The first free number

Descriptor tables and id allocators pick the least number from some start on
that is not in use, by running up `start, start + 1, …` until one is free.
The numbers in use are finitely many, so among the first `used.length + 1` of
them one is free: the search with that much fuel never gives up
(`firstFree_isSome`) and finds the least free number from `start` on
(`firstFree_eq_some_iff`).
-/

namespace Solaya

/-- The first of `start, start + 1, …` that `used` does not hold, trying at
most `fuel` numbers. -/
def firstFreeFuel (used : List ℤ) : ℕ → ℤ → Option ℤ
  | 0, _ => none
  | fuel + 1, n => if n ∈ used then firstFreeFuel used fuel (n + 1) else some n

variable {used : List ℤ}

theorem firstFreeFuel_eq_some_iff {fuel : ℕ} {start n : ℤ} :
    firstFreeFuel used fuel start = some n ↔
      start ≤ n ∧ n < start + fuel ∧ n ∉ used ∧ ∀ m, start ≤ m → m < n → m ∈ used := by
  induction fuel generalizing start with
  | zero => simp [firstFreeFuel]; omega
  | succ fuel ih =>
    by_cases hstart : start ∈ used
    · rw [firstFreeFuel, if_pos hstart, ih]
      constructor
      · rintro ⟨hle, hlt, hfree, hbelow⟩
        refine ⟨by omega, by omega, hfree, fun m hm hmn => ?_⟩
        by_cases hmstart : m = start
        · exact hmstart ▸ hstart
        · exact hbelow m (by omega) hmn
      · rintro ⟨hle, hlt, hfree, hbelow⟩
        have hne : start ≠ n := fun h => hfree (h ▸ hstart)
        exact ⟨by omega, by omega, hfree, fun m hm hmn => hbelow m (by omega) hmn⟩
    · rw [firstFreeFuel, if_neg hstart, Option.some_inj]
      constructor
      · rintro rfl
        exact ⟨Int.le_refl start, by omega, hstart, fun m hm hmn => absurd hmn (by omega)⟩
      · rintro ⟨hle, -, hfree, hbelow⟩
        by_contra hne
        exact hstart (hbelow start (Int.le_refl start) (by omega))

theorem firstFreeFuel_eq_none_iff {fuel : ℕ} {start : ℤ} :
    firstFreeFuel used fuel start = none ↔ ∀ m, start ≤ m → m < start + fuel → m ∈ used := by
  induction fuel generalizing start with
  | zero => simp [firstFreeFuel]; intro m h1 h2; omega
  | succ fuel ih =>
    by_cases hstart : start ∈ used
    · rw [firstFreeFuel, if_pos hstart, ih]
      constructor
      · intro hall m hm hlt
        by_cases hmstart : m = start
        · exact hmstart ▸ hstart
        · exact hall m (by omega) (by omega)
      · intro hall m hm hlt
        exact hall m (by omega) (by omega)
    · simp only [firstFreeFuel, if_neg hstart, reduceCtorEq, false_iff, not_forall]
      exact ⟨start, Int.le_refl start, by omega, hstart⟩

/-- `n` numbers in a row cannot all be among fewer than `n`. -/
theorem exists_notMem_of_length_lt (start : ℤ) {count : ℕ} (hlen : used.length < count) :
    ∃ m, start ≤ m ∧ m < start + count ∧ m ∉ used := by
  by_contra hall
  push Not at hall
  have hsub : (List.range count).map (fun i : ℕ => start + i) ⊆ used := by
    intro m hm
    obtain ⟨i, hi, rfl⟩ := List.mem_map.mp hm
    exact hall _ (by omega) (by simp at hi; omega)
  have hnodup : ((List.range count).map (fun i : ℕ => start + i)).Nodup :=
    List.nodup_range.map (fun a b h => by omega)
  have := hnodup.length_le_of_subset hsub
  simp at this
  omega

/-- The first number from `start` on that `used` does not hold: the search
ends within `used.length + 1` numbers. -/
def firstFree (used : List ℤ) (start : ℤ) : Option ℤ :=
  firstFreeFuel used (used.length + 1) start

theorem firstFree_isSome (start : ℤ) : (firstFree used start).isSome := by
  rw [Option.isSome_iff_ne_none, Ne, firstFree, firstFreeFuel_eq_none_iff]
  intro hall
  obtain ⟨m, hle, hlt, hfree⟩ := exists_notMem_of_length_lt start (Nat.lt_succ_self used.length)
  exact hfree (hall m hle hlt)

theorem firstFree_eq_some_iff {start n : ℤ} :
    firstFree used start = some n ↔ start ≤ n ∧ n ∉ used ∧ ∀ m, start ≤ m → m < n → m ∈ used := by
  rw [firstFree, firstFreeFuel_eq_some_iff]
  constructor
  · rintro ⟨hle, -, hfree, hbelow⟩
    exact ⟨hle, hfree, hbelow⟩
  · rintro ⟨hle, hfree, hbelow⟩
    refine ⟨hle, ?_, hfree, hbelow⟩
    by_contra hbig
    obtain ⟨m, hm, hmlt, hmfree⟩ := exists_notMem_of_length_lt start (Nat.lt_succ_self used.length)
    exact hmfree (hbelow m hm (by push_cast at hmlt hbig ⊢; omega))

end Solaya
