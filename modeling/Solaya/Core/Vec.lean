import Mathlib.Data.List.Perm.Basic

/-!
# `Vec` operations on lists

The kernel keeps its bookkeeping in `alloc::vec::Vec`s.  A vector is modelled by
the list of its elements; this file gives the two mutations whose order
semantics the proofs depend on: `swap_remove`, which moves the last element
into the hole, and the "update the first element that matches, then `break`"
loop.  What the later modules need about them is only what survives a
reordering: `swap_remove` is a permutation of erasing the index, and the update
leaves every projection that it does not touch alone.
-/

namespace Solaya.Vec

variable {α β : Type*}

/-- `Vec::swap_remove`: the element at `index` is replaced by the last one and
the vector shrinks by one. -/
def swapRemove (l : List α) (index : ℕ) : List α :=
  match l.getLast? with
  | none => l
  | some last => (l.set index last).dropLast

/-- `for x in v.iter_mut() { if p(x) { *x = f(x); break; } }`. -/
def updateFirst (p : α → Bool) (f : α → α) : List α → List α
  | [] => []
  | a :: as => if p a then f a :: as else a :: updateFirst p f as

/-- Moving the last element into the hole at `index < length` only reorders
the erased list. -/
theorem swapRemove_perm {l : List α} {index : ℕ} (h : index < l.length) :
    (swapRemove l index).Perm (l.eraseIdx index) := by
  obtain ⟨xs, last, rfl⟩ : ∃ xs last, l = xs ++ [last] := by
    rcases List.eq_nil_or_concat l with hnil | ⟨xs, last, hcat⟩
    · simp [hnil] at h
    · exact ⟨xs, last, by simpa using hcat⟩
  simp only [List.length_append, List.length_singleton] at h
  simp only [swapRemove, List.getLast?_append, List.getLast?_singleton, Option.some_or]
  rcases Nat.lt_or_ge index xs.length with hlt | hge
  · -- the hole is inside `xs`: the last element moves into it
    rw [List.set_append_left _ _ hlt, List.dropLast_concat,
      List.eraseIdx_append_of_lt_length hlt, List.set_eq_take_append_cons_drop,
      if_pos hlt, List.eraseIdx_eq_take_drop_succ]
    exact List.perm_middle.trans (List.perm_append_singleton _ _).symm
  · -- the hole is the last position: `swap_remove` is `pop`
    have heq : index = xs.length := by omega
    subst heq
    simp [List.eraseIdx_append_of_length_le]

theorem mem_swapRemove {l : List α} {index : ℕ} (h : index < l.length) {a : α} :
    a ∈ swapRemove l index ↔ a ∈ l.eraseIdx index :=
  (swapRemove_perm h).mem_iff

/-- A projection that the update does not change reads the same list. -/
theorem map_updateFirst (p : α → Bool) {f : α → α} {g : α → β} (hfg : ∀ a, g (f a) = g a)
    (l : List α) : (updateFirst p f l).map g = l.map g := by
  induction l with
  | nil => rfl
  | cons a as ih =>
      unfold updateFirst
      split_ifs <;> simp [hfg, ih]

end Solaya.Vec
