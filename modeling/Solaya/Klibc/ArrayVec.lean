import Mathlib.Data.List.Basic

/-!
# `ArrayVec`

`klibc/array_vec.rs`: a vector of at most `LENGTH` elements kept inline.  A
push onto a full vector fails and hands the element back; `pop` takes the last
element.  Through `Deref` it is the slice of its elements, so `first`, `last`
and `last_mut` are those of the list.
-/

namespace Solaya

/-- `ArrayVec<T, LENGTH>` (`klibc/array_vec.rs`): at most `capacity`
elements. -/
structure ArrayVec (α : Type) (capacity : ℕ) where
  elements : List α
  length_le : elements.length ≤ capacity

namespace ArrayVec

variable {α : Type} {capacity : ℕ}

/-- `ArrayVec::new`. -/
def new : ArrayVec α capacity := ⟨[], Nat.zero_le _⟩

/-- `ArrayVec::push`: a full vector hands the element back as the error. -/
def push (v : ArrayVec α capacity) (element : α) : Except α (ArrayVec α capacity) :=
  if h : v.elements.length = capacity then .error element
  else .ok ⟨v.elements ++ [element], by
    rw [List.length_append, List.length_singleton]
    exact Nat.lt_of_le_of_ne v.length_le h⟩

/-- `let _ = v.push(element)`: on a full vector the element is lost. -/
def pushOrDrop (v : ArrayVec α capacity) (element : α) : ArrayVec α capacity :=
  match v.push element with
  | .ok v => v
  | .error _ => v

theorem pushOrDrop_elements (v : ArrayVec α capacity) (element : α) :
    (v.pushOrDrop element).elements =
      if v.elements.length < capacity then v.elements ++ [element] else v.elements := by
  unfold pushOrDrop push
  by_cases hfull : v.elements.length = capacity
  · simp only [dif_pos hfull]
    rw [if_neg (by omega)]
  · simp only [dif_neg hfull]
    rw [if_pos (Nat.lt_of_le_of_ne v.length_le hfull)]

/-- `ArrayVec::pop`: the last element and the vector without it; `None` when
empty. -/
def pop (v : ArrayVec α capacity) : Option (α × ArrayVec α capacity) :=
  v.elements.getLast?.map fun last =>
    (last, ⟨v.elements.dropLast, Nat.le_trans (by simp) v.length_le⟩)

/-- `*v.last_mut().expect(..) = element`; `none` is the `expect` on an empty
vector. -/
def setLast (v : ArrayVec α capacity) (element : α) : Option (ArrayVec α capacity) :=
  if h : v.elements = [] then none
  else some ⟨v.elements.dropLast ++ [element], by
    rw [List.length_append, List.length_dropLast, List.length_singleton]
    have hpos := List.length_pos_of_ne_nil h
    have hle := v.length_le
    omega⟩

theorem push_toOption_of_lt {v : ArrayVec α capacity} (h : v.elements.length < capacity)
    (element : α) : ∃ w, (v.push element).toOption = some w ∧ w.elements = v.elements ++ [element] := by
  unfold push
  rw [dif_neg (Nat.ne_of_lt h)]
  exact ⟨_, rfl, rfl⟩

theorem push_toOption_of_full {v : ArrayVec α capacity} (h : v.elements.length = capacity)
    (element : α) : (v.push element).toOption = none := by
  unfold push
  rw [dif_pos h]
  rfl

theorem pop_of_eq {v : ArrayVec α capacity} {elements : List α} {last : α}
    (h : v.elements = elements ++ [last]) : ∃ w, v.pop = some (last, w) ∧ w.elements = elements := by
  have hlen : elements.length ≤ capacity := by
    have hle := v.length_le
    rw [h, List.length_append] at hle
    omega
  refine ⟨⟨elements, hlen⟩, ?_, rfl⟩
  unfold pop
  simp [h]

theorem pop_of_nil {v : ArrayVec α capacity} (h : v.elements = []) : v.pop = none := by
  unfold pop
  simp [h]

theorem setLast_of_eq {v : ArrayVec α capacity} {elements : List α} {last : α}
    (h : v.elements = elements ++ [last]) (element : α) :
    ∃ w, v.setLast element = some w ∧ w.elements = elements ++ [element] := by
  unfold setLast
  rw [dif_neg (by simp [h])]
  refine ⟨_, rfl, ?_⟩
  show v.elements.dropLast ++ [element] = elements ++ [element]
  rw [h, List.dropLast_concat]

end ArrayVec

end Solaya
