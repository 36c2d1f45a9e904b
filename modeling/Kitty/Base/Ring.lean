import Mathlib.Data.Nat.ModEq
import Mathlib.Logic.Function.Basic

/-!
# Ring buffers

A bounded queue in an array of `n` cells with the indices of its oldest cell and of its
first free one. One cell stays free, so that equal indices mean an empty queue. The laws
relate every operation to the list of queued items, oldest first.
-/

namespace Kitty.Base

/-- A ring of `n` cells; both indices stay inside it. -/
structure Ring (α : Type) (n : Nat) where
  items : Nat → α
  head : Nat
  tail : Nat
  head_lt : head < n
  tail_lt : tail < n

namespace Ring

variable {α : Type} {n : Nat}

/-- An empty ring whose cells hold a given value. -/
def empty (value : α) (h : 0 < n) : Ring α n := ⟨fun _ ↦ value, 0, 0, h, h⟩

/-- How many items are queued. -/
def length (r : Ring α n) : Nat := (r.tail + n - r.head) % n

/-- The queued items, oldest first. -/
def toList (r : Ring α n) : List α :=
  (List.range r.length).map fun i ↦ r.items ((r.head + i) % n)

/-- The indices are equal. -/
def isEmpty (r : Ring α n) : Bool := r.head == r.tail

/-- The next free cell would be the oldest one. -/
def full (r : Ring α n) : Bool := (r.tail + 1) % n == r.head

/-- The oldest item. -/
def front (r : Ring α n) : α := r.items r.head

/-- The ring without its oldest item. -/
def pop (r : Ring α n) : Ring α n :=
  { r with head := (r.head + 1) % n, head_lt := Nat.mod_lt _ (Nat.zero_lt_of_lt r.head_lt) }

/-- A new item in the first free cell. -/
def push (r : Ring α n) (x : α) : Ring α n :=
  { r with
    items := Function.update r.items r.tail x
    tail := (r.tail + 1) % n
    tail_lt := Nat.mod_lt _ (Nat.zero_lt_of_lt r.tail_lt) }

@[simp] theorem toList_empty (value : α) (h : 0 < n) : (empty value h).toList = [] := by
  simp [toList, length, empty]

@[simp] theorem length_toList (r : Ring α n) : r.toList.length = r.length := by simp [toList]

/-- One cell is always free. -/
theorem length_lt (r : Ring α n) : r.length < n := Nat.mod_lt _ (Nat.zero_lt_of_lt r.head_lt)

private theorem length_cases (r : Ring α n) :
    r.head ≤ r.tail ∧ r.length = r.tail - r.head ∨
      r.tail < r.head ∧ r.length = r.tail + n - r.head := by
  have hh := r.head_lt
  have ht := r.tail_lt
  by_cases h : r.head ≤ r.tail
  · refine .inl ⟨h, ?_⟩
    rw [length, show r.tail + n - r.head = r.tail - r.head + n by omega, Nat.add_mod_right]
    exact Nat.mod_eq_of_lt (by omega)
  · exact .inr ⟨by omega, Nat.mod_eq_of_lt (by omega)⟩

theorem succ_mod_cases {i : Nat} (h : i < n) :
    i + 1 < n ∧ (i + 1) % n = i + 1 ∨ i + 1 = n ∧ (i + 1) % n = 0 := by
  by_cases hi : i + 1 < n
  · exact .inl ⟨hi, Nat.mod_eq_of_lt hi⟩
  · have hn : i + 1 = n := by omega
    exact .inr ⟨hn, by rw [hn, Nat.mod_self]⟩

/-- Equal indices mean that nothing is queued. -/
theorem isEmpty_iff (r : Ring α n) : r.isEmpty = true ↔ r.length = 0 := by
  have hh := r.head_lt
  simp only [isEmpty, beq_iff_eq]
  rcases r.length_cases with ⟨h, hl⟩ | ⟨h, hl⟩ <;> omega

/-- A full ring has all cells but one in use. -/
theorem full_iff (r : Ring α n) : r.full = true ↔ r.length + 1 = n := by
  have hh := r.head_lt
  have ht := r.tail_lt
  simp only [full, beq_iff_eq]
  rcases r.length_cases with ⟨h, hl⟩ | ⟨h, hl⟩ <;>
    rcases succ_mod_cases ht with ⟨h', hs⟩ | ⟨h', hs⟩ <;> omega

/-- The first free cell is as many cells behind the oldest item as items are queued. -/
theorem tail_eq (r : Ring α n) : (r.head + r.length) % n = r.tail := by
  have hh := r.head_lt
  have ht := r.tail_lt
  rcases r.length_cases with ⟨h1, hl⟩ | ⟨h1, hl⟩
  · rw [hl, Nat.add_sub_cancel' h1, Nat.mod_eq_of_lt ht]
  · rw [hl, show r.head + (r.tail + n - r.head) = r.tail + n by omega, Nat.add_mod_right,
      Nat.mod_eq_of_lt ht]

theorem length_pop (r : Ring α n) (h : r.isEmpty = false) : r.pop.length + 1 = r.length := by
  have hne : r.length ≠ 0 := fun hl ↦ by simp [r.isEmpty_iff.mpr hl] at h
  have hh := r.head_lt
  have ht := r.tail_lt
  rcases r.length_cases with ⟨h1, hl⟩ | ⟨h1, hl⟩ <;>
    rcases r.pop.length_cases with ⟨h2, hl'⟩ | ⟨h2, hl'⟩ <;>
    rcases succ_mod_cases hh with ⟨h3, hs⟩ | ⟨h3, hs⟩ <;>
    simp only [pop] at h2 hl' ⊢ <;> omega

theorem length_push (r : Ring α n) (x : α) (h : r.full = false) :
    (r.push x).length = r.length + 1 := by
  have hne : r.length + 1 ≠ n := fun hl ↦ by simp [r.full_iff.mpr hl] at h
  have hh := r.head_lt
  have ht := r.tail_lt
  rcases r.length_cases with ⟨h1, hl⟩ | ⟨h1, hl⟩ <;>
    rcases (r.push x).length_cases with ⟨h2, hl'⟩ | ⟨h2, hl'⟩ <;>
    rcases succ_mod_cases ht with ⟨h3, hs⟩ | ⟨h3, hs⟩ <;>
    simp only [push] at h2 hl' ⊢ <;> omega

/-- The oldest item is the first of the list, and popping leaves the others. -/
theorem toList_pop (r : Ring α n) (h : r.isEmpty = false) :
    r.toList = r.front :: r.pop.toList := by
  rw [toList, ← r.length_pop h, List.range_succ_eq_map, List.map_cons, List.map_map]
  refine congrArg₂ _ ?_ (List.map_congr_left ?_)
  · rw [Nat.add_zero, Nat.mod_eq_of_lt r.head_lt]
    rfl
  · intro i _
    change r.items ((r.head + (i + 1)) % n) = r.items (((r.head + 1) % n + i) % n)
    rw [Nat.mod_add_mod]
    congr 2
    omega

/-- A pushed item is the newest of the list. -/
theorem toList_push (r : Ring α n) (x : α) (h : r.full = false) :
    (r.push x).toList = r.toList ++ [x] := by
  rw [toList, r.length_push x h, List.range_succ, List.map_append, toList]
  refine congrArg₂ _ (List.map_congr_left ?_) ?_
  · intro i hi
    have hi := List.mem_range.mp hi
    have hlt := r.length_lt
    simp only [push]
    refine Function.update_of_ne ?_ _ _
    intro he
    rw [← r.tail_eq] at he
    have := Nat.ModEq.add_left_cancel' r.head (show r.head + i ≡ r.head + r.length [MOD n] from he)
    rw [Nat.ModEq, Nat.mod_eq_of_lt (hi.trans hlt), Nat.mod_eq_of_lt hlt] at this
    omega
  · simp only [push, List.map_cons, List.map_nil, r.tail_eq, Function.update_self]

end Ring

end Kitty.Base
