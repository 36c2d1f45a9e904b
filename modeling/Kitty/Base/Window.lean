import Mathlib.Data.Nat.ModEq
import Mathlib.Data.List.GetD

/-!
# The last items of a stream

A buffer of `size` cells that a writer fills round and round: the item at position `p` of
the stream goes to the cell `p % size`, over the item `size` positions before it. Readers
keep positions of the stream. What they find is what the stream has there as long as they
are at most `size` items behind.
-/

namespace Kitty.Base

variable {α : Type}

/-- The cells with the items of a list copied to them from `off` on. -/
def copyAt (cells : Nat → α) (off : Nat) (data : List α) : Nat → α :=
  fun i ↦ if off ≤ i then data.getD (i - off) (cells i) else cells i

/-- The contents of `n` cells from `off` on. -/
def slice (cells : Nat → α) (off n : Nat) : List α :=
  (List.range n).map fun i ↦ cells (off + i)

/-- Items appended at position `total`: what does not fit before the end of the buffer goes to
its beginning. -/
def wrapWrite (size : Nat) (cells : Nat → α) (total : Nat) (data : List α) : Nat → α :=
  let off := total % size
  let first := if off + data.length ≤ size then data.length else size - off
  let cells := copyAt cells off (data.take first)
  if first < data.length then copyAt cells 0 (data.drop first) else cells

/-- The buffer holds the last `size` items of the stream, each in its cell. -/
def Holds (size : Nat) (cells : Nat → α) (stream : List α) : Prop :=
  ∀ p x, stream[p]? = some x → stream.length ≤ p + size → cells (p % size) = x

@[simp] theorem length_slice (cells : Nat → α) (off n : Nat) : (slice cells off n).length = n := by
  simp [slice]

theorem copyAt_of_lt {cells : Nat → α} {off : Nat} {data : List α} {j : Nat}
    (h : j < data.length) : copyAt cells off data (off + j) = data[j] := by
  rw [copyAt, if_pos (Nat.le_add_right off j), Nat.add_sub_cancel_left,
    List.getD_eq_getElem _ _ h]

theorem copyAt_of_outside {cells : Nat → α} {off : Nat} {data : List α} {i : Nat}
    (h : i < off ∨ off + data.length ≤ i) : copyAt cells off data i = cells i := by
  rw [copyAt]
  split
  · exact List.getD_eq_default _ _ (by omega)
  · rfl

section Write

variable {size : Nat} {cells : Nat → α} {total : Nat} {data : List α}

/-- Every item lands in the cell of its position. -/
theorem wrapWrite_written (hsize : 0 < size) (hdata : data.length ≤ size) {j : Nat}
    (hj : j < data.length) : wrapWrite size cells total data ((total + j) % size) = data[j] := by
  have hoff := Nat.mod_lt total hsize
  rw [← Nat.mod_add_mod, wrapWrite]
  generalize total % size = off at hoff ⊢
  by_cases hfit : off + data.length ≤ size
  · simp only [if_pos hfit, List.take_length, Nat.lt_irrefl, if_false]
    rw [Nat.mod_eq_of_lt (by omega)]
    exact copyAt_of_lt hj
  · have hover : size - off < data.length := by omega
    simp only [if_neg hfit, if_pos hover]
    by_cases hj' : j < size - off
    · have hlen : j < (data.take (size - off)).length := by
        rw [List.length_take]
        omega
      rw [Nat.mod_eq_of_lt (by omega), copyAt_of_outside, copyAt_of_lt hlen, List.getElem_take]
      right
      rw [List.length_drop]
      omega
    · have hcell : (off + j) % size = 0 + (j - (size - off)) := by
        rw [show off + j = j - (size - off) + size by omega, Nat.add_mod_right,
          Nat.mod_eq_of_lt (by omega), Nat.zero_add]
      have hlen : j - (size - off) < (data.drop (size - off)).length := by
        rw [List.length_drop]
        omega
      rw [hcell, copyAt_of_lt hlen, List.getElem_drop]
      congr 1
      omega

/-- The other cells keep what they had. -/
theorem wrapWrite_other (hsize : 0 < size) {i : Nat} (hi : i < size)
    (hother : ∀ j, j < data.length → (total + j) % size ≠ i) :
    wrapWrite size cells total data i = cells i := by
  have hoff := Nat.mod_lt total hsize
  have hcell : ∀ j, j < data.length → (total % size + j) % size ≠ i := by
    intro j hj
    rw [Nat.mod_add_mod]
    exact hother j hj
  have hbehind : i < total % size ∨ total % size + data.length ≤ i := by
    by_contra hin
    apply hcell (i - total % size) (by omega)
    rw [Nat.add_sub_cancel' (by omega), Nat.mod_eq_of_lt hi]
  have hwrapped : total % size + data.length ≤ i + size := by
    by_contra hin
    apply hcell (i + size - total % size) (by omega)
    rw [Nat.add_sub_cancel' (by omega), Nat.add_mod_right, Nat.mod_eq_of_lt hi]
  rw [wrapWrite]
  generalize total % size = off at hoff hbehind hwrapped ⊢
  by_cases hfit : off + data.length ≤ size
  · simp only [if_pos hfit, List.take_length, Nat.lt_irrefl, if_false]
    exact copyAt_of_outside hbehind
  · have hover : size - off < data.length := by omega
    simp only [if_neg hfit, if_pos hover]
    rw [copyAt_of_outside, copyAt_of_outside]
    · rw [List.length_take]
      omega
    · right
      rw [List.length_drop]
      omega

/-- Only the cell at the end of the stream matters to a write. -/
theorem wrapWrite_mod {modulus : Nat} (h : size ∣ modulus) :
    wrapWrite size cells (total % modulus) data = wrapWrite size cells total data := by
  simp only [wrapWrite, Nat.mod_mod_of_dvd total h]

/-- A buffer with the same item everywhere stays so when this item is written. -/
theorem wrapWrite_replicate (x : α) (n : Nat) :
    wrapWrite size (fun _ ↦ x) total (List.replicate n x) = fun _ ↦ x := by
  have hcopy : ∀ off m, copyAt (fun _ ↦ x) off (List.replicate m x) = fun _ ↦ x := by
    intro off m
    funext i
    rw [copyAt]
    split
    · by_cases h : i - off < m
      · rw [List.getD_eq_getElem _ _ (by simpa using h), List.getElem_replicate]
      · exact List.getD_eq_default _ _ (by simpa using h)
    · rfl
  simp only [wrapWrite, List.take_replicate, List.drop_replicate, hcopy, ite_self]

end Write

namespace Holds

variable {size : Nat} {cells : Nat → α} {stream : List α}

theorem nil (size : Nat) (cells : Nat → α) : Holds size cells [] := by
  intro p x h
  simp at h

/-- Writing at the end of the stream keeps its last items. -/
theorem wrapWrite (h : Holds size cells stream) (hsize : 0 < size) {data : List α}
    (hdata : data.length ≤ size) :
    Holds size (wrapWrite size cells stream.length data) (stream ++ data) := by
  intro p x hx hlast
  rw [List.length_append] at hlast
  by_cases hp : p < stream.length
  · rw [List.getElem?_append_left hp] at hx
    rw [wrapWrite_other hsize (Nat.mod_lt p hsize), h p x hx (by omega)]
    intro j hj hsame
    have hdvd := (Nat.modEq_iff_dvd' (show p ≤ stream.length + j by omega)).mp
      (Eq.symm hsame : p % size = (stream.length + j) % size)
    have := Nat.le_of_dvd (by omega) hdvd
    omega
  · rw [List.getElem?_append_right (by omega)] at hx
    obtain ⟨hlt, rfl⟩ := List.getElem?_eq_some_iff.mp hx
    conv_lhs => rw [← Nat.add_sub_cancel' (show stream.length ≤ p by omega)]
    exact wrapWrite_written hsize hdata hlt

/-- A reader that is not too far behind finds what the stream has at its position. -/
theorem slice (h : Holds size cells stream) {p n : Nat} (hlast : stream.length ≤ p + size)
    (hend : p + n ≤ stream.length) (hoff : p % size + n ≤ size) :
    slice cells (p % size) n = (stream.drop p).take n := by
  apply List.ext_getElem
  · rw [length_slice, List.length_take, List.length_drop]
    omega
  · intro i hi _
    rw [length_slice] at hi
    have hcell : (p + i) % size = p % size + i := by
      rw [Nat.add_mod, Nat.mod_eq_of_lt (show i < size by omega), Nat.mod_eq_of_lt (by omega)]
    have hp : p + i < stream.length := by omega
    simp only [Kitty.Base.slice, List.getElem_map, List.getElem_range, List.getElem_take,
      List.getElem_drop]
    rw [← hcell]
    exact h (p + i) _ (List.getElem?_eq_getElem hp) (by omega)

end Holds

end Kitty.Base
