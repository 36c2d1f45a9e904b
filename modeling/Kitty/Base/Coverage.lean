import Kitty.Base.Fragment
import Mathlib.Algebra.GroupWithZero.Nat
import Mathlib.Order.Interval.Finset.Nat

/-!
# Blocks written at any places of a buffer

Blocks of any length are copied to any places of a buffer and their lengths are added up. Where no
two of them overlap, the sum reaches the size of the buffer only when every place was written, and
the buffer holds at each place what the block there says. Where two overlap, a place counts twice.
-/

namespace Kitty.Base

variable {α : Type}

/-- A place both blocks write. -/
def Overlaps (w w' : Nat × List α) : Prop :=
  max w.1 w'.1 < min (w.1 + w.2.length) (w'.1 + w'.2.length)

instance (w w' : Nat × List α) : Decidable (Overlaps w w') := inferInstanceAs (Decidable (_ < _))

/-- The places some blocks write. -/
def cells : List (Nat × List α) → Finset Nat
  | [] => ∅
  | w :: ws => Finset.Ico w.1 (w.1 + w.2.length) ∪ cells ws

theorem mem_cells {ws : List (Nat × List α)} {x : Nat} :
    x ∈ cells ws ↔ ∃ w ∈ ws, w.1 ≤ x ∧ x < w.1 + w.2.length := by
  induction ws with
  | nil => simp [cells]
  | cons w ws ih => simp [cells, ih]

/-- Blocks that do not overlap write as many places as they are long. -/
theorem card_cells {ws : List (Nat × List α)} (h : ws.Pairwise fun w w' ↦ ¬ Overlaps w w') :
    (cells ws).card = (ws.map (·.2.length)).sum := by
  induction ws with
  | nil => rfl
  | cons w ws ih =>
    obtain ⟨hw, hws⟩ := List.pairwise_cons.mp h
    have hdisj : Disjoint (Finset.Ico w.1 (w.1 + w.2.length)) (cells ws) := by
      rw [Finset.disjoint_left]
      intro x hx hx'
      obtain ⟨w', hmem, hle, hlt⟩ := mem_cells.mp hx'
      have hin := Finset.mem_Ico.mp hx
      apply hw w' hmem
      unfold Overlaps
      omega
    rw [cells, Finset.card_union_of_disjoint hdisj, ih hws, Nat.card_Ico, List.map_cons,
      List.sum_cons]
    omega

/-- The state of a receiver that has copied some blocks, none over another. -/
structure Assembled (ws : List (Nat × List α)) (size : Nat) (buf : Buffer α) (count : Nat) :
    Prop where
  within : ∀ w ∈ ws, w.1 + w.2.length ≤ size
  apart : ws.Pairwise fun w w' ↦ ¬ Overlaps w w'
  holds : ∀ w ∈ ws, ∀ j (hj : j < w.2.length), buf (w.1 + j) = w.2[j]
  count_eq : count = (ws.map (·.2.length)).sum

namespace Assembled

variable {ws : List (Nat × List α)} {size count : Nat} {buf : Buffer α}

/-- A receiver that has copied nothing. -/
theorem empty (size : Nat) (buf : Buffer α) : Assembled [] size buf 0 :=
  ⟨by simp, List.Pairwise.nil, by simp, rfl⟩

/-- One more block, over none of the others. -/
theorem write (h : Assembled ws size buf count) {w : Nat × List α}
    (hw : w.1 + w.2.length ≤ size) (hapart : ∀ v ∈ ws, ¬ Overlaps v w) :
    Assembled (ws ++ [w]) size (memcpy buf w.1 w.2) (count + w.2.length) := by
  refine ⟨?_, ?_, ?_, ?_⟩
  · intro v hv
    rcases List.mem_append.mp hv with hv | hv
    · exact h.within v hv
    · rwa [List.mem_singleton.mp hv]
  · refine List.pairwise_append.mpr ⟨h.apart, List.pairwise_singleton _ _, ?_⟩
    intro v hv w' hw'
    rw [List.mem_singleton.mp hw']
    exact hapart v hv
  · intro v hv j hj
    rcases List.mem_append.mp hv with hv | hv
    · have hout : v.1 + j < w.1 ∨ w.1 + w.2.length ≤ v.1 + j := by
        have hno := hapart v hv
        unfold Overlaps at hno
        omega
      rw [memcpy_outside buf w.1 w.2 _ hout]
      exact h.holds v hv j hj
    · obtain rfl := List.mem_singleton.mp hv
      exact memcpy_inside buf v.1 v.2 j hj
  · simp [h.count_eq]

/-- The places written lie inside. -/
theorem cells_subset (h : Assembled ws size buf count) : cells ws ⊆ Finset.range size := by
  intro x hx
  obtain ⟨w, hw, -, hlt⟩ := mem_cells.mp hx
  exact Finset.mem_range.mpr (hlt.trans_le (h.within w hw))

/-- Once they add up to the size, every place was written. -/
theorem covered (h : Assembled ws size buf count) (hfull : size ≤ count) {x : Nat} (hx : x < size) :
    ∃ w ∈ ws, w.1 ≤ x ∧ x < w.1 + w.2.length := by
  have hcard : (Finset.range size).card ≤ (cells ws).card := by
    rwa [Finset.card_range, card_cells h.apart, ← h.count_eq]
  rw [← mem_cells, Finset.eq_of_subset_of_card_le h.cells_subset hcard]
  exact Finset.mem_range.mpr hx

/-- What is read at a place is what the block there says. -/
theorem read (h : Assembled ws size buf count) {w : Nat × List α} (hw : w ∈ ws) {x : Nat}
    (hle : w.1 ≤ x) (hlt : x < w.1 + w.2.length) : (readBuffer buf size)[x]? = w.2[x - w.1]? := by
  have hx := h.within w hw
  have hj : x - w.1 < w.2.length := by omega
  have hval := h.holds w hw (x - w.1) hj
  rw [Nat.add_sub_cancel' hle] at hval
  rw [List.getElem?_eq_getElem hj, ← hval, readBuffer, List.getElem?_map,
    List.getElem?_range (by omega)]
  rfl

end Assembled

end Kitty.Base
