import Mathlib.Algebra.BigOperators.Group.Finset.Basic
import Mathlib.Algebra.Order.BigOperators.Group.Finset

/-!
# Cutting a block into pieces and putting it back together

A block of `n` elements is cut into `numPieces p n` pieces of `p` elements, the last one
shorter. A receiver copies pieces into a buffer in any order, each at most once, and
counts what it copied. `Partial` ties the buffer to one block: the count reaches the
length of the block exactly when every piece was copied, and then the buffer holds it.
-/

namespace Kitty.Base

variable {α : Type}

/-- The contents of a buffer, by position. -/
abbrev Buffer (α : Type) := Nat → α

/-- `memcpy(buf + off, data, len)`. -/
def memcpy (buf : Buffer α) (off : Nat) (data : List α) : Buffer α :=
  fun k ↦ if k < off then buf k else (data[k - off]?).getD (buf k)

/-- The first elements of a buffer. -/
def readBuffer (buf : Buffer α) (size : Nat) : List α := (List.range size).map buf

/-- How many pieces of `p` elements a block of `n` takes. -/
def numPieces (p n : Nat) : Nat := (n + p - 1) / p

/-- One piece of a block. -/
def piece (p : Nat) (block : List α) (j : Nat) : List α := (block.drop (j * p)).take p

/-- Inside the copied range the data is read. -/
theorem memcpy_inside (buf : Buffer α) (off : Nat) (data : List α) (i : Nat)
    (hi : i < data.length) : memcpy buf off data (off + i) = data[i] := by
  simp [memcpy, hi]

/-- Outside the copied range nothing changes. -/
theorem memcpy_outside (buf : Buffer α) (off : Nat) (data : List α) (k : Nat)
    (hk : k < off ∨ off + data.length ≤ k) : memcpy buf off data k = buf k := by
  unfold memcpy
  split
  · rfl
  · next hlt =>
    rw [List.getElem?_eq_none (by omega)]
    rfl

/-- What is read has the length asked for. -/
@[simp] theorem length_readBuffer (buf : Buffer α) (size : Nat) :
    (readBuffer buf size).length = size := by
  simp [readBuffer]

/-- Behind what was read before, the data is read. -/
theorem readBuffer_memcpy (buf : Buffer α) (off : Nat) (data : List α) :
    readBuffer (memcpy buf off data) (off + data.length) = readBuffer buf off ++ data := by
  apply List.ext_getElem
  · simp
  · intro i hi _
    rw [length_readBuffer] at hi
    by_cases hoff : i < off
    · rw [List.getElem_append_left (by simpa using hoff)]
      simp [readBuffer, memcpy_outside _ _ _ _ (.inl hoff)]
    · obtain ⟨j, rfl⟩ := Nat.exists_eq_add_of_le (Nat.le_of_not_lt hoff)
      rw [List.getElem_append_right (by simp)]
      simp [readBuffer, memcpy_inside buf off data j (by omega)]

/-- A piece is cut short by the end of the block only. -/
theorem length_piece (p : Nat) (block : List α) (j : Nat) :
    (piece p block j).length = min p (block.length - j * p) := by
  simp [piece]

/-- The elements of a piece are those of the block from its start on. -/
theorem getElem_piece (p : Nat) (block : List α) (j i : Nat) (hi : i < (piece p block j).length) :
    (piece p block j)[i] = block.get ⟨j * p + i, by rw [length_piece] at hi; omega⟩ := by
  simp [piece]

/-- A piece index is below the number of pieces when its start is below the length. -/
theorem lt_numPieces_iff (p n j : Nat) (hp : 0 < p) : j < numPieces p n ↔ j * p < n := by
  rw [numPieces, Nat.lt_div_iff_mul_lt hp]
  omega

/-- The number of pieces, from the two ends of the last one. -/
theorem numPieces_eq (p n m : Nat) (hp : 0 < p) (hlt : m * p < n) (hle : n ≤ (m + 1) * p) :
    numPieces p n = m + 1 := by
  have h1 := (lt_numPieces_iff p n m hp).mpr hlt
  have h2 : ¬ m + 1 < numPieces p n := by
    rw [lt_numPieces_iff p n _ hp]
    omega
  omega

/-- The first pieces of a block together are cut short by its end only. -/
theorem sum_min_pieces (p n m : Nat) :
    ∑ j ∈ Finset.range m, min p (n - j * p) = min (m * p) n := by
  induction m with
  | zero => simp
  | succ m ih =>
    rw [Finset.sum_range_succ, ih, Nat.succ_mul]
    omega

/-- All the pieces have the length of the block. -/
theorem sum_pieces (p : Nat) (block : List α) (hp : 0 < p) :
    ∑ j ∈ Finset.range (numPieces p block.length), (piece p block j).length = block.length := by
  simp only [length_piece]
  rw [sum_min_pieces]
  have h : ¬ numPieces p block.length < numPieces p block.length := lt_irrefl _
  rw [lt_numPieces_iff p _ _ hp] at h
  omega

/-- How many elements the copied pieces have. -/
def gathered (p : Nat) (block : List α) (got : Nat → Bool) : Nat :=
  ∑ j ∈ Finset.range (numPieces p block.length), if got j then (piece p block j).length else 0

/-- The state of a receiver that has copied some pieces of one block. -/
structure Partial (p : Nat) (block : List α) (got : Nat → Bool) (buf : Buffer α) (count : Nat) :
    Prop where
  within : ∀ j, got j → j < numPieces p block.length
  agrees : ∀ j, got j → ∀ i (hi : i < (piece p block j).length),
    buf (j * p + i) = (piece p block j)[i]
  count_eq : count = gathered p block got

/-- A receiver that has copied nothing. -/
theorem Partial.empty (p : Nat) (block : List α) (buf : Buffer α) :
    Partial p block (fun _ ↦ false) buf 0 :=
  ⟨by simp, by simp, by simp [gathered]⟩

/-- The copied pieces never outweigh the block. -/
theorem gathered_le (p : Nat) (block : List α) (got : Nat → Bool) (hp : 0 < p) :
    gathered p block got ≤ block.length := by
  calc gathered p block got
      ≤ ∑ j ∈ Finset.range (numPieces p block.length), (piece p block j).length :=
        Finset.sum_le_sum fun j _ ↦ by split <;> omega
    _ = block.length := sum_pieces p block hp

/-- They weigh as much as the block exactly when every piece was copied. -/
theorem length_le_gathered_iff (p : Nat) (block : List α) (got : Nat → Bool) (hp : 0 < p) :
    block.length ≤ gathered p block got ↔ ∀ j < numPieces p block.length, got j := by
  constructor
  · intro h j hj
    by_contra hgot
    have hlt : gathered p block got <
        ∑ j ∈ Finset.range (numPieces p block.length), (piece p block j).length := by
      refine Finset.sum_lt_sum (fun i _ ↦ by split <;> omega) ⟨j, Finset.mem_range.mpr hj, ?_⟩
      have hpos := (lt_numPieces_iff p _ _ hp).mp hj
      rw [if_neg hgot, length_piece]
      omega
    rw [sum_pieces p block hp] at hlt
    omega
  · intro h
    have heq : gathered p block got =
        ∑ j ∈ Finset.range (numPieces p block.length), (piece p block j).length :=
      Finset.sum_congr rfl fun j hj ↦ by rw [if_pos (h j (Finset.mem_range.mp hj))]
    rw [heq, sum_pieces p block hp]

/-- Copying one more piece adds its length. -/
theorem gathered_update (p : Nat) (block : List α) (got : Nat → Bool) (j : Nat)
    (hj : j < numPieces p block.length) (hgot : got j = false) :
    gathered p block (Function.update got j true) =
      gathered p block got + (piece p block j).length := by
  have hmem : j ∈ Finset.range (numPieces p block.length) := Finset.mem_range.mpr hj
  simp only [gathered]
  rw [← Finset.add_sum_erase _ _ hmem, ← Finset.add_sum_erase _ _ hmem]
  have hrest : ∀ i ∈ (Finset.range (numPieces p block.length)).erase j,
      (if Function.update got j true i then (piece p block i).length else 0) =
        if got i then (piece p block i).length else 0 := by
    intro i hi
    rw [Function.update_of_ne (Finset.ne_of_mem_erase hi)]
  rw [Finset.sum_congr rfl hrest, Function.update_self, hgot]
  simp only [if_true, Bool.false_eq_true, if_false]
  omega

/-- Copying a piece of the block that was missing keeps the buffer tied to the block. -/
theorem Partial.insert {p : Nat} {block : List α} {got : Nat → Bool} {buf : Buffer α} {count : Nat}
    (h : Partial p block got buf count) {j : Nat} (hj : j < numPieces p block.length)
    (hgot : got j = false) :
    Partial p block (Function.update got j true) (memcpy buf (j * p) (piece p block j))
      (count + (piece p block j).length) := by
  refine ⟨?_, ?_, by rw [gathered_update p block got j hj hgot, h.count_eq]⟩
  · intro i hi
    by_cases hij : i = j
    · exact hij ▸ hj
    · exact h.within i (by rwa [Function.update_of_ne hij] at hi)
  · intro i hi k hk
    by_cases hij : i = j
    · subst hij
      exact memcpy_inside buf (i * p) _ k hk
    · rw [Function.update_of_ne hij] at hi
      rw [memcpy_outside]
      · exact h.agrees i hi k hk
      · -- Two pieces do not overlap: the lower one ends where the next one starts.
        have hk' := hk
        rw [length_piece] at hk' ⊢
        rcases Nat.lt_or_gt_of_ne hij with hlt | hlt
        · have hstart := Nat.mul_le_mul_right p (show i + 1 ≤ j from hlt)
          rw [Nat.succ_mul] at hstart
          omega
        · have hstart := Nat.mul_le_mul_right p (show j + 1 ≤ i from hlt)
          rw [Nat.succ_mul] at hstart
          omega

/-- A receiver whose count reached the length of the block holds the block. -/
theorem Partial.read_eq {p : Nat} {block : List α} {got : Nat → Bool} {buf : Buffer α} {count : Nat}
    (h : Partial p block got buf count) (hp : 0 < p) (hc : block.length ≤ count) :
    readBuffer buf block.length = block := by
  rw [h.count_eq, length_le_gathered_iff p block got hp] at hc
  apply List.ext_getElem
  · simp
  · intro k hk hk'
    have hdiv : k / p * p < block.length := lt_of_le_of_lt (Nat.div_mul_le_self k p) hk'
    have hpos : k / p < numPieces p block.length := (lt_numPieces_iff p _ _ hp).mpr hdiv
    have hmod := Nat.mod_lt k hp
    have hsplit : k / p * p + k % p = k := Nat.div_add_mod' k p
    have hlen : k % p < (piece p block (k / p)).length := by
      rw [length_piece]
      omega
    have hread := h.agrees (k / p) (hc _ hpos) (k % p) hlen
    rw [getElem_piece, List.get_eq_getElem] at hread
    simp only [hsplit] at hread
    simpa [readBuffer] using hread

end Kitty.Base
