import Kitty.Base.Window

/-!
# Stores to a buffer

What is written to memory at an offset from the beginning of a buffer, store by store, wherever it
falls. Stores inside the buffer leave what lies behind it as it was, and a store inside a slice
takes the place of as many of its items.
-/

namespace Kitty.Base

variable {α : Type}

/-- Items written one after the other from an offset on. -/
structure Store (α : Type) where
  off : Nat
  items : List α
  deriving DecidableEq, Repr

/-- The store falls inside a buffer of this size. -/
def Store.Inside (size : Nat) (store : Store α) : Prop := store.off + store.items.length ≤ size

/-- The cells behind stores made one after the other. -/
def stored (cells : Nat → α) (stores : List (Store α)) : Nat → α :=
  stores.foldl (fun cells store ↦ copyAt cells store.off store.items) cells

@[simp] theorem stored_nil (cells : Nat → α) : stored cells [] = cells := rfl

@[simp] theorem stored_cons (cells : Nat → α) (store : Store α) (stores : List (Store α)) :
    stored cells (store :: stores) = stored (copyAt cells store.off store.items) stores := rfl

theorem stored_append (cells : Nat → α) (stores stores' : List (Store α)) :
    stored cells (stores ++ stores') = stored (stored cells stores) stores' :=
  List.foldl_append

/-- Stores inside a buffer leave what lies behind it. -/
theorem stored_of_outside {size : Nat} {stores : List (Store α)}
    (h : ∀ store ∈ stores, store.Inside size) (cells : Nat → α) {i : Nat} (hi : size ≤ i) :
    stored cells stores i = cells i := by
  induction stores generalizing cells with
  | nil => rfl
  | cons store stores ih =>
    have hstore : store.off + store.items.length ≤ size := h store List.mem_cons_self
    rw [stored_cons, ih (fun s hs ↦ h s (List.mem_cons_of_mem _ hs)), copyAt_of_outside]
    exact .inr (hstore.trans hi)

/-! ### Slices -/

theorem slice_congr {cells cells' : Nat → α} {off n : Nat}
    (h : ∀ i, off ≤ i → i < off + n → cells i = cells' i) :
    slice cells off n = slice cells' off n :=
  List.map_congr_left fun i hi ↦ by
    have := List.mem_range.mp hi
    exact h _ (by omega) (by omega)

theorem slice_add (cells : Nat → α) (off m n : Nat) :
    slice cells off (m + n) = slice cells off m ++ slice cells (off + m) n := by
  rw [slice, List.range_add, List.map_append, List.map_map]
  simp [slice, Function.comp_def, Nat.add_assoc]

theorem slice_copyAt_self (cells : Nat → α) (off : Nat) (items : List α) :
    slice (copyAt cells off items) off items.length = items := by
  apply List.ext_getElem (length_slice ..)
  intro i _ hi
  simp only [slice, List.getElem_map, List.getElem_range]
  exact copyAt_of_lt hi

/-- A store takes the place of what stood there. -/
theorem slice_copyAt {cells : Nat → α} {off size : Nat} {items : List α}
    (h : off + items.length ≤ size) : slice (copyAt cells off items) 0 size =
      (slice cells 0 size).take off ++ items ++ (slice cells 0 size).drop (off + items.length) := by
  obtain ⟨n, rfl⟩ := Nat.exists_eq_add_of_le h
  have hbefore : slice (copyAt cells off items) 0 off = slice cells 0 off :=
    slice_congr fun i _ hi ↦ copyAt_of_outside (.inl (by omega))
  have hbehind : slice (copyAt cells off items) (0 + (off + items.length)) n =
      slice cells (0 + (off + items.length)) n :=
    slice_congr fun i hi _ ↦ copyAt_of_outside (.inr (by omega))
  have hcopied := slice_copyAt_self cells (0 + off) items
  rw [Nat.zero_add] at hcopied
  rw [slice_add, hbehind, slice_add, hbefore, Nat.zero_add, hcopied]
  congr 1
  · rw [slice_add, slice_add, List.append_assoc, List.take_append_of_le_length (by simp),
      List.take_of_length_le (by simp)]
  · rw [slice_add, List.drop_append_of_le_length (by simp), List.drop_eq_nil_of_le (by simp),
      List.nil_append, Nat.zero_add]

/-- What is stored behind a slice is appended to it. -/
theorem slice_copyAt_end (cells : Nat → α) (off : Nat) (items : List α) :
    slice (copyAt cells off items) 0 (off + items.length) = slice cells 0 off ++ items := by
  rw [slice_copyAt (Nat.le_refl _), slice_add, List.take_append_of_le_length (by simp),
    List.take_of_length_le (by simp), List.drop_eq_nil_of_le (by simp), List.append_nil]

end Kitty.Base
