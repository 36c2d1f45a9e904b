import Mathlib.Data.List.Basic

/-!
# Items in pieces

A stream that is the encoding of items one after the other, and arrives in pieces. A reader that
reads each piece for itself reads the items when every piece is made of whole ones; where a piece
is not, one of them ends inside the encoding of an item.
-/

namespace Kitty.Base

variable {ι α β : Type} {encode : ι → List α}

/-- Every piece is made of whole items. -/
def WholeItems (encode : ι → List α) (items : List ι) (pieces : List (List α)) : Prop :=
  ∃ groups : List (List ι), groups.flatten = items ∧ pieces = groups.map (List.flatMap encode)

/-- The piece ends inside the encoding of an item. -/
def CutsItem (encode : ι → List α) (piece : List α) : Prop :=
  ∃ (items : List ι) (item : ι) (part rest : List α), piece = items.flatMap encode ++ part ∧
    encode item = part ++ rest ∧ part ≠ [] ∧ rest ≠ []

theorem WholeItems.cons {items items' : List ι} {pieces : List (List α)}
    (h : WholeItems encode items pieces) :
    WholeItems encode (items' ++ items) (items'.flatMap encode :: pieces) := by
  obtain ⟨groups, rfl, rfl⟩ := h
  exact ⟨items' :: groups, rfl, rfl⟩

/-- A first piece of an encoding is made of whole items or ends inside one. -/
private theorem first_piece {items : List ι} {piece rest : List α}
    (h : items.flatMap encode = piece ++ rest) : CutsItem encode piece ∨
      ∃ items₁ items₂, items = items₁ ++ items₂ ∧ piece = items₁.flatMap encode ∧
        rest = items₂.flatMap encode := by
  rw [List.flatMap_def] at h
  rcases List.flatten_eq_append_iff.mp h with
    ⟨as, bs, hitems, rfl, rfl⟩ | ⟨as, part, c, cs, ds, hitems, rfl, rfl⟩
  · obtain ⟨items₁, items₂, rfl, rfl, rfl⟩ := List.map_eq_append_iff.mp hitems
    exact .inr ⟨items₁, items₂, rfl, List.flatMap_def.symm, List.flatMap_def.symm⟩
  · obtain ⟨items₁, tail, rfl, rfl, htail⟩ := List.map_eq_append_iff.mp hitems
    obtain ⟨item, items₂, rfl, hitem, rfl⟩ := List.map_eq_cons_iff.mp htail
    rw [← List.flatMap_def, ← List.flatMap_def]
    by_cases hpart : part = []
    · subst hpart
      exact .inr ⟨items₁, item :: items₂, rfl, List.append_nil _,
        by rw [List.flatMap_cons, hitem, List.nil_append]⟩
    · exact .inl ⟨items₁, item, part, c :: cs, rfl, hitem, hpart, List.cons_ne_nil c cs⟩

/-- Pieces of an encoding that do not end inside an item are made of whole ones. -/
theorem wholeItems_of_not_cuts {items : List ι} {pieces : List (List α)}
    (hne : ∀ item, encode item ≠ []) (h : pieces.flatten = items.flatMap encode)
    (hcut : ∀ piece ∈ pieces, ¬CutsItem encode piece) : WholeItems encode items pieces := by
  induction pieces generalizing items with
  | nil =>
    cases items with
    | nil => exact ⟨[], rfl, rfl⟩
    | cons item items =>
      rw [List.flatMap_cons, List.flatten_nil, eq_comm, List.append_eq_nil_iff] at h
      exact absurd h.1 (hne item)
  | cons piece pieces ih =>
    rcases first_piece h.symm with hpiece | ⟨items₁, items₂, rfl, rfl, hrest⟩
    · exact absurd hpiece (hcut piece List.mem_cons_self)
    · exact (ih hrest fun p hp ↦ hcut p (List.mem_cons_of_mem _ hp)).cons

/-- What is read piece by piece from whole items is what the items say. -/
theorem WholeItems.flatMap_eq {read : List α → List β} {say : ι → List β} {items : List ι}
    {pieces : List (List α)} (h : WholeItems encode items pieces)
    (hread : ∀ items : List ι, read (items.flatMap encode) = items.flatMap say) :
    pieces.flatMap read = items.flatMap say := by
  obtain ⟨groups, rfl, rfl⟩ := h
  induction groups with
  | nil => rfl
  | cons group groups ih =>
    rw [List.map_cons, List.flatMap_cons, hread, ih, List.flatten_cons, List.flatMap_append]

end Kitty.Base
