import Kitty.Base.Blank

/-!
# Words in the pieces of a text

A text divided at bytes that a word does not have has the word somewhere when one of its pieces
has.
-/

namespace Kitty.Base

/-- The word stands somewhere in the text. -/
def Spelling.occurs (w : Spelling) (text : Bytes) : Bool := text.tails.any w.opens

theorem Spelling.occurs_iff {w : Spelling} {text : Bytes} :
    w.occurs text = true ↔ ∃ k, w.opens (text.drop k) = true := by
  rw [Spelling.occurs, List.any_eq_true]
  constructor
  · rintro ⟨rest, hrest, h⟩
    rw [List.suffix_iff_eq_drop.mp ((List.mem_tails _ _).mp hrest)] at h
    exact ⟨_, h⟩
  · rintro ⟨k, h⟩
    exact ⟨_, (List.mem_tails _ _).mpr (List.drop_suffix k text), h⟩

theorem Spelling.length_le_of_occurs {w : Spelling} {text : Bytes} (h : w.occurs text = true) :
    w.length ≤ text.length := by
  obtain ⟨k, hk⟩ := Spelling.occurs_iff.mp h
  refine (Spelling.length_le_of_opens hk).trans ?_
  rw [List.length_drop]
  exact Nat.sub_le _ _

/-- A longer text has the words of a part of it. -/
theorem Spelling.occurs_of_infix {w : Spelling} {part text : Bytes} (hpart : part <:+: text)
    (h : w.occurs part = true) : w.occurs text = true := by
  obtain ⟨front, back, rfl⟩ := hpart
  obtain ⟨k, hk⟩ := Spelling.occurs_iff.mp h
  refine Spelling.occurs_iff.mpr ⟨front.length + k, ?_⟩
  have hdrop : (front ++ part ++ back).drop (front.length + k) = (part ++ back).drop k := by
    rw [List.append_assoc, ← List.drop_drop, List.drop_left]
  rw [hdrop, List.drop_append]
  exact Spelling.opens_append hk _

section Pieces

variable {α : Type} {p : α → Bool}

/-- A text has no dividing element, or a first one. -/
theorem splitOnP_induction {motive : List α → Prop}
    (single : ∀ text, (∀ b ∈ text, p b = false) → motive text)
    (divide : ∀ front sep rest, (∀ b ∈ front, p b = false) → p sep = true → motive rest →
      motive (front ++ sep :: rest)) (text : List α) : motive text := by
  induction hlen : text.length using Nat.strong_induction_on generalizing text with
  | _ n ih =>
    have hsplit := List.takeWhile_append_dropWhile (p := (!p ·)) (l := text)
    have hfront : ∀ b ∈ text.takeWhile (!p ·), p b = false := fun b hb ↦ by
      simpa using List.mem_takeWhile_imp hb
    cases hrest : text.dropWhile (!p ·) with
    | nil =>
      rw [hrest, List.append_nil] at hsplit
      exact single text (hsplit ▸ hfront)
    | cons sep rest =>
      have hsep : p sep = true := by
        have h := List.head?_dropWhile_not (!p ·) text
        rw [hrest] at h
        simpa using h
      rw [hrest] at hsplit
      rw [← hsplit] at hlen ⊢
      refine divide _ sep rest hfront hsep (ih rest.length ?_ rest rfl)
      rw [← hlen, List.length_append, List.length_cons]
      omega

/-- The pieces of a text are parts of it. -/
theorem infix_of_mem_splitOnP {piece text : List α} (h : piece ∈ text.splitOnP p) :
    piece <:+: text := by
  induction text using splitOnP_induction (p := p) with
  | single text hnone =>
    rw [List.splitOnP_eq_singleton hnone, List.mem_singleton] at h
    exact h ▸ List.infix_rfl
  | divide front sep rest hfront hsep ih =>
    rw [List.splitOnP_append_cons_of_forall_mem hfront sep hsep] at h
    rcases List.mem_cons.mp h with rfl | h
    · exact List.infix_append' [] piece _
    · refine (ih h).trans (List.IsSuffix.isInfix ?_)
      exact (List.suffix_cons sep rest).trans (List.suffix_append _ _)

/-- A part without dividing elements is in one of the pieces. -/
theorem exists_infix_splitOnP {part text : List α} (hpart : part <:+: text)
    (h : ∀ b ∈ part, p b = false) : ∃ piece ∈ text.splitOnP p, part <:+: piece := by
  induction text using splitOnP_induction (p := p) with
  | single text hnone => exact ⟨text, by simp [List.splitOnP_eq_singleton hnone], hpart⟩
  | divide front sep rest hfront hsep ih =>
    rw [List.splitOnP_append_cons_of_forall_mem hfront sep hsep]
    have hnot : sep ∉ part := fun hmem ↦ by simp [h sep hmem] at hsep
    rcases (infix_append_cons_iff hnot).mp hpart with hleft | hright
    · exact ⟨front, by simp, hleft⟩
    · obtain ⟨piece, hpiece, hin⟩ := ih hright
      exact ⟨piece, List.mem_cons_of_mem _ hpiece, hin⟩

end Pieces

variable {w : Spelling} {sep : UInt8 → Bool}

/-- A word without dividing bytes stands in the text when it stands in one of the pieces. -/
theorem Spelling.occurs_splitOnP_iff (h : ∀ places ∈ w, ∀ b ∈ places, sep b = false)
    {text : Bytes} : w.occurs text = true ↔ ∃ piece ∈ text.splitOnP sep, w.occurs piece = true := by
  constructor
  · intro hocc
    obtain ⟨k, hk⟩ := Spelling.occurs_iff.mp hocc
    obtain ⟨here, rest, hdrop, -, hopens, hmem⟩ := Spelling.exists_of_opens hk
    have hpart : here <:+: text :=
      (hdrop ▸ List.prefix_append here rest).isInfix.trans (List.drop_suffix k text).isInfix
    have hnone : ∀ b ∈ here, sep b = false := by
      intro b hb
      obtain ⟨places, hplaces, hin⟩ := hmem b hb
      exact h places hplaces b hin
    obtain ⟨piece, hpiece, hin⟩ := exists_infix_splitOnP hpart hnone
    exact ⟨piece, hpiece, Spelling.occurs_of_infix hin (Spelling.occurs_iff.mpr ⟨0, hopens⟩)⟩
  · rintro ⟨piece, hpiece, hocc⟩
    exact Spelling.occurs_of_infix (infix_of_mem_splitOnP hpiece) hocc

/-- A word without dividing bytes does not go over one. -/
theorem Spelling.occurs_append_cons_iff (h : ∀ places ∈ w, ∀ b ∈ places, sep b = false) {x : UInt8}
    (hx : sep x = true) {front back : Bytes} : w.occurs (front ++ x :: back) = true ↔
      w.occurs front = true ∨ w.occurs back = true := by
  rw [Spelling.occurs_splitOnP_iff h, Spelling.occurs_splitOnP_iff h,
    Spelling.occurs_splitOnP_iff h, List.splitOnP_append_cons _ _ hx]
  constructor
  · rintro ⟨piece, hpiece, hocc⟩
    rcases List.mem_append.mp hpiece with hpiece | hpiece
    · exact .inl ⟨piece, hpiece, hocc⟩
    · exact .inr ⟨piece, hpiece, hocc⟩
  · rintro (⟨piece, hpiece, hocc⟩ | ⟨piece, hpiece, hocc⟩)
    · exact ⟨piece, List.mem_append_left _ hpiece, hocc⟩
    · exact ⟨piece, List.mem_append_right _ hpiece, hocc⟩

/-- It is not found in what dividing bytes fill up. -/
theorem Spelling.occurs_append_replicate_iff (h : ∀ places ∈ w, ∀ b ∈ places, sep b = false)
    (hne : w ≠ []) {x : UInt8} (hx : sep x = true) {front : Bytes} (n : Nat) :
    w.occurs (front ++ List.replicate n x) = true ↔ w.occurs front = true := by
  have hnil : ¬ w.occurs [] = true := by
    rw [Spelling.occurs_iff]
    rintro ⟨k, hk⟩
    rw [List.drop_nil] at hk
    exact hne (List.eq_nil_of_length_eq_zero (Nat.le_zero.mp (Spelling.length_le_of_opens hk)))
  induction n generalizing front with
  | zero => rw [List.replicate_zero, List.append_nil]
  | succ n ih =>
    have hnone : ¬ w.occurs ([] ++ List.replicate n x) = true := fun h ↦ hnil (ih.mp h)
    rw [List.replicate_succ, Spelling.occurs_append_cons_iff h hx]
    exact or_iff_left hnone

end Kitty.Base
