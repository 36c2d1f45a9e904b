import Kitty.Base.Bytes
import Mathlib.Data.List.Infix

/-!
# Where a word can occur

A word occurs in text that is put together from pieces inside one of the pieces, when what stands
between two of them is not in the word, or is its first element and occurs in it only there.
-/

namespace Kitty.Base

variable {α : Type} {word a b : List α} {x : α}

/-- A list without an element stands before or behind it. -/
theorem infix_append_cons {α : Type} {l a b : List α} {x : α} (hl : x ∉ l)
    (h : l <:+: a ++ x :: b) : l <:+: a ∨ l <:+: b := by
  obtain ⟨before, after, heq⟩ := h
  rw [List.append_assoc] at heq
  rcases List.append_eq_append_iff.mp heq with ⟨c, ha, hrest⟩ | ⟨c, hbefore, hrest⟩
  · rcases List.append_eq_append_iff.mp hrest with ⟨d, hc, -⟩ | ⟨d, hld, hd⟩
    · left
      exact ⟨before, d, by rw [ha, hc, List.append_assoc]⟩
    · cases d with
      | nil =>
        left
        rw [List.append_nil] at hld
        exact ⟨before, [], by rw [ha, hld, List.append_nil]⟩
      | cons y d =>
        rw [List.cons_append, List.cons.injEq] at hd
        exact absurd (by rw [hld, ← hd.1]; simp) hl
  · right
    cases c with
    | nil =>
      cases l with
      | nil => exact List.nil_infix
      | cons y l =>
        rw [List.nil_append, List.cons_append, List.cons.injEq] at hrest
        exact absurd (by rw [hrest.1]; exact List.mem_cons_self) hl
    | cons y c =>
      rw [List.cons_append, List.cons.injEq] at hrest
      exact ⟨c, after, by rw [List.append_assoc, ← hrest.2]⟩

/-- An element that is not in the word divides the search. -/
theorem infix_append_cons_iff (h : x ∉ word) :
    word <:+: a ++ x :: b ↔ word <:+: a ∨ word <:+: b := by
  refine ⟨infix_append_cons h, ?_⟩
  rintro (ha | hb)
  · exact ha.trans (List.prefix_append a _).isInfix
  · exact hb.trans ((List.suffix_cons x b).trans (List.suffix_append a _)).isInfix

/-- A word whose first element occurs in it only there does not begin before that element and
end behind it. -/
theorem infix_append_head_iff {w : List α} (h : x ∉ w) :
    x :: w <:+: a ++ x :: b ↔ x :: w <:+: a ∨ x :: w <:+: x :: b := by
  constructor
  · rintro ⟨before, after, heq⟩
    rw [List.append_assoc] at heq
    rcases List.append_eq_append_iff.mp heq with ⟨c, ha, hrest⟩ | ⟨c, hbefore, hrest⟩
    · rcases List.append_eq_append_iff.mp hrest with ⟨d, hc, -⟩ | ⟨d, hd, hxb⟩
      · exact .inl ⟨before, d, by rw [ha, hc, List.append_assoc]⟩
      · cases c with
        | nil =>
          right
          rw [List.nil_append] at hrest
          exact ⟨[], after, by rw [List.nil_append, hrest]⟩
        | cons y c =>
          rw [List.cons_append, List.cons.injEq] at hd
          cases d with
          | nil => exact .inl ⟨before, [], by rw [ha, hd.1, hd.2]; simp⟩
          | cons z d =>
            rw [List.cons_append, List.cons.injEq] at hxb
            exact absurd (by rw [hd.2, hxb.1]; simp) h
    · exact .inr ⟨c, after, by rw [hrest, List.append_assoc]⟩
  · rintro (ha | hb)
    · exact ha.trans (List.prefix_append a _).isInfix
    · exact hb.trans (List.suffix_append a _).isInfix

/-- Where its first element does not stand, it does not begin. -/
theorem infix_append_of_not_mem {w : List α} (h : x ∉ a) :
    x :: w <:+: a ++ b ↔ x :: w <:+: b := by
  induction a with
  | nil => rfl
  | cons y a ih =>
    have hy : ¬ x :: w <+: y :: (a ++ b) := fun hp ↦
      h ((List.cons_prefix_cons.mp hp).1 ▸ List.mem_cons_self)
    rw [List.cons_append, List.infix_cons_iff, ih fun hx ↦ h (List.mem_cons_of_mem _ hx)]
    exact or_iff_right hy

/-- A word that opens with such an opening stands at it, or behind it. -/
theorem infix_opening_iff {w t v : List α} (h : x ∉ w) :
    x :: w ++ t <:+: x :: w ++ v ↔ t <+: v ∨ x :: w ++ t <:+: v := by
  constructor
  · rintro ⟨before, after, heq⟩
    cases before with
    | nil =>
      rw [List.nil_append, List.append_assoc] at heq
      exact .inl ⟨after, List.append_cancel_left heq⟩
    | cons y before =>
      have heq : before ++ (x :: w ++ t) ++ after = w ++ v := (List.cons.inj heq).2
      rw [List.append_assoc] at heq
      rcases List.append_eq_append_iff.mp heq with ⟨c, hw, hrest⟩ | ⟨c, hbefore, hrest⟩
      · cases c with
        | nil => exact .inr ⟨[], after, by simpa using hrest⟩
        | cons z c =>
          rw [List.cons_append, List.cons_append, List.cons_append, List.cons.injEq] at hrest
          exact absurd (by rw [hw, ← hrest.1]; simp) h
      · exact .inr ⟨c, after, by rw [hrest, List.append_assoc]⟩
  · rintro (⟨rest, rfl⟩ | hv)
    · exact ⟨[], rest, by simp⟩
    · exact hv.trans (List.suffix_append (x :: w) v).isInfix

/-- `strstr` finds a word that occurs. -/
theorem isSome_strstr_iff {needle hay : Bytes} : (strstr needle hay).isSome ↔ needle <:+: hay := by
  induction hay with
  | nil =>
    rw [strstr, List.infix_nil]
    split <;> simp_all
  | cons c rest ih =>
    rw [strstr, List.infix_cons_iff, ← ih]
    split
    · next hp => simp [List.isPrefixOf_iff_prefix.mp hp]
    · next hp =>
      have hno : ¬ needle <+: c :: rest := fun h ↦ hp (List.isPrefixOf_iff_prefix.mpr h)
      simp [hno]

/-- What is found is the end of the text. -/
theorem suffix_of_strstr {needle hay found : Bytes} (h : strstr needle hay = some found) :
    found <:+ hay ∧ needle <+: found := by
  induction hay with
  | nil =>
    rw [strstr] at h
    split at h
    · next hnil =>
      cases h
      exact ⟨List.suffix_rfl, hnil ▸ List.nil_prefix⟩
    · cases h
  | cons b rest ih =>
    rw [strstr] at h
    split at h
    · next hp =>
      cases h
      exact ⟨List.suffix_rfl, List.isPrefixOf_iff_prefix.mp hp⟩
    · obtain ⟨hsuffix, hprefix⟩ := ih h
      exact ⟨hsuffix.trans (List.suffix_cons b rest), hprefix⟩

/-- What is found in the beginning of a text is found in the text. -/
theorem strstr_append {needle hay found : Bytes} (h : strstr needle hay = some found)
    (rest : Bytes) (hne : needle ≠ []) : strstr needle (hay ++ rest) = some (found ++ rest) := by
  induction hay with
  | nil =>
    rw [strstr, if_neg hne] at h
    cases h
  | cons b hay ih =>
    rw [strstr] at h
    rw [List.cons_append, strstr]
    split at h
    · next hp =>
      have hlong : needle <+: b :: (hay ++ rest) :=
        (List.isPrefixOf_iff_prefix.mp hp).trans (List.prefix_append (b :: hay) rest)
      cases h
      rw [if_pos (List.isPrefixOf_iff_prefix.mpr hlong), List.cons_append]
    · next hp =>
      rw [ih h, if_neg]
      intro hlong
      obtain ⟨hsuffix, hprefix⟩ := suffix_of_strstr h
      refine hp (List.isPrefixOf_iff_prefix.mpr ?_)
      have hle := hprefix.length_le.trans hsuffix.length_le
      exact List.prefix_of_prefix_length_le (List.isPrefixOf_iff_prefix.mp hlong)
        (List.prefix_append (b :: hay) rest) (by rw [List.length_cons]; omega)

/-- What a C program sees of text in two parts. -/
theorem cstr_append (a b : Bytes) : cstr (a ++ b) = if NUL ∈ a then cstr a else a ++ cstr b := by
  induction a with
  | nil => rfl
  | cons c a ih =>
    unfold cstr at ih ⊢
    by_cases hc : c = NUL
    · simp [hc]
    · rw [List.cons_append, List.takeWhile_cons_of_pos (by simpa using hc),
        List.takeWhile_cons_of_pos (by simpa using hc), ih]
      have hmem : NUL ∈ c :: a ↔ NUL ∈ a := by
        rw [List.mem_cons]
        exact or_iff_right fun h ↦ hc h.symm
      by_cases ha : NUL ∈ a
      · rw [if_pos ha, if_pos (hmem.mpr ha)]
      · rw [if_neg ha, if_neg fun h ↦ ha (hmem.mp h), List.cons_append]

end Kitty.Base
