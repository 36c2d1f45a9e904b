import Kitty.Base.Trim
import Mathlib.Data.List.Infix

/-!
# The first occurrence of a word

Where a word occurs first in a text, as `std::string::find` and `strstr` find it. An element that
is not in the word divides the search, and a word that ends in the first element of its kind is
found where that element stands first.
-/

namespace Kitty.Base

variable {α : Type} [DecidableEq α]

/-- The place of the first occurrence of the word. -/
def find (word : List α) : List α → Option Nat
  | [] => if word = [] then some 0 else none
  | b :: text =>
    if word.isPrefixOf (b :: text) then some 0 else (find word text).map (· + 1)

/-- The place of the first occurrence that does not begin before another place. -/
def findFrom (word text : List α) (start : Nat) : Option Nat :=
  (find word (text.drop start)).map (· + start)

/-- The places of the word that do not begin before another place, each behind the end of the one
before it. -/
def places (word text : List α) : Nat → Nat → List Nat
  | 0, _ => []
  | rounds + 1, start =>
    match findFrom word text start with
    | none => []
    | some i => i :: places word text rounds (i + word.length)

variable {word text rest : List α} {sep : α}

theorem find_nil (h : word ≠ []) : find word [] = none := if_neg h

theorem find_cons_of_eq {b : α} (h : word <+: b :: text) : find word (b :: text) = some 0 :=
  if_pos (List.isPrefixOf_iff_prefix.mpr h)

theorem find_cons_of_ne {b : α} (h : ¬ word <+: b :: text) :
    find word (b :: text) = (find word text).map (· + 1) :=
  if_neg fun hp ↦ h (List.isPrefixOf_iff_prefix.mp hp)

/-- The word stands where it is found. -/
theorem prefix_of_find {i : Nat} (h : find word text = some i) : word <+: text.drop i := by
  induction text generalizing i with
  | nil =>
    rw [find] at h
    split at h
    · next hnil =>
      rw [hnil]
      exact List.nil_prefix
    · cases h
  | cons b text ih =>
    by_cases hp : word <+: b :: text
    · rw [find_cons_of_eq hp] at h
      cases h
      exact hp
    · rw [find_cons_of_ne hp, Option.map_eq_some_iff] at h
      obtain ⟨j, hj, rfl⟩ := h
      exact ih hj

/-- So it ends in the text. -/
theorem find_add_length_le {i : Nat} (h : find word text = some i) (hne : word ≠ []) :
    i + word.length ≤ text.length := by
  have hle := (prefix_of_find h).length_le
  have hpos := List.length_pos_iff.mpr hne
  rw [List.length_drop] at hle
  omega

/-- A word is not found behind a place where it stands. -/
theorem find_le (word before after : List α) :
    ∃ i ≤ before.length, find word (before ++ (word ++ after)) = some i := by
  induction before with
  | nil =>
    refine ⟨0, Nat.le_refl _, ?_⟩
    rw [List.nil_append]
    cases h : word ++ after with
    | nil =>
      rw [(List.append_eq_nil_iff.mp h).1]
      rfl
    | cons b text =>
      apply find_cons_of_eq
      rw [← h]
      exact List.prefix_append _ _
  | cons b before ih =>
    obtain ⟨i, hi, hfind⟩ := ih
    rw [List.cons_append]
    by_cases hp : word <+: b :: (before ++ (word ++ after))
    · exact ⟨0, Nat.zero_le _, find_cons_of_eq hp⟩
    · refine ⟨i + 1, by simpa using hi, ?_⟩
      rw [find_cons_of_ne hp, hfind]
      rfl

/-- A word is not found in a text without one of its elements. -/
theorem find_of_not_mem (hsep : sep ∈ word) (h : sep ∉ text) : find word text = none := by
  cases hfind : find word text with
  | none => rfl
  | some i => exact absurd (List.mem_of_mem_drop ((prefix_of_find hfind).subset hsep)) h

/-! ### Searching in parts -/

omit [DecidableEq α] in
/-- A word without the separator that begins a text ends before it. -/
theorem prefix_append_cons_iff (h : sep ∉ word) :
    word <+: text ++ sep :: rest ↔ word <+: text := by
  constructor
  · intro hp
    rcases Nat.lt_or_ge text.length word.length with hlt | hge
    · have hin : text ++ [sep] <+: word := by
        have hsep : text ++ [sep] <+: text ++ sep :: rest := ⟨rest, by simp⟩
        apply List.prefix_of_prefix_length_le hsep hp
        rw [List.length_append, List.length_singleton]
        exact hlt
      exact absurd (hin.subset (by simp)) h
    · exact List.prefix_of_prefix_length_le hp (List.prefix_append _ _) hge
  · exact fun hp ↦ hp.trans (List.prefix_append _ _)

/-- A separator that is not in the word divides the search. -/
theorem find_append_cons (hne : word ≠ []) (h : sep ∉ word) (text rest : List α) :
    find word (text ++ sep :: rest) =
      (find word text).or ((find word rest).map (· + (text.length + 1))) := by
  induction text with
  | nil =>
    rw [List.nil_append, find_nil hne, Option.none_or, List.length_nil, Nat.zero_add]
    apply find_cons_of_ne
    intro hp
    have hnil : word <+: [] := (prefix_append_cons_iff h).mp hp
    exact hne (List.prefix_nil.mp hnil)
  | cons b text ih =>
    have hiff : word <+: b :: (text ++ sep :: rest) ↔ word <+: b :: text :=
      @prefix_append_cons_iff _ _ (b :: text) _ _ h
    rw [List.cons_append]
    by_cases hp : word <+: b :: text
    · rw [find_cons_of_eq (hiff.mpr hp), find_cons_of_eq hp, Option.some_or]
    · rw [find_cons_of_ne (hp ∘ hiff.mp), find_cons_of_ne hp, ih]
      cases find word text with
      | some i => rfl
      | none =>
        rw [Option.none_or, Option.map_none, Option.none_or, Option.map_map]
        congr 1

/-- Where the first element of the word does not stand, the word is not found. -/
theorem find_skip {b : α} (h : b ∉ text) (rest : List α) :
    find (b :: word) (text ++ rest) = (find (b :: word) rest).map (· + text.length) := by
  induction text with
  | nil => simp
  | cons c text ih =>
    have hne : ¬ b :: word <+: c :: (text ++ rest) := by
      rw [List.cons_prefix_cons]
      rintro ⟨rfl, -⟩
      exact h List.mem_cons_self
    rw [List.cons_append, find_cons_of_ne hne,
      ih fun hmem ↦ h (List.mem_cons_of_mem _ hmem), Option.map_map]
    congr 1

/-- What stands before the first mark is the same in equal texts. -/
theorem eq_of_append_mark {mark : α} {a b c d : List α} (ha : mark ∉ a) (hb : mark ∉ b)
    (h : a ++ mark :: c = b ++ mark :: d) : a = b := by
  rw [← takeWhile_ne_append_cons ha c, h, takeWhile_ne_append_cons hb]

/-- A name that ends at a mark is found before the first mark, when what stands there ends with
the name, and else behind that mark. -/
theorem find_mark {mark : α} {name key : List α} (hname : mark ∉ name) (hkey : mark ∉ key)
    (rest : List α) :
    find (name ++ [mark]) (key ++ mark :: rest) =
      if name <:+ key then some (key.length - name.length)
      else (find (name ++ [mark]) rest).map (· + (key.length + 1)) := by
  -- The name stands before the first mark only as a whole.
  have hprefix : ∀ key : List α, mark ∉ key →
      (name ++ [mark] <+: key ++ mark :: rest ↔ name = key) := by
    intro key hkey
    constructor
    · rintro ⟨after, hafter⟩
      rw [List.append_assoc, List.singleton_append] at hafter
      exact eq_of_append_mark hname hkey hafter
    · rintro rfl
      exact ⟨rest, by simp⟩
  induction key with
  | nil =>
    have hiff := hprefix [] List.not_mem_nil
    rw [List.nil_append] at hiff ⊢
    by_cases hnil : name = []
    · rw [find_cons_of_eq (hiff.mpr hnil), if_pos (hnil ▸ List.nil_suffix)]
      rw [List.length_nil, Nat.zero_sub]
    · rw [find_cons_of_ne (hnil ∘ hiff.mp), if_neg (hnil ∘ List.suffix_nil.mp)]
      rfl
  | cons b key ih =>
    have hkey' : mark ∉ key := fun h ↦ hkey (List.mem_cons_of_mem _ h)
    have hiff := hprefix (b :: key) hkey
    rw [List.cons_append] at hiff ⊢
    by_cases heq : name = b :: key
    · rw [find_cons_of_eq (hiff.mpr heq), if_pos (heq ▸ List.suffix_refl _), heq, Nat.sub_self]
    · have hsuffix : name <:+ b :: key ↔ name <:+ key := by
        rw [List.suffix_cons_iff]
        exact or_iff_right heq
      rw [find_cons_of_ne (heq ∘ hiff.mp), ih hkey']
      simp only [hsuffix]
      split
      · next h =>
        have := h.length_le
        rw [Option.map_some, List.length_cons, Option.some.injEq]
        omega
      · rw [Option.map_map]
        congr 1

end Kitty.Base
