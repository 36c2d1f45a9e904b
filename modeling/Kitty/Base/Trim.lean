import Mathlib.Data.List.DropRight
import Mathlib.Data.List.TakeWhile

/-!
# Trimmed texts and texts in lines

A text is trimmed of the elements at both its ends that are to be skipped. What stands before and
behind it does not matter, and an element inside it that is kept divides the work in two. A text
with a separator is divided by the first one, and a text that is read line by line is read as the
list of its lines.
-/

namespace Kitty.Base

variable {α : Type} {p q : α → Bool}

/-- The list without the elements at its ends that are skipped. -/
def trimBy (p : α → Bool) (s : List α) : List α := (s.dropWhile p).rdropWhile p

/-- Nothing is left when everything is skipped. -/
theorem trimBy_of_all {s : List α} (h : ∀ b ∈ s, p b = true) : trimBy p s = [] := by
  rw [trimBy, List.dropWhile_eq_nil_iff.mpr h, List.rdropWhile_nil]

private theorem rdropWhile_append_of_all {s y : List α} (h : ∀ b ∈ y, p b = true) :
    (s ++ y).rdropWhile p = s.rdropWhile p := by
  have hy : ∀ b ∈ y.reverse, p b = true := fun b hb ↦ h b (List.mem_reverse.mp hb)
  rw [List.rdropWhile, List.rdropWhile, List.reverse_append, List.dropWhile_append_of_pos hy]

/-- What is skipped before the list does not matter. -/
theorem trimBy_append_left {x s : List α} (h : ∀ b ∈ x, p b = true) :
    trimBy p (x ++ s) = trimBy p s := by
  rw [trimBy, List.dropWhile_append_of_pos h, trimBy]

/-- What is skipped behind it does not matter. -/
theorem trimBy_append_right {s y : List α} (h : ∀ b ∈ y, p b = true) :
    trimBy p (s ++ y) = trimBy p s := by
  rw [trimBy, List.dropWhile_append]
  split
  · next hs =>
    rw [List.dropWhile_eq_nil_iff.mpr h, trimBy, List.isEmpty_iff.mp hs]
  · rw [rdropWhile_append_of_all h, trimBy]

/-- A list and the skipped elements at its end. -/
theorem exists_rdropWhile_append (p : α → Bool) (s : List α) :
    ∃ y, s = s.rdropWhile p ++ y ∧ ∀ b ∈ y, p b = true :=
  ⟨s.rtakeWhile p, List.rdropWhile_append_rtakeWhile.symm, fun _ ↦ List.mem_rtakeWhile_imp⟩

/-- What is skipped at the end of a list goes on at what is skipped behind it. -/
theorem rtakeWhile_append {s t : List α} (h : ∀ b ∈ t, p b = true) :
    (s ++ t).rtakeWhile p = s.rtakeWhile p ++ t := by
  have hreverse : ∀ b ∈ t.reverse, p b = true := fun b hb ↦ h b (List.mem_reverse.mp hb)
  rw [List.rtakeWhile, List.reverse_append, List.takeWhile_append_of_pos hreverse,
    List.reverse_append, List.reverse_reverse, List.rtakeWhile]

/-- Of the beginning of a list, no more is taken than of the list. -/
theorem takeWhile_prefix_takeWhile {s t : List α} (h : s <+: t) :
    s.takeWhile p <+: t.takeWhile p := by
  obtain ⟨rest, rfl⟩ := h
  rw [List.takeWhile_append]
  split
  · next hall =>
    rw [(List.takeWhile_prefix p).eq_of_length hall]
    exact List.prefix_append _ _
  · exact List.prefix_rfl

/-- A list stands between the skipped elements around it. -/
theorem exists_trimBy (p : α → Bool) (s : List α) :
    ∃ x y, s = x ++ (trimBy p s ++ y) ∧ (∀ b ∈ x, p b = true) ∧ ∀ b ∈ y, p b = true := by
  obtain ⟨y, hy, hall⟩ := exists_rdropWhile_append p (s.dropWhile p)
  refine ⟨s.takeWhile p, y, ?_, fun b hb ↦ List.mem_takeWhile_imp hb, hall⟩
  rw [trimBy, ← hy, List.takeWhile_append_dropWhile]

/-- The end may be trimmed before. -/
theorem trimBy_rdropWhile (s : List α) : trimBy p (s.rdropWhile p) = trimBy p s := by
  obtain ⟨y, hy, hall⟩ := exists_rdropWhile_append p s
  calc trimBy p (s.rdropWhile p)
      _ = trimBy p (s.rdropWhile p ++ y) := (trimBy_append_right hall).symm
      _ = trimBy p s := by rw [← hy]

/-- The beginning may be trimmed before. -/
theorem trimBy_dropWhile (s : List α) : trimBy p (s.dropWhile p) = trimBy p s := by
  calc trimBy p (s.dropWhile p)
      _ = trimBy p (s.takeWhile p ++ s.dropWhile p) :=
        (trimBy_append_left fun _ ↦ List.mem_takeWhile_imp).symm
      _ = trimBy p s := by rw [List.takeWhile_append_dropWhile]

/-- An element that is kept ends what is skipped before it. -/
theorem dropWhile_append_cons {s t : List α} {b : α} (h : p b = false) :
    (s ++ b :: t).dropWhile p = s.dropWhile p ++ b :: t := by
  rw [List.dropWhile_append]
  split
  · next hs =>
    rw [List.isEmpty_iff.mp hs, List.dropWhile_cons_of_neg (by simp [h]), List.nil_append]
  · rfl

/-- Around an element that is kept, the beginning and the end are trimmed. -/
theorem trimBy_append_cons {s t : List α} {b : α} (h : p b = false) :
    trimBy p (s ++ b :: t) = s.dropWhile p ++ b :: t.rdropWhile p := by
  rw [trimBy, dropWhile_append_cons h, List.rdropWhile, List.reverse_append, List.reverse_cons,
    List.append_assoc, List.singleton_append, dropWhile_append_cons h]
  simp [List.rdropWhile]

/-- A list with no skipped element at its ends is left as it is. -/
theorem trimBy_eq_self {s : List α} (hhead : ∀ b ∈ s.head?, p b = false)
    (hlast : ∀ b ∈ s.getLast?, p b = false) : trimBy p s = s := by
  have hdrop : s.dropWhile p = s := by
    cases s with
    | nil => rfl
    | cons b s => exact List.dropWhile_cons_of_neg (by simp [hhead b rfl])
  rw [trimBy, hdrop, List.rdropWhile_eq_self_iff]
  intro hne
  simp [hlast _ (List.getLast?_eq_some_getLast hne)]

/-- A word between skipped elements begins where they end. -/
theorem dropWhile_word {x word y : List α} (hne : word ≠ []) (hx : ∀ b ∈ x, p b = true)
    (hword : ∀ b ∈ word, p b = false) : (x ++ (word ++ y)).dropWhile p = word ++ y := by
  rw [List.dropWhile_append_of_pos hx]
  cases word with
  | nil => contradiction
  | cons c word => exact List.dropWhile_cons_of_neg (by simp [hword c List.mem_cons_self])

/-- A word is left when what is skipped after it is trimmed. -/
theorem trimBy_word {word y : List α} (hy : ∀ b ∈ y, p b = true)
    (hword : ∀ b ∈ word, p b = false) : trimBy p (word ++ y) = word := by
  rw [trimBy_append_right hy]
  exact trimBy_eq_self (fun b hb ↦ hword b (List.mem_of_head? hb))
    fun b hb ↦ hword b (List.mem_of_getLast? hb)

/-- A trimmed list begins with nothing that is skipped. -/
theorem head?_trimBy (s : List α) : ∀ b ∈ (trimBy p s).head?, p b = false := by
  intro b hb
  obtain ⟨rest, hrest⟩ : trimBy p s <+: s.dropWhile p := List.rdropWhile_prefix _ _
  have hnot := List.head?_dropWhile_not p s
  rw [← hrest, List.head?_append, hb] at hnot
  simpa using hnot

/-- What is left of the beginning of a text begins where the text does, when it begins with
something that is never skipped. -/
theorem prefix_trimBy (hpq : ∀ b, p b = true → q b = true) {s a : List α} (ha : a <+: s)
    (hne : trimBy p a ≠ []) (hhead : ∀ b ∈ (trimBy p a).head?, q b = false) :
    trimBy p a <+: s.dropWhile q := by
  obtain ⟨x, y, hsplit, hx, -⟩ := exists_trimBy p a
  obtain ⟨rest, rfl⟩ := ha
  cases htrim : trimBy p a with
  | nil => contradiction
  | cons c t =>
    have hc : q c = false := hhead c (by rw [htrim]; rfl)
    rw [hsplit, htrim, List.append_assoc, List.dropWhile_append_of_pos fun b hb ↦ hpq b (hx b hb),
      List.cons_append, List.cons_append, List.dropWhile_cons_of_neg (by simp [hc])]
    exact ⟨y ++ rest, by simp⟩

/-- As much of a trimmed beginning of a text as fits is as much of another one, trimmed of more,
when it begins with nothing that is skipped there and is as long. -/
theorem take_trimBy_eq_iff (hpq : ∀ b, p b = true → q b = true) {s a b : List α} (ha : a <+: s)
    (hb : b <+: s) {m n : Nat} (hm : 0 < m) (hn : 0 < n) :
    (trimBy p a).take m = (trimBy q b).take n ↔
      (∀ c ∈ (trimBy p a).head?, q c = false) ∧
        min m (trimBy p a).length = min n (trimBy q b).length := by
  constructor
  · intro h
    refine ⟨fun c hc ↦ ?_, by rw [← List.length_take, h, List.length_take]⟩
    have hhead : ((trimBy p a).take m).head? = (trimBy p a).head? :=
      List.head?_take.trans (if_neg hm.ne')
    rw [h, List.head?_take, if_neg hn.ne'] at hhead
    exact head?_trimBy b c (hhead ▸ hc)
  · rintro ⟨hhead, hlength⟩
    by_cases hzero : min m (trimBy p a).length = 0
    · rw [List.eq_nil_of_length_eq_zero (List.length_take.trans hzero),
        List.eq_nil_of_length_eq_zero (List.length_take.trans (hlength.symm.trans hzero))]
    · have hleft : (trimBy p a).take m <+: s.dropWhile q :=
        (List.take_prefix _ _).trans (prefix_trimBy hpq ha
          (fun hnil ↦ hzero (by rw [hnil, List.length_nil, Nat.min_zero])) hhead)
      have hright : (trimBy q b).take n <+: s.dropWhile q :=
        (List.take_prefix _ _).trans (prefix_trimBy (fun _ ↦ id) hb
          (fun hnil ↦ hzero (by rw [hlength, hnil, List.length_nil, Nat.min_zero]))
          (head?_trimBy b))
      rw [List.prefix_iff_eq_take.mp hleft, List.prefix_iff_eq_take.mp hright, List.length_take,
        List.length_take, hlength]

/-! ### The first separator -/

section Separator

variable [DecidableEq α] {sep : α}

/-- The text before the separator. -/
theorem takeWhile_ne_append_cons {s : List α} (h : sep ∉ s) (t : List α) :
    (s ++ sep :: t).takeWhile (· ≠ sep) = s := by
  have hall : ∀ b ∈ s, decide (b ≠ sep) = true := fun b hb ↦
    decide_eq_true fun heq : b = sep ↦ h (heq ▸ hb)
  rw [List.takeWhile_append_of_pos hall, List.takeWhile_cons_of_neg (by simp), List.append_nil]

/-- The text from the separator on. -/
theorem dropWhile_ne_append_cons {s : List α} (h : sep ∉ s) (t : List α) :
    (s ++ sep :: t).dropWhile (· ≠ sep) = sep :: t := by
  have hall : ∀ b ∈ s, decide (b ≠ sep) = true := fun b hb ↦
    decide_eq_true fun heq : b = sep ↦ h (heq ▸ hb)
  rw [List.dropWhile_append_of_pos hall, List.dropWhile_cons_of_neg (by simp)]

/-- There is no separator before the first one. -/
theorem not_mem_takeWhile_ne (sep : α) (s : List α) : sep ∉ s.takeWhile (· ≠ sep) := fun h ↦ by
  simpa using List.mem_takeWhile_imp h

/-- What begins where the text before the separator ends begins with the separator. -/
theorem eq_of_dropWhile_ne {s t : List α} {b : α} (h : s.dropWhile (· ≠ sep) = b :: t) :
    b = sep := by
  have hnot := List.head?_dropWhile_not (· ≠ sep) s
  rw [h] at hnot
  simpa using hnot

/-- What ends where the text behind the separator begins ends with the separator. -/
theorem eq_of_getLast?_rdropWhile_ne {s : List α} {b : α}
    (h : (s.rdropWhile (· ≠ sep)).getLast? = some b) : b = sep := by
  rw [List.rdropWhile, List.getLast?_reverse] at h
  obtain ⟨t, ht⟩ := List.head?_eq_some_iff.mp h
  exact eq_of_dropWhile_ne ht

/-- A text with a separator in it is divided by the first one. -/
theorem exists_append_cons {s : List α} (h : sep ∈ s) :
    ∃ t, s = s.takeWhile (· ≠ sep) ++ sep :: t := by
  have hsplit : s.takeWhile (· ≠ sep) ++ s.dropWhile (· ≠ sep) = s :=
    List.takeWhile_append_dropWhile
  cases hdrop : s.dropWhile (· ≠ sep) with
  | nil =>
    rw [hdrop, List.append_nil] at hsplit
    exact absurd (hsplit.symm ▸ h) (not_mem_takeWhile_ne sep s)
  | cons b t =>
    rw [hdrop, eq_of_dropWhile_ne hdrop] at hsplit
    exact ⟨t, hsplit.symm⟩

end Separator

/-! ### Lines -/

/-- What a text is split at is in none of the pieces. -/
theorem not_mem_of_mem_splitOn [BEq α] [LawfulBEq α] {a : α} {s piece : List α}
    (h : piece ∈ s.splitOn a) : a ∉ piece := by
  induction s generalizing piece with
  | nil =>
    rw [List.splitOn_nil, List.mem_singleton] at h
    simp [h]
  | cons b s ih =>
    rw [List.splitOn_cons_eq_if_modifyHead] at h
    split at h
    · obtain rfl | h := List.mem_cons.mp h
      · exact List.not_mem_nil
      · exact ih h
    · next hb =>
      cases hs : s.splitOn a with
      | nil => simp [hs] at h
      | cons first pieces =>
        rw [hs, List.modifyHead_cons] at h
        obtain rfl | h := List.mem_cons.mp h
        · have hfirst : a ∉ first := ih (hs ▸ List.mem_cons_self)
          have hba : b ≠ a := fun heq ↦ hb (beq_iff_eq.mpr heq)
          simp [hfirst, hba.symm]
        · exact ih (hs ▸ List.mem_cons_of_mem _ h)

/-- The pieces of a text between the elements that divide it, without the empty ones. -/
def pieces (p : α → Bool) (s : List α) : List (List α) := (s.splitOnP p).filter (!·.isEmpty)

/-- Nothing goes over what divides a text. -/
theorem pieces_append_cons {sep : α} (h : p sep = true) (s t : List α) :
    pieces p (s ++ sep :: t) = pieces p s ++ pieces p t := by
  rw [pieces, List.splitOnP_append_cons s t h, List.filter_append]
  rfl

/-- What is not divided is one piece, when there is something. -/
theorem pieces_of_all {s : List α} (h : ∀ b ∈ s, p b = false) :
    pieces p s = if s.isEmpty then [] else [s] := by
  rw [pieces, List.splitOnP_eq_singleton h]
  cases s <;> rfl

/-- What divides a text before its first piece does not matter. -/
theorem pieces_dropWhile (p : α → Bool) (s : List α) :
    pieces p (s.dropWhile p) = pieces p s := by
  induction s with
  | nil => rfl
  | cons b s ih =>
    cases hb : p b with
    | false => rw [List.dropWhile_cons_of_neg (by simp [hb])]
    | true =>
      calc pieces p ((b :: s).dropWhile p)
          _ = pieces p s := by rw [List.dropWhile_cons_of_pos hb, ih]
          _ = pieces p ([] ++ b :: s) := by
            rw [pieces_append_cons hb]
            rfl

/-- Nor does more of it. -/
theorem pieces_append_left {x s : List α} (h : ∀ b ∈ x, p b = true) :
    pieces p (x ++ s) = pieces p s := by
  rw [← pieces_dropWhile, List.dropWhile_append_of_pos h, pieces_dropWhile]

/-- The pieces that are joined by what divides them are read back. -/
theorem pieces_intercalate {sep final : List α} (hne : sep ≠ []) (hsep : ∀ b ∈ sep, p b = true)
    (hfinal : ∀ b ∈ final, p b = true) {lines : List (List α)}
    (hlines : ∀ line ∈ lines, line ≠ [] ∧ ∀ b ∈ line, p b = false) :
    pieces p (sep.intercalate lines ++ final) = lines := by
  have hline : ∀ line ∈ lines, pieces p line = [line] := fun line hl ↦ by
    rw [pieces_of_all (hlines line hl).2, if_neg (by simp [(hlines line hl).1])]
  have hnone : pieces p final = [] := by
    rw [← List.append_nil final, pieces_append_left hfinal]
    rfl
  induction lines with
  | nil => exact hnone
  | cons line lines ih =>
    have hrest := ih (fun l hl ↦ hlines l (List.mem_cons_of_mem _ hl))
      fun l hl ↦ hline l (List.mem_cons_of_mem _ hl)
    have hfirst := hline line List.mem_cons_self
    cases lines with
    | nil =>
      rw [List.intercalate_singleton]
      cases final with
      | nil => rw [List.append_nil, hfirst]
      | cons b final =>
        rw [pieces_append_cons (hfinal b List.mem_cons_self), hfirst,
          ← List.append_nil final, pieces_append_left fun c hc ↦
            hfinal c (List.mem_cons_of_mem _ hc)]
        rfl
    | cons next lines =>
      cases sep with
      | nil => contradiction
      | cons b sep =>
        rw [List.intercalate_cons_cons, List.append_assoc, List.append_assoc, List.cons_append,
          pieces_append_cons (hsep b List.mem_cons_self), hfirst,
          pieces_append_left fun c hc ↦ hsep c (List.mem_cons_of_mem _ hc), hrest]
        rfl

/-- The first piece, and those of the rest. -/
theorem pieces_eq (p : α → Bool) (s : List α) :
    pieces p s = (if (s.takeWhile (!p ·)).isEmpty then [] else [s.takeWhile (!p ·)]) ++
      pieces p ((s.dropWhile (!p ·)).dropWhile p) := by
  have hfirst : ∀ b ∈ s.takeWhile (!p ·), p b = false := fun b hb ↦ by
    simpa using List.mem_takeWhile_imp hb
  have hsplit : s.takeWhile (!p ·) ++ s.dropWhile (!p ·) = s := List.takeWhile_append_dropWhile
  rw [pieces_dropWhile]
  cases hdrop : s.dropWhile (!p ·) with
  | nil =>
    rw [hdrop, List.append_nil] at hsplit
    rw [hsplit] at hfirst ⊢
    rw [pieces_of_all hfirst]
    exact (List.append_nil _).symm
  | cons sep rest =>
    have hsep : p sep = true := by
      have hhead := List.head?_dropWhile_not (!p ·) s
      rw [hdrop] at hhead
      simpa using hhead
    calc pieces p s
        _ = pieces p (s.takeWhile (!p ·) ++ sep :: rest) := by rw [← hdrop, hsplit]
        _ = pieces p (s.takeWhile (!p ·)) ++ pieces p ([] ++ sep :: rest) := by
          rw [pieces_append_cons hsep, pieces_append_cons hsep]
          rfl
        _ = _ := by rw [pieces_of_all hfirst, List.nil_append]

/-- What is read from a text line by line is what is read from its lines. -/
theorem flatMap_intercalate {β : Type} {sep : α} {read : List α → List β} {Line : List α → Prop}
    (hnil : read [] = []) (happend : ∀ line rest, Line line →
      read (line ++ sep :: rest) = read line ++ read rest)
    {lines : List (List α)} (hlines : ∀ line ∈ lines, Line line) :
    read ([sep].intercalate lines) = lines.flatMap read := by
  induction lines with
  | nil => exact hnil
  | cons line lines ih =>
    have hrest := ih fun l hl ↦ hlines l (List.mem_cons_of_mem _ hl)
    cases lines with
    | nil => simp
    | cons next lines =>
      rw [List.intercalate_cons_cons, List.append_assoc, List.singleton_append,
        happend line _ (hlines line List.mem_cons_self), hrest]
      rfl

end Kitty.Base
