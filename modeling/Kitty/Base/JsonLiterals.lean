import Kitty.Base.JsonText
import Kitty.Base.Occurs

/-!
# Strings printed as they are

In text that is printed line by line, with strings between quotes as they are, a literal with an
escape stands inside one of the strings: a quote of the text around them can be part of no literal,
and no literal goes over a newline. Such a literal is longer than what it means, so when each of the
strings is meant by a literal, none needs an escape.
-/

namespace Kitty.Base.Json

variable {stored : Bytes → Prop}

/-- A literal with an escape stands inside one of the strings. -/
def Keeps (stored : Bytes → Prop) (text : Bytes) : Prop :=
  ∀ raw s, decodeChars raw = some s → BACKSLASH ∈ raw → quoted raw <:+: text →
    ∃ t, stored t ∧ raw <:+: t

/-- There is none in text without a backslash. -/
theorem keeps_of_not_mem {text : Bytes} (h : BACKSLASH ∉ text) : Keeps stored text := by
  intro raw s _ hraw hin
  have hquoted : BACKSLASH ∈ quoted raw := List.mem_cons_of_mem _ (List.mem_append_left _ hraw)
  exact absurd (hin.subset hquoted) h

/-- Lines can be looked at one by one. -/
theorem keeps_append_LF {a b : Bytes} (ha : Keeps stored a) (hb : Keeps stored b) :
    Keeps stored (a ++ LF :: b) := by
  intro raw s hdecode hraw hin
  have hlf : LF ∉ quoted raw := by
    have hle := le_of_decodeChars hdecode
    rw [quoted, List.mem_cons, List.mem_append, List.mem_singleton]
    rintro (h | h | h)
    · cases h
    · exact absurd (hle _ h) (by decide)
    · cases h
  rcases infix_append_cons hlf hin with hin | hin
  · exact ha raw s hdecode hraw hin
  · exact hb raw s hdecode hraw hin

/-- A literal that begins behind the quote before a string ends with the string or inside it. -/
private theorem infix_of_quote {t after w raw y : Bytes} (hafter : QUOTE ∉ after)
    (h : t ++ QUOTE :: after = w ++ (raw ++ QUOTE :: y)) : raw <:+: t := by
  rw [← List.append_assoc] at h
  rcases List.append_eq_append_iff.mp h with ⟨c, hw, hrest⟩ | ⟨c, ht, -⟩
  · cases c with
    | nil =>
      rw [List.append_nil] at hw
      exact ⟨w, [], by rw [List.append_nil, hw]⟩
    | cons q c =>
      rw [List.cons_append, List.cons.injEq] at hrest
      exact absurd (by rw [hrest.2]; simp) hafter
  · exact ⟨w, c, ht.symm⟩

/-- On a line with one of the strings, the literal stands inside it. -/
theorem keeps_quoted {before t after : Bytes} (ht : stored t) (hbefore : BACKSLASH ∉ before)
    (hafter : QUOTE ∉ after) : Keeps stored (before ++ (quoted t ++ after)) := by
  intro raw s hdecode hraw ⟨x, y, heq⟩
  have hsplit : x ++ QUOTE :: (raw ++ QUOTE :: y) = before ++ QUOTE :: (t ++ QUOTE :: after) := by
    simpa [quoted] using heq
  refine ⟨t, ht, ?_⟩
  rcases List.append_eq_append_iff.mp hsplit with ⟨c, hc, hrest⟩ | ⟨c, -, hrest⟩
  · cases c with
    | nil =>
      rw [List.nil_append, List.cons.injEq] at hrest
      exact @infix_of_quote t after [] raw y hafter hrest.2.symm
    | cons q c =>
      -- the literal would begin before the string and go over the quote in front of it
      rw [List.cons_append, List.cons.injEq] at hrest
      have hin : ∀ b ∈ c, b ∈ before := fun b hb ↦ by
        rw [hc]
        exact List.mem_append_right _ (List.mem_cons_of_mem _ hb)
      rcases List.append_eq_append_iff.mp hrest.2 with ⟨d, hd, -⟩ | ⟨d, hd, hquote⟩
      · exact absurd (hin _ (hd ▸ List.mem_append_left _ hraw)) hbefore
      · cases d with
        | nil =>
          rw [List.append_nil] at hd
          exact absurd (hin _ (hd ▸ hraw)) hbefore
        | cons q' d =>
          rw [List.cons_append, List.cons.injEq] at hquote
          rw [hd, ← hquote.1] at hdecode
          exact absurd (hin _ (mem_of_decodeChars_quote hdecode)) hbefore
  · cases c with
    | nil =>
      rw [List.nil_append, List.cons.injEq] at hrest
      exact @infix_of_quote t after [] raw y hafter hrest.2
    | cons q c =>
      rw [List.cons_append, List.cons.injEq] at hrest
      refine @infix_of_quote t after (c ++ [QUOTE]) raw y hafter ?_
      rw [hrest.2, List.append_assoc]
      rfl

/-! ### Lines -/

/-- The same with a comma behind the line. -/
def LineKeeps (stored : Bytes → Prop) (text : Bytes) : Prop :=
  Keeps stored text ∧ Keeps stored (text ++ [44])

theorem lineKeeps_of_not_mem {text : Bytes} (h : BACKSLASH ∉ text) : LineKeeps stored text := by
  refine ⟨keeps_of_not_mem h, keeps_of_not_mem fun hmem ↦ ?_⟩
  rcases List.mem_append.mp hmem with hmem | hmem
  · exact h hmem
  · exact absurd hmem (by decide)

theorem line_eq (indent key text : Bytes) :
    line indent key text = (indent ++ (quoted key ++ [58, 32])) ++ text := by
  simp [line]

theorem append_block (before close : Bytes) (ls : List Bytes) :
    before ++ block close ls =
      (before ++ [123]) ++ LF :: (lines ls ++ LF :: (close ++ [125])) := by
  simp [block]

theorem append_listing (before close : Bytes) (ls : List Bytes) :
    before ++ listing close ls = (before ++ [91]) ++ LF :: (lines ls ++ LF :: (close ++ [93])) := by
  simp [listing]

theorem not_mem_quoted {s : Bytes} (h : BACKSLASH ∉ s) : BACKSLASH ∉ quoted s := by
  rw [quoted, List.mem_cons, List.mem_append, List.mem_singleton]
  rintro (hb | hb | hb)
  · exact absurd hb (by decide)
  · exact h hb
  · exact absurd hb (by decide)

theorem not_mem_name {indent key : Bytes} (hindent : BACKSLASH ∉ indent) (hkey : BACKSLASH ∉ key) :
    BACKSLASH ∉ indent ++ (quoted key ++ [58, 32]) := by
  rw [List.mem_append, List.mem_append]
  rintro (h | h | h)
  · exact hindent h
  · exact not_mem_quoted hkey h
  · exact absurd h (by decide)

theorem lineKeeps_quoted {indent key t : Bytes} (ht : stored t) (hindent : BACKSLASH ∉ indent)
    (hkey : BACKSLASH ∉ key) : LineKeeps stored (line indent key (quoted t)) := by
  have hbefore := not_mem_name hindent hkey
  have hline := line_eq indent key (quoted t)
  constructor
  · have h := @keeps_quoted stored _ t [] ht hbefore (by decide)
    rwa [List.append_nil, ← hline] at h
  · have h := @keeps_quoted stored _ t [44] ht hbefore (by decide)
    rwa [← List.append_assoc, ← hline] at h

theorem keeps_lines {ls : List Bytes} {rest : Bytes} (hls : ∀ l ∈ ls, LineKeeps stored l)
    (hrest : Keeps stored rest) : Keeps stored (lines ls ++ LF :: rest) := by
  induction ls with
  | nil => exact keeps_append_LF (keeps_of_not_mem (fun h ↦ nomatch h)) hrest
  | cons l ls ih =>
    have hl := hls l List.mem_cons_self
    cases ls with
    | nil =>
      rw [lines_singleton]
      exact keeps_append_LF hl.1 hrest
    | cons l' ls =>
      have h := keeps_append_LF hl.2 (ih fun k hk ↦ hls k (List.mem_cons_of_mem _ hk))
      rw [lines_cons_cons]
      simpa using h

/-- An object or array, line by line, behind other text. -/
theorem lineKeeps_lines {before close : Bytes} {ls : List Bytes} (hbefore : BACKSLASH ∉ before)
    (hclose : BACKSLASH ∉ close) (hls : ∀ l ∈ ls, LineKeeps stored l) :
    LineKeeps stored (before ++ LF :: (lines ls ++ LF :: close)) := by
  have hend := @lineKeeps_of_not_mem stored close hclose
  constructor
  · exact keeps_append_LF (keeps_of_not_mem hbefore) (keeps_lines hls hend.1)
  · have h := keeps_append_LF (keeps_of_not_mem hbefore) (keeps_lines hls hend.2)
    simpa using h

/-- When each of the strings is meant by a literal, none needs an escape, and each is meant by
itself
between quotes. -/
theorem plain_of_literals {text : Bytes} (hkeeps : Keeps stored text)
    (hliteral : ∀ s, stored s → Literal s text) {s : Bytes} (hs : stored s) :
    Plain s ∧ quoted s <:+: text := by
  induction hn : text.length - s.length using Nat.strongRecOn generalizing s with
  | ind n ih =>
    obtain ⟨raw, hdecode, hin⟩ := hliteral s hs
    by_cases hraw : BACKSLASH ∈ raw
    · -- the literal is longer than the string, and so is the string that it stands in
      obtain ⟨t, ht, hrawt⟩ := hkeeps raw s hdecode hraw hin
      have hlt := length_lt_of_decodeChars hdecode hraw
      have hle := hrawt.length_le
      have hlen := hin.length_le
      simp only [quoted, List.length_cons, List.length_append, List.length_nil] at hlen
      have hplain := (ih (text.length - t.length) (by omega) ht rfl).1
      exact absurd (hrawt.subset hraw) hplain.not_mem
    · obtain ⟨hplain, heq⟩ := plain_of_decodeChars hdecode hraw
      rw [heq]
      exact ⟨hplain, hin⟩

/-- A string between quotes in UTF-8 is UTF-8. -/
theorem isUtf8_of_quoted {s text : Bytes} (htext : isUtf8 text = true) (h : quoted s <:+: text) :
    isUtf8 s = true := by
  obtain ⟨before, after, rfl⟩ := h
  have hsplit : before ++ quoted s ++ after = before ++ QUOTE :: (s ++ QUOTE :: after) := by
    simp [quoted]
  rw [hsplit, isUtf8_append_cons _ (by decide), isUtf8_append_cons _ (by decide)] at htext
  simp only [Bool.and_eq_true] at htext
  exact htext.2.1

/-! ### UTF-8 of lines -/

theorem isUtf8_line {indent key text : Bytes} (hindent : isUtf8 indent = true)
    (hkey : isUtf8 key = true) (htext : isUtf8 text = true) :
    isUtf8 (line indent key text) = true := by
  have hsplit : line indent key text = indent ++ QUOTE :: (key ++ QUOTE :: ([58, 32] ++ text)) := by
    simp [line, quoted]
  rw [hsplit, isUtf8_append_cons _ (by decide), isUtf8_append_cons _ (by decide),
    isUtf8_append_of_ascii (by decide +kernel), hindent, hkey, htext]
  rfl

/-- Lines of UTF-8 in UTF-8. -/
theorem isUtf8_lines {before close : Bytes} {ls : List Bytes} (hbefore : isUtf8 before = true)
    (hclose : isUtf8 close = true) (hls : ∀ l ∈ ls, isUtf8 l = true) :
    isUtf8 (before ++ LF :: (lines ls ++ LF :: close)) = true := by
  have hlines : isUtf8 (lines ls) = true := by
    induction ls with
    | nil => rfl
    | cons l ls ih =>
      have hl := hls l List.mem_cons_self
      cases ls with
      | nil => rwa [lines_singleton]
      | cons l' ls =>
        have hrest := ih fun k hk ↦ hls k (List.mem_cons_of_mem _ hk)
        rw [lines_cons_cons, isUtf8_append_cons _ (by decide), isUtf8_cons_of_le (by decide), hl,
          hrest]
        rfl
  rw [isUtf8_append_cons _ (by decide), isUtf8_append_cons _ (by decide), hbefore, hlines, hclose]
  rfl

end Kitty.Base.Json
