import Kitty.Base.Shell

/-!
# The download command of an update

The payload of case 36 is the URL of a firmware archive. The handler refuses what does not begin
with `http://` or `https://` and what has a character of a list in it, and puts the rest into a
command for the shell; `src/ap2p/legacy_cases.c:1134–1186`.
-/

namespace Kitty.Ap2p

open Kitty.Base

/-- The characters that are refused. -/
def shellMetacharacters : Bytes := lit ";|`$&()\x7b\x7d[]!"

/-- The handler's checks of the URL. -/
def urlAccepted (url : Bytes) : Bool :=
  ((lit "http://").isPrefixOf url || (lit "https://").isPrefixOf url) &&
    url.all fun b ↦ !shellMetacharacters.contains b

/-- `wget_command`. -/
def wgetCommand (url : Bytes) : Bytes := snprintf 512 [lit "wget -P /tmp/ ", url]

/-- The command of a payload that passes: the handler reads it as a C string. -/
def otaCommand (payload : Bytes) : Option Bytes :=
  if urlAccepted (cstr payload) then some (wgetCommand (cstr payload)) else none

/-- A space, a tab, a newline, `<`, `>` or a quote. -/
def leavesWord (b : UInt8) : Bool :=
  isBlank b || b == LF || b == 60 || b == 62 || b == 39 || b == 34

/-- The URL fits the buffer, has no blank, newline, redirection or quote in it and no backslash
but at its end, and no files match it as a pattern, or only the one of its name. -/
structure OneWord (files : Pathnames) (url : Bytes) : Prop where
  length_le : url.length ≤ 497
  stays : ∀ b ∈ url, leavesWord b = false
  backslash : ∀ pre b post, url = pre ++ b :: post → b = 92 → post = []
  pattern : (∃ b ∈ url, b = 42 ∨ b = 63) →
    files (unquoted url) = [] ∨ files (unquoted url) = [url]

private theorem accepted_facts {url : Bytes} (h : urlAccepted url = true) :
    url.head? = some 104 ∧ ∀ b ∈ url, b ∉ shellMetacharacters := by
  simp only [urlAccepted, Bool.and_eq_true, Bool.or_eq_true, List.isPrefixOf_iff_prefix,
    List.all_eq_true] at h
  obtain ⟨hbegins, hall⟩ := h
  constructor
  · obtain ⟨rest, rfl⟩ | ⟨rest, rfl⟩ := hbegins <;> rfl
  · intro b hb
    simpa using hall b hb

/-- What is accepted and stays in its word is ordinary, but for a backslash. -/
private theorem ordinary_iff {b : UInt8} (hb : b ∉ shellMetacharacters) :
    isOrdinary b = true ↔ leavesWord b = false ∧ b ≠ 92 := by
  have hmeta : shellMetacharacters = [59, 124, 96, 36, 38, 40, 41, 123, 125, 91, 93, 33] := by
    decide
  rw [hmeta] at hb
  simp only [List.mem_cons, List.not_mem_nil, or_false, not_or] at hb
  simp only [isOrdinary, leavesWord, isOperator, isSubstitution, Bool.and_eq_true, bne_iff_ne,
    Bool.not_eq_true', Bool.or_eq_false_iff, beq_eq_false_iff_ne]
  grind

/-- The command is the fixed one and as much of the URL as fits. -/
theorem wgetCommand_eq {url : Bytes} (hurl : NUL ∉ url) :
    wgetCommand url = lit "wget" ++ 32 :: (lit "-P" ++ 32 :: (lit "/tmp/" ++ 32 ::
      url.take 497)) := by
  have hfixed : cstr (lit "wget -P /tmp/ ") = lit "wget" ++ 32 :: (lit "-P" ++ 32 ::
      (lit "/tmp/" ++ [32])) := by decide
  have hlength : (cstr (lit "wget -P /tmp/ ")).length = 14 := by decide
  rw [wgetCommand, snprintf]
  simp only [List.flatMap_cons, List.flatMap_nil, List.append_nil, cstr_of_nul_not_mem hurl]
  rw [List.take_append, List.take_of_length_le (by omega), hlength, hfixed]
  simp only [List.append_assoc, List.cons_append, List.nil_append]

private theorem tokens_fixed {word rest : Bytes}
    (h : (word.all isOrdinary && !word.isEmpty && word.head?.all (· != 35)) = true) :
    tokens .plain none (word ++ 32 :: rest) =
      (tokens .plain none rest).map (.word (unquoted word) :: ·) := by
  simp only [Bool.and_eq_true, List.all_eq_true, Bool.not_eq_true', List.isEmpty_eq_false_iff,
    Option.all_eq_true, bne_iff_ne] at h
  exact tokens_word_space h.1.1 h.1.2 h.2

/-- The shell reads the fixed words, then the URL. -/
theorem tokens_wgetCommand {url : Bytes} (hurl : NUL ∉ url) :
    tokens .plain none (wgetCommand url) = (tokens .plain none (url.take 497)).map
      ([unquoted (lit "wget"), unquoted (lit "-P"), unquoted (lit "/tmp/")].map .word ++ ·) := by
  rw [wgetCommand_eq hurl, tokens_fixed (by decide), tokens_fixed (by decide),
    tokens_fixed (by decide), Option.map_map, Option.map_map]
  rfl

theorem text_unquoted (text : Bytes) : (unquoted text).text = text := by
  simp [Word.text, unquoted, Function.comp_def]

/-- The fixed words are not patterns. -/
private theorem standsForItself_fixed (files : Pathnames) {w : Word}
    (hw : w ∈ [unquoted (lit "wget"), unquoted (lit "-P"), unquoted (lit "/tmp/")]) :
    w.StandsForItself files := by
  have hnone : ∀ w ∈ [unquoted (lit "wget"), unquoted (lit "-P"), unquoted (lit "/tmp/")],
      ¬ ∃ c ∈ w, c.2 = false ∧ isPattern c.1 = true := by decide
  exact fun hpattern ↦ absurd hpattern (hnone w hw)

/-- A pattern character of an accepted URL is a `*` or a `?`. -/
private theorem pattern_iff {url : Bytes} (hmeta : ∀ b ∈ url, b ∉ shellMetacharacters) :
    (∃ c ∈ unquoted url, c.2 = false ∧ isPattern c.1 = true) ↔ ∃ b ∈ url, b = 42 ∨ b = 63 := by
  have hbracket : (91 : UInt8) ∈ shellMetacharacters := by decide
  simp only [unquoted, List.mem_map, exists_exists_and_eq_and, isPattern, Bool.or_eq_true,
    beq_iff_eq, true_and]
  refine exists_congr fun b ↦ and_congr_right ?_
  intro hb
  have hne : b ≠ 91 := fun h ↦ hmeta b hb (h ▸ hbracket)
  simp only [hne, or_false]

/-- A command with four words has the last of them from the URL. -/
private theorem exists_last_word {files : Pathnames} {url : Bytes} (hnul : NUL ∉ url)
    (h : IsCommand files (wgetCommand url) [lit "wget", lit "-P", lit "/tmp/", url]) :
    ∃ w : Word, tokens .plain none (url.take 497) = some [.word w] ∧ w.text = url ∧
      w.StandsForItself files := by
  obtain ⟨ws, htokens, htexts, hfiles⟩ := h
  rw [tokens_wgetCommand hnul] at htokens
  obtain ⟨ts, hts, heq⟩ := Option.map_eq_some_iff.mp htokens
  obtain ⟨w₁, ws₁, rfl, -, hws₁⟩ := List.map_eq_cons_iff.mp htexts
  obtain ⟨w₂, ws₂, rfl, -, hws₂⟩ := List.map_eq_cons_iff.mp hws₁
  obtain ⟨w₃, ws₃, rfl, -, hws₃⟩ := List.map_eq_cons_iff.mp hws₂
  obtain ⟨w, ws₄, rfl, hw, hws₄⟩ := List.map_eq_cons_iff.mp hws₃
  rw [List.map_eq_nil_iff] at hws₄
  subst hws₄
  have hone : ts = [.word w] := by
    simp only [List.map_cons, List.map_nil, List.cons_append, List.nil_append,
      List.cons.injEq] at heq
    exact heq.2.2.2
  subst hone
  exact ⟨w, hts, hw, hfiles w (by simp)⟩

/-- The word has all the bytes of the URL, so nothing was cut off or taken away. -/
private theorem ordinary_of_last_word {url : Bytes} {w : Word}
    (hts : tokens .plain none (url.take 497) = some [.word w]) (hw : w.text = url) :
    url.length ≤ 497 ∧ ∀ pre b post, url = pre ++ b :: post →
      isOrdinary b = true ∨ b = 92 ∧ post = [] := by
  have hwlen : wordsLength [.word w] = url.length := by
    rw [← hw]
    simp [wordsLength, Word.text]
  have hcut : url.length ≤ 497 := by
    have hle := wordsLength_le hts
    rw [hwlen, List.length_take] at hle
    simp only [Quoting.owed, begunLength_none] at hle
    omega
  rw [List.take_of_length_le hcut] at hts
  exact ⟨hcut, ordinary_of_wordsLength hts (by rw [hwlen, begunLength_none]; omega)⟩

/-- The URL is ordinary, but for a backslash at its end, when it stays in its word. -/
private theorem ordinary_iff_stays {url : Bytes} (hmeta : ∀ b ∈ url, b ∉ shellMetacharacters) :
    (∀ pre b post, url = pre ++ b :: post → isOrdinary b = true ∨ b = 92 ∧ post = []) ↔
      (∀ b ∈ url, leavesWord b = false) ∧
        ∀ pre b post, url = pre ++ b :: post → b = 92 → post = [] := by
  constructor
  · intro hordinary
    constructor
    · intro b hb
      obtain ⟨pre, post, hsplit⟩ := List.append_of_mem hb
      obtain hb' | ⟨rfl, -⟩ := hordinary pre b post hsplit
      · exact ((ordinary_iff (hmeta b hb)).mp hb').1
      · decide
    · intro pre b post hsplit hback
      obtain hb | ⟨-, hpost⟩ := hordinary pre b post hsplit
      · subst hback
        exact absurd hb (by decide)
      · exact hpost
  · rintro ⟨hstays, hbackslash⟩ pre b post hsplit
    have hb : b ∈ url := hsplit ▸ by simp
    by_cases hback : b = 92
    · exact .inr ⟨hback, hbackslash pre b post hsplit hback⟩
    · exact .inl ((ordinary_iff (hmeta b hb)).mpr ⟨hstays b hb, hback⟩)

/-- The command of an accepted payload is `wget` with its options and the whole URL as one
argument exactly when the URL is one word. -/
theorem ota_one_argument_iff (files : Pathnames) {payload command : Bytes}
    (h : otaCommand payload = some command) :
    IsCommand files command [lit "wget", lit "-P", lit "/tmp/", cstr payload] ↔
      OneWord files (cstr payload) := by
  generalize hurl : cstr payload = url at h
  have hnul : NUL ∉ url := hurl ▸ nul_not_mem_cstr payload
  simp only [otaCommand, hurl, Option.ite_none_right_eq_some, Option.some.injEq] at h
  obtain ⟨haccepted, rfl⟩ := h
  obtain ⟨hhead, hmeta⟩ := accepted_facts haccepted
  constructor
  · intro hcommand
    obtain ⟨w, hts, hw, hself⟩ := exists_last_word hnul hcommand
    obtain ⟨hcut, hordinary⟩ := ordinary_of_last_word hts hw
    obtain ⟨hstays, hbackslash⟩ := (ordinary_iff_stays hmeta).mp hordinary
    refine ⟨hcut, hstays, hbackslash, ?_⟩
    intro hpattern
    have hword := tokens_plain_text hordinary ⟨104, by decide, by decide, hhead⟩
    have hweq : w = unquoted url := by
      rw [List.take_of_length_le hcut] at hts
      rw [hts] at hword
      simpa using hword
    rw [hweq] at hself
    have htext := hself ((pattern_iff hmeta).mpr hpattern)
    rwa [text_unquoted] at htext
  · intro hone
    have hordinary := (ordinary_iff_stays hmeta).mpr ⟨hone.stays, hone.backslash⟩
    have hword := tokens_plain_text hordinary ⟨104, by decide, by decide, hhead⟩
    refine ⟨[unquoted (lit "wget"), unquoted (lit "-P"), unquoted (lit "/tmp/"), unquoted url],
      ?_, ?_, ?_⟩
    · rw [tokens_wgetCommand hnul, List.take_of_length_le hone.length_le, hword]
      rfl
    · simp only [List.map_cons, List.map_nil, text_unquoted]
    · intro w hw
      obtain hfixed | hlast := List.mem_append.mp (show w ∈ [unquoted (lit "wget"),
        unquoted (lit "-P"), unquoted (lit "/tmp/")] ++ [unquoted url] from hw)
      · exact standsForItself_fixed files hfixed
      · rw [List.mem_singleton.mp hlast]
        intro hpattern
        rw [text_unquoted]
        exact hone.pattern ((pattern_iff hmeta).mp hpattern)

theorem ota_one_argument_plainUrl :
    IsCommand (fun _ ↦ []) (wgetCommand (lit "http://a/f.tar"))
      [lit "wget", lit "-P", lit "/tmp/", cstr (lit "http://a/f.tar")] :=
  (ota_one_argument_iff _ (by decide : otaCommand (lit "http://a/f.tar") = some _)).mpr
    { length_le := by decide
      stays := by
        have hall : (cstr (lit "http://a/f.tar")).all (!leavesWord ·) = true := by decide
        simpa using hall
      backslash := fun pre b post hsplit hback ↦ by
        have hmem : (92 : UInt8) ∈ cstr (lit "http://a/f.tar") := by
          rw [hsplit, hback]
          simp
        exact absurd hmem (by decide)
      pattern := fun h ↦ absurd h (by decide) }

/-- A URL with blanks in it passes the checks, and brings options of its own. -/
theorem ota_second_argument :
    ¬ ∀ files payload command, otaCommand payload = some command →
      IsCommand files command [lit "wget", lit "-P", lit "/tmp/", cstr payload] := by
  intro h
  obtain ⟨ws, htokens, htexts, -⟩ := h (fun _ ↦ []) (lit "http://a/f -O /etc/passwd")
    (wgetCommand (lit "http://a/f -O /etc/passwd")) (by decide)
  have hsix : (tokens .plain none (wgetCommand (lit "http://a/f -O /etc/passwd"))).map
      List.length = some 6 := by decide
  have hfour := congrArg List.length htexts
  rw [htokens, Option.map_some, List.length_map] at hsix
  rw [List.length_map] at hfour
  simp only [List.length_cons, List.length_nil, Option.some.injEq] at hfour hsix
  omega

end Kitty.Ap2p
