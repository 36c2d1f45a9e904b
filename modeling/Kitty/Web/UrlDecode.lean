import Kitty.Base.FormUrl
import Kitty.Signal.Stoi

/-!
# Decoding a form field

`url_decode` of `src/signaling-server/signaling_server.cpp:345–364`. The two bytes behind a
percent sign are read by `iss >> std::hex >> val`, which reads a number that begins the text, with
blanks and a sign before it, and does not look at what follows it.
-/

namespace Kitty.Web

open Kitty.Base
open Kitty.Signal (isSpace splitSign)

/-! ### The program -/

/-- What follows `0x`, which may stand before a hexadecimal number. -/
def skipBase : Bytes → Bytes
  | 48 :: 120 :: rest => rest
  | 48 :: 88 :: rest => rest
  | rest => rest

/-- The number hexadecimal digits stand for. -/
def hexNumber (digits : Bytes) : Nat := digits.foldl (fun n d ↦ 16 * n + hexValue d) 0

/-- `iss >> std::hex >> val` on a text that is too short to be out of the range of an `int`. -/
def readHex (text : Bytes) : Option Int :=
  let (negative, rest) := splitSign (text.dropWhile isSpace)
  let digits := (skipBase rest).takeWhile isXDigit
  if digits = [] then none
  else some (if negative then -(hexNumber digits : Int) else hexNumber digits)

/-- `static_cast<char>(val)`. -/
def charOfInt (val : Int) : UInt8 := UInt8.ofNat (val % 256).toNat

/-- `url_decode`. -/
def urlDecode : Bytes → Bytes
  | [] => []
  | b :: rest =>
    if b = PERCENT then
      match rest with
      | first :: second :: more =>
        match readHex [first, second] with
        | some val => charOfInt val :: urlDecode more
        | none => b :: urlDecode (first :: second :: more)
      -- The string ends behind the percent sign, or a byte later.
      | rest => b :: urlDecode rest
    else if b = PLUS then 32 :: urlDecode rest
    else b :: urlDecode rest

/-! ### What is read from two bytes -/

/-- Two bytes that are not two digits, and from which a number is read all the same: a digit
behind a blank or a sign, or before another byte. -/
def loosePair (first second : UInt8) : Bool :=
  (isSpace first || first == 43 || first == 45) && isXDigit second ||
    isXDigit first && !isXDigit second && !(first == 48 && (second == 120 || second == 88))

private theorem xDigit_plain {b : UInt8} (h : isXDigit b = true) :
    isSpace b = false ∧ b ≠ 43 ∧ b ≠ 45 ∧ b ≠ 120 ∧ b ≠ 88 := by
  have hb := isXDigit_iff.mp h
  refine ⟨?_, ?_, ?_, ?_, ?_⟩
  · simp only [isSpace, Bool.or_eq_false_iff, Bool.and_eq_false_iff, beq_eq_false_iff_ne,
      ne_eq, decide_eq_false_iff_not, UInt8.le_iff_toNat_le]
    constructor
    · rintro rfl
      cases h
    · right
      change ¬ b.toNat ≤ 13
      omega
  all_goals
    rintro rfl
    cases h

private theorem splitSign_other {b : UInt8} (hplus : b ≠ 43) (hminus : b ≠ 45) (rest : Bytes) :
    splitSign (b :: rest) = (false, b :: rest) := by
  unfold splitSign
  split
  · next heq =>
    cases heq
    exact absurd rfl hminus
  · next heq =>
    cases heq
    exact absurd rfl hplus
  · rfl

private theorem skipBase_other {first : UInt8} {rest : Bytes}
    (h : ¬ (first = 48 ∧ (rest.head? = some 120 ∨ rest.head? = some 88))) :
    skipBase (first :: rest) = first :: rest := by
  unfold skipBase
  split
  · next heq =>
    cases heq
    exact absurd ⟨rfl, .inl rfl⟩ h
  · next heq =>
    cases heq
    exact absurd ⟨rfl, .inr rfl⟩ h
  · rfl

private theorem skipBase_singleton (b : UInt8) : skipBase [b] = [b] :=
  skipBase_other fun h ↦ by simp at h

/-- Two digits are read as the number they stand for. -/
theorem readHex_digits {high low : UInt8} (hhigh : isXDigit high = true)
    (hlow : isXDigit low = true) :
    readHex [high, low] = some ((16 * hexValue high + hexValue low : Nat) : Int) := by
  obtain ⟨hspace, hplus, hminus, -, -⟩ := xDigit_plain hhigh
  obtain ⟨-, -, -, hx, hX⟩ := xDigit_plain hlow
  have hbase : skipBase [high, low] = [high, low] :=
    skipBase_other fun h ↦ h.2.elim (fun he ↦ hx (Option.some.inj he))
      fun he ↦ hX (Option.some.inj he)
  simp only [readHex, List.dropWhile_cons_of_neg (by simpa using hspace),
    splitSign_other hplus hminus, hbase, List.takeWhile_cons_of_pos hhigh,
    List.takeWhile_cons_of_pos hlow, List.takeWhile_nil]
  simp [hexNumber]

private theorem readHex_of_digit {text : Bytes} {digit : UInt8} (rest : Bytes) (negative : Bool)
    (hdigit : isXDigit digit = true)
    (hsplit : splitSign (text.dropWhile isSpace) = (negative, rest))
    (hdigits : (skipBase rest).takeWhile isXDigit = [digit]) :
    ∃ n : Nat, n < 16 ∧ (readHex text = some (n : Int) ∨ readHex text = some (-(n : Int))) := by
  refine ⟨hexValue digit, hexValue_lt hdigit, ?_⟩
  cases negative with
  | false =>
    left
    simp only [readHex, hsplit, hdigits]
    simp [hexNumber]
  | true =>
    right
    simp only [readHex, hsplit, hdigits]
    simp [hexNumber]

private theorem readHex_of_none {text : Bytes} (rest : Bytes) (negative : Bool)
    (hsplit : splitSign (text.dropWhile isSpace) = (negative, rest))
    (hdigits : (skipBase rest).takeWhile isXDigit = []) : readHex text = none := by
  simp only [readHex, hsplit, hdigits]
  simp

private theorem takeWhile_singleton {b : UInt8} :
    (skipBase [b]).takeWhile isXDigit = if isXDigit b = true then [b] else [] := by
  rw [skipBase_singleton, List.takeWhile_cons, List.takeWhile_nil]

/-- From a loose pair a number below 16 is read, perhaps with a minus sign. -/
theorem readHex_loose {first second : UInt8} (h : loosePair first second = true) :
    ∃ n : Nat, n < 16 ∧ (readHex [first, second] = some (n : Int) ∨
      readHex [first, second] = some (-(n : Int))) := by
  rw [loosePair, Bool.or_eq_true, Bool.and_eq_true, Bool.and_eq_true, Bool.and_eq_true,
    Bool.or_eq_true, Bool.or_eq_true, beq_iff_eq, beq_iff_eq] at h
  rcases h with ⟨hfirst, hsecond⟩ | ⟨⟨hfirst, hsecond⟩, hbase⟩
  · obtain ⟨hspace, hplus, hminus, -, -⟩ := xDigit_plain hsecond
    have hdigits : (skipBase [second]).takeWhile isXDigit = [second] := by
      rw [takeWhile_singleton, if_pos hsecond]
    rcases hfirst with (hfirst | rfl) | rfl
    · refine readHex_of_digit [second] false hsecond ?_ hdigits
      rw [List.dropWhile_cons_of_pos hfirst, List.dropWhile_cons_of_neg (by simpa using hspace),
        splitSign_other hplus hminus]
    · exact readHex_of_digit [second] _ hsecond rfl hdigits
    · exact readHex_of_digit [second] _ hsecond rfl hdigits
  · obtain ⟨hspace, hplus, hminus, -, -⟩ := xDigit_plain hfirst
    refine readHex_of_digit [first, second] false hfirst ?_ ?_
    · rw [List.dropWhile_cons_of_neg (by simpa using hspace), splitSign_other hplus hminus]
    · rw [skipBase_other (by simpa [imp_iff_not_or] using hbase), List.takeWhile_cons_of_pos hfirst,
        List.takeWhile_cons_of_neg (by simpa using hsecond)]

/-- From two bytes that are neither two digits nor a loose pair no number is read. -/
theorem readHex_none {first second : UInt8} (hdigits : ¬ (isXDigit first = true ∧ isXDigit second))
    (h : loosePair first second = false) : readHex [first, second] = none := by
  rw [loosePair, Bool.or_eq_false_iff] at h
  obtain ⟨hbehind, hbefore⟩ := h
  by_cases hfirst : isXDigit first = true
  · -- A digit, and no other behind it: only `0x` is no number.
    have hsecond : isXDigit second = false := by simpa [hfirst] using hdigits
    have hbase : first = 48 ∧ (second = 120 ∨ second = 88) := by
      simpa [hfirst, hsecond, or_iff_not_imp_left] using hbefore
    obtain ⟨rfl, rfl | rfl⟩ := hbase <;> rfl
  · have hnothing : (skipBase [first, second]).takeWhile isXDigit = [] := by
      rw [skipBase_other, List.takeWhile_cons_of_neg hfirst]
      rintro ⟨rfl, -⟩
      exact hfirst rfl
    by_cases hspecial : isSpace first = true ∨ first = 43 ∨ first = 45
    · -- A blank or a sign, and no digit behind it.
      have hsecond : isXDigit second = false := by
        simpa [hspecial, or_assoc] using hbehind
      have hone : (skipBase [second]).takeWhile isXDigit = [] := by
        rw [takeWhile_singleton, if_neg (by simp [hsecond])]
      rcases hspecial with hspace | rfl | rfl
      · by_cases hspace' : isSpace second = true
        · refine readHex_of_none [] false ?_ rfl
          rw [List.dropWhile_cons_of_pos hspace, List.dropWhile_cons_of_pos hspace']
          rfl
        · have hdrop : [first, second].dropWhile isSpace = [second] := by
            rw [List.dropWhile_cons_of_pos hspace, List.dropWhile_cons_of_neg hspace']
          by_cases hsign : second = 43 ∨ second = 45
          · obtain ⟨negative, hsplit⟩ : ∃ negative, splitSign [second] = (negative, []) := by
              rcases hsign with rfl | rfl
              · exact ⟨false, rfl⟩
              · exact ⟨true, rfl⟩
            refine readHex_of_none [] negative ?_ rfl
            rw [hdrop, hsplit]
          · refine readHex_of_none [second] false ?_ hone
            rw [hdrop, splitSign_other (fun h ↦ hsign (.inl h)) fun h ↦ hsign (.inr h)]
      · exact readHex_of_none [second] _ rfl hone
      · exact readHex_of_none [second] _ rfl hone
    · rw [not_or, not_or] at hspecial
      refine readHex_of_none [first, second] false ?_ hnothing
      rw [List.dropWhile_cons_of_neg hspecial.1, splitSign_other hspecial.2.1 hspecial.2.2]

/-! ### Decoding -/

/-- Two digits behind a percent sign are a byte. -/
theorem urlDecode_escape {high low : UInt8} (hhigh : isXDigit high = true)
    (hlow : isXDigit low = true) (rest : Bytes) :
    urlDecode (PERCENT :: high :: low :: rest) =
      UInt8.ofNat (16 * hexValue high + hexValue low) :: urlDecode rest := by
  have hbyte : charOfInt ((16 * hexValue high + hexValue low : Nat) : Int) =
      UInt8.ofNat (16 * hexValue high + hexValue low) := by
    apply UInt8.toNat_inj.mp
    simp only [charOfInt, UInt8.toNat_ofNat']
    omega
  rw [urlDecode, if_pos rfl, readHex_digits hhigh hlow]
  dsimp only
  rw [hbyte]

/-- A percent sign from behind which nothing is read stands for itself. -/
theorem urlDecode_percent {rest : Bytes}
    (h : ∀ first second more, rest = first :: second :: more → readHex [first, second] = none) :
    urlDecode (PERCENT :: rest) = PERCENT :: urlDecode rest := by
  rw [urlDecode.eq_def]
  dsimp only
  rw [if_pos rfl]
  split
  · next first second more =>
    rw [h first second more rfl]
  · rfl

/-- Any other byte stands for itself, or for a blank. -/
theorem urlDecode_other {b : UInt8} (h : b ≠ PERCENT) (rest : Bytes) :
    urlDecode (b :: rest) = (if b = PLUS then 32 else b) :: urlDecode rest := by
  rw [urlDecode.eq_def]
  dsimp only
  rw [if_neg h]
  split <;> rfl

/-- What is read from a loose pair is no percent sign. -/
theorem urlDecode_loose {first second : UInt8} (h : loosePair first second = true) (rest : Bytes) :
    ∃ c, c ≠ PERCENT ∧ urlDecode (PERCENT :: first :: second :: rest) = c :: urlDecode rest := by
  obtain ⟨n, hn, hread⟩ := readHex_loose h
  have hval : ∃ val : Int, (val = n ∨ val = -n) ∧ readHex [first, second] = some val :=
    hread.elim (fun h ↦ ⟨n, .inl rfl, h⟩) fun h ↦ ⟨-n, .inr rfl, h⟩
  obtain ⟨val, hval, hread⟩ := hval
  refine ⟨charOfInt val, ?_, ?_⟩
  · intro heq
    have hnat := congrArg UInt8.toNat heq
    simp only [charOfInt, UInt8.toNat_ofNat'] at hnat
    change (val % 256).toNat % 256 = 37 at hnat
    omega
  · rw [urlDecode, if_pos rfl, hread]

/-- A loose pair is not two digits. -/
theorem not_digits_of_loose {first second : UInt8} (h : loosePair first second = true) :
    ¬ (isXDigit first = true ∧ isXDigit second = true) := by
  rintro ⟨hfirst, hsecond⟩
  obtain ⟨hspace, hplus, hminus, -, -⟩ := xDigit_plain hfirst
  simp [loosePair, hspace, hplus, hminus, hsecond] at h

/-! ### When it is the form-urlencoded decoder -/

/-- No loose pair stands behind a percent sign. -/
def NoLoosePair (s : Bytes) : Prop :=
  ∀ pre first second rest, s = pre ++ PERCENT :: first :: second :: rest →
    loosePair first second = false

theorem noLoosePair_cons {b : UInt8} {s : Bytes} : NoLoosePair (b :: s) ↔
    (b = PERCENT → ∀ first second rest, s = first :: second :: rest →
      loosePair first second = false) ∧ NoLoosePair s := by
  constructor
  · intro h
    constructor
    · rintro rfl first second rest rfl
      exact h [] first second rest rfl
    · rintro pre first second rest rfl
      exact h (b :: pre) first second rest rfl
  · rintro ⟨hhead, htail⟩ pre first second rest heq
    cases pre with
    | nil =>
      obtain ⟨hb, hs⟩ := List.cons.inj heq
      exact hhead hb first second rest hs
    | cons c pre => exact htail pre first second rest (List.cons.inj heq).2

private theorem noLoosePair_of_ne {b : UInt8} {s : Bytes} (h : b ≠ PERCENT) :
    NoLoosePair (b :: s) ↔ NoLoosePair s := by
  rw [noLoosePair_cons]
  exact and_iff_right fun hb ↦ absurd hb h

/-- `url_decode` decodes a text as it should exactly when no loose pair stands in it. -/
theorem urlDecode_eq_iff (s : Bytes) : urlDecode s = formDecode s ↔ NoLoosePair s := by
  fun_induction formDecode s with
  | case1 =>
    refine iff_of_true rfl ?_
    intro pre first second rest h
    simp at h
  | case2 high low more hdigits ih =>
    rw [Bool.and_eq_true] at hdigits
    obtain ⟨hhigh, hlow⟩ := hdigits
    rw [urlDecode_escape hhigh hlow, List.cons.injEq, and_iff_right rfl, ih, noLoosePair_cons,
      noLoosePair_of_ne (ne_percent_of_isXDigit hhigh),
      noLoosePair_of_ne (ne_percent_of_isXDigit hlow)]
    refine (and_iff_right ?_).symm
    rintro - first second rest heq
    cases heq
    rw [Bool.eq_false_iff]
    exact fun hloose ↦ not_digits_of_loose hloose ⟨hhigh, hlow⟩
  | case3 high low more hdigits ih =>
    rw [Bool.and_eq_true] at hdigits
    cases hloose : loosePair high low with
    | true =>
      -- What is read shows at once.
      obtain ⟨c, hc, hdecode⟩ := urlDecode_loose hloose more
      apply iff_of_false
      · rw [hdecode]
        exact fun heq ↦ hc (List.cons.inj heq).1
      · intro h
        exact Bool.false_ne_true ((h [] high low more rfl).symm.trans hloose)
    | false =>
      have hread : ∀ first second rest, high :: low :: more = first :: second :: rest →
          readHex [first, second] = none := by
        intro first second rest heq
        cases heq
        exact readHex_none hdigits hloose
      rw [urlDecode_percent hread, List.cons.injEq, and_iff_right rfl, ih,
        noLoosePair_cons (s := high :: low :: more)]
      refine (and_iff_right ?_).symm
      rintro - first second rest heq
      cases heq
      exact hloose
  | case4 rest hshort ih =>
    rw [urlDecode_percent fun first second more heq ↦ (hshort first second more heq).elim,
      List.cons.injEq, and_iff_right rfl, ih, noLoosePair_cons]
    exact (and_iff_right fun _ first second more heq ↦ (hshort first second more heq).elim).symm
  | case5 rest hpercent ih =>
    rw [urlDecode_other hpercent, if_pos rfl, List.cons.injEq, and_iff_right rfl, ih,
      noLoosePair_of_ne hpercent]
  | case6 b rest hpercent hplus ih =>
    rw [urlDecode_other hpercent, if_neg hplus, List.cons.injEq, and_iff_right rfl, ih,
      noLoosePair_of_ne hpercent]

/-- An encoded text has none. -/
theorem noLoosePair_formEncode (text : Bytes) : NoLoosePair (formEncode text) := by
  intro pre first second rest h
  rw [Bool.eq_false_iff]
  exact fun hloose ↦ not_digits_of_loose hloose (isXDigit_of_formEncode h)

/-- `url_decode` is the form-urlencoded decoder on exactly the texts without a loose pair; what
was encoded is among them. -/
theorem urlDecode_spec (s t : Bytes) :
    (urlDecode s = formDecode s ↔ NoLoosePair s) ∧ urlDecode (formEncode t) = t := by
  constructor
  · exact urlDecode_eq_iff s
  · rw [(urlDecode_eq_iff _).mpr (noLoosePair_formEncode t), formDecode_formEncode]

/-- A blank and a digit behind a percent sign are read as a byte. -/
theorem urlDecode_blank : urlDecode (lit "% 5") ≠ formDecode (lit "% 5") := by decide

end Kitty.Web
