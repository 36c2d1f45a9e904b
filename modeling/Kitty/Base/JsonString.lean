import Kitty.Base.FormUrl
import Kitty.Base.Utf8

/-!
# JSON strings

The inside of a JSON string stands for itself, except where a backslash begins an escape. It has no
control character and no quote that is not escaped, so the first quote that is not ends it. An
escape is longer than what it stands for.
-/

namespace Kitty.Base.Json

/-- The byte around a string. -/
def QUOTE : UInt8 := 34

/-- The byte that begins an escape. -/
def BACKSLASH : UInt8 := 92

/-- The letters behind a backslash, each with the byte that the two stand for. -/
def escapeTable : List (UInt8 × UInt8) :=
  (lit "\"\\/bfnrt").zip [34, 92, 47, 8, 12, 10, 13, 9]

/-- The byte that a letter behind a backslash stands for. -/
def escaped (c : UInt8) : Option UInt8 := escapeTable.lookup c

/-- The number that hexadecimal digits stand for. -/
def hexNumber (digits : Bytes) : Nat := digits.foldl (fun n d ↦ 16 * n + hexValue d) 0

/-- The bytes and the code units that the inside of a string is made of, if it is one. -/
def unescape : Bytes → Option (List (UInt8 ⊕ Nat))
  | [] => some []
  | b :: rest =>
    if b = BACKSLASH then
      match rest with
      | [] => none
      | 117 :: h₁ :: h₂ :: h₃ :: h₄ :: more =>
        if [h₁, h₂, h₃, h₄].all isXDigit then
          (unescape more).map (.inr (hexNumber [h₁, h₂, h₃, h₄]) :: ·)
        else none
      | c :: more => (escaped c).bind fun e ↦ (unescape more).map (.inl e :: ·)
    else if b < 0x20 ∨ b = QUOTE then none
    else (unescape rest).map (.inl b :: ·)

/-- The text of bytes and code units; two surrogates in their order are one character. -/
def joinUnits : List (UInt8 ⊕ Nat) → Bytes
  | [] => []
  | .inl b :: units => b :: joinUnits units
  | .inr high :: .inr low :: units =>
    if 0xD800 ≤ high ∧ high < 0xDC00 ∧ 0xDC00 ≤ low ∧ low < 0xE000 then
      utf8Encode (0x10000 + (high - 0xD800) * 0x400 + (low - 0xDC00)) ++ joinUnits units
    else utf8Encode high ++ joinUnits (.inr low :: units)
  | .inr unit :: units => utf8Encode unit ++ joinUnits units

/-- What the inside of a string stands for, if it is one. -/
def decodeChars (raw : Bytes) : Option Bytes := (unescape raw).map joinUnits

/-- The inside of the string whose first quote has been read, and what follows the string. -/
def scan : Bytes → Option (Bytes × Bytes)
  | [] => none
  | b :: rest =>
    if b = QUOTE then some ([], rest)
    else if b = BACKSLASH then
      match rest with
      | [] => none
      | c :: more => (scan more).map fun (raw, r) ↦ (b :: c :: raw, r)
    else (scan rest).map fun (raw, r) ↦ (b :: raw, r)

/-- The text has nothing in it that must be escaped. -/
def Plain (s : Bytes) : Prop := ∀ b ∈ s, 0x20 ≤ b ∧ b ≠ QUOTE ∧ b ≠ BACKSLASH

instance (s : Bytes) : Decidable (Plain s) := List.decidableBAll _ s

example : decodeChars (lit "a\\n\\u20AC\\ud83d\\ude00") =
    some (lit "a" ++ [10] ++ utf8Encode 0x20AC ++ utf8Encode 0x1F600) := by decide

/-! ### Plain text -/

private theorem joinUnits_inl (s : Bytes) : joinUnits (s.map .inl) = s := by
  induction s with
  | nil => rfl
  | cons b s ih => rw [List.map_cons, joinUnits, ih]

private theorem unescape_eq (b : UInt8) (rest : Bytes) :
    unescape (b :: rest) =
      if b = BACKSLASH then
        match rest with
        | [] => none
        | 117 :: h₁ :: h₂ :: h₃ :: h₄ :: more =>
          if [h₁, h₂, h₃, h₄].all isXDigit then
            (unescape more).map (.inr (hexNumber [h₁, h₂, h₃, h₄]) :: ·)
          else none
        | c :: more => (escaped c).bind fun e ↦ (unescape more).map (.inl e :: ·)
      else if b < 0x20 ∨ b = QUOTE then none
      else (unescape rest).map (.inl b :: ·) := by
  rw [unescape.eq_def]
  rfl

theorem unescape_cons {b : UInt8} (h : b ≠ BACKSLASH) (rest : Bytes) :
    unescape (b :: rest) =
      if b < 0x20 ∨ b = QUOTE then none else (unescape rest).map (.inl b :: ·) := by
  rw [unescape_eq]
  exact if_neg h

theorem unescape_letter {c e : UInt8} (hc : c ≠ 117) (he : escaped c = some e)
    (rest : Bytes) :
    unescape (BACKSLASH :: c :: rest) = (unescape rest).map (.inl e :: ·) := by
  rw [unescape_eq]
  simp only [if_true]
  split
  · rename_i heq
    cases heq
  · rename_i heq
    cases heq
    exact absurd rfl hc
  · rename_i heq
    cases heq
    rw [he]
    rfl

theorem unescape_unit {h₁ h₂ h₃ h₄ : UInt8} (hdigits : [h₁, h₂, h₃, h₄].all isXDigit = true)
    (rest : Bytes) :
    unescape (BACKSLASH :: 117 :: h₁ :: h₂ :: h₃ :: h₄ :: rest) =
      (unescape rest).map (.inr (hexNumber [h₁, h₂, h₃, h₄]) :: ·) := by
  rw [unescape_eq]
  exact (if_pos rfl).trans (if_pos hdigits)

/-- Text without a backslash that begins the inside of a string is plain. -/
theorem unescape_append {s : Bytes} (hs : BACKSLASH ∉ s) (rest : Bytes) :
    unescape (s ++ rest) =
      if Plain s then (unescape rest).map (s.map .inl ++ ·) else none := by
  induction s with
  | nil => simp [Plain]
  | cons b s ih =>
    rw [List.mem_cons, not_or] at hs
    have hb : b ≠ BACKSLASH := fun h ↦ hs.1 h.symm
    rw [List.cons_append, unescape_cons hb, ih hs.2]
    by_cases hbad : b < 0x20 ∨ b = QUOTE
    · have hnot : ¬ Plain (b :: s) := fun h ↦ by
        obtain ⟨hle, hquote, -⟩ := h b List.mem_cons_self
        rcases hbad with hlt | heq
        · exact absurd hle (UInt8.not_le.mpr hlt)
        · exact hquote heq
      rw [if_pos hbad, if_neg hnot]
    · have hplain : Plain (b :: s) ↔ Plain s := by
        rw [not_or] at hbad
        constructor
        · exact fun h c hc ↦ h c (List.mem_cons_of_mem _ hc)
        · intro h c hc
          rcases List.mem_cons.mp hc with rfl | hc
          · exact ⟨UInt8.not_lt.mp hbad.1, hbad.2, hb⟩
          · exact h c hc
      rw [if_neg hbad]
      by_cases hs' : Plain s
      · rw [if_pos hs', if_pos (hplain.mpr hs'), Option.map_map]
        rfl
      · rw [if_neg hs', if_neg fun h ↦ hs' (hplain.mp h)]
        rfl

theorem Plain.not_mem {s : Bytes} (h : Plain s) : BACKSLASH ∉ s := fun hb ↦ (h _ hb).2.2 rfl

/-- Plain text stands for itself. -/
theorem decodeChars_of_plain {s : Bytes} (h : Plain s) : decodeChars s = some s := by
  have hnil : unescape [] = some [] := rfl
  have hs := unescape_append h.not_mem []
  rw [List.append_nil, if_pos h, hnil] at hs
  rw [decodeChars, hs, Option.map_some, Option.map_some, List.append_nil, joinUnits_inl]

/-- Text without a backslash is the inside of a string only if it is plain. -/
theorem plain_of_decodeChars {raw s : Bytes} (h : decodeChars raw = some s)
    (hraw : BACKSLASH ∉ raw) : Plain raw ∧ s = raw := by
  have hplain : Plain raw := by
    by_contra hnot
    have hnone := unescape_append hraw []
    rw [List.append_nil, if_neg hnot] at hnone
    rw [decodeChars, hnone] at h
    cases h
  rw [decodeChars_of_plain hplain] at h
  exact ⟨hplain, (Option.some.inj h).symm⟩

/-- Before a quote in the inside of a string there is a backslash. -/
theorem mem_of_decodeChars_quote {before after s : Bytes}
    (h : decodeChars (before ++ QUOTE :: after) = some s) : BACKSLASH ∈ before := by
  by_contra hnot
  have hnone : unescape (QUOTE :: after) = none := by
    rw [unescape_cons (by decide), if_pos (Or.inr rfl)]
  rw [decodeChars, unescape_append hnot, hnone] at h
  split at h <;> cases h

/-! ### Where a string ends -/

theorem scan_quote (rest : Bytes) : scan (QUOTE :: rest) = some ([], rest) := by
  rw [scan.eq_def]
  exact if_pos rfl

theorem scan_escape (c : UInt8) (rest : Bytes) :
    scan (BACKSLASH :: c :: rest) =
      (scan rest).map fun (raw, r) ↦ (BACKSLASH :: c :: raw, r) := by
  rw [scan.eq_def]
  exact (if_neg (by decide)).trans (if_pos rfl)

theorem scan_cons {b : UInt8} (hquote : b ≠ QUOTE) (hescape : b ≠ BACKSLASH) (rest : Bytes) :
    scan (b :: rest) = (scan rest).map fun (raw, r) ↦ (b :: raw, r) := by
  rw [scan.eq_def]
  exact (if_neg hquote).trans (if_neg hescape)

private theorem ne_of_isXDigit {b : UInt8} (h : isXDigit b = true) : b ≠ QUOTE ∧ b ≠ BACKSLASH := by
  constructor
  · rintro rfl
    exact absurd h (by decide)
  · rintro rfl
    exact absurd h (by decide)

/-- A string ends with the quote behind its inside. -/
theorem scan_append {raw : Bytes} {units : List (UInt8 ⊕ Nat)} (h : unescape raw = some units)
    (rest : Bytes) : scan (raw ++ QUOTE :: rest) = some (raw, rest) := by
  fun_induction unescape raw generalizing units with
  | case1 => exact scan_quote rest
  | case2 => cases h
  | case3 h₁ h₂ h₃ h₄ more hdigits ih =>
    obtain ⟨units', hmore, -⟩ := Option.map_eq_some_iff.mp h
    simp only [List.all_cons, List.all_nil, Bool.and_eq_true] at hdigits
    obtain ⟨hd₁, hd₂, hd₃, hd₄, -⟩ := hdigits
    simp only [List.cons_append]
    rw [scan_escape, scan_cons (ne_of_isXDigit hd₁).1 (ne_of_isXDigit hd₁).2,
      scan_cons (ne_of_isXDigit hd₂).1 (ne_of_isXDigit hd₂).2,
      scan_cons (ne_of_isXDigit hd₃).1 (ne_of_isXDigit hd₃).2,
      scan_cons (ne_of_isXDigit hd₄).1 (ne_of_isXDigit hd₄).2, ih hmore]
    rfl
  | case4 => cases h
  | case5 c more _ ih =>
    obtain ⟨e, -, hrest⟩ := Option.bind_eq_some_iff.mp h
    obtain ⟨units', hmore, -⟩ := Option.map_eq_some_iff.mp hrest
    simp only [List.cons_append]
    rw [scan_escape, ih hmore]
    rfl
  | case6 => cases h
  | case7 b more hescape hplain ih =>
    obtain ⟨units', hmore, -⟩ := Option.map_eq_some_iff.mp h
    rw [List.cons_append, scan_cons (fun hq ↦ hplain (Or.inr hq)) hescape, ih hmore]
    rfl

/-- What is scanned is the inside, the quote, and what follows. -/
theorem eq_of_scan {text raw rest : Bytes} (h : scan text = some (raw, rest)) :
    text = raw ++ QUOTE :: rest := by
  fun_induction scan text generalizing raw with
  | case1 => cases h
  | case2 more =>
    cases h
    rfl
  | case3 => cases h
  | case4 c more _ ih =>
    obtain ⟨⟨raw', r⟩, hmore, heq⟩ := Option.map_eq_some_iff.mp h
    cases heq
    rw [ih hmore]
    rfl
  | case5 b more _ _ ih =>
    obtain ⟨⟨raw', r⟩, hmore, heq⟩ := Option.map_eq_some_iff.mp h
    cases heq
    rw [ih hmore]
    rfl

/-- No control character stands inside a string. -/
theorem le_of_decodeChars {raw s : Bytes} (h : decodeChars raw = some s) :
    ∀ b ∈ raw, 0x20 ≤ b := by
  obtain ⟨units, hunits, -⟩ := Option.map_eq_some_iff.mp h
  clear h
  have hdigit : ∀ b, isXDigit b = true → 0x20 ≤ b := fun b hb ↦ by
    rw [UInt8.le_iff_toNat_le]
    change 32 ≤ b.toNat
    have := isXDigit_iff.mp hb
    omega
  fun_induction unescape raw generalizing units with
  | case1 => simp
  | case2 => cases hunits
  | case3 h₁ h₂ h₃ h₄ more hdigits ih =>
    obtain ⟨units', hmore, -⟩ := Option.map_eq_some_iff.mp hunits
    simp only [List.all_cons, List.all_nil, Bool.and_eq_true] at hdigits
    obtain ⟨hd₁, hd₂, hd₃, hd₄, -⟩ := hdigits
    simp only [List.forall_mem_cons]
    exact ⟨by decide, by decide, hdigit _ hd₁, hdigit _ hd₂, hdigit _ hd₃, hdigit _ hd₄,
      ih units' hmore⟩
  | case4 => cases hunits
  | case5 c more _ ih =>
    obtain ⟨e, he, hrest⟩ := Option.bind_eq_some_iff.mp hunits
    obtain ⟨units', hmore, -⟩ := Option.map_eq_some_iff.mp hrest
    have htable : (escapeTable.all fun p ↦ decide (0x20 ≤ p.1)) = true := by decide
    have hc : 0x20 ≤ c := by
      obtain ⟨before, after, heq, -⟩ := List.lookup_eq_some_iff.mp he
      exact of_decide_eq_true (List.all_eq_true.mp htable (c, e) (by simp [heq]))
    simp only [List.forall_mem_cons]
    exact ⟨by decide, hc, ih units' hmore⟩
  | case6 => cases hunits
  | case7 b more _ hplain ih =>
    obtain ⟨units', hmore, -⟩ := Option.map_eq_some_iff.mp hunits
    rw [List.forall_mem_cons]
    exact ⟨UInt8.not_lt.mp (not_or.mp hplain).1, ih units' hmore⟩

/-! ### How long an escape is -/

/-- An upper bound for the length of a text of bytes and code units. -/
def unitsSize : List (UInt8 ⊕ Nat) → Nat
  | [] => 0
  | .inl _ :: units => 1 + unitsSize units
  | .inr _ :: units => 4 + unitsSize units

private theorem length_joinUnits_le (units : List (UInt8 ⊕ Nat)) :
    (joinUnits units).length ≤ unitsSize units := by
  fun_induction joinUnits units with
  | case1 => exact Nat.le_refl _
  | case2 b units ih =>
    simp only [unitsSize, List.length_cons] at ih ⊢
    omega
  | case3 high low units _ ih =>
    have hlen := length_utf8Encode_le (0x10000 + (high - 0xD800) * 0x400 + (low - 0xDC00))
    simp only [unitsSize, List.length_append] at ih ⊢
    omega
  | case4 high low units _ ih =>
    have hlen := length_utf8Encode_le high
    simp only [unitsSize, List.length_append] at ih ⊢
    omega
  | case5 unit units _ ih =>
    have hlen := length_utf8Encode_le unit
    simp only [unitsSize, List.length_append] at ih ⊢
    omega

private theorem unitsSize_unescape {raw : Bytes} {units : List (UInt8 ⊕ Nat)}
    (h : unescape raw = some units) :
    unitsSize units ≤ raw.length ∧ (BACKSLASH ∈ raw → unitsSize units < raw.length) := by
  fun_induction unescape raw generalizing units with
  | case1 =>
    cases h
    exact ⟨Nat.le_refl _, fun hnil ↦ nomatch hnil⟩
  | case2 => cases h
  | case3 h₁ h₂ h₃ h₄ more _ ih =>
    obtain ⟨units', hmore, rfl⟩ := Option.map_eq_some_iff.mp h
    have hle := (ih hmore).1
    simp only [unitsSize, List.length_cons] at hle ⊢
    omega
  | case4 => cases h
  | case5 c more _ ih =>
    obtain ⟨e, -, hrest⟩ := Option.bind_eq_some_iff.mp h
    obtain ⟨units', hmore, rfl⟩ := Option.map_eq_some_iff.mp hrest
    have hle := (ih hmore).1
    simp only [unitsSize, List.length_cons] at hle ⊢
    omega
  | case6 => cases h
  | case7 b more hescape _ ih =>
    obtain ⟨units', hmore, rfl⟩ := Option.map_eq_some_iff.mp h
    obtain ⟨hle, hlt⟩ := ih hmore
    simp only [unitsSize, List.length_cons] at hle hlt ⊢
    refine ⟨by omega, fun hmem ↦ ?_⟩
    rcases List.mem_cons.mp hmem with heq | hmem
    · exact absurd heq.symm hescape
    · have := hlt hmem
      omega

/-- With an escape in it, the inside of a string is longer than what it stands for. -/
theorem length_lt_of_decodeChars {raw s : Bytes} (h : decodeChars raw = some s)
    (hraw : BACKSLASH ∈ raw) : s.length < raw.length := by
  obtain ⟨units, hunits, rfl⟩ := Option.map_eq_some_iff.mp h
  exact Nat.lt_of_le_of_lt (length_joinUnits_le units) ((unitsSize_unescape hunits).2 hraw)

end Kitty.Base.Json
