import Kitty.CJson.Strings

/-!
# JSON literals in cJSON

A literal that JSON allows is read by `parse_string` as the text that it stands for, if this is
UTF-8. A surrogate that is not one of a pair has no UTF-8; cJSON rejects it.
-/

namespace Kitty.CJson

open Kitty.Base
open Kitty.Base.Json (QUOTE BACKSLASH unescape joinUnits decodeChars hexNumber)

/-! ### Bytes and digits -/

private theorem ok_bind {α β : Type} (a : α) (f : α → Except Stop β) :
    (Except.ok a >>= f) = f a := rfl

theorem byteAt_of_drop {content rest : Bytes} {i : Nat} {b : UInt8}
    (h : content.drop i = b :: rest) : byteAt content i = .ok b := by
  have hb : content[i]? = some b := by
    rw [← Nat.add_zero i, ← List.getElem?_drop, h, List.getElem?_cons_zero]
  rw [byteAt, hb]

theorem drop_succ_of_drop {content rest : Bytes} {i : Nat} {b : UInt8}
    (h : content.drop i = b :: rest) : content.drop (i + 1) = rest := by
  rw [← List.drop_drop, h, List.drop_one, List.tail_cons]

private theorem hexDigitOf_eq {b : UInt8} (h : isXDigit b = true) :
    hexDigitOf b = some (hexValue b) := by
  have hb := isXDigit_iff.mp h
  simp only [hexDigitOf, hexValue, UInt8.le_iff_toNat_le]
  change (if 48 ≤ b.toNat ∧ b.toNat ≤ 57 then _ else if 65 ≤ b.toNat ∧ b.toNat ≤ 70 then _
    else if 97 ≤ b.toNat ∧ b.toNat ≤ 102 then _ else none) =
    some (if b.toNat ≤ 57 then _ else if b.toNat ≤ 70 then _ else _)
  rcases hb with hb | hb | hb
  · rw [if_pos hb, if_pos hb.2]
  · rw [if_neg (by omega), if_pos hb, if_neg (by omega), if_pos hb.2]
    exact congrArg some (by omega)
  · rw [if_neg (by omega), if_neg (by omega), if_pos hb, if_neg (by omega), if_neg (by omega)]
    exact congrArg some (by omega)

private theorem parseHex4Loop_eq {content digits more : Bytes} {input : Nat} (hne : digits ≠ [])
    (h : content.drop input = digits ++ more) (hdigits : ∀ d ∈ digits, isXDigit d = true)
    (n : Nat) : parseHex4Loop content digits.length input (16 * n) =
      .ok (digits.foldl (fun n d ↦ 16 * n + hexValue d) n) := by
  induction digits generalizing input n with
  | nil => exact absurd rfl hne
  | cons d digits ih =>
    rw [List.cons_append] at h
    have hd := hexDigitOf_eq (hdigits d List.mem_cons_self)
    rw [List.length_cons, parseHex4Loop, byteAt_of_drop h, ok_bind, hd, List.foldl_cons]
    cases digits with
    | nil => rfl
    | cons d' digits =>
      have hrest := ih (List.cons_ne_nil d' digits) (drop_succ_of_drop h)
        (fun x hx ↦ hdigits x (List.mem_cons_of_mem d hx)) (16 * n + hexValue d)
      have hshift : (16 * n + hexValue d) <<< 4 = 16 * (16 * n + hexValue d) := by
        rw [Nat.shiftLeft_eq, Nat.mul_comm]
      simp only [List.length_cons, Nat.add_eq_zero_iff, Nat.one_ne_zero, and_false, if_false,
        hshift] at hrest ⊢
      exact hrest

private theorem parseHex4_eq {content more : Bytes} {input : Nat} {h₁ h₂ h₃ h₄ : UInt8}
    (h : content.drop input = h₁ :: h₂ :: h₃ :: h₄ :: more)
    (hdigits : [h₁, h₂, h₃, h₄].all isXDigit = true) :
    parseHex4 content input = .ok (hexNumber [h₁, h₂, h₃, h₄]) :=
  @parseHex4Loop_eq content [h₁, h₂, h₃, h₄] more input (List.cons_ne_nil _ _) h
    (List.all_eq_true.mp hdigits) 0

/-! ### Characters -/

private theorem continuation_eq (c : Nat) : (c ||| 0x80) &&& 0xBF = 0x80 + c % 0x40 := by
  have hall : ((List.range 256).all fun m ↦
      decide ((m ||| 0x80) &&& 0xBF = 0x80 + m % 0x40)) = true := by decide +kernel
  have hlow : (c ||| 0x80) &&& 0xBF = (c % 2 ^ 8 ||| 0x80) &&& 0xBF := by
    apply Nat.eq_of_testBit_eq
    intro i
    rw [Nat.testBit_and, Nat.testBit_and, Nat.testBit_or, Nat.testBit_or, Nat.testBit_mod_two_pow]
    by_cases hi : i < 8
    · simp [hi]
    · have hzero : Nat.testBit 0xBF i = false :=
        Nat.testBit_lt_two_pow (Nat.lt_of_lt_of_le (by decide : 0xBF < 2 ^ 8)
          (Nat.pow_le_pow_right (by decide) (Nat.not_lt.mp hi)))
      rw [hzero, Bool.and_false, Bool.and_false]
  have hmod := of_decide_eq_true (List.all_eq_true.mp hall (c % 256)
    (List.mem_range.mpr (Nat.mod_lt c (by decide))))
  rw [hlow]
  refine hmod.trans ?_
  rw [Nat.mod_mod_of_dvd c (by decide)]

private theorem firstByte_eq {mark n : Nat} (width : Nat)
    (hmark : ((List.range width).all fun m ↦ decide ((m ||| mark) &&& 0xFF = mark + m)) = true)
    (h : n < width) : (n ||| mark) &&& 0xFF = mark + n :=
  of_decide_eq_true (List.all_eq_true.mp hmark n (List.mem_range.mpr h))

/-- A code point is stored as its UTF-8. -/
theorem utf8Bytes_eq {n : Nat} (h : n ≤ 0x10FFFF) : utf8Bytes n = some (utf8Encode n) := by
  have hshift (c : Nat) : c >>> 6 = c / 0x40 := Nat.shiftRight_eq_div_pow c 6
  unfold utf8Bytes utf8Encode
  simp only [utf8Tail, hshift, continuation_eq, List.nil_append, List.cons_append,
    Nat.div_div_eq_div_mul]
  split
  · next hlt =>
    have hmod : n &&& 0x7F = n := by
      rw [show 0x7F = 2 ^ 7 - 1 from rfl, Nat.and_two_pow_sub_one_eq_mod, Nat.mod_eq_of_lt hlt]
    rw [hmod]
  split
  · rw [firstByte_eq 32 (by decide) (by omega)]
  split
  · rw [firstByte_eq 16 (by decide) (by omega)]
  · rw [firstByte_eq 8 (by decide) (by omega)]

/-- The code point of two surrogates. -/
private theorem codepoint_eq {high low : Nat} (hhigh : 0xD800 ≤ high ∧ high < 0xDC00)
    (hlow : 0xDC00 ≤ low ∧ low < 0xE000) :
    ((high &&& 0x3FF) <<< 10) ||| (low &&& 0x3FF) = (high - 0xD800) * 0x400 + (low - 0xDC00) := by
  have hmod (n : Nat) : n &&& 0x3FF = n % 2 ^ 10 := Nat.and_two_pow_sub_one_eq_mod n 10
  rw [hmod, hmod, ← Nat.shiftLeft_add_eq_or_of_lt (Nat.mod_lt _ (by decide)), Nat.shiftLeft_eq]
  omega

/-! ### Surrogates -/

/-- The code unit is half of a pair. -/
def IsSurrogate (unit : Nat) : Prop := 0xD800 ≤ unit ∧ unit < 0xE000

/-- Every surrogate is one of a pair. -/
def Paired : List (UInt8 ⊕ Nat) → Prop
  | [] => True
  | .inl _ :: units => Paired units
  | .inr high :: .inr low :: units =>
    if 0xD800 ≤ high ∧ high < 0xDC00 ∧ 0xDC00 ≤ low ∧ low < 0xE000 then Paired units
    else ¬ IsSurrogate high ∧ Paired (.inr low :: units)
  | .inr unit :: units => ¬ IsSurrogate unit ∧ Paired units

/-- Ranges of continuation bytes. -/
private def Behind (ranges : List (UInt8 × UInt8)) : Prop := ∀ range ∈ ranges, range.2 ≤ 0xBF

private theorem behind_of_continuations {b : UInt8} {ranges : List (UInt8 × UInt8)}
    (h : continuations b = some ranges) : Behind ranges := by
  obtain ⟨e, he, rfl⟩ := Option.map_eq_some_iff.mp h
  have htable : (utf8Table.all fun e ↦ e.2.all fun range ↦ decide (range.2 ≤ 0xBF)) = true := by
    decide
  intro range hrange
  have hall := List.all_eq_true.mp htable e (List.mem_of_find?_eq_some he)
  exact of_decide_eq_true (List.all_eq_true.mp hall range hrange)

/-- What follows in well-formed text goes on from where the first part ends. -/
private theorem exists_utf8After {ranges : List (UInt8 × UInt8)} (hranges : Behind ranges)
    (text : Bytes) {rest : Bytes} (h : utf8After ranges (text ++ rest) = true) :
    ∃ ranges', Behind ranges' ∧ utf8After ranges' rest = true := by
  induction text generalizing ranges with
  | nil => exact ⟨ranges, hranges, h⟩
  | cons b text ih =>
    cases ranges with
    | nil =>
      rw [List.cons_append, utf8After] at h
      split at h
      · cases h
      · next hb => exact ih (behind_of_continuations hb) h
    | cons range ranges =>
      rw [List.cons_append, utf8After, Bool.and_eq_true] at h
      exact ih (fun r hr ↦ hranges r (List.mem_cons_of_mem _ hr)) h.2

/-- No continuation byte begins the three bytes of a surrogate, and no character does. -/
private theorem not_utf8After_surrogate {ranges : List (UInt8 × UInt8)}
    (hranges : Behind ranges) {unit : Nat} (h : IsSurrogate unit)
    (rest : Bytes) : utf8After ranges (utf8Encode unit ++ rest) = false := by
  have hfirst : UInt8.ofNat (0xE0 + unit / 0x1000) = 0xED := by
    rw [show unit / 0x1000 = 0xD by obtain ⟨hle, hlt⟩ := h; omega]
    rfl
  have hsecond : (UInt8.ofNat (0x80 + unit / 0x40 % 0x40) ≤ 0x9F) = False := by
    rw [eq_iff_iff, iff_false, UInt8.le_iff_toNat_le, UInt8.toNat_ofNat']
    obtain ⟨hle, hlt⟩ := h
    change ¬ _ ≤ 0x9F
    omega
  obtain ⟨hle, hlt⟩ := h
  rw [utf8Encode, if_neg (by omega), if_neg (by omega), if_pos (by omega), hfirst]
  cases ranges with
  | nil =>
    rw [List.cons_append, utf8After,
      show continuations 0xED = some [(0x80, 0x9F), (0x80, 0xBF)] by decide]
    change (decide (0x80 ≤ _) && decide (_ ≤ 0x9F) && _) = false
    rw [decide_eq_false (of_eq_false hsecond), Bool.and_false, Bool.false_and]
  | cons range ranges =>
    have hlow : ¬ (0xED : UInt8) ≤ range.2 := fun hin ↦
      absurd (UInt8.le_trans hin (hranges range List.mem_cons_self)) (by decide)
    change (decide (range.1 ≤ 0xED) && decide (0xED ≤ range.2) && _) = false
    rw [decide_eq_false hlow, Bool.and_false, Bool.false_and]

private theorem paired_of_utf8After {units : List (UInt8 ⊕ Nat)}
    {ranges : List (UInt8 × UInt8)} (hranges : Behind ranges)
    (h : utf8After ranges (joinUnits units) = true) : Paired units := by
  fun_induction joinUnits units generalizing ranges with
  | case1 => trivial
  | case2 b units ih =>
    obtain ⟨ranges', hranges', h'⟩ := exists_utf8After hranges [b] h
    rw [Paired]
    exact ih hranges' h'
  | case3 high low units hpair ih =>
    obtain ⟨ranges', hranges', h'⟩ := exists_utf8After hranges _ h
    rw [Paired, if_pos hpair]
    exact ih hranges' h'
  | case4 high low units hpair ih =>
    obtain ⟨ranges', hranges', h'⟩ := exists_utf8After hranges _ h
    rw [Paired, if_neg hpair]
    refine ⟨fun hsurrogate ↦ ?_, ih hranges' h'⟩
    rw [not_utf8After_surrogate hranges hsurrogate] at h
    cases h
  | case5 unit units hlast ih =>
    obtain ⟨ranges', hranges', h'⟩ := exists_utf8After hranges _ h
    have hunit : ¬ IsSurrogate unit := fun hsurrogate ↦ by
      rw [not_utf8After_surrogate hranges hsurrogate] at h
      cases h
    rw [Paired]
    · exact ⟨hunit, ih hranges' h'⟩
    · exact hlast

/-- Code units that stand for UTF-8 have their surrogates in pairs. -/
theorem paired_of_isUtf8 {units : List (UInt8 ⊕ Nat)} (h : isUtf8 (joinUnits units) = true) :
    Paired units := paired_of_utf8After (fun _ hr ↦ absurd hr List.not_mem_nil) h

/-! ### The inside of a literal -/

/-- The function returns this, unless it leaves a block. -/
private def Yields {α : Type} (a : α) (x : Except Stop α) : Prop :=
  x = .ok a ∨ x = .error .outside

private theorem Yields.bind {α β : Type} {a : α} {b : β} {x : Except Stop α}
    {f : α → Except Stop β} (hx : Yields a x) (hf : Yields b (f a)) : Yields b (x >>= f) := by
  rcases hx with rfl | rfl
  · exact hf
  · exact Or.inr rfl

private theorem yields_storeAt (size used count : Nat) : Yields () (storeAt size used count) := by
  rw [storeAt]
  split
  · exact Or.inl rfl
  · exact Or.inr rfl

/-- A letter that JSON allows behind a backslash has the same byte in cJSON. -/
private theorem escapeOf_eq {c e : UInt8} (h : Json.escaped c = some e) :
    c ≠ 117 ∧ escapeOf c = some e := by
  have htable : (Json.escapeTable.all fun p ↦ decide (p.1 ≠ 117 ∧ escapeOf p.1 = some p.2)) =
      true := by decide
  obtain ⟨before, after, heq, -⟩ := List.lookup_eq_some_iff.mp h
  exact of_decide_eq_true (List.all_eq_true.mp htable (c, e) (by simp [heq]))

private theorem hexNumber_lt {h₁ h₂ h₃ h₄ : UInt8}
    (hdigits : [h₁, h₂, h₃, h₄].all isXDigit = true) : hexNumber [h₁, h₂, h₃, h₄] < 0x10000 := by
  simp only [List.all_cons, List.all_nil, Bool.and_eq_true] at hdigits
  obtain ⟨hd₁, hd₂, hd₃, hd₄, -⟩ := hdigits
  have h₁ := hexValue_lt hd₁
  have h₂ := hexValue_lt hd₂
  have h₃ := hexValue_lt hd₃
  have h₄ := hexValue_lt hd₄
  simp only [hexNumber, List.foldl_cons, List.foldl_nil]
  omega

/-- A code unit that is no surrogate. -/
private theorem utf16_unit {content more : Bytes} {input inputEnd : Nat} {h₁ h₂ h₃ h₄ : UInt8}
    (h : content.drop input = BACKSLASH :: 117 :: h₁ :: h₂ :: h₃ :: h₄ :: more)
    (hdigits : [h₁, h₂, h₃, h₄].all isXDigit = true)
    (hunit : ¬ IsSurrogate (hexNumber [h₁, h₂, h₃, h₄])) (hend : input + 6 ≤ inputEnd) :
    utf16LiteralToUtf8 content input inputEnd =
      .ok (some (6, utf8Encode (hexNumber [h₁, h₂, h₃, h₄]))) := by
  have hlt := hexNumber_lt hdigits
  have hfirst := parseHex4_eq (drop_succ_of_drop (drop_succ_of_drop h)) hdigits
  have hencode := utf8Bytes_eq (show hexNumber [h₁, h₂, h₃, h₄] ≤ 0x10FFFF by omega)
  unfold IsSurrogate at hunit
  unfold utf16LiteralToUtf8
  rw [if_neg (by omega)]
  change (parseHex4 content (input + 1 + 1) >>= _) = _
  rw [hfirst]
  change (if _ then _ else _) = _
  rw [if_neg (by omega)]
  change (if _ then _ else _) = _
  rw [if_neg (by omega)]
  change Except.ok ((utf8Bytes _).map _) = _
  rw [hencode]
  rfl

/-- Two surrogates in their order. -/
private theorem utf16_pair {content more : Bytes} {input inputEnd : Nat}
    {h₁ h₂ h₃ h₄ l₁ l₂ l₃ l₄ : UInt8}
    (h : content.drop input = BACKSLASH :: 117 :: h₁ :: h₂ :: h₃ :: h₄ ::
      BACKSLASH :: 117 :: l₁ :: l₂ :: l₃ :: l₄ :: more)
    (hdigits : [h₁, h₂, h₃, h₄].all isXDigit = true)
    (ldigits : [l₁, l₂, l₃, l₄].all isXDigit = true)
    (hhigh : 0xD800 ≤ hexNumber [h₁, h₂, h₃, h₄] ∧ hexNumber [h₁, h₂, h₃, h₄] < 0xDC00)
    (hlow : 0xDC00 ≤ hexNumber [l₁, l₂, l₃, l₄] ∧ hexNumber [l₁, l₂, l₃, l₄] < 0xE000)
    (hend : input + 12 ≤ inputEnd) :
    utf16LiteralToUtf8 content input inputEnd =
      .ok (some (12, utf8Encode (0x10000 + (hexNumber [h₁, h₂, h₃, h₄] - 0xD800) * 0x400 +
        (hexNumber [l₁, l₂, l₃, l₄] - 0xDC00)))) := by
  have h₂' := drop_succ_of_drop (drop_succ_of_drop h)
  have h₆ := drop_succ_of_drop (drop_succ_of_drop (drop_succ_of_drop (drop_succ_of_drop h₂')))
  have hfirst := parseHex4_eq h₂' hdigits
  have hsecond := parseHex4_eq (drop_succ_of_drop (drop_succ_of_drop h₆)) ldigits
  have hencode := utf8Bytes_eq (show 0x10000 + ((hexNumber [h₁, h₂, h₃, h₄] - 0xD800) * 0x400 +
    (hexNumber [l₁, l₂, l₃, l₄] - 0xDC00)) ≤ 0x10FFFF by omega)
  unfold utf16LiteralToUtf8
  rw [if_neg (by omega)]
  change (parseHex4 content (input + 1 + 1) >>= _) = _
  rw [hfirst]
  change (if _ then _ else _) = _
  rw [if_neg (by omega)]
  change (if _ then _ else _) = _
  rw [if_pos (by omega)]
  change (if _ then _ else _) = _
  rw [if_neg (by omega)]
  change (byteAt content (input + 1 + 1 + 1 + 1 + 1 + 1) >>= _) = _
  rw [byteAt_of_drop h₆]
  change (byteAt content (input + 1 + 1 + 1 + 1 + 1 + 1 + 1) >>= _) = _
  rw [byteAt_of_drop (drop_succ_of_drop h₆)]
  change (parseHex4 content (input + 1 + 1 + 1 + 1 + 1 + 1 + 1 + 1) >>= _) = _
  rw [hsecond]
  change (if _ then _ else _) = _
  rw [if_neg (by omega)]
  change Except.ok ((utf8Bytes _).map _) = _
  rw [codepoint_eq hhigh hlow, hencode, ← Nat.add_assoc]
  rfl

/-- The first character or escape of the inside of a string. -/
private inductive Begins (raw : Bytes) : List (UInt8 ⊕ Nat) → Prop where
  | nil (h : raw = []) : Begins raw []
  | plain {b : UInt8} {rest : Bytes} {units : List (UInt8 ⊕ Nat)} (h : raw = b :: rest)
      (hb : b ≠ BACKSLASH) (hrest : unescape rest = some units) : Begins raw (.inl b :: units)
  | escape {c e : UInt8} {rest : Bytes} {units : List (UInt8 ⊕ Nat)}
      (h : raw = BACKSLASH :: c :: rest) (he : Json.escaped c = some e)
      (hrest : unescape rest = some units) : Begins raw (.inl e :: units)
  | unit {h₁ h₂ h₃ h₄ : UInt8} {rest : Bytes} {units : List (UInt8 ⊕ Nat)}
      (h : raw = BACKSLASH :: 117 :: h₁ :: h₂ :: h₃ :: h₄ :: rest)
      (hdigits : [h₁, h₂, h₃, h₄].all isXDigit = true) (hrest : unescape rest = some units) :
      Begins raw (.inr (hexNumber [h₁, h₂, h₃, h₄]) :: units)

private theorem begins_of_unescape {raw : Bytes} {units : List (UInt8 ⊕ Nat)}
    (h : unescape raw = some units) : Begins raw units := by
  revert h
  fun_cases unescape raw with
  | case1 =>
    rintro ⟨⟩
    exact .nil rfl
  | case2 => rintro ⟨⟩
  | case3 h₁ h₂ h₃ h₄ more hdigits =>
    intro h
    obtain ⟨units', hmore, rfl⟩ := Option.map_eq_some_iff.mp h
    exact .unit rfl hdigits hmore
  | case4 => rintro ⟨⟩
  | case5 c more =>
    intro h
    obtain ⟨e, he, hrest⟩ := Option.bind_eq_some_iff.mp h
    obtain ⟨units', hmore, rfl⟩ := Option.map_eq_some_iff.mp hrest
    exact .escape rfl he hmore
  | case6 => rintro ⟨⟩
  | case7 b more hescape =>
    intro h
    obtain ⟨units', hmore, rfl⟩ := Option.map_eq_some_iff.mp h
    exact .plain rfl hescape hmore

theorem joinUnits_unit {unit : Nat} {units : List (UInt8 ⊕ Nat)}
    (h : ¬ IsSurrogate unit) :
    joinUnits (.inr unit :: units) = utf8Encode unit ++ joinUnits units := by
  match units with
  | [] => rfl
  | .inl b :: units => rfl
  | .inr low :: units =>
    rw [joinUnits, if_neg fun hpair ↦ h ⟨hpair.1, by omega⟩]

/-- The second pass stores what the literal stands for. -/
private theorem yields_copyLiteral {content rest : Bytes} {inputEnd size fuel input : Nat}
    {output raw : Bytes} {units : List (UInt8 ⊕ Nat)}
    (h : content.drop input = raw ++ QUOTE :: rest) (hend : inputEnd = input + raw.length)
    (hunits : unescape raw = some units) (hpaired : Paired units) (hfuel : raw.length < fuel) :
    Yields (output ++ joinUnits units) (copyLiteral content inputEnd size fuel input output) := by
  induction fuel generalizing input output raw units with
  | zero => exact absurd hfuel (Nat.not_lt_zero _)
  | succ fuel ih =>
    -- What one turn stores, and the turns behind it.
    have hstep : ∀ (front more bytes : Bytes) (units' : List (UInt8 ⊕ Nat)),
        raw = front ++ more → front ≠ [] → unescape more = some units' → Paired units' →
        Yields (output ++ (bytes ++ joinUnits units'))
          (storeAt size output.length bytes.length >>= fun _ ↦
            copyLiteral content inputEnd size fuel (input + front.length) (output ++ bytes)) := by
      rintro front more bytes units' rfl hfront hmore hpaired'
      have hpos := List.length_pos_iff.mpr hfront
      rw [List.length_append] at hend hfuel
      rw [List.append_assoc] at h
      have hdrop : content.drop (input + front.length) = more ++ QUOTE :: rest := by
        rw [← List.drop_drop, h, List.drop_left]
      have hnext := @ih (input + front.length) (output ++ bytes) more units' hdrop (by omega) hmore
        hpaired' (by omega)
      rw [List.append_assoc] at hnext
      exact (yields_storeAt _ _ _).bind hnext
    rw [copyLiteral]
    cases begins_of_unescape hunits with
    | nil hraw =>
      subst hraw
      rw [if_neg (by rw [hend]; exact Nat.lt_irrefl _), joinUnits, List.append_nil]
      exact (yields_storeAt _ _ _).bind (Or.inl rfl)
    | @plain b more units' hraw hb hrest =>
      rw [hraw, List.cons_append] at h
      rw [if_pos (by rw [hend, hraw, List.length_cons]; omega), byteAt_of_drop h]
      refine Yields.bind (Or.inl rfl) ?_
      rw [if_pos hb]
      exact hstep [b] more [b] units' hraw (List.cons_ne_nil _ _) hrest hpaired
    | @escape c e more units' hraw he hrest =>
      obtain ⟨hne, hescape⟩ := escapeOf_eq he
      rw [hraw, List.cons_append, List.cons_append] at h
      rw [if_pos (by rw [hend, hraw, List.length_cons]; omega), byteAt_of_drop h]
      refine Yields.bind (Or.inl rfl) ?_
      rw [if_neg (by decide), byteAt_of_drop (drop_succ_of_drop h)]
      refine Yields.bind (Or.inl rfl) ?_
      rw [if_neg hne, hescape]
      exact hstep [BACKSLASH, c] more [e] units' hraw (List.cons_ne_nil _ _) hrest hpaired
    | @unit h₁ h₂ h₃ h₄ more units' hraw hdigits hrest =>
      have hdrop := h
      rw [hraw, List.cons_append, List.cons_append] at h
      rw [if_pos (by rw [hend, hraw, List.length_cons]; omega), byteAt_of_drop h]
      refine Yields.bind (Or.inl rfl) ?_
      rw [if_neg (by decide), byteAt_of_drop (drop_succ_of_drop h)]
      refine Yields.bind (Or.inl rfl) ?_
      rw [if_pos rfl]
      -- What is stored for a sequence is left open here: `next` is the rest of the turn.
      have hsingle : ∀ next : Option (Nat × Bytes) → Except Stop Bytes,
          (∀ sequenceLength bytes, next (some (sequenceLength, bytes)) =
            storeAt size output.length bytes.length >>= fun _ ↦
              copyLiteral content inputEnd size fuel (input + sequenceLength) (output ++ bytes)) →
          ¬ IsSurrogate (hexNumber [h₁, h₂, h₃, h₄]) → Paired units' →
          Yields (output ++ joinUnits (.inr (hexNumber [h₁, h₂, h₃, h₄]) :: units'))
            (utf16LiteralToUtf8 content input inputEnd >>= next) := by
        intro next hnext hunit hpaired'
        rw [utf16_unit h hdigits hunit (by rw [hend, hraw]; simp), joinUnits_unit hunit]
        refine Yields.bind (Or.inl rfl) ?_
        rw [hnext]
        exact hstep (BACKSLASH :: 117 :: [h₁, h₂, h₃, h₄]) more _ units' hraw
          (List.cons_ne_nil _ _) hrest hpaired'
      cases begins_of_unescape hrest with
      | nil hmore => exact hsingle _ (fun _ _ ↦ rfl) hpaired.1 hpaired.2
      | plain hmore hb hrest' => exact hsingle _ (fun _ _ ↦ rfl) hpaired.1 hpaired.2
      | escape hmore he hrest' => exact hsingle _ (fun _ _ ↦ rfl) hpaired.1 hpaired.2
      | @unit l₁ l₂ l₃ l₄ more' units'' hmore ldigits hrest' =>
        by_cases hpair : 0xD800 ≤ hexNumber [h₁, h₂, h₃, h₄] ∧ hexNumber [h₁, h₂, h₃, h₄] < 0xDC00 ∧
          0xDC00 ≤ hexNumber [l₁, l₂, l₃, l₄] ∧ hexNumber [l₁, l₂, l₃, l₄] < 0xE000
        · rw [Paired, if_pos hpair] at hpaired
          rw [hmore] at hraw
          rw [hraw] at hdrop
          rw [utf16_pair hdrop hdigits ldigits ⟨hpair.1, hpair.2.1⟩ hpair.2.2
            (by rw [hend, hraw]; simp), joinUnits, if_pos hpair]
          refine Yields.bind (Or.inl rfl) ?_
          exact hstep (BACKSLASH :: 117 :: h₁ :: h₂ :: h₃ :: h₄ :: BACKSLASH :: 117 ::
            [l₁, l₂, l₃, l₄]) more' _ units'' hraw (List.cons_ne_nil _ _) hrest' hpaired
        · rw [Paired, if_neg hpair] at hpaired
          exact hsingle _ (fun _ _ ↦ rfl) hpaired.1 hpaired.2

/-! ### The literal -/

/-- The first pass goes to the quote where JSON ends the string. -/
private theorem scanEnd_of_scan {text raw rest : Bytes} (h : Json.scan text = some (raw, rest)) :
    ∃ skipped, scanEnd text = some (raw.length, skipped) := by
  fun_induction Json.scan text generalizing raw with
  | case1 => cases h
  | case2 more =>
    cases h
    refine ⟨0, ?_⟩
    rw [scanEnd.eq_def]
    exact if_pos rfl
  | case3 => cases h
  | case4 c more hquote ih =>
    obtain ⟨⟨raw', rest'⟩, hmore, heq⟩ := Option.map_eq_some_iff.mp h
    cases heq
    obtain ⟨skipped, hskipped⟩ := ih hmore
    refine ⟨skipped + 1, ?_⟩
    rw [scanEnd.eq_def]
    change (if _ then _ else if _ then (scanEnd more).map _ else _) = _
    rw [if_neg (by decide), if_pos rfl, hskipped]
    rfl
  | case5 b more hquote hescape ih =>
    obtain ⟨⟨raw', rest'⟩, hmore, heq⟩ := Option.map_eq_some_iff.mp h
    cases heq
    obtain ⟨skipped, hskipped⟩ := ih hmore
    refine ⟨skipped, ?_⟩
    rw [scanEnd.eq_def]
    change (if _ then _ else if _ then _ else _) = _
    rw [if_neg hquote, if_neg hescape, hskipped]
    rfl

/-- `parse_string` returns what a literal of JSON stands for, when this is UTF-8. -/
theorem parseString_eq {buffer : ParseBuffer} {raw s rest : Bytes}
    (h : buffer.content.drop buffer.offset = QUOTE :: (raw ++ QUOTE :: rest))
    (hs : decodeChars raw = some s) (hutf8 : isUtf8 s = true) :
    parseString buffer = .ok (s, { buffer with offset := buffer.offset + raw.length + 2 }) := by
  obtain ⟨units, hunits, rfl⟩ := Option.map_eq_some_iff.mp hs
  have hraw := drop_succ_of_drop h
  obtain ⟨skipped, hscan⟩ := scanEnd_of_scan (Json.scan_append hunits rest)
  have hlt : buffer.offset < buffer.content.length := by
    by_contra hge
    rw [List.drop_eq_nil_of_le (Nat.not_lt.mp hge)] at h
    cases h
  have hreturns := returns_parseString hlt
  have hyields := @yields_copyLiteral buffer.content rest _
    (buffer.offset + 1 + raw.length - buffer.offset - skipped + 1) _ _ [] raw units hraw rfl hunits
    (paired_of_isUtf8 hutf8) (Nat.lt_succ_self _)
  have hparse : parseString buffer =
      (copyLiteral buffer.content (buffer.offset + 1 + raw.length)
        (buffer.offset + 1 + raw.length - buffer.offset - skipped + 1) (raw.length + 1)
        (buffer.offset + 1) []).bind fun output ↦
          .ok (output, { buffer with offset := buffer.offset + 1 + raw.length + 1 }) := by
    unfold parseString
    rw [byteAt_of_drop h, ok_bind, if_neg (fun hne ↦ hne rfl), hraw, hscan]
    rfl
  rw [hparse] at hreturns ⊢
  rcases hyields with heq | heq
  · rw [heq, Nat.add_right_comm buffer.offset 1, Nat.add_assoc _ 1 1]
    rfl
  · rw [heq] at hreturns
    exact hreturns.elim

end Kitty.CJson
