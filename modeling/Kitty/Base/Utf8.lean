import Kitty.Base.Bytes

/-!
# UTF-8

A text is well formed when every byte that begins a character is followed by the continuation bytes
that its character has, and by no others. A byte below 128 is a character of its own, so a text is
well formed when the texts around such a byte are.
-/

namespace Kitty.Base

/-- The bytes that begin a character, and for each range of them those of the bytes that follow. -/
def utf8Table : List ((UInt8 × UInt8) × List (UInt8 × UInt8)) :=
  [((0x00, 0x7F), []),
    ((0xC2, 0xDF), [(0x80, 0xBF)]),
    ((0xE0, 0xE0), [(0xA0, 0xBF), (0x80, 0xBF)]),
    ((0xE1, 0xEC), [(0x80, 0xBF), (0x80, 0xBF)]),
    ((0xED, 0xED), [(0x80, 0x9F), (0x80, 0xBF)]),
    ((0xEE, 0xEF), [(0x80, 0xBF), (0x80, 0xBF)]),
    ((0xF0, 0xF0), [(0x90, 0xBF), (0x80, 0xBF), (0x80, 0xBF)]),
    ((0xF1, 0xF3), [(0x80, 0xBF), (0x80, 0xBF), (0x80, 0xBF)]),
    ((0xF4, 0xF4), [(0x80, 0x8F), (0x80, 0xBF), (0x80, 0xBF)])]

/-- The ranges of the bytes that follow the first byte of a character. -/
def continuations (b : UInt8) : Option (List (UInt8 × UInt8)) :=
  (utf8Table.find? fun e ↦ e.1.1 ≤ b && b ≤ e.1.2).map (·.2)

/-- The text goes on with bytes in these ranges and is well formed after them. -/
def utf8After : List (UInt8 × UInt8) → Bytes → Bool
  | [], [] => true
  | [], b :: rest =>
    match continuations b with
    | none => false
    | some ranges => utf8After ranges rest
  | _ :: _, [] => false
  | range :: ranges, b :: rest => range.1 ≤ b && b ≤ range.2 && utf8After ranges rest

/-- The text is well formed. -/
def isUtf8 (text : Bytes) : Bool := utf8After [] text

/-- The UTF-8 of a code point; a surrogate, which is none, has three bytes as well. -/
def utf8Encode (n : Nat) : Bytes :=
  if n < 0x80 then [UInt8.ofNat n]
  else if n < 0x800 then [UInt8.ofNat (0xC0 + n / 0x40), UInt8.ofNat (0x80 + n % 0x40)]
  else if n < 0x10000 then
    [UInt8.ofNat (0xE0 + n / 0x1000), UInt8.ofNat (0x80 + n / 0x40 % 0x40),
      UInt8.ofNat (0x80 + n % 0x40)]
  else
    [UInt8.ofNat (0xF0 + n / 0x40000), UInt8.ofNat (0x80 + n / 0x1000 % 0x40),
      UInt8.ofNat (0x80 + n / 0x40 % 0x40), UInt8.ofNat (0x80 + n % 0x40)]

example : isUtf8 (utf8Encode 0x20AC) = true ∧ isUtf8 [0xC3] = false := by decide

theorem length_utf8Encode_le (n : Nat) : (utf8Encode n).length ≤ 4 := by
  unfold utf8Encode
  split
  · simp
  · split
    · simp
    · split <;> simp

/-- A continuation byte is not below 128. -/
theorem le_of_continuations {b : UInt8} {ranges : List (UInt8 × UInt8)}
    (h : continuations b = some ranges) : ∀ range ∈ ranges, 0x80 ≤ range.1 := by
  obtain ⟨e, he, rfl⟩ := Option.map_eq_some_iff.mp h
  have htable : (utf8Table.all fun e ↦ e.2.all fun range ↦ decide (0x80 ≤ range.1)) = true := by
    decide
  intro range hrange
  have hranges := List.all_eq_true.mp htable e (List.mem_of_find?_eq_some he)
  exact of_decide_eq_true (List.all_eq_true.mp hranges range hrange)

theorem continuations_of_le {b : UInt8} (h : b ≤ 0x7F) : continuations b = some [] := by
  have hfirst : (decide (0x00 ≤ b) && decide (b ≤ 0x7F)) = true := by
    rw [decide_eq_true h, decide_eq_true (UInt8.zero_le)]
    rfl
  rw [continuations, utf8Table, List.find?_cons, hfirst]
  rfl

/-- A byte below 128 is a character of its own. -/
theorem isUtf8_cons_of_le {b : UInt8} (h : b ≤ 0x7F) (rest : Bytes) :
    isUtf8 (b :: rest) = isUtf8 rest := by
  change (match continuations b with
    | none => false
    | some ranges => utf8After ranges rest) = _
  rw [continuations_of_le h]
  rfl

/-- A byte below 128 ends the characters before it and is one itself. -/
theorem utf8After_append_cons {ranges : List (UInt8 × UInt8)}
    (hr : ∀ range ∈ ranges, 0x80 ≤ range.1)
    (text : Bytes) {b : UInt8} (hb : b ≤ 0x7F) (rest : Bytes) :
    utf8After ranges (text ++ b :: rest) = (utf8After ranges text && isUtf8 rest) := by
  induction text generalizing ranges with
  | nil =>
    cases ranges with
    | nil =>
      rw [List.nil_append, utf8After, Bool.true_and]
      exact isUtf8_cons_of_le hb rest
    | cons range ranges =>
      have hlow : ¬ range.1 ≤ b := by
        have hrange := hr range List.mem_cons_self
        rw [UInt8.le_iff_toNat_le] at hrange hb ⊢
        change 128 ≤ _ at hrange
        change _ ≤ 127 at hb
        omega
      change (decide (range.1 ≤ b) && _ && _) = false
      rw [decide_eq_false hlow]
      rfl
  | cons c text ih =>
    cases ranges with
    | nil =>
      change (match continuations c with
        | none => false
        | some ranges => utf8After ranges (text ++ b :: rest)) =
          ((match continuations c with
            | none => false
            | some ranges => utf8After ranges text) && isUtf8 rest)
      cases hc : continuations c with
      | none => rfl
      | some ranges => exact ih (le_of_continuations hc)
    | cons range ranges =>
      have htail := ih fun r h ↦ hr r (List.mem_cons_of_mem range h)
      change (_ && utf8After ranges (text ++ b :: rest)) = ((_ && utf8After ranges text) && _)
      simp only [htail, Bool.and_assoc]

/-- So a text is well formed when what stands around the byte is. -/
theorem isUtf8_append_cons (text : Bytes) {b : UInt8} (hb : b ≤ 0x7F) (rest : Bytes) :
    isUtf8 (text ++ b :: rest) = (isUtf8 text && isUtf8 rest) :=
  utf8After_append_cons (by simp) text hb rest

/-- Text of bytes below 128 changes nothing before other text. -/
theorem isUtf8_append_of_ascii {text : Bytes} (h : ∀ b ∈ text, b ≤ 0x7F) (rest : Bytes) :
    isUtf8 (text ++ rest) = isUtf8 rest := by
  induction text with
  | nil => rfl
  | cons b text ih =>
    rw [List.cons_append, isUtf8_cons_of_le (h b List.mem_cons_self),
      ih fun c hc ↦ h c (List.mem_cons_of_mem _ hc)]

theorem utf8After_append {ranges : List (UInt8 × UInt8)} {text : Bytes}
    (h : utf8After ranges text = true) (rest : Bytes) :
    utf8After ranges (text ++ rest) = isUtf8 rest := by
  induction text generalizing ranges with
  | nil =>
    cases ranges with
    | nil => rfl
    | cons range ranges => cases h
  | cons b text ih =>
    cases ranges with
    | nil =>
      rw [List.cons_append, utf8After]
      rw [utf8After] at h
      split at h
      · cases h
      · exact ih h
    | cons range ranges =>
      rw [utf8After, Bool.and_eq_true] at h
      rw [List.cons_append, utf8After, h.1, Bool.true_and]
      exact ih h.2

/-- Well-formed texts are well formed one behind the other. -/
theorem isUtf8_append {a b : Bytes} (ha : isUtf8 a = true) (hb : isUtf8 b = true) :
    isUtf8 (a ++ b) = true := (utf8After_append ha b).trans hb

theorem isUtf8_ascii {text : Bytes} (h : (text.all fun b ↦ decide (b ≤ 0x7F)) = true) :
    isUtf8 text = true := by
  have happend := isUtf8_append_of_ascii
    (fun b hb ↦ of_decide_eq_true (List.all_eq_true.mp h b hb)) []
  rwa [List.append_nil] at happend

end Kitty.Base
