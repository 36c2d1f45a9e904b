import Kitty.Base.Bytes

/-!
# Form-urlencoded text

The encoding of the values of an HTML form: a blank is a plus sign, and a byte that is neither a
letter, a digit nor one of `*-._` is a percent sign and two hexadecimal digits. The decoder leaves
a percent sign alone that no two digits follow.
-/

namespace Kitty.Base

/-- The byte that starts an escape. -/
def PERCENT : UInt8 := 37

/-- The byte that stands for a blank. -/
def PLUS : UInt8 := 43

/-- A hexadecimal digit, in either case. -/
def isXDigit (b : UInt8) : Bool :=
  (48 ≤ b && b ≤ 57) || (65 ≤ b && b ≤ 70) || (97 ≤ b && b ≤ 102)

/-- What a hexadecimal digit stands for. -/
def hexValue (b : UInt8) : Nat :=
  if b ≤ 57 then b.toNat - 48 else if b ≤ 70 then b.toNat - 55 else b.toNat - 87

/-- The digit of a number below 16, in upper case. -/
def hexDigit (n : Nat) : UInt8 := UInt8.ofNat (if n < 10 then 48 + n else 55 + n)

/-- The form-urlencoded decoder. -/
def formDecode : Bytes → Bytes
  | [] => []
  | b :: rest =>
    if b = PERCENT then
      match rest with
      | high :: low :: more =>
        if isXDigit high && isXDigit low then
          UInt8.ofNat (16 * hexValue high + hexValue low) :: formDecode more
        else b :: formDecode (high :: low :: more)
      | rest => b :: formDecode rest
    else if b = PLUS then 32 :: formDecode rest
    else b :: formDecode rest

/-- A byte that stands for itself. -/
def isFormByte (b : UInt8) : Bool :=
  (48 ≤ b && b ≤ 57) || (65 ≤ b && b ≤ 90) || (97 ≤ b && b ≤ 122) || (lit "*-._").contains b

/-- The encoding of one byte. -/
def formEncodeByte (b : UInt8) : Bytes :=
  if isFormByte b then [b]
  else if b = 32 then [PLUS]
  else [PERCENT, hexDigit (b.toNat / 16), hexDigit (b.toNat % 16)]

/-- The form-urlencoded encoder. -/
def formEncode (text : Bytes) : Bytes := text.flatMap formEncodeByte

/-! ### Hexadecimal digits -/

/-- The bytes of the digits. -/
theorem isXDigit_iff {b : UInt8} : isXDigit b = true ↔
    48 ≤ b.toNat ∧ b.toNat ≤ 57 ∨ 65 ≤ b.toNat ∧ b.toNat ≤ 70 ∨ 97 ≤ b.toNat ∧ b.toNat ≤ 102 := by
  simp only [isXDigit, Bool.or_eq_true, Bool.and_eq_true, decide_eq_true_eq,
    UInt8.le_iff_toNat_le, or_assoc]
  rfl

theorem hexValue_lt {b : UInt8} (h : isXDigit b = true) : hexValue b < 16 := by
  have hb := isXDigit_iff.mp h
  simp only [hexValue, UInt8.le_iff_toNat_le]
  change (if b.toNat ≤ 57 then _ else if b.toNat ≤ 70 then _ else _) < 16
  split
  · omega
  · split <;> omega

private theorem hexDigit_all : ∀ n ∈ List.range 16,
    isXDigit (hexDigit n) = true ∧ hexValue (hexDigit n) = n := by decide

theorem isXDigit_hexDigit {n : Nat} (h : n < 16) : isXDigit (hexDigit n) = true :=
  (hexDigit_all n (List.mem_range.mpr h)).1

theorem hexValue_hexDigit {n : Nat} (h : n < 16) : hexValue (hexDigit n) = n :=
  (hexDigit_all n (List.mem_range.mpr h)).2

/-- No digit starts an escape. -/
theorem ne_percent_of_isXDigit {b : UInt8} (h : isXDigit b = true) : b ≠ PERCENT := by
  rintro rfl
  cases h

/-! ### Decoding -/

@[simp] theorem formDecode_nil : formDecode [] = [] := rfl

/-- Two digits behind a percent sign are a byte. -/
theorem formDecode_escape {high low : UInt8} (hhigh : isXDigit high = true)
    (hlow : isXDigit low = true) (rest : Bytes) :
    formDecode (PERCENT :: high :: low :: rest) =
      UInt8.ofNat (16 * hexValue high + hexValue low) :: formDecode rest := by
  rw [formDecode, if_pos rfl, hhigh, hlow]
  rfl

@[simp] theorem formDecode_plus (rest : Bytes) :
    formDecode (PLUS :: rest) = 32 :: formDecode rest := by
  rw [formDecode.eq_def]
  rfl

/-- Any other byte stands for itself. -/
theorem formDecode_other {b : UInt8} (hpercent : b ≠ PERCENT) (hplus : b ≠ PLUS) (rest : Bytes) :
    formDecode (b :: rest) = b :: formDecode rest := by
  rw [formDecode.eq_def]
  dsimp only
  rw [if_neg hpercent, if_neg hplus]

/-! ### Decoding what was encoded -/

private theorem nibbles (b : UInt8) : b.toNat / 16 < 16 ∧ b.toNat % 16 < 16 ∧
    16 * (b.toNat / 16) + b.toNat % 16 = b.toNat := by
  have := b.toNat_lt
  omega

/-- The decoder takes an encoded byte off the front of the text. -/
theorem formDecode_formEncodeByte (b : UInt8) (rest : Bytes) :
    formDecode (formEncodeByte b ++ rest) = b :: formDecode rest := by
  obtain ⟨hhigh, hlow, hsum⟩ := nibbles b
  unfold formEncodeByte
  split
  · next hkeep =>
    apply formDecode_other
    · rintro rfl
      cases hkeep
    · rintro rfl
      cases hkeep
  · split
    · next hblank =>
      rw [hblank]
      exact formDecode_plus rest
    · rw [List.cons_append, List.cons_append, List.cons_append, List.nil_append,
        formDecode_escape (isXDigit_hexDigit hhigh) (isXDigit_hexDigit hlow),
        hexValue_hexDigit hhigh, hexValue_hexDigit hlow, hsum, UInt8.ofNat_toNat]

/-- What was encoded is decoded to what it was. -/
theorem formDecode_formEncode (text : Bytes) : formDecode (formEncode text) = text := by
  induction text with
  | nil => rfl
  | cons b text ih =>
    rw [formEncode, List.flatMap_cons, formDecode_formEncodeByte]
    exact congrArg _ ih

/-- In an encoded text two digits follow every percent sign. -/
theorem isXDigit_of_formEncode {text pre rest : Bytes} {high low : UInt8}
    (h : formEncode text = pre ++ PERCENT :: high :: low :: rest) :
    isXDigit high = true ∧ isXDigit low = true := by
  induction text generalizing pre with
  | nil => simp [formEncode] at h
  | cons b text ih =>
    have hcons : formEncode (b :: text) = formEncodeByte b ++ formEncode text := rfl
    obtain ⟨hhigh, hlow, -⟩ := nibbles b
    rw [hcons] at h
    -- A byte that is no percent sign is passed over.
    have hskip : ∀ {c : UInt8}, c ≠ PERCENT → ∀ {text' pre' : Bytes},
        c :: text' = pre' ++ PERCENT :: high :: low :: rest →
          ∃ pre'', text' = pre'' ++ PERCENT :: high :: low :: rest := by
      intro c hc text' pre' heq
      cases pre' with
      | nil => exact absurd (List.cons.inj heq).1 hc
      | cons d pre' => exact ⟨pre', (List.cons.inj heq).2⟩
    unfold formEncodeByte at h
    split at h
    · next hkeep =>
      have hb : b ≠ PERCENT := by
        rintro rfl
        cases hkeep
      obtain ⟨pre', h⟩ := hskip hb h
      exact ih h
    · split at h
      · obtain ⟨pre', h⟩ := hskip (by decide) h
        exact ih h
      · cases pre with
        | nil =>
          simp only [List.cons_append, List.nil_append, List.cons.injEq, true_and] at h
          rw [← h.1, ← h.2.1]
          exact ⟨isXDigit_hexDigit hhigh, isXDigit_hexDigit hlow⟩
        | cons c pre =>
          obtain ⟨pre', h⟩ := hskip (ne_percent_of_isXDigit (isXDigit_hexDigit hhigh))
            (List.cons.inj h).2
          obtain ⟨pre'', h⟩ := hskip (ne_percent_of_isXDigit (isXDigit_hexDigit hlow)) h
          exact ih h

end Kitty.Base
