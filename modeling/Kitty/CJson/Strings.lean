import Kitty.Base.Json

/-!
# String literals of cJSON

`parse_hex4`, `utf16_literal_to_utf8` and `parse_string` of `src/ap2p/cJSON.c:533–776`. The end of a
literal is found in a first pass, which sizes the output as the length of the literal less the
backslashes that begin an escape. A second pass copies. The two can disagree about where an escape
begins, as an escape `\u` takes the next four bytes whatever they are; the output fits in any case.
-/

namespace Kitty.CJson

open Kitty.Base
open Kitty.Base.Json (QUOTE BACKSLASH)

/-! ### Memory -/

/-- Why a function does not return true. -/
inductive Stop where
  /-- It reads or writes outside of a block of memory. -/
  | outside
  /-- It has not returned in the steps that it was given. -/
  | unfinished
  /-- It returns false, with this offset in the buffer. -/
  | fails (offset : Nat)
  deriving DecidableEq, Repr

/-- `parse_buffer`; `content` has `length` bytes. The hooks are those of the C library, whose
`malloc` succeeds. -/
structure ParseBuffer where
  content : Bytes
  offset : Nat
  depth : Nat
  deriving DecidableEq, Repr

/-- The byte at a place of the content. -/
def byteAt (content : Bytes) (i : Nat) : Except Stop UInt8 :=
  match content[i]? with
  | some b => .ok b
  | none => .error .outside

/-- A store of so many bytes behind those that are in a block. -/
def storeAt (size used count : Nat) : Except Stop Unit :=
  if used + count ≤ size then .ok () else .error .outside

/-- The function returns, and when it returns true the result is such a one. -/
def Returns {α : Type} (P : α → Prop) : Except Stop α → Prop
  | .ok a => P a
  | .error (.fails _) => True
  | .error _ => False

section Returns

variable {α β : Type} {P : α → Prop} {Q : β → Prop} {x : Except Stop α} {f : α → Except Stop β}

theorem Returns.bind (hx : Returns P x) (hf : ∀ a, P a → Returns Q (f a)) :
    Returns Q (x >>= f) := by
  cases x with
  | ok a => exact hf a hx
  | error stop =>
    cases stop with
    | fails offset => trivial
    | outside => exact hx
    | unfinished => exact hx

theorem Returns.mono {P' : α → Prop} (hx : Returns P x) (h : ∀ a, P a → P' a) : Returns P' x := by
  cases x with
  | ok a => exact h a hx
  | error stop =>
    cases stop with
    | fails offset => trivial
    | outside => exact hx
    | unfinished => exact hx

theorem Returns.map {g : α → β} (hx : Returns P x) (h : ∀ a, P a → Q (g a)) :
    Returns Q (x.map g) := by
  cases x with
  | ok a => exact h a hx
  | error stop =>
    cases stop with
    | fails offset => trivial
    | outside => exact hx
    | unfinished => exact hx

theorem returns_byteAt {content : Bytes} {i : Nat} (h : i < content.length) :
    Returns (fun b ↦ content[i]? = some b) (byteAt content i) := by
  rw [byteAt, List.getElem?_eq_getElem h]
  rfl

theorem returns_storeAt {size used count : Nat} (h : used + count ≤ size) :
    Returns (fun _ ↦ True) (storeAt size used count) := by
  rw [storeAt, if_pos h]
  trivial

end Returns

/-! ### Escapes -/

/-- The value of a digit of `parse_hex4`. -/
def hexDigitOf (b : UInt8) : Option Nat :=
  if 48 ≤ b ∧ b ≤ 57 then some (b.toNat - 48)
  else if 65 ≤ b ∧ b ≤ 70 then some (10 + b.toNat - 65)
  else if 97 ≤ b ∧ b ≤ 102 then some (10 + b.toNat - 97)
  else none

/-- The digits that are left of `parse_hex4`, the first of them at `input`. -/
def parseHex4Loop (content : Bytes) : Nat → Nat → Nat → Except Stop Nat
  | 0, _, h => .ok h
  | left + 1, input, h => do
    let b ← byteAt content input
    match hexDigitOf b with
    | none => .ok 0
    | some v => parseHex4Loop content left (input + 1) (if left = 0 then h + v else (h + v) <<< 4)

/-- `parse_hex4`: 0 when one of the four bytes is no digit. -/
def parseHex4 (content : Bytes) (input : Nat) : Except Stop Nat := parseHex4Loop content 4 input 0

/-- The continuation bytes of a code point, and what is left of it for the first byte. -/
def utf8Tail : Nat → Nat → Bytes × Nat
  | 0, codepoint => ([], codepoint)
  | count + 1, codepoint =>
    let (front, rest) := utf8Tail count (codepoint >>> 6)
    (front ++ [UInt8.ofNat ((codepoint ||| 0x80) &&& 0xBF)], rest)

/-- The bytes that `utf16_literal_to_utf8` stores for a code point. -/
def utf8Bytes (codepoint : Nat) : Option Bytes :=
  let several (count mark : Nat) : Bytes :=
    let (tail, rest) := utf8Tail count codepoint
    UInt8.ofNat ((rest ||| mark) &&& 0xFF) :: tail
  if codepoint < 0x80 then some [UInt8.ofNat (codepoint &&& 0x7F)]
  else if codepoint < 0x800 then some (several 1 0xC0)
  else if codepoint < 0x10000 then some (several 2 0xE0)
  else if codepoint ≤ 0x10FFFF then some (several 3 0xF0)
  else none

/-- `utf16_literal_to_utf8`: the length of the sequence and the bytes for it, or `none` when it
returns 0. -/
def utf16LiteralToUtf8 (content : Bytes) (input inputEnd : Nat) :
    Except Stop (Option (Nat × Bytes)) := do
  if inputEnd < input + 6 then return none
  let first ← parseHex4 content (input + 2)
  if 0xDC00 ≤ first ∧ first ≤ 0xDFFF then return none
  if 0xD800 ≤ first ∧ first ≤ 0xDBFF then
    if inputEnd < input + 12 then return none
    if (← byteAt content (input + 6)) ≠ BACKSLASH then return none
    if (← byteAt content (input + 7)) ≠ 117 then return none
    let second ← parseHex4 content (input + 8)
    if second < 0xDC00 ∨ 0xDFFF < second then return none
    let codepoint := 0x10000 + (((first &&& 0x3FF) <<< 10) ||| (second &&& 0x3FF))
    return (utf8Bytes codepoint).map fun bytes ↦ (12, bytes)
  return (utf8Bytes first).map fun bytes ↦ (6, bytes)

/-- The byte for a letter behind a backslash. -/
def escapeOf (c : UInt8) : Option UInt8 :=
  if c = 98 then some 8
  else if c = 102 then some 12
  else if c = 110 then some 10
  else if c = 114 then some 13
  else if c = 116 then some 9
  else if c = QUOTE ∨ c = BACKSLASH ∨ c = 47 then some c
  else none

/-! ### Literals -/

/-- The first pass: how far it is from here to the quote at the end, and how many backslashes it
skips. -/
def scanEnd : Bytes → Option (Nat × Nat)
  | [] => none
  | b :: rest =>
    if b = QUOTE then some (0, 0)
    else if b = BACKSLASH then
      match rest with
      | [] => none
      | _ :: rest => (scanEnd rest).map fun (n, skipped) ↦ (n + 2, skipped + 1)
    else (scanEnd rest).map fun (n, skipped) ↦ (n + 1, skipped)

/-- The second pass, from `input` on, with a block of `size` bytes in which there is `output`. -/
def copyLiteral (content : Bytes) (inputEnd size : Nat) : Nat → Nat → Bytes → Except Stop Bytes
  | 0, _, _ => .error .unfinished
  | fuel + 1, input, output =>
    if input < inputEnd then do
      let b ← byteAt content input
      if b ≠ BACKSLASH then
        storeAt size output.length 1
        copyLiteral content inputEnd size fuel (input + 1) (output ++ [b])
      else
        let c ← byteAt content (input + 1)
        if c = 117 then
          match ← utf16LiteralToUtf8 content input inputEnd with
          | none => .error (.fails input)
          | some (sequenceLength, bytes) =>
            storeAt size output.length bytes.length
            copyLiteral content inputEnd size fuel (input + sequenceLength) (output ++ bytes)
        else
          match escapeOf c with
          | none => .error (.fails input)
          | some e =>
            storeAt size output.length 1
            copyLiteral content inputEnd size fuel (input + 2) (output ++ [e])
    else do
      storeAt size output.length 1
      .ok output

/-- `parse_string`: the text in front of the zero byte that it stores last. -/
def parseString (buffer : ParseBuffer) : Except Stop (Bytes × ParseBuffer) := do
  let input := buffer.offset + 1
  let b ← byteAt buffer.content buffer.offset
  if b ≠ QUOTE then .error (.fails input)
  else
    match scanEnd (buffer.content.drop input) with
    | none => .error (.fails input)
    | some (n, skipped) =>
      let inputEnd := input + n
      let allocationLength := inputEnd - buffer.offset - skipped
      let output ← copyLiteral buffer.content inputEnd (allocationLength + 1) (n + 1) input []
      .ok (output, { buffer with offset := inputEnd + 1 })

/-! ### Reading digits -/

private theorem hexDigitOf_lt {b : UInt8} {v : Nat} (h : hexDigitOf b = some v) : v < 16 := by
  simp only [hexDigitOf, UInt8.le_iff_toNat_le] at h
  change (if 48 ≤ b.toNat ∧ b.toNat ≤ 57 then _ else if 65 ≤ b.toNat ∧ b.toNat ≤ 70 then _
    else if 97 ≤ b.toNat ∧ b.toNat ≤ 102 then _ else none) = some v at h
  split at h
  · cases h
    omega
  split at h
  · cases h
    omega
  split at h
  · cases h
    omega
  · cases h

private theorem returns_parseHex4Loop {content : Bytes} {left input : Nat} (h : Nat)
    (hin : input + left + 1 ≤ content.length) :
    Returns (· < (h + 16) * 16 ^ left) (parseHex4Loop content (left + 1) input h) := by
  induction left generalizing input h with
  | zero =>
    refine (returns_byteAt (by omega)).bind fun b _ ↦ ?_
    cases hdigit : hexDigitOf b with
    | none => exact Nat.mul_pos (by omega) (by decide)
    | some v =>
      have hv := hexDigitOf_lt hdigit
      change h + v < (h + 16) * 1
      omega
  | succ left ih =>
    have hpow : 0 < 16 ^ left := Nat.pow_pos (by decide)
    refine (returns_byteAt (by omega)).bind fun b _ ↦ ?_
    cases hdigit : hexDigitOf b with
    | none => exact Nat.mul_pos (by omega) (Nat.pow_pos (by decide))
    | some v =>
      have hv := hexDigitOf_lt hdigit
      refine (ih ((h + v) <<< 4) (by omega)).mono fun n hn ↦ ?_
      calc n < ((h + v) <<< 4 + 16) * 16 ^ left := hn
        _ = (h + v + 1) * 16 * 16 ^ left := by rw [Nat.shiftLeft_eq, Nat.add_mul (h + v) 1]
        _ ≤ (h + 16) * 16 * 16 ^ left :=
          Nat.mul_le_mul_right _ (Nat.mul_le_mul_right _ (by omega))
        _ = (h + 16) * 16 ^ (left + 1) := by rw [Nat.pow_succ', Nat.mul_assoc]

theorem returns_parseHex4 {content : Bytes} {input : Nat} (h : input + 4 ≤ content.length) :
    Returns (· < 0x10000) (parseHex4 content input) :=
  (returns_parseHex4Loop 0 h).mono fun _ hn ↦ hn

/-! ### Storing a character -/

private theorem length_utf8Tail (count codepoint : Nat) :
    (utf8Tail count codepoint).1.length = count := by
  induction count generalizing codepoint with
  | zero => rfl
  | succ count ih =>
    rw [utf8Tail, List.length_append, ih]
    rfl

/-- A code point has four bytes at most, and three when it is one code unit. -/
theorem length_utf8Bytes_le {codepoint : Nat} {bytes : Bytes}
    (h : utf8Bytes codepoint = some bytes) :
    bytes.length ≤ 4 ∧ (codepoint < 0x10000 → bytes.length ≤ 3) := by
  unfold utf8Bytes at h
  split at h
  · cases h
    simp
  split at h
  · cases h
    simp [length_utf8Tail]
  split at h
  · cases h
    simp [length_utf8Tail]
  split at h
  · cases h
    refine ⟨by simp [length_utf8Tail], fun _ ↦ by omega⟩
  · cases h

/-- A sequence is six or twelve bytes of the literal, and its character is at most half as long. -/
theorem returns_utf16LiteralToUtf8 {content : Bytes} {input inputEnd : Nat}
    (hend : inputEnd ≤ content.length) :
    Returns (fun r ↦ ∀ n bytes, r = some (n, bytes) →
      input + n ≤ inputEnd ∧ ∃ m, n = 2 * m ∧ 0 < m ∧ bytes.length ≤ m)
      (utf16LiteralToUtf8 content input inputEnd) := by
  unfold utf16LiteralToUtf8
  split
  · intro n bytes h
    cases h
  next hsix =>
  refine (returns_parseHex4 (by omega)).bind fun first hfirst ↦ ?_
  split
  · intro n bytes h
    cases h
  split
  · split
    · intro n bytes h
      cases h
    next htwelve =>
    refine (returns_byteAt (by omega)).bind fun b _ ↦ ?_
    split
    · intro n bytes h
      cases h
    refine (returns_byteAt (by omega)).bind fun c _ ↦ ?_
    split
    · intro n bytes h
      cases h
    refine (returns_parseHex4 (by omega)).bind fun second _ ↦ ?_
    split
    · intro n bytes h
      cases h
    · intro n bytes h
      obtain ⟨bytes', hbytes, heq⟩ := Option.map_eq_some_iff.mp h
      cases heq
      have hle := (length_utf8Bytes_le hbytes).1
      exact ⟨by omega, 6, rfl, by decide, by omega⟩
  · intro n bytes h
    obtain ⟨bytes', hbytes, heq⟩ := Option.map_eq_some_iff.mp h
    cases heq
    have hle := (length_utf8Bytes_le hbytes).2 hfirst
    exact ⟨by omega, 3, rfl, by decide, by omega⟩

/-! ### The size of the output -/

/-- The backslashes that the first pass skips, from a byte on that a backslash stands in front of,
or not. -/
def skips : Bool → Bytes → Nat
  | _, [] => 0
  | true, _ :: rest => skips false rest
  | false, b :: rest => if b = BACKSLASH then 1 + skips true rest else skips false rest

theorem skips_le_length (escaped : Bool) (text : Bytes) : skips escaped text ≤ text.length := by
  induction text generalizing escaped with
  | nil => exact Nat.le_refl 0
  | cons b rest ih =>
    have hfalse := ih false
    have htrue := ih true
    rw [List.length_cons]
    cases escaped with
    | true =>
      rw [skips]
      omega
    | false =>
      rw [skips]
      split <;> omega

/-- Of two bytes in a row, the first pass skips one at most. -/
theorem skips_le_two (escaped : Bool) (text : Bytes) :
    ∃ escaped', skips escaped text ≤ 1 + skips escaped' (text.drop 2) := by
  match text with
  | [] => exact ⟨false, by simp [skips]⟩
  | [b] =>
    refine ⟨false, ?_⟩
    have hle := skips_le_length escaped [b]
    rw [List.length_singleton] at hle
    omega
  | b :: c :: rest =>
    cases escaped with
    | true =>
      by_cases hc : c = BACKSLASH
      · exact ⟨true, by simp [skips, hc]⟩
      · exact ⟨false, by simp [skips, hc]⟩
    | false =>
      by_cases hb : b = BACKSLASH
      · exact ⟨false, by simp [skips, hb]⟩
      · by_cases hc : c = BACKSLASH
        · exact ⟨true, by simp [skips, hb, hc]⟩
        · exact ⟨false, by simp [skips, hb, hc]⟩

theorem skips_le_even (m : Nat) (escaped : Bool) (text : Bytes) :
    ∃ escaped', skips escaped text ≤ m + skips escaped' (text.drop (2 * m)) := by
  induction m generalizing escaped text with
  | zero => exact ⟨escaped, by simp⟩
  | succ m ih =>
    obtain ⟨escaped₁, h₁⟩ := skips_le_two escaped text
    obtain ⟨escaped₂, h₂⟩ := ih escaped₁ (text.drop 2)
    rw [List.drop_drop, show 2 + 2 * m = 2 * (m + 1) by omega] at h₂
    exact ⟨escaped₂, by omega⟩

/-- The first pass finds a quote, and counts the backslashes that it skips in front of it. -/
theorem scanEnd_eq_some {text : Bytes} {n skipped : Nat} (h : scanEnd text = some (n, skipped)) :
    text[n]? = some QUOTE ∧ skipped = skips false (text.take n) := by
  fun_induction scanEnd text generalizing n skipped with
  | case1 => cases h
  | case2 rest =>
    cases h
    exact ⟨rfl, rfl⟩
  | case3 => cases h
  | case4 c rest _ ih =>
    obtain ⟨⟨n', skipped'⟩, hrest, heq⟩ := Option.map_eq_some_iff.mp h
    cases heq
    obtain ⟨hquote, hskipped⟩ := ih hrest
    refine ⟨hquote, ?_⟩
    rw [List.take_succ_cons, List.take_succ_cons, skips, if_pos rfl, skips, ← hskipped]
    omega
  | case5 b rest hb hescape ih =>
    obtain ⟨⟨n', skipped'⟩, hrest, heq⟩ := Option.map_eq_some_iff.mp h
    cases heq
    obtain ⟨hquote, hskipped⟩ := ih hrest
    refine ⟨hquote, ?_⟩
    rw [List.take_succ_cons, skips, if_neg hescape, ← hskipped]

/-! ### The second pass -/

/-- The bytes of the literal from a place on. -/
def inside (content : Bytes) (inputEnd input : Nat) : Bytes :=
  (content.drop input).take (inputEnd - input)

theorem length_inside {content : Bytes} {inputEnd : Nat} (h : inputEnd ≤ content.length)
    (input : Nat) :
    (inside content inputEnd input).length = inputEnd - input := by
  rw [inside, List.length_take, List.length_drop]
  omega

theorem drop_inside (content : Bytes) (inputEnd input n : Nat) :
    (inside content inputEnd input).drop n = inside content inputEnd (input + n) := by
  rw [inside, inside, List.drop_take, List.drop_drop, Nat.sub_sub]

private theorem skips_inside_cons {content : Bytes} {inputEnd input : Nat} {b : UInt8}
    (hin : input < inputEnd) (hb : content[input]? = some b) (hescape : b ≠ BACKSLASH)
    (escaped : Bool) :
    skips escaped (inside content inputEnd input) =
      skips false (inside content inputEnd (input + 1)) := by
  obtain ⟨hlt, rfl⟩ := List.getElem?_eq_some_iff.mp hb
  have hcons : inside content inputEnd input =
      content[input] :: inside content inputEnd (input + 1) := by
    rw [inside, List.drop_eq_getElem_cons hlt, show inputEnd - input = inputEnd - (input + 1) + 1 by
      omega, List.take_succ_cons]
    rfl
  rw [hcons]
  cases escaped with
  | true => rfl
  | false => rw [skips, if_neg hescape]

/-- The second pass stays in the output: of the bytes that it has still to read, at least those that
the first pass skips are not stored. -/
theorem returns_copyLiteral {content : Bytes} {inputEnd size fuel input : Nat} {output : Bytes}
    (escaped : Bool) (hend : inputEnd < content.length) (hfuel : inputEnd - input < fuel)
    (hinput : input ≤ inputEnd + 1)
    (hsize : output.length + (inputEnd + 1 - input) + 1 ≤
      size + skips escaped (inside content inputEnd input)) :
    Returns (fun _ ↦ True) (copyLiteral content inputEnd size fuel input output) := by
  induction fuel generalizing input output escaped with
  | zero => exact absurd hfuel (Nat.not_lt_zero _)
  | succ fuel ih =>
    have hlen := length_inside hend.le input
    -- A character of half the length of its escape goes on with the same room.
    have hstep : ∀ m (bytes : Bytes), input + 2 * m ≤ inputEnd + 1 → 0 < m → bytes.length ≤ m →
        Returns (fun _ ↦ True) (storeAt size output.length bytes.length >>= fun _ ↦
          copyLiteral content inputEnd size fuel (input + 2 * m) (output ++ bytes)) := by
      intro m bytes hm hpos hbytes
      obtain ⟨escaped', hskips⟩ := skips_le_even m escaped (inside content inputEnd input)
      rw [drop_inside] at hskips
      have hle := skips_le_length escaped' (inside content inputEnd (input + 2 * m))
      rw [length_inside hend.le] at hle
      refine (returns_storeAt (by omega)).bind fun _ _ ↦ ih escaped' (by omega) hm ?_
      rw [List.length_append]
      omega
    rw [copyLiteral]
    split
    · next hlt =>
      refine (returns_byteAt (by omega)).bind fun b hb ↦ ?_
      split
      · next hescape =>
        have hskips := skips_inside_cons hlt hb hescape escaped
        have hle := skips_le_length false (inside content inputEnd (input + 1))
        rw [length_inside hend.le] at hle
        refine (returns_storeAt (by omega)).bind fun _ _ ↦
          ih false (by omega) (by omega) ?_
        rw [List.length_append, List.length_singleton]
        omega
      · refine (returns_byteAt (by omega)).bind fun c _ ↦ ?_
        split
        · refine (returns_utf16LiteralToUtf8 hend.le).bind fun r hr ↦ ?_
          split
          · trivial
          · next n bytes =>
            obtain ⟨hn, m, rfl, hpos, hbytes⟩ := hr n bytes rfl
            exact hstep m bytes (by omega) hpos hbytes
        · split
          · trivial
          · next e _ => exact hstep 1 [e] (by omega) (by decide) (by simp)
    · next hge =>
      rw [inside, Nat.sub_eq_zero_of_le (Nat.not_lt.mp hge), List.take_zero, skips] at hsize
      refine (returns_storeAt (by omega)).bind fun _ _ ↦ trivial

/-- `parse_string` goes behind the quote at the end of the literal. -/
theorem returns_parseString {buffer : ParseBuffer} (h : buffer.offset < buffer.content.length) :
    Returns (fun p ↦ ∃ quote, p.2 = { buffer with offset := quote + 1 } ∧ buffer.offset < quote ∧
      buffer.content[quote]? = some QUOTE) (parseString buffer) := by
  unfold parseString
  refine (returns_byteAt h).bind fun b _ ↦ ?_
  split
  · trivial
  split
  · trivial
  next n skipped hscan =>
  obtain ⟨hquote, hskipped⟩ := scanEnd_eq_some hscan
  rw [List.getElem?_drop] at hquote
  have hend := (List.getElem?_eq_some_iff.mp hquote).1
  have hinside : inside buffer.content (buffer.offset + 1 + n) (buffer.offset + 1) =
      (buffer.content.drop (buffer.offset + 1)).take n := by
    rw [inside, Nat.add_sub_cancel_left]
  refine (returns_copyLiteral false hend (by omega) (by omega) ?_).bind
    fun output _ ↦ ⟨buffer.offset + 1 + n, rfl, by omega, hquote⟩
  rw [hinside, ← hskipped, List.length_nil]
  omega

end Kitty.CJson
