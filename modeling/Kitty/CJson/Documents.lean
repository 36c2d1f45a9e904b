import Kitty.CJson.Integers
import Kitty.CJson.Literals
import Kitty.CJson.Parser

/-!
# JSON documents in cJSON

A document of JSON is parsed as the item that its value stands for. cJSON differs from the grammar
in what it has no item for: text that is not UTF-8 and a number with more than 63 bytes. Nor does it
parse what is nested beyond the limit.
-/

namespace Kitty.CJson

open Kitty.Base
open Kitty.Base.Json (QUOTE BACKSLASH Ws Reads Node isTokenByte)

variable {D : Type} [CDouble D]

/-! ### The item of a value -/

/-- The number of a text, which `parse_number` copies to a buffer for 63 bytes. -/
def numberOf (text : Bytes) : Option D :=
  if text.length ≤ 63 then
    (CDouble.strtod text).bind fun (d, used) ↦ if used = text.length then some d else none
  else none

/-- The text, when it is UTF-8. -/
def textOf (s : Bytes) : Option Bytes := if isUtf8 s then some s else none

mutual

/-- The item that a value of JSON stands for. -/
def itemOf : Json.Value → Option (Item D)
  | .null => some .null
  | .bool b => some (.bool b)
  | .number text => (numberOf text).map .number
  | .string s => (textOf s).map .string
  | .array vs => (itemsOf vs).map .array
  | .object ms => (membersOf ms).map .object

/-- The items of an array. -/
def itemsOf : List Json.Value → Option (List (Item D))
  | [] => some []
  | v :: vs => (itemOf v).bind fun item ↦ (itemsOf vs).map (item :: ·)

/-- The members of an object. -/
def membersOf : List (Bytes × Json.Value) → Option (List (Bytes × Item D))
  | [] => some []
  | (k, v) :: ms =>
    (textOf k).bind fun name ↦ (itemOf v).bind fun item ↦ (membersOf ms).map ((name, item) :: ·)

end

mutual

/-- cJSON has an item for the value: its strings and the names in it are UTF-8, and its numbers have
at most 63 bytes, of which `strtod` takes all. -/
def HasItem (D : Type) [CDouble D] : Json.Value → Prop
  | .null => True
  | .bool _ => True
  | .number text => text.length ≤ 63 ∧ ∃ d : D, CDouble.strtod text = some (d, text.length)
  | .string s => isUtf8 s = true
  | .array vs => HaveItems D vs
  | .object ms => MembersHaveItems D ms

/-- It has items for all values of an array. -/
def HaveItems (D : Type) [CDouble D] : List Json.Value → Prop
  | [] => True
  | v :: vs => HasItem D v ∧ HaveItems D vs

/-- It has items for all members of an object. -/
def MembersHaveItems (D : Type) [CDouble D] : List (Bytes × Json.Value) → Prop
  | [] => True
  | (k, v) :: ms => isUtf8 k = true ∧ HasItem D v ∧ MembersHaveItems D ms

end

mutual

/-- How deep arrays and objects are nested in a value. -/
def nestingOf : Json.Value → Nat
  | .array vs => valuesNesting vs + 1
  | .object ms => memberValuesNesting ms + 1
  | _ => 0

/-- How deep they are nested in the values of an array. -/
def valuesNesting : List Json.Value → Nat
  | [] => 0
  | v :: vs => max (nestingOf v) (valuesNesting vs)

/-- How deep they are nested in the members of an object. -/
def memberValuesNesting : List (Bytes × Json.Value) → Nat
  | [] => 0
  | (_, v) :: ms => max (nestingOf v) (memberValuesNesting ms)

end

mutual

/-- The item is nested as the value is. -/
theorem exists_itemOf : ∀ {v : Json.Value}, HasItem D v →
    ∃ item : Item D, itemOf v = some item ∧ item.nesting = nestingOf v
  | .null, _ => ⟨.null, rfl, rfl⟩
  | .bool b, _ => ⟨.bool b, rfl, rfl⟩
  | .number text, h => by
    obtain ⟨hlength, d, hstrtod⟩ := h
    have hnumber : numberOf text = some d := by
      rw [numberOf, if_pos hlength, hstrtod, Option.bind_some]
      exact if_pos rfl
    exact ⟨.number d, by rw [itemOf, hnumber, Option.map_some], rfl⟩
  | .string s, h => by
    have htext : textOf s = some s := if_pos h
    exact ⟨.string s, by rw [itemOf, htext, Option.map_some], rfl⟩
  | .array vs, h => by
    obtain ⟨items, hitems, hnesting⟩ := exists_itemsOf (show HaveItems D vs from h)
    refine ⟨.array items, by rw [itemOf, hitems, Option.map_some], ?_⟩
    rw [Item.nesting, hnesting, nestingOf]
  | .object ms, h => by
    obtain ⟨members, hmembers, hnesting⟩ := exists_membersOf (show MembersHaveItems D ms from h)
    refine ⟨.object members, by rw [itemOf, hmembers, Option.map_some], ?_⟩
    rw [Item.nesting, hnesting, nestingOf]

theorem exists_itemsOf : ∀ {vs : List Json.Value}, HaveItems D vs →
    ∃ items : List (Item D), itemsOf vs = some items ∧ itemsNesting items = valuesNesting vs
  | [], _ => ⟨[], rfl, rfl⟩
  | v :: vs, h => by
    obtain ⟨item, hitem, hnesting⟩ := exists_itemOf h.1
    obtain ⟨items, hitems, hnestings⟩ := exists_itemsOf h.2
    refine ⟨item :: items, by rw [itemsOf, hitem, Option.bind_some, hitems, Option.map_some], ?_⟩
    rw [itemsNesting, hnesting, hnestings, valuesNesting]

theorem exists_membersOf : ∀ {ms : List (Bytes × Json.Value)}, MembersHaveItems D ms →
    ∃ members : List (Bytes × Item D), membersOf ms = some members ∧
      membersNesting members = memberValuesNesting ms
  | [], _ => ⟨[], rfl, rfl⟩
  | (k, v) :: ms, h => by
    have htext : textOf k = some k := if_pos h.1
    obtain ⟨item, hitem, hnesting⟩ := exists_itemOf h.2.1
    obtain ⟨members, hmembers, hnestings⟩ := exists_membersOf h.2.2
    refine ⟨(k, item) :: members, ?_, ?_⟩
    · rw [membersOf, htext, Option.bind_some, hitem, Option.bind_some, hmembers, Option.map_some]
    · rw [membersNesting, hnesting, hnestings, memberValuesNesting]

end

/-! ### Numbers -/

/-- The text goes on with the rest after bytes that `parse_number` copies. -/
private def Copies (text rest : Bytes) : Prop :=
  ∃ t, text = t ++ rest ∧ ∀ b ∈ t, isNumberByte b = true

private theorem Copies.trans {l m n : Bytes} (h : Copies l m) (h' : Copies m n) : Copies l n := by
  obtain ⟨t, rfl, ht⟩ := h
  obtain ⟨t', rfl, ht'⟩ := h'
  exact ⟨t ++ t', (List.append_assoc ..).symm, List.forall_mem_append.mpr ⟨ht, ht'⟩⟩

private theorem Copies.refl (l : Bytes) : Copies l l := ⟨[], rfl, List.forall_mem_nil _⟩

private theorem Copies.cons {b : UInt8} (h : isNumberByte b = true) (l : Bytes) :
    Copies (b :: l) l :=
  ⟨[b], rfl, List.forall_mem_singleton.mpr h⟩

private theorem isNumberByte_of_isDigit {b : UInt8} (h : Json.isDigit b = true) :
    isNumberByte b = true := by
  change (48 ≤ b && b ≤ 57) = true at h
  simp only [isNumberByte, h, Bool.true_or]

private theorem copies_someDigits {l r : Bytes} (h : Json.someDigits l = some r) :
    Copies l r := by
  unfold Json.someDigits at h
  split at h
  · cases h
  · next b l =>
    split at h
    · next hb =>
      cases h
      have hdigits : Copies l (l.dropWhile Json.isDigit) :=
        ⟨l.takeWhile Json.isDigit, List.takeWhile_append_dropWhile.symm,
          fun _ hc ↦ isNumberByte_of_isDigit (List.mem_takeWhile_imp hc)⟩
      exact (Copies.cons (isNumberByte_of_isDigit hb) l).trans hdigits
    · cases h

private theorem copies_dropSign {signs : Bytes} (hs : ∀ b ∈ signs, isNumberByte b = true)
    (l : Bytes) : Copies l (Json.dropSign signs l) := by
  unfold Json.dropSign
  split
  · exact Copies.refl _
  · split
    · next hb => exact Copies.cons (hs _ hb) _
    · exact Copies.refl _

private theorem copies_intPart {l r : Bytes} (h : Json.intPart l = some r) : Copies l r := by
  unfold Json.intPart at h
  split at h
  · cases h
  · split at h
    · next hb =>
      cases h
      exact Copies.cons (hb ▸ by decide) _
    · exact copies_someDigits h

private theorem copies_fraction {l r : Bytes} (h : Json.fraction l = some r) : Copies l r := by
  unfold Json.fraction at h
  split at h
  · cases h
    exact Copies.refl _
  · split at h
    · next hb => exact (Copies.cons (hb ▸ by decide) _).trans (copies_someDigits h)
    · cases h
      exact Copies.refl _

private theorem copies_exponent {l r : Bytes} (h : Json.exponent l = some r) : Copies l r := by
  unfold Json.exponent at h
  split at h
  · cases h
    exact Copies.refl _
  · next b l =>
    split at h
    · next hb =>
      have hbyte : isNumberByte b = true := by
        rcases hb with rfl | rfl <;> decide
      exact (Copies.cons hbyte l).trans
        ((copies_dropSign (by decide +kernel) l).trans (copies_someDigits h))
    · cases h
      exact Copies.refl _

/-- The bytes of a number of JSON are those that `parse_number` copies, and the first of them is
one that `parse_value` knows. -/
private theorem numberBytes {text : Bytes} (h : Json.IsNumber text) :
    (∀ b ∈ text, isNumberByte b = true) ∧
      ∃ b rest, text = b :: rest ∧ (b = 45 ∨ 48 ≤ b ∧ b ≤ 57) := by
  obtain ⟨m, hm, hexponent⟩ := Option.bind_eq_some_iff.mp h
  obtain ⟨n, hn, hfraction⟩ := Option.bind_eq_some_iff.mp hm
  obtain ⟨t, ht, hbytes⟩ := (copies_dropSign (by decide +kernel) text).trans
    ((copies_intPart hn).trans ((copies_fraction hfraction).trans (copies_exponent hexponent)))
  rw [List.append_nil] at ht
  refine ⟨ht ▸ hbytes, ?_⟩
  cases text with
  | nil => cases hn
  | cons b rest =>
    refine ⟨b, rest, rfl, ?_⟩
    by_cases hsign : b ∈ [(45 : UInt8)]
    · exact Or.inl (List.mem_singleton.mp hsign)
    · rw [Json.dropSign, if_neg hsign, Json.intPart] at hn
      right
      split at hn
      · next hzero =>
        rw [hzero]
        decide
      · rw [Json.someDigits] at hn
        split at hn
        · next hdigit => simpa only [Json.isDigit, Bool.and_eq_true, decide_eq_true_eq] using hdigit
        · cases hn

/-! ### Places in the buffer -/

section Places

variable {content text rest : Bytes} {offset depth : Nat} {b : UInt8}

private theorem isAt_of_drop (h : content.drop offset = b :: rest) (c : UInt8) :
    (⟨content, offset, depth⟩ : ParseBuffer).isAt c = (b == c) := by
  have hb : content[offset]? = some b := by
    rw [← Nat.add_zero offset, ← List.getElem?_drop, h, List.getElem?_cons_zero]
  rw [ParseBuffer.isAt, hb]
  rfl

private theorem lt_of_drop (h : content.drop offset = b :: rest) : offset < content.length := by
  by_contra hge
  rw [List.drop_eq_nil_of_le (Nat.not_lt.mp hge)] at h
  cases h

/-- The word is not there when another byte is. -/
private theorem begins_eq_false (h : content.drop offset = b :: rest) {c : UInt8} {word : Bytes}
    (hne : b ≠ c) : (⟨content, offset, depth⟩ : ParseBuffer).begins (c :: word) = false := by
  rw [ParseBuffer.begins, h, List.length_cons, List.take_succ_cons, Bool.and_eq_false_iff]
  right
  rw [beq_eq_false_iff_ne]
  exact fun heq ↦ hne (List.cons.inj heq).1

private theorem begins_eq_true (h : content.drop offset = text ++ rest) (hne : text ≠ []) :
    (⟨content, offset, depth⟩ : ParseBuffer).begins text = true := by
  have hlen := congrArg List.length h
  have hpos := List.length_pos_iff.mpr hne
  rw [List.length_drop, List.length_append] at hlen
  rw [ParseBuffer.begins, h, List.take_left, Bool.and_eq_true, decide_eq_true_eq, beq_iff_eq]
  exact ⟨by simp only; omega, rfl⟩

/-- White space is skipped up to what follows it, or to the zero byte at the end. -/
private theorem skipWhitespace_eq (h : content.drop offset = text ++ [NUL]) (hws : Ws text rest)
    (hrest : ∀ c ∈ rest.head?, 32 < c) (depth : Nat) :
    ∃ offset', (⟨content, offset, depth⟩ : ParseBuffer).skipWhitespace =
      ⟨content, offset', depth⟩ ∧ content.drop offset' = rest ++ [NUL] := by
  obtain ⟨w, rfl, hw⟩ := hws
  have hblank : ∀ c ∈ w, decide (c ≤ 32) = true := by
    intro c hc
    have hc := hw c hc
    simp only [Json.isWs, Bool.or_eq_true, beq_iff_eq] at hc
    rcases hc with ((rfl | rfl) | rfl) | rfl <;> decide
  have hlen := congrArg List.length h
  simp only [List.length_drop, List.length_append, List.length_singleton] at hlen
  refine ⟨offset + w.length, ?_, by rw [← List.drop_drop, h, List.append_assoc, List.drop_left]⟩
  rw [ParseBuffer.skipWhitespace]
  simp only [h, List.append_assoc, List.takeWhile_append_of_pos hblank, List.length_append]
  cases rest with
  | nil =>
    change (ParseBuffer.mk content (if offset + (w.length + 1) = content.length then _ else _)
      depth) = _
    rw [List.length_nil] at hlen
    rw [if_pos (by omega)]
    rfl
  | cons c rest =>
    have hc : ¬ c ≤ 32 := UInt8.not_le.mpr (hrest c rfl)
    rw [List.cons_append, List.takeWhile_cons_of_neg (by simpa using hc), List.length_nil,
      Nat.add_zero]
    rw [List.length_cons] at hlen
    rw [if_neg (by omega)]

end Places

/-- The parser returns this, with this text left; or it has not had the steps for it. -/
private def Leaves {α : Type} (content rest : Bytes) (depth : Nat) (a : α)
    (x : Except Stop (α × ParseBuffer)) : Prop :=
  x = .error .unfinished ∨
    ∃ offset, x = .ok (a, ⟨content, offset, depth⟩) ∧ content.drop offset = rest ++ [NUL]

private theorem Leaves.bind {α β : Type} {content rest rest' : Bytes} {depth depth' : Nat} {a : α}
    {a' : β} {x : Except Stop (α × ParseBuffer)}
    {f : α × ParseBuffer → Except Stop (β × ParseBuffer)} (hx : Leaves content rest depth a x)
    (hf : ∀ offset, content.drop offset = rest ++ [NUL] →
      Leaves content rest' depth' a' (f (a, ⟨content, offset, depth⟩))) :
    Leaves content rest' depth' a' (x >>= f) := by
  rcases hx with rfl | ⟨offset, rfl, hoffset⟩
  · exact Or.inl rfl
  · exact hf offset hoffset

/-! ### Values -/

section Values

variable {content rest : Bytes} {offset depth : Nat}

/-- `parse_value` where none of the three words begins. -/
private theorem parseValue_cons {b : UInt8} (h : content.drop offset = b :: rest)
    (hb : b ≠ 110 ∧ b ≠ 102 ∧ b ≠ 116) (fuel : Nat) :
    parseValue (D := D) (fuel + 1) ⟨content, offset, depth⟩ =
      if b = QUOTE then
        (parseString ⟨content, offset, depth⟩).map fun (s, buffer) ↦ (.string s, buffer)
      else if b = 45 ∨ 48 ≤ b ∧ b ≤ 57 then parseNumber ⟨content, offset, depth⟩
      else if b = 91 then parseArray fuel ⟨content, offset, depth⟩
      else if b = 123 then parseObject fuel ⟨content, offset, depth⟩
      else .error (.fails offset) := by
  have hget : content[offset]? = some b := by
    rw [← Nat.add_zero offset, ← List.getElem?_drop, h, List.getElem?_cons_zero]
  rw [parseValue, show lit "null" = 110 :: [117, 108, 108] by decide,
    show lit "false" = 102 :: [97, 108, 115, 101] by decide,
    show lit "true" = 116 :: [114, 117, 101] by decide, begins_eq_false h hb.1,
    begins_eq_false h hb.2.1, begins_eq_false h hb.2.2]
  simp only [Bool.false_eq_true, if_false, hget]

private theorem leaves_advance {α : Type} {a : α} {text : Bytes}
    (h : content.drop offset = text ++ (rest ++ [NUL])) :
    Leaves content rest depth a
      (.ok (a, (⟨content, offset, depth⟩ : ParseBuffer).advance text.length)) :=
  Or.inr ⟨offset + text.length, rfl, by rw [← List.drop_drop, h, List.drop_left]⟩

/-- A number up to what does not belong to it. -/
private theorem leaves_number {text : Bytes} {d : D} (hnumber : Json.IsNumber text)
    (hd : numberOf text = some d) (hrest : ∀ b ∈ rest.head?, isTokenByte b = false)
    (h : content.drop offset = text ++ (rest ++ [NUL])) :
    Leaves content rest depth (.number d) (parseNumber (D := D) ⟨content, offset, depth⟩) := by
  have hbytes := (numberBytes hnumber).1
  have hstop : ∀ b ∈ (rest ++ [NUL]).head?, isNumberByte b = false := by
    cases rest with
    | nil =>
      intro b hb
      cases hb
      decide
    | cons c rest =>
      intro b hb
      cases hb
      have hc := hrest c rfl
      rw [← Bool.not_eq_true] at hc ⊢
      refine fun hnumber ↦ hc ?_
      simp only [isNumberByte, isTokenByte, Json.isDigit, Bool.or_eq_true, beq_iff_eq] at hnumber ⊢
      rcases hnumber with ((((hdigit | rfl) | rfl) | rfl) | rfl) | rfl
      · simp only [hdigit, true_or]
      · decide
      · decide
      · decide
      · decide
      · decide
  unfold numberOf at hd
  split at hd
  · next hlen =>
    obtain ⟨⟨d', used⟩, hstrtod, hused⟩ := Option.bind_eq_some_iff.mp hd
    simp only at hused
    split at hused
    · next huse =>
      cases hused
      have hcopy : ((content.drop offset).take 63).takeWhile isNumberByte = text := by
        rw [h, List.take_append, List.take_of_length_le hlen,
          List.takeWhile_append_of_pos hbytes]
        have hnil : ((rest ++ [NUL]).take (63 - text.length)).takeWhile isNumberByte = [] := by
          cases htake : (rest ++ [NUL]).take (63 - text.length) with
          | nil => rfl
          | cons b more =>
            have hb : b ∈ (rest ++ [NUL]).head? := by
              have hhead := congrArg List.head? htake
              rw [List.head?_take, List.head?_cons] at hhead
              split at hhead
              · cases hhead
              · exact hhead
            exact List.takeWhile_cons_of_neg (by simp [hstop b hb])
        rw [hnil, List.append_nil]
      rw [parseNumber, hcopy]
      simp only [hstrtod, huse]
      exact leaves_advance h
    · cases hused
  · cases hd

/-- A number or one of the words. -/
private theorem leaves_scalar {text : Bytes} {v : Json.Value} {item : Item D}
    (hscalar : Json.scalarOf text = some v) (hitem : itemOf v = some item)
    (hrest : ∀ b ∈ rest.head?, isTokenByte b = false)
    (h : content.drop offset = text ++ (rest ++ [NUL])) (fuel : Nat) :
    Leaves content rest depth item (parseValue (D := D) fuel ⟨content, offset, depth⟩) := by
  cases fuel with
  | zero => exact Or.inl rfl
  | succ fuel =>
    unfold Json.scalarOf at hscalar
    split at hscalar
    · next hnull =>
      cases hscalar
      cases hitem
      rw [hnull] at h
      rw [parseValue, begins_eq_true h (by decide), if_pos rfl]
      exact leaves_advance h
    split at hscalar
    · next htrue =>
      cases hscalar
      cases hitem
      rw [htrue] at h
      rw [parseValue, show lit "null" = 110 :: [117, 108, 108] by decide, begins_eq_false h
        (by decide), show lit "false" = 102 :: [97, 108, 115, 101] by decide, begins_eq_false h
        (by decide), begins_eq_true h (by decide)]
      exact leaves_advance h
    split at hscalar
    · next hfalse =>
      cases hscalar
      cases hitem
      rw [hfalse] at h
      rw [parseValue, show lit "null" = 110 :: [117, 108, 108] by decide, begins_eq_false h
        (by decide), begins_eq_true h (by decide)]
      exact leaves_advance h
    split at hscalar
    · next hnumber =>
      cases hscalar
      obtain ⟨d, hd, rfl⟩ := Option.map_eq_some_iff.mp hitem
      obtain ⟨b, more, rfl, hb⟩ := (numberBytes hnumber).2
      have hdispatch : b ≠ QUOTE ∧ b ≠ 110 ∧ b ≠ 102 ∧ b ≠ 116 := by
        refine ⟨?_, ?_, ?_, ?_⟩ <;>
          (rintro rfl
           exact absurd hb (by decide))
      rw [parseValue_cons h hdispatch.2, if_neg hdispatch.1, if_pos hb]
      exact leaves_number hnumber hd hrest h
    · cases hscalar

private theorem leaves_literal {raw s : Bytes} (hdecode : Json.decodeChars raw = some s)
    (hutf8 : isUtf8 s = true)
    (h : content.drop offset = QUOTE :: (raw ++ QUOTE :: (rest ++ [NUL]))) :
    Leaves content rest depth s (parseString ⟨content, offset, depth⟩) := by
  have hparse := @parseString_eq ⟨content, offset, depth⟩ raw s (rest ++ [NUL]) h hdecode hutf8
  refine Or.inr ⟨offset + raw.length + 2, hparse, ?_⟩
  rw [Nat.add_assoc, ← List.drop_drop, h,
    show raw.length + 2 = (QUOTE :: (raw ++ [QUOTE])).length by simp,
    show QUOTE :: (raw ++ QUOTE :: (rest ++ [NUL])) = QUOTE :: (raw ++ [QUOTE]) ++ (rest ++ [NUL])
      by simp, List.drop_left]

theorem eq_of_textOf {k name : Bytes} (h : textOf k = some name) :
    name = k ∧ isUtf8 k = true := by
  unfold textOf at h
  split at h
  · next hutf8 =>
    cases h
    exact ⟨rfl, hutf8⟩
  · cases h

/-- The end of an array or an object that has nothing in it. -/
private theorem leaves_empty {β : Type} {empty : β} {close : UInt8} {first : ParseBuffer}
    {x : Except Stop (β × ParseBuffer)} (hfirst : first = ⟨content, offset, depth + 1⟩)
    (h : content.drop offset = close :: (rest ++ [NUL])) :
    Leaves content rest depth empty
      (if first.isAt close then .ok (empty, { first.advance 1 with depth := first.depth - 1 })
      else x) := by
  subst hfirst
  rw [isAt_of_drop h, if_pos (beq_self_eq_true close)]
  exact Or.inr ⟨offset + 1, rfl, drop_succ_of_drop h⟩

/-- What is in an array or an object, and its end. -/
private theorem leaves_behind {α β : Type} (make : α → β) {empty : β} {a : α} {b close : UInt8}
    {text : Bytes} {first : ParseBuffer} (hfirst : first = ⟨content, offset, depth + 1⟩)
    (h : content.drop offset = b :: text) (hne : b ≠ close)
    {inside : ParseBuffer → Except Stop (α × ParseBuffer)}
    (hinside : Leaves content (close :: rest) (depth + 1) a
      (inside ⟨content, offset - 1, depth + 1⟩)) :
    Leaves content rest depth (make a)
      (if first.isAt close then .ok (empty, { first.advance 1 with depth := first.depth - 1 })
      else if first.content.length ≤ first.offset then .error (.fails (first.offset - 1))
      else do
        let (a, last) ← inside { first with offset := first.offset - 1 }
        if last.isAt close then .ok (make a, { last.advance 1 with depth := last.depth - 1 })
        else .error (.fails last.offset)) := by
  subst hfirst
  have hlt := lt_of_drop h
  rw [isAt_of_drop h, if_neg (by simpa using hne), if_neg (Nat.not_le.mpr hlt)]
  refine hinside.bind fun last hlast ↦ ?_
  simp only
  rw [isAt_of_drop hlast, if_pos (beq_self_eq_true close)]
  exact Or.inr ⟨last + 1, rfl, drop_succ_of_drop hlast⟩

/-- No byte in front of a value, an item or a member is white space to cJSON, or ends anything. -/
private theorem head_of_reads {l r : Bytes} {node : Node} (h : Reads l node r) :
    ∃ b text, l = b :: text ∧ 32 < b ∧ b ≠ 93 ∧ b ≠ 125 := by
  induction h with
  | @scalar text r v h =>
    obtain ⟨hne, htoken⟩ := Json.tokenBytes_of_scalarOf h
    cases text with
    | nil => contradiction
    | cons b text =>
      refine ⟨b, text ++ r, rfl, ?_⟩
      have hb := htoken b List.mem_cons_self
      have hall : ((List.range 256).all fun n ↦ !isTokenByte (UInt8.ofNat n) ||
          decide (32 < UInt8.ofNat n ∧ UInt8.ofNat n ≠ 93 ∧ UInt8.ofNat n ≠ 125)) = true := by
        decide +kernel
      have hbyte := List.all_eq_true.mp hall b.toNat (List.mem_range.mpr b.toNat_lt)
      rw [UInt8.ofNat_toNat, hb] at hbyte
      exact of_decide_eq_true hbyte
  | string | emptyArray | array | emptyObject | object | lastMember | member =>
    exact ⟨_, _, rfl, by decide⟩
  | lastItem _ _ ih => exact ih
  | item _ _ _ _ ih => exact ih

end Values

/-! ### The parser and the grammar -/

/-- What the parser makes of a text that the grammar reads, in however many steps. Items and members
are parsed from the byte in front of the white space before them, up to the bracket behind them. -/
private def Completes (D : Type) [CDouble D] (content : Bytes) : Bytes → Node → Bytes → Prop
  | l, .value v, r => ∀ (item : Item D) (offset depth fuel : Nat), itemOf v = some item →
    content.drop offset = l ++ [NUL] → item.nesting + depth ≤ nestingLimit →
    Leaves content r depth item (parseValue fuel ⟨content, offset, depth⟩)
  | l, .items vs, r => ∀ (items : List (Item D)) (offset depth fuel : Nat) (text : Bytes),
    itemsOf vs = some items → content.drop (offset + 1) = text ++ [NUL] → Ws text l →
    itemsNesting items + depth ≤ nestingLimit →
    Leaves content (93 :: r) depth items (parseItems fuel ⟨content, offset, depth⟩)
  | l, .members ms, r => ∀ (members : List (Bytes × Item D)) (offset depth fuel : Nat)
    (text : Bytes), membersOf ms = some members → content.drop (offset + 1) = text ++ [NUL] →
    Ws text l → membersNesting members + depth ≤ nestingLimit →
    Leaves content (125 :: r) depth members (parseMembers fuel ⟨content, offset, depth⟩)

private theorem ws_refl (text : Bytes) : Ws text text := ⟨[], rfl, List.forall_mem_nil _⟩

private theorem head_of_cons {b : UInt8} (hb : 32 < b) (rest : Bytes) :
    ∀ c ∈ (b :: rest).head?, 32 < c := by
  intro c hc
  cases hc
  exact hb

section Completes

variable {content l m n p q r t : Bytes} {v : Json.Value}

/-- Behind the bracket of an array or an object, and the white space there. -/
private theorem exists_first {offset : Nat} {b : UInt8}
    (h : content.drop offset = b :: l ++ [NUL]) (hws : Ws l m) (hm : ∀ c ∈ m.head?, 32 < c)
    (depth : Nat) :
    ∃ offset', (⟨content, offset + 1, depth + 1⟩ : ParseBuffer).skipWhitespace =
      ⟨content, offset', depth + 1⟩ ∧ content.drop offset' = m ++ [NUL] ∧ 0 < offset' := by
  have hbehind : content.drop (offset + 1) = l ++ [NUL] := drop_succ_of_drop h
  obtain ⟨offset', hskip, hdrop⟩ := skipWhitespace_eq hbehind hws hm (depth + 1)
  refine ⟨offset', hskip, hdrop, ?_⟩
  have hlen := congrArg List.length hbehind
  have hlen' := congrArg List.length hdrop
  have hsuffix := hws.suffix.length_le
  simp only [List.length_drop, List.length_append, List.length_cons, List.length_nil] at hlen hlen'
  omega

private theorem completes_array {vs : List Json.Value} (hws : Ws l m) (h : Reads m (.items vs) r)
    (ih : Completes D content m (.items vs) r) :
    Completes D content (91 :: l) (.value (.array vs)) r := by
  intro item offset depth fuel hitem hdrop hnesting
  obtain ⟨items, hitems, rfl⟩ := Option.map_eq_some_iff.mp hitem
  change itemsNesting items + 1 + depth ≤ _ at hnesting
  obtain ⟨b, text, rfl, hb, hclose, -⟩ := head_of_reads h
  match fuel with
  | 0 => exact Or.inl rfl
  | 1 =>
    rw [parseValue_cons hdrop (by decide), if_neg (by decide), if_neg (by decide), if_pos rfl]
    exact Or.inl rfl
  | fuel + 2 =>
    obtain ⟨offset', hskip, hdrop', hpos⟩ := exists_first hdrop hws (head_of_cons hb text) depth
    rw [parseValue_cons hdrop (by decide), if_neg (by decide), if_neg (by decide), if_pos rfl,
      parseArray, if_neg (by simp only; omega)]
    simp only
    rw [byteAt_of_drop hdrop]
    refine leaves_behind Item.array hskip hdrop' hclose (ih items (offset' - 1) (depth + 1) fuel _
      hitems ?_ (ws_refl _) (by omega))
    rw [Nat.sub_add_cancel hpos, hdrop']

private theorem completes_object {ms : List (Bytes × Json.Value)} (hws : Ws l m)
    (h : Reads m (.members ms) r) (ih : Completes D content m (.members ms) r) :
    Completes D content (123 :: l) (.value (.object ms)) r := by
  intro item offset depth fuel hitem hdrop hnesting
  obtain ⟨members, hmembers, rfl⟩ := Option.map_eq_some_iff.mp hitem
  change membersNesting members + 1 + depth ≤ _ at hnesting
  obtain ⟨b, text, rfl, hb, -, hclose⟩ := head_of_reads h
  match fuel with
  | 0 => exact Or.inl rfl
  | 1 =>
    rw [parseValue_cons hdrop (by decide), if_neg (by decide), if_neg (by decide),
      if_neg (by decide), if_pos rfl]
    exact Or.inl rfl
  | fuel + 2 =>
    obtain ⟨offset', hskip, hdrop', hpos⟩ := exists_first hdrop hws (head_of_cons hb text) depth
    rw [parseValue_cons hdrop (by decide), if_neg (by decide), if_neg (by decide),
      if_neg (by decide), if_pos rfl, parseObject, if_neg (by simp only; omega), isAt_of_drop hdrop,
      if_neg (by decide)]
    refine leaves_behind Item.object hskip hdrop' hclose (ih members (offset' - 1) (depth + 1) fuel
      _ hmembers ?_ (ws_refl _) (by omega))
    rw [Nat.sub_add_cancel hpos, hdrop']

private theorem completes_emptyArray (hws : Ws l (93 :: r)) :
    Completes D content (91 :: l) (.value (.array [])) r := by
  intro item offset depth fuel hitem hdrop hnesting
  cases hitem
  change 0 + 1 + depth ≤ _ at hnesting
  match fuel with
  | 0 => exact Or.inl rfl
  | 1 =>
    rw [parseValue_cons hdrop (by decide), if_neg (by decide), if_neg (by decide), if_pos rfl]
    exact Or.inl rfl
  | fuel + 2 =>
    obtain ⟨offset', hskip, hdrop', -⟩ := exists_first hdrop hws (head_of_cons (by decide) r) depth
    rw [parseValue_cons hdrop (by decide), if_neg (by decide), if_neg (by decide), if_pos rfl,
      parseArray, if_neg (by simp only; omega)]
    simp only
    rw [byteAt_of_drop hdrop]
    exact leaves_empty hskip hdrop'

private theorem completes_emptyObject (hws : Ws l (125 :: r)) :
    Completes D content (123 :: l) (.value (.object [])) r := by
  intro item offset depth fuel hitem hdrop hnesting
  cases hitem
  change 0 + 1 + depth ≤ _ at hnesting
  match fuel with
  | 0 => exact Or.inl rfl
  | 1 =>
    rw [parseValue_cons hdrop (by decide), if_neg (by decide), if_neg (by decide),
      if_neg (by decide), if_pos rfl]
    exact Or.inl rfl
  | fuel + 2 =>
    obtain ⟨offset', hskip, hdrop', -⟩ := exists_first hdrop hws (head_of_cons (by decide) r) depth
    rw [parseValue_cons hdrop (by decide), if_neg (by decide), if_neg (by decide),
      if_neg (by decide), if_pos rfl, parseObject, if_neg (by simp only; omega), isAt_of_drop hdrop,
      if_neg (by decide)]
    exact leaves_empty hskip hdrop'

private theorem completes_lastItem (h : Reads l (.value v) m) (hend : Ws m (93 :: r))
    (ih : Completes D content l (.value v) m) : Completes D content l (.items [v]) r := by
  intro items offset depth fuel text hitems hdrop hws hnesting
  obtain ⟨item, hitem, heq⟩ := Option.bind_eq_some_iff.mp hitems
  cases heq
  change max item.nesting 0 + depth ≤ _ at hnesting
  obtain ⟨b, text', rfl, hb, -⟩ := head_of_reads h
  match fuel with
  | 0 => exact Or.inl rfl
  | fuel + 1 =>
    obtain ⟨offset', hskip, hdrop'⟩ := skipWhitespace_eq hdrop hws (head_of_cons hb text') depth
    rw [parseItems, ParseBuffer.advance, hskip]
    refine (ih item offset' depth fuel hitem hdrop' (by omega)).bind fun behind hbehind ↦ ?_
    obtain ⟨last, hlast, hdropLast⟩ :=
      skipWhitespace_eq hbehind hend (head_of_cons (by decide) r) depth
    simp only [hlast]
    rw [isAt_of_drop hdropLast, if_neg (by decide)]
    exact Or.inr ⟨last, rfl, hdropLast⟩

private theorem completes_item {vs : List Json.Value} (h : Reads l (.value v) m)
    (hcomma : Ws m (44 :: n)) (hws : Ws n p) (ih : Completes D content l (.value v) m)
    (ih' : Completes D content p (.items vs) r) : Completes D content l (.items (v :: vs)) r := by
  intro items offset depth fuel text hitems hdrop hws' hnesting
  obtain ⟨item, hitem, heq⟩ := Option.bind_eq_some_iff.mp hitems
  obtain ⟨items', hitems', rfl⟩ := Option.map_eq_some_iff.mp heq
  change max item.nesting (itemsNesting items') + depth ≤ _ at hnesting
  obtain ⟨b, text', rfl, hb, -⟩ := head_of_reads h
  match fuel with
  | 0 => exact Or.inl rfl
  | fuel + 1 =>
    obtain ⟨offset', hskip, hdrop'⟩ := skipWhitespace_eq hdrop hws' (head_of_cons hb text') depth
    rw [parseItems, ParseBuffer.advance, hskip]
    refine (ih item offset' depth fuel hitem hdrop' (by omega)).bind fun behind hbehind ↦ ?_
    obtain ⟨comma, hlast, hdropComma⟩ :=
      skipWhitespace_eq hbehind hcomma (head_of_cons (by decide) n) depth
    simp only [hlast]
    rw [isAt_of_drop hdropComma, if_pos (by decide)]
    refine (ih' items' comma depth fuel n hitems' (drop_succ_of_drop hdropComma) hws
      (by omega)).bind fun last hlast ↦ Or.inr ⟨last, rfl, hlast⟩

private theorem completes_lastMember {raw k : Bytes} (hk : Json.decodeChars raw = some k)
    (hcolon : Ws l (58 :: m)) (hws : Ws m n) (h : Reads n (.value v) p) (hend : Ws p (125 :: r))
    (ih : Completes D content n (.value v) p) :
    Completes D content (QUOTE :: (raw ++ QUOTE :: l)) (.members [(k, v)]) r := by
  intro members offset depth fuel text hmembers hdrop hws' hnesting
  obtain ⟨name, hname, heq⟩ := Option.bind_eq_some_iff.mp hmembers
  obtain ⟨rfl, hutf8⟩ := eq_of_textOf hname
  obtain ⟨item, hitem, heq⟩ := Option.bind_eq_some_iff.mp heq
  cases heq
  change max item.nesting 0 + depth ≤ _ at hnesting
  obtain ⟨b, text', rfl, hb, -⟩ := head_of_reads h
  match fuel with
  | 0 => exact Or.inl rfl
  | fuel + 1 =>
    obtain ⟨first, hskip, hfirst⟩ :=
      skipWhitespace_eq hdrop hws' (head_of_cons (by decide) _) depth
    rw [parseMembers, ParseBuffer.advance, hskip]
    refine (leaves_literal hk hutf8 (by simpa using hfirst)).bind fun named hnamed ↦ ?_
    obtain ⟨colon, hskip', hdropColon⟩ :=
      skipWhitespace_eq hnamed hcolon (head_of_cons (by decide) m) depth
    obtain ⟨offset', hskip'', hdrop'⟩ :=
      skipWhitespace_eq (drop_succ_of_drop hdropColon) hws (head_of_cons hb text') depth
    simp only [hskip']
    rw [isAt_of_drop hdropColon, if_neg (by decide), ParseBuffer.advance, hskip'']
    refine (ih item offset' depth fuel hitem hdrop' (by omega)).bind fun behind hbehind ↦ ?_
    obtain ⟨last, hlast, hdropLast⟩ :=
      skipWhitespace_eq hbehind hend (head_of_cons (by decide) r) depth
    simp only [hlast]
    rw [isAt_of_drop hdropLast, if_neg (by decide)]
    exact Or.inr ⟨last, rfl, hdropLast⟩

private theorem completes_member {raw k : Bytes} {ms : List (Bytes × Json.Value)}
    (hk : Json.decodeChars raw = some k) (hcolon : Ws l (58 :: m)) (hws : Ws m n)
    (h : Reads n (.value v) p) (hcomma : Ws p (44 :: q)) (hws' : Ws q t)
    (ih : Completes D content n (.value v) p) (ih' : Completes D content t (.members ms) r) :
    Completes D content (QUOTE :: (raw ++ QUOTE :: l)) (.members ((k, v) :: ms)) r := by
  intro members offset depth fuel text hmembers hdrop hws'' hnesting
  obtain ⟨name, hname, heq⟩ := Option.bind_eq_some_iff.mp hmembers
  obtain ⟨rfl, hutf8⟩ := eq_of_textOf hname
  obtain ⟨item, hitem, heq⟩ := Option.bind_eq_some_iff.mp heq
  obtain ⟨members', hmembers', rfl⟩ := Option.map_eq_some_iff.mp heq
  change max item.nesting (membersNesting members') + depth ≤ _ at hnesting
  obtain ⟨b, text', rfl, hb, -⟩ := head_of_reads h
  match fuel with
  | 0 => exact Or.inl rfl
  | fuel + 1 =>
    obtain ⟨first, hskip, hfirst⟩ :=
      skipWhitespace_eq hdrop hws'' (head_of_cons (by decide) _) depth
    rw [parseMembers, ParseBuffer.advance, hskip]
    refine (leaves_literal hk hutf8 (by simpa using hfirst)).bind fun named hnamed ↦ ?_
    obtain ⟨colon, hskip', hdropColon⟩ :=
      skipWhitespace_eq hnamed hcolon (head_of_cons (by decide) m) depth
    obtain ⟨offset', hskip'', hdrop'⟩ :=
      skipWhitespace_eq (drop_succ_of_drop hdropColon) hws (head_of_cons hb text') depth
    simp only [hskip']
    rw [isAt_of_drop hdropColon, if_neg (by decide), ParseBuffer.advance, hskip'']
    refine (ih item offset' depth fuel hitem hdrop' (by omega)).bind fun behind hbehind ↦ ?_
    obtain ⟨comma, hlast, hdropComma⟩ :=
      skipWhitespace_eq hbehind hcomma (head_of_cons (by decide) q) depth
    simp only [hlast]
    rw [isAt_of_drop hdropComma, if_pos (by decide)]
    refine (ih' members' comma depth fuel q hmembers' (drop_succ_of_drop hdropComma) hws'
      (by omega)).bind fun last hlast ↦ Or.inr ⟨last, rfl, hlast⟩

end Completes

/-- Whatever text the grammar reads, the parser reads it as the item that it stands for. -/
private theorem completes_of_reads (content : Bytes) {l r : Bytes} {node : Node}
    (h : Reads l node r) : Completes D content l node r := by
  induction h with
  | scalar hscalar hr =>
    intro item offset depth fuel hitem hdrop _
    exact leaves_scalar hscalar hitem hr (by rw [hdrop, List.append_assoc]) fuel
  | string hdecode r =>
    intro item offset depth fuel hitem hdrop _
    obtain ⟨s, hs, rfl⟩ := Option.map_eq_some_iff.mp hitem
    obtain ⟨rfl, hutf8⟩ := eq_of_textOf hs
    match fuel with
    | 0 => exact Or.inl rfl
    | fuel + 1 =>
      rw [parseValue_cons hdrop (by decide), if_pos rfl]
      rcases leaves_literal hdecode hutf8 (by simpa using hdrop) with hstop | ⟨offset', hok, h'⟩
      · exact Or.inl (by rw [hstop]; rfl)
      · exact Or.inr ⟨offset', by rw [hok]; rfl, h'⟩
  | emptyArray hws => exact completes_emptyArray hws
  | array hws h ih => exact completes_array hws h ih
  | emptyObject hws => exact completes_emptyObject hws
  | object hws h ih => exact completes_object hws h ih
  | lastItem h hend ih => exact completes_lastItem h hend ih
  | item h hcomma hws _ ih ih' => exact completes_item h hcomma hws ih ih'
  | lastMember hk hcolon hws h hend ih => exact completes_lastMember hk hcolon hws h hend ih
  | member hk hcolon hws h hcomma hws' _ ih ih' =>
    exact completes_member hk hcolon hws h hcomma hws' ih ih'

/-! ### Documents -/

/-- A text that is one value with white space around it is parsed as the item of this value. -/
theorem parseWithOpts_of_reads {doc l r : Bytes} {v : Json.Value} {item : Item D}
    (hws : Ws doc l) (h : Reads l (.value v) r) (hend : Ws r []) (hitem : itemOf v = some item)
    (hnesting : item.nesting ≤ nestingLimit) (requireNullTerminated : Bool) :
    ∃ parseEnd, cJSONParseWithOpts doc requireNullTerminated = .ok (item, parseEnd) := by
  have hnul := Json.nul_not_mem_document hws h hend
  obtain ⟨b, text, rfl, hb, -⟩ := head_of_reads h
  have hstart : ParseBuffer.of doc = ⟨doc ++ [NUL], 0, 0⟩ := by
    rw [ParseBuffer.of, cstr_of_nul_not_mem hnul]
  obtain ⟨offset, hskip, hdrop⟩ := @skipWhitespace_eq (doc ++ [NUL]) doc (b :: text) 0
    List.drop_zero hws (head_of_cons hb text) 0
  have hlast : (doc ++ [NUL])[(doc ++ [NUL]).length - 1]? = some NUL := by
    rw [List.length_append, List.length_singleton, Nat.add_sub_cancel, List.getElem?_concat_length]
  have hready : (⟨doc ++ [NUL], offset, 0⟩ : ParseBuffer).Ready (doc ++ [NUL]) :=
    ⟨rfl, lt_of_drop hdrop⟩
  have hreturns := (inside_parse (D := D) hlast _).value _ hready (Nat.zero_le _)
    (Nat.mul_le_mul_left 3 (Nat.sub_le _ _))
  have hleaves := completes_of_reads (D := D) (doc ++ [NUL]) h item offset 0
    (3 * (doc ++ [NUL]).length) hitem hdrop hnesting
  unfold cJSONParseWithOpts
  simp only [hstart, hskip]
  rcases hleaves with hstop | ⟨behind, hok, hbehind⟩
  · rw [hstop] at hreturns
    exact hreturns.elim
  · obtain ⟨last, hskip', hlast'⟩ := skipWhitespace_eq hbehind hend (fun _ hc ↦ by cases hc) 0
    rw [List.nil_append] at hlast'
    simp only [hok, hskip', isAt_of_drop hlast', beq_self_eq_true, if_true]
    cases requireNullTerminated with
    | true => exact ⟨last, rfl⟩
    | false => exact ⟨behind, rfl⟩

/-- A document of JSON that cJSON has an item for, nested no deeper than the limit, is parsed as this
item, whether what follows is looked at or not. -/
theorem parses_json {doc : Bytes} {v : Json.Value} (h : Json.parse doc = some v)
    (hitem : HasItem D v) (hnesting : nestingOf v ≤ nestingLimit) (requireNullTerminated : Bool) :
    ∃ item : Item D, itemOf v = some item ∧
      ∃ parseEnd, cJSONParseWithOpts doc requireNullTerminated = .ok (item, parseEnd) := by
  obtain ⟨-, l, r, hws, hreads, hend⟩ := (Json.parse_eq_some_iff doc v).mp h
  obtain ⟨item, hitem, hsame⟩ := exists_itemOf hitem
  exact ⟨item, hitem,
    parseWithOpts_of_reads hws hreads hend hitem (hsame ▸ hnesting) requireNullTerminated⟩

theorem parses_json_array :
    ∃ parseEnd, cJSONParseWithOpts (lit " [12, \"\\u20ac\"] ") true =
      .ok ((.array [.number 12, .string (utf8Encode 0x20AC)] : Item Int), parseEnd) := by
  have hparse : Json.parse (lit " [12, \"\\u20ac\"] ") =
      some (.array [.number (lit "12"), .string (utf8Encode 0x20AC)]) := by rfl
  have hhas : HasItem Int (.array [.number (lit "12"), .string (utf8Encode 0x20AC)]) :=
    ⟨⟨by decide, 12, by decide⟩, (by decide : isUtf8 (utf8Encode 0x20AC) = true), trivial⟩
  obtain ⟨item, hitem, hparsed⟩ := parses_json hparse hhas (by decide) true
  obtain rfl : (.array [.number 12, .string (utf8Encode 0x20AC)] : Item Int) = item :=
    Option.some.inj hitem
  exact hparsed

end Kitty.CJson
