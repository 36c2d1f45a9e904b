import Kitty.Base.JsonString
import Mathlib.Data.List.TakeWhile

/-!
# JSON documents

The grammar of JSON says which text is read as which value and what follows it. The parser reads a
document in just this way. Members are kept in their order, with a name as often as it occurs; a
number is kept as its text.
-/

namespace Kitty.Base.Json

/-- A JSON value. -/
inductive Value where
  | null
  | bool (b : Bool)
  | number (text : Bytes)
  | string (s : Bytes)
  | array (items : List Value)
  | object (members : List (Bytes × Value))

/-- White space between the tokens. -/
def isWs (b : UInt8) : Bool := b == 32 || b == 9 || b == 10 || b == 13

/-- A decimal digit. -/
def isDigit (b : UInt8) : Bool := 48 ≤ b && b ≤ 57

/-- A byte that a number or one of the words is made of. -/
def isTokenByte (b : UInt8) : Bool :=
  isDigit b || (97 ≤ b && b ≤ 122) || (65 ≤ b && b ≤ 90) || b == 43 || b == 45 || b == 46

/-! ### Numbers -/

/-- What follows the digits at the beginning, if there are any. -/
def someDigits : Bytes → Option Bytes
  | [] => none
  | b :: rest => if isDigit b then some (rest.dropWhile isDigit) else none

/-- What follows a sign. -/
def dropSign (signs : Bytes) : Bytes → Bytes
  | [] => []
  | b :: rest => if b ∈ signs then rest else b :: rest

/-- What follows the integer part of a number: no zero stands before other digits. -/
def intPart : Bytes → Option Bytes
  | [] => none
  | b :: rest => if b = 48 then some rest else someDigits (b :: rest)

/-- What follows the fraction, which may be missing. -/
def fraction : Bytes → Option Bytes
  | [] => some []
  | b :: rest => if b = 46 then someDigits rest else some (b :: rest)

/-- What follows the exponent, which may be missing. -/
def exponent : Bytes → Option Bytes
  | [] => some []
  | b :: rest => if b = 69 ∨ b = 101 then someDigits (dropSign [43, 45] rest) else some (b :: rest)

/-- The text is a number. -/
def IsNumber (text : Bytes) : Prop :=
  (((intPart (dropSign [45] text)).bind fraction).bind exponent) = some []

instance (text : Bytes) : Decidable (IsNumber text) := inferInstanceAs (Decidable (_ = _))

/-- The value that a number or one of the words stands for. -/
def scalarOf (text : Bytes) : Option Value :=
  if text = lit "null" then some .null
  else if text = lit "true" then some (.bool true)
  else if text = lit "false" then some (.bool false)
  else if IsNumber text then some (.number text)
  else none

/-! ### The grammar -/

/-- White space comes first. -/
def Ws (text rest : Bytes) : Prop := ∃ w, text = w ++ rest ∧ ∀ b ∈ w, isWs b = true

/-- What is read: a value, the items of an array up to its end, or the members of an object. -/
inductive Node where
  | value (v : Value)
  | items (vs : List Value)
  | members (ms : List (Bytes × Value))

/-- What a text is read as, and what follows it. A number or a word goes as far as it can. -/
inductive Reads : Bytes → Node → Bytes → Prop where
  | scalar {text r : Bytes} {v : Value} (h : scalarOf text = some v)
      (hr : ∀ b ∈ r.head?, isTokenByte b = false) : Reads (text ++ r) (.value v) r
  | string {raw s : Bytes} (h : decodeChars raw = some s) (r : Bytes) :
      Reads (QUOTE :: (raw ++ QUOTE :: r)) (.value (.string s)) r
  | emptyArray {l r : Bytes} (h : Ws l (93 :: r)) : Reads (91 :: l) (.value (.array [])) r
  | array {l m r : Bytes} {vs : List Value} (hws : Ws l m) (h : Reads m (.items vs) r) :
      Reads (91 :: l) (.value (.array vs)) r
  | emptyObject {l r : Bytes} (h : Ws l (125 :: r)) : Reads (123 :: l) (.value (.object [])) r
  | object {l m r : Bytes} {ms : List (Bytes × Value)} (hws : Ws l m)
      (h : Reads m (.members ms) r) : Reads (123 :: l) (.value (.object ms)) r
  | lastItem {l m r : Bytes} {v : Value} (h : Reads l (.value v) m) (hend : Ws m (93 :: r)) :
      Reads l (.items [v]) r
  | item {l m n p r : Bytes} {v : Value} {vs : List Value} (h : Reads l (.value v) m)
      (hcomma : Ws m (44 :: n)) (hws : Ws n p) (hrest : Reads p (.items vs) r) :
      Reads l (.items (v :: vs)) r
  | lastMember {raw k l m n p r : Bytes} {v : Value} (hk : decodeChars raw = some k)
      (hcolon : Ws l (58 :: m)) (hws : Ws m n) (h : Reads n (.value v) p)
      (hend : Ws p (125 :: r)) :
      Reads (QUOTE :: (raw ++ QUOTE :: l)) (.members [(k, v)]) r
  | member {raw k l m n p q t r : Bytes} {v : Value} {ms : List (Bytes × Value)}
      (hk : decodeChars raw = some k) (hcolon : Ws l (58 :: m)) (hws : Ws m n)
      (h : Reads n (.value v) p) (hcomma : Ws p (44 :: q)) (hws' : Ws q t)
      (hrest : Reads t (.members ms) r) :
      Reads (QUOTE :: (raw ++ QUOTE :: l)) (.members ((k, v) :: ms)) r

/-! ### The parser -/

/-- The text without the white space at its beginning. -/
def skipWs (text : Bytes) : Bytes := text.dropWhile isWs

/-- What follows a byte that comes next, perhaps after white space. -/
def expect (c : UInt8) (text : Bytes) : Option Bytes :=
  match skipWs text with
  | [] => none
  | b :: rest => if b = c then some rest else none

/-- A number or one of the words. -/
def parseScalar (text : Bytes) : Option (Value × Bytes) :=
  (scalarOf (text.takeWhile isTokenByte)).map fun v ↦ (v, text.dropWhile isTokenByte)

/-- A string whose first quote has been read. -/
def parseString (text : Bytes) : Option (Bytes × Bytes) :=
  (scan text).bind fun (raw, r) ↦ (decodeChars raw).map fun s ↦ (s, r)

mutual

/-- A value, in so many steps. -/
def parseValue : Nat → Bytes → Option (Value × Bytes)
  | 0, _ => none
  | _ + 1, [] => none
  | fuel + 1, b :: l =>
    if b = QUOTE then (parseString l).map fun (s, r) ↦ (.string s, r)
    else if b = 91 then
      match expect 93 l with
      | some r => some (.array [], r)
      | none => (parseItems fuel (skipWs l)).map fun (vs, r) ↦ (.array vs, r)
    else if b = 123 then
      match expect 125 l with
      | some r => some (.object [], r)
      | none => (parseMembers fuel (skipWs l)).map fun (ms, r) ↦ (.object ms, r)
    else parseScalar (b :: l)

/-- The items of an array and its end. -/
def parseItems : Nat → Bytes → Option (List Value × Bytes)
  | 0, _ => none
  | fuel + 1, l =>
    (parseValue fuel l).bind fun (v, m) ↦
      match expect 44 m with
      | some n => (parseItems fuel (skipWs n)).map fun (vs, r) ↦ (v :: vs, r)
      | none => (expect 93 m).map fun r ↦ ([v], r)

/-- The members of an object and its end. -/
def parseMembers : Nat → Bytes → Option (List (Bytes × Value) × Bytes)
  | 0, _ => none
  | _ + 1, [] => none
  | fuel + 1, b :: l =>
    if b = QUOTE then
      (parseString l).bind fun (k, m) ↦
        (expect 58 m).bind fun n ↦
          (parseValue fuel (skipWs n)).bind fun (v, p) ↦
            match expect 44 p with
            | some q => (parseMembers fuel (skipWs q)).map fun (ms, r) ↦ ((k, v) :: ms, r)
            | none => (expect 125 p).map fun r ↦ ([(k, v)], r)
    else none

end

/-- The value of a document, which is UTF-8 and one value with white space around it. -/
def parse (doc : Bytes) : Option Value :=
  if isUtf8 doc then
    (parseValue (2 * doc.length) (skipWs doc)).bind fun (v, r) ↦
      if skipWs r = [] then some v else none
  else none

/-! ### White space -/

theorem ws_skipWs (text : Bytes) : Ws text (skipWs text) :=
  ⟨text.takeWhile isWs, List.takeWhile_append_dropWhile.symm, fun _ ↦ List.mem_takeWhile_imp⟩

theorem Ws.suffix {text rest : Bytes} (h : Ws text rest) : rest <:+ text := by
  obtain ⟨w, rfl, -⟩ := h
  exact List.suffix_append w rest

/-- White space ends where something else begins. -/
theorem Ws.skipWs_eq {text rest : Bytes} (h : Ws text rest)
    (hrest : ∀ b ∈ rest.head?, isWs b = false) : skipWs text = rest := by
  obtain ⟨w, rfl, hw⟩ := h
  rw [skipWs, List.dropWhile_append_of_pos hw]
  cases rest with
  | nil => rfl
  | cons b rest => exact List.dropWhile_cons_of_neg (by simp [hrest b rfl])

theorem expect_eq_some_iff {c : UInt8} (hc : isWs c = false) (text rest : Bytes) :
    expect c text = some rest ↔ Ws text (c :: rest) := by
  constructor
  · intro h
    unfold expect at h
    have hws := ws_skipWs text
    split at h
    · cases h
    · next b l hl =>
      rw [hl] at hws
      split at h
      · next hb =>
        cases h
        exact hb ▸ hws
      · cases h
  · intro h
    have hskip := h.skipWs_eq fun b hb ↦ by
      cases hb
      exact hc
    unfold expect
    rw [hskip]
    exact if_pos rfl

/-- Only one byte can come next. -/
theorem expect_eq_none {c d : UInt8} (hd : isWs d = false) (hne : d ≠ c) {text rest : Bytes}
    (h : Ws text (d :: rest)) : expect c text = none := by
  have hskip := h.skipWs_eq fun b hb ↦ by
    cases hb
    exact hd
  unfold expect
  rw [hskip]
  exact if_neg hne

/-! ### Numbers and words -/

/-- The text goes on with the rest after bytes that a number can be made of. -/
def Takes (text rest : Bytes) : Prop := ∃ t, text = t ++ rest ∧ ∀ b ∈ t, isTokenByte b = true

private theorem Takes.trans {l m n : Bytes} (h : Takes l m) (h' : Takes m n) : Takes l n := by
  obtain ⟨t, rfl, ht⟩ := h
  obtain ⟨t', rfl, ht'⟩ := h'
  refine ⟨t ++ t', (List.append_assoc ..).symm, fun b hb ↦ ?_⟩
  rcases List.mem_append.mp hb with hb | hb
  · exact ht b hb
  · exact ht' b hb

private theorem Takes.refl (l : Bytes) : Takes l l := ⟨[], rfl, fun _ h ↦ nomatch h⟩

private theorem Takes.cons {b : UInt8} (h : isTokenByte b = true) (l : Bytes) : Takes (b :: l) l :=
  ⟨[b], rfl, fun c hc ↦ by rw [List.mem_singleton.mp hc, h]⟩

private theorem isTokenByte_of_isDigit {b : UInt8} (h : isDigit b = true) :
    isTokenByte b = true := by
  simp [isTokenByte, h]

private theorem takes_digits (l : Bytes) : Takes l (l.dropWhile isDigit) :=
  ⟨l.takeWhile isDigit, List.takeWhile_append_dropWhile.symm,
    fun _ hb ↦ isTokenByte_of_isDigit (List.mem_takeWhile_imp hb)⟩

private theorem takes_someDigits {l r : Bytes} (h : someDigits l = some r) : Takes l r := by
  unfold someDigits at h
  split at h
  · cases h
  · next b l =>
    split at h
    · next hb =>
      cases h
      exact (Takes.cons (isTokenByte_of_isDigit hb) l).trans (takes_digits l)
    · cases h

private theorem takes_dropSign {signs : Bytes} (hs : ∀ b ∈ signs, isTokenByte b = true)
    (l : Bytes) : Takes l (dropSign signs l) := by
  unfold dropSign
  split
  · exact Takes.refl _
  · split
    · next hb => exact Takes.cons (hs _ hb) _
    · exact Takes.refl _

private theorem takes_intPart {l r : Bytes} (h : intPart l = some r) : Takes l r := by
  unfold intPart at h
  split at h
  · cases h
  · split at h
    · next hb =>
      cases h
      exact Takes.cons (hb ▸ by decide) _
    · exact takes_someDigits h

private theorem takes_fraction {l r : Bytes} (h : fraction l = some r) : Takes l r := by
  unfold fraction at h
  split at h
  · cases h
    exact Takes.refl _
  · split at h
    · next hb => exact (Takes.cons (hb ▸ by decide) _).trans (takes_someDigits h)
    · cases h
      exact Takes.refl _

private theorem takes_exponent {l r : Bytes} (h : exponent l = some r) : Takes l r := by
  unfold exponent at h
  split at h
  · cases h
    exact Takes.refl _
  · next b l =>
    split at h
    · next hb =>
      have hbyte : isTokenByte b = true := by
        rcases hb with rfl | rfl <;> decide
      exact (Takes.cons hbyte l).trans
        ((takes_dropSign (by decide +kernel) l).trans (takes_someDigits h))
    · cases h
      exact Takes.refl _

/-- A number is made of such bytes. -/
theorem IsNumber.tokenBytes {text : Bytes} (h : IsNumber text) :
    text ≠ [] ∧ ∀ b ∈ text, isTokenByte b = true := by
  constructor
  · rintro rfl
    exact absurd h (by decide)
  · obtain ⟨m, hm, hexponent⟩ := Option.bind_eq_some_iff.mp h
    obtain ⟨n, hn, hfraction⟩ := Option.bind_eq_some_iff.mp hm
    obtain ⟨t, ht, hbytes⟩ := (takes_dropSign (by decide +kernel) text).trans
      ((takes_intPart hn).trans ((takes_fraction hfraction).trans (takes_exponent hexponent)))
    rw [List.append_nil] at ht
    rw [ht]
    exact hbytes

theorem tokenBytes_of_scalarOf {text : Bytes} {v : Value} (h : scalarOf text = some v) :
    text ≠ [] ∧ ∀ b ∈ text, isTokenByte b = true := by
  unfold scalarOf at h
  split at h
  · next heq =>
    rw [heq]
    decide +kernel
  split at h
  · next heq =>
    rw [heq]
    decide +kernel
  split at h
  · next heq =>
    rw [heq]
    decide +kernel
  split at h
  · next hnumber => exact hnumber.tokenBytes
  · cases h

theorem scalarOf_isSome_of_isNumber {text : Bytes} (h : IsNumber text) :
    (scalarOf text).isSome = true := by
  unfold scalarOf
  simp only [if_pos h]
  split
  · rfl
  split
  · rfl
  split <;> rfl

/-- Digits are read up to what follows them. -/
theorem someDigits_append {digits rest : Bytes} (hne : digits ≠ [])
    (hdigits : ∀ b ∈ digits, isDigit b = true) (hrest : ∀ b ∈ rest.head?, isDigit b = false) :
    someDigits (digits ++ rest) = some rest := by
  cases digits with
  | nil => contradiction
  | cons b digits =>
    have hdrop : (digits ++ rest).dropWhile isDigit = rest := by
      rw [List.dropWhile_append_of_pos fun c hc ↦ hdigits c (List.mem_cons_of_mem _ hc)]
      cases rest with
      | nil => rfl
      | cons c rest => exact List.dropWhile_cons_of_neg (by simp [hrest c rfl])
    rw [List.cons_append, someDigits, if_pos (hdigits b List.mem_cons_self), hdrop]

/-- A number begins with digits of which the first is no zero. -/
theorem intPart_append {digits rest : Bytes} (hne : digits ≠ [])
    (hdigits : ∀ b ∈ digits, isDigit b = true) (hhead : digits.head? ≠ some 48)
    (hrest : ∀ b ∈ rest.head?, isDigit b = false) : intPart (digits ++ rest) = some rest := by
  have h := someDigits_append hne hdigits hrest
  cases digits with
  | nil => contradiction
  | cons b digits =>
    have hb : b ≠ 48 := fun heq ↦ hhead (by rw [heq, List.head?_cons])
    rw [List.cons_append, intPart, if_neg hb]
    exact h

theorem dropSign_minus (rest : Bytes) : dropSign [45] (45 :: rest) = rest := by
  rw [dropSign, if_pos (by decide)]

/-- No digit is a sign. -/
theorem dropSign_digits {digits : Bytes} (hne : digits ≠ [])
    (hdigits : ∀ b ∈ digits, isDigit b = true) (rest : Bytes) :
    dropSign [45] (digits ++ rest) = digits ++ rest := by
  cases digits with
  | nil => contradiction
  | cons b digits =>
    have hsign : b ∉ [(45 : UInt8)] := fun hmem ↦ by
      have hb := hdigits b List.mem_cons_self
      rw [List.mem_singleton.mp hmem] at hb
      exact absurd hb (by decide)
    rw [List.cons_append, dropSign, if_neg hsign]

theorem fraction_point (rest : Bytes) : fraction (46 :: rest) = someDigits rest := by
  rw [fraction, if_pos rfl]

/-- Other bytes end a number or a word. -/
theorem takeWhile_token {text r : Bytes} (ht : ∀ b ∈ text, isTokenByte b = true)
    (hr : ∀ b ∈ r.head?, isTokenByte b = false) :
    (text ++ r).takeWhile isTokenByte = text ∧ (text ++ r).dropWhile isTokenByte = r := by
  rw [List.takeWhile_append_of_pos ht, List.dropWhile_append_of_pos ht]
  cases r with
  | nil => simp
  | cons b r => simp [hr b rfl]

/-! ### The parser and the grammar -/

/-- What follows a string is the end of the text. -/
theorem suffix_string (raw rest : Bytes) : rest <:+ QUOTE :: (raw ++ QUOTE :: rest) := by
  have hrest : rest <:+ raw ++ QUOTE :: rest :=
    (List.suffix_cons QUOTE rest).trans (List.suffix_append _ _)
  exact hrest.trans (List.suffix_cons _ _)

/-- What follows is the end of the text. -/
theorem Reads.suffix {l r : Bytes} {node : Node} (h : Reads l node r) : r <:+ l := by
  induction h with
  | scalar => exact List.suffix_append _ _
  | @string raw s _ r => exact suffix_string raw r
  | emptyArray h => exact (List.suffix_cons _ _).trans (h.suffix.trans (List.suffix_cons _ _))
  | array hws _ ih => exact ih.trans (hws.suffix.trans (List.suffix_cons _ _))
  | emptyObject h => exact (List.suffix_cons _ _).trans (h.suffix.trans (List.suffix_cons _ _))
  | object hws _ ih => exact ih.trans (hws.suffix.trans (List.suffix_cons _ _))
  | lastItem _ hend ih => exact (List.suffix_cons _ _).trans (hend.suffix.trans ih)
  | item _ hcomma hws _ ih ih' =>
    exact ih'.trans (hws.suffix.trans ((List.suffix_cons _ _).trans (hcomma.suffix.trans ih)))
  | @lastMember raw k l m n p r v _ hcolon hws _ hend ih =>
    have hm : m <:+ l := (List.suffix_cons _ _).trans hcolon.suffix
    have hp : r <:+ p := (List.suffix_cons _ _).trans hend.suffix
    exact hp.trans (ih.trans (hws.suffix.trans (hm.trans (suffix_string raw l))))
  | @member raw k l m n p q t r v ms _ hcolon hws _ hcomma hws' _ ih ih' =>
    have hm : m <:+ l := (List.suffix_cons _ _).trans hcolon.suffix
    have hq : q <:+ p := (List.suffix_cons _ _).trans hcomma.suffix
    have hr : r <:+ p := ih'.trans (hws'.suffix.trans hq)
    exact hr.trans (ih.trans (hws.suffix.trans (hm.trans (suffix_string raw l))))

private theorem isWs_of_isTokenByte {b : UInt8} (h : isTokenByte b = true) : isWs b = false := by
  rw [← Bool.not_eq_true]
  intro hws
  simp only [isWs, Bool.or_eq_true, beq_iff_eq] at hws
  rcases hws with ((rfl | rfl) | rfl) | rfl <;> exact absurd h (by decide)

/-- No white space comes first. -/
theorem Reads.head {l r : Bytes} {node : Node} (h : Reads l node r) :
    ∀ b ∈ l.head?, isWs b = false := by
  induction h with
  | @scalar text r v h =>
    obtain ⟨hne, htoken⟩ := tokenBytes_of_scalarOf h
    cases text with
    | nil => contradiction
    | cons b text =>
      intro c hc
      cases hc
      exact isWs_of_isTokenByte (htoken b List.mem_cons_self)
  | string | emptyArray | array | emptyObject | object | lastMember | member =>
    intro b hb
    cases hb
    decide
  | lastItem _ _ ih => exact ih
  | item _ _ _ _ ih => exact ih

theorem parseString_eq_some_iff (text s r : Bytes) :
    parseString text = some (s, r) ↔
      ∃ raw, decodeChars raw = some s ∧ text = raw ++ QUOTE :: r := by
  constructor
  · intro h
    obtain ⟨⟨raw, r'⟩, hscan, hdecode⟩ := Option.bind_eq_some_iff.mp h
    obtain ⟨s', hs, heq⟩ := Option.map_eq_some_iff.mp hdecode
    cases heq
    exact ⟨raw, hs, eq_of_scan hscan⟩
  · rintro ⟨raw, hdecode, rfl⟩
    obtain ⟨units, hunits, -⟩ := Option.map_eq_some_iff.mp hdecode
    rw [parseString, scan_append hunits, Option.bind_some]
    dsimp only
    rw [hdecode, Option.map_some]

private theorem reads_of_parseScalar {l r : Bytes} {v : Value}
    (h : parseScalar l = some (v, r)) : Reads l (.value v) r := by
  obtain ⟨v', hv, heq⟩ := Option.map_eq_some_iff.mp h
  cases heq
  have hr : ∀ b ∈ (l.dropWhile isTokenByte).head?, isTokenByte b = false := fun b hb ↦ by
    have hnot := List.head?_dropWhile_not isTokenByte l
    rw [Option.mem_def.mp hb] at hnot
    simpa using hnot
  have hreads := Reads.scalar hv hr
  rwa [List.takeWhile_append_dropWhile] at hreads

/-- What the parser reads is in the grammar. -/
theorem reads_of_parse (fuel : Nat) :
    (∀ l v r, parseValue fuel l = some (v, r) → Reads l (.value v) r) ∧
      (∀ l vs r, parseItems fuel l = some (vs, r) → Reads l (.items vs) r) ∧
      ∀ l ms r, parseMembers fuel l = some (ms, r) → Reads l (.members ms) r := by
  induction fuel with
  | zero => simp [parseValue, parseItems, parseMembers]
  | succ fuel ih =>
    obtain ⟨ihValue, ihItems, ihMembers⟩ := ih
    refine ⟨?_, ?_, ?_⟩
    · intro l v r h
      cases l with
      | nil => cases h
      | cons b l =>
        rw [parseValue] at h
        split at h
        · next hb =>
          obtain ⟨⟨s, r'⟩, hstring, heq⟩ := Option.map_eq_some_iff.mp h
          cases heq
          obtain ⟨raw, hraw, rfl⟩ := (parseString_eq_some_iff ..).mp hstring
          exact hb ▸ Reads.string hraw r
        split at h
        · next hb =>
          rw [hb]
          split at h
          · next r' hend =>
            cases h
            exact Reads.emptyArray ((expect_eq_some_iff rfl ..).mp hend)
          · obtain ⟨⟨vs, r'⟩, hitems, heq⟩ := Option.map_eq_some_iff.mp h
            cases heq
            exact Reads.array (ws_skipWs l) (ihItems _ _ _ hitems)
        split at h
        · next hb =>
          rw [hb]
          split at h
          · next r' hend =>
            cases h
            exact Reads.emptyObject ((expect_eq_some_iff rfl ..).mp hend)
          · obtain ⟨⟨ms, r'⟩, hmembers, heq⟩ := Option.map_eq_some_iff.mp h
            cases heq
            exact Reads.object (ws_skipWs l) (ihMembers _ _ _ hmembers)
        · exact reads_of_parseScalar h
    · intro l vs r h
      rw [parseItems] at h
      obtain ⟨⟨v, m⟩, hv, h⟩ := Option.bind_eq_some_iff.mp h
      have hvalue := ihValue _ _ _ hv
      dsimp only at h
      split at h
      · next n hcomma =>
        obtain ⟨⟨vs', r'⟩, hitems, heq⟩ := Option.map_eq_some_iff.mp h
        cases heq
        exact Reads.item hvalue ((expect_eq_some_iff rfl ..).mp hcomma) (ws_skipWs n)
          (ihItems _ _ _ hitems)
      · obtain ⟨r', hend, heq⟩ := Option.map_eq_some_iff.mp h
        cases heq
        exact Reads.lastItem hvalue ((expect_eq_some_iff rfl ..).mp hend)
    · intro l ms r h
      cases l with
      | nil => cases h
      | cons b l =>
        rw [parseMembers] at h
        split at h
        · next hb =>
          obtain ⟨⟨k, m⟩, hkey, hafter⟩ := Option.bind_eq_some_iff.mp h
          obtain ⟨n, hcolon, hafter⟩ := Option.bind_eq_some_iff.mp hafter
          obtain ⟨⟨v, p⟩, hv, hafter⟩ := Option.bind_eq_some_iff.mp hafter
          obtain ⟨raw, hraw, heq⟩ := (parseString_eq_some_iff ..).mp hkey
          have hcolon' := (expect_eq_some_iff rfl ..).mp hcolon
          have hvalue := ihValue _ _ _ hv
          dsimp only at hafter
          rw [hb, heq]
          split at hafter
          · next q hcomma =>
            obtain ⟨⟨ms', r'⟩, hmembers, heq⟩ := Option.map_eq_some_iff.mp hafter
            cases heq
            exact Reads.member hraw hcolon' (ws_skipWs n) hvalue
              ((expect_eq_some_iff rfl ..).mp hcomma) (ws_skipWs q) (ihMembers _ _ _ hmembers)
          · obtain ⟨r', hend, heq⟩ := Option.map_eq_some_iff.mp hafter
            cases heq
            exact Reads.lastMember hraw hcolon' (ws_skipWs n) hvalue
              ((expect_eq_some_iff rfl ..).mp hend)
        · cases h

/-- How many steps the parser needs at most. -/
def Node.steps (l : Bytes) : Node → Nat
  | value _ => 2 * l.length
  | items _ | members _ => 2 * l.length + 1

/-- The parser reads the text so. -/
def Node.Parsed (fuel : Nat) (l r : Bytes) : Node → Prop
  | value v => parseValue fuel l = some (v, r)
  | items vs => parseItems fuel l = some (vs, r)
  | members ms => parseMembers fuel l = some (ms, r)

private theorem parseValue_scalar {text r : Bytes} {v : Value} (h : scalarOf text = some v)
    (hr : ∀ b ∈ r.head?, isTokenByte b = false) (fuel : Nat) :
    parseValue (fuel + 1) (text ++ r) = some (v, r) := by
  obtain ⟨hne, htoken⟩ := tokenBytes_of_scalarOf h
  obtain ⟨htake, hdrop⟩ := takeWhile_token htoken hr
  have hscalar : parseScalar (text ++ r) = some (v, r) := by
    rw [parseScalar, htake, hdrop, h, Option.map_some]
  cases text with
  | nil => contradiction
  | cons b text =>
    have hb := htoken b List.mem_cons_self
    have hother : ∀ c, isTokenByte c = false → b ≠ c := fun c hc heq ↦ by
      rw [heq, hc] at hb
      cases hb
    rw [List.cons_append, parseValue, if_neg (hother _ (by decide)), if_neg (hother _ (by decide)),
      if_neg (hother _ (by decide))]
    exact hscalar

/-- An array or object that is not empty does not end at once. -/
private theorem expect_eq_none_of_reads {l m r : Bytes} {node : Node} {c : UInt8} (hws : Ws l m)
    (h : Reads m node r) (hc : m.head? ≠ some c) : expect c l = none := by
  have hskip := hws.skipWs_eq h.head
  unfold expect
  rw [hskip]
  split
  · rfl
  · next b rest =>
    exact if_neg fun heq ↦ hc (by rw [heq, List.head?_cons])

private theorem head_ne_of_reads {l r : Bytes} {node : Node} (h : Reads l node r) :
    l.head? ≠ some 93 ∧ l.head? ≠ some 125 := by
  induction h with
  | @scalar text r v h =>
    obtain ⟨hne, htoken⟩ := tokenBytes_of_scalarOf h
    cases text with
    | nil => contradiction
    | cons b text =>
      have hb := htoken b List.mem_cons_self
      constructor
      · intro heq
        rw [Option.some.inj heq] at hb
        exact absurd hb (by decide)
      · intro heq
        rw [Option.some.inj heq] at hb
        exact absurd hb (by decide)
  | string | emptyArray | array | emptyObject | object | lastMember | member =>
    exact ⟨fun h ↦ absurd (Option.some.inj h) (by decide),
      fun h ↦ absurd (Option.some.inj h) (by decide)⟩
  | lastItem _ _ ih => exact ih
  | item _ _ _ _ ih => exact ih

/-- What the grammar reads the parser reads so too. -/
theorem Reads.parsed {l r : Bytes} {node : Node} (h : Reads l node r) :
    ∀ fuel, node.steps l ≤ fuel → node.Parsed fuel l r := by
  induction h with
  | @scalar text r v h hr =>
    intro fuel hfuel
    have hne := List.length_pos_iff.mpr (tokenBytes_of_scalarOf h).1
    cases fuel with
    | zero =>
      rw [Node.steps, List.length_append] at hfuel
      omega
    | succ fuel => exact parseValue_scalar h hr fuel
  | @string raw s h r =>
    intro fuel hfuel
    cases fuel with
    | zero => cases hfuel
    | succ fuel =>
      have hstring := (parseString_eq_some_iff _ s r).mpr ⟨raw, h, rfl⟩
      rw [Node.Parsed, parseValue, if_pos rfl, hstring, Option.map_some]
  | @emptyArray l r h =>
    intro fuel hfuel
    cases fuel with
    | zero => cases hfuel
    | succ fuel =>
      rw [Node.Parsed, parseValue, if_neg (by decide), if_pos rfl,
        (expect_eq_some_iff rfl ..).mpr h]
  | @array l m r vs hws h ih =>
    intro fuel hfuel
    cases fuel with
    | zero => cases hfuel
    | succ fuel =>
      have hm := hws.suffix.length_le
      have hitems : parseItems fuel m = some (vs, r) := ih fuel (by
        simp only [Node.steps, List.length_cons] at hfuel ⊢
        omega)
      rw [Node.Parsed, parseValue, if_neg (by decide), if_pos rfl,
        expect_eq_none_of_reads hws h (head_ne_of_reads h).1, hws.skipWs_eq h.head]
      dsimp only
      rw [hitems, Option.map_some]
  | @emptyObject l r h =>
    intro fuel hfuel
    cases fuel with
    | zero => cases hfuel
    | succ fuel =>
      rw [Node.Parsed, parseValue, if_neg (by decide), if_neg (by decide), if_pos rfl,
        (expect_eq_some_iff rfl ..).mpr h]
  | @object l m r ms hws h ih =>
    intro fuel hfuel
    cases fuel with
    | zero => cases hfuel
    | succ fuel =>
      have hm := hws.suffix.length_le
      have hmembers : parseMembers fuel m = some (ms, r) := ih fuel (by
        simp only [Node.steps, List.length_cons] at hfuel ⊢
        omega)
      rw [Node.Parsed, parseValue, if_neg (by decide), if_neg (by decide), if_pos rfl,
        expect_eq_none_of_reads hws h (head_ne_of_reads h).2, hws.skipWs_eq h.head]
      dsimp only
      rw [hmembers, Option.map_some]
  | @lastItem l m r v h hend ih =>
    intro fuel hfuel
    cases fuel with
    | zero => cases hfuel
    | succ fuel =>
      have hvalue : parseValue fuel l = some (v, m) := ih fuel (by
        simp only [Node.steps] at hfuel ⊢
        omega)
      rw [Node.Parsed, parseItems, hvalue, Option.bind_some]
      dsimp only
      rw [expect_eq_none rfl (by decide) hend, (expect_eq_some_iff rfl ..).mpr hend]
      rfl
  | @item l m n p r v vs h hcomma hws hrest ih ih' =>
    intro fuel hfuel
    cases fuel with
    | zero => cases hfuel
    | succ fuel =>
      have hm := h.suffix.length_le
      have hn := hcomma.suffix.length_le
      have hp := hws.suffix.length_le
      rw [List.length_cons] at hn
      have hvalue : parseValue fuel l = some (v, m) := ih fuel (by
        simp only [Node.steps] at hfuel ⊢
        omega)
      have hitems : parseItems fuel p = some (vs, r) := ih' fuel (by
        simp only [Node.steps] at hfuel ⊢
        omega)
      rw [Node.Parsed, parseItems, hvalue, Option.bind_some]
      dsimp only
      rw [(expect_eq_some_iff rfl ..).mpr hcomma]
      dsimp only
      rw [hws.skipWs_eq hrest.head, hitems, Option.map_some]
  | @lastMember raw k l m n p r v hk hcolon hws h hend ih =>
    intro fuel hfuel
    cases fuel with
    | zero => cases hfuel
    | succ fuel =>
      have hkey := (parseString_eq_some_iff _ k l).mpr ⟨raw, hk, rfl⟩
      have hl := hcolon.suffix.length_le
      have hn := hws.suffix.length_le
      have hvalue : parseValue fuel n = some (v, p) := ih fuel (by
        simp only [Node.steps, List.length_cons, List.length_append] at hfuel hl ⊢
        omega)
      rw [Node.Parsed, parseMembers, if_pos rfl, hkey, Option.bind_some]
      dsimp only
      rw [(expect_eq_some_iff rfl ..).mpr hcolon, Option.bind_some, hws.skipWs_eq h.head, hvalue,
        Option.bind_some]
      dsimp only
      rw [expect_eq_none rfl (by decide) hend, (expect_eq_some_iff rfl ..).mpr hend]
      rfl
  | @member raw k l m n p q t r v ms hk hcolon hws h hcomma hws' hrest ih ih' =>
    intro fuel hfuel
    cases fuel with
    | zero => cases hfuel
    | succ fuel =>
      have hkey := (parseString_eq_some_iff _ k l).mpr ⟨raw, hk, rfl⟩
      have hl := hcolon.suffix.length_le
      have hn := hws.suffix.length_le
      have hp := h.suffix.length_le
      have hq := hcomma.suffix.length_le
      have ht := hws'.suffix.length_le
      simp only [Node.steps, List.length_cons, List.length_append] at hfuel hl hq
      have hvalue : parseValue fuel n = some (v, p) := ih fuel (by
        simp only [Node.steps]
        omega)
      have hmembers : parseMembers fuel t = some (ms, r) := ih' fuel (by
        simp only [Node.steps]
        omega)
      rw [Node.Parsed, parseMembers, if_pos rfl, hkey, Option.bind_some]
      dsimp only
      rw [(expect_eq_some_iff rfl ..).mpr hcolon, Option.bind_some, hws.skipWs_eq h.head, hvalue,
        Option.bind_some]
      dsimp only
      rw [(expect_eq_some_iff rfl ..).mpr hcomma]
      dsimp only
      rw [hws'.skipWs_eq hrest.head, hmembers, Option.map_some]

/-- The value of a document. -/
theorem parse_eq_some_iff (doc : Bytes) (v : Value) :
    parse doc = some v ↔
      isUtf8 doc = true ∧ ∃ l r, Ws doc l ∧ Reads l (.value v) r ∧ Ws r [] := by
  unfold parse
  constructor
  · intro h
    split at h
    · next hutf8 =>
      obtain ⟨⟨v', r⟩, hvalue, hend⟩ := Option.bind_eq_some_iff.mp h
      dsimp only at hend
      split at hend
      · next hr =>
        cases hend
        exact ⟨hutf8, skipWs doc, r, ws_skipWs doc, (reads_of_parse _).1 _ _ _ hvalue,
          hr ▸ ws_skipWs r⟩
      · cases hend
    · cases h
  · rintro ⟨hutf8, l, r, hws, hreads, hend⟩
    have hl := hws.suffix.length_le
    have hvalue : parseValue (2 * doc.length) l = some (v, r) :=
      hreads.parsed _ (by rw [Node.steps]; omega)
    rw [if_pos hutf8, hws.skipWs_eq hreads.head, hvalue, Option.bind_some]
    exact if_pos (hend.skipWs_eq fun _ h ↦ nomatch h)

end Kitty.Base.Json
