import Kitty.Base.JsonCompact
import Kitty.CJson.Documents
import Kitty.CJson.Printer

/-!
# Printing and parsing in cJSON

What cJSON prints is a JSON document, with white space or without it. Parsed again, it is the item
that was printed.
-/

namespace Kitty.CJson

open Kitty.Base
open Kitty.Base.Json (QUOTE BACKSLASH Ws Reads unescape joinUnits decodeChars hexNumber isTokenByte)

/-! ### Strings -/

/-- What a byte is escaped to: itself, a backslash and a letter, or four digits. -/
private theorem escapeByte_cases {b : UInt8} (hb : b ≠ NUL) :
    ((escapeByte b).1 = [b] ∧ b ≠ BACKSLASH ∧ ¬ (b < 0x20 ∨ b = QUOTE)) ∨
      (∃ c, (escapeByte b).1 = [BACKSLASH, c] ∧ c ≠ 117 ∧ Json.escaped c = some b ∧ b ≤ 0x7F ∧
        c ≤ 0x7F) ∨
      ∃ h l, (escapeByte b).1 = [BACKSLASH, 117, 48, 48, h, l] ∧
        [48, 48, h, l].all isXDigit = true ∧ hexNumber [48, 48, h, l] = b.toNat ∧ b ≤ 0x7F ∧
        h ≤ 0x7F ∧ l ≤ 0x7F := by
  have hall : ((List.range 256).all fun n ↦
      let b := UInt8.ofNat n
      let c := (escapeByte b).1.getD 1 0
      let h := (escapeByte b).1.getD 4 0
      let l := (escapeByte b).1.getD 5 0
      decide (b = NUL ∨ ((escapeByte b).1 = [b] ∧ b ≠ BACKSLASH ∧ ¬ (b < 0x20 ∨ b = QUOTE)) ∨
        ((escapeByte b).1 = [BACKSLASH, c] ∧ c ≠ 117 ∧ Json.escaped c = some b ∧ b ≤ 0x7F ∧
          c ≤ 0x7F) ∨
        ((escapeByte b).1 = [BACKSLASH, 117, 48, 48, h, l] ∧
          [48, 48, h, l].all isXDigit = true ∧ hexNumber [48, 48, h, l] = b.toNat ∧ b ≤ 0x7F ∧
          h ≤ 0x7F ∧ l ≤ 0x7F))) = true := by decide +kernel
  have hbyte := List.all_eq_true.mp hall b.toNat (List.mem_range.mpr b.toNat_lt)
  simp only [UInt8.ofNat_toNat] at hbyte
  rcases of_decide_eq_true hbyte with hnul | hplain | hescape | hdigits
  · exact absurd hnul hb
  · exact Or.inl hplain
  · exact Or.inr (Or.inl ⟨_, hescape⟩)
  · exact Or.inr (Or.inr ⟨_, _, hdigits⟩)

/-- What is printed for a string is read as the string. -/
private theorem decodeChars_escape {s : Bytes} (hs : NUL ∉ s) :
    decodeChars (s.flatMap fun b ↦ (escapeByte b).1) = some s := by
  induction s with
  | nil => rfl
  | cons b s ih =>
    rw [List.mem_cons, not_or] at hs
    obtain ⟨units, hunits, hjoin⟩ := Option.map_eq_some_iff.mp (ih hs.2)
    rw [List.flatMap_cons, decodeChars]
    rcases escapeByte_cases fun h ↦ hs.1 h.symm with
      ⟨heq, hne, hplain⟩ | ⟨c, heq, hc, hescape, -⟩ | ⟨h, l, heq, hdigits, hnumber, hlow, -⟩
    · rw [heq, List.singleton_append, Json.unescape_cons hne, if_neg hplain, hunits]
      exact congrArg (fun text ↦ some (b :: text)) hjoin
    · rw [heq, List.cons_append, List.singleton_append, Json.unescape_letter hc hescape, hunits]
      exact congrArg (fun text ↦ some (b :: text)) hjoin
    · have hlt : b.toNat < 0x80 := Nat.lt_succ_of_le (UInt8.le_iff_toNat_le.mp hlow)
      have hunit : ¬ IsSurrogate b.toNat := fun hsurrogate ↦ by
        have hle := hsurrogate.1
        omega
      rw [heq]
      change (unescape (BACKSLASH :: 117 :: 48 :: 48 :: h :: l ::
        s.flatMap fun b ↦ (escapeByte b).1)).map joinUnits = _
      rw [Json.unescape_unit hdigits, hunits, hnumber, Option.map_some, Option.map_some,
        joinUnits_unit hunit, utf8Encode, if_pos hlt, UInt8.ofNat_toNat]
      exact congrArg (fun text ↦ some (b :: text)) hjoin

/-- Escaping keeps UTF-8. -/
private theorem utf8After_escape {s : Bytes} (hs : NUL ∉ s) {ranges : List (UInt8 × UInt8)}
    (hranges : ∀ range ∈ ranges, 0x80 ≤ range.1) :
    utf8After ranges (s.flatMap fun b ↦ (escapeByte b).1) = utf8After ranges s := by
  induction s generalizing ranges with
  | nil => rfl
  | cons b s ih =>
    rw [List.mem_cons, not_or] at hs
    have ascii : ∀ text : Bytes, (∀ c ∈ text, c ≤ 0x7F) → text ≠ [] → b ≤ 0x7F →
        utf8After ranges (text ++ s.flatMap fun b ↦ (escapeByte b).1) =
          utf8After ranges (b :: s) := by
      intro text htext hne hb
      cases ranges with
      | nil =>
        have hrest := ih hs.2 (List.forall_mem_nil _)
        exact (isUtf8_append_of_ascii htext _).trans (hrest.trans (isUtf8_cons_of_le hb _).symm)
      | cons range ranges =>
        have hlow : ∀ c : UInt8, c ≤ 0x7F → ¬ range.1 ≤ c := fun c hc hle ↦ by
          have hrange := UInt8.le_trans (hranges range List.mem_cons_self) (UInt8.le_trans hle hc)
          exact absurd hrange (by decide)
        cases text with
        | nil => exact absurd rfl hne
        | cons c text =>
          have hc := hlow c (htext c List.mem_cons_self)
          rw [List.cons_append, utf8After, utf8After, decide_eq_false hc,
            decide_eq_false (hlow b hb)]
          rfl
    rw [List.flatMap_cons]
    rcases escapeByte_cases fun h ↦ hs.1 h.symm with
      ⟨heq, -⟩ | ⟨c, heq, -, -, hb, hc⟩ | ⟨h, l, heq, -, -, hb, hh, hl⟩
    · rw [heq, List.singleton_append]
      cases ranges with
      | nil =>
        rw [utf8After, utf8After]
        split
        · rfl
        · next hcontinue => exact ih hs.2 (le_of_continuations hcontinue)
      | cons range ranges =>
        rw [utf8After, utf8After, ih hs.2 fun r hr ↦ hranges r (List.mem_cons_of_mem _ hr)]
    · refine ascii _ ?_ (by rw [heq]; exact List.cons_ne_nil _ _) hb
      rw [heq]
      exact List.forall_mem_cons.mpr ⟨by decide, List.forall_mem_singleton.mpr hc⟩
    · refine ascii _ ?_ (by rw [heq]; exact List.cons_ne_nil _ _) hb
      rw [heq]
      simp only [List.forall_mem_cons]
      exact ⟨by decide, by decide, by decide, by decide, hh, hl, List.forall_mem_nil _⟩

variable {D : Type} [CDouble D]

/-! ### The value of an item -/

mutual

/-- The value that an item is printed as. A number that is not finite has none. -/
def valueOf : Item D → Json.Value
  | .null => .null
  | .bool b => .bool b
  | .number d => if CDouble.finite d then .number (numberText d) else .null
  | .string s => .string (cstr s)
  | .array items => .array (valuesOf items)
  | .object members => .object (memberValuesOf members)

/-- The values of the items of an array. -/
def valuesOf : List (Item D) → List Json.Value
  | [] => []
  | item :: items => valueOf item :: valuesOf items

/-- The names and values of the members of an object. -/
def memberValuesOf : List (Bytes × Item D) → List (Bytes × Json.Value)
  | [] => []
  | (name, item) :: members => (cstr name, valueOf item) :: memberValuesOf members

end

private theorem scalarOf_numberText [LawfulCDouble D] (d : D) :
    Json.scalarOf (numberText d) = some (valueOf (.number d)) := by
  rw [valueOf]
  rcases numberText_cases d with ⟨hnull, hinf⟩ | ⟨hfinite, h15 | h17⟩
  · rw [hnull, hinf, Json.scalarOf, if_pos rfl]
    rfl
  · rw [hfinite, h15, Json.scalarOf_isNumber (LawfulCDouble.isNumber_print15 hfinite), if_pos rfl]
  · rw [hfinite, h17, Json.scalarOf_isNumber (LawfulCDouble.isNumber_print17 hfinite), if_pos rfl]

private theorem ws_of_forall {w rest : Bytes} (h : ∀ b ∈ w, Json.isWs b = true) :
    Ws (w ++ rest) rest := ⟨w, rfl, h⟩

private theorem ws_self (text : Bytes) : Ws text text :=
  ws_of_forall (w := []) (List.forall_mem_nil _)

/-- The layout of the formatted text is white space. -/
private theorem isWs_tabs (format : Bool) (depth : Nat) :
    ∀ b ∈ (if format then tabs depth else []), Json.isWs b = true := by
  split
  · intro b hb
    rw [List.eq_of_mem_replicate hb]
    rfl
  · exact List.forall_mem_nil _

private theorem isWs_line (format : Bool) :
    ∀ b ∈ (if format then [LF] else []), Json.isWs b = true := by
  split
  · exact List.forall_mem_singleton.mpr rfl
  · exact List.forall_mem_nil _

/-- White space stands before white space. -/
private theorem ws_cons {w text rest : Bytes} (h : Ws text rest)
    (hw : ∀ b ∈ w, Json.isWs b = true) : Ws (w ++ text) rest := by
  obtain ⟨w', rfl, hw'⟩ := h
  exact ⟨w ++ w', (List.append_assoc ..).symm, List.forall_mem_append.mpr ⟨hw, hw'⟩⟩

/-- No number or word goes on with white space. -/
private theorem head_of_ws {text rest : Bytes} {c : UInt8} (h : Ws text (c :: rest))
    (hc : isTokenByte c = false) : ∀ b ∈ text.head?, isTokenByte b = false := by
  obtain ⟨w, rfl, hw⟩ := h
  cases w with
  | nil =>
    intro b hb
    cases hb
    exact hc
  | cons b w =>
    intro b' hb
    cases hb
    have hws := hw b List.mem_cons_self
    simp only [Json.isWs, Bool.or_eq_true, beq_iff_eq] at hws
    rcases hws with ((rfl | rfl) | rfl) | rfl <;> decide

mutual

/-- The text of an item is read as its value, before what belongs to no number or word. -/
private theorem reads_render [LawfulCDouble D] (format : Bool) :
    ∀ (item : Item D) (depth : Nat) {r : Bytes}, (∀ b ∈ r.head?, isTokenByte b = false) →
    Reads (render format depth item ++ r) (.value (valueOf item)) r
  | .null, _, _, hr => by
    rw [render, valueOf]
    exact .scalar (by rw [Json.scalarOf, if_pos rfl]) hr
  | .bool false, _, _, hr => by
    rw [render, valueOf]
    exact .scalar (by rw [Json.scalarOf, if_neg (by decide), if_neg (by decide), if_pos rfl]) hr
  | .bool true, _, _, hr => by
    rw [render, valueOf]
    exact .scalar (by rw [Json.scalarOf, if_neg (by decide), if_pos rfl]) hr
  | .number d, _, _, hr => by
    rw [render]
    exact .scalar (scalarOf_numberText d) hr
  | .string s, _, r, _ => by
    rw [render, valueOf, renderString, List.cons_append, List.cons_append, List.append_assoc]
    exact .string (decodeChars_escape (nul_not_mem_cstr s)) r
  | .array [], _, r, _ => by
    rw [render, valueOf, renderElements, valuesOf]
    exact .emptyArray (ws_self (93 :: r))
  | .array (item :: items), depth, r, _ => by
    have hitems := reads_renderElements format (item :: items) (depth + 1) (List.cons_ne_nil _ _) r
    rw [render, valueOf, List.cons_append, List.cons_append, List.append_assoc]
    exact .array (ws_self _) hitems
  | .object [], depth, r, _ => by
    rw [render, valueOf, renderMembers, memberValuesOf, List.append_nil, List.cons_append,
      List.cons_append, List.append_assoc]
    exact .emptyObject (ws_of_forall (List.forall_mem_append.mpr
      ⟨isWs_line format, isWs_tabs format depth⟩))
  | .object (member :: members), depth, r, _ => by
    have htail : Ws ((if format then tabs depth else []) ++ 125 :: r) (125 :: r) :=
      ws_of_forall (isWs_tabs format depth)
    obtain ⟨m, hws, hmembers⟩ := reads_renderMembers format (member :: members) (depth + 1)
      (List.cons_ne_nil _ _) htail
    rw [render, valueOf, List.cons_append, List.cons_append, List.append_assoc, List.append_assoc,
      List.append_assoc]
    exact .object (ws_cons hws (isWs_line format)) hmembers

/-- So are the elements of an array, up to its end. -/
private theorem reads_renderElements [LawfulCDouble D] (format : Bool) :
    ∀ (items : List (Item D)) (depth : Nat), items ≠ [] → ∀ r : Bytes,
    Reads (renderElements format depth items ++ 93 :: r) (.items (valuesOf items)) r
  | [], _, hne, _ => absurd rfl hne
  | [item], depth, _, r => by
    have hend : ∀ b ∈ (93 :: r).head?, isTokenByte b = false := fun b hb ↦ by
      cases hb
      decide
    have hitem := reads_render format item depth hend
    simp only [renderElements, valuesOf, List.isEmpty_nil, if_true, List.append_nil]
    exact .lastItem hitem (ws_self _)
  | item :: next :: items, depth, _, r => by
    have hitems := reads_renderElements format (next :: items) depth (List.cons_ne_nil _ _) r
    have hcomma : ∃ w, (if format then [44, 32] else [44]) = 44 :: w ∧
        ∀ b ∈ w, Json.isWs b = true := by
      cases format with
      | true => exact ⟨[32], rfl, List.forall_mem_singleton.mpr rfl⟩
      | false => exact ⟨[], rfl, List.forall_mem_nil _⟩
    obtain ⟨w, hw, hblank⟩ := hcomma
    rw [renderElements, valuesOf, List.isEmpty_cons, if_neg Bool.false_ne_true, hw,
      List.append_assoc, List.append_assoc, List.cons_append]
    refine .item (reads_render format item depth ?_) (ws_self _) (ws_of_forall hblank) hitems
    intro b hb
    cases hb
    decide

/-- So are the members of an object. -/
private theorem reads_renderMembers [LawfulCDouble D] (format : Bool) :
    ∀ (members : List (Bytes × Item D)) (depth : Nat), members ≠ [] → ∀ {tail r : Bytes},
    Ws tail (125 :: r) → ∃ m, Ws (renderMembers format depth members ++ tail) m ∧
      Reads m (.members (memberValuesOf members)) r
  | [], _, hne, _, _, _ => absurd rfl hne
  | (name, item) :: members, depth, _, tail, r, htail => by
    have hcolon : ∃ w, (if format then [58, 9] else [58]) = 58 :: w ∧
        ∀ b ∈ w, Json.isWs b = true := by
      cases format with
      | true => exact ⟨[9], rfl, List.forall_mem_singleton.mpr rfl⟩
      | false => exact ⟨[], rfl, List.forall_mem_nil _⟩
    obtain ⟨w, hw, hblank⟩ := hcolon
    have hname := decodeChars_escape (nul_not_mem_cstr name)
    refine ⟨renderString name ++ (58 :: w ++ (render format depth item ++
      (((if members.isEmpty then [] else [44]) ++ if format then [LF] else []) ++
        (renderMembers format depth members ++ tail)))), ?_, ?_⟩
    · rw [renderMembers, hw]
      simp only [List.append_assoc]
      exact ws_of_forall (isWs_tabs format depth)
    · rw [memberValuesOf, renderString, List.cons_append, List.cons_append, List.append_assoc]
      cases members with
      | nil =>
        have hend : Ws ((if format then [LF] else []) ++ tail) (125 :: r) :=
          ws_cons htail (isWs_line format)
        rw [renderMembers, memberValuesOf, List.isEmpty_nil, if_pos rfl, List.nil_append,
          List.nil_append]
        exact .lastMember hname (ws_self _) (ws_of_forall hblank)
          (reads_render format item depth (head_of_ws hend (by decide))) hend
      | cons next members =>
        obtain ⟨m, hws, hmembers⟩ :=
          reads_renderMembers format (next :: members) depth (List.cons_ne_nil _ _) htail
        have hline := ws_cons hws (isWs_line format)
        rw [List.isEmpty_cons, if_neg Bool.false_ne_true, List.append_assoc, List.cons_append,
          List.nil_append]
        refine .member hname (ws_self _) (ws_of_forall hblank) (reads_render format item depth ?_)
          (ws_self _) hline hmembers
        exact head_of_ws (ws_self _) (by decide)

end

/-! ### The item of the value -/

private theorem numberOf_numberText [LawfulCDouble D] {d : D} (h : CDouble.finite d = true) :
    (numberOf (numberText d) : Option D) = some d := by
  have hlen := (numberText_fits d).1
  rw [numberOf, if_pos (by omega), numberText, if_neg (by simp [h])]
  cases hread : (CDouble.strtod (CDouble.print15 d) : Option (D × Nat)) with
  | none =>
    simp only [LawfulCDouble.strtod_print17 h, Option.bind_some, if_true]
  | some p =>
    obtain ⟨test, used⟩ := p
    simp only
    split
    · next hsame =>
      obtain ⟨rfl, rfl⟩ := LawfulCDouble.strtod_print15 h hread hsame
      simp only [hread, Option.bind_some, if_true]
    · simp only [LawfulCDouble.strtod_print17 h, Option.bind_some, if_true]

/-- A string that cJSON gives back. -/
def IsText (s : Bytes) : Prop := NUL ∉ s ∧ isUtf8 s = true

private theorem textOf_cstr {s : Bytes} (h : IsText s) : textOf (cstr s) = some s := by
  rw [cstr_of_nul_not_mem h.1, textOf, if_pos h.2]

mutual

private theorem itemOf_valueOf [LawfulCDouble D] : ∀ {item : Item D},
    item.All (fun d ↦ CDouble.finite d = true) IsText → itemOf (valueOf item) = some item
  | .null, _ => by rw [valueOf, itemOf]
  | .bool b, _ => by rw [valueOf, itemOf]
  | .number d, h => by
    rw [Item.All] at h
    rw [valueOf, if_pos h, itemOf, numberOf_numberText h, Option.map_some]
  | .string s, h => by
    rw [Item.All] at h
    rw [valueOf, itemOf, textOf_cstr h, Option.map_some]
  | .array items, h => by
    rw [Item.All] at h
    rw [valueOf, itemOf, itemsOf_valuesOf h, Option.map_some]
  | .object members, h => by
    rw [Item.All] at h
    rw [valueOf, itemOf, membersOf_memberValuesOf h, Option.map_some]

private theorem itemsOf_valuesOf [LawfulCDouble D] : ∀ {items : List (Item D)},
    itemsAll (fun d ↦ CDouble.finite d = true) IsText items → itemsOf (valuesOf items) = some items
  | [], _ => by rw [valuesOf, itemsOf]
  | item :: items, h => by
    rw [itemsAll] at h
    rw [valuesOf, itemsOf, itemOf_valueOf h.1, Option.bind_some, itemsOf_valuesOf h.2,
      Option.map_some]

private theorem membersOf_memberValuesOf [LawfulCDouble D] : ∀ {members : List (Bytes × Item D)},
    membersAll (fun d ↦ CDouble.finite d = true) IsText members →
    membersOf (memberValuesOf members) = some members
  | [], _ => by rw [memberValuesOf, membersOf]
  | (name, item) :: members, h => by
    rw [membersAll] at h
    rw [memberValuesOf, membersOf, textOf_cstr h.1, Option.bind_some, itemOf_valueOf h.2.1,
      Option.bind_some, membersOf_memberValuesOf h.2.2, Option.map_some]

end

/-! ### UTF-8 -/

private theorem isUtf8_layout (format : Bool) (depth : Nat) :
    isUtf8 (if format then tabs depth else []) = true := by
  refine isUtf8_ascii (List.all_eq_true.mpr fun b hb ↦ ?_)
  cases format with
  | true =>
    rw [List.eq_of_mem_replicate hb]
    rfl
  | false => exact absurd hb List.not_mem_nil

private theorem isUtf8_renderString {s : Bytes} (h : isUtf8 (cstr s) = true) :
    isUtf8 (renderString s) = true := by
  have hescape := utf8After_escape (nul_not_mem_cstr s) (List.forall_mem_nil _)
  rw [renderString, List.cons_append, isUtf8_cons_of_le (by decide)]
  exact isUtf8_append (hescape.trans h) (by decide)

private theorem isUtf8_numberText [LawfulCDouble D] (d : D) : isUtf8 (numberText d) = true :=
  Json.isUtf8_token (Json.tokenBytes_of_scalarOf (scalarOf_numberText d)).2

mutual

private theorem isUtf8_render [LawfulCDouble D] (format : Bool) :
    ∀ {item : Item D} (depth : Nat), item.All (fun _ ↦ True) (fun s ↦ isUtf8 (cstr s) = true) →
    isUtf8 (render format depth item) = true
  | .null, _, _ => by rw [render]; decide
  | .bool false, _, _ => by rw [render]; decide
  | .bool true, _, _ => by rw [render]; decide
  | .number d, _, _ => by rw [render]; exact isUtf8_numberText d
  | .string s, _, h => by
    rw [Item.All] at h
    rw [render]
    exact isUtf8_renderString h
  | .array items, depth, h => by
    rw [Item.All] at h
    rw [render]
    exact isUtf8_append (isUtf8_append (a := [91]) (by decide)
      (isUtf8_renderElements format (depth + 1) h)) (by decide)
  | .object members, depth, h => by
    rw [Item.All] at h
    rw [render]
    exact isUtf8_append (isUtf8_append (isUtf8_append (a := 123 :: if format then [LF] else [])
      (by cases format <;> decide) (isUtf8_renderMembers format (depth + 1) h))
        (isUtf8_layout format depth)) (by decide)

private theorem isUtf8_renderElements [LawfulCDouble D] (format : Bool) :
    ∀ {items : List (Item D)} (depth : Nat),
    itemsAll (fun _ ↦ True) (fun s ↦ isUtf8 (cstr s) = true) items →
    isUtf8 (renderElements format depth items) = true
  | [], _, _ => by rw [renderElements]; rfl
  | item :: items, depth, h => by
    rw [itemsAll] at h
    rw [renderElements]
    refine isUtf8_append (isUtf8_append (isUtf8_render format depth h.1) ?_)
      (isUtf8_renderElements format depth h.2)
    cases items.isEmpty <;> cases format <;> decide

private theorem isUtf8_renderMembers [LawfulCDouble D] (format : Bool) :
    ∀ {members : List (Bytes × Item D)} (depth : Nat),
    membersAll (fun _ ↦ True) (fun s ↦ isUtf8 (cstr s) = true) members →
    isUtf8 (renderMembers format depth members) = true
  | [], _, _ => by rw [renderMembers]; rfl
  | (name, item) :: members, depth, h => by
    rw [membersAll] at h
    rw [renderMembers]
    refine isUtf8_append (isUtf8_append (isUtf8_append (isUtf8_append (isUtf8_append
      (isUtf8_layout format depth) (isUtf8_renderString h.1)) ?_)
        (isUtf8_render format depth h.2.1)) ?_) (isUtf8_renderMembers format depth h.2.2)
    · cases format <;> decide
    · cases members.isEmpty <;> cases format <;> decide

end

/-! ### Documents -/

theorem parse_render [LawfulCDouble D] {item : Item D}
    (h : item.All (fun _ ↦ True) (fun s ↦ isUtf8 (cstr s) = true)) (format : Bool) :
    Json.parse (render format 0 item) = some (valueOf item) := by
  have hreads := reads_render format item 0 (r := []) fun b hb ↦ nomatch hb
  have hutf8 := isUtf8_render format 0 h
  rw [List.append_nil] at hreads
  exact (Json.parse_eq_some_iff _ _).mpr ⟨hutf8, _, [], ws_self _, hreads, ws_self _⟩

/-- What `cJSON_Print` and `cJSON_PrintUnformatted` return is a JSON document, which has the value
of the item. -/
theorem serves_print_json [LawfulCDouble D] (fresh : Nat → Nat → UInt8) {item : Item D}
    (h : item.All (fun _ ↦ True) (fun s ↦ isUtf8 (cstr s) = true)) (format : Bool) :
    Serves ((render format 0 item).length + 2 ≤ intMax)
      (fun printed ↦ Json.parse (cstr printed) = some (valueOf item)) (print fresh item format) :=
  (serves_print fresh item format).1.mono fun printed hprinted ↦ by
    rw [hprinted.1, parse_render h]

/-- Parsed again, what they return is the item. -/
theorem serves_print_parse [LawfulCDouble D] (fresh : Nat → Nat → UInt8) {item : Item D}
    (h : item.All (fun d ↦ CDouble.finite d = true) IsText) (hnesting : item.nesting ≤ nestingLimit)
    (format : Bool) :
    Serves ((render format 0 item).length + 2 ≤ intMax)
      (fun printed ↦ cJSONParse printed = some item) (print fresh item format) :=
  (serves_print fresh item format).1.mono fun printed hprinted ↦ by
    have hreads := reads_render format item 0 (r := []) fun b hb ↦ nomatch hb
    rw [List.append_nil] at hreads
    obtain ⟨parseEnd, hparse⟩ := parseWithOpts_of_reads (ws_self _) hreads (ws_self [])
      (itemOf_valueOf h) hnesting false
    have hof : ParseBuffer.of printed = ParseBuffer.of (render format 0 item) := by
      rw [ParseBuffer.of, ParseBuffer.of, ← hprinted.1, cstr_of_nul_not_mem (nul_not_mem_cstr _)]
    rw [cJSONParse, cJSONParseWithOpts, hof, ← cJSONParseWithOpts, hparse]

/-- An object with an array in it, a line feed and a quote. -/
def report : Item Int :=
  .object [(lit "counts", .array [.number 12, .number (-7), .null]),
    (lit "name", .string (lit "a\n\"b"))]

private theorem report_all : report.All (fun d ↦ CDouble.finite d = true) IsText := by
  simp only [report, Item.All, membersAll, itemsAll, IsText, and_true]
  decide

theorem serves_print_json_report :
    Serves ((render true 0 report).length + 2 ≤ intMax)
      (fun printed ↦ Json.parse (cstr printed) = some (valueOf report))
      (print (fun _ _ ↦ 0xFF) report true) := by
  have hall : report.All (fun _ ↦ True) (fun s ↦ isUtf8 (cstr s) = true) := by
    simp only [report, Item.All, membersAll, itemsAll, and_true]
    decide
  exact @serves_print_json Int _ _ (fun _ _ ↦ 0xFF) report hall true

theorem serves_print_parse_report :
    Serves ((render true 0 report).length + 2 ≤ intMax)
      (fun printed ↦ cJSONParse printed = some report) (print (fun _ _ ↦ 0xFF) report true) := by
  have hnesting : report.nesting ≤ nestingLimit := by
    simp only [report, Item.nesting, membersNesting, itemsNesting]
    decide
  exact @serves_print_parse Int _ _ (fun _ _ ↦ 0xFF) report report_all hnesting true

end Kitty.CJson
