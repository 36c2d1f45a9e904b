import Kitty.CJson.Item
import Kitty.CJson.Strings

/-!
# The parser of cJSON

`src/ap2p/cJSON.c:265–345` and `:929–1560`. The parser reads a buffer that ends with the zero byte
of the text, which is white space to it. It stays in this buffer, returns for every text, and gives
no item that is nested deeper than `CJSON_NESTING_LIMIT`.
-/

namespace Kitty.CJson

open Kitty.Base
open Kitty.Base.Json (QUOTE)

/-- `CJSON_NESTING_LIMIT` -/
def nestingLimit : Nat := 1000

namespace ParseBuffer

/-- `can_access_at_index(buffer, 0)`, and the byte there is this one. -/
def isAt (buffer : ParseBuffer) (b : UInt8) : Bool := buffer.content[buffer.offset]? == some b

/-- `can_read`, and `strncmp` finds the word. -/
def begins (buffer : ParseBuffer) (word : Bytes) : Bool :=
  buffer.offset + word.length ≤ buffer.content.length &&
    (buffer.content.drop buffer.offset).take word.length == word

/-- The offset goes on. -/
def advance (buffer : ParseBuffer) (n : Nat) : ParseBuffer :=
  { buffer with offset := buffer.offset + n }

/-- `buffer_skip_whitespace` -/
def skipWhitespace (buffer : ParseBuffer) : ParseBuffer :=
  let blank := (buffer.content.drop buffer.offset).takeWhile (· ≤ 32)
  let offset := buffer.offset + blank.length
  { buffer with offset := if offset = buffer.content.length then offset - 1 else offset }

end ParseBuffer

/-- A byte that `parse_number` copies. The decimal point is that of the C locale. -/
def isNumberByte (b : UInt8) : Bool :=
  (48 ≤ b && b ≤ 57) || b == 43 || b == 45 || b == 101 || b == 69 || b == 46

variable {D : Type} [CDouble D]

/-- `parse_number` -/
def parseNumber (buffer : ParseBuffer) : Except Stop (Item D × ParseBuffer) :=
  let numberCString := ((buffer.content.drop buffer.offset).take 63).takeWhile isNumberByte
  match CDouble.strtod numberCString with
  | none => .error (.fails buffer.offset)
  | some (number, used) => .ok (.number number, buffer.advance used)

mutual

/-- `parse_value`, with so many steps. -/
def parseValue : Nat → ParseBuffer → Except Stop (Item D × ParseBuffer)
  | 0, _ => .error .unfinished
  | fuel + 1, buffer =>
    if buffer.begins (lit "null") then .ok (.null, buffer.advance 4)
    else if buffer.begins (lit "false") then .ok (.bool false, buffer.advance 5)
    else if buffer.begins (lit "true") then .ok (.bool true, buffer.advance 4)
    else
      match buffer.content[buffer.offset]? with
      | none => .error (.fails buffer.offset)
      | some b =>
        if b = QUOTE then (parseString buffer).map fun (s, buffer) ↦ (.string s, buffer)
        else if b = 45 ∨ 48 ≤ b ∧ b ≤ 57 then parseNumber buffer
        else if b = 91 then parseArray fuel buffer
        else if b = 123 then parseObject fuel buffer
        else .error (.fails buffer.offset)

/-- `parse_array` -/
def parseArray : Nat → ParseBuffer → Except Stop (Item D × ParseBuffer)
  | 0, _ => .error .unfinished
  | fuel + 1, buffer =>
    if nestingLimit ≤ buffer.depth then .error (.fails buffer.offset)
    else do
      let b ← byteAt buffer.content buffer.offset
      if b ≠ 91 then .error (.fails buffer.offset)
      else
        let first := { buffer.advance 1 with depth := buffer.depth + 1 }.skipWhitespace
        if first.isAt 93 then .ok (.array [], { first.advance 1 with depth := first.depth - 1 })
        else if first.content.length ≤ first.offset then .error (.fails (first.offset - 1))
        else do
          let (items, last) ← parseItems fuel { first with offset := first.offset - 1 }
          if last.isAt 93 then
            .ok (.array items, { last.advance 1 with depth := last.depth - 1 })
          else .error (.fails last.offset)

/-- The loop of `parse_array`, from the byte in front of an element on. -/
def parseItems : Nat → ParseBuffer → Except Stop (List (Item D) × ParseBuffer)
  | 0, _ => .error .unfinished
  | fuel + 1, buffer => do
    let (item, behind) ← parseValue fuel (buffer.advance 1).skipWhitespace
    if behind.skipWhitespace.isAt 44 then
      let (items, last) ← parseItems fuel behind.skipWhitespace
      .ok (item :: items, last)
    else .ok ([item], behind.skipWhitespace)

/-- `parse_object` -/
def parseObject : Nat → ParseBuffer → Except Stop (Item D × ParseBuffer)
  | 0, _ => .error .unfinished
  | fuel + 1, buffer =>
    if nestingLimit ≤ buffer.depth then .error (.fails buffer.offset)
    else if ¬ buffer.isAt 123 then .error (.fails buffer.offset)
    else do
      let first := { buffer.advance 1 with depth := buffer.depth + 1 }.skipWhitespace
      if first.isAt 125 then .ok (.object [], { first.advance 1 with depth := first.depth - 1 })
      else if first.content.length ≤ first.offset then .error (.fails (first.offset - 1))
      else do
        let (members, last) ← parseMembers fuel { first with offset := first.offset - 1 }
        if last.isAt 125 then
          .ok (.object members, { last.advance 1 with depth := last.depth - 1 })
        else .error (.fails last.offset)

/-- The loop of `parse_object`, from the byte in front of a name on. -/
def parseMembers : Nat → ParseBuffer → Except Stop (List (Bytes × Item D) × ParseBuffer)
  | 0, _ => .error .unfinished
  | fuel + 1, buffer => do
    let (name, colon) ← parseString (buffer.advance 1).skipWhitespace
    if ¬ colon.skipWhitespace.isAt 58 then .error (.fails colon.skipWhitespace.offset)
    else do
      let (item, behind) ← parseValue fuel (colon.skipWhitespace.advance 1).skipWhitespace
      if behind.skipWhitespace.isAt 44 then
        let (members, last) ← parseMembers fuel behind.skipWhitespace
        .ok ((name, item) :: members, last)
      else .ok ([(name, item)], behind.skipWhitespace)

end

/-- The buffer that a text is parsed from. -/
def ParseBuffer.of (value : Bytes) : ParseBuffer := ⟨cstr value ++ [NUL], 0, 0⟩

/-- `cJSON_ParseWithOpts`: the item and the end of its text, or the position of the error. -/
def cJSONParseWithOpts (value : Bytes) (requireNullTerminated : Bool) :
    Except Stop (Item D × Nat) :=
  let start := ParseBuffer.of value
  let position (offset : Nat) : Nat :=
    if offset < start.content.length then offset else start.content.length - 1
  match parseValue (3 * start.content.length) start.skipWhitespace with
  | .error (.fails offset) => .error (.fails (position offset))
  | .error stop => .error stop
  | .ok (item, behind) =>
    if requireNullTerminated then
      if behind.skipWhitespace.isAt NUL then .ok (item, behind.skipWhitespace.offset)
      else .error (.fails (position behind.skipWhitespace.offset))
    else .ok (item, behind.offset)

/-- `cJSON_Parse` -/
def cJSONParse (value : Bytes) : Option (Item D) :=
  match cJSONParseWithOpts value false with
  | .ok (item, _) => some item
  | .error _ => none

/-! ### Inside the buffer -/

/-- The buffer has this content and can be read at its offset. -/
structure ParseBuffer.Ready (content : Bytes) (buffer : ParseBuffer) : Prop where
  content_eq : buffer.content = content
  lt : buffer.offset < content.length

/-- What has been parsed of a buffer: it has gone on, is as deep as it was, and what was made is not
nested too deep. -/
def Parsed {α : Type} (content : Bytes) (buffer : ParseBuffer) (nesting : α → Nat)
    (p : α × ParseBuffer) : Prop :=
  p.2.Ready content ∧ p.2.depth = buffer.depth ∧ buffer.offset < p.2.offset ∧
    nesting p.1 + buffer.depth ≤ nestingLimit

section Inside

variable {content : Bytes} {buffer : ParseBuffer}

/-- Text without a zero byte does not reach the end of the content. -/
private theorem lt_of_begins (hlast : content[content.length - 1]? = some NUL) {off : Nat}
    {word : Bytes} (hne : word ≠ []) (hword : word <+: content.drop off) (hnul : NUL ∉ word) :
    off + word.length < content.length := by
  have hpos := List.length_pos_iff.mpr hne
  have hle := hword.length_le
  rw [List.length_drop] at hle
  have hin : word.length - 1 < word.length := by omega
  obtain ⟨rest, hrest⟩ := hword
  have hbyte : content[off + (word.length - 1)]? = word[word.length - 1]? := by
    rw [← List.getElem?_drop, ← hrest, List.getElem?_append_left hin]
  by_contra hge
  rw [show off + (word.length - 1) = content.length - 1 by omega, hlast] at hbyte
  exact hnul (List.mem_of_getElem? hbyte.symm)

private theorem lt_of_getElem? (hlast : content[content.length - 1]? = some NUL) {i : Nat}
    {b : UInt8} (hb : content[i]? = some b) (hne : b ≠ NUL) : i + 1 < content.length := by
  obtain ⟨hlt, hget⟩ := List.getElem?_eq_some_iff.mp hb
  by_contra hge
  rw [show content.length - 1 = i by omega, hb] at hlast
  exact hne (Option.some.inj hlast)

theorem ParseBuffer.Ready.skipWhitespace (h : buffer.Ready content) :
    buffer.skipWhitespace.Ready content ∧ buffer.skipWhitespace.depth = buffer.depth ∧
      buffer.offset ≤ buffer.skipWhitespace.offset := by
  obtain ⟨rfl, hlt⟩ := h
  have hle := (List.takeWhile_prefix (· ≤ 32) (l := buffer.content.drop buffer.offset)).length_le
  rw [List.length_drop] at hle
  have hin : buffer.offset ≤ buffer.skipWhitespace.offset ∧
      buffer.skipWhitespace.offset < buffer.content.length := by
    simp only [ParseBuffer.skipWhitespace]
    split <;> omega
  exact ⟨⟨rfl, hin.2⟩, rfl, hin.1⟩

private theorem parsed_advance (hlast : content[content.length - 1]? = some NUL)
    (h : buffer.Ready content) (hdepth : buffer.depth ≤ nestingLimit) {α : Type} {item : Item α}
    (ha : item.nesting = 0) {word : Bytes} (hne : word ≠ [])
    (hword : word <+: content.drop buffer.offset) (hnul : NUL ∉ word) :
    Parsed content buffer Item.nesting (item, buffer.advance word.length) := by
  have hlt := lt_of_begins hlast hne hword hnul
  have hpos := List.length_pos_iff.mpr hne
  refine ⟨⟨h.content_eq, hlt⟩, rfl, ?_, by rw [ha]; omega⟩
  exact Nat.lt_add_of_pos_right hpos

private theorem parsed_begins (hlast : content[content.length - 1]? = some NUL)
    (h : buffer.Ready content) (hdepth : buffer.depth ≤ nestingLimit) {word : Bytes} {α : Type}
    {item : Item α} (hitem : item.nesting = 0) (hbegins : buffer.begins word = true)
    (hword : word ≠ [] ∧ NUL ∉ word) :
    Parsed content buffer Item.nesting (item, buffer.advance word.length) := by
  rw [ParseBuffer.begins, Bool.and_eq_true, beq_iff_eq, h.content_eq] at hbegins
  refine parsed_advance hlast h hdepth hitem hword.1 ?_ hword.2
  rw [← hbegins.2]
  exact List.take_prefix _ _

private theorem returns_parseNumber (hlast : content[content.length - 1]? = some NUL)
    (h : buffer.Ready content) (hdepth : buffer.depth ≤ nestingLimit) :
    Returns (Parsed content buffer Item.nesting) (parseNumber (D := D) buffer) := by
  unfold parseNumber
  generalize htext : ((buffer.content.drop buffer.offset).take 63).takeWhile isNumberByte = text
  simp only
  split
  · trivial
  next number used hnumber =>
  obtain ⟨hpos, hle⟩ := CDouble.strtod_le hnumber
  have hprefix : text <+: content.drop buffer.offset := by
    rw [← htext, h.content_eq]
    exact (List.takeWhile_prefix _).trans (List.take_prefix _ _)
  have hnul : NUL ∉ text := fun hmem ↦ by
    rw [← htext] at hmem
    exact absurd (List.mem_takeWhile_imp hmem) (by decide)
  have hused := List.length_take_of_le hle
  have hparsed := @parsed_advance content buffer hlast h hdepth D (.number number) rfl
    (text.take used) (List.length_pos_iff.mp (by omega)) ((List.take_prefix _ _).trans hprefix)
    fun hmem ↦ hnul (List.mem_of_mem_take hmem)
  rwa [hused] at hparsed

private theorem lt_of_isAt (hlast : content[content.length - 1]? = some NUL)
    (h : buffer.Ready content) {b : UInt8} (hne : b ≠ NUL) (hat : buffer.isAt b = true) :
    buffer.offset + 1 < content.length := by
  rw [ParseBuffer.isAt, beq_iff_eq, h.content_eq] at hat
  exact lt_of_getElem? hlast hat hne

private theorem returns_string (hlast : content[content.length - 1]? = some NUL)
    (h : buffer.Ready content) :
    Returns (fun p ↦ p.2.Ready content ∧ p.2.depth = buffer.depth ∧ buffer.offset < p.2.offset)
      (parseString buffer) := by
  have hlt := h.lt
  rw [← h.content_eq] at hlt
  refine (returns_parseString hlt).mono fun p hp ↦ ?_
  obtain ⟨quote, heq, hquote, hbyte⟩ := hp
  rw [h.content_eq] at hbyte
  have hin := lt_of_getElem? hlast hbyte (by decide)
  rw [heq]
  exact ⟨⟨h.content_eq, hin⟩, rfl, Nat.lt_succ_of_lt hquote⟩

/-- What parsing in so many steps comes to: of a value, an array, its items, an object and its
members. -/
structure Inside (D : Type) [CDouble D] (content : Bytes) (fuel : Nat) : Prop where
  value : ∀ buffer : ParseBuffer, buffer.Ready content → buffer.depth ≤ nestingLimit →
    3 * (content.length - buffer.offset) ≤ fuel →
    Returns (Parsed content buffer Item.nesting) (parseValue (D := D) fuel buffer)
  array : ∀ buffer : ParseBuffer, buffer.Ready content → buffer.depth ≤ nestingLimit →
    3 * (content.length - buffer.offset) ≤ fuel + 1 →
    Returns (Parsed content buffer Item.nesting) (parseArray (D := D) fuel buffer)
  items : ∀ buffer : ParseBuffer, buffer.Ready content → buffer.depth ≤ nestingLimit →
    buffer.offset + 1 < content.length → 3 * (content.length - buffer.offset) ≤ fuel + 2 →
    Returns (Parsed content buffer itemsNesting) (parseItems (D := D) fuel buffer)
  object : ∀ buffer : ParseBuffer, buffer.Ready content → buffer.depth ≤ nestingLimit →
    3 * (content.length - buffer.offset) ≤ fuel + 1 →
    Returns (Parsed content buffer Item.nesting) (parseObject (D := D) fuel buffer)
  members : ∀ buffer : ParseBuffer, buffer.Ready content → buffer.depth ≤ nestingLimit →
    buffer.offset + 1 < content.length → 3 * (content.length - buffer.offset) ≤ fuel + 2 →
    Returns (Parsed content buffer membersNesting) (parseMembers (D := D) fuel buffer)

private theorem inside_value {fuel : Nat} (hlast : content[content.length - 1]? = some NUL)
    (ih : Inside D content fuel) (h : buffer.Ready content) (hdepth : buffer.depth ≤ nestingLimit)
    (hfuel : 3 * (content.length - buffer.offset) ≤ fuel + 1) :
    Returns (Parsed content buffer Item.nesting) (parseValue (D := D) (fuel + 1) buffer) := by
  rw [parseValue]
  split
  · next hnull => exact parsed_begins hlast h hdepth rfl hnull (by decide)
  split
  · next hfalse => exact parsed_begins hlast h hdepth rfl hfalse (by decide)
  split
  · next htrue => exact parsed_begins hlast h hdepth rfl htrue (by decide)
  split
  · trivial
  split
  · refine (returns_string hlast h).map fun ⟨s, after⟩ hp ↦ ⟨hp.1, hp.2.1, hp.2.2, ?_⟩
    exact (Nat.zero_add buffer.depth).trans_le hdepth
  split
  · exact returns_parseNumber hlast h hdepth
  split
  · exact ih.array buffer h hdepth hfuel
  split
  · exact ih.object buffer h hdepth hfuel
  · trivial

/-- Behind a bracket and the white space after it. -/
private theorem ready_behind (hlast : content[content.length - 1]? = some NUL)
    (h : buffer.Ready content) {b : UInt8} (hb : content[buffer.offset]? = some b) (hne : b ≠ NUL)
    (depth : Nat) :
    ({ buffer.advance 1 with depth := depth }.skipWhitespace).Ready content ∧
      ({ buffer.advance 1 with depth := depth }.skipWhitespace).depth = depth ∧
      buffer.offset + 1 ≤ ({ buffer.advance 1 with depth := depth }.skipWhitespace).offset := by
  have hready : ({ buffer.advance 1 with depth := depth }).Ready content :=
    ⟨h.content_eq, lt_of_getElem? hlast hb hne⟩
  exact hready.skipWhitespace

/-- Behind the bracket at the end. -/
private theorem parsed_behind (hlast : content[content.length - 1]? = some NUL)
    {last : ParseBuffer} (h : last.Ready content) {b : UInt8} (hne : b ≠ NUL)
    (hat : last.isAt b = true) (hdepth : last.depth = buffer.depth + 1)
    (hoffset : buffer.offset ≤ last.offset) {α : Type} {nesting : α → Nat} {a : α}
    (ha : nesting a + buffer.depth ≤ nestingLimit) :
    Parsed content buffer nesting (a, { last.advance 1 with depth := last.depth - 1 }) :=
  ⟨⟨h.content_eq, lt_of_isAt hlast h hne hat⟩, by simp only [hdepth]; omega,
    Nat.lt_succ_of_le hoffset, ha⟩

/-- What follows the bracket of an array or an object: its end, or what is in it and the end. -/
private theorem returns_behind {α β : Type} {nesting : α → Nat} {nesting' : β → Nat} (make : α → β)
    {close : UInt8} (hclose : close ≠ NUL) (hlast : content[content.length - 1]? = some NUL)
    (hdepth : buffer.depth < nestingLimit) {first : ParseBuffer} (hfirst : first.Ready content)
    (hfirstDepth : first.depth = buffer.depth + 1) (hfirstOffset : buffer.offset + 1 ≤ first.offset)
    {empty : β} (hempty : nesting' empty ≤ 1) (hmake : ∀ a, nesting' (make a) = nesting a + 1)
    {inside : ParseBuffer → Except Stop (α × ParseBuffer)}
    (hinside : ∀ start : ParseBuffer, start.Ready content → start.depth = buffer.depth + 1 →
      buffer.offset ≤ start.offset → start.offset + 1 < content.length →
      Returns (Parsed content start nesting) (inside start)) :
    Returns (Parsed content buffer nesting')
      (if first.isAt close then .ok (empty, { first.advance 1 with depth := first.depth - 1 })
      else if first.content.length ≤ first.offset then .error (.fails (first.offset - 1))
      else do
        let (a, last) ← inside { first with offset := first.offset - 1 }
        if last.isAt close then .ok (make a, { last.advance 1 with depth := last.depth - 1 })
        else .error (.fails last.offset)) := by
  split
  · next hat =>
    exact parsed_behind hlast hfirst hclose hat hfirstDepth (by omega) (by omega)
  split
  · trivial
  have hlt := hfirst.lt
  refine (hinside { first with offset := first.offset - 1 } ⟨hfirst.content_eq, ?_⟩ hfirstDepth
    ?_ ?_).bind ?_
  · simp only
    omega
  · simp only
    omega
  · simp only
    omega
  · rintro ⟨a, last⟩ ⟨hready, hlastDepth, hlastOffset, hnesting⟩
    simp only at hready hlastDepth hlastOffset hnesting ⊢
    split
    · next hat =>
      refine parsed_behind hlast hready hclose hat (hlastDepth.trans hfirstDepth) (by omega) ?_
      rw [hmake]
      omega
    · trivial

private theorem inside_array {fuel : Nat} (hlast : content[content.length - 1]? = some NUL)
    (ih : Inside D content fuel) (h : buffer.Ready content)
    (hfuel : 3 * (content.length - buffer.offset) ≤ fuel + 2) :
    Returns (Parsed content buffer Item.nesting) (parseArray (D := D) (fuel + 1) buffer) := by
  rw [parseArray]
  split
  · trivial
  next hdepth =>
  refine (returns_byteAt (h.content_eq.symm ▸ h.lt)).bind fun b hb ↦ ?_
  split
  · trivial
  next hopen =>
  rw [h.content_eq, not_not.mp hopen] at hb
  obtain ⟨hfirst, hfirstDepth, hfirstOffset⟩ :=
    ready_behind hlast h hb (by decide) (buffer.depth + 1)
  have hclose : (93 : UInt8) ≠ NUL := by decide
  exact returns_behind Item.array hclose hlast (Nat.lt_of_not_le hdepth) hfirst hfirstDepth
    hfirstOffset (Nat.le_refl 1) (fun _ ↦ rfl) fun start hstart hd ho hlt ↦
      ih.items start hstart (by omega) hlt (by omega)

private theorem inside_object {fuel : Nat} (hlast : content[content.length - 1]? = some NUL)
    (ih : Inside D content fuel) (h : buffer.Ready content)
    (hfuel : 3 * (content.length - buffer.offset) ≤ fuel + 2) :
    Returns (Parsed content buffer Item.nesting) (parseObject (D := D) (fuel + 1) buffer) := by
  rw [parseObject]
  split
  · trivial
  next hdepth =>
  split
  · trivial
  next hopen =>
  have hb : content[buffer.offset]? = some 123 := by
    rw [← h.content_eq]
    exact beq_iff_eq.mp (not_not.mp hopen)
  obtain ⟨hfirst, hfirstDepth, hfirstOffset⟩ :=
    ready_behind hlast h hb (by decide) (buffer.depth + 1)
  have hclose : (125 : UInt8) ≠ NUL := by decide
  exact returns_behind Item.object hclose hlast (Nat.lt_of_not_le hdepth) hfirst hfirstDepth
    hfirstOffset (Nat.le_refl 1) (fun _ ↦ rfl) fun start hstart hd ho hlt ↦
      ih.members start hstart (by omega) hlt (by omega)

private theorem inside_items {fuel : Nat} (hlast : content[content.length - 1]? = some NUL)
    (ih : Inside D content fuel) (h : buffer.Ready content) (hdepth : buffer.depth ≤ nestingLimit)
    (hlt : buffer.offset + 1 < content.length)
    (hfuel : 3 * (content.length - buffer.offset) ≤ fuel + 3) :
    Returns (Parsed content buffer itemsNesting) (parseItems (D := D) (fuel + 1) buffer) := by
  have hready : (buffer.advance 1).Ready content := ⟨h.content_eq, hlt⟩
  obtain ⟨hfirst, hfirstDepth, hfirstOffset⟩ := hready.skipWhitespace
  change buffer.offset + 1 ≤ _ at hfirstOffset
  rw [parseItems]
  refine (ih.value _ hfirst (hfirstDepth.trans_le hdepth) (by omega)).bind ?_
  rintro ⟨item, behind⟩ ⟨hbehind, hbehindDepth, hbehindOffset, hnesting⟩
  obtain ⟨hnext, hnextDepth, hnextOffset⟩ := hbehind.skipWhitespace
  simp only at hbehindDepth hbehindOffset hnesting hnext hnextDepth hnextOffset ⊢
  rw [hfirstDepth] at hbehindDepth hnesting
  change item.nesting + buffer.depth ≤ _ at hnesting
  rw [hbehindDepth] at hnextDepth
  split
  · next hcomma =>
    have hltNext := lt_of_isAt hlast hnext (by decide : (44 : UInt8) ≠ NUL) hcomma
    refine (ih.items _ hnext (hnextDepth.trans_le hdepth) hltNext (by omega)).bind ?_
    rintro ⟨items, last⟩ ⟨hready, hlastDepth, hlastOffset, hitems⟩
    simp only at hlastOffset
    rw [hnextDepth] at hitems
    refine ⟨hready, hlastDepth.trans hnextDepth, by simp only; omega, ?_⟩
    change max item.nesting (itemsNesting items) + buffer.depth ≤ nestingLimit
    change itemsNesting items + buffer.depth ≤ nestingLimit at hitems
    omega
  · refine ⟨hnext, hnextDepth, by simp only; omega, ?_⟩
    change max item.nesting 0 + buffer.depth ≤ nestingLimit
    omega

private theorem inside_members {fuel : Nat} (hlast : content[content.length - 1]? = some NUL)
    (ih : Inside D content fuel) (h : buffer.Ready content) (hdepth : buffer.depth ≤ nestingLimit)
    (hlt : buffer.offset + 1 < content.length)
    (hfuel : 3 * (content.length - buffer.offset) ≤ fuel + 3) :
    Returns (Parsed content buffer membersNesting) (parseMembers (D := D) (fuel + 1) buffer) := by
  have hready : (buffer.advance 1).Ready content := ⟨h.content_eq, hlt⟩
  obtain ⟨hfirst, hfirstDepth, hfirstOffset⟩ := hready.skipWhitespace
  change buffer.offset + 1 ≤ _ at hfirstOffset
  rw [parseMembers]
  refine (returns_string hlast hfirst).bind ?_
  rintro ⟨name, named⟩ ⟨hnamed, hnamedDepth, hnamedOffset⟩
  obtain ⟨hcolon, hcolonDepth, hcolonOffset⟩ := hnamed.skipWhitespace
  simp only at hnamedDepth hnamedOffset hcolon hcolonDepth hcolonOffset ⊢
  split
  · trivial
  next hat =>
  have hltColon := lt_of_isAt hlast hcolon (by decide : (58 : UInt8) ≠ NUL) (not_not.mp hat)
  have hadvance : (named.skipWhitespace.advance 1).Ready content := ⟨hcolon.content_eq, hltColon⟩
  obtain ⟨hvalue, hvalueDepth, hvalueOffset⟩ := hadvance.skipWhitespace
  change named.skipWhitespace.offset + 1 ≤ _ at hvalueOffset
  change _ = named.skipWhitespace.depth at hvalueDepth
  rw [hcolonDepth, hnamedDepth, hfirstDepth] at hvalueDepth
  change _ = buffer.depth at hvalueDepth
  refine (ih.value _ hvalue (hvalueDepth.trans_le hdepth) (by omega)).bind ?_
  rintro ⟨item, behind⟩ ⟨hbehind, hbehindDepth, hbehindOffset, hnesting⟩
  obtain ⟨hnext, hnextDepth, hnextOffset⟩ := hbehind.skipWhitespace
  simp only at hbehindDepth hbehindOffset hnesting hnext hnextDepth hnextOffset ⊢
  rw [hvalueDepth] at hbehindDepth hnesting
  rw [hbehindDepth] at hnextDepth
  split
  · next hcomma =>
    have hltNext := lt_of_isAt hlast hnext (by decide : (44 : UInt8) ≠ NUL) hcomma
    refine (ih.members _ hnext (hnextDepth.trans_le hdepth) hltNext (by omega)).bind ?_
    rintro ⟨members, last⟩ ⟨hready, hlastDepth, hlastOffset, hmembers⟩
    simp only at hlastOffset
    rw [hnextDepth] at hmembers
    refine ⟨hready, hlastDepth.trans hnextDepth, by simp only; omega, ?_⟩
    change max item.nesting (membersNesting members) + buffer.depth ≤ nestingLimit
    change membersNesting members + buffer.depth ≤ nestingLimit at hmembers
    omega
  · refine ⟨hnext, hnextDepth, by simp only; omega, ?_⟩
    change max item.nesting 0 + buffer.depth ≤ nestingLimit
    omega

/-- Every part of the parser stays inside the buffer, and returns. -/
theorem inside_parse (hlast : content[content.length - 1]? = some NUL) (fuel : Nat) :
    Inside D content fuel := by
  induction fuel with
  | zero =>
    constructor
    · intro buffer h _ hfuel
      have := h.lt
      omega
    · intro buffer h _ hfuel
      have := h.lt
      omega
    · intro buffer _ _ hlt hfuel
      omega
    · intro buffer h _ hfuel
      have := h.lt
      omega
    · intro buffer _ _ hlt hfuel
      omega
  | succ fuel ih =>
    constructor
    · exact fun _ ↦ inside_value hlast ih
    · exact fun _ h _ ↦ inside_array hlast ih h
    · exact fun _ ↦ inside_items hlast ih
    · exact fun _ h _ ↦ inside_object hlast ih h
    · exact fun _ ↦ inside_members hlast ih

end Inside

/-- For every text, `cJSON_ParseWithOpts` stays inside the text and its zero byte, and returns; an
item that it returns is not nested deeper than the limit, and its end is in the text. -/
theorem returns_cJSONParseWithOpts (value : Bytes) (requireNullTerminated : Bool) :
    Returns (fun (item, parseEnd) ↦ item.nesting ≤ nestingLimit ∧ parseEnd ≤ (cstr value).length)
      (cJSONParseWithOpts (D := D) value requireNullTerminated) := by
  have hlength : (ParseBuffer.of value).content.length = (cstr value).length + 1 := by
    simp [ParseBuffer.of]
  have hlast : (ParseBuffer.of value).content[(ParseBuffer.of value).content.length - 1]? =
      some NUL := by
    rw [hlength, ParseBuffer.of, Nat.add_sub_cancel, List.getElem?_concat_length]
  have hready : (ParseBuffer.of value).Ready (ParseBuffer.of value).content :=
    ⟨rfl, by rw [hlength]; exact Nat.succ_pos _⟩
  obtain ⟨hstart, hstartDepth, -⟩ := hready.skipWhitespace
  have hreturns := (inside_parse (D := D) hlast _).value _ hstart
    (hstartDepth.trans_le (Nat.zero_le _)) (Nat.mul_le_mul_left 3 (Nat.sub_le _ _))
  unfold cJSONParseWithOpts
  simp only
  generalize parseValue (D := D) (3 * (ParseBuffer.of value).content.length)
    (ParseBuffer.of value).skipWhitespace = parsed at hreturns ⊢
  match parsed with
  | .error .outside => exact hreturns
  | .error .unfinished => exact hreturns
  | .error (.fails offset) => trivial
  | .ok (item, behind) =>
    obtain ⟨hbehind, -, -, hnesting⟩ := hreturns
    obtain ⟨hnext, -, -⟩ := hbehind.skipWhitespace
    have hlt := hbehind.lt
    have hnextLt := hnext.lt
    simp only [hstartDepth] at hnesting hlt hnextLt
    change item.nesting + 0 ≤ nestingLimit at hnesting
    simp only
    split
    · split
      · exact ⟨hnesting, by simp only; omega⟩
      · trivial
    · exact ⟨hnesting, by simp only; omega⟩

end Kitty.CJson
