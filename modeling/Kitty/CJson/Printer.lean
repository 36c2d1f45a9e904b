import Kitty.Base.Appends
import Kitty.Base.Blank
import Kitty.CJson.Integers
import Kitty.CJson.Strings

/-!
# The printer of cJSON

`src/ap2p/cJSON.c:311–530`, `:779–905`, `:1024–1277`, `:1375–1436` and `:1546–1660`. The text is
written into a block that grows, or into one that the caller has. It is the text that `render` says,
with a zero byte behind it. The printer asks for one byte more than it writes; a block with room for
it is enough.
-/

namespace Kitty.CJson

open Kitty.Base
open Kitty.Base.Json (QUOTE BACKSLASH)

/-- `printbuffer`; the block has at least `length` bytes. -/
structure PrintBuffer where
  buffer : Bytes
  length : Nat
  offset : Nat
  depth : Nat
  noalloc : Bool
  format : Bool
  deriving DecidableEq, Repr

/-! ### Text -/

/-- What `print_string_ptr` counts for a byte beyond the byte itself. -/
def escapeCharacters (b : UInt8) : Nat :=
  if b = QUOTE ∨ b = BACKSLASH ∨ b = 8 ∨ b = 12 ∨ b = 10 ∨ b = 13 ∨ b = 9 then 1
  else if b < 32 then 5
  else 0

/-- The digit of `%04x`. -/
def hexDigitByte (n : Nat) : UInt8 := UInt8.ofNat (if n < 10 then 48 + n else 87 + n)

/-- What is stored for a byte of a string, and the zero byte of `sprintf` behind it. -/
def escapeByte (b : UInt8) : Bytes × Bytes :=
  if 31 < b ∧ b ≠ QUOTE ∧ b ≠ BACKSLASH then ([b], [])
  else if b = BACKSLASH then ([BACKSLASH, BACKSLASH], [])
  else if b = QUOTE then ([BACKSLASH, QUOTE], [])
  else if b = 8 then ([BACKSLASH, 98], [])
  else if b = 12 then ([BACKSLASH, 102], [])
  else if b = 10 then ([BACKSLASH, 110], [])
  else if b = 13 then ([BACKSLASH, 114], [])
  else if b = 9 then ([BACKSLASH, 116], [])
  else ([BACKSLASH, 117, 48, 48, hexDigitByte (b.toNat / 16), hexDigitByte (b.toNat % 16)], [NUL])

variable {D : Type} [CDouble D]

/-- The text in `number_buffer`. -/
def numberText (d : D) : Bytes :=
  if ¬ CDouble.finite d then lit "null"
  else
    match CDouble.strtod (CDouble.print15 d) with
    | none => CDouble.print17 d
    | some (test, _) => if CDouble.same test d then CDouble.print15 d else CDouble.print17 d

/-- What is printed for a string. -/
def renderString (s : Bytes) : Bytes :=
  QUOTE :: ((cstr s).flatMap fun b ↦ (escapeByte b).1) ++ [QUOTE]

/-- `depth` tabs. -/
def tabs (depth : Nat) : Bytes := List.replicate depth 9

mutual

/-- What is printed for an item at a depth. -/
def render (format : Bool) (depth : Nat) : Item D → Bytes
  | .null => lit "null"
  | .bool false => lit "false"
  | .bool true => lit "true"
  | .number d => numberText d
  | .string s => renderString s
  | .array items => 91 :: renderElements format (depth + 1) items ++ [93]
  | .object members =>
    123 :: ((if format then [LF] else []) ++ renderMembers format (depth + 1) members ++
      (if format then tabs depth else [])) ++ [125]

/-- What is printed for the elements of an array. -/
def renderElements (format : Bool) (depth : Nat) : List (Item D) → Bytes
  | [] => []
  | item :: items =>
    render format depth item ++
      (if items.isEmpty then [] else if format then [44, 32] else [44]) ++
      renderElements format depth items

/-- What is printed for the members of an object. -/
def renderMembers (format : Bool) (depth : Nat) : List (Bytes × Item D) → Bytes
  | [] => []
  | (name, item) :: members =>
    (if format then tabs depth else []) ++ renderString name ++
      (if format then [58, 9] else [58]) ++ render format depth item ++
      ((if members.isEmpty then [] else [44]) ++ if format then [LF] else []) ++
      renderMembers format depth members

end

/-! ### The block -/

section Print

-- The byte that there is at a place of a new block of a size.
variable (fresh : Nat → Nat → UInt8)

/-- `malloc` -/
def malloc (size : Nat) : Bytes := (List.range size).map (fresh size)

/-- `realloc` -/
def realloc (block : Bytes) (size : Nat) : Bytes :=
  block.take size ++ (malloc fresh size).drop block.length

namespace PrintBuffer

/-- The block gets this size. -/
def grow (p : PrintBuffer) (newsize : Nat) : PrintBuffer :=
  { p with buffer := realloc fresh p.buffer newsize, length := newsize }

/-- `ensure` -/
def ensure (needed : Nat) (p : PrintBuffer) : Except Stop PrintBuffer :=
  if 0 < p.length ∧ p.length ≤ p.offset then .error (.fails p.offset)
  else if intMax < needed then .error (.fails p.offset)
  else
    let needed := needed + (p.offset + 1)
    if needed ≤ p.length then .ok p
    else if p.noalloc then .error (.fails p.offset)
    else if intMax / 2 < needed then
      if needed ≤ intMax then .ok (p.grow fresh intMax) else .error (.fails p.offset)
    else .ok (p.grow fresh (needed * 2))

/-- A store of these bytes at a place of the block. -/
def store (place : Nat) (bytes : Bytes) (p : PrintBuffer) : Except Stop PrintBuffer :=
  if place + bytes.length ≤ p.buffer.length then
    .ok { p with
      buffer := p.buffer.take place ++ bytes ++ p.buffer.drop (place + bytes.length) }
  else .error .outside

/-- The offset goes on. -/
def advance (p : PrintBuffer) (n : Nat) : PrintBuffer := { p with offset := p.offset + n }

/-- `update_offset` -/
def updateOffset (p : PrintBuffer) : Except Stop PrintBuffer :=
  if NUL ∈ p.buffer.drop p.offset then .ok (p.advance (cstr (p.buffer.drop p.offset)).length)
  else .error .outside

end PrintBuffer

open PrintBuffer

/-- `ensure` for so many bytes, and stores of these at the offset. -/
def ensureAndStore (needed : Nat) (bytes : Bytes) (p : PrintBuffer) : Except Stop PrintBuffer := do
  let p ← ensure fresh needed p
  store p.offset bytes p

/-! ### The printer -/

/-- The loop of `print_string_ptr` that escapes, with `output_pointer` at a place. -/
def copyEscaped : Bytes → Nat → PrintBuffer → Except Stop PrintBuffer
  | [], _, p => .ok p
  | b :: input, place, p => do
    let p ← store place ((escapeByte b).1 ++ (escapeByte b).2) p
    copyEscaped input (place + (escapeByte b).1.length) p

/-- `print_string_ptr` -/
def printStringPtr (input : Bytes) (p : PrintBuffer) : Except Stop PrintBuffer := do
  let input := cstr input
  let escapes := (input.map escapeCharacters).sum
  let outputLength := input.length + escapes
  let p ← ensure fresh (outputLength + 3) p
  if escapes = 0 then store p.offset (QUOTE :: input ++ [QUOTE, NUL]) p
  else
    let p ← store p.offset [QUOTE] p
    let p ← copyEscaped input (p.offset + 1) p
    store (p.offset + outputLength + 1) [QUOTE, NUL] p

/-- `print_number`; `number_buffer` has 26 bytes, and `%1.17g` is tried after `%1.15g`. -/
def printNumber (d : D) (p : PrintBuffer) : Except Stop PrintBuffer := do
  storeAt 26 0 ((if CDouble.finite d then CDouble.print15 d else lit "null").length + 1)
  storeAt 26 0 ((numberText d).length + 1)
  let p ← ensureAndStore fresh (numberText d).length (numberText d ++ [NUL]) p
  .ok (p.advance (numberText d).length)

/-- The comma behind an element of an array, if another follows. -/
def printComma (last : Bool) (p : PrintBuffer) : Except Stop PrintBuffer :=
  if last then .ok p
  else do
    let comma : Bytes := if p.format then [44, 32] else [44]
    let p ← ensureAndStore fresh (comma.length + 1) (comma ++ [NUL]) p
    .ok (p.advance comma.length)

/-- The tabs in front of a name. -/
def printTabs (p : PrintBuffer) : Except Stop PrintBuffer :=
  if p.format then do
    let p ← ensureAndStore fresh p.depth (tabs p.depth) p
    .ok (p.advance p.depth)
  else .ok p

/-- The colon behind a name. -/
def printColon (p : PrintBuffer) : Except Stop PrintBuffer := do
  let colon : Bytes := if p.format then [58, 9] else [58]
  let p ← ensureAndStore fresh colon.length colon p
  .ok (p.advance colon.length)

/-- The end of the line of a member, with a comma if another follows. -/
def printEnd (last : Bool) (p : PrintBuffer) : Except Stop PrintBuffer := do
  let bytes : Bytes := (if last then [] else [44]) ++ if p.format then [LF] else []
  let p ← ensureAndStore fresh (bytes.length + 1) (bytes ++ [NUL]) p
  .ok (p.advance bytes.length)

mutual

/-- `print_value`, with `print_array` and `print_object`. -/
def printValue : Item D → PrintBuffer → Except Stop PrintBuffer
  | .null, p => ensureAndStore fresh 5 (lit "null" ++ [NUL]) p
  | .bool false, p => ensureAndStore fresh 6 (lit "false" ++ [NUL]) p
  | .bool true, p => ensureAndStore fresh 5 (lit "true" ++ [NUL]) p
  | .number d, p => printNumber fresh d p
  | .string s, p => printStringPtr fresh s p
  | .array items, p => do
    let p ← ensureAndStore fresh 1 [91] p
    let p ← printElements items { p.advance 1 with depth := p.depth + 1 }
    let p ← ensureAndStore fresh 2 [93, NUL] p
    .ok { p with depth := p.depth - 1 }
  | .object members, p => do
    let opening : Bytes := 123 :: if p.format then [LF] else []
    let p ← ensureAndStore fresh (opening.length + 1) opening p
    let p ← printMembers members { p.advance opening.length with depth := p.depth + 1 }
    let p ← ensureAndStore fresh (if p.format then p.depth + 1 else 2)
      ((if p.format then tabs (p.depth - 1) else []) ++ [125, NUL]) p
    .ok { p with depth := p.depth - 1 }

/-- The loop of `print_array`. -/
def printElements : List (Item D) → PrintBuffer → Except Stop PrintBuffer
  | [], p => .ok p
  | item :: items, p => do
    let p ← printValue item p
    let p ← updateOffset p
    let p ← printComma fresh items.isEmpty p
    printElements items p

/-- The loop of `print_object`. -/
def printMembers : List (Bytes × Item D) → PrintBuffer → Except Stop PrintBuffer
  | [], p => .ok p
  | (name, item) :: members, p => do
    let p ← printTabs fresh p
    let p ← printStringPtr fresh name p
    let p ← updateOffset p
    let p ← printColon fresh p
    let p ← printValue item p
    let p ← updateOffset p
    let p ← printEnd fresh members.isEmpty p
    printMembers members p

end

/-- `print`, for `cJSON_Print` and `cJSON_PrintUnformatted`: the block that is returned. The block
of 256 bytes is not recorded in `length`. -/
def print (item : Item D) (format : Bool) : Except Stop Bytes := do
  let p ← printValue fresh item ⟨malloc fresh 256, 0, 0, 0, false, format⟩
  let p ← updateOffset p
  .ok (realloc fresh p.buffer p.length)

/-- `cJSON_PrintBuffered` -/
def cJSONPrintBuffered (item : Item D) (prebuffer : Nat) (fmt : Bool) : Except Stop Bytes := do
  let p ← printValue fresh item ⟨malloc fresh prebuffer, prebuffer, 0, 0, false, fmt⟩
  .ok p.buffer

/-- `cJSON_PrintPreallocated`: what the buffer, with `len` bytes of it given, holds after it. -/
def cJSONPrintPreallocated (item : Item D) (buf : Bytes) (len : Nat) (fmt : Bool) :
    Except Stop Bytes := do
  let p ← printValue fresh item ⟨buf, len, 0, 0, true, fmt⟩
  .ok p.buffer

end Print

/-! ### What a step comes to -/

/-- The function returns; the result is such a one, and it fails only if there is no room. -/
inductive Serves {α : Type} (room : Prop) (P : α → Prop) : Except Stop α → Prop
  | ok {a : α} (h : P a) : Serves room P (.ok a)
  | fails {offset : Nat} (h : ¬ room) : Serves room P (.error (.fails offset))

section Serves

variable {α β : Type} {room : Prop} {P : α → Prop} {Q : β → Prop} {x : Except Stop α}
  {f : α → Except Stop β}

theorem Serves.bind (hx : Serves room P x) (hf : ∀ a, P a → Serves room Q (f a)) :
    Serves room Q (x >>= f) := by
  cases hx with
  | ok h => exact hf _ h
  | fails h => exact .fails h

theorem Serves.mono {P' : α → Prop} (hx : Serves room P x) (h : ∀ a, P a → P' a) :
    Serves room P' x := by
  cases hx with
  | ok ha => exact .ok (h _ ha)
  | fails h => exact .fails h

/-- With room, there is a result. -/
theorem Serves.exists_ok (hx : Serves room P x) (hroom : room) : ∃ a, x = .ok a ∧ P a := by
  cases hx with
  | ok h => exact ⟨_, rfl, h⟩
  | fails h => exact absurd hroom h

end Serves

/-- How many bytes there can be. -/
def PrintBuffer.limit (p : PrintBuffer) : Nat := if p.noalloc then p.length else intMax

/-- The text is in the block up to the offset. -/
structure Holds (limit : Nat) (format : Bool) (depth : Nat) (text : Bytes) (p : PrintBuffer) :
    Prop where
  begins : text <+: p.buffer
  offset_eq : p.offset = text.length
  length_le : p.length ≤ p.buffer.length
  offset_lt : p.length = 0 ∨ p.offset < p.length
  length_le_intMax : p.length ≤ intMax
  limit_eq : p.limit = limit
  format_eq : p.format = format
  depth_eq : p.depth = depth

/-- Bytes have been stored behind the text, where there is room for so many and one more. -/
structure Stored (limit : Nat) (format : Bool) (depth : Nat) (text : Bytes) (needed : Nat)
    (bytes : Bytes) (p : PrintBuffer) : Prop extends Holds limit format depth text p where
  stored : text ++ bytes <+: p.buffer
  room : text.length + needed < p.length

/-- The text has been printed with a zero byte behind it; the offset may have gone on. -/
structure Ended (limit : Nat) (format : Bool) (depth : Nat) (text s : Bytes) (p : PrintBuffer) :
    Prop where
  printed : text ++ (s ++ [NUL]) <+: p.buffer
  le_offset : text.length ≤ p.offset
  offset_le : p.offset ≤ (text ++ s).length
  length_le : p.length ≤ p.buffer.length
  lt_length : (text ++ s).length < p.length
  length_le_intMax : p.length ≤ intMax
  limit_eq : p.limit = limit
  format_eq : p.format = format
  depth_eq : p.depth = depth

section Steps

variable {fresh : Nat → Nat → UInt8} {limit depth needed n : Nat} {format : Bool}
  {text bytes s : Bytes} {p : PrintBuffer}

private theorem length_realloc (block : Bytes) (size : Nat) :
    (realloc fresh block size).length = size := by
  rw [realloc, malloc, List.length_append, List.length_take, List.length_drop, List.length_map,
    List.length_range]
  omega

private theorem prefix_realloc {block : Bytes} {size : Nat} (h : text <+: block)
    (hsize : text.length ≤ size) : text <+: realloc fresh block size :=
  (List.prefix_take_iff.mpr ⟨h, hsize⟩).trans (List.prefix_append _ _)

private theorem Holds.grow (h : Holds limit format depth text p) {newsize : Nat}
    (halloc : p.noalloc = false) (hsize : text.length + needed < newsize)
    (hle : newsize ≤ intMax) :
    Holds limit format depth text (p.grow fresh newsize) ∧
      text.length + needed < (p.grow fresh newsize).length := by
  refine ⟨⟨prefix_realloc h.begins (by omega), h.offset_eq, (length_realloc _ _).ge, Or.inr ?_, hle,
    ?_, h.format_eq, h.depth_eq⟩, hsize⟩
  · change p.offset < newsize
    rw [h.offset_eq]
    omega
  · rw [← h.limit_eq, PrintBuffer.limit, PrintBuffer.limit]
    change (if p.noalloc then newsize else intMax) = _
    rw [halloc]
    rfl

/-- `ensure` keeps the text, and fails only at the limit. -/
private theorem serves_ensure (h : Holds limit format depth text p)
    (hn : text.length + needed + 1 ≤ n) :
    Serves (n ≤ limit)
      (fun p' ↦ Holds limit format depth text p' ∧ text.length + needed < p'.length)
      (p.ensure fresh needed) := by
  have hlimit : limit ≤ intMax := by
    rw [← h.limit_eq, PrintBuffer.limit]
    split
    · exact h.length_le_intMax
    · exact Nat.le_refl _
  have hoffset := h.offset_eq
  unfold PrintBuffer.ensure
  split
  · next hbad =>
    rcases h.offset_lt with hzero | hlt
    · omega
    · omega
  split
  · exact .fails (by omega)
  simp only
  split
  · next hfits => exact .ok ⟨h, by omega⟩
  next hfull =>
  cases halloc : p.noalloc with
  | true =>
    have hlength : p.length = limit := by
      rw [← h.limit_eq, PrintBuffer.limit, halloc]
      rfl
    rw [if_pos rfl]
    exact .fails (by omega)
  | false =>
    rw [if_neg Bool.false_ne_true]
    split
    · split
      · exact .ok (h.grow halloc (by omega) (Nat.le_refl _))
      · exact .fails (by omega)
    · exact .ok (h.grow halloc (by omega) (by omega))

/-- Nothing has been stored yet. -/
private theorem Holds.stored_nil (h : Holds limit format depth text p)
    (hroom : text.length + needed < p.length) : Stored limit format depth text needed [] p :=
  ⟨h, by rw [List.append_nil]; exact h.begins, hroom⟩

/-- A store behind what has been stored, in the room that there is. -/
private theorem Stored.store (h : Stored limit format depth text needed bytes p) {more : Bytes}
    (hmore : (bytes ++ more).length ≤ needed + 1) :
    ∃ p', p.store (p.offset + bytes.length) more = .ok p' ∧
      Stored limit format depth text needed (bytes ++ more) p' := by
  have hlength := h.length_le
  have hoffset := h.offset_eq
  have hroom := h.room
  rw [List.length_append] at hmore
  have htake : p.buffer.take (p.offset + bytes.length) = text ++ bytes := by
    rw [hoffset, ← List.length_append]
    exact (List.prefix_iff_eq_take.mp h.stored).symm
  refine ⟨{ p with
      buffer := text ++ (bytes ++ more) ++ p.buffer.drop (p.offset + bytes.length + more.length) },
    ?_, ⟨⟨?_, h.offset_eq, ?_, h.offset_lt, h.length_le_intMax, h.limit_eq, h.format_eq,
      h.depth_eq⟩, List.prefix_append _ _, hroom⟩⟩
  · rw [PrintBuffer.store, if_pos (by omega), htake, List.append_assoc text]
  · exact (List.prefix_append text (bytes ++ more)).trans (List.prefix_append _ _)
  · simp only [List.length_append, List.length_drop]
    omega

/-- Of what has been stored, the first part. -/
private theorem Stored.mono (h : Stored limit format depth text needed bytes p)
    (hs : s <+: bytes) : Stored limit format depth text needed s p :=
  ⟨h.toHolds, ((List.prefix_append_right_inj text).mpr hs).trans h.stored, h.room⟩

private theorem serves_ensureAndStore (h : Holds limit format depth text p)
    (hbytes : bytes.length ≤ needed + 1) (hn : text.length + needed + 1 ≤ n) :
    Serves (n ≤ limit) (Stored limit format depth text needed bytes)
      (ensureAndStore fresh needed bytes p) := by
  refine (serves_ensure h hn).bind fun p' hp ↦ ?_
  obtain ⟨p'', hstore, hp''⟩ := @Stored.store _ _ _ _ _ _ _ (hp.1.stored_nil hp.2) bytes hbytes
  rw [List.length_nil, Nat.add_zero] at hstore
  rw [hstore]
  exact .ok hp''

private theorem Stored.advance (h : Stored limit format depth text needed bytes p)
    (hs : s <+: bytes) (hneeded : s.length ≤ needed) :
    Holds limit format depth (text ++ s) (p.advance s.length) where
  begins := ((List.prefix_append_right_inj text).mpr hs).trans h.stored
  offset_eq := by
    change p.offset + s.length = _
    rw [h.offset_eq, List.length_append]
  length_le := h.length_le
  offset_lt := Or.inr (by
    have hroom := h.room
    change p.offset + s.length < p.length
    rw [h.offset_eq]
    omega)
  length_le_intMax := h.length_le_intMax
  limit_eq := h.limit_eq
  format_eq := h.format_eq
  depth_eq := h.depth_eq

private theorem Stored.ended (h : Stored limit format depth text needed (s ++ [NUL]) p)
    (hneeded : s.length ≤ needed) : Ended limit format depth text s p where
  printed := h.stored
  le_offset := h.offset_eq.ge
  offset_le := by
    rw [h.offset_eq, List.length_append]
    omega
  length_le := h.length_le
  lt_length := by
    have hroom := h.room
    rw [List.length_append]
    omega
  length_le_intMax := h.length_le_intMax
  limit_eq := h.limit_eq
  format_eq := h.format_eq
  depth_eq := h.depth_eq

/-- `update_offset` goes to the end of what has been printed. -/
private theorem Ended.updateOffset (h : Ended limit format depth text s p) (hs : NUL ∉ s) :
    ∃ p', p.updateOffset = .ok p' ∧ Holds limit format depth (text ++ s) p' ∧
      p'.buffer = p.buffer ∧ p'.length = p.length := by
  obtain ⟨rest, hrest⟩ := h.printed
  have hle := h.le_offset
  have hoffset := h.offset_le
  rw [List.length_append] at hoffset
  have hdrop : p.buffer.drop p.offset = s.drop (p.offset - text.length) ++ NUL :: rest := by
    rw [← hrest, List.append_assoc, List.drop_append, List.drop_eq_nil_of_le hle, List.nil_append,
      List.append_assoc, List.drop_append_of_le_length (by omega)]
    rfl
  have hnul : NUL ∉ s.drop (p.offset - text.length) := fun hmem ↦ hs (List.mem_of_mem_drop hmem)
  have hcstr : cstr (p.buffer.drop p.offset) = s.drop (p.offset - text.length) := by
    rw [hdrop, cstr_append_nul, cstr_of_nul_not_mem hnul]
  have hlt := h.lt_length
  rw [List.length_append] at hlt
  refine ⟨p.advance (s.drop (p.offset - text.length)).length, ?_, ⟨?_, ?_, h.length_le, Or.inr ?_,
    h.length_le_intMax, h.limit_eq, h.format_eq, h.depth_eq⟩, rfl, rfl⟩
  · rw [PrintBuffer.updateOffset, if_pos (by rw [hdrop]; simp), hcstr]
  · refine List.IsPrefix.trans ?_ h.printed
    rw [← List.append_assoc]
    exact List.prefix_append _ _
  · change p.offset + (s.drop (p.offset - text.length)).length = _
    rw [List.length_drop, List.length_append]
    omega
  · change p.offset + (s.drop (p.offset - text.length)).length < p.length
    rw [List.length_drop]
    omega

/-! ### Strings -/

/-- A byte is stored as it was counted, and one that counts for nothing is stored as it is. -/
private theorem escapeByte_eq (b : UInt8) :
    (escapeByte b).1.length = 1 + escapeCharacters b ∧ (escapeByte b).2.length ≤ 1 ∧
      (NUL ∉ (escapeByte b).1 ∨ b = NUL) ∧ (escapeCharacters b = 0 → (escapeByte b).1 = [b]) := by
  have hall : ((List.range 256).all fun n ↦
      let b := UInt8.ofNat n
      decide ((escapeByte b).1.length = 1 + escapeCharacters b ∧ (escapeByte b).2.length ≤ 1 ∧
        (NUL ∉ (escapeByte b).1 ∨ b = NUL) ∧ (escapeCharacters b = 0 → (escapeByte b).1 = [b]))) =
      true := by decide +kernel
  have hbyte := List.all_eq_true.mp hall b.toNat (List.mem_range.mpr b.toNat_lt)
  simp only [UInt8.ofNat_toNat] at hbyte
  exact of_decide_eq_true hbyte

private theorem length_escape (input : Bytes) :
    (input.flatMap fun b ↦ (escapeByte b).1).length =
      input.length + (input.map escapeCharacters).sum := by
  induction input with
  | nil => rfl
  | cons b input ih =>
    rw [List.flatMap_cons, List.length_append, ih, (escapeByte_eq b).1, List.map_cons,
      List.sum_cons, List.length_cons]
    omega

private theorem escape_eq {input : Bytes} (h : (input.map escapeCharacters).sum = 0) :
    (input.flatMap fun b ↦ (escapeByte b).1) = input := by
  induction input with
  | nil => rfl
  | cons b input ih =>
    rw [List.map_cons, List.sum_cons, Nat.add_eq_zero_iff] at h
    rw [List.flatMap_cons, ih h.2, (escapeByte_eq b).2.2.2 h.1]
    rfl

/-- The loop stores what the bytes are escaped to; the zero byte of `sprintf` has room as well. -/
private theorem stored_copyEscaped {input : Bytes}
    (h : Stored limit format depth text needed bytes p)
    (hroom : (bytes ++ input.flatMap fun b ↦ (escapeByte b).1).length ≤ needed) :
    ∃ p', copyEscaped input (p.offset + bytes.length) p = .ok p' ∧
      Stored limit format depth text needed (bytes ++ input.flatMap fun b ↦ (escapeByte b).1)
        p' := by
  induction input generalizing bytes p with
  | nil => exact ⟨p, rfl, by rw [List.flatMap_nil, List.append_nil]; exact h⟩
  | cons b input ih =>
    have hzero := (escapeByte_eq b).2.1
    simp only [List.flatMap_cons, List.length_append] at hroom
    obtain ⟨p', hstore, hp'⟩ := @Stored.store _ _ _ _ _ _ _ h ((escapeByte b).1 ++ (escapeByte b).2)
      (by simp only [List.length_append]; omega)
    have hoffset : p'.offset = p.offset := by rw [hp'.offset_eq, h.offset_eq]
    have hfirst : Stored limit format depth text needed (bytes ++ (escapeByte b).1) p' :=
      hp'.mono (by rw [← List.append_assoc]; exact List.prefix_append _ _)
    obtain ⟨p'', hloop, hp''⟩ := ih hfirst (by simp only [List.length_append]; omega)
    refine ⟨p'', ?_, by rw [List.flatMap_cons, ← List.append_assoc]; exact hp''⟩
    rw [copyEscaped, hstore]
    rw [List.length_append, hoffset, ← Nat.add_assoc] at hloop
    exact hloop

private theorem nul_not_mem_renderString (s : Bytes) : NUL ∉ renderString s := by
  have hcstr := nul_not_mem_cstr s
  simp only [renderString, List.cons_append, List.mem_cons, List.mem_append, List.mem_flatMap,
    not_or, not_exists, not_and]
  refine ⟨by decide, fun b hb hmem ↦ ?_, by decide, List.not_mem_nil⟩
  rcases (escapeByte_eq b).2.2.1 with hnot | heq
  · exact hnot hmem
  · exact hcstr (heq ▸ hb)

/-- `print_string_ptr` prints the string. -/
private theorem serves_printStringPtr (h : Holds limit format depth text p) (s : Bytes)
    (hn : text.length + (renderString s).length + 2 ≤ n) :
    Serves (n ≤ limit) (Ended limit format depth text (renderString s))
      (printStringPtr fresh s p) := by
  have hlen := length_escape (cstr s)
  have hrender : (renderString s).length =
      (cstr s).length + ((cstr s).map escapeCharacters).sum + 2 := by
    rw [renderString, List.length_append, List.length_cons, hlen]
    rfl
  unfold printStringPtr
  refine (serves_ensure h (by omega)).bind fun p' ⟨hp', hroom⟩ ↦ ?_
  have hnil := hp'.stored_nil hroom
  split
  · next hzero =>
    obtain ⟨p'', hstore, hp''⟩ := @Stored.store _ _ _ _ _ _ _ hnil (renderString s ++ [NUL]) (by
      rw [List.nil_append, List.length_append, hrender, List.length_singleton]
      omega)
    rw [List.length_nil, Nat.add_zero, renderString, escape_eq hzero, List.append_assoc] at hstore
    change p'.store p'.offset (QUOTE :: cstr s ++ [QUOTE, NUL]) = .ok p'' at hstore
    rw [hstore]
    exact .ok (hp''.ended (by omega))
  · obtain ⟨p₁, hstore, hp₁⟩ := @Stored.store _ _ _ _ _ _ _ hnil [QUOTE] (by simp)
    obtain ⟨p₂, hloop, hp₂⟩ := @stored_copyEscaped _ _ _ _ _ _ _ (cstr s) hp₁ (by
      simp only [List.nil_append, List.length_append, List.length_singleton, hlen]
      omega)
    obtain ⟨p₃, hend, hp₃⟩ := @Stored.store _ _ _ _ _ _ _ hp₂ [QUOTE, NUL] (by
      simp only [List.nil_append, List.length_append, List.length_cons, List.length_nil, hlen]
      omega)
    rw [List.length_nil, Nat.add_zero] at hstore
    have hlength : ([] ++ [QUOTE] ++ (cstr s).flatMap fun b ↦ (escapeByte b).1).length =
        (cstr s).length + ((cstr s).map escapeCharacters).sum + 1 := by
      rw [List.length_append, hlen]
      exact Nat.add_comm _ _
    rw [hlength] at hend
    rw [hstore]
    change Serves _ _ (copyEscaped (cstr s) (p₁.offset + ([] ++ [QUOTE]).length) p₁ >>= _)
    rw [hloop]
    change Serves _ _ (p₂.store (p₂.offset + ((cstr s).length +
      ((cstr s).map escapeCharacters).sum + 1)) [QUOTE, NUL])
    rw [hend]
    refine .ok ((hp₃.mono ?_).ended (by omega))
    simp [renderString]

/-! ### Numbers -/

theorem numberText_cases [LawfulCDouble D] (d : D) :
    numberText d = lit "null" ∧ CDouble.finite d = false ∨ CDouble.finite d = true ∧
      (numberText d = CDouble.print15 d ∨ numberText d = CDouble.print17 d) := by
  unfold numberText
  cases CDouble.finite d with
  | false => exact Or.inl ⟨rfl, rfl⟩
  | true =>
    refine Or.inr ⟨rfl, ?_⟩
    rw [if_neg (by simp)]
    split
    · exact Or.inr rfl
    · split
      · exact Or.inl rfl
      · exact Or.inr rfl

theorem numberText_fits [LawfulCDouble D] (d : D) :
    (numberText d).length ≤ 24 ∧ NUL ∉ numberText d := by
  have hnumber : ∀ t : Bytes, Json.IsNumber t → NUL ∉ t := fun t ht hmem ↦
    absurd (ht.tokenBytes.2 NUL hmem) (by decide)
  rcases numberText_cases d with ⟨hnull, -⟩ | ⟨hfinite, h15 | h17⟩
  · rw [hnull]
    decide
  · rw [h15]
    exact ⟨LawfulCDouble.length_print15 hfinite, hnumber _ (LawfulCDouble.isNumber_print15 hfinite)⟩
  · rw [h17]
    exact ⟨LawfulCDouble.length_print17 hfinite, hnumber _ (LawfulCDouble.isNumber_print17 hfinite)⟩

/-- `print_number` prints the number, which fits in `number_buffer`. -/
private theorem serves_printNumber [LawfulCDouble D] (h : Holds limit format depth text p) (d : D)
    (hn : text.length + (numberText d).length + 2 ≤ n) :
    Serves (n ≤ limit) (Ended limit format depth text (numberText d)) (printNumber fresh d p) := by
  have hfirst : (if CDouble.finite d then CDouble.print15 d else lit "null").length ≤ 24 := by
    split
    · next hfinite => exact LawfulCDouble.length_print15 hfinite
    · decide
  have hfits := (numberText_fits d).1
  unfold printNumber
  rw [storeAt, if_pos (by omega), storeAt, if_pos (by omega)]
  refine (serves_ensureAndStore h (by simp) (by omega)).bind fun p' hp' ↦ ?_
  have hended := hp'.ended (Nat.le_refl _)
  have hroom := hp'.room
  exact .ok {
    hended with
    le_offset := hended.le_offset.trans (Nat.le_add_right _ _)
    offset_le := by
      change p'.offset + _ ≤ _
      rw [hp'.offset_eq, List.length_append] }

/-! ### Items -/

/-- What has been printed behind a text is part of it. -/
private theorem Ended.regroup {s' : Bytes} (h : Ended limit format depth (text ++ s) s' p) :
    Ended limit format depth text (s ++ s') p where
  printed := by
    have hprinted := h.printed
    rwa [List.append_assoc, ← List.append_assoc s] at hprinted
  le_offset := (List.length_append ▸ Nat.le_add_right _ _).trans h.le_offset
  offset_le := by
    have hle := h.offset_le
    rwa [List.append_assoc] at hle
  length_le := h.length_le
  lt_length := by
    have hlt := h.lt_length
    rwa [List.append_assoc] at hlt
  length_le_intMax := h.length_le_intMax
  limit_eq := h.limit_eq
  format_eq := h.format_eq
  depth_eq := h.depth_eq

private theorem serves_printComma (h : Holds limit format depth text p) (last : Bool)
    (hn : text.length +
      (if last then [] else if format then [44, 32] else [44] : Bytes).length + 2 ≤ n) :
    Serves (n ≤ limit)
      (Holds limit format depth (text ++ if last then [] else if format then [44, 32] else [44]))
      (printComma fresh last p) := by
  unfold printComma
  cases last with
  | true =>
    rw [if_pos rfl, if_pos rfl, List.append_nil]
    exact .ok h
  | false =>
    simp only [Bool.false_eq_true, if_false] at hn ⊢
    rw [h.format_eq]
    exact (serves_ensureAndStore h (by simp) (by omega)).bind fun p' hp' ↦
      .ok (hp'.advance (List.prefix_append _ _) (by omega))

private theorem serves_printTabs (h : Holds limit format depth text p)
    (hn : text.length + (if format then tabs depth else []).length + 2 ≤ n) :
    Serves (n ≤ limit) (Holds limit format depth (text ++ if format then tabs depth else []))
      (printTabs fresh p) := by
  have hlen : (tabs depth).length = depth := List.length_replicate
  unfold printTabs
  rw [h.format_eq, h.depth_eq]
  cases format with
  | true =>
    simp only [if_true] at hn ⊢
    refine (serves_ensureAndStore h (by omega) (by omega)).bind fun p' hp' ↦ ?_
    have hadvance := hp'.advance (List.prefix_refl _) hlen.le
    rw [hlen, ← hp'.depth_eq] at hadvance
    rw [← hp'.depth_eq]
    exact .ok hadvance
  | false =>
    simp only [Bool.false_eq_true, if_false, List.append_nil] at hn ⊢
    exact .ok h

private theorem serves_printColon (h : Holds limit format depth text p)
    (hn : text.length + (if format then [58, 9] else [58] : Bytes).length + 2 ≤ n) :
    Serves (n ≤ limit) (Holds limit format depth (text ++ if format then [58, 9] else [58]))
      (printColon fresh p) := by
  unfold printColon
  rw [h.format_eq]
  exact (serves_ensureAndStore h (by omega) (by omega)).bind fun p' hp' ↦
    .ok (hp'.advance (List.prefix_refl _) (Nat.le_refl _))

private theorem serves_printEnd (h : Holds limit format depth text p) (last : Bool)
    (hn : text.length +
      ((if last then [] else [44]) ++ if format then [LF] else [] : Bytes).length + 2 ≤ n) :
    Serves (n ≤ limit)
      (Holds limit format depth
        (text ++ ((if last then [] else [44]) ++ if format then [LF] else [])))
      (printEnd fresh last p) := by
  unfold printEnd
  rw [h.format_eq]
  exact (serves_ensureAndStore h (by rw [List.length_append, List.length_singleton]; omega)
    (by omega)).bind fun p' hp' ↦
    .ok (hp'.advance (List.prefix_append _ _) (by omega))

private theorem serves_word (h : Holds limit format depth text p) {word : Bytes}
    (hneeded : needed = word.length + 1) (hn : text.length + word.length + 2 ≤ n) :
    Serves (n ≤ limit) (Ended limit format depth text word)
      (ensureAndStore fresh needed (word ++ [NUL]) p) :=
  (serves_ensureAndStore h (by simp [hneeded]) (by omega)).mono fun p' hp' ↦ hp'.ended (by omega)

private theorem Holds.deeper (h : Holds limit format depth text p) :
    Holds limit format (depth + 1) text { p with depth := p.depth + 1 } :=
  { h with depth_eq := congrArg (· + 1) h.depth_eq }

private theorem Ended.shallower (h : Ended limit format (depth + 1) text s p) :
    Ended limit format depth text s { p with depth := p.depth - 1 } :=
  { h with depth_eq := by rw [h.depth_eq, Nat.add_sub_cancel] }

/-- No zero byte is printed. -/
private theorem nul_not_mem_layout (format : Bool) (depth : Nat) :
    NUL ∉ (if format then tabs depth else []) := by
  split
  · exact fun hmem ↦ absurd (List.eq_of_mem_replicate hmem) (by decide)
  · exact List.not_mem_nil

end Steps

mutual

private theorem nul_not_mem_render [LawfulCDouble D] (format : Bool) (depth : Nat) :
    ∀ item : Item D, NUL ∉ render format depth item
  | .null => by rw [render]; decide
  | .bool false => by rw [render]; decide
  | .bool true => by rw [render]; decide
  | .number d => by rw [render]; exact (numberText_fits d).2
  | .string s => by rw [render]; exact nul_not_mem_renderString s
  | .array items => by
    have hitems := nul_not_mem_renderElements format (depth + 1) items
    simp only [render, List.cons_append, List.mem_cons, List.mem_append, not_or]
    exact ⟨by decide, hitems, by decide, List.not_mem_nil⟩
  | .object members => by
    have hmembers := nul_not_mem_renderMembers format (depth + 1) members
    have htabs := nul_not_mem_layout format depth
    simp only [render, List.cons_append, List.mem_cons, List.mem_append, not_or]
    exact ⟨by decide, ⟨⟨by split <;> decide, hmembers⟩, htabs⟩, by decide, List.not_mem_nil⟩

private theorem nul_not_mem_renderElements [LawfulCDouble D] (format : Bool) (depth : Nat) :
    ∀ items : List (Item D), NUL ∉ renderElements format depth items
  | [] => by rw [renderElements]; exact List.not_mem_nil
  | item :: items => by
    have hitem := nul_not_mem_render format depth item
    have hitems := nul_not_mem_renderElements format depth items
    simp only [renderElements, List.mem_append, not_or]
    exact ⟨⟨hitem, by split <;> [exact List.not_mem_nil; split <;> decide]⟩, hitems⟩

private theorem nul_not_mem_renderMembers [LawfulCDouble D] (format : Bool) (depth : Nat) :
    ∀ members : List (Bytes × Item D), NUL ∉ renderMembers format depth members
  | [] => by rw [renderMembers]; exact List.not_mem_nil
  | (name, item) :: members => by
    have htabs := nul_not_mem_layout format depth
    have hname := nul_not_mem_renderString name
    have hitem := nul_not_mem_render format depth item
    have hmembers := nul_not_mem_renderMembers format depth members
    simp only [renderMembers, List.mem_append, not_or]
    exact ⟨⟨⟨⟨⟨htabs, hname⟩, by split <;> decide⟩, hitem⟩,
      by split <;> [exact List.not_mem_nil; decide], by split <;> decide⟩, hmembers⟩

end

mutual

/-- `print_value` prints the item. It fails only where two bytes more than the text do not fit. -/
private theorem serves_printValue [LawfulCDouble D] {fresh : Nat → Nat → UInt8} {limit n : Nat}
    {format : Bool} : ∀ (item : Item D) {depth : Nat} {text : Bytes} {p : PrintBuffer},
    Holds limit format depth text p → text.length + (render format depth item).length + 2 ≤ n →
    Serves (n ≤ limit) (Ended limit format depth text (render format depth item))
      (printValue fresh item p)
  | .null, _, _, _, h, hn => by
    rw [render] at hn ⊢
    exact serves_word h (by decide) hn
  | .bool false, _, _, _, h, hn => by
    rw [render] at hn ⊢
    exact serves_word h (by decide) hn
  | .bool true, _, _, _, h, hn => by
    rw [render] at hn ⊢
    exact serves_word h (by decide) hn
  | .number d, _, _, _, h, hn => by
    rw [render] at hn ⊢
    exact serves_printNumber h d hn
  | .string s, _, _, _, h, hn => by
    rw [render] at hn ⊢
    exact serves_printStringPtr h s hn
  | .array items, depth, text, p, h, hn => by
    have hlen : (render format depth (.array items)).length =
        1 + (renderElements format (depth + 1) items).length + 1 := by
      rw [render]
      simp only [List.length_append, List.length_cons, List.length_nil]
      omega
    rw [hlen] at hn
    rw [printValue]
    refine (serves_ensureAndStore h (by simp) (by omega)).bind fun p₁ hp₁ ↦ ?_
    have hopen := (hp₁.advance (List.prefix_refl _) (Nat.le_refl _)).deeper
    refine (serves_printElements items hopen ?_).bind fun p₂ hp₂ ↦ ?_
    · rw [List.length_append, List.length_singleton]
      omega
    refine (@serves_ensureAndStore fresh _ _ 2 n _ _ ([93] ++ [NUL]) _ hp₂ (by simp) ?_).bind
      fun p₃ hp₃ ↦ ?_
    · simp only [List.length_append, List.length_singleton]
      omega
    have hended := (hp₃.ended (by simp)).regroup.regroup.shallower
    rw [render]
    simp only [List.cons_append, List.nil_append] at hended ⊢
    exact .ok hended
  | .object members, depth, text, p, h, hn => by
    have hlen : (render format depth (.object members)).length =
        (123 :: if format then [LF] else []).length +
          (renderMembers format (depth + 1) members).length +
          (if format then tabs depth else []).length + 1 := by
      rw [render]
      simp only [List.length_append, List.length_cons, List.length_nil]
      omega
    have htabs : (if format then depth + 1 + 1 else 2) =
        (if format then tabs depth else []).length + 2 := by
      cases format with
      | true => simp [tabs]
      | false => rfl
    rw [hlen] at hn
    rw [printValue, h.format_eq]
    refine (serves_ensureAndStore h (by omega) (by omega)).bind fun p₁ hp₁ ↦ ?_
    have hopen := (hp₁.advance (List.prefix_refl _) (by omega)).deeper
    refine (serves_printMembers members hopen ?_).bind fun p₂ hp₂ ↦ ?_
    · rw [List.length_append]
      omega
    rw [hp₂.format_eq, hp₂.depth_eq, htabs, Nat.add_sub_cancel,
      show [125, NUL] = [125] ++ [NUL] from rfl, ← List.append_assoc]
    refine (@serves_ensureAndStore fresh _ _ _ n _ _
      (((if format then tabs depth else []) ++ [125]) ++ [NUL]) _ hp₂ ?_ ?_).bind fun p₃ hp₃ ↦ ?_
    · simp
    · simp only [List.length_append]
      omega
    have hended := (hp₃.ended (by simp)).regroup.regroup.shallower
    rw [render]
    simp only [List.cons_append, List.append_assoc] at hended ⊢
    exact .ok hended

/-- The loop of `print_array` prints the elements. -/
private theorem serves_printElements [LawfulCDouble D] {fresh : Nat → Nat → UInt8} {limit n : Nat}
    {format : Bool} : ∀ (items : List (Item D)) {depth : Nat} {text : Bytes} {p : PrintBuffer},
    Holds limit format depth text p →
    text.length + (renderElements format depth items).length + 3 ≤ n →
    Serves (n ≤ limit) (Holds limit format depth (text ++ renderElements format depth items))
      (printElements fresh items p)
  | [], _, _, _, h, _ => by
    rw [renderElements, List.append_nil]
    exact .ok h
  | item :: items, depth, text, p, h, hn => by
    rw [renderElements, List.length_append, List.length_append] at hn
    rw [printElements]
    refine (serves_printValue item h (by omega)).bind fun p₁ hp₁ ↦ ?_
    obtain ⟨p₂, hupdate, hp₂, -⟩ := hp₁.updateOffset (nul_not_mem_render format depth item)
    rw [hupdate]
    refine (serves_printComma hp₂ items.isEmpty ?_).bind fun p₃ hp₃ ↦ ?_
    · rw [List.length_append]
      omega
    refine (serves_printElements items hp₃ ?_).mono fun p₄ hp₄ ↦ ?_
    · simp only [List.length_append]
      omega
    · rw [renderElements]
      simpa only [List.append_assoc] using hp₄

/-- The loop of `print_object` prints the members. -/
private theorem serves_printMembers [LawfulCDouble D] {fresh : Nat → Nat → UInt8} {limit n : Nat}
    {format : Bool} : ∀ (members : List (Bytes × Item D)) {depth : Nat} {text : Bytes}
    {p : PrintBuffer}, Holds limit format depth text p →
    text.length + (renderMembers format depth members).length + 3 ≤ n →
    Serves (n ≤ limit) (Holds limit format depth (text ++ renderMembers format depth members))
      (printMembers fresh members p)
  | [], _, _, _, h, _ => by
    rw [renderMembers, List.append_nil]
    exact .ok h
  | (name, item) :: members, depth, text, p, h, hn => by
    simp only [renderMembers, List.length_append] at hn
    rw [printMembers]
    refine (serves_printTabs h (by omega)).bind fun p₁ hp₁ ↦ ?_
    refine (serves_printStringPtr hp₁ name ?_).bind fun p₂ hp₂ ↦ ?_
    · rw [List.length_append]
      omega
    obtain ⟨p₃, hupdate, hp₃, -⟩ := hp₂.updateOffset (nul_not_mem_renderString name)
    rw [hupdate]
    refine (serves_printColon hp₃ ?_).bind fun p₄ hp₄ ↦ ?_
    · simp only [List.length_append]
      omega
    refine (serves_printValue item hp₄ ?_).bind fun p₅ hp₅ ↦ ?_
    · simp only [List.length_append]
      omega
    obtain ⟨p₆, hupdate', hp₆, -⟩ := hp₅.updateOffset (nul_not_mem_render format depth item)
    rw [hupdate']
    refine (serves_printEnd hp₆ members.isEmpty ?_).bind fun p₇ hp₇ ↦ ?_
    · simp only [List.length_append]
      omega
    refine (serves_printMembers members hp₇ ?_).mono fun p₈ hp₈ ↦ ?_
    · simp only [List.length_append]
      omega
    · simp only [renderMembers, List.append_assoc] at hp₈ ⊢
      exact hp₈

end

/-! ### The text in the block -/

/-- The C string in the block is this text. -/
def HasText (text block : Bytes) : Prop := cstr block = text ∧ NUL ∈ block

private theorem hasText_of_append_nul {text block : Bytes} (h : text ++ [NUL] <+: block)
    (hnul : NUL ∉ text) : HasText text block := by
  obtain ⟨rest, rfl⟩ := h
  rw [HasText, List.append_assoc, List.singleton_append, cstr_append_nul, cstr_of_nul_not_mem hnul]
  exact ⟨rfl, by simp⟩

private theorem Ended.hasText [LawfulCDouble D] {limit depth : Nat} {format : Bool} {item : Item D}
    {p : PrintBuffer} (h : Ended limit format depth [] (render format depth item) p) :
    HasText (render format depth item) p.buffer :=
  hasText_of_append_nul h.printed (nul_not_mem_render format depth item)

/-- `cJSON_Print`, `cJSON_PrintUnformatted` and `cJSON_PrintBuffered` stay in their block, whatever
there is in new memory, and return; a text that they return is that of the item, and they return one
unless it reaches the limit of an `int`. -/
theorem serves_print [LawfulCDouble D] (fresh : Nat → Nat → UInt8) (item : Item D) (format : Bool) :
    Serves ((render format 0 item).length + 2 ≤ intMax) (HasText (render format 0 item))
        (print fresh item format) ∧
      ∀ prebuffer ≤ intMax,
        Serves ((render format 0 item).length + 2 ≤ intMax) (HasText (render format 0 item))
          (cJSONPrintBuffered fresh item prebuffer format) := by
  have hmalloc (size : Nat) : (malloc fresh size).length = size := by
    rw [malloc, List.length_map, List.length_range]
  constructor
  · have hstart : Holds intMax format 0 [] ⟨malloc fresh 256, 0, 0, 0, false, format⟩ :=
      ⟨List.nil_prefix, rfl, Nat.zero_le _, Or.inl rfl, Nat.zero_le _, rfl, rfl, rfl⟩
    refine (serves_printValue item hstart (by rw [List.length_nil, Nat.zero_add])).bind
      fun p hp ↦ ?_
    obtain ⟨p', hupdate, -, hbuffer, hlength⟩ := hp.updateOffset (nul_not_mem_render format 0 item)
    rw [hupdate]
    refine .ok (hasText_of_append_nul ?_ (nul_not_mem_render format 0 item))
    rw [hbuffer, hlength]
    refine prefix_realloc hp.printed ?_
    have hlt := hp.lt_length
    rw [List.nil_append] at hlt
    rw [List.length_append, List.length_singleton]
    exact hlt
  · intro prebuffer hle
    have hstart : Holds intMax format 0 []
        ⟨malloc fresh prebuffer, prebuffer, 0, 0, false, format⟩ :=
      ⟨List.nil_prefix, rfl, (hmalloc _).ge, Nat.eq_zero_or_pos _, hle, rfl, rfl, rfl⟩
    refine (serves_printValue item hstart (by rw [List.length_nil, Nat.zero_add])).bind
      fun p hp ↦ .ok hp.hasText

/-- `cJSON_PrintPreallocated` stays in the bytes that it is given, and returns; what it prints there
is the text of the item, and it prints where this fits with its zero byte and one byte more. -/
theorem serves_cJSONPrintPreallocated [LawfulCDouble D] (fresh : Nat → Nat → UInt8) (item : Item D)
    (fmt : Bool) {buf : Bytes} (hlen : buf.length ≤ intMax) :
    Serves ((render fmt 0 item).length + 2 ≤ buf.length)
      (fun printed ↦ HasText (render fmt 0 item) printed ∧
        (render fmt 0 item).length < buf.length)
      (cJSONPrintPreallocated fresh item buf buf.length fmt) := by
  have hstart : Holds buf.length fmt 0 [] ⟨buf, buf.length, 0, 0, true, fmt⟩ :=
    ⟨List.nil_prefix, rfl, Nat.le_refl _, Nat.eq_zero_or_pos _, hlen, rfl, rfl, rfl⟩
  refine (serves_printValue item hstart (by rw [List.length_nil, Nat.zero_add])).bind
    fun p hp ↦ .ok ⟨hp.hasText, ?_⟩
  have hlimit : p.length ≤ p.limit := by
    rw [PrintBuffer.limit]
    split
    · exact Nat.le_refl _
    · exact hp.length_le_intMax
  have hlt := hp.lt_length
  rw [hp.limit_eq] at hlimit
  rw [List.nil_append] at hlt
  exact hlt.trans_le hlimit

theorem serves_cJSONPrintPreallocated_array :
    Serves ((render false 0 (.array [.number (-5 : Int), .null])).length + 2 ≤
        (List.replicate 64 (0xFF : UInt8)).length)
      (fun printed ↦ HasText (render false 0 (.array [.number (-5 : Int), .null])) printed ∧
        (render false 0 (.array [.number (-5 : Int), .null])).length <
          (List.replicate 64 (0xFF : UInt8)).length)
      (cJSONPrintPreallocated (fun _ _ ↦ 0xFF) (.array [.number (-5 : Int), .null])
        (List.replicate 64 0xFF) (List.replicate 64 (0xFF : UInt8)).length false) :=
  serves_cJSONPrintPreallocated _ _ false (by decide)

end Kitty.CJson
