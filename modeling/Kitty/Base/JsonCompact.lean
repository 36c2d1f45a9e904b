import Kitty.Base.JsonText

/-!
# JSON without white space

A value printed with nothing between its tokens and with its strings as they are. Where none of the
strings needs an escape, what is printed is read as the value.
-/

namespace Kitty.Base.Json

mutual

/-- The text of a value. -/
def compact : Value → Bytes
  | .null => lit "null"
  | .bool b => if b then lit "true" else lit "false"
  | .number text => text
  | .string s => quoted s
  | .array items => 91 :: (compactItems items ++ [93])
  | .object members => 123 :: (compactMembers members ++ [125])

/-- The texts of the items of an array. -/
def compactItems : List Value → Bytes
  | [] => []
  | v :: vs => compact v ++ (if vs.isEmpty then [] else 44 :: compactItems vs)

/-- The names and texts of the members of an object. -/
def compactMembers : List (Bytes × Value) → Bytes
  | [] => []
  | (name, v) :: ms =>
    quoted name ++ 58 :: (compact v ++ (if ms.isEmpty then [] else 44 :: compactMembers ms))

end

/-- A string that needs no escape. -/
def IsPlainText (s : Bytes) : Prop := Plain s ∧ isUtf8 s = true

instance (s : Bytes) : Decidable (IsPlainText s) := inferInstanceAs (Decidable (_ ∧ _))

theorem IsPlainText.append {a b : Bytes} (ha : IsPlainText a) (hb : IsPlainText b) :
    IsPlainText (a ++ b) := ⟨List.forall_mem_append.mpr ⟨ha.1, hb.1⟩, isUtf8_append ha.2 hb.2⟩

mutual

/-- No string in the value needs an escape, and each number is one. -/
def Unescaped : Value → Prop
  | .null => True
  | .bool _ => True
  | .number text => IsNumber text
  | .string s => IsPlainText s
  | .array items => ItemsUnescaped items
  | .object members => MembersUnescaped members

/-- So it is for the items of an array. -/
def ItemsUnescaped : List Value → Prop
  | [] => True
  | v :: vs => Unescaped v ∧ ItemsUnescaped vs

/-- So it is for the members of an object. -/
def MembersUnescaped : List (Bytes × Value) → Prop
  | [] => True
  | (name, v) :: ms => IsPlainText name ∧ Unescaped v ∧ MembersUnescaped ms

end

/-- Behind the first item each one has a comma before it. -/
theorem compactItems_cons (v : Value) (vs : List Value) :
    compactItems (v :: vs) = compact v ++ vs.flatMap fun w ↦ 44 :: compact w := by
  induction vs generalizing v with
  | nil => rw [compactItems]; rfl
  | cons w vs ih =>
    rw [compactItems, List.isEmpty_cons, if_neg Bool.false_ne_true, ih w, List.flatMap_cons]
    rfl

theorem itemsUnescaped_iff {vs : List Value} : ItemsUnescaped vs ↔ ∀ v ∈ vs, Unescaped v := by
  induction vs with
  | nil => simp [ItemsUnescaped]
  | cons v vs ih => rw [ItemsUnescaped, ih, List.forall_mem_cons]

/-! ### What the text is read as -/

private theorem isTokenByte_comma : isTokenByte 44 = false := by decide

private theorem head_cons {c : UInt8} (hc : isTokenByte c = false) (rest : Bytes) :
    ∀ b ∈ (c :: rest).head?, isTokenByte b = false := fun b hb ↦ by
  cases hb
  exact hc

/-- No word is a number. -/
theorem scalarOf_isNumber {text : Bytes} (h : IsNumber text) :
    scalarOf text = some (.number text) := by
  have hword : ∀ word ∈ [lit "null", lit "true", lit "false"], text ≠ word := by
    rintro word hmem rfl
    simp only [List.mem_cons, List.not_mem_nil, or_false] at hmem
    rcases hmem with rfl | rfl | rfl <;> exact absurd h (by decide)
  simp only [List.forall_mem_cons] at hword
  rw [scalarOf, if_neg hword.1, if_neg hword.2.1, if_neg hword.2.2.1, if_pos h]

mutual

/-- The text of a value is read as the value. -/
theorem isText_compact : ∀ {v : Value}, Unescaped v → IsText v (compact v)
  | .null, _ => by
    rw [compact]
    exact isText_scalar (by rw [scalarOf, if_pos rfl])
  | .bool false, _ => by
    rw [compact]
    exact isText_scalar (by rw [scalarOf, if_neg (by decide), if_neg (by decide)]; rfl)
  | .bool true, _ => by
    rw [compact]
    exact isText_scalar (by rw [scalarOf, if_neg (by decide)]; rfl)
  | .number text, h => by
    rw [Unescaped] at h
    rw [compact]
    exact isText_scalar (scalarOf_isNumber h)
  | .string s, h => by
    rw [Unescaped] at h
    rw [compact]
    exact isText_quoted h.1
  | .array [], _ => fun r _ ↦ by
    rw [compact, compactItems]
    exact .emptyArray (Ws.refl (93 :: r))
  | .array (v :: vs), h => fun r _ ↦ by
    rw [Unescaped] at h
    rw [compact, List.cons_append, List.append_assoc]
    exact .array (Ws.refl _) (reads_compactItems (List.cons_ne_nil _ _) h r)
  | .object [], _ => fun r _ ↦ by
    rw [compact, compactMembers]
    exact .emptyObject (Ws.refl (125 :: r))
  | .object (m :: ms), h => fun r _ ↦ by
    rw [Unescaped] at h
    rw [compact, List.cons_append, List.append_assoc]
    exact .object (Ws.refl _) (reads_compactMembers (List.cons_ne_nil _ _) h r)

/-- So are the texts of the items of an array, up to its end. -/
private theorem reads_compactItems : ∀ {vs : List Value}, vs ≠ [] → ItemsUnescaped vs →
    ∀ r : Bytes, Reads (compactItems vs ++ ([93] ++ r)) (.items vs) r
  | [], hne, _, _ => absurd rfl hne
  | [v], _, h, r => by
    rw [ItemsUnescaped] at h
    rw [compactItems, List.isEmpty_nil, if_pos rfl, List.append_nil]
    exact .lastItem (isText_compact h.1 _ (head_cons (by decide) _)) (Ws.refl _)
  | v :: w :: vs, _, h, r => by
    rw [ItemsUnescaped] at h
    rw [compactItems, List.isEmpty_cons, if_neg Bool.false_ne_true, List.append_assoc]
    exact .item (isText_compact h.1 _ (head_cons isTokenByte_comma _)) (Ws.refl _) (Ws.refl _)
      (reads_compactItems (List.cons_ne_nil _ _) h.2 r)

/-- So are those of the members of an object. -/
private theorem reads_compactMembers : ∀ {ms : List (Bytes × Value)}, ms ≠ [] →
    MembersUnescaped ms → ∀ r : Bytes, Reads (compactMembers ms ++ ([125] ++ r)) (.members ms) r
  | [], hne, _, _ => absurd rfl hne
  | [(name, v)], _, h, r => by
    rw [MembersUnescaped] at h
    have hmember := Reads.lastMember (decodeChars_of_plain h.1.1) (Ws.refl _) (Ws.refl _)
      (isText_compact h.2.1 _ (head_cons (by decide) r)) (Ws.refl (125 :: r))
    rw [compactMembers, List.isEmpty_nil, if_pos rfl, List.append_nil]
    simpa [quoted] using hmember
  | (name, v) :: m :: ms, _, h, r => by
    rw [MembersUnescaped] at h
    have hmember := Reads.member (decodeChars_of_plain h.1.1) (Ws.refl _) (Ws.refl _)
      (isText_compact h.2.1 _ (head_cons isTokenByte_comma _)) (Ws.refl _) (Ws.refl _)
      (reads_compactMembers (List.cons_ne_nil m ms) h.2.2 r)
    rw [compactMembers, List.isEmpty_cons, if_neg Bool.false_ne_true]
    simpa [quoted] using hmember

end

/-! ### UTF-8 -/

theorem isUtf8_token {text : Bytes} (h : ∀ b ∈ text, isTokenByte b = true) :
    isUtf8 text = true := by
  refine isUtf8_ascii (List.all_eq_true.mpr fun b hb ↦ ?_)
  have hall : ((List.range 256).all fun n ↦ !isTokenByte (UInt8.ofNat n) ||
      decide (UInt8.ofNat n ≤ 0x7F)) = true := by decide +kernel
  have hbyte := List.all_eq_true.mp hall b.toNat (List.mem_range.mpr b.toNat_lt)
  rw [UInt8.ofNat_toNat, h b hb] at hbyte
  exact hbyte

private theorem isUtf8_quoted {s : Bytes} (h : isUtf8 s = true) : isUtf8 (quoted s) = true := by
  rw [quoted, isUtf8_cons_of_le (by decide)]
  exact isUtf8_append h (by decide)

private theorem isUtf8_cons {b : UInt8} (hb : b ≤ 0x7F) {text : Bytes} (h : isUtf8 text = true) :
    isUtf8 (b :: text) = true := (isUtf8_cons_of_le hb text).trans h

mutual

private theorem isUtf8_compact : ∀ {v : Value}, Unescaped v → isUtf8 (compact v) = true
  | .null, _ => by rw [compact]; decide
  | .bool false, _ => by rw [compact]; decide
  | .bool true, _ => by rw [compact]; decide
  | .number text, h => by
    rw [Unescaped] at h
    rw [compact]
    exact isUtf8_token h.tokenBytes.2
  | .string s, h => by
    rw [Unescaped] at h
    rw [compact]
    exact isUtf8_quoted h.2
  | .array items, h => by
    rw [Unescaped] at h
    rw [compact]
    exact isUtf8_cons (by decide) (isUtf8_append (isUtf8_compactItems h) (by decide))
  | .object members, h => by
    rw [Unescaped] at h
    rw [compact]
    exact isUtf8_cons (by decide) (isUtf8_append (isUtf8_compactMembers h) (by decide))

private theorem isUtf8_compactItems : ∀ {vs : List Value}, ItemsUnescaped vs →
    isUtf8 (compactItems vs) = true
  | [], _ => by rw [compactItems]; rfl
  | v :: vs, h => by
    rw [ItemsUnescaped] at h
    rw [compactItems]
    refine isUtf8_append (isUtf8_compact h.1) ?_
    split
    · rfl
    · exact isUtf8_cons (by decide) (isUtf8_compactItems h.2)

private theorem isUtf8_compactMembers : ∀ {ms : List (Bytes × Value)}, MembersUnescaped ms →
    isUtf8 (compactMembers ms) = true
  | [], _ => by rw [compactMembers]; rfl
  | (name, v) :: ms, h => by
    rw [MembersUnescaped] at h
    rw [compactMembers]
    refine isUtf8_append (isUtf8_quoted h.1.2) (isUtf8_cons (by decide) ?_)
    refine isUtf8_append (isUtf8_compact h.2.1) ?_
    split
    · rfl
    · exact isUtf8_cons (by decide) (isUtf8_compactMembers h.2.2)

end

/-! ### Documents -/

/-- What is printed is a document with the value. -/
theorem parse_compact {v : Value} (h : Unescaped v) : parse (compact v) = some v := by
  have hreads := isText_compact h [] fun b hb ↦ nomatch hb
  rw [List.append_nil] at hreads
  exact (parse_eq_some_iff _ _).mpr
    ⟨isUtf8_compact h, _, [], Ws.refl _, hreads, Ws.refl _⟩

end Kitty.Base.Json
