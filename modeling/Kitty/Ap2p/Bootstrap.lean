import Kitty.Base.Find
import Kitty.Base.JsonText
import Kitty.Signal.Stoi

/-!
# Strings of the bootstrap file

`extract_json_string` looks for a key in the text of a JSON object and takes the string behind the
next colon; `src/ap2p/config.c:154–190`. It finds the key wherever it stands between two quotes,
which need not be as the name of a member.
-/

namespace Kitty.Ap2p

open Kitty.Base Kitty.Base.Json
open Kitty.Signal (isSpace)

/-- The byte `:` between a name and its value. -/
def COLON : UInt8 := 58

/-! ### The program -/

/-- `p > src && *(p - 1) == '"' && p[klen] == '"'` at a place in the text. -/
def betweenQuotes (src key : Bytes) (p : Nat) : Bool :=
  decide (0 < p ∧ src[p - 1]? = some QUOTE ∧ src[p + key.length]? = some QUOTE)

/-- The loop over `strstr`, from `p` on. -/
def locateKey (src key : Bytes) : Nat → Nat → Option Nat
  | 0, _ => none
  | rounds + 1, p =>
    match findFrom key src p with
    | none => none
    | some p => if betweenQuotes src key p then some p
      else locateKey src key rounds (p + key.length)

/-- Where `extract_json_string` begins to copy, in the C strings `src` and `key`. -/
def jsonStart (src key : Bytes) : Option Nat :=
  if key.length = 0 then none
  else do
    let p ← locateKey src key src.length 0
    let p := p + key.length
    let p := p + ((src.drop p).takeWhile (· ≠ COLON)).length
    if src[p]? = none then none
    else
      let p := p + 1
      let p := p + ((src.drop p).takeWhile isSpace).length
      if src[p]? ≠ some QUOTE then none else some (p + 1)

/-- `extract_json_string`: what it copies to `out`, or nothing when it returns -1. -/
def extractJsonString (src key : Bytes) (outSz : Nat) : Option Bytes :=
  (jsonStart src key).map fun p ↦ ((src.drop p).takeWhile (· ≠ QUOTE)).take (outSz - 1)

/-! ### Flat objects -/

/-- A value that is no array and no object: a string without escapes, or a number or a word. -/
inductive FlatValue where
  | string (s : Bytes)
  | token (text : Bytes)
  deriving DecidableEq

/-- The text of a value. -/
def FlatValue.text : FlatValue → Bytes
  | .string s => quoted s
  | .token text => text

/-- The string that a value is. -/
def FlatValue.string? : FlatValue → Option Bytes
  | .string s => some s
  | .token _ => none

/-- A member of an object, with the white space in it. -/
structure FlatMember where
  before : Bytes
  name : Bytes
  beforeColon : Bytes
  afterColon : Bytes
  value : FlatValue
  after : Bytes
  deriving DecidableEq

/-- The text of a member up to its colon. -/
def FlatMember.head (m : FlatMember) : Bytes := m.before ++ (quoted m.name ++ m.beforeColon)

/-- The text of a member. -/
def FlatMember.text (m : FlatMember) : Bytes :=
  m.head ++ COLON :: (m.afterColon ++ (m.value.text ++ m.after))

/-- A flat object, with the white space around its members. -/
structure FlatObject where
  lead : Bytes
  inner : Bytes
  members : List FlatMember
  trail : Bytes
  deriving DecidableEq

/-- The text of the members and of what follows them. -/
def membersText (after : Bytes) : List FlatMember → Bytes
  | [] => after
  | [m] => m.text ++ after
  | m :: m' :: ms => m.text ++ 44 :: membersText after (m' :: ms)

/-- The document. -/
def FlatObject.text (o : FlatObject) : Bytes :=
  o.lead ++ 123 :: (o.inner ++ membersText (125 :: o.trail) o.members)

/-- A string without escapes, or a number or a word of JSON. -/
def FlatValue.WellFormed : FlatValue → Prop
  | .string s => Plain s
  | .token text => (scalarOf text).isSome

instance : (v : FlatValue) → Decidable v.WellFormed
  | .string s => inferInstanceAs (Decidable (Plain s))
  | .token text => inferInstanceAs (Decidable ((scalarOf text).isSome = true))

/-- A member with the white space of JSON in it. -/
def FlatMember.WellFormed (m : FlatMember) : Prop :=
  Blank m.before ∧ Plain m.name ∧ Blank m.beforeColon ∧ Blank m.afterColon ∧ Blank m.after ∧
    m.value.WellFormed

instance (m : FlatMember) : Decidable m.WellFormed := inferInstanceAs (Decidable (_ ∧ _))

/-- A flat object of JSON. -/
def FlatObject.WellFormed (o : FlatObject) : Prop :=
  Blank o.lead ∧ Blank o.inner ∧ Blank o.trail ∧ ∀ m ∈ o.members, m.WellFormed

instance (o : FlatObject) : Decidable o.WellFormed :=
  have : Decidable (∀ m ∈ o.members, m.WellFormed) := List.decidableBAll _ o.members
  inferInstanceAs (Decidable (_ ∧ _))

/-- The first member of a name, and the place of its colon, among members that begin at a place. -/
def memberFrom (key : Bytes) : List FlatMember → Nat → Option (FlatMember × Nat)
  | [], _ => none
  | m :: ms, place =>
    if m.name = key then some (m, place + m.head.length)
    else memberFrom key ms (place + m.text.length + 1)

/-- The member of a name, and the place of its colon in the document. -/
def FlatObject.member (o : FlatObject) (key : Bytes) : Option (FlatMember × Nat) :=
  memberFrom key o.members (o.lead.length + 1 + o.inner.length)

/-- The member of a name when it is a string, with its string and the place of its colon. -/
def FlatObject.stringMember (o : FlatObject) (key : Bytes) : Option (FlatMember × Bytes × Nat) :=
  (o.member key).bind fun (m, colon) ↦ m.value.string?.map fun s ↦ (m, s, colon)

/-- The string taken is the one of the member of that name, and none when there is none. -/
structure JsonExact (o : FlatObject) (key : Bytes) (outSz : Nat) : Prop where
  start : jsonStart o.text key =
    (o.stringMember key).map fun (m, _, colon) ↦ colon + 1 + m.afterColon.length + 1
  value : extractJsonString o.text key outSz =
    (o.stringMember key).map fun (_, s, _) ↦ s.take (outSz - 1)

/-! ### The documents of flat objects -/

/-- The JSON value. -/
def FlatValue.value : FlatValue → Value
  | .string s => .string s
  | .token text => (scalarOf text).getD .null

/-- The JSON values of the members. -/
def FlatObject.values (o : FlatObject) : List (Bytes × Value) :=
  o.members.map fun m ↦ (m.name, m.value.value)

theorem FlatValue.WellFormed.isText {v : FlatValue} (h : v.WellFormed) : IsText v.value v.text := by
  cases v with
  | string s => exact isText_quoted h
  | token text =>
    obtain ⟨w, hw⟩ := Option.isSome_iff_exists.mp h
    rw [FlatValue.value, hw]
    exact isText_scalar hw

private theorem head_blank_append {w rest : Bytes} {c : UInt8} (hw : Blank w)
    (hc : isTokenByte c = false) : ∀ b ∈ (w ++ c :: rest).head?, isTokenByte b = false := by
  intro b hb
  cases w with
  | nil =>
    cases hb
    exact hc
  | cons d w =>
    cases hb
    have hblank := hw b List.mem_cons_self
    simp only [isWs, Bool.or_eq_true, beq_iff_eq] at hblank
    obtain ((rfl | rfl) | rfl) | rfl := hblank <;> decide

/-- Members are read as their values. -/
theorem reads_membersText {ms : List FlatMember} (hne : ms ≠ [])
    (h : ∀ m ∈ ms, m.WellFormed) (r : Bytes) :
    ∃ l, Ws (membersText (125 :: r) ms) l ∧
      Reads l (.members (ms.map fun m ↦ (m.name, m.value.value))) r := by
  induction ms with
  | nil => contradiction
  | cons m ms ih =>
    obtain ⟨hbefore, hname, hcolon, hspace, hafter, hvalue⟩ := h m List.mem_cons_self
    cases ms with
    | nil =>
      have hread := Reads.lastMember (decodeChars_of_plain hname)
        (hcolon.ws (58 :: (m.afterColon ++ (m.value.text ++ (m.after ++ 125 :: r)))))
        (hspace.ws _) (hvalue.isText _ (head_blank_append hafter (by decide)))
        (hafter.ws (125 :: r))
      refine ⟨_, ?_, hread⟩
      have hws := hbefore.ws (QUOTE :: (m.name ++ QUOTE :: (m.beforeColon ++
        58 :: (m.afterColon ++ (m.value.text ++ (m.after ++ 125 :: r))))))
      simpa [membersText, FlatMember.text, FlatMember.head, quoted, COLON] using hws
    | cons m' ms =>
      obtain ⟨l, hws, hreads⟩ := ih (List.cons_ne_nil _ _) fun n hn ↦
        h n (List.mem_cons_of_mem _ hn)
      have hread := Reads.member (decodeChars_of_plain hname)
        (hcolon.ws (58 :: (m.afterColon ++ (m.value.text ++ (m.after ++ 44 ::
          membersText (125 :: r) (m' :: ms))))))
        (hspace.ws _) (hvalue.isText _ (head_blank_append hafter (by decide)))
        (hafter.ws (44 :: membersText (125 :: r) (m' :: ms))) hws hreads
      refine ⟨_, ?_, hread⟩
      have hws' := hbefore.ws (QUOTE :: (m.name ++ QUOTE :: (m.beforeColon ++
        58 :: (m.afterColon ++ (m.value.text ++ (m.after ++ 44 ::
          membersText (125 :: r) (m' :: ms)))))))
      simpa [membersText, FlatMember.text, FlatMember.head, quoted, COLON] using hws'

/-- The document of a flat object is read as the object. -/
theorem FlatObject.WellFormed.reads {o : FlatObject} (h : o.WellFormed) :
    ∃ l, Ws o.text l ∧ Reads l (.value (.object o.values)) o.trail := by
  obtain ⟨hlead, hinner, -, hmembers⟩ := h
  refine ⟨_, hlead.ws _, ?_⟩
  by_cases hne : o.members = []
  · rw [FlatObject.values, hne]
    exact Reads.emptyObject (hinner.ws _)
  · obtain ⟨l, hws, hreads⟩ := reads_membersText hne hmembers o.trail
    have hws' : Ws (o.inner ++ membersText (125 :: o.trail) o.members) l := by
      obtain ⟨w, hw, hblank⟩ := hws
      refine ⟨o.inner ++ w, by rw [hw, List.append_assoc], fun b hb ↦ ?_⟩
      obtain hb | hb := List.mem_append.mp hb
      · exact hinner b hb
      · exact hblank b hb
    exact Reads.object hws' hreads

/-- Neither an array nor an object. -/
def IsFlat : Value → Prop
  | .array _ | .object _ => False
  | _ => True

/-- The text of a flat value. -/
theorem exists_flatValue {l r : Bytes} {v : Value} (h : Reads l (.value v) r) (hflat : IsFlat v)
    (hescape : BACKSLASH ∉ l) :
    ∃ value : FlatValue, value.WellFormed ∧ value.value = v ∧ l = value.text ++ r := by
  cases h with
  | scalar hscalar _ =>
    refine ⟨.token _, ?_, ?_, rfl⟩
    · exact Option.isSome_iff_exists.mpr ⟨v, hscalar⟩
    · rw [FlatValue.value, hscalar]
      rfl
  | string hchars _ =>
    obtain ⟨hplain, rfl⟩ := plain_of_decodeChars hchars fun hb ↦
      hescape (List.mem_cons_of_mem _ (List.mem_append_left _ hb))
    exact ⟨.string _, hplain, rfl, by simp [FlatValue.text, quoted]⟩
  | emptyArray _ => exact hflat.elim
  | array _ _ => exact hflat.elim
  | emptyObject _ => exact hflat.elim
  | object _ _ => exact hflat.elim

/-- The text of flat members, with the white space before them. -/
theorem exists_flatMembers {l r : Bytes} {ms : List (Bytes × Value)}
    (h : Reads l (.members ms) r) (hflat : ∀ m ∈ ms, IsFlat m.2) (hescape : BACKSLASH ∉ l)
    {w : Bytes} (hw : Blank w) :
    ∃ members : List FlatMember, (∀ m ∈ members, m.WellFormed) ∧
      (members.map fun m ↦ (m.name, m.value.value)) = ms ∧ members ≠ [] ∧
      w ++ l = membersText (125 :: r) members := by
  generalize hnode : Node.members ms = node at h
  induction h generalizing ms w with
  | lastMember hk hcolon hws hvalue hend =>
    cases hnode
    obtain ⟨beforeColon, rfl, hbefore⟩ := hcolon
    obtain ⟨afterColon, rfl, hafter⟩ := hws
    obtain ⟨after, rfl, hblank⟩ := hend
    obtain ⟨hplain, rfl⟩ := plain_of_decodeChars hk fun hb ↦ hescape (by simp [hb])
    obtain ⟨value, hwell, rfl, rfl⟩ := exists_flatValue hvalue (hflat _ List.mem_cons_self)
      fun hb ↦ hescape (by simp [hb])
    refine ⟨[⟨w, _, beforeColon, afterColon, value, after⟩], ?_, rfl, List.cons_ne_nil _ _, ?_⟩
    · intro m hm
      rw [List.mem_singleton.mp hm]
      exact ⟨hw, hplain, hbefore, hafter, hblank, hwell⟩
    · simp [membersText, FlatMember.text, FlatMember.head, quoted, COLON]
  | @member _ k _ _ _ _ _ _ _ _ _ hk hcolon hws hvalue hcomma hws' _ _ ih =>
    cases hnode
    obtain ⟨beforeColon, rfl, hbefore⟩ := hcolon
    obtain ⟨afterColon, rfl, hafter⟩ := hws
    obtain ⟨after, rfl, hblank⟩ := hcomma
    obtain ⟨next, rfl, hnext⟩ := hws'
    obtain ⟨hplain, rfl⟩ := plain_of_decodeChars hk fun hb ↦ hescape (by simp [hb])
    obtain ⟨value, hwell, rfl, rfl⟩ := exists_flatValue hvalue (hflat _ List.mem_cons_self)
      fun hb ↦ hescape (by simp [hb])
    obtain ⟨members, hmembers, hmap, hne, htext⟩ := ih
      (fun m hm ↦ hflat m (List.mem_cons_of_mem _ hm)) (fun hb ↦ hescape (by simp [hb])) hnext rfl
    refine ⟨⟨w, k, beforeColon, afterColon, value, after⟩ :: members, ?_, ?_,
      List.cons_ne_nil _ _, ?_⟩
    · intro m hm
      obtain rfl | hm := List.mem_cons.mp hm
      · exact ⟨hw, hplain, hbefore, hafter, hblank, hwell⟩
      · exact hmembers m hm
    · rw [List.map_cons, hmap]
    · cases members with
      | nil => contradiction
      | cons m' members =>
        rw [membersText, ← htext]
        simp [FlatMember.text, FlatMember.head, quoted, COLON]
  | _ => cases hnode

private theorem scalarOf_ne_object (text : Bytes) (ms : List (Bytes × Value)) :
    scalarOf text ≠ some (.object ms) := by
  unfold scalarOf
  repeat' split
  all_goals exact fun h ↦ nomatch h

/-- A document without escapes that is read as an object of flat values is the document of a flat
object. -/
theorem exists_flatObject {doc l r : Bytes} {ms : List (Bytes × Value)} (hws : Ws doc l)
    (h : Reads l (.value (.object ms)) r) (hend : Blank r) (hflat : ∀ m ∈ ms, IsFlat m.2)
    (hescape : BACKSLASH ∉ doc) :
    ∃ o : FlatObject, o.WellFormed ∧ o.text = doc ∧ o.values = ms := by
  obtain ⟨lead, rfl, hlead⟩ := hws
  cases h with
  | scalar hscalar _ => exact absurd hscalar (scalarOf_ne_object _ ms)
  | emptyObject hinner =>
    obtain ⟨inner, rfl, hinner⟩ := hinner
    exact ⟨⟨lead, inner, [], r⟩, ⟨hlead, hinner, hend, by simp⟩, rfl, rfl⟩
  | object hinner hmembers =>
    obtain ⟨inner, rfl, hinner⟩ := hinner
    obtain ⟨members, hwell, hmap, -, htext⟩ := exists_flatMembers hmembers hflat
      (fun hb ↦ hescape (by simp [hb])) (w := []) (by decide)
    exact ⟨⟨lead, inner, members, r⟩, ⟨hlead, hinner, hend, hwell⟩,
      by rw [FlatObject.text, ← htext]; rfl, hmap⟩

/-! ### Where the key stands -/

/-- The first of the places of the key, counted without overlaps, where it stands between quotes. -/
def keyPlace (text key : Bytes) : Option Nat :=
  (places key text text.length 0).find? (betweenQuotes text key ·)

/-- The first colon from a place on. -/
def FirstColon (text : Bytes) (place colon : Nat) : Prop :=
  ∃ between rest, text.drop place = between ++ COLON :: rest ∧ COLON ∉ between ∧
    colon = place + between.length

/-- The first colon behind the first place where the key stands between quotes. -/
def ColonBehindKey (text key : Bytes) (colon : Nat) : Prop :=
  key ≠ [] ∧ ∃ p, keyPlace text key = some p ∧ FirstColon text (p + key.length) colon

/-- A quote follows the colon, perhaps after white space. -/
def QuoteFollows (text : Bytes) (colon : Nat) : Prop :=
  ∃ w rest, text.drop (colon + 1) = w ++ QUOTE :: rest ∧ ∀ b ∈ w, isSpace b = true

/-- The colon behind the first place of the key is that of the member of that name, when the member
is a string; when there is no such member, no quote follows it. -/
def KeyLeadsToMember (o : FlatObject) (key : Bytes) : Prop :=
  match o.stringMember key with
  | some (_, _, colon) => ColonBehindKey o.text key colon
  | none => ∀ colon, ColonBehindKey o.text key colon → ¬ QuoteFollows o.text colon

/-! ### The search -/

/-- The loop finds the first place between quotes. -/
theorem locateKey_eq (src key : Bytes) (rounds p : Nat) :
    locateKey src key rounds p =
      (places key src rounds p).find? (betweenQuotes src key ·) := by
  induction rounds generalizing p with
  | zero => rfl
  | succ rounds ih =>
    rw [locateKey, places]
    cases findFrom key src p with
    | none => rfl
    | some q =>
      dsimp only
      rw [List.find?_cons, ih]
      cases betweenQuotes src key q <;> rfl

private theorem getElem?_add (src : Bytes) (p n : Nat) : src[p + n]? = (src.drop p)[n]? :=
  List.getElem?_drop.symm

/-- The byte behind the elements that are skipped. -/
private theorem getElem?_takeWhile {text before rest : Bytes} {b : UInt8} {q : UInt8 → Bool}
    (h : text = before ++ b :: rest) (hbefore : ∀ c ∈ before, q c = true) (hb : q b = false) :
    (text.takeWhile q).length = before.length ∧ text[(text.takeWhile q).length]? = some b := by
  have htake : text.takeWhile q = before := by
    rw [h, List.takeWhile_append_of_pos hbefore, List.takeWhile_cons_of_neg (by simp [hb]),
      List.append_nil]
  rw [htake]
  exact ⟨rfl, by rw [h, List.getElem?_append_right le_rfl, Nat.sub_self]; rfl⟩

private theorem exists_takeWhile {text : Bytes} {b : UInt8} {q : UInt8 → Bool}
    (h : text[(text.takeWhile q).length]? = some b) :
    ∃ rest, text = text.takeWhile q ++ b :: rest := by
  have hsplit : text.takeWhile q ++ text.dropWhile q = text := List.takeWhile_append_dropWhile
  have hget : (text.takeWhile q ++ text.dropWhile q)[(text.takeWhile q).length]? = some b := by
    rw [hsplit, h]
  rw [List.getElem?_append_right le_rfl, Nat.sub_self] at hget
  cases hdrop : text.dropWhile q with
  | nil =>
    rw [hdrop] at hget
    cases hget
  | cons c rest =>
    rw [hdrop] at hget hsplit
    cases hget
    exact ⟨rest, hsplit.symm⟩

/-- The first colon is where the loop stops. -/
theorem firstColon_iff (text : Bytes) (place colon : Nat) :
    FirstColon text place colon ↔
      colon = place + ((text.drop place).takeWhile (· ≠ COLON)).length ∧
        text[colon]? ≠ none := by
  constructor
  · rintro ⟨between, rest, htext, hnot, rfl⟩
    obtain ⟨hlen, hget⟩ := getElem?_takeWhile (q := (· ≠ COLON)) htext
      (fun c hc ↦ decide_eq_true fun heq : c = COLON ↦ hnot (heq ▸ hc)) (by simp)
    rw [hlen] at hget ⊢
    exact ⟨rfl, by rw [getElem?_add, hget]; simp⟩
  · rintro ⟨rfl, hget⟩
    rw [getElem?_add] at hget
    have hmem : COLON ∈ text.drop place := by
      by_contra hnot
      have hall : (text.drop place).takeWhile (· ≠ COLON) = text.drop place :=
        List.takeWhile_eq_self_iff.mpr fun b hb ↦
          decide_eq_true fun heq : b = COLON ↦ hnot (heq ▸ hb)
      exact hget (by rw [hall]; exact List.getElem?_eq_none le_rfl)
    obtain ⟨rest, hrest⟩ := exists_append_cons hmem
    exact ⟨_, rest, hrest, not_mem_takeWhile_ne COLON _, rfl⟩

/-- Where the copy begins: behind the quote that follows the colon that follows the key. -/
theorem jsonStart_eq_some_iff (src key : Bytes) (start : Nat) :
    jsonStart src key = some start ↔
      ∃ colon w rest, ColonBehindKey src key colon ∧ src.drop (colon + 1) = w ++ QUOTE :: rest ∧
        (∀ b ∈ w, isSpace b = true) ∧ start = colon + 1 + w.length + 1 := by
  unfold jsonStart
  rw [locateKey_eq]
  change (if key.length = 0 then none else (keyPlace src key).bind _) = _ ↔ _
  constructor
  · intro h
    split at h
    · cases h
    next hne =>
    obtain ⟨p, hp, h⟩ := Option.bind_eq_some_iff.mp h
    dsimp only at h
    split at h
    · cases h
    next hcolon =>
    split at h
    · cases h
    next hquote =>
    rw [not_not, getElem?_add] at hquote
    obtain ⟨rest, hrest⟩ := exists_takeWhile hquote
    have hbehind : ColonBehindKey src key _ :=
      ⟨fun heq ↦ hne (by rw [heq]; rfl), p, hp, (firstColon_iff ..).mpr ⟨rfl, hcolon⟩⟩
    exact ⟨_, _, rest, hbehind, hrest, fun b hb ↦ List.mem_takeWhile_imp hb,
      (Option.some.inj h).symm⟩
  · rintro ⟨colon, w, rest, ⟨hne, p, hp, hfirst⟩, hdrop, hspace, rfl⟩
    obtain ⟨hcolon, hget⟩ := (firstColon_iff ..).mp hfirst
    obtain ⟨hlen, hquote⟩ := getElem?_takeWhile hdrop hspace (by decide)
    rw [if_neg (List.length_eq_zero_iff.not.mpr hne), hp, Option.bind_some]
    dsimp only
    rw [← hcolon, if_neg hget, getElem?_add, hquote, if_neg (by simp), hlen]

/-- There is no copy exactly when the key leads to no quote. -/
theorem jsonStart_eq_none_iff (src key : Bytes) :
    jsonStart src key = none ↔
      ∀ colon, ColonBehindKey src key colon → ¬ QuoteFollows src colon := by
  constructor
  · rintro h colon hbehind ⟨w, rest, hdrop, hspace⟩
    rw [(jsonStart_eq_some_iff ..).mpr ⟨colon, w, rest, hbehind, hdrop, hspace, rfl⟩] at h
    cases h
  · intro h
    cases hstart : jsonStart src key with
    | none => rfl
    | some start =>
      obtain ⟨colon, w, rest, hbehind, hdrop, hspace, -⟩ := (jsonStart_eq_some_iff ..).mp hstart
      exact absurd ⟨w, rest, hdrop, hspace⟩ (h colon hbehind)

/-- There is no colon in the white space before a quote. -/
private theorem colon_of_between {text w rest : Bytes} {colon c : Nat}
    (hdrop : text.drop (colon + 1) = w ++ QUOTE :: rest) (hspace : ∀ b ∈ w, isSpace b = true)
    (hc : text[c]? = some COLON) (hle : c ≤ colon + w.length) : c ≤ colon := by
  by_contra hlt
  obtain ⟨k, rfl⟩ : ∃ k, c = colon + 1 + k := ⟨c - (colon + 1), by omega⟩
  have hk : k < w.length := by omega
  rw [getElem?_add, hdrop, List.getElem?_append_left hk] at hc
  exact absurd (hspace COLON (List.mem_of_getElem? hc)) (by decide)

/-- So only one colon leads to a quote. -/
private theorem colon_unique {text w w' rest rest' : Bytes} {colon colon' : Nat}
    (hc : text[colon]? = some COLON) (hc' : text[colon']? = some COLON)
    (hdrop : text.drop (colon + 1) = w ++ QUOTE :: rest) (hspace : ∀ b ∈ w, isSpace b = true)
    (hdrop' : text.drop (colon' + 1) = w' ++ QUOTE :: rest')
    (hspace' : ∀ b ∈ w', isSpace b = true) (h : colon + w.length = colon' + w'.length) :
    colon = colon' := by
  apply Nat.le_antisymm
  · exact colon_of_between hdrop' hspace' hc (by omega)
  · exact colon_of_between hdrop hspace hc' (by omega)

/-! ### The member of the name -/

theorem membersText_cons (after : Bytes) (m : FlatMember) (ms : List FlatMember) :
    ∃ rest, membersText after (m :: ms) = m.text ++ rest := by
  cases ms with
  | nil => exact ⟨after, rfl⟩
  | cons m' ms => exact ⟨44 :: membersText after (m' :: ms), rfl⟩

/-- The member of a name, with what stands before and behind it. -/
theorem memberFrom_eq_some {key : Bytes} {ms : List FlatMember} {place : Nat} {m : FlatMember}
    {colon : Nat} (h : memberFrom key ms place = some (m, colon)) (after : Bytes) :
    m ∈ ms ∧ m.name = key ∧ ∃ before rest, colon = place + before.length ∧
      membersText after ms =
        before ++ COLON :: (m.afterColon ++ (m.value.text ++ (m.after ++ rest))) := by
  induction ms generalizing place with
  | nil => cases h
  | cons m' ms ih =>
    rw [memberFrom] at h
    split at h
    · next hname =>
      cases h
      obtain ⟨rest, hrest⟩ := membersText_cons after m ms
      refine ⟨List.mem_cons_self, hname, m.head, rest, rfl, ?_⟩
      rw [hrest, FlatMember.text]
      simp only [List.append_assoc, List.cons_append]
    · obtain ⟨hmem, hname, before, rest, hcolon, htext⟩ := ih h
      refine ⟨List.mem_cons_of_mem _ hmem, hname, m'.text ++ 44 :: before, rest, ?_, ?_⟩
      · rw [hcolon, List.length_append, List.length_cons]
        omega
      · cases ms with
        | nil => cases hmem
        | cons m'' ms =>
          rw [membersText, htext]
          simp only [List.append_assoc, List.cons_append]

/-- The document from the colon of a member with a string on. -/
theorem drop_stringMember {o : FlatObject} (hwf : o.WellFormed) {key : Bytes} {m : FlatMember}
    {s : Bytes} {colon : Nat} (h : o.stringMember key = some (m, s, colon)) :
    Blank m.afterColon ∧ Plain s ∧
      ∃ rest, o.text.drop colon = COLON :: (m.afterColon ++ QUOTE :: (s ++ QUOTE :: rest)) := by
  obtain ⟨⟨m', colon'⟩, hm, h⟩ := Option.bind_eq_some_iff.mp h
  obtain ⟨s', hs, heq⟩ := Option.map_eq_some_iff.mp h
  cases heq
  obtain ⟨hmem, -, before, rest, hcolon, htext⟩ := memberFrom_eq_some hm (125 :: o.trail)
  obtain ⟨-, -, -, hblank, -, hplain⟩ := hwf.2.2.2 m hmem
  cases hv : m.value with
  | token text =>
    rw [hv] at hs
    cases hs
  | string s =>
    rw [hv] at hs hplain
    cases hs
    refine ⟨hblank, hplain, m.after ++ rest, ?_⟩
    have hlength : (o.lead ++ 123 :: (o.inner ++ before)).length = colon := by
      rw [hcolon]
      simp only [List.length_append, List.length_cons]
      omega
    have hsplit : o.text = (o.lead ++ 123 :: (o.inner ++ before)) ++
        COLON :: (m.afterColon ++ QUOTE :: (s ++ QUOTE :: (m.after ++ rest))) := by
      rw [FlatObject.text, htext, hv, FlatValue.text, quoted]
      simp only [List.append_assoc, List.cons_append, List.nil_append]
    rw [hsplit, ← hlength, List.drop_left]

private theorem isSpace_of_isWs {b : UInt8} (h : isWs b = true) : isSpace b = true := by
  simp only [isWs, Bool.or_eq_true, beq_iff_eq] at h
  obtain ((rfl | rfl) | rfl) | rfl := h <;> decide

/-- The copy begins at the string of the member exactly when the key leads to the member. -/
theorem jsonStart_eq_iff {o : FlatObject} (h : o.WellFormed) (key : Bytes) :
    jsonStart o.text key =
        ((o.stringMember key).map fun (m, _, colon) ↦ colon + 1 + m.afterColon.length + 1) ↔
      KeyLeadsToMember o key := by
  unfold KeyLeadsToMember
  cases hm : o.stringMember key with
  | none => exact jsonStart_eq_none_iff o.text key
  | some found =>
    obtain ⟨m, s, colon⟩ := found
    obtain ⟨hblank, -, rest, hdrop⟩ := drop_stringMember h hm
    have hspace : ∀ b ∈ m.afterColon, isSpace b = true := fun b hb ↦ isSpace_of_isWs (hblank b hb)
    have hcolon : o.text[colon]? = some COLON := by
      have hget := getElem?_add o.text colon 0
      rw [Nat.add_zero, hdrop] at hget
      exact hget
    have hrest : o.text.drop (colon + 1) = m.afterColon ++ QUOTE :: (s ++ QUOTE :: rest) := by
      rw [← List.drop_drop, hdrop, List.drop_one, List.tail_cons]
    rw [Option.map_some]
    dsimp only
    rw [jsonStart_eq_some_iff]
    constructor
    · rintro ⟨colon', w, rest', hbehind, hdrop', hspace', hstart⟩
      have hcolon' : o.text[colon']? = some COLON := by
        obtain ⟨-, p, -, between, after, hafter, -, hplace⟩ := hbehind
        rw [hplace, getElem?_add, hafter, List.getElem?_append_right le_rfl, Nat.sub_self]
        rfl
      rw [colon_unique hcolon hcolon' hrest hspace hdrop' hspace' (by omega)]
      exact hbehind
    · exact fun hbehind ↦ ⟨colon, m.afterColon, _, hbehind, hrest, hspace, rfl⟩

/-- `extract_json_string` takes the string of the member of that name, and no other text, exactly
when the first colon behind the first place where the key stands between quotes is the one of that
member, or no quote follows it and there is no such string. -/
theorem jsonExact_iff (o : FlatObject) (key : Bytes) (outSz : Nat) (h : o.WellFormed) :
    JsonExact o key outSz ↔ KeyLeadsToMember o key := by
  rw [← jsonStart_eq_iff h]
  constructor
  · exact JsonExact.start
  · intro hstart
    refine ⟨hstart, ?_⟩
    rw [extractJsonString, hstart, Option.map_map]
    cases hm : o.stringMember key with
    | none => rfl
    | some found =>
      obtain ⟨m, s, colon⟩ := found
      obtain ⟨-, hplain, rest, hdrop⟩ := drop_stringMember h hm
      have hstring : o.text.drop (colon + 1 + m.afterColon.length + 1) = s ++ QUOTE :: rest := by
        have hsum : colon + 1 + m.afterColon.length + 1 =
            colon + (COLON :: (m.afterColon ++ [QUOTE])).length := by
          simp only [List.length_cons, List.length_append, List.length_nil]
          omega
        have hsplit : COLON :: (m.afterColon ++ QUOTE :: (s ++ QUOTE :: rest)) =
            COLON :: (m.afterColon ++ [QUOTE]) ++ (s ++ QUOTE :: rest) := by
          simp only [List.append_assoc, List.cons_append, List.nil_append]
        rw [hsum, ← List.drop_drop, hdrop, hsplit, List.drop_left]
      dsimp only [Option.map_some, Function.comp_apply]
      rw [hstring, takeWhile_ne_append_cons fun hq ↦ (hplain QUOTE hq).2.1 rfl]

/-- A member with no white space in it. -/
def member (name : Bytes) (value : FlatValue) : FlatMember := ⟨[], name, [], [], value, []⟩

/-- A file with a member whose value is the name of another. -/
def usernameObject : FlatObject :=
  ⟨[], [], [member (lit "x") (.string (lit "username")), member (lit "y") (.string (lit "evil")),
    member (lit "username") (.string (lit "bob"))], [LF]⟩

/-- The key leads to the colon of the member after that value. -/
theorem usernameObject_leads : ¬ KeyLeadsToMember usernameObject (lit "username") := by
  intro h
  have hwf : usernameObject.WellFormed := by decide +kernel
  have hvalue := ((jsonExact_iff usernameObject (lit "username") 64 hwf).mpr h).value
  revert hvalue
  decide +kernel

/-- The string taken is that of the member after it. -/
theorem usernameObject_inexact : ¬ JsonExact usernameObject (lit "username") 64 := by
  intro h
  have hvalue := h.value
  revert hvalue
  decide +kernel

end Kitty.Ap2p
