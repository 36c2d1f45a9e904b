import Kitty.Base.Json
import Mathlib.Data.List.Nodup

/-!
# JSON printed by hand

A program may print its objects and arrays line by line and put strings between quotes as they are.
What it prints is a document with the values it means when every such string is plain. There is no
other way: a string that is not plain can be meant only by a literal with an escape, which is longer
than the string and stands inside another of the strings.
-/

namespace Kitty.Base.Json

/-! ### Lines -/

/-- A string between quotes, as it is. -/
def quoted (s : Bytes) : Bytes := QUOTE :: (s ++ [QUOTE])

/-- A member of an object, on a line of its own. -/
def line (indent key text : Bytes) : Bytes := indent ++ (quoted key ++ 58 :: 32 :: text)

/-- Lines with a comma behind each but the last. -/
def lines (ls : List Bytes) : Bytes := [44, LF].intercalate ls

/-- An object, line by line. -/
def block (indent : Bytes) (ls : List Bytes) : Bytes :=
  123 :: LF :: (lines ls ++ LF :: (indent ++ [125]))

/-- An array, line by line. -/
def listing (indent : Bytes) (ls : List Bytes) : Bytes :=
  91 :: LF :: (lines ls ++ LF :: (indent ++ [93]))

/-- The text is read as the value, whatever follows it. -/
def IsText (v : Value) (text : Bytes) : Prop :=
  ∀ r : Bytes, (∀ b ∈ r.head?, isTokenByte b = false) → Reads (text ++ r) (.value v) r

theorem isWs_LF : isWs LF = true := by decide

/-- Only white space. -/
def Blank (text : Bytes) : Prop := ∀ b ∈ text, isWs b = true

instance (text : Bytes) : Decidable (Blank text) := List.decidableBAll _ text

theorem Blank.ws {w : Bytes} (h : Blank w) (rest : Bytes) : Ws (w ++ rest) rest := ⟨w, rfl, h⟩

theorem Ws.refl (text : Bytes) : Ws text text := ⟨[], rfl, fun _ h ↦ nomatch h⟩

theorem Ws.cons {b : UInt8} (hb : isWs b = true) {text rest : Bytes} (h : Ws text rest) :
    Ws (b :: text) rest := by
  obtain ⟨w, rfl, hw⟩ := h
  refine ⟨b :: w, rfl, fun c hc ↦ ?_⟩
  rcases List.mem_cons.mp hc with rfl | hc
  · exact hb
  · exact hw c hc

theorem isText_scalar {text : Bytes} {v : Value} (h : scalarOf text = some v) : IsText v text :=
  fun _ hr ↦ Reads.scalar h hr

/-- A plain string stands between quotes. -/
theorem isText_quoted {s : Bytes} (h : Plain s) : IsText (.string s) (quoted s) := fun r _ ↦ by
  have hreads := Reads.string (decodeChars_of_plain h) r
  simpa [quoted] using hreads

private theorem ends_at {c : UInt8} (hc : isTokenByte c = false) (rest : Bytes) :
    ∀ b ∈ (c :: rest).head?, isTokenByte b = false := fun b hb ↦ by
  cases hb
  exact hc

theorem lines_singleton (l : Bytes) : lines [l] = l := List.intercalate_singleton

theorem lines_cons_cons (l l' : Bytes) (ls : List Bytes) :
    lines (l :: l' :: ls) = l ++ 44 :: LF :: lines (l' :: ls) := by
  rw [lines, List.intercalate_cons_cons, List.append_assoc]
  rfl

/-- The lines of an object are read as its members. -/
theorem reads_members {α : Type} {key text : α → Bytes} {value : α → Value} {indent close : Bytes}
    (hindent : Blank indent) (hclose : Blank close) {fields : List α} (hne : fields ≠ [])
    (h : ∀ f ∈ fields, Plain (key f) ∧ IsText (value f) (text f)) (r : Bytes) :
    ∃ m, Ws (lines (fields.map fun f ↦ line indent (key f) (text f)) ++
        LF :: (close ++ 125 :: r)) m ∧
      Reads m (.members (fields.map fun f ↦ (key f, value f))) r := by
  induction fields with
  | nil => contradiction
  | cons f fields ih =>
    obtain ⟨hkey, htext⟩ := h f List.mem_cons_self
    cases fields with
    | nil =>
      refine ⟨quoted (key f) ++ 58 :: 32 :: (text f ++ LF :: (close ++ 125 :: r)), ?_, ?_⟩
      · rw [List.map_singleton, lines_singleton, line, List.append_assoc, List.append_assoc]
        exact hindent.ws _
      · have hread := Reads.lastMember (decodeChars_of_plain hkey) (Ws.refl _)
          (Ws.cons (by decide : isWs 32 = true) (Ws.refl _))
          (htext _ (ends_at (by decide : isTokenByte LF = false) _))
          (Ws.cons isWs_LF (hclose.ws (125 :: r)))
        simpa [quoted] using hread
    | cons f' fields =>
      obtain ⟨m, hws, hread⟩ := ih (List.cons_ne_nil _ _) fun g hg ↦ h g (List.mem_cons_of_mem _ hg)
      refine ⟨quoted (key f) ++ 58 :: 32 :: (text f ++ 44 :: LF ::
        (lines ((f' :: fields).map fun f ↦ line indent (key f) (text f)) ++
          LF :: (close ++ 125 :: r))), ?_, ?_⟩
      · rw [List.map_cons, List.map_cons, lines_cons_cons, line]
        simp only [List.append_assoc, List.cons_append]
        exact hindent.ws _
      · have hmember := Reads.member (decodeChars_of_plain hkey) (Ws.refl _)
          (Ws.cons (by decide : isWs 32 = true) (Ws.refl _))
          (htext _ (ends_at (by decide : isTokenByte 44 = false) _)) (Ws.refl _)
          (Ws.cons isWs_LF hws) hread
        simpa [quoted] using hmember

/-- An object, line by line, of the values of its members. -/
theorem isText_block {α : Type} {key text : α → Bytes} {value : α → Value} {indent close : Bytes}
    (hindent : Blank indent) (hclose : Blank close) {fields : List α} (hne : fields ≠ [])
    (h : ∀ f ∈ fields, Plain (key f) ∧ IsText (value f) (text f)) :
    IsText (.object (fields.map fun f ↦ (key f, value f)))
      (block close (fields.map fun f ↦ line indent (key f) (text f))) := by
  intro r _
  obtain ⟨m, hws, hread⟩ := reads_members hindent hclose hne h r
  have hobject := Reads.object (Ws.cons isWs_LF hws) hread
  simpa [block] using hobject

private theorem reads_items {α : Type} {text : α → Bytes} {value : α → Value}
    {indent close : Bytes} (hindent : Blank indent) (hclose : Blank close) {items : List α}
    (hne : items ≠ []) (h : ∀ i ∈ items, IsText (value i) (text i)) (r : Bytes) :
    ∃ m, Ws (lines (items.map fun i ↦ indent ++ text i) ++ LF :: (close ++ 93 :: r)) m ∧
      Reads m (.items (items.map value)) r := by
  induction items with
  | nil => contradiction
  | cons i items ih =>
    have htext := h i List.mem_cons_self
    cases items with
    | nil =>
      refine ⟨text i ++ LF :: (close ++ 93 :: r), ?_, ?_⟩
      · rw [List.map_singleton, lines_singleton, List.append_assoc]
        exact hindent.ws _
      · exact Reads.lastItem (htext _ (ends_at (by decide : isTokenByte LF = false) _))
          (Ws.cons isWs_LF (hclose.ws _))
    | cons i' items =>
      obtain ⟨m, hws, hread⟩ := ih (List.cons_ne_nil _ _) fun j hj ↦ h j (List.mem_cons_of_mem _ hj)
      refine ⟨text i ++ 44 :: LF :: (lines ((i' :: items).map fun i ↦ indent ++ text i) ++
        LF :: (close ++ 93 :: r)), ?_, ?_⟩
      · rw [List.map_cons, List.map_cons, lines_cons_cons]
        simp only [List.append_assoc, List.cons_append]
        exact hindent.ws _
      · exact Reads.item (htext _ (ends_at (by decide : isTokenByte 44 = false) _)) (Ws.refl _)
          (Ws.cons isWs_LF hws) hread

/-- An array, line by line, of the values of its items. -/
theorem isText_listing {α : Type} {text : α → Bytes} {value : α → Value} {indent close : Bytes}
    (hindent : Blank indent) (hclose : Blank close) {items : List α}
    (h : ∀ i ∈ items, IsText (value i) (text i)) :
    IsText (.array (items.map value)) (listing close (items.map fun i ↦ indent ++ text i)) := by
  intro r _
  cases hitems : items with
  | nil =>
    have hws : Ws (LF :: LF :: (close ++ 93 :: r)) (93 :: r) :=
      Ws.cons isWs_LF (Ws.cons isWs_LF (hclose.ws _))
    have harray := Reads.emptyArray hws
    simpa [listing, lines] using harray
  | cons i items' =>
    have hne : items ≠ [] := by simp [hitems]
    obtain ⟨m, hws, hread⟩ := reads_items hindent hclose hne h r
    have harray := Reads.array (Ws.cons isWs_LF hws) hread
    rw [← hitems]
    simpa [listing] using harray

/-! ### Members -/

/-- What is printed behind a name: a text between quotes, or a number or a word. -/
inductive Shown where
  | text (s : Bytes)
  | bare (t : Bytes)

namespace Shown

/-- What is printed. -/
def print : Shown → Bytes
  | text s => quoted s
  | bare t => t

/-- What it means. -/
def value : Shown → Value
  | text s => .string s
  | bare t => (scalarOf t).getD .null

/-- What is printed means this: no text needs an escape, and the rest is a number or a word. -/
def Sound : Shown → Prop
  | text s => Plain s
  | bare t => (scalarOf t).isSome

theorem isText {shown : Shown} (h : shown.Sound) : IsText shown.value shown.print := by
  cases shown with
  | text s => exact isText_quoted h
  | bare t =>
    obtain ⟨v, hv⟩ := Option.isSome_iff_exists.mp h
    rw [value, hv]
    exact isText_scalar hv

end Shown

/-- An object with these members, each on a line of its own. -/
def memberBlock (indent close : Bytes) (fields : List (Bytes × Shown)) : Bytes :=
  block close (fields.map fun f ↦ line indent f.1 f.2.print)

/-- What it means. -/
def memberValue (fields : List (Bytes × Shown)) : Value :=
  .object (fields.map fun f ↦ (f.1, f.2.value))

theorem isText_memberBlock {indent close : Bytes} (hindent : Blank indent) (hclose : Blank close)
    {fields : List (Bytes × Shown)} (hne : fields ≠ [])
    (h : ∀ f ∈ fields, Plain f.1 ∧ f.2.Sound) :
    IsText (memberValue fields) (memberBlock indent close fields) :=
  isText_block hindent hclose hne fun f hf ↦ ⟨(h f hf).1, Shown.isText (h f hf).2⟩

/-! ### Reading a value -/

/-- The member of a name; of several the last. -/
def Value.get (key : Bytes) : Value → Option Value
  | object ms => (ms.reverse.find? (·.1 = key)).map (·.2)
  | _ => none

/-- The text of a string. -/
def Value.text : Value → Option Bytes
  | string s => some s
  | _ => none

/-- The string that is the member of a name. -/
def Value.getText (key : Bytes) (v : Value) : Option Bytes := (v.get key).bind text

/-- A member whose name is no other's is found. -/
theorem get_of_mem {ms : List (Bytes × Value)} (hms : (ms.map Prod.fst).Nodup) {key : Bytes}
    {v : Value} (h : (key, v) ∈ ms) : (Value.object ms).get key = some v := by
  rw [Value.get]
  cases hfind : ms.reverse.find? (·.1 = key) with
  | none =>
    have hnot := List.find?_eq_none.mp hfind (key, v) (List.mem_reverse.mpr h)
    exact absurd (decide_eq_true rfl) hnot
  | some m =>
    have hkey : m.1 = key := by simpa using List.find?_some hfind
    have hmem := List.mem_reverse.mp (List.mem_of_find?_eq_some hfind)
    have heq : m = (key, v) := List.inj_on_of_nodup_map hms hmem h hkey
    rw [heq]
    rfl

theorem getText_memberValue {fields : List (Bytes × Shown)} (hfields : (fields.map Prod.fst).Nodup)
    {key s : Bytes} (h : (key, .text s) ∈ fields) :
    (memberValue fields).getText key = some s := by
  have hms : ((fields.map fun f ↦ (f.1, f.2.value)).map Prod.fst).Nodup := by
    rw [List.map_map]
    exact hfields
  have hget := get_of_mem hms (List.mem_map_of_mem h)
  rw [Value.getText, memberValue, hget]
  rfl

/-! ### Literals -/

/-- The string is a value in the value. -/
inductive Occurs (s : Bytes) : Value → Prop where
  | string : Occurs s (.string s)
  | item {vs : List Value} {v : Value} (hv : v ∈ vs) (h : Occurs s v) : Occurs s (.array vs)
  | member {ms : List (Bytes × Value)} {m : Bytes × Value} (hm : m ∈ ms) (h : Occurs s m.2) :
      Occurs s (.object ms)

/-- The string is a value in what is read. -/
def Node.Has (s : Bytes) : Node → Prop
  | value v => Occurs s v
  | items vs => ∃ v ∈ vs, Occurs s v
  | members ms => ∃ m ∈ ms, Occurs s m.2

/-- A string that is found in a value is one in it. -/
theorem Occurs.of_get {s key : Bytes} {v w : Value} (h : v.get key = some w) (hs : Occurs s w) :
    Occurs s v := by
  cases v with
  | object ms =>
    obtain ⟨m, hm, rfl⟩ := Option.map_eq_some_iff.mp h
    exact Occurs.member (List.mem_reverse.mp (List.mem_of_find?_eq_some hm)) hs
  | null | bool | number | string | array => cases h

theorem Occurs.of_getText {s key : Bytes} {v : Value} (h : v.getText key = some s) :
    Occurs s v := by
  obtain ⟨w, hw, htext⟩ := Option.bind_eq_some_iff.mp h
  cases w with
  | string t =>
    cases htext
    exact Occurs.string.of_get hw
  | null | bool | number | array | object => cases htext

/-- The string is meant by a literal in the text. -/
def Literal (s text : Bytes) : Prop :=
  ∃ raw, decodeChars raw = some s ∧ quoted raw <:+: text

theorem Literal.of_suffix {s text text' : Bytes} (h : Literal s text) (ht : text <:+ text') :
    Literal s text' := by
  obtain ⟨raw, hraw, hin⟩ := h
  exact ⟨raw, hraw, hin.trans ht.isInfix⟩

/-- Every string that is read is meant by a literal. -/
theorem Reads.literal {l r s : Bytes} {node : Node} (h : Reads l node r) (hs : node.Has s) :
    Literal s l := by
  induction h with
  | @scalar text r v h =>
    have hnot : ∀ s', v ≠ .string s' ∧ (∀ vs, v ≠ .array vs) ∧ ∀ ms, v ≠ .object ms := by
      unfold scalarOf at h
      repeat' split at h
      all_goals
        cases h
        try simp
    cases hs with
    | string => exact absurd rfl (hnot s).1
    | item => exact absurd rfl ((hnot s).2.1 _)
    | member => exact absurd rfl ((hnot s).2.2 _)
  | @string raw s' h r =>
    cases hs
    exact ⟨raw, h, [], r, by simp [quoted]⟩
  | emptyArray =>
    cases hs with
    | item hv => cases hv
  | array hws _ ih =>
    cases hs with
    | item hv h => exact (ih ⟨_, hv, h⟩).of_suffix (hws.suffix.trans (List.suffix_cons _ _))
  | emptyObject =>
    cases hs with
    | member hm => cases hm
  | object hws _ ih =>
    cases hs with
    | member hm h => exact (ih ⟨_, hm, h⟩).of_suffix (hws.suffix.trans (List.suffix_cons _ _))
  | lastItem _ _ ih =>
    obtain ⟨v, hv, h⟩ := hs
    exact ih (List.mem_singleton.mp hv ▸ h)
  | item hread hcomma hws _ ih ih' =>
    obtain ⟨v, hv, h⟩ := hs
    rcases List.mem_cons.mp hv with rfl | hv
    · exact ih h
    · have hsuffix := hws.suffix.trans ((List.suffix_cons _ _).trans
        (hcomma.suffix.trans hread.suffix))
      exact (ih' ⟨v, hv, h⟩).of_suffix hsuffix
  | @lastMember raw k l m n p r v _ hcolon hws _ _ ih =>
    obtain ⟨m', hm, h⟩ := hs
    have hn : n <:+ l := hws.suffix.trans ((List.suffix_cons _ _).trans hcolon.suffix)
    rw [List.mem_singleton.mp hm] at h
    exact (ih h).of_suffix (hn.trans (suffix_string raw l))
  | @member raw k l m n p q t r v ms _ hcolon hws hread hcomma hws' _ ih ih' =>
    obtain ⟨m', hm, h⟩ := hs
    have hn : n <:+ l := hws.suffix.trans ((List.suffix_cons _ _).trans hcolon.suffix)
    have ht : t <:+ p := hws'.suffix.trans ((List.suffix_cons _ _).trans hcomma.suffix)
    rcases List.mem_cons.mp hm with rfl | hm
    · exact (ih h).of_suffix (hn.trans (suffix_string raw l))
    · exact (ih' ⟨m', hm, h⟩).of_suffix
        (ht.trans (hread.suffix.trans (hn.trans (suffix_string raw l))))

/-- Every string of a document is meant by a literal in it. -/
theorem literal_of_parse {doc s : Bytes} {v : Value} (h : parse doc = some v) (hs : Occurs s v) :
    Literal s doc := by
  obtain ⟨-, l, r, hws, hread, -⟩ := (parse_eq_some_iff doc v).mp h
  exact (hread.literal (show Node.Has s (.value v) from hs)).of_suffix hws.suffix

/-! ### Zero bytes -/

private theorem nul_not_mem_ws {text rest : Bytes} (h : Ws text rest) (hrest : NUL ∉ rest) :
    NUL ∉ text := by
  obtain ⟨w, rfl, hw⟩ := h
  rw [List.mem_append, not_or]
  exact ⟨fun hmem ↦ absurd (hw NUL hmem) (by decide), hrest⟩

private theorem nul_not_mem_literal {raw s rest : Bytes} (h : decodeChars raw = some s)
    (hrest : NUL ∉ rest) : NUL ∉ QUOTE :: (raw ++ QUOTE :: rest) := by
  simp only [List.mem_cons, List.mem_append, not_or]
  exact ⟨by decide, fun hmem ↦ absurd (le_of_decodeChars h NUL hmem) (by decide), by decide,
    hrest⟩

private theorem nul_not_mem_cons {b : UInt8} (hb : b ≠ NUL) {rest : Bytes} (hrest : NUL ∉ rest) :
    NUL ∉ b :: rest := by
  rw [List.mem_cons, not_or]
  exact ⟨fun heq ↦ hb heq.symm, hrest⟩

private theorem nul_not_mem_reads {l r : Bytes} {node : Node} (h : Reads l node r)
    (hr : NUL ∉ r) : NUL ∉ l := by
  induction h with
  | scalar hscalar _ =>
    rw [List.mem_append, not_or]
    refine ⟨fun hmem ↦ ?_, hr⟩
    exact absurd ((tokenBytes_of_scalarOf hscalar).2 NUL hmem) (by decide)
  | string hdecode r => exact nul_not_mem_literal hdecode hr
  | emptyArray hws | emptyObject hws =>
    exact nul_not_mem_cons (by decide) (nul_not_mem_ws hws (nul_not_mem_cons (by decide) hr))
  | array hws _ ih | object hws _ ih =>
    exact nul_not_mem_cons (by decide) (nul_not_mem_ws hws (ih hr))
  | lastItem _ hend ih => exact ih (nul_not_mem_ws hend (nul_not_mem_cons (by decide) hr))
  | item _ hcomma hws _ ih ih' =>
    exact ih (nul_not_mem_ws hcomma (nul_not_mem_cons (by decide) (nul_not_mem_ws hws (ih' hr))))
  | lastMember hk hcolon hws _ hend ih =>
    have hp := nul_not_mem_ws hend (nul_not_mem_cons (by decide) hr)
    exact nul_not_mem_literal hk (nul_not_mem_ws hcolon
      (nul_not_mem_cons (by decide) (nul_not_mem_ws hws (ih hp))))
  | member hk hcolon hws _ hcomma hws' _ ih ih' =>
    have hp := nul_not_mem_ws hcomma (nul_not_mem_cons (by decide) (nul_not_mem_ws hws' (ih' hr)))
    exact nul_not_mem_literal hk (nul_not_mem_ws hcolon
      (nul_not_mem_cons (by decide) (nul_not_mem_ws hws (ih hp))))

/-- No zero byte is in a document. -/
theorem nul_not_mem_document {doc l r : Bytes} {v : Value} (hws : Ws doc l)
    (h : Reads l (.value v) r) (hend : Ws r []) : NUL ∉ doc :=
  nul_not_mem_ws hws (nul_not_mem_reads h (nul_not_mem_ws hend List.not_mem_nil))

theorem nul_not_mem_of_parse {doc : Bytes} {v : Value} (h : parse doc = some v) : NUL ∉ doc := by
  obtain ⟨-, l, r, hws, hreads, hend⟩ := (parse_eq_some_iff doc v).mp h
  exact nul_not_mem_document hws hreads hend

end Kitty.Base.Json
