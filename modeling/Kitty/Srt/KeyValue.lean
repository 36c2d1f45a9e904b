import Kitty.Signal.Handler
import Mathlib.Data.List.Basic
import Mathlib.Data.List.Find
import Mathlib.Data.List.Nodup

/-!
# Plain key-value messages

The control messages of the SRT programs have no SDP: every field is a line. `kv_get` of
`src/ap2p/srt_thread.c:208–226` and `src/consumer-srt-android/consumer_srt_p2p.c:113–130` looks
for the first line of a key; the server reads them with `parse_message`.
-/

namespace Kitty.Srt

open Kitty.Base Kitty.Signal

/-- The line is `key=value` for the key, with a value that is not empty. -/
def isLineOf (key line : Bytes) : Bool :=
  decide (key.length + 1 < line.length) && (key ++ [EQ]).isPrefixOf line

/-- `kv_get(msg, key, out, cap)` leaves in `out` the value of the key's first line, as much of
it as fits, and else the empty text. -/
def kvGet (msg key : Bytes) (cap : Nat) : Bytes :=
  match (getlines msg).find? (isLineOf key) with
  | some line => (line.drop (key.length + 1)).take (cap - 1)
  | none => []

/-- The key of a field that is one line of a message. -/
structure PlainKey (key : Bytes) : Prop where
  key_ne : key ≠ []
  key_eq : EQ ∉ key
  key_lf : LF ∉ key
  key_sdp : isSdpKey key = false

instance (key : Bytes) : Decidable (PlainKey key) :=
  decidable_of_iff (key ≠ [] ∧ EQ ∉ key ∧ LF ∉ key ∧ isSdpKey key = false)
    ⟨fun ⟨h1, h2, h3, h4⟩ ↦ ⟨h1, h2, h3, h4⟩, fun ⟨h1, h2, h3, h4⟩ ↦ ⟨h1, h2, h3, h4⟩⟩

/-- A field that is one line of a message. -/
structure PlainField (e : Bytes × Bytes) : Prop extends PlainKey e.1 where
  value_lf : LF ∉ e.2

/-- A plain key with a value that is part of a line. -/
theorem PlainKey.field {key value : Bytes} (h : PlainKey key) (hvalue : LF ∉ value) :
    PlainField (key, value) := { h with value_lf := hvalue }

/-- The text of such a field is its line. -/
theorem fieldText_plain {e : Bytes × Bytes} (h : PlainField e) :
    fieldText e = (e.1 ++ EQ :: e.2) ++ [LF] := by
  rw [fieldText, h.key_sdp]
  simp

/-- The lines of such fields. -/
theorem getlines_createText {es : List (Bytes × Bytes)} (h : ∀ e ∈ es, PlainField e) :
    getlines (createText es) = es.map fun e ↦ e.1 ++ EQ :: e.2 := by
  have htext : createText es = unlines (es.map fun e ↦ e.1 ++ EQ :: e.2) := by
    rw [createText, unlines, List.flatMap_map]
    exact List.flatMap_congr fun e he ↦ fieldText_plain (h e he)
  have hlines : ∀ line ∈ es.map fun e ↦ e.1 ++ EQ :: e.2, LF ∉ line := by
    intro line hline
    obtain ⟨e, he, rfl⟩ := List.mem_map.mp hline
    have hp := h e he
    simp [hp.key_lf, hp.value_lf, show LF ≠ EQ by decide]
  have happend := getlines_unlines_append _ [] hlines
  rw [List.append_nil, getlines_nil, List.append_nil] at happend
  rw [htext, happend]

/-! ### The server's reader -/

private theorem foldl_plain {es : List (Bytes × Bytes)} (h : ∀ e ∈ es, PlainField e)
    (st : ParseState) (hm : st.inMultiline = false) (hr : st.finish = st.result) :
    ((es.map fun e ↦ e.1 ++ EQ :: e.2).foldl parseLine st).finish = assign st.result es := by
  induction es generalizing st with
  | nil => exact hr
  | cons e es ih =>
    have hp := h e (List.mem_cons_self ..)
    rw [List.map_cons, List.foldl_cons, parseLine_plain st e.1 e.2 hm hp.key_eq hp.key_sdp]
    refine ih (fun f hf ↦ h f (List.mem_cons_of_mem _ hf)) _ hm ?_
    -- The field read last is stored once more at the end.
    simp only [ParseState.finish, if_neg hp.key_ne]
    apply Std.ExtTreeMap.ext_getElem?
    intro k
    simp only [Std.ExtTreeMap.getElem?_insert]
    split <;> rfl

/-- `parse_message` reads the fields back, one after the other. -/
theorem parseMessage_createText {es : List (Bytes × Bytes)} (h : ∀ e ∈ es, PlainField e) :
    parseMessage (createText es) = assign ∅ es := by
  rw [parseMessage, getlines_createText h]
  exact foldl_plain h .start rfl rfl

/-! ### The reader of the SRT programs -/

/-- A field's line is the line of a key when the key is the field's and its value is not
empty. -/
theorem isLineOf_field {e : Bytes × Bytes} (he : EQ ∉ e.1) {key : Bytes} (hkey : EQ ∉ key) :
    isLineOf key (e.1 ++ EQ :: e.2) = decide (e.1 = key ∧ e.2 ≠ []) := by
  have hiff : (key.length + 1 < (e.1 ++ EQ :: e.2).length ∧
      (key ++ [EQ]) <+: e.1 ++ EQ :: e.2) ↔ e.1 = key ∧ e.2 ≠ [] := by
    constructor
    · rintro ⟨hlen, rest, hrest⟩
      have hfind : keyOf (e.1 ++ EQ :: e.2) = keyOf (key ++ EQ :: rest) := by
        rw [← hrest, List.append_assoc, List.singleton_append]
      rw [keyOf_field e.1 e.2 he, keyOf_field key rest hkey, Option.some.injEq] at hfind
      refine ⟨hfind, ?_⟩
      intro hnil
      rw [hnil, hfind] at hlen
      simp at hlen
    · rintro ⟨rfl, hne⟩
      have hlen := List.length_pos_iff.mpr hne
      refine ⟨?_, e.2, by simp⟩
      rw [List.length_append, List.length_cons]
      omega
  unfold isLineOf
  rw [← Bool.decide_coe ((key ++ [EQ]).isPrefixOf _), ← Bool.decide_and, decide_eq_decide,
    List.isPrefixOf_iff_prefix]
  exact hiff

/-- What stands behind the key in a field's line. -/
theorem drop_field (e : Bytes × Bytes) : (e.1 ++ EQ :: e.2).drop (e.1.length + 1) = e.2 := by
  rw [← List.drop_drop, List.drop_left, List.drop_one, List.tail_cons]

/-- The first line of a key is the first field of the key that has a value. -/
theorem find?_isLineOf {es : List (Bytes × Bytes)} (h : ∀ e ∈ es, PlainField e) {key : Bytes}
    (hkey : EQ ∉ key) :
    ((getlines (createText es)).find? (isLineOf key)).map (·.drop (key.length + 1)) =
      (es.find? fun e ↦ decide (e.1 = key ∧ e.2 ≠ [])).map (·.2) := by
  have hfind : (es.map fun e ↦ e.1 ++ EQ :: e.2).find? (isLineOf key) =
      (es.find? fun e ↦ decide (e.1 = key ∧ e.2 ≠ [])).map fun e ↦ e.1 ++ EQ :: e.2 := by
    rw [List.find?_map]
    exact congrArg _ (List.find?_congr fun e he ↦ isLineOf_field (h e he).key_eq hkey)
  rw [getlines_createText h, hfind]
  cases hes : es.find? fun e ↦ decide (e.1 = key ∧ e.2 ≠ []) with
  | none => rfl
  | some e =>
    have hmatch := List.find?_some hes
    rw [decide_eq_true_eq] at hmatch
    simp only [Option.map_some, ← hmatch.1, drop_field]

/-- `kv_get` finds the first field of the key that has a value. -/
theorem kvGet_createText {es : List (Bytes × Bytes)} (h : ∀ e ∈ es, PlainField e) {key : Bytes}
    (hkey : EQ ∉ key) (cap : Nat) :
    kvGet (createText es) key cap =
      ((es.find? fun e ↦ decide (e.1 = key ∧ e.2 ≠ [])).map (·.2.take (cap - 1))).getD [] := by
  have hfind := find?_isLineOf h hkey
  rw [kvGet]
  cases hline : (getlines (createText es)).find? (isLineOf key) with
  | none =>
    rw [hline, Option.map_none, eq_comm, Option.map_eq_none_iff] at hfind
    rw [hfind]
    rfl
  | some line =>
    rw [hline, Option.map_some, eq_comm, Option.map_eq_some_iff] at hfind
    obtain ⟨e, he, hvalue⟩ := hfind
    rw [he, Option.map_some, Option.getD_some, hvalue]

/-- The value of a key that occurs once. -/
theorem kvGet_of_mem {es : List (Bytes × Bytes)} (h : ∀ e ∈ es, PlainField e)
    (hkeys : (es.map Prod.fst).Nodup) {key value : Bytes} (hmem : (key, value) ∈ es) (cap : Nat) :
    kvGet (createText es) key cap = value.take (cap - 1) := by
  have hunique : ∀ e ∈ es, e.1 = key → e = (key, value) := fun e he hk ↦
    List.inj_on_of_nodup_map hkeys he hmem hk
  rw [kvGet_createText h (h _ hmem).key_eq]
  cases hfind : es.find? fun e ↦ decide (e.1 = key ∧ e.2 ≠ []) with
  | some e =>
    have hmatch := List.find?_some hfind
    rw [decide_eq_true_eq] at hmatch
    rw [hunique e (List.mem_of_find?_eq_some hfind) hmatch.1]
    rfl
  | none =>
    have hnone := List.find?_eq_none.mp hfind _ hmem
    simp only [ne_eq, true_and, decide_not, Bool.not_eq_true', decide_eq_false_iff_not,
      Decidable.not_not] at hnone
    rw [hnone, List.take_nil]
    rfl

/-- A key that does not occur has no value. -/
theorem kvGet_of_not_mem {es : List (Bytes × Bytes)} (h : ∀ e ∈ es, PlainField e) {key : Bytes}
    (hkey : EQ ∉ key) (hmem : key ∉ es.map Prod.fst) (cap : Nat) :
    kvGet (createText es) key cap = [] := by
  have hfind : (es.find? fun e ↦ decide (e.1 = key ∧ e.2 ≠ [])) = none := by
    refine List.find?_eq_none.mpr fun e he hmatch ↦ ?_
    rw [decide_eq_true_eq] at hmatch
    exact hmem (List.mem_map.mpr ⟨e, he, hmatch.1⟩)
  rw [kvGet_createText h hkey, hfind]
  rfl

/-- A message of texts without NUL has none. -/
theorem nul_not_mem_createText {es : List (Bytes × Bytes)} (h : ∀ e ∈ es, NUL ∉ e.1 ∧ NUL ∉ e.2) :
    NUL ∉ createText es := by
  intro hmem
  obtain ⟨e, he, hb⟩ := List.mem_flatMap.mp hmem
  have hne : NUL ≠ EQ ∧ NUL ≠ LF := by decide
  rw [fieldText] at hb
  split at hb
  · simp only [List.append_nil, List.mem_append, List.mem_cons] at hb
    rcases hb with hb | hb | hb
    · exact (h e he).1 hb
    · exact hne.1 hb
    · exact (h e he).2 hb
  · simp only [List.mem_append, List.mem_cons, List.not_mem_nil, or_false] at hb
    rcases hb with (hb | hb | hb) | hb
    · exact (h e he).1 hb
    · exact hne.1 hb
    · exact (h e he).2 hb
    · exact hne.2 hb

end Kitty.Srt
