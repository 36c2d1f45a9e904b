import Kitty.Base.Bytes
import Std.Data.ExtTreeMap.Lemmas

/-!
# Control messages of the signaling server

`parse_message` and `create_message` of
`src/signaling-server/signaling_server.cpp:756–809`. A message is one `key=value` line
for each field, except that the SDP keys open a block of further lines which ends at the
first line that looks like a field. `std::map` orders its keys as unsigned byte strings,
so a field map is an `ExtTreeMap` and its `toList` is the iteration order.
-/

namespace Kitty.Signal

open Kitty.Base

/-- `std::map<std::string, std::string>`. -/
abbrev Fields := Std.ExtTreeMap Bytes Bytes

/-- `parsed[key]`: the value of a field, empty when the field is missing. -/
def field (m : Fields) (key : Bytes) : Bytes := (m[key]?).getD []

/-- The keys whose value is a block of lines. -/
def isSdpKey (key : Bytes) : Bool := key == lit "sdp" || key == lit "consumer_sdp"

/-- The letters of the SDP lines the parser knows: `a=`, `v=`, `o=`, `s=`, `t=`, `c=`, `m=`. -/
def sdpLetters : List UInt8 := lit "avostcm"

/-- `line.find("a=") == 0`, or the same for another of the letters. -/
def isSdpLine (line : Bytes) : Bool := sdpLetters.any fun c ↦ [c, EQ].isPrefixOf line

/-- `line.find('=')`. -/
def findEq (line : Bytes) : Option Nat := line.findIdx? (· == EQ)

/-- The local variables of `parse_message`. -/
structure ParseState where
  result : Fields
  currentKey : Bytes
  currentValue : Bytes
  inMultiline : Bool

/-- The variables before the first line. -/
def ParseState.start : ParseState := ⟨∅, [], [], false⟩

/-- One round of the loop of `parse_message`. -/
def parseLine (st : ParseState) (line : Bytes) : ParseState :=
  if !st.inMultiline then
    match findEq line with
    | some pos =>
      let currentKey := line.take pos
      let currentValue := line.drop (pos + 1)
      if isSdpKey currentKey then
        { st with currentKey, currentValue := currentValue ++ [LF], inMultiline := true }
      else
        { st with currentKey, currentValue, result := st.result.insert currentKey currentValue }
    | none => st
  else
    match findEq line with
    | some pos =>
      if isSdpLine line then { st with currentValue := st.currentValue ++ line ++ [LF] }
      else
        -- The new field is only remembered here: neither stored nor examined for an SDP key.
        { result := st.result.insert st.currentKey st.currentValue
          currentKey := line.take pos
          currentValue := line.drop (pos + 1)
          inMultiline := false }
    | none => { st with currentValue := st.currentValue ++ line ++ [LF] }

/-- What follows the loop: the last field read is stored when its key is not empty. -/
def ParseState.finish (st : ParseState) : Fields :=
  if st.currentKey = [] then st.result else st.result.insert st.currentKey st.currentValue

/-- `parse_message`; `signaling_server.cpp:756–798`. -/
def parseMessage (msg : Bytes) : Fields := ((getlines msg).foldl parseLine .start).finish

/-- The text of one field; an SDP value gets no newline after it. -/
def fieldText (e : Bytes × Bytes) : Bytes :=
  e.1 ++ EQ :: e.2 ++ if isSdpKey e.1 then [] else [LF]

/-- The fields one after the other. -/
def createText (es : List (Bytes × Bytes)) : Bytes := es.flatMap fieldText

/-- `create_message`; `signaling_server.cpp:800–809`. -/
def createMessage (data : Fields) : Bytes := createText data.toList

/-! ### Reading one line -/

/-- The key a line would be read under. -/
def keyOf (line : Bytes) : Option Bytes := (findEq line).map (line.take ·)

/-- The first `=` of a field line ends its key. -/
theorem findEq_field (key value : Bytes) (hk : EQ ∉ key) :
    findEq (key ++ EQ :: value) = some key.length := by
  unfold findEq
  rw [List.findIdx?_append]
  have hn : key.findIdx? (· == EQ) = none := by
    rw [List.findIdx?_eq_none_iff]
    intro b hb
    exact beq_eq_false_iff_ne.mpr fun h ↦ hk (h ▸ hb)
  simp [hn, List.findIdx?_cons]

/-- A line without `=` has no key. -/
theorem findEq_none (line : Bytes) (h : EQ ∉ line) : findEq line = none := by
  unfold findEq
  rw [List.findIdx?_eq_none_iff]
  intro b hb
  exact beq_eq_false_iff_ne.mpr fun he ↦ h (he ▸ hb)

/-- A field line is read under its key. -/
theorem keyOf_field (key value : Bytes) (hk : EQ ∉ key) :
    keyOf (key ++ EQ :: value) = some key := by
  simp [keyOf, findEq_field key value hk]

/-- The key of a known SDP line is its letter. -/
theorem keyOf_sdpLine (line : Bytes) (h : isSdpLine line) :
    ∃ c ∈ sdpLetters, keyOf line = some [c] := by
  obtain ⟨c, hc, hp⟩ := List.any_eq_true.mp h
  obtain ⟨rest, rfl⟩ := List.isPrefixOf_iff_prefix.mp hp
  refine ⟨c, hc, ?_⟩
  have hne : EQ ∉ [c] := by
    intro he
    have : EQ ∈ sdpLetters := by simpa [List.mem_singleton.mp he] using hc
    revert this
    decide
  exact keyOf_field [c] rest hne

/-- A field line opens like an SDP line only when its key is one of the letters. -/
theorem isSdpLine_field (key value : Bytes) (hk : EQ ∉ key) (hl : ∀ c ∈ sdpLetters, key ≠ [c]) :
    isSdpLine (key ++ EQ :: value) = false := by
  rw [Bool.eq_false_iff]
  intro h
  obtain ⟨c, hc, he⟩ := keyOf_sdpLine _ h
  rw [keyOf_field key value hk] at he
  exact hl c hc (Option.some.inj he)

/-- Outside a block an ordinary field is stored. -/
theorem parseLine_plain (st : ParseState) (key value : Bytes) (hm : st.inMultiline = false)
    (hk : EQ ∉ key) (hs : isSdpKey key = false) :
    parseLine st (key ++ EQ :: value) =
      { st with
        currentKey := key, currentValue := value, result := st.result.insert key value } := by
  simp [parseLine, hm, findEq_field key value hk, hs]

/-- Outside a block an SDP key opens one. -/
theorem parseLine_open (st : ParseState) (key value : Bytes) (hm : st.inMultiline = false)
    (hk : EQ ∉ key) (hs : isSdpKey key) :
    parseLine st (key ++ EQ :: value) =
      { st with currentKey := key, currentValue := value ++ [LF], inMultiline := true } := by
  simp [parseLine, hm, findEq_field key value hk, hs]

/-- Inside a block an SDP line, or one without `=`, is appended. -/
theorem parseLine_body (st : ParseState) (line : Bytes) (hm : st.inMultiline = true)
    (hl : isSdpLine line ∨ EQ ∉ line) :
    parseLine st line = { st with currentValue := st.currentValue ++ (line ++ [LF]) } := by
  rcases hl with hl | hl
  · simp only [parseLine, hm, hl, Bool.not_true, Bool.false_eq_true, if_false, if_true]
    cases findEq line <;> simp
  · simp [parseLine, hm, findEq_none line hl]

/-- Inside a block a field line ends it. -/
theorem parseLine_close (st : ParseState) (key value : Bytes) (hm : st.inMultiline = true)
    (hk : EQ ∉ key) (hl : ∀ c ∈ sdpLetters, key ≠ [c]) :
    parseLine st (key ++ EQ :: value) =
      { result := st.result.insert st.currentKey st.currentValue
        currentKey := key, currentValue := value, inMultiline := false } := by
  simp [parseLine, hm, findEq_field key value hk, isSdpLine_field key value hk hl]

/-- The lines of a block are appended one after the other. -/
theorem foldl_body (st : ParseState) (lines : List Bytes) (hm : st.inMultiline = true)
    (hl : ∀ line ∈ lines, isSdpLine line ∨ EQ ∉ line) :
    lines.foldl parseLine st = { st with currentValue := st.currentValue ++ unlines lines } := by
  induction lines generalizing st with
  | nil => simp [unlines]
  | cons line lines ih =>
    rw [List.foldl_cons, parseLine_body st line hm (hl line (by simp)),
      ih { st with currentValue := st.currentValue ++ (line ++ [LF]) } hm
        fun l h ↦ hl l (List.mem_cons_of_mem _ h)]
    simp [unlines]

/-! ### What a line cannot touch -/

/-- A line read under another key leaves a field alone that is not the current one. -/
theorem parseLine_frame (st : ParseState) (line x : Bytes) (hx : keyOf line ≠ some x)
    (hc : st.currentKey ≠ x) :
    (parseLine st line).result[x]? = st.result[x]? ∧ (parseLine st line).currentKey ≠ x := by
  unfold keyOf at hx
  unfold parseLine
  cases hf : findEq line with
  | none =>
    dsimp only
    split <;> exact ⟨rfl, hc⟩
  | some pos =>
    have hk : line.take pos ≠ x := by
      intro he
      simp [hf, he] at hx
    dsimp only
    split
    · split
      · exact ⟨rfl, hk⟩
      · exact ⟨by simp [Std.ExtTreeMap.getElem?_insert, hk], hk⟩
    · split
      · exact ⟨rfl, hc⟩
      · exact ⟨by simp [Std.ExtTreeMap.getElem?_insert, hc], hk⟩

/-- What the end of the message stores, seen from one key. -/
theorem getElem?_finish (st : ParseState) (x : Bytes) :
    st.finish[x]? =
      if st.currentKey ≠ [] ∧ st.currentKey = x then some st.currentValue else st.result[x]? := by
  by_cases hk : st.currentKey = []
  · simp [ParseState.finish, hk]
  · simp [ParseState.finish, hk, Std.ExtTreeMap.getElem?_insert]

/-- So do any number of such lines and the end of the message. -/
theorem finish_frame (lines : List Bytes) (st : ParseState) (x : Bytes)
    (hx : ∀ line ∈ lines, keyOf line ≠ some x) (hc : st.currentKey ≠ x) :
    (lines.foldl parseLine st).finish[x]? = st.result[x]? := by
  induction lines generalizing st with
  | nil => simp [getElem?_finish, hc]
  | cons line lines ih =>
    obtain ⟨hr, hk⟩ := parseLine_frame st line x (hx line (by simp)) hc
    rw [List.foldl_cons, ih _ (fun l h ↦ hx l (List.mem_cons_of_mem _ h)) hk, hr]

/-- An open block under a key ends up stored there, with all it held. -/
theorem finish_block (lines : List Bytes) (st : ParseState) (hm : st.inMultiline = true)
    (hx : ∀ line ∈ lines, keyOf line ≠ some st.currentKey) (hk : st.currentKey ≠ []) :
    ∃ more, (lines.foldl parseLine st).finish[st.currentKey]? = some (st.currentValue ++ more) := by
  induction lines generalizing st with
  | nil => exact ⟨[], by simp [getElem?_finish, hk]⟩
  | cons line lines ih =>
    have ht : ∀ l ∈ lines, keyOf l ≠ some st.currentKey :=
      fun l h ↦ hx l (List.mem_cons_of_mem _ h)
    rw [List.foldl_cons]
    by_cases hb : isSdpLine line ∨ EQ ∉ line
    · rw [parseLine_body st line hm hb]
      obtain ⟨more, hmore⟩ :=
        ih { st with currentValue := st.currentValue ++ (line ++ [LF]) } hm ht hk
      exact ⟨line ++ [LF] ++ more, by rw [hmore, List.append_assoc]⟩
    · -- The line ends the block: its contents are stored and stay.
      obtain ⟨hs, he⟩ := not_or.mp hb
      obtain ⟨pos, hpos⟩ : ∃ pos, findEq line = some pos := by
        cases hf : findEq line with
        | some pos => exact ⟨pos, rfl⟩
        | none =>
          have := List.findIdx?_eq_none_iff.mp hf EQ (not_not.mp he)
          simp at this
      have hl : line.take pos ≠ st.currentKey := by
        intro h
        exact hx line (by simp) (by simp [keyOf, hpos, h])
      refine ⟨[], ?_⟩
      simp only [parseLine, hm, hpos, hs, Bool.not_true, Bool.false_eq_true, if_false]
      rw [finish_frame lines _ st.currentKey ht hl]
      simp

/-- A field line met at the end of a block is stored only if nothing replaces it. -/
theorem finish_pending (lines : List Bytes) (st : ParseState) (hm : st.inMultiline = false)
    (hx : ∀ line ∈ lines, keyOf line ≠ some st.currentKey) (hr : st.result[st.currentKey]? = none) :
    (lines.foldl parseLine st).finish[st.currentKey]? = none ∨
      (lines.foldl parseLine st).finish[st.currentKey]? = some st.currentValue := by
  induction lines generalizing st with
  | nil =>
    rw [List.foldl_nil, getElem?_finish]
    split
    · exact .inr rfl
    · exact .inl hr
  | cons line lines ih =>
    have ht : ∀ l ∈ lines, keyOf l ≠ some st.currentKey :=
      fun l h ↦ hx l (List.mem_cons_of_mem _ h)
    rw [List.foldl_cons]
    cases hf : findEq line with
    | none =>
      have he : parseLine st line = st := by simp [parseLine, hm, hf]
      rw [he]
      exact ih st hm ht hr
    | some pos =>
      have hl : line.take pos ≠ st.currentKey := by
        intro h
        exact hx line (by simp) (by simp [keyOf, hf, h])
      left
      have hres : (parseLine st line).result[st.currentKey]? = none := by
        simp only [parseLine, hm, hf, Bool.not_false, if_true]
        split
        · exact hr
        · simp [Std.ExtTreeMap.getElem?_insert, hl, hr]
      have hkey : (parseLine st line).currentKey ≠ st.currentKey := by
        simp only [parseLine, hm, hf, Bool.not_false, if_true]
        split <;> exact hl
      rw [finish_frame lines _ st.currentKey ht hkey, hres]

end Kitty.Signal
