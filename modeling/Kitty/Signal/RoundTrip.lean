import Kitty.Signal.Message

/-!
# What `parse_message` recovers of `create_message`

A message is read back exactly when its SDP block, in map order, is not empty and has at
most one field behind it: the parser remembers the field that ends a block without
storing it, so the field after that one replaces it, and an empty block takes the next
field for its first line; `signaling_server.cpp:756–809`.
-/

namespace Kitty.Signal

open Kitty.Base

/-- An SDP value: terminated lines that each open like a known SDP line or have no `=`.
The empty value is the block of no lines. -/
def SdpBlock (value : Bytes) : Prop :=
  ∃ lines, value = unlines lines ∧ ∀ line ∈ lines, LF ∉ line ∧ (isSdpLine line ∨ EQ ∉ line)

/-- A field the text format is meant for. -/
structure FieldOk (e : Bytes × Bytes) : Prop where
  key_eq : EQ ∉ e.1
  key_lf : LF ∉ e.1
  key_letter : ∀ c ∈ sdpLetters, e.1 ≠ [c]
  value_lf : isSdpKey e.1 = false → LF ∉ e.2
  value_block : isSdpKey e.1 → SdpBlock e.2

/-- Every field of the map is one the format is meant for. -/
def Encodable (m : Fields) : Prop := ∀ key value, m[key]? = some value → FieldOk (key, value)

/-- The first SDP field in map order is not empty and has at most one field behind it,
which, when it is an SDP field itself, is empty. -/
def BlockLast : List (Bytes × Bytes) → Prop
  | [] => True
  | (key, value) :: rest =>
    if isSdpKey key then
      value ≠ [] ∧ (rest = [] ∨ ∃ e, rest = [e] ∧ (isSdpKey e.1 → e.2 = []))
    else BlockLast rest

/-! ### The lines of a message -/

private theorem getlines_plain (e : Bytes × Bytes) (rest : Bytes) (h : FieldOk e)
    (hs : isSdpKey e.1 = false) :
    getlines (fieldText e ++ rest) = (e.1 ++ EQ :: e.2) :: getlines rest := by
  have hl : LF ∉ e.1 ++ EQ :: e.2 := by
    simp [h.key_lf, h.value_lf hs, show LF ≠ EQ by decide]
  have he : fieldText e ++ rest = (e.1 ++ EQ :: e.2) ++ LF :: rest := by simp [fieldText, hs]
  rw [he, getlines_line _ _ hl]

private theorem getlines_block (key line : Bytes) (lines : List Bytes) (rest : Bytes)
    (hs : isSdpKey key) (hk : LF ∉ key) (hl : LF ∉ line) (hls : ∀ l ∈ lines, LF ∉ l) :
    getlines (fieldText (key, unlines (line :: lines)) ++ rest) =
      (key ++ EQ :: line) :: (lines ++ getlines rest) := by
  have he : fieldText (key, unlines (line :: lines)) ++ rest =
      (key ++ EQ :: line) ++ LF :: (unlines lines ++ rest) := by
    simp [fieldText, hs, unlines]
  have hn : LF ∉ key ++ EQ :: line := by simp [hk, hl, show LF ≠ EQ by decide]
  rw [he, getlines_line _ _ hn, getlines_unlines_append lines rest hls]

-- An SDP field without lines has no newline either: its key runs into the next field.
private theorem getlines_empty (key rest : Bytes) (hs : isSdpKey key) (hk : LF ∉ key) :
    ∃ head lines, getlines (fieldText (key, []) ++ rest) = (key ++ EQ :: head) :: lines ∧
      (getlines rest = [] ∧ head = [] ∧ lines = [] ∨ getlines rest = head :: lines) := by
  have he : fieldText (key, []) ++ rest = (key ++ [EQ]) ++ rest := by simp [fieldText, hs]
  have hn : LF ∉ key ++ [EQ] := by simp [hk, show LF ≠ EQ by decide]
  rw [he, getlines_append _ rest hn (by simp)]
  cases getlines rest with
  | nil => exact ⟨[], [], rfl, .inl ⟨rfl, rfl, rfl⟩⟩
  | cons head lines => exact ⟨head, lines, by simp, .inr rfl⟩

/-- A nonempty block has a first line. -/
private theorem SdpBlock.first {value : Bytes} (h : SdpBlock value) (hne : value ≠ []) :
    ∃ line lines, value = unlines (line :: lines) ∧
      ∀ l ∈ line :: lines, LF ∉ l ∧ (isSdpLine l ∨ EQ ∉ l) := by
  obtain ⟨lines, rfl, hl⟩ := h
  cases lines with
  | nil => exact absurd rfl hne
  | cons line lines => exact ⟨line, lines, rfl, hl⟩

/-- A line of a message is read under one of its keys or under an SDP letter. -/
private theorem keyOf_mem (es : List (Bytes × Bytes)) (hes : ∀ e ∈ es, FieldOk e) :
    ∀ line ∈ getlines (createText es), ∀ x, keyOf line = some x →
      x ∈ es.map Prod.fst ∨ ∃ c ∈ sdpLetters, x = [c] := by
  induction es with
  | nil => simp [createText]
  | cons e es ih =>
    have h := hes e (by simp)
    have iht := ih fun e' h' ↦ hes e' (List.mem_cons_of_mem _ h')
    have tail : ∀ line ∈ getlines (createText es), ∀ x, keyOf line = some x →
        x ∈ (e :: es).map Prod.fst ∨ ∃ c ∈ sdpLetters, x = [c] := by
      intro line hl x hx
      rcases iht line hl x hx with hm | hm
      · exact .inl (List.mem_cons_of_mem _ hm)
      · exact .inr hm
    have first : ∀ value x, keyOf (e.1 ++ EQ :: value) = some x →
        x ∈ (e :: es).map Prod.fst ∨ ∃ c ∈ sdpLetters, x = [c] := by
      intro value x hx
      rw [keyOf_field e.1 value h.key_eq] at hx
      simp [← Option.some.inj hx]
    change ∀ line ∈ getlines (fieldText e ++ createText es), _
    cases hs : isSdpKey e.1 with
    | false =>
      rw [getlines_plain e _ h hs]
      intro line hl
      rcases List.mem_cons.mp hl with rfl | hl
      · exact first e.2
      · exact tail line hl
    | true =>
      by_cases hv : e.2 = []
      · obtain ⟨head, lines, hg, hr⟩ := getlines_empty e.1 (createText es) hs h.key_lf
        rw [← hv] at hg
        rw [hg]
        intro line hl
        rcases List.mem_cons.mp hl with rfl | hl
        · exact first head
        · rcases hr with ⟨-, -, rfl⟩ | hr
          · cases hl
          · exact tail line (by rw [hr]; exact List.mem_cons_of_mem _ hl)
      · obtain ⟨line₀, lines, hval, hls⟩ := (h.value_block hs).first hv
        obtain ⟨key, value⟩ := e
        dsimp only at hval hs
        subst hval
        rw [getlines_block key line₀ lines _ hs h.key_lf (hls line₀ (by simp)).1
          fun l hl ↦ (hls l (List.mem_cons_of_mem _ hl)).1]
        intro line hl x hx
        rcases List.mem_cons.mp hl with rfl | hl
        · exact first line₀ x hx
        · rcases List.mem_append.mp hl with hl | hl
          · rcases (hls line (List.mem_cons_of_mem _ hl)).2 with hp | hp
            · obtain ⟨c, hc, hk⟩ := keyOf_sdpLine line hp
              exact .inr ⟨c, hc, (Option.some.inj (hk.symm.trans hx)).symm⟩
            · simp [keyOf, findEq_none line hp] at hx
          · exact tail line hl x hx

/-- No line of a message is read under a key it does not have. -/
private theorem keyOf_ne (es : List (Bytes × Bytes)) (hes : ∀ e ∈ es, FieldOk e) (x : Bytes)
    (hx : x ∉ es.map Prod.fst) (hl : ∀ c ∈ sdpLetters, x ≠ [c]) :
    ∀ line ∈ getlines (createText es), keyOf line ≠ some x := by
  intro line hline hk
  rcases keyOf_mem es hes line hline x hk with h | ⟨c, hc, rfl⟩
  · exact hx h
  · exact hl c hc rfl

/-! ### Reading back -/

private theorem isSdpKey_ne_nil {key : Bytes} (h : isSdpKey key) : key ≠ [] := by
  rintro rfl
  revert h
  decide

-- Reading a nonempty block leaves it open, with its lines in the current value.
private theorem foldl_block (st : ParseState) (key line : Bytes) (lines rest : List Bytes)
    (hm : st.inMultiline = false) (hk : EQ ∉ key) (hs : isSdpKey key)
    (hl : ∀ l ∈ lines, isSdpLine l ∨ EQ ∉ l) :
    ((key ++ EQ :: line) :: (lines ++ rest)).foldl parseLine st =
      rest.foldl parseLine
        { st with
          currentKey := key, currentValue := unlines (line :: lines), inMultiline := true } := by
  rw [List.foldl_cons, parseLine_open st key line hm hk hs, List.foldl_append,
    foldl_body _ lines rfl hl]
  simp [unlines]

/-- Between blocks the current field is already stored. -/
private def Stored (st : ParseState) : Prop :=
  st.inMultiline = false ∧
    (st.currentKey = [] ∨ st.result[st.currentKey]? = some st.currentValue)

private theorem Stored.finish_eq {st : ParseState} (h : Stored st) : st.finish = st.result := by
  apply Std.ExtTreeMap.ext_getElem?
  intro x
  rw [getElem?_finish]
  split
  · next hx =>
    rcases h.2 with hc | hc
    · exact absurd hc hx.1
    · rw [← hx.2, hc]
  · rfl

private theorem insertMany_cons_eq (m : Fields) (e : Bytes × Bytes) (es : List (Bytes × Bytes)) :
    m.insertMany (e :: es) = (m.insert e.1 e.2).insertMany es := by
  obtain ⟨key, value⟩ := e
  exact Std.ExtTreeMap.insertMany_cons

/-- The step of a block that ends the message or has one field behind it. -/
private theorem read_last_block (st : ParseState) (key value : Bytes) (rest : List (Bytes × Bytes))
    (hm : st.inMultiline = false) (h : FieldOk (key, value)) (hs : isSdpKey key)
    (hne : value ≠ []) (hrest : ∀ e ∈ rest, FieldOk e) (hkeys : ∀ e ∈ rest, e.1 ≠ [])
    (hr : rest = [] ∨ ∃ e, rest = [e] ∧ (isSdpKey e.1 → e.2 = [])) :
    ((getlines (createText ((key, value) :: rest))).foldl parseLine st).finish =
      st.result.insertMany ((key, value) :: rest) := by
  obtain ⟨line, lines, rfl, hls⟩ := (h.value_block hs).first hne
  have hkey : key ≠ [] := isSdpKey_ne_nil hs
  change ((getlines (fieldText _ ++ createText rest)).foldl parseLine st).finish = _
  rw [getlines_block key line lines _ hs h.key_lf (hls line (by simp)).1
      fun l hl ↦ (hls l (List.mem_cons_of_mem _ hl)).1,
    foldl_block st key line lines _ hm h.key_eq hs
      fun l hl ↦ (hls l (List.mem_cons_of_mem _ hl)).2,
    insertMany_cons_eq]
  rcases hr with rfl | ⟨e, rfl, he⟩
  · simp [createText, ParseState.finish, hkey]
  · have hok := hrest e (by simp)
    have hek := hkeys e (by simp)
    -- The one field behind the block is a single line, whether plain or an empty block.
    have hg : getlines (createText [e]) = [e.1 ++ EQ :: e.2] := by
      cases hse : isSdpKey e.1 with
      | false =>
        have := getlines_plain e [] hok hse
        simpa [createText] using this
      | true =>
        have hn : LF ∉ e.1 ++ [EQ] := by simp [hok.key_lf, show LF ≠ EQ by decide]
        have := getlines_append (e.1 ++ [EQ]) [] hn (by simp)
        simpa [createText, fieldText, hse, he hse] using this
    rw [hg, List.foldl_cons, List.foldl_nil,
      parseLine_close _ e.1 e.2 rfl hok.key_eq hok.key_letter, insertMany_cons_eq]
    simp [ParseState.finish, hek]

/-- Fields whose block comes last are stored one after the other. -/
private theorem read_back (es : List (Bytes × Bytes)) (st : ParseState) (hst : Stored st)
    (hes : ∀ e ∈ es, FieldOk e) (hord : es.Pairwise fun a b ↦ compare a.1 b.1 = .lt)
    (hlast : BlockLast es) :
    ((getlines (createText es)).foldl parseLine st).finish = st.result.insertMany es := by
  induction es generalizing st with
  | nil => simpa [createText] using hst.finish_eq
  | cons e es ih =>
    obtain ⟨key, value⟩ := e
    have h := hes (key, value) (by simp)
    have ht : ∀ e ∈ es, FieldOk e := fun e he ↦ hes e (List.mem_cons_of_mem _ he)
    obtain ⟨hfst, hord'⟩ := List.pairwise_cons.mp hord
    cases hs : isSdpKey key with
    | false =>
      simp only [BlockLast, hs, Bool.false_eq_true, if_false] at hlast
      change ((getlines (fieldText (key, value) ++ createText es)).foldl parseLine st).finish = _
      rw [getlines_plain _ _ h hs, List.foldl_cons,
        parseLine_plain st key value hst.1 h.key_eq hs, insertMany_cons_eq]
      exact ih _ ⟨hst.1, .inr (by simp)⟩ ht hord' hlast
    | true =>
      simp only [BlockLast, hs, if_true] at hlast
      refine read_last_block st key value es hst.1 h hs hlast.1 ht ?_ hlast.2
      -- A key behind an SDP key in map order is not the empty one.
      intro e he hn
      have hlt := hfst e he
      rw [hn] at hlt
      cases key with
      | nil => exact isSdpKey_ne_nil hs rfl
      | cons b key =>
        have hgt : compare (b :: key) ([] : Bytes) = .gt := rfl
        exact nomatch hgt.symm.trans hlt

/-! ### Losing a field -/

/-- Nothing of the fields still to come has been read. -/
private def Fresh (st : ParseState) (es : List (Bytes × Bytes)) : Prop :=
  ∀ e ∈ es, st.result[e.1]? = none

/-- An empty block is stored with the line it was joined to. -/
private theorem lose_empty (st : ParseState) (key : Bytes) (rest : List (Bytes × Bytes))
    (hm : st.inMultiline = false) (h : FieldOk (key, [])) (hs : isSdpKey key)
    (hrest : ∀ e ∈ rest, FieldOk e) (hk : key ∉ rest.map Prod.fst) :
    ((getlines (createText ((key, []) :: rest))).foldl parseLine st).finish[key]? ≠ some [] := by
  obtain ⟨head, lines, hg, hr⟩ := getlines_empty key (createText rest) hs h.key_lf
  change ((getlines (fieldText (key, []) ++ createText rest)).foldl parseLine st).finish[key]? ≠ _
  rw [hg, List.foldl_cons, parseLine_open st key head hm h.key_eq hs]
  have hx : ∀ line ∈ lines, keyOf line ≠ some key := by
    intro line hl
    rcases hr with ⟨-, -, rfl⟩ | hr
    · cases hl
    · exact keyOf_ne rest hrest key hk h.key_letter line
        (by rw [hr]; exact List.mem_cons_of_mem _ hl)
  obtain ⟨more, hmore⟩ := finish_block lines
    { st with currentKey := key, currentValue := head ++ [LF], inMultiline := true } rfl hx
    (isSdpKey_ne_nil hs)
  rw [hmore]
  simp

/-- A field behind the block is lost when another line with a key follows it. -/
private theorem lose_plain (st : ParseState) (e e' : Bytes × Bytes) (rest : List (Bytes × Bytes))
    (hm : st.inMultiline = true) (he : FieldOk e) (hs : isSdpKey e.1 = false)
    (hrest : ∀ f ∈ e' :: rest, FieldOk f) (hk : e.1 ∉ (e' :: rest).map Prod.fst)
    (hst : st.currentKey ≠ e.1) (hr : st.result[e.1]? = none) :
    ((getlines (createText (e :: e' :: rest))).foldl parseLine st).finish[e.1]? = none := by
  change ((getlines (fieldText e ++ createText (e' :: rest))).foldl parseLine st).finish[e.1]? = _
  rw [getlines_plain e _ he hs, List.foldl_cons,
    parseLine_close st e.1 e.2 hm he.key_eq he.key_letter]
  have hkeys := keyOf_ne (e' :: rest) hrest e.1 hk he.key_letter
  obtain ⟨value, lines, hg⟩ : ∃ value lines,
      getlines (createText (e' :: rest)) = (e'.1 ++ EQ :: value) :: lines := by
    have he' := hrest e' (by simp)
    change ∃ value lines, getlines (fieldText e' ++ createText rest) = _
    cases hs' : isSdpKey e'.1 with
    | false => exact ⟨_, _, getlines_plain e' _ he' hs'⟩
    | true =>
      obtain ⟨key', value'⟩ := e'
      by_cases hv : value' = []
      · subst hv
        obtain ⟨head, lines, hg, -⟩ := getlines_empty key' (createText rest) hs' he'.key_lf
        exact ⟨head, lines, hg⟩
      · obtain ⟨line, lines, rfl, hls⟩ := (he'.value_block hs').first hv
        exact ⟨line, _, getlines_block key' line lines _ hs' he'.key_lf (hls line (by simp)).1
          fun l hl ↦ (hls l (List.mem_cons_of_mem _ hl)).1⟩
  rw [hg] at hkeys ⊢
  have he' := hrest e' (by simp)
  have hne : e'.1 ≠ e.1 := by
    intro h
    exact hk (by simp [h])
  -- The second line replaces the remembered field before anything stores it.
  rw [List.foldl_cons]
  have hfirst : (parseLine
      { result := st.result.insert st.currentKey st.currentValue
        currentKey := e.1, currentValue := e.2, inMultiline := false }
      (e'.1 ++ EQ :: value)).currentKey ≠ e.1 ∧
    (parseLine
      { result := st.result.insert st.currentKey st.currentValue
        currentKey := e.1, currentValue := e.2, inMultiline := false }
      (e'.1 ++ EQ :: value)).result[e.1]? = none := by
    cases hs' : isSdpKey e'.1 with
    | false =>
      rw [parseLine_plain _ e'.1 value rfl he'.key_eq hs']
      simp [Std.ExtTreeMap.getElem?_insert, hne, hst, hr]
    | true =>
      rw [parseLine_open _ e'.1 value rfl he'.key_eq hs']
      simp [Std.ExtTreeMap.getElem?_insert, hne, hst, hr]
  rw [finish_frame lines _ e.1 (fun l hl ↦ hkeys l (List.mem_cons_of_mem _ hl)) hfirst.1, hfirst.2]

/-- An SDP field behind the block keeps at most its first line. -/
private theorem lose_second (st : ParseState) (e : Bytes × Bytes) (rest : List (Bytes × Bytes))
    (hm : st.inMultiline = true) (he : FieldOk e) (hs : isSdpKey e.1)
    (hrest : ∀ f ∈ rest, FieldOk f) (hk : e.1 ∉ rest.map Prod.fst)
    (hst : st.currentKey ≠ e.1) (hr : st.result[e.1]? = none) (hne : e.2 = [] → rest ≠ []) :
    ((getlines (createText (e :: rest))).foldl parseLine st).finish[e.1]? ≠ some e.2 := by
  have hkeys := keyOf_ne rest hrest e.1 hk he.key_letter
  have pending : ∀ head lines, (∀ l ∈ lines, keyOf l ≠ some e.1) → head ≠ e.2 →
      (((e.1 ++ EQ :: head) :: lines).foldl parseLine st).finish[e.1]? ≠ some e.2 := by
    intro head lines hl hh
    rw [List.foldl_cons, parseLine_close st e.1 head hm he.key_eq he.key_letter]
    have hres : (st.result.insert st.currentKey st.currentValue)[e.1]? = none := by
      simp [Std.ExtTreeMap.getElem?_insert, hst, hr]
    rcases finish_pending lines
        { result := st.result.insert st.currentKey st.currentValue
          currentKey := e.1, currentValue := head, inMultiline := false } rfl hl hres with h | h
    · simp [h]
    · simp [h, hh]
  change ((getlines (fieldText e ++ createText rest)).foldl parseLine st).finish[e.1]? ≠ _
  obtain ⟨key, value⟩ := e
  by_cases hv : value = []
  · subst hv
    obtain ⟨head, lines, hg, hr'⟩ := getlines_empty key (createText rest) hs he.key_lf
    rw [hg]
    have hnil : getlines (createText rest) ≠ [] := by
      cases rest with
      | nil => exact absurd rfl (hne rfl)
      | cons f rest =>
        intro hnil
        have : createText (f :: rest) ≠ [] := by simp [createText, fieldText]
        cases ht : createText (f :: rest) with
        | nil => exact this ht
        | cons b t =>
          rw [ht] at hnil
          simp only [getlines] at hnil
          split at hnil
          · cases hnil
          · split at hnil <;> cases hnil
    rcases hr' with ⟨hn, -⟩ | hr'
    · exact absurd hn hnil
    · refine pending head lines
        (fun l hl ↦ hkeys l (by rw [hr']; exact List.mem_cons_of_mem _ hl)) ?_
      -- The line joined to the empty block is a field, so it has a byte.
      intro hh
      dsimp only at hh
      subst hh
      cases rest with
      | nil => exact hne rfl rfl
      | cons f rest =>
        have hf := hrest f (by simp)
        change getlines (fieldText f ++ createText rest) = _ at hr'
        have hft : fieldText f ++ createText rest =
            (f.1 ++ [EQ]) ++ (f.2 ++ (if isSdpKey f.1 then [] else [LF]) ++ createText rest) := by
          simp [fieldText]
        rw [hft, getlines_append _ _ (by simp [hf.key_lf, show LF ≠ EQ by decide]) (by simp)] at hr'
        split at hr' <;> simp at hr'
  · obtain ⟨line, lines, hval, hls⟩ := (he.value_block hs).first hv
    dsimp only at hval hs
    subst hval
    rw [getlines_block key line lines _ hs he.key_lf (hls line (by simp)).1
      fun l hl ↦ (hls l (List.mem_cons_of_mem _ hl)).1]
    apply pending line _
    · intro l hl
      rcases List.mem_append.mp hl with hl | hl
      · rcases (hls l (List.mem_cons_of_mem _ hl)).2 with hp | hp
        · obtain ⟨c, hc, hkc⟩ := keyOf_sdpLine l hp
          rw [hkc]
          exact fun h ↦ he.key_letter c hc (Option.some.inj h).symm
        · simp [keyOf, findEq_none l hp]
      · exact hkeys l hl
    · intro h
      have := congrArg List.length h
      simp [unlines] at this

/-- Fields whose block does not come last are not all read back. -/
private theorem lose_field (es : List (Bytes × Bytes)) (st : ParseState)
    (hm : st.inMultiline = false) (hfresh : Fresh st es) (hes : ∀ e ∈ es, FieldOk e)
    (hdist : es.Pairwise fun a b ↦ a.1 ≠ b.1) (hlast : ¬ BlockLast es) :
    ∃ e ∈ es, ((getlines (createText es)).foldl parseLine st).finish[e.1]? ≠ some e.2 := by
  induction es generalizing st with
  | nil => exact absurd trivial hlast
  | cons e es ih =>
    obtain ⟨key, value⟩ := e
    have h := hes (key, value) (by simp)
    have ht : ∀ e ∈ es, FieldOk e := fun e he ↦ hes e (List.mem_cons_of_mem _ he)
    obtain ⟨hfst, hdist'⟩ := List.pairwise_cons.mp hdist
    cases hs : isSdpKey key with
    | false =>
      simp only [BlockLast, hs, Bool.false_eq_true, if_false] at hlast
      have hfresh' : Fresh { st with
          currentKey := key, currentValue := value, result := st.result.insert key value } es := by
        intro e he
        have hne : key ≠ e.1 := hfst e he
        simp [Std.ExtTreeMap.getElem?_insert, hne, hfresh e (List.mem_cons_of_mem _ he)]
      obtain ⟨e, he, hloss⟩ := ih _ (by exact hm) hfresh' ht hdist' hlast
      refine ⟨e, List.mem_cons_of_mem _ he, ?_⟩
      change
        ((getlines (fieldText (key, value) ++ createText es)).foldl parseLine st).finish[e.1]? ≠ _
      rw [getlines_plain _ _ h hs, List.foldl_cons, parseLine_plain st key value hm h.key_eq hs]
      exact hloss
    | true =>
      have hk : key ∉ es.map Prod.fst := by
        intro hmem
        obtain ⟨e, he, hke⟩ := List.mem_map.mp hmem
        exact hfst e he hke.symm
      by_cases hv : value = []
      · subst hv
        exact ⟨(key, []), by simp, lose_empty st key es hm h hs ht hk⟩
      · simp only [BlockLast, hs, if_true, hv, ne_eq, not_false_eq_true, true_and, not_or,
          not_exists] at hlast
        obtain ⟨hne, hmany⟩ := hlast
        obtain ⟨line, lines, hval, hls⟩ := (h.value_block hs).first hv
        dsimp only at hval
        subst hval
        cases es with
        | nil => exact absurd rfl hne
        | cons e es =>
          refine ⟨e, by simp, ?_⟩
          have hek : key ≠ e.1 := hfst e (by simp)
          have hres : st.result[e.1]? = none := hfresh e (by simp)
          have hk' : e.1 ∉ es.map Prod.fst := by
            intro hmem
            obtain ⟨f, hf, hfe⟩ := List.mem_map.mp hmem
            exact (List.pairwise_cons.mp hdist').1 f hf hfe.symm
          have ht' : ∀ f ∈ es, FieldOk f := fun f hf ↦ ht f (List.mem_cons_of_mem _ hf)
          change
            ((getlines (fieldText _ ++ createText (e :: es))).foldl parseLine st).finish[e.1]? ≠ _
          rw [getlines_block key line lines _ hs h.key_lf (hls line (by simp)).1
              fun l hl ↦ (hls l (List.mem_cons_of_mem _ hl)).1,
            foldl_block st key line lines _ hm h.key_eq hs
              fun l hl ↦ (hls l (List.mem_cons_of_mem _ hl)).2]
          cases hse : isSdpKey e.1 with
          | true =>
            refine lose_second _ e es rfl (ht e (by simp)) hse ht' hk' hek hres ?_
            rintro hev rfl
            exact hmany e ⟨rfl, fun _ ↦ hev⟩
          | false =>
            cases es with
            | nil => exact absurd ⟨rfl, fun hs' ↦ by simp [hse] at hs'⟩ (hmany e)
            | cons e' es =>
              have hloss := lose_plain
                { st with
                  currentKey := key, currentValue := unlines (line :: lines), inMultiline := true }
                e e' es rfl (ht e (by simp)) hse ht' hk' hek hres
              rw [hloss]
              simp

/-! ### The round trip -/

/-- A field map comes back from its message exactly when its SDP block is not empty and
has at most one field behind it. -/
theorem parseMessage_createMessage_iff (m : Fields) (hm : Encodable m) :
    parseMessage (createMessage m) = m ↔ BlockLast m.toList := by
  have hes : ∀ e ∈ m.toList, FieldOk e := fun e he ↦
    hm e.1 e.2 (Std.ExtTreeMap.mem_toList_iff_getElem?_eq_some.mp he)
  have hord := m.ordered_keys_toList
  constructor
  · intro h
    by_contra hlast
    have hdist : m.toList.Pairwise fun a b ↦ a.1 ≠ b.1 := by
      refine hord.imp fun {a b} hlt heq ↦ ?_
      have hself : compare b.1 b.1 = .eq := Std.ReflCmp.compare_self
      rw [heq, hself] at hlt
      cases hlt
    have hfresh : Fresh .start m.toList := by
      intro e _
      simp [ParseState.start]
    obtain ⟨e, he, hloss⟩ := lose_field m.toList .start rfl hfresh hes hdist hlast
    have hlookup := Std.ExtTreeMap.mem_toList_iff_getElem?_eq_some.mp he
    change parseMessage (createMessage m) = m at h
    rw [← h] at hlookup
    exact hloss hlookup
  · intro hlast
    have hread := read_back m.toList .start ⟨rfl, .inl rfl⟩ hes hord hlast
    change parseMessage (createMessage m) = (∅ : Fields).insertMany m.toList at hread
    rw [hread]
    apply Std.ExtTreeMap.ext_getElem?
    intro k
    cases hk : m[k]? with
    | some v =>
      exact Std.ExtTreeMap.getElem?_insertMany_list_of_mem Std.ReflCmp.compare_self
        m.distinct_keys_toList (Std.ExtTreeMap.mem_toList_iff_getElem?_eq_some.mpr hk)
    | none =>
      rw [Std.ExtTreeMap.getElem?_insertMany_list_of_contains_eq_false]
      · simp
      · rw [List.contains_eq_mem, decide_eq_false_iff_not]
        intro hmem
        obtain ⟨e, he, rfl⟩ := List.mem_map.mp hmem
        have := Std.ExtTreeMap.mem_toList_iff_getElem?_eq_some.mp he
        rw [hk] at this
        cases this

/-! ### Two messages -/

private theorem encodable_of_toList (m : Fields) (h : ∀ e ∈ m.toList, FieldOk e) : Encodable m :=
  fun key value hk ↦ h (key, value) (Std.ExtTreeMap.mem_toList_iff_getElem?_eq_some.mpr hk)

/-- A key of more than one byte is none of the letters. -/
private theorem ne_letter {key : Bytes} (h : key.length ≠ 1) : ∀ c ∈ sdpLetters, key ≠ [c] := by
  rintro c - rfl
  exact h rfl

private theorem fieldOk_sdp : FieldOk (lit "sdp", lit "v=0\n") :=
  ⟨by decide, by decide, ne_letter (by decide), by decide,
    fun _ ↦ ⟨[lit "v=0"], by decide, by decide⟩⟩

/-- A provider's registration. -/
def registerFields : Fields :=
  ((∅ : Fields).insert (lit "sdp") (lit "v=0\n")).insert (lit "service_id") (lit "cam")
    |>.insert (lit "type") (lit "REGISTER")

private theorem encodable_registerFields : Encodable registerFields := by
  have hl : registerFields.toList =
      [(lit "sdp", lit "v=0\n"), (lit "service_id", lit "cam"), (lit "type", lit "REGISTER")] := by
    decide
  apply encodable_of_toList _
  rw [hl]
  intro e he
  simp only [List.mem_cons, List.not_mem_nil, or_false] at he
  rcases he with rfl | rfl | rfl
  · exact fieldOk_sdp
  · exact ⟨by decide, by decide, ne_letter (by decide), by decide, fun h ↦ absurd h (by decide)⟩
  · exact ⟨by decide, by decide, ne_letter (by decide), by decide, fun h ↦ absurd h (by decide)⟩

/-- Its service is lost: the line that ends the block is never stored. -/
theorem parseMessage_createMessage_register :
    Encodable registerFields ∧ parseMessage (createMessage registerFields) ≠ registerFields ∧
      (parseMessage (createMessage registerFields))[lit "service_id"]? = none :=
  ⟨encodable_registerFields, by decide, by decide⟩

/-- A provider's fresh SDP, sent without its service. -/
def sdpReadyFields : Fields :=
  ((∅ : Fields).insert (lit "sdp") (lit "v=0\n")).insert (lit "type") (lit "SDP_READY")

/-- One field behind the block comes back. -/
theorem parseMessage_createMessage_sdpReady :
    parseMessage (createMessage sdpReadyFields) = sdpReadyFields := by
  have hl : sdpReadyFields.toList = [(lit "sdp", lit "v=0\n"), (lit "type", lit "SDP_READY")] := by
    decide
  refine (parseMessage_createMessage_iff _ (encodable_of_toList _ ?_)).mpr ?_
  · rw [hl]
    intro e he
    simp only [List.mem_cons, List.not_mem_nil, or_false] at he
    rcases he with rfl | rfl
    · exact fieldOk_sdp
    · exact ⟨by decide, by decide, ne_letter (by decide), by decide, fun h ↦ absurd h (by decide)⟩
  · rw [hl]
    exact ⟨by decide, .inr ⟨_, rfl, fun h ↦ absurd h (by decide)⟩⟩

end Kitty.Signal
