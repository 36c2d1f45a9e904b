import Kitty.Base.Bytes

/-!
# Words of a shell command

The tokens of a POSIX shell: operators and blanks end a word unless they are quoted, a `#` where
a word could begin starts a comment, and quotes and backslashes leave the word they stand in. A
word with a pattern character that is not quoted stands for the names of the files that match it,
or for itself when there are none.
-/

namespace Kitty.Base

/-- A word: its bytes, each quoted or not, without the quotes. -/
abbrev Word := List (UInt8 × Bool)

/-- A token. An operator of two characters is told as two. -/
inductive Token where
  | word (w : Word)
  | newline
  | operator (b : UInt8)
  deriving DecidableEq

/-- How the next byte is read. -/
inductive Quoting where
  | plain
  | escaped
  | single
  | double
  | doubleEscaped
  | comment
  deriving DecidableEq

/-- A space or a tab. -/
def isBlank (b : UInt8) : Bool := b == 32 || b == 9

/-- One of `|`, `&`, `;`, `<`, `>`, `(` and `)`. -/
def isOperator (b : UInt8) : Bool :=
  b == 124 || b == 38 || b == 59 || b == 60 || b == 62 || b == 40 || b == 41

/-- A `$` or a backquote: something is substituted. -/
def isSubstitution (b : UInt8) : Bool := b == 36 || b == 96

/-- A word that has begun is a token. -/
def delimit (cur : Option Word) : List Token := (cur.map Token.word).toList

/-- A byte goes to the word that has begun, or begins one. -/
def push (cur : Option Word) (b : UInt8) (quoted : Bool) : Option Word :=
  some (cur.getD [] ++ [(b, quoted)])

/-- What a byte does: the tokens that end, how the next byte is read, and the word that has
begun. There is none when something is substituted. -/
def readByte : Quoting → Option Word → UInt8 → Option (List Token × Quoting × Option Word)
  | .plain, cur, b =>
    if b = 92 then some ([], .escaped, cur)
    else if b = 39 then some ([], .single, some (cur.getD []))
    else if b = 34 then some ([], .double, some (cur.getD []))
    else if b = LF then some (delimit cur ++ [.newline], .plain, none)
    else if isBlank b then some (delimit cur, .plain, none)
    else if isOperator b then some (delimit cur ++ [.operator b], .plain, none)
    else if isSubstitution b then none
    else if b = 35 ∧ cur = none then some ([], .comment, none)
    else some ([], .plain, push cur b false)
  | .escaped, cur, b => some ([], .plain, if b = LF then cur else push cur b true)
  | .single, cur, b =>
    if b = 39 then some ([], .plain, cur) else some ([], .single, push cur b true)
  | .double, cur, b =>
    if b = 34 then some ([], .plain, cur)
    else if b = 92 then some ([], .doubleEscaped, cur)
    else if isSubstitution b then none
    else some ([], .double, push cur b true)
  | .doubleEscaped, cur, b =>
    if b = LF then some ([], .double, cur)
    else if b = 34 ∨ b = 92 ∨ isSubstitution b = true then some ([], .double, push cur b true)
    else some ([], .double, push (push cur 92 true) b true)
  | .comment, cur, b =>
    if b = LF then some (delimit cur ++ [.newline], .plain, none) else some ([], .comment, cur)

/-- The tokens at the end of a command: none when a quote is not closed. A backslash that nothing
follows is kept. -/
def endTokens : Quoting → Option Word → Option (List Token)
  | .plain, cur => some (delimit cur)
  | .escaped, cur => some (delimit (push cur 92 false))
  | .comment, cur => some (delimit cur)
  | .single, _ => none
  | .double, _ => none
  | .doubleEscaped, _ => none

/-- The tokens of the rest of a command, after what was read of a word. -/
def tokens (q : Quoting) (cur : Option Word) : Bytes → Option (List Token)
  | [] => endTokens q cur
  | b :: rest =>
    (readByte q cur b).bind fun r ↦ (tokens r.2.1 r.2.2 rest).map (r.1 ++ ·)

/-- A word without its quotes. -/
def Word.text (w : Word) : Bytes := w.map Prod.fst

/-- The bytes of a text as a word, none of them quoted. -/
def unquoted (text : Bytes) : Word := text.map (·, false)

/-- One of `*`, `?` and `[`. -/
def isPattern (b : UInt8) : Bool := b == 42 || b == 63 || b == 91

/-- The files of a system: the names that match a word. -/
abbrev Pathnames := Word → List Bytes

/-- No file makes anything else of a word than its text. -/
def Word.StandsForItself (files : Pathnames) (w : Word) : Prop :=
  (∃ c ∈ w, c.2 = false ∧ isPattern c.1 = true) → files w = [] ∨ files w = [w.text]

/-- A command is one simple command of these arguments, with nothing redirected. -/
def IsCommand (files : Pathnames) (command : Bytes) (args : List Bytes) : Prop :=
  ∃ ws : List Word, tokens .plain none command = some (ws.map .word) ∧ ws.map Word.text = args ∧
    ∀ w ∈ ws, w.StandsForItself files

/-- A byte that goes to the word it stands in, wherever it stands in it. -/
def isOrdinary (b : UInt8) : Bool :=
  b != 92 && b != 39 && b != 34 && b != LF && !isBlank b && !isOperator b && !isSubstitution b

/-! ### Words of ordinary bytes -/

section Ordinary

variable {cur : Option Word} {b : UInt8} {rest : Bytes}

theorem readByte_ordinary (hb : isOrdinary b = true) (hcomment : ¬ (b = 35 ∧ cur = none)) :
    readByte .plain cur b = some ([], .plain, push cur b false) := by
  simp only [isOrdinary, Bool.and_eq_true, bne_iff_ne, Bool.not_eq_true'] at hb
  obtain ⟨⟨⟨⟨⟨⟨hback, hsingle⟩, hdouble⟩, hlf⟩, hblank⟩, hop⟩, hsub⟩ := hb
  simp [readByte, hback, hsingle, hdouble, hlf, hblank, hop, hsub, hcomment]

theorem tokens_cons_ordinary (hb : isOrdinary b = true) (hcomment : ¬ (b = 35 ∧ cur = none)) :
    tokens .plain cur (b :: rest) = tokens .plain (push cur b false) rest := by
  rw [tokens, readByte_ordinary hb hcomment, Option.bind_some]
  simp

/-- Ordinary bytes lengthen the word they stand in. -/
theorem tokens_append_ordinary {w : Word} {text : Bytes}
    (htext : ∀ b ∈ text, isOrdinary b = true) :
    tokens .plain (some w) (text ++ rest) = tokens .plain (some (w ++ unquoted text)) rest := by
  induction text generalizing w with
  | nil => simp [unquoted]
  | cons b text ih =>
    rw [List.cons_append, tokens_cons_ordinary (htext b (by simp)) (by simp), push,
      Option.getD_some, ih fun c hc ↦ htext c (List.mem_cons_of_mem _ hc)]
    simp [unquoted]

/-- They make a word when no comment begins with them. -/
theorem tokens_ordinary {text : Bytes} (htext : ∀ b ∈ text, isOrdinary b = true)
    (hne : text ≠ []) (hcomment : ∀ b ∈ text.head?, b ≠ 35) :
    tokens .plain none (text ++ rest) = tokens .plain (some (unquoted text)) rest := by
  cases text with
  | nil => exact absurd rfl hne
  | cons b text =>
    have hb : b ≠ 35 := hcomment b rfl
    rw [List.cons_append, tokens_cons_ordinary (htext b (by simp)) (by simp [hb]), push,
      tokens_append_ordinary fun c hc ↦ htext c (List.mem_cons_of_mem _ hc)]
    rfl

/-- A space ends the word. -/
theorem tokens_word_space {text : Bytes} (htext : ∀ b ∈ text, isOrdinary b = true)
    (hne : text ≠ []) (hcomment : ∀ b ∈ text.head?, b ≠ 35) :
    tokens .plain none (text ++ 32 :: rest) =
      (tokens .plain none rest).map (.word (unquoted text) :: ·) := by
  rw [tokens_ordinary htext hne hcomment, tokens]
  rfl

end Ordinary

/-! ### What quotes and separators take away -/

/-- How many bytes the words have. -/
def wordsLength (ts : List Token) : Nat :=
  (ts.flatMap fun t ↦ match t with | .word w => w | _ => []).length

/-- How many bytes a word has that has begun. -/
def begunLength (cur : Option Word) : Nat := (cur.getD []).length

/-- A backslash that was read may yet come to its word. -/
def Quoting.owed : Quoting → Nat
  | .escaped => 1
  | .doubleEscaped => 1
  | _ => 0

theorem wordsLength_delimit (cur : Option Word) (ts : List Token) :
    wordsLength (delimit cur ++ ts) = begunLength cur + wordsLength ts := by
  cases cur <;> simp [wordsLength, delimit, begunLength]

theorem begunLength_none : begunLength none = 0 := rfl

theorem begunLength_push (cur : Option Word) (b : UInt8) (quoted : Bool) :
    begunLength (push cur b quoted) = begunLength cur + 1 := by
  simp [begunLength, push]

private theorem wordsLength_ends (cur : Option Word) (ts : List Token)
    (hts : wordsLength ts = 0) :
    wordsLength (delimit cur ++ ts) + begunLength none = begunLength cur := by
  rw [wordsLength_delimit, hts]
  rfl

/-- A separator, an operator or a quote gives its word nothing. -/
theorem readByte_special {q : Quoting} {cur cur' : Option Word} {b : UInt8} {ts : List Token}
    (hb : isOrdinary b = false) (hback : b ≠ 92)
    (h : readByte .plain cur b = some (ts, q, cur')) :
    wordsLength ts + begunLength cur' + q.owed ≤ begunLength cur := by
  have hends := wordsLength_ends cur
  simp only [readByte, if_neg hback] at h
  split at h
  · cases h
    exact (Nat.zero_add _).le
  · next hsingle =>
    split at h
    · cases h
      exact (Nat.zero_add _).le
    · next hdouble =>
      split at h
      · cases h
        exact (hends [.newline] rfl).le
      · next hlf =>
        split at h
        · cases h
          have hend := hends [] rfl
          rw [List.append_nil] at hend
          exact hend.le
        · next hblank =>
          split at h
          · cases h
            exact (hends [.operator b] rfl).le
          · next hop =>
            split at h
            · cases h
            · next hsub =>
              simp [isOrdinary, hback, hsingle, hdouble, hlf, hblank, hop, hsub] at hb

/-- A byte gives its words no more than itself and the backslash before it. -/
theorem readByte_length {q q' : Quoting} {cur cur' : Option Word} {b : UInt8} {ts : List Token}
    (h : readByte q cur b = some (ts, q', cur')) :
    wordsLength ts + begunLength cur' + q'.owed ≤ begunLength cur + q.owed + 1 := by
  have hnil : wordsLength [] = 0 := rfl
  have hpush := begunLength_push
  cases q with
  | plain =>
    by_cases hback : b = 92
    · rw [hback] at h
      cases h
      simp only [Quoting.owed]
      omega
    · cases hb : isOrdinary b with
      | false =>
        have hspecial := readByte_special hb hback h
        omega
      | true =>
        by_cases hcomment : b = 35 ∧ cur = none
        · obtain ⟨rfl, rfl⟩ := hcomment
          cases h
          simp only [Quoting.owed]
          omega
        · rw [readByte_ordinary hb hcomment] at h
          cases h
          rw [hnil, hpush]
          simp only [Quoting.owed]
          omega
  | escaped =>
    simp only [readByte, Option.some.injEq, Prod.mk.injEq] at h
    obtain ⟨rfl, rfl, rfl⟩ := h
    simp only [Quoting.owed]
    split
    · omega
    · rw [hpush]
      omega
  | single =>
    simp only [readByte] at h
    split at h <;> cases h <;> simp only [Quoting.owed, hnil, hpush] <;> omega
  | double =>
    simp only [readByte] at h
    split at h
    · cases h
      simp only [Quoting.owed]
      omega
    · split at h
      · cases h
        simp only [Quoting.owed]
        omega
      · split at h
        · cases h
        · cases h
          rw [hpush]
          simp only [Quoting.owed]
          omega
  | doubleEscaped =>
    simp only [readByte] at h
    split at h
    · cases h
      simp only [Quoting.owed]
      omega
    · split at h <;> cases h <;> simp only [Quoting.owed, hnil, hpush] <;> omega
  | comment =>
    simp only [readByte] at h
    split at h
    · cases h
      have hend := wordsLength_ends cur [.newline] rfl
      simp only [Quoting.owed]
      omega
    · cases h
      simp only [Quoting.owed]
      omega

theorem wordsLength_append (ts us : List Token) :
    wordsLength (ts ++ us) = wordsLength ts + wordsLength us := by
  simp [wordsLength]

/-- The words have no more bytes than there were to read. -/
theorem wordsLength_le {q : Quoting} {cur : Option Word} {s : Bytes} {ts : List Token}
    (h : tokens q cur s = some ts) : wordsLength ts ≤ begunLength cur + q.owed + s.length := by
  induction s generalizing q cur ts with
  | nil =>
    have hdelimit : ∀ cur, wordsLength (delimit cur) = begunLength cur := fun cur ↦ by
      have hnil := wordsLength_delimit cur []
      rwa [List.append_nil] at hnil
    cases q <;> cases h <;> rw [hdelimit]
    · omega
    · rw [begunLength_push]
      simp only [Quoting.owed]
      omega
    · omega
  | cons b rest ih =>
    obtain ⟨⟨us, q', cur'⟩, hread, hrest⟩ := Option.bind_eq_some_iff.mp h
    obtain ⟨vs, hvs, rfl⟩ := Option.map_eq_some_iff.mp hrest
    have hbyte := readByte_length hread
    have htail := ih hvs
    rw [wordsLength_append, List.length_cons]
    dsimp only at htail ⊢
    omega

/-- They have as many only when every byte was ordinary, but for a backslash at the end. -/
theorem ordinary_of_wordsLength {cur : Option Word} {s : Bytes} {ts : List Token}
    (h : tokens .plain cur s = some ts) (hlen : begunLength cur + s.length ≤ wordsLength ts) :
    ∀ pre b post, s = pre ++ b :: post → isOrdinary b = true ∨ b = 92 ∧ post = [] := by
  induction s generalizing cur ts with
  | nil => intro pre b post hs; simp at hs
  | cons c rest ih =>
    obtain ⟨⟨us, q', cur'⟩, hread, hrest⟩ := Option.bind_eq_some_iff.mp h
    obtain ⟨vs, hvs, rfl⟩ := Option.map_eq_some_iff.mp hrest
    have htail := wordsLength_le hvs
    rw [wordsLength_append, List.length_cons] at hlen
    dsimp only at hvs htail hlen
    by_cases hback : c = 92
    · subst hback
      cases hread
      cases rest with
      | nil =>
        intro pre b post hs
        cases pre with
        | nil =>
          cases hs
          exact .inr ⟨rfl, rfl⟩
        | cons d pre => simp at hs
      | cons d rest =>
        -- the backslash is lost when something follows it
        obtain ⟨⟨us', q'', cur''⟩, hread', hrest'⟩ := Option.bind_eq_some_iff.mp hvs
        obtain ⟨vs', hvs', rfl⟩ := Option.map_eq_some_iff.mp hrest'
        have htail' := wordsLength_le hvs'
        simp only [readByte, Option.some.injEq, Prod.mk.injEq] at hread'
        obtain ⟨rfl, rfl, rfl⟩ := hread'
        have hcur : begunLength (if d = LF then cur else push cur d true) ≤
            begunLength cur + 1 := by
          split
          · omega
          · rw [begunLength_push]
        rw [wordsLength_append] at hlen
        have hnil : wordsLength [] = 0 := rfl
        simp only [Quoting.owed, List.length_cons] at htail' hlen
        omega
    · cases hc : isOrdinary c with
      | false =>
        have hspecial := readByte_special hc hback hread
        omega
      | true =>
        have hcomment : ¬ (c = 35 ∧ cur = none) := by
          rintro ⟨rfl, rfl⟩
          cases hread
          have hnil : wordsLength [] = 0 := rfl
          simp only [Quoting.owed] at htail
          omega
        rw [readByte_ordinary hc hcomment] at hread
        cases hread
        have hnil : wordsLength [] = 0 := rfl
        intro pre b post hs
        cases pre with
        | nil =>
          cases hs
          exact .inl hc
        | cons d pre =>
          refine ih hvs ?_ pre b post (List.cons.inj hs).2
          rw [begunLength_push]
          omega

/-- A text is one word as it stands. -/
theorem tokens_plain_text {text : Bytes}
    (htext : ∀ pre b post, text = pre ++ b :: post → isOrdinary b = true ∨ b = 92 ∧ post = [])
    (hfirst : ∃ b, isOrdinary b = true ∧ b ≠ 35 ∧ text.head? = some b) :
    tokens .plain none text = some [.word (unquoted text)] := by
  obtain ⟨first, hordinary, hcomment, hhead⟩ := hfirst
  have hhead' : ∀ b ∈ text.head?, b ≠ 35 := by
    intro b hb
    cases hhead.symm.trans hb
    exact hcomment
  by_cases hall : ∀ b ∈ text, isOrdinary b = true
  · have hne : text ≠ [] := by
      rintro rfl
      cases hhead
    have hword := @tokens_ordinary [] text hall hne hhead'
    rwa [List.append_nil] at hword
  · -- the byte that is not ordinary is a backslash at the end
    obtain ⟨b, hb, hnot⟩ := not_forall₂.mp hall
    obtain ⟨pre, post, rfl⟩ := List.append_of_mem hb
    obtain hb' | ⟨rfl, rfl⟩ := htext pre b post rfl
    · exact absurd hb' hnot
    · have hpre : ∀ c ∈ pre, isOrdinary c = true := by
        intro c hc
        obtain ⟨as, cs, rfl⟩ := List.append_of_mem hc
        obtain hc' | ⟨-, hnil⟩ := htext as c (cs ++ [92]) (by simp)
        · exact hc'
        · simp at hnil
      have hne : pre ≠ [] := by
        rintro rfl
        cases hhead
        exact absurd hordinary (by decide)
      have hhead'' : ∀ c ∈ pre.head?, c ≠ 35 := by
        intro c hc
        apply hhead' c
        rw [List.head?_append, Option.mem_def.mp hc]
        rfl
      rw [tokens_ordinary hpre hne hhead'']
      simp [tokens, readByte, endTokens, delimit, push, unquoted]

end Kitty.Base
