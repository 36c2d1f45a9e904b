import Kitty.Base.Occurs

/-!
# Blanking what follows a word

A search goes through a byte string from left to right. Where a word begins, the match reaches up
to the next NUL; it is left alone or filled with NULs, and the search goes on behind it. Such a
search works on each C string by itself, and what it leaves of one is a beginning of it. Words are
given place by place, by the bytes each place may have.
-/

namespace Kitty.Base

/-! ### Words -/

/-- The bytes that each place of a word may have. -/
abbrev Spelling := List Bytes

/-- The word stands at the beginning of the text. -/
def Spelling.opens : Spelling → Bytes → Bool
  | [], _ => true
  | _ :: _, [] => false
  | places :: word, b :: text => places.contains b && Spelling.opens word text

/-- A word of these bytes. -/
def wordOf (s : Bytes) : Spelling := s.map fun b ↦ [b]

/-- The other case of a letter, and the byte itself. -/
def bothCases (b : UInt8) : Bytes :=
  if 65 ≤ b ∧ b ≤ 90 then [b, b + 32] else if 97 ≤ b ∧ b ≤ 122 then [b, b - 32] else [b]

/-- A word of these letters in either case. -/
def wordAnyCase (s : Bytes) : Spelling := s.map bothCases

/-- Every text that opens with the one word opens with the other. -/
def Spelling.Refines (w v : Spelling) : Prop :=
  v.length ≤ w.length ∧ ∀ e ∈ w.zip v, e.1 ⊆ e.2

instance (w v : Spelling) : Decidable (w.Refines v) :=
  inferInstanceAs (Decidable (v.length ≤ w.length ∧ ∀ e ∈ w.zip v, e.1 ⊆ e.2))

theorem Spelling.opens_cons (places : Bytes) (word : Spelling) (b : UInt8) (text : Bytes) :
    Spelling.opens (places :: word) (b :: text) =
      (places.contains b && Spelling.opens word text) := rfl

theorem Spelling.Refines.opens {w v : Spelling} (h : w.Refines v) {text : Bytes}
    (ho : w.opens text = true) : v.opens text = true := by
  obtain ⟨hlen, hsub⟩ := h
  induction v generalizing w text with
  | nil => rfl
  | cons p v ih =>
    cases w with
    | nil => simp at hlen
    | cons q w =>
      cases text with
      | nil => cases ho
      | cons b text =>
        rw [Spelling.opens_cons, Bool.and_eq_true] at ho ⊢
        have hp : q ⊆ p := hsub (q, p) (by simp)
        refine ⟨?_, ih ho.2 (by simpa using hlen) fun e he ↦ hsub e (List.mem_cons_of_mem _ he)⟩
        exact List.contains_iff_mem.mpr (hp (List.contains_iff_mem.mp ho.1))

/-- A text that opens with a word has a byte of each of its places, and then goes on. -/
theorem Spelling.exists_of_opens {w : Spelling} {text : Bytes} (h : w.opens text = true) :
    ∃ here rest, text = here ++ rest ∧ here.length = w.length ∧ w.opens here = true ∧
      ∀ b ∈ here, ∃ places ∈ w, b ∈ places := by
  induction w generalizing text with
  | nil => exact ⟨[], text, rfl, rfl, rfl, by simp⟩
  | cons p w ih =>
    cases text with
    | nil => cases h
    | cons b text =>
      rw [Spelling.opens_cons, Bool.and_eq_true] at h
      obtain ⟨here, rest, rfl, hlen, hopens, hmem⟩ := ih h.2
      refine ⟨b :: here, rest, rfl, by simp [hlen], ?_, ?_⟩
      · rw [Spelling.opens_cons, Bool.and_eq_true]
        exact ⟨h.1, hopens⟩
      · rw [List.forall_mem_cons]
        refine ⟨⟨p, by simp, List.contains_iff_mem.mp h.1⟩, fun c hc ↦ ?_⟩
        obtain ⟨places, hplaces, hin⟩ := hmem c hc
        exact ⟨places, List.mem_cons_of_mem _ hplaces, hin⟩

/-- Each place of the word has its byte in the text. -/
theorem Spelling.exists_mem_of_opens {w : Spelling} {text : Bytes} (h : w.opens text = true)
    {places : Bytes} (hp : places ∈ w) : ∃ b ∈ text, b ∈ places := by
  induction w generalizing text with
  | nil => cases hp
  | cons p w ih =>
    cases text with
    | nil => cases h
    | cons b text =>
      rw [Spelling.opens_cons, Bool.and_eq_true] at h
      rcases List.mem_cons.mp hp with rfl | hp
      · exact ⟨b, by simp, List.contains_iff_mem.mp h.1⟩
      · obtain ⟨c, hc, hin⟩ := ih h.2 hp
        exact ⟨c, List.mem_cons_of_mem _ hc, hin⟩

/-- The rest of the word stands further on. -/
theorem Spelling.opens_drop {w : Spelling} {text : Bytes} (h : w.opens text = true) (i : Nat) :
    Spelling.opens (w.drop i) (text.drop i) = true := by
  induction i generalizing w text with
  | zero => exact h
  | succ i ih =>
    cases w with
    | nil => rfl
    | cons p w =>
      cases text with
      | nil => cases h
      | cons b text =>
        rw [Spelling.opens_cons, Bool.and_eq_true] at h
        exact ih h.2

theorem Spelling.length_le_of_opens {w : Spelling} {text : Bytes} (h : w.opens text = true) :
    w.length ≤ text.length := by
  obtain ⟨here, rest, rfl, hlen, -⟩ := Spelling.exists_of_opens h
  rw [← hlen, List.length_append]
  exact Nat.le_add_right _ _

/-- More text behind it does not matter. -/
theorem Spelling.opens_append {w : Spelling} {text : Bytes} (h : w.opens text = true)
    (rest : Bytes) : w.opens (text ++ rest) = true := by
  induction w generalizing text with
  | nil => rfl
  | cons p w ih =>
    cases text with
    | nil => cases h
    | cons b text =>
      rw [List.cons_append, Spelling.opens_cons, Bool.and_eq_true] at *
      exact ⟨h.1, ih h.2⟩

/-- What stands behind the word does not matter. -/
theorem Spelling.opens_of_append {w : Spelling} {text rest : Bytes}
    (h : w.opens (text ++ rest) = true) (hlen : w.length ≤ text.length) : w.opens text = true := by
  induction w generalizing text with
  | nil => rfl
  | cons p w ih =>
    cases text with
    | nil => simp at hlen
    | cons b text =>
      rw [List.cons_append, Spelling.opens_cons, Bool.and_eq_true] at h
      rw [Spelling.opens_cons, Bool.and_eq_true]
      exact ⟨h.1, ih h.2 (by simpa using hlen)⟩

/-- In a beginning of a text the word stands where it stands in the text, unless the text is cut
before the word's end. -/
theorem Spelling.opens_drop_prefix_iff {w : Spelling} (hne : w ≠ []) {left text : Bytes}
    (h : left <+: text) {j : Nat} : w.opens (left.drop j) = true ↔
      w.opens (text.drop j) = true ∧ j + w.length ≤ left.length := by
  obtain ⟨rest, rfl⟩ := h
  have hpos : 0 < w.length := List.length_pos_iff.mpr hne
  constructor
  · intro ho
    have hlen := Spelling.length_le_of_opens ho
    rw [List.length_drop] at hlen
    refine ⟨?_, by omega⟩
    rw [List.drop_append_of_le_length (by omega)]
    exact Spelling.opens_append ho rest
  · rintro ⟨ho, hlen⟩
    rw [List.drop_append_of_le_length (by omega)] at ho
    refine Spelling.opens_of_append ho ?_
    rw [List.length_drop]
    omega

/-- The first places of a word stand in the first bytes of the text. -/
theorem Spelling.opens_take {w : Spelling} (first : Bytes) {rest : Bytes}
    (h : w.opens (first ++ rest) = true) (hlen : first.length ≤ w.length) :
    Spelling.opens (w.take first.length) first = true := by
  induction first generalizing w with
  | nil => rfl
  | cons b first ih =>
    cases w with
    | nil => simp at hlen
    | cons places w =>
      rw [List.cons_append, Spelling.opens_cons, Bool.and_eq_true] at h
      rw [List.length_cons, List.take_succ_cons, Spelling.opens_cons, Bool.and_eq_true]
      exact ⟨h.1, ih h.2 (by simpa using hlen)⟩

/-- A word without NUL does not go over one. -/
theorem Spelling.opens_append_nul {w : Spelling} (h : ∀ places ∈ w, NUL ∉ places)
    (text rest : Bytes) : w.opens (text ++ NUL :: rest) = w.opens text := by
  induction w generalizing text with
  | nil => rfl
  | cons p w ih =>
    have hp : p.contains NUL = false := by
      rw [Bool.eq_false_iff]
      exact fun hc ↦ h p (by simp) (List.contains_iff_mem.mp hc)
    cases text with
    | nil =>
      show (p.contains NUL && Spelling.opens w rest) = false
      rw [hp, Bool.false_and]
    | cons b text =>
      rw [List.cons_append, Spelling.opens_cons, Spelling.opens_cons,
        ih (fun q hq ↦ h q (List.mem_cons_of_mem _ hq))]

/-! ### The search -/

/-- Whether the search looks for a word, or is inside a match that it leaves alone or blanks. -/
inductive Mode where
  | seek
  | leave
  | blank
  deriving DecidableEq

variable (starts keep : Bytes → Bool)

/-- Every match, from a place where `starts` holds up to the next NUL, is filled with NULs, unless
`keep` holds of it. -/
def blankRuns : Mode → Bytes → Bytes
  | _, [] => []
  | .seek, b :: text =>
    if starts (b :: text) then
      if keep (cstr (b :: text)) then b :: blankRuns .leave text
      else NUL :: blankRuns .blank text
    else b :: blankRuns .seek text
  | .leave, b :: text => b :: blankRuns (if b = NUL then .seek else .leave) text
  | .blank, b :: text => NUL :: blankRuns (if b = NUL then .seek else .blank) text

/-- The first place where a match begins. -/
def firstStart : Bytes → Option Nat
  | [] => none
  | b :: text => if starts (b :: text) then some 0 else (firstStart text).map (· + 1)

/-- The first match, when it is to be blanked, begins at this place. -/
def Hits (text : Bytes) (k : Nat) : Prop :=
  firstStart starts text = some k ∧ keep (text.drop k) = false

instance (text : Bytes) (k : Nat) : Decidable (Hits starts keep text k) :=
  inferInstanceAs (Decidable (firstStart starts text = some k ∧ keep (text.drop k) = false))

/-- What is left of a C string. -/
def cutRun (text : Bytes) : Bytes :=
  match firstStart starts text with
  | none => text
  | some k => if keep (text.drop k) then text else text.take k

variable {starts keep}

private theorem blankRuns_nil (m : Mode) : blankRuns starts keep m [] = [] := by
  cases m <;> rfl

private theorem seek_cons (b : UInt8) (text : Bytes) :
    blankRuns starts keep .seek (b :: text) =
      if starts (b :: text) then
        if keep (cstr (b :: text)) then b :: blankRuns starts keep .leave text
        else NUL :: blankRuns starts keep .blank text
      else b :: blankRuns starts keep .seek text := rfl

private theorem leave_cons (b : UInt8) (text : Bytes) :
    blankRuns starts keep .leave (b :: text) =
      b :: blankRuns starts keep (if b = NUL then .seek else .leave) text := rfl

private theorem blank_cons (b : UInt8) (text : Bytes) :
    blankRuns starts keep .blank (b :: text) =
      NUL :: blankRuns starts keep (if b = NUL then .seek else .blank) text := rfl

theorem length_blankRuns (m : Mode) (text : Bytes) :
    (blankRuns starts keep m text).length = text.length := by
  induction text generalizing m with
  | nil => rw [blankRuns_nil]
  | cons b text ih =>
    cases m with
    | seek =>
      rw [seek_cons]
      split
      · split <;> simp [ih]
      · simp [ih]
    | leave => simp [leave_cons, ih]
    | blank => simp [blank_cons, ih]

/-- A C string ends at a NUL. -/
theorem cstr_append_nul (a b : Bytes) : cstr (a ++ NUL :: b) = cstr a := by
  have hnil : cstr (NUL :: b) = [] := rfl
  rw [cstr_append, hnil, List.append_nil]
  split
  · rfl
  · next h => exact (cstr_of_nul_not_mem h).symm

/-- A match does not go over a NUL. -/
theorem blankRuns_append_nul (hstarts : ∀ a b, starts (a ++ NUL :: b) = starts a)
    (hnil : starts [] = false) (m : Mode) (a b : Bytes) :
    blankRuns starts keep m (a ++ NUL :: b) =
      blankRuns starts keep m a ++ NUL :: blankRuns starts keep .seek b := by
  induction a generalizing m with
  | nil =>
    have hno : starts (NUL :: b) = false := by
      have h := hstarts [] b
      rwa [List.nil_append, hnil] at h
    cases m <;> simp [blankRuns_nil, seek_cons, leave_cons, blank_cons, hno]
  | cons c a ih =>
    have hcstr : cstr (c :: (a ++ NUL :: b)) = cstr (c :: a) := cstr_append_nul (c :: a) b
    have hsame : starts (c :: (a ++ NUL :: b)) = starts (c :: a) := hstarts (c :: a) b
    rw [List.cons_append]
    cases m with
    | seek =>
      rw [seek_cons, seek_cons, hsame, hcstr, ih, ih, ih]
      split
      · split <;> rfl
      · rfl
    | leave => rw [leave_cons, leave_cons, ih, List.cons_append]
    | blank => rw [blank_cons, blank_cons, ih, List.cons_append]

private theorem blankRuns_leave {text : Bytes} (h : NUL ∉ text) :
    blankRuns starts keep .leave text = text := by
  induction text with
  | nil => rfl
  | cons b text ih =>
    obtain ⟨hb, htext⟩ := not_or.mp (mt List.mem_cons.mpr h)
    rw [leave_cons, if_neg (Ne.symm hb), ih htext]

private theorem blankRuns_blank {text : Bytes} (h : NUL ∉ text) :
    blankRuns starts keep .blank text = List.replicate text.length NUL := by
  induction text with
  | nil => rfl
  | cons b text ih =>
    obtain ⟨hb, htext⟩ := not_or.mp (mt List.mem_cons.mpr h)
    rw [blank_cons, if_neg (Ne.symm hb), ih htext]
    rfl

/-- Of a C string a beginning is left, and NULs behind it. -/
theorem blankRuns_seek {text : Bytes} (h : NUL ∉ text) :
    blankRuns starts keep .seek text = cutRun starts keep text ++
      List.replicate (text.length - (cutRun starts keep text).length) NUL := by
  induction text with
  | nil => rfl
  | cons b text ih =>
    obtain ⟨-, htext⟩ := not_or.mp (mt List.mem_cons.mpr h)
    rw [seek_cons, cutRun, firstStart]
    by_cases hstart : starts (b :: text) = true
    · rw [if_pos hstart, if_pos hstart, cstr_of_nul_not_mem h]
      dsimp only
      rw [List.drop_zero]
      by_cases hkeep : keep (b :: text) = true
      · rw [if_pos hkeep, if_pos hkeep, blankRuns_leave htext]
        simp
      · rw [if_neg hkeep, if_neg hkeep, blankRuns_blank htext]
        rfl
    · rw [if_neg hstart, if_neg hstart, ih htext, cutRun]
      cases firstStart starts text with
      | none => simp
      | some k =>
        dsimp only [Option.map_some]
        rw [List.drop_succ_cons]
        split <;> simp

/-- What is left is a beginning. -/
theorem cutRun_begins (text : Bytes) : cutRun starts keep text <+: text := by
  unfold cutRun
  split
  · exact List.prefix_rfl
  · split
    · exact List.prefix_rfl
    · exact List.take_prefix _ _

theorem firstStart_lt {text : Bytes} {k : Nat} (h : firstStart starts text = some k) :
    k < text.length ∧ starts (text.drop k) = true := by
  induction text generalizing k with
  | nil => cases h
  | cons b text ih =>
    rw [firstStart] at h
    split at h
    · next hstart =>
      cases h
      exact ⟨Nat.succ_pos _, hstart⟩
    · obtain ⟨j, hj, rfl⟩ := Option.map_eq_some_iff.mp h
      obtain ⟨hlt, hstart⟩ := ih hj
      exact ⟨Nat.succ_lt_succ hlt, hstart⟩

/-- No match begins before the first one. -/
theorem exists_firstStart_le {text : Bytes} {j : Nat} (hj : j < text.length)
    (h : starts (text.drop j) = true) : ∃ k ≤ j, firstStart starts text = some k := by
  induction text generalizing j with
  | nil => simp at hj
  | cons b text ih =>
    rw [firstStart]
    by_cases hstart : starts (b :: text) = true
    · exact ⟨0, Nat.zero_le _, if_pos hstart⟩
    · rw [if_neg hstart]
      cases j with
      | zero => exact absurd h hstart
      | succ j =>
        obtain ⟨k, hk, hfirst⟩ := ih (Nat.lt_of_succ_lt_succ hj) h
        exact ⟨k + 1, Nat.succ_le_succ hk, by rw [hfirst]; rfl⟩

theorem cutRun_of_hits {text : Bytes} {k : Nat} (h : Hits starts keep text k) :
    cutRun starts keep text = text.take k := by
  rw [cutRun, h.1]
  dsimp only
  rw [h.2, if_neg Bool.false_ne_true]

theorem cutRun_of_not_hits {text : Bytes} (h : ∀ k, ¬ Hits starts keep text k) :
    cutRun starts keep text = text := by
  unfold cutRun
  split
  · rfl
  · next k hk =>
    split
    · rfl
    · next hkeep => exact absurd ⟨hk, Bool.eq_false_iff.mpr hkeep⟩ (h k)

/-! ### One search after the other -/

/-- What a search may begin with does not depend on what stands behind a NUL. -/
structure IsSearch (starts : Bytes → Bool) : Prop where
  append_nul : ∀ a b, starts (a ++ NUL :: b) = starts a
  nil : starts [] = false

/-- All searches, each on what the ones before have made. -/
def blankAll (keep : Bytes → Bool) (searches : List (Bytes → Bool)) (text : Bytes) : Bytes :=
  searches.foldl (fun text starts ↦ blankRuns starts keep .seek text) text

/-- What all searches leave of a C string. -/
def leftOf (keep : Bytes → Bool) (searches : List (Bytes → Bool)) (text : Bytes) : Bytes :=
  searches.foldl (fun text starts ↦ cutRun starts keep text) text

variable {searches : List (Bytes → Bool)}

@[simp] theorem length_blankAll (text : Bytes) :
    (blankAll keep searches text).length = text.length := by
  induction searches generalizing text with
  | nil => rfl
  | cons starts searches ih =>
    rw [blankAll, List.foldl_cons]
    exact (ih _).trans (length_blankRuns _ _)

/-- C strings are searched by themselves. -/
theorem blankAll_append_nul (h : ∀ starts ∈ searches, IsSearch starts) (a b : Bytes) :
    blankAll keep searches (a ++ NUL :: b) =
      blankAll keep searches a ++ NUL :: blankAll keep searches b := by
  induction searches generalizing a b with
  | nil => rfl
  | cons starts searches ih =>
    have hfirst := h starts (by simp)
    rw [blankAll, List.foldl_cons, blankRuns_append_nul hfirst.append_nul hfirst.nil]
    exact ih (fun s hs ↦ h s (List.mem_cons_of_mem _ hs)) _ _

theorem leftOf_begins (text : Bytes) : leftOf keep searches text <+: text := by
  induction searches generalizing text with
  | nil => exact List.prefix_rfl
  | cons starts searches ih => exact (ih _).trans (cutRun_begins text)

private theorem blankRuns_append_nuls (h : IsSearch starts) (text : Bytes) (n : Nat) :
    blankRuns starts keep .seek (text ++ List.replicate n NUL) =
      blankRuns starts keep .seek text ++ List.replicate n NUL := by
  have hnuls : ∀ n, blankRuns starts keep .seek (List.replicate n NUL) =
      List.replicate n NUL := by
    intro n
    induction n with
    | zero => rfl
    | succ n ih =>
      have hsplit : blankRuns starts keep .seek ([] ++ NUL :: List.replicate n NUL) = _ :=
        blankRuns_append_nul h.append_nul h.nil .seek [] (List.replicate n NUL)
      rw [List.nil_append] at hsplit
      rw [List.replicate_succ, hsplit, ih]
      rfl
  cases n with
  | zero => simp
  | succ n => rw [List.replicate_succ, blankRuns_append_nul h.append_nul h.nil, hnuls]

/-- A maximal piece without NUL. -/
structure IsRun (before run after : Bytes) : Prop where
  nul_not_mem : NUL ∉ run
  left : before = [] ∨ ∃ front, before = front ++ [NUL]
  right : after = [] ∨ ∃ rest, after = NUL :: rest

/-- A maximal piece is searched by itself. -/
theorem blankAll_run (h : ∀ starts ∈ searches, IsSearch starts) {before run after : Bytes}
    (hrun : IsRun before run after) : blankAll keep searches (before ++ (run ++ after)) =
      blankAll keep searches before ++
        (blankAll keep searches run ++ blankAll keep searches after) := by
  have hnil : blankAll keep searches [] = [] :=
    List.length_eq_zero_iff.mp (length_blankAll [])
  have hright : blankAll keep searches (run ++ after) =
      blankAll keep searches run ++ blankAll keep searches after := by
    rcases hrun.right with rfl | ⟨rest, rfl⟩
    · rw [List.append_nil, hnil, List.append_nil]
    · have hrest : blankAll keep searches ([] ++ NUL :: rest) = _ :=
        blankAll_append_nul h [] rest
      rw [List.nil_append, hnil, List.nil_append] at hrest
      rw [blankAll_append_nul h, hrest]
  rw [← hright]
  rcases hrun.left with rfl | ⟨front, rfl⟩
  · rw [hnil]
    rfl
  · have hfront : blankAll keep searches (front ++ NUL :: []) = _ :=
      blankAll_append_nul h front []
    rw [hnil] at hfront
    rw [List.append_assoc, List.singleton_append, blankAll_append_nul h, hfront, List.append_assoc,
      List.singleton_append]

/-- Of a C string a beginning is left by all searches, and NULs behind it. -/
theorem blankAll_eq (h : ∀ starts ∈ searches, IsSearch starts) {text : Bytes}
    (hnul : NUL ∉ text) : blankAll keep searches text = leftOf keep searches text ++
      List.replicate (text.length - (leftOf keep searches text).length) NUL := by
  have hgeneral : ∀ (searches : List (Bytes → Bool)), (∀ starts ∈ searches, IsSearch starts) →
      ∀ (text : Bytes) (n : Nat), NUL ∉ text →
        blankAll keep searches (text ++ List.replicate n NUL) = leftOf keep searches text ++
          List.replicate (text.length + n - (leftOf keep searches text).length) NUL := by
    intro searches
    induction searches with
    | nil =>
      intro _ text n _
      simp [blankAll, leftOf]
    | cons starts searches ih =>
      intro h text n hnul
      have hle : (cutRun starts keep text).length ≤ text.length :=
        (cutRun_begins text).length_le
      have hcut : NUL ∉ cutRun starts keep text := fun hmem ↦
        hnul ((cutRun_begins text).subset hmem)
      rw [blankAll, List.foldl_cons, blankRuns_append_nuls (h starts (by simp)),
        blankRuns_seek hnul, List.append_assoc, List.replicate_append_replicate]
      have hrest := ih (fun s hs ↦ h s (List.mem_cons_of_mem _ hs)) (cutRun starts keep text)
        (text.length - (cutRun starts keep text).length + n) hcut
      rw [show (cutRun starts keep text).length +
        (text.length - (cutRun starts keep text).length + n) = text.length + n by omega] at hrest
      exact hrest
  simpa using hgeneral searches h text 0 hnul

/-- Less than `n` bytes are left of a C string when one of the searches, in what the ones before
have left, finds a match before the `n`-th byte and blanks it. -/
theorem length_leftOf_lt_iff {text : Bytes} {n : Nat} (hn : n ≤ text.length) :
    (leftOf keep searches text).length < n ↔ ∃ before starts after k,
      searches = before ++ starts :: after ∧ Hits starts keep (leftOf keep before text) k ∧
        k < n := by
  induction searches generalizing text with
  | nil =>
    refine iff_of_false (Nat.not_lt.mpr hn) ?_
    rintro ⟨before, starts, after, k, hnil, -⟩
    exact absurd hnil.symm (by simp)
  | cons starts searches ih =>
    have hcons : leftOf keep (starts :: searches) text =
        leftOf keep searches (cutRun starts keep text) := rfl
    rw [hcons]
    by_cases hhit : ∃ k, Hits starts keep text k ∧ k < n
    · obtain ⟨k, hk, hlt⟩ := hhit
      refine iff_of_true ?_ ⟨[], starts, searches, k, rfl, hk, hlt⟩
      have hle : (leftOf keep searches (cutRun starts keep text)).length ≤
          (cutRun starts keep text).length := (leftOf_begins _).length_le
      rw [cutRun_of_hits hk, List.length_take] at hle
      rw [cutRun_of_hits hk]
      omega
    · have hroom : n ≤ (cutRun starts keep text).length := by
        by_cases hany : ∃ k, Hits starts keep text k
        · obtain ⟨k, hk⟩ := hany
          have hnk : ¬ k < n := fun hlt ↦ hhit ⟨k, hk, hlt⟩
          rw [cutRun_of_hits hk, List.length_take]
          omega
        · rw [cutRun_of_not_hits fun k hk ↦ hany ⟨k, hk⟩]
          exact hn
      rw [ih hroom]
      constructor
      · rintro ⟨before, s, after, k, rfl, hk, hlt⟩
        exact ⟨starts :: before, s, after, k, rfl, hk, hlt⟩
      · rintro ⟨before, s, after, k, hsplit, hk, hlt⟩
        cases before with
        | nil =>
          cases hsplit
          exact absurd ⟨k, hk, hlt⟩ hhit
        | cons b before =>
          cases hsplit
          exact ⟨before, s, after, k, rfl, hk, hlt⟩

/-- A C string is left as it is when none of the searches has anything to blank in it. -/
theorem leftOf_eq_self_iff {text : Bytes} : leftOf keep searches text = text ↔
    ∀ starts ∈ searches, ∀ k, ¬ Hits starts keep text k := by
  induction searches with
  | nil => simp [leftOf]
  | cons starts searches ih =>
    have hcons : leftOf keep (starts :: searches) text =
        leftOf keep searches (cutRun starts keep text) := rfl
    rw [hcons, List.forall_mem_cons]
    by_cases hhit : ∃ k, Hits starts keep text k
    · obtain ⟨k, hk⟩ := hhit
      refine iff_of_false ?_ fun h ↦ h.1 k hk
      intro h
      have hle : (leftOf keep searches (cutRun starts keep text)).length ≤
          (cutRun starts keep text).length := (leftOf_begins _).length_le
      rw [h, cutRun_of_hits hk, List.length_take] at hle
      have := (firstStart_lt hk.1).1
      omega
    · have hno : ∀ k, ¬ Hits starts keep text k := fun k hk ↦ hhit ⟨k, hk⟩
      rw [cutRun_of_not_hits hno, ih]
      exact ⟨fun h ↦ ⟨hno, h⟩, And.right⟩

end Kitty.Base
