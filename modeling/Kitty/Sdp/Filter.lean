import Kitty.Base.Fragment
import Kitty.Base.Trim
import Kitty.Sdp.Sanitize

/-!
# The line loop of the sanitizer

The loop of `sanitize_remote_sdp` as it runs over a C string into a bounded output;
`src/provider-srt/_legacy_libjuice_provider_configurable.c:269–310` and the same lines of
`src/consumer-srt-cloud/_legacy_libjuice_consumer_api.c:448–489`. It always ends, stays within
the output and writes what `sanitizeRemoteSdp` says; done once more, it changes nothing. Lines
of 512 bytes and more are not looked at, so of these the filter keeps all.
-/

namespace Kitty.Sdp

open Kitty.Base

/-! ### The loop -/

/-- The locals of the loop and the output. `touched` is no variable of the source: it has the
place and the length of every write, the last one first. -/
structure Scan where
  p : Bytes
  output : Buffer UInt8
  outLen : Nat
  dropped : Nat
  touched : List (Nat × Nat)

/-- Writes at `output + out_len` and moves `out_len` on. -/
def Scan.write (s : Scan) (data : Bytes) : Scan :=
  { s with
    output := memcpy s.output s.outLen data
    outLen := s.outLen + data.length
    touched := (s.outLen, data.length) :: s.touched }

/-- What `strpbrk(p, "\r\n")` stops before. -/
def inLine (b : UInt8) : Bool := decide (b ≠ CR ∧ b ≠ LF)

/-- How a round ends: with another one, with `break`, or with `return -1`. -/
inductive Round where
  | next (s : Scan)
  | leave (s : Scan)
  | fail (s : Scan)

/-- One round of the loop, at a line. -/
def scanRound (outputSize : Nat) (s : Scan) : Round :=
  let line := s.p.takeWhile inLine
  let eol := s.p.dropWhile inLine
  if dropLine line then
    let s := { s with dropped := s.dropped + 1 }
    match eol with
    | [] => .leave s
    | 13 :: 10 :: rest => .next { s with p := rest }
    | _ :: rest => .next { s with p := rest }
  else if outputSize ≤ s.outLen + line.length + 2 then .fail s
  else
    let s := s.write line
    match eol with
    | [] => .leave s
    | 13 :: 10 :: rest => .next { (s.write [CR]).write [LF] with p := rest }
    | b :: rest => .next { s.write [b] with p := rest }

/-- What the function comes back with: an error or the number of lines dropped, and in both
cases what it did to the output. -/
inductive Sanitized where
  | fails (s : Scan)
  | accepts (s : Scan)

/-- The end of the function. -/
def scanEnd (outputSize : Nat) (s : Scan) : Sanitized :=
  if outputSize ≤ s.outLen then .fails s
  else .accepts { s with
    output := memcpy s.output s.outLen [NUL]
    touched := (s.outLen, 1) :: s.touched }

/-- The loop, for as many rounds as there is fuel. -/
def scanLoop (outputSize : Nat) : Nat → Scan → Option Sanitized
  | 0, _ => none
  | fuel + 1, s =>
    if s.p = [] then some (scanEnd outputSize s)
    else match scanRound outputSize s with
      | .next s => scanLoop outputSize fuel s
      | .leave s => some (scanEnd outputSize s)
      | .fail s => some (.fails s)

/-- `sanitize_remote_sdp(input, output, output_size)`. -/
def sanitize (input : Bytes) (output : Buffer UInt8) (outputSize : Nat) : Option Sanitized :=
  scanLoop outputSize ((cstr input).length + 1) ⟨cstr input, output, 0, 0, []⟩

/-- The writes of a call. -/
def Sanitized.touched : Sanitized → List (Nat × Nat)
  | .fails s => s.touched
  | .accepts s => s.touched

/-- The output after a call. -/
def Sanitized.output : Sanitized → Buffer UInt8
  | .fails s => s.output
  | .accepts s => s.output

/-- The text written, without the NUL. -/
def Scan.text (s : Scan) : Bytes := readBuffer s.output s.outLen

/-! ### Its lines -/

theorem inLine_iff {b : UInt8} : inLine b = true ↔ ¬ (b = CR ∨ b = LF) := by
  simp [inLine]

/-- The end of a line, at the front of a text, and the text behind it. -/
def splitEol : Bytes → Bytes × Bytes
  | [] => ([], [])
  | 13 :: 10 :: rest => ([CR, LF], rest)
  | b :: rest => ([b], rest)

/-- The next line is what comes before the first end of a line. -/
theorem sdpLines_scan {p : Bytes} (hp : p ≠ []) :
    sdpLines p = (p.takeWhile inLine, (splitEol (p.dropWhile inLine)).1) ::
      sdpLines (splitEol (p.dropWhile inLine)).2 := by
  induction p with
  | nil => exact absurd rfl hp
  | cons b p ih =>
    by_cases hb : b = CR ∨ b = LF
    · have hline : ¬ inLine b = true := fun h ↦ inLine_iff.mp h hb
      rw [List.dropWhile_cons_of_neg hline, List.takeWhile_cons_of_neg hline, splitEol.eq_def]
      split
      · next h => cases h
      · next h =>
        cases h
        rfl
      · next hcrlf h =>
        cases h
        rw [sdpLines.eq_3 _ _ hcrlf, if_pos hb]
    · have hline : inLine b = true := inLine_iff.mpr hb
      rw [List.dropWhile_cons_of_pos hline, List.takeWhile_cons_of_pos hline, sdpLines_cons p hb]
      cases p with
      | nil => rfl
      | cons c p => rw [ih (List.cons_ne_nil _ _)]

/-! ### The loop is a fold over the lines -/

theorem length_write (s : Scan) (data : Bytes) :
    (s.write data).outLen = s.outLen + data.length := rfl

theorem text_write (s : Scan) (data : Bytes) : (s.write data).text = s.text ++ data :=
  readBuffer_memcpy s.output s.outLen data

theorem text_write_write (s : Scan) (a b : Bytes) :
    ((s.write a).write b).text = s.text ++ (a ++ b) := by
  rw [text_write, text_write, List.append_assoc]

/-- What a call returns when the fold over the lines ends in `folded`. -/
def Agrees (outputSize : Nat) (folded : Option (Bytes × Nat)) : Sanitized → Prop
  | .fails _ => ∀ st, folded = some st → outputSize ≤ st.1.length
  | .accepts s => folded = some (s.text, s.dropped) ∧ s.outLen < outputSize ∧
      readBuffer s.output (s.outLen + 1) = s.text ++ [NUL]

theorem agrees_scanEnd (outputSize : Nat) (s : Scan) :
    Agrees outputSize (some (s.text, s.dropped)) (scanEnd outputSize s) := by
  unfold scanEnd
  have hlen : s.text.length = s.outLen := length_readBuffer ..
  have hnul : readBuffer (memcpy s.output s.outLen [NUL]) (s.outLen + 1) = s.text ++ [NUL] :=
    readBuffer_memcpy s.output s.outLen [NUL]
  have htext : readBuffer (memcpy s.output s.outLen [NUL]) s.outLen = s.text := by
    have := congrArg List.dropLast hnul
    rw [List.dropLast_concat] at this
    rwa [readBuffer, List.range_succ, List.map_append, List.map_singleton,
      List.dropLast_concat] at this
  split
  · next hfull =>
    intro st hst
    cases hst
    exact hlen.symm ▸ hfull
  · next hfit =>
    refine ⟨?_, Nat.lt_of_not_le hfit, ?_⟩
    · change _ = some (readBuffer _ _, _)
      rw [htext]
    · change _ = readBuffer _ _ ++ _
      rw [htext]
      exact hnul

/-- The fold over the lines, from what the loop has written. -/
def folded (outputSize : Nat) (s : Scan) : Option (Bytes × Nat) :=
  (sdpLines s.p).foldlM (sanitizeLine outputSize) (s.text, s.dropped)

/-- What a round leaves of the fold. -/
def Round.folded (outputSize : Nat) : Round → Option (Bytes × Nat)
  | .next s => Sdp.folded outputSize s
  | .leave s => some (s.text, s.dropped)
  | .fail _ => none

theorem folded_scanRound (outputSize : Nat) {s : Scan} (hp : s.p ≠ []) :
    folded outputSize s = (scanRound outputSize s).folded outputSize := by
  have hlen : s.text.length = s.outLen := length_readBuffer ..
  have hline : ∀ d e, sanitizeLine outputSize (s.text, d) (s.p.takeWhile inLine, e) =
      if dropLine (s.p.takeWhile inLine) then some (s.text, d + 1)
      else if outputSize ≤ s.outLen + (s.p.takeWhile inLine).length + 2 then none
      else some (s.text ++ (s.p.takeWhile inLine ++ e), d) := fun d e ↦ by
    rw [sanitizeLine, hlen, List.append_assoc]
  rw [folded, sdpLines_scan hp, List.foldlM_cons, hline, scanRound]
  dsimp only
  split
  · split
    · next h => rw [h]; rfl
    · next h => rw [h]; rfl
    · next hcrlf h => rw [h, splitEol.eq_3 _ _ hcrlf]; rfl
  · split
    · rfl
    · split
      · next h =>
        rw [h]
        change some (s.text ++ (_ ++ []), _) = some ((s.write _).text, _)
        rw [text_write, List.append_nil]
        rfl
      · next h =>
        rw [h]
        change List.foldlM _ (s.text ++ (_ ++ [CR, LF]), _) _ =
          List.foldlM _ ((((s.write _).write [CR]).write [LF]).text, _) _
        rw [text_write, text_write_write, List.append_assoc, List.append_assoc]
        rfl
      · next hcrlf h =>
        rw [h, splitEol.eq_3 _ _ hcrlf]
        change List.foldlM _ (s.text ++ (_ ++ [_]), _) _ =
          List.foldlM _ (((s.write _).write [_]).text, _) _
        rw [text_write_write]
        rfl

theorem scanRound_shorter {outputSize : Nat} {s s' : Scan}
    (h : scanRound outputSize s = .next s') : s'.p.length < s.p.length := by
  have hle : (s.p.dropWhile inLine).length ≤ s.p.length :=
    (List.dropWhile_suffix _).length_le
  unfold scanRound at h
  dsimp only at h
  split at h
  · split at h
    · cases h
    all_goals
      next heq =>
      rw [heq] at hle
      cases h
      simp only [List.length_cons] at hle ⊢
      omega
  · split at h
    · cases h
    · split at h
      · cases h
      all_goals
        next heq =>
        rw [heq] at hle
        cases h
        simp only [List.length_cons] at hle ⊢
        omega

/-- With a round for each byte the loop ends, and as the fold does. -/
theorem scanLoop_agrees (outputSize fuel : Nat) (s : Scan) (hfuel : s.p.length < fuel) :
    ∃ r, scanLoop outputSize fuel s = some r ∧ Agrees outputSize (folded outputSize s) r := by
  induction fuel generalizing s with
  | zero => omega
  | succ fuel ih =>
    rw [scanLoop]
    split
    · next hp =>
      refine ⟨_, rfl, ?_⟩
      rw [folded, hp]
      exact agrees_scanEnd outputSize s
    · next hp =>
      rw [folded_scanRound outputSize hp]
      cases hround : scanRound outputSize s with
      | next s' => exact ih s' (by have := scanRound_shorter hround; omega)
      | leave s' => exact ⟨_, rfl, agrees_scanEnd outputSize s'⟩
      | fail s' => exact ⟨_, rfl, fun st hst ↦ by cases hst⟩

theorem sanitize_agrees (input : Bytes) (output : Buffer UInt8) (outputSize : Nat) :
    ∃ r, sanitize input output outputSize = some r ∧
      Agrees outputSize ((sdpLines (cstr input)).foldlM (sanitizeLine outputSize) ([], 0)) r :=
  scanLoop_agrees outputSize _ ⟨cstr input, output, 0, 0, []⟩ (Nat.lt_succ_self _)

/-- The loop accepts what `sanitizeRemoteSdp` accepts, with its text and its count. -/
theorem sanitizeRemoteSdp_of_accepts {input : Bytes} {output : Buffer UInt8} {outputSize : Nat}
    {s : Scan} (h : sanitize input output outputSize = some (.accepts s)) :
    sanitizeRemoteSdp (cstr input) outputSize = some (s.text, s.dropped) := by
  obtain ⟨r, hr, hagrees⟩ := sanitize_agrees input output outputSize
  cases h.symm.trans hr
  obtain ⟨hfold, hlt, -⟩ := hagrees
  have hlen : s.text.length = s.outLen := length_readBuffer ..
  rw [sanitizeRemoteSdp, hfold]
  exact if_neg (by rw [hlen]; omega)

theorem accepts_of_sanitizeRemoteSdp {input out : Bytes} {outputSize dropped : Nat}
    (h : sanitizeRemoteSdp (cstr input) outputSize = some (out, dropped))
    (output : Buffer UInt8) :
    ∃ s, sanitize input output outputSize = some (.accepts s) ∧ s.text = out ∧
      s.dropped = dropped ∧ readBuffer s.output (s.outLen + 1) = out ++ [NUL] := by
  obtain ⟨r, hr, hagrees⟩ := sanitize_agrees input output outputSize
  obtain ⟨st, hst, hfit⟩ := Option.bind_eq_some_iff.mp h
  split at hfit
  · cases hfit
  · next hlt =>
    cases hfit
    cases r with
    | fails s => exact absurd (hagrees _ hst) hlt
    | accepts s =>
      obtain ⟨hfold, -, hread⟩ := hagrees
      cases hst.symm.trans hfold
      exact ⟨s, hr, rfl, rfl, hread⟩

/-! ### Within the output -/

/-- Every write so far lies within the output, and nothing changed beyond it. -/
structure InBounds (outputSize : Nat) (before output : Buffer UInt8) (touched : List (Nat × Nat)) :
    Prop where
  within : ∀ w ∈ touched, w.1 + w.2 ≤ outputSize
  beyond : ∀ k, outputSize ≤ k → output k = before k

theorem InBounds.memcpy {outputSize : Nat} {before output : Buffer UInt8}
    {touched : List (Nat × Nat)} (h : InBounds outputSize before output touched) (off : Nat)
    (data : Bytes) (hfit : off + data.length ≤ outputSize) :
    InBounds outputSize before (memcpy output off data) ((off, data.length) :: touched) where
  within := List.forall_mem_cons.mpr ⟨hfit, h.within⟩
  beyond k hk := (memcpy_outside output off data k (.inr (by omega))).trans (h.beyond k hk)

/-- What a round has written, however it ends. -/
def Round.InBounds (outputSize : Nat) (before : Buffer UInt8) : Round → Prop
  | .next s | .leave s | .fail s => Sdp.InBounds outputSize before s.output s.touched

variable {outputSize : Nat} {before : Buffer UInt8}

theorem inBounds_scanRound {s : Scan} (h : InBounds outputSize before s.output s.touched) :
    (scanRound outputSize s).InBounds outputSize before := by
  unfold scanRound
  dsimp only
  split
  · split <;> exact h
  · split
    · exact h
    · next hfull =>
      -- The check before the line leaves room for the line and two bytes.
      have hline := h.memcpy s.outLen (s.p.takeWhile inLine) (by omega)
      split
      · exact hline
      · refine (hline.memcpy _ [CR] ?_).memcpy _ [LF] ?_
        all_goals
          simp only [length_write, List.length_singleton]
          omega
      · refine hline.memcpy _ [_] ?_
        simp only [length_write, List.length_singleton]
        omega

theorem inBounds_scanEnd {s : Scan} (h : InBounds outputSize before s.output s.touched) :
    InBounds outputSize before (scanEnd outputSize s).output (scanEnd outputSize s).touched := by
  unfold scanEnd
  split
  · exact h
  · exact h.memcpy _ [NUL] (by simp only [List.length_singleton]; omega)

theorem inBounds_scanLoop {fuel : Nat} {s : Scan} {r : Sanitized}
    (h : InBounds outputSize before s.output s.touched)
    (hr : scanLoop outputSize fuel s = some r) :
    InBounds outputSize before r.output r.touched := by
  induction fuel generalizing s with
  | zero => cases hr
  | succ fuel ih =>
    rw [scanLoop] at hr
    split at hr
    · cases hr
      exact inBounds_scanEnd h
    · have hround : (scanRound outputSize s).InBounds outputSize before := inBounds_scanRound h
      split at hr
      · next heq =>
        rw [heq] at hround
        exact ih hround hr
      · next heq =>
        rw [heq] at hround
        cases hr
        exact inBounds_scanEnd hround
      · next heq =>
        rw [heq] at hround
        cases hr
        exact hround

theorem inBounds_sanitize {input : Bytes} {r : Sanitized}
    (h : sanitize input before outputSize = some r) :
    InBounds outputSize before r.output r.touched :=
  inBounds_scanLoop ⟨by simp, fun _ _ ↦ rfl⟩ h

/-! ### Reading the output again -/

/-- The bytes of lines. -/
def joined (lines : List (Bytes × Bytes)) : Bytes := lines.flatMap fun e ↦ e.1 ++ e.2

/-- The lines of a text: each a line with its end, but the last one may lack it. -/
inductive Lines : List (Bytes × Bytes) → Prop where
  | nil : Lines []
  | last {line : Bytes} (noCr : CR ∉ line) (noLf : LF ∉ line) (notEmpty : line ≠ []) :
      Lines [(line, [])]
  | cons {e : Bytes × Bytes} {lines : List (Bytes × Bytes)} (head : IsLine e)
      (tail : Lines lines) : Lines (e :: lines)

theorem not_mem_cons {b c : UInt8} {line : Bytes} (hb : ¬ (b = CR ∨ b = LF))
    (hc : c = CR ∨ c = LF) (hline : c ∉ line) : c ∉ b :: line := fun h ↦ by
  rcases List.mem_cons.mp h with rfl | h
  · exact hb hc
  · exact hline h

theorem lines_sdpLines (p : Bytes) : Lines (sdpLines p) := by
  induction p using sdpLines.induct with
  | case1 => exact .nil
  | case2 rest ih => exact .cons ⟨List.not_mem_nil, List.not_mem_nil, .inr (.inr rfl)⟩ ih
  | case3 b rest hcrlf hb ih =>
    rw [sdpLines.eq_3 _ _ hcrlf, if_pos hb]
    refine .cons ⟨List.not_mem_nil, List.not_mem_nil, ?_⟩ ih
    rcases hb with rfl | rfl
    · exact .inr (.inl rfl)
    · exact .inl rfl
  | case4 b rest hcrlf hb hnil ih =>
    rw [sdpLines_cons rest hb, hnil]
    exact .last (not_mem_cons hb (.inl rfl) List.not_mem_nil)
      (not_mem_cons hb (.inr rfl) List.not_mem_nil) (List.cons_ne_nil _ _)
  | case5 b rest hcrlf hb line eol lines hlines ih =>
    rw [sdpLines_cons rest hb, hlines]
    rw [hlines] at ih
    cases ih with
    | last hcr hlf hne =>
      exact .last (not_mem_cons hb (.inl rfl) hcr) (not_mem_cons hb (.inr rfl) hlf)
        (List.cons_ne_nil _ _)
    | cons head tail =>
      exact .cons ⟨not_mem_cons hb (.inl rfl) head.noCr, not_mem_cons hb (.inr rfl) head.noLf,
        head.eol⟩ tail

theorem Lines.filter {lines : List (Bytes × Bytes)} (h : Lines lines) (q : Bytes × Bytes → Bool) :
    Lines (lines.filter q) := by
  induction h with
  | nil => exact .nil
  | last hcr hlf hne =>
    rw [List.filter_cons]
    split
    · exact .last hcr hlf hne
    · exact .nil
  | cons head tail ih =>
    rw [List.filter_cons]
    split
    · exact .cons head ih
    · exact ih

/-- The lines of a text again, when these are its bytes: a carriage return and an empty line
that a newline ends become one line. -/
def rejoin : List (Bytes × Bytes) → List (Bytes × Bytes)
  | (line, [13]) :: ([], [10]) :: lines => (line, [CR, LF]) :: rejoin lines
  | e :: lines => e :: rejoin lines
  | [] => []

theorem sdpLines_last {line : Bytes} (hcr : CR ∉ line) (hlf : LF ∉ line) (hne : line ≠ []) :
    sdpLines line = [(line, [])] := by
  have hall : ∀ b ∈ line, inLine b = true := fun b hb ↦
    inLine_iff.mpr fun h ↦ h.elim (fun h ↦ hcr (h ▸ hb)) fun h ↦ hlf (h ▸ hb)
  rw [sdpLines_scan hne, List.takeWhile_eq_self_iff.mpr hall, List.dropWhile_eq_nil_iff.mpr hall]
  rfl

/-- A newline comes first only where an empty line does. -/
theorem head_joined {lines : List (Bytes × Bytes)} (h : Lines lines)
    (hlf : (joined lines).head? = some LF) : ∃ rest, lines = ([], [LF]) :: rest := by
  have hfront : ∀ {line rest : Bytes}, LF ∉ line → (line ++ rest).head? = some LF → line = [] := by
    intro line rest hline hhead
    cases line with
    | nil => rfl
    | cons b line => exact absurd (Option.some.inj hhead ▸ List.mem_cons_self ..) hline
  cases h with
  | nil => cases hlf
  | last _ hno hne =>
    rw [joined, List.flatMap_singleton] at hlf
    exact absurd (hfront hno hlf) hne
  | cons head tail =>
    rw [joined, List.flatMap_cons, List.append_assoc] at hlf
    next e rest =>
    obtain ⟨line, eol⟩ := e
    cases hfront head.noLf hlf
    rcases head.eol with heol | heol | heol
    · cases heol
      exact ⟨rest, rfl⟩
    · cases heol
      cases hlf
    · cases heol
      cases hlf

theorem sdpLines_joined {lines : List (Bytes × Bytes)} (h : Lines lines) :
    sdpLines (joined lines) = rejoin lines := by
  induction lines using rejoin.induct with
  | case1 line lines ih =>
    cases h with | cons head tail =>
    cases tail with | cons _ tail =>
    have hline : IsLine (line, [CR, LF]) := ⟨head.noCr, head.noLf, .inr (.inr rfl)⟩
    have hbytes : joined ((line, [13]) :: ([], [10]) :: lines) =
        line ++ [CR, LF] ++ joined lines := by
      simp [joined, CR, LF]
    rw [hbytes, sdpLines_read hline (fun h ↦ by cases h), ih tail, rejoin]
  | case2 e lines hmerge ih =>
    rw [rejoin.eq_2 _ _ hmerge]
    cases h with
    | last hcr hlf hne =>
      rw [joined, List.flatMap_singleton, List.append_nil]
      exact sdpLines_last hcr hlf hne
    | cons head tail =>
      rw [← ih tail]
      refine sdpLines_read head fun hcr hlf ↦ ?_
      obtain ⟨rest, hrest⟩ := head_joined tail hlf
      exact hmerge e.1 rest (Prod.ext rfl hcr) hrest
  | case3 => rfl

theorem joined_rejoin (lines : List (Bytes × Bytes)) : joined (rejoin lines) = joined lines := by
  induction lines using rejoin.induct with
  | case1 line lines ih =>
    rw [rejoin, joined, List.flatMap_cons, ← joined, ih]
    simp [joined, CR, LF]
  | case2 e lines hmerge ih =>
    rw [rejoin.eq_2 _ _ hmerge, joined, List.flatMap_cons, ← joined, ih]
    rfl
  | case3 => rfl

/-- No line changes but in how it ends. -/
theorem mem_of_mem_rejoin {lines : List (Bytes × Bytes)} {e : Bytes × Bytes}
    (h : e ∈ rejoin lines) : ∃ e' ∈ lines, e'.1 = e.1 := by
  induction lines using rejoin.induct with
  | case1 line lines ih =>
    rw [rejoin] at h
    rcases List.mem_cons.mp h with rfl | h
    · exact ⟨_, List.mem_cons_self .., rfl⟩
    · obtain ⟨e', he', heq⟩ := ih h
      exact ⟨e', List.mem_cons_of_mem _ (List.mem_cons_of_mem _ he'), heq⟩
  | case2 e₀ lines hmerge ih =>
    rw [rejoin.eq_2 _ _ hmerge] at h
    rcases List.mem_cons.mp h with rfl | h
    · exact ⟨_, List.mem_cons_self .., rfl⟩
    · obtain ⟨e', he', heq⟩ := ih h
      exact ⟨e', List.mem_cons_of_mem _ he', heq⟩
  | case3 => cases h

/-- Only empty lines get lost. -/
theorem mem_rejoin_of_mem {lines : List (Bytes × Bytes)} {e : Bytes × Bytes} (h : e ∈ lines)
    (hne : e.1 ≠ []) : ∃ e' ∈ rejoin lines, e'.1 = e.1 := by
  induction lines using rejoin.induct with
  | case1 line lines ih =>
    rw [rejoin]
    rcases List.mem_cons.mp h with rfl | h
    · exact ⟨_, List.mem_cons_self .., rfl⟩
    · rcases List.mem_cons.mp h with rfl | h
      · exact absurd rfl hne
      · obtain ⟨e', he', heq⟩ := ih h
        exact ⟨e', List.mem_cons_of_mem _ he', heq⟩
  | case2 e₀ lines hmerge ih =>
    rw [rejoin.eq_2 _ _ hmerge]
    rcases List.mem_cons.mp h with rfl | h
    · exact ⟨_, List.mem_cons_self .., rfl⟩
    · obtain ⟨e', he', heq⟩ := ih h
      exact ⟨e', List.mem_cons_of_mem _ he', heq⟩
  | case3 => cases h

/-! ### Room -/

/-- Every line kept finds room for its bytes and two more, behind `n` bytes and those of the
lines kept before it. -/
def Room (outputSize n : Nat) (lines : List (Bytes × Bytes)) : Prop :=
  ∀ pre e post, lines = pre ++ e :: post → dropLine e.1 = false →
    n + (pre.flatMap kept).length + e.1.length + 2 < outputSize

/-- The lines kept of a text fit the output. -/
def Fits (text : Bytes) (outputSize : Nat) : Prop :=
  0 < outputSize ∧ Room outputSize 0 (sdpLines text)

theorem room_nil {n : Nat} : Room outputSize n [] := fun pre e post h ↦ by
  cases pre <;> cases h

theorem room_cons {n : Nat} {e : Bytes × Bytes} {lines : List (Bytes × Bytes)} :
    Room outputSize n (e :: lines) ↔
      (dropLine e.1 = false → n + e.1.length + 2 < outputSize) ∧
        Room outputSize (n + (kept e).length) lines := by
  constructor
  · intro h
    refine ⟨fun hd ↦ by simpa using h [] e lines rfl hd, fun pre e' post hsplit hd ↦ ?_⟩
    have := h (e :: pre) e' post (by rw [hsplit]; rfl) hd
    rw [List.flatMap_cons, List.length_append] at this
    omega
  · rintro ⟨hfirst, hrest⟩ pre e' post hsplit hd
    cases pre with
    | nil =>
      cases hsplit
      simpa using hfirst hd
    | cons e₀ pre =>
      obtain ⟨rfl, hlines⟩ := List.cons.inj hsplit
      have := hrest pre e' post hlines hd
      rw [List.flatMap_cons, List.length_append]
      omega

/-- The fold gets through when there is room, and then writes the lines kept. -/
theorem foldlM_sanitizeLine_iff {lines : List (Bytes × Bytes)} {st st' : Bytes × Nat} :
    lines.foldlM (sanitizeLine outputSize) st = some st' ↔
      Room outputSize st.1.length lines ∧
        st' = (st.1 ++ lines.flatMap kept, st.2 + lines.countP fun e ↦ dropLine e.1) := by
  induction lines generalizing st with
  | nil =>
    constructor
    · rintro ⟨⟩
      exact ⟨room_nil, by simp⟩
    · rintro ⟨-, rfl⟩
      simp
  | cons e lines ih =>
    rw [List.foldlM_cons, room_cons, List.flatMap_cons, List.countP_cons, sanitizeLine, kept]
    cases hd : dropLine e.1 with
    | true =>
      refine (@ih (st.1, st.2 + 1)).trans ?_
      simp [Nat.add_assoc, Nat.add_comm 1]
    | false =>
      rw [if_neg Bool.false_ne_true]
      by_cases hfull : outputSize ≤ st.1.length + e.1.length + 2
      · rw [if_pos hfull]
        refine ⟨fun h ↦ (by cases h), fun h ↦ ?_⟩
        have := h.1.1 rfl
        omega
      · have hroom : st.1.length + (e.1.length + 2) < outputSize := by omega
        rw [if_neg hfull]
        refine (@ih (st.1 ++ e.1 ++ e.2, st.2)).trans ?_
        simp [hroom, Nat.add_assoc]

theorem Lines.length_eol_le {lines : List (Bytes × Bytes)} (h : Lines lines) :
    ∀ e ∈ lines, e.2.length ≤ 2 := by
  induction h with
  | nil => simp
  | last => simp
  | cons head _ ih =>
    refine List.forall_mem_cons.mpr ⟨?_, ih⟩
    rcases head.eol with heol | heol | heol <;> simp [heol]

/-- Where there is room for every line kept, the NUL finds its place behind them. -/
theorem Room.length_lt {lines : List (Bytes × Bytes)} {n : Nat} (h : Room outputSize n lines)
    (hlines : ∀ e ∈ lines, e.2.length ≤ 2) (hn : n < outputSize) :
    n + (lines.flatMap kept).length < outputSize := by
  induction lines generalizing n with
  | nil => simpa using hn
  | cons e lines ih =>
    obtain ⟨hfirst, hrest⟩ := room_cons.mp h
    obtain ⟨heol, htail⟩ := List.forall_mem_cons.mp hlines
    have hkept : n + (kept e).length < outputSize := by
      unfold kept
      split
      · simpa using hn
      · next hd =>
        have := hfirst (by simpa using hd)
        rw [List.length_append]
        omega
    have := ih hrest htail hkept
    rw [List.flatMap_cons, List.length_append]
    omega

/-- When the sanitizer accepts a text, and with what. -/
theorem sanitizeRemoteSdp_iff {text out : Bytes} {dropped : Nat} :
    sanitizeRemoteSdp text outputSize = some (out, dropped) ↔
      Fits text outputSize ∧ out = (sdpLines text).flatMap kept ∧
        dropped = (sdpLines text).countP fun e ↦ dropLine e.1 := by
  constructor
  · intro h
    obtain ⟨st, hst, hfit⟩ := Option.bind_eq_some_iff.mp h
    obtain ⟨hroom, rfl⟩ := foldlM_sanitizeLine_iff.mp hst
    split at hfit
    · cases hfit
    · next hfull =>
      cases hfit
      exact ⟨⟨by omega, hroom⟩, by simp, by simp⟩
  · rintro ⟨⟨hpos, hroom⟩, rfl, rfl⟩
    have hst : (sdpLines text).foldlM (sanitizeLine outputSize) ([], 0) = some (_, _) :=
      foldlM_sanitizeLine_iff.mpr ⟨hroom, rfl⟩
    have hlt := hroom.length_lt (lines_sdpLines text).length_eol_le hpos
    rw [sanitizeRemoteSdp, hst]
    refine (if_neg ?_).trans ?_
    · simpa using hlt
    · simp

/-! ### Once more -/

/-- The lines kept of a text. -/
def keptLines (text : Bytes) : List (Bytes × Bytes) :=
  (sdpLines text).filter fun e ↦ !dropLine e.1

theorem dropLine_keptLines {text : Bytes} {e : Bytes × Bytes} (h : e ∈ keptLines text) :
    dropLine e.1 = false := by
  simpa using (List.mem_filter.mp h).2

theorem flatMap_kept_of_forall {lines : List (Bytes × Bytes)}
    (h : ∀ e ∈ lines, dropLine e.1 = false) : lines.flatMap kept = joined lines := by
  rw [flatMap_kept, List.filter_eq_self.mpr fun e he ↦ by simp [h e he]]
  rfl

theorem Room.filter {lines : List (Bytes × Bytes)} {n : Nat} (h : Room outputSize n lines) :
    Room outputSize n (lines.filter fun e ↦ !dropLine e.1) := by
  induction lines generalizing n with
  | nil => exact h
  | cons e lines ih =>
    obtain ⟨hfirst, hrest⟩ := room_cons.mp h
    rw [List.filter_cons]
    split
    · exact room_cons.mpr ⟨hfirst, ih hrest⟩
    · next hd =>
      have hd : dropLine e.1 = true := by simpa using hd
      rw [kept, if_pos hd] at hrest
      exact ih hrest

theorem Room.rejoin {lines : List (Bytes × Bytes)} {n : Nat} (h : Room outputSize n lines)
    (hd : ∀ e ∈ lines, dropLine e.1 = false) : Room outputSize n (rejoin lines) := by
  induction lines using rejoin.induct generalizing n with
  | case1 line lines ih =>
    obtain ⟨hline, hrest⟩ := room_cons.mp h
    obtain ⟨hempty, hrest⟩ := room_cons.mp hrest
    obtain ⟨hd₁, hd⟩ := List.forall_mem_cons.mp hd
    obtain ⟨hd₂, hd⟩ := List.forall_mem_cons.mp hd
    rw [Sdp.rejoin]
    refine room_cons.mpr ⟨hline, ?_⟩
    have hlen : (kept (line, [CR, LF])).length =
        (kept (line, [13])).length + (kept ([], [10])).length := by
      simp [kept, hd₁, hd₂]
    rw [hlen, ← Nat.add_assoc]
    exact ih hrest hd
  | case2 e lines hmerge ih =>
    obtain ⟨hfirst, hrest⟩ := room_cons.mp h
    rw [rejoin.eq_2 _ _ hmerge]
    exact room_cons.mpr ⟨hfirst, ih hrest (List.forall_mem_cons.mp hd).2⟩
  | case3 => exact h

/-- The lines of what is written are the lines kept, but for how some of them end. -/
theorem sdpLines_flatMap_kept (text : Bytes) :
    sdpLines ((sdpLines text).flatMap kept) = rejoin (keptLines text) := by
  rw [flatMap_kept]
  exact sdpLines_joined ((lines_sdpLines text).filter _)

/-- What is accepted is accepted again, and nothing of it is dropped. -/
theorem sanitizeRemoteSdp_idempotent {text out : Bytes} {dropped : Nat}
    (h : sanitizeRemoteSdp text outputSize = some (out, dropped)) :
    sanitizeRemoteSdp out outputSize = some (out, 0) := by
  obtain ⟨⟨hpos, hroom⟩, rfl, -⟩ := sanitizeRemoteSdp_iff.mp h
  have hlines := sdpLines_flatMap_kept text
  have hd : ∀ e ∈ rejoin (keptLines text), dropLine e.1 = false := fun e he ↦ by
    obtain ⟨e', he', heq⟩ := mem_of_mem_rejoin he
    rw [← heq]
    exact dropLine_keptLines he'
  refine sanitizeRemoteSdp_iff.mpr ⟨⟨hpos, ?_⟩, ?_, ?_⟩
  · rw [hlines]
    exact hroom.filter.rejoin fun e he ↦ dropLine_keptLines he
  · rw [hlines, flatMap_kept_of_forall hd, joined_rejoin, flatMap_kept]
    rfl
  · rw [hlines, eq_comm, List.countP_eq_zero]
    exact fun e he ↦ by simp [hd e he]

/-- The lines of a text are its bytes. -/
theorem joined_sdpLines (p : Bytes) : joined (sdpLines p) = p := by
  induction p using sdpLines.induct with
  | case1 => rfl
  | case2 rest ih =>
    change [CR, LF] ++ joined (sdpLines rest) = _
    rw [ih]
    rfl
  | case3 b rest hcrlf hb ih =>
    rw [sdpLines.eq_3 _ _ hcrlf, if_pos hb, joined, List.flatMap_cons, ← joined, ih]
    rfl
  | case4 b rest hcrlf hb hnil ih =>
    rw [sdpLines_cons rest hb, hnil, ← ih, hnil]
    rfl
  | case5 b rest hcrlf hb line eol lines hlines ih =>
    rw [hlines] at ih
    rw [sdpLines_cons rest hb, hlines, ← ih]
    rfl

theorem joined_filter_subset (lines : List (Bytes × Bytes)) (q : Bytes × Bytes → Bool) :
    joined (lines.filter q) ⊆ joined lines := fun b hb ↦ by
  obtain ⟨e, he, hbe⟩ := List.mem_flatMap.mp hb
  exact List.mem_flatMap.mpr ⟨e, (List.mem_filter.mp he).1, hbe⟩

/-- A filter that keeps less writes less. -/
theorem length_joined_filter_le {p q : Bytes × Bytes → Bool} (hqp : ∀ e, q e = true → p e = true)
    (lines : List (Bytes × Bytes)) :
    (joined (lines.filter q)).length ≤ (joined (lines.filter p)).length :=
  ((List.monotone_filter_right lines hqp).flatMap _).length_le

/-- Two filters that write the same keep the same, when one of them keeps less. -/
theorem eq_of_joined_filter_eq {p q : Bytes × Bytes → Bool} (hqp : ∀ e, q e = true → p e = true)
    {lines : List (Bytes × Bytes)} (h : joined (lines.filter p) = joined (lines.filter q)) :
    ∀ e ∈ lines, e.1 ≠ [] → p e = true → q e = true := by
  induction lines with
  | nil => simp
  | cons e lines ih =>
    have hle := length_joined_filter_le hqp lines
    rw [List.filter_cons, List.filter_cons] at h
    refine List.forall_mem_cons.mpr ?_
    by_cases hp : p e = true
    · by_cases hq : q e = true
      · rw [if_pos hp, if_pos hq, joined, joined, List.flatMap_cons, List.flatMap_cons] at h
        exact ⟨fun _ _ ↦ hq, ih (List.append_cancel_left h)⟩
      · rw [if_pos hp, if_neg hq, joined, List.flatMap_cons, ← joined] at h
        -- The line would have to be empty, and to end in nothing.
        have hlen := congrArg List.length h
        simp only [List.length_append] at hlen
        have hline : e.1 = [] := List.eq_nil_of_length_eq_zero (by omega)
        have heol : e.2 = [] := List.eq_nil_of_length_eq_zero (by omega)
        rw [hline, heol] at h
        exact ⟨fun hne ↦ absurd hline hne, ih h⟩
    · have hq : ¬ q e = true := fun hq ↦ hp (hqp e hq)
      rw [if_neg hp, if_neg hq] at h
      exact ⟨fun _ hp' ↦ absurd hp' hp, ih h⟩

/-! ### A pure filter of lines -/

/-- A call of the sanitizer is a filter of lines, whatever the output held before. -/
structure PureFilter (input : Bytes) (outputSize : Nat) : Prop where
  terminates : ∀ before, ∃ r, sanitize input before outputSize = some r
  inBounds : ∀ before r, sanitize input before outputSize = some r →
    InBounds outputSize before r.output r.touched
  filters : ∀ before s, sanitize input before outputSize = some (.accepts s) →
    readBuffer s.output (s.outLen + 1) =
      joined ((sdpLines (cstr input)).filter fun e ↦ !shouldDropCandidateLine e.1) ++ [NUL]
  idempotent : ∀ before s, sanitize input before outputSize = some (.accepts s) →
    ∀ before', ∃ s', sanitize (readBuffer s.output (s.outLen + 1)) before' outputSize =
        some (.accepts s') ∧ s'.dropped = 0 ∧
      readBuffer s'.output (s'.outLen + 1) = readBuffer s.output (s.outLen + 1)

/-- What an accepted call has written. -/
theorem read_accepts {input : Bytes} {s : Scan}
    (h : sanitize input before outputSize = some (.accepts s)) :
    readBuffer s.output (s.outLen + 1) = joined (keptLines (cstr input)) ++ [NUL] := by
  have hout := sanitizeRemoteSdp_of_accepts h
  obtain ⟨s', hs', -, -, hread⟩ := accepts_of_sanitizeRemoteSdp hout before
  cases h.symm.trans hs'
  rw [hread, sanitizeRemoteSdp_eq hout, flatMap_kept]
  rfl

theorem idempotent_accepts {input : Bytes} {s : Scan}
    (h : sanitize input before outputSize = some (.accepts s)) (before' : Buffer UInt8) :
    ∃ s', sanitize (readBuffer s.output (s.outLen + 1)) before' outputSize = some (.accepts s') ∧
      s'.dropped = 0 ∧
      readBuffer s'.output (s'.outLen + 1) = readBuffer s.output (s.outLen + 1) := by
  have hout := sanitizeRemoteSdp_of_accepts h
  have htext : s.text = joined (keptLines (cstr input)) := by
    rw [sanitizeRemoteSdp_eq hout, flatMap_kept]
    rfl
  have hnul : NUL ∉ s.text := fun hmem ↦ by
    rw [htext] at hmem
    have := joined_filter_subset _ _ hmem
    rw [joined_sdpLines] at this
    exact nul_not_mem_cstr input this
  have hcstr : cstr (s.text ++ [NUL]) = s.text := takeWhile_ne_append_cons hnul []
  have hagain : sanitizeRemoteSdp (cstr (s.text ++ [NUL])) outputSize = some (s.text, 0) := by
    rw [hcstr]
    exact sanitizeRemoteSdp_idempotent hout
  rw [read_accepts h, ← htext]
  obtain ⟨s', hs', -, hdropped, hread⟩ := accepts_of_sanitizeRemoteSdp hagain before'
  exact ⟨s', hs', hdropped, hread⟩

/-- The condition under which the lines left in are the lines to leave in. -/
theorem keptLines_eq_iff {text : Bytes} :
    joined (keptLines text) =
        joined ((sdpLines text).filter fun e ↦ !shouldDropCandidateLine e.1) ↔
      ∀ e ∈ sdpLines text, 512 ≤ e.1.length → shouldDropCandidateLine e.1 = false := by
  constructor
  · intro h e he hlong
    have hkeeps : ∀ e : Bytes × Bytes, (!shouldDropCandidateLine e.1) = true →
        (!dropLine e.1) = true := fun e he ↦ by simp_all [dropLine]
    have hne : e.1 ≠ [] := List.ne_nil_of_length_pos (by omega)
    simpa using eq_of_joined_filter_eq hkeeps h e he hne (by simp [dropLine, hlong])
  · intro h
    have hkeeps : keptLines text = (sdpLines text).filter fun e ↦ !shouldDropCandidateLine e.1 := by
      refine List.filter_congr fun e he ↦ ?_
      by_cases hlong : 512 ≤ e.1.length
      · simp [dropLine, h e he hlong]
      · simp [dropLine, Nat.lt_of_not_le hlong]
    rw [hkeeps]

theorem long_of_pureFilter {input : Bytes} (h : PureFilter input outputSize)
    (hfits : Fits (cstr input) outputSize) :
    ∀ e ∈ sdpLines (cstr input), 512 ≤ e.1.length → shouldDropCandidateLine e.1 = false := by
  obtain ⟨s, hs, -, -, -⟩ := accepts_of_sanitizeRemoteSdp
    (sanitizeRemoteSdp_iff.mpr ⟨hfits, rfl, rfl⟩) fun _ ↦ NUL
  have hread := h.filters _ s hs
  rw [read_accepts hs] at hread
  exact keptLines_eq_iff.mp (List.append_cancel_right hread)

/-- A call filters its lines exactly when no line that `should_drop_candidate_line` selects has
512 bytes or more, or the lines do not fit the output anyway. -/
theorem pureFilter_iff (input : Bytes) (outputSize : Nat) :
    PureFilter input outputSize ↔ (Fits (cstr input) outputSize →
      ∀ e ∈ sdpLines (cstr input), 512 ≤ e.1.length → shouldDropCandidateLine e.1 = false) := by
  refine ⟨fun h hfits ↦ long_of_pureFilter h hfits, fun h ↦ ⟨fun before ↦ ?_, fun before r hr ↦
    inBounds_sanitize hr, fun before s hs ↦ ?_, fun before s hs ↦ idempotent_accepts hs⟩⟩
  · obtain ⟨r, hr, -⟩ := sanitize_agrees input before outputSize
    exact ⟨r, hr⟩
  · have hfits := (sanitizeRemoteSdp_iff.mp (sanitizeRemoteSdp_of_accepts hs)).1
    rw [read_accepts hs, keptLines_eq_iff.mpr (h hfits)]

/-- A candidate on the loopback address, in a line of more than 511 bytes. -/
def longCandidate : Bytes :=
  lit "a=candidate:1 1 UDP 2122317823 127.0.0.1 50000 typ host ext " ++ List.replicate 480 120 ++
    [CR, LF]

theorem longCandidate_not_filtered : ¬ PureFilter longCandidate 4096 := fun h ↦ by
  have haccepts : sanitizeRemoteSdp (cstr longCandidate) 4096 = some (longCandidate, 0) := by
    decide +kernel
  have hline : (longCandidate.dropLast.dropLast, [CR, LF]) ∈ sdpLines (cstr longCandidate) := by
    decide +kernel
  have hkept := long_of_pureFilter h (sanitizeRemoteSdp_iff.mp haccepts).1 _ hline
    (by decide +kernel)
  exact absurd hkept (by decide +kernel)

end Kitty.Sdp
