import Kitty.Sdp.Filter

/-!
# The candidates that get through

What `should_drop_candidate_line` is there to keep from libjuice, told from the meaning of a
candidate line: the prefix, then fields with white space between them, the fifth of which is
the connection address. `sanitize_remote_sdp` counts words between spaces instead, in lines
shorter than 512 bytes, and cuts the one it takes for the address at 127 bytes;
`src/provider-srt/_legacy_libjuice_provider_configurable.c:212–310`.
-/

namespace Kitty.Sdp

open Kitty.Base

/-! ### Candidate lines -/

/-- White space within a line, as `sscanf` in libjuice skips it. -/
def isBlank (b : UInt8) : Bool := b == 32 || b == 9 || b == 11 || b == 12

/-- The fields of a text, which blanks separate. -/
def fields (text : Bytes) : List Bytes := pieces isBlank text

/-- The connection address of a candidate line, behind foundation, component, transport and
priority. -/
def connectionAddress (line : Bytes) : Option Bytes :=
  if (lit "a=candidate:").isPrefixOf line then
    (fields (line.drop (lit "a=candidate:").length))[4]?
  else none

/-- An address of the classes to keep out: an mDNS name, or a number of the classes above. -/
def excluded (address : Bytes) : Bool :=
  (lit ".local").isSuffixOf address || (inetPton4 address).any dropped4 ||
    (inetPton6 address).any dropped6

/-- A candidate line with such an address. -/
def excludedCandidate (line : Bytes) : Bool := (connectionAddress line).any excluded

/-! ### What the code looks at -/

/-- The word that `should_drop_candidate_line` takes for the address of a line. -/
def scannedWord (line : Bytes) : Bytes := (((tokens (line.take 511))[4]?).getD []).take 127

/-- The code finds an excluded address where it looks, and it looks at the line. -/
def Seen (line : Bytes) : Prop := line.length < 512 ∧ excluded (scannedWord line) = true

theorem excluded_nil : excluded [] = false := by decide

theorem shouldDropCandidateLine_eq (line : Bytes) :
    shouldDropCandidateLine line =
      ((lit "a=candidate:").isPrefixOf line && excluded (scannedWord line)) := by
  unfold shouldDropCandidateLine
  change (if _ then false else if scannedWord line = [] then false else
    excluded (scannedWord line)) = _
  cases (lit "a=candidate:").isPrefixOf line with
  | false => rfl
  | true =>
    by_cases hword : scannedWord line = []
    · simp [hword, excluded_nil]
    · simp [hword]

/-- A line with an excluded address is dropped exactly when the code sees it. -/
theorem dropLine_iff_seen {line : Bytes} (h : excludedCandidate line = true) :
    dropLine line = true ↔ Seen line := by
  have hprefix : (lit "a=candidate:").isPrefixOf line = true := by
    by_contra hno
    rw [excludedCandidate, connectionAddress, if_neg hno] at h
    cases h
  rw [dropLine, shouldDropCandidateLine_eq, hprefix]
  simp [Seen]

/-! ### Plain lines -/

/-- A candidate line as `snprintf` in libjuice writes it: no blanks but spaces, none behind the
colon, and an address of at most 127 bytes. -/
structure PlainLine (line address : Bytes) : Prop where
  spaces : ∀ b ∈ line, isBlank b = true → b = 32
  noBlank : ∀ b, (line.drop (lit "a=candidate:").length).head? = some b → isBlank b = false
  found : connectionAddress line = some address
  short : address.length ≤ 127

/-- On spaces alone both ways of splitting agree. -/
theorem splitOnP_isBlank {text : Bytes} (h : ∀ b ∈ text, isBlank b = true → b = 32) :
    text.splitOnP isBlank = text.splitOn 32 := by
  rw [List.splitOn_eq_splitOnP]
  induction text with
  | nil => rfl
  | cons b text ih =>
    obtain ⟨hb, htext⟩ := List.forall_mem_cons.mp h
    have heq : isBlank b = (b == 32) := by
      rw [Bool.eq_iff_iff, beq_iff_eq]
      exact ⟨hb, fun h ↦ by rw [h]; rfl⟩
    rw [List.splitOnP_cons_eq_if_modifyHead, List.splitOnP_cons_eq_if_modifyHead, heq, ih htext]

/-- A front without spaces becomes part of the first word. -/
theorem splitOn_append {front text : Bytes} (h : 32 ∉ front) :
    (front ++ text).splitOn 32 = (text.splitOn 32).modifyHead (front ++ ·) := by
  induction front with
  | nil =>
    rw [List.nil_append]
    cases text.splitOn 32 <;> rfl
  | cons b front ih =>
    obtain ⟨hb, hfront⟩ := not_or.mp fun h' ↦ h (List.mem_cons.mpr h')
    rw [List.cons_append, List.splitOn_cons_eq_if_modifyHead, if_neg (by simpa using Ne.symm hb),
      ih hfront]
    cases text.splitOn 32 <;> rfl

/-- Behind the prefix, unless a space follows it, the words of a line are its fields, of which
the first has the prefix in front. -/
theorem getElem?_tokens_append {front text : Bytes} (hfront : 32 ∉ front) (hne : front ≠ [])
    (htext : text ≠ []) (hhead : text.head? ≠ some 32) (i : Nat) :
    (tokens (front ++ text))[i + 1]? = (tokens text)[i + 1]? := by
  obtain ⟨b, text, rfl⟩ := List.exists_cons_of_ne_nil htext
  have hb : ¬ (b == 32) = true := fun h ↦ hhead (by rw [beq_iff_eq.mp h]; rfl)
  obtain ⟨word, words, hwords⟩ := List.exists_cons_of_ne_nil (List.splitOn_ne_nil 32 text)
  rw [tokens, tokens, splitOn_append hfront, List.splitOn_cons_eq_if_modifyHead, if_neg hb, hwords]
  simp [hne]

/-- In a plain line the code looks at the address. -/
theorem PlainLine.scannedWord_eq {line address : Bytes} (h : PlainLine line address)
    (hlen : line.length < 512) : scannedWord line = address := by
  have hfound := h.found
  rw [connectionAddress] at hfound
  split at hfound
  · next hprefix =>
    obtain ⟨text, rfl⟩ := List.isPrefixOf_iff_prefix.mp hprefix
    have hnoBlank := h.noBlank
    rw [List.drop_left] at hfound hnoBlank
    have htext : text ≠ [] := fun hnil ↦ by
      rw [hnil] at hfound
      cases hfound
    have hhead : text.head? ≠ some 32 := fun hspace ↦ by
      cases hnoBlank 32 hspace
    have hwords : tokens text = fields text := by
      rw [tokens, fields, pieces, splitOnP_isBlank fun b hb ↦
        h.spaces b (List.mem_append_right _ hb)]
      exact List.filter_congr fun word _ ↦ by cases word <;> rfl
    have hwhole : (lit "a=candidate:" ++ text).take 511 = lit "a=candidate:" ++ text :=
      List.take_of_length_le (by omega)
    rw [scannedWord, hwhole,
      getElem?_tokens_append (by decide) (by decide) htext hhead, hwords, hfound]
    exact List.take_of_length_le h.short
  · cases hfound

/-- Short plain lines with an excluded address are seen. -/
theorem PlainLine.seen {line address : Bytes} (h : PlainLine line address)
    (hlen : line.length < 512) (hex : excludedCandidate line = true) : Seen line := by
  refine ⟨hlen, ?_⟩
  rw [h.scannedWord_eq hlen]
  rwa [excludedCandidate, h.found] at hex

/-! ### What survives -/

/-- The output of an accepted text has no line with an excluded address. -/
def NoneSurvives (input : Bytes) (outputSize : Nat) : Prop :=
  ∀ before s, sanitize input before outputSize = some (.accepts s) →
    ∀ e ∈ sdpLines s.text, excludedCandidate e.1 = false

variable {input : Bytes} {outputSize : Nat}

theorem seen_of_noneSurvives (h : NoneSurvives input outputSize)
    (hfits : Fits (cstr input) outputSize) {e : Bytes × Bytes} (he : e ∈ sdpLines (cstr input))
    (hex : excludedCandidate e.1 = true) : Seen e.1 := by
  rw [← dropLine_iff_seen hex]
  by_contra hkeeps
  have hmem : e ∈ keptLines (cstr input) := List.mem_filter.mpr ⟨he, by simpa using hkeeps⟩
  have hne : e.1 ≠ [] := fun hnil ↦ by
    rw [hnil] at hex
    exact absurd hex (by decide)
  obtain ⟨e', he', heq⟩ := mem_rejoin_of_mem hmem hne
  obtain ⟨s, hs, htext, -⟩ := accepts_of_sanitizeRemoteSdp
    (sanitizeRemoteSdp_iff.mpr ⟨hfits, rfl, rfl⟩) fun _ ↦ NUL
  rw [← sdpLines_flatMap_kept, ← htext] at he'
  have := h _ s hs e' he'
  rw [heq, hex] at this
  cases this

/-- No candidate with an excluded address survives exactly when the code sees every line that
has one, or the lines do not fit the output anyway. -/
theorem noneSurvives_iff (input : Bytes) (outputSize : Nat) :
    NoneSurvives input outputSize ↔ (Fits (cstr input) outputSize →
      ∀ e ∈ sdpLines (cstr input), excludedCandidate e.1 = true → Seen e.1) := by
  refine ⟨fun h hfits e he hex ↦ seen_of_noneSurvives h hfits he hex, fun h before s hs e he ↦ ?_⟩
  have hout := sanitizeRemoteSdp_of_accepts hs
  rw [sanitizeRemoteSdp_eq hout, sdpLines_flatMap_kept] at he
  obtain ⟨e', he', heq⟩ := mem_of_mem_rejoin he
  by_contra hex
  rw [← heq, Bool.not_eq_false] at hex
  have hseen := h (sanitizeRemoteSdp_iff.mp hout).1 e' (List.mem_filter.mp he').1 hex
  rw [← dropLine_iff_seen hex, dropLine_keptLines he'] at hseen
  cases hseen

/-- A loopback candidate with a space behind the colon. -/
def spacedCandidate : Bytes :=
  lit "a=candidate: 1 1 UDP 2122317823 127.0.0.1 50000 typ host\r\n"

/-- One with tabs between its fields. -/
def tabbedCandidate : Bytes :=
  lit "a=candidate:1\t1\tUDP\t2122317823\t127.0.0.1\t50000\ttyp\thost\n"

/-- One with an mDNS name of more than 127 bytes. -/
def namedCandidate : Bytes :=
  lit "a=candidate:1 1 UDP 2122317823 " ++ List.replicate 130 97 ++
    lit ".local 50000 typ host"

theorem not_noneSurvives {input : Bytes} {e : Bytes × Bytes}
    (h : sanitizeRemoteSdp (cstr input) 4096 = some (input, 0) ∧ e ∈ sdpLines (cstr input) ∧
      excludedCandidate e.1 = true ∧ dropLine e.1 = false) : ¬ NoneSurvives input 4096 := by
  intro hnone
  obtain ⟨haccepts, he, hex, hkeeps⟩ := h
  have hseen := seen_of_noneSurvives hnone (sanitizeRemoteSdp_iff.mp haccepts).1 he hex
  rw [← dropLine_iff_seen hex, hkeeps] at hseen
  cases hseen

theorem candidates_survive :
    ¬ NoneSurvives longCandidate 4096 ∧ ¬ NoneSurvives spacedCandidate 4096 ∧
      ¬ NoneSurvives tabbedCandidate 4096 ∧ ¬ NoneSurvives namedCandidate 4096 :=
  ⟨not_noneSurvives (e := (longCandidate.dropLast.dropLast, [CR, LF])) (by decide +kernel),
    not_noneSurvives (e := (spacedCandidate.dropLast.dropLast, [CR, LF])) (by decide +kernel),
    not_noneSurvives (e := (tabbedCandidate.dropLast, [LF])) (by decide +kernel),
    not_noneSurvives (e := (namedCandidate, [])) (by decide +kernel)⟩

end Kitty.Sdp
