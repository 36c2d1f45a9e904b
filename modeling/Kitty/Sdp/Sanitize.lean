import Kitty.Base.Bytes

/-!
# Remote SDP texts

`should_drop_candidate_line` and `sanitize_remote_sdp`, which the provider and the consumer
have alike; `src/provider-srt/_legacy_libjuice_provider_configurable.c:212–310`,
`src/consumer-srt-cloud/_legacy_libjuice_consumer_api.c:391–489`.
-/

namespace Kitty.Sdp

open Kitty.Base

/-! ### Addresses -/

/-- The value of a decimal digit. -/
def digitValue (b : UInt8) : Option Nat :=
  if 48 ≤ b ∧ b ≤ 57 then some (b.toNat - 48) else none

/-- The value of a hexadecimal digit. -/
def hexValue (b : UInt8) : Option Nat :=
  if 48 ≤ b ∧ b ≤ 57 then some (b.toNat - 48)
  else if 65 ≤ b ∧ b ≤ 70 then some (b.toNat - 55)
  else if 97 ≤ b ∧ b ≤ 102 then some (b.toNat - 87)
  else none

/-- The number its digits write in a base. -/
def number (base : Nat) (digits : List Nat) : Nat := digits.foldl (fun n d ↦ base * n + d) 0

/-- One number of a dotted address: up to 255, without a leading zero. -/
def inetOctet (part : Bytes) : Option Nat := do
  let digits ← part.mapM digitValue
  if digits = [] ∨ (1 < digits.length ∧ digits.head? = some 0) ∨ 255 < number 10 digits then none
  else some (number 10 digits)

/-- `inet_pton(AF_INET, ..)`: the four numbers of `ddd.ddd.ddd.ddd`. -/
def inetPton4 (text : Bytes) : Option (List Nat) :=
  let parts := text.splitOn 46
  if parts.length = 4 then parts.mapM inetOctet else none

/-- One group of an IPv6 address: one to four hexadecimal digits. -/
def inetGroup (part : Bytes) : Option Nat := do
  let digits ← part.mapM hexValue
  if digits = [] ∨ 4 < digits.length then none else some (number 16 digits)

/-- Groups with colons between them. -/
def inetGroups (text : Bytes) : Option (List Nat) :=
  if text = [] then some [] else (text.splitOn 58).mapM inetGroup

/-- The groups at the end of an address, of which the last two may be a dotted address. -/
def inetTail (text : Bytes) : Option (List Nat) :=
  if text = [] then some []
  else
    let parts := text.splitOn 58
    match inetPton4 (parts.getLast?.getD []) with
    | some [a, b, c, d] => do
      let groups ← parts.dropLast.mapM inetGroup
      return groups ++ [256 * a + b, 256 * c + d]
    | _ => parts.mapM inetGroup

/-- The text before and after the first `::`. -/
def splitGap : Bytes → Option (Bytes × Bytes)
  | 58 :: 58 :: rest => some ([], rest)
  | b :: rest => (splitGap rest).map fun (before, after) ↦ (b :: before, after)
  | [] => none

/-- `inet_pton(AF_INET6, ..)`: the eight groups of an address, in which `::` stands for at
least one group of zeros. -/
def inetPton6 (text : Bytes) : Option (List Nat) :=
  match splitGap text with
  | some (before, after) => do
    let front ← inetGroups before
    let back ← inetTail after
    if front.length + back.length < 8 then
      return front ++ List.replicate (8 - (front.length + back.length)) 0 ++ back
    else none
  | none => do
    let groups ← inetTail text
    if groups.length = 8 then return groups else none

/-- The IPv4 classes that are dropped: this network, loopback, multicast and above,
link-local. -/
def dropped4 (address : List Nat) : Bool :=
  match address with
  | a :: b :: _ => a == 0 || a == 127 || 224 ≤ a || a == 255 || (a == 169 && b == 254)
  | _ => false

/-- The IPv6 classes that are dropped: unspecified, loopback, link-local, multicast, unique
local. -/
def dropped6 (groups : List Nat) : Bool :=
  match groups with
  | g :: rest => groups.all (· == 0) || (g == 0 && rest == [0, 0, 0, 0, 0, 0, 1]) ||
      g / 64 == 0xfe80 / 64 || g / 256 == 0xff || g / 512 == 0xfc00 / 512
  | [] => false

/-! ### Lines -/

/-- `strtok_r(.., " ", ..)` until there is no more. -/
def tokens (line : Bytes) : List Bytes := (line.splitOn 32).filter (· ≠ [])

/-- `should_drop_candidate_line`; lines 212–267. The connection address is the fifth word,
cut at 127 bytes. -/
def shouldDropCandidateLine (line : Bytes) : Bool :=
  if !(lit "a=candidate:").isPrefixOf line then false
  else
    let ip := (((tokens (line.take 511))[4]?).getD []).take 127
    if ip = [] then false
    else (lit ".local").isSuffixOf ip || (inetPton4 ip).any dropped4 || (inetPton6 ip).any dropped6

/-- The lines of a text, each with the bytes that end it: a newline, a carriage return, both
or, at the end of the text, nothing. -/
def sdpLines : Bytes → List (Bytes × Bytes)
  | [] => []
  | 13 :: 10 :: rest => ([], [CR, LF]) :: sdpLines rest
  | b :: rest =>
    if b = CR ∨ b = LF then ([], [b]) :: sdpLines rest
    else match sdpLines rest with
      | [] => [([b], [])]
      | (line, eol) :: lines => (b :: line, eol) :: lines

/-- Only a line shorter than 512 bytes is looked at. -/
def dropLine (line : Bytes) : Bool := decide (line.length < 512) && shouldDropCandidateLine line

/-- One round of the loop of `sanitize_remote_sdp`: the output so far, and the lines dropped. -/
def sanitizeLine (outputSize : Nat) (st : Bytes × Nat) (e : Bytes × Bytes) : Option (Bytes × Nat) :=
  if dropLine e.1 then some (st.1, st.2 + 1)
  else if outputSize ≤ st.1.length + e.1.length + 2 then none
  else some (st.1 ++ e.1 ++ e.2, st.2)

/-- `sanitize_remote_sdp`; lines 269–310. The output and the number of lines dropped, or
nothing when the output is too small. -/
def sanitizeRemoteSdp (input : Bytes) (outputSize : Nat) : Option (Bytes × Nat) := do
  let st ← (sdpLines input).foldlM (sanitizeLine outputSize) ([], 0)
  if outputSize ≤ st.1.length then none else some st

/-! ### Reading lines back -/

/-- A text that ends where a line does. -/
def Terminated (text : Bytes) : Prop := ∀ b ∈ text.getLast?, b = CR ∨ b = LF

instance (text : Bytes) : Decidable (Terminated text) := Option.decidableForallMem _

/-- What can end a line. -/
def IsEol (eol : Bytes) : Prop := eol = [LF] ∨ eol = [CR] ∨ eol = [CR, LF]

/-- A line and its end: no other end in it. -/
structure IsLine (e : Bytes × Bytes) : Prop where
  noCr : CR ∉ e.1
  noLf : LF ∉ e.1
  eol : IsEol e.2

theorem Terminated.tail {b : UInt8} {rest : Bytes} (h : Terminated (b :: rest)) :
    Terminated rest := by
  intro c hc
  apply h c
  rw [Option.mem_def, List.getLast?_cons, Option.mem_def.mp hc]
  rfl

theorem sdpLines_crlf (rest : Bytes) :
    sdpLines (CR :: LF :: rest) = ([], [CR, LF]) :: sdpLines rest := rfl

theorem sdpLines_eol {b : UInt8} {rest : Bytes} (hb : b = CR ∨ b = LF)
    (hrest : b = CR → rest.head? ≠ some LF) :
    sdpLines (b :: rest) = ([], [b]) :: sdpLines rest := by
  rw [sdpLines.eq_3 _ _ fun rest' hcr hlf ↦ hrest hcr (by rw [hlf]; rfl), if_pos hb]

theorem sdpLines_cons {b : UInt8} (rest : Bytes) (hb : ¬ (b = CR ∨ b = LF)) :
    sdpLines (b :: rest) = match sdpLines rest with
      | [] => [([b], [])]
      | (line, eol) :: lines => (b :: line, eol) :: lines := by
  rw [sdpLines.eq_3 _ _ fun rest' hcr _ ↦ hb (.inl hcr), if_neg hb]

theorem sdpLines_ne_nil (b : UInt8) (rest : Bytes) : sdpLines (b :: rest) ≠ [] := by
  by_cases hb : b = CR ∨ b = LF
  · rw [sdpLines.eq_def]
    split
    · next h => cases h
    · exact List.cons_ne_nil _ _
    · next h =>
      cases h
      rw [if_pos hb]
      exact List.cons_ne_nil _ _
  · rw [sdpLines_cons rest hb]
    split <;> exact List.cons_ne_nil _ _

/-- A byte that ends no line is not the end of such a text. -/
theorem Terminated.ne_nil {b : UInt8} {rest : Bytes} (h : Terminated (b :: rest))
    (hb : ¬ (b = CR ∨ b = LF)) : sdpLines rest ≠ [] := by
  cases rest with
  | nil => exact absurd (h b rfl) hb
  | cons c rest => exact sdpLines_ne_nil c rest

/-- Lines of a text that ends where a line does are lines. -/
theorem isLine_of_mem {text : Bytes} (h : Terminated text) : ∀ e ∈ sdpLines text, IsLine e := by
  induction text using sdpLines.induct with
  | case1 => simp [sdpLines]
  | case2 rest ih =>
    intro e he
    rcases List.mem_cons.mp he with rfl | he
    · exact ⟨by simp, by simp, .inr (.inr rfl)⟩
    · exact ih h.tail.tail e he
  | case3 b rest hcrlf hb ih =>
    intro e he
    rw [sdpLines.eq_3 _ _ hcrlf, if_pos hb] at he
    rcases List.mem_cons.mp he with rfl | he
    · exact ⟨by simp, by simp, by rcases hb with rfl | rfl <;> simp [IsEol]⟩
    · exact ih h.tail e he
  | case4 b rest hcrlf hb hnil ih => exact absurd hnil (h.ne_nil hb)
  | case5 b rest hcrlf hb line eol lines hlines ih =>
    intro e he
    rw [sdpLines_cons rest hb, hlines] at he
    rw [hlines] at ih
    rcases List.mem_cons.mp he with rfl | he
    · obtain ⟨hcr, hlf, heol⟩ := ih h.tail (line, eol) (List.mem_cons_self ..)
      refine ⟨?_, ?_, heol⟩
      · simpa using ⟨fun he ↦ hb (.inl he.symm), hcr⟩
      · simpa using ⟨fun he ↦ hb (.inr he.symm), hlf⟩
    · exact ih h.tail e (List.mem_cons_of_mem _ he)

/-- Behind a text that ends where a line does, other lines are read. -/
theorem sdpLines_append {a b : Bytes} (ha : Terminated a) (hb : b.head? ≠ some LF) :
    sdpLines (a ++ b) = sdpLines a ++ sdpLines b := by
  induction a using sdpLines.induct with
  | case1 => rfl
  | case2 rest ih =>
    change sdpLines (CR :: LF :: (rest ++ b)) = _
    rw [sdpLines_crlf, ih ha.tail.tail]
    rfl
  | case3 c rest hcrlf hc ih =>
    have hhead : c = CR → (rest ++ b).head? ≠ some LF := fun hcr ↦ by
      cases rest with
      | nil => exact hb
      | cons d rest =>
        intro hd
        exact hcrlf rest hcr (by rw [Option.some.inj hd]; rfl)
    rw [List.cons_append, sdpLines_eol hc hhead, ih ha.tail, sdpLines.eq_3 _ _ hcrlf, if_pos hc]
    rfl
  | case4 c rest hcrlf hc hnil ih => exact absurd hnil (ha.ne_nil hc)
  | case5 c rest hcrlf hc line eol lines hlines ih =>
    rw [List.cons_append, sdpLines_cons _ hc, ih ha.tail, sdpLines_cons _ hc, hlines]
    rfl

/-- A line is read, and the rest after it, unless the two make one `\r\n`. -/
theorem sdpLines_read {e : Bytes × Bytes} (he : IsLine e) {rest : Bytes}
    (hrest : e.2 = [CR] → rest.head? ≠ some LF) :
    sdpLines (e.1 ++ e.2 ++ rest) = e :: sdpLines rest := by
  obtain ⟨line, eol⟩ := e
  obtain ⟨hcr, hlf, heol⟩ := he
  dsimp only at hcr hlf heol hrest ⊢
  induction line with
  | nil =>
    rcases heol with rfl | rfl | rfl
    · exact sdpLines_eol (.inr rfl) fun h ↦ absurd h (by decide)
    · exact sdpLines_eol (.inl rfl) fun _ ↦ hrest rfl
    · exact sdpLines_crlf rest
  | cons b line ih =>
    have hb : ¬ (b = CR ∨ b = LF) := by
      rintro (rfl | rfl)
      · exact hcr (List.mem_cons_self ..)
      · exact hlf (List.mem_cons_self ..)
    rw [List.cons_append, List.cons_append, sdpLines_cons _ hb,
      ih (fun h ↦ hcr (List.mem_cons_of_mem _ h)) fun h ↦ hlf (List.mem_cons_of_mem _ h)]

theorem sdpLines_line {e : Bytes × Bytes} (he : IsLine e) {rest : Bytes}
    (hrest : rest.head? ≠ some LF) : sdpLines (e.1 ++ e.2 ++ rest) = e :: sdpLines rest :=
  sdpLines_read he fun _ ↦ hrest

/-! ### The filter -/

/-- What is written of a line. -/
def kept (e : Bytes × Bytes) : Bytes := if dropLine e.1 then [] else e.1 ++ e.2

theorem foldlM_sanitizeLine {outputSize : Nat} {lines : List (Bytes × Bytes)} {st st' : Bytes × Nat}
    (h : lines.foldlM (sanitizeLine outputSize) st = some st') :
    st'.1 = st.1 ++ lines.flatMap kept := by
  induction lines generalizing st with
  | nil =>
    cases h
    simp
  | cons e lines ih =>
    rw [List.foldlM_cons] at h
    obtain ⟨mid, hmid, hrest⟩ := Option.bind_eq_some_iff.mp h
    rw [ih hrest, List.flatMap_cons]
    unfold sanitizeLine at hmid
    unfold kept
    split at hmid
    · next hd =>
      cases hmid
      simp [hd]
    · next hd =>
      split at hmid
      · cases hmid
      · cases hmid
        simp [hd]

/-- What is written are the lines that are not dropped, in order. -/
theorem sanitizeRemoteSdp_eq {input out : Bytes} {outputSize dropped : Nat}
    (h : sanitizeRemoteSdp input outputSize = some (out, dropped)) :
    out = (sdpLines input).flatMap kept := by
  obtain ⟨st, hst, hfit⟩ := Option.bind_eq_some_iff.mp h
  split at hfit
  · cases hfit
  · cases hfit
    simpa using foldlM_sanitizeLine hst

/-- Texts put together out of lines that are not empty are read as these lines. -/
theorem sdpLines_join {lines : List (Bytes × Bytes)} (h : ∀ e ∈ lines, IsLine e ∧ e.1 ≠ []) :
    sdpLines (lines.flatMap fun e ↦ e.1 ++ e.2) = lines := by
  induction lines with
  | nil => rfl
  | cons e lines ih =>
    have ht : ∀ e ∈ lines, IsLine e ∧ e.1 ≠ [] := fun e' he ↦ h e' (List.mem_cons_of_mem _ he)
    have hhead : (lines.flatMap fun e ↦ e.1 ++ e.2).head? ≠ some LF := by
      cases lines with
      | nil => simp
      | cons e' lines =>
        obtain ⟨hline, hne⟩ := ht e' (List.mem_cons_self ..)
        obtain ⟨b, line, hb⟩ := List.exists_cons_of_ne_nil hne
        rw [List.flatMap_cons, hb]
        intro hlf
        exact hline.noLf (by rw [hb, ← Option.some.inj hlf]; exact List.mem_cons_self ..)
    rw [List.flatMap_cons, sdpLines_line (h e (List.mem_cons_self ..)).1 hhead, ih ht]

/-- What is written of lines are the bytes of those that are not dropped. -/
theorem flatMap_kept (lines : List (Bytes × Bytes)) :
    lines.flatMap kept =
      (lines.filter fun e ↦ !dropLine e.1).flatMap fun e ↦ e.1 ++ e.2 := by
  induction lines with
  | nil => rfl
  | cons e lines ih =>
    rw [List.flatMap_cons, ih, List.filter_cons, kept]
    split <;> simp_all

/-- The lines written of a text without empty lines are read back. -/
theorem sdpLines_kept {lines : List (Bytes × Bytes)} (h : ∀ e ∈ lines, IsLine e ∧ e.1 ≠ []) :
    sdpLines (lines.flatMap kept) = lines.filter fun e ↦ !dropLine e.1 := by
  rw [flatMap_kept]
  exact sdpLines_join fun e he ↦ h e (List.mem_filter.mp he).1

/-- What is written of lines ends where a line does. -/
theorem terminated_kept {lines : List (Bytes × Bytes)} (h : ∀ e ∈ lines, IsLine e) :
    Terminated (lines.flatMap kept) := by
  induction lines with
  | nil => simp [Terminated]
  | cons e lines ih =>
    intro b hb
    rw [List.flatMap_cons, Option.mem_def, List.getLast?_append] at hb
    cases hl : (lines.flatMap kept).getLast? with
    | some c =>
      rw [hl] at hb
      exact ih (fun e' he ↦ h e' (List.mem_cons_of_mem _ he)) b (hl.trans hb)
    | none =>
      rw [hl, Option.none_or, kept] at hb
      split at hb
      · cases hb
      · rw [List.getLast?_append] at hb
        rcases (h e (List.mem_cons_self ..)).eol with heol | heol | heol
        all_goals
          rw [heol] at hb
          cases hb
          simp

end Kitty.Sdp
