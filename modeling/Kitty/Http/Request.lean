import Kitty.Ap2p.Config
import Kitty.Base.Occurs

/-!
# A request of the camera interface

`parse_http_request` on what one `recv` has brought; `src/provider-srt/http_api.h:15–30,186–247,
387–405`. The request line and the headers are searched as C strings, which end at the NUL that
`handle_http_request_thread` puts behind the received bytes at the latest. The body is copied with
the length that the request declares.
-/

namespace Kitty.Http

open Kitty.Base
open Kitty.Signal (isSpace isDigit splitSign signedValue)

/-! ### The memory -/

/-- A byte from the beginning of the buffer on: what has been received, the NUL behind it, and
what else is there in the memory. -/
def byteAt (received : Bytes) (behind : Nat → UInt8) (i : Nat) : UInt8 :=
  if i < received.length then received.getD i NUL
  else if i = received.length then NUL else behind (i - received.length - 1)

/-- A `memcpy` out of the buffer: where it begins, how many bytes it takes, and the size of the
field it fills. A NUL is put behind them. -/
structure Copy where
  src : Nat
  len : Nat
  dest : Nat
  deriving DecidableEq

/-! ### The request -/

/-- `http_request_t`. The strings are without their NUL, and the body is what has been copied. -/
structure HttpRequest where
  method : Bytes
  path : Bytes
  body : Bytes
  apiToken : Bytes
  contentLength : Int
  deriving DecidableEq

/-- The byte between the parts of the request line. -/
def SPACE : UInt8 := 32

/-- The end of a line. -/
def CRLF : Bytes := [CR, LF]

/-- The end of the headers. -/
def blankLine : Bytes := CRLF ++ CRLF

/-- `strchr(s, ' ')`: the text before the first space and behind it. -/
def cutSpace (s : Bytes) : Option (Bytes × Bytes) :=
  match s.dropWhile (· ≠ SPACE) with
  | [] => none
  | _ :: rest => some (s.takeWhile (· ≠ SPACE), rest)

/-- The length of the first line, when there is one. -/
def lineLength (text : Bytes) : Option Nat :=
  (strstr CRLF text).map fun lineEnd ↦ text.length - lineEnd.length

/-- The length of a first line that the buffer for the request line has room for. -/
def fittingLine (text : Bytes) : Option Nat := (lineLength text).filter (· < 512)

/-- The method and the path of a request line that is accepted. -/
def requestLine (text : Bytes) : Option (Bytes × Bytes) := do
  let lineLen ← fittingLine text
  let (method, rest) ← cutSpace (text.take lineLen)
  if 16 ≤ method.length then none
  let (path, _) ← cutSpace rest
  if 256 ≤ path.length then none
  return (method, path)

/-- `atoi` where a `long` has 64 bits: `strtol`, cut to 32 bits. -/
def atoi (text : Bytes) : Int :=
  let (negative, rest) := splitSign (text.dropWhile isSpace)
  Int.bmod (max (-2 ^ 63) (min (2 ^ 63 - 1) (signedValue negative (rest.takeWhile isDigit))))
    (2 ^ 32)

/-- The declared length, between 0 and what the body has room for. -/
def contentLength (text : Bytes) : Int :=
  match strstr (lit "Content-Length:") text with
  | none => 0
  | some header =>
    let cl := atoi (header.drop 15)
    let cl := if cl < 0 then 0 else cl
    if 4095 < cl then 4095 else cl

/-- Where the token of a request stands, and the token. -/
def tokenField (text : Bytes) : Option (Nat × Bytes) := do
  let header ← strstr (lit "X-API-Token:") text
  let value := (header.drop 12).dropWhile (· = SPACE)
  let token := value.takeWhile fun b ↦ b ≠ CR ∧ b ≠ LF
  if 0 < token.length ∧ token.length < 128 then
    some (text.length - value.length, token)
  else none

/-- The copy of the body: where it begins and how many bytes it takes. -/
def bodyCopy (text : Bytes) : Option (Nat × Nat) := do
  let bodyStart ← strstr blankLine text
  if 0 < contentLength text then
    let bodyLen := (contentLength text).toNat
    some (text.length - bodyStart.length + 4, if 4096 ≤ bodyLen then 4095 else bodyLen)
  else none

/-- `parse_http_request`: the request, when it returns 1. -/
def parseHttpRequest (received : Bytes) (behind : Nat → UInt8) : Option HttpRequest := do
  let text := cstr received
  let (method, path) ← requestLine text
  return {
    method, path
    body := match bodyCopy text with
      | none => []
      | some (src, len) => (List.range len).map fun i ↦ byteAt received behind (src + i)
    apiToken := ((tokenField text).map Prod.snd).getD []
    contentLength := contentLength text }

/-- The copies that are made meanwhile. -/
def copies (received : Bytes) : List Copy :=
  let text := cstr received
  (fittingLine text).toList.map (fun lineLen ↦ ⟨0, lineLen, 512⟩) ++
    if (requestLine text).isNone then []
    else (tokenField text).toList.map (fun t ↦ ⟨t.1, t.2.length, 128⟩) ++
      (bodyCopy text).toList.map fun b ↦ ⟨b.1, b.2, 4096⟩

/-! ### What stays inside the received bytes -/

/-- The body a reader would take: what has been received behind the blank line, as far as the
declared length goes. -/
def wantedBody (received : Bytes) : Bytes :=
  match strstr blankLine received with
  | none => []
  | some found => (found.drop 4).take (contentLength (cstr received)).toNat

/-- Every copy takes received bytes and leaves room for a NUL, and a request that is accepted fits
into its fields and has the body that was received. -/
def StaysInside (received : Bytes) (behind : Nat → UInt8) : Prop :=
  (∀ c ∈ copies received, c.src + c.len ≤ received.length ∧ c.len < c.dest) ∧
    ∀ req, parseHttpRequest received behind = some req →
      req.method.length < 16 ∧ req.path.length < 256 ∧ req.apiToken.length < 128 ∧
        req.body.length < 4096 ∧ req.body = wantedBody received

/-! ### Reading the text -/

private theorem length_cstr_le (received : Bytes) : (cstr received).length ≤ received.length :=
  (List.takeWhile_prefix _).length_le

private theorem mem_of_requestLine {text method path : Bytes}
    (h : requestLine text = some (method, path)) : method.length < 16 ∧ path.length < 256 := by
  obtain ⟨lineLen, -, h⟩ := Option.bind_eq_some_iff.mp h
  obtain ⟨⟨method', rest⟩, -, h⟩ := Option.bind_eq_some_iff.mp h
  dsimp only at h
  split at h
  · cases h
  · next hmethod =>
    obtain ⟨⟨path', tail⟩, -, h⟩ := Option.bind_eq_some_iff.mp h
    dsimp only at h
    split at h
    · cases h
    · next hpath =>
      cases h
      exact ⟨Nat.lt_of_not_le hmethod, Nat.lt_of_not_le hpath⟩

/-- The line and the token are taken from the text, and have room. -/
private theorem lineLength_le {text : Bytes} {n : Nat} (h : lineLength text = some n) :
    n ≤ text.length := by
  obtain ⟨lineEnd, -, rfl⟩ := Option.map_eq_some_iff.mp h
  exact Nat.sub_le _ _

private theorem tokenField_le {text token : Bytes} {n : Nat}
    (h : tokenField text = some (n, token)) : n + token.length ≤ text.length ∧ token.length < 128 := by
  obtain ⟨header, hheader, h⟩ := Option.bind_eq_some_iff.mp h
  dsimp only at h
  split at h
  · next hroom =>
    cases h
    refine ⟨?_, hroom.2⟩
    have hvalue : ((header.drop 12).dropWhile (· = SPACE)) <:+ text :=
      ((List.dropWhile_suffix _).trans (List.drop_suffix _ _)).trans (suffix_of_strstr hheader).1
    have htoken := (List.takeWhile_prefix (fun b ↦ decide (b ≠ CR ∧ b ≠ LF))
      (l := (header.drop 12).dropWhile (· = SPACE))).length_le
    have := hvalue.length_le
    omega
  · cases h

/-- The declared length has room in the body. -/
private theorem contentLength_bounds (text : Bytes) :
    0 ≤ contentLength text ∧ contentLength text ≤ 4095 := by
  unfold contentLength
  split
  · decide
  · dsimp only
    split <;> split <;> omega

/-! ### The copy of the body -/

private theorem bodyCopy_eq_some_iff {text : Bytes} {src len : Nat} :
    bodyCopy text = some (src, len) ↔ ∃ found, strstr blankLine text = some found ∧
      0 < contentLength text ∧ src = text.length - found.length + 4 ∧
        len = (contentLength text).toNat := by
  obtain ⟨h0, h4095⟩ := contentLength_bounds text
  have hroom : ¬ 4096 ≤ (contentLength text).toNat := by omega
  unfold bodyCopy
  cases strstr blankLine text with
  | none => simp
  | some found =>
    dsimp only [Option.bind_eq_bind, Option.bind_some]
    rw [if_neg hroom]
    by_cases hpos : 0 < contentLength text
    · simp [hpos, eq_comm]
    · simp [hpos]

/-- What the blank line of the text is among the received bytes. -/
private theorem strstr_received {received found : Bytes}
    (h : strstr blankLine (cstr received) = some found) :
    ∃ before rest, cstr received = before ++ found ∧ received = before ++ (found ++ rest) ∧
      strstr blankLine received = some (found ++ rest) := by
  obtain ⟨rest, hrest⟩ : cstr received <+: received := List.takeWhile_prefix _
  obtain ⟨before, hbefore⟩ := (suffix_of_strstr h).1
  have hreceived := strstr_append h rest (by decide)
  rw [hrest] at hreceived
  refine ⟨before, rest, hbefore.symm, ?_, hreceived⟩
  rw [← List.append_assoc, hbefore, hrest]

/-- A copy of received bytes copies them. -/
private theorem map_byteAt {received : Bytes} (behind : Nat → UInt8) {src len : Nat}
    (h : src + len ≤ received.length) :
    (List.range len).map (fun i ↦ byteAt received behind (src + i)) =
      (received.drop src).take len := by
  apply List.ext_getElem
  · simp only [List.length_map, List.length_range, List.length_take, List.length_drop]
    omega
  · intro i h1 h2
    simp only [List.length_map, List.length_range] at h1
    have hi : src + i < received.length := by omega
    simp [byteAt, hi]

/-- The bytes are copied from where the body begins. -/
private theorem wantedBody_eq {received : Bytes} {src len : Nat}
    (h : bodyCopy (cstr received) = some (src, len)) :
    wantedBody received = (received.drop src).take len := by
  obtain ⟨found, hfound, -, rfl, rfl⟩ := bodyCopy_eq_some_iff.mp h
  obtain ⟨before, rest, htext, hreceived, hraw⟩ := strstr_received hfound
  have hsrc : (cstr received).length - found.length + 4 = before.length + 4 := by
    rw [htext, List.length_append]
    omega
  rw [wantedBody, hraw, hsrc]
  nth_rewrite 3 [hreceived]
  rw [List.drop_append, List.drop_of_length_le (by omega), List.nil_append,
    Nat.add_sub_cancel_left]

private theorem mem_copies_iff {received : Bytes} {c : Copy} : c ∈ copies received ↔
    (∃ n, lineLength (cstr received) = some n ∧ n < 512 ∧ c = ⟨0, n, 512⟩) ∨
      (requestLine (cstr received) ≠ none ∧
        ((∃ n token, tokenField (cstr received) = some (n, token) ∧ c = ⟨n, token.length, 128⟩) ∨
          ∃ src len, bodyCopy (cstr received) = some (src, len) ∧ c = ⟨src, len, 4096⟩)) := by
  unfold copies
  dsimp only
  rw [List.mem_append]
  refine or_congr ?_ ?_
  · simp only [fittingLine, List.mem_map, Option.mem_toList, Option.filter_eq_some_iff,
      decide_eq_true_eq, and_assoc, @eq_comm _ c]
  · cases requestLine (cstr received) with
    | none => simp
    | some line => simp [Option.mem_toList, eq_comm]

/-- Only the copy of the body can leave the received bytes. -/
private theorem copies_inside_iff (received : Bytes) :
    (∀ c ∈ copies received, c.src + c.len ≤ received.length ∧ c.len < c.dest) ↔
      requestLine (cstr received) = none ∨
        ∀ src len, bodyCopy (cstr received) = some (src, len) → src + len ≤ received.length := by
  have hlen := length_cstr_le received
  constructor
  · intro h
    refine or_iff_not_imp_left.mpr fun hrequest src len hcopy ↦ ?_
    exact (h ⟨src, len, 4096⟩ (mem_copies_iff.mpr (.inr ⟨hrequest, .inr ⟨src, len, hcopy, rfl⟩⟩))).1
  · intro h c hc
    rcases mem_copies_iff.mp hc with ⟨n, hn, hroom, rfl⟩ | ⟨hrequest, hc⟩
    · have := lineLength_le hn
      exact ⟨by dsimp only; omega, hroom⟩
    · rcases hc with ⟨n, token, ht, rfl⟩ | ⟨src, len, hcopy, rfl⟩
      · obtain ⟨htext, hroom⟩ := tokenField_le ht
        exact ⟨by dsimp only; omega, hroom⟩
      · refine ⟨(h.resolve_left hrequest) src len hcopy, ?_⟩
        obtain ⟨-, -, -, -, rfl⟩ := bodyCopy_eq_some_iff.mp hcopy
        have := contentLength_bounds (cstr received)
        dsimp only
        omega

/-! ### When the body was received whole -/

/-- The copy of the body ends with the received bytes, or before. -/
private theorem bodyCopy_inside_iff (received : Bytes) :
    (∀ src len, bodyCopy (cstr received) = some (src, len) → src + len ≤ received.length) ↔
      contentLength (cstr received) = 0 ∨ ∀ found, strstr blankLine received = some found →
        blankLine <:+: cstr received →
          4 + (contentLength (cstr received)).toNat ≤ found.length := by
  have hbounds := contentLength_bounds (cstr received)
  have hfoundLength : ∀ {found : Bytes}, strstr blankLine (cstr received) = some found →
      ∃ all, strstr blankLine received = some all ∧
        received.length - all.length = (cstr received).length - found.length ∧
          all.length ≤ received.length := by
    intro found hfound
    obtain ⟨before, rest, htext, hreceived, hraw⟩ := strstr_received hfound
    refine ⟨found ++ rest, hraw, ?_, (suffix_of_strstr hraw).1.length_le⟩
    have hall := congrArg List.length hreceived
    have htextLength := congrArg List.length htext
    simp only [List.length_append] at hall htextLength ⊢
    omega
  constructor
  · intro h
    refine or_iff_not_imp_left.mpr fun hzero all hall hfound ↦ ?_
    obtain ⟨found, hfound⟩ := Option.isSome_iff_exists.mp (isSome_strstr_iff.mpr hfound)
    have hinside := h _ _ (bodyCopy_eq_some_iff.mpr ⟨found, hfound, by omega, rfl, rfl⟩)
    obtain ⟨all', hall', hdiff, hle⟩ := hfoundLength hfound
    cases hall.symm.trans hall'
    omega
  · intro h src len hcopy
    obtain ⟨found, hfound, hpos, rfl, rfl⟩ := bodyCopy_eq_some_iff.mp hcopy
    obtain ⟨all, hall, hdiff, hle⟩ := hfoundLength hfound
    have hroom := (h.resolve_left (by omega)) all hall
      (isSome_strstr_iff.mp (Option.isSome_of_eq_some hfound))
    omega

/-- The body that is copied. -/
private def copiedBody (received : Bytes) (behind : Nat → UInt8) : Bytes :=
  match bodyCopy (cstr received) with
  | none => []
  | some (src, len) => (List.range len).map fun i ↦ byteAt received behind (src + i)

private theorem parse_eq {received method path : Bytes} (behind : Nat → UInt8)
    (h : requestLine (cstr received) = some (method, path)) :
    parseHttpRequest received behind = some
      ⟨method, path, copiedBody received behind,
        ((tokenField (cstr received)).map Prod.snd).getD [], contentLength (cstr received)⟩ := by
  rw [parseHttpRequest]
  dsimp only
  rw [h]
  rfl

private theorem length_token_lt (text : Bytes) :
    (((tokenField text).map Prod.snd).getD []).length < 128 := by
  cases h : tokenField text with
  | none => decide
  | some t => exact (tokenField_le h).2

private theorem length_copiedBody_lt (received : Bytes) (behind : Nat → UInt8) :
    (copiedBody received behind).length < 4096 := by
  unfold copiedBody
  cases h : bodyCopy (cstr received) with
  | none => simp
  | some b =>
    obtain ⟨-, -, -, -, hlen⟩ := bodyCopy_eq_some_iff.mp h
    have := contentLength_bounds (cstr received)
    simp only [List.length_map, List.length_range]
    omega

/-- With a blank line in the text the body is the wanted one when it was received. -/
private theorem copiedBody_of_copy {received : Bytes} (behind : Nat → UInt8) {src len : Nat}
    (h : bodyCopy (cstr received) = some (src, len)) (hinside : src + len ≤ received.length) :
    copiedBody received behind = wantedBody received := by
  rw [wantedBody_eq h, ← map_byteAt behind hinside, copiedBody, h]

/-- Without one no body is taken. -/
private theorem wantedBody_eq_nil_iff {received : Bytes}
    (hpos : 0 < contentLength (cstr received)) : wantedBody received = [] ↔
      ∀ found, strstr blankLine received = some found → found.length = 4 := by
  unfold wantedBody
  cases hfound : strstr blankLine received with
  | none => simp
  | some found =>
    have hlong : 4 ≤ found.length := (suffix_of_strstr hfound).2.length_le
    have hlen : (contentLength (cstr received)).toNat ≠ 0 := by omega
    simp only [List.take_eq_nil_iff, hlen, List.drop_eq_nil_iff, Option.some.injEq,
      forall_eq', false_or]
    omega

end Kitty.Http
