import Kitty.Ap2p.Config
import Kitty.Base.Run

/-!
# From the source to the viewer

The pump reads the answer of the local HTTP source, whose header it skips, and sends the body on an
SRT socket; `src/ap2p/srt_thread.c:308–331, 429–444, 472–523`. The header is looked for byte by
byte while it arrives, so that the end of it may be cut anywhere, and each block may need several
sends. Two flags are read between the steps: the shutdown flag, and the one that a newer request
sets.
-/

namespace Kitty.Srt

open Kitty.Base
open Kitty.Ap2p (atoi)
open Kitty.Signal (isDigit isSpace)

/-! ### The program -/

/-- `LOCAL_BUFFER_SIZE`. -/
def localBufferSize : Nat := 256 * 1024

/-- `SRT_PAYLOAD_SIZE`. -/
def srtPayloadSize : Nat := 1316

/-- The loop of `read_http_response_headers` over the bytes that have arrived, of which the first
has index `i`: `*body_off` when the header ends there, and `prev_was_le`. -/
def scanHeader : Bytes → Nat → Bool → Option Nat × Bool
  | [], _, prevWasLe => (none, prevWasLe)
  | c :: rest, i, prevWasLe =>
    if c = LF then if prevWasLe then (some (i + 1), prevWasLe) else scanHeader rest (i + 1) true
    else scanHeader rest (i + 1) (if c ≠ CR then false else prevWasLe)

/-- Where `pump_src_to_srt` is: before `send_http_get`; in the `recv` for the header, with what is
in the buffer; at the condition of the loop of `srt_pump_bytes`, with the block and the offset; in
`srt_send`; at the condition of its own loop; in `poll`; in its `recv`; returned. A block knows what
is returned when it cannot be sent. -/
inductive SrcPhase where
  | request
  | header (buf : Bytes) (prevWasLe : Bool)
  | block (onError : Int) (buf : Bytes) (off : Nat)
  | sending (onError : Int) (buf : Bytes) (off : Nat)
  | top
  | polling
  | receiving
  | returned (rc : Int)
  deriving DecidableEq

/-- The pump between two steps, with all that it has received and all that it has sent, and where
it found the end of the header. The last three are not read by any step. -/
structure SrcPump where
  phase : SrcPhase
  received : Bytes
  sent : Bytes
  bodyOff : Option Nat
  deriving DecidableEq

/-- What `poll` returns: an event to read, none in time, a signal, an error, or a closed source. -/
inductive PollResult where
  | ready
  | timeout
  | interrupted
  | failed
  | hangup
  deriving DecidableEq

/-- What the calls of the pump return: `send_http_get`; `recv` with bytes, or 0, `EAGAIN` or another
error; `srt_send` with a length or an error; `poll`. A check of a loop condition returns nothing. -/
inductive SrcEvent where
  | request (ok : Bool)
  | recv (bytes : Bytes)
  | recvClosed
  | recvAgain
  | recvError
  | check
  | send (rc : Nat)
  | sendError
  | poll (result : PollResult)
  deriving DecidableEq

namespace SrcPump

/-- At the start, with a path to ask the source for. -/
def start : SrcPump where
  phase := .request
  received := []
  sent := []
  bodyOff := none

/-- At the start, with a source that sends no header. -/
def startRaw : SrcPump := { start with phase := .top }

/-- The end of `read_http_response_headers` and what follows it: the answer must be HTTP with
status 200, and the bytes behind the header are sent when there are any. -/
def headerRead (st : SrcPump) (buf : Bytes) (off : Nat) : SrcPump :=
  if buf.length < 12 ∨ buf.take 7 ≠ lit "HTTP/1." then { st with phase := .returned (-1) }
  else if atoi (buf.drop 9) ≠ 200 then { st with phase := .returned (-1) }
  else
    { st with
      phase := if 0 < buf.length - off then .block (-1) (buf.drop off) 0 else .top
      bodyOff := some off }

/-- A step of `pump_src_to_srt`, with the flags as they are. -/
def step (shutdown cancel : Bool) (st : SrcPump) (e : SrcEvent) : Option SrcPump :=
  match st.phase, e with
  | .request, .request ok =>
    some { st with phase := if ok then .header [] false else .returned (-1) }
  | .header buf prevWasLe, .recv bytes =>
    if bytes ≠ [] ∧ bytes.length ≤ localBufferSize - buf.length then
      let st := { st with received := st.received ++ bytes }
      match scanHeader bytes buf.length prevWasLe with
      | (some off, _) => some (st.headerRead (buf ++ bytes) off)
      | (none, prevWasLe) =>
        if (buf ++ bytes).length < localBufferSize then
          some { st with phase := .header (buf ++ bytes) prevWasLe }
        else some { st with phase := .returned (-1) }
    else none
  | .header _ _, .recvClosed | .header _ _, .recvAgain | .header _ _, .recvError =>
    some { st with phase := .returned (-1) }
  | .block onError buf off, .check =>
    some { st with
      phase := if off < buf.length ∧ shutdown = false then .sending onError buf off else .top }
  | .sending onError buf off, .send rc =>
    if 1 ≤ rc ∧ rc ≤ min (buf.length - off) srtPayloadSize then
      some { st with
        phase := .block onError buf (off + rc)
        sent := st.sent ++ (buf.drop off).take rc }
    else none
  | .sending onError _ _, .sendError => some { st with phase := .returned onError }
  | .top, .check =>
    some { st with phase := if shutdown = false ∧ cancel = false then .polling else .returned 0 }
  | .polling, .poll result =>
    some { st with
      phase := match result with
        | .ready => .receiving
        | .timeout | .interrupted => .top
        | .failed | .hangup => .returned 0 }
  | .receiving, .recv bytes =>
    if bytes ≠ [] ∧ bytes.length ≤ localBufferSize then
      some { st with phase := .block 0 bytes 0, received := st.received ++ bytes }
    else none
  | .receiving, .recvAgain => some { st with phase := .top }
  | .receiving, .recvClosed | .receiving, .recvError => some { st with phase := .returned 0 }
  | _, _ => none

end SrcPump

/-- The pump and the flags it reads. -/
structure PumpRun where
  shutdown : Bool
  cancel : Bool
  src : SrcPump
  deriving DecidableEq

/-- A flag is set by another thread, or the pump takes a step. -/
inductive PumpRunEvent where
  | setShutdown
  | setCancel
  | src (e : SrcEvent)

namespace PumpRun

/-- The pump at its start. -/
def start : PumpRun where
  shutdown := false
  cancel := false
  src := .start

/-- One step of either. -/
def step (w : PumpRun) : PumpRunEvent → Option PumpRun
  | .setShutdown => some { w with shutdown := true }
  | .setCancel => some { w with cancel := true }
  | .src e => (w.src.step w.shutdown w.cancel e).map fun src ↦ { w with src }

end PumpRun

/-! ### Answers -/

/-- The header of an answer with status 200: its lines with their carriage returns, up to the blank
one. -/
structure HttpHeader where
  version : UInt8
  reason : Bytes
  fields : List Bytes
  blank : Bytes

namespace HttpHeader

/-- The status line. -/
def statusLine (h : HttpHeader) : Bytes :=
  lit "HTTP/1." ++ h.version :: 32 :: (lit "200" ++ h.reason)

/-- The text of the header. -/
def text (h : HttpHeader) : Bytes :=
  h.statusLine ++ LF :: (h.fields.flatMap (· ++ [LF]) ++ (h.blank ++ [LF]))

/-- The code ends with its third digit, no line but the last is blank, and no line goes over its
end. -/
structure WellFormed (h : HttpHeader) : Prop where
  version : h.version ≠ LF
  code : ∀ b ∈ h.reason.head?, isDigit b = false
  reason : LF ∉ h.reason
  fields : ∀ field ∈ h.fields, LF ∉ field ∧ ∃ b ∈ field, b ≠ CR
  blank : ∀ b ∈ h.blank, b = CR

end HttpHeader

/-! ### The end of the header -/

/-- A buffer is scanned as it arrives, with what the bytes before have left. -/
theorem scanHeader_append (a b : Bytes) (i : Nat) (prevWasLe : Bool) :
    scanHeader (a ++ b) i prevWasLe =
      match scanHeader a i prevWasLe with
      | (some off, prevWasLe) => (some off, prevWasLe)
      | (none, prevWasLe) => scanHeader b (i + a.length) prevWasLe := by
  induction a generalizing i prevWasLe with
  | nil => rfl
  | cons c a ih =>
    have hlen : i + (c :: a).length = i + 1 + a.length := by
      rw [List.length_cons]
      omega
    rw [List.cons_append, scanHeader, scanHeader, hlen]
    split
    · split
      · rfl
      · exact ih _ _
    · exact ih _ _

/-- The header ends among the bytes that have arrived. -/
theorem le_of_scanHeader {a : Bytes} {i off : Nat} {prevWasLe : Bool}
    (h : (scanHeader a i prevWasLe).1 = some off) : off ≤ i + a.length := by
  induction a generalizing i prevWasLe with
  | nil => cases h
  | cons c a ih =>
    rw [List.length_cons]
    rw [scanHeader] at h
    split at h
    · split at h
      · cases h
        omega
      · have hle := ih h
        omega
    · have hle := ih h
      omega

/-- A line without its end: only a blank one leaves the mark of the line end before it. -/
theorem scanHeader_line {line : Bytes} (h : LF ∉ line) (i : Nat) (prevWasLe : Bool) :
    scanHeader line i prevWasLe = (none, prevWasLe && line.all (· == CR)) := by
  induction line generalizing i prevWasLe with
  | nil => simp [scanHeader]
  | cons c line ih =>
    have hc : c ≠ LF := fun heq ↦ h (heq ▸ List.mem_cons_self)
    rw [scanHeader, if_neg hc, ih fun hl ↦ h (List.mem_cons_of_mem _ hl), List.all_cons]
    by_cases hcr : c = CR
    · simp [hcr]
    · simp [hcr]

/-- Lines that are not blank leave the mark of the last line end. -/
theorem scanHeader_lines {lines : List Bytes}
    (h : ∀ line ∈ lines, LF ∉ line ∧ ∃ b ∈ line, b ≠ CR) (i : Nat) :
    scanHeader (lines.flatMap (· ++ [LF])) i true = (none, true) := by
  induction lines generalizing i with
  | nil => rfl
  | cons line lines ih =>
    obtain ⟨hline, b, hb, hne⟩ := h line List.mem_cons_self
    have hblank : line.all (· == CR) = false := by
      rw [List.all_eq_false]
      exact ⟨b, hb, by simpa using hne⟩
    rw [List.flatMap_cons, List.append_assoc, scanHeader_append, scanHeader_line hline, hblank]
    exact ih (fun l hl ↦ h l (List.mem_cons_of_mem _ hl)) _

/-- The header ends behind its blank line. -/
theorem HttpHeader.WellFormed.scanHeader_text {h : HttpHeader} (hwf : h.WellFormed) :
    (scanHeader h.text 0 false).1 = some h.text.length := by
  have hstatus : LF ∉ h.statusLine := by
    intro hmem
    obtain hmem | hmem := List.mem_append.mp hmem
    · exact absurd hmem (by decide)
    obtain hmem | hmem := List.mem_cons.mp hmem
    · exact hwf.version hmem.symm
    obtain hmem | hmem := List.mem_cons.mp hmem
    · exact absurd hmem (by decide)
    obtain hmem | hmem := List.mem_append.mp hmem
    · exact absurd hmem (by decide)
    · exact hwf.reason hmem
  have hblank : LF ∉ h.blank := fun hmem ↦ absurd (hwf.blank LF hmem) (by decide)
  have hcr : h.blank.all (· == CR) = true := by
    rw [List.all_eq_true]
    exact fun b hb ↦ by simpa using hwf.blank b hb
  rw [HttpHeader.text, scanHeader_append, scanHeader_line hstatus, Bool.false_and]
  dsimp only
  rw [scanHeader, if_pos rfl, if_neg Bool.false_ne_true, scanHeader_append,
    scanHeader_lines hwf.fields]
  dsimp only
  rw [scanHeader_append, scanHeader_line hblank, hcr]
  change some _ = some _
  simp only [List.length_append, List.length_cons, List.length_nil]
  exact congrArg some (by omega)

/-- So a part of it has no end in it. -/
theorem scanHeader_part {header part rest : Bytes}
    (h : (scanHeader header 0 false).1 = some header.length) (hpart : part ++ rest = header)
    (hrest : rest ≠ []) : (scanHeader part 0 false).1 = none := by
  cases hscan : scanHeader part 0 false with
  | mk found prevWasLe =>
    cases found with
    | none => rfl
    | some off =>
      have hle := le_of_scanHeader (congrArg Prod.fst hscan)
      rw [← hpart, scanHeader_append, hscan] at h
      have hlen := List.length_pos_iff.mpr hrest
      have hoff := Option.some.inj h
      rw [List.length_append] at hoff
      omega

private theorem atoi_200 {after : Bytes} (h : ∀ b ∈ after.head?, isDigit b = false) :
    atoi (lit "200" ++ after) = 200 := by
  have hdigits : (lit "200" ++ after).takeWhile isDigit = lit "200" := by
    rw [List.takeWhile_append_of_pos (by decide +kernel)]
    cases after with
    | nil => rfl
    | cons b after => rw [List.takeWhile_cons_of_neg (by simp [h b rfl]), List.append_nil]
  change (max (-2 ^ 31) (min (2 ^ 31 - 1) (Kitty.Signal.signedValue false
    ((lit "200" ++ after).takeWhile isDigit))) : Int) = 200
  rw [hdigits]
  decide

/-- The status of the answer is accepted, whatever follows the header. -/
theorem HttpHeader.WellFormed.accepted {h : HttpHeader} (hwf : h.WellFormed) (rest : Bytes) :
    12 ≤ (h.text ++ rest).length ∧ (h.text ++ rest).take 7 = lit "HTTP/1." ∧
      atoi ((h.text ++ rest).drop 9) = 200 := by
  obtain ⟨more, hmore⟩ : ∃ more, h.text ++ rest =
      lit "HTTP/1." ++ h.version :: 32 :: (lit "200" ++ (h.reason ++ LF :: more)) := by
    refine ⟨h.fields.flatMap (· ++ [LF]) ++ (h.blank ++ [LF]) ++ rest, ?_⟩
    simp only [HttpHeader.text, HttpHeader.statusLine, List.append_assoc, List.cons_append]
  have hdrop : (h.text ++ rest).drop 9 = lit "200" ++ (h.reason ++ LF :: more) := by
    rw [hmore]
    rfl
  rw [hdrop, hmore]
  refine ⟨?_, rfl, atoi_200 fun b hb ↦ ?_⟩
  · have hhttp : (lit "HTTP/1.").length = 7 := rfl
    have hcode : (lit "200").length = 3 := rfl
    simp only [List.length_append, List.length_cons, hhttp, hcode]
    omega
  · cases hreason : h.reason with
    | nil =>
      rw [hreason] at hb
      cases hb
      decide
    | cons c reason =>
      rw [hreason] at hb
      cases hb
      exact hwf.code b (by rw [hreason]; rfl)

/-! ### What a step can be -/

/-- The bytes an event brings. -/
def SrcEvent.bytes : SrcEvent → Bytes
  | .recv bytes => bytes
  | _ => []

/-- What a step of the pump does. -/
inductive SrcMove (shutdown cancel : Bool) (st : SrcPump) : SrcEvent → SrcPump → Prop
  | asked (hphase : st.phase = .request) :
      SrcMove shutdown cancel st (.request true) { st with phase := .header [] false }
  | notAsked (hphase : st.phase = .request) :
      SrcMove shutdown cancel st (.request false) { st with phase := .returned (-1) }
  | partHeader {buf bytes : Bytes} {prevWasLe le : Bool} (hphase : st.phase = .header buf prevWasLe)
      (hne : bytes ≠ []) (hfit : bytes.length ≤ localBufferSize - buf.length)
      (hscan : scanHeader bytes buf.length prevWasLe = (none, le)) :
      SrcMove shutdown cancel st (.recv bytes) { st with
        received := st.received ++ bytes
        phase := if (buf ++ bytes).length < localBufferSize then .header (buf ++ bytes) le
          else .returned (-1) }
  | headerEnd {buf bytes : Bytes} {prevWasLe le : Bool} {off : Nat}
      (hphase : st.phase = .header buf prevWasLe)
      (hne : bytes ≠ []) (hfit : bytes.length ≤ localBufferSize - buf.length)
      (hscan : scanHeader bytes buf.length prevWasLe = (some off, le)) :
      SrcMove shutdown cancel st (.recv bytes)
        ({ st with received := st.received ++ bytes }.headerRead (buf ++ bytes) off)
  | lost {e : SrcEvent} {buf : Bytes} {prevWasLe : Bool} (hphase : st.phase = .header buf prevWasLe)
      (hnone : e.bytes = []) : SrcMove shutdown cancel st e { st with phase := .returned (-1) }
  | nextSend {onError : Int} {buf : Bytes} {off : Nat} (hphase : st.phase = .block onError buf off)
      (hmore : off < buf.length) :
      SrcMove shutdown cancel st .check { st with phase := .sending onError buf off }
  | blockEnd {onError : Int} {buf : Bytes} {off : Nat} (hphase : st.phase = .block onError buf off)
      (hend : shutdown = false → buf.length ≤ off) :
      SrcMove shutdown cancel st .check { st with phase := .top }
  | sent {onError : Int} {buf : Bytes} {off rc : Nat} (hphase : st.phase = .sending onError buf off)
      (hpos : 1 ≤ rc) (hle : rc ≤ buf.length - off) :
      SrcMove shutdown cancel st (.send rc) { st with
        phase := .block onError buf (off + rc)
        sent := st.sent ++ (buf.drop off).take rc }
  | sendFailed {onError : Int} {buf : Bytes} {off : Nat}
      (hphase : st.phase = .sending onError buf off) :
      SrcMove shutdown cancel st .sendError { st with phase := .returned onError }
  | goesOn (hphase : st.phase = .top) (hrun : shutdown = false) (hcancel : cancel = false) :
      SrcMove shutdown cancel st .check { st with phase := .polling }
  | stops (hphase : st.phase = .top) :
      SrcMove shutdown cancel st .check { st with phase := .returned 0 }
  | ready (hphase : st.phase = .polling) :
      SrcMove shutdown cancel st (.poll .ready) { st with phase := .receiving }
  | nothing {e : SrcEvent} (hphase : st.phase = .polling ∨ st.phase = .receiving)
      (hnone : e.bytes = []) : SrcMove shutdown cancel st e { st with phase := .top }
  | ended {e : SrcEvent} (hphase : st.phase = .polling ∨ st.phase = .receiving)
      (hnone : e.bytes = []) : SrcMove shutdown cancel st e { st with phase := .returned 0 }
  | taken {bytes : Bytes} (hphase : st.phase = .receiving)
      (hfit : bytes.length ≤ localBufferSize) : SrcMove shutdown cancel st (.recv bytes)
        { st with phase := .block 0 bytes 0, received := st.received ++ bytes }

theorem SrcPump.move_of_step {shutdown cancel : Bool} {st st' : SrcPump} {e : SrcEvent}
    (h : st.step shutdown cancel e = some st') : SrcMove shutdown cancel st e st' := by
  unfold step at h
  cases hphase : st.phase with
  | request =>
    rw [hphase] at h
    cases e with
    | request ok =>
      cases h
      cases ok with
      | true => exact .asked hphase
      | false => exact .notAsked hphase
    | _ => cases h
  | header buf prevWasLe =>
    rw [hphase] at h
    cases e with
    | recv bytes =>
      dsimp only at h
      split at h
      · next hbytes =>
        split at h
        · next hscan =>
          cases h
          rw [← hphase]
          exact .headerEnd hphase hbytes.1 hbytes.2 hscan
        · next hscan =>
          have hpart :=
            @SrcMove.partHeader shutdown cancel st _ _ _ _ hphase hbytes.1 hbytes.2 hscan
          split at h
          · next hroom =>
            cases h
            rw [if_pos hroom] at hpart
            exact hpart
          · next hroom =>
            cases h
            rw [if_neg hroom] at hpart
            exact hpart
      · cases h
    | recvClosed | recvAgain | recvError =>
      cases h
      exact .lost hphase rfl
    | _ => cases h
  | block onError buf off =>
    rw [hphase] at h
    cases e with
    | check =>
      cases h
      by_cases hmore : off < buf.length ∧ shutdown = false
      · rw [if_pos hmore]
        exact .nextSend hphase hmore.1
      · rw [if_neg hmore]
        exact .blockEnd hphase fun hrun ↦ Nat.le_of_not_lt fun hlt ↦ hmore ⟨hlt, hrun⟩
    | _ => cases h
  | sending onError buf off =>
    rw [hphase] at h
    cases e with
    | send rc =>
      dsimp only at h
      split at h
      · next hrc =>
        cases h
        exact .sent hphase hrc.1 (hrc.2.trans (Nat.min_le_left _ _))
      · cases h
    | sendError =>
      cases h
      exact .sendFailed hphase
    | _ => cases h
  | top =>
    rw [hphase] at h
    cases e with
    | check =>
      cases h
      by_cases hmore : shutdown = false ∧ cancel = false
      · rw [if_pos hmore]
        exact .goesOn hphase hmore.1 hmore.2
      · rw [if_neg hmore]
        exact .stops hphase
    | _ => cases h
  | polling =>
    rw [hphase] at h
    cases e with
    | poll result =>
      cases h
      cases result with
      | ready => exact .ready hphase
      | timeout | interrupted => exact .nothing (.inl hphase) rfl
      | failed | hangup => exact .ended (.inl hphase) rfl
    | _ => cases h
  | receiving =>
    rw [hphase] at h
    cases e with
    | recv bytes =>
      dsimp only at h
      split at h
      · next hbytes =>
        cases h
        exact .taken hphase hbytes.2
      · cases h
    | recvAgain =>
      cases h
      exact .nothing (.inr hphase) rfl
    | recvClosed | recvError =>
      cases h
      exact .ended (.inr hphase) rfl
    | _ => cases h
  | returned rc =>
    rw [hphase] at h
    cases e <;> cases h

/-- Reading the header changes the place and what is known of its end. -/
private theorem SrcPump.received_headerRead (st : SrcPump) (buf : Bytes) (off : Nat) :
    (st.headerRead buf off).received = st.received := by
  unfold headerRead
  split
  · rfl
  · split <;> rfl

/-- Nothing that was received is forgotten. -/
theorem SrcPump.received_step {shutdown cancel : Bool} {st st' : SrcPump} {e : SrcEvent}
    (h : st.step shutdown cancel e = some st') : st'.received = st.received ++ e.bytes := by
  cases move_of_step h with
  | partHeader | taken => rfl
  | headerEnd => exact received_headerRead _ _ _
  | lost hphase hnone | nothing hphase hnone | ended hphase hnone =>
    rw [hnone]
    exact (List.append_nil _).symm
  | _ => exact (List.append_nil _).symm

/-! ### What every step keeps -/

/-- What is known of the pump in its phase, when the header of the answer is `header`. -/
def SrcPump.Good (header : Bytes) (shutdown : Bool) (st : SrcPump) : Prop :=
  match st.phase with
  | .request => st.received = [] ∧ st.sent = [] ∧ st.bodyOff = none
  | .header buf prevWasLe => st.received = buf ∧ scanHeader buf 0 false = (none, prevWasLe) ∧
      st.sent = [] ∧ st.bodyOff = none
  | .block _ buf off | .sending _ buf off => header.length ≤ st.received.length ∧
      st.bodyOff = some header.length ∧ off ≤ buf.length ∧
      st.sent ++ buf.drop off = st.received.drop header.length
  | .top => header.length ≤ st.received.length ∧ st.bodyOff = some header.length ∧
      st.sent <+: st.received.drop header.length ∧
      (shutdown = false → st.sent = st.received.drop header.length)
  | .polling | .receiving => header.length ≤ st.received.length ∧
      st.bodyOff = some header.length ∧ st.sent = st.received.drop header.length
  | .returned _ => st.sent <+: st.received.drop header.length ∧
      st.bodyOff = if header.length ≤ st.received.length then some header.length else none

section Invariant

variable {header body : Bytes}

/-- Waiting for the source, all that has arrived of the body was sent. -/
private theorem SrcPump.Good.waiting {shutdown : Bool} {st : SrcPump}
    (hgood : st.Good header shutdown) (hphase : st.phase = .polling ∨ st.phase = .receiving) :
    header.length ≤ st.received.length ∧ st.bodyOff = some header.length ∧
      st.sent = st.received.drop header.length := by
  rw [Good] at hgood
  rcases hphase with hphase | hphase <;> rw [hphase] at hgood <;> exact hgood

/-- The part of the header that has arrived. -/
private theorem part_of_header {received : Bytes} (h : received <+: header ++ body)
    (hlen : received.length < header.length) : ∃ rest, received ++ rest = header ∧ rest ≠ [] := by
  have hpre : received <+: header := by
    obtain ⟨t, ht⟩ := h
    exact List.prefix_of_prefix_length_le ⟨t, ht⟩ (List.prefix_append _ _) (Nat.le_of_lt hlen)
  obtain ⟨rest, hrest⟩ := hpre
  refine ⟨rest, hrest, fun hnil ↦ ?_⟩
  rw [hnil, List.append_nil] at hrest
  rw [hrest] at hlen
  exact Nat.lt_irrefl _ hlen

/-- The whole header, and the part of the body that has arrived. -/
private theorem header_of_part {received : Bytes} (h : received <+: header ++ body)
    (hlen : header.length ≤ received.length) : ∃ rest, received = header ++ rest := by
  obtain ⟨rest, hrest⟩ := List.prefix_of_prefix_length_le (List.prefix_append header body) h hlen
  exact ⟨rest, hrest.symm⟩

/-- Where the header ends depends only on how much has arrived. -/
theorem HttpHeader.WellFormed.scanHeader_prefix {h : HttpHeader} (hwf : h.WellFormed)
    {received : Bytes} (hpre : received <+: h.text ++ body) :
    (scanHeader received 0 false).1 =
      if h.text.length ≤ received.length then some h.text.length else none := by
  by_cases hlen : h.text.length ≤ received.length
  · obtain ⟨rest, hrest⟩ := header_of_part hpre hlen
    have htext := hwf.scanHeader_text
    rw [if_pos hlen, hrest, scanHeader_append]
    cases hscan : scanHeader h.text 0 false with
    | mk found le =>
      rw [hscan] at htext
      cases htext
      rfl
  · obtain ⟨rest, hrest, hne⟩ := part_of_header hpre (Nat.lt_of_not_le hlen)
    rw [if_neg hlen, scanHeader_part hwf.scanHeader_text hrest hne]

/-- The answer is accepted, and the body that came with the end of the header is to be sent. -/
private theorem SrcPump.good_headerRead {h : HttpHeader} (hwf : h.WellFormed) {shutdown : Bool}
    {st : SrcPump} (hsent : st.sent = []) (hpre : st.received <+: h.text ++ body)
    (hlen : h.text.length ≤ st.received.length) :
    (st.headerRead st.received h.text.length).Good h.text shutdown := by
  obtain ⟨rest, hrest⟩ := header_of_part hpre hlen
  obtain ⟨htwelve, hhttp, hstatus⟩ := hwf.accepted rest
  rw [← hrest] at htwelve hhttp hstatus
  rw [headerRead, if_neg (by rw [not_or, not_lt, not_not]; exact ⟨htwelve, hhttp⟩),
    if_neg (not_not_intro hstatus)]
  unfold Good
  dsimp only
  by_cases hbody : 0 < st.received.length - h.text.length
  · rw [if_pos hbody]
    exact ⟨hlen, rfl, Nat.zero_le _, by rw [hsent]; rfl⟩
  · rw [if_neg hbody]
    have hnil : st.received.drop h.text.length = [] := by
      rw [List.drop_eq_nil_iff]
      omega
    exact ⟨hlen, rfl, by rw [hsent]; exact List.nil_prefix, fun _ ↦ by rw [hsent, hnil]⟩

/-- Every step of the pump keeps what is known of it. -/
theorem SrcPump.Good.step {h : HttpHeader} (hwf : h.WellFormed)
    (hfit : h.text.length ≤ localBufferSize) {shutdown cancel : Bool} {st st' : SrcPump}
    {e : SrcEvent} (hgood : st.Good h.text shutdown)
    (hstep : st.step shutdown cancel e = some st') (hpre : st'.received <+: h.text ++ body) :
    st'.Good h.text shutdown := by
  have hreceived := received_step hstep
  cases move_of_step hstep with
  | asked hphase =>
    rw [Good, hphase] at hgood
    obtain ⟨hnone, hsent, hoff⟩ := hgood
    exact ⟨hnone, rfl, hsent, hoff⟩
  | notAsked hphase =>
    rw [Good, hphase] at hgood
    obtain ⟨hnone, hsent, hoff⟩ := hgood
    have htext := (hwf.accepted []).1
    rw [List.append_nil] at htext
    refine ⟨by rw [hsent]; exact List.nil_prefix, ?_⟩
    rw [hnone, hoff, if_neg (by rw [List.length_nil]; omega)]
  | @partHeader buf bytes prevWasLe le hphase hne hroom hscan =>
    rw [Good, hphase] at hgood
    obtain ⟨hbuf, hbefore, hsent, hoff⟩ := hgood
    have hall : scanHeader (buf ++ bytes) 0 false = (none, le) := by
      rw [scanHeader_append, hbefore, Nat.zero_add]
      exact hscan
    have hend := hwf.scanHeader_prefix hpre
    dsimp only at hend
    rw [hbuf, hall] at hend
    -- The header has not ended, so that there is room for the rest of it.
    have hlen : ¬ h.text.length ≤ (buf ++ bytes).length := by
      intro hle
      rw [if_pos hle] at hend
      cases hend
    rw [if_pos (by omega), hbuf]
    exact ⟨rfl, hall, hsent, hoff⟩
  | @headerEnd buf bytes prevWasLe le off hphase _ hroom hscan =>
    rw [Good, hphase] at hgood
    obtain ⟨hbuf, hbefore, hsent, -⟩ := hgood
    have hall : scanHeader (buf ++ bytes) 0 false = (some off, le) := by
      rw [scanHeader_append, hbefore, Nat.zero_add]
      exact hscan
    rw [received_headerRead] at hpre
    dsimp only at hpre
    have hend := hwf.scanHeader_prefix hpre
    rw [hbuf, hall] at hend
    split at hend
    · next hlen =>
      cases hend
      rw [hbuf] at hpre ⊢
      exact good_headerRead hwf hsent hpre hlen
    · cases hend
  | lost hphase hnone =>
    rw [Good, hphase] at hgood
    obtain ⟨hbuf, hscan, hsent, hoff⟩ := hgood
    have hend := hwf.scanHeader_prefix hpre
    dsimp only at hend
    rw [hbuf, hscan] at hend
    refine ⟨by rw [hsent]; exact List.nil_prefix, ?_⟩
    rw [hoff, hbuf]
    exact hend
  | nextSend hphase hmore =>
    rw [Good, hphase] at hgood
    exact hgood
  | @blockEnd onError buf off hphase hend =>
    rw [Good, hphase] at hgood
    obtain ⟨hlen, hoff, hle, hsent⟩ := hgood
    refine ⟨hlen, hoff, ⟨buf.drop off, hsent⟩, fun hrun ↦ ?_⟩
    rw [List.drop_eq_nil_iff.mpr (hend hrun), List.append_nil] at hsent
    exact hsent
  | sent hphase hpos hrc =>
    rw [Good, hphase] at hgood
    obtain ⟨hlen, hoff, hle, hsent⟩ := hgood
    refine ⟨hlen, hoff, by omega, ?_⟩
    rw [List.append_assoc, ← List.drop_drop, List.take_append_drop]
    exact hsent
  | @sendFailed onError buf off hphase =>
    rw [Good, hphase] at hgood
    obtain ⟨hlen, hoff, -, hsent⟩ := hgood
    exact ⟨⟨buf.drop off, hsent⟩, by rw [if_pos hlen]; exact hoff⟩
  | goesOn hphase hrun hcancel =>
    rw [Good, hphase] at hgood
    obtain ⟨hlen, hoff, -, hall⟩ := hgood
    exact ⟨hlen, hoff, hall hrun⟩
  | stops hphase =>
    rw [Good, hphase] at hgood
    obtain ⟨hlen, hoff, hsent, -⟩ := hgood
    exact ⟨hsent, by rw [if_pos hlen]; exact hoff⟩
  | ready hphase =>
    rw [Good, hphase] at hgood
    exact hgood
  | nothing hphase hnone =>
    obtain ⟨hlen, hoff, hall⟩ := hgood.waiting hphase
    exact ⟨hlen, hoff, by rw [hall], fun _ ↦ hall⟩
  | ended hphase hnone =>
    obtain ⟨hlen, hoff, hall⟩ := hgood.waiting hphase
    exact ⟨by rw [hall], by rw [if_pos hlen]; exact hoff⟩
  | taken hphase hroom =>
    obtain ⟨hlen, hoff, hall⟩ := hgood.waiting (.inr hphase)
    refine ⟨?_, hoff, Nat.zero_le _, ?_⟩
    · rw [List.length_append]
      omega
    · rw [List.drop_zero, List.drop_append_of_le_length hlen, hall]

end Invariant

/-- A flag that is set later takes nothing away. -/
theorem SrcPump.Good.of_shutdown {header : Bytes} {shutdown : Bool} {st : SrcPump}
    (h : st.Good header shutdown) : st.Good header true := by
  unfold Good at h ⊢
  cases hphase : st.phase with
  | top =>
    rw [hphase] at h
    exact ⟨h.1, h.2.1, h.2.2.1, fun hrun ↦ nomatch hrun⟩
  | _ =>
    rw [hphase] at h
    exact h

/-- What is known of the pump holds in every run, as long as what arrives is the answer. -/
theorem good_run {h : HttpHeader} (hwf : h.WellFormed) (hfit : h.text.length ≤ localBufferSize)
    {body : Bytes} {events : List PumpRunEvent} {w : PumpRun}
    (hrun : run PumpRun.step PumpRun.start events = some w) :
    w.src.received <+: h.text ++ body → w.src.Good h.text w.shutdown := by
  apply invariant_of_run PumpRun.step ?_ ?_ hrun
  · intro w e w' hinv hstep hpre
    cases e with
    | setShutdown =>
      cases hstep
      exact (hinv hpre).of_shutdown
    | setCancel =>
      cases hstep
      exact hinv hpre
    | src e =>
      obtain ⟨src, hsrc, rfl⟩ := Option.map_eq_some_iff.mp hstep
      have hreceived := SrcPump.received_step hsrc
      dsimp only at hpre ⊢
      apply (hinv ?_).step hwf hfit hsrc hpre
      exact (List.prefix_append _ _).trans (hreceived ▸ hpre)
  · intro _
    exact ⟨rfl, rfl, rfl⟩

/-- What is sent is a part of what has arrived of the body. -/
theorem SrcPump.Good.sent_prefix {header body : Bytes} {shutdown : Bool} {st : SrcPump}
    (hgood : st.Good header shutdown) (hpre : st.received <+: header ++ body) :
    st.sent <+: body := by
  have hbody : st.received.drop header.length <+: body := by
    have hdrop := List.IsPrefix.drop hpre header.length
    rw [List.drop_left] at hdrop
    exact hdrop
  unfold Good at hgood
  cases hphase : st.phase with
  | request | header =>
    rw [hphase] at hgood
    have hsent : st.sent = [] := by first | exact hgood.2.1 | exact hgood.2.2.1
    rw [hsent]
    exact List.nil_prefix
  | block | sending =>
    rw [hphase] at hgood
    obtain ⟨-, -, -, hsent⟩ := hgood
    exact (List.prefix_append _ _).trans (hsent ▸ hbody)
  | top =>
    rw [hphase] at hgood
    exact hgood.2.2.1.trans hbody
  | polling | receiving =>
    rw [hphase] at hgood
    rw [hgood.2.2]
    exact hbody
  | returned =>
    rw [hphase] at hgood
    exact hgood.1.trans hbody

/-- The pump is at its `recv`, or at what leads back to it with no block in hand. -/
def SrcPhase.atReceive : SrcPhase → Bool
  | .header _ _ | .top | .polling | .receiving => true
  | _ => false

/-- Back at the `recv`, all of the body that has arrived was sent. -/
theorem SrcPump.Good.sent_atReceive {h : HttpHeader} (hwf : h.WellFormed) {body : Bytes}
    {st : SrcPump} (hgood : st.Good h.text false) (hpre : st.received <+: h.text ++ body)
    (hreceive : st.phase.atReceive = true) : st.sent = st.received.drop h.text.length := by
  unfold Good at hgood
  cases hphase : st.phase with
  | header buf prevWasLe =>
    rw [hphase] at hgood
    obtain ⟨hbuf, hscan, hsent, -⟩ := hgood
    have hend := hwf.scanHeader_prefix hpre
    rw [hbuf, hscan] at hend
    rw [hsent, hbuf, eq_comm, List.drop_eq_nil_iff]
    split at hend
    · cases hend
    · omega
  | top =>
    rw [hphase] at hgood
    exact hgood.2.2.2 rfl
  | polling | receiving =>
    rw [hphase] at hgood
    exact hgood.2.2
  | _ =>
    rw [hphase] at hreceive
    cases hreceive

/-- Where the header was found to end depends only on how much has arrived. -/
theorem SrcPump.Good.bodyOff_eq {h : HttpHeader} (hwf : h.WellFormed) {body : Bytes}
    {shutdown : Bool} {st : SrcPump} (hgood : st.Good h.text shutdown)
    (hpre : st.received <+: h.text ++ body) :
    st.bodyOff = if h.text.length ≤ st.received.length then some h.text.length else none := by
  have hend := hwf.scanHeader_prefix hpre
  unfold Good at hgood
  cases hphase : st.phase with
  | request =>
    rw [hphase] at hgood
    obtain ⟨hnone, -, hoff⟩ := hgood
    rw [hoff, ← hend, hnone]
    rfl
  | header buf prevWasLe =>
    rw [hphase] at hgood
    obtain ⟨hbuf, hscan, -, hoff⟩ := hgood
    rw [hoff, ← hend, hbuf, hscan]
  | block | sending | top | polling | receiving =>
    rw [hphase] at hgood
    rw [if_pos hgood.1]
    exact hgood.2.1
  | returned =>
    rw [hphase] at hgood
    exact hgood.2

/-- However the answer is cut into reads and the body into sends, what was sent is the beginning of
the body, and at the `recv` it is all of the body that has arrived, as long as no shutdown was asked
for. The end of the header is found where it is, as soon as it has arrived. -/
theorem pump_exact (h : HttpHeader) (body : Bytes) (hwf : h.WellFormed)
    (hfit : h.text.length ≤ localBufferSize) (events : List PumpRunEvent) (w : PumpRun)
    (hrun : run PumpRun.step PumpRun.start events = some w)
    (hpre : w.src.received <+: h.text ++ body) :
    w.src.sent <+: body ∧
    (w.shutdown = false → w.src.phase.atReceive = true →
      w.src.sent = w.src.received.drop h.text.length) ∧
    w.src.bodyOff =
      if h.text.length ≤ w.src.received.length then some h.text.length else none := by
  have hgood := good_run hwf hfit hrun hpre
  refine ⟨hgood.sent_prefix hpre, fun hshutdown hreceive ↦ ?_, hgood.bodyOff_eq hwf hpre⟩
  rw [hshutdown] at hgood
  exact hgood.sent_atReceive hwf hpre hreceive

/-- An answer of a camera that ends a line without its carriage return. -/
private def sampleHeader : HttpHeader where
  version := 49
  reason := lit " OK\r"
  fields := [lit "Content-Type: video/x-flv\r", lit "Connection: close"]
  blank := [CR]

private theorem sampleHeader_wellFormed : sampleHeader.WellFormed where
  version := by decide
  code := by decide +kernel
  reason := by decide +kernel
  fields := by decide +kernel
  blank := by decide +kernel

/-- The header is cut inside its last line end, the first bytes of the body come with the rest of
it, and a block takes two sends. -/
private def sampleEvents : List PumpRunEvent :=
  [.src (.request true), .src (.recv (sampleHeader.text.take 5)),
    .src (.recv ((sampleHeader.text.drop 5).dropLast)), .src (.recv (LF :: lit "FLV")),
    .src .check, .src (.send 2), .src .check, .src (.send 1), .src .check, .src .check,
    .src (.poll .ready), .src (.recv (lit "abc")), .src .check, .src (.send 3), .src .check,
    .src .check, .src (.poll .ready)]

/-- All of the body that has arrived was sent when the pump receives again, and the header ends
where it is. -/
theorem pump_exact_sample : ∃ w, run PumpRun.step PumpRun.start sampleEvents = some w ∧
    w.src.received = sampleHeader.text ++ lit "FLVabc" ∧ w.src.sent = lit "FLVabc" ∧
    w.src.bodyOff = some sampleHeader.text.length := by
  obtain ⟨w, hrun, hshutdown, hreceive, hreceived⟩ :
      ∃ w, run PumpRun.step PumpRun.start sampleEvents = some w ∧ w.shutdown = false ∧
        w.src.phase.atReceive = true ∧ w.src.received = sampleHeader.text ++ lit "FLVabc" :=
    exists_run PumpRun.step _ (by decide +kernel)
  have hpre : w.src.received <+: sampleHeader.text ++ lit "FLVabcdef" := by
    rw [hreceived, List.prefix_append_right_inj]
    exact ⟨lit "def", rfl⟩
  obtain ⟨-, hsent, hoff⟩ := pump_exact sampleHeader (lit "FLVabcdef") sampleHeader_wellFormed
    (by decide +kernel) sampleEvents w hrun hpre
  rw [hreceived] at hsent hoff
  refine ⟨w, hrun, hreceived, ?_, ?_⟩
  · rw [hsent hshutdown hreceive, List.drop_left]
  · rw [hoff, if_pos (by simp)]

end Kitty.Srt
