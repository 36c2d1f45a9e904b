import Kitty.Ap2p.Handlers
import Kitty.Base.Run
import Mathlib.Logic.Function.Basic

/-!
# Answers of the camera in the global buffer

Three threads run handlers: the MQTT callback those of the messages that arrive, the startup
thread nine of them once, the keepalive thread two in turn. Nothing keeps them from each other's
buffer between a request and the publish of its answer;
`src/ap2p/legacy_cases.c:61–66, 508–539, 724–774, 2224–2380`.
-/

namespace Kitty.Ap2p

open Kitty.Base

/-- What a buffer holds, and the number of the request when it is an answer of the camera. -/
structure Stored where
  text : Bytes
  source : Option Nat
  deriving DecidableEq

/-- The sanitised content of a buffer. -/
def Stored.sanitized (stored : Stored) : Stored := ⟨sanitizeResponse stored.text, stored.source⟩

/-- A request that was made, the size of the buffer for its answer and what came of it: nothing is
written when the request is not made. -/
structure Asked where
  request : Request
  buffer : Buffer
  answer : Option Bytes
  deriving DecidableEq

/-- The answer in its buffer. -/
def Asked.response (asked : Asked) : Option Bytes := asked.answer.map (fill asked.buffer)

/-- A message that was published, the number of the request whose answer its text comes from, and
of the last request that its handler made before. -/
structure Message where
  caseValue : Int
  text : Bytes
  source : Option Nat
  own : Option Nat
  deriving DecidableEq

/-- A handler that asked the camera publishes the sanitised answer to its own request. -/
def Message.Own (asked : List Asked) (message : Message) : Prop :=
  ∀ n, message.own = some n → message.source = some n ∧
    ∃ response, (asked[n]?).bind Asked.response = some response ∧
      message.text = sanitizeResponse response

/-- The threads that run handlers. -/
inductive Thread where
  | callback
  | startup
  | keepalive
  deriving DecidableEq

/-- A thread inside a handler: what is left to do, its last request and whether it succeeded, and
its array. -/
structure Frame where
  todo : List Op
  own : Option Nat
  ok : Bool
  array : Stored

/-- A thread that begins a handler. -/
def Frame.begin (ops : List Op) (array : Bytes) : Frame := ⟨ops, none, false, ⟨array, none⟩⟩

/-- The process: the global buffer, the requests in their order, the threads, what is left of the
startup cases, whether the keepalive thread goes on with case 0, and what was published. -/
structure Process where
  response : Stored
  asked : List Asked
  frames : Thread → Frame
  pulse : List (List Op)
  beat : Bool
  published : List Message

/-- All three threads are about to begin. -/
def Process.start : Process where
  response := ⟨[], none⟩
  asked := []
  frames := fun _ ↦ .begin [] []
  pulse := runStartupCases
  beat := false
  published := []

/-- How a step turns out: the bytes of the camera's answer that get to the buffer, whether the
transfer succeeds, whether the broker takes the message, and the system info or its fallback. -/
structure Outcome where
  answer : Option Bytes
  succeeds : Bool
  sent : Bool
  info : Bytes

/-- A thread begins its next handler, or takes the next step of the one it is in. -/
inductive ProcessLabel where
  | arrived (arrival : Arrival)
  | pulse
  | beat
  | step (thread : Thread) (outcome : Outcome)

/-- What a thread sees in a buffer. -/
def Frame.read (frame : Frame) (response : Stored) : Buffer → Stored
  | .response => response
  | .array => frame.array

namespace Process

/-- A thread writes to a buffer. -/
def write (w : Process) (thread : Thread) (buffer : Buffer) (stored : Stored) : Process :=
  match buffer with
  | .response => { w with response := stored }
  | .array =>
    { w with frames := Function.update w.frames thread { w.frames thread with array := stored } }

/-- A thread goes on with its handler. -/
def goOn (w : Process) (thread : Thread) (todo : List Op) : Process :=
  { w with frames := Function.update w.frames thread { w.frames thread with todo := todo } }

/-- A thread has asked the camera. -/
def ask (w : Process) (thread : Thread) (asked : Asked) (ok : Bool) : Process :=
  { w with
    asked := w.asked ++ [asked]
    frames := Function.update w.frames thread
      { w.frames thread with own := some w.asked.length, ok := ok } }

/-- `publish_mqtt_message`. -/
def publishMqttMessage (w : Process) (thread : Thread) (stored : Stored) (caseValue : Int)
    (sent : Bool) : Process :=
  if sent then
    { w with
      published := w.published ++
        [⟨caseValue, stored.text, stored.source, (w.frames thread).own⟩] }
  else w

/-- The effect of a step on everything but what its thread goes on with. -/
def effect (w : Process) (thread : Thread) (outcome : Outcome) : Op → Process
  | .request buffer request _ =>
    let asked := w.ask thread ⟨request, buffer, outcome.answer⟩
      (outcome.answer.isSome && outcome.succeeds)
    match outcome.answer with
    | none => asked
    | some answer => asked.write thread buffer ⟨fill buffer answer, some w.asked.length⟩
  | .sanitize buffer =>
    w.write thread buffer ((w.frames thread).read w.response buffer).sanitized
  | .publish buffer caseValue =>
    w.publishMqttMessage thread ((w.frames thread).read w.response buffer) caseValue outcome.sent
  | .publishText text caseValue => w.publishMqttMessage thread ⟨text, none⟩ caseValue outcome.sent
  | .confirm text caseValue =>
    w.publishMqttMessage thread ⟨text, none⟩ caseValue ((w.frames thread).ok && outcome.sent)
  | .systemInfo => { w with response := ⟨outcome.info, none⟩ }

/-- What is left of a handler after a step: nothing when a checked request fails. -/
def remaining (outcome : Outcome) : Op → List Op → List Op
  | .request _ _ true, rest => if outcome.answer.isSome && outcome.succeeds then rest else []
  | _, rest => rest

/-- A thread that is in no handler begins one. -/
def enter (w : Process) (thread : Thread) (ops : List Op) (array : Bytes) : Option Process :=
  if (w.frames thread).todo = [] then
    some { w with frames := Function.update w.frames thread (.begin ops array) }
  else none

/-- One event. -/
def step (w : Process) : ProcessLabel → Option Process
  | .arrived arrival => w.enter .callback (legacyCase arrival) arrival.cleared
  | .pulse =>
    match w.pulse with
    | [] => none
    | ops :: pulse => ({ w with pulse } : Process).enter .startup ops []
  | .beat =>
    ({ w with beat := !w.beat } : Process).enter .keepalive
      (if w.beat then handleCase0 else handleCase34) []
  | .step thread outcome =>
    match (w.frames thread).todo with
    | [] => none
    | op :: rest => some ((w.effect thread outcome op).goOn thread (remaining outcome op rest))

end Process

/-- The step publishes what a buffer holds. -/
def Op.publishes (buffer : Buffer) : Op → Bool
  | .publish b _ => b == buffer
  | _ => false

/-- The thread stands between its request and the publish of the answer out of the global
buffer. -/
def Frame.waits (frame : Frame) : Bool :=
  frame.own.isSome && frame.todo.any (Op.publishes .response)

/-- The answer gets to its buffer, and is sanitised there or has nothing to sanitise in it. -/
def Outcome.Readable (outcome : Outcome) (buffer : Buffer) (rest : List Op) : Prop :=
  ∃ answer ∈ outcome.answer, Op.sanitize buffer ∈ rest ∨
    sanitizeResponse (fill buffer answer) = fill buffer answer

/-- What the next step of a thread may do: nothing is written to the global buffer between the
request and the publish of another thread, an answer that will be published is readable, and a
text is not published in place of an answer. -/
def Process.Allows (w : Process) (thread : Thread) (outcome : Outcome) : List Op → Prop
  | .request buffer request checked :: rest =>
    (buffer = .response → outcome.answer.isSome →
      ∀ other, other ≠ thread → (w.frames other).waits = false) ∧
    ((Process.remaining outcome (.request buffer request checked) rest).any
      (Op.publishes buffer) → outcome.Readable buffer rest)
  | .publishText _ _ :: _ => (w.frames thread).own = none ∨ outcome.sent = false
  | .confirm _ _ :: _ =>
    (w.frames thread).own = none ∨ ((w.frames thread).ok && outcome.sent) = false
  | .systemInfo :: _ => ∀ other, (w.frames other).waits = false
  | _ => True

/-- What is allowed to the thread that takes the step. -/
def Process.Undisturbed (w : Process) : ProcessLabel → Prop
  | .step thread outcome => w.Allows thread outcome (w.frames thread).todo
  | _ => True

instance decidableForallThread {p : Thread → Prop} [DecidablePred p] : Decidable (∀ t, p t) :=
  decidable_of_iff (p .callback ∧ p .startup ∧ p .keepalive)
    ⟨fun h t ↦ by cases t; exacts [h.1, h.2.1, h.2.2], fun h ↦ ⟨h _, h _, h _⟩⟩

instance (outcome : Outcome) (buffer : Buffer) (rest : List Op) :
    Decidable (outcome.Readable buffer rest) :=
  inferInstanceAs (Decidable (∃ answer ∈ outcome.answer, _))

instance (w : Process) (thread : Thread) (outcome : Outcome) :
    (ops : List Op) → Decidable (w.Allows thread outcome ops)
  | [] => isTrue trivial
  | .request .. :: _ => inferInstanceAs (Decidable (_ ∧ _))
  | .sanitize _ :: _ => isTrue trivial
  | .publish _ _ :: _ => isTrue trivial
  | .publishText _ _ :: _ => inferInstanceAs (Decidable (_ ∨ _))
  | .confirm _ _ :: _ => inferInstanceAs (Decidable (_ ∨ _))
  | .systemInfo :: _ => inferInstanceAs (Decidable (∀ _ : Thread, _))

instance (w : Process) : (label : ProcessLabel) → Decidable (w.Undisturbed label)
  | .arrived _ => isTrue trivial
  | .pulse => isTrue trivial
  | .beat => isTrue trivial
  | .step thread outcome =>
    inferInstanceAs (Decidable (w.Allows thread outcome (w.frames thread).todo))

/-- A buffer holds the answer to a request, sanitised or not. -/
def Stored.Answers (stored : Stored) (asked : List Asked) (n : Nat) : Prop :=
  stored.source = some n ∧ ∃ response, (asked[n]?).bind Asked.response = some response ∧
    sanitizeResponse stored.text = sanitizeResponse response

/-- A handler that asked the camera publishes out of a buffer that holds the answer to its own
request, and sanitises it before if that is not done. -/
structure Frame.Inv (frame : Frame) (response : Stored) (asked : List Asked) : Prop where
  shaped : Shaped frame.todo
  answers : ∀ n b c, frame.own = some n → .publish b c ∈ frame.todo →
    (frame.read response b).Answers asked n
  sanitized : ∀ n b c, frame.own = some n → .publish b c ∈ frame.todo →
    .sanitize b ∈ frame.todo ∨
      sanitizeResponse (frame.read response b).text = (frame.read response b).text

/-- All threads do, and so far each message was the handler's own. -/
structure Process.Inv (w : Process) : Prop where
  frames : ∀ thread, (w.frames thread).Inv w.response w.asked
  pulse : ∀ ops ∈ w.pulse, Shaped ops
  published : ∀ message ∈ w.published, message.Own w.asked

/-- Later requests leave the earlier ones as they are. -/
theorem Asked.bind_append {asked extra : List Asked} {n : Nat} {response : Bytes}
    (h : (asked[n]?).bind Asked.response = some response) :
    ((asked ++ extra)[n]?).bind Asked.response = some response := by
  obtain ⟨entry, hentry, hresponse⟩ := Option.bind_eq_some_iff.mp h
  have hlt : n < asked.length := (List.getElem?_eq_some_iff.mp hentry).1
  rw [List.getElem?_append_left hlt, hentry]
  exact hresponse

theorem Stored.Answers.append {stored : Stored} {asked : List Asked} {n : Nat}
    (h : stored.Answers asked n) (extra : List Asked) : stored.Answers (asked ++ extra) n := by
  obtain ⟨hsource, response, hresponse, htext⟩ := h
  exact ⟨hsource, response, Asked.bind_append hresponse, htext⟩

theorem Message.Own.append {message : Message} {asked : List Asked} (h : message.Own asked)
    (extra : List Asked) : message.Own (asked ++ extra) := by
  intro n hn
  obtain ⟨hsource, response, hresponse, htext⟩ := h n hn
  exact ⟨hsource, response, Asked.bind_append hresponse, htext⟩

theorem Stored.Answers.sanitized {stored : Stored} {asked : List Asked} {n : Nat}
    (h : stored.Answers asked n) : stored.sanitized.Answers asked n := by
  obtain ⟨hsource, response, hresponse, htext⟩ := h
  refine ⟨hsource, response, hresponse, ?_⟩
  rw [Stored.sanitized, sanitizeResponse_sanitizeResponse]
  exact htext

theorem Frame.waits_eq_true {frame : Frame} {n : Nat} {c : Int} (hown : frame.own = some n)
    (hmem : .publish .response c ∈ frame.todo) : frame.waits = true := by
  rw [Frame.waits, hown, Option.isSome_some, Bool.true_and, List.any_eq_true]
  exact ⟨_, hmem, rfl⟩

/-- A thread is not disturbed by what others do, unless they write to the global buffer while it
waits. -/
theorem Frame.Inv.mono {frame : Frame} {response response' : Stored} {asked : List Asked}
    (h : frame.Inv response asked)
    (hresponse : frame.waits = false ∨ response' = response ∨ response' = response.sanitized)
    (extra : List Asked) : frame.Inv response' (asked ++ extra) := by
  refine ⟨h.shaped, ?_, ?_⟩
  · intro n b c hown hmem
    have hanswers := (h.answers n b c hown hmem).append extra
    cases b with
    | array => exact hanswers
    | response =>
      obtain hwaits | rfl | rfl := hresponse
      · rw [Frame.waits_eq_true hown hmem] at hwaits
        contradiction
      · exact hanswers
      · exact hanswers.sanitized
  · intro n b c hown hmem
    have hsanitized := h.sanitized n b c hown hmem
    cases b with
    | array => exact hsanitized
    | response =>
      obtain hwaits | rfl | rfl := hresponse
      · rw [Frame.waits_eq_true hown hmem] at hwaits
        contradiction
      · exact hsanitized
      · exact Or.inr (sanitizeResponse_sanitizeResponse _)

/-- A thread that begins has asked nothing. -/
theorem Frame.inv_begin {ops : List Op} (h : Shaped ops) (array : Bytes) (response : Stored)
    (asked : List Asked) : (Frame.begin ops array).Inv response asked :=
  ⟨h, fun _ _ _ hown ↦ (Option.some_ne_none _ hown.symm).elim,
    fun _ _ _ hown ↦ (Option.some_ne_none _ hown.symm).elim⟩

/-- What is left to do does not matter for what is read. -/
theorem Frame.read_todo (frame : Frame) (todo : List Op) (response : Stored) (b : Buffer) :
    ({ frame with todo := todo } : Frame).read response b = frame.read response b := by
  cases b <;> rfl

section Fields

variable (w : Process) (thread : Thread) {other : Thread}

@[simp] private theorem goOn_frames_self (todo : List Op) :
    (w.goOn thread todo).frames thread = { w.frames thread with todo := todo } := by
  simp [Process.goOn]

@[simp] private theorem ask_frames_self (asked : Asked) (ok : Bool) :
    (w.ask thread asked ok).frames thread =
      { w.frames thread with own := some w.asked.length, ok := ok } := by
  simp [Process.ask]

@[simp] private theorem goOn_frames_of_ne (h : other ≠ thread) (todo : List Op) :
    (w.goOn thread todo).frames other = w.frames other := by
  simp [Process.goOn, h]

@[simp] private theorem ask_frames_of_ne (h : other ≠ thread) (asked : Asked) (ok : Bool) :
    (w.ask thread asked ok).frames other = w.frames other := by
  simp [Process.ask, h]

@[simp] private theorem write_frames_of_ne (h : other ≠ thread) (buffer : Buffer)
    (stored : Stored) : (w.write thread buffer stored).frames other = w.frames other := by
  cases buffer <;> simp [Process.write, h]

@[simp] private theorem publish_frames (stored : Stored) (caseValue : Int) (sent : Bool) :
    (w.publishMqttMessage thread stored caseValue sent).frames = w.frames := by
  cases sent <;> rfl

/-- A buffer that was written reads as what was written to it. -/
theorem Process.read_write (buffer : Buffer) (stored : Stored) :
    ((w.write thread buffer stored).frames thread).read
      (w.write thread buffer stored).response buffer = stored := by
  cases buffer <;> simp [Process.write, Frame.read]

/-- The other buffer is not touched. -/
theorem Process.read_write_of_ne {b buffer : Buffer} (h : b ≠ buffer) (stored : Stored) :
    ((w.write thread buffer stored).frames thread).read
      (w.write thread buffer stored).response b = (w.frames thread).read w.response b := by
  cases buffer <;> cases b <;> simp_all [Process.write, Frame.read]

/-- Writing leaves what the thread has to do, its last request and all requests. -/
theorem Process.write_keeps (buffer : Buffer) (stored : Stored) :
    ((w.write thread buffer stored).frames thread).todo = (w.frames thread).todo ∧
      ((w.write thread buffer stored).frames thread).own = (w.frames thread).own ∧
      (w.write thread buffer stored).asked = w.asked ∧
      (w.write thread buffer stored).pulse = w.pulse ∧
      (w.write thread buffer stored).published = w.published := by
  cases buffer <;> simp [Process.write]

end Fields

/-- A step of a thread keeps the invariant when it does for the thread, when what it writes to the
global buffer is waited for by no other thread or is what was there, and when what it publishes
is its own. -/
theorem Process.Inv.of_step {w t : Process} (h : w.Inv) (thread : Thread) {extra : List Asked}
    (hothers : ∀ other, other ≠ thread → t.frames other = w.frames other)
    (hasked : t.asked = w.asked ++ extra) (hpulse : t.pulse = w.pulse)
    (hresponse : ∀ other, other ≠ thread → (w.frames other).waits = false ∨
      t.response = w.response ∨ t.response = w.response.sanitized)
    (hself : (t.frames thread).Inv t.response t.asked)
    (hpublished : ∀ message ∈ t.published, message ∈ w.published ∨ message.Own t.asked) :
    t.Inv := by
  refine ⟨?_, fun ops hops ↦ h.pulse ops (hpulse ▸ hops), ?_⟩
  · intro other
    by_cases hne : other = thread
    · rw [hne]
      exact hself
    · rw [hothers other hne, hasked]
      exact (h.frames other).mono (hresponse other hne) extra
  · intro message hmessage
    obtain hold | hown := hpublished message hmessage
    · rw [hasked]
      exact (h.published message hold).append extra
    · exact hown

/-- A handler goes on with all that is left, or with nothing. -/
theorem Process.remaining_eq (outcome : Outcome) (op : Op) (rest : List Op) :
    Process.remaining outcome op rest = rest ∨ Process.remaining outcome op rest = [] := by
  unfold Process.remaining
  split
  · split
    · exact Or.inl rfl
    · exact Or.inr rfl
  · exact Or.inl rfl

/-- What is left of a handler has its shape. -/
theorem shaped_of_cons {op : Op} {rest : List Op} (h : Shaped (op :: rest)) : Shaped rest := by
  cases op <;> first | exact h | exact h.2

/-- A request that fails is followed by no publish. -/
private theorem inv_unanswered {w : Process} {thread : Thread} {asked : Asked} {ok : Bool}
    {todo : List Op} (h : w.Inv) (hshaped : Shaped todo)
    (hnone : ∀ b c, Op.publish b c ∉ todo) : ((w.ask thread asked ok).goOn thread todo).Inv := by
  refine h.of_step thread (fun other hne ↦ by simp [hne]) rfl rfl (fun _ _ ↦ Or.inr (Or.inl rfl))
    ?_ (fun message hmessage ↦ Or.inl hmessage)
  rw [goOn_frames_self]
  exact ⟨hshaped, fun _ b c _ hmem ↦ (hnone b c hmem).elim,
    fun _ b c _ hmem ↦ (hnone b c hmem).elim⟩

/-- An answer is written to the buffer it is published out of. -/
private theorem inv_answered {w : Process} {thread : Thread} {buffer : Buffer} {request : Request}
    {answer : Bytes} {ok : Bool} {todo : List Op} (h : w.Inv) (hshaped : Shaped todo)
    (halone : buffer = .response → ∀ other, other ≠ thread → (w.frames other).waits = false)
    (hbuffer : ∀ b c, Op.publish b c ∈ todo → b = buffer ∧
      (Op.sanitize buffer ∈ todo ∨ sanitizeResponse (fill buffer answer) = fill buffer answer)) :
    (((w.ask thread ⟨request, buffer, some answer⟩ ok).write thread buffer
      ⟨fill buffer answer, some w.asked.length⟩).goOn thread todo).Inv := by
  generalize hv : w.ask thread ⟨request, buffer, some answer⟩ ok = v
  generalize hstored : (⟨fill buffer answer, some w.asked.length⟩ : Stored) = stored
  obtain ⟨-, hown, hasked, hpulse, hpublished⟩ := v.write_keeps thread buffer stored
  have hentry : v.asked = w.asked ++ [⟨request, buffer, some answer⟩] := hv ▸ rfl
  refine h.of_step thread ?_ (hasked.trans hentry) (hpulse.trans (hv ▸ rfl))
    ?_ ?_ (fun message hmessage ↦ Or.inl ?_)
  · intro other hne
    rw [goOn_frames_of_ne _ _ hne, write_frames_of_ne _ _ hne, ← hv, ask_frames_of_ne _ _ hne]
  · intro other hne
    cases buffer with
    | response => exact Or.inl (halone rfl other hne)
    | array => exact Or.inr (Or.inl (hv ▸ rfl))
  · rw [goOn_frames_self]
    refine ⟨hshaped, ?_, ?_⟩
    · intro n b c hn hmem
      obtain ⟨rfl, -⟩ := hbuffer b c hmem
      change ((v.write thread b stored).frames thread).own = some n at hn
      rw [hown, ← hv, ask_frames_self] at hn
      rw [Frame.read_todo, ← Option.some.inj hn]
      change Stored.Answers (Frame.read _ (v.write thread b stored).response b)
        (v.write thread b stored).asked _
      rw [v.read_write, hasked, hentry, ← hstored]
      exact ⟨rfl, fill b answer, by simp [Asked.response], rfl⟩
    · intro n b c hn hmem
      obtain ⟨rfl, hclean⟩ := hbuffer b c hmem
      rw [Frame.read_todo]
      change _ ∨ sanitizeResponse (Frame.read _ (v.write thread b stored).response b).text =
        (Frame.read _ (v.write thread b stored).response b).text
      rw [v.read_write, ← hstored]
      exact hclean
  · have hpub : v.published = w.published := hv ▸ rfl
    exact hpub ▸ hpublished ▸ hmessage

private theorem inv_request {w : Process} {thread : Thread} {outcome : Outcome} {buffer : Buffer}
    {request : Request} {checked : Bool} {rest : List Op} (h : w.Inv)
    (htodo : (w.frames thread).todo = .request buffer request checked :: rest)
    (hc : w.Allows thread outcome (.request buffer request checked :: rest)) :
    ((w.effect thread outcome (.request buffer request checked)).goOn thread
      (Process.remaining outcome (.request buffer request checked) rest)).Inv := by
  obtain ⟨halone, hreadable⟩ := hc
  have hshaped := (h.frames thread).shaped
  rw [htodo] at hshaped
  generalize htodo' : Process.remaining outcome (.request buffer request checked) rest = todo at *
  have hrest : todo = rest ∨ todo = [] := htodo' ▸ Process.remaining_eq outcome _ rest
  have hshaped' : Shaped todo := by
    obtain rfl | rfl := hrest
    · exact hshaped.2
    · trivial
  -- What is still published comes out of the buffer of the request, and is readable.
  have hbuffer : ∀ b c, Op.publish b c ∈ todo →
      b = buffer ∧ ∃ answer ∈ outcome.answer, Op.sanitize buffer ∈ todo ∨
        sanitizeResponse (fill buffer answer) = fill buffer answer := by
    intro b c hmem
    obtain rfl | rfl := hrest
    · obtain rfl := hshaped.1 b c hmem
      exact ⟨rfl, hreadable (List.any_eq_true.mpr ⟨_, hmem, beq_self_eq_true b⟩)⟩
    · contradiction
  cases hanswer : outcome.answer with
  | none =>
    simp only [Process.effect, hanswer]
    apply inv_unanswered h hshaped'
    intro b c hmem
    obtain ⟨-, answer, hsome, -⟩ := hbuffer b c hmem
    rw [hanswer] at hsome
    contradiction
  | some answer =>
    simp only [Process.effect, hanswer]
    apply inv_answered h hshaped' (fun hb ↦ halone hb (hanswer ▸ rfl))
    intro b c hmem
    obtain ⟨hb, answer', hsome, hclean⟩ := hbuffer b c hmem
    cases hanswer.symm.trans hsome
    exact ⟨hb, hclean⟩

private theorem inv_sanitize {w : Process} {thread : Thread} {buffer : Buffer} {rest : List Op}
    (h : w.Inv) (htodo : (w.frames thread).todo = .sanitize buffer :: rest) :
    ((w.write thread buffer ((w.frames thread).read w.response buffer).sanitized).goOn thread
      rest).Inv := by
  have hframe := h.frames thread
  have hmem' : ∀ op ∈ rest, op ∈ (w.frames thread).todo :=
    fun op hop ↦ htodo ▸ List.mem_cons_of_mem _ hop
  generalize hstored : ((w.frames thread).read w.response buffer).sanitized = stored
  obtain ⟨-, hown, hasked, hpulse, hpublished⟩ := w.write_keeps thread buffer stored
  refine h.of_step thread ?_ (hasked.trans (List.append_nil _).symm) hpulse
    ?_ ?_ (fun message hmessage ↦ Or.inl (hpublished ▸ hmessage))
  · intro other hne
    rw [goOn_frames_of_ne _ _ hne, write_frames_of_ne _ _ hne]
  · intro other _
    cases buffer with
    | response => exact Or.inr (Or.inr hstored.symm)
    | array => exact Or.inr (Or.inl rfl)
  · have hshaped := hframe.shaped
    rw [htodo] at hshaped
    rw [goOn_frames_self]
    refine ⟨hshaped, ?_, ?_⟩
    · intro n b c hn hmem
      rw [Frame.read_todo]
      change Stored.Answers (Frame.read _ (w.write thread buffer stored).response b)
        (w.write thread buffer stored).asked n
      have hanswers := hframe.answers n b c (hown ▸ hn) (hmem' _ hmem)
      rw [hasked]
      by_cases hb : b = buffer
      · rw [hb, w.read_write, ← hstored, ← hb]
        exact hanswers.sanitized
      · rw [w.read_write_of_ne thread hb]
        exact hanswers
    · intro n b c hn hmem
      rw [Frame.read_todo]
      change _ ∨ sanitizeResponse (Frame.read _ (w.write thread buffer stored).response b).text =
        (Frame.read _ (w.write thread buffer stored).response b).text
      by_cases hb : b = buffer
      · rw [hb, w.read_write, ← hstored]
        exact Or.inr (sanitizeResponse_sanitizeResponse _)
      · rw [w.read_write_of_ne thread hb]
        have hsanitized := hframe.sanitized n b c (hown ▸ hn) (hmem' _ hmem)
        rw [htodo] at hsanitized
        simpa [hb] using hsanitized

/-- A handler goes on after anything but sanitising. -/
theorem Frame.Inv.tail {frame : Frame} {response : Stored} {asked : List Asked} {op : Op}
    {rest : List Op} (h : frame.Inv response asked) (htodo : frame.todo = op :: rest)
    (hop : ∀ buffer, op ≠ .sanitize buffer) :
    ({ frame with todo := rest } : Frame).Inv response asked := by
  have hshaped := h.shaped
  rw [htodo] at hshaped
  have hmem : ∀ {op'}, op' ∈ rest → op' ∈ frame.todo :=
    fun hop' ↦ htodo ▸ List.mem_cons_of_mem _ hop'
  refine ⟨shaped_of_cons hshaped, ?_, ?_⟩
  · intro n b c hn hpublish
    rw [Frame.read_todo]
    exact h.answers n b c hn (hmem hpublish)
  · intro n b c hn hpublish
    rw [Frame.read_todo]
    have hsanitized := h.sanitized n b c hn (hmem hpublish)
    rw [htodo, List.mem_cons] at hsanitized
    obtain (heq | hrest) | hclean := hsanitized
    · exact (hop b heq.symm).elim
    · exact Or.inl hrest
    · exact Or.inr hclean

/-- A thread that publishes something goes on with its handler. -/
private theorem inv_publish {w : Process} {thread : Thread} {op : Op} {rest : List Op}
    {stored : Stored} {caseValue : Int} {sent : Bool} (h : w.Inv)
    (htodo : (w.frames thread).todo = op :: rest) (hop : ∀ buffer, op ≠ .sanitize buffer)
    (hpub : sent = true → Message.Own w.asked
      ⟨caseValue, stored.text, stored.source, (w.frames thread).own⟩) :
    ((w.publishMqttMessage thread stored caseValue sent).goOn thread rest).Inv := by
  have hframe := h.frames thread
  generalize hv : w.publishMqttMessage thread stored caseValue sent = v
  have hframes : v.frames = w.frames := hv ▸ publish_frames ..
  have hkeep : v.response = w.response ∧ v.asked = w.asked ++ [] ∧ v.pulse = w.pulse := by
    rw [← hv, List.append_nil]
    cases sent <;> exact ⟨rfl, rfl, rfl⟩
  have hasked : v.asked = w.asked := hkeep.2.1.trans (List.append_nil _)
  refine h.of_step thread ?_ hkeep.2.1 hkeep.2.2
    (fun _ _ ↦ Or.inr (Or.inl hkeep.1)) ?_ ?_
  · intro other hne
    rw [goOn_frames_of_ne _ _ hne, hframes]
  · rw [goOn_frames_self, hframes]
    change Frame.Inv _ v.response v.asked
    rw [hkeep.1, hasked]
    exact hframe.tail htodo hop
  · intro message hmessage
    change message ∈ v.published at hmessage
    change _ ∨ Message.Own v.asked message
    rw [← hv] at hmessage
    cases sent with
    | false => exact Or.inl hmessage
    | true =>
      obtain hold | hnew := List.mem_append.mp hmessage
      · exact Or.inl hold
      · rw [List.mem_singleton.mp hnew, hasked]
        exact Or.inr (hpub rfl)

/-- What is published out of a buffer is the handler's own answer. -/
private theorem own_of_publish {w : Process} {thread : Thread} {buffer : Buffer} {caseValue : Int}
    {rest : List Op} (h : (w.frames thread).Inv w.response w.asked)
    (htodo : (w.frames thread).todo = .publish buffer caseValue :: rest) :
    Message.Own w.asked ⟨caseValue, ((w.frames thread).read w.response buffer).text,
      ((w.frames thread).read w.response buffer).source, (w.frames thread).own⟩ := by
  intro n hn
  have hmem : Op.publish buffer caseValue ∈ (w.frames thread).todo := htodo ▸ List.mem_cons_self
  obtain ⟨hsource, response, hresponse, htext⟩ := h.answers n buffer caseValue hn hmem
  refine ⟨hsource, response, hresponse, ?_⟩
  have hshaped := h.shaped
  have hsanitized := h.sanitized n buffer caseValue hn hmem
  rw [htodo] at hshaped hsanitized
  obtain hleft | hclean := hsanitized
  · obtain heq | hrest := List.mem_cons.mp hleft
    · contradiction
    · exact (hshaped.1 hrest).elim
  · exact hclean.symm.trans htext

/-- A text in place of an answer is not published. -/
private theorem own_of_none {asked : List Asked} {own : Option Nat} {ok : Bool}
    (h : own = none ∨ ok = false) (caseValue : Int) (text : Bytes) :
    ok = true → Message.Own asked ⟨caseValue, text, none, own⟩ := by
  intro hok n hn
  obtain rfl | rfl := h
  · contradiction
  · contradiction

private theorem inv_systemInfo {w : Process} {thread : Thread} {info : Bytes} {rest : List Op}
    (h : w.Inv) (htodo : (w.frames thread).todo = .systemInfo :: rest)
    (hc : ∀ other, (w.frames other).waits = false) :
    (({ w with response := ⟨info, none⟩ } : Process).goOn thread rest).Inv := by
  have hframe : (w.frames thread).Inv ⟨info, none⟩ (w.asked ++ []) :=
    (h.frames thread).mono (Or.inl (hc thread)) []
  refine h.of_step thread (fun other hne ↦ goOn_frames_of_ne _ _ hne _) (List.append_nil _).symm
    rfl (fun other _ ↦ Or.inl (hc other)) ?_ (fun message hmessage ↦ Or.inl hmessage)
  rw [List.append_nil] at hframe
  rw [goOn_frames_self]
  exact hframe.tail htodo fun buffer ↦ Op.noConfusion

private theorem inv_enter {w t : Process} {thread : Thread} {ops : List Op} {array : Bytes}
    (h : w.Inv) (hops : Shaped ops) (hstep : w.enter thread ops array = some t) : t.Inv := by
  unfold Process.enter at hstep
  split at hstep
  · obtain rfl := Option.some.inj hstep
    refine h.of_step thread (fun other hne ↦ Function.update_of_ne hne _ _)
      (List.append_nil _).symm rfl (fun _ _ ↦ Or.inr (Or.inl rfl)) ?_
      (fun message hmessage ↦ Or.inl hmessage)
    change Frame.Inv (Function.update w.frames thread _ thread) _ _
    rw [Function.update_self]
    exact Frame.inv_begin hops ..
  · contradiction

/-- An event keeps the invariant when nothing disturbs the threads. -/
theorem Process.inv_step {w t : Process} {label : ProcessLabel} (hc : w.Undisturbed label)
    (h : w.Inv) (hstep : w.step label = some t) : t.Inv := by
  cases label with
  | arrived arrival => exact inv_enter h (shaped_legacyCase arrival) hstep
  | pulse =>
    unfold Process.step at hstep
    dsimp only at hstep
    split at hstep
    · contradiction
    · next ops pulse hpulse =>
      have hw : ({ w with pulse := pulse } : Process).Inv :=
        ⟨h.frames, fun ops' hops' ↦ h.pulse ops' (hpulse ▸ List.mem_cons_of_mem _ hops'),
          h.published⟩
      exact inv_enter hw (h.pulse ops (hpulse ▸ List.mem_cons_self)) hstep
  | beat =>
    have hw : ({ w with beat := !w.beat } : Process).Inv := ⟨h.frames, h.pulse, h.published⟩
    refine inv_enter hw ?_ hstep
    split
    · exact shaped_keepalive.2
    · exact shaped_keepalive.1
  | step thread outcome =>
    unfold Process.step at hstep
    dsimp only at hstep
    split at hstep
    · contradiction
    · next op rest htodo =>
      obtain rfl := Option.some.inj hstep
      have hc' : w.Allows thread outcome (op :: rest) := htodo ▸ hc
      cases op with
      | request buffer request checked => exact inv_request h htodo hc'
      | sanitize buffer => exact inv_sanitize h htodo
      | publish buffer caseValue =>
        exact inv_publish h htodo (fun _ ↦ Op.noConfusion)
          fun _ ↦ own_of_publish (h.frames thread) htodo
      | publishText text caseValue =>
        exact inv_publish h htodo (fun _ ↦ Op.noConfusion) (own_of_none hc' caseValue text)
      | confirm text caseValue =>
        exact inv_publish h htodo (fun _ ↦ Op.noConfusion) (own_of_none hc' caseValue text)
      | systemInfo => exact inv_systemInfo h htodo hc'

/-- It holds when the threads start. -/
theorem Process.inv_start : Process.start.Inv :=
  ⟨fun _ ↦ Frame.inv_begin shaped_nil .., shaped_startup, fun _ hmessage ↦ by contradiction⟩

/-- As long as nothing disturbs the threads, every message of a handler that asked the camera is
the sanitised answer to its own request. -/
theorem own_responses_published {labels : List ProcessLabel} {t : Process}
    (hc : Always Process.step Process.Undisturbed Process.start labels)
    (hr : run Process.step Process.start labels = some t) :
    ∀ message ∈ t.published, message.Own t.asked :=
  (invariant_run Process.step (fun _ _ _ ↦ Process.inv_step) hc Process.inv_start hr).published

/-- The global buffer does not hold the answer to the request. -/
def Process.Overwritten (n : Nat) (w : Process) : Prop :=
  n < w.asked.length ∧ w.response.source ≠ some n

private theorem enter_keeps {w t : Process} {thread : Thread} {ops : List Op} {array : Bytes}
    (hstep : w.enter thread ops array = some t) :
    t.response = w.response ∧ t.asked = w.asked := by
  unfold Process.enter at hstep
  split at hstep
  · obtain rfl := Option.some.inj hstep
    exact ⟨rfl, rfl⟩
  · contradiction

private theorem overwritten_effect {w : Process} {thread : Thread} {outcome : Outcome} {n : Nat}
    (h : w.Overwritten n) (op : Op) : (w.effect thread outcome op).Overwritten n := by
  obtain ⟨hlt, hne⟩ := h
  have hkeep : ∀ stored caseValue sent,
      (w.publishMqttMessage thread stored caseValue sent).Overwritten n := by
    intro stored caseValue sent
    cases sent <;> exact ⟨hlt, hne⟩
  cases op with
  | request buffer request checked =>
    have hlt' : ∀ asked, n < (w.asked ++ [asked]).length := by
      intro asked
      rw [List.length_append]
      omega
    cases hanswer : outcome.answer with
    | none =>
      simp only [Process.effect, hanswer]
      exact ⟨hlt' _, hne⟩
    | some answer =>
      simp only [Process.effect, hanswer]
      cases buffer with
      | response => exact ⟨hlt' _, fun heq ↦ hlt.ne' (Option.some.inj heq)⟩
      | array => exact ⟨hlt' _, hne⟩
  | sanitize buffer => cases buffer <;> exact ⟨hlt, hne⟩
  | publish buffer caseValue => exact hkeep _ _ _
  | publishText text caseValue => exact hkeep _ _ _
  | confirm text caseValue => exact hkeep _ _ _
  | systemInfo => exact ⟨hlt, (Option.some_ne_none n).symm⟩

/-- An answer never comes back to the buffer. -/
theorem Process.overwritten_step {w t : Process} {label : ProcessLabel} {n : Nat}
    (h : w.Overwritten n) (hstep : w.step label = some t) : t.Overwritten n := by
  have henter : ∀ {v : Process} {thread ops array}, v.enter thread ops array = some t →
      v.Overwritten n → t.Overwritten n := by
    intro v thread ops array hstep hv
    obtain ⟨hresponse, hasked⟩ := enter_keeps hstep
    exact ⟨hasked ▸ hv.1, hresponse ▸ hv.2⟩
  unfold Process.step at hstep
  split at hstep
  · exact henter hstep h
  · split at hstep
    · contradiction
    · exact henter hstep ⟨h.1, h.2⟩
  · exact henter hstep ⟨h.1, h.2⟩
  · split at hstep
    · contradiction
    · next thread outcome _ op rest _ =>
      obtain rfl := Option.some.inj hstep
      exact overwritten_effect h op

/-- Once something else was written to the global buffer, a handler that still publishes out of it
does not publish the answer to its request, whatever happens in between. -/
theorem overwritten_published {labels : List ProcessLabel} {w t : Process} {thread : Thread}
    {n : Nat} (h : w.Overwritten n) (hr : run Process.step w labels = some t)
    (hown : (t.frames thread).own = some n) (caseValue : Int) :
    ¬ Message.Own t.asked ⟨caseValue, t.response.text, t.response.source,
      (t.frames thread).own⟩ := by
  intro hmessage
  have hover : t.Overwritten n :=
    invariant_of_run Process.step (fun _ _ _ ↦ Process.overwritten_step) h hr
  exact hover.2 (hmessage n hown).1

/-- Case 4 asks for the network interface, and the keepalive thread for the device info before the
answer is published. -/
def interfaceAsked : List ProcessLabel :=
  let asked (text : String) : Outcome := ⟨some (lit text), true, true, []⟩
  [.arrived ⟨4, [], true, [], [], [], []⟩,
    .step .callback (asked "\x7b\"ip\":1\x7d"),
    .beat,
    .step .keepalive (asked "\x7b\"model\":2\x7d"),
    .step .callback (asked ""),
    .step .callback (asked "")]

/-- The device info is published under case 4. -/
theorem device_info_published : ∃ t, run Process.step Process.start interfaceAsked = some t ∧
    ∃ message ∈ t.published, message = ⟨4, lit "\x7b\"model\":2\x7d", some 1, some 0⟩ ∧
      ¬ message.Own t.asked := by
  have hrun : ∃ t, run Process.step Process.start interfaceAsked = some t ∧
      t.published = [⟨4, lit "\x7b\"model\":2\x7d", some 1, some 0⟩] :=
    exists_run Process.step _ (by decide +kernel)
  obtain ⟨t, hrun, hpublished⟩ := hrun
  refine ⟨t, hrun, _, hpublished ▸ List.mem_singleton_self _, rfl, ?_⟩
  intro hown
  exact absurd (hown 0 rfl).1 (by decide)

/-- Case 4 once more, and the device info after it was published. -/
def interfacePublished : List ProcessLabel :=
  let asked (text : String) : Outcome := ⟨some (lit text), true, true, []⟩
  [.arrived ⟨4, [], true, [], [], [], []⟩,
    .step .callback (asked "\x7b\"ip\":1\x7d"),
    .step .callback (asked ""),
    .beat,
    .step .callback (asked ""),
    .step .keepalive (asked "\x7b\"model\":2\x7d"),
    .step .keepalive (asked ""),
    .step .keepalive (asked "")]

/-- Both answers are published as they should be. -/
theorem interface_published : ∃ t, run Process.step Process.start interfacePublished = some t ∧
    t.published.map (·.own) = [some 0, some 1] ∧ ∀ message ∈ t.published, message.Own t.asked := by
  have hrun : ∃ t, run Process.step Process.start interfacePublished = some t ∧
      t.published.map (·.own) = [some 0, some 1] :=
    exists_run Process.step _ (by decide +kernel)
  have hc : Always Process.step Process.Undisturbed Process.start interfacePublished := by
    decide +kernel
  obtain ⟨t, hrun, hpublished⟩ := hrun
  exact ⟨t, hrun, hpublished, own_responses_published hc hrun⟩

end Kitty.Ap2p
