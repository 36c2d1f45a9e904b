import Kitty.Srt.Ends

/-!
# The camera's control session

`run_ctrl_session` of `src/ap2p/srt_thread.c:652–878`, from one call into the system, the server
or the pump to the next. What a call returns is part of the event.
-/

namespace Kitty.Srt

open Kitty.Base

/-- What the server sends to the camera, by type. -/
inductive FromServer where
  | registered
  | peer (fields : PeerFields)
  | ping
  | other

/-- What the camera sends to the server. -/
inductive ToServer where
  | register (srflx : EdgeBinding)
  | ping
  | pong
  deriving DecidableEq

/-- Where `run_ctrl_session` is: before it allocates its UDP socket; before the STUN request;
before `ctrl_open`; before it sends the registration, and waits for the answer; at the head of
its loop; about to send a keepalive PING; to refresh the mapping; to post a request to the pump;
to allocate another socket; to find out the mapping of that; to register again; to answer a
PING; to close what it has open. -/
inductive CtrlPc where
  | start | discover | connect | register | ack | loop | ping | refresh
  | post (req : PumpRequest)
  | realloc | rediscover | reregister | pong | close
  deriving DecidableEq

/-- A request is about to be posted. -/
def CtrlPc.posting : CtrlPc → Bool
  | .post _ => true
  | _ => false

/-- The local variables of `run_ctrl_session`. A UDP descriptor of −1 is `none`. -/
structure Ctrl where
  pc : CtrlPc
  udp : Option Nat
  localPort : Int
  srflx : EdgeBinding
  refreshTick : Nat
  deriving DecidableEq

/-- Before the first session. -/
def Ctrl.start : Ctrl := ⟨.start, none, 0, ⟨[], 0⟩, 0⟩

/-- The calls of a session and what they return. -/
inductive CtrlEvent where
  | allocated (udp : Option Nat) (localPort : Int)
  | discovered (srflx : Option EdgeBinding)
  | opened (ok : Bool)
  | sent (ok : Bool)
  | received (msg : Option FromServer)
  | timeout
  | stop
  | posted
  | closed

/-- A message in the loop. An SRT_PEER without an address, or one for which there is no socket
to hand over, is skipped. -/
def Ctrl.onMessage (c : Ctrl) : FromServer → Ctrl
  | .peer fields =>
    match srtPeerRequest c.srflx c.localPort fields, c.udp with
    | some req, some _ => { c with pc := .post req }
    | _, _ => c
  | .ping => { c with pc := .pong }
  | .registered | .other => c

/-- The mapping found for the socket in use: it is registered when it is not the one registered
before. -/
def Ctrl.onMapping (c : Ctrl) : Option EdgeBinding → Ctrl
  | some srflx =>
    if srflx ≠ c.srflx then { c with srflx, pc := .reregister } else { c with pc := .loop }
  | none => { c with pc := .loop }

/-- A UDP socket was asked for, by the session or after the one before was handed over. -/
def Ctrl.onAllocated (c : Ctrl) (udp : Option Nat) (localPort : Int) : Option Ctrl :=
  match c.pc, udp with
  | .start, some _ => some { c with udp, localPort, pc := .discover }
  | .start, none => some c
  | .realloc, some _ => some { c with udp, localPort, pc := .rediscover }
  | .realloc, none => some { c with pc := .loop }
  | _, _ => none

/-- The STUN server was asked for the mapping of the socket. -/
def Ctrl.onDiscovered (c : Ctrl) (srflx : Option EdgeBinding) : Option Ctrl :=
  match c.pc with
  | .discover =>
    match srflx with
    | some srflx => some { c with srflx, pc := .connect }
    | none => some { c with pc := .close }
  | .refresh | .rediscover => some (c.onMapping srflx)
  | _ => none

/-- A message was sent. Every third keepalive is followed by a refresh of the mapping. -/
def Ctrl.onSent (c : Ctrl) (ok : Bool) : Option Ctrl :=
  match c.pc with
  | .register => some { c with pc := if ok then .ack else .close }
  | .ping =>
    if !ok then some { c with pc := .close }
    else if 3 ≤ c.refreshTick + 1 then some { c with refreshTick := 0, pc := .refresh }
    else some { c with refreshTick := c.refreshTick + 1, pc := .loop }
  | .reregister | .pong => some { c with pc := .loop }
  | _ => none

/-- A message was received, or the connection was found closed. -/
def Ctrl.onReceived (c : Ctrl) (msg : Option FromServer) : Option Ctrl :=
  match c.pc, msg with
  | .ack, some .registered => some { c with refreshTick := 0, pc := .loop }
  | .ack, _ => some { c with pc := .close }
  | .loop, some msg => some (c.onMessage msg)
  | .loop, none => some { c with pc := .close }
  | _, _ => none

/-- The session from one call to the next. A reload and a shutdown both stop it. -/
def Ctrl.step (c : Ctrl) : CtrlEvent → Option Ctrl
  | .allocated udp localPort => c.onAllocated udp localPort
  | .discovered srflx => c.onDiscovered srflx
  | .opened ok =>
    if c.pc = .connect then some { c with pc := if ok then .register else .close } else none
  | .sent ok => c.onSent ok
  | .received msg => c.onReceived msg
  | .timeout => if c.pc = .loop then some { c with pc := .ping } else none
  | .stop => if c.pc = .loop then some { c with pc := .close } else none
  | .posted =>
    match c.pc with
    | .post _ => some { c with udp := none, pc := .realloc }
    | _ => none
  | .closed => if c.pc = .close then some { c with udp := none, pc := .start } else none

/-- The message a session is about to send. -/
def Ctrl.sending (c : Ctrl) : Option ToServer :=
  match c.pc with
  | .register | .reregister => some (.register c.srflx)
  | .ping => some .ping
  | .pong => some .pong
  | _ => none

/-- Before a socket is allocated there is none, and before one is posted there is one. -/
structure Ctrl.Ok (c : Ctrl) : Prop where
  empty : c.pc = .start ∨ c.pc = .realloc → c.udp = none
  full : ∀ req, c.pc = .post req → c.udp ≠ none

theorem Ctrl.start_ok : Ctrl.start.Ok := ⟨fun _ ↦ rfl, fun _ h ↦ by cases h⟩

private theorem Ctrl.onMessage_eq (c : Ctrl) (msg : FromServer) : c.onMessage msg = c ∨
    c.onMessage msg = { c with pc := .pong } ∨
      ∃ req, c.udp ≠ none ∧ c.onMessage msg = { c with pc := .post req } := by
  unfold Ctrl.onMessage
  split
  · split
    · next hudp => exact .inr (.inr ⟨_, by simp [hudp], rfl⟩)
    · exact .inl rfl
  · exact .inr (.inl rfl)
  · exact .inl rfl
  · exact .inl rfl

private theorem Ctrl.onMapping_eq (c : Ctrl) (srflx : Option EdgeBinding) :
    (c.onMapping srflx).udp = c.udp ∧
      ((c.onMapping srflx).pc = .loop ∨ (c.onMapping srflx).pc = .reregister) := by
  unfold Ctrl.onMapping
  split
  · split
    · exact ⟨rfl, .inr rfl⟩
    · exact ⟨rfl, .inl rfl⟩
  · exact ⟨rfl, .inl rfl⟩

/-- A state in which nothing is about to be allocated or posted. -/
private theorem Ctrl.ok_of_pc {c : Ctrl} (h : c.pc ≠ .start ∧ c.pc ≠ .realloc ∧
    ∀ req, c.pc ≠ .post req) : c.Ok :=
  ⟨fun hpc ↦ (hpc.elim h.1 h.2.1).elim, fun req hpc ↦ (h.2.2 req hpc).elim⟩

private theorem Ctrl.onMapping_ok (c : Ctrl) (srflx : Option EdgeBinding) :
    (c.onMapping srflx).Ok := by
  apply ok_of_pc
  rcases (c.onMapping_eq srflx).2 with h | h <;> simp [h]

/-- A new descriptor is allocated where there is none. -/
theorem Ctrl.onAllocated_udp {c d : Ctrl} {udp : Option Nat} {localPort : Int} (hc : c.Ok)
    (h : c.onAllocated udp localPort = some d) : d.Ok ∧ c.udp = none ∧ d.udp = udp := by
  unfold Ctrl.onAllocated at h
  split at h
  · next hpc =>
    cases h
    exact ⟨ok_of_pc ⟨by simp, by simp, by simp⟩, hc.empty (.inl hpc), rfl⟩
  · next hpc =>
    cases h
    exact ⟨hc, hc.empty (.inl hpc), hc.empty (.inl hpc)⟩
  · next hpc =>
    cases h
    exact ⟨ok_of_pc ⟨by simp, by simp, by simp⟩, hc.empty (.inr hpc), rfl⟩
  · next hpc =>
    cases h
    exact ⟨ok_of_pc ⟨by simp, by simp, by simp⟩, hc.empty (.inr hpc), hc.empty (.inr hpc)⟩
  · cases h

private theorem Ctrl.onDiscovered_udp {c d : Ctrl} {srflx : Option EdgeBinding}
    (h : c.onDiscovered srflx = some d) : d.Ok ∧ d.udp = c.udp := by
  unfold Ctrl.onDiscovered at h
  split at h
  · split at h <;> cases h <;> exact ⟨ok_of_pc ⟨by simp, by simp, by simp⟩, rfl⟩
  · cases h
    exact ⟨c.onMapping_ok srflx, (c.onMapping_eq srflx).1⟩
  · cases h
    exact ⟨c.onMapping_ok srflx, (c.onMapping_eq srflx).1⟩
  · cases h

private theorem Ctrl.onSent_udp {c d : Ctrl} {ok : Bool} (h : c.onSent ok = some d) :
    d.Ok ∧ d.udp = c.udp := by
  unfold Ctrl.onSent at h
  split at h
  · cases h
    cases ok <;> exact ⟨ok_of_pc ⟨by simp, by simp, by simp⟩, rfl⟩
  · split at h
    · cases h
      exact ⟨ok_of_pc ⟨by simp, by simp, by simp⟩, rfl⟩
    · split at h <;> cases h <;> exact ⟨ok_of_pc ⟨by simp, by simp, by simp⟩, rfl⟩
  · cases h
    exact ⟨ok_of_pc ⟨by simp, by simp, by simp⟩, rfl⟩
  · cases h
    exact ⟨ok_of_pc ⟨by simp, by simp, by simp⟩, rfl⟩
  · cases h

private theorem Ctrl.onReceived_udp {c d : Ctrl} {msg : Option FromServer} (hc : c.Ok)
    (h : c.onReceived msg = some d) : d.Ok ∧ d.udp = c.udp := by
  unfold Ctrl.onReceived at h
  split at h
  · cases h
    exact ⟨ok_of_pc ⟨by simp, by simp, by simp⟩, rfl⟩
  · cases h
    exact ⟨ok_of_pc ⟨by simp, by simp, by simp⟩, rfl⟩
  · next msg hpc =>
    cases h
    rcases c.onMessage_eq msg with hd | hd | ⟨req, hudp, hd⟩
    · rw [hd]
      exact ⟨hc, rfl⟩
    · rw [hd]
      exact ⟨ok_of_pc ⟨by simp, by simp, by simp⟩, rfl⟩
    · rw [hd]
      exact ⟨⟨fun h ↦ by simp at h, fun _ _ ↦ hudp⟩, rfl⟩
  · cases h
    exact ⟨ok_of_pc ⟨by simp, by simp, by simp⟩, rfl⟩
  · cases h

/-- The calls that neither allocate a socket, nor hand it over, nor close it leave it alone. -/
def CtrlEvent.leavesUdp : CtrlEvent → Bool
  | .allocated _ _ | .posted | .closed => false
  | _ => true

/-- The descriptor stays where it is. -/
theorem Ctrl.step_udp {c d : Ctrl} {e : CtrlEvent} (hc : c.Ok) (he : e.leavesUdp = true)
    (h : c.step e = some d) : d.Ok ∧ d.udp = c.udp := by
  have hmove : ∀ (here pc : CtrlPc), pc ≠ .start ∧ pc ≠ .realloc ∧ (∀ req, pc ≠ .post req) →
      (if c.pc = here then some { c with pc } else none) = some d → d.Ok ∧ d.udp = c.udp := by
    intro here pc hpc hstep
    split at hstep
    · cases hstep
      exact ⟨ok_of_pc hpc, rfl⟩
    · cases hstep
  cases e with
  | allocated udp localPort => cases he
  | discovered srflx => exact c.onDiscovered_udp h
  | opened ok =>
    refine hmove .connect (if ok then .register else .close) ?_ h
    cases ok <;> simp
  | sent ok => exact c.onSent_udp h
  | received msg => exact c.onReceived_udp hc h
  | timeout => exact hmove .loop .ping (by simp) h
  | stop => exact hmove .loop .close (by simp) h
  | posted => cases he
  | closed => cases he

/-- A request is posted with the descriptor there is, which is gone then. -/
theorem Ctrl.posted_udp {c d : Ctrl} (hc : c.Ok) (h : c.step .posted = some d) :
    ∃ req, c.pc = .post req ∧ c.udp ≠ none ∧ d = { c with udp := none, pc := .realloc } := by
  simp only [Ctrl.step] at h
  split at h
  · next req hpc =>
    cases h
    exact ⟨req, hpc, hc.full req hpc, rfl⟩
  · cases h

/-- Closing a session leaves no descriptor. -/
theorem Ctrl.closed_udp {c d : Ctrl} (h : c.step .closed = some d) :
    d = { c with udp := none, pc := .start } := by
  simp only [Ctrl.step] at h
  split at h
  · cases h
    rfl
  · cases h

/-- A session only comes back to its start, or to allocating a socket, by closing and posting;
and a request is only posted for an SRT_PEER. -/
theorem Ctrl.step_pc {c d : Ctrl} {e : CtrlEvent} (he : e.leavesUdp = true)
    (h : c.step e = some d) : d.pc ≠ .start ∧ d.pc ≠ .realloc ∧
      (d.pc.posting = true → ∃ fields, e = .received (some (.peer fields))) := by
  have hgo : ∀ pc : CtrlPc, d.pc = pc → pc ≠ .start → pc ≠ .realloc → pc.posting = false →
      d.pc ≠ .start ∧ d.pc ≠ .realloc ∧
        (d.pc.posting = true → ∃ fields, e = .received (some (.peer fields))) := by
    intro pc hpc hstart hrealloc hposting
    rw [hpc]
    exact ⟨hstart, hrealloc, fun h ↦ by rw [hposting] at h; cases h⟩
  cases e with
  | allocated udp localPort => cases he
  | discovered srflx =>
    simp only [Ctrl.step, Ctrl.onDiscovered] at h
    split at h
    · split at h <;> cases h <;> exact hgo _ rfl (by simp) (by simp) rfl
    all_goals
      cases h
      try rcases (c.onMapping_eq srflx).2 with hpc | hpc <;>
        exact hgo _ hpc (by simp) (by simp) rfl
  | opened ok =>
    obtain ⟨-, h⟩ := Option.ite_none_right_eq_some.mp h
    cases h
    cases ok <;> exact hgo _ rfl (by simp) (by simp) rfl
  | sent ok =>
    simp only [Ctrl.step, Ctrl.onSent] at h
    split at h
    · cases h
      cases ok <;> exact hgo _ rfl (by simp) (by simp) rfl
    · split at h
      · cases h
        exact hgo _ rfl (by simp) (by simp) rfl
      · split at h <;> cases h <;> exact hgo _ rfl (by simp) (by simp) rfl
    all_goals
      cases h
      try exact hgo _ rfl (by simp) (by simp) rfl
  | received msg =>
    simp only [Ctrl.step, Ctrl.onReceived] at h
    split at h
    · cases h
      exact hgo _ rfl (by simp) (by simp) rfl
    · cases h
      exact hgo _ rfl (by simp) (by simp) rfl
    · next msg hpc =>
      cases h
      unfold Ctrl.onMessage
      split
      · next fields =>
        split
        · exact ⟨by simp, by simp, fun _ ↦ ⟨fields, rfl⟩⟩
        · exact ⟨by simp [hpc], by simp [hpc], fun h ↦ by simp [hpc, CtrlPc.posting] at h⟩
      · exact ⟨by simp, by simp, fun h ↦ by cases h⟩
      · exact ⟨by simp [hpc], by simp [hpc], fun h ↦ by simp [hpc, CtrlPc.posting] at h⟩
      · exact ⟨by simp [hpc], by simp [hpc], fun h ↦ by simp [hpc, CtrlPc.posting] at h⟩
    · cases h
      exact hgo _ rfl (by simp) (by simp) rfl
    · cases h
  | timeout | stop =>
    obtain ⟨-, h⟩ := Option.ite_none_right_eq_some.mp h
    cases h
    exact hgo _ rfl (by simp) (by simp) rfl
  | posted => cases he
  | closed => cases he

/-- A socket is allocated at the start of a session, or behind one that was handed over. -/
theorem Ctrl.allocated_pc {c d : Ctrl} {udp : Option Nat} {localPort : Int}
    (h : c.step (.allocated udp localPort) = some d) :
    (c.pc = .start ∨ c.pc = .realloc) ∧ (d.pc = .start → c.pc = .start) ∧ d.pc ≠ .realloc ∧
      d.pc.posting = false := by
  simp only [Ctrl.step, Ctrl.onAllocated] at h
  split at h
  · next hpc =>
    cases h
    exact ⟨.inl hpc, fun _ ↦ hpc, by simp, rfl⟩
  · next hpc =>
    cases h
    exact ⟨.inl hpc, fun _ ↦ hpc, by simp [hpc], by simp [hpc, CtrlPc.posting]⟩
  · next hpc =>
    cases h
    exact ⟨.inr hpc, fun h ↦ (by cases h), by simp, rfl⟩
  · next hpc =>
    cases h
    exact ⟨.inr hpc, fun h ↦ (by cases h), by simp, rfl⟩
  · cases h

end Kitty.Srt
