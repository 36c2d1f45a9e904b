import Kitty.Base.Run
import Kitty.Signal.Handler
import Kitty.Srt.Control

/-!
# The mapping a phone is told

The camera's control sessions, the handlers of the server that serve the camera and the phones
that ask for it, what is in flight between them, and the NAT in front of the camera;
`src/ap2p/srt_thread.c:652–878` and `src/signaling-server/signaling_server.cpp:380–404,
1423–1450,1563–1719,1990–2030`. A phone is told what the camera registered last, while the
camera gives every phone another socket.
-/

namespace Kitty.Srt

open Kitty.Base Kitty.Signal

/-- The camera, and whether the token it sends is the one of the server. -/
structure Node where
  serviceId : Bytes
  lanIp : Bytes
  tokenOk : Bool

/-- What the server sends on the connection of the camera. An SRT_PEER carries along for which
phone it is; the program does not know it. -/
inductive ToCamera where
  | registered
  | error
  | peer (viewer : Nat) (req : Registry.SrtRequest)

/-- The message as the camera reads it. -/
def ToCamera.read : ToCamera → FromServer
  | .registered => .registered
  | .error => .other
  | .peer _ req => .peer (peerFields (srtPeerMessage req))

/-- The message is the SRT_PEER of a phone. -/
def ToCamera.isFor (viewer : Nat) : ToCamera → Bool
  | .peer v _ => v == viewer
  | _ => false

/-- The replies to an SRT_REGISTER: done; incomplete; another token. -/
inductive Reply where
  | registered
  | incomplete
  | unauthorized

/-- The reply as a message. -/
def Reply.msg : Reply → ToCamera
  | .registered => .registered
  | .incomplete | .unauthorized => .error

/-- Where the handler of a camera connection is: not started; before `recv_message`; before the
lock of the SRT registry; before its reply; before it drops its registrations; before `close`;
returned. -/
inductive HandlerPc where
  | backlog
  | reading (fd : Nat)
  | registering (fd : Nat) (req : Registry.SrtRequest)
  | replying (fd : Nat) (msg : Reply)
  | leaving (fd : Nat)
  | closing (fd : Nat)
  | ended

/-- Behind a reply. A camera with another token is left. -/
def Reply.next (fd : Nat) : Reply → HandlerPc
  | .registered | .incomplete => .reading fd
  | .unauthorized => .leaving fd

/-- Where the handler of an SRT_REQUEST is behind its lookup: before it notes the phone in the
registry; before it sends the SRT_PEER; before it drops the camera, when that failed; before it
sends the SRT_PROVIDER; behind that; behind an ERROR. -/
inductive ViewerPc where
  | marking | forwarding | erasing | answering | answered | refused
  deriving DecidableEq

/-- An SRT_REQUEST that found the camera. -/
structure Viewer where
  req : Registry.SrtRequest
  provider : SrtProviderInfo
  pc : ViewerPc

/-- The camera is still to be sent the SRT_PEER. -/
def Viewer.toForward (x : Viewer) : Bool := x.pc == .marking || x.pc == .forwarding

/-- The `srflx_ip` and `srflx_port` of the SRT_PROVIDER. -/
def Viewer.told (x : Viewer) : EdgeBinding := ⟨x.provider.srflxIp, x.provider.srflxPort⟩

/-- All of it. Sockets, connections and phones are numbered as they come. `mapping` is what the
NAT has for a socket, `fds` the connection of the camera a descriptor of the server leads to,
`serving` the phone of the SRT_PEER read last, and `used` the socket handed over for a phone,
with its mapping then. -/
structure Broker where
  cam : Ctrl
  serving : Nat
  conn : Option Nat
  nextSock : Nat
  mapping : Nat → EdgeBinding
  nextConn : Nat
  up : Nat → List ToServer
  down : Nat → List ToCamera
  handler : Nat → HandlerPc
  fds : Nat → Option Nat
  registry : Registry
  viewers : Nat → Option Viewer
  nextViewer : Nat
  used : Nat → Option (Nat × EdgeBinding)

namespace Broker

/-- Nothing is connected. -/
def start (mapping : Nat → EdgeBinding) : Broker where
  cam := .start
  serving := 0
  conn := none
  nextSock := 0
  mapping := mapping
  nextConn := 0
  up _ := []
  down _ := []
  handler _ := .backlog
  fds _ := none
  registry := .start
  viewers _ := none
  nextViewer := 0
  used _ := none

/-- What happens: a call of the camera returns, other than one that receives a message; the
camera receives one; the NAT changes a mapping; the server accepts the camera's connection; its
handler reads a message, registers, replies, finds the connection ended, drops its
registrations, closes; an SRT_REQUEST is looked up, noted, forwarded, drops the camera, is
answered. -/
inductive Event where
  | cam (e : CtrlEvent)
  | deliver
  | rebind (sock : Nat) (binding : EdgeBinding)
  | accept (conn fd : Nat)
  | read (conn : Nat)
  | register (conn : Nat) (now : Int)
  | reply (conn : Nat) (ok : Bool)
  | hangup (conn : Nat)
  | leave (conn : Nat)
  | close (conn : Nat)
  | request (req : Registry.SrtRequest)
  | mark (viewer : Nat) (ip : Bytes) (now : Int)
  | forward (viewer : Nat) (ok : Bool)
  | erase (viewer : Nat)
  | answer (viewer : Nat)

/-- The handler of a connection goes on. -/
def putHandler (w : Broker) (c : Nat) (pc : HandlerPc) : Broker :=
  { w with handler := Function.update w.handler c pc }

/-- The handler of an SRT_REQUEST goes on. -/
def putViewer (w : Broker) (v : Nat) (x : Viewer) (pc : ViewerPc) : Broker :=
  { w with viewers := Function.update w.viewers v (some { x with pc }) }

/-- A message is sent on a connection of the camera. -/
def push (w : Broker) (c : Nat) (msg : ToCamera) : Broker :=
  { w with down := Function.update w.down c (w.down c ++ [msg]) }

/-- A call of the camera returns. The STUN server answers with the mapping of the socket. -/
def camStep (w : Broker) (e : CtrlEvent) : Option Broker :=
  (w.cam.step e).bind fun cam ↦
    match e with
    | .allocated (some s) _ =>
      if s = w.nextSock then some { w with cam, nextSock := w.nextSock + 1 } else none
    | .discovered (some b) => if w.cam.udp.map w.mapping = some b then some { w with cam } else none
    | .opened true => some { w with cam, conn := some w.nextConn, nextConn := w.nextConn + 1 }
    | .sent true =>
      match w.conn, w.cam.sending with
      | some c, some msg => some { w with cam, up := Function.update w.up c (w.up c ++ [msg]) }
      | _, _ => some { w with cam }
    | .received (some _) => none
    | .posted =>
      some { w with
        cam
        used := Function.update w.used w.serving (w.cam.udp.map fun s ↦ (s, w.mapping s)) }
    | .closed => some { w with cam, conn := none }
    | _ => some { w with cam }

/-- The camera receives the next message. -/
def deliver (w : Broker) : Option Broker :=
  w.conn.bind fun c ↦
    match w.down c with
    | [] => none
    | msg :: rest => (w.cam.step (.received (some msg.read))).map fun cam ↦
        { w with
          cam
          down := Function.update w.down c rest
          serving := match msg with
            | .peer v _ => v
            | _ => w.serving }

/-- The handler reads a message; a registration may be incomplete, or have another token. -/
def readStep (node : Node) (w : Broker) (c : Nat) : Option Broker :=
  match w.handler c, w.up c with
  | .reading fd, msg :: rest =>
    let w := { w with up := Function.update w.up c rest }
    match msg with
    | .register srflx =>
      let req : Registry.SrtRequest := ⟨node.serviceId, srflx.srflxIp, srflx.srflxPort, node.lanIp⟩
      some (w.putHandler c
        (if req.incomplete then .replying fd .incomplete
        else if node.tokenOk then .registering fd req
        else .replying fd .unauthorized))
    | .ping | .pong => some w
  | _, _ => none

/-- The handler registers the camera, under the lock. -/
def registerStep (w : Broker) (c : Nat) (now : Int) : Option Broker :=
  match w.handler c with
  | .registering fd req => some
      { w.putHandler c (.replying fd .registered) with
        registry := w.registry.srtRegister req fd now }
  | _ => none

/-- The handler replies, and does not look whether that went well. -/
def replyStep (w : Broker) (c : Nat) (ok : Bool) : Option Broker :=
  match w.handler c with
  | .replying fd msg =>
    let w := w.putHandler c (msg.next fd)
    some (if ok then w.push c msg.msg else w)
  | _ => none

/-- The handler finds its connection ended. -/
def hangupStep (w : Broker) (c : Nat) : Option Broker :=
  match w.handler c with
  | .reading fd => some (w.putHandler c (.leaving fd))
  | _ => none

/-- The handler drops its registrations, under the lock. -/
def leaveStep (w : Broker) (c : Nat) : Option Broker :=
  match w.handler c with
  | .leaving fd => some
      { w.putHandler c (.closing fd) with registry := w.registry.removeSrtSocket fd }
  | _ => none

/-- The handler closes its descriptor. -/
def closeStep (w : Broker) (c : Nat) : Option Broker :=
  match w.handler c with
  | .closing fd => some { w.putHandler c .ended with fds := Function.update w.fds fd none }
  | _ => none

/-- An SRT_REQUEST is looked up; the handler has a copy of what it finds. -/
def requestStep (w : Broker) (req : Registry.SrtRequest) : Broker :=
  if req.incomplete then w
  else match w.registry.srtProviders[req.serviceId]? with
    | some provider =>
      { w with
        viewers := Function.update w.viewers w.nextViewer (some ⟨req, provider, .marking⟩)
        nextViewer := w.nextViewer + 1 }
    | none => w

/-- The handler of an SRT_REQUEST, when it is at this place. -/
def viewerAt (w : Broker) (v : Nat) (pc : ViewerPc) : Option Viewer :=
  (w.viewers v).filter fun x ↦ x.pc = pc

/-- The phone is noted in the registry, under the lock. -/
def markStep (w : Broker) (v : Nat) (ip : Bytes) (now : Int) : Option Broker :=
  (w.viewerAt v .marking).map fun x ↦
    { w.putViewer v x .forwarding with
      registry := w.registry.srtMarkConsumer x.req.serviceId ip now }

/-- The SRT_PEER is sent to the socket that was looked up. A descriptor that leads to no
connection of the camera is another client's. -/
def forwardStep (w : Broker) (v : Nat) (ok : Bool) : Option Broker :=
  (w.viewerAt v .forwarding).map fun x ↦
    if ok then
      match w.fds x.provider.socketFd with
      | some c => (w.putViewer v x .answering).push c (.peer v x.req)
      | none => w.putViewer v x .answering
    else w.putViewer v x .erasing

/-- A camera that could not be reached is dropped, under the lock. -/
def eraseStep (w : Broker) (v : Nat) : Option Broker :=
  (w.viewerAt v .erasing).map fun x ↦
    { w.putViewer v x .refused with registry := w.registry.srtErase x.req.serviceId }

/-- The SRT_PROVIDER is sent, with what was looked up. -/
def answerStep (w : Broker) (v : Nat) : Option Broker :=
  (w.viewerAt v .answering).map fun x ↦ w.putViewer v x .answered

/-- The server accepts a connection of the camera. -/
def acceptStep (w : Broker) (c fd : Nat) : Option Broker :=
  match w.handler c with
  | .backlog =>
    if c < w.nextConn ∧ w.fds fd = none then
      some { w.putHandler c (.reading fd) with fds := Function.update w.fds fd (some c) }
    else none
  | _ => none

/-- One event. -/
def step (node : Node) (w : Broker) : Event → Option Broker
  | .cam e => w.camStep e
  | .deliver => w.deliver
  | .rebind s b => some { w with mapping := Function.update w.mapping s b }
  | .accept c fd => w.acceptStep c fd
  | .read c => w.readStep node c
  | .register c now => w.registerStep c now
  | .reply c ok => w.replyStep c ok
  | .hangup c => w.hangupStep c
  | .leave c => w.leaveStep c
  | .close c => w.closeStep c
  | .request req => some (w.requestStep req)
  | .mark v ip now => w.markStep v ip now
  | .forward v ok => w.forwardStep v ok
  | .erase v => w.eraseStep v
  | .answer v => w.answerStep v

/-! ### The phones on their way -/

/-- The SRT_PEER of a phone is to be sent on the camera's connection, or is on it. -/
def coming (w : Broker) (v : Nat) : Bool :=
  w.conn.any fun c ↦
    ((w.viewers v).any fun x ↦ x.toForward && w.fds x.provider.socketFd == some c) ||
      (w.down c).any (ToCamera.isFor v)

/-- The phone is on its way to the camera, or the camera is about to hand a socket over for
it. -/
def pending (w : Broker) (v : Nat) : Bool := w.coming v || w.cam.pc.posting && w.serving == v

/-- The binding is the mapping of the socket the camera hands over next. -/
def Current (w : Broker) (b : EdgeBinding) : Prop :=
  w.cam.pc ≠ .realloc ∧ ∀ s ∈ w.cam.udp, w.mapping s = b

/-- A phone that asks finds the mapping of the socket the camera hands over next, and the camera
hands over and the NAT changes no socket under a phone on its way; nor is a phone on its way to a
connection that the camera had before led to the one it has now. -/
def Undisturbed (w : Broker) : Event → Prop
  | .request req => ∀ provider ∈ w.registry.srtProviders[req.serviceId]?,
      w.conn ≠ none → w.fds provider.socketFd = w.conn →
        w.Current ⟨provider.srflxIp, provider.srflxPort⟩
  | .cam .posted => ∀ v < w.nextViewer, w.coming v = false
  | .rebind s b => w.cam.udp = some s → b = w.mapping s ∨ ∀ v < w.nextViewer, w.pending v = false
  | .accept c fd => w.conn = some c → ∀ v < w.nextViewer,
      (w.viewers v).all (fun x ↦ !x.toForward || x.provider.socketFd != fd) = true
  | _ => True

instance (w : Broker) (b : EdgeBinding) : Decidable (w.Current b) :=
  inferInstanceAs (Decidable (_ ∧ ∀ _ ∈ _, _))

instance (w : Broker) : (e : Event) → Decidable (w.Undisturbed e)
  | .request _ => inferInstanceAs (Decidable (∀ _ ∈ _, _))
  | .cam .posted => inferInstanceAs (Decidable (∀ v < w.nextViewer, _))
  | .rebind _ _ => inferInstanceAs (Decidable (_ → _ ∨ ∀ v < w.nextViewer, _))
  | .accept _ _ => inferInstanceAs (Decidable (_ → ∀ v < w.nextViewer, _))
  | .cam (.allocated _ _) | .cam (.discovered _) | .cam (.opened _) | .cam (.sent _)
  | .cam (.received _) | .cam .timeout | .cam .stop | .cam .closed | .deliver | .read _
  | .register _ _ | .reply _ _ | .hangup _ | .leave _ | .close _ | .mark _ _ _ | .forward _ _
  | .erase _ | .answer _ => isTrue trivial

/-! ### What holds in an undisturbed run -/

/-- What the phone is told, or is going to be. -/
def told (w : Broker) (v : Nat) : Option EdgeBinding := (w.viewers v).map Viewer.told

/-- A phone on its way has been told the mapping of the socket the camera hands over next, and
one that a socket was handed over for was told the mapping of that. -/
structure Inv (w : Broker) : Prop where
  cam : w.cam.Ok
  pending : ∀ v, w.pending v = true → ∃ b, w.told v = some b ∧ w.Current b
  used : ∀ v s m, w.used v = some (s, m) → w.told v = some m
  unopened : ∀ c, w.nextConn ≤ c → w.down c = [] ∧ w.handler c = .backlog ∧
    ∀ fd, w.fds fd ≠ some c
  offline : w.cam.pc = .start → w.conn = none
  unasked : ∀ v, w.nextViewer ≤ v → w.viewers v = none

theorem start_inv (mapping : Nat → EdgeBinding) : (start mapping).Inv where
  cam := Ctrl.start_ok
  pending v h := by cases h
  used v s m h := by cases h
  unopened c _ := ⟨rfl, rfl, fun fd h ↦ by cases h⟩
  offline _ := rfl
  unasked v _ := rfl

/-- A phone that nobody has asked for is not on its way. -/
private theorem Inv.pending_iff {w : Broker} (hw : w.Inv) (f : Nat → Bool)
    (hf : ∀ v, f v = true → w.pending v = true) :
    (∀ v < w.nextViewer, f v = false) → ∀ v, f v = false := by
  intro h v
  by_cases hv : v < w.nextViewer
  · exact h v hv
  · cases hfv : f v with
    | false => rfl
    | true =>
      obtain ⟨b, hb, -⟩ := hw.pending v (hf v hfv)
      rw [told, hw.unasked v (Nat.le_of_not_lt hv)] at hb
      cases hb

/-! ### The camera -/

/-- The camera goes on with the connection and the socket it has. Where it is about to hand the
socket over, that is for a phone on its way. -/
private theorem goOn_inv {w u : Broker} (hw : w.Inv) (hok : u.cam.Ok)
    (hserver : u.viewers = w.viewers ∧ u.nextViewer = w.nextViewer ∧ u.handler = w.handler ∧
      u.fds = w.fds ∧ u.nextConn = w.nextConn ∧ u.mapping = w.mapping ∧ u.used = w.used)
    (hconn : u.conn = w.conn) (hdown : ∀ c, (u.down c).Sublist (w.down c))
    (hudp : u.cam.udp = w.cam.udp) (hstart : u.cam.pc ≠ .start) (hrealloc : u.cam.pc ≠ .realloc)
    (hposting : u.cam.pc.posting = true → w.coming u.serving = true) : u.Inv := by
  obtain ⟨hviewers, hnext, hhandler, hfds, hnextConn, hmapping, hused⟩ := hserver
  have hcoming : ∀ v, u.coming v = true → w.coming v = true := by
    intro v h
    simp only [coming, hconn, hviewers, hfds] at h ⊢
    cases hc : w.conn with
    | none => simp [hc] at h
    | some c =>
      simp only [hc, Option.any_some, Bool.or_eq_true] at h ⊢
      apply h.imp_right
      intro h
      obtain ⟨msg, hmem, hmsg⟩ := List.any_eq_true.mp h
      exact List.any_eq_true.mpr ⟨msg, (hdown c).subset hmem, hmsg⟩
  have htold : u.told = w.told := by
    funext v
    rw [told, told, hviewers]
  refine ⟨hok, ?_, ?_, ?_, fun h ↦ absurd h hstart,
    ?_⟩
  · intro v hv
    have hwv : w.coming v = true := by
      simp only [Broker.pending, Bool.or_eq_true, Bool.and_eq_true, beq_iff_eq] at hv
      rcases hv with hv | ⟨hpost, rfl⟩
      · exact hcoming v hv
      · exact hposting hpost
    obtain ⟨b, hb, -, hmap⟩ := hw.pending v (by simp [Broker.pending, hwv])
    exact ⟨b, by rw [htold, hb], hrealloc, by rw [hudp, hmapping]; exact hmap⟩
  · intro v s m h
    rw [htold]
    exact hw.used v s m (hused ▸ h)
  · intro c hc
    obtain ⟨hempty, hback, hno⟩ := hw.unopened c (hnextConn ▸ hc)
    refine ⟨?_, by rw [hhandler, hback], by rw [hfds]; exact hno⟩
    have hsub := hdown c
    rw [hempty] at hsub
    exact List.sublist_nil.mp hsub
  · intro v hv
    rw [hviewers]
    exact hw.unasked v (hnext ▸ hv)

/-- No phone is on its way to the camera, and it is not about to hand its socket over. -/
private theorem alone_inv {w u : Broker} (hw : w.Inv) (hok : u.cam.Ok)
    (hpending : ∀ v, u.pending v = false)
    (htold : u.viewers = w.viewers) (hnext : u.nextViewer = w.nextViewer)
    (hused : ∀ v s m, u.used v = some (s, m) → w.told v = some m)
    (hunopened : ∀ c, u.nextConn ≤ c → u.down c = [] ∧ u.handler c = .backlog ∧
      ∀ fd, u.fds fd ≠ some c)
    (hoffline : u.cam.pc = .start → u.conn = none) : u.Inv where
  cam := hok
  pending v hv := by
    rw [hpending v] at hv
    cases hv
  used v s m h := by
    rw [told, htold]
    exact hused v s m h
  unopened := hunopened
  offline := hoffline
  unasked v hv := by
    rw [htold]
    exact hw.unasked v (hnext ▸ hv)

private theorem pending_eq_false {w : Broker} (hcoming : ∀ v, w.coming v = false)
    (hposting : w.cam.pc.posting = false) (v : Nat) : w.pending v = false := by
  rw [Broker.pending, hcoming v, hposting]
  rfl

private theorem coming_of_conn_eq_none {w : Broker} (h : w.conn = none) (v : Nat) :
    w.coming v = false := by
  rw [coming, h]
  rfl

/-- A call of the camera that has to do neither with a new socket nor with a new connection. -/
private theorem leave_inv {w : Broker} {cam : Ctrl} {e : CtrlEvent} {up : Nat → List ToServer}
    (hw : w.Inv) (he : e.leavesUdp = true) (hreceived : ∀ msg, e ≠ .received (some msg))
    (hcam : w.cam.step e = some cam) : { w with cam, up }.Inv := by
  obtain ⟨hok, hudp⟩ := Ctrl.step_udp hw.cam he hcam
  obtain ⟨hstart, hrealloc, hposting⟩ := Ctrl.step_pc he hcam
  refine goOn_inv hw hok ⟨rfl, rfl, rfl, rfl, rfl, rfl, rfl⟩ rfl (fun _ ↦ List.Sublist.refl _) hudp
    hstart hrealloc ?_
  intro h
  obtain ⟨fields, rfl⟩ := hposting h
  exact absurd rfl (hreceived (.peer fields))

/-- A socket is allocated: no phone is on its way. -/
private theorem allocated_inv {w : Broker} {cam : Ctrl} {udp : Option Nat} {localPort : Int}
    {nextSock : Nat} (hw : w.Inv) (hcam : w.cam.step (.allocated udp localPort) = some cam) :
    { w with cam, nextSock }.Inv := by
  obtain ⟨hpc, hstart, hrealloc, hposting⟩ := Ctrl.allocated_pc hcam
  have hcoming : ∀ v, w.coming v = false := by
    intro v
    rcases hpc with hpc | hpc
    · exact coming_of_conn_eq_none (hw.offline hpc) v
    · cases hv : w.coming v with
      | false => rfl
      | true =>
        obtain ⟨b, -, hno, -⟩ := hw.pending v (by simp [Broker.pending, hv])
        exact absurd hpc hno
  exact alone_inv hw (Ctrl.onAllocated_udp hw.cam hcam).1 (pending_eq_false hcoming hposting) rfl
    rfl hw.used hw.unopened fun h ↦ hw.offline (hstart h)

/-- A new connection: nothing is on it. -/
private theorem opened_inv {w : Broker} {cam : Ctrl} (hw : w.Inv)
    (hcam : w.cam.step (.opened true) = some cam) :
    { w with cam, conn := some w.nextConn, nextConn := w.nextConn + 1 }.Inv := by
  obtain ⟨hok, -⟩ := Ctrl.step_udp hw.cam rfl hcam
  obtain ⟨hstart, -, hposting⟩ := Ctrl.step_pc rfl hcam
  obtain ⟨hempty, -, hno⟩ := hw.unopened w.nextConn (Nat.le_refl _)
  refine alone_inv hw hok (pending_eq_false ?_ ?_) rfl rfl hw.used
    (fun c hc ↦ hw.unopened c (Nat.le_of_succ_le hc)) fun h ↦ absurd h hstart
  · intro v
    simp only [coming, Option.any_some, hempty, List.any_nil, Bool.or_false]
    cases w.viewers v with
    | none => rfl
    | some x => simp [hno]
  · cases h : cam.pc.posting with
    | false => rfl
    | true =>
      obtain ⟨fields, he⟩ := hposting h
      cases he

/-- The socket is handed over for the phone it belongs to. -/
private theorem posted_inv {w : Broker} {cam : Ctrl} (hw : w.Inv)
    (hc : w.Undisturbed (.cam .posted)) (hcam : w.cam.step .posted = some cam) :
    { w with
      cam
      used := Function.update w.used w.serving
        (w.cam.udp.map fun s ↦ (s, w.mapping s)) }.Inv := by
  obtain ⟨req, hpc, hudp, rfl⟩ := Ctrl.posted_udp hw.cam hcam
  have hcoming := hw.pending_iff w.coming (fun v hv ↦ by simp [Broker.pending, hv]) hc
  refine alone_inv hw ⟨fun _ ↦ rfl, fun _ h ↦ (by cases h)⟩ (pending_eq_false hcoming rfl) rfl rfl
    ?_ hw.unopened fun h ↦ (by cases h)
  intro v s m h
  by_cases hv : v = w.serving
  · obtain ⟨b, hb, -, hmap⟩ := hw.pending v (by simp [Broker.pending, hpc, CtrlPc.posting, hv])
    simp only [hv, Function.update_self] at h
    obtain ⟨sock, hsock, h⟩ := Option.map_eq_some_iff.mp h
    cases h
    rw [hb, hmap s hsock]
  · dsimp only at h
    rw [Function.update_of_ne hv] at h
    exact hw.used v s m h

/-- The camera closes its connection. -/
private theorem closed_inv {w : Broker} {cam : Ctrl} (hw : w.Inv)
    (hcam : w.cam.step .closed = some cam) : { w with cam, conn := none }.Inv := by
  cases Ctrl.closed_udp hcam
  exact alone_inv hw ⟨fun _ ↦ rfl, fun _ h ↦ (by cases h)⟩
    (pending_eq_false (coming_of_conn_eq_none rfl) rfl) rfl rfl hw.used hw.unopened fun _ ↦ rfl

private theorem camStep_inv {w u : Broker} {e : CtrlEvent} (hw : w.Inv)
    (hc : w.Undisturbed (.cam e)) (h : w.camStep e = some u) : u.Inv := by
  obtain ⟨cam, hcam, h⟩ := Option.bind_eq_some_iff.mp h
  cases e with
  | allocated udp localPort =>
    cases udp with
    | none =>
      cases h
      exact allocated_inv hw hcam
    | some s =>
      obtain ⟨-, h⟩ := Option.ite_none_right_eq_some.mp h
      cases h
      exact allocated_inv hw hcam
  | discovered srflx =>
    cases srflx with
    | none =>
      cases h
      exact leave_inv hw rfl (fun _ h ↦ by cases h) hcam
    | some b =>
      obtain ⟨-, h⟩ := Option.ite_none_right_eq_some.mp h
      cases h
      exact leave_inv hw rfl (fun _ h ↦ by cases h) hcam
  | opened ok =>
    cases ok with
    | true =>
      cases h
      exact opened_inv hw hcam
    | false =>
      cases h
      exact leave_inv hw rfl (fun _ h ↦ by cases h) hcam
  | sent ok =>
    cases ok with
    | true =>
      dsimp only at h
      split at h <;> cases h <;> exact leave_inv hw rfl (fun _ h ↦ by cases h) hcam
    | false =>
      cases h
      exact leave_inv hw rfl (fun _ h ↦ by cases h) hcam
  | received msg =>
    cases msg with
    | none =>
      cases h
      exact leave_inv hw rfl (fun _ h ↦ by cases h) hcam
    | some msg => cases h
  | timeout | stop =>
    cases h
    exact leave_inv hw rfl (fun _ h ↦ by cases h) hcam
  | posted =>
    cases h
    exact posted_inv hw hc hcam
  | closed =>
    cases h
    exact closed_inv hw hcam

private theorem deliver_inv {w u : Broker} (hw : w.Inv) (h : w.deliver = some u) : u.Inv := by
  obtain ⟨c, hconn, h⟩ := Option.bind_eq_some_iff.mp h
  split at h
  · cases h
  · next msg rest hdown =>
    obtain ⟨cam, hcam, rfl⟩ := Option.map_eq_some_iff.mp h
    obtain ⟨hok, hudp⟩ := Ctrl.step_udp hw.cam rfl hcam
    obtain ⟨hstart, hrealloc, hposting⟩ := Ctrl.step_pc rfl hcam
    refine goOn_inv hw hok ⟨rfl, rfl, rfl, rfl, rfl, rfl, rfl⟩ rfl ?_ hudp hstart hrealloc
      ?_
    · intro x
      dsimp only
      by_cases hx : x = c
      · rw [hx, Function.update_self, hdown]
        exact List.sublist_cons_self msg rest
      · rw [Function.update_of_ne hx]
    · intro h
      obtain ⟨fields, he⟩ := hposting h
      cases msg with
      | registered | error => cases he
      | peer v req => simp [coming, hconn, hdown, ToCamera.isFor]

/-! ### The server -/

/-- The server goes on. Whoever is on the way now was so before, or has just found what the
camera has. -/
private theorem server_inv {w u : Broker} (hw : w.Inv)
    (hcamera : u.cam = w.cam ∧ u.serving = w.serving ∧ u.conn = w.conn ∧
      u.mapping = w.mapping ∧ u.used = w.used)
    (htold : ∀ v b, w.told v = some b → u.told v = some b)
    (hcoming : ∀ v, u.coming v = true →
      w.coming v = true ∨ ∃ b, u.told v = some b ∧ w.Current b)
    (hunopened : ∀ c, u.nextConn ≤ c → u.down c = [] ∧ u.handler c = .backlog ∧
      ∀ fd, u.fds fd ≠ some c)
    (hunasked : ∀ v, u.nextViewer ≤ v → u.viewers v = none) : u.Inv := by
  obtain ⟨hcam, hserving, hconn, hmapping, hused⟩ := hcamera
  have hcurrent : ∀ b, w.Current b → u.Current b := by
    intro b hb
    rw [Current, hcam, hmapping]
    exact hb
  refine ⟨by rw [hcam]; exact hw.cam, ?_, ?_, hunopened, ?_,
    hunasked⟩
  · intro v hv
    have hold : w.pending v = true → ∃ b, u.told v = some b ∧ u.Current b := by
      intro h
      obtain ⟨b, hb, hcur⟩ := hw.pending v h
      exact ⟨b, htold v b hb, hcurrent b hcur⟩
    simp only [Broker.pending, hcam, hserving, Bool.or_eq_true] at hv
    rcases hv with hv | hv
    · rcases hcoming v hv with h | ⟨b, hb, hcur⟩
      · exact hold (by simp [Broker.pending, h])
      · exact ⟨b, hb, hcurrent b hcur⟩
    · exact hold (by rw [Broker.pending, hv, Bool.or_true])
  · intro v s m h
    exact htold v m (hw.used v s m (hused ▸ h))
  · intro h
    rw [hconn]
    exact hw.offline (hcam ▸ h)

/-- A step of the handler of a connection, which is one the camera has opened. -/
private theorem handler_inv {w : Broker} {c : Nat} {up : Nat → List ToServer} {pc : HandlerPc}
    {registry : Registry} (hw : w.Inv) (hpc : w.handler c ≠ .backlog) :
    { w.putHandler c pc with up, registry }.Inv := by
  refine server_inv hw ⟨rfl, rfl, rfl, rfl, rfl⟩ (fun _ _ h ↦ h) (fun _ h ↦ .inl h) ?_
    hw.unasked
  intro x hx
  obtain ⟨hempty, hback, hno⟩ := hw.unopened x hx
  refine ⟨hempty, ?_, hno⟩
  have hne : x ≠ c := by
    rintro rfl
    exact hpc hback
  exact (Function.update_of_ne hne ..).trans hback

private theorem any_update_of_peer {w : Broker} {c c' : Nat} {msg : ToCamera} (v : Nat)
    (h : ((w.push c msg).down c').any (ToCamera.isFor v) = true) :
    (w.down c').any (ToCamera.isFor v) = true ∨ c' = c ∧ msg.isFor v = true := by
  by_cases hc : c' = c
  · simp only [push, hc, Function.update_self, List.any_append, List.any_cons, List.any_nil,
      Bool.or_false, Bool.or_eq_true] at h ⊢
    exact h.imp_right fun h ↦ ⟨trivial, h⟩
  · simp only [push, Function.update_of_ne hc] at h
    exact .inl h

/-- A message that is no SRT_PEER brings no phone on its way. -/
private theorem push_inv {w : Broker} {c : Nat} {msg : Reply} (hw : w.Inv) (hc : c < w.nextConn) :
    (w.push c msg.msg).Inv := by
  refine server_inv hw ⟨rfl, rfl, rfl, rfl, rfl⟩ (fun _ _ h ↦ h) (fun v h ↦ .inl ?_) ?_
    hw.unasked
  · simp only [coming, Option.any_eq_true, Bool.or_eq_true] at h ⊢
    obtain ⟨c', hconn, h⟩ := h
    refine ⟨c', hconn, h.imp_right ?_⟩
    intro h
    apply (any_update_of_peer v h).resolve_right
    rintro ⟨_, hmsg⟩
    cases msg <;> cases hmsg
  · intro x hx
    obtain ⟨hempty, hback, hno⟩ := hw.unopened x hx
    have hne : x ≠ c := Nat.ne_of_gt (Nat.lt_of_lt_of_le hc hx)
    exact ⟨(Function.update_of_ne hne ..).trans hempty, hback, hno⟩

/-- A descriptor is given to the camera's connection that nobody is about to forward to. -/
private theorem accept_inv {w u : Broker} {c fd : Nat} (hw : w.Inv)
    (hc : w.Undisturbed (.accept c fd)) (h : w.acceptStep c fd = some u) : u.Inv := by
  unfold acceptStep at h
  split at h
  · obtain ⟨⟨hlt, -⟩, h⟩ := Option.ite_none_right_eq_some.mp h
    cases h
    refine server_inv hw ⟨rfl, rfl, rfl, rfl, rfl⟩ (fun _ _ h ↦ h) (fun v hv ↦ .inl ?_)
      ?_ hw.unasked
    · simp only [coming, Option.any_eq_true, Bool.or_eq_true, Bool.and_eq_true] at hv ⊢
      obtain ⟨c', hconn, hv⟩ := hv
      refine ⟨c', hconn, hv.imp_left ?_⟩
      rintro ⟨x, hx, hforward, hfd⟩
      have hx : w.viewers v = some x := hx
      refine ⟨x, hx, hforward, ?_⟩
      by_cases hxfd : x.provider.socketFd = fd
      · rw [hxfd, Function.update_self] at hfd
        have hcc : c = c' := by simpa using hfd
        have hlt : v < w.nextViewer := by
          by_contra hge
          rw [hw.unasked v (Nat.le_of_not_lt hge)] at hx
          cases hx
        have hno := hc (hcc ▸ hconn) v hlt
        rw [hx] at hno
        simp [hforward, hxfd] at hno
      · rwa [Function.update_of_ne hxfd] at hfd
    · intro x hx
      obtain ⟨hempty, hback, hno⟩ := hw.unopened x hx
      have hne : x ≠ c := Nat.ne_of_gt (Nat.lt_of_lt_of_le hlt hx)
      refine ⟨hempty, (Function.update_of_ne hne ..).trans hback, ?_⟩
      intro fd' h
      by_cases hfd : fd' = fd
      · rw [hfd] at h
        simp only [Function.update_self, Option.some.injEq] at h
        exact hne h.symm
      · simp only [Function.update_of_ne hfd] at h
        exact hno fd' h
  · cases h

/-- A descriptor is closed. -/
private theorem unlink_inv {w : Broker} (hw : w.Inv) (fd : Nat) :
    { w with fds := Function.update w.fds fd none }.Inv := by
  have hfds : ∀ x c, Function.update w.fds fd none x = some c → w.fds x = some c := by
    intro x c h
    by_cases hx : x = fd
    · rw [hx, Function.update_self] at h
      cases h
    · rwa [Function.update_of_ne hx] at h
  refine server_inv hw ⟨rfl, rfl, rfl, rfl, rfl⟩ (fun _ _ h ↦ h) (fun v hv ↦ .inl ?_)
    ?_ hw.unasked
  · simp only [coming, Option.any_eq_true, Bool.or_eq_true, Bool.and_eq_true, beq_iff_eq] at hv ⊢
    obtain ⟨c, hconn, hv⟩ := hv
    exact ⟨c, hconn, hv.imp_left fun ⟨x, hx, hforward, hfd⟩ ↦ ⟨x, hx, hforward, hfds _ _ hfd⟩⟩
  · intro x hx
    obtain ⟨hempty, hback, hno⟩ := hw.unopened x hx
    exact ⟨hempty, hback, fun fd' h ↦ hno fd' (hfds fd' x h)⟩

/-- A phone asks: what it finds is the mapping of the socket the camera hands over next. -/
private theorem request_inv {w : Broker} {req : Registry.SrtRequest} (hw : w.Inv)
    (hc : w.Undisturbed (.request req)) : (w.requestStep req).Inv := by
  unfold requestStep
  split
  · exact hw
  · split
    · next provider hfound =>
      refine server_inv hw ⟨rfl, rfl, rfl, rfl, rfl⟩ ?_ ?_ hw.unopened
        ?_
      · intro v b h
        have hne : v ≠ w.nextViewer := by
          rintro rfl
          rw [told, hw.unasked _ (Nat.le_refl _)] at h
          cases h
        simp only [told, Function.update_of_ne hne]
        exact h
      · intro v hv
        by_cases hne : v = w.nextViewer
        · subst hne
          simp only [coming, Function.update_self, Option.any_eq_true, Bool.or_eq_true,
            Bool.and_eq_true, beq_iff_eq] at hv
          obtain ⟨c, hconn, ⟨x, hx, -, hfd⟩ | hdown⟩ := hv
          · cases hx
            refine .inr ⟨⟨provider.srflxIp, provider.srflxPort⟩, ?_, ?_⟩
            · simp only [told, Function.update_self]
              rfl
            · exact hc provider hfound (by simp [hconn]) (hfd.trans hconn.symm)
          · exact .inl (by simp [coming, hconn, hdown])
        · left
          simp only [coming, Function.update_of_ne hne] at hv
          exact hv
      · intro v hv
        have hne : v ≠ w.nextViewer := Nat.ne_of_gt hv
        exact (Function.update_of_ne hne ..).trans (hw.unasked v (Nat.le_of_succ_le hv))
    · exact hw

private theorem viewerAt_some {w : Broker} {v : Nat} {pc : ViewerPc} {x : Viewer}
    (h : w.viewerAt v pc = some x) : w.viewers v = some x ∧ x.pc = pc := by
  obtain ⟨hx, hpc⟩ := Option.filter_eq_some_iff.mp h
  exact ⟨hx, of_decide_eq_true hpc⟩

/-- The handler of an SRT_REQUEST goes on, not further back than to the forward. -/
private theorem viewer_inv {w : Broker} {v : Nat} {x : Viewer} {pc : ViewerPc} {registry : Registry}
    (hw : w.Inv) (hx : w.viewers v = some x)
    (hpc : Viewer.toForward { x with pc } = true → x.toForward = true) :
    { w.putViewer v x pc with registry }.Inv := by
  refine server_inv hw ⟨rfl, rfl, rfl, rfl, rfl⟩ ?_ (fun y hy ↦ .inl ?_) hw.unopened
    ?_
  · intro y b h
    by_cases hne : y = v
    · subst hne
      rw [told, hx] at h
      simp only [told, putViewer, Function.update_self]
      exact h
    · simp only [told, putViewer, Function.update_of_ne hne]
      exact h
  · by_cases hne : y = v
    · subst hne
      simp only [coming, putViewer, Function.update_self, hx, Option.any_eq_true, Bool.or_eq_true,
        Bool.and_eq_true] at hy ⊢
      obtain ⟨c, hconn, ⟨z, hz, hforward, hfd⟩ | hdown⟩ := hy
      · cases hz
        exact ⟨c, hconn, .inl ⟨x, rfl, hpc hforward, hfd⟩⟩
      · exact ⟨c, hconn, .inr hdown⟩
    · simp only [coming, putViewer, Function.update_of_ne hne] at hy
      exact hy
  · intro y hy
    have hne : y ≠ v := by
      rintro rfl
      rw [hw.unasked y hy] at hx
      cases hx
    exact (Function.update_of_ne hne ..).trans (hw.unasked y hy)

/-- The SRT_PEER is on the connection it was to be sent on. -/
private theorem forwarded_inv {w : Broker} {v c : Nat} {x : Viewer} (hw : w.Inv)
    (hx : w.viewers v = some x) (hpc : x.pc = .forwarding)
    (hfd : w.fds x.provider.socketFd = some c) :
    ((w.putViewer v x .answering).push c (.peer v x.req)).Inv := by
  have hviewer : ({ w.putViewer v x .answering with registry := w.registry } : Broker).Inv :=
    viewer_inv hw hx fun h ↦ by cases h
  have hforward : x.toForward = true := by rw [Viewer.toForward, hpc]; rfl
  refine server_inv hw ⟨rfl, rfl, rfl, rfl, rfl⟩ ?_ (fun y hy ↦ .inl ?_)
    ?_ hviewer.unasked
  · intro y b h
    by_cases hne : y = v
    · subst hne
      rw [told, hx] at h
      simp only [told, push, putViewer, Function.update_self]
      exact h
    · simp only [told, push, putViewer, Function.update_of_ne hne]
      exact h
  · simp only [coming, Option.any_eq_true, Bool.or_eq_true, Bool.and_eq_true] at hy ⊢
    obtain ⟨c', hconn, ⟨z, hz, hzforward, hzfd⟩ | hdown⟩ := hy
    · by_cases hne : y = v
      · subst hne
        simp only [push, putViewer, Function.update_self] at hz
        cases hz
        cases hzforward
      · simp only [push, putViewer, Function.update_of_ne hne] at hz
        exact ⟨c', hconn, .inl ⟨z, hz, hzforward, hzfd⟩⟩
    · rcases any_update_of_peer y hdown with hdown | ⟨rfl, hmsg⟩
      · exact ⟨c', hconn, .inr hdown⟩
      · obtain rfl : v = y := by simpa [ToCamera.isFor] using hmsg
        exact ⟨c', hconn, .inl ⟨x, hx, hforward, by rw [hfd]; exact beq_self_eq_true _⟩⟩
  · intro c' hc'
    obtain ⟨hempty, hback, hno⟩ := hw.unopened c' hc'
    have hne : c' ≠ c := by
      rintro rfl
      exact hno _ hfd
    exact ⟨(Function.update_of_ne hne ..).trans hempty, hback, hno⟩

private theorem forward_inv {w u : Broker} {v : Nat} {ok : Bool} (hw : w.Inv)
    (h : w.forwardStep v ok = some u) : u.Inv := by
  obtain ⟨x, hx, rfl⟩ := Option.map_eq_some_iff.mp h
  obtain ⟨hx, hpc⟩ := viewerAt_some hx
  split
  · split
    · next c hfd => exact forwarded_inv hw hx hpc hfd
    · exact viewer_inv hw hx fun h ↦ by cases h
  · exact viewer_inv hw hx fun h ↦ by cases h

/-- The NAT changes a mapping no phone on its way was told. -/
private theorem rebind_inv {w : Broker} {s : Nat} {b : EdgeBinding} (hw : w.Inv)
    (hc : w.Undisturbed (.rebind s b)) :
    { w with mapping := Function.update w.mapping s b }.Inv := by
  refine ⟨hw.cam, ?_, hw.used, hw.unopened, hw.offline, hw.unasked⟩
  intro v hv
  obtain ⟨b', hb', hrealloc, hmap⟩ := hw.pending v hv
  refine ⟨b', hb', hrealloc, ?_⟩
  intro sock hsock
  by_cases hs : sock = s
  · subst hs
    rcases hc hsock with hc | hc
    · simp only [hc, Function.update_eq_self]
      exact hmap sock hsock
    · have hno := hw.pending_iff w.pending (fun _ h ↦ h) hc v
      have hv : w.pending v = true := hv
      rw [hno] at hv
      cases hv
  · exact (Function.update_of_ne hs ..).trans (hmap sock hsock)

private theorem step_inv (node : Node) (w : Broker) (e : Event) (u : Broker)
    (hc : w.Undisturbed e) (hw : w.Inv) (h : w.step node e = some u) : u.Inv := by
  cases e with
  | cam e => exact camStep_inv hw hc h
  | deliver => exact deliver_inv hw h
  | rebind s b =>
    cases h
    exact rebind_inv hw hc
  | accept c fd => exact accept_inv hw hc h
  | read c =>
    simp only [step, readStep] at h
    split at h
    · next fd msg rest hpc hup =>
      have hback : w.handler c ≠ .backlog := by rw [hpc]; exact fun h ↦ by cases h
      cases msg with
      | register srflx =>
        cases h
        exact handler_inv hw hback
      | ping | pong =>
        cases h
        exact server_inv hw ⟨rfl, rfl, rfl, rfl, rfl⟩ (fun _ _ h ↦ h) (fun _ h ↦ .inl h)
          hw.unopened hw.unasked
    · cases h
  | register c now =>
    simp only [step, registerStep] at h
    split at h
    · next fd req hpc =>
      cases h
      exact handler_inv hw (by rw [hpc]; exact fun h ↦ by cases h)
    · cases h
  | reply c ok =>
    simp only [step, replyStep] at h
    split at h
    · next fd msg hpc =>
      cases h
      have hback : w.handler c ≠ .backlog := by rw [hpc]; exact fun h ↦ by cases h
      have hlt : c < w.nextConn := by
        by_contra hge
        exact hback (hw.unopened c (Nat.le_of_not_lt hge)).2.1
      have hput : (w.putHandler c (msg.next fd)).Inv := handler_inv hw hback
      split
      · exact push_inv hput hlt
      · exact hput
    · cases h
  | hangup c =>
    simp only [step, hangupStep] at h
    split at h
    · next fd hpc =>
      cases h
      exact handler_inv hw (by rw [hpc]; exact fun h ↦ by cases h)
    · cases h
  | leave c =>
    simp only [step, leaveStep] at h
    split at h
    · next fd hpc =>
      cases h
      exact handler_inv hw (by rw [hpc]; exact fun h ↦ by cases h)
    · cases h
  | close c =>
    simp only [step, closeStep] at h
    split at h
    · next fd hpc =>
      cases h
      have hput : (w.putHandler c .ended).Inv :=
        handler_inv hw (by rw [hpc]; exact fun h ↦ by cases h)
      exact unlink_inv hput fd
    · cases h
  | request req =>
    cases h
    exact request_inv hw hc
  | mark v ip now =>
    obtain ⟨x, hx, rfl⟩ := Option.map_eq_some_iff.mp h
    obtain ⟨hx, hpc⟩ := viewerAt_some hx
    exact viewer_inv hw hx fun _ ↦ by rw [Viewer.toForward, hpc]; rfl
  | forward v ok => exact forward_inv hw h
  | erase v =>
    obtain ⟨x, hx, rfl⟩ := Option.map_eq_some_iff.mp h
    exact viewer_inv hw (viewerAt_some hx).1 fun h ↦ by cases h
  | answer v =>
    obtain ⟨x, hx, rfl⟩ := Option.map_eq_some_iff.mp h
    exact viewer_inv hw (viewerAt_some hx).1 fun h ↦ by cases h

/-- In an undisturbed run every phone is told the mapping of the socket the camera hands over
for it. -/
theorem told_is_used {node : Node} {mapping : Nat → EdgeBinding} {es : List Event} {w : Broker}
    (hc : Always (step node) Undisturbed (start mapping) es)
    (hr : run (step node) (start mapping) es = some w) {v s : Nat} {x : Viewer} {m : EdgeBinding}
    (hx : w.viewers v = some x) (hused : w.used v = some (s, m)) : x.told = m := by
  have hw : w.Inv := invariant_run (step node) (step_inv node) hc (start_inv mapping) hr
  have htold := hw.used v s m hused
  rw [told, hx] at htold
  exact Option.some.inj htold

/-- Behind the NAT every socket has a port of its own. -/
def onePortEach (sock : Nat) : EdgeBinding := ⟨lit "198.51.100.7", 50000 + sock⟩

/-- A camera. -/
def someNode : Node := ⟨lit "cam", [], true⟩

/-- The camera registers its first socket. -/
def registeredEvents : List Event :=
  [.cam (.allocated (some 0) 50000), .cam (.discovered (some (onePortEach 0))), .cam (.opened true),
    .cam (.sent true), .accept 0 5, .read 0, .register 0 0, .reply 0 true, .deliver]

/-- A phone asks and is answered. -/
def requestEvents (viewer : Nat) : List Event :=
  [.request ⟨lit "cam", lit "203.0.113.9", 40000, []⟩, .mark viewer [] 0, .forward viewer true,
    .answer viewer]

/-- The camera hands its socket over and registers another one. -/
def rotateEvents : List Event :=
  [.deliver, .cam .posted, .cam (.allocated (some 1) 50001),
    .cam (.discovered (some (onePortEach 1))), .cam (.sent true), .read 0, .register 0 0,
    .reply 0 true, .deliver]

theorem told_is_used_one_after_another : ∃ w x m,
    run (step someNode) (start onePortEach)
      (registeredEvents ++ requestEvents 0 ++ rotateEvents ++ requestEvents 1 ++
        [.deliver, .cam .posted]) = some w ∧
      w.viewers 1 = some x ∧ w.used 1 = some (1, m) ∧ x.told = m := by
  have hrun : ∃ w, run (step someNode) (start onePortEach)
      (registeredEvents ++ requestEvents 0 ++ rotateEvents ++ requestEvents 1 ++
        [.deliver, .cam .posted]) = some w ∧
      ((w.viewers 1).isSome = true ∧ w.used 1 = some (1, onePortEach 1)) :=
    exists_run (step someNode) _ (by decide +kernel)
  obtain ⟨w, hr, hviewer, hused⟩ := hrun
  obtain ⟨x, hx⟩ := Option.isSome_iff_exists.mp hviewer
  exact ⟨w, x, _, hr, hx, hused, told_is_used (by decide +kernel) hr hx hused⟩

/-- Two phones back to back: the second is told the mapping of the socket of the first. -/
theorem told_of_first_socket : ∃ w,
    run (step someNode) (start onePortEach)
      (registeredEvents ++ requestEvents 0 ++ requestEvents 1 ++
        [.deliver, .cam .posted, .cam (.allocated (some 1) 50001),
          .cam (.discovered (some (onePortEach 1))), .cam (.sent true), .deliver,
          .cam .posted]) = some w ∧
      ((w.viewers 1).any (·.pc = .answered) = true ∧ w.told 1 = some (onePortEach 0) ∧
        w.used 1 = some (1, onePortEach 1) ∧ onePortEach 0 ≠ onePortEach 1) :=
  exists_run (step someNode) (fun w ↦ (w.viewers 1).any (·.pc = .answered) = true ∧
    w.told 1 = some (onePortEach 0) ∧ w.used 1 = some (1, onePortEach 1) ∧
    onePortEach 0 ≠ onePortEach 1) (by decide +kernel)

end Broker

end Kitty.Srt
