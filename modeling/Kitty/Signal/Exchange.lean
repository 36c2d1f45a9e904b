import Kitty.Base.Custody
import Kitty.Base.Run

/-!
# Exchanges over a shared socket

The calls of `connect_to_camera_attempt` and `reconnect_camera_ice_attempt` send a REQUEST and
read its reply on the one signaling socket, under a lock, and open another socket when the send
has failed, without the lock; `src/consumer-srt-cloud/_legacy_libjuice_consumer_api.c:345–384,
1502–1547,1944–1991,2147–2182`. The server answers the requests of a connection in their order.
-/

namespace Kitty.Signal

open Kitty.Base

/-- A connection to the server, from `socket` on: whether `connect` has succeeded; whether it is
broken; the calls whose REQUESTs the server has yet to answer; the calls whose replies were not
read yet; and those the server has answered. -/
structure Connection where
  connected : Bool
  lost : Bool
  requests : List Nat
  replies : List Nat
  served : List Nat

/-- The REQUESTs whose replies are still to be read. -/
def Connection.traffic (c : Connection) : List Nat := c.replies ++ c.requests

/-- Where a call is, in its first or second attempt: before it locks for an exchange; before
`send_message`, and in it, with the socket it was given; before `recv_message`, and in it; before
it unlocks, with what the two have returned; before it locks to close the socket; at the test of
the socket; before `close`; before the socket is set to −1; before it unlocks; in `getaddrinfo`;
in `socket`; before the result is stored; at the test of the socket; before `connect`, and in it;
done. A socket of −1 is `none`. -/
inductive CallPc where
  | waiting (attempt : Nat)
  | locked (attempt : Nat)
  | sending (attempt : Nat) (conn : Option Nat)
  | sent (attempt conn : Nat)
  | receiving (attempt sentOn : Nat) (conn : Option Nat)
  | unlocking (attempt : Nat) (sentOk recvOk : Bool)
  | failed | checking | closing | resetting | unlocked | resolving | creating
  | storing (sock : Option Nat)
  | stored | connect
  | connecting (conn : Option Nat)
  | done
  deriving DecidableEq

/-- The call has the lock. -/
def CallPc.holds : CallPc → Bool
  | .locked _ | .sending _ _ | .sent _ _ | .receiving _ _ _ | .unlocking _ _ _ | .checking
  | .closing | .resetting | .unlocked => true
  | _ => false

/-- The connection a call is exchanging messages on. -/
def CallPc.exchange : CallPc → Option Nat
  | .sending _ conn => conn
  | .sent _ conn | .receiving _ conn _ => some conn
  | _ => none

/-- The connection a call has sent its REQUEST on and reads the reply from. -/
def CallPc.awaits : CallPc → Option Nat
  | .sent _ conn | .receiving _ conn _ => some conn
  | _ => none

/-- The socket a call has opened and not stored yet. -/
def CallPc.opened : CallPc → Option Nat
  | .storing sock => sock
  | _ => none

/-- What a call is about to store. -/
def CallPc.stores : CallPc → Option (Option Nat)
  | .storing sock => some sock
  | _ => none

/-- A reply that was read: by which call, the connection its REQUEST was sent on, the connection
it was read from, and the call it was the reply to. -/
structure Consumed where
  call : Nat
  sentOn : Nat
  readFrom : Nat
  reply : Nat
  deriving DecidableEq

/-- `vms_state` with the calls and the connections. Sockets are numbered as they are opened, and
`closes` counts how often each was closed. -/
structure Vms where
  lockedBy : Option Nat
  sock : Option Nat
  next : Nat
  conns : Nat → Connection
  closes : Nat → Nat
  calls : Nat → CallPc
  consumed : List Consumed

namespace Vms

/-- `main` has opened the first socket; all calls are to come. -/
def start : Vms where
  lockedBy := none
  sock := some 0
  next := 1
  conns c := ⟨c == 0, false, [], [], []⟩
  closes _ := 0
  calls _ := .waiting 0
  consumed := []

/-- What a step of a call returns. A reply that does not fit the buffer is read and dropped, and
`recv_message` fails. -/
inductive Outcome where
  | ok
  | fail
  | dropped
  deriving DecidableEq

/-- What happens: a call goes on; a connection breaks; the server answers a REQUEST. -/
inductive Label where
  | run (call : Nat) (o : Outcome)
  | lose (conn : Nat)
  | serve (conn : Nat)

/-- A call goes on. -/
def put (w : Vms) (t : Nat) (pc : CallPc) : Vms :=
  { w with calls := Function.update w.calls t pc }

/-- `pthread_mutex_lock`. -/
def lock (w : Vms) (t : Nat) (pc : CallPc) : Option Vms :=
  if w.lockedBy = none then some { w.put t pc with lockedBy := some t } else none

/-- A connection changes. -/
def setConn (w : Vms) (c : Nat) (x : Connection) : Vms :=
  { w with conns := Function.update w.conns c x }

/-- The socket is connected, and was not closed. -/
def usable (w : Vms) (c : Nat) : Bool := (w.conns c).connected && w.closes c == 0

/-- The calls on the socket do not fail. -/
def reliable (w : Vms) (c : Nat) : Bool := w.usable c && !(w.conns c).lost

/-- A REQUEST is sent; on a broken connection it does not arrive. -/
def deliver (w : Vms) (t c : Nat) : Vms :=
  let x := w.conns c
  w.setConn c { x with requests := if x.lost then x.requests else x.requests ++ [t] }

/-- Nothing more is read from a broken connection. -/
def discard (w : Vms) (c : Nat) : Vms :=
  w.setConn c { w.conns c with requests := [], replies := [] }

/-- `close(fd)`, which fails for −1. -/
def close (w : Vms) : Option Nat → Vms
  | some c => { w with closes := Function.update w.closes c (w.closes c + 1) }
  | none => w

/-- `send_message` returns. -/
def sendStep (w : Vms) (t attempt : Nat) (conn : Option Nat) : Outcome → Option Vms
  | .ok => conn.bind fun c ↦
      if w.usable c then some ((w.deliver t c).put t (.sent attempt c)) else none
  | .fail | .dropped =>
    if conn.any w.reliable then none else some (w.put t (.unlocking attempt false false))

/-- `recv_message` returns. -/
def recvStep (w : Vms) (t attempt sentOn : Nat) (conn : Option Nat) (o : Outcome) : Option Vms :=
  match conn, o with
  | none, .fail => some (w.put t (.unlocking attempt true false))
  | none, _ => none
  | some c, .fail =>
    if w.reliable c then none else some ((w.discard c).put t (.unlocking attempt true false))
  | some c, o =>
    match (w.conns c).replies with
    | [] => none
    | reply :: rest =>
      if w.usable c then some
        { (w.setConn c { w.conns c with replies := rest }).put t
            (.unlocking attempt true (o == .ok)) with
          consumed := w.consumed ++ [⟨t, sentOn, c, reply⟩] }
      else none

/-- `connect` returns. -/
def connectStep (w : Vms) (t : Nat) (conn : Option Nat) : Outcome → Option Vms
  | .ok => conn.bind fun c ↦
      if w.closes c = 0 ∧ (w.conns c).connected = false then
        some ((w.setConn c { w.conns c with connected := true }).put t (.waiting 1))
      else none
  | .fail | .dropped => some (w.put t .done)

/-- The next thing a call does. Only a REQUEST that could not be sent is sent a second time. -/
def callStep (w : Vms) (t : Nat) (o : Outcome) : Option Vms :=
  match w.calls t with
  | .waiting attempt => w.lock t (.locked attempt)
  | .locked attempt => some (w.put t (.sending attempt w.sock))
  | .sending attempt conn => w.sendStep t attempt conn o
  | .sent attempt conn => some (w.put t (.receiving attempt conn w.sock))
  | .receiving attempt sentOn conn => w.recvStep t attempt sentOn conn o
  | .unlocking attempt sentOk _ => some
      { w.put t (if !sentOk && attempt == 0 then .failed else .done) with lockedBy := none }
  | .failed => w.lock t .checking
  | .checking => some (w.put t (if w.sock = none then .resetting else .closing))
  | .closing => some ((w.close w.sock).put t .resetting)
  | .resetting => some { w.put t .unlocked with sock := none }
  | .unlocked => some { w.put t .resolving with lockedBy := none }
  | .resolving => some (w.put t (if o = .ok then .creating else .done))
  | .creating =>
    if o = .ok then some { w.put t (.storing (some w.next)) with next := w.next + 1 }
    else some (w.put t (.storing none))
  | .storing sock => some { w.put t .stored with sock }
  | .stored => some (w.put t (if w.sock = none then .done else .connect))
  | .connect => some (w.put t (.connecting w.sock))
  | .connecting conn => w.connectStep t conn o
  | .done => none

/-- One event. -/
def step (w : Vms) : Label → Option Vms
  | .run t o => w.callStep t o
  | .lose c => some (w.setConn c { w.conns c with lost := true })
  | .serve c =>
    match (w.conns c).requests with
    | [] => none
    | r :: rest =>
      let x := w.conns c
      if x.lost then none
      else some (w.setConn c
        { x with requests := rest, replies := x.replies ++ [r], served := x.served ++ [r] })

/-- The lock is held by a call that is about to set the socket to −1. -/
def resetting (w : Vms) : Bool := w.lockedBy.any fun t ↦ w.calls t == .resetting

/-- A socket is stored where there is none, and none that is stored is set to −1 unseen. -/
def StoredAlone (w : Vms) : Label → Prop
  | .run t _ => ∀ sock ∈ (w.calls t).stores, w.sock = none ∧ (sock = none ∨ w.resetting = false)
  | _ => True

/-- Requests and replies belong together: a call reads the reply to its own REQUEST, from where
that was sent; what was sent or answered and not read yet is of a call that reads there; what the
server has answered was read by the call it was for, unless the connection broke; every socket
was closed once, or not yet while it is the one to use or is about to be; and not while a call
exchanges messages on it. -/
structure Paired (w : Vms) : Prop where
  own : ∀ e ∈ w.consumed, e.reply = e.call ∧ e.readFrom = e.sentOn
  awaited : ∀ c, ∀ t ∈ (w.conns c).traffic, (w.calls t).awaits = some c
  answered : ∀ c, ∀ t ∈ (w.conns c).served, (w.conns c).lost = true ∨
    (w.calls t).awaits = some c ∨ ∃ e ∈ w.consumed, e.call = t ∧ e.readFrom = c
  settled : ∀ c < w.next, w.closes c = 1 ∨
    w.closes c = 0 ∧ (w.sock = some c ∨ ∃ t, w.calls t = .storing (some c))
  untouched : ∀ t c, (w.calls t).exchange = some c → w.closes c = 0

instance (w : Vms) : (l : Label) → Decidable (w.StoredAlone l)
  | .run _ _ => inferInstanceAs (Decidable (∀ _ ∈ _, _))
  | .lose _ | .serve _ => isTrue trivial

/-! ### Who has a socket -/

/-- The shared socket, until it is closed. -/
def shared (w : Vms) : Option Nat := if w.resetting then none else w.sock

/-- The sockets, shared or in a call, as things that are opened and closed. -/
def custody (w : Vms) : Custody (Option Nat) where
  held
    | none => w.shared
    | some t => (w.calls t).opened
  released := w.closes
  next := w.next

/-- As long as sockets are stored alone. All that is on its way is of the one call that has the
lock, and it is on the shared socket. -/
structure Inv (w : Vms) : Prop where
  held : ∀ t, (w.calls t).holds = true ↔ w.lockedBy = some t
  sound : w.custody.Sound
  current : ∀ t c, (w.calls t).exchange = some c → w.sock = some c
  same : ∀ t attempt sentOn conn,
    w.calls t = .receiving attempt sentOn conn → conn = some sentOn
  linked : ∀ t c, (w.calls t).awaits = some c → (w.conns c).connected = true
  traffic : ∀ c, (w.conns c).traffic = [] ∨
    ∃ t, (w.calls t).awaits = some c ∧ (w.conns c).traffic = [t]
  answered : ∀ c, ∀ t ∈ (w.conns c).served, (w.conns c).lost = true ∨
    t ∈ (w.conns c).replies ∨ ∃ e ∈ w.consumed, e.call = t ∧ e.readFrom = c
  own : ∀ e ∈ w.consumed, e.reply = e.call ∧ e.readFrom = e.sentOn

attribute [local simp] CallPc.holds CallPc.exchange CallPc.awaits CallPc.opened CallPc.stores

theorem start_inv : start.Inv where
  held t := ⟨fun h ↦ (by cases h), fun h ↦ (by cases h)⟩
  sound := by
    have hstart : start.custody = (Custody.start (Option Nat)).acquire none := by
      unfold custody Custody.acquire Custody.start
      congr
      funext p
      cases p <;> rfl
    rw [hstart]
    exact Custody.start_sound.acquire rfl
  current t c h := by cases h
  same t _ _ _ h := by cases h
  linked t c h := by cases h
  traffic c := .inl rfl
  answered c t h := by cases h
  own e h := by cases h

private theorem holds_of_exchange {pc : CallPc} {c : Nat} (h : pc.exchange = some c) :
    pc.holds = true := by
  cases pc <;> first | rfl | cases h

private theorem exchange_of_awaits {pc : CallPc} {c : Nat} (h : pc.awaits = some c) :
    pc.exchange = some c := by
  cases pc <;> first | exact h | cases h

/-- Only one call has the lock. -/
private theorem Inv.holder {w : Vms} (hw : w.Inv) {t x : Nat} (ht : (w.calls t).holds = true)
    (hx : (w.calls x).holds = true) : x = t := by
  have h := (hw.held x).mp hx
  rw [(hw.held t).mp ht] at h
  exact (Option.some.inj h).symm

/-- While a call exchanges messages the shared socket is open. -/
private theorem Inv.shared_of_exchange {w : Vms} (hw : w.Inv) {t c : Nat}
    (h : (w.calls t).exchange = some c) : w.shared = some c ∧ w.closes c = 0 := by
  have hlock := (hw.held t).mp (holds_of_exchange h)
  have hshared : w.shared = some c := by
    have hne : w.calls t ≠ .resetting := fun hpc ↦ by
      rw [hpc] at h
      cases h
    rw [shared, resetting, hlock, hw.current t c h]
    simp [hne]
  exact ⟨hshared, (hw.sound.unreleased none c hshared).2⟩

/-- What is on its way on the connection of a call is its own. -/
private theorem Inv.traffic_of_awaits {w : Vms} (hw : w.Inv) {t c : Nat}
    (h : (w.calls t).awaits = some c) : (w.conns c).traffic = [] ∨ (w.conns c).traffic = [t] := by
  apply (hw.traffic c).imp_right
  rintro ⟨x, hx, htraffic⟩
  have hxt := hw.holder (holds_of_exchange (exchange_of_awaits h))
    (holds_of_exchange (exchange_of_awaits hx))
  rw [htraffic, hxt]

/-- An invariant state is paired. -/
private theorem Inv.paired {w : Vms} (hw : w.Inv) : w.Paired where
  own := hw.own
  awaited c t ht := by
    rcases hw.traffic c with h | ⟨x, hx, h⟩
    · rw [h] at ht
      cases ht
    · rw [h, List.mem_singleton] at ht
      rw [ht]
      exact hx
  answered c t ht := by
    refine (hw.answered c t ht).imp_right fun h ↦ h.imp_left ?_
    intro h
    rcases hw.traffic c with htraffic | ⟨x, hx, htraffic⟩
    · rw [Connection.traffic, List.append_eq_nil_iff] at htraffic
      rw [htraffic.1] at h
      cases h
    · have hmem : t ∈ (w.conns c).traffic := List.mem_append_left _ h
      rw [htraffic, List.mem_singleton] at hmem
      rw [hmem]
      exact hx
  settled c hc := by
    apply (hw.sound.settled c hc).imp_right
    rintro ⟨p, hp⟩
    refine ⟨(hw.sound.unreleased p c hp).2, ?_⟩
    cases p with
    | none =>
      have hshared : w.shared = some c := hp
      unfold shared at hshared
      split at hshared
      · cases hshared
      · exact .inl hshared
    | some t =>
      have hopened : (w.calls t).opened = some c := hp
      refine .inr ⟨t, ?_⟩
      cases hpc : w.calls t <;> rw [hpc] at hopened <;> cases hopened
      rfl
  untouched t c h := (hw.shared_of_exchange h).2

/-! ### One step -/

/-- A call goes on. What is on its way on a connection stays there, unless it is of this call. -/
private theorem Inv.goOn {w u : Vms} {t : Nat} {pc : CallPc} (hw : w.Inv)
    (hcalls : u.calls = Function.update w.calls t pc)
    (hheld : pc.holds = true ↔ u.lockedBy = some t)
    (hothers : ∀ x, x ≠ t → (u.lockedBy = some x ↔ w.lockedBy = some x))
    (hsound : u.custody.Sound)
    (hsock : ∀ x c, x ≠ t → (w.calls x).exchange = some c → u.sock = w.sock)
    (hcurrent : ∀ c, pc.exchange = some c → u.sock = some c)
    (hsame : ∀ attempt sentOn conn, pc = .receiving attempt sentOn conn → conn = some sentOn)
    (hlinked : ∀ c, (w.conns c).connected = true → (u.conns c).connected = true)
    (hawaits : ∀ c, pc.awaits = some c → (w.conns c).connected = true)
    (htraffic : ∀ c, (u.conns c).traffic = [] ∨
      pc.awaits = some c ∧ (u.conns c).traffic = [t] ∨
      (w.calls t).awaits ≠ some c ∧ (u.conns c).traffic = (w.conns c).traffic)
    (hanswered : ∀ c, ∀ x ∈ (u.conns c).served, (u.conns c).lost = true ∨
      x ∈ (u.conns c).replies ∨ ∃ e ∈ u.consumed, e.call = x ∧ e.readFrom = c)
    (hown : ∀ e ∈ u.consumed, e.reply = e.call ∧ e.readFrom = e.sentOn) : u.Inv where
  held x := by
    rw [hcalls]
    by_cases hx : x = t
    · rw [hx, Function.update_self]
      exact hheld
    · rw [Function.update_of_ne hx, hothers x hx]
      exact hw.held x
  sound := hsound
  current x c h := by
    rw [hcalls] at h
    by_cases hx : x = t
    · rw [hx, Function.update_self] at h
      exact hcurrent c h
    · rw [Function.update_of_ne hx] at h
      exact (hsock x c hx h).trans (hw.current x c h)
  same x attempt sentOn conn h := by
    rw [hcalls] at h
    by_cases hx : x = t
    · rw [hx, Function.update_self] at h
      exact hsame attempt sentOn conn h
    · rw [Function.update_of_ne hx] at h
      exact hw.same x attempt sentOn conn h
  linked x c h := by
    rw [hcalls] at h
    by_cases hx : x = t
    · rw [hx, Function.update_self] at h
      exact hlinked c (hawaits c h)
    · rw [Function.update_of_ne hx] at h
      exact hlinked c (hw.linked x c h)
  traffic c := by
    rw [hcalls]
    rcases htraffic c with h | ⟨hpc, h⟩ | ⟨hpc, h⟩
    · exact .inl h
    · exact .inr ⟨t, by rw [Function.update_self, hpc], h⟩
    · rw [h]
      refine (hw.traffic c).imp_right fun ⟨x, hx, hxtraffic⟩ ↦ ⟨x, ?_, hxtraffic⟩
      have hne : x ≠ t := by
        rintro rfl
        exact hpc hx
      rw [Function.update_of_ne hne, hx]
  answered := hanswered
  own := hown

private theorem custody_eq {u w : Vms} (hshared : u.shared = w.shared)
    (hopened : ∀ t, (u.calls t).opened = (w.calls t).opened) (hcloses : u.closes = w.closes)
    (hnext : u.next = w.next) : u.custody = w.custody := by
  unfold custody
  congr
  funext p
  cases p with
  | none => exact hshared
  | some t => exact hopened t

/-- A call goes on, and may lock or unlock. -/
private theorem Inv.move {w : Vms} {t : Nat} {pc : CallPc} {lockedBy : Option Nat} (hw : w.Inv)
    (hheld : pc.holds = true ↔ lockedBy = some t)
    (hothers : ∀ x, x ≠ t → (lockedBy = some x ↔ w.lockedBy = some x))
    (hshared : { w.put t pc with lockedBy }.shared = w.shared)
    (hopened : pc.opened = (w.calls t).opened)
    (hcurrent : ∀ c, pc.exchange = some c → w.sock = some c)
    (hsame : ∀ attempt sentOn conn, pc = .receiving attempt sentOn conn → conn = some sentOn)
    (hawaits : pc.awaits = (w.calls t).awaits) : { w.put t pc with lockedBy }.Inv := by
  refine hw.goOn rfl hheld hothers ?_ (fun _ _ _ _ ↦ rfl) hcurrent hsame (fun _ h ↦ h)
    (fun c h ↦ hw.linked t c (hawaits ▸ h)) ?_ hw.answered hw.own
  · have hcustody : { w.put t pc with lockedBy }.custody = w.custody := by
      refine custody_eq hshared ?_ rfl rfl
      intro x
      by_cases hx : x = t
      · simp only [put, hx, Function.update_self]
        exact hopened
      · simp only [put, Function.update_of_ne hx]
    rw [hcustody]
    exact hw.sound
  · intro c
    by_cases hc : (w.calls t).awaits = some c
    · exact (hw.traffic_of_awaits hc).imp_right fun h ↦ .inl ⟨hawaits.trans hc, h⟩
    · exact .inr (.inr ⟨hc, rfl⟩)

/-- The shared socket stays what it is while a call with the lock goes on with it, but not to
set it to −1. -/
private theorem shared_put {w : Vms} {t : Nat} {pc : CallPc} (hpc : pc ≠ .resetting)
    (hold : w.calls t ≠ .resetting) : (w.put t pc).shared = w.shared := by
  have h : (w.put t pc).resetting = w.resetting := by
    unfold resetting
    cases hl : w.lockedBy with
    | none => simp [put, hl]
    | some x =>
      simp only [put, hl, Option.any_some]
      by_cases hx : x = t
      · simp [hx, hpc, hold]
      · rw [Function.update_of_ne hx]
  rw [shared, h]
  rfl

/-- A call goes on without the lock, or with it. -/
private theorem Inv.stay {w : Vms} {t : Nat} {pc : CallPc} (hw : w.Inv)
    (hheld : pc.holds = (w.calls t).holds) (hpc : pc ≠ .resetting) (hold : w.calls t ≠ .resetting)
    (hopened : pc.opened = (w.calls t).opened)
    (hcurrent : ∀ c, pc.exchange = some c → w.sock = some c)
    (hsame : ∀ attempt sentOn conn, pc = .receiving attempt sentOn conn → conn = some sentOn)
    (hawaits : pc.awaits = (w.calls t).awaits) : (w.put t pc).Inv :=
  hw.move (by rw [hheld]; exact hw.held t) (fun _ _ ↦ Iff.rfl) (shared_put hpc hold) hopened
    hcurrent
    hsame hawaits

/-- A call gets the lock. -/
private theorem Inv.locks {w u : Vms} {t : Nat} {pc : CallPc} (hw : w.Inv)
    (hheld : pc.holds = true) (hexchange : pc.exchange = none) (hpc : pc ≠ .resetting)
    (hopened : pc.opened = (w.calls t).opened) (hawaits : pc.awaits = (w.calls t).awaits)
    (h : w.lock t pc = some u) : u.Inv := by
  obtain ⟨hfree, h⟩ := Option.ite_none_right_eq_some.mp h
  cases h
  refine hw.move (by simp [hheld, -CallPc.holds]) ?_ ?_ hopened ?_ ?_
    hawaits
  · intro x hx
    rw [hfree]
    simp [Ne.symm hx]
  · simp [shared, resetting, hfree, put, hpc]
  · intro c h
    rw [hexchange] at h
    cases h
  · intro _ _ _ h
    rw [h] at hexchange
    cases hexchange

/-- A call gives the lock back. -/
private theorem Inv.unlocks {w : Vms} {t : Nat} {pc : CallPc} (hw : w.Inv)
    (hlock : (w.calls t).holds = true) (hheld : pc.holds = false) (hold : w.calls t ≠ .resetting)
    (hopened : pc.opened = (w.calls t).opened) (hawaits : pc.awaits = (w.calls t).awaits) :
    { w.put t pc with lockedBy := none }.Inv := by
  have hl : w.lockedBy = some t := (hw.held t).mp hlock
  have hexchange : ∀ c, pc.exchange ≠ some c := fun c h ↦ by
    rw [holds_of_exchange h] at hheld
    cases hheld
  refine hw.move (by simp [hheld, -CallPc.holds]) ?_ ?_ hopened (fun c h ↦ absurd h (hexchange c))
    ?_ hawaits
  · intro x hx
    rw [hl]
    simp [Ne.symm hx]
  · simp [shared, resetting, hl, hold, put]
  · intro _ sentOn _ h
    exact absurd (by rw [h]; rfl) (hexchange sentOn)

/-- What happens to a connection while nothing is sent or read on it. -/
private theorem Inv.conn {w : Vms} {c : Nat} {x : Connection} (hw : w.Inv)
    (hconnected : (w.conns c).connected = true → x.connected = true)
    (htraffic : x.traffic = (w.conns c).traffic)
    (hanswered : ∀ t ∈ x.served, x.lost = true ∨ t ∈ x.replies ∨
      ∃ e ∈ w.consumed, e.call = t ∧ e.readFrom = c) : (w.setConn c x).Inv where
  held := hw.held
  sound := hw.sound
  current := hw.current
  same := hw.same
  linked t c' h := by
    by_cases hc : c' = c
    · subst hc
      simp only [setConn, Function.update_self]
      exact hconnected (hw.linked t c' h)
    · simp only [setConn, Function.update_of_ne hc]
      exact hw.linked t c' h
  traffic c' := by
    have h : ((w.setConn c x).conns c').traffic = (w.conns c').traffic := by
      by_cases hc : c' = c
      · simp only [setConn, hc, Function.update_self, htraffic]
      · simp only [setConn, Function.update_of_ne hc]
    rw [h]
    exact hw.traffic c'
  answered c' t ht := by
    by_cases hc : c' = c
    · subst hc
      simp only [setConn, Function.update_self] at ht ⊢
      exact hanswered t ht
    · simp only [setConn, Function.update_of_ne hc] at ht ⊢
      exact hw.answered c' t ht
  own := hw.own

/-- A REQUEST is sent: nothing else was on its way. -/
private theorem sent_inv {w : Vms} {t attempt c : Nat} (hw : w.Inv)
    (hpc : w.calls t = .sending attempt (some c)) (husable : w.usable c = true) :
    ((w.deliver t c).put t (.sent attempt c)).Inv := by
  have hold : (w.calls t).exchange = some c := by rw [hpc]; rfl
  have hheld : (w.calls t).holds = true := holds_of_exchange hold
  have hconnected : (w.conns c).connected = true := (Bool.and_eq_true_iff.mp husable).1
  have hempty : (w.conns c).traffic = [] := by
    apply (hw.traffic c).resolve_right
    rintro ⟨x, hx, _⟩
    rw [hw.holder hheld (holds_of_exchange (exchange_of_awaits hx)), hpc] at hx
    cases hx
  refine hw.goOn rfl (by simp [CallPc.holds, put, deliver, setConn, (hw.held t).mp hheld])
    (fun _ _ ↦ Iff.rfl) ?_ (fun _ _ _ _ ↦ rfl) ?_ (fun _ _ _ h ↦ by cases h)
    ?_ ?_ ?_ ?_ hw.own
  · have hcustody : ((w.deliver t c).put t (.sent attempt c)).custody = w.custody := by
      refine custody_eq (shared_put (by simp) (by rw [deliver, setConn, hpc]; simp)) ?_
        rfl rfl
      intro x
      by_cases hx : x = t
      · simp only [put, hx, Function.update_self, hpc]
        rfl
      · simp only [put, Function.update_of_ne hx]
        rfl
    rw [hcustody]
    exact hw.sound
  · intro c' h
    cases h
    exact hw.current t c hold
  · intro c' h
    by_cases hc : c' = c
    · simp only [put, deliver, setConn, hc, Function.update_self, hconnected]
    · simp only [put, deliver, setConn, Function.update_of_ne hc]
      exact h
  · intro c' h
    cases h
    exact hconnected
  · intro c'
    by_cases hc : c' = c
    · rw [Connection.traffic, List.append_eq_nil_iff] at hempty
      simp only [put, deliver, setConn, hc, Function.update_self, Connection.traffic, hempty.1,
        hempty.2]
      split
      · exact .inl rfl
      · exact .inr (.inl ⟨rfl, rfl⟩)
    · refine .inr (.inr ⟨?_, ?_⟩)
      · rw [hpc]
        simp [CallPc.awaits]
      · simp only [put, deliver, setConn, Function.update_of_ne hc]
  · intro c'
    by_cases hc : c' = c
    · simp only [put, deliver, setConn, hc, Function.update_self]
      exact hw.answered c
    · simp only [put, deliver, setConn, Function.update_of_ne hc]
      exact hw.answered c'

/-- A call stops reading, when nothing is left on its way on its connection. -/
private theorem received_inv {w : Vms} {t attempt c : Nat} {recvOk : Bool} {x : Connection}
    {consumed : List Consumed} (hw : w.Inv) (hpc : w.calls t = .receiving attempt c (some c))
    (hconnected : x.connected = (w.conns c).connected) (htraffic : x.traffic = [])
    (hanswered : ∀ r ∈ x.served, x.lost = true ∨ r ∈ x.replies ∨
      ∃ e ∈ consumed, e.call = r ∧ e.readFrom = c)
    (hmore : ∀ e ∈ w.consumed, e ∈ consumed)
    (hown : ∀ e ∈ consumed, e.reply = e.call ∧ e.readFrom = e.sentOn) :
    { (w.setConn c x).put t (.unlocking attempt true recvOk) with consumed }.Inv := by
  have hheld : (w.calls t).holds = true := by rw [hpc]; rfl
  refine hw.goOn rfl (by simp [CallPc.holds, put, setConn, (hw.held t).mp hheld])
    (fun _ _ ↦ Iff.rfl) ?_ (fun _ _ _ _ ↦ rfl) (fun _ h ↦ by cases h) (fun _ _ _ h ↦ by cases h)
    ?_ (fun _ h ↦ by cases h) ?_ ?_ hown
  · have hshared : ((w.setConn c x).put t (.unlocking attempt true recvOk)).shared = w.shared :=
      shared_put (by simp) (by rw [setConn, hpc]; simp)
    have hcustody :
        { (w.setConn c x).put t (.unlocking attempt true recvOk) with consumed }.custody =
          w.custody := by
      refine custody_eq hshared ?_ rfl rfl
      intro y
      by_cases hy : y = t
      · simp only [put, hy, Function.update_self, hpc]
        rfl
      · simp only [put, Function.update_of_ne hy]
        rfl
    rw [hcustody]
    exact hw.sound
  · intro c' h
    by_cases hc : c' = c
    · simp only [put, setConn, hc, Function.update_self, hconnected]
      exact hc ▸ h
    · simp only [put, setConn, Function.update_of_ne hc]
      exact h
  · intro c'
    by_cases hc : c' = c
    · simp only [put, setConn, hc, Function.update_self, htraffic]
      exact .inl trivial
    · refine .inr (.inr ⟨?_, ?_⟩)
      · rw [hpc]
        exact fun h ↦ hc (Option.some.inj h).symm
      · simp only [put, setConn, Function.update_of_ne hc]
  · intro c' r hr
    by_cases hc : c' = c
    · subst hc
      simp only [put, setConn, Function.update_self] at hr ⊢
      exact hanswered r hr
    · simp only [put, setConn, Function.update_of_ne hc] at hr ⊢
      refine (hw.answered c' r hr).imp_right fun h ↦ h.imp_right ?_
      rintro ⟨e, he, h⟩
      exact ⟨e, hmore e he, h⟩

private theorem sendStep_inv {w u : Vms} {t attempt : Nat} {conn : Option Nat} {o : Outcome}
    (hw : w.Inv) (hpc : w.calls t = .sending attempt conn)
    (h : w.sendStep t attempt conn o = some u) : u.Inv := by
  have hfail : (w.put t (.unlocking attempt false false)).Inv :=
    hw.stay (by rw [hpc]; rfl) (by simp) (by simp [hpc]) (by rw [hpc]; rfl) (fun _ h ↦ by cases h)
      (fun _ _ _ h ↦ by cases h) (by rw [hpc]; rfl)
  unfold sendStep at h
  split at h
  · obtain ⟨c, rfl, h⟩ := Option.bind_eq_some_iff.mp h
    obtain ⟨husable, h⟩ := Option.ite_none_right_eq_some.mp h
    cases h
    exact sent_inv hw hpc husable
  all_goals
    split at h
    · cases h
    · cases h
      exact hfail

/-- A call reads from the connection its REQUEST was sent on, and finds its own reply. -/
private theorem recvStep_inv {w u : Vms} {t attempt sentOn : Nat} {conn : Option Nat} {o : Outcome}
    (hw : w.Inv) (hpc : w.calls t = .receiving attempt sentOn conn)
    (h : w.recvStep t attempt sentOn conn o = some u) : u.Inv := by
  obtain rfl : conn = some sentOn := hw.same t attempt sentOn conn hpc
  have hawaits : (w.calls t).awaits = some sentOn := by rw [hpc]; rfl
  have husable : w.usable sentOn = true := by
    rw [usable, hw.linked t sentOn hawaits,
      (hw.shared_of_exchange (exchange_of_awaits hawaits)).2]
    rfl
  have hread : ∀ recvOk reply rest, (w.conns sentOn).replies = reply :: rest →
      Inv { (w.setConn sentOn { w.conns sentOn with replies := rest }).put t
          (.unlocking attempt true recvOk) with
        consumed := w.consumed ++ [⟨t, sentOn, sentOn, reply⟩] } := by
    intro recvOk reply rest hreplies
    have htraffic : (w.conns sentOn).replies ++ (w.conns sentOn).requests = [t] := by
      apply (hw.traffic_of_awaits hawaits).resolve_left
      intro h
      rw [Connection.traffic, hreplies] at h
      cases h
    rw [hreplies, List.cons_append, List.cons.injEq, List.append_eq_nil_iff] at htraffic
    obtain ⟨rfl, rfl, hrequests⟩ := htraffic
    refine received_inv hw hpc rfl ?_ ?_
      (fun e he ↦ List.mem_append_left _ he) ?_
    · rw [Connection.traffic, hrequests]
      rfl
    · intro r hr
      refine (hw.answered sentOn r hr).imp_right fun h ↦ .inr ?_
      rcases h with h | ⟨e, he, h⟩
      · rw [hreplies, List.mem_singleton] at h
        exact ⟨_, List.mem_append_right _ (List.mem_singleton_self _), h.symm, rfl⟩
      · exact ⟨e, List.mem_append_left _ he, h⟩
    · intro e he
      rcases List.mem_append.mp he with he | he
      · exact hw.own e he
      · cases List.mem_singleton.mp he
        exact ⟨rfl, rfl⟩
  cases o with
  | fail =>
    simp only [recvStep] at h
    split at h
    · cases h
    · next hlost =>
      cases h
      refine received_inv hw hpc rfl rfl (fun r _ ↦ .inl ?_) (fun _ he ↦ he) hw.own
      simpa [reliable, husable] using hlost
  | ok | dropped =>
    simp only [recvStep, husable, if_true] at h
    split at h
    · cases h
    · next reply rest hreplies =>
      cases h
      exact hread _ reply rest hreplies

private theorem close_eq (w : Vms) (sock : Option Nat) :
    w.close sock = { w with closes := fun c ↦ w.closes c + if sock = some c then 1 else 0 } := by
  cases sock with
  | none => simp [close]
  | some c => rw [close, Custody.update_count]

/-- The shared socket is closed. -/
private theorem close_inv {w : Vms} {t : Nat} (hw : w.Inv) (hpc : w.calls t = .closing) :
    ((w.close w.sock).put t .resetting).Inv := by
  have hl : w.lockedBy = some t := (hw.held t).mp (by rw [hpc]; rfl)
  have hshared : w.shared = w.sock := by simp [shared, resetting, hl, hpc]
  rw [close_eq]
  refine hw.goOn rfl (by simp [CallPc.holds, put, hl]) (fun _ _ ↦ Iff.rfl) ?_
    (fun _ _ _ _ ↦ rfl) (fun _ h ↦ by cases h) (fun _ _ _ h ↦ by cases h) (fun _ h ↦ h)
    (fun _ h ↦ by cases h) (fun c ↦ .inr (.inr ⟨by simp [hpc, CallPc.awaits], rfl⟩)) hw.answered
    hw.own
  have hcustody :
      (put { w with closes := fun r ↦ w.closes r + if w.sock = some r then 1 else 0 } t
        .resetting).custody = w.custody.release none := by
    refine Custody.eq_release ?_ ?_ ?_ rfl
    · simp [custody, shared, resetting, put, hl]
    · intro p hp
      cases p with
      | none => exact absurd rfl hp
      | some x =>
        by_cases hx : x = t
        · simp [custody, put, hx, hpc, CallPc.opened]
        · simp [custody, put, Function.update_of_ne hx]
    · intro r
      simp [custody, hshared, put]
  rw [hcustody]
  exact hw.sound.release none

/-- A call that was to have no more to do with the shared socket forgets it, when it is closed. -/
private theorem reset_inv {w : Vms} {t : Nat} (hw : w.Inv) (hpc : w.calls t = .resetting) :
    { w.put t .unlocked with sock := none }.Inv := by
  have hheld : (w.calls t).holds = true := by rw [hpc]; rfl
  have hl : w.lockedBy = some t := (hw.held t).mp hheld
  refine hw.goOn rfl (by simp [CallPc.holds, put, hl]) (fun _ _ ↦ Iff.rfl) ?_
    (fun x c hx h ↦ absurd (hw.holder hheld (holds_of_exchange h)) hx) (fun _ h ↦ by cases h)
    (fun _ _ _ h ↦ by cases h) (fun _ h ↦ h) (fun _ h ↦ by cases h)
    (fun c ↦ .inr (.inr ⟨by simp [hpc, CallPc.awaits], rfl⟩)) hw.answered hw.own
  have hcustody : { w.put t .unlocked with sock := none }.custody = w.custody := by
    refine custody_eq ?_ ?_ rfl rfl
    · simp only [shared, resetting, hl, hpc, Option.any_some, beq_self_eq_true, if_true]
      exact ite_self none
    · intro x
      by_cases hx : x = t
      · simp [put, hx, hpc, CallPc.opened]
      · simp [put, Function.update_of_ne hx]
  rw [hcustody]
  exact hw.sound

/-- A call opens a socket. -/
private theorem create_inv {w : Vms} {t : Nat} (hw : w.Inv) (hpc : w.calls t = .creating) :
    { w.put t (.storing (some w.next)) with next := w.next + 1 }.Inv := by
  have hfree : w.lockedBy ≠ some t := fun h ↦ by
    have hheld := (hw.held t).mpr h
    rw [hpc] at hheld
    cases hheld
  refine hw.goOn rfl (by simp [CallPc.holds, put, hfree]) (fun _ _ ↦ Iff.rfl) ?_
    (fun _ _ _ _ ↦ rfl) (fun _ h ↦ by cases h) (fun _ _ _ h ↦ by cases h) (fun _ h ↦ h)
    (fun _ h ↦ by cases h) (fun c ↦ .inr (.inr ⟨by simp [hpc, CallPc.awaits], rfl⟩)) hw.answered
    hw.own
  have hshared : (w.put t (.storing (some w.next))).shared = w.shared :=
    shared_put (by simp) (by simp [hpc])
  have hcustody : { w.put t (.storing (some w.next)) with next := w.next + 1 }.custody =
      w.custody.acquire (some t) := by
    refine Custody.ext (funext ?_) rfl rfl
    intro p
    rw [Custody.held_acquire]
    cases p with
    | none => exact hshared
    | some x =>
      by_cases hx : x = t
      · simp [custody, put, hx, CallPc.opened]
      · simp [custody, put, hx]
  rw [hcustody]
  exact hw.sound.acquire (by simp [custody, hpc, CallPc.opened])

/-- A call stores the socket it has opened where there is none. -/
private theorem store_inv {w : Vms} {t : Nat} {o : Outcome} {sock : Option Nat} (hw : w.Inv)
    (hc : w.StoredAlone (.run t o)) (hpc : w.calls t = .storing sock) :
    { w.put t .stored with sock }.Inv := by
  obtain ⟨hnone, hreset⟩ := hc sock (by rw [hpc]; rfl)
  have hfree : w.lockedBy ≠ some t := fun h ↦ by
    have hheld := (hw.held t).mpr h
    rw [hpc] at hheld
    cases hheld
  have hshared : w.shared = none := by
    rw [shared, hnone]
    split <;> rfl
  refine hw.goOn rfl (by simp [CallPc.holds, put, hfree]) (fun _ _ ↦ Iff.rfl) ?_
    ?_ (fun _ h ↦ by cases h) (fun _ _ _ h ↦ by cases h) (fun _ h ↦ h)
    (fun _ h ↦ by cases h) (fun c ↦ .inr (.inr ⟨by simp [hpc, CallPc.awaits], rfl⟩)) hw.answered
    hw.own
  · have hresetting : (w.put t .stored).resetting = w.resetting := by
      unfold resetting
      cases hl : w.lockedBy with
      | none => simp [put, hl]
      | some x =>
        have hx : x ≠ t := fun hx ↦ hfree (hx ▸ hl)
        simp [put, hl, hx]
    have hput : { w.put t .stored with sock }.shared = sock := by
      change (if (w.put t .stored).resetting then none else sock) = sock
      rw [hresetting]
      rcases hreset with rfl | hreset
      · split <;> rfl
      · rw [hreset]
        rfl
    have hcustody : { w.put t .stored with sock }.custody = w.custody.move (some t) none := by
      refine Custody.ext (funext ?_) rfl rfl
      intro p
      rw [Custody.held_move]
      cases p with
      | none =>
        apply Eq.trans hput
        simp [custody, hpc, CallPc.opened]
      | some x =>
        by_cases hx : x = t
        · simp [custody, put, hx, CallPc.opened]
        · simp [custody, put, hx]
    rw [hcustody]
    exact hw.sound.move hshared
  · intro x c _ h
    cases hnone.symm.trans (hw.current x c h)

private theorem connectStep_inv {w u : Vms} {t : Nat} {conn : Option Nat} {o : Outcome}
    (hw : w.Inv) (hpc : w.calls t = .connecting conn) (h : w.connectStep t conn o = some u) :
    u.Inv := by
  unfold connectStep at h
  split at h
  · obtain ⟨c, rfl, h⟩ := Option.bind_eq_some_iff.mp h
    obtain ⟨-, h⟩ := Option.ite_none_right_eq_some.mp h
    cases h
    have hconn : (w.setConn c { w.conns c with connected := true }).Inv :=
      hw.conn (fun _ ↦ rfl) rfl (hw.answered c)
    have hpc' : (w.setConn c { w.conns c with connected := true }).calls t = .connecting (some c) :=
      hpc
    exact hconn.stay (by rw [hpc']; rfl) (by simp) (by simp [hpc']) (by rw [hpc']; rfl)
      (fun _ h ↦ by cases h) (fun _ _ _ h ↦ by cases h) (by rw [hpc']; rfl)
  all_goals
    cases h
    exact hw.stay (by rw [hpc]; rfl) (by simp) (by simp [hpc]) (by rw [hpc]; rfl)
      (fun _ h ↦ by cases h) (fun _ _ _ h ↦ by cases h) (by rw [hpc]; rfl)

private theorem callStep_inv {w u : Vms} {t : Nat} {o : Outcome} (hw : w.Inv)
    (hc : w.StoredAlone (.run t o)) (h : w.callStep t o = some u) : u.Inv := by
  -- a step at which the call neither exchanges messages nor has a socket of its own
  have hplain : ∀ pc : CallPc, pc.holds = (w.calls t).holds → pc ≠ .resetting →
      w.calls t ≠ .resetting → pc.opened = (w.calls t).opened → pc.exchange = none →
      pc.awaits = (w.calls t).awaits → (w.put t pc).Inv := by
    intro pc hheld hpc hold hopened hexchange hawaits
    refine hw.stay hheld hpc hold hopened ?_ ?_ hawaits
    · intro c h
      rw [hexchange] at h
      cases h
    · intro _ _ _ h
      rw [h] at hexchange
      cases hexchange
  unfold callStep at h
  split at h
  · next attempt hpc => exact hw.locks rfl rfl (by simp) (by rw [hpc]; rfl) (by rw [hpc]; rfl) h
  · next attempt hpc =>
    cases h
    exact hw.stay (by rw [hpc]; rfl) (by simp) (by simp [hpc]) (by rw [hpc]; rfl) (fun _ h ↦ h)
      (fun _ _ _ h ↦ by cases h) (by rw [hpc]; rfl)
  · next attempt conn hpc => exact sendStep_inv hw hpc h
  · next attempt conn hpc =>
    cases h
    have hsock : w.sock = some conn := hw.current t conn (by rw [hpc]; rfl)
    refine hw.stay (by rw [hpc]; rfl) (by simp) (by simp [hpc]) (by rw [hpc]; rfl) ?_
      ?_ (by rw [hpc]; rfl)
    · intro c h
      cases h
      exact hsock
    · intro _ _ _ h
      cases h
      exact hsock
  · next attempt sentOn conn hpc => exact recvStep_inv hw hpc h
  · next attempt sentOk recvOk hpc =>
    cases h
    split <;>
      exact hw.unlocks (by rw [hpc]; rfl) rfl (by simp [hpc]) (by rw [hpc]; rfl) (by rw [hpc]; rfl)
  · next hpc => exact hw.locks rfl rfl (by simp) (by rw [hpc]; rfl) (by rw [hpc]; rfl) h
  · next hpc =>
    cases h
    have hl : w.lockedBy = some t := (hw.held t).mp (by rw [hpc]; rfl)
    split
    · next hsock =>
      refine hw.move (by simp [CallPc.holds, hl]) (fun _ _ ↦ Iff.rfl) ?_ (by rw [hpc]; rfl)
        (fun _ h ↦ by cases h) (fun _ _ _ h ↦ by cases h) (by rw [hpc]; rfl)
      simp [shared, put, hsock]
    · exact hplain _ (by rw [hpc]; rfl) (by simp) (by simp [hpc]) (by rw [hpc]; rfl) rfl
        (by rw [hpc]; rfl)
  · next hpc =>
    cases h
    exact close_inv hw hpc
  · next hpc =>
    cases h
    exact reset_inv hw hpc
  · next hpc =>
    cases h
    exact hw.unlocks (by rw [hpc]; rfl) rfl (by simp [hpc]) (by rw [hpc]; rfl) (by rw [hpc]; rfl)
  · next hpc =>
    cases h
    split <;>
      exact hplain _ (by rw [hpc]; rfl) (by simp) (by simp [hpc]) (by rw [hpc]; rfl) rfl
        (by rw [hpc]; rfl)
  · next hpc =>
    split at h
    · cases h
      exact create_inv hw hpc
    · cases h
      exact hplain _ (by rw [hpc]; rfl) (by simp) (by simp [hpc]) (by rw [hpc]; rfl) rfl
        (by rw [hpc]; rfl)
  · next sock hpc =>
    cases h
    exact store_inv hw hc hpc
  · next hpc =>
    cases h
    split <;>
      exact hplain _ (by rw [hpc]; rfl) (by simp) (by simp [hpc]) (by rw [hpc]; rfl) rfl
        (by rw [hpc]; rfl)
  · next hpc =>
    cases h
    exact hplain _ (by rw [hpc]; rfl) (by simp) (by simp [hpc]) (by rw [hpc]; rfl) rfl
      (by rw [hpc]; rfl)
  · next conn hpc => exact connectStep_inv hw hpc h
  · cases h

private theorem step_inv (w : Vms) (l : Label) (u : Vms) (hc : w.StoredAlone l) (hw : w.Inv)
    (h : w.step l = some u) : u.Inv := by
  cases l with
  | run t o => exact callStep_inv hw hc h
  | lose c =>
    cases h
    exact hw.conn (fun h ↦ h) rfl fun _ _ ↦ .inl rfl
  | serve c =>
    simp only [step] at h
    split at h
    · cases h
    · next r rest hrequests =>
      split at h
      · cases h
      · next hlost =>
        cases h
        refine hw.conn (fun h ↦ h) ?_ ?_
        · simp [Connection.traffic, hrequests]
        · intro t ht
          rcases List.mem_append.mp ht with ht | ht
          · exact (hw.answered c t ht).imp_right fun h ↦ h.imp_left (List.mem_append_left _)
          · exact .inr (.inl (List.mem_append_right _ ht))

/-- As long as sockets are stored alone, requests and replies belong together. -/
theorem paired_of_storedAlone {ls : List Label} {w : Vms} (hc : Always step StoredAlone start ls)
    (hr : run step start ls = some w) : w.Paired :=
  (invariant_run step step_inv hc start_inv hr).paired

/-- A call that exchanges its messages. -/
def exchangeLabels (t conn : Nat) : List Label :=
  [.run t .ok, .run t .ok, .run t .ok, .serve conn, .run t .ok, .run t .ok, .run t .ok]

/-- A call whose send fails, up to `socket`. -/
def failLabels (t : Nat) : List Label :=
  [.run t .ok, .run t .ok, .run t .fail, .run t .ok]

/-- A call that closes the socket and opens another one. -/
def reopenLabels (t : Nat) : List Label :=
  [.run t .ok, .run t .ok, .run t .ok, .run t .ok, .run t .ok, .run t .ok, .run t .ok]

/-- A call stores its socket and connects it. -/
def connectLabels (t : Nat) : List Label :=
  [.run t .ok, .run t .ok, .run t .ok, .run t .ok]

theorem paired_of_storedAlone_retry : ∃ w,
    run step start (exchangeLabels 0 0 ++ [.lose 0] ++ failLabels 1 ++ reopenLabels 1 ++
      connectLabels 1 ++ exchangeLabels 1 1) = some w ∧
      w.consumed = [⟨0, 0, 0, 0⟩, ⟨1, 1, 1, 1⟩] ∧ w.Paired := by
  have hrun : ∃ w, run step start (exchangeLabels 0 0 ++ [.lose 0] ++ failLabels 1 ++
      reopenLabels 1 ++ connectLabels 1 ++ exchangeLabels 1 1) = some w ∧
      w.consumed = [⟨0, 0, 0, 0⟩, ⟨1, 1, 1, 1⟩] :=
    exists_run step _ (by decide +kernel)
  obtain ⟨w, hr, hconsumed⟩ := hrun
  exact ⟨w, hr, hconsumed, paired_of_storedAlone (by decide +kernel) hr⟩

/-- Two calls find the connection broken. The first opens another one and sends its REQUEST, when
the second stores the socket it has opened over the one in use. -/
def overwriteLabels : List Label :=
  [.lose 0] ++ failLabels 0 ++ failLabels 1 ++ reopenLabels 0 ++
    [.run 1 .ok, .run 1 .ok, .run 1 .ok, .run 1 .ok, .run 1 .ok, .run 1 .ok] ++ connectLabels 0 ++
    [.run 0 .ok, .run 0 .ok, .run 0 .ok, .run 1 .ok, .serve 1, .run 0 .ok, .run 0 .fail]

/-- The first call has read from the socket of the second, its reply is not read by anyone, and
its socket is open and nowhere. -/
theorem overwritten_not_paired : ∃ w, run step start overwriteLabels = some w ∧
    w.calls 0 = .unlocking 1 true false ∧ (w.conns 1).replies = [0] ∧ w.closes 1 = 0 ∧
      w.sock = some 2 ∧ ¬ w.Paired := by
  obtain ⟨w, hr, hcall, hreplies, hcloses, hsock⟩ :
      ∃ w, run step start overwriteLabels = some w ∧
        w.calls 0 = .unlocking 1 true false ∧ (w.conns 1).replies = [0] ∧ w.closes 1 = 0 ∧
          w.sock = some 2 :=
    exists_run step _ (by decide +kernel)
  refine ⟨w, hr, hcall, hreplies, hcloses, hsock, ?_⟩
  intro h
  have hawaits := h.awaited 1 0 (by simp [Connection.traffic, hreplies])
  rw [hcall] at hawaits
  cases hawaits

end Vms

end Kitty.Signal
