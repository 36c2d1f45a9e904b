import Kitty.P2p.Dispatch
import Kitty.P2p.Downlink

/-!
# From the dispatch queue to the clients' sockets

The end of `on_recv_camera` that calls `dispatch_enqueue`, the sockets that
`dispatch_enqueue` shuts down for the frames it drops, and `dispatch_thread_func`, which
writes one frame after the other to the local clients;
`src/consumer-srt-cloud/_legacy_libjuice_consumer_api.c:721–948,1071–1097`.
-/

namespace Kitty.P2p

open Kitty.Base

/-- A local client: its connection, the bytes its socket has taken, whether the socket was
shut down, and whether a send on it has failed for good. Beside these, the frames handed
over for it and whether one of them was dropped from the queue. -/
structure Client where
  conn : Nat
  written : Bytes
  shut : Bool
  dead : Bool
  handed : List (Nat × Bytes)
  dropped : Bool

/-- A client nothing was done for. -/
def Client.start : Client := ⟨0, [], false, false, [], false⟩

/-- Where the callback thread is: in the transport, about to enqueue a frame, or shutting
down the sockets of the frames it has dropped. -/
inductive Callback where
  | idle
  | enqueue (item : PendingSend)
  | release (dropped : List PendingSend)

/-- A session with its dispatch queue and thread: the clients accepted so far, the one each
slot serves, and the frame being sent with the bytes of it already taken. -/
structure Delivery where
  down : Downlink
  accepted : Nat
  clientOf : Nat → Nat
  clients : Nat → Client
  callback : Callback
  queue : DispatchQueue
  sending : Option (PendingSend × Nat)

/-- No client, nothing sent. -/
def Delivery.start : Delivery :=
  ⟨.start, 0, fun _ ↦ 0, fun _ ↦ .start, .idle, .start, none⟩

/-- What happens: an event of the transport; the locked part of `dispatch_enqueue`; the
`shutdown` of the socket of one dropped frame; the dispatch thread taking a frame; a `send`
that takes some bytes; one that fails; a client that has taken nothing for a minute. -/
inductive DeliveryLabel where
  | link (l : DownLabel)
  | enqueue (now : Int)
  | release
  | dequeue
  | send (n : Nat)
  | fail
  | stuck

/-- The slot, the frame and the block that a datagram makes `on_recv_camera` hand over. -/
def Downlink.handOver (w : Downlink) (k : Nat) (env : RecvEnv) : Option (Nat × Nat × Bytes) :=
  match w.sender.sent[k]? with
  | none => none
  | some (chunk, data) =>
    match w.slotOf chunk.conn, (onRecvCamera w.cam data env).2 with
    | some i, some (_, frame) =>
      some (i, (if chunk.index = 0 then chunk else w.first i).frame, frame)
    | _, _ => none

/-- A client's record is replaced. -/
def Delivery.setClient (w : Delivery) (k : Nat) (c : Client) : Delivery :=
  { w with clients := Function.update w.clients k c }

/-- One event. The callback thread takes the next datagram when it is done with the last. -/
def Delivery.step (w : Delivery) : DeliveryLabel → Option Delivery
  | .link (.deliver k env) =>
    match w.callback with
    | .idle => (w.down.step (.deliver k env)).map fun down ↦
      match w.down.handOver k env with
      | none => { w with down }
      | some (i, e) =>
        let c := w.clients (w.clientOf i)
        { w.setClient (w.clientOf i) { c with handed := c.handed ++ [e] } with
          down, callback := .enqueue ⟨w.clientOf i, e.2⟩ }
    | _ => none
  | .link (.accept fd buffers now) => (w.down.step (.accept fd buffers now)).map fun down ↦
    match w.down.cam.freeSlot, buffers with
    | some i, some _ =>
      { w.setClient w.accepted { Client.start with conn := w.down.cam.nextConnId } with
        down, accepted := w.accepted + 1, clientOf := Function.update w.clientOf i w.accepted }
    | _, _ => { w with down }
  | .link l => (w.down.step l).map fun down ↦ { w with down }
  | .enqueue now =>
    match w.callback with
    | .enqueue item =>
      let (dropped, queue) := w.queue.enqueue item now
      some { w with
        queue
        callback := if dropped = [] then .idle else .release dropped
        clients := fun k ↦ { w.clients k with
          dropped := (w.clients k).dropped || dropped.any (·.client == k) } }
    | _ => none
  | .release =>
    match w.callback with
    | .release (item :: rest) => some
      { w.setClient item.client { w.clients item.client with shut := true } with
        callback := if rest = [] then .idle else .release rest }
    | _ => none
  | .dequeue =>
    match w.sending, w.queue.dequeue with
    | none, some (item, queue) => some
      { w with queue, sending := if item.data = [] then none else some (item, 0) }
    | _, _ => none
  | .send n =>
    match w.sending with
    | some (item, sent) =>
      let c := w.clients item.client
      if 0 < n ∧ sent + n ≤ item.data.length ∧ c.shut = false ∧ c.dead = false then some
        { w.setClient item.client
          { c with written := c.written ++ (item.data.drop sent).take n } with
          sending := if sent + n = item.data.length then none else some (item, sent + n) }
      else none
    | none => none
  | .fail =>
    match w.sending with
    | some (item, _) => some
      { w.setClient item.client { w.clients item.client with dead := true } with sending := none }
    | none => none
  | .stuck =>
    match w.sending with
    | some (item, _) => some
      { w.setClient item.client { w.clients item.client with shut := true } with sending := none }
    | none => none

/-! ### Events of the transport -/

/-- What an event of the transport leaves alone when it hands over nothing and serves no new
client. -/
structure Quiet (v v' : Downlink) : Prop where
  frames : ∀ c, (v.sender.forwarders c).frames <+: (v'.sender.forwarders c).frames
  slots : ∀ i, (v'.cam.connections i).active → (v.cam.connections i).active ∧
    (v'.cam.connections i).connId = (v.cam.connections i).connId ∧ v'.enqueued i = v.enqueued i

/-- A datagram leaves every slot with its connection, and what it hands over is recorded
under its slot. -/
theorem Downlink.step_handOver {w t : Downlink} (hi : w.sender.Inv) {k : Nat} {env : RecvEnv}
    (h : w.step (.deliver k env) = some t) :
    t.sender = w.sender ∧
    (∀ j, (t.cam.connections j).active = (w.cam.connections j).active ∧
      (t.cam.connections j).connId = (w.cam.connections j).connId) ∧
    (w.handOver k env = none ∧ t.enqueued = w.enqueued ∨
      ∃ i e, w.handOver k env = some (i, e) ∧ (w.cam.connections i).active = true ∧
        t.enqueued = Function.update w.enqueued i (w.enqueued i ++ [e])) := by
  have hcam : t.sender = w.sender ∧
      ∀ j, (t.cam.connections j).active = (w.cam.connections j).active ∧
        (t.cam.connections j).connId = (w.cam.connections j).connId := by
    obtain ⟨chunk, data, F, -, -, ⟨-, rfl⟩ | ⟨i, -, rfl⟩⟩ := Downlink.step_deliver hi h
    · exact ⟨rfl, fun _ ↦ ⟨rfl, rfl⟩⟩
    · refine ⟨rfl, ?_⟩
      intro j
      obtain ⟨hid, hact⟩ := (w.cam.connections i).afterRecv_same
        (chunkDatagram chunk.conn chunk.seq F chunk.index) env
      by_cases hj : j = i
      · subst hj
        simpa [CameraSession.setConnection] using ⟨hact, hid⟩
      · simp [CameraSession.setConnection, Function.update_of_ne hj]
  refine ⟨hcam.1, hcam.2, ?_⟩
  simp only [Downlink.step, Downlink.handOver] at h ⊢
  cases hk : w.sender.sent[k]? with
  | none => simp [hk] at h
  | some sent =>
    simp only [hk] at h ⊢
    cases hs : w.slotOf sent.1.conn with
    | none =>
      simp only [hs] at h ⊢
      exact .inl ⟨trivial, by rw [← Option.some.inj h]⟩
    | some i =>
      obtain ⟨-, hfind⟩ := Downlink.slotOf_some hs
      obtain ⟨-, hact, -⟩ := CameraSession.findConnectionById_some hfind
      simp only [hs] at h ⊢
      cases ho : (onRecvCamera w.cam sent.2 env).2 with
      | none =>
        refine .inl ⟨rfl, ?_⟩
        rw [← Option.some.inj h, ho]
        rfl
      | some out =>
        refine .inr ⟨i, _, rfl, hact, ?_⟩
        rw [← Option.some.inj h, ho]
        rfl

/-- What an event of the transport does outside it. -/
theorem Delivery.step_link {w t : Delivery} {l : DownLabel} (hi : w.down.sender.Inv)
    (h : w.step (.link l) = some t) :
    ∃ down, w.down.step l = some down ∧
      (Quiet w.down down ∧ t = { w with down } ∨
        (w.callback = .idle ∧ ∃ i e, (w.down.cam.connections i).active = true ∧
          down.sender = w.down.sender ∧
          (∀ j, (down.cam.connections j).active = (w.down.cam.connections j).active ∧
            (down.cam.connections j).connId = (w.down.cam.connections j).connId) ∧
          down.enqueued = Function.update w.down.enqueued i (w.down.enqueued i ++ [e]) ∧
          t = { w.setClient (w.clientOf i) { w.clients (w.clientOf i) with
              handed := (w.clients (w.clientOf i)).handed ++ [e] } with
            down, callback := .enqueue ⟨w.clientOf i, e.2⟩ }) ∨
        ∃ i c n, c.active = true ∧ c.connId = w.down.cam.nextConnId ∧
          down = { w.down with
            cam := { w.down.cam.setConnection i c with nextConnId := n }
            enqueued := Function.update w.down.enqueued i [] } ∧
          t = { w.setClient w.accepted { Client.start with conn := c.connId } with
            down, accepted := w.accepted + 1
            clientOf := Function.update w.clientOf i w.accepted }) := by
  cases l with
  | forward l =>
    obtain ⟨down, hd, rfl⟩ := Option.map_eq_some_iff.mp h
    obtain ⟨s, hs, rfl⟩ := Option.map_eq_some_iff.mp hd
    exact ⟨_, hd, .inl ⟨⟨Sender.frames_step hs, fun _ ha ↦ ⟨ha, rfl, rfl⟩⟩, rfl⟩⟩
  | deliver k env =>
    simp only [Delivery.step] at h
    cases hc : w.callback with
    | enqueue item => simp [hc] at h
    | release dropped => simp [hc] at h
    | idle =>
      simp only [hc] at h
      obtain ⟨down, hd, ht⟩ := Option.map_eq_some_iff.mp h
      obtain ⟨hsend, hslots, ⟨hn, he⟩ | ⟨i, e, ho, hact, he⟩⟩ := Downlink.step_handOver hi hd
      · rw [hn] at ht
        exact ⟨down, hd, .inl ⟨⟨fun c ↦ hsend ▸ List.prefix_refl _,
          fun j ha ↦ ⟨(hslots j).1 ▸ ha, (hslots j).2, by rw [he]⟩⟩, ht.symm⟩⟩
      · rw [ho] at ht
        exact ⟨down, hd, .inr (.inl ⟨rfl, i, e, hact, hsend, hslots, he, ht.symm⟩)⟩
  | accept fd buffers now =>
    obtain ⟨down, hd, ht⟩ := Option.map_eq_some_iff.mp h
    refine ⟨down, hd, ?_⟩
    simp only [Downlink.step] at hd
    split at hd
    · cases hd
    · cases hs : w.down.cam.freeSlot with
      | none =>
        simp only [hs, Option.some.injEq] at hd ht
        exact .inl ⟨⟨fun c ↦ hd ▸ List.prefix_refl _, fun j ha ↦ hd ▸ ⟨hd ▸ ha, rfl, rfl⟩⟩, ht.symm⟩
      | some i =>
        cases buffers with
        | none =>
          simp only [hs, Option.some.injEq, CameraSession.createConnection] at hd ht
          refine .inl ⟨⟨fun c ↦ hd ▸ List.prefix_refl _, ?_⟩, ht.symm⟩
          intro j ha
          rw [← hd] at ha ⊢
          by_cases hj : j = i
          · subst hj
            simp [CameraSession.setConnection, Connection.zero] at ha
          · simpa [CameraSession.setConnection, Function.update_of_ne hj] using ha
        | some b =>
          simp only [hs, Option.some.injEq, CameraSession.createConnection] at hd ht
          exact .inr (.inr ⟨i, w.down.cam.opened fd b.1 b.2 now, _, rfl, rfl, hd.symm, ht.symm⟩)
  | close i =>
    obtain ⟨down, hd, rfl⟩ := Option.map_eq_some_iff.mp h
    refine ⟨down, hd, .inl ⟨?_, rfl⟩⟩
    obtain ⟨c, hact, hid, rfl⟩ := Downlink.step_close hd
    refine ⟨fun c ↦ List.prefix_refl _, ?_⟩
    intro j ha
    by_cases hj : j = i
    · subst hj
      simp [CameraSession.setConnection, hact] at ha
    · simpa [CameraSession.setConnection, Function.update_of_ne hj] using ha
  | cleanup now =>
    refine ⟨_, rfl, .inl ⟨?_, (Option.some.inj h).symm⟩⟩
    have hclean := w.down.cam.cleanup_same now
    exact ⟨fun c ↦ List.prefix_refl _, fun j ha ↦ ⟨(hclean j).1 ▸ ha, (hclean j).2.1, rfl⟩⟩

/-! ### The frames on their way to a client -/

/-- The frame the callback is about to enqueue. -/
def Callback.pending : Callback → List PendingSend
  | .enqueue item => [item]
  | _ => []

/-- The dropped frames whose sockets are still to be shut down. -/
def Callback.released : Callback → List PendingSend
  | .release dropped => dropped
  | _ => []

/-- The frames that have been handed over and not yet sent or given up, oldest first. -/
def Delivery.waiting (w : Delivery) : List PendingSend :=
  (w.sending.map Prod.fst).toList ++ w.queue.toList ++ w.callback.pending

/-- The blocks for one client in a list of frames. -/
def blocksFor (k : Nat) (items : List PendingSend) : List Bytes :=
  (items.filter (·.client == k)).map PendingSend.data

@[simp] theorem blocksFor_nil (k : Nat) : blocksFor k [] = [] := rfl

@[simp] theorem blocksFor_append (k : Nat) (items items' : List PendingSend) :
    blocksFor k (items ++ items') = blocksFor k items ++ blocksFor k items' := by
  simp [blocksFor]

theorem blocksFor_cons (k : Nat) (item : PendingSend) (items : List PendingSend) :
    blocksFor k (item :: items) =
      (if item.client = k then [item.data] else []) ++ blocksFor k items := by
  by_cases h : item.client = k <;> simp [blocksFor, h]

/-- The bytes of the frame being sent that its client has taken. -/
def Delivery.part (w : Delivery) (k : Nat) : Bytes :=
  match w.sending with
  | some (item, sent) => if item.client = k then item.data.take sent else []
  | none => []

/-! ### The bytes of one socket -/

/-- Whole frames out of a list, in its order, and then at most the beginning of a later one. -/
def WholeFrames (frames : List (Nat × Bytes)) (out : Bytes) : Prop :=
  ∃ done part, out = (done.map Prod.snd).flatten ++ part ∧
    (done.Sublist frames ∧ part = [] ∨ ∃ p, (done ++ [p]).Sublist frames ∧ part <+: p.2)

/-- What a socket has taken, against the frames handed over for its client: as long as no
send was given up, whole frames and a part of the next one waiting; after that nothing
follows, since the socket takes no more bytes. -/
def Streaming (c : Client) (waiting : List Bytes) (part : Bytes) : Prop :=
  (∃ done rest, (done ++ rest).Sublist c.handed ∧ rest.map Prod.snd = waiting ∧
    c.written = (done.map Prod.snd).flatten ++ part ∧
    (c.dropped = false → done ++ rest = c.handed)) ∨
  (c.shut = true ∨ c.dead = true) ∧ WholeFrames c.handed c.written

theorem WholeFrames.mono {frames frames' : List (Nat × Bytes)} {out : Bytes}
    (h : WholeFrames frames out) (hs : frames.Sublist frames') : WholeFrames frames' out := by
  obtain ⟨done, part, ho, ⟨hd, hp⟩ | ⟨p, hd, hp⟩⟩ := h
  · exact ⟨done, part, ho, .inl ⟨hd.trans hs, hp⟩⟩
  · exact ⟨done, part, ho, .inr ⟨p, hd.trans hs, hp⟩⟩

namespace Streaming

variable {c : Client} {waiting : List Bytes} {part : Bytes}

theorem start : Streaming .start [] [] :=
  .inl ⟨[], [], .refl _, rfl, rfl, fun _ ↦ rfl⟩

/-- The part of a frame belongs to the first one waiting. -/
theorem whole (h : Streaming c waiting part)
    (hp : part = [] ∨ ∃ block rest, waiting = block :: rest ∧ part <+: block) :
    WholeFrames c.handed c.written := by
  obtain ⟨done, rest, hs, hw, ho, -⟩ | ⟨-, h⟩ := h
  · obtain hp | ⟨block, rest', he, hp⟩ := hp
    · exact ⟨done, part, ho, .inl ⟨(List.sublist_append_left _ _).trans hs, hp⟩⟩
    · cases rest with
      | nil =>
        rw [he] at hw
        cases hw
      | cons p rest =>
        rw [he, List.map_cons] at hw
        refine ⟨done, part, ho, .inr ⟨p, ?_, (List.cons.inj hw).1 ▸ hp⟩⟩
        refine List.Sublist.trans ?_ hs
        exact (List.Sublist.refl _).append (List.singleton_sublist.mpr (List.mem_cons_self ..))
  · exact h

/-- A frame more is handed over. -/
theorem hand (h : Streaming c waiting part) (e : Nat × Bytes) :
    Streaming { c with handed := c.handed ++ [e] } (waiting ++ [e.2]) part := by
  obtain ⟨done, rest, hs, hw, ho, hd⟩ | ⟨hcut, h⟩ := h
  · refine .inl ⟨done, rest ++ [e], ?_, by simp [hw], ho, ?_⟩
    · rw [← List.append_assoc]
      exact hs.append (.refl _)
    · intro hdr
      rw [← List.append_assoc, hd hdr]
  · exact .inr ⟨hcut, h.mono (List.sublist_append_left _ _)⟩

private theorem sublist_of_map {rest : List (Nat × Bytes)} {xs ys zs : List Bytes}
    (h : rest.map Prod.snd = xs ++ (ys ++ zs)) :
    ∃ rest', rest'.Sublist rest ∧ rest'.map Prod.snd = xs ++ zs ∧ (ys = [] → rest' = rest) := by
  obtain ⟨r1, r23, rfl, h1, h23⟩ := List.map_eq_append_iff.mp h
  obtain ⟨r2, r3, rfl, h2, h3⟩ := List.map_eq_append_iff.mp h23
  refine ⟨r1 ++ r3, (List.Sublist.refl _).append (List.sublist_append_right _ _), by simp [h1, h3],
    ?_⟩
  intro hy
  rw [hy] at h2
  rw [List.map_eq_nil_iff.mp h2, List.nil_append]

/-- Frames are dropped from the middle of those waiting. -/
theorem drop {xs ys zs : List Bytes} (h : Streaming c (xs ++ (ys ++ zs)) part) (dropped : Bool)
    (hd : dropped = false → ys = []) :
    Streaming { c with dropped := c.dropped || dropped } (xs ++ zs) part := by
  obtain ⟨done, rest, hs, hw, ho, hall⟩ | ⟨hcut, h⟩ := h
  · obtain ⟨rest', hsub, hmap, heq⟩ := sublist_of_map hw
    refine .inl ⟨done, rest', ((List.Sublist.refl _).append hsub).trans hs, hmap, ho, ?_⟩
    intro hdr
    simp only [Bool.or_eq_false_iff] at hdr
    rw [heq (hd hdr.2), hall hdr.1]
  · exact .inr ⟨hcut, h⟩

/-- The socket takes some more bytes of the first frame. -/
theorem write {block : Bytes} {n : Nat} (h : Streaming c (block :: waiting) (block.take n))
    (hshut : c.shut = false) (hdead : c.dead = false) (m : Nat) :
    Streaming { c with written := c.written ++ (block.drop n).take m } (block :: waiting)
      (block.take (n + m)) := by
  obtain ⟨done, rest, hs, hw, ho, hall⟩ | ⟨hcut, -⟩ := h
  · refine .inl ⟨done, rest, hs, hw, ?_, hall⟩
    simp only [ho, List.take_add, List.append_assoc]
  · simp [hshut, hdead] at hcut

/-- The first frame was taken whole. -/
theorem finish {block : Bytes} (h : Streaming c (block :: waiting) block) :
    Streaming c waiting [] := by
  obtain ⟨done, rest, hs, hw, ho, hall⟩ | h := h
  · obtain ⟨p, rest, rfl, hp, hrest⟩ := List.map_eq_cons_iff.mp hw
    refine .inl ⟨done ++ [p], rest, ?_, hrest, ?_, ?_⟩
    · rwa [List.append_assoc]
    · simp [ho, hp]
    · intro hd
      rw [List.append_assoc]
      exact hall hd
  · exact .inr h

/-- A send is given up, and the socket takes no more bytes. -/
theorem abandon {c' : Client} {waiting' : List Bytes} (h : WholeFrames c.handed c.written)
    (hh : c'.handed = c.handed) (hw : c'.written = c.written)
    (hcut : c'.shut = true ∨ c'.dead = true) : Streaming c' waiting' [] :=
  .inr ⟨hcut, hh ▸ hw ▸ h⟩

/-- A socket that is shut down keeps what it has taken. -/
theorem shutdown (h : Streaming c waiting part) :
    Streaming { c with shut := true } waiting part := by
  obtain h | ⟨-, h⟩ := h
  · exact .inl h
  · exact .inr ⟨.inl rfl, h⟩

end Streaming

end Kitty.P2p
