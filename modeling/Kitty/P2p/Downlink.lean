import Kitty.P2p.Consumer

/-!
# From the provider's threads to the consumer's dispatch queue

The provider's forwarding threads, a link that delivers any datagram any number of times
in any order, and the consumer's session: `forward_local_to_p2p` of
`src/provider-srt/_legacy_libjuice_provider_configurable.c:631–723` against
`on_recv_camera` of `src/consumer-srt-cloud/_legacy_libjuice_consumer_api.c:954–1098`.
A connection is what a slot holds from one `create_connection` to the next.
-/

namespace Kitty.P2p

open Kitty.Base

/-- Both ends of the link. Beside the program's variables it records how far the link has
got in the datagrams sent, the first chunk each slot has taken last, and what each slot's
connection has handed to the dispatch queue, with the frame its first chunk belonged to. -/
structure Downlink where
  sender : Sender
  cam : CameraSession
  delivered : Nat
  first : Nat → Chunk
  enqueued : Nat → List (Nat × Bytes)

/-- Nothing sent, no connection. -/
def Downlink.start : Downlink := ⟨.start, .start, 0, fun _ ↦ ⟨0, 0, 0, 0⟩, fun _ ↦ []⟩

/-- What happens at either end: a thread's step, the delivery of a datagram, a new local
client, the end of a connection, a round of the cleanup thread. -/
inductive DownLabel where
  | forward (l : SendLabel)
  | deliver (k : Nat) (env : RecvEnv)
  | accept (localSocket : Int) (buffers : Option (Buffer UInt8 × Buffer UInt8)) (now : Int)
  | close (i : Nat)
  | cleanup (now : Int)

/-- The slot a datagram of a connection is taken by. -/
def Downlink.slotOf (w : Downlink) (conn : Nat) : Option Nat :=
  if w.cam.active then w.cam.findConnectionById conn else none

/-- The records after a slot has taken a chunk. -/
def Downlink.note (w : Downlink) (i : Nat) (chunk : Chunk) (out : Option (Int × Bytes)) :
    Downlink :=
  let first := if chunk.index = 0 then chunk else w.first i
  { w with
    first := Function.update w.first i first
    enqueued := match out with
      | some (_, frame) =>
        Function.update w.enqueued i (w.enqueued i ++ [(first.frame, frame)])
      | none => w.enqueued }

/-- One event. -/
def Downlink.step (w : Downlink) : DownLabel → Option Downlink
  | .forward l => (w.sender.step false l).map fun s ↦ { w with sender := s }
  | .deliver k env =>
    match w.sender.sent[k]? with
    | none => none
    | some (chunk, data) =>
      let (cam, out) := onRecvCamera w.cam data env
      let w' := match w.slotOf chunk.conn with
        | none => w
        | some i => w.note i chunk out
      some { w' with cam, delivered := k + 1 }
  | .accept localSocket buffers now =>
    if localSocket < 0 then none
    else some (match w.cam.freeSlot with
      | none => w
      | some i => { w with
          cam := w.cam.createConnection localSocket buffers now
          enqueued := Function.update w.enqueued i [] })
  | .close i => if i < maxConnections then some { w with cam := w.cam.closeConnection i } else none
  | .cleanup now => some { w with cam := w.cam.cleanupStaleConnections now }

/-! ### The delivery of a datagram -/

/-- A slot's record grows by the block it handed over, under the frame of its first chunk. -/
theorem Downlink.enqueued_note (w : Downlink) (i : Nat) (chunk : Chunk)
    (out : Option (Int × Bytes)) :
    (w.note i chunk out).enqueued i = w.enqueued i ++
      (out.map fun p ↦ ((if chunk.index = 0 then chunk else w.first i).frame, p.2)).toList := by
  cases out with
  | none => simp [Downlink.note]
  | some p => simp [Downlink.note]

/-- The other slots' records stay. -/
theorem Downlink.enqueued_note_of_ne (w : Downlink) {i j : Nat} (hj : j ≠ i) (chunk : Chunk)
    (out : Option (Int × Bytes)) : (w.note i chunk out).enqueued j = w.enqueued j := by
  cases out with
  | none => rfl
  | some p => simp [Downlink.note, Function.update_of_ne hj]

theorem Downlink.slotOf_some {w : Downlink} {conn i : Nat} (h : w.slotOf conn = some i) :
    w.cam.active = true ∧ w.cam.findConnectionById conn = some i := by
  unfold Downlink.slotOf at h
  split at h
  · next hact => exact ⟨hact, h⟩
  · cases h

/-- A delivered datagram is read as a chunk of a frame that was sent, and changes at most the
slot of its connection. -/
theorem Downlink.step_deliver {w t : Downlink} (hi : w.sender.Inv) {k : Nat} {env : RecvEnv}
    (h : w.step (.deliver k env) = some t) :
    ∃ chunk data F, w.sender.sent[k]? = some (chunk, data) ∧
      (w.sender.forwarders chunk.conn).frames[chunk.frame]? = some F ∧
      (w.slotOf chunk.conn = none ∧ t = { w with delivered := k + 1 } ∨
        ∃ i, w.slotOf chunk.conn = some i ∧
          let d := chunkDatagram chunk.conn chunk.seq F chunk.index
          t = { w.note i chunk ((w.cam.connections i).handed d env) with
            cam := w.cam.setConnection i ((w.cam.connections i).afterRecv d env)
            delivered := k + 1 }) := by
  simp only [Downlink.step] at h
  cases hk : w.sender.sent[k]? with
  | none => simp [hk] at h
  | some e =>
    obtain ⟨chunk, data⟩ := e
    obtain ⟨F, hF, hc, hle, hidx, hdata⟩ := hi.sent _ (List.mem_of_getElem? hk)
    simp only at hF hc hidx hdata
    have hd : Datagram.parse data = some (chunkDatagram chunk.conn chunk.seq F chunk.index) := by
      rw [hdata]
      exact parse_chunk hc hle hidx
    have ht : (chunkDatagram chunk.conn chunk.seq F chunk.index).totalSize ≠ 0 := by
      have := (lt_numPieces_iff _ _ _ maxChunkPayload_pos).mp hidx
      change F.length ≠ 0
      omega
    refine ⟨chunk, data, F, rfl, hF, ?_⟩
    simp only [hk] at h
    cases hs : w.slotOf chunk.conn with
    | none =>
      have hnone : w.cam.active = false ∨ w.cam.findConnectionById chunk.conn = none := by
        unfold Downlink.slotOf at hs
        split at hs
        · exact .inr hs
        · next hact => exact .inl (by simpa using hact)
      rw [onRecvCamera_none env hd ht hnone, hs] at h
      exact .inl ⟨rfl, (Option.some.inj h).symm⟩
    | some i =>
      obtain ⟨hact, hfind⟩ := Downlink.slotOf_some hs
      rw [onRecvCamera_some env hact hd ht hfind, hs] at h
      exact .inr ⟨i, rfl, (Option.some.inj h).symm⟩

/-! ### Slots opened and closed -/

/-- A new client takes a free slot, which stays cleared without memory for its buffers. -/
theorem Downlink.step_accept {w t : Downlink} {fd now : Int}
    {buffers : Option (Buffer UInt8 × Buffer UInt8)}
    (h : w.step (.accept fd buffers now) = some t) :
    0 ≤ fd ∧ (t = w ∨ ∃ i n c, w.cam.freeSlot = some i ∧
      t = { w with
        cam := { w.cam.setConnection i c with nextConnId := n }
        enqueued := Function.update w.enqueued i [] } ∧
      (c = .zero ∨ ∃ buf spare, c = w.cam.opened fd buf spare now)) := by
  simp only [Downlink.step] at h
  split at h
  · cases h
  · next hfd =>
    refine ⟨by omega, ?_⟩
    cases hs : w.cam.freeSlot with
    | none =>
      rw [hs] at h
      exact .inl (Option.some.inj h).symm
    | some i =>
      rw [hs] at h
      right
      cases buffers with
      | none =>
        refine ⟨i, w.cam.nextConnId, .zero, rfl, ?_, .inl rfl⟩
        rw [← Option.some.inj h]
        simp [CameraSession.createConnection, hs]
        rfl
      | some b =>
        obtain ⟨buf, spare⟩ := b
        refine ⟨i, (w.cam.nextConnId + 1) % 2 ^ 32, _, rfl, ?_, .inr ⟨buf, spare, rfl⟩⟩
        rw [← Option.some.inj h]
        simp [CameraSession.createConnection, hs]

/-- A closed slot is no longer in use. -/
theorem Downlink.step_close {w t : Downlink} {i : Nat} (h : w.step (.close i) = some t) :
    ∃ c, c.active = false ∧ c.connId = (w.cam.connections i).connId ∧
      t = { w with cam := w.cam.setConnection i c } := by
  simp only [Downlink.step] at h
  split at h
  · exact ⟨(w.cam.connections i).close, rfl, rfl, (Option.some.inj h).symm⟩
  · cases h

end Kitty.P2p
