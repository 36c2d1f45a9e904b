import Kitty.P2p.Downlink

/-!
# Frames arrive whole and unmixed

The sequence numbers of one connection rise with its frames, and a frame in progress only
takes numbers from the window that starts at its first chunk. So whatever the link loses,
repeats or reorders, the buffer of a slot is filled from a single frame, and what
`on_recv_camera` enqueues is that frame;
`src/consumer-srt-cloud/_legacy_libjuice_consumer_api.c:994–1069`.
-/

namespace Kitty.P2p

open Kitty.Base

/-! ### One connection -/

/-- The numbers from `z` to the end of a frame that starts at `y`, or from `y` to `z`, differ
in their 32 bits. -/
def Near (y z : Nat) : Prop := z < y + 2 ^ 32 ∧ y + maxChunksPerFrame ≤ z + 2 ^ 32

instance (y z : Nat) : Decidable (Near y z) := inferInstanceAs (Decidable (_ ∧ _))

/-- A slot is being filled with the frame that the first chunk `y` starts. -/
structure InFrame (s : Sender) (y : Chunk) (c : Connection) (F : Bytes) : Prop where
  sent : ∃ data, (y, data) ∈ s.sent
  conn : y.conn = c.connId
  index : y.index = 0
  frame : (s.forwarders y.conn).frames[y.frame]? = some F
  filling : c.toReassembly.Filling F
  startSeq : c.currentFrameStartSeq = y.seq % 2 ^ 32
  chunks : c.currentFrameNumChunks = numChunks F.length

/-- The frame a slot puts together is the one its last first chunk starts. -/
def SlotOk (s : Sender) (y : Chunk) (c : Connection) : Prop :=
  c.active → c.reassemblyBuffer.isSome ∧ (c.frameInProgress → ∃ F, InFrame s y c F)

/-- A number inside the window of a frame belongs to a chunk of that frame. -/
theorem frame_eq_of_window {s : Sender} (hi : s.Inv) (ho : s.Ordered) {y k : Chunk}
    {dy dk F : Bytes} (hy : (y, dy) ∈ s.sent) (hk : (k, dk) ∈ s.sent) (hc : y.conn = k.conn)
    (h0 : y.index = 0) (hF : (s.forwarders y.conn).frames[y.frame]? = some F)
    (hnear : Near y.seq k.seq)
    (hw : (k.seq % 2 ^ 32 + 2 ^ 32 - y.seq % 2 ^ 32) % 2 ^ 32 < numChunks F.length) :
    k.frame = y.frame := by
  obtain ⟨Fy, hFy, -, hle, -⟩ := hi.sent _ hy
  obtain ⟨Fk, hFk, -, -, hidx, -⟩ := hi.sent _ hk
  have hFF : Fy = F := Option.some.inj (hFy.symm.trans hF)
  subst hFF
  have hmax := numChunks_le hle
  obtain ⟨hn1, hn2⟩ := hnear
  rcases Nat.lt_trichotomy y.frame k.frame with hlt | heq | hgt
  · have := ho.precedes _ hy _ hk hc hlt Fy hF
    simp only [h0] at this
    omega
  · exact heq.symm
  · have := ho.precedes _ hk _ hy hc.symm hgt Fk hFk
    simp only at this hidx
    omega

/-- The three outcomes for a chunk of the frame in the buffer. -/
theorem Connection.store_cases (c : Connection) {F : Bytes} (hf : c.toReassembly.Filling F)
    (hF : F.length ≤ bufferSize) (conn seq : Nat) {index : Nat} (hi : index < numChunks F.length) :
    c.chunkReceived index = true ∧ c.store (chunkDatagram conn seq F index) = (c, none) ∨
    c.chunkReceived index = false ∧
      let r := c.toReassembly.copy (chunkDatagram conn seq F index)
      r.Filling F ∧
      (r.full = false ∧ c.store (chunkDatagram conn seq F index) =
          ({ c with toReassembly := r }, none) ∨
        r.full = true ∧ c.store (chunkDatagram conn seq F index) =
          ({ c with toReassembly := (r.finish c.localSocket).1, frameInProgress := false },
            (r.finish c.localSocket).2)) := by
  have ha := accepts_chunk conn seq hF hi hf.1
  cases hg : c.chunkReceived index with
  | true =>
    refine .inl ⟨rfl, ?_⟩
    simp [Connection.store, ha, hg]
  | false =>
    refine .inr ⟨rfl, hf.copy hF conn seq hi hg, ?_⟩
    cases hfull : (c.toReassembly.copy (chunkDatagram conn seq F index)).full with
    | false => exact .inl ⟨rfl, by simp [Connection.store, ha, hg, hfull]⟩
    | true => exact .inr ⟨rfl, by simp [Connection.store, ha, hg, hfull]⟩

/-- Storing a chunk of the frame in progress keeps the slot on that frame, and what leaves
is that frame. -/
theorem slotOk_store {s : Sender} {y : Chunk} {c : Connection} {F : Bytes} (hc : InFrame s y c F)
    (hF : F.length ≤ bufferSize) (conn seq : Nat) {index : Nat} (hi : index < numChunks F.length) :
    SlotOk s y (c.store (chunkDatagram conn seq F index)).1 ∧
      ∀ out, (c.store (chunkDatagram conn seq F index)).2 = some out → out = F := by
  obtain ⟨buf, hbuf, -⟩ := hc.filling.2
  rcases c.store_cases hc.filling hF conn seq hi with
    ⟨-, he⟩ | ⟨-, hfill, ⟨-, he⟩ | ⟨hfull, he⟩⟩
  · rw [he]
    exact ⟨fun _ ↦ ⟨by simp [hbuf], fun _ ↦ ⟨F, hc⟩⟩, by simp⟩
  · rw [he]
    obtain ⟨buf', hbuf', -⟩ := hfill.2
    exact ⟨fun _ ↦ ⟨by simp [hbuf'], fun _ ↦
      ⟨F, hc.sent, hc.conn, hc.index, hc.frame, hfill, hc.startSeq, hc.chunks⟩⟩, by simp⟩
  · rw [he]
    obtain ⟨buf', hbuf', -⟩ := hfill.2
    refine ⟨fun _ ↦ ⟨?_, by simp⟩, fun out ho ↦ hfill.finish hfull _ out ho⟩
    simp [Reassembly.finish_buffer, hbuf']

/-- A first chunk starts its frame. -/
theorem Connection.receive_first (c : Connection) {F : Bytes} (conn seq : Nat) (now : Int)
    (hF : F.length ≤ bufferSize) (hi : 0 < numChunks F.length) (hb : c.reassemblyBuffer.isSome) :
    c.receive (chunkDatagram conn seq F 0) now =
      ({ c with lastActivity := now, lastSeqNum := seq % 2 ^ 32 }.startFrame
        (chunkDatagram conn seq F 0)).store (chunkDatagram conn seq F 0) := by
  have hpos : 0 < F.length := by
    have := (lt_numPieces_iff _ _ _ maxChunkPayload_pos).mp hi
    omega
  have hself : (seq % 2 ^ 32 + 2 ^ 32 - seq % 2 ^ 32) % 2 ^ 32 = 0 := by omega
  obtain ⟨buf, hbuf⟩ := Option.isSome_iff_exists.mp hb
  have hoff : (chunkDatagram conn seq F 0).offset = 0 := Nat.zero_mul _
  simp only [Connection.receive, hoff]
  have htotal : (chunkDatagram conn seq F 0).totalSize = F.length := rfl
  rw [if_neg (by rw [htotal]; omega)]
  simp only [if_true]
  rw [if_neg (by
    simp [Connection.startFrame, Reassembly.newFrame, chunkDatagram, hbuf]
    exact List.ne_nil_of_length_pos hpos)]
  rw [if_neg (by
    simp only [Connection.startFrame, Connection.seqOffset, chunkDatagram, hself]
    omega)]
  rfl

/-- A later chunk is stored inside the window of the frame in progress only. -/
theorem Connection.receive_later (c : Connection) {F : Bytes} (conn seq : Nat) (now : Int)
    {index : Nat} (hidx : index ≠ 0) :
    c.receive (chunkDatagram conn seq F index) now =
      let c' := { c with lastActivity := now, lastSeqNum := seq % 2 ^ 32 }
      if !c.frameInProgress || c.expectedSize == 0 || c.reassemblyBuffer.isNone then (c', none)
      else if c.currentFrameNumChunks ≤
        (seq % 2 ^ 32 + 2 ^ 32 - c.currentFrameStartSeq) % 2 ^ 32 then (c', none)
      else c'.store (chunkDatagram conn seq F index) := by
  have hoff : (chunkDatagram conn seq F index).offset ≠ 0 := by
    simp only [chunkDatagram]
    exact Nat.mul_ne_zero hidx (Nat.ne_of_gt maxChunkPayload_pos)
  simp only [Connection.receive, if_neg hoff]
  rw [if_neg (fun h ↦ hoff h.1)]
  rfl

/-- A chunk taken by a slot keeps it on one frame: the chunk's own when it is a first one,
otherwise the frame in progress. -/
theorem slotOk_receive {s : Sender} (hi : s.Inv) (ho : s.Ordered) {y k : Chunk} {data F : Bytes}
    {c : Connection} (hk : (k, data) ∈ s.sent)
    (hF : (s.forwarders k.conn).frames[k.frame]? = some F)
    (hc : SlotOk s y c) (hact : c.active) (hconn : c.connId = k.conn)
    (hnear : c.frameInProgress → Near y.seq k.seq) (now : Int) :
    let y' := if k.index = 0 then k else y
    SlotOk s y' (c.receive (chunkDatagram k.conn k.seq F k.index) now).1 ∧
      ∀ out, (c.receive (chunkDatagram k.conn k.seq F k.index) now).2 = some out →
        (s.forwarders c.connId).frames[y'.frame]? = some out := by
  obtain ⟨hbuf, hprog⟩ := hc hact
  obtain ⟨Fk, hFk, -, hle, hidx, -⟩ := hi.sent _ hk
  have hFF : Fk = F := Option.some.inj (hFk.symm.trans hF)
  subst hFF
  by_cases h0 : k.index = 0
  · simp only [h0, if_true] at hidx ⊢
    rw [c.receive_first k.conn k.seq now hle hidx hbuf]
    have hin : InFrame s k ({ c with lastActivity := now, lastSeqNum := k.seq % 2 ^ 32 }.startFrame
        (chunkDatagram k.conn k.seq Fk 0)) Fk :=
      ⟨⟨data, hk⟩, hconn.symm, h0, hF, c.toReassembly.filling_newFrame Fk hbuf, rfl, rfl⟩
    obtain ⟨hslot, hout⟩ := slotOk_store hin hle k.conn k.seq hidx
    refine ⟨hslot, ?_⟩
    intro out hr
    rw [hout out hr, hconn]
    exact hF
  · simp only [if_neg h0]
    rw [c.receive_later k.conn k.seq now h0]
    -- A slot that does not take the chunk only notes when it came.
    have htouch : SlotOk s y { c with lastActivity := now, lastSeqNum := k.seq % 2 ^ 32 } :=
      fun _ ↦ ⟨hbuf, fun hp ↦ (hprog hp).imp fun _ h ↦ ⟨h.1, h.2, h.3, h.4, h.5, h.6, h.7⟩⟩
    dsimp only
    split
    · exact ⟨htouch, by simp⟩
    · next hin =>
      have hp : c.frameInProgress = true := by
        cases hfp : c.frameInProgress with
        | true => rfl
        | false => simp [hfp] at hin
      obtain ⟨F', hF'⟩ := hprog hp
      split
      · exact ⟨htouch, by simp⟩
      · next hw =>
        rw [hF'.startSeq, hF'.chunks, not_le] at hw
        obtain ⟨dy, hy⟩ := hF'.sent
        have hcc : y.conn = k.conn := hF'.conn.trans hconn
        have hsame := frame_eq_of_window hi ho hy hk hcc hF'.index hF'.frame (hnear hp) hw
        have hFF' : F' = Fk := by
          have := hF'.frame
          rw [hcc, ← hsame, hF] at this
          exact (Option.some.inj this).symm
        subst hFF'
        have hin : InFrame s y { c with lastActivity := now, lastSeqNum := k.seq % 2 ^ 32 } F' :=
          ⟨hF'.1, hF'.2, hF'.3, hF'.4, hF'.5, hF'.6, hF'.7⟩
        obtain ⟨hslot, hout⟩ := slotOk_store hin hle k.conn k.seq hidx
        refine ⟨hslot, ?_⟩
        intro out hr
        rw [hout out hr, ← hF'.conn]
        exact hF'.frame

/-! ### The whole session -/

/-- The numbers of the datagrams in flight do not wrap: a datagram delivered while a frame
of its connection is in progress has a number near the first one of that frame. -/
def NoWrap (w : Downlink) : DownLabel → Prop
  | .deliver k _ => ∀ e ∈ w.sender.sent[k]?, ∀ i ∈ w.slotOf e.1.conn,
      (w.cam.connections i).frameInProgress = true → Near (w.first i).seq e.1.seq
  | _ => True

instance (w : Downlink) : (l : DownLabel) → Decidable (NoWrap w l)
  | .deliver _ _ => inferInstanceAs (Decidable (∀ _ ∈ _, _))
  | .forward _ | .accept _ _ _ | .close _ | .cleanup _ => isTrue trivial

/-- What holds in every reachable state: each slot is on one frame, and what it has handed
over are frames of its connection. -/
structure Downlink.Inv (w : Downlink) : Prop where
  sender : w.sender.Inv
  ordered : w.sender.Ordered
  slots : ∀ i, SlotOk w.sender (w.first i) (w.cam.connections i)
  enqueued : ∀ i, ∀ e ∈ w.enqueued i,
    (w.sender.forwarders (w.cam.connections i).connId).frames[e.1]? = some e.2

theorem Downlink.inv_start : Downlink.start.Inv := by
  refine ⟨Sender.inv_start, Sender.ordered_start, ?_, by simp [start]⟩
  intro i h
  cases h

private theorem SlotOk.mono {s t : Sender} {y : Chunk} {c : Connection} (h : SlotOk s y c)
    (hsent : s.sent <+: t.sent)
    (hf : ∀ d, (s.forwarders d).frames <+: (t.forwarders d).frames) : SlotOk t y c := by
  intro hact
  obtain ⟨hb, hprog⟩ := h hact
  refine ⟨hb, ?_⟩
  intro hp
  obtain ⟨F, ⟨data, hd⟩, hc, h0, hF, hrest⟩ := hprog hp
  exact ⟨F, ⟨data, hsent.subset hd⟩, hc, h0, getElem?_of_initial (hf _) hF, hrest, ‹_›, ‹_›⟩

private theorem SlotOk.attachSpare {s : Sender} {y : Chunk} {c : Connection} (h : SlotOk s y c)
    (spare : Buffer UInt8) : SlotOk s y (c.attachSpare spare) := by
  unfold Connection.attachSpare
  split
  · exact fun hact ↦ ⟨(h hact).1, fun hp ↦ ((h hact).2 hp).imp fun _ hF ↦
      ⟨hF.1, hF.2, hF.3, hF.4, hF.5, hF.6, hF.7⟩⟩
  · exact h

private theorem SlotOk.cleanup {s : Sender} {y : Chunk} {c : Connection} (h : SlotOk s y c)
    (now : Int) : SlotOk s y (c.cleanup now) := by
  unfold Connection.cleanup
  split
  · exact fun hact ↦ ⟨(h hact).1, fun hp ↦ by cases hp⟩
  · exact h

/-- The callback keeps the slot on one frame, and what it passes on is that frame. -/
private theorem slotOk_afterRecv {s : Sender} {y' : Chunk} {c : Connection} {d : Datagram}
    (env : RecvEnv) {frames : List Bytes} (h : SlotOk s y' (c.receive d env.now).1 ∧
      ∀ out, (c.receive d env.now).2 = some out → frames[y'.frame]? = some out) :
    SlotOk s y' (c.afterRecv d env) ∧
      ∀ fd out, c.handed d env = some (fd, out) → frames[y'.frame]? = some out := by
  obtain ⟨hslot, hout⟩ := h
  unfold Connection.afterRecv Connection.handed
  cases hr : c.receive d env.now with
  | mk c' frame =>
    rw [hr] at hslot hout
    cases frame with
    | none => exact ⟨by cases env.spare <;> exact hslot, by simp⟩
    | some frame =>
      constructor
      · cases env.spare with
        | none => exact hslot
        | some spare => exact hslot.attachSpare spare
      · intro fd out ho
        dsimp only at ho
        split at ho
        · cases ho
          exact hout frame rfl
        · cases ho

private theorem inv_deliver {w t : Downlink} (hw : w.Inv) {k : Nat} {env : RecvEnv}
    (hc : NoWrap w (.deliver k env)) (h : w.step (.deliver k env) = some t) : t.Inv := by
  obtain ⟨chunk, data, F, hk, hF, ⟨-, rfl⟩ | ⟨i, hs, rfl⟩⟩ := Downlink.step_deliver hw.sender h
  · exact ⟨hw.sender, hw.ordered, hw.slots, hw.enqueued⟩
  · obtain ⟨-, hfind⟩ := Downlink.slotOf_some hs
    obtain ⟨-, hact, hid⟩ := CameraSession.findConnectionById_some hfind
    have hmem := List.mem_of_getElem? hk
    obtain ⟨hslot, hout⟩ := slotOk_afterRecv env
      (slotOk_receive hw.sender hw.ordered hmem hF (hw.slots i) hact hid
        (hc _ hk i hs) env.now)
    refine ⟨hw.sender, hw.ordered, ?_, ?_⟩
    · intro j
      by_cases hj : j = i
      · subst hj
        simpa [Downlink.note, CameraSession.setConnection] using hslot
      · simpa [Downlink.note, CameraSession.setConnection, Function.update_of_ne hj]
          using hw.slots j
    · intro j e he
      by_cases hj : j = i
      · subst hj
        simp only [CameraSession.setConnection, Function.update_self,
          Connection.afterRecv_connId, Downlink.enqueued_note] at he ⊢
        rcases List.mem_append.mp he with he | he
        · exact hw.enqueued j e he
        · obtain ⟨⟨fd, out⟩, hh, rfl⟩ := Option.map_eq_some_iff.mp (Option.mem_toList.mp he)
          exact hout fd out hh
      · simp only [CameraSession.setConnection, Function.update_of_ne hj,
          Downlink.enqueued_note_of_ne w hj] at he ⊢
        exact hw.enqueued j e he

private theorem inv_accept {w t : Downlink} (hw : w.Inv) {fd : Int}
    {buffers : Option (Buffer UInt8 × Buffer UInt8)} {now : Int}
    (h : w.step (.accept fd buffers now) = some t) : t.Inv := by
  obtain ⟨-, rfl | ⟨i, n, c, -, rfl, hc⟩⟩ := Downlink.step_accept h
  · exact hw
  · refine ⟨hw.sender, hw.ordered, ?_, ?_⟩
    · intro j
      by_cases hj : j = i
      · subst hj
        simp only [CameraSession.setConnection, Function.update_self]
        rcases hc with rfl | ⟨buf, spare, rfl⟩
        · intro hact
          cases hact
        · exact fun _ ↦ ⟨rfl, fun hp ↦ by cases hp⟩
      · simpa [CameraSession.setConnection, Function.update_of_ne hj] using hw.slots j
    · intro j e he
      by_cases hj : j = i
      · subst hj
        simp at he
      · simp only [CameraSession.setConnection, Function.update_of_ne hj] at he ⊢
        exact hw.enqueued j e he

/-- Every event keeps the invariant, as long as the numbers do not wrap. -/
theorem Downlink.Inv.step {w t : Downlink} {l : DownLabel} (hc : NoWrap w l) (hw : w.Inv)
    (h : w.step l = some t) : t.Inv := by
  cases l with
  | forward l =>
    obtain ⟨s, hl, rfl⟩ := Option.map_eq_some_iff.mp h
    have hf := Sender.frames_step hl
    exact ⟨hw.sender.step hl, hw.ordered.step hw.sender hl,
      fun i ↦ (hw.slots i).mono (Sender.sent_step hl) hf,
      fun i e he ↦ getElem?_of_initial (hf _) (hw.enqueued i e he)⟩
  | deliver k env => exact inv_deliver hw hc h
  | accept fd buffers now => exact inv_accept hw h
  | close i =>
    obtain ⟨c, hact, hid, rfl⟩ := Downlink.step_close h
    refine ⟨hw.sender, hw.ordered, ?_, ?_⟩
    · intro j
      by_cases hj : j = i
      · subst hj
        simp only [CameraSession.setConnection, Function.update_self]
        intro h'
        rw [hact] at h'
        cases h'
      · simpa [CameraSession.setConnection, Function.update_of_ne hj] using hw.slots j
    · intro j e he
      by_cases hj : j = i
      · subst hj
        simp only [CameraSession.setConnection, Function.update_self, hid]
        exact hw.enqueued j e he
      · simp only [CameraSession.setConnection, Function.update_of_ne hj]
        exact hw.enqueued j e he
  | cleanup now =>
    cases h
    refine ⟨hw.sender, hw.ordered, ?_, ?_⟩
    · intro j
      simp only [CameraSession.cleanupStaleConnections]
      split
      · exact (hw.slots j).cleanup now
      · exact hw.slots j
    · intro j e he
      have hid : ((w.cam.cleanupStaleConnections now).connections j).connId =
          (w.cam.connections j).connId := by
        simp only [CameraSession.cleanupStaleConnections, Connection.cleanup]
        split
        · split <;> rfl
        · rfl
      rw [hid]
      exact hw.enqueued j e he

/-- Whatever datagrams the link loses, repeats or reorders, a block handed to the dispatch
queue is, byte for byte, the frame of its connection that its first chunk belongs to. -/
theorem enqueued_eq_frame {ls : List DownLabel} {w : Downlink}
    (hc : Always Downlink.step NoWrap .start ls) (hr : run Downlink.step .start ls = some w) :
    ∀ i, ∀ e ∈ w.enqueued i,
      (w.sender.forwarders (w.cam.connections i).connId).frames[e.1]? = some e.2 :=
  (invariant_run Downlink.step (fun _ _ _ hl hs ht ↦ hs.step hl ht) hc
    Downlink.inv_start hr).enqueued

/-- A frame of two chunks. -/
def twoPieces : Bytes := List.replicate maxChunkPayload 7 ++ lit "flv"

/-- The second chunk of the frame comes first and is dropped; then both come, each of them twice. -/
def repeatedChunk : List DownLabel :=
  [.accept 5 (some (fun _ ↦ 0, fun _ ↦ 0)) 0, .forward (.read 1 twoPieces), .forward (.draw 1),
    .forward (.send 1 true), .forward (.draw 1), .forward (.send 1 true),
    .deliver 1 ⟨1, 7, none⟩, .deliver 0 ⟨1, 7, none⟩, .deliver 0 ⟨1, 7, none⟩,
    .deliver 1 ⟨2, 8, none⟩, .deliver 1 ⟨2, 9, none⟩]

theorem enqueued_eq_frame_repeatedChunk :
    ∃ w, run Downlink.step .start repeatedChunk = some w ∧ (w.enqueued 0).map (·.1) = [0] ∧
      ∀ i, ∀ e ∈ w.enqueued i,
        (w.sender.forwarders (w.cam.connections i).connId).frames[e.1]? = some e.2 := by
  have hrun : ∃ w, run Downlink.step .start repeatedChunk = some w ∧
      (w.enqueued 0).map (·.1) = [0] :=
    exists_run _ _ (by decide +kernel)
  obtain ⟨w, hr, honce⟩ := hrun
  have hwrap : Always Downlink.step NoWrap .start repeatedChunk := by decide +kernel
  exact ⟨w, hr, honce, enqueued_eq_frame hwrap hr⟩

end Kitty.P2p
