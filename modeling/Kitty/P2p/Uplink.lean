import Kitty.P2p.Provider

/-!
# From the consumer's threads to the provider's local sockets

The consumer's forwarding threads, a link that delivers any datagram any number of times
in any order, and the provider's service: `forward_local_to_p2p` of
`src/consumer-srt-cloud/_legacy_libjuice_consumer_api.c:635–712` against `on_recv` of
`src/provider-srt/_legacy_libjuice_provider_configurable.c:729–919`. A later chunk goes
into whatever frame of its size is in the buffer, so a block is one frame as long as no
chunk of another frame of that size finds its place empty.
-/

namespace Kitty.P2p

open Kitty.Base

/-- Both ends of the link. Beside the program's variables it records the first chunk each
slot has taken last, and the blocks `on_recv` has written, with their connection. -/
structure Uplink where
  sender : Sender
  svc : Service
  first : Nat → Chunk
  written : List (Nat × Bytes)

/-- Nothing sent, no connection. -/
def Uplink.start : Uplink := ⟨.start, .start, fun _ ↦ ⟨0, 0, 0, 0⟩, []⟩

/-- What happens at either end: a thread's step, the delivery of a datagram, or a connection
closed by its thread or by the cleanup. -/
inductive UpLabel where
  | forward (l : SendLabel)
  | deliver (k : Nat) (env : ServiceEnv)
  | other (m : Meanwhile)

/-- One event. -/
def Uplink.step (w : Uplink) : UpLabel → Option Uplink
  | .forward l => (w.sender.step true l).map fun s ↦ { w with sender := s }
  | .deliver k env =>
    match w.sender.sent[k]? with
    | none => none
    | some (chunk, data) =>
      let (svc, out) := onRecv w.svc data env
      some { w with
        svc
        first := match (Datagram.parse data).bind fun d ↦ (w.svc.connection d env).2 with
          | some i => if chunk.index = 0 then Function.update w.first i chunk else w.first
          | none => w.first
        written := match out with
          | .write _ block => w.written ++ [(chunk.conn, block)]
          | _ => w.written }
  | .other m => some { w with svc := w.svc.meanwhile m }

/-- The frame a chunk belongs to. -/
def Uplink.frameOf (w : Uplink) (k : Chunk) : Bytes :=
  ((w.sender.forwarders k.conn).frames[k.frame]?).getD []

/-- No later chunk is delivered while another frame of the same size is in progress on its
connection with the place of that chunk still empty. -/
def NoForeign (w : Uplink) : UpLabel → Prop
  | .deliver k _ => ∀ e ∈ w.sender.sent[k]?, ∀ i ∈ w.svc.findConnection e.1.conn,
      e.1.index ≠ 0 → (w.svc.connections i).expectedSize = (w.frameOf e.1).length →
      (w.svc.connections i).chunkReceived e.1.index = false → e.1.frame = (w.first i).frame
  | _ => True

instance (w : Uplink) : (l : UpLabel) → Decidable (NoForeign w l)
  | .deliver _ _ => inferInstanceAs (Decidable (∀ _ ∈ _, _))
  | .forward _ | .other _ => isTrue trivial

/-! ### One connection -/

/-- A slot is being filled with the frame its last first chunk belongs to. -/
structure OfFrame (s : Sender) (y : Chunk) (c : ServiceConnection) (F : Bytes) : Prop where
  conn : y.conn = c.connId
  frame : (s.forwarders y.conn).frames[y.frame]? = some F
  filling : c.toReassembly.Filling F

/-- An open slot has a buffer, and a frame in progress is the one of its last first chunk. -/
def ServiceSlotOk (s : Sender) (y : Chunk) (c : ServiceConnection) : Prop :=
  c.active → c.reassemblyBuffer.isSome ∧ (c.expectedSize ≠ 0 → ∃ F, OfFrame s y c F)

theorem ServiceConnection.store_same (c : ServiceConnection) (d : Datagram) :
    (c.store d).1.connId = c.connId ∧ (c.store d).1.active = c.active := by
  unfold ServiceConnection.store
  split
  · dsimp only
    split <;> exact ⟨rfl, rfl⟩
  · exact ⟨rfl, rfl⟩

theorem ServiceConnection.receive_same (c : ServiceConnection) (d : Datagram) (now : Int) :
    (c.receive d now).1.connId = c.connId ∧ (c.receive d now).1.active = c.active := by
  unfold ServiceConnection.receive
  dsimp only
  split
  · exact ⟨rfl, rfl⟩
  · by_cases h0 : d.offset = 0
    · simp only [if_pos h0]
      split
      · exact ⟨rfl, rfl⟩
      · exact ServiceConnection.store_same _ d
    · simp only [if_neg h0]
      split
      · exact ⟨rfl, rfl⟩
      · exact ServiceConnection.store_same _ d

/-- Storing a chunk of the frame in the buffer keeps the slot on that frame, and what leaves
is that frame. -/
theorem serviceSlotOk_store {s : Sender} {y : Chunk} {c : ServiceConnection} {F : Bytes}
    (hc : OfFrame s y c F) (hF : F.length ≤ bufferSize) (conn seq : Nat) {index : Nat}
    (hi : index < numChunks F.length) :
    ServiceSlotOk s y (c.store (chunkDatagram conn seq F index)).1 ∧
      ∀ out, (c.store (chunkDatagram conn seq F index)).2 = some out → out = F := by
  have ha := accepts_chunk conn seq hF hi hc.filling.1
  obtain ⟨buf, hbuf, -⟩ := hc.filling.2
  cases hg : c.chunkReceived index with
  | true =>
    rw [hg] at ha
    simp only [ServiceConnection.store, ha, Bool.not_true, Bool.false_eq_true, if_false]
    exact ⟨fun _ ↦ ⟨by simp [hbuf], fun _ ↦ ⟨F, hc⟩⟩, by simp⟩
  | false =>
    rw [hg] at ha
    have hfill := hc.filling.copy hF conn seq hi hg
    obtain ⟨buf', hbuf', -⟩ := hfill.2
    simp only [ServiceConnection.store, ha, Bool.not_false, if_true]
    split
    · next hfull =>
      refine ⟨fun _ ↦ ⟨?_, ?_⟩, fun out ho ↦ hfill.finish hfull _ out ho⟩
      · simp [Reassembly.finish_buffer, hbuf']
      · intro hne
        exact absurd (Reassembly.finish_expectedSize _ _) hne
    · exact ⟨fun _ ↦ ⟨by simp [hbuf'], fun _ ↦ ⟨F, hc.conn, hc.frame, hfill⟩⟩, by simp⟩

/-- A chunk taken by a slot keeps it on one frame, when a later chunk that would be copied
belongs to the frame in the buffer. -/
theorem serviceSlotOk_receive {s : Sender} (hi : s.Inv) {y k : Chunk} {data F : Bytes}
    {c : ServiceConnection} (hk : (k, data) ∈ s.sent)
    (hF : (s.forwarders k.conn).frames[k.frame]? = some F) (hc : ServiceSlotOk s y c)
    (hact : c.active) (hconn : c.connId = k.conn)
    (hown : k.index ≠ 0 → c.expectedSize = F.length → c.chunkReceived k.index = false →
      k.frame = y.frame) (now : Int) :
    let y' := if k.index = 0 then k else y
    ServiceSlotOk s y' (c.receive (chunkDatagram k.conn k.seq F k.index) now).1 ∧
      ∀ out, (c.receive (chunkDatagram k.conn k.seq F k.index) now).2 = some out →
        (s.forwarders c.connId).frames[y'.frame]? = some out := by
  obtain ⟨hbuf, hprog⟩ := hc hact
  obtain ⟨Fk, hFk, -, hle, hidx, -⟩ := hi.sent _ hk
  have hFF : Fk = F := Option.some.inj (hFk.symm.trans hF)
  subst hFF
  dsimp only at hidx
  have hpos : 0 < Fk.length := by
    have := (lt_numPieces_iff _ _ _ maxChunkPayload_pos).mp hidx
    omega
  have htotal : (chunkDatagram k.conn k.seq Fk k.index).totalSize = Fk.length := rfl
  -- What is left of the callback once the sizes are checked.
  have hrecv : c.receive (chunkDatagram k.conn k.seq Fk k.index) now =
      let c' := { c with lastActivity := now, lastSeqNum := k.seq % 2 ^ 32 }
      let c'' := if k.index = 0 then c'.startFrame (chunkDatagram k.conn k.seq Fk k.index) else c'
      if c''.expectedSize == 0 || c''.reassemblyBuffer.isNone then (c'', none)
      else c''.store (chunkDatagram k.conn k.seq Fk k.index) := by
    have hoff : (chunkDatagram k.conn k.seq Fk k.index).offset = 0 ↔ k.index = 0 := by
      simp only [chunkDatagram, Nat.mul_eq_zero, maxChunkPayload_pos.ne', or_false]
    simp only [ServiceConnection.receive, hoff]
    rw [if_neg (by rw [htotal]; omega)]
    rfl
  obtain ⟨buf, hsome⟩ := Option.isSome_iff_exists.mp hbuf
  rw [hrecv]
  by_cases h0 : k.index = 0
  · simp only [h0, if_true] at hidx ⊢
    have hin : OfFrame s k ({ c with lastActivity := now, lastSeqNum := k.seq % 2 ^ 32 }.startFrame
        (chunkDatagram k.conn k.seq Fk 0)) Fk :=
      ⟨hconn.symm, hF, c.toReassembly.filling_newFrame Fk hbuf⟩
    obtain ⟨hslot, hout⟩ := serviceSlotOk_store hin hle k.conn k.seq hidx
    rw [if_neg (by
      simp only [ServiceConnection.startFrame, Reassembly.newFrame, hsome, Option.isNone_some,
        Bool.or_false, beq_iff_eq, chunkDatagram]
      omega)]
    refine ⟨hslot, ?_⟩
    intro out hr
    rw [hout out hr, hconn]
    exact hF
  · simp only [if_neg h0]
    have htouch : ServiceSlotOk s y { c with lastActivity := now, lastSeqNum := k.seq % 2 ^ 32 } :=
      fun _ ↦ ⟨hbuf, fun hne ↦ (hprog hne).imp fun _ h ↦ ⟨h.1, h.2, h.3⟩⟩
    split
    · exact ⟨htouch, by simp⟩
    · next hexp =>
      have hne : c.expectedSize ≠ 0 := by
        intro h
        simp [h] at hexp
      obtain ⟨F', hF'⟩ := hprog hne
      cases hacc : c.accepts (chunkDatagram k.conn k.seq Fk k.index) with
      | false =>
        have hno : ServiceConnection.store
            { c with lastActivity := now, lastSeqNum := k.seq % 2 ^ 32 }
            (chunkDatagram k.conn k.seq Fk k.index) =
            ({ c with lastActivity := now, lastSeqNum := k.seq % 2 ^ 32 }, none) := by
          simp [ServiceConnection.store, hacc]
        rw [hno]
        exact ⟨htouch, by simp⟩
      | true =>
        simp only [Reassembly.accepts, chunkDatagram_index, Bool.and_eq_true, beq_iff_eq,
          Bool.not_eq_true'] at hacc
        obtain ⟨⟨⟨⟨⟨hsize, -⟩, -⟩, -⟩, -⟩, hgot⟩ := hacc
        have hsame := hown h0 hsize.symm hgot
        have hFF' : F' = Fk := by
          have := hF'.frame
          rw [hF'.conn, hconn, ← hsame, hF] at this
          exact (Option.some.inj this).symm
        subst hFF'
        have hin : OfFrame s y { c with lastActivity := now, lastSeqNum := k.seq % 2 ^ 32 } F' :=
          ⟨hF'.1, hF'.2, hF'.3⟩
        obtain ⟨hslot, hout⟩ := serviceSlotOk_store hin hle k.conn k.seq hidx
        refine ⟨hslot, ?_⟩
        intro out hr
        rw [hout out hr, ← hF'.conn]
        exact hF'.frame

/-! ### The whole service -/

/-- Every slot of the service is on one frame. -/
def SlotsOk (s : Sender) (first : Nat → Chunk) (svc : Service) : Prop :=
  ∀ i, ServiceSlotOk s (first i) (svc.connections i)

private theorem ServiceSlotOk.inactive {s : Sender} {y : Chunk} {c : ServiceConnection}
    (h : c.active = false) : ServiceSlotOk s y c := by
  intro hact
  rw [h] at hact
  cases hact

private theorem SlotsOk.setConnection {s : Sender} {first : Nat → Chunk} {svc : Service}
    (h : SlotsOk s first svc) {i : Nat} {c : ServiceConnection} (hc : ServiceSlotOk s (first i) c) :
    SlotsOk s first (svc.setConnection i c) := by
  intro j
  by_cases hj : j = i
  · subst hj
    simpa [Service.setConnection] using hc
  · simpa [Service.setConnection, Function.update_of_ne hj] using h j

private theorem SlotsOk.createConnection {s : Sender} {first : Nat → Chunk} {svc : Service}
    (h : SlotsOk s first svc) (connId : Nat) (buffers : Option (Buffer UInt8 × Buffer UInt8))
    (now : Int) : SlotsOk s first (svc.createConnection connId buffers now) := by
  unfold Service.createConnection
  split
  · exact h
  · exact h.setConnection (.inactive rfl)
  · exact h.setConnection fun _ ↦ ⟨rfl, fun hne ↦ absurd rfl hne⟩

private theorem SlotsOk.meanwhile {s : Sender} {first : Nat → Chunk} {svc : Service}
    (h : SlotsOk s first svc) (m : Meanwhile) : SlotsOk s first (svc.meanwhile m) := by
  cases m with
  | close i => exact h.setConnection (.inactive rfl)
  | cleanup now =>
    intro j
    simp only [Service.meanwhile, Service.cleanup]
    split
    · exact .inactive rfl
    · exact h j

private theorem SlotsOk.foldl_meanwhile {s : Sender} {first : Nat → Chunk} (ms : List Meanwhile)
    {svc : Service} (h : SlotsOk s first svc) :
    SlotsOk s first (ms.foldl Service.meanwhile svc) := by
  induction ms generalizing svc with
  | nil => exact h
  | cons m ms ih => exact ih (h.meanwhile m)

private theorem SlotsOk.connection {s : Sender} {first : Nat → Chunk} {svc : Service}
    (h : SlotsOk s first svc) (d : Datagram) (env : ServiceEnv) :
    SlotsOk s first (svc.connection d env).1 := by
  unfold Service.connection
  split
  · exact h
  · split
    · exact h
    · have hcreated := h.createConnection d.connId env.buffers env.now
      dsimp only
      split
      · exact hcreated
      · have hlater := hcreated.foldl_meanwhile env.meanwhile
        split
        · exact hlater
        · next i _ =>
          split
          · exact hlater.setConnection (.inactive rfl)
          · exact hlater.setConnection fun hact ↦
              ⟨(hlater i hact).1, fun hne ↦ ((hlater i hact).2 hne).imp fun _ hF ↦
                ⟨hF.1, hF.2, hF.3⟩⟩

private theorem SlotsOk.refillSpare {s : Sender} {first : Nat → Chunk} {svc : Service}
    (h : SlotsOk s first svc) (connId : Nat) (spare : Option (Buffer UInt8)) :
    SlotsOk s first (svc.refillSpare connId spare) := by
  unfold Service.refillSpare
  split
  · next sp i _ =>
    apply h.setConnection
    unfold ServiceConnection.attachSpare
    split
    · exact fun hact ↦ ⟨(h i hact).1, fun hne ↦ ((h i hact).2 hne).imp fun _ hF ↦
        ⟨hF.1, hF.2, hF.3⟩⟩
    · exact h i
  · exact h

theorem Service.findConnection_some {svc : Service} {connId i : Nat}
    (h : svc.findConnection connId = some i) :
    (svc.connections i).active = true ∧ (svc.connections i).connId = connId := by
  have hp := List.find?_some h
  simpa only [Bool.and_eq_true, beq_iff_eq] using hp

/-- The slot of the callback is in use by the connection, and was before unless the datagram
starts a frame. -/
theorem Service.connection_some {svc svc' : Service} {d : Datagram} {env : ServiceEnv} {i : Nat}
    (h : svc.connection d env = (svc', some i)) :
    (svc'.connections i).active = true ∧ (svc'.connections i).connId = d.connId ∧
      (svc' = svc ∧ svc.findConnection d.connId = some i ∨ d.offset = 0) := by
  unfold Service.connection at h
  split at h
  · next j hj =>
    obtain ⟨rfl, hji⟩ := Prod.mk.inj h
    cases hji
    obtain ⟨hact, hid⟩ := Service.findConnection_some hj
    exact ⟨hact, hid, .inl ⟨rfl, hj⟩⟩
  · split at h
    · cases h
    · next hoff =>
      dsimp only at h
      split at h
      · cases h
      · split at h
        · cases h
        · next j hj =>
          split at h
          · cases h
          · obtain ⟨rfl, hji⟩ := Prod.mk.inj h
            cases hji
            obtain ⟨hact, hid⟩ := Service.findConnection_some hj
            refine ⟨?_, ?_, .inr (not_not.mp hoff)⟩
            · simpa [Service.setConnection] using hact
            · simpa [Service.setConnection] using hid

/-- What holds in every reachable state. -/
structure Uplink.Inv (w : Uplink) : Prop where
  sender : w.sender.Inv
  slots : SlotsOk w.sender w.first w.svc
  written : ∀ e ∈ w.written, e.2 ∈ (w.sender.forwarders e.1).frames

theorem Uplink.inv_start : Uplink.start.Inv :=
  ⟨Sender.inv_start, fun _ ↦ .inactive rfl, by simp [start]⟩

private theorem uplink_deliver {w t : Uplink} (hw : w.Inv) {k : Nat} {env : ServiceEnv}
    (hc : NoForeign w (.deliver k env)) (h : w.step (.deliver k env) = some t) : t.Inv := by
  simp only [Uplink.step] at h
  cases hk : w.sender.sent[k]? with
  | none => simp [hk] at h
  | some e =>
    obtain ⟨chunk, data⟩ := e
    have hmem := List.mem_of_getElem? hk
    obtain ⟨F, hF, hconn, hle, hidx, hdata⟩ := hw.sender.sent _ hmem
    dsimp only at hF hconn hidx hdata
    have hd : Datagram.parse data = some (chunkDatagram chunk.conn chunk.seq F chunk.index) := by
      rw [hdata]
      exact parse_chunk hconn hle hidx
    have ht : (chunkDatagram chunk.conn chunk.seq F chunk.index).totalSize ≠ 0 := by
      have := (lt_numPieces_iff _ _ _ maxChunkPayload_pos).mp hidx
      change F.length ≠ 0
      omega
    have hslots := hw.slots.connection (chunkDatagram chunk.conn chunk.seq F chunk.index) env
    simp only [hk, hd, onRecv_eq env hd fun h ↦ ht h.2.1, Option.bind_some] at h
    cases hcon : w.svc.connection (chunkDatagram chunk.conn chunk.seq F chunk.index) env with
    | mk svc slot =>
      rw [hcon] at h hslots
      cases slot with
      | none =>
        cases h
        exact ⟨hw.sender, hslots, hw.written⟩
      | some i =>
        obtain ⟨hact, hid, hold⟩ := Service.connection_some hcon
        -- A later chunk finds the slot as it was, so the condition on the link applies.
        have hown : chunk.index ≠ 0 → (svc.connections i).expectedSize = F.length →
            (svc.connections i).chunkReceived chunk.index = false →
            chunk.frame = (w.first i).frame := by
          intro h0 hsize hgot
          rcases hold with ⟨rfl, hfind⟩ | hoff
          · refine hc _ hk i hfind h0 ?_ hgot
            simpa [Uplink.frameOf, hF] using hsize
          · simp only [chunkDatagram, Nat.mul_eq_zero, maxChunkPayload_pos.ne', or_false] at hoff
            exact absurd hoff h0
        obtain ⟨hslot, hout⟩ := serviceSlotOk_receive hw.sender hmem hF (hslots i) hact hid hown
          env.now
        have hfirst : ∀ c, ServiceSlotOk w.sender (if chunk.index = 0 then chunk else w.first i) c →
            SlotsOk w.sender (if chunk.index = 0 then Function.update w.first i chunk else w.first)
              (svc.setConnection i c) := by
          intro c hcslot j
          by_cases hj : j = i
          · subst hj
            simp only [Service.setConnection, Function.update_self]
            split <;> simp_all
          · simp only [Service.setConnection, Function.update_of_ne hj]
            split
            · simpa [Function.update_of_ne hj] using hslots j
            · exact hslots j
        cases hr : (svc.connections i).receive
            (chunkDatagram chunk.conn chunk.seq F chunk.index) env.now with
        | mk c frame =>
          rw [hr] at hslot hout
          cases frame with
          | none =>
            simp only [hr] at h
            cases h
            exact ⟨hw.sender, hfirst c hslot, hw.written⟩
          | some frame =>
            simp only [hr] at h
            cases h
            refine ⟨hw.sender, (hfirst c hslot).refillSpare _ _, ?_⟩
            by_cases hdup : 0 ≤ env.dup ∧ 0 < frame.length
            · simp only [if_pos hdup]
              intro e he
              rcases List.mem_append.mp he with he | he
              · exact hw.written e he
              · rw [List.mem_singleton.mp he]
                have hfr := hout frame rfl
                rw [hid] at hfr
                exact List.mem_of_getElem? hfr
            · simp only [if_neg hdup]
              exact hw.written

theorem Uplink.Inv.step {w t : Uplink} {l : UpLabel} (hc : NoForeign w l) (hw : w.Inv)
    (h : w.step l = some t) : t.Inv := by
  cases l with
  | forward l =>
    obtain ⟨s, hl, rfl⟩ := Option.map_eq_some_iff.mp h
    have hf := Sender.frames_step hl
    refine ⟨hw.sender.step hl, fun i hact ↦ ⟨(hw.slots i hact).1, ?_⟩,
      fun e he ↦ (hf _).subset (hw.written e he)⟩
    intro hne
    obtain ⟨F, hF⟩ := (hw.slots i hact).2 hne
    exact ⟨F, hF.conn, getElem?_of_initial (hf _) hF.frame, hF.filling⟩
  | deliver k env => exact uplink_deliver hw hc h
  | other m =>
    cases h
    exact ⟨hw.sender, hw.slots.meanwhile m, hw.written⟩

/-- Every block `on_recv` writes is, byte for byte, a frame sent on its connection, in every run
in which no later chunk finds its place empty in another frame of the same size. -/
theorem written_mem_frames {ls : List UpLabel} {w : Uplink}
    (hc : Always Uplink.step NoForeign .start ls) (hr : run Uplink.step .start ls = some w) :
    ∀ e ∈ w.written, e.2 ∈ (w.sender.forwarders e.1).frames :=
  (invariant_run Uplink.step (fun _ _ _ hl hs ht ↦ hs.step hl ht) hc Uplink.inv_start hr).written

/-- Two frames of two chunks and one size are sent on connection 1. -/
def sameSize : List UpLabel :=
  (List.replicate 1085 0 :: [List.replicate 1085 1]).flatMap fun F ↦
    [.forward (.read 1 F), .forward (.draw 1), .forward (.send 1 true), .forward (.draw 1),
      .forward (.send 1 true)]

/-- System calls that succeed. -/
def serviceEnv : ServiceEnv := ⟨0, some (fun _ ↦ 0, fun _ ↦ 0), [], 5, true, 6, some fun _ ↦ 0⟩

/-- Their datagrams, delivered in order, the second one twice. -/
def sameSizeInOrder : List UpLabel :=
  sameSize ++ [.deliver 0 serviceEnv, .deliver 1 serviceEnv, .deliver 1 serviceEnv,
    .deliver 2 serviceEnv, .deliver 3 serviceEnv]

theorem written_mem_frames_sameSizeInOrder :
    ∃ w, run Uplink.step .start sameSizeInOrder = some w ∧
      ∀ e ∈ w.written, e.2 ∈ (w.sender.forwarders e.1).frames := by
  obtain ⟨w, hr, -⟩ := exists_run Uplink.step (fun w ↦ w.written.length = 2)
    (show (run Uplink.step .start sameSizeInOrder).any _ = true by decide +kernel)
  have hc : Always Uplink.step NoForeign .start sameSizeInOrder := by decide +kernel
  exact ⟨w, hr, written_mem_frames hc hr⟩

/-- The second chunk of the first frame comes late, inside the second frame. -/
def lateChunk : List UpLabel :=
  sameSize ++ [.deliver 0 serviceEnv, .deliver 2 serviceEnv, .deliver 1 serviceEnv]

/-- A block is written that is neither of the two frames: its first and its last byte differ. -/
theorem written_lateChunk :
    ∃ w, run Uplink.step .start lateChunk = some w ∧ w.written ≠ [] ∧
      ∀ e ∈ w.written, e.2 ∉ (w.sender.forwarders e.1).frames := by
  obtain ⟨w, hr, hne, hframes, hwritten⟩ := exists_run Uplink.step
    (fun w ↦ w.written ≠ [] ∧
      (∀ e ∈ w.written, ∀ F ∈ (w.sender.forwarders e.1).frames, F[0]? = F[1084]?) ∧
      ∀ e ∈ w.written, e.2[0]? ≠ e.2[1084]?)
    (show (run Uplink.step .start lateChunk).any _ = true by decide +kernel)
  exact ⟨w, hr, hne, fun e he hmem ↦ hwritten e he (hframes e he _ hmem)⟩

end Kitty.P2p
