import Kitty.P2p.Sessions

/-!
# The bounds of reassembly

Which bytes of a connection's buffer and which bits of its chunk bitmap a datagram may touch;
`src/consumer-srt-cloud/_legacy_libjuice_consumer_api.c:994–1069` and
`src/provider-srt/_legacy_libjuice_provider_configurable.c:826–889`. The header fields come from the
peer, so any datagram may arrive in any reachable state.
-/

namespace Kitty.P2p

open Kitty.Base

/-! ### Sizes and counts -/

/-- A frame in progress fits the buffer, no more bytes of it are counted than it has, and no bit is
set behind the end of the bitmap. -/
structure Reassembly.Bounded (r : Reassembly) : Prop where
  size : r.expectedSize ≤ bufferSize
  count : r.bytesReceived ≤ r.expectedSize
  bits : ∀ j, maxChunksPerFrame ≤ j → r.chunkReceived j = false

theorem kept_bounded : Kept Reassembly.Bounded where
  fresh r he hb hbits := ⟨by omega, by omega, fun j _ ↦ hbits j⟩
  givenUp _ h := ⟨Nat.zero_le _, Nat.le_refl _, h.bits⟩
  closed _ h := ⟨h.size, h.count, h.bits⟩
  spare _ _ h := ⟨h.size, h.count, h.bits⟩

theorem bufferSize_lt : 2 * bufferSize < 2 ^ 32 := by decide

namespace Reassembly

/-- After a finished frame nothing is counted. -/
theorem finish_bytesReceived (r : Reassembly) (sock : Int) :
    (r.finish sock).1.bytesReceived = 0 := by
  unfold Reassembly.finish
  cases r.reassemblyBuffer with
  | none => rfl
  | some buf =>
    cases r.spareBuffer with
    | none => rfl
    | some spare =>
      dsimp only
      split <;> rfl

/-- The first five conditions of the bounds check, which leave the bitmap alone. -/
def inRange (r : Reassembly) (d : Datagram) : Bool :=
  d.totalSize == r.expectedSize &&
  d.offset / maxChunkPayload < maxChunksPerFrame &&
  d.offset < d.totalSize &&
  d.offset + d.payload.length ≤ d.totalSize &&
  d.offset + d.payload.length ≤ bufferSize

theorem accepts_eq (r : Reassembly) (d : Datagram) :
    r.accepts d = (r.inRange d && !r.chunkReceived (d.offset / maxChunkPayload)) := rfl

theorem inRange_iff (r : Reassembly) (d : Datagram) :
    r.inRange d = true ↔ d.totalSize = r.expectedSize ∧
      d.offset / maxChunkPayload < maxChunksPerFrame ∧ d.offset < d.totalSize ∧
      d.offset + d.payload.length ≤ d.totalSize ∧ d.offset + d.payload.length ≤ bufferSize := by
  simp [inRange, and_assoc]

theorem Bounded.opened {r : Reassembly} (h : r.Bounded) (d : Datagram) : (r.opened d).Bounded := by
  unfold Reassembly.opened
  split
  · next hb =>
    obtain ⟨-, -, hle⟩ := d.begins_iff.mp hb
    exact ⟨hle, Nat.zero_le _, fun _ _ ↦ rfl⟩
  · exact h

/-- The count of a chunk that passed the check does not wrap. -/
theorem Bounded.count_add {r : Reassembly} (h : r.Bounded) {d : Datagram}
    (ha : r.accepts d = true) : r.bytesReceived + d.payload.length < 2 ^ 32 := by
  rw [accepts_eq, Bool.and_eq_true, inRange_iff] at ha
  obtain ⟨⟨-, -, -, -, hle⟩, -⟩ := ha
  have h1 := h.size
  have h2 := h.count
  have h3 := bufferSize_lt
  omega

/-- A finished frame leaves the bitmap as it is. -/
theorem finish_chunkReceived (r : Reassembly) (sock : Int) :
    (r.finish sock).1.chunkReceived = r.chunkReceived := by
  unfold Reassembly.finish
  cases r.reassemblyBuffer with
  | none => rfl
  | some buf =>
    cases r.spareBuffer with
    | none => rfl
    | some spare =>
      dsimp only
      split <;> rfl

/-- The bit of a chunk that passed the check is one of the bitmap. -/
theorem copy_chunkReceived {r : Reassembly} {d : Datagram} (ha : r.accepts d = true) {j : Nat}
    (hj : maxChunksPerFrame ≤ j) : (r.copy d).chunkReceived j = r.chunkReceived j := by
  rw [accepts_eq, Bool.and_eq_true, inRange_iff] at ha
  exact Function.update_of_ne (by omega) _ _

theorem Bounded.stored {r : Reassembly} (h : r.Bounded) {d : Datagram} {taken : Bool}
    (ha : taken = true → r.accepts d = true) (sock : Int) : (r.stored d taken sock).1.Bounded := by
  unfold Reassembly.stored
  cases taken with
  | false => exact h
  | true =>
    have hbits : ∀ j, maxChunksPerFrame ≤ j → (r.copy d).chunkReceived j = false := fun j hj ↦
      (copy_chunkReceived (ha rfl) hj).trans (h.bits j hj)
    rw [if_pos rfl]
    split
    · refine ⟨by simp [finish_expectedSize], by simp [finish_bytesReceived], ?_⟩
      rw [finish_chunkReceived]
      exact hbits
    · next hfull =>
      rw [Reassembly.full, decide_eq_true_iff] at hfull
      exact ⟨h.size, (Nat.not_le.mp hfull).le, hbits⟩

end Reassembly

theorem Connection.receive_bounded {c : Connection} (h : c.Bounded) (d : Datagram) (now : Int) :
    (c.receive d now).1.Bounded := by
  have hr := congrArg Prod.fst (c.receive_reassembly d now)
  have hs := (h.opened d).stored (fun ht ↦ (Connection.taking ht).accepts) c.localSocket
  rw [← hr] at hs
  exact hs

theorem ServiceConnection.receive_bounded {c : ServiceConnection} (h : c.Bounded) (d : Datagram)
    (now : Int) : (c.receive d now).1.Bounded := by
  have hr := congrArg Prod.fst (c.receive_reassembly d now)
  have hs := (h.opened d).stored (fun ht ↦ (ServiceConnection.taking ht).accepts) c.localSocket
  rw [← hr] at hs
  exact hs

/-- Whatever happens to a session, its slots stay bounded. -/
theorem CameraSession.bounded_step {cam t : CameraSession} {l : SessionEvent}
    (h : cam.Slots fun _ ↦ Reassembly.Bounded) (hs : cam.step l = some t) :
    t.Slots fun _ ↦ Reassembly.Bounded := by
  cases l with
  | recv data env =>
    cases hs
    cases hread : cam.reader data with
    | none =>
      intro j
      rw [onRecvCamera_reader_none env hread]
      exact h j
    | some e =>
      obtain ⟨i, d⟩ := e
      intro j
      obtain ⟨s, hslot⟩ := onRecvCamera_reader env hread j
      rw [hslot]
      exact kept_bounded.spare _ _
        ((h.setConnection (Connection.receive_bounded (h i) d env.now)) j)
  | _ => exact h.event (fun _ ↦ kept_bounded) (by simp) hs

theorem Service.bounded_step {svc t : Service} {l : ServiceEvent}
    (h : svc.Slots fun _ ↦ Reassembly.Bounded) (hs : svc.step l = some t) :
    t.Slots fun _ ↦ Reassembly.Bounded := by
  cases l with
  | recv data env =>
    cases hs
    have hreader := h.reader (fun _ ↦ kept_bounded) data env
    cases hread : svc.reader data env with
    | mk svc' slot =>
      rw [hread] at hreader
      cases slot with
      | none => rwa [onRecv_reader_none hread]
      | some e =>
        obtain ⟨i, d⟩ := e
        intro j
        obtain ⟨s, hslot⟩ := onRecv_reader hread j
        rw [hslot]
        exact kept_bounded.spare _ _
          ((hreader.setConnection (ServiceConnection.receive_bounded (hreader i) d env.now)) j)
  | _ => exact h.event (fun _ ↦ kept_bounded) (by simp) hs

/-- Every slot is bounded in every reachable state. -/
theorem CameraSession.bounded_run {events : List SessionEvent} {cam : CameraSession}
    (hr : run CameraSession.step .start events = some cam) :
    cam.Slots fun _ ↦ Reassembly.Bounded :=
  invariant_of_run CameraSession.step (fun _ _ _ h hs ↦ CameraSession.bounded_step h hs)
    (CameraSession.slots_start fun _ ↦ kept_bounded) hr

theorem Service.bounded_run {events : List ServiceEvent} {svc : Service}
    (hr : run Service.step .start events = some svc) : svc.Slots fun _ ↦ Reassembly.Bounded :=
  invariant_of_run Service.step (fun _ _ _ h hs ↦ Service.bounded_step h hs)
    (Service.slots_start fun _ ↦ kept_bounded) hr

/-! ### Accesses that fail outside -/

/-- `memcpy` into a buffer of `BUFFER_SIZE` bytes. -/
def memcpy? (buf : Buffer UInt8) (off : Nat) (data : Bytes) : Option (Buffer UInt8) :=
  if off + data.length ≤ bufferSize then some (memcpy buf off data) else none

/-- A bit of `chunk_received` is looked up. -/
def bit? (bits : Nat → Bool) (index : Nat) : Option Bool :=
  if index < maxChunksPerFrame then some (bits index) else none

/-- A bit of `chunk_received` is set. -/
def setBit? (bits : Nat → Bool) (index : Nat) : Option (Nat → Bool) :=
  if index < maxChunksPerFrame then some (Function.update bits index true) else none

/-- `memset(chunk_received, 0, MAX_CHUNKS_PER_FRAME)`. -/
def clearBits (bits : Nat → Bool) : Nat → Bool :=
  fun j ↦ if j < maxChunksPerFrame then false else bits j

namespace Reassembly

/-- The bounds check. The bitmap is looked up when everything else holds. -/
def accepts? (r : Reassembly) (d : Datagram) : Option Bool :=
  if r.inRange d then (bit? r.chunkReceived (d.offset / maxChunkPayload)).map (!·) else some false

/-- The copy of a chunk into the buffer. It fails without a buffer, and where the count wraps. -/
def copy? (r : Reassembly) (d : Datagram) : Option Reassembly := do
  let buf ← r.reassemblyBuffer
  let buf ← memcpy? buf d.offset d.payload
  let bits ← setBit? r.chunkReceived (d.offset / maxChunkPayload)
  if r.bytesReceived + d.payload.length < 2 ^ 32 then
    some { r with
      reassemblyBuffer := some buf
      chunkReceived := bits
      bytesReceived := r.bytesReceived + d.payload.length }
  else none

/-- A first chunk clears as many bits as there are. -/
def newFrame? (r : Reassembly) (totalSize : Nat) : Reassembly :=
  { r with
    chunkReceived := clearBits r.chunkReceived, expectedSize := totalSize, bytesReceived := 0 }

end Reassembly

/-- `Connection.store` with these accesses. -/
def Connection.store? (c : Connection) (d : Datagram) : Option (Connection × Option Bytes) :=
  (c.accepts? d).bind fun accepted ↦
    if accepted then
      (c.toReassembly.copy? d).map fun r ↦
        if r.full then
          let (r, frame) := r.finish c.localSocket
          ({ c with toReassembly := r, frameInProgress := false }, frame)
        else ({ c with toReassembly := r }, none)
    else some (c, none)

/-- `Connection.receive` with these accesses. -/
def Connection.receive? (c : Connection) (d : Datagram) (now : Int) :
    Option (Connection × Option Bytes) :=
  let c := { c with lastActivity := now, lastSeqNum := d.seqNum }
  if d.offset = 0 ∧ (d.totalSize = 0 ∨ bufferSize < d.totalSize) then some (c, none)
  else
    let c := if d.offset = 0 then
        { c.startFrame d with toReassembly := c.toReassembly.newFrame? d.totalSize }
      else c
    if !c.frameInProgress || c.expectedSize == 0 || c.reassemblyBuffer.isNone then some (c, none)
    else if c.currentFrameNumChunks ≤ c.seqOffset d then some (c, none)
    else c.store? d

/-- `onRecvCamera` with these accesses. -/
def onRecvCamera? (cam : CameraSession) (data : Bytes) (env : RecvEnv) :
    Option (CameraSession × Option (Int × Bytes)) :=
  if !cam.active then some (cam, none)
  else match Datagram.parse data with
    | none => some (cam, none)
    | some d =>
      if d.connId = 0 ∧ d.totalSize = 0 ∧ d.offset = 0 then
        some (if d.seqNum = 2 then { cam with lastPongAt := env.now, pongStrikes := 0 } else cam,
          none)
      else match cam.findConnectionById d.connId with
        | none => some (cam, none)
        | some i =>
          ((cam.connections i).receive? d env.now).map fun
            | (c, none) => (cam.setConnection i c, none)
            | (c, some frame) =>
              ((cam.setConnection i c).refillSpare d.connId env.spare,
                if 0 ≤ env.dup ∧ 0 < frame.length then some (env.dup, frame) else none)

/-- `ServiceConnection.store` with these accesses. -/
def ServiceConnection.store? (c : ServiceConnection) (d : Datagram) :
    Option (ServiceConnection × Option Bytes) :=
  (c.accepts? d).bind fun accepted ↦
    if accepted then
      (c.toReassembly.copy? d).map fun r ↦
        if r.full then
          let (r, frame) := r.finish c.localSocket
          ({ c with toReassembly := r }, frame)
        else ({ c with toReassembly := r }, none)
    else some (c, none)

/-- `ServiceConnection.receive` with these accesses. -/
def ServiceConnection.receive? (c : ServiceConnection) (d : Datagram) (now : Int) :
    Option (ServiceConnection × Option Bytes) :=
  let c := { c with lastActivity := now, lastSeqNum := d.seqNum }
  if d.offset = 0 ∧ (d.totalSize = 0 ∨ bufferSize < d.totalSize) then some (c, none)
  else
    let c := if d.offset = 0 then
        { c with toReassembly := c.toReassembly.newFrame? d.totalSize }
      else c
    if c.expectedSize == 0 || c.reassemblyBuffer.isNone then some (c, none)
    else c.store? d

/-- `onRecv` with these accesses. -/
def onRecv? (svc : Service) (data : Bytes) (env : ServiceEnv) : Option (Service × Reaction) :=
  match Datagram.parse data with
  | none => some (svc, .none)
  | some d =>
    if d.connId = 0 ∧ d.totalSize = 0 ∧ d.offset = 0 then
      some (svc, if d.seqNum = 1 ∧ svc.agent ∧ svc.connected then
        .pong (be32 0 ++ be32 2 ++ be32 0 ++ be32 0) else .none)
    else match svc.connection d env with
      | (svc, none) => some (svc, .none)
      | (svc, some i) =>
        ((svc.connections i).receive? d env.now).map fun
          | (c, none) => (svc.setConnection i c, .none)
          | (c, some frame) =>
            ((svc.setConnection i c).refillSpare d.connId env.spare,
              if 0 ≤ env.dup ∧ 0 < frame.length then .write env.dup frame else .none)

namespace Reassembly

theorem accepts?_eq (r : Reassembly) (d : Datagram) : r.accepts? d = some (r.accepts d) := by
  rw [accepts?, accepts_eq]
  cases hin : r.inRange d with
  | false => rfl
  | true =>
    have hindex := ((inRange_iff r d).mp hin).2.1
    rw [if_pos rfl, bit?, if_pos hindex]
    rfl

/-- A chunk that passed the check is copied inside the buffer and the bitmap. -/
theorem Bounded.copy?_eq {r : Reassembly} (h : r.Bounded) {d : Datagram}
    (hacc : r.accepts d = true) (hbuf : r.reassemblyBuffer.isSome) :
    r.copy? d = some (r.copy d) := by
  obtain ⟨buf, hbuf⟩ := Option.isSome_iff_exists.mp hbuf
  have hcount := h.count_add hacc
  rw [accepts_eq, Bool.and_eq_true, inRange_iff] at hacc
  obtain ⟨⟨-, hindex, -, -, hend⟩, -⟩ := hacc
  rw [copy?, copy, hbuf, Nat.mod_eq_of_lt hcount]
  dsimp only [Option.bind_eq_bind, Option.bind_some]
  rw [memcpy?, if_pos hend, Option.bind_some, setBit?, if_pos hindex, Option.bind_some,
    if_pos hcount]
  rfl

/-- A first chunk clears the whole bitmap. -/
theorem Bounded.newFrame?_eq {r : Reassembly} (h : r.Bounded) (totalSize : Nat) :
    r.newFrame? totalSize = r.newFrame totalSize := by
  have hclear : clearBits r.chunkReceived = fun _ ↦ false := by
    funext j
    rw [clearBits]
    split
    · rfl
    · next hj => exact h.bits j (Nat.not_lt.mp hj)
  rw [newFrame?, newFrame, hclear]

theorem Bounded.newFrame {r : Reassembly} {totalSize : Nat} (hsize : totalSize ≤ bufferSize) :
    (r.newFrame totalSize).Bounded :=
  ⟨hsize, Nat.zero_le _, fun _ _ ↦ rfl⟩

end Reassembly

theorem Connection.store?_eq {c : Connection} (h : c.Bounded) (hbuf : c.reassemblyBuffer.isSome)
    (d : Datagram) : c.store? d = some (c.store d) := by
  rw [Connection.store?, Connection.store, Reassembly.accepts?_eq, Option.bind_some]
  by_cases hacc : c.accepts d = true
  · rw [if_pos hacc, if_pos hacc, h.copy?_eq hacc hbuf]
    rfl
  · rw [if_neg hacc, if_neg hacc]

theorem ServiceConnection.store?_eq {c : ServiceConnection} (h : c.Bounded)
    (hbuf : c.reassemblyBuffer.isSome) (d : Datagram) : c.store? d = some (c.store d) := by
  rw [ServiceConnection.store?, ServiceConnection.store, Reassembly.accepts?_eq, Option.bind_some]
  by_cases hacc : c.accepts d = true
  · rw [if_pos hacc, if_pos hacc, h.copy?_eq hacc hbuf]
    rfl
  · rw [if_neg hacc, if_neg hacc]

/-- The guards of `on_recv_camera` leave a connection with a buffer to the bounds check. -/
private theorem Connection.guarded?_eq {c : Connection} (h : c.Bounded) (d : Datagram) :
    (if !c.frameInProgress || c.expectedSize == 0 || c.reassemblyBuffer.isNone then some (c, none)
      else if c.currentFrameNumChunks ≤ c.seqOffset d then some (c, none) else c.store? d) =
    some (if !c.frameInProgress || c.expectedSize == 0 || c.reassemblyBuffer.isNone then (c, none)
      else if c.currentFrameNumChunks ≤ c.seqOffset d then (c, none) else c.store d) := by
  split
  · rfl
  · next hguard =>
    split
    · rfl
    · apply Connection.store?_eq h
      cases hbuf : c.reassemblyBuffer with
      | none => simp [hbuf] at hguard
      | some buf => rfl

private theorem ServiceConnection.guarded?_eq {c : ServiceConnection} (h : c.Bounded)
    (d : Datagram) :
    (if c.expectedSize == 0 || c.reassemblyBuffer.isNone then some (c, none) else c.store? d) =
    some (if c.expectedSize == 0 || c.reassemblyBuffer.isNone then (c, none) else c.store d) := by
  split
  · rfl
  · next hguard =>
    apply ServiceConnection.store?_eq h
    cases hbuf : c.reassemblyBuffer with
    | none => simp [hbuf] at hguard
    | some buf => rfl

/-- No access of `on_recv_camera` to a bounded connection fails. -/
theorem Connection.receive?_eq {c : Connection} (h : c.Bounded) (d : Datagram) (now : Int) :
    c.receive? d now = some (c.receive d now) := by
  let c' : Connection := { c with lastActivity := now, lastSeqNum := d.seqNum }
  unfold Connection.receive? Connection.receive
  by_cases hbad : d.offset = 0 ∧ (d.totalSize = 0 ∨ bufferSize < d.totalSize)
  · simp only [if_pos hbad]
  · by_cases h0 : d.offset = 0
    · have hsize : d.totalSize ≤ bufferSize := by omega
      simp only [if_neg hbad, if_pos h0, h.newFrame?_eq]
      have hstarted : (c'.startFrame d).Bounded := Reassembly.Bounded.newFrame hsize
      exact Connection.guarded?_eq hstarted d
    · simp only [if_neg hbad, if_neg h0]
      have hsame : c'.Bounded := h
      exact Connection.guarded?_eq hsame d

/-- No access of `on_recv` to a bounded connection fails. -/
theorem ServiceConnection.receive?_eq {c : ServiceConnection} (h : c.Bounded) (d : Datagram)
    (now : Int) : c.receive? d now = some (c.receive d now) := by
  let c' : ServiceConnection := { c with lastActivity := now, lastSeqNum := d.seqNum }
  unfold ServiceConnection.receive? ServiceConnection.receive
  by_cases hbad : d.offset = 0 ∧ (d.totalSize = 0 ∨ bufferSize < d.totalSize)
  · simp only [if_pos hbad]
  · by_cases h0 : d.offset = 0
    · have hsize : d.totalSize ≤ bufferSize := by omega
      simp only [if_neg hbad, if_pos h0, h.newFrame?_eq]
      have hstarted : (c'.startFrame d).Bounded := Reassembly.Bounded.newFrame hsize
      exact ServiceConnection.guarded?_eq hstarted d
    · simp only [if_neg hbad, if_neg h0]
      have hsame : c'.Bounded := h
      exact ServiceConnection.guarded?_eq hsame d

/-- No access of `on_recv_camera` fails in a bounded session. -/
theorem onRecvCamera?_eq {cam : CameraSession} (h : cam.Slots fun _ ↦ Reassembly.Bounded)
    (data : Bytes) (env : RecvEnv) :
    onRecvCamera? cam data env = some (onRecvCamera cam data env) := by
  unfold onRecvCamera? onRecvCamera
  by_cases hidle : (!cam.active) = true
  · rw [if_pos hidle, if_pos hidle]
  rw [if_neg hidle, if_neg hidle]
  cases Datagram.parse data with
  | none => rfl
  | some d =>
    dsimp only
    by_cases hbeat : d.connId = 0 ∧ d.totalSize = 0 ∧ d.offset = 0
    · rw [if_pos hbeat, if_pos hbeat]
    rw [if_neg hbeat, if_neg hbeat]
    cases cam.findConnectionById d.connId with
    | none => rfl
    | some i =>
      dsimp only
      rw [Connection.receive?_eq (h i)]
      rcases (cam.connections i).receive d env.now with ⟨c, _ | frame⟩ <;> rfl

/-- No access of `on_recv` fails in a bounded service. -/
theorem onRecv?_eq {svc : Service} (h : svc.Slots fun _ ↦ Reassembly.Bounded) (data : Bytes)
    (env : ServiceEnv) : onRecv? svc data env = some (onRecv svc data env) := by
  unfold onRecv? onRecv
  cases Datagram.parse data with
  | none => rfl
  | some d =>
    dsimp only
    by_cases hbeat : d.connId = 0 ∧ d.totalSize = 0 ∧ d.offset = 0
    · rw [if_pos hbeat, if_pos hbeat]
    rw [if_neg hbeat, if_neg hbeat]
    have hslots := h.connection (fun _ ↦ kept_bounded) d env
    rcases hc : svc.connection d env with ⟨svc', _ | i⟩
    · rfl
    · rw [hc] at hslots
      dsimp only
      rw [ServiceConnection.receive?_eq (hslots i)]
      rcases (svc'.connections i).receive d env.now with ⟨c, _ | frame⟩ <;> rfl

/-! ### What stays as it is -/

/-- What a datagram may leave behind in the fields of a slot: the buffer there is the one before, or
the spare one in its place, with nothing written behind `BUFFER_SIZE`, and no bit behind the end of
the bitmap is another. -/
structure Reassembly.Framed (r r' : Reassembly) : Prop where
  buffer : ∀ buf', r'.reassemblyBuffer = some buf' →
    ∃ buf, (r.reassemblyBuffer = some buf ∨ r.spareBuffer = some buf) ∧
      ∀ x, bufferSize ≤ x → buf' x = buf x
  bits : ∀ j, maxChunksPerFrame ≤ j → r'.chunkReceived j = r.chunkReceived j

namespace Reassembly

theorem framed_refl (r : Reassembly) : r.Framed r :=
  ⟨fun buf hbuf ↦ ⟨buf, .inl hbuf, fun _ _ ↦ rfl⟩, fun _ _ ↦ rfl⟩

/-- A chunk that passed the check is written below `BUFFER_SIZE`. -/
theorem framed_copy {r : Reassembly} {d : Datagram} (ha : r.accepts d = true) :
    r.Framed (r.copy d) := by
  refine ⟨fun buf' hbuf' ↦ ?_, fun j hj ↦ copy_chunkReceived ha hj⟩
  obtain ⟨buf, hbuf, rfl⟩ := Option.map_eq_some_iff.mp hbuf'
  rw [accepts_eq, Bool.and_eq_true, inRange_iff] at ha
  exact ⟨buf, .inl hbuf, fun x hx ↦ memcpy_outside buf _ _ _ (by omega)⟩

/-- A finished frame leaves its buffer, or the spare one. -/
theorem finish_buffers {r : Reassembly} {sock : Int} {buf : Buffer UInt8}
    (h : (r.finish sock).1.reassemblyBuffer = some buf) :
    r.reassemblyBuffer = some buf ∨ r.spareBuffer = some buf := by
  unfold Reassembly.finish at h
  split at h
  · next hspare =>
    split at h
    · exact .inr (hspare.trans h)
    · exact .inl h
  · exact .inl h

/-- What is done with a chunk, the bitmap apart, which a first one clears. -/
theorem framed_stored {r : Reassembly} {d : Datagram} {taken : Bool}
    (ha : taken = true → r.accepts d = true) (sock : Int) :
    r.Framed (r.stored d taken sock).1 := by
  unfold Reassembly.stored
  cases taken with
  | false => exact framed_refl r
  | true =>
    have hcopy := framed_copy (ha rfl)
    rw [if_pos rfl]
    split
    · refine ⟨fun buf' hbuf' ↦ ?_, fun j hj ↦ ?_⟩
      · rcases finish_buffers hbuf' with hbuf' | hspare
        · exact hcopy.buffer buf' hbuf'
        · exact ⟨buf', .inr hspare, fun _ _ ↦ rfl⟩
      · rw [finish_chunkReceived]
        exact hcopy.bits j hj
    · exact hcopy

theorem Bounded.framed_opened {r : Reassembly} (h : r.Bounded) (d : Datagram) :
    r.Framed (r.opened d) := by
  unfold Reassembly.opened
  split
  · exact ⟨fun buf hbuf ↦ ⟨buf, .inl hbuf, fun _ _ ↦ rfl⟩, fun j hj ↦ (h.bits j hj).symm⟩
  · exact framed_refl r

/-- Clearing the bitmap first leaves the buffers alone. -/
theorem Bounded.framed_receive {r : Reassembly} (h : r.Bounded) {d : Datagram} {taken : Bool}
    (ha : taken = true → (r.opened d).accepts d = true) (sock : Int) :
    r.Framed ((r.opened d).stored d taken sock).1 := by
  have hopened := h.framed_opened d
  have hstored := framed_stored ha sock
  have hspare : (r.opened d).spareBuffer = r.spareBuffer := by
    unfold Reassembly.opened
    split <;> rfl
  refine ⟨fun buf' hbuf' ↦ ?_, fun j hj ↦ (hstored.bits j hj).trans (hopened.bits j hj)⟩
  obtain ⟨buf, hbuf | hbuf, hsame⟩ := hstored.buffer buf' hbuf'
  · obtain ⟨buf₀, hbuf₀, hsame₀⟩ := hopened.buffer buf hbuf
    exact ⟨buf₀, hbuf₀, fun x hx ↦ (hsame x hx).trans (hsame₀ x hx)⟩
  · exact ⟨buf, .inr (hspare ▸ hbuf), hsame⟩

end Reassembly

/-- A datagram for any connection of a session leaves its mark on the slots inside their arrays. -/
theorem framed_onRecvCamera {cam : CameraSession} (h : cam.Slots fun _ ↦ Reassembly.Bounded)
    (data : Bytes) (env : RecvEnv) (j : Nat) :
    (cam.connections j).Framed
      ((onRecvCamera cam data env).1.connections j).toReassembly := by
  cases hread : cam.reader data with
  | none =>
    rw [onRecvCamera_reader_none env hread]
    exact Reassembly.framed_refl _
  | some e =>
    obtain ⟨i, d⟩ := e
    obtain ⟨s, hslot⟩ := onRecvCamera_reader env hread j
    have hframed : (cam.connections j).Framed ((cam.setConnection i
        ((cam.connections i).receive d env.now).1).connections j).toReassembly := by
      by_cases hj : j = i
      · subst hj
        have hr := congrArg Prod.fst ((cam.connections j).receive_reassembly d env.now)
        have hstored := (h j).framed_receive (d := d)
          (fun ht ↦ (Connection.taking ht).accepts) (cam.connections j).localSocket
        rw [← hr] at hstored
        simpa [CameraSession.setConnection] using hstored
      · simp only [CameraSession.setConnection, Function.update_of_ne hj]
        exact Reassembly.framed_refl _
    rw [hslot]
    exact ⟨hframed.buffer, hframed.bits⟩

/-- A datagram for any connection of a service does, from when its slot is looked at. -/
theorem framed_onRecv {svc : Service} (h : svc.Slots fun _ ↦ Reassembly.Bounded) (data : Bytes)
    (env : ServiceEnv) (j : Nat) :
    ((svc.reader data env).1.connections j).Framed
      ((onRecv svc data env).1.connections j).toReassembly := by
  have hreader := h.reader (fun _ ↦ kept_bounded) data env
  cases hread : svc.reader data env with
  | mk svc' slot =>
    rw [hread] at hreader
    cases slot with
    | none =>
      rw [onRecv_reader_none hread]
      exact Reassembly.framed_refl _
    | some e =>
      obtain ⟨i, d⟩ := e
      obtain ⟨s, hslot⟩ := onRecv_reader hread j
      have hframed : (svc'.connections j).Framed ((svc'.setConnection i
          ((svc'.connections i).receive d env.now).1).connections j).toReassembly := by
        by_cases hj : j = i
        · subst hj
          have hr := congrArg Prod.fst ((svc'.connections j).receive_reassembly d env.now)
          have hstored := (hreader j).framed_receive (d := d)
            (fun ht ↦ (ServiceConnection.taking ht).accepts) (svc'.connections j).localSocket
          rw [← hr] at hstored
          simpa [Service.setConnection] using hstored
        · simp only [Service.setConnection, Function.update_of_ne hj]
          exact Reassembly.framed_refl _
      rw [hslot]
      exact ⟨hframed.buffer, hframed.bits⟩

/-! ### The header -/

theorem readBe32_lt (data : Bytes) (off : Nat) : readBe32 data off < 2 ^ 32 := by
  have h (k : Nat) : (data.getD k 0).toNat < 256 := UInt8.toNat_lt _
  have h0 := h off
  have h1 := h (off + 1)
  have h2 := h (off + 2)
  have h3 := h (off + 3)
  unfold readBe32
  omega

/-- The end of a chunk is computed exactly in 64 bits, for any datagram that fits the memory. -/
theorem Datagram.end64 {data : Bytes} {d : Datagram} (hd : Datagram.parse data = some d)
    (hlen : data.length < 2 ^ 63) :
    (d.offset + d.payload.length) % 2 ^ 64 = d.offset + d.payload.length := by
  unfold Datagram.parse at hd
  split at hd
  · cases hd
  · cases hd
    have h := readBe32_lt data 12
    dsimp only
    rw [List.length_drop]
    omega

/-! ### The chunks of the other side -/

/-- A chunk lies before what the thread will send next. -/
def Chunk.Before (k : Chunk) (f : Forwarder) : Prop :=
  k.frame < f.frames.length ∧ (k.frame + 1 = f.frames.length → k.index < numChunks f.offset)

/-- A later chunk of a frame has a larger index. -/
structure Sender.Ascending (s : Sender) : Prop where
  before : ∀ e ∈ s.sent, e.1.Before (s.forwarders e.1.conn)
  pairwise : s.sent.Pairwise fun e e' ↦
    e.1.conn = e'.1.conn → e.1.frame = e'.1.frame → e.1.index < e'.1.index

theorem Sender.ascending_start : Sender.start.Ascending := ⟨by simp [start], by simp [start]⟩

private theorem numChunks_mono {m n : Nat} (h : m ≤ n) : numChunks m ≤ numChunks n :=
  Nat.div_le_div_right (by omega)

/-- A send moves the offset behind the chunk, whether or not the rest of the frame is given up. -/
private theorem numChunks_lt_next {c g seq : Nat} {f : Forwarder} (h : f.Ok c g)
    (hs : f.seq = some seq) (skip : Prop) [Decidable skip] :
    numChunks f.offset < numChunks (if skip then f.buffer.length
      else f.offset + min (f.buffer.length - f.offset) maxChunkPayload) := by
  obtain ⟨-, hlt⟩ := h.drawn seq hs
  have hadv := numChunks_advance hlt (h.aligned hlt)
  split
  · have hle : f.offset + min (f.buffer.length - f.offset) maxChunkPayload ≤ f.buffer.length := by
      omega
    have := numChunks_mono hle
    omega
  · omega

/-- A thread that goes on leaves its chunks behind. -/
private theorem before_update {s : Sender} (hs : s.Ascending) {c : Nat} {f : Forwarder}
    (hf : ∀ k : Chunk, k.Before (s.forwarders c) → k.Before f) {e : Chunk × Bytes}
    (he : e ∈ s.sent) : e.1.Before (Function.update s.forwarders c f e.1.conn) := by
  have hb := hs.before e he
  by_cases hc : e.1.conn = c
  · rw [hc] at hb ⊢
    rw [Function.update_self]
    exact hf _ hb
  · rwa [Function.update_of_ne hc]

theorem Sender.Ascending.step {breaks : Bool} {s t : Sender} {l : SendLabel} (hi : s.Inv)
    (hs : s.Ascending) (h : s.step breaks l = some t) : t.Ascending := by
  cases l with
  | read c data =>
    obtain ⟨-, rfl⟩ := step_read h
    refine ⟨fun e he ↦ before_update hs ?_ he, hs.pairwise⟩
    intro k hk
    have hlt : k.frame < (s.forwarders c).frames.length := hk.1
    constructor
    · simp only [List.length_append, List.length_singleton]
      omega
    · simp only [List.length_append, List.length_singleton]
      omega
  | draw c =>
    obtain ⟨-, rfl⟩ := step_draw h
    have hold : ∀ k : Chunk, k.Before (s.forwarders c) →
        k.Before { s.forwarders c with seq := some s.globalSeqNum } := fun _ hk ↦ hk
    exact ⟨fun e he ↦ before_update hs hold he, hs.pairwise⟩
  | send c ok =>
    obtain ⟨seq, hseq, rfl⟩ := step_send h
    have hf := hi.ok c
    have hlt := (hf.drawn seq hseq).2
    have hnext := numChunks_lt_next hf hseq (ok = false ∧ breaks)
    have hdiv : (s.forwarders c).offset / maxChunkPayload = numChunks (s.forwarders c).offset := by
      rw [hf.aligned hlt, Nat.mul_div_cancel _ maxChunkPayload_pos, ← hf.aligned hlt]
    have hframes : 0 < (s.forwarders c).frames.length :=
      List.length_pos_of_mem (Forwarder.buffer_mem hlt).1
    have hold : ∀ k : Chunk, k.Before (s.forwarders c) → k.Before { s.forwarders c with
        offset := if ok = false ∧ breaks then (s.forwarders c).buffer.length
          else (s.forwarders c).offset +
            min ((s.forwarders c).buffer.length - (s.forwarders c).offset) maxChunkPayload
        seq := none } :=
      fun _ hk ↦ ⟨hk.1, fun heq ↦ (hk.2 heq).trans hnext⟩
    cases ok with
    | false => exact ⟨fun e he ↦ before_update hs hold he, hs.pairwise⟩
    | true =>
      constructor
      · intro e he
        rcases List.mem_append.mp he with he | he
        · exact before_update hs hold he
        · rw [List.mem_singleton.mp he]
          simp only [Function.update_self]
          refine ⟨Nat.sub_lt hframes Nat.one_pos, fun _ ↦ ?_⟩
          rw [hdiv]
          exact hnext
      · refine List.pairwise_append.mpr ⟨hs.pairwise, List.pairwise_singleton _ _, ?_⟩
        intro e he e' he' hconn hframe
        rw [List.mem_singleton.mp he'] at hconn hframe ⊢
        have hb := (hs.before e he).2
        simp only at hconn hframe ⊢
        rw [hconn] at hb
        rw [hdiv]
        exact hb (by omega)

/-- A datagram of the other side: it carries a piece of a frame its thread has read, the first one
starts that frame, and each passes the check of a receiver that expects the frame and lacks the
piece. -/
structure Passes (s : Sender) (e : Chunk × Bytes) (F : Bytes) (d : Datagram) : Prop where
  frame : (s.forwarders e.1.conn).frames[e.1.frame]? = some F
  length : headerSize ≤ e.2.length ∧ e.2.length ≤ maxUdpPayload
  parsed : Datagram.parse e.2 = some d
  index : d.offset / maxChunkPayload = e.1.index
  begins : d.offset = 0 → d.begins = true ∧ d.totalSize = F.length
  accepted : ∀ r : Reassembly, r.expectedSize = F.length →
    r.chunkReceived (d.offset / maxChunkPayload) = false → r.accepts d = true

private theorem length_packet_piece (conn seq : Nat) (F : Bytes) (index : Nat) :
    headerSize ≤ (packet conn seq F index).length ∧
      (packet conn seq F index).length ≤ maxUdpPayload := by
  have h : maxUdpPayload = headerSize + maxChunkPayload := by decide
  simp only [packet, List.length_append, length_be32, List.length_take, List.length_drop, h,
    headerSize]
  omega

theorem Sender.Inv.passes {s : Sender} (hi : s.Inv) {e : Chunk × Bytes} (he : e ∈ s.sent) :
    ∃ F d, Passes s e F d := by
  obtain ⟨F, hF, hconn, hle, hindex, hpacket⟩ := hi.sent e he
  obtain ⟨-, hpos, -⟩ := (hi.ok e.1.conn).sized F (List.mem_of_getElem? hF)
  refine ⟨F, chunkDatagram e.1.conn e.1.seq F e.1.index, hF, ?_, ?_, ?_, ?_, ?_⟩
  · rw [hpacket]
    exact length_packet_piece _ _ _ _
  · rw [hpacket]
    exact parse_chunk hconn hle hindex
  · exact chunkDatagram_index _ _ _ _
  · intro hoff
    exact ⟨(Datagram.begins_iff _).mpr ⟨hoff, by simp only [chunkDatagram]; omega, hle⟩, rfl⟩
  · intro r hr hmissing
    rw [accepts_chunk _ _ hle hindex hr]
    rw [chunkDatagram_index] at hmissing
    rw [hmissing]
    rfl

/-! ### The bounds -/

private theorem Reassembly.Bounded.bytesReceived_lt {r : Reassembly} (h : r.Bounded) :
    r.bytesReceived < 2 ^ 32 := by
  have h1 := h.size
  have h2 := h.count
  have h3 := bufferSize_lt
  omega

/-- Whatever datagrams arrive, no access of either program to the buffer and the bitmap of a
connection fails, nothing changes outside them, and the end of a chunk and the count of the bytes
are exact; and what either of them sends for a frame passes the other's checks, each chunk under a
bit of its own. -/
theorem reassembly_bounds {events : List SessionEvent} {cam : CameraSession}
    (hcam : run CameraSession.step .start events = some cam) {calls : List ServiceEvent}
    {svc : Service} (hsvc : run Service.step .start calls = some svc) {breaks : Bool}
    {labels : List SendLabel} {s : Sender} (hs : run (Sender.step breaks) .start labels = some s) :
    (∀ data env, onRecvCamera? cam data env = some (onRecvCamera cam data env)) ∧
    (∀ data env, onRecv? svc data env = some (onRecv svc data env)) ∧
    (∀ data env i, (cam.connections i).Framed
      ((onRecvCamera cam data env).1.connections i).toReassembly) ∧
    (∀ data env i, ((svc.reader data env).1.connections i).Framed
      ((onRecv svc data env).1.connections i).toReassembly) ∧
    (∀ data d, Datagram.parse data = some d → data.length < 2 ^ 63 →
      (d.offset + d.payload.length) % 2 ^ 64 = d.offset + d.payload.length) ∧
    (∀ i, (cam.connections i).bytesReceived < 2 ^ 32 ∧
      (svc.connections i).bytesReceived < 2 ^ 32) ∧
    (∀ e ∈ s.sent, ∃ F d, Passes s e F d) ∧
    ∀ (p q : Nat) (e e' : Chunk × Bytes) (d d' : Datagram), s.sent[p]? = some e →
      s.sent[q]? = some e' → p ≠ q → e.1.conn = e'.1.conn → e.1.frame = e'.1.frame →
      Datagram.parse e.2 = some d → Datagram.parse e'.2 = some d' →
      d.offset / maxChunkPayload ≠ d'.offset / maxChunkPayload := by
  have hcamb := CameraSession.bounded_run hcam
  have hsvcb := Service.bounded_run hsvc
  have hkeep : ∀ s l t, s.Inv ∧ s.Ascending → Sender.step breaks s l = some t →
      t.Inv ∧ t.Ascending :=
    fun _ _ _ h hstep ↦ ⟨h.1.step hstep, h.2.step h.1 hstep⟩
  obtain ⟨hi, hasc⟩ := invariant_of_run (Sender.step breaks) hkeep
    ⟨Sender.inv_start, Sender.ascending_start⟩ hs
  refine ⟨onRecvCamera?_eq hcamb, onRecv?_eq hsvcb, framed_onRecvCamera hcamb,
    framed_onRecv hsvcb, fun _ _ hd hlen ↦ Datagram.end64 hd hlen,
    fun i ↦ ⟨(hcamb i).bytesReceived_lt, (hsvcb i).bytesReceived_lt⟩,
    fun e he ↦ hi.passes he, ?_⟩
  intro p q e e' d d' hp hq hpq hconn hframe hd hd'
  obtain ⟨F, k, hk⟩ := hi.passes (List.mem_of_getElem? hp)
  obtain ⟨F', k', hk'⟩ := hi.passes (List.mem_of_getElem? hq)
  rw [hk.parsed] at hd
  rw [hk'.parsed] at hd'
  cases hd
  cases hd'
  rw [hk.index, hk'.index]
  obtain ⟨hpl, hpe⟩ := List.getElem?_eq_some_iff.mp hp
  obtain ⟨hql, hqe⟩ := List.getElem?_eq_some_iff.mp hq
  have hpair := List.pairwise_iff_getElem.mp hasc.pairwise
  rcases Nat.lt_or_gt_of_ne hpq with hlt | hgt
  · have := hpair p q hpl hql hlt
    rw [hpe, hqe] at this
    exact (this hconn hframe).ne
  · have := hpair q p hql hpl hgt
    rw [hpe, hqe] at this
    exact (this hconn.symm hframe.symm).ne'

/-- A client, and a chunk of a frame for it. -/
def oneClient : List SessionEvent :=
  [.accept 5 (some (fun _ ↦ 0, fun _ ↦ 0)) 0, .recv (packet 1 0 [7, 7] 0) ⟨0, 6, none⟩]

/-- A datagram that opens a connection. -/
def oneCall : List ServiceEvent := [.recv (packet 1 0 [7, 7] 0) serviceEnv]

/-- A read of two bytes and the chunk it makes. -/
def oneChunk : List SendLabel := [.read 1 [7, 7], .draw 1, .send 1 true]

theorem reassembly_bounds_oneChunk : ∃ cam svc s,
    run CameraSession.step .start oneClient = some cam ∧
    run Service.step .start oneCall = some svc ∧
    run (Sender.step true) .start oneChunk = some s ∧ s.sent.length = 1 ∧
    (cam.reader (packet 1 1 [7, 7] 0)).isSome = true ∧
    (∀ data env, onRecvCamera? cam data env = some (onRecvCamera cam data env)) ∧
    (∀ data env, onRecv? svc data env = some (onRecv svc data env)) ∧
    ∀ e ∈ s.sent, ∃ F d, Passes s e F d := by
  have hs : ∃ s, run (Sender.step true) .start oneChunk = some s ∧ s.sent.length = 1 :=
    exists_run _ _ (by decide +kernel)
  have hcam : ∃ cam, run CameraSession.step .start oneClient = some cam ∧
      (cam.reader (packet 1 1 [7, 7] 0)).isSome = true :=
    exists_run _ _ (by decide +kernel)
  obtain ⟨s, hs, hlen⟩ := hs
  obtain ⟨cam, hcam, hread⟩ := hcam
  have hsvc : ∃ svc, run Service.step .start oneCall = some svc := ⟨_, rfl⟩
  obtain ⟨svc, hsvc⟩ := hsvc
  obtain ⟨hchecked, hchecked', -, -, -, -, hpasses, -⟩ := reassembly_bounds hcam hsvc hs
  exact ⟨cam, svc, s, hcam, hsvc, hs, hlen, hread, hchecked, hchecked', hpasses⟩

end Kitty.P2p
