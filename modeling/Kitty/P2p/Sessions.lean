import Kitty.P2p.Consumer
import Kitty.P2p.Uplink

/-!
# Sessions under arbitrary datagrams

What can happen to the connections of a consumer's session and of a provider's service, with any
datagram the peer may send: `src/consumer-srt-cloud/_legacy_libjuice_consumer_api.c:508–629`,
`:954–1098`, `:1383–1436`, `:1611–1633` and
`src/provider-srt/_legacy_libjuice_provider_configurable.c:577–625,729–919,1045–1160`. Both
callbacks do the same to the reassembly fields once a chunk was taken or not.
-/

namespace Kitty.P2p

open Kitty.Base

/-! ### Runs -/

/-- What happens to a session: a datagram of any content; a client; the end of a client; the
cleanup of the keepalive thread; the locked part of `reconnect_camera_ice`; the session being freed
and its slot being taken again. -/
inductive SessionEvent where
  | recv (data : Bytes) (env : RecvEnv)
  | accept (localSocket : Int) (buffers : Option (Buffer UInt8 × Buffer UInt8)) (now : Int)
  | close (i : Nat)
  | cleanup (now : Int)
  | reconnect
  | free
  | allocate

/-- What happens to a service; `reset` is `handle_consumer_connect` closing the connections of the
session before. -/
inductive ServiceEvent where
  | recv (data : Bytes) (env : ServiceEnv)
  | close (i : Nat)
  | cleanup (now : Int)
  | reset

/-- A reconnect closes the sockets of a session and leaves the buffers where they are. -/
def Connection.disconnect (c : Connection) : Connection :=
  { c with localSocket := if 0 ≤ c.localSocket then -1 else c.localSocket, active := false }

namespace CameraSession

/-- One change to all the connections in use. -/
def mapActive (cam : CameraSession) (f : Connection → Connection) : CameraSession :=
  { cam with connections := fun i ↦
      if i < maxConnections ∧ (cam.connections i).active then f (cam.connections i)
      else cam.connections i }

/-- One event of a session. -/
def step (cam : CameraSession) : SessionEvent → Option CameraSession
  | .recv data env => some (onRecvCamera cam data env).1
  | .accept localSocket buffers now => some (cam.createConnection localSocket buffers now)
  | .close i => some (cam.closeConnection i)
  | .cleanup now => some (cam.cleanupStaleConnections now)
  | .reconnect => some (cam.mapActive Connection.disconnect)
  | .free => some { cam.mapActive Connection.close with active := false }
  | .allocate => if cam.active then none else some .start

end CameraSession

namespace Service

/-- The connections of the session before are closed. -/
def reset (svc : Service) : Service :=
  { svc with connections := fun i ↦
      if i < maxConnections ∧ (svc.connections i).active then (svc.connections i).close
      else svc.connections i }

/-- One event of a service. -/
def step (svc : Service) : ServiceEvent → Option Service
  | .recv data env => some (onRecv svc data env).1
  | .close i => some (svc.closeConnection i)
  | .cleanup now => some (svc.cleanup now)
  | .reset => some svc.reset

end Service

/-! ### What a datagram does to the reassembly fields -/

/-- The first chunk of a frame that fits the buffer. -/
def Datagram.begins (d : Datagram) : Bool :=
  d.offset == 0 && d.totalSize != 0 && d.totalSize ≤ bufferSize

/-- The reassembly fields when the bounds of a chunk are checked. -/
def Reassembly.opened (r : Reassembly) (d : Datagram) : Reassembly :=
  if d.begins then r.newFrame d.totalSize else r

/-- The reassembly fields and the frame handed over after the checks, which take the chunk or do
not. -/
def Reassembly.stored (r : Reassembly) (d : Datagram) (taken : Bool) (localSocket : Int) :
    Reassembly × Option Bytes :=
  if taken then
    if (r.copy d).full then (r.copy d).finish localSocket else (r.copy d, none)
  else (r, none)

/-- Whether `on_recv_camera` comes to the bounds check of a chunk. -/
def Connection.reaches (c : Connection) (d : Datagram) : Bool :=
  let c := if d.begins then c.startFrame d else c
  (d.offset != 0 || d.begins) && c.frameInProgress && c.expectedSize != 0 &&
    c.reassemblyBuffer.isSome && c.seqOffset d < c.currentFrameNumChunks

/-- Whether `on_recv` comes to the bounds check of a chunk. -/
def ServiceConnection.reaches (c : ServiceConnection) (d : Datagram) : Bool :=
  let c := if d.begins then c.startFrame d else c
  (d.offset != 0 || d.begins) && c.expectedSize != 0 && c.reassemblyBuffer.isSome

/-- Whether the consumer copies a chunk. -/
def Connection.takes (c : Connection) (d : Datagram) : Bool :=
  c.reaches d && (c.toReassembly.opened d).accepts d

/-- Whether the provider copies a chunk. -/
def ServiceConnection.takes (c : ServiceConnection) (d : Datagram) : Bool :=
  c.reaches d && (c.toReassembly.opened d).accepts d

theorem Datagram.begins_iff (d : Datagram) :
    d.begins = true ↔ d.offset = 0 ∧ d.totalSize ≠ 0 ∧ d.totalSize ≤ bufferSize := by
  simp [begins, and_assoc]

/-- A datagram at offset zero starts a frame or is turned away. -/
private theorem begins_eq_not (d : Datagram) (h0 : d.offset = 0) :
    d.begins = !decide (d.totalSize = 0 ∨ bufferSize < d.totalSize) := by
  have hlt : (bufferSize < d.totalSize) ↔ ¬ d.totalSize ≤ bufferSize := Nat.not_le.symm
  by_cases hz : d.totalSize = 0
  · simp [Datagram.begins, h0, hz]
  · by_cases hle : d.totalSize ≤ bufferSize
    · simp [Datagram.begins, h0, hz, hle, hlt]
    · simp [Datagram.begins, h0, hle, hlt]

/-- The guards and the bounds check of `on_recv_camera`, as one condition. -/
private theorem Connection.guarded (c : Connection) (d : Datagram) :
    ((if !c.frameInProgress || c.expectedSize == 0 || c.reassemblyBuffer.isNone then (c, none)
        else if c.currentFrameNumChunks ≤ c.seqOffset d then (c, none) else c.store d)
      : Connection × Option Bytes).map Connection.toReassembly id =
    c.toReassembly.stored d (c.frameInProgress && c.expectedSize != 0 &&
      c.reassemblyBuffer.isSome && c.seqOffset d < c.currentFrameNumChunks && c.accepts d)
      c.localSocket := by
  by_cases hseq : c.currentFrameNumChunks ≤ c.seqOffset d
  · simp [hseq, Reassembly.stored]
  · by_cases ha : c.accepts d
    · have hlt := Nat.not_le.mp hseq
      cases hp : c.frameInProgress
      · simp [Reassembly.stored]
      · by_cases he : c.expectedSize = 0
        · simp [he, Reassembly.stored]
        · cases hb : c.reassemblyBuffer
          · simp [Reassembly.stored]
          · simp only [hseq, ha, hlt, Connection.store, Reassembly.stored]
            by_cases hfull : (c.toReassembly.copy d).full <;> simp [hfull, he]
    · simp [hseq, ha, Connection.store, Reassembly.stored]

/-- The guards and the bounds check of `on_recv`, as one condition. -/
private theorem ServiceConnection.guarded (c : ServiceConnection) (d : Datagram) :
    ((if c.expectedSize == 0 || c.reassemblyBuffer.isNone then (c, none) else c.store d)
      : ServiceConnection × Option Bytes).map ServiceConnection.toReassembly id =
    c.toReassembly.stored d (c.expectedSize != 0 && c.reassemblyBuffer.isSome && c.accepts d)
      c.localSocket := by
  by_cases ha : c.accepts d
  · by_cases he : c.expectedSize = 0
    · simp [he, Reassembly.stored]
    · cases hb : c.reassemblyBuffer
      · simp [Reassembly.stored]
      · simp only [ha, ServiceConnection.store, Reassembly.stored]
        by_cases hfull : (c.toReassembly.copy d).full <;> simp [hfull, he]
  · simp [ha, ServiceConnection.store, Reassembly.stored]

/-- `on_recv_camera` on the reassembly fields. -/
theorem Connection.receive_reassembly (c : Connection) (d : Datagram) (now : Int) :
    (c.receive d now).map Connection.toReassembly id =
      (c.toReassembly.opened d).stored d (c.takes d) c.localSocket := by
  let c' : Connection := { c with lastActivity := now, lastSeqNum := d.seqNum }
  unfold Connection.receive
  by_cases h0 : d.offset = 0
  · have hb := begins_eq_not d h0
    by_cases hbad : d.totalSize = 0 ∨ bufferSize < d.totalSize
    · simp [h0, hbad, hb, Connection.takes, Connection.reaches, Reassembly.stored,
        Reassembly.opened]
    · simp only [h0, hbad, and_false, if_false, if_true]
      refine (Connection.guarded (c'.startFrame d) d).trans ?_
      simp only [hbad, hb, Connection.takes, Connection.reaches, Reassembly.opened,
        decide_false, Bool.not_false, Bool.or_true, Bool.true_and, if_true]
      rfl
  · have hb : d.begins = false := by simp [Datagram.begins, h0]
    have hne : (d.offset != 0) = true := by simp [h0]
    simp only [h0, false_and, if_false]
    refine (Connection.guarded c' d).trans ?_
    simp only [hb, hne, Connection.takes, Connection.reaches, Reassembly.opened,
      Bool.true_or, Bool.true_and, if_false, Bool.false_eq_true]
    rfl

/-- `on_recv` on the reassembly fields. -/
theorem ServiceConnection.receive_reassembly (c : ServiceConnection) (d : Datagram) (now : Int) :
    (c.receive d now).map ServiceConnection.toReassembly id =
      (c.toReassembly.opened d).stored d (c.takes d) c.localSocket := by
  let c' : ServiceConnection := { c with lastActivity := now, lastSeqNum := d.seqNum }
  unfold ServiceConnection.receive
  by_cases h0 : d.offset = 0
  · have hb := begins_eq_not d h0
    by_cases hbad : d.totalSize = 0 ∨ bufferSize < d.totalSize
    · simp [h0, hbad, hb, ServiceConnection.takes, ServiceConnection.reaches, Reassembly.stored,
        Reassembly.opened]
    · simp only [h0, hbad, and_false, if_false, if_true]
      refine (ServiceConnection.guarded (c'.startFrame d) d).trans ?_
      simp only [hbad, hb, ServiceConnection.takes, ServiceConnection.reaches, Reassembly.opened,
        decide_false, Bool.not_false, Bool.or_true, Bool.true_and, if_true]
      rfl
  · have hb : d.begins = false := by simp [Datagram.begins, h0]
    have hne : (d.offset != 0) = true := by simp [h0]
    simp only [h0, false_and, if_false]
    refine (ServiceConnection.guarded c' d).trans ?_
    simp only [hb, hne, ServiceConnection.takes, ServiceConnection.reaches, Reassembly.opened,
      Bool.true_or, Bool.true_and, if_false, Bool.false_eq_true]
    rfl

/-- What is known of the fields when a chunk is copied. -/
structure Reassembly.Taking (r : Reassembly) (d : Datagram) : Prop where
  expected : (r.opened d).expectedSize ≠ 0
  buffer : ∃ buf, (r.opened d).reassemblyBuffer = some buf
  accepts : (r.opened d).accepts d = true

theorem Connection.taking {c : Connection} {d : Datagram} (h : c.takes d = true) :
    c.toReassembly.Taking d := by
  have ho : (if d.begins then c.startFrame d else c).toReassembly = c.toReassembly.opened d := by
    unfold Reassembly.opened
    split <;> rfl
  simp only [Connection.takes, Connection.reaches, ho, Bool.and_eq_true, bne_iff_ne, ne_eq,
    Option.isSome_iff_exists] at h
  obtain ⟨⟨⟨⟨-, hexp⟩, hbuf⟩, -⟩, hacc⟩ := h
  exact ⟨hexp, hbuf, hacc⟩

theorem ServiceConnection.taking {c : ServiceConnection} {d : Datagram} (h : c.takes d = true) :
    c.toReassembly.Taking d := by
  have ho : (if d.begins then c.startFrame d else c).toReassembly = c.toReassembly.opened d := by
    unfold Reassembly.opened
    split <;> rfl
  simp only [ServiceConnection.takes, ServiceConnection.reaches, ho, Bool.and_eq_true, bne_iff_ne,
    ne_eq, Option.isSome_iff_exists] at h
  obtain ⟨⟨⟨-, hexp⟩, hbuf⟩, hacc⟩ := h
  exact ⟨hexp, hbuf, hacc⟩

/-! ### What the other events do to it -/

/-- A property of the reassembly fields that everything but a datagram keeps: it holds of those of a
new connection, and giving a frame up, closing a connection or attaching a spare buffer does not
end it. -/
structure Kept (Q : Reassembly → Prop) : Prop where
  fresh : ∀ r, r.expectedSize = 0 → r.bytesReceived = 0 → (∀ j, r.chunkReceived j = false) → Q r
  givenUp : ∀ r, Q r → Q { r with expectedSize := 0, bytesReceived := 0 }
  closed : ∀ r, Q r → Q { r with reassemblyBuffer := none, spareBuffer := none }
  spare : ∀ r spare, Q r → Q { r with spareBuffer := spare }

/-- The slot of a session whose connection a datagram is for, with the datagram. -/
def CameraSession.reader (cam : CameraSession) (data : Bytes) : Option (Nat × Datagram) :=
  if !cam.active then none
  else match Datagram.parse data with
    | none => none
    | some d =>
      if d.connId = 0 ∧ d.totalSize = 0 ∧ d.offset = 0 then none
      else (cam.findConnectionById d.connId).map (·, d)

/-- The service when the slot of a datagram is looked at, and that slot with the datagram. -/
def Service.reader (svc : Service) (data : Bytes) (env : ServiceEnv) :
    Service × Option (Nat × Datagram) :=
  match Datagram.parse data with
  | none => (svc, none)
  | some d =>
    if d.connId = 0 ∧ d.totalSize = 0 ∧ d.offset = 0 then (svc, none)
    else ((svc.connection d env).1, (svc.connection d env).2.map (·, d))

private theorem withSpare_self (r : Reassembly) : ∃ spare, r = { r with spareBuffer := spare } :=
  ⟨r.spareBuffer, rfl⟩

theorem CameraSession.refillSpare_slot (cam : CameraSession) (connId : Nat)
    (spare : Option (Buffer UInt8)) (j : Nat) :
    ∃ s, ((cam.refillSpare connId spare).connections j).toReassembly =
      { (cam.connections j).toReassembly with spareBuffer := s } := by
  unfold CameraSession.refillSpare
  split
  · next sp i _ =>
    by_cases hj : j = i
    · subst hj
      simp only [CameraSession.setConnection, Function.update_self, Connection.attachSpare]
      split
      · exact ⟨some sp, rfl⟩
      · exact withSpare_self _
    · simp only [CameraSession.setConnection, Function.update_of_ne hj]
      exact withSpare_self _
  · exact withSpare_self _

theorem Service.refillSpare_slot (svc : Service) (connId : Nat) (spare : Option (Buffer UInt8))
    (j : Nat) : ∃ s, ((svc.refillSpare connId spare).connections j).toReassembly =
      { (svc.connections j).toReassembly with spareBuffer := s } := by
  unfold Service.refillSpare
  split
  · next sp i _ =>
    by_cases hj : j = i
    · subst hj
      simp only [Service.setConnection, Function.update_self, ServiceConnection.attachSpare]
      split
      · exact ⟨some sp, rfl⟩
      · exact withSpare_self _
    · simp only [Service.setConnection, Function.update_of_ne hj]
      exact withSpare_self _
  · exact withSpare_self _

theorem CameraSession.reader_some {cam : CameraSession} {data : Bytes} {i : Nat} {d : Datagram}
    (h : cam.reader data = some (i, d)) :
    cam.active = true ∧ Datagram.parse data = some d ∧
      ¬ (d.connId = 0 ∧ d.totalSize = 0 ∧ d.offset = 0) ∧
      cam.findConnectionById d.connId = some i := by
  unfold CameraSession.reader at h
  split at h
  · cases h
  · next hact =>
    split at h
    · cases h
    · next e he =>
      split at h
      · cases h
      · next hbeat =>
        obtain ⟨k, hk, hkd⟩ := Option.map_eq_some_iff.mp h
        obtain ⟨rfl, rfl⟩ := Prod.mk.inj hkd
        exact ⟨by simpa using hact, he, hbeat, hk⟩

/-- A datagram for no connection changes none. -/
theorem onRecvCamera_reader_none {cam : CameraSession} {data : Bytes} (env : RecvEnv)
    (h : cam.reader data = none) :
    (onRecvCamera cam data env).1.connections = cam.connections := by
  unfold CameraSession.reader at h
  unfold onRecvCamera
  split
  · rfl
  · next hact =>
    rw [if_neg hact] at h
    split
    · rfl
    · next d hd =>
      simp only [hd] at h
      split
      · dsimp only
        split <;> rfl
      · next hbeat =>
        rw [if_neg hbeat, Option.map_eq_none_iff] at h
        rw [h]

/-- The reassembly fields after a datagram for a connection, up to the spare buffer. -/
theorem onRecvCamera_reader {cam : CameraSession} {data : Bytes} {i : Nat} {d : Datagram}
    (env : RecvEnv) (h : cam.reader data = some (i, d)) (j : Nat) :
    ∃ s, ((onRecvCamera cam data env).1.connections j).toReassembly =
      { ((cam.setConnection i ((cam.connections i).receive d env.now).1).connections
          j).toReassembly with spareBuffer := s } := by
  obtain ⟨hact, hd, hbeat, hi⟩ := CameraSession.reader_some h
  simp only [onRecvCamera, hact, hd, hbeat, hi, Bool.not_true, Bool.false_eq_true, if_false]
  cases (cam.connections i).receive d env.now with
  | mk c frame =>
    cases frame with
    | none => exact withSpare_self _
    | some frame => exact CameraSession.refillSpare_slot _ _ _ j

/-- A datagram for no connection only dials, or closes what it dialled for. -/
theorem onRecv_reader_none {svc svc' : Service} {data : Bytes} {env : ServiceEnv}
    (h : svc.reader data env = (svc', none)) : (onRecv svc data env).1 = svc' := by
  unfold Service.reader at h
  unfold onRecv
  generalize Datagram.parse data = parsed at h ⊢
  cases parsed with
  | none =>
    cases h
    rfl
  | some d =>
    dsimp only at h ⊢
    split at h
    · next hbeat =>
      cases h
      rw [if_pos hbeat]
    · next hbeat =>
      obtain ⟨rfl, hslot⟩ := Prod.mk.inj h
      have hnone := Option.map_eq_none_iff.mp hslot
      cases hc : svc.connection d env with
      | mk svc' slot =>
        rw [hc] at hnone
        subst hnone
        rw [if_neg hbeat]

theorem Service.reader_some {svc svc' : Service} {data : Bytes} {env : ServiceEnv} {i : Nat}
    {d : Datagram} (h : svc.reader data env = (svc', some (i, d))) :
    Datagram.parse data = some d ∧ ¬ (d.connId = 0 ∧ d.totalSize = 0 ∧ d.offset = 0) ∧
      svc.connection d env = (svc', some i) := by
  unfold Service.reader at h
  split at h
  · cases h
  · next e he =>
    split at h
    · cases h
    · next hbeat =>
      obtain ⟨hsvc, hslot⟩ := Prod.mk.inj h
      obtain ⟨k, hk, hkd⟩ := Option.map_eq_some_iff.mp hslot
      obtain ⟨rfl, rfl⟩ := Prod.mk.inj hkd
      exact ⟨he, hbeat, Prod.ext hsvc hk⟩

theorem onRecv_reader {svc svc' : Service} {data : Bytes} {env : ServiceEnv} {i : Nat}
    {d : Datagram} (h : svc.reader data env = (svc', some (i, d))) (j : Nat) :
    ∃ s, ((onRecv svc data env).1.connections j).toReassembly =
      { ((svc'.setConnection i ((svc'.connections i).receive d env.now).1).connections
          j).toReassembly with spareBuffer := s } := by
  obtain ⟨hd, hbeat, hc⟩ := Service.reader_some h
  simp only [onRecv_eq env hd hbeat, hc]
  cases (svc'.connections i).receive d env.now with
  | mk c frame =>
    cases frame with
    | none => exact withSpare_self _
    | some frame => exact Service.refillSpare_slot _ _ _ j

/-! ### Properties of every slot -/

/-- A property of the reassembly fields of every slot of a session. -/
def CameraSession.Slots (Q : Nat → Reassembly → Prop) (cam : CameraSession) : Prop :=
  ∀ i, Q i (cam.connections i).toReassembly

/-- A property of the reassembly fields of every slot of a service. -/
def Service.Slots (Q : Nat → Reassembly → Prop) (svc : Service) : Prop :=
  ∀ i, Q i (svc.connections i).toReassembly

section Slots

variable {Q : Nat → Reassembly → Prop}

theorem CameraSession.Slots.setConnection {cam : CameraSession} (h : cam.Slots Q) {i : Nat}
    {c : Connection} (hc : Q i c.toReassembly) : (cam.setConnection i c).Slots Q := by
  intro j
  by_cases hj : j = i
  · subst hj
    simpa [CameraSession.setConnection] using hc
  · simpa [CameraSession.setConnection, Function.update_of_ne hj] using h j

theorem CameraSession.Slots.mapActive {cam : CameraSession} (h : cam.Slots Q)
    {f : Connection → Connection}
    (hf : ∀ i, Q i (cam.connections i).toReassembly → Q i (f (cam.connections i)).toReassembly) :
    (cam.mapActive f).Slots Q := by
  intro j
  simp only [CameraSession.mapActive]
  split
  · exact hf j (h j)
  · exact h j

theorem CameraSession.slots_start (hk : ∀ i, Kept (Q i)) : CameraSession.start.Slots Q :=
  fun i ↦ (hk i).fresh _ rfl rfl fun _ ↦ rfl

/-- Everything but a datagram keeps such a property. -/
theorem CameraSession.Slots.event {cam t : CameraSession} (hk : ∀ i, Kept (Q i)) (h : cam.Slots Q)
    {l : SessionEvent} (hl : ∀ data env, l ≠ .recv data env) (hs : cam.step l = some t) :
    t.Slots Q := by
  cases l with
  | recv data env => exact absurd rfl (hl data env)
  | accept localSocket buffers now =>
    cases hs
    unfold CameraSession.createConnection
    split
    · exact h
    · next i _ =>
      split
      · exact h.setConnection ((hk i).fresh _ rfl rfl fun _ ↦ rfl)
      · exact h.setConnection ((hk i).fresh _ rfl rfl fun _ ↦ rfl)
  | close i =>
    cases hs
    exact h.setConnection ((hk i).closed _ (h i))
  | cleanup now =>
    cases hs
    intro j
    simp only [CameraSession.cleanupStaleConnections]
    split
    · unfold Connection.cleanup
      split
      · exact (hk j).givenUp _ (h j)
      · exact h j
    · exact h j
  | reconnect =>
    cases hs
    exact h.mapActive fun _ ↦ id
  | free =>
    cases hs
    exact h.mapActive fun j ↦ (hk j).closed _
  | allocate =>
    simp only [CameraSession.step] at hs
    split at hs
    · cases hs
    · cases hs
      exact CameraSession.slots_start hk

theorem Service.Slots.setConnection {svc : Service} (h : svc.Slots Q) {i : Nat}
    {c : ServiceConnection} (hc : Q i c.toReassembly) : (svc.setConnection i c).Slots Q := by
  intro j
  by_cases hj : j = i
  · subst hj
    simpa [Service.setConnection] using hc
  · simpa [Service.setConnection, Function.update_of_ne hj] using h j

theorem Service.slots_start (hk : ∀ i, Kept (Q i)) : Service.start.Slots Q :=
  fun i ↦ (hk i).fresh _ rfl rfl fun _ ↦ rfl

theorem Service.Slots.closeConnection {svc : Service} (hk : ∀ i, Kept (Q i)) (h : svc.Slots Q)
    (i : Nat) : (svc.closeConnection i).Slots Q :=
  h.setConnection ((hk i).closed _ (h i))

theorem Service.Slots.cleanup {svc : Service} (hk : ∀ i, Kept (Q i)) (h : svc.Slots Q)
    (now : Int) : (svc.cleanup now).Slots Q := by
  intro j
  simp only [Service.cleanup]
  split
  · exact (hk j).closed _ (h j)
  · exact h j

theorem Service.Slots.foldl_meanwhile {svc : Service} (hk : ∀ i, Kept (Q i)) (h : svc.Slots Q)
    (ms : List Meanwhile) : (ms.foldl Service.meanwhile svc).Slots Q := by
  induction ms generalizing svc with
  | nil => exact h
  | cons m ms ih =>
    cases m with
    | close i => exact ih (h.closeConnection hk i)
    | cleanup now => exact ih (h.cleanup hk now)

/-- Everything but a datagram keeps such a property. -/
theorem Service.Slots.event {svc t : Service} (hk : ∀ i, Kept (Q i)) (h : svc.Slots Q)
    {l : ServiceEvent} (hl : ∀ data env, l ≠ .recv data env) (hs : svc.step l = some t) :
    t.Slots Q := by
  cases l with
  | recv data env => exact absurd rfl (hl data env)
  | close i =>
    cases hs
    exact h.closeConnection hk i
  | cleanup now =>
    cases hs
    exact h.cleanup hk now
  | reset =>
    cases hs
    intro j
    simp only [Service.reset]
    split
    · exact (hk j).closed _ (h j)
    · exact h j

/-- Finding or making the connection of a datagram keeps such a property. -/
theorem Service.Slots.connection {svc : Service} (hk : ∀ i, Kept (Q i)) (h : svc.Slots Q)
    (d : Datagram) (env : ServiceEnv) : (svc.connection d env).1.Slots Q := by
  unfold Service.connection
  split
  · exact h
  · split
    · exact h
    · have hcreated : (svc.createConnection d.connId env.buffers env.now).Slots Q := by
        unfold Service.createConnection
        split
        · exact h
        · exact h.setConnection ((hk _).fresh _ rfl rfl fun _ ↦ rfl)
        · exact h.setConnection ((hk _).fresh _ rfl rfl fun _ ↦ rfl)
      dsimp only
      split
      · exact hcreated
      · have hlater := hcreated.foldl_meanwhile hk env.meanwhile
        split
        · exact hlater
        · next i _ =>
          split
          · exact hlater.closeConnection hk i
          · exact hlater.setConnection (hlater i)

theorem Service.Slots.reader {svc : Service} (hk : ∀ i, Kept (Q i)) (h : svc.Slots Q)
    (data : Bytes) (env : ServiceEnv) : (svc.reader data env).1.Slots Q := by
  unfold Service.reader
  split
  · exact h
  · split
    · exact h
    · exact h.connection hk _ env

end Slots

end Kitty.P2p
