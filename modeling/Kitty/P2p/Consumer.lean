import Kitty.P2p.Reassembly

/-!
# The consumer's end of the transport

`connection_t`, the session functions on it and `on_recv_camera`;
`src/consumer-srt-cloud/_legacy_libjuice_consumer_api.c:549–629,954–1098`. A session also
keeps the provider's answer times, which the same callback updates.
-/

namespace Kitty.P2p

open Kitty.Base

/-- `connection_t` of the consumer. -/
structure Connection extends Reassembly where
  connId : Nat
  localSocket : Int
  active : Bool
  lastSeqNum : Nat
  currentFrameStartSeq : Nat
  currentFrameNumChunks : Nat
  frameInProgress : Bool
  lastActivity : Int

/-- `memset(c, 0, sizeof(connection_t))`. -/
def Connection.zero : Connection :=
  { reassemblyBuffer := none, spareBuffer := none, chunkReceived := fun _ ↦ false
    expectedSize := 0, bytesReceived := 0, connId := 0, localSocket := 0, active := false
    lastSeqNum := 0, currentFrameStartSeq := 0, currentFrameNumChunks := 0
    frameInProgress := false, lastActivity := 0 }

/-- The fields of `camera_session_t` that the transport reads and writes. -/
structure CameraSession where
  active : Bool
  connections : Nat → Connection
  nextConnId : Nat
  lastPongAt : Int
  pongStrikes : Nat

/-- What the system calls of one callback return: `time`, `dup`, and the `malloc` of the
next spare buffer. -/
structure RecvEnv where
  now : Int
  dup : Int
  spare : Option (Buffer UInt8)

namespace CameraSession

/-- A session as `allocate_camera_session` leaves it. -/
def start : CameraSession := ⟨true, fun _ ↦ .zero, 1, 0, 0⟩

/-- `find_connection_by_id`: the first slot in use by the connection. -/
def findConnectionById (cam : CameraSession) (connId : Nat) : Option Nat :=
  (List.range maxConnections).find? fun i ↦
    (cam.connections i).active && (cam.connections i).connId == connId

/-- A slot is written. -/
def setConnection (cam : CameraSession) (i : Nat) (conn : Connection) : CameraSession :=
  { cam with connections := Function.update cam.connections i conn }

/-- The slot `create_connection` takes. -/
def freeSlot (cam : CameraSession) : Option Nat :=
  (List.range maxConnections).find? fun i ↦ !(cam.connections i).active

/-- The slot of a new client. -/
def opened (cam : CameraSession) (localSocket : Int) (buf spare : Buffer UInt8) (now : Int) :
    Connection :=
  { Connection.zero with
    reassemblyBuffer := some buf, spareBuffer := some spare, connId := cam.nextConnId
    localSocket, active := true, lastActivity := now }

/-- `create_connection`: the first free slot, when its two buffers and its bitmap could be
allocated; otherwise the slot is left cleared. -/
def createConnection (cam : CameraSession) (localSocket : Int)
    (buffers : Option (Buffer UInt8 × Buffer UInt8)) (now : Int) : CameraSession :=
  match cam.freeSlot with
  | none => cam
  | some i =>
    match buffers with
    | none => cam.setConnection i .zero
    | some (buf, spare) =>
      { cam.setConnection i (cam.opened localSocket buf spare now) with
        nextConnId := (cam.nextConnId + 1) % 2 ^ 32 }

end CameraSession

/-- `close_connection`, on the fields of the connection. -/
def Connection.close (c : Connection) : Connection :=
  { c with
    localSocket := if 0 ≤ c.localSocket then -1 else c.localSocket
    reassemblyBuffer := none, spareBuffer := none, active := false }

/-- `close_connection` on a slot. -/
def CameraSession.closeConnection (cam : CameraSession) (i : Nat) : CameraSession :=
  cam.setConnection i (cam.connections i).close

/-- One round of `cleanup_stale_connections`: a frame that stopped growing is given up. -/
def Connection.cleanup (c : Connection) (now : Int) : Connection :=
  if c.active ∧ c.frameInProgress ∧ reassemblyTimeout < now - c.lastActivity then
    { c with bytesReceived := 0, expectedSize := 0, frameInProgress := false
             currentFrameNumChunks := 0, lastActivity := now }
  else c

/-- `cleanup_stale_connections`. -/
def CameraSession.cleanupStaleConnections (cam : CameraSession) (now : Int) : CameraSession :=
  { cam with connections := fun i ↦
      if i < maxConnections then (cam.connections i).cleanup now else cam.connections i }

/-- A first chunk starts a frame and remembers its number. -/
def Connection.startFrame (c : Connection) (d : Datagram) : Connection :=
  { c with
    toReassembly := c.toReassembly.newFrame d.totalSize
    currentFrameStartSeq := d.seqNum
    currentFrameNumChunks := numChunks d.totalSize
    frameInProgress := true }

/-- The copy of a chunk and the completion of its frame. -/
def Connection.store (c : Connection) (d : Datagram) : Connection × Option Bytes :=
  if c.accepts d then
    let r := c.toReassembly.copy d
    if r.full then
      let (r, frame) := r.finish c.localSocket
      ({ c with toReassembly := r, frameInProgress := false }, frame)
    else ({ c with toReassembly := r }, none)
  else (c, none)

/-- The number of a datagram, counted from the first chunk under `uint32_t`. -/
def Connection.seqOffset (c : Connection) (d : Datagram) : Nat :=
  (d.seqNum + 2 ^ 32 - c.currentFrameStartSeq) % 2 ^ 32

/-- What `on_recv_camera` does to a connection under the lock. -/
def Connection.receive (c : Connection) (d : Datagram) (now : Int) : Connection × Option Bytes :=
  let c := { c with lastActivity := now, lastSeqNum := d.seqNum }
  if d.offset = 0 ∧ (d.totalSize = 0 ∨ bufferSize < d.totalSize) then (c, none)
  else
    let c := if d.offset = 0 then c.startFrame d else c
    if !c.frameInProgress || c.expectedSize == 0 || c.reassemblyBuffer.isNone then (c, none)
    else if c.currentFrameNumChunks ≤ c.seqOffset d then (c, none)
    else c.store d

/-- A new spare buffer is attached when the connection has none. -/
def Connection.attachSpare (c : Connection) (spare : Buffer UInt8) : Connection :=
  if c.spareBuffer.isNone then { c with spareBuffer := some spare } else c

/-- The refill of the spare buffer, under the lock again. -/
def CameraSession.refillSpare (cam : CameraSession) (connId : Nat) (spare : Option (Buffer UInt8)) :
    CameraSession :=
  match spare, cam.findConnectionById connId with
  | some spare, some i => cam.setConnection i ((cam.connections i).attachSpare spare)
  | _, _ => cam

/-- `on_recv_camera`: the session after the callback and what it passes to
`dispatch_enqueue`, a duplicate of the local socket and the frame. -/
def onRecvCamera (cam : CameraSession) (data : Bytes) (env : RecvEnv) :
    CameraSession × Option (Int × Bytes) :=
  if !cam.active then (cam, none)
  else match Datagram.parse data with
    | none => (cam, none)
    | some d =>
      if d.connId = 0 ∧ d.totalSize = 0 ∧ d.offset = 0 then
        (if d.seqNum = 2 then { cam with lastPongAt := env.now, pongStrikes := 0 } else cam, none)
      else match cam.findConnectionById d.connId with
        | none => (cam, none)
        | some i =>
          match (cam.connections i).receive d env.now with
          | (c, none) => (cam.setConnection i c, none)
          | (c, some frame) =>
            ((cam.setConnection i c).refillSpare d.connId env.spare,
              if 0 ≤ env.dup ∧ 0 < frame.length then some (env.dup, frame) else none)

/-! ### What the callback leaves alone -/

/-- A found slot is in use by the connection. -/
theorem CameraSession.findConnectionById_some {cam : CameraSession} {connId i : Nat}
    (h : cam.findConnectionById connId = some i) :
    i < maxConnections ∧ (cam.connections i).active = true ∧
      (cam.connections i).connId = connId := by
  have hmem := List.mem_of_find?_eq_some h
  have hp := List.find?_some h
  simp only [Bool.and_eq_true, beq_iff_eq] at hp
  exact ⟨List.mem_range.mp hmem, hp⟩

/-- When nothing is found, no slot is in use by the connection. -/
theorem CameraSession.findConnectionById_none {cam : CameraSession} {connId i : Nat}
    (h : cam.findConnectionById connId = none) (hi : i < maxConnections)
    (hact : (cam.connections i).active = true) : (cam.connections i).connId ≠ connId := by
  intro hid
  have := List.find?_eq_none.mp h i (List.mem_range.mpr hi)
  simp [hact, hid] at this

/-- A free slot is not in use. -/
theorem CameraSession.freeSlot_some {cam : CameraSession} {i : Nat} (h : cam.freeSlot = some i) :
    i < maxConnections ∧ (cam.connections i).active = false := by
  have hmem := List.mem_of_find?_eq_some h
  have hp := List.find?_some h
  exact ⟨List.mem_range.mp hmem, by simpa using hp⟩

/-- Writing a slot without changing whose it is does not change what is found. -/
theorem CameraSession.findConnectionById_setConnection (cam : CameraSession) (i connId : Nat)
    (c : Connection) (hid : c.connId = (cam.connections i).connId)
    (hact : c.active = (cam.connections i).active) :
    (cam.setConnection i c).findConnectionById connId = cam.findConnectionById connId := by
  unfold CameraSession.findConnectionById CameraSession.setConnection
  congr 1
  funext j
  by_cases hj : j = i
  · subst hj
    simp [hid, hact]
  · simp [Function.update_of_ne hj]

/-- A round of cleanup at most gives up the frames in progress. -/
theorem CameraSession.cleanup_same (cam : CameraSession) (now : Int) (j : Nat) :
    ((cam.cleanupStaleConnections now).connections j).active = (cam.connections j).active ∧
      ((cam.cleanupStaleConnections now).connections j).connId = (cam.connections j).connId ∧
      (((cam.cleanupStaleConnections now).connections j).frameInProgress = true →
        (cam.connections j).frameInProgress = true) := by
  unfold CameraSession.cleanupStaleConnections Connection.cleanup
  dsimp only
  split
  · split
    · exact ⟨rfl, rfl, fun hp ↦ by cases hp⟩
    · exact ⟨rfl, rfl, id⟩
  · exact ⟨rfl, rfl, id⟩

/-- The fields no chunk changes. -/
theorem Connection.store_same (c : Connection) (d : Datagram) :
    (c.store d).1.connId = c.connId ∧ (c.store d).1.active = c.active ∧
      (c.store d).1.localSocket = c.localSocket := by
  unfold Connection.store
  split
  · dsimp only
    split <;> exact ⟨rfl, rfl, rfl⟩
  · exact ⟨rfl, rfl, rfl⟩

theorem Connection.receive_same (c : Connection) (d : Datagram) (now : Int) :
    (c.receive d now).1.connId = c.connId ∧ (c.receive d now).1.active = c.active ∧
      (c.receive d now).1.localSocket = c.localSocket := by
  unfold Connection.receive
  dsimp only
  split
  · exact ⟨rfl, rfl, rfl⟩
  · by_cases h0 : d.offset = 0
    · simp only [if_pos h0]
      split
      · exact ⟨rfl, rfl, rfl⟩
      · split
        · exact ⟨rfl, rfl, rfl⟩
        · exact Connection.store_same _ d
    · simp only [if_neg h0]
      split
      · exact ⟨rfl, rfl, rfl⟩
      · split
        · exact ⟨rfl, rfl, rfl⟩
        · exact Connection.store_same _ d

/-- The connection after the callback, with the spare buffer refilled after a hand-over. -/
def Connection.afterRecv (c : Connection) (d : Datagram) (env : RecvEnv) : Connection :=
  match c.receive d env.now, env.spare with
  | (c, some _), some spare => c.attachSpare spare
  | (c, _), _ => c

theorem Connection.afterRecv_same (c : Connection) (d : Datagram) (env : RecvEnv) :
    (c.afterRecv d env).connId = c.connId ∧ (c.afterRecv d env).active = c.active := by
  obtain ⟨hid, hact, -⟩ := c.receive_same d env.now
  unfold Connection.afterRecv
  cases hr : c.receive d env.now with
  | mk c' frame =>
    rw [hr] at hid hact
    cases frame with
    | none => cases env.spare <;> exact ⟨hid, hact⟩
    | some frame =>
      cases env.spare with
      | none => exact ⟨hid, hact⟩
      | some spare =>
        simp only [Connection.attachSpare]
        split <;> exact ⟨hid, hact⟩

theorem Connection.afterRecv_connId (c : Connection) (d : Datagram) (env : RecvEnv) :
    (c.afterRecv d env).connId = c.connId :=
  (c.afterRecv_same d env).1

/-- What the callback passes on. -/
def Connection.handed (c : Connection) (d : Datagram) (env : RecvEnv) : Option (Int × Bytes) :=
  match (c.receive d env.now).2 with
  | some frame => if 0 ≤ env.dup ∧ 0 < frame.length then some (env.dup, frame) else none
  | none => none

/-- Only a frame that was put together is passed on. -/
theorem Connection.receive_of_handed {c : Connection} {d : Datagram} {env : RecvEnv}
    {p : Int × Bytes} (h : c.handed d env = some p) : (c.receive d env.now).2 = some p.2 := by
  unfold Connection.handed at h
  cases hr : (c.receive d env.now).2 with
  | none => simp [hr] at h
  | some frame =>
    simp only [hr] at h
    split at h
    · cases h
      rfl
    · cases h

/-- A datagram of a connection changes the slot of that connection and nothing else. -/
theorem onRecvCamera_some {cam : CameraSession} {data : Bytes} {d : Datagram} {i : Nat}
    (env : RecvEnv) (hact : cam.active) (hd : Datagram.parse data = some d) (ht : d.totalSize ≠ 0)
    (hi : cam.findConnectionById d.connId = some i) :
    onRecvCamera cam data env =
      (cam.setConnection i ((cam.connections i).afterRecv d env),
        (cam.connections i).handed d env) := by
  obtain ⟨hid, hactive, -⟩ := (cam.connections i).receive_same d env.now
  simp only [onRecvCamera, hact, hd, hi, ht, Bool.not_true, Bool.false_eq_true, if_false, false_and,
    and_false, Connection.afterRecv, Connection.handed]
  cases hr : (cam.connections i).receive d env.now with
  | mk c frame =>
    rw [hr] at hid hactive
    cases frame with
    | none => cases env.spare <;> rfl
    | some frame =>
      cases hs : env.spare with
      | none => simp [CameraSession.refillSpare]
      | some spare =>
        simp only [CameraSession.refillSpare,
          cam.findConnectionById_setConnection i d.connId c hid hactive, hi]
        simp [CameraSession.setConnection]

/-- A datagram of no open connection is dropped. -/
theorem onRecvCamera_none {cam : CameraSession} {data : Bytes} {d : Datagram} (env : RecvEnv)
    (hd : Datagram.parse data = some d) (ht : d.totalSize ≠ 0)
    (hi : cam.active = false ∨ cam.findConnectionById d.connId = none) :
    onRecvCamera cam data env = (cam, none) := by
  unfold onRecvCamera
  rcases hi with hi | hi
  · simp [hi]
  · simp [hd, ht, hi]

end Kitty.P2p
