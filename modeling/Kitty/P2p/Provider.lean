import Kitty.P2p.Reassembly

/-!
# The provider's end of the transport

`connection_t`, the service functions on it and `on_recv`;
`src/provider-srt/_legacy_libjuice_provider_configurable.c:577–625,729–919,1045–1064`. A
connection is created by the first datagram that starts a frame, and the local service is
dialled without the lock, so the cleanup thread and other threads may run meanwhile.
-/

namespace Kitty.P2p

open Kitty.Base

/-- `connection_t` of the provider. -/
structure ServiceConnection extends Reassembly where
  connId : Nat
  localSocket : Int
  active : Bool
  lastSeqNum : Nat
  lastActivity : Int

/-- `memset(c, 0, sizeof(connection_t))`. -/
def ServiceConnection.zero : ServiceConnection :=
  { reassemblyBuffer := none, spareBuffer := none, chunkReceived := fun _ ↦ false
    expectedSize := 0, bytesReceived := 0, connId := 0, localSocket := 0, active := false
    lastSeqNum := 0, lastActivity := 0 }

/-- The fields of `service_state` that the transport reads and writes. -/
structure Service where
  agent : Bool
  connected : Bool
  connections : Nat → ServiceConnection

/-- A connected service without connections. -/
def Service.start : Service := ⟨true, true, fun _ ↦ .zero⟩

/-- What other threads do while `on_recv` dials the local service. -/
inductive Meanwhile where
  | close (i : Nat)
  | cleanup (now : Int)

/-- What the system calls of one callback return: `time`, the `malloc`s of a new connection,
the dialled socket, the `malloc` for its thread, `dup`, and the next spare buffer. -/
structure ServiceEnv where
  now : Int
  buffers : Option (Buffer UInt8 × Buffer UInt8)
  meanwhile : List Meanwhile
  connect : Int
  farg : Bool
  dup : Int
  spare : Option (Buffer UInt8)

/-- What `on_recv` sends: an answer to a heartbeat, or a block for the local socket. -/
inductive Reaction where
  | none
  | pong (data : Bytes)
  | write (fd : Int) (block : Bytes)

/-- `close_connection`, on the fields of the connection. -/
def ServiceConnection.close (c : ServiceConnection) : ServiceConnection :=
  { c with
    localSocket := if 0 ≤ c.localSocket then -1 else c.localSocket
    reassemblyBuffer := none, spareBuffer := none, active := false }

/-- A first chunk clears the bitmap and the count. -/
def ServiceConnection.startFrame (c : ServiceConnection) (d : Datagram) : ServiceConnection :=
  { c with toReassembly := c.toReassembly.newFrame d.totalSize }

/-- The copy of a chunk and the completion of its frame. -/
def ServiceConnection.store (c : ServiceConnection) (d : Datagram) :
    ServiceConnection × Option Bytes :=
  if c.accepts d then
    let r := c.toReassembly.copy d
    if r.full then
      let (r, frame) := r.finish c.localSocket
      ({ c with toReassembly := r }, frame)
    else ({ c with toReassembly := r }, none)
  else (c, none)

/-- What `on_recv` does to a connection under the lock. There is no check that a later chunk
belongs to the frame in the buffer. -/
def ServiceConnection.receive (c : ServiceConnection) (d : Datagram) (now : Int) :
    ServiceConnection × Option Bytes :=
  let c := { c with lastActivity := now, lastSeqNum := d.seqNum }
  if d.offset = 0 ∧ (d.totalSize = 0 ∨ bufferSize < d.totalSize) then (c, none)
  else
    let c := if d.offset = 0 then c.startFrame d else c
    if c.expectedSize == 0 || c.reassemblyBuffer.isNone then (c, none)
    else c.store d

/-- A new spare buffer is attached when the connection has none. -/
def ServiceConnection.attachSpare (c : ServiceConnection) (spare : Buffer UInt8) :
    ServiceConnection :=
  if c.spareBuffer.isNone then { c with spareBuffer := some spare } else c

namespace Service

/-- `find_connection`: the first slot in use by the connection. -/
def findConnection (svc : Service) (connId : Nat) : Option Nat :=
  (List.range maxConnections).find? fun i ↦
    (svc.connections i).active && (svc.connections i).connId == connId

/-- A slot is written. -/
def setConnection (svc : Service) (i : Nat) (c : ServiceConnection) : Service :=
  { svc with connections := Function.update svc.connections i c }

/-- `create_connection`: the first free slot, when its memory could be allocated. -/
def createConnection (svc : Service) (connId : Nat)
    (buffers : Option (Buffer UInt8 × Buffer UInt8)) (now : Int) : Service :=
  match (List.range maxConnections).find? fun i ↦ !(svc.connections i).active, buffers with
  | none, _ => svc
  | some i, none => svc.setConnection i .zero
  | some i, some (buf, spare) =>
    svc.setConnection i { ServiceConnection.zero with
      reassemblyBuffer := some buf, spareBuffer := some spare
      connId, localSocket := -1, active := true, lastActivity := now }

/-- `close_connection` on a slot. -/
def closeConnection (svc : Service) (i : Nat) : Service :=
  svc.setConnection i (svc.connections i).close

/-- The pass of `cleanup_thread` over one service: idle connections are closed. -/
def cleanup (svc : Service) (now : Int) : Service :=
  { svc with connections := fun i ↦
      if i < maxConnections ∧ (svc.connections i).active ∧
        reassemblyTimeout < now - (svc.connections i).lastActivity
      then (svc.connections i).close else svc.connections i }

/-- One event of another thread. -/
def meanwhile (svc : Service) : Meanwhile → Service
  | .close i => svc.closeConnection i
  | .cleanup now => svc.cleanup now

/-- `on_recv` up to the point where the connection has its socket: the service and the slot,
or none when the datagram is dropped. -/
def connection (svc : Service) (d : Datagram) (env : ServiceEnv) : Service × Option Nat :=
  match svc.findConnection d.connId with
  | some i => (svc, some i)
  | none =>
    if d.offset ≠ 0 then (svc, none)
    else
      let svc := svc.createConnection d.connId env.buffers env.now
      if svc.findConnection d.connId = none then (svc, none)
      else
        let svc := env.meanwhile.foldl meanwhile svc
        match svc.findConnection d.connId with
        | none => (svc, none)
        | some i =>
          if env.connect < 0 ∨ env.farg = false then (svc.closeConnection i, none)
          else (svc.setConnection i { svc.connections i with localSocket := env.connect }, some i)

/-- The refill of the spare buffer, under the lock again. -/
def refillSpare (svc : Service) (connId : Nat) (spare : Option (Buffer UInt8)) : Service :=
  match spare, svc.findConnection connId with
  | some spare, some i => svc.setConnection i ((svc.connections i).attachSpare spare)
  | _, _ => svc

end Service

/-- `on_recv`: the service after the callback and what it sends. -/
def onRecv (svc : Service) (data : Bytes) (env : ServiceEnv) : Service × Reaction :=
  match Datagram.parse data with
  | none => (svc, .none)
  | some d =>
    if d.connId = 0 ∧ d.totalSize = 0 ∧ d.offset = 0 then
      (svc, if d.seqNum = 1 ∧ svc.agent ∧ svc.connected then
        .pong (be32 0 ++ be32 2 ++ be32 0 ++ be32 0) else .none)
    else match svc.connection d env with
      | (svc, none) => (svc, .none)
      | (svc, some i) =>
        match (svc.connections i).receive d env.now with
        | (c, none) => (svc.setConnection i c, .none)
        | (c, some frame) =>
          ((svc.setConnection i c).refillSpare d.connId env.spare,
            if 0 ≤ env.dup ∧ 0 < frame.length then .write env.dup frame else .none)

/-- A datagram that is no ping goes to the slot `connection` settles on, and to no other. -/
theorem onRecv_eq {svc : Service} {data : Bytes} {d : Datagram} (env : ServiceEnv)
    (hd : Datagram.parse data = some d)
    (hping : ¬ (d.connId = 0 ∧ d.totalSize = 0 ∧ d.offset = 0)) :
    onRecv svc data env = match svc.connection d env with
      | (svc, none) => (svc, .none)
      | (svc, some i) =>
        match (svc.connections i).receive d env.now with
        | (c, none) => (svc.setConnection i c, .none)
        | (c, some frame) =>
          ((svc.setConnection i c).refillSpare d.connId env.spare,
            if 0 ≤ env.dup ∧ 0 < frame.length then .write env.dup frame else .none) := by
  unfold onRecv
  rw [hd]
  exact if_neg hping

end Kitty.P2p
