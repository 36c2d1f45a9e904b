import Kitty.Signal.Message
import Std.Data.ExtTreeSet.Lemmas

/-!
# The shared state of the signaling server

The records of `src/signaling-server/signaling_server.cpp:89–211`, and what the client
handlers and the ping monitor do to them while they hold a lock. `std::map` and `std::set`
iterate in the order of their keys, as the `toList` of an `ExtTreeMap` or `ExtTreeSet` does.
-/

namespace Kitty.Signal

open Kitty.Base

/-- `MAX_MISSED_PONGS`. -/
def maxMissedPongs : Nat := 3

/-- The fields of `Config` that the signaling threads read. -/
structure Config where
  turnServerHost : Bytes
  turnServerPort : Int
  turnUsername : Bytes
  turnPassword : Bytes
  apiToken : Bytes
  maxProviders : Int

/-- `Config()`: no TURN server, no token, no limit. -/
def Config.unset : Config where
  turnServerHost := []
  turnServerPort := 3478
  turnUsername := []
  turnPassword := []
  apiToken := []
  maxProviders := 0

/-- `ProviderInfo`. -/
structure ProviderInfo where
  peerId : Bytes
  ip : Bytes
  p2pPort : Int
  sdp : Bytes
  serviceProtocol : Bytes
  serviceCodec : Bytes
  socketFd : Nat
  connectedAt : Int
  messagesSent : Nat
  messagesReceived : Nat
  bytesSent : Nat
  bytesReceived : Nat
  consumerIp : Bytes
  hasConsumer : Bool
  consumerPort : Int
  desiredConsumerPort : Int
  firstSeen : Int
  lastDisconnect : Int
  totalDowntime : Nat
  disconnectCount : Nat
  lastPingAt : Int
  lastPongAt : Int
  missedPongs : Nat

/-- `ProviderHistory`. -/
structure ProviderHistory where
  firstSeen : Int
  lastDisconnect : Int
  totalDowntime : Nat
  disconnectCount : Nat

/-- `SrtProviderInfo`. -/
structure SrtProviderInfo where
  serviceId : Bytes
  srflxIp : Bytes
  srflxPort : Int
  lanIp : Bytes
  socketFd : Nat
  connectedAt : Int
  hasConsumer : Bool
  consumerIp : Bytes
  lastConsumerAt : Int

/-- `PendingSDP` without its lock. -/
structure PendingSdp where
  sdp : Bytes
  ready : Bool

/-- The counters of `Stats`. -/
structure Stats where
  totalProviders : Nat
  totalConsumers : Nat
  totalConnections : Nat

/-- The globals. A `std::shared_ptr<PendingSDP>` is the number of its slot. `lockedBy` is the
thread that holds `registry_mutex` from one step to the next, and `openFds` are the
descriptors the process has open. -/
structure Registry where
  providers : Std.ExtTreeMap Bytes ProviderInfo
  providerHistory : Std.ExtTreeMap Bytes ProviderHistory
  serverStats : Stats
  srtProviders : Std.ExtTreeMap Bytes SrtProviderInfo
  pendingSdpRequests : Std.ExtTreeMap Bytes Nat
  slots : Nat → PendingSdp
  nextSlot : Nat
  subscriberSockets : Std.ExtTreeSet Nat
  lockedBy : Option Nat
  openFds : Std.ExtTreeSet Nat

/-- The process before its first client. -/
def Registry.start : Registry :=
  ⟨∅, ∅, ⟨0, 0, 0⟩, ∅, ∅, fun _ ↦ ⟨[], false⟩, 0, ∅, none, ∅⟩

namespace Registry

/-- The first provider on a socket, in the order of the map, is updated. -/
def updateFirst (r : Registry) (fd : Nat) (f : ProviderInfo → ProviderInfo) : Registry :=
  match r.providers.toList.find? fun e ↦ e.2.socketFd == fd with
  | none => r
  | some (service, info) => { r with providers := r.providers.insert service (f info) }

/-- A provider is updated, when it is registered. -/
def updateProvider (r : Registry) (service : Bytes) (f : ProviderInfo → ProviderInfo) : Registry :=
  { r with providers := r.providers.modify service f }

/-- The bytes of a message sent. -/
def accountSent (r : Registry) (fd bytes : Nat) : Registry :=
  r.updateFirst fd fun info ↦ { info with bytesSent := info.bytesSent + bytes }

/-- The bytes of a message received. -/
def accountReceived (r : Registry) (fd bytes : Nat) : Registry :=
  r.updateFirst fd fun info ↦ { info with bytesReceived := info.bytesReceived + bytes }

/-- The start of a client handler. -/
def countConnection (r : Registry) : Registry :=
  { r with serverStats :=
      { r.serverStats with totalConnections := r.serverStats.totalConnections + 1 } }

/-- A fresh connection of a REQUEST. -/
def countConsumer (r : Registry) : Registry :=
  { r with serverStats :=
      { r.serverStats with
        totalConsumers := r.serverStats.totalConsumers + 1
        totalConnections := r.serverStats.totalConnections + 1 } }

/-- What a REGISTER message says. -/
structure RegisterRequest where
  serviceId : Bytes
  peerId : Bytes
  p2pPort : Int
  sdp : Bytes
  serviceProtocol : Bytes
  serviceCodec : Bytes
  desiredConsumerPort : Int

/-- A new service finds as many providers as are allowed. -/
def atCapacity (r : Registry) (cfg : Config) (service : Bytes) : Bool :=
  decide (0 < cfg.maxProviders) && !r.providers.contains service &&
    decide (cfg.maxProviders ≤ r.providers.size)

/-- The history of a service as REGISTER leaves it. The time away is a `size_t`. -/
def registerHistory (r : Registry) (service : Bytes) (now : Int) : ProviderHistory :=
  match r.providerHistory[service]? with
  | some history =>
    if 0 < history.lastDisconnect then
      let downtime := ((now - history.lastDisconnect) % 2 ^ 64).toNat
      { history with
        totalDowntime := (history.totalDowntime + downtime) % 2 ^ 64
        disconnectCount := history.disconnectCount + 1 }
    else history
  | none => ⟨now, 0, 0, 0⟩

/-- The registration of a provider. -/
def register (r : Registry) (req : RegisterRequest) (fd : Nat) (ip : Bytes) (now : Int) :
    Registry :=
  let history := r.registerHistory req.serviceId now
  let info : ProviderInfo :=
    { peerId := req.peerId, ip, p2pPort := req.p2pPort, sdp := req.sdp
      serviceProtocol := req.serviceProtocol, serviceCodec := req.serviceCodec
      socketFd := fd, connectedAt := now, messagesSent := 0, messagesReceived := 1
      bytesSent := 0, bytesReceived := 0, consumerIp := [], hasConsumer := false
      consumerPort := 0, desiredConsumerPort := req.desiredConsumerPort
      firstSeen := history.firstSeen, lastDisconnect := history.lastDisconnect
      totalDowntime := history.totalDowntime, disconnectCount := history.disconnectCount
      lastPingAt := 0, lastPongAt := 0, missedPongs := 0 }
  { r with
    providerHistory := r.providerHistory.insert req.serviceId history
    providers := r.providers.insert req.serviceId info
    serverStats := { r.serverStats with totalProviders := r.serverStats.totalProviders + 1 } }

/-- What an SRT_REGISTER or SRT_REQUEST message says. -/
structure SrtRequest where
  serviceId : Bytes
  srflxIp : Bytes
  srflxPort : Int
  lanIp : Bytes

/-- The registration of an SRT camera. -/
def srtRegister (r : Registry) (req : SrtRequest) (fd : Nat) (now : Int) : Registry :=
  let info : SrtProviderInfo :=
    { serviceId := req.serviceId, srflxIp := req.srflxIp, srflxPort := req.srflxPort
      lanIp := req.lanIp, socketFd := fd, connectedAt := now, hasConsumer := false
      consumerIp := [], lastConsumerAt := 0 }
  { r with srtProviders := r.srtProviders.insert req.serviceId info }

/-- A phone was sent to an SRT camera. -/
def srtMarkConsumer (r : Registry) (service ip : Bytes) (now : Int) : Registry :=
  { r with srtProviders := r.srtProviders.modify service fun info ↦
      { info with hasConsumer := true, consumerIp := ip, lastConsumerAt := now } }

/-- An SRT camera that could not be reached is dropped. -/
def srtErase (r : Registry) (service : Bytes) : Registry :=
  { r with srtProviders := r.srtProviders.erase service }

/-- A new slot for the SDP of a service replaces the one before it. -/
def installPending (r : Registry) (service : Bytes) : Registry :=
  { r with
    pendingSdpRequests := r.pendingSdpRequests.insert service r.nextSlot
    slots := Function.update r.slots r.nextSlot ⟨[], false⟩
    nextSlot := r.nextSlot + 1 }

/-- The slot of a service is given up. -/
def erasePending (r : Registry) (service : Bytes) : Registry :=
  { r with pendingSdpRequests := r.pendingSdpRequests.erase service }

/-- A slot is filled. -/
def fulfil (r : Registry) (slot : Nat) (sdp : Bytes) : Registry :=
  { r with slots := Function.update r.slots slot ⟨sdp, true⟩ }

/-- A provider that could not be reached is dropped. -/
def eraseProvider (r : Registry) (service : Bytes) : Registry :=
  { r with providers := r.providers.erase service }

/-- The answer to a ping counts for every service on the socket of the one it names. -/
def pong (r : Registry) (service : Bytes) (fd : Nat) (now : Int) : Registry :=
  let fd :=
    if service = [] then fd else (r.providers[service]?.map ProviderInfo.socketFd).getD fd
  { r with providers := r.providers.map fun _ info ↦
      if info.socketFd = fd then { info with lastPongAt := now, missedPongs := 0 } else info }

/-- Another subscriber. -/
def subscribe (r : Registry) (fd : Nat) : Registry :=
  { r with subscriberSockets := r.subscriberSockets.insert fd }

/-- A subscriber less. -/
def unsubscribe (r : Registry) (fd : Nat) : Registry :=
  { r with subscriberSockets := r.subscriberSockets.erase fd }

/-- `close`. -/
def close (r : Registry) (fd : Nat) : Registry := { r with openFds := r.openFds.erase fd }

/-- The subscribers that could not be notified are dropped and closed. -/
def dropSubscribers (r : Registry) (failed : List Nat) : Registry :=
  failed.foldl (fun r fd ↦ (r.unsubscribe fd).close fd) r

/-- The SRT registrations of a socket that has closed are dropped. -/
def removeSrtSocket (r : Registry) (fd : Nat) : Registry :=
  { r with srtProviders := r.srtProviders.filter fun _ info ↦ info.socketFd != fd }

/-- The providers of a socket are dropped, and their histories note it. -/
def removeSocket (r : Registry) (fd : Nat) (note : ProviderHistory → ProviderHistory) : Registry :=
  { r with
    providers := r.providers.filter fun _ info ↦ info.socketFd != fd
    providerHistory := r.providerHistory.map fun service history ↦
      if (r.providers[service]?).any (·.socketFd == fd) then note history else history }

/-- The providers of a handler that ends. -/
def leave (r : Registry) (fd : Nat) (now : Int) : Registry :=
  r.removeSocket fd fun history ↦ { history with lastDisconnect := now }

/-- The providers of a socket that has missed its pings. -/
def removeStale (r : Registry) (fd : Nat) (now : Int) : Registry :=
  r.removeSocket fd fun history ↦
    { history with lastDisconnect := now, disconnectCount := history.disconnectCount + 1 }

/-- The ping monitor's first pass: the sockets and services to ping, and the sockets to
remove. A provider on a socket already given up is skipped. -/
def collectPings (r : Registry) : List (Nat × Bytes) × Std.ExtTreeSet Nat :=
  r.providers.toList.foldl (fun (targets, stale) (service, info) ↦
    if stale.contains info.socketFd then (targets, stale)
    else if maxMissedPongs ≤ info.missedPongs then (targets, stale.insert info.socketFd)
    else (targets ++ [(info.socketFd, service)], stale)) ([], ∅)

/-- A ping of so many bytes has left for a provider. -/
def countPing (r : Registry) (service : Bytes) (bytes : Nat) (now : Int) : Registry :=
  r.updateProvider service fun info ↦
    { info with
      lastPingAt := now
      missedPongs := info.missedPongs + 1
      bytesSent := info.bytesSent + bytes
      messagesSent := info.messagesSent + 1 }

end Registry

end Kitty.Signal
