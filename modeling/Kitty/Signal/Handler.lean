import Kitty.Signal.Registry
import Kitty.Signal.Stoi

/-!
# The threads of the signaling server

`handle_client`, `notify_subscribers`, `ping_monitor_thread` and the `send_message` they
share, cut into the steps other threads can come between: one critical section, or one
`send` call; `src/signaling-server/signaling_server.cpp:380–404,605–745,1423–2030`.
-/

namespace Kitty.Signal

open Kitty.Base
open Registry

/-! ### Messages -/

/-- `m[key] = value` for one field after the other. -/
def assign (m : Fields) (es : List (Bytes × Bytes)) : Fields :=
  es.foldl (fun m e ↦ m.insert e.1 e.2) m

/-- The TURN fields of a reply, when a TURN server is configured. -/
def turnFields (cfg : Config) : List (Bytes × Bytes) :=
  if cfg.turnServerHost = [] then []
  else [(lit "turn_host", cfg.turnServerHost), (lit "turn_port", stdToString cfg.turnServerPort),
    (lit "turn_username", cfg.turnUsername), (lit "turn_password", cfg.turnPassword)]

/-- An ERROR reply. -/
def errorMessage (message : String) (service : Bytes) : Bytes :=
  createMessage (assign ∅ [(lit "type", lit "ERROR"), (lit "message", lit message ++ service)])

/-- The reply to a REGISTER or SRT_REGISTER. -/
def registeredMessage (cfg : Config) (type : String) : Bytes :=
  createMessage (assign ∅ ([(lit "type", lit type), (lit "status", lit "ok")] ++ turnFields cfg))

/-- The addresses of one end of an SRT rendezvous. -/
def srtFields (type : String) (service srflxIp : Bytes) (srflxPort : Int) (lanIp : Bytes) :
    List (Bytes × Bytes) :=
  [(lit "type", lit type), (lit "service_id", service), (lit "srflx_ip", srflxIp),
    (lit "srflx_port", stdToString srflxPort)] ++ if lanIp = [] then [] else [(lit "lan_ip", lanIp)]

/-- SRT_PEER, to the camera. -/
def srtPeerMessage (req : SrtRequest) : Bytes :=
  createMessage (assign ∅
    (srtFields "SRT_PEER" req.serviceId req.srflxIp req.srflxPort req.lanIp))

/-- SRT_PROVIDER, to the phone. -/
def srtProviderMessage (cfg : Config) (service : Bytes) (provider : SrtProviderInfo) : Bytes :=
  createMessage (assign ∅ (srtFields "SRT_PROVIDER" service provider.srflxIp provider.srflxPort
    provider.lanIp ++ turnFields cfg))

/-- The fields of a CONSUMER_CONNECT, to the provider. -/
def consumerConnect (service ip consumerSdp : Bytes) : Fields :=
  assign ∅ [(lit "type", lit "CONSUMER_CONNECT"), (lit "service_id", service),
    (lit "consumer_ip", ip), (lit "force_reconnect", lit "1"), (lit "consumer_sdp", consumerSdp)]

/-- The fields of a PROVIDER_INFO, to the consumer. -/
def providerInfo (cfg : Config) (provider : ProviderInfo) (sdp : Bytes) : Fields :=
  assign ∅ ([(lit "type", lit "PROVIDER_INFO"), (lit "provider_ip", provider.ip),
    (lit "provider_port", stdToString provider.p2pPort), (lit "provider_peer_id", provider.peerId),
    (lit "protocol", provider.serviceProtocol),
    (lit "codec", if provider.serviceCodec = [] then lit "h264" else provider.serviceCodec),
    (lit "consumer_port", stdToString provider.desiredConsumerPort), (lit "provider_sdp", sdp)] ++
    turnFields cfg)

/-- NEW_PROVIDER, to a subscriber. -/
def newProviderText (service : Bytes) : Bytes :=
  lit "type=NEW_PROVIDER\nservice_id=" ++ service ++ lit "\n"

/-- PING, to a provider. -/
def pingText (service : Bytes) (now : Int) : Bytes :=
  lit "type=PING\nservice_id=" ++ service ++ lit "\ntimestamp=" ++ stdToString now ++ lit "\n"

/-- `recv_message` on what arrives until the connection ends: 4 bytes of length, at most
64 KiB, and as many bytes. -/
def recvMessage (stream : Bytes) : Option Bytes :=
  if stream.length < 4 then none
  else
    let len := readBe32 stream 0
    if 64 * 1024 < len then none
    else if (stream.drop 4).length < len then none
    else some ((stream.drop 4).take len)

/-! ### Where a thread is -/

/-- What a REQUEST message says, with the provider it found. -/
structure Rendezvous where
  serviceId : Bytes
  consumerSdp : Bytes
  provider : ProviderInfo

/-- The ping monitor's targets, what has failed, and the sockets to remove. -/
structure PingRound where
  now : Int
  targets : List (Nat × Bytes)
  failed : List Nat
  stale : Std.ExtTreeSet Nat

/-- What a thread does when a message has been sent, or could not be. -/
inductive Then where
  | recv
  | leave
  | registered (service : Bytes)
  | srtForwarded (service : Bytes) (provider : SrtProviderInfo)
  | forwarded (req : Rendezvous) (slot : Nat)
  | provided (service : Bytes)
  | notified (service : Bytes) (rest : List Nat) (failed : List Nat)
  | pinged (rest : List (Nat × Bytes)) (round : PingRound)
  | listed (rest : List Bytes)

/-- A message being sent: how many bytes of its frame the calls so far were for. -/
structure Outgoing where
  fd : Nat
  msg : Bytes
  sent : Nat

/-- Where a thread is between two steps. An SDP_READY carries along which CONSUMER_CONNECT
it answers, by the number of its slot; the program does not know it. -/
inductive Pc where
  | connected
  | recv
  | received (msg : Bytes) (answers : Option Nat)
  | registerCheck (req : RegisterRequest)
  | registerInsert (req : RegisterRequest)
  | registerCount (service : Bytes)
  | notifyCollect (service : Bytes)
  | notifyDrop (failed : List Nat)
  | srtRegister (req : SrtRequest)
  | srtLookup (req : SrtRequest)
  | srtMark (req : SrtRequest) (provider : SrtProviderInfo)
  | srtErase (service : Bytes) (provider : SrtProviderInfo)
  | subscribe
  | subscribeList
  | subscribeUnlock
  | requestStats (service consumerSdp : Bytes)
  | requestLookup (service consumerSdp : Bytes)
  | requestReset (req : Rendezvous)
  | requestInstall (req : Rendezvous)
  | requestDropSlot (req : Rendezvous) (slot : Nat)
  | requestDropProvider (req : Rendezvous)
  | requestWait (req : Rendezvous) (slot : Nat)
  | requestErase (req : Rendezvous) (slot : Nat) (sdp : Option Bytes)
  | requestMark (service : Bytes)
  | pong (service : Bytes)
  | portUpdate (service : Bytes) (port : Int)
  | sdpStore (service sdp : Bytes) (answers : Option Nat)
  | sdpFind (service sdp : Bytes) (answers : Option Nat)
  | sdpFulfil (slot : Nat) (sdp : Bytes) (answers : Option Nat)
  | providerDisconnected (service : Bytes)
  | sending (out : Outgoing) (next : Then)
  | account (fd bytes : Nat) (next : Then)
  | leaveSubscribers
  | leaveSrt
  | leaveRegistry
  | closing
  | done
  | pingSleep
  | pingCount (round : PingRound)
  | pingRemove (stale : List Nat)
  | pingClose (fd : Nat) (rest : List Nat)

/-- A thread: the socket it serves, the address of the client, and where it is. -/
structure Thread where
  fd : Nat
  ip : Bytes
  pc : Pc

/-! ### The parts of a thread that touch nothing shared -/

/-- A reply to the thread's own client. -/
def reply (fd : Nat) (msg : Bytes) (next : Then) : Pc := .sending ⟨fd, msg, 0⟩ next

/-- The loop of `notify_subscribers`. -/
def notifyNext (service : Bytes) (rest failed : List Nat) : Pc :=
  match rest with
  | fd :: rest => .sending ⟨fd, newProviderText service, 0⟩ (.notified service rest failed)
  | [] => if failed = [] then .recv else .notifyDrop failed

/-- The second step of the ping monitor. -/
def pingNext (rest : List (Nat × Bytes)) (round : PingRound) : Pc :=
  match rest with
  | (fd, service) :: rest => .sending ⟨fd, pingText service round.now, 0⟩ (.pinged rest round)
  | [] => .pingCount round

/-- The fourth step of the ping monitor. -/
def pingRemoveNext (stale : List Nat) : Pc :=
  if stale = [] then .pingSleep else .pingRemove stale

/-- The list a new subscriber gets. -/
def listNext (fd : Nat) (rest : List Bytes) : Pc :=
  match rest with
  | service :: rest => .sending ⟨fd, newProviderText service, 0⟩ (.listed rest)
  | [] => .subscribeUnlock

/-- `send_message` counts the bytes of a sent message, the other senders do not. -/
def Then.accounts : Then → Bool
  | .notified .. | .pinged .. | .listed .. => false
  | _ => true

/-- Behind a message that was sent. -/
def Then.ok (cfg : Config) (fd : Nat) : Then → Pc
  | .recv => .recv
  | .leave => .leaveSubscribers
  | .registered service => .registerCount service
  | .srtForwarded service provider => reply fd (srtProviderMessage cfg service provider) .recv
  | .forwarded req slot => .requestWait req slot
  | .provided service => .requestMark service
  | .notified service rest failed => notifyNext service rest failed
  | .pinged rest round => pingNext rest round
  | .listed rest => listNext fd rest

/-- Behind a message that could not be sent to a socket. Most results are not looked at. -/
def Then.fail (cfg : Config) (fd : Nat) (out : Outgoing) : Then → Pc
  | .srtForwarded service provider => .srtErase service provider
  | .forwarded req slot => .requestDropSlot req slot
  | .notified service rest failed => notifyNext service rest (failed ++ [out.fd])
  | .pinged rest round => pingNext rest { round with failed := round.failed ++ [out.fd] }
  | next => next.ok cfg fd

/-- A token that is missing or wrong, when one is configured. -/
def badToken (cfg : Config) (parsed : Fields) : Bool :=
  cfg.apiToken != [] && field parsed (lit "api_token") != cfg.apiToken

/-- A value that is used when it is there. -/
def fieldOr (parsed : Fields) (key : Bytes) (fallback : Bytes) : Bytes :=
  (parsed[key]?).getD fallback

/-- `parsed.count(key) ? std::stoi(parsed[key]) : 0`. -/
def stoiOr0 (parsed : Fields) (key : Bytes) : Except StdException Int :=
  match parsed[key]? with
  | some value => stoi value
  | none => .ok 0

/-- The REGISTER branch up to its first lock: the numbers are read before the token is looked
at. -/
def dispatchRegister (cfg : Config) (fd : Nat) (parsed : Fields) : Except StdException Pc := do
  let p2pPort ← stoi (field parsed (lit "p2p_port"))
  let desiredConsumerPort ← stoiOr0 parsed (lit "consumer_port")
  if badToken cfg parsed then
    return reply fd (errorMessage "Authentication failed" []) .leave
  return .registerCheck
    { serviceId := field parsed (lit "service_id"), peerId := field parsed (lit "peer_id"), p2pPort
      sdp := field parsed (lit "sdp")
      serviceProtocol := fieldOr parsed (lit "protocol") (lit "rtsp")
      serviceCodec := fieldOr parsed (lit "codec") (lit "h264"), desiredConsumerPort }

/-- The fields of SRT_REGISTER and SRT_REQUEST. -/
def srtRequest (parsed : Fields) : Except StdException SrtRequest := do
  let srflxPort ← stoiOr0 parsed (lit "srflx_port")
  return { serviceId := field parsed (lit "service_id"), srflxIp := field parsed (lit "srflx_ip")
           srflxPort, lanIp := field parsed (lit "lan_ip") }

/-- A request that names no service or no address. -/
def Registry.SrtRequest.incomplete (req : SrtRequest) : Bool :=
  req.serviceId == [] || req.srflxIp == [] || decide (req.srflxPort ≤ 0)

/-- The SRT_REGISTER branch up to its first lock. -/
def dispatchSrtRegister (cfg : Config) (fd : Nat) (parsed : Fields) : Except StdException Pc := do
  let req ← srtRequest parsed
  if req.incomplete then
    return reply fd (errorMessage "SRT_REGISTER requires service_id, srflx_ip, srflx_port" []) .recv
  if badToken cfg parsed then
    return reply fd (errorMessage "Authentication failed" []) .leave
  return .srtRegister req

/-- The SRT_REQUEST branch up to its first lock. -/
def dispatchSrtRequest (fd : Nat) (parsed : Fields) : Except StdException Pc := do
  let req ← srtRequest parsed
  if req.incomplete then
    return reply fd (errorMessage "SRT_REQUEST requires service_id, srflx_ip, srflx_port" []) .recv
  return .srtLookup req

/-- The PORT_UPDATE branch up to its lock. -/
def dispatchPortUpdate (parsed : Fields) : Except StdException Pc := do
  let port ← stoiOr0 parsed (lit "local_port")
  let service := field parsed (lit "service_id")
  return if service ≠ [] ∧ 0 < port then .portUpdate service port else .recv

/-- A parsed message, up to the first lock of its branch. -/
def dispatch (cfg : Config) (fd : Nat) (parsed : Fields) (answers : Option Nat) :
    Except StdException Pc :=
  let type := field parsed (lit "type")
  let service := field parsed (lit "service_id")
  if type = lit "REGISTER" then dispatchRegister cfg fd parsed
  else if type = lit "SRT_REGISTER" then dispatchSrtRegister cfg fd parsed
  else if type = lit "SRT_REQUEST" then dispatchSrtRequest fd parsed
  else if type = lit "SUBSCRIBE" then return .subscribe
  else if type = lit "REQUEST" then return .requestStats service (field parsed (lit "consumer_sdp"))
  else if type = lit "PONG" then return .pong service
  else if type = lit "PORT_UPDATE" then dispatchPortUpdate parsed
  else if type = lit "SDP_READY" then
    let sdp := field parsed (lit "sdp")
    return if service ≠ [] ∧ sdp ≠ [] then .sdpStore service sdp answers else .recv
  else if type = lit "PROVIDER_DISCONNECTED" then
    return if service ≠ [] then .providerDisconnected service else .recv
  else return .recv

/-! ### Critical sections -/

/-- A step under `registry_mutex`, which no other thread may hold. -/
def Registry.locked (r : Registry) (x : Registry × Pc) : Option (Registry × Pc) :=
  if r.lockedBy = none then some x else none

/-- The step of a thread that neither waits nor sends: one critical section, and what it
does next. -/
def Thread.run (cfg : Config) (tid : Nat) (t : Thread) (now : Int) (r : Registry) :
    Option (Registry × Pc) :=
  match t.pc with
  | .connected => r.locked (r.countConnection, .recv)
  | .registerCheck req => r.locked (r,
      if r.atCapacity cfg req.serviceId then
        reply t.fd (errorMessage "Server at capacity" []) .leave
      else .registerInsert req)
  | .registerInsert req => r.locked (r.register req t.fd t.ip now,
      reply t.fd (registeredMessage cfg "REGISTERED") (.registered req.serviceId))
  | .registerCount service => r.locked
      (r.updateProvider service fun info ↦ { info with messagesSent := info.messagesSent + 1 },
        .notifyCollect service)
  | .notifyCollect service => some (r, notifyNext service r.subscriberSockets.toList [])
  | .notifyDrop failed => some (r.dropSubscribers failed, .recv)
  | .srtRegister req => some (r.srtRegister req t.fd now,
      reply t.fd (registeredMessage cfg "SRT_REGISTERED") .recv)
  | .srtLookup req => some (r,
      match r.srtProviders[req.serviceId]? with
      | some provider => .srtMark req provider
      | none => reply t.fd (errorMessage "SRT provider not found: " req.serviceId) .recv)
  | .srtMark req provider => some (r.srtMarkConsumer req.serviceId t.ip now,
      .sending ⟨provider.socketFd, srtPeerMessage req, 0⟩ (.srtForwarded req.serviceId provider))
  | .srtErase service _ => some (r.srtErase service, reply t.fd
      (errorMessage "SRT provider not reachable (stale connection) — retry" []) .recv)
  | .subscribe => some (r.subscribe t.fd, .subscribeList)
  | .subscribeList => r.locked ({ r with lockedBy := some tid }, listNext t.fd r.providers.keys)
  | .subscribeUnlock => some ({ r with lockedBy := none }, .recv)
  | .requestStats service consumerSdp => r.locked
      (r.countConsumer, .requestLookup service consumerSdp)
  | .requestLookup service consumerSdp => r.locked
      (match r.providers[service]? with
      | some provider =>
        (r.updateProvider service fun info ↦
          { info with messagesReceived := info.messagesReceived + 1 },
          .requestReset ⟨service, consumerSdp, provider⟩)
      | none => (r, reply t.fd (errorMessage "Provider not found" []) .recv))
  | .requestReset req => r.locked
      (r.updateProvider req.serviceId fun info ↦
        { info with hasConsumer := false, consumerIp := [] }, .requestInstall req)
  | .requestInstall req => some (r.installPending req.serviceId, .sending
      ⟨req.provider.socketFd, createMessage (consumerConnect req.serviceId t.ip req.consumerSdp), 0⟩
      (.forwarded req r.nextSlot))
  | .requestDropSlot req _ => some (r.erasePending req.serviceId, .requestDropProvider req)
  | .requestDropProvider req => r.locked (r.eraseProvider req.serviceId, reply t.fd
      (errorMessage "Provider not reachable (stale connection) — retry" []) .recv)
  | .requestWait req slot =>
    if (r.slots slot).ready then some (r, .requestErase req slot (some (r.slots slot).sdp))
    else none
  | .requestErase req _ sdp => some (r.erasePending req.serviceId, reply t.fd
      (createMessage (providerInfo cfg req.provider (sdp.getD req.provider.sdp)))
      (.provided req.serviceId))
  | .requestMark service => r.locked
      (r.updateProvider service fun info ↦
        { info with
          messagesSent := info.messagesSent + 1, consumerIp := t.ip, hasConsumer := true },
        .recv)
  | .pong service => r.locked (r.pong service t.fd now, .recv)
  | .portUpdate service port => r.locked
      (r.updateProvider service fun info ↦ { info with consumerPort := port }, .recv)
  | .sdpStore service sdp answers => r.locked
      (r.updateProvider service fun info ↦ { info with sdp }, .sdpFind service sdp answers)
  | .sdpFind service sdp answers => some (r,
      match r.pendingSdpRequests[service]? with
      | some slot => .sdpFulfil slot sdp answers
      | none => .recv)
  | .sdpFulfil slot sdp _ => some (r.fulfil slot sdp, .recv)
  | .providerDisconnected service => r.locked
      (r.updateProvider service fun info ↦
        { info with hasConsumer := false, consumerIp := [] }, .recv)
  | .account fd bytes next => r.locked (r.accountSent fd bytes, next.ok cfg t.fd)
  | .leaveSubscribers => some (r.unsubscribe t.fd, .leaveSrt)
  | .leaveSrt => some (r.removeSrtSocket t.fd, .leaveRegistry)
  | .leaveRegistry => r.locked (r.leave t.fd now, .closing)
  | .closing => some (r.close t.fd, .done)
  | .pingSleep => r.locked (r, pingNext r.collectPings.1
      ⟨now, r.collectPings.1, [], r.collectPings.2⟩)
  | .pingCount round => r.locked
      (round.targets.foldl (fun r (fd, service) ↦
        if round.failed.contains fd then r
        else r.countPing service (4 + (pingText service round.now).length) round.now) r,
        pingRemoveNext ((round.targets.foldl (fun stale (fd, _) ↦
          if round.failed.contains fd then stale.insert fd else stale) round.stale).toList))
  | .pingRemove stale =>
    match stale with
    | fd :: rest => r.locked (r.removeStale fd now, .pingClose fd rest)
    | [] => some (r, .pingSleep)
  | .pingClose fd rest => some (r.close fd, pingRemoveNext rest)
  | .recv | .received .. | .sending .. | .done => none

end Kitty.Signal
