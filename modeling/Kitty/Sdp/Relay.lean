import Kitty.Sdp.Sanitize
import Kitty.Signal.Handler

/-!
# An SDP on its way to the other side

The texts with which the consumer and the provider send their SDP, and what each of them
takes out of the message that the server sends on;
`src/consumer-srt-cloud/_legacy_libjuice_consumer_api.c:1503–1591,1945–2071`,
`src/provider-srt/_legacy_libjuice_provider_configurable.c:186–205,1108–1216,1442–1460,
1506–1584`. The receivers take all that follows the name of the SDP field, so the fields that
come behind it in the order of the map end up in the remote description.
-/

namespace Kitty.Sdp

open Kitty.Base Kitty.Signal

/-- `MAX_SDP_LEN`. -/
def maxSdpLen : Nat := 4096

/-! ### What is sent -/

/-- The REQUEST of `connect_to_camera_attempt` and `reconnect_camera_ice_attempt`. -/
def requestText (camera peer sdp : Bytes) : Bytes :=
  snprintf (maxSdpLen + 512) [lit "type=REQUEST\nservice_id=", camera, lit "\npeer_id=", peer,
    lit "\nconsumer_sdp=", sdp]

/-- The settings of a service of the provider. -/
structure ServiceConfig where
  serviceId : Bytes
  protocol : Bytes
  codec : Bytes
  p2pPort : Int
  consumerPort : Int

/-- The REGISTER of the provider. -/
def registerText (cfg : ServiceConfig) (apiToken sdp : Bytes) : Bytes :=
  snprintf (maxSdpLen + 512) ([lit "type=REGISTER\nservice_id=", cfg.serviceId,
    lit "\npeer_id=provider1\np2p_port=", stdToString cfg.p2pPort, lit "\nprotocol=", cfg.protocol,
    lit "\ncodec=", if cstr cfg.codec = [] then lit "h264" else cfg.codec, lit "\nconsumer_port=",
    stdToString cfg.consumerPort] ++
    (if cstr apiToken = [] then [] else [lit "\napi_token=", apiToken]) ++ [lit "\nsdp=", sdp])

/-- The SDP_READY of the provider. -/
def sdpReadyText (service sdp : Bytes) : Bytes :=
  snprintf (maxSdpLen + 256) [lit "type=SDP_READY\nservice_id=", service, lit "\nsdp=", sdp]

/-- The CONSUMER_CONNECT that the server makes of a REQUEST. -/
def forwardedConnect (request ip : Bytes) : Bytes :=
  let parsed := parseMessage request
  createMessage (consumerConnect (field parsed (lit "service_id")) ip
    (field parsed (lit "consumer_sdp")))

/-! ### What is received -/

/-- `recv_message` into a buffer: a message that leaves no room for the NUL is dropped. -/
def recvBuffer (size : Nat) (msg : Bytes) : Option Bytes :=
  if size ≤ msg.length then none else some (cstr msg)

/-- What follows the name of a field, up to the end of the message. -/
def remoteSdp (name : String) (msg : Bytes) : Option Bytes := do
  let found ← strstr (lit name) msg
  let sanitized ← sanitizeRemoteSdp (found.drop (lit name).length) maxSdpLen
  return sanitized.1

/-- The fields of `service_state_t` that decide about a CONSUMER_CONNECT. -/
structure ServiceState where
  serviceId : Bytes
  connected : Bool
  hasHadConsumer : Bool
  lastConsumerConnectTime : Int

/-- The text `handle_consumer_connect` hands to `juice_set_remote_description`, when it gets
there. The agent of a session before may fail to be made again. -/
def handleConsumerConnect (svc : ServiceState) (now : Int) (created : Bool) (consumerMsg : Bytes) :
    Option Bytes :=
  let forceReconnect := (strstr (lit "force_reconnect=1") consumerMsg).isSome
  if svc.connected && !forceReconnect then none
  else if svc.hasHadConsumer && decide (0 < svc.lastConsumerConnectTime) &&
      (decide (now - svc.lastConsumerConnectTime ≤ 15) && !svc.connected) then none
  else if svc.hasHadConsumer && !created then none
  else remoteSdp "consumer_sdp=" consumerMsg

/-- The service a CONSUMER_CONNECT names: the first line of the field, when it is shorter than
128 bytes. -/
def targetId (consumerMsg : Bytes) : Bytes :=
  let start :=
    match strstr (lit "\nservice_id=") consumerMsg with
    | some found => some (found.drop 12)
    | none =>
      if (lit "service_id=").isPrefixOf consumerMsg then some (consumerMsg.drop 11) else none
  let line := (start.getD []).takeWhile fun b ↦ b ≠ CR ∧ b ≠ LF
  if line.length < 128 then line else []

/-- The text handed on when the provider's main loop receives a message. -/
def providerReceives (services : List ServiceState) (now : Int) (created : Bool) (msg : Bytes) :
    Option Bytes := do
  let consumerMsg ← recvBuffer (maxSdpLen + 512) msg
  if (strstr (lit "type=PING") consumerMsg).isSome then none
  else if (strstr (lit "type=CONSUMER_CONNECT") consumerMsg).isNone then none
  else
    let target := targetId consumerMsg
    let named := if target = [] then none else services.find? fun svc ↦ cstr svc.serviceId == target
    let svc ← named <|> (if services.length = 1 then services.head? else none)
    handleConsumerConnect svc now created consumerMsg

/-- The text `reconnect_camera_ice_attempt` hands on of a response. -/
def reconnectCameraIceAttempt (response : Bytes) : Option Bytes :=
  if (strstr (lit "type=PROVIDER_INFO") response).isNone then none
  else remoteSdp "provider_sdp=" response

/-- The text `connect_to_camera_attempt` hands on of a response. -/
def connectToCameraAttempt (response : Bytes) : Option Bytes :=
  if (strstr (lit "status=not_found") response).isSome then none
  else if (strstr (lit "type=ERROR") response).isSome then none
  else if (strstr (lit "type=PROVIDER_INFO") response).isNone then none
  else remoteSdp "provider_sdp=" response

/-! ### The whole way -/

/-- From the consumer's REQUEST to the provider's agent. -/
def toProvider (camera peer sdp ip : Bytes) (services : List ServiceState) (now : Int)
    (created : Bool) : Option Bytes :=
  providerReceives services now created (forwardedConnect (requestText camera peer sdp) ip)

/-- From the SDP the server has of a provider to the consumer's agent. -/
def toConsumer (attempt : Bytes → Option Bytes) (cfg : Config) (provider : ProviderInfo)
    (sdp : Bytes) : Option Bytes := do
  let response ← recvBuffer (maxSdpLen + 512) (createMessage (providerInfo cfg provider sdp))
  attempt response

end Kitty.Sdp
