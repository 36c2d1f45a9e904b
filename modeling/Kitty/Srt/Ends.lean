import Kitty.Ap2p.Config
import Kitty.Srt.KeyValue

/-!
# What the two ends say and read

The messages of the camera and of the phone about their addresses, and the choice each of them
makes when it hears of the other; `src/ap2p/srt_thread.c:690–697,805–832` and
`src/consumer-srt-android/consumer_srt_p2p.c:576–627`.
-/

namespace Kitty.Srt

open Kitty.Base Kitty.Signal Kitty.Ap2p

/-- `ap2p_edge_binding_t` and `stun_binding_t`: the address a STUN server has seen. -/
structure EdgeBinding where
  srflxIp : Bytes
  srflxPort : Int
  deriving DecidableEq

/-- An optional line of a message, left out when its value is empty. -/
def optionalLine (name : String) (value : Bytes) : List Bytes :=
  if cstr value = [] then [] else [lit name, value, lit "\n"]

/-- The SRT_REGISTER of `run_ctrl_session`. -/
def registerText (nodeId ctrlToken : Bytes) (srflx : EdgeBinding) (lanIp : Bytes) : Bytes :=
  snprintf 1024 ([lit "type=SRT_REGISTER\nservice_id=", nodeId, lit "\nsrflx_ip=", srflx.srflxIp,
    lit "\nsrflx_port=", stdToString srflx.srflxPort, lit "\n"] ++ optionalLine "lan_ip=" lanIp ++
    optionalLine "api_token=" ctrlToken)

/-- The SRT_REQUEST of the phone. -/
def requestText (serviceId : Bytes) (srflx : EdgeBinding) (lanIp : Bytes) : Bytes :=
  snprintf 2048 ([lit "type=SRT_REQUEST\nservice_id=", serviceId, lit "\nsrflx_ip=", srflx.srflxIp,
    lit "\nsrflx_port=", stdToString srflx.srflxPort, lit "\n"] ++ optionalLine "lan_ip=" lanIp)

/-- What an SRT_PEER or SRT_PROVIDER says about the other end. -/
structure PeerFields where
  srflxIp : Bytes
  srflxPort : Int
  lanIp : Bytes

/-- The fields taken from a message. -/
def peerFields (inbuf : Bytes) : PeerFields where
  srflxIp := kvGet inbuf (lit "srflx_ip") 64
  srflxPort := atoi (kvGet inbuf (lit "srflx_port") 16)
  lanIp := kvGet inbuf (lit "lan_ip") 64

/-- The path to the other end: over the LAN, or over the public addresses. -/
inductive Path where
  | lan
  | srflx
  deriving DecidableEq

/-- The choice of the path, which both programs make in the same way: the LAN when the other
end has an address there and both have the same public one. -/
def peerPath (mine : EdgeBinding) (peer : PeerFields) : Path :=
  if peer.lanIp ≠ [] ∧ mine.srflxIp = peer.srflxIp then .lan else .srflx

/-- The address dialled on a path. -/
def peerIp (peer : PeerFields) : Path → Bytes
  | .lan => snprintf 64 [peer.lanIp]
  | .srflx => snprintf 64 [peer.srflxIp]

/-- `pump_request_t`, without a descriptor yet. -/
structure PumpRequest where
  peerIp : Bytes
  peerPort : Int
  localPort : Int
  mySrflxIp : Bytes
  deriving DecidableEq

/-- The request `run_ctrl_session` makes of an SRT_PEER. -/
def srtPeerRequest (srflx : EdgeBinding) (localPort : Int) (peer : PeerFields) :
    Option PumpRequest :=
  if peer.srflxIp = [] ∨ peer.srflxPort ≤ 0 then none
  else some
    { peerIp := peerIp peer (peerPath srflx peer), peerPort := peer.srflxPort, localPort
      mySrflxIp := snprintf 64 [srflx.srflxIp] }

end Kitty.Srt
