import Kitty.Signal.Entries
import Kitty.Srt.KeyValue
import Mathlib.Algebra.GroupWithZero.Nat
import Mathlib.Data.List.Nodup

/-!
# Whether a message fits its reader

How long the messages are that the server sends to one party with what another one has said,
against the buffers of the readers; `src/signaling-server/signaling_server.cpp:605–745,
800–809,1665–1719,1784–1906`, `src/ap2p/srt_thread.c:188–196,703,744`,
`src/consumer-srt-android/consumer_srt_p2p.c:103–111,602`,
`src/provider-srt/_legacy_libjuice_provider_configurable.c:186–205,1506` and
`src/consumer-srt-cloud/_legacy_libjuice_consumer_api.c:363–384,1508,1950`.
-/

namespace Kitty.Signal

open Kitty.Base
open Registry
open Kitty.Srt (PlainKey parseMessage_createText)

/-- The buffer of the camera and of the phone, `inbuf`. -/
def srtBuffer : Nat := 8192

/-- The buffer of the libjuice provider and consumer, `MAX_SDP_LEN + 512`. -/
def juiceBuffer : Nat := 4096 + 512

/-- `ctrl_recv`, `sig_recv` and `recv_message`: a message that leaves no room for the NUL in the
buffer is refused. -/
def readInto (size : Nat) (msg : Bytes) : Option Bytes :=
  if size ≤ msg.length then none else some msg

/-! ### How long a message is -/

/-- The length of one field in a message. -/
def fieldSize (e : Bytes × Bytes) : Nat :=
  e.1.length + 1 + e.2.length + if isSdpKey e.1 then 0 else 1

theorem length_createText (es : List (Bytes × Bytes)) :
    (createText es).length = (es.map fieldSize).sum := by
  rw [createText, List.length_flatMap]
  congr
  funext e
  unfold fieldText fieldSize
  rw [List.length_append, List.length_append, List.length_cons]
  split <;> simp <;> omega

/-- What is assigned once is there. -/
theorem getElem?_assign {es : List (Bytes × Bytes)} (h : (es.map Prod.fst).Nodup) (m : Fields)
    (k v : Bytes) : (assign m es)[k]? = some v ↔
      (k, v) ∈ es ∨ k ∉ es.map Prod.fst ∧ m[k]? = some v := by
  induction es generalizing m with
  | nil => simp [assign]
  | cons e es ih =>
    obtain ⟨hnot, hes⟩ := List.nodup_cons.mp h
    have hassign : assign m (e :: es) = assign (m.insert e.1 e.2) es := rfl
    rw [hassign, ih hes, Std.ExtTreeMap.getElem?_insert]
    by_cases hk : e.1 = k
    · subst hk
      have hne : ∀ v, (e.1, v) ∉ es := fun v hv ↦ hnot (List.mem_map.mpr ⟨_, hv, rfl⟩)
      simp [hnot, hne, Prod.ext_iff, eq_comm]
    · have hcmp : compare e.1 k ≠ .eq := fun h ↦ hk (Std.LawfulEqCmp.eq_of_compare h)
      simp [hcmp, Prod.ext_iff, Ne.symm hk]

/-- The length of a message is the sum over its fields, in whatever order. -/
theorem length_createMessage {es : List (Bytes × Bytes)} (h : (es.map Prod.fst).Nodup) :
    (createMessage (assign ∅ es)).length = (es.map fieldSize).sum := by
  have hperm : (assign ∅ es).toList.Perm es := by
    refine (List.perm_ext_iff_of_nodup ?_ (List.Nodup.of_map _ h)).mpr ?_
    · refine (Std.ExtTreeMap.distinct_keys_toList).imp fun hne he ↦ hne ?_
      rw [he]
      exact Std.ReflCmp.compare_self
    · intro e
      rw [Std.ExtTreeMap.mem_toList_iff_getElem?_eq_some, getElem?_assign h]
      simp
  rw [createMessage, length_createText]
  exact (hperm.map fieldSize).sum_nat

/-- The length of the addresses of one end, without the type of the message. -/
def srtSize (service srflxIp : Bytes) (srflxPort : Int) (lanIp : Bytes) : Nat :=
  34 + service.length + srflxIp.length + (stdToString srflxPort).length +
    if lanIp = [] then 0 else 8 + lanIp.length

/-- The length of the TURN fields. -/
def turnSize (cfg : Config) : Nat :=
  if cfg.turnServerHost = [] then 0
  else 52 + cfg.turnServerHost.length + (stdToString cfg.turnServerPort).length +
    cfg.turnUsername.length + cfg.turnPassword.length

/-- The length of a PROVIDER_INFO. -/
def providerInfoSize (cfg : Config) (provider : ProviderInfo) (sdp : Bytes) : Nat :=
  111 + provider.ip.length + (stdToString provider.p2pPort).length + provider.peerId.length +
    provider.serviceProtocol.length +
    (if provider.serviceCodec = [] then 4 else provider.serviceCodec.length) +
    (stdToString provider.desiredConsumerPort).length + sdp.length + turnSize cfg

private theorem sum_fieldSize_srtFields (type : String) (service srflxIp : Bytes) (srflxPort : Int)
    (lanIp : Bytes) : ((srtFields type service srflxIp srflxPort lanIp).map fieldSize).sum =
      6 + (lit type).length + srtSize service srflxIp srflxPort lanIp := by
  have hsdp : isSdpKey (lit "type") = false ∧ isSdpKey (lit "service_id") = false ∧
      isSdpKey (lit "srflx_ip") = false ∧ isSdpKey (lit "srflx_port") = false ∧
      isSdpKey (lit "lan_ip") = false := by decide
  have hlen : (lit "type").length = 4 ∧ (lit "service_id").length = 10 ∧
      (lit "srflx_ip").length = 8 ∧ (lit "srflx_port").length = 10 ∧
      (lit "lan_ip").length = 6 := by decide
  by_cases hlan : lanIp = []
  · simp [srtFields, srtSize, fieldSize, hsdp, hlen, hlan]
    omega
  · simp [srtFields, srtSize, fieldSize, hsdp, hlen, hlan]
    omega

private theorem sum_fieldSize_turnFields (cfg : Config) :
    ((turnFields cfg).map fieldSize).sum = turnSize cfg := by
  have hsdp : isSdpKey (lit "turn_host") = false ∧ isSdpKey (lit "turn_port") = false ∧
      isSdpKey (lit "turn_username") = false ∧ isSdpKey (lit "turn_password") = false := by decide
  have hlen : (lit "turn_host").length = 9 ∧ (lit "turn_port").length = 9 ∧
      (lit "turn_username").length = 13 ∧ (lit "turn_password").length = 13 := by decide
  by_cases hturn : cfg.turnServerHost = []
  · simp [turnFields, turnSize, hturn]
  · simp [turnFields, turnSize, fieldSize, hsdp, hlen, hturn]
    omega

private theorem nodup_srtKeys (type : String) (service srflxIp : Bytes) (srflxPort : Int)
    (lanIp : Bytes) :
    ((srtFields type service srflxIp srflxPort lanIp).map Prod.fst).Nodup := by
  by_cases hlan : lanIp = []
  · simp only [srtFields, hlan, if_true, List.append_nil, List.map_cons, List.map_nil]
    decide
  · simp only [srtFields, hlan, if_false, List.map_append, List.map_cons, List.map_nil]
    decide

private theorem nodup_srtProviderKeys (cfg : Config) (type : String) (service srflxIp : Bytes)
    (srflxPort : Int) (lanIp : Bytes) :
    ((srtFields type service srflxIp srflxPort lanIp ++ turnFields cfg).map Prod.fst).Nodup := by
  by_cases hturn : cfg.turnServerHost = []
  · rw [turnFields, if_pos hturn, List.append_nil]
    exact nodup_srtKeys ..
  · by_cases hlan : lanIp = []
    · simp only [srtFields, turnFields, hlan, hturn, if_true, if_false, List.append_nil,
        List.map_append, List.map_cons, List.map_nil]
      decide
    · simp only [srtFields, turnFields, hlan, hturn, if_false, List.map_append, List.map_cons,
        List.map_nil]
      decide

theorem length_srtPeerMessage (req : SrtRequest) : (srtPeerMessage req).length =
    14 + srtSize req.serviceId req.srflxIp req.srflxPort req.lanIp := by
  have htype : (lit "SRT_PEER").length = 8 := by decide
  rw [srtPeerMessage, length_createMessage (nodup_srtKeys ..), sum_fieldSize_srtFields, htype]

theorem length_srtProviderMessage (cfg : Config) (service : Bytes) (provider : SrtProviderInfo) :
    (srtProviderMessage cfg service provider).length =
      18 + srtSize service provider.srflxIp provider.srflxPort provider.lanIp + turnSize cfg := by
  have htype : (lit "SRT_PROVIDER").length = 12 := by decide
  rw [srtProviderMessage, length_createMessage (nodup_srtProviderKeys ..), List.map_append,
    List.sum_append, sum_fieldSize_srtFields, sum_fieldSize_turnFields, htype]

theorem length_consumerConnect (service ip consumerSdp : Bytes) :
    (createMessage (consumerConnect service ip consumerSdp)).length =
      78 + service.length + ip.length + consumerSdp.length := by
  have hsdp : isSdpKey (lit "type") = false ∧ isSdpKey (lit "service_id") = false ∧
      isSdpKey (lit "consumer_ip") = false ∧ isSdpKey (lit "force_reconnect") = false ∧
      isSdpKey (lit "consumer_sdp") = true := by decide
  have hlen : (lit "type").length = 4 ∧ (lit "CONSUMER_CONNECT").length = 16 ∧
      (lit "service_id").length = 10 ∧ (lit "consumer_ip").length = 11 ∧
      (lit "force_reconnect").length = 15 ∧ (lit "1").length = 1 ∧
      (lit "consumer_sdp").length = 12 := by decide
  rw [consumerConnect, length_createMessage (by simp only [List.map_cons, List.map_nil]; decide)]
  simp [fieldSize, hsdp, hlen]
  omega

theorem length_providerInfo (cfg : Config) (provider : ProviderInfo) (sdp : Bytes) :
    (createMessage (providerInfo cfg provider sdp)).length = providerInfoSize cfg provider sdp := by
  have hsdp : isSdpKey (lit "type") = false ∧ isSdpKey (lit "provider_ip") = false ∧
      isSdpKey (lit "provider_port") = false ∧ isSdpKey (lit "provider_peer_id") = false ∧
      isSdpKey (lit "protocol") = false ∧ isSdpKey (lit "codec") = false ∧
      isSdpKey (lit "consumer_port") = false ∧ isSdpKey (lit "provider_sdp") = false := by decide
  have hlen : (lit "type").length = 4 ∧ (lit "PROVIDER_INFO").length = 13 ∧
      (lit "provider_ip").length = 11 ∧ (lit "provider_port").length = 13 ∧
      (lit "provider_peer_id").length = 16 ∧ (lit "protocol").length = 8 ∧
      (lit "codec").length = 5 ∧ (lit "h264").length = 4 ∧ (lit "consumer_port").length = 13 ∧
      (lit "provider_sdp").length = 12 := by decide
  have hcodec : (if provider.serviceCodec = [] then lit "h264" else provider.serviceCodec).length =
      if provider.serviceCodec = [] then 4 else provider.serviceCodec.length := by
    split
    · exact hlen.2.2.2.2.2.2.2.1
    · rfl
  have hnodup : ∀ cfg : Config,
      (([(lit "type", lit "PROVIDER_INFO"), (lit "provider_ip", provider.ip),
      (lit "provider_port", stdToString provider.p2pPort),
      (lit "provider_peer_id", provider.peerId), (lit "protocol", provider.serviceProtocol),
      (lit "codec", if provider.serviceCodec = [] then lit "h264" else provider.serviceCodec),
      (lit "consumer_port", stdToString provider.desiredConsumerPort),
      (lit "provider_sdp", sdp)] ++ turnFields cfg).map Prod.fst).Nodup := by
    intro cfg
    by_cases hturn : cfg.turnServerHost = []
    · simp only [turnFields, hturn, if_true, List.append_nil, List.map_cons, List.map_nil]
      decide
    · simp only [turnFields, hturn, if_false, List.map_append, List.map_cons, List.map_nil]
      decide
  rw [providerInfo, length_createMessage (hnodup cfg), List.map_append, List.sum_append,
    sum_fieldSize_turnFields]
  simp only [List.map_cons, List.map_nil, List.sum_cons, List.sum_nil, fieldSize, hsdp, hlen,
    hcodec,
    providerInfoSize, Bool.false_eq_true, if_false]
  omega

theorem length_pingText (service : Bytes) (now : Int) :
    (pingText service now).length = 33 + service.length + (stdToString now).length := by
  have hlen : (lit "type=PING\nservice_id=").length = 21 ∧ (lit "\ntimestamp=").length = 11 ∧
      (lit "\n").length = 1 := by decide
  simp only [pingText, List.length_append, hlen]
  omega

/-! ### What a step begins to send -/

/-- Behind an SRT_PEER comes the SRT_PROVIDER, which the phone reads. -/
def Pc.phoneBuffer : Pc → Option Nat
  | .account _ _ (.srtForwarded _ _) => some srtBuffer
  | _ => none

/-- The buffer a message is read into, when it is one for another party: by what comes behind
it, and for an SRT_PROVIDER by what came before it. -/
def receiver (before : Pc) : Then → Option Nat
  | .srtForwarded _ _ => some srtBuffer
  | .forwarded _ _ | .provided _ | .pinged _ _ => some juiceBuffer
  | .recv => before.phoneBuffer
  | _ => none

/-- The message a thread has just begun to send to another party, and the buffer it is read
into. -/
def Pc.begun (before : Pc) : Pc → Option (Nat × Bytes)
  | .sending out next => if out.sent = 0 then (receiver before next).map (·, out.msg) else none
  | _ => none

/-- The message a step has begun to send to another party. -/
def Server.begun (w v : Server) (l : ServerLabel) : Option (Nat × Bytes) :=
  l.tid.bind fun tid ↦ (w.threads tid).bind fun t ↦ (v.threads tid).bind fun t' ↦ t.pc.begun t'.pc

/-- A message for another party can be read into its buffer. -/
def FitsReader (cfg : Config) (w : Server) (l : ServerLabel) : Prop :=
  ∀ v ∈ w.step cfg l, ∀ m ∈ w.begun v l, readInto m.1 m.2 = some m.2

instance (cfg : Config) (w : Server) (l : ServerLabel) : Decidable (FitsReader cfg w l) :=
  inferInstanceAs (Decidable (∀ _ ∈ _, ∀ _ ∈ _, _))

/-- The next ping of a round, by the buffer and its length. -/
def Then.duePing : Then → Option (Nat × Nat)
  | .pinged ((_, service) :: _) round =>
    some (juiceBuffer, 33 + service.length + (stdToString round.now).length)
  | _ => none

/-- What is due behind a message that was sent: an SRT_PROVIDER, or the next ping. -/
def Then.due (cfg : Config) : Then → Option (Nat × Nat)
  | .srtForwarded service provider =>
    some (srtBuffer, 18 + srtSize service provider.srflxIp provider.srflxPort provider.lanIp +
      turnSize cfg)
  | next => next.duePing

/-- The buffer and the length of the message for another party that is due next, from the
strings other parties have said. -/
def Thread.due (cfg : Config) (t : Thread) (now : Int) (r : Registry) : Option (Nat × Nat) :=
  match t.pc with
  | .srtMark req _ =>
    some (srtBuffer, 14 + srtSize req.serviceId req.srflxIp req.srflxPort req.lanIp)
  | .account _ _ next => next.due cfg
  | .requestInstall req =>
    some (juiceBuffer, 78 + req.serviceId.length + t.ip.length + req.consumerSdp.length)
  | .requestErase req _ sdp =>
    some (juiceBuffer, providerInfoSize cfg req.provider (sdp.getD req.provider.sdp))
  | .pingSleep => r.collectPings.1.head?.map fun target ↦
      (juiceBuffer, 33 + target.2.length + (stdToString now).length)
  | _ => none

/-- The same for any event. A ping follows when the one before it is sent to the end, or is
not. -/
def Server.due (cfg : Config) (w : Server) (l : ServerLabel) : Option (Nat × Nat) :=
  l.tid.bind fun tid ↦ (w.threads tid).bind fun t ↦
    match l, t.pc with
    | .run _ now, _ => t.due cfg now w.registry
    | .accepted _ n, .sending out next =>
      if out.sent + n = 4 + out.msg.length then next.duePing else none
    | .sendFail _, .sending _ next => next.duePing
    | _, _ => none

/-- The strings that go into a message for another party are short enough together. -/
def SizesFit (cfg : Config) (w : Server) (l : ServerLabel) : Prop := ∀ m ∈ w.due cfg l, m.2 < m.1

instance (cfg : Config) (w : Server) (l : ServerLabel) : Decidable (SizesFit cfg w l) :=
  inferInstanceAs (Decidable (∀ _ ∈ _, _))

/-- A message by the buffer and its length. -/
def sizeOfMessage (m : Nat × Bytes) : Nat × Nat := (m.1, m.2.length)

/-! ### What is begun is what is due -/

private theorem begun_reply {before : Pc} (h : before.phoneBuffer = none) (fd : Nat) (msg : Bytes) :
    before.begun (reply fd msg .recv) = none := by
  simp [Pc.begun, reply, receiver, h]

private theorem begun_notifyNext (before : Pc) (service : Bytes) (rest failed : List Nat) :
    before.begun (notifyNext service rest failed) = none := by
  unfold notifyNext
  split
  · rfl
  · split <;> rfl

private theorem begun_listNext (before : Pc) (fd : Nat) (rest : List Bytes) :
    before.begun (listNext fd rest) = none := by
  cases rest <;> rfl

private theorem begun_pingRemoveNext (before : Pc) (stale : List Nat) :
    before.begun (pingRemoveNext stale) = none := by
  unfold pingRemoveNext
  split <;> rfl

private theorem begun_pingNext (before : Pc) (rest : List (Nat × Bytes)) (round : PingRound) :
    (before.begun (pingNext rest round)).map sizeOfMessage = (Then.pinged rest round).duePing := by
  cases rest with
  | nil => rfl
  | cons target rest =>
    simp [pingNext, Pc.begun, receiver, sizeOfMessage, length_pingText, Then.duePing]

/-- Behind a message that was sent, only the next ping and, behind an SRT_PEER, the SRT_PROVIDER
are for another party. -/
private theorem begun_ok (cfg : Config) (before : Pc) (fd : Nat) (next : Then) :
    (before.begun (next.ok cfg fd)).map sizeOfMessage =
      match next with
      | .srtForwarded service provider => before.phoneBuffer.map fun size ↦
          (size, 18 + srtSize service provider.srflxIp provider.srflxPort provider.lanIp +
            turnSize cfg)
      | next => next.duePing := by
  cases next with
  | srtForwarded service provider =>
    cases hb : before.phoneBuffer <;>
      simp [Then.ok, reply, Pc.begun, receiver, hb, sizeOfMessage, length_srtProviderMessage]
  | notified service rest failed =>
    rw [Then.ok, begun_notifyNext]
    rfl
  | listed rest =>
    rw [Then.ok, begun_listNext]
    rfl
  | pinged rest round => exact begun_pingNext before rest round
  | _ => rfl

/-- Behind a message that could not be sent, only the next ping is. -/
private theorem begun_fail (cfg : Config) (before : Pc) (fd : Nat) (out : Outgoing)
    (next : Then) :
    (before.begun (next.fail cfg fd out)).map sizeOfMessage = next.duePing := by
  cases next with
  | pinged rest round =>
    apply (begun_pingNext before rest { round with failed := round.failed ++ [out.fd] }).trans
    cases rest <;> rfl
  | notified service rest failed =>
    rw [Then.fail, begun_notifyNext]
    rfl
  | listed rest => exact congrArg (Option.map sizeOfMessage) (begun_listNext before fd rest)
  | _ => rfl

/-- One step of a thread that neither waits nor sends. -/
private theorem begun_run {cfg : Config} {tid : Nat} {t : Thread} {now : Int} {r r' : Registry}
    {pc : Pc} (h : t.run cfg tid now r = some (r', pc)) :
    (t.pc.begun pc).map sizeOfMessage = t.due cfg now r := by
  have hnone : ∀ {x : Option (Nat × Bytes)}, x = none → x.map sizeOfMessage = none :=
    fun h ↦ by rw [h]; rfl
  unfold Thread.run at h
  unfold Thread.due
  cases hpc : t.pc with
  | recv | received | sending | done =>
    simp only [hpc] at h
    cases h
  | srtMark req provider =>
    simp only [hpc] at h
    cases h
    simp [Pc.begun, receiver, sizeOfMessage, length_srtPeerMessage]
  | requestInstall req =>
    simp only [hpc] at h
    cases h
    simp [Pc.begun, receiver, sizeOfMessage, length_consumerConnect]
  | requestErase req slot sdp =>
    simp only [hpc] at h
    cases h
    simp [Pc.begun, reply, receiver, sizeOfMessage, length_providerInfo]
  | account fd bytes next =>
    simp only [hpc] at h
    cases (Registry.locked_some h).2
    rw [begun_ok]
    cases next <;> rfl
  | pingSleep =>
    simp only [hpc] at h
    cases (Registry.locked_some h).2
    rw [begun_pingNext]
    cases r.collectPings.1 <;> rfl
  | notifyCollect service =>
    simp only [hpc] at h
    cases h
    exact hnone (begun_notifyNext ..)
  | subscribeList =>
    simp only [hpc] at h
    cases (Registry.locked_some h).2
    exact hnone (begun_listNext ..)
  | pingCount round =>
    simp only [hpc] at h
    cases (Registry.locked_some h).2
    exact hnone (begun_pingRemoveNext ..)
  | pingClose fd rest =>
    simp only [hpc] at h
    cases h
    exact hnone (begun_pingRemoveNext ..)
  | srtRegister req | srtErase service provider =>
    simp only [hpc] at h
    cases h
    exact hnone (begun_reply rfl ..)
  | requestDropProvider req =>
    simp only [hpc] at h
    cases (Registry.locked_some h).2
    exact hnone (begun_reply rfl ..)
  | registerCheck req =>
    simp only [hpc] at h
    cases (Registry.locked_some h).2
    split <;> rfl
  | srtLookup req =>
    simp only [hpc] at h
    cases h
    split
    · rfl
    · exact hnone (begun_reply rfl ..)
  | requestLookup service sdp =>
    simp only [hpc] at h
    have h := (Registry.locked_some h).2
    split at h
    · cases h
      rfl
    · cases h
      exact hnone (begun_reply rfl ..)
  | requestWait req slot =>
    simp only [hpc] at h
    obtain ⟨-, h⟩ := Option.ite_none_right_eq_some.mp h
    cases h
    rfl
  | sdpFind service sdp answers =>
    simp only [hpc] at h
    cases h
    split <;> rfl
  | pingRemove stale =>
    simp only [hpc] at h
    cases stale with
    | nil =>
      cases h
      rfl
    | cons fd rest =>
      cases (Registry.locked_some h).2
      rfl
  | notifyDrop | subscribe | subscribeUnlock | requestDropSlot | sdpFulfil | leaveSubscribers
    | leaveSrt | closing =>
    simp only [hpc] at h
    cases h
    rfl
  | connected | registerInsert | registerCount | requestStats | requestReset | requestMark | pong
    | portUpdate | sdpStore | providerDisconnected | leaveRegistry =>
    simp only [hpc] at h
    cases (Registry.locked_some h).2
    rfl

/-- A thread that sends goes on behind one `send` call. -/
private theorem begun_advance {cfg : Config} {w u : Server} {l : ServerLabel} {tid reached : Nat}
    {t : Thread} {out : Outgoing} {next : Then} (hl : l.tid = some tid)
    (ht : w.threads tid = some t) (hpc : t.pc = .sending out next) (hreached : 0 < reached) :
    (w.begun (u.advance cfg tid t out next reached) l).map sizeOfMessage =
      if reached = 4 + out.msg.length then next.duePing else none := by
  have hbefore : t.pc.phoneBuffer = none := by rw [hpc]; rfl
  unfold Server.advance
  split
  · simp only [Server.begun, hl, Option.bind_some, ht, Server.put, Function.update_self]
    split
    · next haccounts => cases next <;> first | rfl | cases haccounts
    · rw [begun_ok, hbefore]
      cases next <;> rfl
  · simp only [Server.begun, hl, Option.bind_some, ht, Server.put, Function.update_self, Pc.begun,
      if_neg (Nat.ne_of_gt hreached)]
    rfl

private theorem duePing_of_raw {next : Then} (h : next.raw = true) : next.duePing = none := by
  cases next <;> first | rfl | cases h

private theorem callEnd_pos (out : Outgoing) : 0 < out.callEnd := by
  unfold Outgoing.callEnd
  split <;> omega

/-- What a step begins to send to another party is what is due. -/
theorem begun_eq_due {cfg : Config} {w v : Server} {l : ServerLabel} (h : w.step cfg l = some v) :
    (w.begun v l).map sizeOfMessage = w.due cfg l := by
  cases l with
  | accept fd ip => rfl
  | recv tid stream answers =>
    obtain ⟨t, ht, hpc, rfl⟩ := Server.step_recv h
    simp only [Server.begun, Server.due, ServerLabel.tid, Option.bind_some, ht, hpc, Server.put,
      Function.update_self]
    split <;> rfl
  | run tid now =>
    obtain ⟨t, ht, ⟨msg, answers, hpc, -, ⟨e, he, rfl⟩ | ⟨pc, hp, rfl⟩⟩ | ⟨-, r, pc, hrun, rfl⟩⟩ :=
      Server.step_run h
    · simp only [Server.begun, Server.due, ServerLabel.tid, Option.bind_some, ht, Thread.due, hpc]
      rfl
    · simp only [Server.begun, Server.due, ServerLabel.tid, Option.bind_some, ht, Thread.due, hpc,
        Server.put, Function.update_self]
      cases dispatched_of_dispatch hp <;> rfl
    · simp only [Server.begun, Server.due, ServerLabel.tid, Option.bind_some, ht, Server.put,
        Function.update_self]
      exact begun_run hrun
  | timeout tid =>
    obtain ⟨t, req, slot, ht, hpc, -, rfl⟩ := Server.step_timeout h
    simp only [Server.begun, Server.due, ServerLabel.tid, Option.bind_some, ht, hpc, Server.put,
      Function.update_self]
    rfl
  | accepted tid n =>
    obtain ⟨t, out, next, ht, hpc, ⟨hn, -, -⟩, rfl⟩ := Server.step_accepted h
    have hdue : w.due cfg (.accepted tid n) =
        if out.sent + n = 4 + out.msg.length then next.duePing else none := by
      simp only [Server.due, ServerLabel.tid, Option.bind_some, ht, hpc]
    rw [hdue]
    by_cases hraw : next.raw = true
    · rw [if_pos hraw, begun_advance rfl ht hpc (callEnd_pos out), duePing_of_raw hraw, ite_self,
        ite_self]
    · rw [if_neg hraw]
      exact begun_advance rfl ht hpc (Nat.add_pos_right _ hn)
  | sendFail tid =>
    obtain ⟨t, out, next, ht, hpc, rfl⟩ := Server.step_sendFail h
    have hdue : w.due cfg (.sendFail tid) = next.duePing := by
      simp only [Server.due, ServerLabel.tid, Option.bind_some, ht, hpc]
    rw [hdue]
    by_cases hraw : next.raw = true
    · rw [if_pos hraw, begun_advance rfl ht hpc (callEnd_pos out), duePing_of_raw hraw, ite_self]
    · rw [if_neg hraw]
      simp only [Server.begun, ServerLabel.tid, Option.bind_some, ht, Server.put,
        Function.update_self]
      exact begun_fail ..

/-- At each step the messages begun fit exactly when the strings in them are short enough. -/
theorem fitsReader_iff {cfg : Config} {w v : Server} {l : ServerLabel} (h : w.step cfg l = some v) :
    FitsReader cfg w l ↔ SizesFit cfg w l := by
  have hread : ∀ m : Nat × Bytes, readInto m.1 m.2 = some m.2 ↔ m.2.length < m.1 := by
    intro m
    unfold readInto
    split
    · next hle => simp [hle]
    · next hlt => simpa using hlt
  have hdue := begun_eq_due h
  unfold FitsReader SizesFit
  rw [h, ← hdue]
  simp only [Option.mem_def, Option.some.injEq, forall_eq']
  cases hbegun : w.begun v l with
  | none => simp
  | some m => simp [sizeOfMessage, hread]

/-- In a run every message that goes to another party fits its reader exactly when, at each step
that is to send one, the strings in it are short enough. -/
theorem fitsReader_run {cfg : Config} {ls : List ServerLabel} {w : Server}
    (hr : run (Server.step cfg) .start ls = some w) :
    Always (Server.step cfg) (FitsReader cfg) .start ls ↔
      Always (Server.step cfg) (SizesFit cfg) .start ls :=
  always_iff_always (Server.step cfg) (fun _ _ _ _ ↦ fitsReader_iff) (fun _ _ _ _ _ _ ↦ trivial)
    (show True from trivial) hr

/-- A provider registers. -/
def providerRegisters : List ServerLabel :=
  [.accept 4 (lit "10.0.0.1"), .run 1 0,
    .recv 1 (frame (lit "type=REGISTER\nservice_id=cam\np2p_port=8554\n")) none, .run 1 0,
    .run 1 0, .run 1 0]

/-- A consumer asks for it, up to the CONSUMER_CONNECT. -/
def consumerAsks (consumerSdp : Bytes) : List ServerLabel :=
  [.accept 5 (lit "10.0.0.2"), .run 2 0,
    .recv 2 (frame (lit "type=REQUEST\nservice_id=cam\nconsumer_sdp=" ++ consumerSdp)) none,
    .run 2 0, .run 2 0, .run 2 0, .run 2 0, .run 2 0]

theorem fitsReader_run_short :
    Always (Server.step .unset) (FitsReader .unset) .start
        (providerRegisters ++ consumerAsks (lit "v=0\n")) ∧
      Always (Server.step .unset) (SizesFit .unset) .start
        (providerRegisters ++ consumerAsks (lit "v=0\n")) := by
  have hsome : (run (Server.step .unset) .start
      (providerRegisters ++ consumerAsks (lit "v=0\n"))).isSome = true := by decide +kernel
  obtain ⟨w, hr⟩ := Option.isSome_iff_exists.mp hsome
  have hsizes : Always (Server.step .unset) (SizesFit .unset) .start
      (providerRegisters ++ consumerAsks (lit "v=0\n")) := by decide +kernel
  exact ⟨(fitsReader_run hr).mpr hsizes, hsizes⟩

/-! ### A long request -/

/-- A camera registers its SRT end. -/
def cameraComesUp : List ServerLabel :=
  [.accept 4 (lit "10.0.0.1"), .run 1 0,
    .recv 1 (frame (lit
      "type=SRT_REGISTER\nservice_id=cam\nsrflx_ip=203.0.113.10\nsrflx_port=8554\n")) none,
    .run 1 0, .run 1 0]

/-- What a phone sends. -/
def phoneFields (lanIp : Bytes) : List (Bytes × Bytes) :=
  [(lit "type", lit "SRT_REQUEST"), (lit "service_id", lit "cam"),
    (lit "srflx_ip", lit "203.0.113.20"), (lit "srflx_port", lit "9000"), (lit "lan_ip", lanIp)]

/-- The phone asks for the camera, up to the SRT_PEER. -/
def phoneAsks (lanIp : Bytes) : List ServerLabel :=
  [.accept 5 (lit "10.0.0.2"), .run 2 0,
    .recv 2 (frame (createText (phoneFields lanIp))) none, .run 2 0, .run 2 0, .run 2 0]

private theorem dispatch_phone (cfg : Config) (fd : Nat) {lanIp : Bytes} (hlf : LF ∉ lanIp) :
    dispatch cfg fd (parseMessage (createText (phoneFields lanIp))) none =
      .ok (.srtLookup ⟨lit "cam", lit "203.0.113.20", 9000, lanIp⟩) := by
  have hparse : parseMessage (createText (phoneFields lanIp)) = assign ∅ (phoneFields lanIp) := by
    have hkeys : PlainKey (lit "type") ∧ PlainKey (lit "service_id") ∧ PlainKey (lit "srflx_ip") ∧
        PlainKey (lit "srflx_port") ∧ PlainKey (lit "lan_ip") := by decide
    obtain ⟨htype, hservice, hip, hport, hlan⟩ := hkeys
    apply parseMessage_createText
    simp only [phoneFields, List.forall_mem_cons]
    exact ⟨htype.field (by decide), hservice.field (by decide), hip.field (by decide),
      hport.field (by decide), hlan.field hlf, by simp⟩
  have htype : field (assign ∅ (phoneFields lanIp)) (lit "type") = lit "SRT_REQUEST" := rfl
  have hstoi : stoi (lit "9000") = .ok 9000 := by decide
  have hne : lit "SRT_REQUEST" ≠ lit "REGISTER" ∧ lit "SRT_REQUEST" ≠ lit "SRT_REGISTER" := by
    decide
  have hcomplete : Registry.SrtRequest.incomplete
      ⟨lit "cam", lit "203.0.113.20", 9000, lanIp⟩ = false := rfl
  have hreq : srtRequest (assign ∅ (phoneFields lanIp)) =
      .ok ⟨lit "cam", lit "203.0.113.20", 9000, lanIp⟩ := by
    have hport : (assign ∅ (phoneFields lanIp))[lit "srflx_port"]? = some (lit "9000") := rfl
    simp only [srtRequest, stoiOr0, hport, hstoi]
    rfl
  rw [hparse]
  simp only [dispatch, htype, hne, if_false, if_true, dispatchSrtRequest, hreq]
  simp only [bind, Except.bind, hcomplete]
  rfl

/-- A thread that neither waits nor sends takes its step. -/
private theorem step_thread {cfg : Config} {w : Server} {tid : Nat} {t : Thread} {now : Int}
    {r : Registry} {pc : Pc} (hc : w.crashed = false) (ht : w.threads tid = some t)
    (hrun : t.run cfg tid now w.registry = some (r, pc)) :
    w.step cfg (.run tid now) =
      some { w.put tid t pc with registry := r, answered := w.record t.pc } := by
  simp only [Server.step, hc, Bool.false_eq_true, if_false, Server.act, ht]
  split
  · next hpc =>
    rw [Thread.run, hpc] at hrun
    cases hrun
  · rw [hrun]
    rfl

private theorem recvMessage_frame {msg : Bytes} (h : msg.length ≤ 64 * 1024) :
    recvMessage (frame msg) = some msg := by
  have hread : readBe32 (frame msg) 0 = msg.length := by
    have := readBe32_frame msg []
    rw [List.append_nil] at this
    rw [this, Nat.mod_eq_of_lt (by omega)]
  have hdrop : (frame msg).drop 4 = msg := List.drop_left' (length_be32 _)
  have h4 : ¬ (frame msg).length < 4 := by
    rw [length_frame]
    omega
  rw [recvMessage, if_neg h4, hread, hdrop]
  dsimp only
  rw [if_neg (by omega), if_neg (Nat.lt_irrefl _), List.take_length]

/-- A phone's accepted message, from the connection to the lookup. -/
private theorem run_to_lookup {w : Server} {fd : Nat} (ip : Bytes) {lanIp : Bytes}
    (hcrashed : w.crashed = false) (hfd : fd ∉ w.registry.openFds)
    (hlock : w.registry.lockedBy = none) (hlf : LF ∉ lanIp)
    (hlen : (createText (phoneFields lanIp)).length ≤ 64 * 1024) :
    ∃ v t, run (Server.step .unset) w [.accept fd ip, .run w.spawned 0,
        .recv w.spawned (frame (createText (phoneFields lanIp))) none, .run w.spawned 0] = some v ∧
      v.crashed = false ∧ v.threads w.spawned = some t ∧
      t.pc = .srtLookup ⟨lit "cam", lit "203.0.113.20", 9000, lanIp⟩ ∧
      v.registry.srtProviders = w.registry.srtProviders := by
  have hdispatch := dispatch_phone .unset fd hlf
  have haccount (r : Registry) (bytes : Nat) :
      (r.accountReceived fd bytes).srtProviders = r.srtProviders := by
    unfold Registry.accountReceived Registry.updateFirst
    split <;> rfl
  simp [run_cons, Server.step, Server.act, hcrashed, hfd, Server.put, Thread.run, Registry.locked,
    hlock, Registry.countConnection, recvMessage_frame hlen, hdispatch, haccount]

/-- From the lookup of a camera that is registered the SRT_PEER is two steps away. -/
private theorem not_fits_lookup {cfg : Config} {w : Server} {tid : Nat} {t : Thread}
    {req : Registry.SrtRequest} (hc : w.crashed = false) (ht : w.threads tid = some t)
    (hpc : t.pc = .srtLookup req) (hfound : w.registry.srtProviders.contains req.serviceId = true)
    (hlong : srtBuffer ≤ 14 + srtSize req.serviceId req.srflxIp req.srflxPort req.lanIp) :
    ¬ Always (Server.step cfg) (FitsReader cfg) w [.run tid 0, .run tid 0] := by
  intro hfits
  obtain ⟨provider, hprovider⟩ : ∃ provider, w.registry.srtProviders[req.serviceId]? =
      some provider := by
    rw [Std.ExtTreeMap.contains_eq_isSome_getElem?] at hfound
    exact Option.isSome_iff_exists.mp hfound
  have hlookup : t.run cfg tid 0 w.registry = some (w.registry, .srtMark req provider) := by
    simp only [Thread.run, hpc, hprovider]
  obtain ⟨v, hv, hcrashed, hthread⟩ : ∃ v, w.step cfg (.run tid 0) = some v ∧ v.crashed = false ∧
      v.threads tid = some { t with pc := .srtMark req provider } :=
    ⟨_, step_thread hc ht hlookup, hc, Function.update_self ..⟩
  have hfit : FitsReader cfg v (.run tid 0) := (hfits.2 v hv).1
  have hdue : v.due cfg (.run tid 0) =
      some (srtBuffer, 14 + srtSize req.serviceId req.srflxIp req.srflxPort req.lanIp) := by
    simp only [Server.due, ServerLabel.tid, Option.bind_some, hthread, Thread.due]
  rw [fitsReader_iff (step_thread hcrashed hthread rfl), SizesFit, hdue] at hfit
  exact absurd (hfit _ rfl) (Nat.not_lt.mpr hlong)

/-- A message the server accepts makes it send the camera one that the camera cannot read. -/
theorem not_fitsReader_long : ¬ Always (Server.step .unset) (FitsReader .unset) .start
    (cameraComesUp ++ phoneAsks (List.replicate 8192 65)) := by
  have hrun : ∃ w, run (Server.step .unset) .start cameraComesUp = some w ∧ w.crashed = false ∧
      w.spawned = 2 ∧ 5 ∉ w.registry.openFds ∧ w.registry.lockedBy = none ∧
        w.registry.srtProviders.contains (lit "cam") = true := exists_run _ _ (by decide +kernel)
  obtain ⟨w, hr, hcrashed, hspawned, hfd, hlock, hfound⟩ := hrun
  have hlf : LF ∉ List.replicate 8192 (65 : UInt8) := by
    rw [List.mem_replicate]
    decide
  have hlen : (createText (phoneFields (List.replicate 8192 65))).length ≤ 64 * 1024 := by
    rw [length_createText]
    simp only [phoneFields, List.map_cons, List.map_nil, List.sum_cons, List.sum_nil, fieldSize,
      List.length_replicate]
    decide
  obtain ⟨v, t, hv, hcrashed', ht, hpc, hsame⟩ :=
    run_to_lookup (lit "10.0.0.2") hcrashed hfd hlock hlf hlen
  rw [hspawned] at hv ht
  have hlast : ¬ Always (Server.step .unset) (FitsReader .unset) v [.run 2 0, .run 2 0] := by
    apply not_fits_lookup hcrashed' ht hpc (hsame ▸ hfound)
    simp only [srtSize, List.length_replicate]
    decide
  exact fun h ↦ hlast ((h.of_append _ hr).of_append _ hv)

end Kitty.Signal
