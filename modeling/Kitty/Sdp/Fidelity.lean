import Kitty.Sdp.Relay

/-!
# The remote description on the other side

Neither the provider nor the consumer ever hands on the SDP that was sent: the field behind
it in the message, at least the type, is a line of the text handed on.
-/

namespace Kitty.Sdp

open Kitty.Base Kitty.Signal

/-! ### Messages without NUL -/

/-- No value read so far holds a NUL. -/
structure CleanState (st : ParseState) : Prop where
  current : NUL ∉ st.currentValue
  stored : ∀ key value : Bytes, st.result[key]? = some value → NUL ∉ value

theorem CleanState.insert {st : ParseState} (h : CleanState st) {key value : Bytes}
    (hv : NUL ∉ value) (k v : Bytes)
    (hk : (st.result.insert key value)[k]? = some v) : NUL ∉ v := by
  rw [Std.ExtTreeMap.getElem?_insert] at hk
  split at hk
  · cases hk
    exact hv
  · exact h.stored k v hk

theorem CleanState.parseLine {st : ParseState} (h : CleanState st) {line : Bytes}
    (hl : NUL ∉ line) : CleanState (parseLine st line) := by
  have hdrop : ∀ n, NUL ∉ line.drop n := fun n hm ↦ hl (List.mem_of_mem_drop hm)
  have hlf : NUL ∉ [LF] := by decide
  have hmore : NUL ∉ st.currentValue ++ line ++ [LF] := by
    simp only [List.mem_append, not_or]
    exact ⟨⟨h.current, hl⟩, hlf⟩
  unfold Signal.parseLine
  split
  · split
    · next pos hpos =>
      dsimp only
      split
      · exact ⟨by simpa only [List.mem_append, not_or] using ⟨hdrop _, hlf⟩, h.stored⟩
      · exact ⟨hdrop _, h.insert (hdrop _)⟩
    · exact h
  · split
    · split
      · exact ⟨hmore, h.stored⟩
      · exact ⟨hdrop _, h.insert h.current⟩
    · exact ⟨hmore, h.stored⟩

/-- No value of a message without NUL holds one. -/
theorem nul_not_mem_field {msg : Bytes} (h : NUL ∉ msg) (key : Bytes) :
    NUL ∉ field (parseMessage msg) key := by
  have hfold : ∀ (lines : List Bytes) (st : ParseState), (∀ line ∈ lines, NUL ∉ line) →
      CleanState st → CleanState (lines.foldl Signal.parseLine st) := by
    intro lines
    induction lines with
    | nil => exact fun st _ hst ↦ hst
    | cons line lines ih =>
      exact fun st hl hst ↦ ih _ (fun l hm ↦ hl l (List.mem_cons_of_mem _ hm))
        (hst.parseLine (hl line (List.mem_cons_self ..)))
  have hend := hfold (getlines msg) .start (fun line hm hn ↦ h (mem_of_mem_getlines hm hn))
    ⟨by simp [ParseState.start], by simp [ParseState.start]⟩
  unfold field parseMessage
  rw [getElem?_finish]
  split
  · exact hend.current
  · cases hv : ((getlines msg).foldl Signal.parseLine .start).result[key]? with
    | none => simp
    | some value => exact hend.stored key value hv

/-! ### A line that is no SDP line -/

/-- An SDP text: each line ends, and begins with one of the letters and `=`. -/
structure SdpText (sdp : Bytes) : Prop where
  terminated : Terminated sdp
  lines : ∀ e ∈ sdpLines sdp, isSdpLine e.1 = true

/-- A line of another field, as the last one of a message. -/
structure FieldLine (w : Bytes) : Prop where
  noCr : CR ∉ w
  noLf : LF ∉ w
  notEmpty : w ≠ []
  undropped : dropLine w = false
  other : isSdpLine w = false

/-- A text that ends with such a line is not written as an SDP text is. -/
theorem sanitized_ne {sdp clean rest out w : Bytes} {size size' dropped dropped' : Nat}
    (hsdp : SdpText sdp) (hclean : sanitizeRemoteSdp sdp size = some (clean, dropped))
    (hw : FieldLine w) (hrest : LF :: (w ++ [LF]) <:+ rest)
    (hout : sanitizeRemoteSdp rest size' = some (out, dropped')) : out ≠ clean := by
  obtain ⟨p, rfl⟩ := hrest
  have hterm : Terminated (p ++ [LF]) := by simp [Terminated]
  have hline : IsLine (w, [LF]) := ⟨hw.noCr, hw.noLf, .inl rfl⟩
  have hhead : (w ++ [LF]).head? ≠ some LF := fun h ↦ by
    obtain ⟨b, w', hb⟩ := List.exists_cons_of_ne_nil hw.notEmpty
    rw [hb] at h
    exact hw.noLf (by rw [hb, ← Option.some.inj h]; exact List.mem_cons_self ..)
  have hlast : sdpLines (w ++ [LF] ++ []) = (w, [LF]) :: sdpLines [] :=
    sdpLines_line hline (by simp)
  rw [List.append_nil] at hlast
  have hlines : sdpLines (p ++ LF :: (w ++ [LF])) = sdpLines (p ++ [LF]) ++ [(w, [LF])] := by
    have hsplit : p ++ LF :: (w ++ [LF]) = p ++ [LF] ++ (w ++ [LF]) := by simp
    rw [hsplit, sdpLines_append hterm hhead, hlast]
    rfl
  have hwritten := sanitizeRemoteSdp_eq hout
  rw [hlines, List.flatMap_append, List.flatMap_singleton, kept, if_neg (by simp [hw.undropped])]
    at hwritten
  -- The line is one of the text written, and the lines written of an SDP text are its own.
  have hread : sdpLines out =
      sdpLines ((sdpLines (p ++ [LF])).flatMap kept) ++ [(w, [LF])] := by
    rw [hwritten, sdpLines_append (terminated_kept (isLine_of_mem hterm)) hhead, hlast]
    rfl
  intro he
  have hmem : (w, [LF]) ∈ sdpLines clean := by
    rw [← he, hread]
    exact List.mem_append_right _ (List.mem_singleton_self _)
  have hproper : ∀ e ∈ sdpLines sdp, IsLine e ∧ e.1 ≠ [] := fun e hm ↦
    ⟨isLine_of_mem hsdp.terminated e hm, fun hnil ↦ by
      have := hsdp.lines e hm
      rw [hnil] at this
      cases this⟩
  rw [sanitizeRemoteSdp_eq hclean, sdpLines_kept hproper] at hmem
  have := hsdp.lines _ (List.mem_filter.mp hmem).1
  rw [hw.other] at this
  cases this

/-! ### The two messages -/

theorem createMessage_consumerConnect (service ip sdp : Bytes) :
    createMessage (consumerConnect service ip sdp) =
      lit "consumer_ip=" ++ ip ++ lit "\n" ++ (lit "consumer_sdp=" ++ (sdp ++
        lit "force_reconnect=1\nservice_id=" ++ service ++ lit "\ntype=CONSUMER_CONNECT\n")) := by
  have hlist : (consumerConnect service ip sdp).toList =
      [(lit "consumer_ip", ip), (lit "consumer_sdp", sdp), (lit "force_reconnect", lit "1"),
        (lit "service_id", service), (lit "type", lit "CONSUMER_CONNECT")] := rfl
  rw [createMessage, hlist]
  simp only [createText, List.flatMap_cons, List.flatMap_nil, fieldText, List.append_assoc,
    List.cons_append, List.append_nil]
  rfl

/-- The TURN fields of a PROVIDER_INFO, each behind a newline. -/
def turnText (cfg : Config) : Bytes :=
  if cfg.turnServerHost = [] then []
  else lit "\nturn_host=" ++ cfg.turnServerHost ++ lit "\nturn_password=" ++ cfg.turnPassword ++
    lit "\nturn_port=" ++ stdToString cfg.turnServerPort ++
    lit "\nturn_username=" ++ cfg.turnUsername

/-- The fields of a PROVIDER_INFO before the SDP. -/
def providerText (provider : ProviderInfo) : Bytes :=
  lit "codec=" ++ (if provider.serviceCodec = [] then lit "h264" else provider.serviceCodec) ++
    lit "\nconsumer_port=" ++ stdToString provider.desiredConsumerPort ++ lit "\nprotocol=" ++
    provider.serviceProtocol ++ lit "\nprovider_ip=" ++ provider.ip ++ lit "\nprovider_peer_id=" ++
    provider.peerId ++ lit "\nprovider_port=" ++ stdToString provider.p2pPort ++ lit "\n"

theorem createMessage_providerInfo (cfg : Config) (provider : ProviderInfo) (sdp : Bytes) :
    createMessage (providerInfo cfg provider sdp) = providerText provider ++
      (lit "provider_sdp=" ++ (sdp ++ turnText cfg ++ lit "\ntype=PROVIDER_INFO\n")) := by
  by_cases hturn : cfg.turnServerHost = []
  · have hlist : (providerInfo cfg provider sdp).toList =
        [(lit "codec", if provider.serviceCodec = [] then lit "h264" else provider.serviceCodec),
          (lit "consumer_port", stdToString provider.desiredConsumerPort),
          (lit "protocol", provider.serviceProtocol), (lit "provider_ip", provider.ip),
          (lit "provider_peer_id", provider.peerId),
          (lit "provider_port", stdToString provider.p2pPort),
          (lit "provider_sdp", sdp), (lit "type", lit "PROVIDER_INFO")] := by
      rw [providerInfo, turnFields, if_pos hturn]
      rfl
    rw [createMessage, hlist, turnText, if_pos hturn, providerText]
    simp only [createText, List.flatMap_cons, List.flatMap_nil, fieldText, List.append_assoc,
      List.cons_append, List.append_nil]
    rfl
  · have hlist : (providerInfo cfg provider sdp).toList =
        [(lit "codec", if provider.serviceCodec = [] then lit "h264" else provider.serviceCodec),
          (lit "consumer_port", stdToString provider.desiredConsumerPort),
          (lit "protocol", provider.serviceProtocol), (lit "provider_ip", provider.ip),
          (lit "provider_peer_id", provider.peerId),
          (lit "provider_port", stdToString provider.p2pPort),
          (lit "provider_sdp", sdp), (lit "turn_host", cfg.turnServerHost),
          (lit "turn_password", cfg.turnPassword),
          (lit "turn_port", stdToString cfg.turnServerPort),
          (lit "turn_username", cfg.turnUsername), (lit "type", lit "PROVIDER_INFO")] := by
      rw [providerInfo, turnFields, if_neg hturn]
      rfl
    rw [createMessage, hlist, turnText, if_neg hturn, providerText]
    simp only [createText, List.flatMap_cons, List.flatMap_nil, fieldText, List.append_assoc,
      List.cons_append, List.append_nil]
    rfl

/-! ### Neither direction -/

/-- What is taken behind the name of a field is not the SDP, when another field's line ends
the message. -/
theorem remoteSdp_ne {name : String} {sdp clean pre rest w : Bytes} {size dropped : Nat}
    (hsdp : SdpText sdp) (hclean : sanitizeRemoteSdp sdp size = some (clean, dropped))
    (hw : FieldLine w) (hrest : LF :: (w ++ [LF]) <:+ rest) :
    remoteSdp name (pre ++ (lit name ++ rest)) ≠ some clean := by
  intro h
  obtain ⟨found, hfound, h⟩ := Option.bind_eq_some_iff.mp h
  obtain ⟨sanitized, hs, h⟩ := Option.bind_eq_some_iff.mp h
  exact sanitized_ne hsdp hclean hw (hrest.trans (strstr_drop hfound)) hs (Option.some.inj h)

theorem handleConsumerConnect_eq {svc : ServiceState} {now : Int} {created : Bool}
    {msg text : Bytes} (h : handleConsumerConnect svc now created msg = some text) :
    remoteSdp "consumer_sdp=" msg = some text := by
  unfold handleConsumerConnect at h
  dsimp only at h
  split at h
  · cases h
  · split at h
    · cases h
    · split at h
      · cases h
      · exact h

theorem providerReceives_eq {services : List ServiceState} {now : Int} {created : Bool}
    {msg text : Bytes} (h : providerReceives services now created msg = some text) :
    remoteSdp "consumer_sdp=" (cstr msg) = some text := by
  obtain ⟨consumerMsg, hmsg, h⟩ := Option.bind_eq_some_iff.mp h
  unfold recvBuffer at hmsg
  split at hmsg
  · cases hmsg
  · cases hmsg
    split at h
    · cases h
    · split at h
      · cases h
      · obtain ⟨svc, -, h⟩ := Option.bind_eq_some_iff.mp h
        exact handleConsumerConnect_eq h

/-- The texts of a configuration and of a provider, without NUL. -/
structure OfStrings (cfg : Config) (provider : ProviderInfo) : Prop where
  turnServerHost : NUL ∉ cfg.turnServerHost
  turnUsername : NUL ∉ cfg.turnUsername
  turnPassword : NUL ∉ cfg.turnPassword
  ip : NUL ∉ provider.ip
  peerId : NUL ∉ provider.peerId
  serviceProtocol : NUL ∉ provider.serviceProtocol
  serviceCodec : NUL ∉ provider.serviceCodec

theorem toProvider_ne {sdp clean : Bytes} {dropped : Nat} (hsdp : SdpText sdp)
    (hclean : sanitizeRemoteSdp sdp maxSdpLen = some (clean, dropped)) (camera peer : Bytes)
    {ip : Bytes} (hip : NUL ∉ ip) (services : List ServiceState) (now : Int) (created : Bool) :
    toProvider camera peer sdp ip services now created ≠ some clean := by
  intro h
  have hrequest : NUL ∉ requestText camera peer sdp := nul_not_mem_snprintf _ _
  have hnul : NUL ∉ forwardedConnect (requestText camera peer sdp) ip := by
    rw [forwardedConnect, createMessage_consumerConnect]
    simp only [List.mem_append, not_or]
    exact ⟨⟨⟨by decide, hip⟩, by decide⟩, by decide,
      ⟨⟨nul_not_mem_field hrequest _, by decide⟩, nul_not_mem_field hrequest _⟩, by decide⟩
  have htext := providerReceives_eq h
  rw [cstr_of_nul_not_mem hnul, forwardedConnect, createMessage_consumerConnect] at htext
  have hw : FieldLine (lit "type=CONSUMER_CONNECT") :=
    ⟨by decide, by decide, by decide, by decide, by decide⟩
  exact remoteSdp_ne hsdp hclean hw (List.suffix_append _ _) htext

theorem connectToCameraAttempt_eq {response text : Bytes}
    (h : connectToCameraAttempt response = some text) :
    remoteSdp "provider_sdp=" response = some text := by
  unfold connectToCameraAttempt at h
  split at h
  · cases h
  · split at h
    · cases h
    · split at h
      · cases h
      · exact h

theorem reconnectCameraIceAttempt_eq {response text : Bytes}
    (h : reconnectCameraIceAttempt response = some text) :
    remoteSdp "provider_sdp=" response = some text := by
  unfold reconnectCameraIceAttempt at h
  split at h
  · cases h
  · exact h

theorem toConsumer_ne {sdp clean : Bytes} {dropped : Nat} (hsdp : SdpText sdp)
    (hclean : sanitizeRemoteSdp sdp maxSdpLen = some (clean, dropped))
    {attempt : Bytes → Option Bytes}
    (hattempt : ∀ response text, attempt response = some text →
      remoteSdp "provider_sdp=" response = some text)
    {cfg : Config} {provider : ProviderInfo} (hof : OfStrings cfg provider) {used : Bytes}
    (hused : NUL ∉ used) : toConsumer attempt cfg provider used ≠ some clean := by
  intro h
  obtain ⟨response, hresponse, h⟩ := Option.bind_eq_some_iff.mp h
  have hturn : NUL ∉ turnText cfg := by
    unfold turnText
    split
    · simp
    · simp only [List.mem_append, not_or]
      exact ⟨⟨⟨⟨⟨⟨⟨by decide, hof.turnServerHost⟩, by decide⟩, hof.turnPassword⟩, by decide⟩,
        nul_not_mem_stdToString _⟩, by decide⟩, hof.turnUsername⟩
  have hcodec :
      NUL ∉ (if provider.serviceCodec = [] then lit "h264" else provider.serviceCodec) := by
    split
    · decide
    · exact hof.serviceCodec
  have hprovider : NUL ∉ providerText provider := by
    simp only [providerText, List.mem_append, not_or]
    exact ⟨⟨⟨⟨⟨⟨⟨⟨⟨⟨⟨⟨by decide, hcodec⟩, by decide⟩, nul_not_mem_stdToString _⟩, by decide⟩,
      hof.serviceProtocol⟩, by decide⟩, hof.ip⟩, by decide⟩, hof.peerId⟩, by decide⟩,
      nul_not_mem_stdToString _⟩, by decide⟩
  have hnul : NUL ∉ createMessage (providerInfo cfg provider used) := by
    rw [createMessage_providerInfo]
    simp only [List.mem_append, not_or]
    exact ⟨hprovider, by decide, ⟨hused, hturn⟩, by decide⟩
  unfold recvBuffer at hresponse
  split at hresponse
  · cases hresponse
  · cases hresponse
    have htext := hattempt _ _ h
    rw [cstr_of_nul_not_mem hnul, createMessage_providerInfo] at htext
    have hw : FieldLine (lit "type=PROVIDER_INFO") :=
      ⟨by decide, by decide, by decide, by decide, by decide⟩
    exact remoteSdp_ne hsdp hclean hw (List.suffix_append _ _) htext

/-- In no case is the text handed to the agent of the other side the sanitized SDP: not of a
consumer's REQUEST, and not of a provider's REGISTER or SDP_READY. -/
theorem handed_ne {sdp clean : Bytes} {dropped : Nat} (hsdp : SdpText sdp)
    (hclean : sanitizeRemoteSdp sdp maxSdpLen = some (clean, dropped)) :
    (∀ camera peer ip : Bytes, NUL ∉ ip → ∀ services now created,
      toProvider camera peer sdp ip services now created ≠ some clean) ∧
    ∀ cfg provider, OfStrings cfg provider → ∀ request,
      (∃ svc apiToken, request = registerText svc apiToken sdp) ∨
        (∃ service, request = sdpReadyText service sdp) →
      toConsumer connectToCameraAttempt cfg provider (field (parseMessage request) (lit "sdp")) ≠
          some clean ∧
        toConsumer reconnectCameraIceAttempt cfg provider
          (field (parseMessage request) (lit "sdp")) ≠ some clean := by
  refine ⟨fun camera peer ip hip services now created ↦
    toProvider_ne hsdp hclean camera peer hip services now created,
    ?_⟩
  intro cfg provider hof request hr
  have hrequest : NUL ∉ request := by
    rcases hr with ⟨svc, apiToken, rfl⟩ | ⟨service, rfl⟩ <;> exact nul_not_mem_snprintf _ _
  exact ⟨toConsumer_ne hsdp hclean (fun _ _ ↦ connectToCameraAttempt_eq) hof
      (nul_not_mem_field hrequest _),
    toConsumer_ne hsdp hclean (fun _ _ ↦ reconnectCameraIceAttempt_eq) hof
      (nul_not_mem_field hrequest _)⟩

theorem handed_ne_versionLine :
    toProvider (lit "cam") (lit "web") (lit "v=0\n") (lit "10.0.0.2")
        [⟨lit "cam", false, false, 0⟩] 0
      true ≠ some (lit "v=0\n") :=
  (handed_ne ⟨by decide, by decide⟩ (show sanitizeRemoteSdp (lit "v=0\n") maxSdpLen =
    some (lit "v=0\n", 0) by decide)).1 _ _ _ (by decide) _ _ _

/-- A camera on the server. -/
def cameraInfo : ProviderInfo where
  peerId := lit "provider1"
  ip := lit "10.0.0.1"
  p2pPort := 8554
  sdp := []
  serviceProtocol := lit "rtsp"
  serviceCodec := lit "h264"
  socketFd := 4
  connectedAt := 0
  messagesSent := 0
  messagesReceived := 1
  bytesSent := 0
  bytesReceived := 0
  consumerIp := []
  hasConsumer := false
  consumerPort := 0
  desiredConsumerPort := 0
  firstSeen := 0
  lastDisconnect := 0
  totalDowntime := 0
  disconnectCount := 0
  lastPingAt := 0
  lastPongAt := 0
  missedPongs := 0

/-- An SDP of one line arrives with the fields that come behind it in the message. -/
theorem handed_fieldsBehind :
    sanitizeRemoteSdp (lit "v=0\n") maxSdpLen = some (lit "v=0\n", 0) ∧
    toProvider (lit "cam") (lit "web") (lit "v=0\n") (lit "10.0.0.2")
        [⟨lit "cam", false, false, 0⟩] 0
      true = some (lit "v=0\nforce_reconnect=1\nservice_id=cam\ntype=CONSUMER_CONNECT\n") ∧
    toConsumer connectToCameraAttempt .unset cameraInfo
      (field (parseMessage (sdpReadyText (lit "cam") (lit "v=0\n"))) (lit "sdp")) =
        some (lit "v=0\n\ntype=PROVIDER_INFO\n") := by
  exact ⟨by decide, by decide +kernel, by decide +kernel⟩

end Kitty.Sdp
