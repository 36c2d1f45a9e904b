import Kitty.Sdp.Relay
import Kitty.Srt.RegisterText

/-!
# The two ends of a rendezvous

The camera and the phone tell the server where they can be reached, and each is told where the
other can be; `src/ap2p/srt_thread.c:652–703,805–832`,
`src/consumer-srt-android/consumer_srt_p2p.c:560–632` and
`src/signaling-server/signaling_server.cpp:1563–1719`. Behind one NAT both dial the LAN address
of the other, but with the port the NAT has mapped.
-/

namespace Kitty.Srt

open Kitty.Base Kitty.Signal Kitty.Ap2p
open Kitty.Sdp (recvBuffer)

/-! ### The programs -/

/-- A rendezvous as one end attempts it. -/
structure Dial where
  path : Path
  ip : Bytes
  port : Int
  deriving DecidableEq

/-- What the camera dials when it receives a message. -/
def cameraDials (srflx : EdgeBinding) (localPort : Int) (msg : Bytes) : Option Dial := do
  let inbuf ← recvBuffer 8192 msg
  if kvGet inbuf (lit "type") 64 ≠ lit "SRT_PEER" then none
  else
    let req ← srtPeerRequest srflx localPort (peerFields inbuf)
    return ⟨peerPath srflx (peerFields inbuf), req.peerIp, req.peerPort⟩

/-- What the phone dials when it receives the answer to its request. -/
def phoneDials (srflx : EdgeBinding) (msg : Bytes) : Option Dial := do
  let inbuf ← recvBuffer 8192 msg
  if kvGet inbuf (lit "type") 64 ≠ lit "SRT_PROVIDER" then none
  else
    let peer := peerFields inbuf
    if peer.srflxIp = [] ∨ peer.srflxPort ≤ 0 then none
    else return ⟨peerPath srflx peer, peerIp peer (peerPath srflx peer), peer.srflxPort⟩

/-- The messages the server sends to the camera and to the phone when it has the camera's
registration and then gets the phone's request. -/
def relayed (cfg : Config) (r : Registry) (now : Int) (cameraFd phoneFd : Nat)
    (register request : Bytes) : Option (Bytes × Bytes) :=
  match dispatch cfg cameraFd (parseMessage register) none with
  | .ok (.srtRegister camera) =>
    match dispatch cfg phoneFd (parseMessage request) none with
    | .ok (.srtLookup phone) =>
      ((r.srtRegister camera cameraFd now).srtProviders[phone.serviceId]?).map fun provider ↦
        (srtPeerMessage phone, srtProviderMessage cfg phone.serviceId provider)
    | _ => none
  | _ => none

/-! ### The ends -/

/-- Where one end can be reached: its public address and port, the address it has on its LAN,
which may be unknown, and the port its UDP socket is bound to. -/
structure SrtEnd where
  srflxIp : Bytes
  srflxPort : Nat
  lanIp : Bytes
  localPort : Nat
  srflx_ne : srflxIp ≠ []
  srflx_text : FieldText 64 srflxIp
  lan_text : FieldText 64 lanIp
  port_pos : 0 < srflxPort
  port_lt : srflxPort < 2 ^ 16

namespace SrtEnd

/-- The binding an end has found. -/
def binding (e : SrtEnd) : EdgeBinding := ⟨e.srflxIp, e.srflxPort⟩

/-- The endpoint of an end on a path. -/
def endpoint (e : SrtEnd) : Path → Bytes × Int
  | .lan => (e.lanIp, e.localPort)
  | .srflx => (e.srflxIp, e.srflxPort)

/-- What an end says about itself. -/
def peer (e : SrtEnd) : PeerFields := ⟨e.srflxIp, e.srflxPort, e.lanIp⟩

end SrtEnd

/-- Camera and phone, both having registered and asked for one service, and what each of them
dials. -/
def rendezvous (cfg : Config) (r : Registry) (now : Int) (cameraFd phoneFd : Nat)
    (service ctrlToken : Bytes) (camera phone : SrtEnd) : Option (Dial × Dial) := do
  let (peerMsg, providerMsg) ← relayed cfg r now cameraFd phoneFd
    (registerText service ctrlToken camera.binding camera.lanIp)
    (requestText service phone.binding phone.lanIp)
  let cameraDial ← cameraDials camera.binding camera.localPort peerMsg
  let phoneDial ← phoneDials phone.binding providerMsg
  return (cameraDial, phoneDial)

/-! ### What the server reads -/

/-- The fields of an SRT_REGISTER or an SRT_REQUEST. -/
def endFields (type : String) (service : Bytes) (e : SrtEnd) (token : Bytes) :
    List (Bytes × Bytes) :=
  [(lit "type", lit type), (lit "service_id", service), (lit "srflx_ip", e.srflxIp),
    (lit "srflx_port", stdToString e.srflxPort)] ++ optionalField "lan_ip" e.lanIp ++
    optionalField "api_token" token

theorem endFields_eq (type : String) (service : Bytes) (e : SrtEnd) (token : Bytes) :
    endFields type service e token = addressFields type service e.binding e.lanIp token := rfl

/-- A port is a number an `int` holds. -/
theorem SrtEnd.port_int (e : SrtEnd) : InIntRange e.binding.srflxPort := by
  have hport := e.port_lt
  change -2 ^ 31 ≤ (e.srflxPort : Int) ∧ (e.srflxPort : Int) < 2 ^ 31
  omega

/-- The camera's registration is its fields. -/
theorem registerText_eq {service token : Bytes} (hservice : FieldText 256 service)
    (htoken : FieldText 128 token) (e : SrtEnd) :
    registerText service token e.binding e.lanIp =
      createText (endFields "SRT_REGISTER" service e token) :=
  snprintf_addressFormat (show lit "type=SRT_REGISTER\nservice_id=" = lit "type=" ++
    lit "SRT_REGISTER" ++ lit "\nservice_id=" from rfl) (by decide) (by decide) (by decide) hservice
    e.srflx_text e.port_int e.lan_text htoken

/-- The phone's request is its fields. -/
theorem requestText_eq {service : Bytes} (hservice : FieldText 256 service) (e : SrtEnd) :
    requestText service e.binding e.lanIp = createText (endFields "SRT_REQUEST" service e []) := by
  have hend := snprintf_addressFormat (show lit "type=SRT_REQUEST\nservice_id=" = lit "type=" ++
    lit "SRT_REQUEST" ++ lit "\nservice_id=" from rfl) (by decide) (by decide)
    (show 1024 ≤ 2048 by decide) hservice e.srflx_text e.port_int e.lan_text
    (show FieldText 128 [] from ⟨by decide, by decide, by decide⟩)
  rw [addressFormat, show optionalLine "api_token=" [] = [] from rfl, List.append_nil] at hend
  exact hend

private theorem plain_endFields {type : String} (htype : LF ∉ lit type) {service token : Bytes}
    (hservice : LF ∉ service) (htoken : LF ∉ token) (e : SrtEnd) :
    ∀ f ∈ endFields type service e token, PlainField f := by
  rw [endFields_eq]
  exact plain_addressFields htype hservice e.srflx_text.lf e.lan_text.lf htoken

/-- What an end says about itself, for a service. -/
def SrtEnd.request (e : SrtEnd) (service : Bytes) : Registry.SrtRequest :=
  ⟨service, e.srflxIp, e.srflxPort, e.lanIp⟩

private theorem srtRequest_endFields (type : String) (service token : Bytes) (e : SrtEnd) :
    srtRequest (assign ∅ (endFields type service e token)) = .ok (e.request service) := by
  rw [endFields_eq, srtRequest_addressFields _ _ e.port_int]
  rfl

private theorem incomplete_request {service : Bytes} (hservice : service ≠ []) (e : SrtEnd) :
    (e.request service).incomplete = false := by
  have hport := e.port_pos
  simp [Registry.SrtRequest.incomplete, SrtEnd.request, hservice, e.srflx_ne]
  omega

/-- The camera's registration, up to its lock. -/
theorem dispatch_register (cfg : Config) (fd : Nat) {service token : Bytes} (hne : service ≠ [])
    (hservice : FieldText 256 service) (htoken : FieldText 128 token) (e : SrtEnd) :
    dispatch cfg fd (parseMessage (registerText service token e.binding e.lanIp)) none =
      if badToken cfg (assign ∅ (endFields "SRT_REGISTER" service e token)) then
        .ok (reply fd (errorMessage "Authentication failed" []) .leave)
      else .ok (.srtRegister (e.request service)) := by
  rw [registerText_eq hservice htoken,
    parseMessage_createText (plain_endFields (by decide) hservice.lf htoken.lf e)]
  have htype : field (assign ∅ (endFields "SRT_REGISTER" service e token)) (lit "type") =
      lit "SRT_REGISTER" := (read_addressFields _ _ e.binding _ _).type_eq
  have hkinds : lit "SRT_REGISTER" ≠ lit "REGISTER" := by decide
  simp only [dispatch, htype, if_neg hkinds, if_true, dispatchSrtRegister, srtRequest_endFields]
  change (if (e.request service).incomplete = true then _ else _) = _
  rw [incomplete_request hne, if_neg Bool.false_ne_true]
  split <;> rfl

/-- The phone's request, up to its lock. -/
theorem dispatch_request (cfg : Config) (fd : Nat) {service : Bytes} (hne : service ≠ [])
    (hservice : FieldText 256 service) (e : SrtEnd) :
    dispatch cfg fd (parseMessage (requestText service e.binding e.lanIp)) none =
      .ok (.srtLookup (e.request service)) := by
  rw [requestText_eq hservice,
    parseMessage_createText (plain_endFields (by decide) hservice.lf (by decide) e)]
  have htype : field (assign ∅ (endFields "SRT_REQUEST" service e [])) (lit "type") =
      lit "SRT_REQUEST" := (read_addressFields _ _ e.binding _ _).type_eq
  have hkinds : lit "SRT_REQUEST" ≠ lit "REGISTER" ∧ lit "SRT_REQUEST" ≠ lit "SRT_REGISTER" := by
    decide
  simp only [dispatch, htype, if_neg hkinds.1, if_neg hkinds.2, if_true, dispatchSrtRequest,
    srtRequest_endFields]
  change (if (e.request service).incomplete = true then _ else _) = _
  rw [incomplete_request hne, if_neg Bool.false_ne_true]
  rfl

/-! ### What the two ends read -/

/-- The TURN fields as they stand in a message. -/
def turnLines (cfg : Config) : List (Bytes × Bytes) :=
  if cfg.turnServerHost = [] then []
  else [(lit "turn_host", cfg.turnServerHost), (lit "turn_password", cfg.turnPassword),
    (lit "turn_port", stdToString cfg.turnServerPort), (lit "turn_username", cfg.turnUsername)]

/-- The fields of an SRT_PEER or SRT_PROVIDER in the order of the map. -/
def peerList (type : String) (service : Bytes) (e : SrtEnd) (turn : List (Bytes × Bytes)) :
    List (Bytes × Bytes) :=
  optionalField "lan_ip" e.lanIp ++ [(lit "service_id", service), (lit "srflx_ip", e.srflxIp),
    (lit "srflx_port", stdToString e.srflxPort)] ++ turn ++ [(lit "type", lit type)]

theorem srtPeerMessage_eq (service : Bytes) (e : SrtEnd) :
    srtPeerMessage (e.request service) = createText (peerList "SRT_PEER" service e []) := by
  rw [srtPeerMessage, createMessage, srtFields, peerList, optionalField]
  by_cases hlan : e.lanIp = []
  · rw [if_pos (show (e.request service).lanIp = [] from hlan), if_pos hlan]
    rfl
  · rw [if_neg (show ¬(e.request service).lanIp = [] from hlan), if_neg hlan]
    rfl

theorem srtProviderMessage_eq (cfg : Config) (service : Bytes) (e : SrtEnd)
    {provider : SrtProviderInfo} (hip : provider.srflxIp = e.srflxIp)
    (hport : provider.srflxPort = e.srflxPort) (hlan : provider.lanIp = e.lanIp) :
    srtProviderMessage cfg service provider =
      createText (peerList "SRT_PROVIDER" service e (turnLines cfg)) := by
  rw [srtProviderMessage, createMessage, srtFields, hip, hport, hlan, turnFields, peerList,
    optionalField, turnLines]
  by_cases hlan : e.lanIp = []
  · by_cases hturn : cfg.turnServerHost = []
    · rw [if_pos hlan, if_pos hturn, if_pos hturn]
      rfl
    · rw [if_pos hlan, if_neg hturn, if_neg hturn]
      rfl
  · by_cases hturn : cfg.turnServerHost = []
    · rw [if_neg hlan, if_pos hturn, if_pos hturn]
      rfl
    · rw [if_neg hlan, if_neg hturn, if_neg hturn]
      rfl

/-- The TURN texts of a configuration file, which is read line by line. -/
structure ConfigTexts (cfg : Config) : Prop where
  host : LF ∉ cfg.turnServerHost ∧ NUL ∉ cfg.turnServerHost
  username : LF ∉ cfg.turnUsername ∧ NUL ∉ cfg.turnUsername
  password : LF ∉ cfg.turnPassword ∧ NUL ∉ cfg.turnPassword

/-- The fields a reader can tell apart: each is a line, and none has a NUL. -/
structure Readable (es : List (Bytes × Bytes)) : Prop where
  plain : ∀ e ∈ es, PlainField e
  nul : ∀ e ∈ es, NUL ∉ e.1 ∧ NUL ∉ e.2

private theorem Readable.append {es fs : List (Bytes × Bytes)} (h : Readable es)
    (h' : Readable fs) : Readable (es ++ fs) where
  plain e he := (List.mem_append.mp he).elim (h.plain e) (h'.plain e)
  nul e he := (List.mem_append.mp he).elim (h.nul e) (h'.nul e)

private theorem Readable.cons {key value : Bytes} {es : List (Bytes × Bytes)} (h : Readable es)
    (hkey : PlainKey key) (hnul : NUL ∉ key) (hvalue : LF ∉ value ∧ NUL ∉ value) :
    Readable ((key, value) :: es) where
  plain e he := (List.mem_cons.mp he).elim (fun h ↦ h ▸ hkey.field hvalue.1) (h.plain e)
  nul e he := (List.mem_cons.mp he).elim (fun h ↦ h ▸ ⟨hnul, hvalue.2⟩) (h.nul e)

private theorem Readable.nil : Readable [] :=
  ⟨fun _ he ↦ absurd he List.not_mem_nil, fun _ he ↦ absurd he List.not_mem_nil⟩

private theorem lf_not_mem_int (v : Int) : LF ∉ stdToString v := by
  unfold stdToString
  split
  · intro h
    rcases List.mem_cons.mp h with h | h
    · cases h
    · exact absurd (isDigit_of_mem_decimal h) (by decide)
  · exact fun h ↦ absurd (isDigit_of_mem_decimal h) (by decide)

private theorem readable_turnLines {cfg : Config} (h : ConfigTexts cfg) :
    Readable (turnLines cfg) := by
  rw [turnLines]
  split
  · exact .nil
  · have hport := And.intro (lf_not_mem_int cfg.turnServerPort)
      (nul_not_mem_stdToString cfg.turnServerPort)
    exact .cons (.cons (.cons (.cons .nil (by decide) (by decide) h.username) (by decide)
      (by decide) hport) (by decide) (by decide) h.password) (by decide) (by decide) h.host

private theorem readable_peerList {type : String} (htype : LF ∉ lit type ∧ NUL ∉ lit type)
    {service : Bytes} (hservice : FieldText 256 service) (e : SrtEnd)
    {turn : List (Bytes × Bytes)} (hturn : Readable turn) :
    Readable (peerList type service e turn) := by
  have hlan : Readable (optionalField "lan_ip" e.lanIp) := by
    rw [optionalField]
    split
    · exact .nil
    · exact .cons .nil (by decide) (by decide) ⟨e.lan_text.lf, e.lan_text.nul⟩
  have hport := And.intro (lf_not_mem_int e.srflxPort) (nul_not_mem_stdToString e.srflxPort)
  exact ((hlan.append (.cons (.cons (.cons .nil (by decide) (by decide) hport) (by decide)
    (by decide) ⟨e.srflx_text.lf, e.srflx_text.nul⟩) (by decide) (by decide)
    ⟨hservice.lf, hservice.nul⟩)).append hturn).append
    (.cons .nil (by decide) (by decide) htype)

/-- The keys of a message are different, whatever fields it has. -/
private theorem keys_peerList (type : String) (service : Bytes) (e : SrtEnd) (cfg : Config)
    {turn : List (Bytes × Bytes)} (hturn : turn = [] ∨ turn = turnLines cfg) :
    ((peerList type service e turn).map Prod.fst).Nodup ∧
      (e.lanIp = [] → lit "lan_ip" ∉ (peerList type service e turn).map Prod.fst) := by
  have hkeys : (turn.map Prod.fst = [] ∨ turn.map Prod.fst = [lit "turn_host", lit "turn_password",
      lit "turn_port", lit "turn_username"]) := by
    rcases hturn with rfl | rfl
    · exact .inl rfl
    · rw [turnLines]
      split
      · exact .inl rfl
      · exact .inr rfl
  rw [peerList, optionalField]
  simp only [List.map_append]
  by_cases hlan : e.lanIp = []
  · rw [if_pos hlan]
    rcases hkeys with h | h
    · rw [h]
      exact ⟨show [lit "service_id", lit "srflx_ip", lit "srflx_port", lit "type"].Nodup by decide,
        fun _ ↦ show lit "lan_ip" ∉ [lit "service_id", lit "srflx_ip", lit "srflx_port",
          lit "type"] by decide⟩
    · rw [h]
      exact ⟨show [lit "service_id", lit "srflx_ip", lit "srflx_port", lit "turn_host",
          lit "turn_password", lit "turn_port", lit "turn_username", lit "type"].Nodup by decide,
        fun _ ↦ show lit "lan_ip" ∉ [lit "service_id", lit "srflx_ip", lit "srflx_port",
          lit "turn_host", lit "turn_password", lit "turn_port", lit "turn_username",
          lit "type"] by decide⟩
  · rw [if_neg hlan]
    refine ⟨?_, fun h ↦ absurd h hlan⟩
    rcases hkeys with h | h
    · rw [h]
      exact show [lit "lan_ip", lit "service_id", lit "srflx_ip", lit "srflx_port",
        lit "type"].Nodup by decide
    · rw [h]
      exact show [lit "lan_ip", lit "service_id", lit "srflx_ip", lit "srflx_port",
        lit "turn_host", lit "turn_password", lit "turn_port", lit "turn_username",
        lit "type"].Nodup by decide

/-- Each end reads what the other has said about itself. -/
theorem peerFields_peerList {type : String} (htype : LF ∉ lit type ∧ NUL ∉ lit type)
    {service : Bytes} (hservice : FieldText 256 service) (e : SrtEnd) {cfg : Config}
    (hcfg : ConfigTexts cfg) {turn : List (Bytes × Bytes)}
    (hturn : turn = [] ∨ turn = turnLines cfg) {inbuf : Bytes}
    (hrecv : recvBuffer 8192 (createText (peerList type service e turn)) = some inbuf) :
    peerFields inbuf = e.peer ∧ kvGet inbuf (lit "type") 64 = (lit type).take 63 := by
  have hreadable : Readable (peerList type service e turn) := by
    apply readable_peerList htype hservice e
    rcases hturn with rfl | rfl
    · exact .nil
    · exact readable_turnLines hcfg
  obtain ⟨hnodup, hlankey⟩ := keys_peerList type service e cfg hturn
  have hinbuf : inbuf = createText (peerList type service e turn) := by
    rw [recvBuffer] at hrecv
    split at hrecv
    · cases hrecv
    · rw [← Option.some.inj hrecv, cstr_of_nul_not_mem (nul_not_mem_createText hreadable.nul)]
  have hmem : ∀ f, f = (lit "srflx_ip", e.srflxIp) ∨ f = (lit "type", lit type) ∨
      f = (lit "srflx_port", stdToString e.srflxPort) → f ∈ peerList type service e turn := by
    rintro f (rfl | rfl | rfl) <;> simp [peerList]
  have hget : ∀ {key value : Bytes}, (key, value) ∈ peerList type service e turn → ∀ cap,
      kvGet inbuf key cap = value.take (cap - 1) := fun hm cap ↦ by
    rw [hinbuf]
    exact kvGet_of_mem hreadable.plain hnodup hm cap
  have hport : (stdToString e.srflxPort).length ≤ 5 :=
    length_stdToString_le (by decide) (e.port_lt.trans (by decide))
  have hlan : kvGet inbuf (lit "lan_ip") 64 = e.lanIp := by
    by_cases hempty : e.lanIp = []
    · rw [hinbuf, hempty]
      exact kvGet_of_not_mem hreadable.plain (by decide) (hlankey hempty) 64
    · have hm : (lit "lan_ip", e.lanIp) ∈ peerList type service e turn := by
        simp [peerList, optionalField, hempty]
      rw [hget hm 64]
      exact List.take_of_length_le (by have := e.lan_text.short; omega)
  refine ⟨?_, hget (hmem _ (.inr (.inl rfl))) 64⟩
  rw [peerFields, hlan, hget (hmem _ (.inl rfl)) 64, hget (hmem _ (.inr (.inr rfl))) 16,
    List.take_of_length_le (by have := e.srflx_text.short; omega),
    List.take_of_length_le (by omega), atoi_stdToString (e.port_lt.trans (by decide))]
  rfl

/-! ### What the two ends dial -/

/-- The path an end chooses towards another. -/
def SrtEnd.pathTo (e other : SrtEnd) : Path := peerPath e.binding other.peer

private theorem peerIp_eq (e : SrtEnd) (path : Path) :
    peerIp e.peer path = (e.endpoint path).1 := by
  have hprint : ∀ {text : Bytes}, FieldText 64 text → snprintf 64 [text] = text := by
    intro text htext
    rw [snprintf_eq (by simpa using htext.nul) (by simpa using htext.short), List.flatten_singleton]
  cases path with
  | lan => exact hprint e.lan_text
  | srflx => exact hprint e.srflx_text

private theorem not_missing (e : SrtEnd) : ¬(e.peer.srflxIp = [] ∨ e.peer.srflxPort ≤ 0) := by
  have hport := e.port_pos
  rintro (h | h)
  · exact e.srflx_ne h
  · have h : (e.srflxPort : Int) ≤ 0 := h
    omega

/-- Camera and phone each dial an address of the other, always with the mapped port. -/
theorem rendezvous_eq {cfg : Config} (hcfg : ConfigTexts cfg) {r : Registry} {now : Int}
    {cameraFd phoneFd : Nat} {service token : Bytes} (hne : service ≠ [])
    (hservice : FieldText 256 service) (htoken : FieldText 128 token) {camera phone : SrtEnd}
    {dials : Dial × Dial}
    (h : rendezvous cfg r now cameraFd phoneFd service token camera phone = some dials) :
    dials =
      (⟨camera.pathTo phone, (phone.endpoint (camera.pathTo phone)).1, phone.srflxPort⟩,
        ⟨phone.pathTo camera, (camera.endpoint (phone.pathTo camera)).1, camera.srflxPort⟩) := by
  unfold rendezvous at h
  obtain ⟨⟨peerMsg, providerMsg⟩, hrelayed, h⟩ := Option.bind_eq_some_iff.mp h
  obtain ⟨cameraDial, hcamera, h⟩ := Option.bind_eq_some_iff.mp h
  obtain ⟨phoneDial, hphone, h⟩ := Option.bind_eq_some_iff.mp h
  rw [relayed, dispatch_register cfg cameraFd hne hservice htoken camera,
    dispatch_request cfg phoneFd hne hservice phone] at hrelayed
  split at hrelayed
  · next req hreq =>
    -- The token was right, and the phone finds the registration just made.
    split at hreq
    · cases hreq
    · cases hreq
      have hfound : (r.srtRegister (camera.request service) cameraFd now).srtProviders[service]? =
          some ⟨service, camera.srflxIp, camera.srflxPort, camera.lanIp, cameraFd, now, false, [],
            0⟩ := Std.ExtTreeMap.getElem?_insert_self
      dsimp only at hrelayed
      change Option.map _
        (r.srtRegister (camera.request service) cameraFd now).srtProviders[service]?
        = _ at hrelayed
      rw [hfound, Option.map_some, Option.some.injEq, Prod.mk.injEq, srtPeerMessage_eq] at hrelayed
      obtain ⟨rfl, rfl⟩ := hrelayed
      rw [show (phone.request service).serviceId = service from rfl,
        srtProviderMessage_eq cfg service camera rfl rfl rfl] at hphone
      unfold cameraDials at hcamera
      unfold phoneDials at hphone
      obtain ⟨inbuf, hrecv, hcamera⟩ := Option.bind_eq_some_iff.mp hcamera
      obtain ⟨inbuf', hrecv', hphone⟩ := Option.bind_eq_some_iff.mp hphone
      obtain ⟨hfields, htype⟩ :=
        peerFields_peerList (by decide) hservice phone hcfg (.inl rfl) hrecv
      obtain ⟨hfields', htype'⟩ :=
        peerFields_peerList (by decide) hservice camera hcfg (.inr rfl) hrecv'
      have hkind : ¬ kvGet inbuf (lit "type") 64 ≠ lit "SRT_PEER" := by
        rw [htype]
        decide
      have hkind' : ¬ kvGet inbuf' (lit "type") 64 ≠ lit "SRT_PROVIDER" := by
        rw [htype']
        decide
      rw [if_neg hkind, srtPeerRequest] at hcamera
      rw [if_neg hkind'] at hphone
      dsimp only at hcamera hphone
      rw [hfields, if_neg (not_missing phone), peerIp_eq] at hcamera
      rw [hfields', if_neg (not_missing camera), peerIp_eq] at hphone
      cases hcamera
      cases hphone
      cases h
      rfl
  · cases hrelayed

/-- Both ends choose the same path, and each dials the other's endpoint on it. -/
structure DialEachOther (camera phone : SrtEnd) (dials : Dial × Dial) : Prop where
  same_path : dials.1.path = dials.2.path
  camera_dials : (dials.1.ip, dials.1.port) = phone.endpoint dials.1.path
  phone_dials : (dials.2.ip, dials.2.port) = camera.endpoint dials.2.path

/-- The mapped port is the right one on the public path, and on the LAN when the NAT kept it. -/
private theorem mappedPort_iff (e : SrtEnd) (path : Path) :
    ((e.endpoint path).1, (e.srflxPort : Int)) = e.endpoint path ↔
      (path = .lan → e.localPort = e.srflxPort) := by
  cases path with
  | lan =>
    simp only [SrtEnd.endpoint, Prod.mk.injEq, true_and, forall_const]
    omega
  | srflx => simp [SrtEnd.endpoint]

private theorem pathTo_eq_lan_iff (e other : SrtEnd) :
    e.pathTo other = .lan ↔ other.lanIp ≠ [] ∧ e.srflxIp = other.srflxIp := by
  change (if other.lanIp ≠ [] ∧ e.srflxIp = other.srflxIp then Path.lan else .srflx) = .lan ↔ _
  split <;> simp_all

/-- The two ends dial each other when their public addresses differ, or neither knows an
address on its LAN, or both do and the NAT has kept the port of either. -/
theorem dialEachOther_iff {cfg : Config} (hcfg : ConfigTexts cfg) {r : Registry} {now : Int}
    {cameraFd phoneFd : Nat} {service token : Bytes} (hne : service ≠ [])
    (hservice : FieldText 256 service) (htoken : FieldText 128 token) {camera phone : SrtEnd}
    {dials : Dial × Dial}
    (h : rendezvous cfg r now cameraFd phoneFd service token camera phone = some dials) :
    DialEachOther camera phone dials ↔
      camera.srflxIp ≠ phone.srflxIp ∨ camera.lanIp = [] ∧ phone.lanIp = [] ∨
        (camera.lanIp ≠ [] ∧ phone.lanIp ≠ []) ∧
          camera.localPort = camera.srflxPort ∧ phone.localPort = phone.srflxPort := by
  rw [rendezvous_eq hcfg hne hservice htoken h]
  have hcamera := pathTo_eq_lan_iff camera phone
  have hphone := pathTo_eq_lan_iff phone camera
  have hmapped := mappedPort_iff camera (phone.pathTo camera)
  have hmapped' := mappedPort_iff phone (camera.pathTo phone)
  constructor
  · rintro ⟨hpath, hdial, hdial'⟩
    have hkept := hmapped'.mp hdial
    have hkept' := hmapped.mp hdial'
    have hpath : camera.pathTo phone = phone.pathTo camera := hpath
    by_cases hip : camera.srflxIp = phone.srflxIp
    · right
      by_cases hlan : phone.lanIp = []
      · -- The camera keeps to the public path, so the phone knows no LAN address of it.
        left
        refine ⟨?_, hlan⟩
        by_contra hne
        have := hpath.trans (hphone.mpr ⟨hne, hip.symm⟩)
        exact (hcamera.mp this).1 hlan
      · right
        have hclan := hcamera.mpr ⟨hlan, hip⟩
        have hplan := hpath.symm.trans hclan
        exact ⟨⟨(hphone.mp hplan).1, hlan⟩, hkept' hplan, hkept hclan⟩
    · exact .inl hip
  · intro hcond
    have hpublic : camera.srflxIp ≠ phone.srflxIp ∨ camera.lanIp = [] ∧ phone.lanIp = [] →
        camera.pathTo phone = .srflx ∧ phone.pathTo camera = .srflx := by
      intro h
      constructor
      · cases hpath : camera.pathTo phone with
        | lan =>
          obtain ⟨hlan, hip⟩ := hcamera.mp hpath
          exact (h.elim (· hip) fun h ↦ hlan h.2).elim
        | srflx => rfl
      · cases hpath : phone.pathTo camera with
        | lan =>
          obtain ⟨hlan, hip⟩ := hphone.mp hpath
          exact (h.elim (· hip.symm) fun h ↦ hlan h.1).elim
        | srflx => rfl
    by_cases hlan : camera.srflxIp = phone.srflxIp ∧ camera.lanIp ≠ [] ∧ phone.lanIp ≠ []
    · obtain ⟨hip, hclan, hplan⟩ := hlan
      have hc := hcamera.mpr ⟨hplan, hip⟩
      have hp := hphone.mpr ⟨hclan, hip.symm⟩
      rcases hcond with h | h | ⟨-, hckept, hpkept⟩
      · exact absurd hip h
      · exact absurd h.1 hclan
      · exact ⟨hc.trans hp.symm, hmapped'.mpr fun _ ↦ hpkept, hmapped.mpr fun _ ↦ hckept⟩
    · have h : camera.srflxIp ≠ phone.srflxIp ∨ camera.lanIp = [] ∧ phone.lanIp = [] := by
        rcases hcond with h | h | ⟨h, -⟩
        · exact .inl h
        · exact .inr h
        · exact .inl fun hip ↦ hlan ⟨hip, h⟩
      obtain ⟨hc, hp⟩ := hpublic h
      exact ⟨hc.trans hp.symm, hmapped'.mpr fun hl ↦ absurd (hl.symm.trans hc) (by decide),
        hmapped.mpr fun hl ↦ absurd (hl.symm.trans hp) (by decide)⟩

/-! ### One NAT -/

private theorem nat_text : FieldText 64 (lit "198.51.100.7") := ⟨by decide, by decide, by decide⟩

private theorem cameraLan_text : FieldText 64 (lit "10.0.0.2") := ⟨by decide, by decide, by decide⟩

private theorem phoneLan_text : FieldText 64 (lit "10.0.0.3") := ⟨by decide, by decide, by decide⟩

private theorem nat_ip_ne : lit "198.51.100.7" ≠ [] := by decide

private theorem nat_port {port : Nat} (h : port = 4000 ∨ port = 4001) :
    0 < port ∧ port < 2 ^ 16 := by
  omega

/-- A camera behind a NAT that maps its port 5000 to 4000. -/
def mappedCamera : SrtEnd where
  srflxIp := lit "198.51.100.7"
  srflxPort := 4000
  lanIp := lit "10.0.0.2"
  localPort := 5000
  srflx_ne := nat_ip_ne
  srflx_text := nat_text
  lan_text := cameraLan_text
  port_pos := (nat_port (.inl rfl)).1
  port_lt := (nat_port (.inl rfl)).2

/-- A phone behind the same NAT, its port mapped too. -/
def mappedPhone : SrtEnd where
  srflxIp := lit "198.51.100.7"
  srflxPort := 4001
  lanIp := lit "10.0.0.3"
  localPort := 5001
  srflx_ne := nat_ip_ne
  srflx_text := nat_text
  lan_text := phoneLan_text
  port_pos := (nat_port (.inr rfl)).1
  port_lt := (nat_port (.inr rfl)).2

/-- A phone behind another NAT. -/
def farPhone : SrtEnd := { mappedPhone with
  srflxIp := lit "203.0.113.9"
  srflx_ne := by decide
  srflx_text := ⟨by decide, by decide, by decide⟩ }

private theorem cam_text : FieldText 256 (lit "cam") := ⟨by decide, by decide, by decide⟩

private theorem no_token : FieldText 128 [] := ⟨by decide, by decide, by decide⟩

private theorem unset_texts : ConfigTexts Config.unset :=
  ⟨by decide, by decide, by decide⟩

/-- Behind one NAT both choose the LAN and dial ports that only the NAT knows. -/
theorem dial_mappedPorts :
    ∃ dials, rendezvous .unset .start 0 3 4 (lit "cam") [] mappedCamera mappedPhone = some dials ∧
      ¬ DialEachOther mappedCamera mappedPhone dials := by
  have hsome : (rendezvous .unset .start 0 3 4 (lit "cam") [] mappedCamera
      mappedPhone).isSome = true := by decide +kernel
  obtain ⟨dials, h⟩ := Option.isSome_iff_exists.mp hsome
  refine ⟨dials, h, ?_⟩
  intro heach
  have hdial := heach.camera_dials
  rw [rendezvous_eq unset_texts (by decide) cam_text no_token h] at hdial
  exact absurd hdial (by decide)

/-- Across two NATs both dial the public endpoint of the other. -/
theorem dialEachOther_farPhone :
    ∃ dials, rendezvous .unset .start 0 3 4 (lit "cam") [] mappedCamera farPhone = some dials ∧
      DialEachOther mappedCamera farPhone dials := by
  have hsome : (rendezvous .unset .start 0 3 4 (lit "cam") [] mappedCamera
      farPhone).isSome = true := by decide +kernel
  obtain ⟨dials, h⟩ := Option.isSome_iff_exists.mp hsome
  exact ⟨dials, h, (dialEachOther_iff unset_texts (by decide) cam_text no_token h).mpr
    (.inl (by decide))⟩

end Kitty.Srt
