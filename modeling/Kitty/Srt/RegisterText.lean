import Kitty.Srt.Ends

/-!
# What a registration says

The texts with which the camera registers and the phone asks for a service, printed into a
buffer of fixed size, and the fields the server reads in them;
`src/ap2p/srt_thread.c:652–784,841–866`,
`src/consumer-srt-android/consumer_srt_p2p.c:576–590` and
`src/signaling-server/signaling_server.cpp:756–798,1563–1622`.
-/

namespace Kitty.Srt

open Kitty.Base Kitty.Signal Kitty.Ap2p

/-- The contents of a `char` array of the size, without a newline. -/
structure FieldText (size : Nat) (text : Bytes) : Prop where
  lf : LF ∉ text
  nul : NUL ∉ text
  short : text.length < size

/-- A field that may be missing. -/
def optionalField (key : String) (value : Bytes) : List (Bytes × Bytes) :=
  if value = [] then [] else [(lit key, value)]

/-- The fields in which a program says where it can be reached, and for which service. -/
def addressFields (type : String) (service : Bytes) (srflx : EdgeBinding) (lanIp token : Bytes) :
    List (Bytes × Bytes) :=
  [(lit "type", lit type), (lit "service_id", service), (lit "srflx_ip", srflx.srflxIp),
    (lit "srflx_port", stdToString srflx.srflxPort)] ++ optionalField "lan_ip" lanIp ++
    optionalField "api_token" token

/-- The same as the programs print it: the text before the service, and the texts and values
behind it. -/
def addressFormat (head service : Bytes) (srflx : EdgeBinding) (lanIp token : Bytes) :
    List Bytes :=
  [head, service, lit "\nsrflx_ip=", srflx.srflxIp, lit "\nsrflx_port=",
    stdToString srflx.srflxPort, lit "\n"] ++ optionalLine "lan_ip=" lanIp ++
    optionalLine "api_token=" token

/-! ### Printed text -/

private theorem optionalLine_flatten {name key : String} (hname : lit name = lit key ++ [EQ])
    (hsdp : isSdpKey (lit key) = false) {value : Bytes} (h : NUL ∉ value) :
    (optionalLine name value).flatten = createText (optionalField key value) := by
  rw [optionalLine, optionalField, cstr_of_nul_not_mem h]
  split
  · rfl
  · simp only [createText, List.flatMap_cons, List.flatMap_nil, fieldText, hsdp, hname,
      List.flatten_cons, List.flatten_nil, List.append_assoc, List.append_nil]
    rfl

private theorem nul_not_mem_optionalLine {name : String} (hname : NUL ∉ lit name) {value : Bytes}
    (h : NUL ∉ value) : ∀ part ∈ optionalLine name value, NUL ∉ part := by
  intro part hpart
  rw [optionalLine] at hpart
  split at hpart
  · cases hpart
  · simp only [List.mem_cons, List.not_mem_nil, or_false] at hpart
    rcases hpart with rfl | rfl | rfl
    · exact hname
    · exact h
    · decide

private theorem length_optionalLine_le (name : String) (value : Bytes) :
    (optionalLine name value).flatten.length ≤ (lit name).length + value.length + 1 := by
  rw [optionalLine]
  split
  · exact Nat.zero_le _
  · have hlf : (lit "\n").length = 1 := rfl
    simp only [List.flatten_cons, List.flatten_nil, List.length_append, List.length_nil, hlf]
    omega

section AddressText

variable {head service lanIp token : Bytes} {srflx : EdgeBinding}

/-- None of the texts and values printed has a NUL. -/
theorem nul_not_mem_addressFormat (hhead : NUL ∉ head) (hservice : FieldText 256 service)
    (hip : FieldText 64 srflx.srflxIp) (hlan : FieldText 64 lanIp) (htoken : FieldText 128 token) :
    ∀ part ∈ addressFormat head service srflx lanIp token, NUL ∉ part := by
  intro part hpart
  simp only [addressFormat, List.mem_append, List.mem_cons, List.not_mem_nil, or_false] at hpart
  rcases hpart with ((rfl | rfl | rfl | rfl | rfl | rfl | rfl) | h) | h
  · exact hhead
  · exact hservice.nul
  · decide
  · exact hip.nul
  · decide
  · exact nul_not_mem_stdToString _
  · decide
  · exact nul_not_mem_optionalLine (by decide) hlan.nul _ h
  · exact nul_not_mem_optionalLine (by decide) htoken.nul _ h

/-- All of them fit a buffer of 1024 bytes, whatever the fields hold. -/
theorem length_addressFormat (hhead : head.length ≤ 30) (hservice : FieldText 256 service)
    (hip : FieldText 64 srflx.srflxIp) (hport : InIntRange srflx.srflxPort)
    (hlan : FieldText 64 lanIp) (htoken : FieldText 128 token) :
    (addressFormat head service srflx lanIp token).flatten.length < 1024 := by
  have hipkey : (lit "\nsrflx_ip=").length = 10 := rfl
  have hportkey : (lit "\nsrflx_port=").length = 12 := rfl
  have hlf : (lit "\n").length = 1 := rfl
  have hlankey : (lit "lan_ip=").length = 7 := rfl
  have htokenkey : (lit "api_token=").length = 10 := rfl
  have hporttext := length_stdToString_of_int hport
  have hlanline := length_optionalLine_le "lan_ip=" lanIp
  have htokenline := length_optionalLine_le "api_token=" token
  have h1 := hservice.short
  have h2 := hip.short
  have h3 := hlan.short
  have h4 := htoken.short
  simp only [addressFormat, List.flatten_append, List.flatten_cons, List.flatten_nil,
    List.length_append, List.length_nil]
  omega

/-- Together they are the text of the fields. -/
theorem addressFormat_flatten {type : String}
    (hhead : head = lit "type=" ++ lit type ++ lit "\nservice_id=") (hlan : NUL ∉ lanIp)
    (htoken : NUL ∉ token) :
    (addressFormat head service srflx lanIp token).flatten =
      createText (addressFields type service srflx lanIp token) := by
  rw [addressFormat, List.flatten_append, List.flatten_append,
    optionalLine_flatten (show lit "lan_ip=" = lit "lan_ip" ++ [EQ] from rfl) (by decide) hlan,
    optionalLine_flatten (show lit "api_token=" = lit "api_token" ++ [EQ] from rfl) (by decide)
      htoken, addressFields]
  simp only [createText, List.flatMap_append, List.flatMap_cons, List.flatMap_nil, fieldText,
    List.flatten_cons, List.flatten_nil, List.append_assoc, List.append_nil, hhead]
  rfl

/-- The text both programs print is its fields. -/
theorem snprintf_addressFormat {size : Nat} {type : String}
    (hhead : head = lit "type=" ++ lit type ++ lit "\nservice_id=") (hnul : NUL ∉ head)
    (htype : head.length ≤ 30) (hsize : 1024 ≤ size) (hservice : FieldText 256 service)
    (hip : FieldText 64 srflx.srflxIp) (hport : InIntRange srflx.srflxPort)
    (hlan : FieldText 64 lanIp) (htoken : FieldText 128 token) :
    snprintf size (addressFormat head service srflx lanIp token) =
      createText (addressFields type service srflx lanIp token) := by
  have hlength := length_addressFormat htype hservice hip hport hlan htoken
  rw [snprintf_eq (nul_not_mem_addressFormat hnul hservice hip hlan htoken) (by omega),
    addressFormat_flatten hhead hlan.nul htoken.nul]

end AddressText

/-! ### What the server reads -/

private theorem plain_optionalField {key : String} (hkey : PlainKey (lit key)) {value : Bytes}
    (h : LF ∉ value) : ∀ f ∈ optionalField key value, PlainField f := by
  intro f hf
  rw [optionalField] at hf
  split at hf
  · cases hf
  · rw [List.mem_singleton.mp hf]
    exact hkey.field h

/-- Each of the fields is a line. -/
theorem plain_addressFields {type : String} (htype : LF ∉ lit type) {service lanIp token : Bytes}
    {srflx : EdgeBinding} (hservice : LF ∉ service) (hip : LF ∉ srflx.srflxIp) (hlan : LF ∉ lanIp)
    (htoken : LF ∉ token) : ∀ f ∈ addressFields type service srflx lanIp token, PlainField f := by
  have hkeys : PlainKey (lit "type") ∧ PlainKey (lit "service_id") ∧ PlainKey (lit "srflx_ip") ∧
      PlainKey (lit "srflx_port") := by decide
  intro f hf
  rw [addressFields, List.mem_append, List.mem_append] at hf
  rcases hf with (hf | hf) | hf
  · simp only [List.mem_cons, List.not_mem_nil, or_false] at hf
    rcases hf with rfl | rfl | rfl | rfl
    · exact hkeys.1.field htype
    · exact hkeys.2.1.field hservice
    · exact hkeys.2.2.1.field hip
    · exact hkeys.2.2.2.field (lf_not_mem_stdToString _)
  · exact plain_optionalField (by decide) hlan f hf
  · exact plain_optionalField (by decide) htoken f hf

/-- What the server finds under the names of the fields. -/
structure AddressRead (parsed : Fields) (type : String) (service : Bytes) (srflx : EdgeBinding)
    (lanIp token : Bytes) : Prop where
  type_eq : field parsed (lit "type") = lit type
  service_eq : field parsed (lit "service_id") = service
  ip_eq : field parsed (lit "srflx_ip") = srflx.srflxIp
  port_eq : parsed[lit "srflx_port"]? = some (stdToString srflx.srflxPort)
  lan_eq : field parsed (lit "lan_ip") = lanIp
  token_eq : field parsed (lit "api_token") = token

theorem read_addressFields (type : String) (service : Bytes) (srflx : EdgeBinding)
    (lanIp token : Bytes) :
    AddressRead (assign ∅ (addressFields type service srflx lanIp token)) type service srflx lanIp
      token := by
  unfold addressFields optionalField
  by_cases hlan : lanIp = []
  · rw [if_pos hlan, hlan]
    by_cases htoken : token = []
    · rw [if_pos htoken, htoken]
      exact ⟨rfl, rfl, rfl, rfl, rfl, rfl⟩
    · rw [if_neg htoken]
      exact ⟨rfl, rfl, rfl, rfl, rfl, rfl⟩
  · rw [if_neg hlan]
    by_cases htoken : token = []
    · rw [if_pos htoken, htoken]
      exact ⟨rfl, rfl, rfl, rfl, rfl, rfl⟩
    · rw [if_neg htoken]
      exact ⟨rfl, rfl, rfl, rfl, rfl, rfl⟩

/-- The address that the server takes from the fields. -/
theorem srtRequest_addressFields (type : String) (service : Bytes) {srflx : EdgeBinding}
    (hport : InIntRange srflx.srflxPort) (lanIp token : Bytes) :
    srtRequest (assign ∅ (addressFields type service srflx lanIp token)) =
      .ok ⟨service, srflx.srflxIp, srflx.srflxPort, lanIp⟩ := by
  have hread := read_addressFields type service srflx lanIp token
  simp only [srtRequest, stoiOr0, hread.port_eq, stoi_stdToString_of_int hport, hread.service_eq,
    hread.ip_eq, hread.lan_eq]
  rfl

/-! ### The registrations of a control session -/

/-- What a control session registers: the service and the token of `g_cfg`, and the address the
camera has on its LAN. -/
structure CtrlSession where
  nodeId : Bytes
  ctrlToken : Bytes
  lanIp : Bytes
  node_text : FieldText 256 nodeId
  token_text : FieldText 128 ctrlToken
  lan_text : FieldText 64 lanIp

/-- An address that `ap2p_edge_get_srflx` has found. -/
structure Discovered extends EdgeBinding where
  ip_text : FieldText 64 srflxIp
  port_int : InIntRange srflxPort

namespace CtrlSession

/-- `regmsg`, and `reg2` with another address. -/
def register (s : CtrlSession) (srflx : EdgeBinding) : EdgeBinding × Bytes :=
  (srflx, registerText s.nodeId s.ctrlToken srflx s.lanIp)

/-- The later addresses: each that is not the one registered last is registered. -/
def refresh (s : CtrlSession) (srflx : EdgeBinding) : List EdgeBinding → List (EdgeBinding × Bytes)
  | [] => []
  | fresh :: rest =>
    if fresh.srflxIp ≠ srflx.srflxIp ∨ fresh.srflxPort ≠ srflx.srflxPort then
      s.register fresh :: s.refresh fresh rest
    else s.refresh srflx rest

/-- The registrations `run_ctrl_session` sends, with the address each of them is for: at its
start, and whenever a later discovery finds another address. -/
def registrations (s : CtrlSession) (srflx : EdgeBinding) (later : List EdgeBinding) :
    List (EdgeBinding × Bytes) :=
  s.register srflx :: s.refresh srflx later

/-- A text is the whole registration of an address, and is read as what it says: the fields and
no others, and the same service, address and token in them. -/
structure Registers (s : CtrlSession) (srflx : EdgeBinding) (text : Bytes) : Prop where
  fits : (addressFormat (lit "type=SRT_REGISTER\nservice_id=") s.nodeId srflx s.lanIp
    s.ctrlToken).flatten.length < 1024
  whole : text = (addressFormat (lit "type=SRT_REGISTER\nservice_id=") s.nodeId srflx s.lanIp
    s.ctrlToken).flatten
  parsed : parseMessage text =
    assign ∅ (addressFields "SRT_REGISTER" s.nodeId srflx s.lanIp s.ctrlToken)
  read : AddressRead (parseMessage text) "SRT_REGISTER" s.nodeId srflx s.lanIp s.ctrlToken
  request : srtRequest (parseMessage text) =
    .ok ⟨s.nodeId, srflx.srflxIp, srflx.srflxPort, s.lanIp⟩

/-- The registration of an address that was found is such a text. -/
theorem registers_register (s : CtrlSession) (d : Discovered) :
    s.Registers d.toEdgeBinding (s.register d.toEdgeBinding).2 := by
  have hhead : lit "type=SRT_REGISTER\nservice_id=" =
      lit "type=" ++ lit "SRT_REGISTER" ++ lit "\nservice_id=" := rfl
  have htext : (s.register d.toEdgeBinding).2 =
      createText (addressFields "SRT_REGISTER" s.nodeId d.toEdgeBinding s.lanIp s.ctrlToken) :=
    snprintf_addressFormat hhead (by decide) (by decide) (by decide) s.node_text d.ip_text
      d.port_int s.lan_text s.token_text
  have hparse : parseMessage (s.register d.toEdgeBinding).2 =
      assign ∅ (addressFields "SRT_REGISTER" s.nodeId d.toEdgeBinding s.lanIp s.ctrlToken) := by
    rw [htext, parseMessage_createText]
    exact plain_addressFields (by decide) s.node_text.lf d.ip_text.lf s.lan_text.lf s.token_text.lf
  constructor
  · exact length_addressFormat (by decide) s.node_text d.ip_text d.port_int s.lan_text s.token_text
  · rw [htext, addressFormat_flatten hhead s.lan_text.nul s.token_text.nul]
  · exact hparse
  · rw [hparse]
    exact read_addressFields ..
  · rw [hparse]
    exact srtRequest_addressFields _ _ d.port_int _ _

/-- Every registration is the registration of an address that was found. -/
theorem mem_refresh {s : CtrlSession} {srflx : EdgeBinding} {later : List EdgeBinding}
    {r : EdgeBinding × Bytes} (hr : r ∈ s.refresh srflx later) :
    ∃ fresh ∈ later, r = s.register fresh := by
  induction later generalizing srflx with
  | nil => cases hr
  | cons fresh rest ih =>
    rw [refresh] at hr
    split at hr
    · rcases List.mem_cons.mp hr with rfl | hr
      · exact ⟨fresh, List.mem_cons_self, rfl⟩
      · obtain ⟨found, hfound, rfl⟩ := ih hr
        exact ⟨found, List.mem_cons_of_mem _ hfound, rfl⟩
    · obtain ⟨found, hfound, rfl⟩ := ih hr
      exact ⟨found, List.mem_cons_of_mem _ hfound, rfl⟩

/-- Every registration a session sends is whole, and the server reads in it what the camera
means. -/
theorem registers_of_mem (s : CtrlSession) (first : Discovered) (later : List Discovered)
    {r : EdgeBinding × Bytes}
    (hr : r ∈ s.registrations first.toEdgeBinding (later.map Discovered.toEdgeBinding)) :
    s.Registers r.1 r.2 := by
  rcases List.mem_cons.mp hr with rfl | hr
  · exact s.registers_register first
  · obtain ⟨fresh, hfresh, rfl⟩ := mem_refresh hr
    obtain ⟨d, -, rfl⟩ := List.mem_map.mp hfresh
    exact s.registers_register d

/-- A session whose token has equals signs. -/
def withToken : CtrlSession where
  nodeId := lit "cam"
  ctrlToken := lit "a=b=="
  lanIp := lit "10.0.0.2"
  node_text := ⟨by decide, by decide, by decide⟩
  token_text := ⟨by decide, by decide, by decide⟩
  lan_text := ⟨by decide, by decide, by decide⟩

/-- An address, and the one behind a NAT that has moved the port. -/
def found (port : Nat) (h : port < 2 ^ 16) : Discovered where
  srflxIp := lit "198.51.100.7"
  srflxPort := port
  ip_text := ⟨by decide, by decide, by decide⟩
  port_int := ⟨by omega, by omega⟩

/-- The second registration of a session whose port was moved. -/
theorem registers_withToken :
    withToken.Registers (found 4001 (by decide)).toEdgeBinding
      (withToken.register (found 4001 (by decide)).toEdgeBinding).2 :=
  registers_of_mem withToken (found 4000 (by decide)) [found 4001 (by decide)]
    (r := withToken.register (found 4001 (by decide)).toEdgeBinding) (by
      rw [registrations]
      exact List.mem_cons_of_mem _ (List.mem_cons_self ..))

end CtrlSession

end Kitty.Srt
