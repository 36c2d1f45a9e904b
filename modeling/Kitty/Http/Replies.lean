import Kitty.Base.JsonCompact
import Kitty.Http.Routes
import Kitty.Signal.StatsJson
import Kitty.Vms.Session
import Mathlib.Tactic.Linarith

/-!
# The replies of the camera interface

The JSON builders, the handlers and `send_http_response`; `src/provider-srt/http_api.h:45–183,
270–382,387–459`. Every text is printed with `snprintf` into an array of a fixed size, with the
strings of the camera sessions as they are. What `connect_to_camera` returns, and the table two
seconds later, are taken as they come.
-/

namespace Kitty.Http

open Kitty.Base
open Kitty.Base.Json (Value compact Unescaped IsPlainText)
open Kitty.Vms (maxCameras)

/-! ### The table of cameras -/

/-- What an array of so many `char` holds: a string, with the NUL behind it. -/
abbrev CString (size : Nat) := { s : Bytes // NUL ∉ s ∧ s.length < size }

/-- What is looked at of a `camera_session_t`; of `agent` that is whether there is one. -/
structure CameraSession where
  active : Bool
  cameraId : CString 128
  agent : Bool
  connected : Bool
  localListenPort : Int32
  serviceProtocol : CString 16
  serviceCodec : CString 16
  connectionStartTime : Int64
  needsReconnect : Bool
  deriving DecidableEq

/-- `vms_state`, and what `time` returns while a camera is looked at. -/
structure Table where
  cameras : Fin maxCameras → CameraSession
  numActiveCameras : Int32
  now : Fin maxCameras → Int64

/-- The slots in their order, with what `time` returns. -/
def Table.slots (t : Table) : List (CameraSession × Int64) :=
  (List.finRange maxCameras).map fun i ↦ (t.cameras i, t.now i)

/-- `find_camera_session` -/
def findCameraSession (t : Table) (id : Bytes) : Option (Fin maxCameras) :=
  (List.finRange maxCameras).find? fun i ↦
    (t.cameras i).active && (t.cameras i).cameraId.1 == id

/-- `proto` -/
def CameraSession.proto (cam : CameraSession) : Bytes :=
  if cam.serviceProtocol.1 = [] then lit "rtsp" else cam.serviceProtocol.1

/-- `codec` -/
def CameraSession.codec (cam : CameraSession) : Bytes :=
  if cam.serviceCodec.1 = [] then lit "h264" else cam.serviceCodec.1

/-- What is printed as the status. -/
def CameraSession.status (cam : CameraSession) : Bytes :=
  if cam.connected then lit "connected" else lit "connecting"

/-- `uptime` -/
def CameraSession.uptime (cam : CameraSession) (now : Int64) : Int64 :=
  if cam.connected then now - cam.connectionStartTime else 0

/-- The port as `%d` prints it. -/
def CameraSession.port (cam : CameraSession) : Bytes := stdToString cam.localListenPort.toInt

/-! ### The builders -/

/-- The texts that are printed for a camera. -/
def cameraTexts (cam : CameraSession) (now : Int64) : List Bytes :=
  [lit "\x7b\"camera_id\":\"", cam.cameraId.1, lit "\",\"local_port\":", cam.port,
    lit ",\"stream_url\":\"", cam.proto, lit "://localhost:", cam.port, lit "/\",\"protocol\":\"",
    cam.proto, lit "\",\"codec\":\"", cam.codec, lit "\",\"status\":\"", cam.status,
    lit "\",\"uptime\":", stdToString (cam.uptime now).toInt, lit "\x7d"]

/-- `build_camera_json` -/
def buildCameraJson (cam : CameraSession) (now : Int64) (outSize : Nat) : Bytes :=
  snprintf outSize (cameraTexts cam now)

/-- `snprintf(json + off, total - off, ..)`: the string that `json` then is, and what is
returned. -/
def snprintfAt (total : Nat) (json : Bytes) (off : Nat) (texts : List Bytes) : Bytes × Nat :=
  (json.take off ++ snprintf (total - off) texts, (texts.flatMap cstr).length)

/-- `json`, `off` and `count`. -/
structure ListJson where
  json : Bytes
  off : Nat
  count : Nat

/-- The loop of `build_camera_list_json` over the slots. -/
def appendCameras (total : Nat) : List (CameraSession × Int64) → ListJson → ListJson
  | [], l => l
  | (cam, now) :: cams, l =>
    if cam.active then
      let (json, n) := snprintfAt total l.json l.off
        ((if 0 < l.count then lit "," else []) :: cameraTexts cam now)
      -- What has been cut is left where the next text goes.
      if total - l.off ≤ n then { l with json }
      else appendCameras total cams ⟨json, l.off + n, l.count + 1⟩
    else appendCameras total cams l

/-- `total` of `build_camera_list_json`. -/
def listTotal : Nat := maxCameras * 768 + 64

/-- `build_camera_list_json`, by whether there is memory for the list. -/
def buildCameraListJson (memory : Bool) (t : Table) : Option Bytes :=
  if memory then
    let (json, n) := snprintfAt listTotal [] 0 [lit "\x7b\"cameras\":["]
    if listTotal ≤ n then none
    else
      let l := appendCameras listTotal t.slots ⟨json, n, 0⟩
      some (snprintfAt listTotal l.json l.off
        [lit "],\"total\":", stdToString l.count, lit "\x7d"]).1
  else none

/-- `build_error_json` into an array of 512 bytes. -/
def buildErrorJson (error : Bytes) : Bytes :=
  snprintf 512 [lit "\x7b\"success\":false,\"error\":\"", error, lit "\"\x7d"]

/-! ### The handlers -/

/-- What is handed to `send_http_response`. -/
structure Reply where
  statusCode : Nat
  statusText : Bytes
  json : Bytes
  deriving DecidableEq

/-- What `connect_to_camera` returns, and the table two seconds later. -/
structure Connecting where
  port : Int32
  later : Table

/-- `handle_connect_camera` where there is no session to wait for. -/
def createConnection (c : Connecting) (id : Bytes) : Reply :=
  if 0 < c.port then
    match findCameraSession c.later id with
    | some i =>
      let cam := c.later.cameras i
      let port := stdToString c.port.toInt
      ⟨200, lit "OK", snprintf 1024 [lit "\x7b\"success\":true,\"camera_id\":\"", id,
        lit "\",\"local_port\":", port, lit ",\"protocol\":\"", cam.proto, lit "\",\"codec\":\"",
        cam.codec, lit "\",\"stream_url\":\"", cam.proto, lit "://localhost:", port,
        lit "/\"\x7d"]⟩
    | none =>
      ⟨500, lit "Internal Server Error", buildErrorJson (lit "Failed to create camera session")⟩
  else ⟨404, lit "Not Found", buildErrorJson (lit "Camera not found or connection failed")⟩

/-- `handle_connect_camera` -/
def handleConnectCamera (t : Table) (c : Connecting) (id : Bytes) : Reply :=
  match findCameraSession t id with
  | some i =>
    let existing := t.cameras i
    if existing.connected then ⟨200, lit "OK", buildCameraJson existing (t.now i) 1024⟩
    else if existing.needsReconnect || existing.agent then
      ⟨200, lit "OK", snprintf 1024 [lit "\x7b\"success\":true,\"camera_id\":\"", id,
        lit "\",\"local_port\":", existing.port,
        lit ",\"status\":\"reconnecting\",\"stream_url\":\"rtsp://localhost:", existing.port,
        lit "/\"\x7d"]⟩
    else createConnection c id
  | none => createConnection c id

/-- `handle_disconnect_camera` -/
def handleDisconnectCamera (t : Table) (id : Bytes) : Reply :=
  match findCameraSession t id with
  | some _ => ⟨200, lit "OK", snprintf 256 [lit "\x7b\"success\":true,\"camera_id\":\"", id,
      lit "\",\"status\":\"disconnected\"\x7d"]⟩
  | none => ⟨404, lit "Not Found", buildErrorJson (lit "Camera not found")⟩

/-- `handle_list_cameras` -/
def handleListCameras (memory : Bool) (t : Table) : Reply :=
  match buildCameraListJson memory t with
  | none => ⟨500, lit "Internal Server Error", buildErrorJson (lit "Out of memory")⟩
  | some json => ⟨200, lit "OK", json⟩

/-- `handle_get_camera_status` -/
def handleGetCameraStatus (t : Table) (id : Bytes) : Reply :=
  match findCameraSession t id with
  | some i => ⟨200, lit "OK", buildCameraJson (t.cameras i) (t.now i) 1024⟩
  | none => ⟨404, lit "Not Found", buildErrorJson (lit "Camera not found")⟩

/-- `handle_health_check` -/
def handleHealthCheck (t : Table) : Reply :=
  ⟨200, lit "OK", snprintf 512 [lit "\x7b\"status\":\"ok\",\"cameras_connected\":",
    stdToString t.numActiveCameras.toInt, lit "\x7d"]⟩

/-- What `handle_http_request_thread` replies to what it has received. -/
def replyTo (apiToken : Bytes) (memory : Bool) (t : Table) (c : Connecting) (received : Bytes)
    (behind : Nat → UInt8) : Reply :=
  match parseHttpRequest received behind with
  | none => ⟨400, lit "Bad Request", buildErrorJson (lit "Invalid HTTP request")⟩
  | some req =>
    match route apiToken req with
    | .unauthorized => ⟨401, lit "Unauthorized",
        lit "\x7b\"success\":false,\"error\":\"Invalid or missing X-API-Token\"\x7d"⟩
    | .health => handleHealthCheck t
    | .listCameras => handleListCameras memory t
    | .invalidCameraId => ⟨400, lit "Bad Request", buildErrorJson (lit "Invalid camera ID")⟩
    | .connect id => handleConnectCamera t c id
    | .disconnect id => handleDisconnectCamera t id
    | .cameraStatus id => handleGetCameraStatus t id
    | .notFound => ⟨404, lit "Not Found", buildErrorJson (lit "Endpoint not found")⟩

/-! ### The response -/

/-- The header that names the origin that may read the reply, when one is configured. -/
def corsHeader (corsOrigin : CString 256) : Bytes :=
  if corsOrigin.1 = [] then []
  else snprintf 320 [lit "Access-Control-Allow-Origin: ", corsOrigin.1, CRLF]

/-- The texts that are printed before a body of this length. -/
def headerTexts (corsOrigin : CString 256) (reply : Reply) (jsonLen : Nat) : List Bytes :=
  [lit "HTTP/1.1 ", stdToString reply.statusCode, lit " ", reply.statusText, CRLF,
    lit "Content-Type: application/json", CRLF, lit "Content-Length: ", stdToString jsonLen, CRLF,
    corsHeader corsOrigin, lit "Connection: close", CRLF, CRLF]

/-- `send_http_response`: what is sent; `none` when the array of 8192 bytes ends before the
header does. -/
def sendHttpResponse (corsOrigin : CString 256) (reply : Reply) : Option Bytes :=
  let json := cstr reply.json
  let header := headerTexts corsOrigin reply json.length
  let headerLen := (header.flatMap cstr).length
  let response := snprintf 8192 header ++ [NUL]
  if response.length < headerLen then none else some (response.take headerLen ++ json)

/-! ### What the sessions are as JSON -/

/-- The document for a camera. -/
def cameraValue (cam : CameraSession) (now : Int64) : Value :=
  .object [(lit "camera_id", .string cam.cameraId.1), (lit "local_port", .number cam.port),
    (lit "stream_url", .string (cam.proto ++ lit "://localhost:" ++ cam.port ++ lit "/")),
    (lit "protocol", .string cam.proto), (lit "codec", .string cam.codec),
    (lit "status", .string cam.status),
    (lit "uptime", .number (stdToString (cam.uptime now).toInt))]

/-- The documents for the active cameras among these. -/
def activeValues (cams : List (CameraSession × Int64)) : List Value :=
  (cams.filter fun p ↦ p.1.active).map fun p ↦ cameraValue p.1 p.2

/-- The document for all of them. -/
def listValue (t : Table) : Value :=
  .object [(lit "cameras", .array (activeValues t.slots)),
    (lit "total", .number (stdToString (activeValues t.slots).length))]

/-- The strings of a session need no escape. -/
structure CameraSession.IsPlain (cam : CameraSession) : Prop where
  cameraId : IsPlainText cam.cameraId.1
  serviceProtocol : IsPlainText cam.serviceProtocol.1
  serviceCodec : IsPlainText cam.serviceCodec.1

/-- Those of no active session do. -/
def Table.IsPlain (t : Table) : Prop := ∀ i, (t.cameras i).active = true → (t.cameras i).IsPlain

/-! ### The texts of a camera -/

private theorem isPlainText_stdToString (v : Int) : IsPlainText (stdToString v) := by
  have htame := Signal.tame_stdToString v
  have hutf8 := isUtf8_append_of_ascii htame.1 []
  rw [List.append_nil] at hutf8
  exact ⟨htame.2, hutf8⟩

private theorem length_int32 (n : Int32) : (stdToString n.toInt).length ≤ 11 := by
  have hlt := n.toInt_lt
  have hle := n.le_toInt
  exact Signal.length_stdToString_of_int (by constructor <;> omega)

private theorem length_int64 (n : Int64) : (stdToString n.toInt).length ≤ 20 := by
  have hlt := n.toInt_lt
  have hle := n.le_toInt
  have hdigits : (decimal n.toInt.natAbs).length ≤ 19 := by
    rw [decimal, List.length_map]
    exact (Nat.length_toDigits_le_iff (by decide) (by decide)).mpr (by omega)
  rw [stdToString]
  split
  · exact Nat.succ_le_succ hdigits
  · omega

/-- What holds of a field and of what stands for an empty one holds of what is printed. -/
private theorem of_default {P : Bytes → Prop} {s default : Bytes} (hs : P s)
    (hdefault : P default) : P (if s = [] then default else s) := by
  split
  · exact hdefault
  · exact hs

private theorem short_proto (cam : CameraSession) : NUL ∉ cam.proto ∧ cam.proto.length < 16 :=
  of_default (P := fun s ↦ NUL ∉ s ∧ s.length < 16) cam.serviceProtocol.2 (by decide)

private theorem short_codec (cam : CameraSession) : NUL ∉ cam.codec ∧ cam.codec.length < 16 :=
  of_default (P := fun s ↦ NUL ∉ s ∧ s.length < 16) cam.serviceCodec.2 (by decide)

private theorem short_status (cam : CameraSession) : NUL ∉ cam.status ∧ cam.status.length < 16 := by
  rw [CameraSession.status]
  split <;> decide

private theorem CameraSession.IsPlain.proto {cam : CameraSession} (h : cam.IsPlain) :
    IsPlainText cam.proto := of_default h.serviceProtocol (by decide)

private theorem CameraSession.IsPlain.codec {cam : CameraSession} (h : cam.IsPlain) :
    IsPlainText cam.codec := of_default h.serviceCodec (by decide)

private theorem isPlainText_status (cam : CameraSession) : IsPlainText cam.status := by
  rw [CameraSession.status]
  split <;> decide

/-- The URL of a stream. -/
private theorem isPlainText_url {proto : Bytes} (h : IsPlainText proto) (port : Int) :
    IsPlainText (proto ++ lit "://localhost:" ++ stdToString port ++ lit "/") :=
  ((h.append (by decide)).append (isPlainText_stdToString port)).append (by decide +kernel)

/-- The texts are strings, and one behind the other they are the document of a value. -/
structure Prints (texts : List Bytes) (v : Value) : Prop where
  flatten_eq : texts.flatten = compact v
  nul_not_mem : ∀ text ∈ texts, NUL ∉ text
  unescaped : Unescaped v

/-- Where there is room, the document is printed. -/
theorem Prints.snprintf_eq {texts : List Bytes} {v : Value} (h : Prints texts v) {size : Nat}
    (hsize : texts.flatten.length < size) : snprintf size texts = compact v := by
  rw [Kitty.Base.snprintf_eq h.nul_not_mem hsize, h.flatten_eq]

private theorem prints_cameraTexts {cam : CameraSession} (h : cam.IsPlain) (now : Int64) :
    Prints (cameraTexts cam now) (cameraValue cam now) where
  flatten_eq := by
    simp only [cameraTexts, cameraValue, compact, Json.compactMembers, Json.quoted,
      List.flatten_cons, List.flatten_nil, List.isEmpty_cons, List.isEmpty_nil, Bool.false_eq_true,
      if_false, if_true, List.append_assoc, List.cons_append, List.nil_append, List.append_nil]
    rfl
  nul_not_mem := by
    simp only [cameraTexts, List.forall_mem_cons, CameraSession.port, cam.cameraId.2.1,
      (short_proto cam).1, (short_codec cam).1, (short_status cam).1, nul_not_mem_stdToString,
      not_false_eq_true, true_and]
    decide
  unescaped := by
    simp only [cameraValue, Unescaped, Json.MembersUnescaped, CameraSession.port, h.cameraId,
      h.proto, h.codec, isPlainText_status, isPlainText_url, Signal.isNumber_stdToString,
      and_true, true_and]
    decide

private theorem length_cameraTexts (cam : CameraSession) (now : Int64) :
    (cameraTexts cam now).flatten.length ≤ 336 := by
  have hid := cam.cameraId.2.2
  have hproto := (short_proto cam).2
  have hcodec := (short_codec cam).2
  have hstatus := (short_status cam).2
  have hport := length_int32 cam.localListenPort
  have huptime := length_int64 (cam.uptime now)
  have hnames : (lit "\x7b\"camera_id\":\"").length = 14 ∧
      (lit "\",\"local_port\":").length = 15 ∧ (lit ",\"stream_url\":\"").length = 15 ∧
      (lit "://localhost:").length = 13 ∧ (lit "/\",\"protocol\":\"").length = 15 ∧
      (lit "\",\"codec\":\"").length = 11 ∧ (lit "\",\"status\":\"").length = 12 ∧
      (lit "\",\"uptime\":").length = 11 ∧ (lit "\x7d").length = 1 := by decide
  obtain ⟨hn₁, hn₂, hn₃, hn₄, hn₅, hn₆, hn₇, hn₈, hn₉⟩ := hnames
  simp only [cameraTexts, CameraSession.port, List.flatten_cons, List.flatten_nil,
    List.length_append, List.length_nil, hn₁, hn₂, hn₃, hn₄, hn₅, hn₆, hn₇, hn₈, hn₉]
  linarith

/-! ### The list -/

private theorem snprintfAt_eq (total : Nat) (json : Bytes) {texts : List Bytes}
    (hnul : ∀ text ∈ texts, NUL ∉ text) (hfits : json.length + texts.flatten.length < total) :
    snprintfAt total json json.length texts = (json ++ texts.flatten, texts.flatten.length) := by
  rw [snprintfAt, List.take_length, snprintf_eq hnul (by omega), flatMap_cstr hnul]

/-- What the loop appends: there is a comma before each document but the first of the list. -/
def appended (count : Nat) (vs : List Value) : Bytes :=
  if count = 0 then Json.compactItems vs else vs.flatMap fun v ↦ 44 :: compact v

private theorem appended_cons (count : Nat) (v : Value) (vs : List Value) :
    (if 0 < count then lit "," else []) ++ compact v ++ appended (count + 1) vs =
      appended count (v :: vs) := by
  have hcomma : lit "," = [44] := by decide
  rw [appended, if_neg (Nat.succ_ne_zero _), appended]
  by_cases h : count = 0
  · rw [if_pos h, if_neg (by omega), Json.compactItems_cons]
    rfl
  · rw [if_neg h, if_pos (by omega), hcomma]
    rfl

private theorem activeValues_cons (cam : CameraSession) (now : Int64)
    (cams : List (CameraSession × Int64)) : activeValues ((cam, now) :: cams) =
      if cam.active then cameraValue cam now :: activeValues cams else activeValues cams := by
  rw [activeValues, List.filter_cons]
  split <;> rfl

/-- What is printed for one camera of the list. -/
private theorem entryTexts {cam : CameraSession} (h : cam.IsPlain) (now : Int64) (count : Nat) :
    (∀ text ∈ (if 0 < count then lit "," else []) :: cameraTexts cam now, NUL ∉ text) ∧
      ((if 0 < count then lit "," else []) :: cameraTexts cam now).flatten =
        (if 0 < count then lit "," else []) ++ compact (cameraValue cam now) ∧
      ((if 0 < count then lit "," else []) ++ compact (cameraValue cam now)).length ≤ 337 := by
  have hprints := prints_cameraTexts h now
  have hlength := length_cameraTexts cam now
  have hcomma : NUL ∉ (if 0 < count then lit "," else []) ∧
      (if 0 < count then lit "," else []).length ≤ 1 := by split <;> decide
  refine ⟨List.forall_mem_cons.mpr ⟨hcomma.1, hprints.nul_not_mem⟩, ?_, ?_⟩
  · rw [List.flatten_cons, hprints.flatten_eq]
  · rw [List.length_append, ← hprints.flatten_eq]
    omega

/-- The loop appends the document of each active camera. -/
private theorem appendCameras_eq (total : Nat) {cams : List (CameraSession × Int64)}
    (h : ∀ p ∈ cams, p.1.active = true → p.1.IsPlain) (json : Bytes) (count : Nat)
    (hroom : json.length + cams.length * 337 < total) :
    ∃ text, appendCameras total cams ⟨json, json.length, count⟩ =
        ⟨json ++ text, json.length + text.length, count + (activeValues cams).length⟩ ∧
      text = appended count (activeValues cams) ∧ text.length ≤ cams.length * 337 := by
  induction cams generalizing json count with
  | nil =>
    refine ⟨[], ?_, ?_, Nat.zero_le _⟩
    · rw [appendCameras, List.append_nil]
      rfl
    · rw [appended]
      split <;> rfl
  | cons p cams ih =>
    obtain ⟨cam, now⟩ := p
    rw [List.length_cons, Nat.succ_mul] at hroom ⊢
    have hrest : ∀ p ∈ cams, p.1.active = true → p.1.IsPlain :=
      fun p hp ↦ h p (List.mem_cons_of_mem _ hp)
    have hless : json.length + cams.length * 337 < total :=
      Nat.lt_of_le_of_lt (Nat.add_le_add_left (Nat.le_add_right _ _) _) hroom
    rw [activeValues_cons]
    cases hactive : cam.active with
    | false =>
      obtain ⟨text, heq, htext, hlen⟩ := ih hrest json count hless
      refine ⟨text, ?_, htext, Nat.le_add_right_of_le hlen⟩
      rw [appendCameras, hactive, if_neg Bool.false_ne_true, heq]
      rfl
    | true =>
      obtain ⟨hnul, hflatten, hshort⟩ :=
        entryTexts (h (cam, now) List.mem_cons_self hactive) now count
      have happended := appended_cons count (cameraValue cam now) (activeValues cams)
      generalize hentry : (if 0 < count then lit "," else []) ++ compact (cameraValue cam now) =
        entry at hflatten hshort happended
      have hprint := snprintfAt_eq total json hnul (by rw [hflatten]; omega)
      have hroom' : (json ++ entry).length + cams.length * 337 < total := by
        rw [List.length_append]
        omega
      obtain ⟨text, heq, htext, hlen⟩ := ih hrest (json ++ entry) (count + 1) hroom'
      refine ⟨entry ++ text, ?_, ?_, ?_⟩
      · rw [appendCameras, if_pos hactive, hprint, hflatten]
        simp only
        rw [if_neg (by omega), ← List.length_append, heq]
        simp only [List.append_assoc, List.length_append, List.length_cons, if_true]
        rw [Nat.add_assoc, Nat.add_assoc, Nat.add_comm 1]
      · rw [htext]
        exact happended
      · rw [List.length_append]
        omega

private theorem isPlain_of_mem_slots {t : Table} (h : t.IsPlain) :
    ∀ p ∈ t.slots, p.1.active = true → p.1.IsPlain := by
  intro p hp hactive
  obtain ⟨i, -, rfl⟩ := List.mem_map.mp hp
  exact h i hactive

private theorem unescaped_listValue {t : Table} (h : t.IsPlain) : Unescaped (listValue t) := by
  have hvalues : ∀ v ∈ activeValues t.slots, Unescaped v := by
    intro v hv
    obtain ⟨p, hp, rfl⟩ := List.mem_map.mp hv
    obtain ⟨hmem, hactive⟩ := List.mem_filter.mp hp
    exact (prints_cameraTexts (isPlain_of_mem_slots h p hmem hactive) p.2).unescaped
  simp only [listValue, Unescaped, Json.MembersUnescaped, Json.itemsUnescaped_iff,
    Signal.isNumber_stdToString, and_true]
  exact ⟨by decide, hvalues, by decide +kernel⟩

private theorem length_slots (t : Table) : t.slots.length = 32 := by
  rw [Table.slots, List.length_map, List.length_finRange]
  rfl

private theorem length_activeValues_le (t : Table) : (activeValues t.slots).length ≤ 32 := by
  rw [activeValues, List.length_map, ← length_slots t]
  exact List.length_filter_le _ _

private theorem compact_listValue (t : Table) :
    compact (listValue t) = lit "\x7b\"cameras\":[" ++ appended 0 (activeValues t.slots) ++
      [lit "],\"total\":", stdToString (activeValues t.slots).length, lit "\x7d"].flatten := by
  simp only [listValue, compact, Json.compactMembers, Json.quoted, appended, List.flatten_cons,
    List.flatten_nil, List.isEmpty_cons, List.isEmpty_nil, Bool.false_eq_true, if_false, if_true,
    List.append_assoc, List.cons_append, List.nil_append, List.append_nil]
  rfl

/-- The list is the document for all active cameras. -/
private theorem buildCameraListJson_eq {t : Table} (h : t.IsPlain) :
    buildCameraListJson true t = some (compact (listValue t)) ∧
      (compact (listValue t)).length < listTotal := by
  have hopen : (lit "\x7b\"cameras\":[").length = 12 ∧ NUL ∉ lit "\x7b\"cameras\":[" := by
    decide
  have hclose : (lit "],\"total\":").length = 10 ∧ (lit "\x7d").length = 1 := by decide
  have htotal : listTotal = 24640 := rfl
  have hfirst : snprintfAt listTotal [] 0 [lit "\x7b\"cameras\":["] =
      (lit "\x7b\"cameras\":[", (lit "\x7b\"cameras\":[").length) := by
    have hprint := snprintfAt_eq listTotal [] (List.forall_mem_singleton.mpr hopen.2)
      (by decide)
    rwa [List.flatten_singleton] at hprint
  obtain ⟨text, hloop, htext, hlen⟩ := appendCameras_eq listTotal
    (isPlain_of_mem_slots h) (lit "\x7b\"cameras\":[") 0 (by
      rw [hopen.1, length_slots, htotal]
      decide)
  have hcount : (stdToString (activeValues t.slots).length).length ≤ 2 := by
    have hle := length_activeValues_le t
    exact Signal.length_stdToString_le (by decide) (by omega)
  have htail : (lit "\x7b\"cameras\":[" ++ text).length +
      [lit "],\"total\":", stdToString (activeValues t.slots).length, lit "\x7d"].flatten.length <
        listTotal := by
    rw [length_slots] at hlen
    simp only [List.flatten_cons, List.flatten_nil, List.length_append, List.length_nil, hopen.1,
      hclose.1, hclose.2, htotal]
    omega
  have hnul : ∀ text ∈ [lit "],\"total\":", stdToString (activeValues t.slots).length, lit "\x7d"],
      NUL ∉ text := by
    simp only [List.forall_mem_cons, nul_not_mem_stdToString, not_false_eq_true, true_and]
    decide
  have hlast := snprintfAt_eq listTotal (lit "\x7b\"cameras\":[" ++ text) hnul htail
  rw [compact_listValue, ← htext]
  refine ⟨?_, by rw [List.length_append]; exact htail⟩
  rw [List.length_append] at hlast
  rw [buildCameraListJson, if_pos rfl, hfirst]
  simp only
  rw [if_neg (by rw [hopen.1]; decide), hloop]
  simp only [Nat.zero_add]
  rw [hlast]

/-! ### What each handler replies -/

/-- The document for a reconnect that is in progress. -/
def reconnectingValue (id : Bytes) (port : Int32) : Value :=
  .object [(lit "success", .bool true), (lit "camera_id", .string id),
    (lit "local_port", .number (stdToString port.toInt)),
    (lit "status", .string (lit "reconnecting")),
    (lit "stream_url",
      .string (lit "rtsp" ++ lit "://localhost:" ++ stdToString port.toInt ++ lit "/"))]

/-- The document for a new connection. -/
def connectedValue (id : Bytes) (port : Int32) (cam : CameraSession) : Value :=
  .object [(lit "success", .bool true), (lit "camera_id", .string id),
    (lit "local_port", .number (stdToString port.toInt)), (lit "protocol", .string cam.proto),
    (lit "codec", .string cam.codec),
    (lit "stream_url",
      .string (cam.proto ++ lit "://localhost:" ++ stdToString port.toInt ++ lit "/"))]

/-- The document for a session that has been freed. -/
def disconnectedValue (id : Bytes) : Value :=
  .object [(lit "success", .bool true), (lit "camera_id", .string id),
    (lit "status", .string (lit "disconnected"))]

/-- The document about the process. -/
def healthValue (connected : Int32) : Value :=
  .object [(lit "status", .string (lit "ok")),
    (lit "cameras_connected", .number (stdToString connected.toInt))]

/-- The document for an error. -/
def errorValue (error : Bytes) : Value :=
  .object [(lit "success", .bool false), (lit "error", .string error)]

/-- The body of the reply is the document, it is not long, and what it says about success is what
the status says. -/
structure Reply.Says (r : Reply) (v : Value) : Prop where
  json_eq : r.json = compact v
  unescaped : Unescaped v
  length_lt : r.json.length < 10 ^ 5
  statusCode_lt : r.statusCode < 10 ^ 3
  statusText : NUL ∉ r.statusText ∧ r.statusText.length < 32
  success : r.statusCode = 200 ↔ v.get (lit "success") ≠ some (.bool false)

private theorem says_of_compact {json : Bytes} {v : Value} (hjson : json = compact v)
    (hunescaped : Unescaped v) (hlen : json.length < 10 ^ 5)
    (hsuccess : v.get (lit "success") ≠ some (.bool false)) :
    (Reply.mk 200 (lit "OK") json).Says v where
  json_eq := hjson
  unescaped := hunescaped
  length_lt := hlen
  statusCode_lt := Nat.lt_of_lt_of_le (by decide : 200 < 300) (by decide)
  statusText := (by decide : NUL ∉ lit "OK" ∧ (lit "OK").length < 32)
  success := ⟨fun _ ↦ hsuccess, fun _ ↦ rfl⟩

private theorem says_ok {texts : List Bytes} {v : Value} (h : Prints texts v) {size : Nat}
    (hlen : texts.flatten.length < size) (hsize : size ≤ 1024)
    (hsuccess : v.get (lit "success") ≠ some (.bool false)) :
    (Reply.mk 200 (lit "OK") (snprintf size texts)).Says v := by
  have hjson := h.snprintf_eq hlen
  refine says_of_compact hjson h.unescaped ?_ hsuccess
  rw [hjson, ← h.flatten_eq]
  exact Nat.lt_trans hlen (Nat.lt_of_le_of_lt hsize (by decide))

private theorem says_error {statusCode : Nat} {statusText error : Bytes}
    (hcode : statusCode ≠ 200 ∧ statusCode < 10 ^ 3)
    (htext : NUL ∉ statusText ∧ statusText.length < 32)
    (herror : NUL ∉ error ∧ error.length < 64 ∧ IsPlainText error) :
    (Reply.mk statusCode statusText (buildErrorJson error)).Says (errorValue error) := by
  have hnames : (lit "\x7b\"success\":false,\"error\":\"").length = 26 ∧
      (lit "\"\x7d").length = 2 := by decide
  have hprints : Prints [lit "\x7b\"success\":false,\"error\":\"", error, lit "\"\x7d"]
      (errorValue error) := by
    refine ⟨?_, ?_, ?_⟩
    · simp only [errorValue, compact, Json.compactMembers, Json.quoted, List.flatten_cons,
        List.flatten_nil, List.isEmpty_cons, List.isEmpty_nil, Bool.false_eq_true, if_false,
        if_true, List.append_assoc, List.cons_append, List.nil_append, List.append_nil]
      rfl
    · simp only [List.forall_mem_cons, herror.1, not_false_eq_true, true_and]
      decide
    · simp only [errorValue, Unescaped, Json.MembersUnescaped, herror.2.2, and_true, true_and]
      decide
  have hlen :
      [lit "\x7b\"success\":false,\"error\":\"", error, lit "\"\x7d"].flatten.length < 92 := by
    simp only [List.flatten_cons, List.flatten_nil, List.length_append, List.length_nil, hnames.1,
      hnames.2]
    omega
  have hjson := hprints.snprintf_eq (Nat.lt_trans hlen (by decide : 92 < 512))
  refine ⟨hjson, hprints.unescaped, ?_, hcode.2, htext, ?_⟩
  · rw [buildErrorJson, hjson, ← hprints.flatten_eq]
    exact Nat.lt_trans hlen (by decide)
  · exact ⟨fun heq ↦ absurd heq hcode.1, fun hne ↦ absurd rfl hne⟩

/-- A session that is found is active and has the name. -/
private theorem of_findCameraSession {t : Table} {id : Bytes} {i : Fin maxCameras}
    (h : findCameraSession t id = some i) :
    (t.cameras i).active = true ∧ (t.cameras i).cameraId.1 = id := by
  have hfound := List.find?_some h
  simpa using hfound

private theorem says_buildCameraJson {cam : CameraSession} (h : cam.IsPlain) (now : Int64) :
    (Reply.mk 200 (lit "OK") (buildCameraJson cam now 1024)).Says (cameraValue cam now) := by
  have hget : (cameraValue cam now).get (lit "success") = none := rfl
  refine says_ok (prints_cameraTexts h now)
    (Nat.lt_of_le_of_lt (length_cameraTexts cam now) (by decide)) (Nat.le_refl _) ?_
  rw [hget]
  exact fun heq ↦ nomatch heq

private theorem says_reconnecting {id : CString 128} (h : IsPlainText id.1) (port : Int32) :
    (Reply.mk 200 (lit "OK") (snprintf 1024 [lit "\x7b\"success\":true,\"camera_id\":\"", id.1,
      lit "\",\"local_port\":", stdToString port.toInt,
      lit ",\"status\":\"reconnecting\",\"stream_url\":\"rtsp://localhost:",
      stdToString port.toInt, lit "/\"\x7d"])).Says (reconnectingValue id.1 port) := by
  have hid := id.2.2
  have hport := length_int32 port
  have hnames : (lit "\x7b\"success\":true,\"camera_id\":\"").length = 29 ∧
      (lit "\",\"local_port\":").length = 15 ∧
      (lit ",\"status\":\"reconnecting\",\"stream_url\":\"rtsp://localhost:").length = 56 ∧
      (lit "/\"\x7d").length = 3 := by decide
  refine says_ok ⟨?_, ?_, ?_⟩ ?_ (Nat.le_refl _) ?_
  · simp only [reconnectingValue, compact, Json.compactMembers, Json.quoted, List.flatten_cons,
      List.flatten_nil, List.isEmpty_cons, List.isEmpty_nil, Bool.false_eq_true, if_false, if_true,
      List.append_assoc, List.cons_append, List.nil_append, List.append_nil]
    rfl
  · simp only [List.forall_mem_cons, id.2.1, nul_not_mem_stdToString, not_false_eq_true, true_and]
    decide
  · simp only [reconnectingValue, Unescaped, Json.MembersUnescaped, h, Signal.isNumber_stdToString,
      isPlainText_url (by decide : IsPlainText (lit "rtsp")), and_true, true_and]
    decide
  · simp only [List.flatten_cons, List.flatten_nil, List.length_append, List.length_nil, hnames.1,
      hnames.2.1, hnames.2.2.1, hnames.2.2.2]
    omega
  · have hget : (reconnectingValue id.1 port).get (lit "success") = some (.bool true) := rfl
    rw [hget]
    exact fun heq ↦ nomatch heq

private theorem says_connected {id : CString 128} (hid : IsPlainText id.1) (port : Int32)
    {cam : CameraSession} (h : cam.IsPlain) :
    (Reply.mk 200 (lit "OK") (snprintf 1024 [lit "\x7b\"success\":true,\"camera_id\":\"", id.1,
      lit "\",\"local_port\":", stdToString port.toInt, lit ",\"protocol\":\"", cam.proto,
      lit "\",\"codec\":\"", cam.codec, lit "\",\"stream_url\":\"", cam.proto,
      lit "://localhost:", stdToString port.toInt, lit "/\"\x7d"])).Says
        (connectedValue id.1 port cam) := by
  have hlen := id.2.2
  have hport := length_int32 port
  have hproto := short_proto cam
  have hcodec := short_codec cam
  have hnames : (lit "\x7b\"success\":true,\"camera_id\":\"").length = 29 ∧
      (lit "\",\"local_port\":").length = 15 ∧ (lit ",\"protocol\":\"").length = 13 ∧
      (lit "\",\"codec\":\"").length = 11 ∧ (lit "\",\"stream_url\":\"").length = 16 ∧
      (lit "://localhost:").length = 13 ∧ (lit "/\"\x7d").length = 3 := by decide
  obtain ⟨hn₁, hn₂, hn₃, hn₄, hn₅, hn₆, hn₇⟩ := hnames
  refine says_ok ⟨?_, ?_, ?_⟩ ?_ (Nat.le_refl _) ?_
  · simp only [connectedValue, compact, Json.compactMembers, Json.quoted, List.flatten_cons,
      List.flatten_nil, List.isEmpty_cons, List.isEmpty_nil, Bool.false_eq_true, if_false, if_true,
      List.append_assoc, List.cons_append, List.nil_append, List.append_nil]
    rfl
  · simp only [List.forall_mem_cons, id.2.1, hproto.1, hcodec.1, nul_not_mem_stdToString,
      not_false_eq_true, true_and]
    decide
  · simp only [connectedValue, Unescaped, Json.MembersUnescaped, hid, h.proto, h.codec,
      Signal.isNumber_stdToString, isPlainText_url, and_true, true_and]
    decide
  · simp only [List.flatten_cons, List.flatten_nil, List.length_append, List.length_nil, hn₁, hn₂,
      hn₃, hn₄, hn₅, hn₆, hn₇]
    omega
  · have hget : (connectedValue id.1 port cam).get (lit "success") = some (.bool true) := rfl
    rw [hget]
    exact fun heq ↦ nomatch heq

private theorem says_disconnected {id : CString 128} (h : IsPlainText id.1) :
    (Reply.mk 200 (lit "OK") (snprintf 256 [lit "\x7b\"success\":true,\"camera_id\":\"", id.1,
      lit "\",\"status\":\"disconnected\"\x7d"])).Says (disconnectedValue id.1) := by
  have hid := id.2.2
  have hnames : (lit "\x7b\"success\":true,\"camera_id\":\"").length = 29 ∧
      (lit "\",\"status\":\"disconnected\"\x7d").length = 26 := by decide
  refine says_ok ⟨?_, ?_, ?_⟩ ?_ (by decide) ?_
  · simp only [disconnectedValue, compact, Json.compactMembers, Json.quoted, List.flatten_cons,
      List.flatten_nil, List.isEmpty_cons, List.isEmpty_nil, Bool.false_eq_true, if_false, if_true,
      List.append_assoc, List.cons_append, List.nil_append, List.append_nil]
    rfl
  · simp only [List.forall_mem_cons, id.2.1, not_false_eq_true, true_and]
    decide
  · simp only [disconnectedValue, Unescaped, Json.MembersUnescaped, h, and_true, true_and]
    decide
  · simp only [List.flatten_cons, List.flatten_nil, List.length_append, List.length_nil, hnames.1,
      hnames.2]
    omega
  · have hget : (disconnectedValue id.1).get (lit "success") = some (.bool true) := rfl
    rw [hget]
    exact fun heq ↦ nomatch heq

private theorem says_health (t : Table) :
    (handleHealthCheck t).Says (healthValue t.numActiveCameras) := by
  have hcount := length_int32 t.numActiveCameras
  have hnames : (lit "\x7b\"status\":\"ok\",\"cameras_connected\":").length = 35 ∧
      (lit "\x7d").length = 1 := by decide
  refine says_ok ⟨?_, ?_, ?_⟩ ?_ (by decide) ?_
  · simp only [healthValue, compact, Json.compactMembers, Json.quoted, List.flatten_cons,
      List.flatten_nil, List.isEmpty_cons, List.isEmpty_nil, Bool.false_eq_true, if_false, if_true,
      List.append_assoc, List.cons_append, List.nil_append, List.append_nil]
    rfl
  · simp only [List.forall_mem_cons, nul_not_mem_stdToString, not_false_eq_true, true_and]
    decide
  · simp only [healthValue, Unescaped, Json.MembersUnescaped, Signal.isNumber_stdToString, and_true]
    decide
  · simp only [List.flatten_cons, List.flatten_nil, List.length_append, List.length_nil, hnames.1,
      hnames.2]
    omega
  · have hget : (healthValue t.numActiveCameras).get (lit "success") = none := rfl
    rw [hget]
    exact fun heq ↦ nomatch heq

private theorem says_list {t : Table} (h : t.IsPlain) (memory : Bool) :
    ∃ v, (handleListCameras memory t).Says v := by
  cases memory with
  | false => exact ⟨_, says_error (by decide) (by decide) (by decide +kernel)⟩
  | true =>
    obtain ⟨hjson, hlen⟩ := buildCameraListJson_eq h
    have hget : (listValue t).get (lit "success") = none := rfl
    rw [handleListCameras, hjson]
    refine ⟨_, says_of_compact rfl (unescaped_listValue h) (Nat.lt_trans hlen (by decide)) ?_⟩
    rw [hget]
    exact fun heq ↦ nomatch heq

private theorem says_status {t : Table} (h : t.IsPlain) (id : Bytes) :
    ∃ v, (handleGetCameraStatus t id).Says v := by
  rw [handleGetCameraStatus]
  cases hfound : findCameraSession t id with
  | none => exact ⟨_, says_error (by decide) (by decide) (by decide +kernel)⟩
  | some i => exact ⟨_, says_buildCameraJson (h i (of_findCameraSession hfound).1) (t.now i)⟩

private theorem says_disconnect {t : Table} (h : t.IsPlain) (id : Bytes) :
    ∃ v, (handleDisconnectCamera t id).Says v := by
  rw [handleDisconnectCamera]
  cases hfound : findCameraSession t id with
  | none => exact ⟨_, says_error (by decide) (by decide) (by decide +kernel)⟩
  | some i =>
    obtain ⟨hactive, rfl⟩ := of_findCameraSession hfound
    exact ⟨_, says_disconnected (h i hactive).cameraId⟩

private theorem says_createConnection {c : Connecting} (h : c.later.IsPlain) (id : Bytes) :
    ∃ v, (createConnection c id).Says v := by
  rw [createConnection]
  split
  · cases hfound : findCameraSession c.later id with
    | none => exact ⟨_, says_error (by decide) (by decide) (by decide +kernel)⟩
    | some i =>
      obtain ⟨hactive, rfl⟩ := of_findCameraSession hfound
      exact ⟨_, says_connected (h i hactive).cameraId c.port (h i hactive)⟩
  · exact ⟨_, says_error (by decide) (by decide) (by decide +kernel)⟩

private theorem says_connect {t : Table} {c : Connecting} (h : t.IsPlain) (hlater : c.later.IsPlain)
    (id : Bytes) : ∃ v, (handleConnectCamera t c id).Says v := by
  rw [handleConnectCamera]
  cases hfound : findCameraSession t id with
  | none => exact says_createConnection hlater id
  | some i =>
    obtain ⟨hactive, rfl⟩ := of_findCameraSession hfound
    simp only
    split
    · exact ⟨_, says_buildCameraJson (h i hactive) (t.now i)⟩
    · split
      · exact ⟨_, says_reconnecting (h i hactive).cameraId (t.cameras i).localListenPort⟩
      · exact says_createConnection hlater _

/-- Every reply says what its status says. -/
private theorem says_replyTo {t : Table} {c : Connecting} (h : t.IsPlain) (hlater : c.later.IsPlain)
    (apiToken : Bytes) (memory : Bool) (received : Bytes) (behind : Nat → UInt8) :
    ∃ v, (replyTo apiToken memory t c received behind).Says v := by
  rw [replyTo]
  split
  · exact ⟨_, says_error (by decide) (by decide) (by decide +kernel)⟩
  · next req _ =>
    cases route apiToken req with
    | unauthorized =>
      have herror : buildErrorJson (lit "Invalid or missing X-API-Token") =
          lit "\x7b\"success\":false,\"error\":\"Invalid or missing X-API-Token\"\x7d" := by
        decide
      exact ⟨_, herror ▸ says_error (by decide) (by decide) (by decide +kernel)⟩
    | health => exact ⟨_, says_health t⟩
    | listCameras => exact says_list h memory
    | invalidCameraId =>
      exact ⟨_, says_error (by decide) (by decide) (by decide +kernel)⟩
    | connect id => exact says_connect h hlater id
    | disconnect id => exact says_disconnect h id
    | cameraStatus id => exact says_status h id
    | notFound => exact ⟨_, says_error (by decide) (by decide) (by decide +kernel)⟩

/-! ### The whole response -/

private theorem short_corsHeader (corsOrigin : CString 256) :
    NUL ∉ corsHeader corsOrigin ∧ (corsHeader corsOrigin).length < 320 := by
  rw [corsHeader]
  split
  · decide
  · refine ⟨nul_not_mem_snprintf _ _, ?_⟩
    rw [snprintf, List.length_take]
    omega

private theorem short_headerTexts {reply : Reply} {v : Value} (h : reply.Says v)
    (corsOrigin : CString 256) {n : Nat} (hn : n < 10 ^ 5) :
    (∀ text ∈ headerTexts corsOrigin reply n, NUL ∉ text) ∧
      (headerTexts corsOrigin reply n).flatten.length < 8192 := by
  have hcors := short_corsHeader corsOrigin
  have hcode := Signal.length_stdToString_le (by decide) h.statusCode_lt
  have hlen := Signal.length_stdToString_le (by decide) hn
  have htext := h.statusText
  have hnames : (lit "HTTP/1.1 ").length = 9 ∧ (lit " ").length = 1 ∧ CRLF.length = 2 ∧
      (lit "Content-Type: application/json").length = 30 ∧ (lit "Content-Length: ").length = 16 ∧
      (lit "Connection: close").length = 17 := by decide
  obtain ⟨hn₁, hn₂, hn₃, hn₄, hn₅, hn₆⟩ := hnames
  constructor
  · simp only [headerTexts, List.forall_mem_cons, nul_not_mem_stdToString, hcors.1, htext.1,
      not_false_eq_true, true_and]
    decide
  · simp only [headerTexts, List.flatten_cons, List.flatten_nil, List.length_append,
      List.length_nil, hn₁, hn₂, hn₃, hn₄, hn₅, hn₆]
    omega

/-- The header is sent whole, and the body behind it. -/
private theorem sendHttpResponse_eq {reply : Reply} {v : Value} (h : reply.Says v)
    (corsOrigin : CString 256) : sendHttpResponse corsOrigin reply =
      some ((headerTexts corsOrigin reply reply.json.length).flatten ++ reply.json) := by
  have hparse := Json.parse_compact h.unescaped
  rw [← h.json_eq] at hparse
  obtain ⟨hnul, hshort⟩ := short_headerTexts h corsOrigin h.length_lt
  have hprinted := snprintf_eq hnul hshort
  simp only [sendHttpResponse]
  rw [cstr_of_nul_not_mem (Json.nul_not_mem_of_parse hparse), flatMap_cstr hnul, hprinted,
    List.length_append, if_neg (by omega), List.take_left]

/-- A camera that has been connected for some time. -/
def cam001 : CameraSession where
  active := true
  cameraId := ⟨lit "cam001", by decide⟩
  agent := true
  connected := true
  localListenPort := 8002
  serviceProtocol := ⟨lit "rtsp", by decide⟩
  serviceCodec := ⟨[], by decide⟩
  connectionStartTime := 1700000000
  needsReconnect := false

/-- It is the only one, in the third slot. -/
def oneCamera : Table where
  cameras i := if i.val = 2 then cam001 else { cam001 with active := false }
  numActiveCameras := 1
  now _ := 1700000060

private theorem isPlain_oneCamera : oneCamera.IsPlain := by
  intro i hactive
  have hcamera : oneCamera.cameras i = cam001 := by
    by_contra hne
    have hslot : oneCamera.cameras i = { cam001 with active := false } :=
      if_neg fun h ↦ hne (if_pos h)
    rw [hslot] at hactive
    cases hactive
  rw [hcamera]
  exact ⟨by decide, by decide +kernel, by decide +kernel⟩

/-- A request for the list. -/
def listRequest : Bytes := lit "GET /api/cameras HTTP/1.1\r\nHost: localhost:3000\r\n\r\n"

/-- Whatever is received, the reply is a JSON document, sent whole behind a header with its length,
and it says `success` false exactly when the status is not 200. -/
theorem replies_json (apiToken : Bytes) (corsOrigin : CString 256) (memory : Bool) {t : Table}
    {c : Connecting} (h : t.IsPlain) (hlater : c.later.IsPlain) (received : Bytes)
    (behind : Nat → UInt8) :
    let reply := replyTo apiToken memory t c received behind
    sendHttpResponse corsOrigin reply =
        some ((headerTexts corsOrigin reply reply.json.length).flatten ++ reply.json) ∧
      ∃ v, Json.parse reply.json = some v ∧
        (reply.statusCode = 200 ↔ v.get (lit "success") ≠ some (.bool false)) := by
  obtain ⟨v, hv⟩ := says_replyTo h hlater apiToken memory received behind
  refine ⟨sendHttpResponse_eq hv corsOrigin, v, ?_, hv.success⟩
  rw [hv.json_eq]
  exact Json.parse_compact hv.unescaped

theorem replies_json_oneCamera :
    ∃ v, Json.parse (replyTo [] true oneCamera ⟨0, oneCamera⟩ listRequest fun _ ↦ 0).json = some v ∧
      ((replyTo [] true oneCamera ⟨0, oneCamera⟩ listRequest fun _ ↦ 0).statusCode = 200 ↔
        v.get (lit "success") ≠ some (.bool false)) :=
  (replies_json [] ⟨[], by decide⟩ true (c := ⟨0, oneCamera⟩) isPlain_oneCamera isPlain_oneCamera
    listRequest fun _ ↦ 0).2

/-- The list has the documents of the active cameras in the order of their slots and their number,
whatever their number, as long as there is memory for it; the status of a camera is the document of
the first active session with its name. -/
theorem replies_of_table (apiToken : Bytes) (memory : Bool) {t : Table} (h : t.IsPlain)
    (c : Connecting) {received : Bytes} {behind : Nat → UInt8} {req : HttpRequest}
    (hreq : parseHttpRequest received behind = some req) :
    (route apiToken req = .listCameras →
      Json.parse (replyTo apiToken memory t c received behind).json =
        some (if memory then listValue t else errorValue (lit "Out of memory"))) ∧
    ∀ id, route apiToken req = .cameraStatus id →
      Json.parse (replyTo apiToken memory t c received behind).json = some
        (match findCameraSession t id with
        | none => errorValue (lit "Camera not found")
        | some i => cameraValue (t.cameras i) (t.now i)) := by
  constructor
  · intro hroute
    rw [replyTo, hreq]
    simp only [hroute]
    cases memory with
    | false => rfl
    | true =>
      rw [handleListCameras, (buildCameraListJson_eq h).1]
      exact Json.parse_compact (unescaped_listValue h)
  · intro id hroute
    rw [replyTo, hreq]
    simp only [hroute]
    rw [handleGetCameraStatus]
    cases hfound : findCameraSession t id with
    | none => rfl
    | some i =>
      have hsays := says_buildCameraJson (h i (of_findCameraSession hfound).1) (t.now i)
      exact (congrArg Json.parse hsays.json_eq).trans (Json.parse_compact hsays.unescaped)

theorem replies_of_table_oneCamera :
    Json.parse (replyTo [] true oneCamera ⟨0, oneCamera⟩ listRequest fun _ ↦ 0).json =
      some (listValue oneCamera) :=
  (@replies_of_table [] true _ isPlain_oneCamera ⟨0, oneCamera⟩ listRequest (fun _ ↦ 0)
    ⟨lit "GET", lit "/api/cameras", [], [], 0⟩ (by decide)).1 (by decide +kernel)

end Kitty.Http
