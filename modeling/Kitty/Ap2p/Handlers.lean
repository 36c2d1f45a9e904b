import Kitty.Base.Bytes

/-!
# What the handlers of the cases do

A handler asks the camera over HTTP, cleans the answer and publishes it. Most of them keep the
answer in the one global `response`, a few in an array of their own;
`src/ap2p/legacy_cases.c:508–588, 684–692, 758–1955, 2224–2297` and `src/ap2p/n_https.c:42–105`.
-/

namespace Kitty.Ap2p

open Kitty.Base

/-- The methods the handlers use. -/
inductive Method where
  | get
  | put
  deriving DecidableEq

/-- The arguments of `send_https_request`. -/
structure Request where
  endpoint : Bytes
  method : Method
  data : Bytes
  deriving DecidableEq

/-- A request without data. -/
def Request.get (endpoint : String) : Request := ⟨lit endpoint, .get, []⟩

/-- A request with data. -/
def Request.put (endpoint : String) (data : Bytes) : Request := ⟨lit endpoint, .put, data⟩

/-- The global `response`, or the array a handler declares under the same name. -/
inductive Buffer where
  | response
  | array
  deriving DecidableEq

/-- The size of a buffer. -/
def Buffer.size : Buffer → Nat
  | .response => 8192
  | .array => 1024

/-- What a cleared buffer reads as when the answer was written to it. -/
def fill (buffer : Buffer) (answer : Bytes) : Bytes := cstr (answer.take (buffer.size - 1))

/-- `sanitize_response`. -/
def sanitizeResponse (response : Bytes) : Bytes :=
  response.map fun b ↦ if b < 32 || 126 < b then 32 else b

/-- One thing a handler does. A request may be `checked`: the handler returns when it fails. A
confirmation is published when the last request succeeded. -/
inductive Op where
  | request (buffer : Buffer) (request : Request) (checked : Bool)
  | sanitize (buffer : Buffer)
  | publish (buffer : Buffer) (caseValue : Int)
  | publishText (text : Bytes) (caseValue : Int)
  | confirm (text : Bytes) (caseValue : Int)
  | systemInfo
  deriving DecidableEq

/-- The body of most handlers. -/
def relay (request : Request) (caseValue : Int) : List Op :=
  [.request .response request false, .sanitize .response, .publish .response caseValue]

/-- A message of `legacy_message_arrived`: the number of its case and its payload. What the handler
makes of the payload comes with it: whether it gets past its own checks, the endpoint it builds
from it, the one it asks afterwards, the texts it reports, and what stands in an array that it
does not clear. -/
structure Arrival where
  caseValue : Int
  payload : Bytes
  passes : Bool
  endpoint : Bytes
  second : Bytes
  reports : List Bytes
  array : Bytes

/-- The requests of the handlers that clean and publish the answer in the global buffer. -/
def relayedRequest (a : Arrival) : Option Request :=
  match a.caseValue with
  | 2 => some (.get "/netsdk/video/encode/channel/101")
  | 4 => some (.get "/netsdk/Network/Interface/1")
  | 5 => some (.get "/netsdk/Network/Dns")
  | 6 => some (.get "/netsdk/video/input/channel/1")
  | 7 => some (.get "/netsdk/System/deviceInfo/macAddress")
  | 8 => some (.get "/netsdk/system/deviceinfo")
  | 9 => some (.get "/NetSDK/System/time/localTime")
  | 10 => some (.get "/NetSDK/Video/motionDetection/channel/1")
  | 11 => some (.get "/NetSdk/V2/Alarm")
  | 19 => some (.put "/netsdk/video/encode/channel/101" a.payload)
  | 20 => some (.put "/netsdk/video/input/channel/1" a.payload)
  | 21 => some (.put "/netsdk/image" a.payload)
  | 23 => some (.put "/netsdk/system/time/ntp" a.payload)
  | 24 => some (.put "/NetSDK/Video/motionDetection/channel/1" a.payload)
  | 25 => some (.put "/NetSdk/V2/Alarm" a.payload)
  | 26 => some (.put "/NetSdk/V2/Image/DWDR" a.payload)
  | 27 => some (.put "/NetSDK/Video/humanDetect/" a.payload)
  | 28 => some (.put "/NetSdk/V2/AI/FaceDetect" a.payload)
  | 29 => some (.put "/NetSdk/V2/AI/LineCrossDetect" a.payload)
  | 30 => some (.put "/NetSdk/V2/AI/HumanCounter" a.payload)
  | 31 => some (.put "/NetSDK/V2/AI/RegionDetect" a.payload)
  | 32 => some (.put "/NetSDK/V2/AI/UnattendedObjDetect" a.payload)
  | 33 => some (.put "/NetSDK/V2/AI/ObjRemoveDetect" a.payload)
  | 35 => some (.get "/netsdk/system/deviceinfo")
  | 38 => some (.get "/netsdk/image")
  | 39 => some (.get "/netsdk/video/encode/channel/102")
  | 40 => some (.put "/netsdk/video/encode/channel/102" a.payload)
  | 41 => some (.put "/netsdk/system/operation/reboot" a.payload)
  | 42 => some ⟨lit "/netsdk/audio/encode/channel/101", .get, a.payload⟩
  | 43 => some (.put "/netsdk/audio/encode/channel/101" a.payload)
  | 45 => some (.put "/NetSdk/V2/Protocol/CustomEventServer" a.payload)
  | 46 => some ⟨lit "/NetSdk/V2/Protocol/CustomEventServer", .get, a.payload⟩
  | 47 => some (.put "/NetSdk/V2/Protocol/CustomEventServer" a.payload)
  | 48 => if a.passes then some (.put "/netsdk/R.SearchRecord" a.payload) else none
  | 51 =>
    if a.passes then
      some ⟨snprintf 256 [lit "/cgi-bin/hi3510/ptzctrl.cgi?-step=0&-act=", a.payload,
        lit "&-speed=5&-presetNUM=1"], .put, []⟩
    else none
  | 52 => some (.get "/NetSDK/PTZ/channel/1/setup")
  | 54 => some (.get "/NetSdk/V2/Alarm")
  | 55 => if a.passes then some (.put "/NetSdk/V2/Alarm" a.payload) else none
  | 58 => some (.get "/netsdk/system/time/ntp")
  | 59 => some (.put "/NetSDK/System/time/timeZone" a.payload)
  | 60 => some (.put "/NetSDK/System/time/localTime" a.payload)
  | 61 => some ⟨lit "/NetSDK/System/time/timeZone", .get, a.payload⟩
  | 62 => some (.get "/NetAPI/SmartDetect/Human")
  | 63 => some (.put "/NetAPI/SmartDetect/Human" a.payload)
  | 64 => some (.get "/NetAPI/SmartDetect/Motion")
  | 65 => some (.put "/NetAPI/SmartDetect/Motion" a.payload)
  | 66 => some (.get "/NetAPI/SmartDetect/Tamper")
  | 68 => some (.get "/NetAPI/User/List")
  | 69 => some (.get "/NetSDK/SDCard/status2")
  | 70 => if a.passes then some ⟨a.endpoint, .put, []⟩ else none
  | 72 => some (.put "/NetAPI/SmartDetect/Tamper" a.payload)
  | 73 => some (.get "/NetAPI/System")
  | 74 => some (.put "/NetAPI/System" a.payload)
  | 75 => some (.get "/NetSdk/Rtmp")
  | 76 => some (.put "/NetSdk/Rtmp" a.payload)
  | 77 => some (.get "/NetAPI/Protocol/RTSPServer")
  | 78 => some (.put "/NetAPI/Protocol/RTSPServer" a.payload)
  | 81 => some (.get "/NetAPI/SmartDetect/Tamper")
  | 83 => some (.get "/NetAPI/R.Sync.Stat.NetWork")
  | _ => none

/-- `{"Data": "…"}`. -/
def dataText (text : String) : Bytes := lit "\x7b\"Data\": \"" ++ lit text ++ lit "\"\x7d"

/-- The cases of `legacy_message_arrived`. Those that neither ask the camera nor publish do
nothing here, and so does the stop that case 51 sends to the camera between its request and its
publish, for it has a buffer of its own. -/
def legacyCase (a : Arrival) : List Op :=
  match relayedRequest a with
  | some request => relay request a.caseValue
  | none =>
    match a.caseValue with
    -- A camera that went offline: `get_ini_files`.
    | 0 => if a.passes then [.publish .response 1] else []
    | 3 | 12 | 13 | 14 | 15 | 16 | 17 | 18 | 22 | 34 | 44 =>
      [.publishText (dataText "not supported in your product") a.caseValue]
    | 36 | 37 => a.reports.map fun text ↦ .publishText text a.caseValue
    | 49 =>
      if a.passes then
        [.request .response ⟨a.endpoint, .get, a.payload⟩ true, .sanitize .response,
          .publishText (dataText "User creat successfully!") a.caseValue]
      else []
    | 50 =>
      if a.passes then
        [.request .array ⟨a.endpoint, .get, a.payload⟩ true, .sanitize .array,
          .publishText (dataText "User Deleted Successfully!") a.caseValue]
      else []
    -- The second answer goes to another array, which is not published.
    | 53 =>
      if a.passes then
        [.request .array (.put "/NetSDK/PTZ/channel/1/setup" a.payload) false,
          .publish .array a.caseValue, .request .array ⟨a.second, .put, []⟩ false]
      else []
    | 67 =>
      [.request .response (.put "/NetSDK/SDCard/format" a.payload) false, .sanitize .response,
        .confirm (dataText "Format Successfully!") a.caseValue]
    | 71 =>
      if a.passes then
        [.request .array ⟨a.endpoint, .put, []⟩ false, .publish .array a.caseValue]
      else []
    | _ => []

/-- What the array of a handler holds before the camera is asked. -/
def Arrival.cleared (a : Arrival) : Bytes := if a.caseValue = 53 then a.array else []

/-- `handle_case_34`. -/
def handleCase34 : List Op :=
  [.request .response ⟨lit "/Netsdk/Vmukti/DeviceInfo", .get, lit " "⟩ true, .sanitize .response,
    .publish .response 34]

/-- `handle_case_0`. -/
def handleCase0 : List Op := [.systemInfo, .publish .response 0]

/-- `cameraname_Change`. -/
def cameranameChange : List Op :=
  [.request .response (.put "/netsdk/video/encode/channel/101"
      (lit "\x7b\"channelName\": \"ARCIS AI\"\x7d")) false,
    .sanitize .response]

/-- `run_startup_cases`, handler by handler. -/
def runStartupCases : List (List Op) :=
  [[.publish .response 1],
    cameranameChange,
    relay (.get "/netsdk/video/input/channel/1") 6,
    relay (.get "/netsdk/image") 38,
    relay (.get "/netsdk/video/encode/channel/102") 39,
    relay (.get "/netsdk/video/encode/channel/101") 2,
    relay (.get "/netsdk/system/deviceinfo") 8,
    relay (.put "/netsdk/system/time/ntp"
      (lit "\x7b\"ntpEnabled\": true, \"ntpServerDomain\": \"pool.ntp.org\"\x7d")) 23,
    relay (.put "/NetSDK/system/time/timeZone" (lit "\"GMT+05:30\"")) 59]

/-- What is left of a handler: the answer to a request is published out of the buffer it was
written to, and is not sanitised any more once it was published. -/
def Shaped : List Op → Prop
  | [] => True
  | .request buffer _ _ :: rest => (∀ b c, Op.publish b c ∈ rest → b = buffer) ∧ Shaped rest
  | .publish buffer _ :: rest => Op.sanitize buffer ∉ rest ∧ Shaped rest
  | _ :: rest => Shaped rest

@[simp] theorem shaped_nil : Shaped [] := trivial

/-- Sanitising twice is sanitising once. -/
@[simp] theorem sanitizeResponse_sanitizeResponse (response : Bytes) :
    sanitizeResponse (sanitizeResponse response) = sanitizeResponse response := by
  rw [sanitizeResponse, sanitizeResponse, List.map_map]
  apply List.map_congr_left
  intro b _
  simp only [Function.comp_apply]
  split
  · decide
  · rfl

/-- Most handlers have that shape. -/
theorem shaped_relay (request : Request) (caseValue : Int) : Shaped (relay request caseValue) := by
  simp [relay, Shaped]

private theorem shaped_texts (texts : List Bytes) (caseValue : Int) :
    Shaped (texts.map fun text ↦ .publishText text caseValue) := by
  induction texts with
  | nil => trivial
  | cons text texts ih => exact ih

/-- Every handler of a message does. -/
theorem shaped_legacyCase (a : Arrival) : Shaped (legacyCase a) := by
  rw [legacyCase]
  cases relayedRequest a with
  | some request => exact shaped_relay request a.caseValue
  | none =>
    dsimp only
    split <;> (try split) <;> simp [Shaped, shaped_texts]

/-- The handlers of the keepalive thread do. -/
theorem shaped_keepalive : Shaped handleCase34 ∧ Shaped handleCase0 := by
  simp [handleCase34, handleCase0, Shaped]

/-- The handlers of the startup thread do. -/
theorem shaped_startup : ∀ ops ∈ runStartupCases, Shaped ops := by
  simp [runStartupCases, cameranameChange, shaped_relay, Shaped]

end Kitty.Ap2p
