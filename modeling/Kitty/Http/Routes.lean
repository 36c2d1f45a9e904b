import Kitty.Base.Find
import Kitty.Http.Request

/-!
# The routes of the camera interface

`extract_camera_id` and the routing in `handle_http_request_thread`;
`src/provider-srt/http_api.h:249–264,407–459`. The endpoint of a camera is found by a search for
`/connect` and then for `/disconnect` anywhere in the path, the camera's own segment included.
-/

namespace Kitty.Http

open Kitty.Base

/-! ### Routing -/

/-- Where a request is sent. -/
inductive Route where
  | unauthorized
  | health
  | listCameras
  | invalidCameraId
  | connect (cameraId : Bytes)
  | disconnect (cameraId : Bytes)
  | cameraStatus (cameraId : Bytes)
  | notFound
  deriving DecidableEq

/-- The byte between the segments of a path. -/
def SLASH : UInt8 := 47

/-- `/api/cameras/`. -/
def camerasPrefix : Bytes := lit "/api/cameras/"

/-- `extract_camera_id` into a field of `outSize` bytes. -/
def extractCameraId (path : Bytes) (outSize : Nat) : Option Bytes :=
  if camerasPrefix.isPrefixOf path then
    let id := (path.drop camerasPrefix.length).takeWhile (· ≠ SLASH)
    if id.length = 0 ∨ outSize ≤ id.length then none else some id
  else none

/-- The routing of `handle_http_request_thread`. -/
def route (apiToken : Bytes) (req : HttpRequest) : Route :=
  let isHealth := req.path == lit "/health"
  if !isHealth && apiToken != [] && req.apiToken != apiToken then .unauthorized
  else if isHealth && req.method == lit "GET" then .health
  else if req.path == lit "/api/cameras" && req.method == lit "GET" then .listCameras
  else if strstr camerasPrefix req.path == some req.path then
    match extractCameraId req.path 128 with
    | none => .invalidCameraId
    | some cameraId =>
      if (strstr (lit "/connect") req.path).isSome && req.method == lit "POST" then
        .connect cameraId
      else if (strstr (lit "/disconnect") req.path).isSome && req.method == lit "POST" then
        .disconnect cameraId
      else if req.method == lit "GET" then .cameraStatus cameraId
      else .notFound
  else .notFound

/-! ### The endpoints -/

/-- A camera id that can be a segment of a path and has room in a session. -/
def Usable (id : Bytes) : Prop := id ≠ [] ∧ SLASH ∉ id ∧ id.length < 128

/-- Whether the request has the token, when one is configured. -/
def Authorized (apiToken : Bytes) (req : HttpRequest) : Prop :=
  apiToken = [] ∨ req.apiToken = apiToken

/-- The request is a POST to an endpoint of a camera. -/
def IsPostTo (apiToken : Bytes) (req : HttpRequest) (id : Bytes) (endpoint : String) : Prop :=
  Authorized apiToken req ∧ req.method = lit "POST" ∧ Usable id ∧
    req.path = camerasPrefix ++ (id ++ lit endpoint)

/-- The two handlers get the requests to their endpoints, with the id, and no others. -/
def RoutedExactly (apiToken : Bytes) (req : HttpRequest) : Prop :=
  ∀ id, (route apiToken req = .connect id ↔ IsPostTo apiToken req id "/connect") ∧
    (route apiToken req = .disconnect id ↔ IsPostTo apiToken req id "/disconnect")

/-- The rest of a path behind a segment. -/
def IsRest (rest : Bytes) : Prop := rest = [] ∨ ∃ t, rest = SLASH :: t

/-- The word opens the id, or a segment of the rest behind it. -/
def Opens (word : Bytes) (id rest : Bytes) : Prop := word <+: id ∨ SLASH :: word <:+: rest

/-! ### The search for an endpoint -/

private theorem prefix_append_rest_iff {word id rest : Bytes} (hword : SLASH ∉ word)
    (hrest : IsRest rest) : word <+: id ++ rest ↔ word <+: id := by
  rcases hrest with rfl | ⟨t, rfl⟩
  · rw [List.append_nil]
  · exact prefix_append_cons_iff hword

/-- A word behind a slash is found in the path of a camera where it opens something. -/
private theorem infix_path_iff {word id rest : Bytes} (hword : SLASH ∉ word)
    (hopens : ¬ SLASH :: word <:+: lit "/api/cameras") (hid : SLASH ∉ id) (hrest : IsRest rest) :
    SLASH :: word <:+: camerasPrefix ++ (id ++ rest) ↔ Opens word id rest := by
  have hsplit : camerasPrefix ++ (id ++ rest) = lit "/api/cameras" ++ SLASH :: (id ++ rest) := by
    have h : camerasPrefix = lit "/api/cameras" ++ [SLASH] := by decide
    rw [h, List.append_assoc, List.singleton_append]
  rw [hsplit, infix_append_head_iff hword, or_iff_right hopens, List.infix_cons_iff,
    List.cons_prefix_cons, prefix_append_rest_iff hword hrest, infix_append_of_not_mem hid, Opens]
  simp

private theorem extractCameraId_eq {id rest : Bytes} (hid : Usable id) (hrest : IsRest rest) :
    extractCameraId (camerasPrefix ++ (id ++ rest)) 128 = some id := by
  obtain ⟨hne, hslash, hlen⟩ := hid
  have htake : (id ++ rest).takeWhile (· ≠ SLASH) = id := by
    have hall : ∀ b ∈ id, decide (b ≠ SLASH) = true := by
      intro b hb
      simpa using fun h : b = SLASH ↦ hslash (h ▸ hb)
    rw [List.takeWhile_append_of_pos hall]
    rcases hrest with rfl | ⟨t, rfl⟩ <;> simp
  have hopens : camerasPrefix.isPrefixOf (camerasPrefix ++ (id ++ rest)) = true :=
    List.isPrefixOf_iff_prefix.mpr (List.prefix_append _ _)
  have hpos := List.length_pos_iff.mpr hne
  rw [extractCameraId, if_pos hopens, List.drop_left]
  dsimp only
  rw [htake, if_neg (by omega)]

private theorem isRest_dropWhile (tail : Bytes) : IsRest (tail.dropWhile (· ≠ SLASH)) := by
  induction tail with
  | nil => exact .inl rfl
  | cons b tail ih =>
    by_cases hb : b = SLASH
    · exact .inr ⟨tail, by simp [hb]⟩
    · rwa [List.dropWhile_cons_of_pos (by simpa using hb)]

/-- A camera id that is taken out of a path is one of its segments. -/
private theorem path_of_extractCameraId {path id : Bytes}
    (h : extractCameraId path 128 = some id) :
    Usable id ∧ ∃ rest, IsRest rest ∧ path = camerasPrefix ++ (id ++ rest) := by
  rw [extractCameraId] at h
  split at h
  · next hopens =>
    obtain ⟨tail, rfl⟩ := List.isPrefixOf_iff_prefix.mp hopens
    rw [List.drop_left] at h
    dsimp only at h
    split at h
    · cases h
    · next hlen =>
      obtain ⟨hne, hroom⟩ := not_or.mp hlen
      cases h
      refine ⟨⟨fun h ↦ hne (List.length_eq_zero_iff.mpr h), fun hmem ↦ ?_, by omega⟩,
        tail.dropWhile (· ≠ SLASH), isRest_dropWhile tail, by rw [List.takeWhile_append_dropWhile]⟩
      simpa using List.mem_takeWhile_imp hmem
  · cases h

/-! ### Where a request goes -/

private theorem camera_path_ne (tail : Bytes) :
    camerasPrefix ++ tail ≠ lit "/health" ∧ camerasPrefix ++ tail ≠ lit "/api/cameras" := by
  have hno : ¬ camerasPrefix <+: lit "/health" ∧ ¬ camerasPrefix <+: lit "/api/cameras" := by
    decide
  exact ⟨fun h ↦ hno.1 (h ▸ List.prefix_append _ _), fun h ↦ hno.2 (h ▸ List.prefix_append _ _)⟩

/-- A request to an endpoint behind a camera id. -/
private theorem route_of_camera {apiToken : Bytes} {req : HttpRequest} {id : Bytes}
    (hauth : Authorized apiToken req) (hpost : req.method = lit "POST")
    (hid : extractCameraId req.path 128 = some id) : route apiToken req =
      if lit "/connect" <:+: req.path then .connect id
      else if lit "/disconnect" <:+: req.path then .disconnect id else .notFound := by
  obtain ⟨-, rest, -, hpath⟩ := path_of_extractCameraId hid
  obtain ⟨hhealth, hlist⟩ := camera_path_ne (id ++ rest)
  rw [← hpath] at hhealth hlist
  have hstart : strstr camerasPrefix req.path = some req.path := by
    have hopens : camerasPrefix <+: req.path := hpath ▸ List.prefix_append _ _
    cases hreq : req.path with
    | nil => exact absurd (hreq ▸ hopens) (by decide)
    | cons b t => rw [strstr, if_pos (List.isPrefixOf_iff_prefix.mpr (hreq ▸ hopens))]
  have htoken : (apiToken != [] && req.apiToken != apiToken) = false := by
    rcases hauth with h | h <;> simp [h]
  have hget : (lit "POST" == lit "GET") = false := by decide
  have hhealth' : (req.path == lit "/health") = false := beq_eq_false_iff_ne.mpr hhealth
  have hlist' : (req.path == lit "/api/cameras") = false := beq_eq_false_iff_ne.mpr hlist
  simp only [route, hhealth', hlist', hget, hstart, hid, hpost, Bool.not_false, Bool.true_and,
    htoken, Bool.false_and, Bool.false_eq_true, if_false, beq_self_eq_true, Bool.and_true, if_true,
    isSome_strstr_iff]

/-- No other request comes to one of the two handlers. -/
private theorem camera_of_route {apiToken : Bytes} {req : HttpRequest} {id : Bytes}
    (h : route apiToken req = .connect id ∨ route apiToken req = .disconnect id) :
    Authorized apiToken req ∧ req.method = lit "POST" ∧ extractCameraId req.path 128 = some id := by
  unfold route at h
  dsimp only at h
  by_cases htoken :
      (!(req.path == lit "/health") && apiToken != [] && req.apiToken != apiToken) = true
  · rw [if_pos htoken] at h
    simp at h
  rw [if_neg htoken] at h
  by_cases hhealth : (req.path == lit "/health" && req.method == lit "GET") = true
  · rw [if_pos hhealth] at h
    simp at h
  rw [if_neg hhealth] at h
  by_cases hlist : (req.path == lit "/api/cameras" && req.method == lit "GET") = true
  · rw [if_pos hlist] at h
    simp at h
  rw [if_neg hlist] at h
  by_cases hstart : (strstr camerasPrefix req.path == some req.path) = true
  · rw [if_pos hstart] at h
    cases hid : extractCameraId req.path 128 with
    | none => simp [hid] at h
    | some cameraId =>
      rw [hid] at h
      dsimp only at h
      obtain ⟨-, rest, -, hpath⟩ := path_of_extractCameraId hid
      have hpathHealth : (req.path == lit "/health") = false :=
        beq_eq_false_iff_ne.mpr (hpath ▸ (camera_path_ne _).1)
      have hauth : Authorized apiToken req := by
        rw [hpathHealth] at htoken
        by_cases hempty : apiToken = []
        · exact .inl hempty
        · exact .inr (by simpa [hempty] using htoken)
      by_cases hpost : req.method = lit "POST"
      · have hsame : cameraId = id := by
          rw [hpost] at h
          split at h
          · simpa using h
          · split at h
            · simpa using h
            · split at h <;> simp at h
        exact ⟨hauth, hpost, congrArg some hsame⟩
      · have hpost' : (req.method == lit "POST") = false := beq_eq_false_iff_ne.mpr hpost
        rw [hpost', Bool.and_false, Bool.and_false, if_neg Bool.false_ne_true,
          if_neg Bool.false_ne_true] at h
        split at h <;> simp at h
  · rw [if_neg hstart] at h
    simp at h

private theorem infix_connect_iff {id rest : Bytes} (hid : Usable id) (hrest : IsRest rest) :
    lit "/connect" <:+: camerasPrefix ++ (id ++ rest) ↔ Opens (lit "connect") id rest := by
  have hword : lit "/connect" = SLASH :: lit "connect" := by decide
  rw [hword]
  exact infix_path_iff (by decide) (by decide +kernel) hid.2.1 hrest

private theorem infix_disconnect_iff {id rest : Bytes} (hid : Usable id) (hrest : IsRest rest) :
    lit "/disconnect" <:+: camerasPrefix ++ (id ++ rest) ↔ Opens (lit "disconnect") id rest := by
  have hword : lit "/disconnect" = SLASH :: lit "disconnect" := by decide
  rw [hword]
  exact infix_path_iff (by decide) (by decide +kernel) hid.2.1 hrest

/-- Where an authorized POST below a camera goes. -/
private theorem route_eq {apiToken : Bytes} {req : HttpRequest} {id rest : Bytes}
    (hauth : Authorized apiToken req) (hpost : req.method = lit "POST") (hid : Usable id)
    (hrest : IsRest rest) (hpath : req.path = camerasPrefix ++ (id ++ rest)) (id' : Bytes) :
    (route apiToken req = .connect id' ↔ id = id' ∧ Opens (lit "connect") id rest) ∧
      (route apiToken req = .disconnect id' ↔ id = id' ∧ ¬ Opens (lit "connect") id rest ∧
        Opens (lit "disconnect") id rest) := by
  have hextract : extractCameraId req.path 128 = some id := hpath ▸ extractCameraId_eq hid hrest
  have hconnectIff := infix_connect_iff hid hrest
  have hdisconnectIff := infix_disconnect_iff hid hrest
  rw [← hpath] at hconnectIff hdisconnectIff
  rw [route_of_camera hauth hpost hextract, ← hconnectIff, ← hdisconnectIff]
  by_cases hconnect : lit "/connect" <:+: req.path
  · simp [hconnect]
  · by_cases hdisconnect : lit "/disconnect" <:+: req.path <;> simp [hconnect, hdisconnect]

/-- The routing of a request is exact, unless it is an authorized POST below a camera in whose
path `/connect`, or else `/disconnect`, stands elsewhere than as the whole rest of it. -/
theorem routedExactly_iff (apiToken : Bytes) (req : HttpRequest) : RoutedExactly apiToken req ↔
    (Authorized apiToken req → req.method = lit "POST" → ∀ id rest, Usable id → IsRest rest →
      req.path = camerasPrefix ++ (id ++ rest) →
        (Opens (lit "connect") id rest → rest = lit "/connect") ∧
        (¬ Opens (lit "connect") id rest → Opens (lit "disconnect") id rest →
          rest = lit "/disconnect")) := by
  constructor
  · intro h hauth hpost id rest hid hrest hpath
    obtain ⟨hconnect, hdisconnect⟩ := h id
    obtain ⟨hc, hd⟩ := route_eq hauth hpost hid hrest hpath id
    have hrestOf : ∀ endpoint, IsPostTo apiToken req id endpoint → rest = lit endpoint := by
      rintro endpoint ⟨-, -, -, hpath'⟩
      exact List.append_cancel_left (List.append_cancel_left (hpath.symm.trans hpath'))
    exact ⟨fun ho ↦ hrestOf _ (hconnect.mp (hc.mpr ⟨rfl, ho⟩)),
      fun hno ho ↦ hrestOf _ (hdisconnect.mp (hd.mpr ⟨rfl, hno, ho⟩))⟩
  · intro h id
    have hback : route apiToken req = .connect id ∨ route apiToken req = .disconnect id →
        Authorized apiToken req ∧ req.method = lit "POST" ∧ Usable id ∧
          ∃ rest, IsRest rest ∧ req.path = camerasPrefix ++ (id ++ rest) := by
      intro hroute
      obtain ⟨hauth, hpost, hextract⟩ := camera_of_route hroute
      exact ⟨hauth, hpost, path_of_extractCameraId hextract⟩
    constructor
    · constructor
      · intro hroute
        obtain ⟨hauth, hpost, hid, rest, hrest, hpath⟩ := hback (.inl hroute)
        have hopens := ((route_eq hauth hpost hid hrest hpath id).1.mp hroute).2
        refine ⟨hauth, hpost, hid, ?_⟩
        rw [hpath, (h hauth hpost id rest hid hrest hpath).1 hopens]
      · rintro ⟨hauth, hpost, hid, hpath⟩
        have hrest : IsRest (lit "/connect") := .inr ⟨lit "connect", by decide⟩
        refine (route_eq hauth hpost hid hrest hpath id).1.mpr ⟨rfl, .inr ?_⟩
        decide
    · constructor
      · intro hroute
        obtain ⟨hauth, hpost, hid, rest, hrest, hpath⟩ := hback (.inr hroute)
        obtain ⟨-, hno, hopens⟩ := (route_eq hauth hpost hid hrest hpath id).2.mp hroute
        refine ⟨hauth, hpost, hid, ?_⟩
        rw [hpath, (h hauth hpost id rest hid hrest hpath).2 hno hopens]
      · rintro ⟨hauth, hpost, hid, hpath⟩
        have hrest : IsRest (lit "/disconnect") := .inr ⟨lit "disconnect", by decide⟩
        have hno : ¬ Opens (lit "connect") id (lit "/disconnect") := by
          intro hopens
          have hsame := (h hauth hpost id _ hid hrest hpath).1 hopens
          revert hsame
          decide
        refine (route_eq hauth hpost hid hrest hpath id).2.mpr ⟨rfl, hno, .inr ?_⟩
        decide

/-- To disconnect the camera `connector-1` is to connect it. -/
theorem not_routedExactly_of_id : ¬ ∀ (apiToken : Bytes) (req : HttpRequest),
    RoutedExactly apiToken req := by
  intro h
  have hdisconnect := ((h [] ⟨lit "POST", lit "/api/cameras/connector-1/disconnect", [], [], 0⟩)
    (lit "connector-1")).2.mpr ⟨.inl rfl, rfl, ⟨by decide, by decide +kernel,
      by decide⟩, by decide +kernel⟩
  revert hdisconnect
  decide

end Kitty.Http
