import Kitty.Signal.StatsJson
import Kitty.Web.Parameters
import Kitty.Web.Session

/-!
# Who may see what on the dashboard

`handle_http_request` with `is_authenticated` and `extract_api_token`;
`src/signaling-server/signaling_server.cpp:306–342,966–1010,1265–1383`. The login page, the login
and the logout come before the check, everything else behind it. A request takes the lock of the
sessions once at most, so that requests can be looked at one after the other. The dashboard page is
a constant text, and is left open here.
-/

namespace Kitty.Web

open Kitty.Base
open Kitty.Signal (Config Registry StatsPage generateJsonStats)

/-! ### Pages -/

/-- The login page up to the error. -/
private def loginPageBefore : List String :=
  ["<!DOCTYPE html>",
    "<html>",
    "<head>",
    "    <title>P2P Server - Login</title>",
    "    <meta charset=\"UTF-8\">",
    "    <meta name=\"viewport\" content=\"width=device-width, initial-scale=1.0\">",
    "    <style>",
    "        * \x7b margin: 0; padding: 0; box-sizing: border-box; \x7d",
    "        body \x7b font-family: -apple-system, BlinkMacSystemFont, 'Segoe UI', Arial, " ++
      "sans-serif; background: #0f172a; color: #e2e8f0; display: flex; justify-content: center; " ++
      "align-items: center; min-height: 100vh; \x7d",
    "        .login-container \x7b background: #1e293b; border-radius: 16px; padding: 40px; " ++
      "border: 1px solid #334155; width: 100%; max-width: 400px; box-shadow: 0 25px 50px -12px " ++
      "rgba(0, 0, 0, 0.25); \x7d",
    "        h1 \x7b font-size: 1.5rem; color: #60a5fa; margin-bottom: 8px; text-align: center; " ++
      "\x7d",
    "        .subtitle \x7b color: #94a3b8; font-size: 0.875rem; text-align: center; " ++
      "margin-bottom: 30px; \x7d",
    "        .form-group \x7b margin-bottom: 20px; \x7d",
    "        label \x7b display: block; font-size: 0.875rem; color: #94a3b8; margin-bottom: " ++
      "6px; font-weight: 600; \x7d",
    "        input[type=\"text\"], input[type=\"password\"] \x7b width: 100%; padding: 12px " ++
      "16px; background: #0f172a; border: 1px solid #334155; border-radius: 8px; color: " ++
      "#e2e8f0; font-size: 1rem; outline: none; transition: border-color 0.2s; \x7d",
    "        input:focus \x7b border-color: #3b82f6; \x7d",
    "        button \x7b width: 100%; padding: 12px; background: #3b82f6; color: white; border: " ++
      "none; border-radius: 8px; font-size: 1rem; font-weight: 600; cursor: pointer; " ++
      "transition: background 0.2s; \x7d",
    "        button:hover \x7b background: #2563eb; \x7d",
    "        .error \x7b background: #7f1d1d; color: #fca5a5; padding: 10px 16px; " ++
      "border-radius: 8px; font-size: 0.875rem; margin-bottom: 20px; text-align: center; \x7d",
    "        .icon \x7b text-align: center; font-size: 3rem; margin-bottom: 16px; \x7d",
    "    </style>",
    "</head>",
    "<body>",
    "    <div class=\"login-container\">",
    "        <div class=\"icon\">&#x1f510;</div>",
    "        <h1>P2P Signaling Server</h1>",
    "        <p class=\"subtitle\">Sign in to access the dashboard</p>",
    "        "]

/-- The login page behind the error. -/
private def loginPageBehind : List String :=
  ["",
    "        <form method=\"POST\" action=\"/login\">",
    "            <div class=\"form-group\">",
    "                <label>Username</label>",
    "                <input type=\"text\" name=\"username\" required autofocus>",
    "            </div>",
    "            <div class=\"form-group\">",
    "                <label>Password</label>",
    "                <input type=\"password\" name=\"password\" required>",
    "            </div>",
    "            <button type=\"submit\">Sign In</button>",
    "        </form>",
    "    </div>",
    "</body>",
    "</html>"]

/-- `generate_login_page`. -/
def generateLoginPage (error : Bytes) : Bytes :=
  [LF].intercalate (loginPageBefore.map lit) ++
    (if error = [] then [] else lit "<div class=\"error\">" ++ error ++ lit "</div>") ++
    [LF].intercalate (loginPageBehind.map lit)

/-- The lines of a response before its body. -/
def responseHead (lines : List Bytes) : Bytes := lines.flatMap (· ++ [CR, LF]) ++ [CR, LF]

/-- `Content-Length`. -/
def contentLength (body : Bytes) : Bytes :=
  lit "Content-Length: " ++ stdToString body.length

/-- A response with a page. -/
def htmlResponse (html : Bytes) : Bytes :=
  responseHead [lit "HTTP/1.1 200 OK", lit "Content-Type: text/html", contentLength html] ++ html

/-- The response to a login. -/
def loggedInResponse (token : Bytes) : Bytes :=
  responseHead [lit "HTTP/1.1 302 Found",
    lit "Set-Cookie: p2p_session=" ++ token ++ lit "; Path=/; HttpOnly; SameSite=Strict",
    lit "Location: /", lit "Content-Length: 0"]

/-- The response to a logout. -/
def loggedOutResponse : Bytes :=
  responseHead [lit "HTTP/1.1 302 Found",
    lit "Set-Cookie: p2p_session=; Path=/; HttpOnly; Max-Age=0", lit "Location: /login",
    lit "Content-Length: 0"]

/-- What an API request is refused with. -/
def refusalJson : Bytes :=
  lit ("\x7b\"error\":\"Authentication required\",\"hint\":\"Use Authorization: Bearer " ++
    "<token> or X-API-Token: <token>\"\x7d")

/-- The response to a request that is not authenticated. -/
def refusal (request : Bytes) : Bytes :=
  if find (lit "GET /api/") request = some 0 then
    responseHead [lit "HTTP/1.1 401 Unauthorized", lit "Content-Type: application/json",
      contentLength refusalJson] ++ refusalJson
  else
    responseHead [lit "HTTP/1.1 302 Found", lit "Location: /login", lit "Content-Length: 0"]

/-- The response with the statistics. -/
def statsResponse (json : Bytes) : Bytes :=
  responseHead [lit "HTTP/1.1 200 OK", lit "Content-Type: application/json",
    lit "Access-Control-Allow-Origin: *", contentLength json] ++ json

/-! ### The program -/

/-- What `handle_http_request` reads and writes: the configuration, with the name and the password
of the dashboard; the registries, their histories and subscribers; what else the statistics show;
the sessions. -/
structure WebServer where
  config : Config
  authUsername : Bytes
  authPassword : Bytes
  registry : Registry
  page : StatsPage
  sessions : Sessions

/-- A connection to the HTTP port: what `recv` brings, the clock, and the token that
`generate_session_token` would make. -/
structure HttpCall where
  received : Bytes
  now : Int
  token : Bytes

/-- `request`, from a buffer of 8192 bytes with a NUL at its end. -/
def HttpCall.request (e : HttpCall) : Bytes := cstr (e.received.take 8191)

/-- The token behind a header, in one of two spellings, when it is not blank. -/
def headerToken (request header other : Bytes) : Option Bytes :=
  ((find header request).or (find other request)).bind fun pos ↦
    let start := pos + header.length
    let token := match findFrom [CR, LF] request start with
      | none => request.drop start
      | some lineEnd => (request.drop start).take (lineEnd - start)
    if trimBy isBlank token = [] then none else some (trimBy isBlank token)

/-- `extract_api_token`. -/
def extractApiToken (request : Bytes) : Bytes :=
  ((headerToken request (lit "Authorization: Bearer ") (lit "authorization: Bearer ")).or
    (headerToken request (lit "X-API-Token: ") (lit "x-api-token: "))).getD []

namespace WebServer

/-- The request has the API token. -/
def hasApiToken (w : WebServer) (request : Bytes) : Bool :=
  w.config.apiToken != [] && extractApiToken request != [] &&
    extractApiToken request == w.config.apiToken

/-- `is_authenticated`, with the sessions behind it. -/
def isAuthenticated (w : WebServer) (request : Bytes) (now : Int) : Bool × Sessions :=
  if w.hasApiToken request then (true, w.sessions)
  else validateSession w.sessions (extractCookie request (lit "p2p_session")) now

/-- The body of a login names the user and the password. -/
def loginMatches (w : WebServer) (request : Bytes) : Bool :=
  let body := match find [CR, LF, CR, LF] request with
    | some bodyStart => request.drop (bodyStart + 4)
    | none => []
  extractFormField body (lit "username") == w.authUsername &&
    extractFormField body (lit "password") == w.authPassword

/-- The routes behind the check. -/
def authenticated (quotient : Nat → Nat → Nat) (dashboard : Bytes) (w : WebServer)
    (request : Bytes) : Bytes :=
  if find (lit "GET /api/stats") request = some 0 then
    statsResponse (generateJsonStats quotient w.config w.page
      ⟨w.registry.providers, w.registry.serverStats, w.registry.srtProviders⟩)
  else if find (lit "GET / ") request = some 0 ∨ find (lit "GET /index.html") request = some 0 then
    htmlResponse dashboard
  else lit "HTTP/1.1 404 Not Found\r\n\r\n"

/-- `handle_http_request`: what is sent, if anything, and the server behind it. -/
def handleHttpRequest (quotient : Nat → Nat → Nat) (dashboard : Bytes) (w : WebServer)
    (e : HttpCall) : Option Bytes × WebServer :=
  if e.received = [] then (none, w)
  else if find (lit "GET /login") e.request = some 0 then
    (some (htmlResponse (generateLoginPage [])), w)
  else if find (lit "POST /login") e.request = some 0 then
    if w.loginMatches e.request then
      (some (loggedInResponse e.token),
        { w with sessions := createSession w.sessions e.token e.now })
    else (some (htmlResponse (generateLoginPage (lit "Invalid username or password"))), w)
  else if find (lit "GET /logout") e.request = some 0 then
    let session := extractCookie e.request (lit "p2p_session")
    (some loggedOutResponse,
      if session ≠ [] then { w with sessions := removeSession w.sessions session } else w)
  else
    let checked := w.isAuthenticated e.request e.now
    (some (if checked.1 then w.authenticated quotient dashboard e.request else refusal e.request),
      { w with sessions := checked.2 })

/-! ### Two servers that differ in what they have registered -/

/-- The sessions and the credentials are the same. -/
structure Agrees (w v : WebServer) : Prop where
  sessions : w.sessions = v.sessions
  apiToken : w.config.apiToken = v.config.apiToken
  authUsername : w.authUsername = v.authUsername
  authPassword : w.authPassword = v.authPassword

section Agrees

variable {w v : WebServer}

theorem Agrees.isAuthenticated (h : w.Agrees v) (request : Bytes) (now : Int) :
    w.isAuthenticated request now = v.isAuthenticated request now := by
  have htoken : w.hasApiToken request = v.hasApiToken request := by
    rw [hasApiToken, hasApiToken, h.apiToken]
  rw [WebServer.isAuthenticated, WebServer.isAuthenticated, htoken, h.sessions]

theorem Agrees.loginMatches (h : w.Agrees v) (request : Bytes) :
    w.loginMatches request = v.loginMatches request := by
  rw [WebServer.loginMatches, WebServer.loginMatches, h.authUsername, h.authPassword]

/-- Nothing but the sessions and the credentials has a say in what a request gets that is not
authenticated. -/
theorem Agrees.handleHttpRequest (h : w.Agrees v) (quotient : Nat → Nat → Nat) (dashboard : Bytes)
    {e : HttpCall} (hauth : (w.isAuthenticated e.request e.now).1 = false) :
    (w.handleHttpRequest quotient dashboard e).1 = (v.handleHttpRequest quotient dashboard e).1 ∧
      (w.handleHttpRequest quotient dashboard e).2.sessions =
        (v.handleHttpRequest quotient dashboard e).2.sessions := by
  unfold WebServer.handleHttpRequest
  by_cases hreceived : e.received = []
  · rw [if_pos hreceived, if_pos hreceived]
    exact ⟨rfl, h.sessions⟩
  rw [if_neg hreceived, if_neg hreceived]
  by_cases hpage : find (lit "GET /login") e.request = some 0
  · rw [if_pos hpage, if_pos hpage]
    exact ⟨rfl, h.sessions⟩
  rw [if_neg hpage, if_neg hpage]
  by_cases hlogin : find (lit "POST /login") e.request = some 0
  · rw [if_pos hlogin, if_pos hlogin, h.loginMatches, h.sessions]
    split
    · exact ⟨rfl, rfl⟩
    · exact ⟨rfl, h.sessions⟩
  rw [if_neg hlogin, if_neg hlogin]
  by_cases hlogout : find (lit "GET /logout") e.request = some 0
  · rw [if_pos hlogout, if_pos hlogout, h.sessions]
    dsimp only
    split
    · exact ⟨rfl, rfl⟩
    · exact ⟨rfl, h.sessions⟩
  rw [if_neg hlogout, if_neg hlogout]
  have hauth' := hauth
  rw [h.isAuthenticated] at hauth'
  dsimp only
  rw [hauth, hauth', if_neg Bool.false_ne_true, if_neg Bool.false_ne_true, h.isAuthenticated]
  exact ⟨rfl, rfl⟩

end Agrees

/-! ### The sessions behind a request -/

/-- What a request does with the sessions. -/
def sessionEvent (w : WebServer) (e : HttpCall) : Option SessionEvent :=
  if e.received = [] ∨ find (lit "GET /login") e.request = some 0 then none
  else if find (lit "POST /login") e.request = some 0 then
    if w.loginMatches e.request then some ⟨e.now, .create e.token⟩ else none
  else if find (lit "GET /logout") e.request = some 0 then
    if extractCookie e.request (lit "p2p_session") ≠ [] then
      some ⟨e.now, .remove (extractCookie e.request (lit "p2p_session"))⟩
    else none
  else if w.hasApiToken e.request then none
  else some ⟨e.now, .validate (extractCookie e.request (lit "p2p_session"))⟩

/-- A request is one event for the sessions, or none, and leaves the rest as it is. -/
theorem handleHttpRequest_snd (quotient : Nat → Nat → Nat) (dashboard : Bytes) (w : WebServer)
    (e : HttpCall) : (w.handleHttpRequest quotient dashboard e).2 =
      { w with sessions := ((w.sessionEvent e).map (·.apply w.sessions)).getD w.sessions } := by
  unfold handleHttpRequest sessionEvent
  by_cases hreceived : e.received = []
  · rw [if_pos hreceived, if_pos (.inl hreceived)]
    rfl
  rw [if_neg hreceived]
  by_cases hpage : find (lit "GET /login") e.request = some 0
  · rw [if_pos hpage, if_pos (.inr hpage)]
    rfl
  rw [if_neg hpage, if_neg (not_or.mpr ⟨hreceived, hpage⟩)]
  by_cases hlogin : find (lit "POST /login") e.request = some 0
  · rw [if_pos hlogin, if_pos hlogin]
    split <;> rfl
  rw [if_neg hlogin, if_neg hlogin]
  by_cases hlogout : find (lit "GET /logout") e.request = some 0
  · rw [if_pos hlogout, if_pos hlogout]
    dsimp only
    split <;> rfl
  rw [if_neg hlogout, if_neg hlogout]
  unfold isAuthenticated
  split <;> rfl

end WebServer

/-! ### Fewer sessions -/

/-- Every session of the one is a session of the other. -/
def Within (s u : Sessions) : Prop :=
  ∀ (token : Bytes) (session : Session), s[token]? = some session → u[token]? = some session

/-- An event leaves fewer sessions where there were fewer. -/
theorem Within.apply {s u : Sessions} (h : Within s u) (e : SessionEvent) :
    Within (e.apply s) (e.apply u) := by
  intro token session hsession
  by_cases htoken : e.op.token = token
  · obtain ⟨time, op⟩ := e
    cases op with
    | create other =>
      cases htoken
      exact Std.ExtTreeMap.getElem?_insert_self.trans
        (Std.ExtTreeMap.getElem?_insert_self.symm.trans hsession)
    | validate other =>
      cases htoken
      simp only [SessionEvent.apply, SessionOp.token] at hsession ⊢
      unfold validateSession at hsession ⊢
      split at hsession
      · next hnil =>
        rw [if_pos hnil]
        exact h _ _ hsession
      · next hnil =>
        rw [if_neg hnil]
        cases hs : s[other]? with
        | none =>
          rw [hs] at hsession
          dsimp only at hsession
          rw [hs] at hsession
          cases hsession
        | some old =>
          rw [h _ _ hs]
          rw [hs] at hsession
          dsimp only at hsession ⊢
          split at hsession
          · rw [Std.ExtTreeMap.getElem?_erase_self] at hsession
            cases hsession
          · next hlate =>
            rw [if_neg hlate]
            exact Std.ExtTreeMap.getElem?_insert_self.trans
              (Std.ExtTreeMap.getElem?_insert_self.symm.trans hsession)
    | remove other =>
      cases htoken
      have hnone : (removeSession s other)[other]? = none := Std.ExtTreeMap.getElem?_erase_self
      cases hnone.symm.trans hsession
  · rw [getElem?_apply_of_ne htoken] at hsession ⊢
    exact h _ _ hsession

/-- A removal, or a validation that fails, leaves fewer sessions. -/
theorem within_of_ended {s : Sessions} {e : SessionEvent} {token : Bytes}
    (h : e.op = .remove token ∨
      e.op = .validate token ∧ (validateSession s token e.time).1 = false) :
    Within (e.apply s) s := by
  intro other session hsession
  by_cases hother : e.op.token = other
  · by_cases hnil : token = [] ∧ e.op = .validate token
    · -- The empty token is not looked up.
      obtain ⟨time, op⟩ := e
      obtain ⟨rfl, hop⟩ := hnil
      cases hop
      exact hsession
    · have hop : e.op.token = token := by
        rcases h with hop | ⟨hop, -⟩ <;> rw [hop] <;> rfl
      have hnone : (e.apply s)[token]? = none := by
        apply getElem?_apply_of_ended
        exact h.imp_right fun hfail ↦ ⟨hfail.1, fun heq ↦ hnil ⟨heq, hfail.1⟩, hfail.2⟩
      rw [← hother, hop, hnone] at hsession
      cases hsession
  · rwa [getElem?_apply_of_ne hother] at hsession

namespace WebServer

/-- A login with the configured credentials. -/
def LogsIn (w : WebServer) (e : HttpCall) : Prop :=
  find (lit "POST /login") e.request = some 0 ∧ w.loginMatches e.request = true

/-- What happens at the server: a request, or something that changes the registries and what else
the statistics show. -/
inductive Event where
  | http (e : HttpCall)
  | elsewhere (registry : Registry) (page : StatsPage)

/-- One event. -/
def step (quotient : Nat → Nat → Nat) (dashboard : Bytes) (w : WebServer) : Event → WebServer
  | .http e => (w.handleHttpRequest quotient dashboard e).2
  | .elsewhere registry page => { w with registry, page }

/-- One event after the other. -/
def after (quotient : Nat → Nat → Nat) (dashboard : Bytes) (w : WebServer) (es : List Event) :
    WebServer :=
  es.foldl (step quotient dashboard) w

/-- The credentials are the same, and there are fewer sessions. -/
structure Below (w v : WebServer) : Prop where
  sessions : Within w.sessions v.sessions
  apiToken : w.config.apiToken = v.config.apiToken
  authUsername : w.authUsername = v.authUsername
  authPassword : w.authPassword = v.authPassword

section Below

variable {w v : WebServer}

theorem Below.refl (w : WebServer) : w.Below w where
  sessions _ _ h := h
  apiToken := rfl
  authUsername := rfl
  authPassword := rfl

theorem Below.sessionEvent (h : w.Below v) (e : HttpCall) :
    w.sessionEvent e = v.sessionEvent e := by
  have htoken : w.hasApiToken e.request = v.hasApiToken e.request := by
    rw [hasApiToken, hasApiToken, h.apiToken]
  have hlogin : w.loginMatches e.request = v.loginMatches e.request := by
    rw [loginMatches, loginMatches, h.authUsername, h.authPassword]
  rw [WebServer.sessionEvent, WebServer.sessionEvent, htoken, hlogin]

/-- Whoever is authenticated with fewer sessions is so with more. -/
theorem Below.isAuthenticated (h : w.Below v) {request : Bytes} {now : Int}
    (hauth : (w.isAuthenticated request now).1 = true) :
    (v.isAuthenticated request now).1 = true := by
  have htoken : w.hasApiToken request = v.hasApiToken request := by
    rw [hasApiToken, hasApiToken, h.apiToken]
  unfold WebServer.isAuthenticated at hauth ⊢
  rw [htoken] at hauth
  split at hauth
  · next hyes => rw [if_pos hyes]
  · next hno =>
    rw [if_neg hno]
    generalize extractCookie request (lit "p2p_session") = token at hauth ⊢
    have hne : token ≠ [] := by
      rintro rfl
      cases hauth
    cases hs : w.sessions[token]? with
    | none =>
      rw [validateSession_of_none hs] at hauth
      cases hauth
    | some session =>
      rw [validateSession_of_some hne hs] at hauth
      exact (validateSession_of_some hne (h.sessions _ _ hs) now).mpr hauth

/-- Every event leaves fewer sessions where there were fewer. -/
theorem Below.step (h : w.Below v) (quotient : Nat → Nat → Nat) (dashboard : Bytes) (e : Event) :
    (w.step quotient dashboard e).Below (v.step quotient dashboard e) := by
  cases e with
  | elsewhere registry page => exact { h with }
  | http e =>
    unfold WebServer.step
    dsimp only
    rw [handleHttpRequest_snd, handleHttpRequest_snd, h.sessionEvent]
    refine ⟨?_, h.apiToken, h.authUsername, h.authPassword⟩
    cases v.sessionEvent e with
    | none => exact h.sessions
    | some op => exact h.sessions.apply op

theorem Below.after (h : w.Below v) (quotient : Nat → Nat → Nat) (dashboard : Bytes)
    (es : List Event) : (w.after quotient dashboard es).Below (v.after quotient dashboard es) := by
  induction es generalizing w v with
  | nil => exact h
  | cons e es ih => exact ih (h.step quotient dashboard e)

/-- A request that is not authenticated and does not log in leaves fewer sessions. -/
theorem below_handleHttpRequest (quotient : Nat → Nat → Nat) (dashboard : Bytes) {e : HttpCall}
    (hauth : (w.isAuthenticated e.request e.now).1 = false) (hlogin : ¬ w.LogsIn e) :
    (w.handleHttpRequest quotient dashboard e).2.Below w := by
  rw [handleHttpRequest_snd]
  refine ⟨?_, rfl, rfl, rfl⟩
  dsimp only
  have hkeep : Within w.sessions w.sessions := fun _ _ h ↦ h
  unfold WebServer.sessionEvent
  split
  · exact hkeep
  · split
    · next hroute =>
      rw [if_neg fun hmatches ↦ hlogin ⟨hroute, hmatches⟩]
      exact hkeep
    · split
      · split
        · show Within (SessionEvent.apply w.sessions ⟨e.now, .remove _⟩) w.sessions
          exact within_of_ended (.inl rfl)
        · exact hkeep
      · split
        · exact hkeep
        · next htoken =>
          rw [WebServer.isAuthenticated, if_neg htoken] at hauth
          show Within (SessionEvent.apply w.sessions ⟨e.now, .validate _⟩) w.sessions
          exact within_of_ended (.inr ⟨rfl, hauth⟩)

end Below

/-- What a request that is not authenticated gets, and leaves of the sessions, has nothing to do
with what is registered; and when it does not log in either, no later request is authenticated that
would not have been so without it. -/
theorem unauthenticated_sees_nothing (quotient : Nat → Nat → Nat) (dashboard : Bytes)
    (w : WebServer) (e : HttpCall) (hauth : (w.isAuthenticated e.request e.now).1 = false) :
    (∀ v, w.Agrees v →
      (w.handleHttpRequest quotient dashboard e).1 = (v.handleHttpRequest quotient dashboard e).1 ∧
        (w.handleHttpRequest quotient dashboard e).2.sessions =
          (v.handleHttpRequest quotient dashboard e).2.sessions) ∧
    (¬ w.LogsIn e → ∀ (es : List Event) (later : HttpCall),
      (((w.handleHttpRequest quotient dashboard e).2.after quotient dashboard es).isAuthenticated
        later.request later.now).1 = true →
      ((w.after quotient dashboard es).isAuthenticated later.request later.now).1 = true) := by
  constructor
  · intro v hagrees
    exact hagrees.handleHttpRequest quotient dashboard hauth
  · intro hlogin es later hlater
    apply Below.isAuthenticated _ hlater
    exact (below_handleHttpRequest quotient dashboard hauth hlogin).after quotient dashboard es

/-- A server without sessions, with these registries. -/
private def serverWith (registry : Registry) : WebServer where
  config := .unset
  authUsername := lit "admin"
  authPassword := lit "secret"
  registry := registry
  page := ⟨8888, 8080, 0, 60, 60, ⟨0, 0, 0, 0, 0, 0⟩⟩
  sessions := ∅

/-- Somebody asks for the statistics with a cookie of another day. -/
private def statsCall : HttpCall where
  received := lit "GET /api/stats HTTP/1.1\r\nCookie: p2p_session=0123\r\n\r\n"
  now := 60
  token := lit "ab"

private theorem statsCall_refused :
    ((serverWith .start).isAuthenticated statsCall.request statsCall.now).1 = false := by
  decide +kernel

/-- A camera that has registered. -/
private def withCamera : Registry :=
  Registry.start.srtRegister ⟨lit "cam", lit "203.0.113.10", 8554, []⟩ 4 0

/-- It is not seen whether a camera is registered, and the cookie is no better behind a login. -/
theorem statistics_unseen :
    ((serverWith .start).handleHttpRequest (fun _ _ ↦ 0) [] statsCall).1 =
        ((serverWith withCamera).handleHttpRequest (fun _ _ ↦ 0) [] statsCall).1 ∧
      ((((serverWith .start).handleHttpRequest (fun _ _ ↦ 0) [] statsCall).2.after (fun _ _ ↦ 0) []
          []).isAuthenticated statsCall.request 61).1 = false := by
  have hlogin : ¬ (serverWith .start).LogsIn statsCall := fun h ↦ absurd h.1 (by decide +kernel)
  have hagrees : (serverWith .start).Agrees (serverWith withCamera) := ⟨rfl, rfl, rfl, rfl⟩
  obtain ⟨hsame, hlater⟩ := unauthenticated_sees_nothing (fun _ _ ↦ 0) [] (serverWith .start)
    statsCall statsCall_refused
  constructor
  · exact (hsame _ hagrees).1
  · rw [Bool.eq_false_iff]
    intro hauth
    have hbefore := hlater hlogin [] { statsCall with now := 61 } hauth
    exact absurd hbefore (by decide +kernel)

end WebServer

end Kitty.Web
