import Kitty.P2p.Consumer

/-!
# The watchdog of the path

What the reconnect monitor, the ICE callbacks and the provider's answers do to the fields of a
session that say how its path is;
`src/consumer-srt-cloud/_legacy_libjuice_consumer_api.c:966–975,1130–1236,1443–1671,1690–1806`. A
session has one monitor thread; the callbacks come at any time, also while it reconnects.
-/

namespace Kitty.Vms

open Kitty.Base Kitty.P2p

/-- `PONG_TIMEOUT`, in seconds. -/
def pongTimeout : Int := 60

/-- `PONG_TIMEOUT_STRIKES`. -/
def pongTimeoutStrikes : Nat := 2

/-- `REDIRECTION_COOLDOWN`, in seconds. -/
def redirectionCooldown : Int := 60

/-- `juice_state_t`. -/
inductive JuiceState where
  | disconnected
  | gathering
  | connecting
  | connected
  | completed
  | failed
  deriving DecidableEq

/-- The two intervals of `consumer.conf` the monitor looks at. -/
structure MonitorConfig where
  stunUpgradeInterval : Int
  turnRefreshInterval : Int

/-- The fields of `camera_session_t` about its path; of `agent`, whether it is null. -/
structure Link where
  agent : Bool
  connected : Bool
  connectionStartTime : Int
  needsReconnect : Bool
  reconnectAttempts : Nat
  lastReconnectTime : Int
  usingTurn : Bool
  turnSince : Int
  lastStunCheck : Int
  turnRefreshNeeded : Bool
  lastPongAt : Int
  lastRedirectionTime : Int
  pongStrikes : Nat
  deriving DecidableEq

namespace Link

/-- `allocate_camera_session`. -/
def allocate (now : Int) : Link :=
  { agent := false, connected := false, connectionStartTime := 0, needsReconnect := false
    reconnectAttempts := 0, lastReconnectTime := 0, usingTurn := false, turnSince := 0
    lastStunCheck := 0, turnRefreshNeeded := false, lastPongAt := now, lastRedirectionTime := 0
    pongStrikes := 0 }

/-- The heartbeat branch of `on_recv_camera`. -/
def recv (c : Link) (data : Bytes) (now : Int) : Link :=
  match Datagram.parse data with
  | none => c
  | some d =>
    if d.connId = 0 ∧ d.totalSize = 0 ∧ d.offset = 0 ∧ d.seqNum = 2 then
      { c with lastPongAt := now, pongStrikes := 0 }
    else c

/-- The path is up: what changes when it was not before. -/
def connect (c : Link) (now : Int) : Link :=
  if c.connected then c
  else { c with
    connected := true, connectionStartTime := now, needsReconnect := false, reconnectAttempts := 0
    lastPongAt := now, pongStrikes := 0 }

/-- Whether the path goes over TURN is kept for the upgrade probe. -/
def selectPath (c : Link) (relay : Bool) (now : Int) : Link :=
  if relay then
    if c.usingTurn then c
    else { c with usingTurn := true, turnSince := now, lastStunCheck := now }
  else { c with usingTurn := false, turnSince := 0 }

/-- `on_state_changed_camera`; `relay` is whether a selected candidate is a relay. -/
def stateChanged (c : Link) (state : JuiceState) (relay : Bool) (now : Int) : Link :=
  match state with
  | .connected | .completed => (c.connect now).selectPath relay now
  | .failed => { c with connected := false, needsReconnect := true, usingTurn := false }
  | .disconnected =>
    { c with
      connected := false, usingTurn := false
      -- without an agent the monitor destroys it itself and is reconnecting already
      needsReconnect := c.agent || c.needsReconnect }
  | .gathering | .connecting => c

/-- The STUN upgrade probe of the monitor. -/
def stunProbe (cfg : MonitorConfig) (c : Link) (now : Int) : Link :=
  if c.connected ∧ c.usingTurn ∧ c.needsReconnect = false ∧ 0 < cfg.stunUpgradeInterval ∧
      cfg.stunUpgradeInterval ≤ now - c.lastStunCheck ∧
      redirectionCooldown ≤ now - c.lastRedirectionTime then
    { c with
      lastStunCheck := now, needsReconnect := true, reconnectAttempts := 0, lastReconnectTime := 0 }
  else c

/-- The ping-pong watchdog of the monitor. -/
def watchdog (c : Link) (now : Int) : Link :=
  if c.connected ∧ c.needsReconnect = false ∧ pongTimeout < now - c.lastPongAt ∧
      pongTimeout < now - c.connectionStartTime then
    if pongTimeoutStrikes ≤ c.pongStrikes + 1 then
      { c with needsReconnect := true, pongStrikes := 0, lastRedirectionTime := now }
    else { c with pongStrikes := c.pongStrikes + 1, lastPongAt := now }
  else c

/-- The proactive TURN refresh of the monitor. -/
def turnRefresh (cfg : MonitorConfig) (c : Link) (now : Int) : Link :=
  if c.connected ∧ c.usingTurn ∧ c.needsReconnect = false ∧ 0 < cfg.turnRefreshInterval ∧
      cfg.turnRefreshInterval ≤ now - c.turnSince then
    { c with
      turnRefreshNeeded := true, needsReconnect := true, reconnectAttempts := 0
      lastReconnectTime := 0 }
  else c

/-- What one round of the monitor does before it decides whether to reconnect. -/
def tick (cfg : MonitorConfig) (c : Link) (now : Int) : Link :=
  ((c.stunProbe cfg now).watchdog now).turnRefresh cfg now

/-- Whether the monitor reconnects now: the backoff is 5, 10, 20 and then 30 seconds as the comment
has it, 40 as `5 * (1 << exp)` has it. -/
def due (c : Link) (now : Int) : Bool :=
  c.needsReconnect && 5 * 2 ^ min c.reconnectAttempts 3 ≤ now - c.lastReconnectTime

/-- `reconnect_camera_ice` up to the attempt. -/
def reconnect (c : Link) (now : Int) : Link :=
  { c with
    agent := false, connected := false, needsReconnect := false
    reconnectAttempts := c.reconnectAttempts + 1, lastReconnectTime := now
    turnRefreshNeeded := false }

/-- An attempt that came to nothing. -/
def giveUp (c : Link) : Link := { c with agent := false, needsReconnect := true }

end Link

/-- Where the monitor is: about to make a round, about to reconnect, or in
`reconnect_camera_ice_attempt`. -/
inductive Monitor where
  | waiting
  | reconnecting
  | attempting
  deriving DecidableEq

/-- A session and its monitor. -/
structure Watched where
  link : Link
  monitor : Monitor
  deriving DecidableEq

/-- What happens: a datagram; a callback of the ICE agent; an agent created by
`connect_to_camera_attempt` or by a reconnect; a round of the monitor; the locked part of
`reconnect_camera_ice`; the end of an attempt. -/
inductive WatchEvent where
  | recv (data : Bytes)
  | state (state : JuiceState) (relay : Bool)
  | create
  | tick
  | reconnect
  | finish (ok : Bool)
  deriving DecidableEq

namespace Watched

/-- A new session. -/
def start (now : Int) : Watched := ⟨.allocate now, .waiting⟩

/-- One event, at a time. -/
def step (cfg : MonitorConfig) (w : Watched) (l : Int × WatchEvent) : Option Watched :=
  match l.2 with
  | .recv data => some { w with link := w.link.recv data l.1 }
  | .state state relay => some { w with link := w.link.stateChanged state relay l.1 }
  | .create => some { w with link := { w.link with agent := true } }
  | .tick =>
    if w.monitor = .waiting then
      let link := w.link.tick cfg l.1
      some ⟨link, if link.due l.1 then .reconnecting else .waiting⟩
    else none
  | .reconnect =>
    if w.monitor = .reconnecting then some ⟨w.link.reconnect l.1, .attempting⟩ else none
  | .finish ok =>
    if w.monitor = .attempting then some ⟨if ok then w.link else w.link.giveUp, .waiting⟩ else none

end Watched

private theorem refillSpare_pong (cam : CameraSession) (connId : Nat)
    (spare : Option (Buffer UInt8)) : (cam.refillSpare connId spare).lastPongAt = cam.lastPongAt ∧
      (cam.refillSpare connId spare).pongStrikes = cam.pongStrikes := by
  unfold CameraSession.refillSpare
  split <;> exact ⟨rfl, rfl⟩

/-- The session of the transport sees the same answers. -/
theorem Link.recv_onRecvCamera {cam : CameraSession} (hact : cam.active = true) {c : Link}
    (hpong : c.lastPongAt = cam.lastPongAt) (hstrikes : c.pongStrikes = cam.pongStrikes)
    (data : Bytes) (env : RecvEnv) :
    (c.recv data env.now).lastPongAt = (onRecvCamera cam data env).1.lastPongAt ∧
      (c.recv data env.now).pongStrikes = (onRecvCamera cam data env).1.pongStrikes := by
  simp only [Link.recv, onRecvCamera, hact, Bool.not_true, Bool.false_eq_true, if_false]
  cases Datagram.parse data with
  | none => exact ⟨hpong, hstrikes⟩
  | some d =>
    by_cases hbeat : d.connId = 0 ∧ d.totalSize = 0 ∧ d.offset = 0
    · by_cases hseq : d.seqNum = 2
      · simp [hbeat, hseq]
      · simp [hbeat, hseq, hpong, hstrikes]
    · have hno : ¬ (d.connId = 0 ∧ d.totalSize = 0 ∧ d.offset = 0 ∧ d.seqNum = 2) :=
        fun h ↦ hbeat ⟨h.1, h.2.1, h.2.2.1⟩
      simp only [hbeat, hno, if_false]
      cases cam.findConnectionById d.connId with
      | none => exact ⟨hpong, hstrikes⟩
      | some i =>
        dsimp only
        cases (cam.connections i).receive d env.now with
        | mk conn frame =>
          cases frame with
          | none => exact ⟨hpong, hstrikes⟩
          | some frame =>
            obtain ⟨h1, h2⟩ := refillSpare_pong (cam.setConnection i conn) d.connId env.spare
            exact ⟨hpong.trans h1.symm, hstrikes.trans h2.symm⟩

/-! ### What the watchdog counts on -/

/-- The provider's answer to a heartbeat. -/
def Pong (data : Bytes) : Prop :=
  ∃ d, Datagram.parse data = some d ∧ d.connId = 0 ∧ d.totalSize = 0 ∧ d.offset = 0 ∧ d.seqNum = 2

/-- A step that shows the path to be alive: a PONG, or the session becoming connected. -/
def Refreshes (w : Watched) (l : Int × WatchEvent) (t : Watched) : Prop :=
  (∃ data, l.2 = .recv data ∧ Pong data) ∨ w.link.connected = false ∧ t.link.connected = true

/-- The watchdog part of a round at some time marks the session for a reconnect. -/
def Link.Marks (cfg : MonitorConfig) (c : Link) (now : Int) : Prop :=
  (c.stunProbe cfg now).needsReconnect = false ∧
    ((c.stunProbe cfg now).watchdog now).needsReconnect = true

instance (cfg : MonitorConfig) (c : Link) (now : Int) : Decidable (c.Marks cfg now) :=
  inferInstanceAs (Decidable (_ ∧ _))

namespace Link

/-- Every strike stands for a silence of `PONG_TIMEOUT` seconds before `last_pong_at`. -/
def silentSince (c : Link) : Int := c.lastPongAt - pongTimeout * c.pongStrikes

theorem recv_pong {data : Bytes} (h : Pong data) (c : Link) (now : Int) :
    c.recv data now = { c with lastPongAt := now, pongStrikes := 0 } := by
  obtain ⟨d, hd, hpong⟩ := h
  simp [recv, hd, hpong]

theorem recv_of_not_pong {data : Bytes} (h : ¬ Pong data) (c : Link) (now : Int) :
    c.recv data now = c := by
  unfold recv
  split
  · rfl
  · next d hd => exact if_neg fun hpong ↦ h ⟨d, hd, hpong⟩

theorem connect_refresh {c : Link} (h : c.connected = false) (now : Int) :
    (c.connect now).lastPongAt = now ∧ (c.connect now).pongStrikes = 0 := by
  simp [connect, h]

theorem connect_connected {c : Link} (h : c.connected = true) (now : Int) : c.connect now = c := by
  simp [connect, h]

theorem selectPath_same (c : Link) (relay : Bool) (now : Int) :
    (c.selectPath relay now).connected = c.connected ∧
      (c.selectPath relay now).lastPongAt = c.lastPongAt ∧
      (c.selectPath relay now).pongStrikes = c.pongStrikes := by
  unfold selectPath
  split
  · split <;> exact ⟨rfl, rfl, rfl⟩
  · exact ⟨rfl, rfl, rfl⟩

theorem stunProbe_same (cfg : MonitorConfig) (c : Link) (now : Int) :
    (c.stunProbe cfg now).connected = c.connected ∧
      (c.stunProbe cfg now).lastPongAt = c.lastPongAt ∧
      (c.stunProbe cfg now).pongStrikes = c.pongStrikes := by
  unfold stunProbe
  split <;> exact ⟨rfl, rfl, rfl⟩

theorem turnRefresh_same (cfg : MonitorConfig) (c : Link) (now : Int) :
    (c.turnRefresh cfg now).connected = c.connected ∧
      (c.turnRefresh cfg now).lastPongAt = c.lastPongAt ∧
      (c.turnRefresh cfg now).pongStrikes = c.pongStrikes := by
  unfold turnRefresh
  split <;> exact ⟨rfl, rfl, rfl⟩

/-- A strike takes a silence of `PONG_TIMEOUT` seconds, so the watchdog never makes the path look
alive longer than it was. -/
theorem watchdog_silentSince (c : Link) (now : Int) :
    (c.watchdog now).connected = c.connected ∧ c.silentSince ≤ (c.watchdog now).silentSince := by
  unfold watchdog
  split
  · next h =>
    obtain ⟨-, -, hlate, -⟩ := h
    split
    · refine ⟨rfl, ?_⟩
      simp only [silentSince, pongTimeout]
      omega
    · refine ⟨rfl, ?_⟩
      simp only [silentSince, pongTimeout] at hlate ⊢
      omega
  · exact ⟨rfl, le_rfl⟩

/-- What a mark of the watchdog takes. -/
theorem marks_silentSince {cfg : MonitorConfig} {c : Link} {now : Int} (h : c.Marks cfg now) :
    c.connected = true ∧ pongTimeout * pongTimeoutStrikes < now - c.silentSince := by
  obtain ⟨hbefore, hafter⟩ := h
  obtain ⟨hconn, hpong, hstrikes⟩ := c.stunProbe_same cfg now
  unfold watchdog at hafter
  split at hafter
  · next hw =>
    obtain ⟨hc, -, hlate, -⟩ := hw
    rw [hconn] at hc
    split at hafter
    · next hstrike =>
      rw [hstrikes] at hstrike
      rw [hpong] at hlate
      refine ⟨hc, ?_⟩
      simp only [silentSince, pongTimeout, pongTimeoutStrikes] at hlate hstrike ⊢
      omega
    · rw [hbefore] at hafter
      cases hafter
  · rw [hbefore] at hafter
    cases hafter

theorem tick_silentSince (cfg : MonitorConfig) (c : Link) (now : Int) :
    (c.tick cfg now).connected = c.connected ∧ c.silentSince ≤ (c.tick cfg now).silentSince := by
  obtain ⟨h1, h2, h3⟩ := c.stunProbe_same cfg now
  obtain ⟨h4, h5⟩ := (c.stunProbe cfg now).watchdog_silentSince now
  obtain ⟨h6, h7, h8⟩ := ((c.stunProbe cfg now).watchdog now).turnRefresh_same cfg now
  refine ⟨(h6.trans h4).trans h1, ?_⟩
  calc c.silentSince = (c.stunProbe cfg now).silentSince := by rw [silentSince, silentSince, h2, h3]
    _ ≤ ((c.stunProbe cfg now).watchdog now).silentSince := h5
    _ = (c.tick cfg now).silentSince := by rw [tick, silentSince, silentSince, h7, h8]

private theorem connect_cases (c : Link) (relay : Bool) (now : Int) :
    c.connected = false ∧ ((c.connect now).selectPath relay now).lastPongAt = now ∧
        ((c.connect now).selectPath relay now).pongStrikes = 0 ∨
      c.connected = true ∧
        ((c.connect now).selectPath relay now).silentSince = c.silentSince := by
  obtain ⟨-, hpong, hstrikes⟩ := (c.connect now).selectPath_same relay now
  cases hc : c.connected with
  | false =>
    obtain ⟨h1, h2⟩ := connect_refresh hc now
    exact .inl ⟨rfl, hpong.trans h1, hstrikes.trans h2⟩
  | true =>
    refine .inr ⟨rfl, ?_⟩
    rw [silentSince, silentSince, hpong, hstrikes, connect_connected hc]

/-- After a callback a connected session was just connected or was connected before. -/
theorem stateChanged_cases {c : Link} {state : JuiceState} {relay : Bool} {now : Int}
    (h : (c.stateChanged state relay now).connected = true) :
    c.connected = false ∧ (c.stateChanged state relay now).lastPongAt = now ∧
        (c.stateChanged state relay now).pongStrikes = 0 ∨
      c.connected = true ∧ (c.stateChanged state relay now).silentSince = c.silentSince := by
  cases state with
  | connected => exact c.connect_cases relay now
  | completed => exact c.connect_cases relay now
  | gathering => exact .inr ⟨h, rfl⟩
  | connecting => exact .inr ⟨h, rfl⟩
  | failed => cases h
  | disconnected => cases h

end Link

/-! ### One step -/

/-- A refresh starts the silence anew. -/
theorem Watched.step_refresh {cfg : MonitorConfig} {w t : Watched} {l : Int × WatchEvent}
    (h : w.step cfg l = some t) (hr : Refreshes w l t) :
    t.link.lastPongAt = l.1 ∧ t.link.pongStrikes = 0 := by
  obtain ⟨now, l⟩ := l
  rcases hr with ⟨data, rfl, hpong⟩ | ⟨hbefore, hafter⟩
  · cases h
    simp [Link.recv_pong hpong]
  · cases l with
    | recv data =>
      cases h
      by_cases hpong : Pong data
      · simp [Link.recv_pong hpong]
      · simp [Link.recv_of_not_pong hpong, hbefore] at hafter
    | state state relay =>
      cases h
      rcases Link.stateChanged_cases hafter with ⟨-, hfresh⟩ | ⟨hconn, -⟩
      · exact hfresh
      · rw [hbefore] at hconn
        cases hconn
    | create =>
      cases h
      rw [hbefore] at hafter
      cases hafter
    | tick =>
      simp only [Watched.step] at h
      split at h
      · cases h
        rw [(w.link.tick_silentSince cfg now).1, hbefore] at hafter
        cases hafter
      · cases h
    | reconnect =>
      simp only [Watched.step] at h
      split at h
      · cases h
        cases hafter
      · cases h
    | finish ok =>
      simp only [Watched.step] at h
      split at h
      · cases h
        cases ok <;> simp [Link.giveUp, hbefore] at hafter
      · cases h

/-- Any other step to a connected session finds it connected and the path no longer silent than it
was. -/
theorem Watched.step_quiet {cfg : MonitorConfig} {w t : Watched} {l : Int × WatchEvent}
    (h : w.step cfg l = some t) (hr : ¬ Refreshes w l t) (ht : t.link.connected = true) :
    w.link.connected = true ∧ w.link.silentSince ≤ t.link.silentSince := by
  have hw : w.link.connected = true := by
    by_contra hnot
    exact hr (.inr ⟨by simpa using hnot, ht⟩)
  refine ⟨hw, ?_⟩
  obtain ⟨now, l⟩ := l
  cases l with
  | recv data =>
    cases h
    have hpong : ¬ Pong data := fun hpong ↦ hr (.inl ⟨data, rfl, hpong⟩)
    simp [Link.recv_of_not_pong hpong]
  | state state relay =>
    cases h
    rcases Link.stateChanged_cases ht with ⟨hconn, -⟩ | ⟨-, hsame⟩
    · rw [hw] at hconn
      cases hconn
    · exact hsame.ge
  | create =>
    cases h
    exact le_rfl
  | tick =>
    simp only [Watched.step] at h
    split at h
    · cases h
      exact (w.link.tick_silentSince cfg now).2
    · cases h
  | reconnect =>
    simp only [Watched.step] at h
    split at h
    · cases h
      cases ht
    · cases h
  | finish ok =>
    simp only [Watched.step] at h
    split at h
    · cases h
      cases ok <;> exact le_rfl
    · cases h

/-! ### Whole runs -/

/-- The watchdog marks a session only after more than `2 * PONG_TIMEOUT` seconds in which it was
connected, no PONG came and it was not connected anew; and each of these ends the streak. -/
theorem watchdog_sound {cfg : MonitorConfig} {created now : Int} {events : List (Int × WatchEvent)}
    {w : Watched} (hr : run (Watched.step cfg) (.start created) events = some w)
    (hmark : w.link.Marks cfg now) :
    (∃ pre l span u v, events = pre ++ l :: span ∧
      run (Watched.step cfg) (.start created) pre = some u ∧ u.step cfg l = some v ∧
      Refreshes u l v ∧ 2 * pongTimeout < now - l.1 ∧ v.link.connected = true ∧
      Always (Watched.step cfg) (fun s k ↦ ∀ t, s.step cfg k = some t →
        ¬ Refreshes s k t ∧ t.link.connected = true) v span) ∧
    ∀ s k t, Watched.step cfg s k = some t → Refreshes s k t → t.link.pongStrikes = 0 := by
  refine ⟨?_, fun s k t h hk ↦ (Watched.step_refresh h hk).2⟩
  obtain ⟨hconn, hlong⟩ := Link.marks_silentSince hmark
  have hrefresh : ∀ s k t, Watched.step cfg s k = some t → Refreshes s k t →
      t.link.connected = true → k.1 ≤ t.link.silentSince := by
    intro s k t h hk _
    obtain ⟨hp, hs⟩ := Watched.step_refresh h hk
    simp [Link.silentSince, hp, hs]
  have hquiet : ∀ s k t, Watched.step cfg s k = some t → ¬ Refreshes s k t →
      t.link.connected = true → s.link.connected = true ∧
        ∀ l : Int × WatchEvent, l.1 ≤ s.link.silentSince → l.1 ≤ t.link.silentSince := by
    intro s k t h hk ht
    obtain ⟨hs, hle⟩ := Watched.step_quiet h hk ht
    exact ⟨hs, fun l hl ↦ hl.trans hle⟩
  have hstart : ¬ (Watched.start created).link.connected = true := by
    simp [Watched.start, Link.allocate]
  obtain ⟨pre, l, span, u, v, rfl, hpre, hl, hR, hQ, hspan, -, hI⟩ :=
    since_last (Watched.step cfg) hrefresh hquiet hstart hr hconn
  refine ⟨pre, l, span, u, v, rfl, hpre, hl, hR, ?_, hQ, hspan⟩
  simp only [pongTimeout, pongTimeoutStrikes] at hlong ⊢
  omega

/-- A session that hears nothing after it was connected, with one strike against it. -/
def silence : List (Int × WatchEvent) := [(0, .create), (10, .state .connected false), (75, .tick)]

theorem watchdog_sound_silence : ∃ w,
    run (Watched.step ⟨0, 0⟩) (.start 0) silence = some w ∧ w.link.Marks ⟨0, 0⟩ 140 ∧
    ∃ pre l span u v, silence = pre ++ l :: span ∧
      run (Watched.step ⟨0, 0⟩) (.start 0) pre = some u ∧ u.step ⟨0, 0⟩ l = some v ∧
      Refreshes u l v ∧ 2 * pongTimeout < 140 - l.1 := by
  have hrun : ∃ w, run (Watched.step ⟨0, 0⟩) (.start 0) silence = some w ∧
      w.link.Marks ⟨0, 0⟩ 140 :=
    exists_run _ _ (by decide +kernel)
  obtain ⟨w, hr, hmark⟩ := hrun
  obtain ⟨pre, l, span, u, v, hsplit, hpre, hl, hR, hlong, -, -⟩ := (watchdog_sound hr hmark).1
  exact ⟨w, hr, hmark, pre, l, span, u, v, hsplit, hpre, hl, hR, hlong⟩

end Kitty.Vms
