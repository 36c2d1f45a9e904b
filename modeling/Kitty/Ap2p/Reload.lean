import Kitty.Ap2p.Config
import Kitty.Base.Run

/-!
# Reloading the configuration

The MQTT thread applies payloads to the shared configuration; the SRT thread takes a snapshot
of it for each control session and leaves a session when the reload flag is set;
`src/ap2p/state.c:40–64`, `src/ap2p/srt_thread.c:78–124,708–747,884–935`. As long as every payload
is accepted, a configuration that no snapshot shows is announced by the flag or about to be
taken.
-/

namespace Kitty.Ap2p

open Kitty.Base

/-! ### The snapshot -/

/-- `srt_cfg_t`, its strings as the texts they hold. -/
structure SrtCfg where
  ctrlHost : Bytes
  ctrlPort : Int
  ctrlScheme : Bytes
  ctrlToken : Bytes
  edgeHost : Bytes
  edgePort : Int
  relayHost : Bytes
  relayPort : Int
  relayUser : Bytes
  relayPass : Bytes
  srcHost : Bytes
  srcPort : Int
  srcPath : Bytes
  srcAuth : Bytes
  nodeId : Bytes
  latencyMs : Int
  verbose : Int
  deriving DecidableEq

/-- `g_cfg` before the first snapshot. -/
def SrtCfg.zero : SrtCfg :=
  ⟨[], 0, [], [], [], 0, [], 0, [], [], [], 0, [], [], [], 0, 0⟩

/-- `snapshot_config`: what is unset gets its default. -/
def snapshotConfig (cfg : Ap2pConfig) : SrtCfg where
  ctrlHost := snprintf 128 [cfg.ctrlHost.bytes]
  ctrlPort := cfg.ctrlPort
  ctrlScheme := snprintf 8 [if cfg.ctrlScheme.isEmpty then lit "plain" else cfg.ctrlScheme.bytes]
  ctrlToken := snprintf 128 [cfg.ctrlToken.bytes]
  edgeHost := snprintf 128 [cfg.edgeHost.bytes]
  edgePort := if 0 < cfg.edgePort then cfg.edgePort else 3478
  relayHost := snprintf 128 [cfg.relayHost.bytes]
  relayPort := if 0 < cfg.relayPort then cfg.relayPort else 3478
  relayUser := snprintf 128 [cfg.relayUser.bytes]
  relayPass := snprintf 128 [cfg.relayPass.bytes]
  srcHost := snprintf 128 [if cfg.srcHost.isEmpty then lit "127.0.0.1" else cfg.srcHost.bytes]
  srcPort := if 0 < cfg.srcPort then cfg.srcPort else 80
  srcPath := snprintf 512 [cfg.srcPath.bytes]
  srcAuth := snprintf 256 [cfg.srcAuth.bytes]
  nodeId := snprintf 256 [cfg.nodeId.bytes]
  latencyMs := if 0 < cfg.latencyMs then cfg.latencyMs else 300
  verbose := cfg.verbose

/-! ### The SRT thread -/

/-- Where `srt_thread_main` is: waiting for the first payload; before its first snapshot;
starting libsrt and the pump; at the head of its loop; before a session's snapshot; setting a
session up; at the head of the session's loop; before `ap2p_consume_srt_reload`; waiting for
a message; after a session; asleep; returned on shutdown; returned because it could not
start. -/
inductive SrtPc where
  | waitReady | ready | starting | loopHead | snapshotting | opening | sessionLoop | consuming
  | receiving | closed | sleeping | stopped | failed
  deriving DecidableEq

/-- The camera: the shared state, `g_cfg`, where the SRT thread is, and the configuration as
the payload accepted last left it. -/
structure Camera where
  state : Ap2pState
  cfg : SrtCfg
  thread : SrtPc
  accepted : Ap2pConfig
  deriving DecidableEq

/-- Both threads at their start, with a configuration that `main` has put a node id in. -/
def Camera.start (config : Ap2pConfig) : Camera where
  state := { ap2pStateInit with config }
  cfg := .zero
  thread := .waitReady
  accepted := config

/-- What happens: the MQTT thread applies a payload; a signal asks for shutdown; the SRT
thread goes on, what it calls there succeeding or failing. -/
inductive CameraLabel where
  | mqtt (payload : Bytes)
  | shutdown
  | srt (ok : Bool)
  deriving DecidableEq

/-- `snapshot_config(state, &g_cfg)`. -/
def Camera.snapshot (w : Camera) : Camera := { w with cfg := snapshotConfig w.state.config }

/-- `ap2p_consume_srt_reload`: the flag is tested and cleared under the lock. -/
def consumeSrtReload (state : Ap2pState) : Bool × Ap2pState :=
  if state.srtReloadPending ≠ 0 then (true, { state with srtReloadPending := 0 })
  else (false, state)

/-- The next thing the SRT thread does. -/
def Camera.srt (w : Camera) (ok : Bool) : Option Camera :=
  match w.thread with
  | .waitReady =>
    if w.state.shutdownFlag ≠ 0 then some { w with thread := .stopped }
    else if w.state.stateReady ≠ 0 then some { w with thread := .ready }
    else some w
  | .ready => some { w.snapshot with thread := .starting }
  | .starting => some { w with thread := if ok then .loopHead else .failed }
  | .loopHead =>
    some { w with thread := if w.state.shutdownFlag ≠ 0 then .stopped else .snapshotting }
  | .snapshotting => some { w.snapshot with thread := .opening }
  | .opening => some { w with thread := if ok then .sessionLoop else .closed }
  | .sessionLoop =>
    some { w with thread := if w.state.shutdownFlag ≠ 0 then .closed else .consuming }
  | .consuming =>
    match consumeSrtReload w.state with
    | (true, state) => some { w with state, thread := .closed }
    | (false, state) => some { w with state, thread := .receiving }
  | .receiving => some { w with thread := if ok then .sessionLoop else .closed }
  | .closed => some { w with thread := if w.state.shutdownFlag ≠ 0 then .stopped else .sleeping }
  | .sleeping => some { w with thread := .loopHead }
  | .stopped | .failed => none

/-- One event of the camera. -/
def Camera.step (w : Camera) : CameraLabel → Option Camera
  | .mqtt payload =>
    let applied := applyAp2pConfPayload w.state payload
    some { w with
      state := applied.2
      accepted := if applied.1 = 0 then applied.2.config else w.accepted }
  | .shutdown => some { w with state := { w.state with shutdownFlag := 1 } }
  | .srt ok => w.srt ok

/-- The payload of this step is accepted. -/
def PayloadAccepted (w : Camera) : CameraLabel → Prop
  | .mqtt payload => (applyAp2pConfPayload w.state payload).1 = 0
  | _ => True

instance (w : Camera) : (l : CameraLabel) → Decidable (PayloadAccepted w l)
  | .mqtt _ => inferInstanceAs (Decidable (_ = _))
  | .shutdown | .srt _ => isTrue trivial

/-- The thread takes a snapshot before its next session. -/
def SrtPc.YetToSnapshot : SrtPc → Prop
  | .waitReady | .ready | .starting | .loopHead | .snapshotting | .closed | .sleeping => True
  | _ => False

/-- The snapshot in use shows the configuration accepted last, or a reload is pending. -/
def Camera.Announced (w : Camera) : Prop :=
  w.cfg = snapshotConfig w.accepted ∨ w.state.srtReloadPending ≠ 0

/-- What holds as long as every payload is accepted. From its first snapshot on the thread
knows that a payload has come, so each one after it sets the flag; the flag is consumed only
where the thread goes on to its next snapshot. -/
structure Camera.Inv (w : Camera) : Prop where
  latest : w.accepted = w.state.config
  ready : w.thread = .waitReady ∨ w.thread = .stopped ∨ w.state.stateReady ≠ 0
  starting : w.thread = .starting → w.Announced
  announced : w.thread.YetToSnapshot ∨ w.thread = .stopped ∨ w.Announced
  stopped : w.thread = .stopped → w.state.shutdownFlag ≠ 0

/-- An accepted payload becomes the configuration and makes the state ready; the flag is set
when it was ready before. -/
theorem accepted_payload {state : Ap2pState} {payload : Bytes}
    (h : (applyAp2pConfPayload state payload).1 = 0) :
    (applyAp2pConfPayload state payload).2.stateReady = 1 ∧
      (applyAp2pConfPayload state payload).2.shutdownFlag = state.shutdownFlag ∧
      (state.stateReady ≠ 0 → (applyAp2pConfPayload state payload).2.srtReloadPending = 1) := by
  unfold applyAp2pConfPayload at h ⊢
  split at h
  · cases h
  · next hne =>
    rw [if_neg hne]
    dsimp only at h ⊢
    split at h
    · cases h
    · next hhost =>
      rw [if_neg hhost]
      exact ⟨rfl, rfl, fun hready ↦ if_neg hready⟩

private theorem mqtt_inv {w v : Camera} {payload : Bytes}
    (ha : PayloadAccepted w (.mqtt payload)) (hw : w.Inv)
    (hstep : w.step (.mqtt payload) = some v) : v.Inv := by
  obtain ⟨hready, hshutdown, hpending⟩ := accepted_payload ha
  have hv : v = { w with
      state := (applyAp2pConfPayload w.state payload).2
      accepted := (applyAp2pConfPayload w.state payload).2.config } := by
    have hcode : (applyAp2pConfPayload w.state payload).1 = 0 := ha
    simp only [Camera.step, hcode, if_true] at hstep
    exact (Option.some.inj hstep).symm
  have hannounced : w.state.stateReady ≠ 0 → v.Announced := by
    intro h
    right
    rw [hv]
    dsimp only
    rw [hpending h]
    decide
  subst hv
  refine ⟨rfl, .inr (.inr ?_), fun h ↦ hannounced ?_, ?_, ?_⟩
  · dsimp only
    rw [hready]
    decide
  · have h : w.thread = .starting := h
    simpa [h] using hw.ready
  · rcases hw.ready with h | h | h
    · exact .inl (h ▸ trivial)
    · exact .inr (.inl h)
    · exact .inr (.inr (hannounced h))
  · intro h
    dsimp only
    rw [hshutdown]
    exact hw.stopped h

/-- A step that only moves the thread on. -/
private theorem Camera.Inv.move {w : Camera} (hw : w.Inv) (pc : SrtPc) (hpc : pc ≠ .starting)
    (hready : pc = .stopped ∨ w.state.stateReady ≠ 0)
    (hannounced : pc.YetToSnapshot ∨ pc = .stopped ∨ w.Announced)
    (hstopped : pc = .stopped → w.state.shutdownFlag ≠ 0) : { w with thread := pc }.Inv where
  latest := hw.latest
  ready := .inr hready
  starting h := absurd h hpc
  announced := hannounced
  stopped := hstopped

/-- A step that takes a snapshot. -/
private theorem Camera.Inv.snapshot {w : Camera} (hw : w.Inv) (pc : SrtPc) (hpc : pc ≠ .stopped)
    (hready : w.state.stateReady ≠ 0) : { w.snapshot with thread := pc }.Inv := by
  have hannounced : { w.snapshot with thread := pc }.Announced :=
    .inl (congrArg snapshotConfig hw.latest.symm)
  exact ⟨hw.latest, .inr (.inr hready), fun _ ↦ hannounced, .inr (.inr hannounced),
    fun h ↦ absurd h hpc⟩

private theorem srt_inv {w v : Camera} {ok : Bool} (hw : w.Inv)
    (hstep : w.srt ok = some v) : v.Inv := by
  have hready : w.thread ≠ .waitReady → w.thread ≠ .stopped → w.state.stateReady ≠ 0 :=
    fun hwait hstop ↦ (hw.ready.resolve_left hwait).resolve_left hstop
  have hannounced : ¬ w.thread.YetToSnapshot → w.thread ≠ .stopped → w.Announced :=
    fun hyet hstop ↦ (hw.announced.resolve_left hyet).resolve_left hstop
  unfold Camera.srt at hstep
  cases hthread : w.thread with
  | waitReady =>
    simp only [hthread] at hstep
    split at hstep
    · next hshutdown =>
      cases hstep
      exact hw.move _ (by decide) (.inl rfl) (.inr (.inl rfl)) fun _ ↦ hshutdown
    · split at hstep
      · next h =>
        cases hstep
        exact hw.move _ (by decide) (.inr h) (.inl trivial) fun h ↦ by cases h
      · cases hstep
        exact hw
  | ready | snapshotting =>
    simp only [hthread] at hstep
    cases hstep
    exact hw.snapshot _ (by decide) (hready (by simp [hthread]) (by simp [hthread]))
  | starting =>
    have hr := hready (by simp [hthread]) (by simp [hthread])
    simp only [hthread] at hstep
    cases hstep
    cases ok with
    | true => exact hw.move _ (by decide) (.inr hr) (.inl trivial) fun h ↦ by cases h
    | false =>
      exact hw.move _ (by decide) (.inr hr) (.inr (.inr (hw.starting hthread))) fun h ↦ by cases h
  | loopHead | closed =>
    have hr := hready (by simp [hthread]) (by simp [hthread])
    simp only [hthread] at hstep
    cases hstep
    split
    · next h => exact hw.move _ (by decide) (.inl rfl) (.inr (.inl rfl)) fun _ ↦ h
    · exact hw.move _ (by decide) (.inr hr) (.inl trivial) fun h ↦ by cases h
  | opening | receiving =>
    have hr := hready (by simp [hthread]) (by simp [hthread])
    have ha := hannounced (by simp [hthread, SrtPc.YetToSnapshot]) (by simp [hthread])
    simp only [hthread] at hstep
    cases hstep
    cases ok with
    | true => exact hw.move _ (by decide) (.inr hr) (.inr (.inr ha)) fun h ↦ by cases h
    | false => exact hw.move _ (by decide) (.inr hr) (.inl trivial) fun h ↦ by cases h
  | sessionLoop =>
    have hr := hready (by simp [hthread]) (by simp [hthread])
    have ha := hannounced (by simp [hthread, SrtPc.YetToSnapshot]) (by simp [hthread])
    simp only [hthread] at hstep
    cases hstep
    split
    · exact hw.move _ (by decide) (.inr hr) (.inl trivial) fun h ↦ by cases h
    · exact hw.move _ (by decide) (.inr hr) (.inr (.inr ha)) fun h ↦ by cases h
  | consuming =>
    have hr := hready (by simp [hthread]) (by simp [hthread])
    have ha := hannounced (by simp [hthread, SrtPc.YetToSnapshot]) (by simp [hthread])
    simp only [hthread, consumeSrtReload] at hstep
    by_cases hpending : w.state.srtReloadPending ≠ 0
    · rw [if_pos hpending] at hstep
      cases hstep
      -- the flag is gone, and the thread is on its way to the next snapshot
      exact ⟨hw.latest, .inr (.inr hr), fun h ↦ (by cases h), .inl trivial, fun h ↦ (by cases h)⟩
    · rw [if_neg hpending] at hstep
      cases hstep
      exact hw.move _ (by decide) (.inr hr) (.inr (.inr ha)) fun h ↦ by cases h
  | sleeping =>
    have hr := hready (by simp [hthread]) (by simp [hthread])
    simp only [hthread] at hstep
    cases hstep
    exact hw.move _ (by decide) (.inr hr) (.inl trivial) fun h ↦ by cases h
  | stopped | failed =>
    simp only [hthread] at hstep
    cases hstep

/-- A request to shut down changes nothing of it. -/
private theorem shutdown_inv {w : Camera} (hw : w.Inv) :
    { w with state := { w.state with shutdownFlag := 1 } }.Inv where
  latest := hw.latest
  ready := hw.ready
  starting := hw.starting
  announced := hw.announced
  stopped _ := Int.one_ne_zero

/-- Every step with an accepted payload keeps it. -/
theorem Camera.step_inv {w v : Camera} {l : CameraLabel} (ha : PayloadAccepted w l) (hw : w.Inv)
    (hstep : w.step l = some v) : v.Inv := by
  cases l with
  | mqtt payload => exact mqtt_inv ha hw hstep
  | shutdown =>
    cases hstep
    exact shutdown_inv hw
  | srt ok => exact srt_inv hw hstep

/-- It holds at the start. -/
theorem Camera.start_inv (config : Ap2pConfig) : (Camera.start config).Inv where
  latest := rfl
  ready := .inl rfl
  starting h := by cases h
  announced := .inl trivial
  stopped h := by cases h

/-- While every payload is accepted and no shutdown is asked for, the snapshot shows the
configuration accepted last, or a reload is pending, or the next snapshot is yet to come. -/
theorem update_not_lost {config : Ap2pConfig} {ls : List CameraLabel} {w : Camera}
    (ha : Always Camera.step PayloadAccepted (.start config) ls)
    (hr : run Camera.step (.start config) ls = some w) (hs : w.state.shutdownFlag = 0) :
    w.cfg = snapshotConfig w.accepted ∨ w.state.srtReloadPending ≠ 0 ∨
      w.thread.YetToSnapshot := by
  have hinv : w.Inv := invariant_run Camera.step (fun _ _ _ ↦ Camera.step_inv) ha
    (Camera.start_inv config) hr
  rcases hinv.announced with h | h | h | h
  · exact .inr (.inr h)
  · exact absurd hs (hinv.stopped h)
  · exact .inl h
  · exact .inr (.inl h)

/-- A payload, the thread on its way into a session, and a second payload there. -/
def sessionUpdated : List CameraLabel :=
  [.mqtt (lit "CTRL_HOST=a\n"), .srt true, .srt true, .srt true, .srt true, .srt true, .srt true,
    .mqtt (lit "EDGE_PORT=5\n")]

/-- After the second payload the flag is set. -/
theorem update_not_lost_in_session :
    ∃ w, run Camera.step (.start ap2pStateInit.config) sessionUpdated = some w ∧
      (w.cfg = snapshotConfig w.accepted ∨ w.state.srtReloadPending ≠ 0 ∨
        w.thread.YetToSnapshot) := by
  have hrun : ∃ w, run Camera.step (.start ap2pStateInit.config) sessionUpdated = some w ∧
      w.state.shutdownFlag = 0 := exists_run Camera.step _ (by decide +kernel)
  obtain ⟨w, hr, hs⟩ := hrun
  exact ⟨w, hr, update_not_lost (by decide +kernel) hr hs⟩

end Kitty.Ap2p
