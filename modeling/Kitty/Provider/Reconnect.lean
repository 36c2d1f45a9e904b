import Kitty.P2p.Provider
import Kitty.Sdp.Relay

/-!
# A consumer that comes while another one is there

`handle_consumer_connect` with what it does to the session in progress;
`src/provider-srt/_legacy_libjuice_provider_configurable.c:1104–1216`. The connections and the
agent of the session before are given up first; only then is the message searched for an SDP
and the SDP filtered.
-/

namespace Kitty.Provider

open Kitty.Base
open Kitty.P2p (ServiceConnection maxConnections)
open Kitty.Sdp (maxSdpLen sanitizeRemoteSdp remoteSdp)

/-! ### The service -/

/-- An ICE agent: which one it is, and the remote description it has. -/
structure Agent where
  serial : Nat
  remote : Option Bytes
  deriving DecidableEq

/-- The fields of `service_state_t` that a CONSUMER_CONNECT reads and writes. `agents` counts
the agents that have been created, so a new one is none of those before. -/
structure Session extends Sdp.ServiceState where
  agent : Option Agent
  agents : Nat
  fresh : ∀ a ∈ agent, a.serial < agents
  connections : Nat → ServiceConnection
  gatheringDone : Bool

/-- What the calls of `handle_consumer_connect` return: `time`, whether `juice_create` has made
an agent, whether its gathering ends within 3 s, and whether `juice_set_remote_description`
takes the SDP. -/
structure ConnectEnv where
  now : Int
  created : Bool
  gathered : Bool
  accepted : Bool

/-- The exits of `handle_consumer_connect`; it returns 1 after the last of them, and 0 otherwise. -/
inductive Answer where
  | active
  | duplicate
  | noAgent
  | tooLarge
  | refused (sdp : Bytes)
  | noSdp
  | negotiating (sdp : Bytes)
  deriving DecidableEq

/-- The text that has been handed to `juice_set_remote_description`. -/
def Answer.described : Answer → Option Bytes
  | refused sdp => some sdp
  | negotiating sdp => some sdp
  | _ => none

/-- The exits that the message itself or its time decides. -/
def Answer.OfMessage (a : Answer) : Prop :=
  a ∈ [active, duplicate, noSdp, tooLarge]

instance (a : Answer) : Decidable a.OfMessage :=
  inferInstanceAs (Decidable (a ∈ [Answer.active, .duplicate, .noSdp, .tooLarge]))

namespace Session

/-- An unsolicited CONSUMER_CONNECT while a session is active. -/
def isActive (svc : Session) (consumerMsg : Bytes) : Bool :=
  svc.connected && !(strstr (lit "force_reconnect=1") consumerMsg).isSome

/-- A CONSUMER_CONNECT behind another one by at most 15 s, without a connection. -/
def isDuplicate (svc : Session) (now : Int) : Bool :=
  svc.hasHadConsumer && decide (0 < svc.lastConsumerConnectTime) &&
    (decide (now - svc.lastConsumerConnectTime ≤ 15) && !svc.connected)

/-- The active connections are closed. -/
def closeConnections (svc : Session) : Session :=
  { svc with connections := fun i ↦
      if i < maxConnections ∧ (svc.connections i).active then (svc.connections i).close
      else svc.connections i }

/-- `juice_destroy` and `juice_create`. -/
def replaceAgent (svc : Session) (env : ConnectEnv) : Session :=
  if env.created then
    { svc with
      agent := some ⟨svc.agents, none⟩, agents := svc.agents + 1, gatheringDone := env.gathered
      fresh := fun a ha ↦ by
        cases Option.mem_some.mp ha
        exact Nat.lt_succ_self _ }
  else { svc with agent := none, fresh := fun a ha ↦ by cases ha }

/-- The session before is cleaned up. -/
def cleanUp (svc : Session) (env : ConnectEnv) : Session :=
  { svc with connected := false }.closeConnections.replaceAgent env

/-- The SDP of the message becomes the remote description. -/
def setRemote (svc : Session) (env : ConnectEnv) (consumerMsg : Bytes) : Answer × Session :=
  match strstr (lit "consumer_sdp=") consumerMsg with
  | none => (.noSdp, svc)
  | some sdpStart =>
    match sanitizeRemoteSdp (sdpStart.drop (lit "consumer_sdp=").length) maxSdpLen with
    | none => (.tooLarge, svc)
    | some (sdp, _) =>
      if env.accepted then
        (.negotiating sdp, { svc with
          agent := svc.agent.map fun a ↦ { a with remote := some sdp }
          fresh := fun a ha ↦ by
            obtain ⟨b, hb, rfl⟩ := Option.mem_map.mp ha
            exact svc.fresh b hb })
      else (.refused sdp, svc)

/-- `handle_consumer_connect`. -/
def handleConsumerConnect (svc : Session) (env : ConnectEnv) (consumerMsg : Bytes) :
    Answer × Session :=
  if svc.isActive consumerMsg then (.active, svc)
  else if svc.isDuplicate env.now then (.duplicate, svc)
  else
    let svc := { svc with lastConsumerConnectTime := env.now }
    if svc.hasHadConsumer && !env.created then (.noAgent, svc.cleanUp env)
    else
      let svc := if svc.hasHadConsumer then svc.cleanUp env else svc
      { svc with hasHadConsumer := true }.setRemote env consumerMsg

/-! ### What becomes of the message -/

/-- The remote description is what the message has of one. -/
private theorem described_setRemote (svc : Session) (env : ConnectEnv) (consumerMsg : Bytes) :
    (svc.setRemote env consumerMsg).1.described = remoteSdp "consumer_sdp=" consumerMsg := by
  unfold setRemote remoteSdp
  cases strstr (lit "consumer_sdp=") consumerMsg with
  | none => rfl
  | some sdpStart =>
    dsimp only [Option.bind_eq_bind, Option.bind_some]
    cases sanitizeRemoteSdp (sdpStart.drop (lit "consumer_sdp=").length) maxSdpLen with
    | none => rfl
    | some out =>
      dsimp only
      split <;> rfl

/-- The handler hands on the text that the message alone decides. -/
theorem described_handleConsumerConnect (svc : Session) (env : ConnectEnv) (consumerMsg : Bytes) :
    (svc.handleConsumerConnect env consumerMsg).1.described =
      Sdp.handleConsumerConnect svc.toServiceState env.now env.created consumerMsg := by
  unfold handleConsumerConnect Sdp.handleConsumerConnect isActive isDuplicate
  dsimp only
  split
  · rfl
  · split
    · rfl
    · split
      · rfl
      · exact described_setRemote _ env consumerMsg

/-- A message without an SDP that fits, and only such a one, is the reason when it is turned
away there. -/
private theorem ofMessage_setRemote (svc : Session) (env : ConnectEnv) (consumerMsg : Bytes) :
    (svc.setRemote env consumerMsg).1.OfMessage ↔
      (remoteSdp "consumer_sdp=" consumerMsg).isSome = false := by
  unfold setRemote remoteSdp
  cases strstr (lit "consumer_sdp=") consumerMsg with
  | none => simp [Answer.OfMessage]
  | some sdpStart =>
    dsimp only [Option.bind_eq_bind, Option.bind_some]
    cases sanitizeRemoteSdp (sdpStart.drop (lit "consumer_sdp=").length) maxSdpLen with
    | none => simp [Answer.OfMessage]
    | some out =>
      dsimp only [Option.bind_some, Option.pure_def]
      split <;> simp [Answer.OfMessage]

/-- Then nothing is done to the service. -/
private theorem setRemote_of_isNone {svc : Session} {env : ConnectEnv} {consumerMsg : Bytes}
    (h : (remoteSdp "consumer_sdp=" consumerMsg).isSome = false) :
    (svc.setRemote env consumerMsg).2 = svc := by
  unfold setRemote
  unfold remoteSdp at h
  cases hfound : strstr (lit "consumer_sdp=") consumerMsg with
  | none => rfl
  | some sdpStart =>
    dsimp only
    cases hsdp : sanitizeRemoteSdp (sdpStart.drop (lit "consumer_sdp=").length) maxSdpLen with
    | none => rfl
    | some out => simp [hfound, hsdp] at h

/-! ### What becomes of the session before -/

/-- The agent, the flag and the connections with their reassembly are the same. -/
def Undisturbed (svc after : Session) : Prop :=
  after.agent = svc.agent ∧ after.connected = svc.connected ∧ after.connections = svc.connections

/-- A message that is turned away for what it says or when it comes disturbs nothing. -/
def KeepsSession (svc : Session) (env : ConnectEnv) (consumerMsg : Bytes) : Prop :=
  (svc.handleConsumerConnect env consumerMsg).1.OfMessage →
    svc.Undisturbed (svc.handleConsumerConnect env consumerMsg).2

/-- A new agent is none of those before. -/
private theorem agent_cleanUp_ne (svc : Session) (env : ConnectEnv)
    (hcreated : env.created = true) : (svc.cleanUp env).agent ≠ svc.agent := by
  intro h
  rw [cleanUp, replaceAgent, if_pos hcreated] at h
  exact absurd (svc.fresh _ h.symm) (Nat.lt_irrefl _)

/-- Every CONSUMER_CONNECT that is turned away for what it says or when it comes leaves the
session as it was, except when it gets as far as the cleaning up and has no SDP that fits. -/
theorem keepsSession_iff (svc : Session) (env : ConnectEnv) (consumerMsg : Bytes) :
    svc.KeepsSession env consumerMsg ↔
      svc.isActive consumerMsg = true ∨ svc.isDuplicate env.now = true ∨
        svc.hasHadConsumer = false ∨ env.created = false ∨
        (remoteSdp "consumer_sdp=" consumerMsg).isSome = true := by
  unfold KeepsSession handleConsumerConnect
  by_cases hactive : svc.isActive consumerMsg = true
  · simp [hactive, Undisturbed]
  by_cases hduplicate : svc.isDuplicate env.now = true
  · simp [hactive, hduplicate, Undisturbed]
  rw [if_neg hactive, if_neg hduplicate]
  dsimp only
  by_cases hhad : svc.hasHadConsumer = true
  · by_cases hcreated : env.created = true
    · rw [if_neg (by simp [hhad, hcreated]), if_pos hhad, ofMessage_setRemote]
      cases hsdp : (remoteSdp "consumer_sdp=" consumerMsg).isSome with
      | true => simp
      | false =>
        rw [setRemote_of_isNone hsdp]
        refine iff_of_false ?_ (by simp [hactive, hduplicate, hhad, hcreated])
        intro h
        exact agent_cleanUp_ne _ env hcreated (h rfl).1
    · rw [if_pos (by simp [hhad, hcreated])]
      simp [hcreated, Answer.OfMessage]
  · rw [if_neg (by simp [hhad]), if_neg hhad, ofMessage_setRemote]
    have hfirst : svc.hasHadConsumer = false := Bool.eq_false_iff.mpr hhad
    refine iff_of_true ?_ (.inr (.inr (.inl hfirst)))
    intro h
    rw [setRemote_of_isNone h]
    exact ⟨rfl, rfl, rfl⟩

/-- A session over one connection that forwards. -/
private def streaming : Session :=
  { serviceId := lit "cam1", connected := true, hasHadConsumer := true
    lastConsumerConnectTime := 1000, agent := some ⟨0, some (lit "v=0\n")⟩, agents := 1
    fresh := fun a ha ↦ by
      cases Option.mem_some.mp ha
      decide
    connections := fun _ ↦ { ServiceConnection.zero with active := true, localSocket := 7 }
    gatheringDone := true }

/-- A CONSUMER_CONNECT without an SDP ends the session in progress. -/
theorem not_keepsSession_of_noSdp : ¬ ∀ (svc : Session) (env : ConnectEnv) (consumerMsg : Bytes),
    svc.connected = true → svc.agent ≠ none → svc.KeepsSession env consumerMsg := by
  intro h
  have hkeeps := h streaming ⟨2000, true, true, true⟩
    (lit "type=CONSUMER_CONNECT\nforce_reconnect=1\nservice_id=cam1\n") rfl (by decide)
  have hconnected := (hkeeps (by decide +kernel)).2.1
  revert hconnected
  decide +kernel

end Session

end Kitty.Provider
