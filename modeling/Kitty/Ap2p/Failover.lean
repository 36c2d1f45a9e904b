import Kitty.Base.Bytes
import Kitty.Base.Run

/-!
# Which broker is tried

`connect_once` and `mqtt_thread_main` of `src/ap2p/mqtt_thread.c:174–399`: the thread connects to a
broker, to the one that was connected last or else to the main one, and is to try the other one
when that fails. But `connect_once` goes on with a broker that refuses until the process is to shut
down. How long the thread sleeps between two attempts is left out.
-/

namespace Kitty.Ap2p

open Kitty.Base

/-! ### The thread -/

/-- A broker of the configuration. -/
inductive Broker where
  | main
  | backup
  deriving DecidableEq

def Broker.other : Broker → Broker
  | main => backup
  | backup => main

/-- The fields of `ap2p_state_t` that are set before the thread is started. -/
structure Bootstrap where
  mqttUrl : Bytes
  mqttUrlBkp : Bytes
  nodeId : Bytes

/-- The URL of a broker. -/
def Bootstrap.url (boot : Bootstrap) : Broker → Bytes
  | .main => boot.mqttUrl
  | .backup => boot.mqttUrlBkp

/-- `url_secondary`: the backup, when one is configured, or the main broker when the backup has the
URL that is tried first. -/
def Bootstrap.secondary (boot : Bootstrap) (primary : Broker) : Option Broker :=
  if boot.mqttUrlBkp = [] then none
  else if boot.mqttUrlBkp = boot.url primary then some .main
  else some .backup

/-- A call of `connect_once`: the first of an iteration, with the broker to try when it fails, or
the second. -/
inductive Call where
  | primary (secondary : Option Broker)
  | secondary

/-- Where the thread is: at the loop over connections; before `MQTTClient_create`; before
`MQTTClient_connect`; behind one that failed; before it subscribes; in the loop that waits for the
end of the connection; behind it; or it has ended. -/
inductive MqttPc where
  | loop
  | create (uri : Broker) (call : Call)
  | connect (uri : Broker) (call : Call)
  | refused (uri : Broker) (call : Call)
  | subscribe
  | idle
  | disconnect
  | done

/-- The thread, with the broker of the last attempt, and how many attempts with it failed one after
the other since another broker was tried or one succeeded. -/
structure MqttThread where
  pc : MqttPc
  shutdownFlag : Bool
  lastOkUrl : Option Broker
  tried : Option Broker
  failures : Nat

/-- The start of the thread: without a URL or a node it ends at once. -/
def MqttThread.start (boot : Bootstrap) : MqttThread where
  pc := if boot.mqttUrl = [] ∨ boot.nodeId = [] then .done else .loop
  shutdownFlag := false
  lastOkUrl := none
  tried := none
  failures := 0

/-- What happens: the thread takes a step of its own; a call of the client library succeeds or
fails; the connection is found lost or not; the process is told to shut down. -/
inductive MqttEvent where
  | run
  | create (ok : Bool)
  | connect (ok : Bool)
  | subscribe (ok : Bool)
  | poll (lost : Bool)
  | shutdown

namespace MqttThread

/-- The broker tried first. -/
def urlPrimary (s : MqttThread) : Broker := s.lastOkUrl.getD .main

/-- An attempt that failed. -/
def fail (s : MqttThread) (uri : Broker) : MqttThread :=
  { s with tried := some uri, failures := if s.tried = some uri then s.failures + 1 else 1 }

/-- An attempt that did not. -/
def succeed (s : MqttThread) (uri : Broker) : MqttThread :=
  { s with tried := some uri, failures := 0, lastOkUrl := some uri, pc := .subscribe }

/-- `connect_once` returns -1: the other broker is tried, when there is one and it was not. -/
def giveUp (s : MqttThread) : Call → MqttThread
  | .primary (some secondary) => { s with pc := .create secondary .secondary }
  | .primary none | .secondary => { s with pc := .loop }

/-- One event. -/
def step (boot : Bootstrap) (s : MqttThread) : MqttEvent → Option MqttThread
  | .run =>
    match s.pc with
    | .loop => some
      (if s.shutdownFlag then { s with pc := .done }
      else { s with pc := .create s.urlPrimary (.primary (boot.secondary s.urlPrimary)) })
    | .refused uri call => some
      (if s.shutdownFlag then s.giveUp call else { s with pc := .connect uri call })
    | .disconnect => some { s with pc := .loop }
    | _ => none
  | .create ok =>
    match s.pc with
    | .create uri call => some
      (if ok then { s with pc := .connect uri call } else (s.fail uri).giveUp call)
    | _ => none
  | .connect ok =>
    match s.pc with
    | .connect uri call => some
      (if ok then s.succeed uri else { s.fail uri with pc := .refused uri call })
    | _ => none
  | .subscribe ok =>
    match s.pc with
    | .subscribe => some { s with pc := if ok then .idle else .loop }
    | _ => none
  | .poll lost =>
    match s.pc with
    | .idle => some { s with pc := if s.shutdownFlag || lost then .disconnect else .idle }
    | _ => none
  | .shutdown => some { s with shutdownFlag := true }

/-- A broker refuses a connection only when the process is to shut down. -/
def RefusedAtEnd (s : MqttThread) : MqttEvent → Prop
  | .connect ok => ok = false → s.shutdownFlag = true
  | _ => True

instance (s : MqttThread) : (e : MqttEvent) → Decidable (s.RefusedAtEnd e)
  | .connect _ => inferInstanceAs (Decidable (_ → _))
  | .run | .create _ | .subscribe _ | .poll _ | .shutdown => isTrue trivial

/-! ### Two brokers -/

/-- A call has the other broker to turn to, or is the one that has turned to it. -/
def Turns (s : MqttThread) (uri : Broker) : Call → Prop
  | .primary secondary => uri = s.urlPrimary ∧ secondary = some uri.other
  | .secondary => uri = s.urlPrimary.other

/-- No attempt with the broker that comes next has failed since the other one was tried. -/
def Fresh (s : MqttThread) (uri : Broker) : Prop := s.failures = 0 ∨ s.tried = some uri.other

/-- What is known of the attempts at each place. -/
def Placed (s : MqttThread) : MqttPc → Prop
  | .loop => s.Fresh s.urlPrimary
  | .create uri call | .connect uri call => s.Fresh uri ∧ s.Turns uri call
  | .refused uri call => s.shutdownFlag = true ∧ s.tried = some uri ∧ s.Turns uri call
  | .subscribe | .idle | .disconnect => s.failures = 0
  | .done => True

/-- At most one attempt in a row has failed. -/
structure Inv (s : MqttThread) : Prop where
  failures : s.failures ≤ 1
  placed : s.Placed s.pc

section Steps

variable {boot : Bootstrap} {s t : MqttThread} {uri : Broker} {call : Call}

@[simp] theorem other_other (uri : Broker) : uri.other.other = uri := by
  cases uri <;> rfl

theorem other_ne (uri : Broker) : uri.other ≠ uri := by
  cases uri <;> decide

/-- With two brokers, the second one to try is the other one. -/
theorem secondary_eq (hbkp : boot.mqttUrlBkp ≠ []) (hne : boot.mqttUrlBkp ≠ boot.mqttUrl)
    (uri : Broker) : boot.secondary uri = some uri.other := by
  cases uri with
  | main =>
    rw [Bootstrap.secondary, if_neg hbkp]
    exact if_neg hne
  | backup =>
    rw [Bootstrap.secondary, if_neg hbkp]
    exact if_pos rfl

/-- Where no attempt has failed, one that fails is the first. -/
theorem failures_fail (h : s.Fresh uri) : (s.fail uri).failures = 1 := by
  rw [fail]
  dsimp only
  split
  · next htried =>
    rcases h with hzero | hother
    · rw [hzero]
    · rw [htried, Option.some.injEq] at hother
      exact absurd hother.symm (other_ne uri)
  · rfl

/-- Behind an attempt that failed, the next one is with the other broker. -/
theorem inv_giveUp (hfailures : s.failures ≤ 1) (htried : s.tried = some uri)
    (hturns : s.Turns uri call) : (s.giveUp call).Inv := by
  cases call with
  | primary secondary =>
    obtain ⟨huri, rfl⟩ := hturns
    refine ⟨hfailures, Or.inr ?_, ?_⟩
    · rw [other_other]
      exact htried
    · exact congrArg Broker.other huri
  | secondary =>
    refine ⟨hfailures, Or.inr ?_⟩
    change s.tried = some s.urlPrimary.other
    rw [htried, hturns]

theorem inv_start (boot : Bootstrap) : (start boot).Inv := by
  unfold start
  split
  · exact ⟨Nat.zero_le _, trivial⟩
  · exact ⟨Nat.zero_le _, .inl rfl⟩

/-- While a broker refuses a connection only at the end, every event keeps the invariant. -/
theorem inv_of_step (hbkp : boot.mqttUrlBkp ≠ []) (hne : boot.mqttUrlBkp ≠ boot.mqttUrl)
    {e : MqttEvent} (hrefused : s.RefusedAtEnd e) (hs : s.Inv) (h : s.step boot e = some t) :
    t.Inv := by
  obtain ⟨hfailures, hplaced⟩ := hs
  cases e with
  | run =>
    cases hpc : s.pc with
    | loop =>
      simp only [step, hpc, Option.some.injEq] at h
      rw [hpc] at hplaced
      subst h
      split
      · exact ⟨hfailures, trivial⟩
      · exact ⟨hfailures, hplaced, rfl, secondary_eq hbkp hne _⟩
    | refused uri call =>
      simp only [step, hpc, Option.some.injEq] at h
      rw [hpc] at hplaced
      obtain ⟨hflag, htried, hturns⟩ := hplaced
      rw [if_pos hflag] at h
      exact h ▸ inv_giveUp hfailures htried hturns
    | disconnect =>
      simp only [step, hpc, Option.some.injEq] at h
      rw [hpc] at hplaced
      subst h
      exact ⟨hfailures, .inl hplaced⟩
    | _ =>
      simp only [step, hpc] at h
      cases h
  | create ok =>
    cases hpc : s.pc with
    | create uri call =>
      simp only [step, hpc, Option.some.injEq] at h
      rw [hpc] at hplaced
      obtain ⟨hfresh, hturns⟩ := hplaced
      subst h
      split
      · exact ⟨hfailures, hfresh, hturns⟩
      · apply inv_giveUp (failures_fail hfresh).le rfl
        cases call with
        | primary secondary => exact hturns
        | secondary => exact hturns
    | _ =>
      simp only [step, hpc] at h
      cases h
  | connect ok =>
    cases hpc : s.pc with
    | connect uri call =>
      simp only [step, hpc, Option.some.injEq] at h
      rw [hpc] at hplaced
      obtain ⟨hfresh, hturns⟩ := hplaced
      subst h
      cases ok with
      | true => exact ⟨Nat.zero_le _, rfl⟩
      | false =>
        refine ⟨(failures_fail hfresh).le, hrefused rfl, rfl, ?_⟩
        cases call with
        | primary secondary => exact hturns
        | secondary => exact hturns
    | _ =>
      simp only [step, hpc] at h
      cases h
  | subscribe ok =>
    cases hpc : s.pc with
    | subscribe =>
      simp only [step, hpc, Option.some.injEq] at h
      rw [hpc] at hplaced
      subst h
      cases ok with
      | true => exact ⟨hfailures, hplaced⟩
      | false => exact ⟨hfailures, .inl hplaced⟩
    | _ =>
      simp only [step, hpc] at h
      cases h
  | poll lost =>
    cases hpc : s.pc with
    | idle =>
      simp only [step, hpc, Option.some.injEq] at h
      rw [hpc] at hplaced
      subst h
      refine ⟨hfailures, ?_⟩
      dsimp only
      split <;> exact hplaced
    | _ =>
      simp only [step, hpc] at h
      cases h
  | shutdown =>
    cases h
    refine ⟨hfailures, ?_⟩
    change Placed _ s.pc
    cases hpc : s.pc with
    | create uri call | connect uri call =>
      rw [hpc] at hplaced
      cases call <;> exact hplaced
    | refused uri call =>
      rw [hpc] at hplaced
      cases call <;> exact ⟨rfl, hplaced.2⟩
    | _ =>
      rw [hpc] at hplaced
      exact hplaced

/-- A broker that refuses and refuses is tried again and again. -/
theorem run_refused (boot : Bootstrap) (hflag : s.shutdownFlag = false)
    (hpc : s.pc = .connect uri call) (htried : s.tried = some uri) (n : Nat) :
    run (step boot) s (List.replicate n [.connect false, .run]).flatten =
      some { s with failures := s.failures + n } := by
  apply run_replicate (step boot) fun n ↦ { s with failures := s.failures + n }
  intro n
  obtain ⟨pc, flag, ok, tried, failures⟩ := s
  dsimp only at hflag hpc htried
  subst hflag hpc htried
  simp [run_cons, step, fail, Nat.add_assoc]

end Steps

end MqttThread

/-- With two brokers of different URLs, as long as a broker refuses a connection only when the
process is to shut down, the other broker is tried as soon as an attempt with one has failed. -/
theorem failures_le_one (boot : Bootstrap) (es : List MqttEvent) {s : MqttThread}
    (hbkp : boot.mqttUrlBkp ≠ []) (hne : boot.mqttUrlBkp ≠ boot.mqttUrl)
    (hrefused : Always (MqttThread.step boot) MqttThread.RefusedAtEnd (.start boot) es)
    (hr : run (MqttThread.step boot) (.start boot) es = some s) : s.failures ≤ 1 := by
  have hs : s.Inv := invariant_run _
    (fun _ _ _ he hs ht ↦ MqttThread.inv_of_step hbkp hne he hs ht) hrefused
    (MqttThread.inv_start boot) hr
  exact hs.failures

/-- A camera with two brokers. -/
def twoBrokers : Bootstrap where
  mqttUrl := lit "tcp://main:1883"
  mqttUrlBkp := lit "tcp://backup:1883"
  nodeId := lit "SN123"

/-- The client for the main broker cannot be created, and the backup accepts. -/
theorem failures_le_one_created : ∃ s, run (MqttThread.step twoBrokers) (.start twoBrokers)
    [.run, .create false, .create true, .connect true] = some s ∧ s.failures ≤ 1 :=
  ⟨_, rfl, failures_le_one twoBrokers [.run, .create false, .create true, .connect true]
    (by decide) (by decide) (by decide) rfl⟩

/-- The main broker refuses, and no number of refusals makes the thread try the backup. -/
theorem failures_unbounded : ¬ ∃ bound, ∀ es s,
    run (MqttThread.step twoBrokers) (.start twoBrokers) es = some s → s.failures ≤ bound := by
  rintro ⟨bound, h⟩
  have hfirst : run (MqttThread.step twoBrokers) (.start twoBrokers)
      [.run, .create true, .connect false, .run] =
        some ⟨.connect .main (.primary (some .backup)), false, none, some .main, 1⟩ := rfl
  have hrest := MqttThread.run_refused (s := ⟨.connect .main (.primary (some .backup)), false, none,
    some .main, 1⟩) twoBrokers rfl rfl rfl bound
  have hle := h ([.run, .create true, .connect false, .run] ++
    (List.replicate bound [.connect false, .run]).flatten) _
    (by rw [run_append, hfirst, Option.bind_some, hrest])
  dsimp only at hle
  omega

end Kitty.Ap2p
