import Kitty.Signal.Server

/-!
# Exceptions in the client handlers

Five values of messages are converted with `std::stoi` and nothing catches what it throws,
so one message can end the server; `src/signaling-server/signaling_server.cpp:1441–1449,
1570,1637,1926`. For REGISTER this happens before the token is looked at.
-/

namespace Kitty.Signal

open Kitty.Base

/-- A value begins with a number that an `int` holds. -/
def IsInt (text : Bytes) : Prop := ∃ v, IntText text v

instance (text : Bytes) : Decidable (IsInt text) :=
  inferInstanceAs (Decidable (∃ v, IntText text v))

/-- A field is missing, or its value begins with a number that an `int` holds. -/
def AbsentOrInt (parsed : Fields) (key : Bytes) : Prop := ∀ value ∈ parsed[key]?, IsInt value

instance (parsed : Fields) (key : Bytes) : Decidable (AbsentOrInt parsed key) :=
  inferInstanceAs (Decidable (∀ _ ∈ _, _))

/-- The numeric fields of a message, each in the types that read it, can be converted. Only
`p2p_port` must be there. -/
structure FieldsConvert (parsed : Fields) : Prop where
  register : field parsed (lit "type") = lit "REGISTER" →
    IsInt (field parsed (lit "p2p_port")) ∧ AbsentOrInt parsed (lit "consumer_port")
  srt : field parsed (lit "type") = lit "SRT_REGISTER" ∨
    field parsed (lit "type") = lit "SRT_REQUEST" →
    AbsentOrInt parsed (lit "srflx_port")
  portUpdate : field parsed (lit "type") = lit "PORT_UPDATE" → AbsentOrInt parsed (lit "local_port")

/-- The computation ends in an exception. -/
def Throws {α : Type} (x : Except StdException α) : Prop := ∃ e, x = .error e

theorem throws_stoi_iff (text : Bytes) : Throws (stoi text) ↔ ¬ IsInt text := by
  rw [IsInt, ← stoi_isOk_iff]
  cases stoi text with
  | error e => simp [Throws, Except.toBool]
  | ok v => simp [Throws, Except.toBool]

theorem throws_stoiOr0_iff (parsed : Fields) (key : Bytes) :
    Throws (stoiOr0 parsed key) ↔ ¬ AbsentOrInt parsed key := by
  unfold stoiOr0 AbsentOrInt
  cases parsed[key]? with
  | none => simp [Throws]
  | some value => simpa using throws_stoi_iff value

/-- What follows throws nothing of its own. -/
theorem throws_bind_iff {α β : Type} (x : Except StdException α) {f : α → Except StdException β}
    (hf : ∀ a, ¬ Throws (f a)) : Throws (x >>= f) ↔ Throws x := by
  cases x with
  | error e => exact ⟨fun _ ↦ ⟨e, rfl⟩, fun _ ↦ ⟨e, rfl⟩⟩
  | ok a => exact ⟨fun h ↦ absurd h (hf a), fun ⟨e, he⟩ ↦ by cases he⟩

theorem not_throws_pure {α : Type} (a : α) : ¬ Throws (pure a : Except StdException α) :=
  fun ⟨e, he⟩ ↦ by cases he

/-! ### The branches that read numbers -/

theorem throws_dispatchRegister_iff (cfg : Config) (fd : Nat) (parsed : Fields) :
    Throws (dispatchRegister cfg fd parsed) ↔
      ¬ (IsInt (field parsed (lit "p2p_port")) ∧ AbsentOrInt parsed (lit "consumer_port")) := by
  have hinner : ∀ p2pPort : Int, Throws (do
      let desiredConsumerPort ← stoiOr0 parsed (lit "consumer_port")
      if badToken cfg parsed then
        return reply fd (errorMessage "Authentication failed" []) .leave
      return Pc.registerCheck
        { serviceId := field parsed (lit "service_id"), peerId := field parsed (lit "peer_id")
          p2pPort, sdp := field parsed (lit "sdp")
          serviceProtocol := fieldOr parsed (lit "protocol") (lit "rtsp")
          serviceCodec := fieldOr parsed (lit "codec") (lit "h264"), desiredConsumerPort }) ↔
      ¬ AbsentOrInt parsed (lit "consumer_port") := fun p2pPort ↦ by
    rw [throws_bind_iff _ fun port ↦ ?_, throws_stoiOr0_iff]
    split <;> exact not_throws_pure _
  unfold dispatchRegister
  cases hp : stoi (field parsed (lit "p2p_port")) with
  | error e =>
    have hthrow : Throws (stoi (field parsed (lit "p2p_port"))) := ⟨e, hp⟩
    rw [throws_stoi_iff] at hthrow
    exact ⟨fun _ h ↦ hthrow h.1, fun _ ↦ ⟨e, rfl⟩⟩
  | ok p2pPort =>
    have hint : IsInt (field parsed (lit "p2p_port")) := by
      by_contra hn
      obtain ⟨e, he⟩ := (throws_stoi_iff _).mpr hn
      rw [hp] at he
      cases he
    apply (hinner p2pPort).trans
    exact ⟨fun h hb ↦ h hb.2, fun h hb ↦ h ⟨hint, hb⟩⟩

theorem throws_srtRequest_iff (parsed : Fields) :
    Throws (srtRequest parsed) ↔ ¬ AbsentOrInt parsed (lit "srflx_port") := by
  unfold srtRequest
  rw [throws_bind_iff _ fun _ ↦ not_throws_pure _, throws_stoiOr0_iff]

theorem throws_dispatchSrtRegister_iff (cfg : Config) (fd : Nat) (parsed : Fields) :
    Throws (dispatchSrtRegister cfg fd parsed) ↔ ¬ AbsentOrInt parsed (lit "srflx_port") := by
  unfold dispatchSrtRegister
  rw [throws_bind_iff _ fun req ↦ ?_, throws_srtRequest_iff]
  split
  · exact not_throws_pure _
  · split <;> exact not_throws_pure _

theorem throws_dispatchSrtRequest_iff (fd : Nat) (parsed : Fields) :
    Throws (dispatchSrtRequest fd parsed) ↔ ¬ AbsentOrInt parsed (lit "srflx_port") := by
  unfold dispatchSrtRequest
  rw [throws_bind_iff _ fun req ↦ ?_, throws_srtRequest_iff]
  split <;> exact not_throws_pure _

theorem throws_dispatchPortUpdate_iff (parsed : Fields) :
    Throws (dispatchPortUpdate parsed) ↔ ¬ AbsentOrInt parsed (lit "local_port") := by
  unfold dispatchPortUpdate
  rw [throws_bind_iff _ fun _ ↦ not_throws_pure _, throws_stoiOr0_iff]

/-- A message makes its handler throw exactly when a number in it cannot be converted. -/
theorem throws_dispatch_iff (cfg : Config) (fd : Nat) (parsed : Fields) (answers : Option Nat) :
    Throws (dispatch cfg fd parsed answers) ↔ ¬ FieldsConvert parsed := by
  have hkinds : lit "REGISTER" ≠ lit "SRT_REGISTER" ∧ lit "REGISTER" ≠ lit "SRT_REQUEST" ∧
      lit "REGISTER" ≠ lit "PORT_UPDATE" ∧ lit "SRT_REGISTER" ≠ lit "PORT_UPDATE" ∧
      lit "SRT_REQUEST" ≠ lit "PORT_UPDATE" := by decide
  obtain ⟨hrs, hrq, hrp, hsp, hqp⟩ := hkinds
  obtain ⟨ht, hd⟩ | ⟨ht, hd⟩ | ⟨ht, hd⟩ | ⟨ht, hd⟩ | ⟨ht, pc, hd, -⟩ :=
    dispatch_cases cfg fd parsed answers
  · rw [hd, throws_dispatchRegister_iff]
    refine not_congr ⟨fun h ↦ ⟨fun _ ↦ h, ?_, ?_⟩, fun h ↦ h.register ht⟩
    · rw [ht]
      exact fun habs ↦ absurd habs (by simp [hrs, hrq])
    · rw [ht]
      exact fun habs ↦ absurd habs hrp
  · rw [hd, throws_dispatchSrtRegister_iff]
    refine not_congr ⟨fun h ↦ ⟨?_, fun _ ↦ h, ?_⟩, fun h ↦ h.srt (.inl ht)⟩
    · rw [ht]
      exact fun habs ↦ absurd habs.symm hrs
    · rw [ht]
      exact fun habs ↦ absurd habs hsp
  · rw [hd, throws_dispatchSrtRequest_iff]
    refine not_congr ⟨fun h ↦ ⟨?_, fun _ ↦ h, ?_⟩, fun h ↦ h.srt (.inr ht)⟩
    · rw [ht]
      exact fun habs ↦ absurd habs.symm hrq
    · rw [ht]
      exact fun habs ↦ absurd habs hqp
  · rw [hd, throws_dispatchPortUpdate_iff]
    refine not_congr ⟨fun h ↦ ⟨?_, ?_, fun _ ↦ h⟩, fun h ↦ h.portUpdate ht⟩
    · rw [ht]
      exact fun habs ↦ absurd habs.symm hrp
    · rw [ht]
      exact fun habs ↦ absurd habs (by simp [hsp.symm, hqp.symm])
  · -- The other types read no number.
    simp only [List.mem_cons, List.not_mem_nil, or_false, not_or] at ht
    obtain ⟨h1, h2, h3, h4⟩ := ht
    rw [hd]
    refine ⟨fun h ↦ absurd h (not_throws_pure _), fun h ↦ absurd ⟨?_, ?_, ?_⟩ h⟩
    · exact fun habs ↦ absurd habs h1
    · exact fun habs ↦ absurd habs (by simp [h2, h3])
    · exact fun habs ↦ absurd habs h4

/-! ### Every run -/

/-- A handler that takes up a message finds numbers in it that can be converted. -/
def Converts (w : Server) : ServerLabel → Prop
  | .run tid _ => ∀ t ∈ w.threads tid, match t.pc with
    | .received msg _ => FieldsConvert (parseMessage msg)
    | _ => True
  | _ => True

/-- The step that takes up a message ends the process when a number cannot be converted, and
no other step does. -/
theorem crashed_step_iff {cfg : Config} {w v : Server} {l : ServerLabel}
    (h : w.step cfg l = some v) : v.crashed = false ↔ Converts w l := by
  obtain ⟨hc, -⟩ := Server.act_of_step h
  cases l with
  | accept fd ip =>
    obtain ⟨-, rfl⟩ := Server.step_accept h
    exact ⟨fun _ ↦ trivial, fun _ ↦ hc⟩
  | recv tid stream answers =>
    obtain ⟨t, -, -, rfl⟩ := Server.step_recv h
    exact ⟨fun _ ↦ trivial, fun _ ↦ hc⟩
  | run tid now =>
    obtain ⟨t, ht, ⟨msg, answers, hpc, -, ⟨e, he, rfl⟩ | ⟨pc, hp, rfl⟩⟩ | ⟨hpc, r, pc, -, rfl⟩⟩ :=
      Server.step_run h
    · have hthrow := (throws_dispatch_iff cfg t.fd (parseMessage msg) answers).mp ⟨e, he⟩
      refine ⟨?_, fun hconv ↦ absurd ?_ hthrow⟩
      · intro habs
        cases habs
      · have := hconv t ht
        rwa [hpc] at this
    · have hconv : FieldsConvert (parseMessage msg) := by
        by_contra hn
        obtain ⟨e, he⟩ := (throws_dispatch_iff cfg t.fd (parseMessage msg) answers).mpr hn
        rw [hp] at he
        cases he
      refine ⟨?_, fun _ ↦ hc⟩
      intro _ t' ht'
      have htt : t' = t := Option.some.inj ((Option.mem_def.mp ht').symm.trans ht)
      rw [htt, hpc]
      exact hconv
    · refine ⟨?_, fun _ ↦ hc⟩
      intro _ t' ht'
      have htt : t' = t := Option.some.inj ((Option.mem_def.mp ht').symm.trans ht)
      rw [htt]
      split
      · next msg answers hrec => exact absurd hrec (hpc msg answers)
      · trivial
  | timeout tid =>
    obtain ⟨t, req, slot, -, -, -, rfl⟩ := Server.step_timeout h
    exact ⟨fun _ ↦ trivial, fun _ ↦ hc⟩
  | accepted tid n =>
    obtain ⟨t, out, next, -, -, -, rfl⟩ := Server.step_accepted h
    exact ⟨fun _ ↦ trivial, fun _ ↦ (Server.advance_same ..).2.1.trans hc⟩
  | sendFail tid =>
    obtain ⟨t, out, next, -, -, rfl⟩ := Server.step_sendFail h
    refine ⟨fun _ ↦ trivial, ?_⟩
    intro _
    split
    · exact (Server.advance_same ..).2.1.trans hc
    · exact hc

/-- A run leaves the server running exactly when in every message a handler has taken up,
from any client in any state, the numeric fields that its type reads could be converted. -/
theorem running_iff_converts {cfg : Config} {ls : List ServerLabel} {w : Server}
    (hr : run (Server.step cfg) .start ls = some w) :
    w.crashed = false ↔ Always (Server.step cfg) Converts .start ls := by
  have hstart : Server.start.crashed = false := rfl
  generalize Server.start = s at hr hstart ⊢
  induction ls generalizing s with
  | nil =>
    cases hr
    exact ⟨fun _ ↦ trivial, fun _ ↦ hstart⟩
  | cons l ls ih =>
    rw [run_cons] at hr
    cases hs : s.step cfg l with
    | none => simp [hs] at hr
    | some v =>
      rw [hs] at hr
      cases hv : v.crashed with
      | false =>
        refine (ih v hr hv).trans ⟨fun h ↦ ⟨(crashed_step_iff hs).mp hv, ?_⟩,
          fun h ↦ h.2 v hs⟩
        intro t ht
        cases hs.symm.trans ht
        exact h
      | true =>
        -- Nothing happens in a process that has ended.
        have hw : w.crashed = true := by
          cases ls with
          | nil =>
            cases hr
            exact hv
          | cons l' ls =>
            rw [Option.bind_some, run_cons, Server.step, if_pos hv] at hr
            cases hr
        constructor
        · intro h
          rw [h] at hw
          cases hw
        · intro h
          have := (crashed_step_iff hs).mpr h.1
          rw [hv] at this
          cases this

/-- A server that asks for a token. -/
def tokenConfig : Config := { Config.unset with apiToken := lit "secret" }

/-- A client that sends one message. -/
def sendsOnce (msg : String) : List ServerLabel :=
  [.accept 4 (lit "10.0.0.1"), .run 1 0, .recv 1 (frame (lit msg)) none, .run 1 0]

theorem running_iff_converts_register :
    ∃ w,
      run (Server.step tokenConfig) .start (sendsOnce "type=REGISTER\np2p_port=8554\n") = some w ∧
      (w.crashed = false ↔ Always (Server.step tokenConfig) Converts .start
        (sendsOnce "type=REGISTER\np2p_port=8554\n")) :=
  ⟨_, rfl, running_iff_converts rfl⟩

/-- A REGISTER without a port and without a token ends the server. -/
theorem crashed_register :
    ∃ w, run (Server.step tokenConfig) .start (sendsOnce "type=REGISTER\n") = some w ∧
      w.crashed = true :=
  ⟨_, rfl, by decide⟩

end Kitty.Signal
