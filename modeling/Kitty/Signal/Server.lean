import Kitty.Base.Frame
import Kitty.Base.Run
import Kitty.Signal.Handler

/-!
# The signaling server

All threads of the server over one registry: the main thread's `accept`, any number of
client handlers and the ping monitor, each taking its next step at any time;
`src/signaling-server/signaling_server.cpp:1423–2137`. A `send` call takes some of its
bytes or fails, and an exception that leaves `handle_client` ends the process.
-/

namespace Kitty.Signal

open Kitty.Base

/-- The server, its threads numbered as they were started. Beside the program's state it
records, for each descriptor, the bytes put on its connection and the messages sent on it to
the end, and for each slot the SDP that answered its CONSUMER_CONNECT. -/
structure Server where
  registry : Registry
  spawned : Nat
  threads : Nat → Option Thread
  crashed : Bool
  wire : Nat → Bytes
  sent : Nat → List Bytes
  answered : Nat → Option Bytes

/-- Only the ping monitor runs, as thread 0. -/
def Server.start : Server where
  registry := .start
  spawned := 1
  threads := Function.update (fun _ ↦ none) 0 (some ⟨0, [], .pingSleep⟩)
  crashed := false
  wire _ := []
  sent _ := []
  answered _ := none

/-- What happens: a client is accepted; a handler reads a message, or finds its connection
ended; a thread takes a step of its own; a waiting REQUEST handler gives up; a `send` call
takes some bytes; a `send` call fails. -/
inductive ServerLabel where
  | accept (fd : Nat) (ip : Bytes)
  | recv (tid : Nat) (stream : Bytes) (answers : Option Nat)
  | run (tid : Nat) (now : Int)
  | timeout (tid : Nat)
  | accepted (tid n : Nat)
  | sendFail (tid : Nat)

/-- SUBSCRIBE calls `send` itself, and looks at no result. -/
def Then.raw : Then → Bool
  | .listed _ => true
  | _ => false

/-- Where in the frame the bytes of the current `send` call end. -/
def Outgoing.callEnd (out : Outgoing) : Nat :=
  if out.sent < 4 then 4 else 4 + out.msg.length

/-- A thread goes on. -/
def Server.put (w : Server) (tid : Nat) (t : Thread) (pc : Pc) : Server :=
  { w with threads := Function.update w.threads tid (some { t with pc }) }

/-- Bytes on the connection of a descriptor. -/
def Server.emit (w : Server) (fd : Nat) (bytes : Bytes) : Server :=
  { w with wire := Function.update w.wire fd (w.wire fd ++ bytes) }

/-- The sending thread behind a `send` call that brought it so far in the frame. -/
def Server.advance (cfg : Config) (w : Server) (tid : Nat) (t : Thread) (out : Outgoing)
    (next : Then) (reached : Nat) : Server :=
  if reached = 4 + out.msg.length then
    { w.put tid t (if next.accounts then .account out.fd reached next else next.ok cfg t.fd) with
      sent := Function.update w.sent out.fd (w.sent out.fd ++ [out.msg]) }
  else w.put tid t (.sending { out with sent := reached } next)

/-- The answer an SDP_READY brings, recorded when it reaches its slot or finds none. -/
def Server.record (w : Server) (pc : Pc) : Nat → Option Bytes :=
  match pc with
  | .sdpFind service sdp (some slot) =>
    if w.registry.pendingSdpRequests.contains service then w.answered
    else Function.update w.answered slot (some sdp)
  | .sdpFulfil _ sdp (some slot) => Function.update w.answered slot (some sdp)
  | _ => w.answered

/-- One event, while the process runs. -/
def Server.act (cfg : Config) (w : Server) : ServerLabel → Option Server
  | .accept fd ip =>
    if fd ∉ w.registry.openFds then some
      { w with
        registry := { w.registry with openFds := w.registry.openFds.insert fd }
        spawned := w.spawned + 1
        threads := Function.update w.threads w.spawned (some ⟨fd, ip, .connected⟩)
        wire := Function.update w.wire fd []
        sent := Function.update w.sent fd [] }
    else none
  | .recv tid stream answers =>
    match w.threads tid with
    | some t =>
      match t.pc with
      | .recv =>
        if stream = [] ∨ t.fd ∈ w.registry.openFds then some
          (w.put tid t (match recvMessage stream with
            | some msg => .received msg answers
            | none => .leaveSubscribers))
        else none
      | _ => none
    | none => none
  | .run tid now =>
    match w.threads tid with
    | some t =>
      match t.pc with
      | .received msg answers =>
        if w.registry.lockedBy = none then
          let registry := w.registry.accountReceived t.fd (4 + msg.length)
          match dispatch cfg t.fd (parseMessage msg) answers with
          | .error _ => some { w with registry, crashed := true }
          | .ok pc => some { w.put tid t pc with registry }
        else none
      | _ => (t.run cfg tid now w.registry).map fun (registry, pc) ↦
          { w.put tid t pc with registry, answered := w.record t.pc }
    | none => none
  | .timeout tid =>
    match w.threads tid with
    | some t =>
      match t.pc with
      | .requestWait req slot =>
        if (w.registry.slots slot).ready then none
        else some (w.put tid t (.requestErase req slot none))
      | _ => none
    | none => none
  | .accepted tid n =>
    match w.threads tid with
    | some t =>
      match t.pc with
      | .sending out next =>
        if 0 < n ∧ out.sent + n ≤ out.callEnd ∧ out.fd ∈ w.registry.openFds then
          some ((w.emit out.fd (((frame out.msg).drop out.sent).take n)).advance cfg tid t out next
            (if next.raw then out.callEnd else out.sent + n))
        else none
      | _ => none
    | none => none
  | .sendFail tid =>
    match w.threads tid with
    | some t =>
      match t.pc with
      | .sending out next =>
        if next.raw then some (w.advance cfg tid t out next out.callEnd)
        else some (w.put tid t (next.fail cfg t.fd out))
      | _ => none
    | none => none

/-- One event. -/
def Server.step (cfg : Config) (w : Server) (l : ServerLabel) : Option Server :=
  if w.crashed then none else w.act cfg l

/-- A thread that goes on sending changes its place, and the messages sent. -/
theorem Server.advance_same (cfg : Config) (w : Server) (tid : Nat) (t : Thread) (out : Outgoing)
    (next : Then) (reached : Nat) :
    (w.advance cfg tid t out next reached).registry = w.registry ∧
      (w.advance cfg tid t out next reached).crashed = w.crashed ∧
      (w.advance cfg tid t out next reached).wire = w.wire ∧
      (w.advance cfg tid t out next reached).answered = w.answered := by
  unfold Server.advance
  split <;> exact ⟨rfl, rfl, rfl, rfl⟩

/-! ### What a step can be -/

/-- Where a handler can be behind a message it has read: at the first lock of a branch, at a
reply that refuses the message, or at the next message. -/
inductive Dispatched (cfg : Config) (fd : Nat) (parsed : Fields) (answers : Option Nat) :
    Pc → Prop where
  | recv : Dispatched cfg fd parsed answers .recv
  | refuse (msg : Bytes) : Dispatched cfg fd parsed answers (reply fd msg .recv)
  | leave (msg : Bytes) : Dispatched cfg fd parsed answers (reply fd msg .leave)
  | registerCheck (req : Registry.RegisterRequest)
      (h : req.serviceId = field parsed (lit "service_id"))
      (htype : field parsed (lit "type") = lit "REGISTER") (htoken : badToken cfg parsed = false) :
      Dispatched cfg fd parsed answers (.registerCheck req)
  | srtRegister (req : Registry.SrtRequest) : Dispatched cfg fd parsed answers (.srtRegister req)
  | srtLookup (req : Registry.SrtRequest) : Dispatched cfg fd parsed answers (.srtLookup req)
  | subscribe : Dispatched cfg fd parsed answers .subscribe
  | requestStats : Dispatched cfg fd parsed answers
      (.requestStats (field parsed (lit "service_id")) (field parsed (lit "consumer_sdp")))
  | pong : Dispatched cfg fd parsed answers (.pong (field parsed (lit "service_id")))
  | portUpdate (port : Int) (h : 0 < port) :
      Dispatched cfg fd parsed answers (.portUpdate (field parsed (lit "service_id")) port)
  | sdpStore : Dispatched cfg fd parsed answers
      (.sdpStore (field parsed (lit "service_id")) (field parsed (lit "sdp")) answers)
  | providerDisconnected :
      Dispatched cfg fd parsed answers (.providerDisconnected (field parsed (lit "service_id")))

/-- The types that read a number go to branches of their own; the others go on at once. -/
theorem dispatch_cases (cfg : Config) (fd : Nat) (parsed : Fields) (answers : Option Nat) :
    field parsed (lit "type") = lit "REGISTER" ∧
        dispatch cfg fd parsed answers = dispatchRegister cfg fd parsed ∨
      field parsed (lit "type") = lit "SRT_REGISTER" ∧
        dispatch cfg fd parsed answers = dispatchSrtRegister cfg fd parsed ∨
      field parsed (lit "type") = lit "SRT_REQUEST" ∧
        dispatch cfg fd parsed answers = dispatchSrtRequest fd parsed ∨
      field parsed (lit "type") = lit "PORT_UPDATE" ∧
        dispatch cfg fd parsed answers = dispatchPortUpdate parsed ∨
      field parsed (lit "type") ∉
          [lit "REGISTER", lit "SRT_REGISTER", lit "SRT_REQUEST", lit "PORT_UPDATE"] ∧
        ∃ pc, dispatch cfg fd parsed answers = .ok pc ∧ Dispatched cfg fd parsed answers pc := by
  generalize hd : dispatch cfg fd parsed answers = x
  unfold dispatch at hd
  generalize htype : field parsed (lit "type") = type at hd ⊢
  by_cases h1 : type = lit "REGISTER"
  · rw [if_pos h1] at hd
    exact .inl ⟨h1, hd.symm⟩
  rw [if_neg h1] at hd
  by_cases h2 : type = lit "SRT_REGISTER"
  · rw [if_pos h2] at hd
    exact .inr (.inl ⟨h2, hd.symm⟩)
  rw [if_neg h2] at hd
  by_cases h3 : type = lit "SRT_REQUEST"
  · rw [if_pos h3] at hd
    exact .inr (.inr (.inl ⟨h3, hd.symm⟩))
  rw [if_neg h3] at hd
  by_cases h4 : type = lit "PORT_UPDATE"
  · have hother : lit "PORT_UPDATE" ≠ lit "SUBSCRIBE" ∧ lit "PORT_UPDATE" ≠ lit "REQUEST" ∧
        lit "PORT_UPDATE" ≠ lit "PONG" := by decide
    obtain ⟨hsubscribe, hrequest, hpong⟩ := hother
    rw [h4, if_neg hsubscribe, if_neg hrequest, if_neg hpong, if_pos rfl] at hd
    exact .inr (.inr (.inr (.inl ⟨h4, hd.symm⟩)))
  refine .inr (.inr (.inr (.inr ⟨by simp [h1, h2, h3, h4], ?_⟩)))
  by_cases h5 : type = lit "SUBSCRIBE"
  · rw [if_pos h5] at hd
    exact ⟨_, hd.symm, .subscribe⟩
  rw [if_neg h5] at hd
  by_cases h6 : type = lit "REQUEST"
  · rw [if_pos h6] at hd
    exact ⟨_, hd.symm, .requestStats⟩
  rw [if_neg h6] at hd
  by_cases h7 : type = lit "PONG"
  · rw [if_pos h7] at hd
    exact ⟨_, hd.symm, .pong⟩
  rw [if_neg h7, if_neg h4] at hd
  by_cases h8 : type = lit "SDP_READY"
  · rw [if_pos h8] at hd
    refine ⟨_, hd.symm, ?_⟩
    split
    · exact .sdpStore
    · exact .recv
  rw [if_neg h8] at hd
  by_cases h9 : type = lit "PROVIDER_DISCONNECTED"
  · rw [if_pos h9] at hd
    refine ⟨_, hd.symm, ?_⟩
    split
    · exact .providerDisconnected
    · exact .recv
  rw [if_neg h9] at hd
  exact ⟨_, hd.symm, .recv⟩

theorem dispatched_of_dispatch {cfg : Config} {fd : Nat} {parsed : Fields} {answers : Option Nat}
    {pc : Pc} (h : dispatch cfg fd parsed answers = .ok pc) :
    Dispatched cfg fd parsed answers pc := by
  obtain ⟨htype, hd⟩ | ⟨-, hd⟩ | ⟨-, hd⟩ | ⟨-, hd⟩ | ⟨-, pc', hd, hpc⟩ :=
    dispatch_cases cfg fd parsed answers
  · rw [hd, dispatchRegister] at h
    cases hp : stoi (field parsed (lit "p2p_port")) with
    | error e =>
      rw [hp] at h
      cases h
    | ok p2pPort =>
      cases hd : stoiOr0 parsed (lit "consumer_port") with
      | error e =>
        rw [hp, hd] at h
        cases h
      | ok port =>
        rw [hp, hd] at h
        dsimp only [bind, Except.bind] at h
        split at h
        · cases h
          exact .leave _
        · next htoken =>
          cases h
          exact .registerCheck _ rfl htype (by simpa using htoken)
  · rw [hd, dispatchSrtRegister] at h
    cases hq : srtRequest parsed with
    | error e =>
      rw [hq] at h
      cases h
    | ok req =>
      rw [hq] at h
      dsimp only [bind, Except.bind] at h
      split at h
      · cases h
        exact .refuse _
      · split at h
        · cases h
          exact .leave _
        · cases h
          exact .srtRegister _
  · rw [hd, dispatchSrtRequest] at h
    cases hq : srtRequest parsed with
    | error e =>
      rw [hq] at h
      cases h
    | ok req =>
      rw [hq] at h
      dsimp only [bind, Except.bind] at h
      split at h
      · cases h
        exact .refuse _
      · cases h
        exact .srtLookup _
  · rw [hd, dispatchPortUpdate] at h
    cases hq : stoiOr0 parsed (lit "local_port") with
    | error e =>
      rw [hq] at h
      cases h
    | ok port =>
      rw [hq] at h
      cases h
      split
      · next hpos => exact .portUpdate port hpos.2
      · exact .recv
  · cases hd.symm.trans h
    exact hpc

theorem Registry.locked_some {r : Registry} {x y : Registry × Pc} (h : r.locked x = some y) :
    r.lockedBy = none ∧ y = x := by
  unfold Registry.locked at h
  split at h
  · next hl => exact ⟨hl, (Option.some.inj h).symm⟩
  · cases h

section StepLemmas

variable {cfg : Config} {w v : Server}

theorem Server.act_of_step {l : ServerLabel} (h : w.step cfg l = some v) :
    w.crashed = false ∧ w.act cfg l = some v := by
  unfold Server.step at h
  split at h
  · cases h
  · next hc => exact ⟨by simpa using hc, h⟩

theorem Server.step_accept {fd : Nat} {ip : Bytes} (h : w.step cfg (.accept fd ip) = some v) :
    fd ∉ w.registry.openFds ∧
    v = { w with
      registry := { w.registry with openFds := w.registry.openFds.insert fd }
      spawned := w.spawned + 1
      threads := Function.update w.threads w.spawned (some ⟨fd, ip, .connected⟩)
      wire := Function.update w.wire fd []
      sent := Function.update w.sent fd [] } := by
  replace h := (Server.act_of_step h).2
  simp only [Server.act] at h
  split at h
  · next hg => exact ⟨hg, (Option.some.inj h).symm⟩
  · cases h

theorem Server.step_recv {tid : Nat} {stream : Bytes} {answers : Option Nat}
    (h : w.step cfg (.recv tid stream answers) = some v) :
    ∃ t, w.threads tid = some t ∧ t.pc = .recv ∧
      v = w.put tid t (match recvMessage stream with
        | some msg => .received msg answers
        | none => .leaveSubscribers) := by
  replace h := (Server.act_of_step h).2
  simp only [Server.act] at h
  split at h
  · next t ht =>
    split at h
    · next hpc =>
      split at h
      · exact ⟨t, ht, hpc, (Option.some.inj h).symm⟩
      · cases h
    · cases h
  · cases h

theorem Server.step_run {tid : Nat} {now : Int} (h : w.step cfg (.run tid now) = some v) :
    ∃ t, w.threads tid = some t ∧
      ((∃ msg answers, t.pc = .received msg answers ∧ w.registry.lockedBy = none ∧
        ((∃ e, dispatch cfg t.fd (parseMessage msg) answers = .error e ∧ v = { w with
            registry := w.registry.accountReceived t.fd (4 + msg.length), crashed := true }) ∨
          ∃ pc, dispatch cfg t.fd (parseMessage msg) answers = .ok pc ∧ v = { w.put tid t pc with
            registry := w.registry.accountReceived t.fd (4 + msg.length) })) ∨
      (∀ msg answers, t.pc ≠ .received msg answers) ∧
        ∃ r pc, t.run cfg tid now w.registry = some (r, pc) ∧
          v = { w.put tid t pc with registry := r, answered := w.record t.pc }) := by
  replace h := (Server.act_of_step h).2
  simp only [Server.act] at h
  split at h
  · next t ht =>
    refine ⟨t, ht, ?_⟩
    split at h
    · next msg answers hpc =>
      refine .inl ⟨msg, answers, hpc, ?_⟩
      split at h
      · next hl =>
        refine ⟨hl, ?_⟩
        split at h
        · next e he => exact .inl ⟨e, he, (Option.some.inj h).symm⟩
        · next pc hp => exact .inr ⟨pc, hp, (Option.some.inj h).symm⟩
      · cases h
    · next hpc =>
      obtain ⟨⟨r, pc⟩, hr, hv⟩ := Option.map_eq_some_iff.mp h
      exact .inr ⟨hpc, r, pc, hr, hv.symm⟩
  · cases h

/-- A thread that is known and has no message to look at takes its own step. -/
theorem Server.step_run_of_thread {tid : Nat} {now : Int} {t : Thread}
    (h : w.step cfg (.run tid now) = some v) (ht : w.threads tid = some t)
    (hpc : ∀ msg answers, t.pc ≠ .received msg answers) :
    ∃ r pc, t.run cfg tid now w.registry = some (r, pc) ∧
      v = { w.put tid t pc with registry := r, answered := w.record t.pc } := by
  obtain ⟨u, hu, ⟨msg, answers, hreceived, -⟩ | ⟨-, hrun⟩⟩ := Server.step_run h
  · cases ht.symm.trans hu
    exact absurd hreceived (hpc msg answers)
  · cases ht.symm.trans hu
    exact hrun

theorem Server.step_timeout {tid : Nat} (h : w.step cfg (.timeout tid) = some v) :
    ∃ t req slot, w.threads tid = some t ∧ t.pc = .requestWait req slot ∧
      (w.registry.slots slot).ready = false ∧ v = w.put tid t (.requestErase req slot none) := by
  replace h := (Server.act_of_step h).2
  simp only [Server.act] at h
  split at h
  · next t ht =>
    split at h
    · next req slot hpc =>
      split at h
      · cases h
      · next hr => exact ⟨t, req, slot, ht, hpc, by simpa using hr, (Option.some.inj h).symm⟩
    · cases h
  · cases h

theorem Server.step_accepted {tid n : Nat} (h : w.step cfg (.accepted tid n) = some v) :
    ∃ t out next, w.threads tid = some t ∧ t.pc = .sending out next ∧
      (0 < n ∧ out.sent + n ≤ out.callEnd ∧ out.fd ∈ w.registry.openFds) ∧
      v = (w.emit out.fd (((frame out.msg).drop out.sent).take n)).advance cfg tid t out next
        (if next.raw then out.callEnd else out.sent + n) := by
  replace h := (Server.act_of_step h).2
  simp only [Server.act] at h
  split at h
  · next t ht =>
    split at h
    · next out next hpc =>
      split at h
      · next hg => exact ⟨t, out, next, ht, hpc, hg, (Option.some.inj h).symm⟩
      · cases h
    · cases h
  · cases h

theorem Server.step_sendFail {tid : Nat} (h : w.step cfg (.sendFail tid) = some v) :
    ∃ t out next, w.threads tid = some t ∧ t.pc = .sending out next ∧
      v = if next.raw then w.advance cfg tid t out next out.callEnd
        else w.put tid t (next.fail cfg t.fd out) := by
  replace h := (Server.act_of_step h).2
  simp only [Server.act] at h
  split at h
  · next t ht =>
    split at h
    · next out next hpc =>
      refine ⟨t, out, next, ht, hpc, ?_⟩
      split at h
      · next hr => rw [if_pos hr, ← Option.some.inj h]
      · next hr => rw [if_neg hr, ← Option.some.inj h]
    · cases h
  · cases h

end StepLemmas

end Kitty.Signal
