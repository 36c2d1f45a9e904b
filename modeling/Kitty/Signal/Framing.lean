import Kitty.Signal.Server

/-!
# Frames on one socket from several threads

`send_message` sends the length and the message in separate calls, and no lock is held
around them for a socket. The bytes on a connection are whole frames as long as no thread
starts a frame on it while another one is in the middle of a frame;
`src/signaling-server/signaling_server.cpp:380–404,637–649,695–722,1720–1738`.
-/

namespace Kitty.Signal

open Kitty.Base
open Registry

/-! ### Frames in progress -/

/-- The message a thread is sending. -/
def Pc.outgoing : Pc → Option (Outgoing × Then)
  | .sending out next => some (out, next)
  | _ => none

/-- The frame of which some calls are made and others not. -/
def Pc.inProgress (pc : Pc) : Option (InFlight Nat) :=
  match pc with
  | .sending out _ => if 0 < out.sent then some ⟨out.fd, out.msg, out.sent⟩ else none
  | _ => none

/-- The frame a thread is in the middle of. -/
def Server.inProgress (w : Server) (tid : Nat) : Option (InFlight Nat) :=
  (w.threads tid).bind fun t ↦ t.pc.inProgress

/-- A message that is to be sent has not been begun. -/
def Pc.fresh : Pc → Bool
  | .sending out _ => out.sent == 0
  | _ => true

theorem Pc.inProgress_of_fresh {pc : Pc} (h : pc.fresh = true) : pc.inProgress = none := by
  cases pc with
  | sending out next =>
    have h0 : out.sent = 0 := by simpa [fresh] using h
    simp [inProgress, h0]
  | _ => rfl

@[simp] theorem fresh_reply (fd : Nat) (msg : Bytes) (next : Then) :
    (reply fd msg next).fresh = true := rfl

@[simp] theorem fresh_notifyNext (service : Bytes) (rest failed : List Nat) :
    (notifyNext service rest failed).fresh = true := by
  cases rest with
  | nil =>
    simp only [notifyNext]
    split <;> rfl
  | cons fd rest => rfl

@[simp] theorem fresh_pingNext (rest : List (Nat × Bytes)) (round : PingRound) :
    (pingNext rest round).fresh = true := by
  cases rest <;> rfl

@[simp] theorem fresh_listNext (fd : Nat) (rest : List Bytes) :
    (listNext fd rest).fresh = true := by
  cases rest <;> rfl

@[simp] theorem fresh_pingRemoveNext (stale : List Nat) : (pingRemoveNext stale).fresh = true := by
  unfold pingRemoveNext
  split <;> rfl

@[simp] theorem Then.fresh_ok (cfg : Config) (fd : Nat) (next : Then) :
    (next.ok cfg fd).fresh = true := by
  cases next with
  | notified service rest failed => exact fresh_notifyNext _ _ _
  | pinged rest round => exact fresh_pingNext _ _
  | listed rest => exact fresh_listNext _ _
  | _ => rfl

/-- A critical section begins no frame. -/
theorem Thread.run_fresh {cfg : Config} {tid : Nat} {t : Thread} {now : Int} {r r' : Registry}
    {pc : Pc} (h : t.run cfg tid now r = some (r', pc)) :
    t.pc.inProgress = none ∧ pc.fresh = true := by
  unfold Thread.run at h
  cases hpc : t.pc with
  | registerCheck req =>
    simp only [hpc] at h
    cases (Registry.locked_some h).2
    refine ⟨rfl, ?_⟩
    split <;> rfl
  | srtLookup req =>
    simp only [hpc] at h
    cases h
    refine ⟨rfl, ?_⟩
    split <;> rfl
  | requestLookup service consumerSdp =>
    simp only [hpc] at h
    refine ⟨rfl, ?_⟩
    rw [show pc = _ from congrArg Prod.snd (Registry.locked_some h).2]
    split <;> rfl
  | sdpFind service sdp answers =>
    simp only [hpc] at h
    cases h
    refine ⟨rfl, ?_⟩
    split <;> rfl
  | pingRemove stale =>
    cases stale with
    | nil =>
      simp only [hpc] at h
      cases h
      exact ⟨rfl, rfl⟩
    | cons fd rest =>
      simp only [hpc] at h
      cases (Registry.locked_some h).2
      exact ⟨rfl, rfl⟩
  | _ =>
    -- The other places have one successor, with the registry locked or not.
    simp only [hpc, Registry.locked, Option.ite_none_right_eq_some, Option.some.injEq,
      reduceCtorEq] at h
    all_goals first
      | (obtain ⟨-, he⟩ := h; cases he; exact ⟨rfl, by first | rfl | simp⟩)
      | (cases h; exact ⟨rfl, by first | rfl | simp⟩)

/-- A branch begins no frame before its first lock. -/
theorem dispatch_fresh {cfg : Config} {fd : Nat} {parsed : Fields} {answers : Option Nat} {pc : Pc}
    (h : dispatch cfg fd parsed answers = .ok pc) : pc.fresh = true := by
  cases dispatched_of_dispatch h <;> rfl

/-! ### The bytes on each connection -/

/-- No thread but one, if any, is in the middle of a frame on a connection. -/
def Server.NoOther (w : Server) (tid : Option Nat) (fd : Nat) : Prop :=
  ∀ tid' < w.spawned, tid ≠ some tid' → ∀ a ∈ w.inProgress tid', a.stream ≠ fd

instance (w : Server) (tid : Option Nat) (fd : Nat) : Decidable (w.NoOther tid fd) :=
  inferInstanceAs (Decidable (∀ _ < _, _))

/-- A frame is begun on a connection when no other thread is in the middle of one there, the
message is shorter than 4 GiB, and the calls of SUBSCRIBE take all their bytes; a descriptor
is not handed out again while a thread is in the middle of a frame on it; no call fails. -/
def SendsAlone (w : Server) : ServerLabel → Prop
  | .accepted tid n => ∀ p ∈ (w.threads tid).bind fun t ↦ t.pc.outgoing,
      (p.1.sent = 0 → p.1.msg.length < 2 ^ 32 ∧ w.NoOther (some tid) p.1.fd) ∧
      (p.2.raw = true → p.1.sent + n = p.1.callEnd)
  | .accept fd _ => w.NoOther none fd
  | .sendFail _ => False
  | _ => True

instance (w : Server) : (l : ServerLabel) → Decidable (SendsAlone w l)
  | .accepted _ _ => inferInstanceAs (Decidable (∀ _ ∈ _, _))
  | .accept _ _ => inferInstanceAs (Decidable (Server.NoOther ..))
  | .sendFail _ => isFalse id
  | .recv _ _ _ | .run _ _ | .timeout _ => isTrue trivial

/-- What holds in every state of such a run. -/
structure Server.WellFramed (w : Server) : Prop where
  spawned : ∀ tid, w.spawned ≤ tid → w.threads tid = none
  framed : Framed w.inProgress w.wire w.sent

theorem Server.inProgress_put (w : Server) (tid : Nat) (t : Thread) (pc : Pc) :
    (w.put tid t pc).inProgress = Function.update w.inProgress tid pc.inProgress := by
  funext tid'
  unfold Server.inProgress Server.put
  by_cases h : tid' = tid
  · subst h
    simp
  · simp [Function.update_of_ne h]

theorem Server.wellFramed_start : Server.start.WellFramed := by
  have hnone : Server.start.inProgress = fun _ ↦ none := by
    funext tid
    unfold Server.inProgress
    by_cases h : tid = 0
    · subst h
      rfl
    · simp [start, h]
  refine ⟨?_, hnone ▸ Framed.empty⟩
  intro tid h
  have h0 : tid ≠ 0 := by
    rintro rfl
    exact absurd h (by decide)
  simp [start, h0]

/-- A thread that is there was started. -/
theorem Server.WellFramed.lt {w : Server} (hw : w.WellFramed) {tid : Nat} {t : Thread}
    (ht : w.threads tid = some t) : tid < w.spawned := by
  by_contra h
  rw [hw.spawned tid (not_lt.mp h)] at ht
  cases ht

/-- The condition on the threads that were started is one on all. -/
theorem Server.WellFramed.noOther {w : Server} (hw : w.WellFramed) {tid : Option Nat} {fd : Nat}
    (h : w.NoOther tid fd) (tid' : Nat) (a : InFlight Nat) (hne : tid ≠ some tid')
    (ha : w.inProgress tid' = some a) : a.stream ≠ fd := by
  cases ht : w.threads tid' with
  | none => simp [Server.inProgress, ht] at ha
  | some t => exact h tid' (hw.lt ht) hne a ha

private theorem spawned_put {w : Server} (hw : w.WellFramed) {tid : Nat} {t : Thread} (pc : Pc)
    (ht : w.threads tid = some t) (tid' : Nat) (h : w.spawned ≤ tid') :
    (w.put tid t pc).threads tid' = none := by
  have hne : tid' ≠ tid := by
    have := hw.lt ht
    omega
  simpa [Server.put, Function.update_of_ne hne] using hw.spawned tid' h

/-- A thread that is not in the middle of a frame goes on, and begins none. -/
private theorem wellFramed_put {w : Server} {tid : Nat} {t : Thread} {pc : Pc} (hw : w.WellFramed)
    (ht : w.threads tid = some t) (hold : t.pc.inProgress = none) (hnew : pc.fresh = true) :
    (w.put tid t pc).WellFramed := by
  refine ⟨spawned_put hw pc ht, ?_⟩
  have hself : w.inProgress tid = none := by rw [Server.inProgress, ht, Option.bind_some, hold]
  rw [Server.inProgress_put, Pc.inProgress_of_fresh hnew, ← hself, Function.update_eq_self]
  exact hw.framed

/-- A new client's connection has taken nothing. -/
private theorem wellFramed_accept {cfg : Config} {w v : Server} {fd : Nat} {ip : Bytes}
    (hw : w.WellFramed) (hc : w.NoOther none fd) (h : w.step cfg (.accept fd ip) = some v) :
    v.WellFramed := by
  obtain ⟨-, rfl⟩ := Server.step_accept h
  constructor
  · intro tid hlt
    dsimp only at hlt ⊢
    rw [Function.update_of_ne (by omega)]
    exact hw.spawned tid (by omega)
  · have hprog : Server.inProgress { w with
        registry := { w.registry with openFds := w.registry.openFds.insert fd }
        spawned := w.spawned + 1
        threads := Function.update w.threads w.spawned (some ⟨fd, ip, .connected⟩)
        wire := Function.update w.wire fd []
        sent := Function.update w.sent fd [] } = w.inProgress := by
      funext tid
      unfold Server.inProgress
      by_cases he : tid = w.spawned
      · subst he
        simp only [Function.update_self, hw.spawned _ le_rfl]
        rfl
      · simp only [Function.update_of_ne he]
    rw [hprog]
    exact hw.framed.reopen fun tid a ha ↦ hw.noOther hc tid a (by simp) ha

private theorem wellFramed_accepted {cfg : Config} {w v : Server} {tid n : Nat} (hw : w.WellFramed)
    (hc : SendsAlone w (.accepted tid n)) (h : w.step cfg (.accepted tid n) = some v) :
    v.WellFramed := by
  obtain ⟨t, out, next, ht, hpc, ⟨hn, hle, -⟩, rfl⟩ := Server.step_accepted h
  obtain ⟨hfirst, hraw⟩ := hc (out, next) (by simp [ht, hpc, Pc.outgoing])
  dsimp only at hfirst hraw
  have hreach : (if next.raw then out.callEnd else out.sent + n) = out.sent + n := by
    split
    · next hr => exact (hraw hr).symm
    · rfl
  have hself : w.inProgress tid =
      if 0 < out.sent then some ⟨out.fd, out.msg, out.sent⟩ else none := by
    rw [Server.inProgress, ht, Option.bind_some, hpc]
    rfl
  have hprog : 0 < out.sent → w.inProgress tid = some ⟨out.fd, out.msg, out.sent⟩ := fun h0 ↦ by
    rw [hself, if_pos h0]
  have hwrites : Framed.Writes w.inProgress tid ⟨out.fd, out.msg, out.sent⟩ := by
    refine ⟨hself, ?_, ?_⟩
    · intro tid' a hne ha
      by_cases h0 : out.sent = 0
      · exact hw.noOther (hfirst h0).2 tid' a (by simpa using Ne.symm hne) ha
      · exact fun hfd ↦ hne (hw.framed.exclusive tid' tid a _ ha (hprog (by omega)) hfd)
    · by_cases h0 : out.sent = 0
      · exact (hfirst h0).1
      · exact (hw.framed.shortNow tid _ (hprog (by omega))).1
  have hend : out.callEnd ≤ 4 + out.msg.length := by
    unfold Outgoing.callEnd
    split <;> omega
  rw [hreach]
  unfold Server.advance
  split
  · next hdone =>
    generalize hpc' : (if next.accounts then Pc.account out.fd (out.sent + n) next
      else next.ok cfg t.fd) = pc'
    have hfresh : pc'.fresh = true := by
      rw [← hpc']
      split
      · rfl
      · simp
    refine ⟨spawned_put hw pc' ht, ?_⟩
    have hput := Server.inProgress_put
      (w.emit out.fd (((frame out.msg).drop out.sent).take n)) tid t pc'
    rw [Pc.inProgress_of_fresh hfresh] at hput
    have hf := hw.framed.done hwrites hdone
    rw [show Function.update w.inProgress tid none = _ from hput.symm] at hf
    exact hf
  · next hmore =>
    refine ⟨spawned_put hw _ ht, ?_⟩
    have hput := Server.inProgress_put
      (w.emit out.fd (((frame out.msg).drop out.sent).take n)) tid t
      (.sending { out with sent := out.sent + n } next)
    have hnow : Pc.inProgress (.sending { out with sent := out.sent + n } next) =
        some ⟨out.fd, out.msg, out.sent + n⟩ := if_pos (Nat.add_pos_right _ hn)
    rw [hnow] at hput
    have hf := hw.framed.more hwrites (show out.sent + n < 4 + out.msg.length by omega)
    rw [show Function.update w.inProgress tid _ = _ from hput.symm] at hf
    exact hf

theorem Server.WellFramed.step {cfg : Config} {w v : Server} {l : ServerLabel}
    (hc : SendsAlone w l) (hw : w.WellFramed) (h : w.step cfg l = some v) : v.WellFramed := by
  cases l with
  | accept fd ip => exact wellFramed_accept hw hc h
  | recv tid stream answers =>
    obtain ⟨t, ht, hpc, rfl⟩ := Server.step_recv h
    apply wellFramed_put hw ht (by rw [hpc]; rfl)
    split <;> rfl
  | run tid now =>
    obtain ⟨t, ht, ⟨msg, answers, hpc, -, ⟨e, -, rfl⟩ | ⟨pc, hp, rfl⟩⟩ | ⟨-, r, pc, hr, rfl⟩⟩ :=
      Server.step_run h
    · exact ⟨hw.spawned, hw.framed⟩
    · have := wellFramed_put hw ht (by rw [hpc]; rfl) (dispatch_fresh hp)
      exact ⟨this.spawned, this.framed⟩
    · obtain ⟨hold, hnew⟩ := Thread.run_fresh hr
      have := wellFramed_put hw ht hold hnew
      exact ⟨this.spawned, this.framed⟩
  | timeout tid =>
    obtain ⟨t, req, slot, ht, hpc, -, rfl⟩ := Server.step_timeout h
    exact wellFramed_put hw ht (by rw [hpc]; rfl) rfl
  | accepted tid n => exact wellFramed_accepted hw hc h
  | sendFail tid => exact hc.elim

/-- In every run in which a frame is begun on a connection only where no other thread is in
the middle of one, what each connection has taken reads as the messages sent on it to the
end, and is those messages' frames and nothing else when no thread is in the middle of one. -/
theorem wire_framed {cfg : Config} {ls : List ServerLabel} {w : Server}
    (hc : Always (Server.step cfg) SendsAlone .start ls)
    (hr : run (Server.step cfg) .start ls = some w) (fd : Nat) :
    readFrames (w.wire fd) = w.sent fd ∧
      (w.NoOther none fd → w.wire fd = (w.sent fd).flatMap frame) := by
  have hw : w.WellFramed := invariant_run (Server.step cfg) (fun _ _ _ hl hs ht ↦ hs.step hl ht) hc
    Server.wellFramed_start hr
  exact ⟨hw.framed.readFrames_wire fd,
    fun hno ↦ hw.framed.idle fd fun tid a ha ↦ hw.noOther hno tid a (by simp) ha⟩

/-- A subscriber asks for a service that is not there, and the header of the ERROR goes out. -/
def answerBegun : List ServerLabel :=
  [.accept 4 (lit "10.0.0.1"), .run 1 0, .recv 1 (frame (lit "type=SUBSCRIBE\n")) none, .run 1 0,
    .run 1 0, .run 1 0, .run 1 0, .recv 1 (frame (lit "type=REQUEST\nservice_id=car\n")) none,
    .run 1 0, .run 1 0, .run 1 0, .accepted 1 4]

/-- The rest of the ERROR goes out. -/
def answerEnded : List ServerLabel := [.accepted 1 10, .accepted 1 28]

/-- A camera registers, and the subscriber is notified. -/
def cameraRegisters : List ServerLabel :=
  [.accept 5 (lit "10.0.0.2"), .run 2 0,
    .recv 2 (frame (lit "type=REGISTER\nservice_id=cam\np2p_port=8554\n")) none, .run 2 0, .run 2 0,
    .run 2 0, .accepted 2 4, .accepted 2 26, .run 2 0, .run 2 0, .run 2 0, .accepted 2 4,
    .accepted 2 33]

theorem wire_framed_inTurn :
    ∃ w, run (Server.step Config.unset) .start (answerBegun ++ (answerEnded ++ cameraRegisters)) =
      some w ∧ readFrames (w.wire 4) = w.sent 4 ∧
        (w.NoOther none 4 → w.wire 4 = (w.sent 4).flatMap frame) := by
  have hsome : (run (Server.step Config.unset) .start
      (answerBegun ++ (answerEnded ++ cameraRegisters))).isSome = true := by decide +kernel
  obtain ⟨w, hr⟩ := Option.isSome_iff_exists.mp hsome
  exact ⟨w, hr, wire_framed (by decide +kernel) hr 4⟩

/-- A notification between the header and the text of an ERROR on the same socket: no call
fails and both messages are sent to the end, but what is read are other messages. -/
theorem wire_interleaved :
    ∃ w, run (Server.step Config.unset) .start (answerBegun ++ (cameraRegisters ++ answerEnded)) =
      some w ∧ w.NoOther none 4 ∧ ¬ (readFrames (w.wire 4)).Perm (w.sent 4) :=
  exists_run (Server.step Config.unset)
    (fun w ↦ w.NoOther none 4 ∧ ¬ (readFrames (w.wire 4)).Perm (w.sent 4)) (by decide +kernel)

end Kitty.Signal
