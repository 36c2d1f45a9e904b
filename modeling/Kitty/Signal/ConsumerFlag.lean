import Kitty.Signal.Entries

/-!
# The flag of a camera that has a viewer

`has_consumer` of an SRT camera is set when a viewer's SRT_REQUEST is brokered, and is to stay set
as long as the camera is registered;
`src/signaling-server/signaling_server.cpp:182–187,1563–1719`. An SRT_REGISTER puts a fresh entry in
place of the one that is there, also when the camera only refreshes its address. Which runs keep the
flag is said by what the camera and the viewers did before each step.
-/

namespace Kitty.Signal

open Kitty.Base

/-! ### What happens to SRT cameras -/

/-- What an event is for the SRT cameras: a connection registers a service; a viewer is noted in its
entry; the SRT_PEER of a viewer has been sent to the end on a socket. -/
inductive SrtEffect where
  | register (service : Bytes) (fd : Nat)
  | note (service : Bytes)
  | forwarded (service : Bytes) (fd : Nat)
  | other
  deriving DecidableEq

/-- What the step of a thread is for the SRT cameras. -/
def Thread.srtEffect (t : Thread) : SrtEffect :=
  match t.pc with
  | .srtRegister req => .register req.serviceId t.fd
  | .srtMark req _ => .note req.serviceId
  | _ => .other

/-- What a `send` call that takes so many bytes is for the SRT cameras. -/
def Thread.srtForwarded (t : Thread) (n : Nat) : SrtEffect :=
  match t.pc with
  | .sending out (.srtForwarded service _) =>
    if out.sent + n = 4 + out.msg.length then .forwarded service out.fd else .other
  | _ => .other

/-- What an event is for the SRT cameras. -/
def Server.srtEffect (w : Server) : ServerLabel → SrtEffect
  | .run tid _ => ((w.threads tid).map Thread.srtEffect).getD .other
  | .accepted tid n => ((w.threads tid).map (·.srtForwarded n)).getD .other
  | _ => .other

/-- The server, with what has happened to its SRT cameras: `noted` says that a viewer was noted
since the service was registered last, and `served` that a request was forwarded to the connection
that holds the registration, since that connection registered it first. -/
structure Brokered where
  server : Server
  noted : Bytes → Bool
  served : Bytes → Bool

namespace Brokered

/-- Nothing has happened. -/
def start : Brokered where
  server := .start
  noted _ := false
  served _ := false

/-- The connection holds the registration of the service. -/
def Holds (b : Brokered) (service : Bytes) (fd : Nat) : Prop :=
  b.server.registry.fdOf (.srt service) = some fd

instance (b : Brokered) (service : Bytes) (fd : Nat) : Decidable (b.Holds service fd) :=
  inferInstanceAs (Decidable (_ = _))

/-- A viewer was noted since the service was registered last. -/
def notedAfter (b : Brokered) : SrtEffect → Bytes → Bool
  | .register service _ => Function.update b.noted service false
  | .note service => Function.update b.noted service true
  | .forwarded _ _ | .other => b.noted

/-- A request was forwarded to the connection that holds the registration. It is another
registration when another connection registers the service. -/
def servedAfter (b : Brokered) : SrtEffect → Bytes → Bool
  | .register service fd =>
    Function.update b.served service (b.served service && decide (b.Holds service fd))
  | .forwarded service fd =>
    Function.update b.served service (b.served service || decide (b.Holds service fd))
  | .note _ | .other => b.served

/-- One event. What is removed was not served. -/
def step (cfg : Config) (b : Brokered) (l : ServerLabel) : Option Brokered :=
  (b.server.step cfg l).map fun server ↦
    { server
      noted := b.notedAfter (b.server.srtEffect l)
      served := fun service ↦ b.servedAfter (b.server.srtEffect l) service &&
        server.registry.srtProviders.contains service }

/-- The flag of every registration to which a request was forwarded is set. -/
def FlagsKept (b : Brokered) : Prop :=
  ∀ service info, b.served service = true →
    b.server.registry.srtProviders[service]? = some info → info.hasConsumer = true

/-- No connection registers again a service for which it was served, and when a request has been
forwarded to the connection that holds the registration, a viewer was noted since the service was
registered last. -/
def RegistersOnce (b : Brokered) (l : ServerLabel) : Prop :=
  match b.server.srtEffect l with
  | .register service fd => ¬ (b.served service = true ∧ b.Holds service fd)
  | .forwarded service fd => b.Holds service fd → b.noted service = true
  | .note _ | .other => True

instance (b : Brokered) (l : ServerLabel) : Decidable (b.RegistersOnce l) := by
  unfold RegistersOnce
  split <;> infer_instance

end Brokered

/-! ### What a critical section does with the cameras -/

/-- A critical section registers a camera, notes a viewer, or adds and changes no camera. -/
inductive SrtStep (t : Thread) (now : Int) (r : Registry) : Registry → Prop
  | register (req : Registry.SrtRequest) (h : t.pc = .srtRegister req) :
      SrtStep t now r (r.srtRegister req t.fd now)
  | note (req : Registry.SrtRequest) (provider : SrtProviderInfo)
      (h : t.pc = .srtMark req provider) :
      SrtStep t now r (r.srtMarkConsumer req.serviceId t.ip now)
  | keep {r' : Registry} (h : ∀ (service : Bytes) info, r'.srtProviders[service]? = some info →
      r.srtProviders[service]? = some info) (heffect : t.srtEffect = .other) : SrtStep t now r r'

private theorem countPings_srtProviders (targets : List (Nat × Bytes)) (skip : Nat → Bool)
    (size : Bytes → Nat) (now : Int) (r : Registry) :
    (targets.foldl (fun r (fd, service) ↦
      if skip fd then r else r.countPing service (size service) now) r).srtProviders =
        r.srtProviders := by
  induction targets generalizing r with
  | nil => rfl
  | cons e targets ih =>
    rw [List.foldl_cons, ih]
    dsimp only
    split <;> rfl

theorem Thread.srtStep {cfg : Config} {tid : Nat} {t : Thread} {now : Int} {r r' : Registry}
    {pc : Pc} (h : t.run cfg tid now r = some (r', pc)) : SrtStep t now r r' := by
  obtain ⟨fd, ip, at_⟩ := t
  have hsame : r'.srtProviders = r.srtProviders → (Thread.mk fd ip at_).srtEffect = .other →
      SrtStep ⟨fd, ip, at_⟩ now r r' := by
    intro hs heffect
    apply SrtStep.keep _ heffect
    intro service info hinfo
    rw [hs] at hinfo
    exact hinfo
  unfold Thread.run at h
  cases at_ with
  | srtRegister req =>
    cases h
    exact .register req rfl
  | srtMark req provider =>
    cases h
    exact .note req provider rfl
  | srtErase service provider =>
    cases h
    apply SrtStep.keep _ rfl
    intro other info hinfo
    simp only [Registry.srtErase, Std.ExtTreeMap.getElem?_erase] at hinfo
    split at hinfo
    · cases hinfo
    · exact hinfo
  | leaveSrt =>
    cases h
    apply SrtStep.keep _ rfl
    intro other info hinfo
    simp only [Registry.removeSrtSocket, Std.ExtTreeMap.getElem?_filter'] at hinfo
    exact (Option.filter_eq_some_iff.mp hinfo).1
  | requestLookup service consumerSdp =>
    dsimp only at h
    split at h <;> (cases (Registry.locked_some h).2; exact hsame rfl rfl)
  | account fd' bytes next =>
    cases (Registry.locked_some h).2
    apply hsame _ rfl
    unfold Registry.accountSent Registry.updateFirst
    split <;> rfl
  | pingRemove stale =>
    cases stale with
    | nil =>
      cases h
      exact hsame rfl rfl
    | cons fd' rest =>
      cases (Registry.locked_some h).2
      exact hsame rfl rfl
  | pingCount round =>
    cases (Registry.locked_some h).2
    exact hsame (countPings_srtProviders round.targets round.failed.contains
      (fun service ↦ 4 + (pingText service round.now).length) round.now r) rfl
  | notifyDrop failed =>
    cases h
    exact hsame (r.dropSubscribers_entries failed).2.2 rfl
  | _ =>
    dsimp only at h
    simp only [Registry.locked, Option.ite_none_right_eq_some, Option.some.injEq,
      reduceCtorEq] at h
    all_goals first
      | (obtain ⟨-, he⟩ := h
         cases he
         exact hsame rfl rfl)
      | (cases h
         exact hsame rfl rfl)

section Steps

variable {cfg : Config} {w v : Server} {l : ServerLabel}

/-- A step of the server is one of these critical sections, or it leaves the cameras as they are. -/
theorem Server.srtStep_of_step (h : w.step cfg l = some v) :
    (∃ t now, SrtStep t now w.registry v.registry ∧ w.srtEffect l = t.srtEffect) ∨
      v.registry.srtProviders = w.registry.srtProviders ∧
        (w.srtEffect l = .other ∨ ∃ service fd, w.srtEffect l = .forwarded service fd) := by
  cases l with
  | accept fd ip =>
    obtain ⟨-, rfl⟩ := Server.step_accept h
    exact .inr ⟨rfl, .inl rfl⟩
  | recv tid stream answers =>
    obtain ⟨t, -, -, rfl⟩ := Server.step_recv h
    exact .inr ⟨rfl, .inl rfl⟩
  | run tid now =>
    obtain ⟨t, ht, ⟨msg, answers, hpc, -, hcases⟩ | ⟨-, r, pc, hrun, rfl⟩⟩ := Server.step_run h
    · right
      constructor
      · have hreg : v.registry = w.registry.accountReceived t.fd (4 + msg.length) := by
          rcases hcases with ⟨e, -, rfl⟩ | ⟨pc, -, rfl⟩ <;> rfl
        rw [hreg]
        unfold Registry.accountReceived Registry.updateFirst
        split <;> rfl
      · left
        rw [Server.srtEffect, ht, Option.map_some, Option.getD_some, Thread.srtEffect, hpc]
    · left
      refine ⟨t, now, Thread.srtStep hrun, ?_⟩
      rw [Server.srtEffect, ht, Option.map_some, Option.getD_some]
  | timeout tid =>
    obtain ⟨t, req, slot, -, -, -, rfl⟩ := Server.step_timeout h
    exact .inr ⟨rfl, .inl rfl⟩
  | accepted tid n =>
    obtain ⟨t, out, next, ht, hpc, -, rfl⟩ := Server.step_accepted h
    right
    constructor
    · have hsame := (Server.advance_same cfg
        (w.emit out.fd (((frame out.msg).drop out.sent).take n)) tid t out next
        (if next.raw then out.callEnd else out.sent + n)).1
      exact congrArg Registry.srtProviders hsame
    · rw [Server.srtEffect, ht, Option.map_some, Option.getD_some, Thread.srtForwarded]
      split
      · split
        · exact .inr ⟨_, _, rfl⟩
        · exact .inl rfl
      · exact .inl rfl
  | sendFail tid =>
    obtain ⟨t, out, next, -, -, rfl⟩ := Server.step_sendFail h
    refine .inr ⟨?_, .inl rfl⟩
    split
    · exact congrArg Registry.srtProviders (Server.advance_same cfg w tid t out next _).1
    · rfl

end Steps

/-! ### The flag -/

/-- The flag of the entry of a service. -/
def Registry.consumerFlag (r : Registry) (service : Bytes) : Option Bool :=
  r.srtProviders[service]?.map SrtProviderInfo.hasConsumer

theorem Registry.consumerFlag_srtRegister (r : Registry) (req : SrtRequest) (fd : Nat) (now : Int)
    (service : Bytes) : (r.srtRegister req fd now).consumerFlag service =
      if service = req.serviceId then some false else r.consumerFlag service := by
  simp only [consumerFlag, srtRegister, Std.ExtTreeMap.getElem?_insert]
  by_cases hservice : service = req.serviceId
  · rw [hservice, if_pos Std.ReflCmp.compare_self, if_pos rfl]
    rfl
  · rw [if_neg hservice, if_neg fun heq ↦ hservice (Std.LawfulEqCmp.eq_of_compare heq).symm]

theorem Registry.consumerFlag_srtMarkConsumer (r : Registry) (service ip : Bytes) (now : Int)
    (other : Bytes) : (r.srtMarkConsumer service ip now).consumerFlag other =
      if other = service then (r.consumerFlag other).map fun _ ↦ true
      else r.consumerFlag other := by
  simp only [consumerFlag, srtMarkConsumer, Std.ExtTreeMap.getElem?_modify]
  by_cases hother : other = service
  · rw [hother, if_pos Std.ReflCmp.compare_self, if_pos rfl, Option.map_map, Option.map_map]
    rfl
  · rw [if_neg hother, if_neg fun heq ↦ hother (Std.LawfulEqCmp.eq_of_compare heq).symm]

namespace Brokered

/-- The flag of a camera says whether a viewer was noted since the service was registered last. -/
def Noted (b : Brokered) : Prop :=
  ∀ service flag, b.server.registry.consumerFlag service = some flag → flag = b.noted service

theorem noted_start : start.Noted := by
  intro service flag h
  simp [start, Server.start, Registry.start, Registry.consumerFlag] at h

/-- The flag and the events behind it go together. -/
theorem Noted.step {cfg : Config} {b c : Brokered} {l : ServerLabel} (hb : b.Noted)
    (h : b.step cfg l = some c) : c.Noted := by
  obtain ⟨v, hv, rfl⟩ := Option.map_eq_some_iff.mp h
  intro service flag hflag
  dsimp only at hflag ⊢
  obtain ⟨t, now, hstep, heffect⟩ | ⟨hsame, heffect⟩ := Server.srtStep_of_step hv
  · rw [heffect]
    generalize hreg : v.registry = r at hstep hflag
    cases hstep with
    | register req hpc =>
      rw [Thread.srtEffect, hpc]
      dsimp only [notedAfter]
      rw [Registry.consumerFlag_srtRegister] at hflag
      split at hflag
      · next heq =>
        cases hflag
        rw [heq, Function.update_self]
      · next hne =>
        rw [Function.update_of_ne hne]
        exact hb service flag hflag
    | note req provider hpc =>
      rw [Thread.srtEffect, hpc]
      dsimp only [notedAfter]
      rw [Registry.consumerFlag_srtMarkConsumer] at hflag
      split at hflag
      · next heq =>
        obtain ⟨old, -, rfl⟩ := Option.map_eq_some_iff.mp hflag
        rw [heq, Function.update_self]
      · next hne =>
        rw [Function.update_of_ne hne]
        exact hb service flag hflag
    | keep hkeep hother =>
      rw [hother]
      obtain ⟨info, hinfo, rfl⟩ := Option.map_eq_some_iff.mp hflag
      exact hb service _ (by rw [Registry.consumerFlag, hkeep service info hinfo]; rfl)
  · have hnoted : b.notedAfter (b.server.srtEffect l) = b.noted := by
      obtain hother | ⟨other, fd, hforwarded⟩ := heffect
      · rw [hother]
        rfl
      · rw [hforwarded]
        rfl
    rw [Registry.consumerFlag, hsame] at hflag
    rw [hnoted]
    exact hb service flag hflag

/-- The flags go with the events, and what was served is registered. -/
structure Inv (b : Brokered) : Prop where
  noted : b.Noted
  registered : ∀ service, b.served service = true →
    b.server.registry.srtProviders.contains service = true

theorem inv_start : start.Inv where
  noted := noted_start
  registered _ h := by cases h

theorem Inv.step {cfg : Config} {b c : Brokered} {l : ServerLabel} (hb : b.Inv)
    (h : b.step cfg l = some c) : c.Inv where
  noted := hb.noted.step h
  registered service hserved := by
    obtain ⟨v, -, rfl⟩ := Option.map_eq_some_iff.mp h
    exact (Bool.and_eq_true_iff.mp hserved).2

/-- The flags are kept when a viewer was noted in the entry of every service for which it was
served. -/
theorem Inv.flagsKept_iff {b : Brokered} (hb : b.Inv) :
    b.FlagsKept ↔ ∀ service, b.served service = true → b.noted service = true := by
  constructor
  · intro hkept service hserved
    have hcontains := hb.registered service hserved
    rw [Std.ExtTreeMap.contains_eq_isSome_getElem?, Option.isSome_iff_exists] at hcontains
    obtain ⟨info, hinfo⟩ := hcontains
    rw [← hb.noted service info.hasConsumer (by rw [Registry.consumerFlag, hinfo]; rfl)]
    exact hkept service info hserved hinfo
  · intro hnoted service info hserved hinfo
    rw [hb.noted service info.hasConsumer (by rw [Registry.consumerFlag, hinfo]; rfl)]
    exact hnoted service hserved

/-- The connection that holds a registration is that of an entry. -/
theorem contains_of_holds {b : Brokered} {service : Bytes} {fd : Nat} (h : b.Holds service fd) :
    b.server.registry.srtProviders.contains service = true := by
  rw [Std.ExtTreeMap.contains_eq_isSome_getElem?]
  obtain ⟨info, hinfo, -⟩ := Option.map_eq_some_iff.mp h
  rw [hinfo]
  rfl

/-- A step keeps the flags exactly when it registers nothing again. -/
theorem flagsKept_step_iff {cfg : Config} {b c : Brokered} {l : ServerLabel} (hb : b.Inv)
    (hkept : b.FlagsKept) (h : b.step cfg l = some c) : c.FlagsKept ↔ b.RegistersOnce l := by
  rw [(hb.step h).flagsKept_iff]
  rw [hb.flagsKept_iff] at hkept
  obtain ⟨v, hv, rfl⟩ := Option.map_eq_some_iff.mp h
  dsimp only
  unfold RegistersOnce
  obtain ⟨t, now, hstep, heffect⟩ | ⟨hsame, heffect⟩ := Server.srtStep_of_step hv
  · generalize hreg : v.registry = r at hstep
    cases hstep with
    | register req hpc =>
      rw [heffect, Thread.srtEffect, hpc]
      dsimp only [servedAfter, notedAfter]
      have hentry : (b.server.registry.srtRegister req t.fd now).srtProviders.contains
          req.serviceId = true := by simp [Registry.srtRegister]
      constructor
      · rintro hafter ⟨hserved, hholds⟩
        have hnoted := hafter req.serviceId
        rw [Function.update_self, Function.update_self, hserved, hentry,
          decide_eq_true hholds] at hnoted
        exact Bool.false_ne_true (hnoted rfl)
      · intro honce service hserved
        obtain ⟨hserved, -⟩ := Bool.and_eq_true_iff.mp hserved
        by_cases hservice : service = req.serviceId
        · rw [hservice, Function.update_self, Bool.and_eq_true, decide_eq_true_eq] at hserved
          exact absurd hserved honce
        · rw [Function.update_of_ne hservice] at hserved ⊢
          exact hkept service hserved
    | note req provider hpc =>
      rw [heffect, Thread.srtEffect, hpc]
      dsimp only [servedAfter, notedAfter]
      refine iff_of_true (fun service hserved ↦ ?_) trivial
      by_cases hservice : service = req.serviceId
      · rw [hservice, Function.update_self]
      · rw [Function.update_of_ne hservice]
        exact hkept service (Bool.and_eq_true_iff.mp hserved).1
    | keep hkeep hother =>
      rw [heffect, hother]
      exact iff_of_true (fun service hserved ↦
        hkept service (Bool.and_eq_true_iff.mp hserved).1) trivial
  · obtain hother | ⟨service, fd, hforwarded⟩ := heffect
    · rw [hother]
      exact iff_of_true (fun service hserved ↦
        hkept service (Bool.and_eq_true_iff.mp hserved).1) trivial
    · rw [hforwarded, hsame]
      dsimp only [servedAfter, notedAfter]
      constructor
      · intro hafter hholds
        apply hafter service
        rw [Function.update_self, decide_eq_true hholds, Bool.or_true,
          contains_of_holds hholds, Bool.and_self]
      · intro honce other hserved
        obtain ⟨hserved, -⟩ := Bool.and_eq_true_iff.mp hserved
        by_cases hother : other = service
        · rw [hother, Function.update_self, Bool.or_eq_true, decide_eq_true_eq] at hserved
          rw [hother]
          exact hserved.elim (hkept service) honce
        · rw [Function.update_of_ne hother] at hserved
          exact hkept other hserved

theorem flagsKept_start : start.FlagsKept := by
  intro service info hserved
  cases hserved

/-- Along a run the flag of every camera that was served stays set until its registration is
removed, exactly when no camera registers again once it was served, and none registers between the
moment a viewer is noted and the moment its request is forwarded. -/
theorem flagsKept_iff_registersOnce (cfg : Config) (events : List ServerLabel) (b : Brokered)
    (hrun : run (step cfg) start events = some b) :
    (∀ ks u, ks <+: events → run (step cfg) start ks = some u → u.FlagsKept) ↔
      Always (step cfg) RegistersOnce start events :=
  @forall_prefix_iff_always _ _ (step cfg) RegistersOnce Inv FlagsKept
    (fun _ _ _ hs h ↦ hs.step h) (fun _ _ _ hs hp h ↦ flagsKept_step_iff hs hp h) _ _ _
    inv_start flagsKept_start hrun

/-- A camera registers, on the connection that it has. -/
private def cameraRegisters : List ServerLabel :=
  [.recv 1 (frame (lit
      "type=SRT_REGISTER\nservice_id=cam\nsrflx_ip=203.0.113.10\nsrflx_port=8554\n")) none,
    .run 1 0, .run 1 0, .accepted 1 4,
    .accepted 1 (registeredMessage .unset "SRT_REGISTERED").length, .run 1 0]

/-- A viewer asks for the camera, and its request is forwarded. -/
private def viewerServed : List ServerLabel :=
  [.accept 4 (lit "10.0.0.1"), .run 1 0] ++ cameraRegisters ++
    [.accept 5 (lit "10.0.0.2"), .run 2 0,
      .recv 2 (frame (lit
        "type=SRT_REQUEST\nservice_id=cam\nsrflx_ip=203.0.113.20\nsrflx_port=9000\n")) none,
      .run 2 0, .run 2 0, .run 2 0, .accepted 2 4,
      .accepted 2 (srtPeerMessage ⟨lit "cam", lit "203.0.113.20", 9000, []⟩).length]

/-- The flag is set behind every event up to there. -/
theorem flagsKept_viewerServed : ∃ b, run (step .unset) start viewerServed = some b ∧
    ∀ ks u, ks <+: viewerServed → run (step .unset) start ks = some u → u.FlagsKept := by
  have hsome : (run (step .unset) start viewerServed).isSome = true := by decide +kernel
  obtain ⟨b, hrun⟩ := Option.isSome_iff_exists.mp hsome
  exact ⟨b, hrun, (flagsKept_iff_registersOnce .unset viewerServed b hrun).mpr (by decide +kernel)⟩

/-- The camera has sent the viewer its stream, and registers the mapping of its next socket: the
flag is lost. -/
theorem flag_lost : ∃ b, run (step .unset) start (viewerServed ++ cameraRegisters) = some b ∧
    ¬ b.FlagsKept := by
  obtain ⟨b, hrun, hserved, hflag⟩ := @exists_run _ _ (step .unset) start
    (viewerServed ++ cameraRegisters)
    (fun b : Brokered ↦ b.served (lit "cam") = true ∧
      b.server.registry.consumerFlag (lit "cam") = some false) _ (by decide +kernel)
  refine ⟨b, hrun, fun hkept ↦ ?_⟩
  obtain ⟨info, hinfo, hfalse⟩ := Option.map_eq_some_iff.mp hflag
  rw [hkept (lit "cam") info hserved hinfo] at hfalse
  cases hfalse

end Brokered

end Kitty.Signal
