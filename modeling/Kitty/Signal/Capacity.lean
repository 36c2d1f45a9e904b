import Kitty.Signal.Entries

/-!
# The limit on providers

REGISTER looks for room under one lock and inserts the provider under another;
`src/signaling-server/signaling_server.cpp:1464–1538`. The number of providers stays within
`max_providers` exactly when there is still room at each insertion.
-/

namespace Kitty.Signal

open Kitty.Base
open Registry

/-- The registration a handler is about to insert. -/
def Pc.inserting : Pc → Option RegisterRequest
  | .registerInsert req => some req
  | _ => none

/-- A provider is inserted when it is there already or there is room for it. -/
def RoomLeft (cfg : Config) (w : Server) : ServerLabel → Prop
  | .run tid _ => ∀ req ∈ (w.threads tid).bind fun t ↦ t.pc.inserting,
      w.registry.atCapacity cfg req.serviceId = false
  | _ => True

instance (cfg : Config) (w : Server) : (l : ServerLabel) → Decidable (RoomLeft cfg w l)
  | .run _ _ => inferInstanceAs (Decidable (∀ _ ∈ _, _))
  | .accept _ _ | .recv _ _ _ | .timeout _ | .accepted _ _ | .sendFail _ => isTrue trivial

/-- What a step does with REGISTER messages. One for a service that is there is not refused
for room, one of a wrong token does not come to the check and adds nothing, one refused for
room adds nothing. A service is added only by inserting it, and that only behind a check that
found room. -/
structure RegistersWell (cfg : Config) (w : Server) (l : ServerLabel) (v : Server) : Prop where
  readmit : ∀ tid now t req, l = .run tid now → w.threads tid = some t → t.pc = .registerCheck req →
    w.registry.providers.contains req.serviceId = true →
    v.threads tid = some { t with pc := .registerInsert req }
  full : ∀ tid now t req, l = .run tid now → w.threads tid = some t → t.pc = .registerCheck req →
    v.threads tid ≠ some { t with pc := .registerInsert req } →
    v.registry = w.registry ∧ v.threads tid = some { t with
      pc := reply t.fd (errorMessage "Server at capacity" []) .leave }
  token : ∀ tid now t msg answers, l = .run tid now → w.threads tid = some t →
    t.pc = .received msg answers → field (parseMessage msg) (lit "type") = lit "REGISTER" →
    badToken cfg (parseMessage msg) = true → v.crashed = false → w.registry.SameEntries v.registry ∧
      v.threads tid = some { t with
        pc := reply t.fd (errorMessage "Authentication failed" []) .leave }
  add : ∀ service, (v.registry.providers.contains service = true ∧
      w.registry.providers.contains service = false ∨
      v.registry.providerHistory.contains service = true ∧
      w.registry.providerHistory.contains service = false) →
    ∃ tid now t req, l = .run tid now ∧ w.threads tid = some t ∧ t.pc = .registerInsert req ∧
      req.serviceId = service
  insert : ∀ tid t t' req, w.threads tid = some t → v.threads tid = some t' →
    t'.pc = .registerInsert req → t.pc = .registerInsert req ∨
      t.pc = .registerCheck req ∧ w.registry.atCapacity cfg req.serviceId = false
  check : ∀ tid t t' req, w.threads tid = some t → v.threads tid = some t' →
    t'.pc = .registerCheck req → t.pc = .registerCheck req ∨
      ∃ msg answers, t.pc = .received msg answers ∧
        field (parseMessage msg) (lit "type") = lit "REGISTER" ∧
        badToken cfg (parseMessage msg) = false

/-! ### One critical section -/

/-- A critical section that is no insertion adds no provider and no history. -/
structure Registry.Shrinks (r r' : Registry) : Prop where
  size : r'.providers.size ≤ r.providers.size
  providers : ∀ service, r'.providers.contains service = true → r.providers.contains service = true
  history : ∀ service,
    r'.providerHistory.contains service = true → r.providerHistory.contains service = true

theorem Registry.contains_eq_isSome_providerFd (r : Registry) (service : Bytes) :
    r.providers.contains service = (r.providerFd service).isSome := by
  rw [Std.ExtTreeMap.contains_eq_isSome_getElem?, providerFd, Option.isSome_map]

theorem Registry.SameEntries.shrinks {r r' : Registry} (h : r.SameEntries r') : r.Shrinks r' where
  size := h.size.le
  providers service hs := by
    rw [contains_eq_isSome_providerFd, h.providers] at hs
    rwa [contains_eq_isSome_providerFd]
  history service hs := by rwa [h.history] at hs

theorem Registry.eraseProvider_shrinks (r : Registry) (service : Bytes) :
    r.Shrinks (r.eraseProvider service) where
  size := Std.ExtTreeMap.size_erase_le
  providers service' h := by
    simp only [eraseProvider, Std.ExtTreeMap.contains_erase, Bool.and_eq_true] at h
    exact h.2
  history _ h := h

theorem Registry.removeSocket_shrinks (r : Registry) (fd : Nat)
    (note : ProviderHistory → ProviderHistory) : r.Shrinks (r.removeSocket fd note) where
  size := Std.ExtTreeMap.size_filter_le_size
  providers service h := by
    exact Std.ExtTreeMap.contains_of_contains_filter h
  history service h := by
    simpa [removeSocket] using h

theorem Registry.shrinks_of_eq {r r' : Registry} (hp : r'.providers = r.providers)
    (hh : r'.providerHistory = r.providerHistory) : r.Shrinks r' where
  size := by rw [hp]
  providers service h := by rwa [hp] at h
  history service h := by rwa [hh] at h

/-- A critical section inserts the provider it was to insert, or adds nothing. -/
theorem EntryStep.shrinks {cfg : Config} {t : Thread} {now : Int} {r r' : Registry} {pc : Pc}
    (h : EntryStep cfg t now r r' pc) : r.Shrinks r' ∨
      ∃ req, t.pc = .registerInsert req ∧ r' = r.register req t.fd t.ip now := by
  cases h with
  | keep hkeeps hr hpc => exact .inl hr.shrinks
  | register req h hpc => exact .inr ⟨req, h, rfl⟩
  | eraseProvider req h hpc => exact .inl (r.eraseProvider_shrinks _)
  | leaveRegistry h => exact .inl (r.removeSocket_shrinks _ _)
  | removeStale fd rest h hpc => exact .inl (r.removeSocket_shrinks _ _)
  | dropSubscribers failed h hpc =>
    obtain ⟨hp, hh, -⟩ := r.dropSubscribers_entries failed
    exact .inl (shrinks_of_eq hp hh)
  | _ => exact .inl (shrinks_of_eq rfl rfl)

/-- The number of providers an insertion leaves. -/
theorem Registry.size_register (r : Registry) (req : RegisterRequest) (fd : Nat) (ip : Bytes)
    (now : Int) : (r.register req fd ip now).providers.size =
      if r.providers.contains req.serviceId then r.providers.size else r.providers.size + 1 :=
  Std.ExtTreeMap.size_insert

/-- An insertion keeps the limit exactly when the service is there or there is room. -/
theorem Registry.size_register_le_iff {r : Registry} {cfg : Config} (hmax : 0 < cfg.maxProviders)
    (hsize : (r.providers.size : Int) ≤ cfg.maxProviders) (req : RegisterRequest) (fd : Nat)
    (ip : Bytes) (now : Int) :
    ((r.register req fd ip now).providers.size : Int) ≤ cfg.maxProviders ↔
      r.atCapacity cfg req.serviceId = false := by
  rw [size_register]
  unfold atCapacity
  cases r.providers.contains req.serviceId with
  | true => simpa using hsize
  | false =>
    simp only [hmax, Bool.not_false, decide_true, Bool.and_self, Bool.true_and,
      decide_eq_false_iff_not,
      Int.not_le, Bool.false_eq_true, if_false]
    omega

/-- The places of a handler that is to insert, or to check. -/
private theorem insert_of_errand {pc : Pc} {req : RegisterRequest} (h : pc.errand = .insert req) :
    pc = .registerInsert req := by
  cases pc with
  | registerInsert req' =>
    cases h
    rfl
  | sending out next => cases next <;> cases h
  | _ => cases h

private theorem check_of_errand {pc : Pc} {req : RegisterRequest} (h : pc.errand = .check req) :
    pc = .registerCheck req := by
  cases pc with
  | registerCheck req' =>
    cases h
    rfl
  | sending out next => cases next <;> cases h
  | _ => cases h

/-! ### One step -/

section StepLemmas

variable {cfg : Config} {w v : Server}

/-- The check of a REGISTER lets it in, or refuses it and changes nothing. -/
private theorem check_step {tid : Nat} {now : Int} {t : Thread} {req : RegisterRequest}
    (h : w.step cfg (.run tid now) = some v) (ht : w.threads tid = some t)
    (hpc : t.pc = .registerCheck req) : v.registry = w.registry ∧ v.threads tid = some { t with
      pc := if w.registry.atCapacity cfg req.serviceId then
        reply t.fd (errorMessage "Server at capacity" []) .leave else .registerInsert req } := by
  obtain ⟨r, pc, hrun, rfl⟩ := Server.step_run_of_thread h ht (by simp [hpc])
  simp only [Thread.run, hpc] at hrun
  cases (Registry.locked_some hrun).2
  exact ⟨rfl, by simp [Server.put]⟩

/-- A REGISTER of a wrong token is refused and changes nothing but a counter. -/
private theorem token_step {tid : Nat} {now : Int} {t : Thread} {msg : Bytes} {answers : Option Nat}
    (h : w.step cfg (.run tid now) = some v) (ht : w.threads tid = some t)
    (hpc : t.pc = .received msg answers)
    (htype : field (parseMessage msg) (lit "type") = lit "REGISTER")
    (htoken : badToken cfg (parseMessage msg) = true) (hcrash : v.crashed = false) :
    w.registry.SameEntries v.registry ∧ v.threads tid = some { t with
      pc := reply t.fd (errorMessage "Authentication failed" []) .leave } := by
  obtain ⟨t', ht', ⟨msg', answers', hrec, -, ⟨e, -, rfl⟩ | ⟨pc, hd, rfl⟩⟩ | ⟨hrec, -⟩⟩ :=
    Server.step_run h
  · cases hcrash
  · cases ht.symm.trans ht'
    rw [hpc] at hrec
    cases hrec
    refine ⟨w.registry.updateFirst_sameEntries _ fun _ ↦ rfl, ?_⟩
    unfold dispatch at hd
    rw [if_pos htype] at hd
    unfold dispatchRegister at hd
    cases hp : stoi (field (parseMessage msg) (lit "p2p_port")) with
    | error e =>
      rw [hp] at hd
      cases hd
    | ok p2pPort =>
      cases hq : stoiOr0 (parseMessage msg) (lit "consumer_port") with
      | error e =>
        rw [hp, hq] at hd
        cases hd
      | ok port =>
        rw [hp, hq] at hd
        dsimp only [bind, Except.bind] at hd
        rw [if_pos htoken] at hd
        cases hd
        simp [Server.put]
  · cases ht.symm.trans ht'
    exact absurd hpc (hrec msg answers)

theorem registersWell_of_step {l : ServerLabel} (h : w.step cfg l = some v) :
    RegistersWell cfg w l v where
  readmit tid now t req hl ht hpc hthere := by
    subst hl
    rw [(check_step h ht hpc).2, atCapacity, hthere]
    simp
  full tid now t req hl ht hpc hne := by
    subst hl
    obtain ⟨hr, hv⟩ := check_step h ht hpc
    refine ⟨hr, ?_⟩
    split at hv
    · exact hv
    · exact absurd hv hne
  token tid now t msg answers hl ht hpc htype htoken hcrash := by
    subst hl
    exact token_step h ht hpc htype htoken hcrash
  add service hnew := by
    have hshrink : ¬ w.registry.Shrinks v.registry := fun hs ↦ by
      obtain ⟨hv, hw⟩ | ⟨hv, hw⟩ := hnew
      · rw [hs.providers service hv] at hw
        cases hw
      · rw [hs.history service hv] at hw
        cases hw
    cases Server.move_of_step h with
    | accept fd ip hfd hr hthr hs =>
      exact absurd (shrinks_of_eq (by rw [hr]) (by rw [hr])) hshrink
    | goOn tid t pc ht hwaits hr hpc hdrop hl hthr hs => exact absurd hr.shrinks hshrink
    | crash tid now t ht hwaits hr hthr hs => exact absurd hr.shrinks hshrink
    | run tid now t pc ht hstep hsend hthr hs =>
      obtain hs | ⟨req, hpc, hv⟩ := hstep.shrinks
      · exact absurd hs hshrink
      · refine ⟨tid, now, t, req, rfl, ht, hpc, ?_⟩
        rw [hv] at hnew
        simp only [register, Std.ExtTreeMap.contains_insert, Bool.or_eq_true, beq_iff_eq,
          Std.LawfulEqCmp.compare_eq_iff_eq] at hnew
        obtain ⟨he | hv, hw⟩ | ⟨he | hv, hw⟩ := hnew
        · exact he
        · rw [hv] at hw
          cases hw
        · exact he
        · rw [hv] at hw
          cases hw
  insert tid t t' req ht ht' hpc := by
    obtain hsame | hnew | ⟨u, hu, herrand⟩ := Server.errand_of_step h ht'
    · cases ht.symm.trans hsame
      exact .inl hpc
    · rw [hpc] at hnew
      cases hnew
    · cases ht.symm.trans hu
      rw [hpc] at herrand
      cases herrand with
      | same hsame => exact .inl (insert_of_errand hsame)
      | insert _ hcheck hroom => exact .inr ⟨hcheck, hroom⟩
  check tid t t' req ht ht' hpc := by
    obtain hsame | hnew | ⟨u, hu, herrand⟩ := Server.errand_of_step h ht'
    · cases ht.symm.trans hsame
      exact .inl hpc
    · rw [hpc] at hnew
      cases hnew
    · cases ht.symm.trans hu
      rw [hpc] at herrand
      cases herrand with
      | same hsame => exact .inl (check_of_errand hsame)
      | check _ msg answers hmsg htype htoken => exact .inr ⟨msg, answers, hmsg, htype, htoken⟩

/-- A step keeps the limit exactly when it inserts no provider for which there is no room. -/
theorem within_step_iff {l : ServerLabel} (hmax : 0 < cfg.maxProviders)
    (h : w.step cfg l = some v) (hsize : (w.registry.providers.size : Int) ≤ cfg.maxProviders) :
    (v.registry.providers.size : Int) ≤ cfg.maxProviders ↔ RoomLeft cfg w l := by
  have hkeep : w.registry.Shrinks v.registry →
      (v.registry.providers.size : Int) ≤ cfg.maxProviders := fun hs ↦
    Int.le_trans (Int.ofNat_le.mpr hs.size) hsize
  by_cases hins : ∃ tid now t req, l = .run tid now ∧ w.threads tid = some t ∧
      t.pc = .registerInsert req
  · obtain ⟨tid, now, t, req, rfl, ht, hpc⟩ := hins
    have hroom : RoomLeft cfg w (.run tid now) ↔
        w.registry.atCapacity cfg req.serviceId = false := by
      simp [RoomLeft, ht, hpc, Pc.inserting]
    rw [hroom]
    obtain ⟨r, pc, hrun, rfl⟩ := Server.step_run_of_thread h ht (by simp [hpc])
    simp only [Thread.run, hpc] at hrun
    cases (Registry.locked_some hrun).2
    exact size_register_le_iff hmax hsize req t.fd t.ip now
  · have hroom : RoomLeft cfg w l := by
      cases l with
      | run tid now =>
        intro req hreq
        obtain ⟨t, ht, hreq⟩ := Option.bind_eq_some_iff.mp hreq
        cases hpc : t.pc with
        | registerInsert req' => exact absurd ⟨tid, now, t, req', rfl, ht, hpc⟩ hins
        | _ =>
          rw [hpc] at hreq
          cases hreq
      | _ => trivial
    refine iff_of_true ?_ hroom
    cases Server.move_of_step h with
    | accept fd ip hfd hr hthr hs => exact hkeep (shrinks_of_eq (by rw [hr]) (by rw [hr]))
    | goOn tid t pc ht hwaits hr hpc hdrop hl hthr hs => exact hkeep hr.shrinks
    | crash tid now t ht hwaits hr hthr hs => exact hkeep hr.shrinks
    | run tid now t pc ht hstep hsend hthr hs =>
      obtain hs | ⟨req, hpc, -⟩ := hstep.shrinks
      · exact hkeep hs
      · exact absurd ⟨tid, now, t, req, rfl, ht, hpc⟩ hins

end StepLemmas

/-! ### Every run -/

/-- A step leads to a state with no more providers than allowed, and treats REGISTER messages
well. -/
def WithinLimit (cfg : Config) (w : Server) (l : ServerLabel) : Prop :=
  ∀ v, w.step cfg l = some v →
    (v.registry.providers.size : Int) ≤ cfg.maxProviders ∧ RegistersWell cfg w l v

/-- In a run every step keeps the limit exactly when every insertion still finds room. -/
theorem withinLimit_iff_roomLeft {cfg : Config} {ls : List ServerLabel} {w : Server}
    (hmax : 0 < cfg.maxProviders) (hr : run (Server.step cfg) .start ls = some w) :
    Always (Server.step cfg) (WithinLimit cfg) .start ls ↔
      Always (Server.step cfg) (RoomLeft cfg) .start ls := by
  have hstart : (Server.start.registry.providers.size : Int) ≤ cfg.maxProviders := Int.le_of_lt hmax
  have hiff : ∀ (s : Server) (l : ServerLabel) (t : Server),
      (s.registry.providers.size : Int) ≤ cfg.maxProviders → s.step cfg l = some t →
      (RoomLeft cfg s l ↔ WithinLimit cfg s l) := fun s l t hs hst ↦ by
    rw [← within_step_iff hmax hst hs]
    constructor
    · intro hsize v hv
      cases hst.symm.trans hv
      exact ⟨hsize, registersWell_of_step hst⟩
    · intro hwithin
      exact (hwithin t hst).1
  exact (always_iff_always (Server.step cfg) hiff (fun _ _ t _ hd hst ↦ (hd t hst).1)
    hstart hr).symm

/-- A server that allows one provider. -/
def oneProvider : Config := { Config.unset with maxProviders := 1 }

/-- A client connects and sends a REGISTER for a service, which is taken up. -/
def offers (tid fd : Nat) (service : String) : List ServerLabel :=
  [.accept fd (lit "10.0.0.1"), .run tid 0,
    .recv tid (frame (lit ("type=REGISTER\nservice_id=" ++ service ++ "\np2p_port=1\n"))) none,
    .run tid 0]

/-- One provider registers before another one asks. -/
def oneAfterOther : List ServerLabel :=
  offers 1 4 "a" ++ (.run 1 0 :: .run 1 0 :: (offers 2 5 "b" ++ [.run 2 0]))

/-- Two providers are checked for room before either is inserted. -/
def checkedTogether : List ServerLabel :=
  offers 1 4 "a" ++ (offers 2 5 "b" ++ [.run 1 0, .run 2 0, .run 1 0, .run 2 0])

theorem withinLimit_oneAfterOther :
    ∃ w, run (Server.step oneProvider) .start oneAfterOther = some w ∧
      Always (Server.step oneProvider) (WithinLimit oneProvider) .start oneAfterOther := by
  have hsome : (run (Server.step oneProvider) .start oneAfterOther).isSome = true := by
    decide +kernel
  obtain ⟨w, hr⟩ := Option.isSome_iff_exists.mp hsome
  exact ⟨w, hr, (withinLimit_iff_roomLeft (by decide) hr).mpr (by decide +kernel)⟩

/-- A server that allows one provider has two. -/
theorem over_limit_checkedTogether :
    ∃ w, run (Server.step oneProvider) .start checkedTogether = some w ∧
      w.registry.providers.size = 2 ∧ oneProvider.maxProviders = 1 :=
  exists_run (Server.step oneProvider) (fun w ↦ w.registry.providers.size = 2 ∧
    oneProvider.maxProviders = 1) (by decide +kernel)

end Kitty.Signal
