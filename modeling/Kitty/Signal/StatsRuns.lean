import Kitty.Signal.Stats

/-!
# The statistics along a run

Which strings `generate_json_stats` finds in the registries: those of the REGISTER and SRT_REGISTER
messages that were accepted, and the addresses of the clients;
`src/signaling-server/signaling_server.cpp:1441–1760`. All documents of a run are faithful exactly
when each of its steps stores strings that can be printed as they are.
-/

namespace Kitty.Signal

open Kitty.Base

/-! ### What is stored -/

/-- The entry with the address of another consumer. -/
def StatsEntry.withConsumer (ip : Bytes) : StatsEntry → StatsEntry
  | provider service peerId addr _ protocol codec =>
    provider service peerId addr ip protocol codec
  | srt service addr _ => srt service addr ip

/-- What is listed of an entry. -/
def Registry.entryOf (r : Registry) : EntryKey → Option StatsEntry
  | .provider service => r.providers[service]?.map (.ofProvider service)
  | .srt service => r.srtProviders[service]?.map (.ofSrt service)

/-- What can be listed behind the next step of a thread that could not before: a registration, or a
service with the address of its consumer. -/
def Thread.puts (t : Thread) (r : Registry) : Option StatsEntry :=
  match t.pc with
  | .registerInsert req => some
    (.provider req.serviceId req.peerId t.ip [] req.serviceProtocol req.serviceCodec)
  | .srtRegister req => some (.srt req.serviceId req.srflxIp [])
  | .requestMark service => (r.entryOf (.provider service)).map (.withConsumer t.ip)
  | .srtMark req _ => (r.entryOf (.srt req.serviceId)).map (.withConsumer t.ip)
  | _ => none

/-- The step stores strings that can be printed as they are. -/
def Server.PutsPrintable (w : Server) : ServerLabel → Prop
  | .run tid _ => ∀ t ∈ w.threads tid, ∀ e ∈ t.puts w.registry, e.Printable
  | _ => True

instance (w : Server) : (l : ServerLabel) → Decidable (w.PutsPrintable l)
  | .run tid _ => inferInstanceAs (Decidable (∀ t ∈ w.threads tid, _))
  | .accept .. | .recv .. | .timeout .. | .accepted .. | .sendFail .. => isTrue trivial

/-- The copies that `generate_json_stats` takes, one behind the other. -/
def StatsSnapshot.of (r r' : Registry) : StatsSnapshot :=
  ⟨r.providers, r.serverStats, r'.srtProviders⟩

/-- Everything that is registered can be printed as it is. -/
def Registry.Printable (r : Registry) : Prop :=
  ∀ (key : EntryKey) (e : StatsEntry), r.entryOf key = some e → e.Printable

theorem Registry.printable_start : Registry.start.Printable := by
  intro key e he
  cases key <;> simp [Registry.start, Registry.entryOf] at he

/-- The list of a document is the providers of the one registry, and the SRT cameras of the
other. -/
theorem StatsSnapshot.forall_registered {r r' : Registry} {C : StatsEntry → Prop} :
    (∀ e ∈ (StatsSnapshot.of r r').registered, C e) ↔
      (∀ service e, r.entryOf (.provider service) = some e → C e) ∧
        ∀ service e, r'.entryOf (.srt service) = some e → C e := by
  simp only [registered, of, List.forall_mem_append, List.forall_mem_map, Prod.forall,
    Std.ExtTreeMap.mem_toList_iff_getElem?_eq_some, Registry.entryOf, Option.map_eq_some_iff]
  constructor
  · rintro ⟨hp, hs⟩
    constructor
    · rintro service e ⟨info, hinfo, rfl⟩
      exact hp service info hinfo
    · rintro service e ⟨sp, hsp, rfl⟩
      exact hs service sp hsp
  · rintro ⟨hp, hs⟩
    exact ⟨fun service info hinfo ↦ hp service _ ⟨info, hinfo, rfl⟩,
      fun service sp hsp ↦ hs service _ ⟨sp, hsp, rfl⟩⟩

/-! ### What a critical section does with the strings -/

namespace Registry

variable {r r' : Registry}

theorem entryOf_eq (hp : r'.providers = r.providers) (hs : r'.srtProviders = r.srtProviders)
    (key : EntryKey) : r'.entryOf key = r.entryOf key := by
  cases key with
  | provider service => rw [entryOf, entryOf, hp]
  | srt service => rw [entryOf, entryOf, hs]

theorem entryOf_updateProvider (r : Registry) (service : Bytes) {f : ProviderInfo → ProviderInfo}
    {g : StatsEntry → StatsEntry}
    (hf : ∀ info, StatsEntry.ofProvider service (f info) = g (.ofProvider service info))
    (key : EntryKey) : (r.updateProvider service f).entryOf key =
      if key = .provider service then (r.entryOf key).map g else r.entryOf key := by
  cases key with
  | provider other =>
    simp only [entryOf, updateProvider, Std.ExtTreeMap.getElem?_modify, EntryKey.provider.injEq]
    by_cases hother : other = service
    · rw [hother, if_pos Std.ReflCmp.compare_self, if_pos rfl, Option.map_map, Option.map_map]
      exact congrArg (Option.map · _) (funext hf)
    · rw [if_neg hother, if_neg fun heq ↦ hother (Std.LawfulEqCmp.eq_of_compare heq).symm]
  | srt other => rfl

/-- An update of what is not listed. -/
theorem entryOf_updateProvider_same (r : Registry) (service : Bytes)
    {f : ProviderInfo → ProviderInfo}
    (hf : ∀ info, StatsEntry.ofProvider service (f info) = .ofProvider service info)
    (key : EntryKey) : (r.updateProvider service f).entryOf key = r.entryOf key := by
  rw [entryOf_updateProvider r service (g := id) hf, Option.map_id, id, ite_self]

theorem entryOf_updateFirst (r : Registry) (fd : Nat) {f : ProviderInfo → ProviderInfo}
    (hf : ∀ service info, StatsEntry.ofProvider service (f info) = .ofProvider service info)
    (key : EntryKey) : (r.updateFirst fd f).entryOf key = r.entryOf key := by
  unfold updateFirst
  split
  · rfl
  · next service info hfind =>
    have hget : r.providers[service]? = some info :=
      Std.ExtTreeMap.mem_toList_iff_getElem?_eq_some.mp (List.mem_of_find?_eq_some hfind)
    cases key with
    | provider other =>
      simp only [entryOf, Std.ExtTreeMap.getElem?_insert]
      split
      · next heq =>
        rw [← Std.LawfulEqCmp.eq_of_compare heq, hget, Option.map_some, Option.map_some, hf]
      · rfl
    | srt other => rfl

theorem entryOf_register (r : Registry) (req : RegisterRequest) (fd : Nat) (ip : Bytes) (now : Int)
    (key : EntryKey) : (r.register req fd ip now).entryOf key =
      if key = .provider req.serviceId then
        some (.provider req.serviceId req.peerId ip [] req.serviceProtocol req.serviceCodec)
      else r.entryOf key := by
  cases key with
  | provider other =>
    simp only [entryOf, register, Std.ExtTreeMap.getElem?_insert, EntryKey.provider.injEq]
    by_cases hother : other = req.serviceId
    · rw [hother, if_pos Std.ReflCmp.compare_self, if_pos rfl]
      rfl
    · rw [if_neg hother, if_neg fun heq ↦ hother (Std.LawfulEqCmp.eq_of_compare heq).symm]
  | srt other => rfl

theorem entryOf_srtRegister (r : Registry) (req : SrtRequest) (fd : Nat) (now : Int)
    (key : EntryKey) : (r.srtRegister req fd now).entryOf key =
      if key = .srt req.serviceId then some (.srt req.serviceId req.srflxIp [])
      else r.entryOf key := by
  cases key with
  | provider other => rfl
  | srt other =>
    simp only [entryOf, srtRegister, Std.ExtTreeMap.getElem?_insert, EntryKey.srt.injEq]
    by_cases hother : other = req.serviceId
    · rw [hother, if_pos Std.ReflCmp.compare_self, if_pos rfl]
      rfl
    · rw [if_neg hother, if_neg fun heq ↦ hother (Std.LawfulEqCmp.eq_of_compare heq).symm]

theorem entryOf_srtMarkConsumer (r : Registry) (service ip : Bytes) (now : Int) (key : EntryKey) :
    (r.srtMarkConsumer service ip now).entryOf key =
      if key = .srt service then (r.entryOf key).map (.withConsumer ip) else r.entryOf key := by
  cases key with
  | provider other => rfl
  | srt other =>
    simp only [entryOf, srtMarkConsumer, Std.ExtTreeMap.getElem?_modify, EntryKey.srt.injEq]
    by_cases hother : other = service
    · rw [hother, if_pos Std.ReflCmp.compare_self, if_pos rfl, Option.map_map, Option.map_map]
      rfl
    · rw [if_neg hother, if_neg fun heq ↦ hother (Std.LawfulEqCmp.eq_of_compare heq).symm]

/-- The entries behind a step that puts at most one: that one, and those that were there before,
perhaps without the consumer they had. -/
structure Puts (r : Registry) (new : Option StatsEntry) (r' : Registry) : Prop where
  known : ∀ (key : EntryKey) (e' : StatsEntry), r'.entryOf key = some e' →
    new = some e' ∨ ∃ e, r.entryOf key = some e ∧ (e' = e ∨ e' = e.withConsumer [])
  found : ∀ e, new = some e → ∃ key, r'.entryOf key = some e

theorem puts_of_known (h : ∀ (key : EntryKey) (e : StatsEntry), r'.entryOf key = some e →
    r.entryOf key = some e) : r.Puts none r' where
  known key e he := .inr ⟨e, h key e he, .inl rfl⟩
  found _ he := by cases he

theorem puts_of_eq (h : ∀ key, r'.entryOf key = r.entryOf key) : r.Puts none r' :=
  puts_of_known fun key _ he ↦ (h key).symm.trans he

/-- One entry is set, or changed when it is there. -/
theorem puts_of_ite (key : EntryKey) {new : Option StatsEntry} (h : ∀ key', r'.entryOf key' =
    if key' = key then new else r.entryOf key') : r.Puts new r' where
  known key' e' he := by
    rw [h] at he
    split at he
    · exact .inl he
    · exact .inr ⟨e', he, .inl rfl⟩
  found e he := ⟨key, by rw [h, if_pos rfl, he]⟩

/-- The consumer of one provider has left. -/
theorem puts_dropConsumer (r : Registry) (service : Bytes) :
    r.Puts none (r.updateProvider service fun info ↦
      { info with hasConsumer := false, consumerIp := [] }) where
  known key e' he := by
    rw [entryOf_updateProvider r service (g := .withConsumer []) fun _ ↦ rfl] at he
    split at he
    · obtain ⟨e, hold, rfl⟩ := Option.map_eq_some_iff.mp he
      exact .inr ⟨e, hold, .inr rfl⟩
    · exact .inr ⟨e', he, .inl rfl⟩
  found _ he := by cases he

/-- A consumer was sent to a provider. -/
theorem puts_markConsumer (r : Registry) (service ip : Bytes) :
    r.Puts ((r.entryOf (.provider service)).map (.withConsumer ip))
      (r.updateProvider service fun info ↦
        { info with
          messagesSent := info.messagesSent + 1, consumerIp := ip, hasConsumer := true }) := by
  apply puts_of_ite (.provider service)
  intro key
  rw [entryOf_updateProvider r service (g := .withConsumer ip) fun _ ↦ rfl]
  split
  · next hkey => rw [hkey]
  · rfl

theorem puts_srtMarkConsumer (r : Registry) (service ip : Bytes) (now : Int) :
    r.Puts ((r.entryOf (.srt service)).map (.withConsumer ip))
      (r.srtMarkConsumer service ip now) := by
  apply puts_of_ite (.srt service)
  intro key
  rw [entryOf_srtMarkConsumer]
  split
  · next hkey => rw [hkey]
  · rfl

theorem puts_eraseProvider (r : Registry) (service : Bytes) :
    r.Puts none (r.eraseProvider service) := by
  apply puts_of_known
  intro key e he
  cases key with
  | provider other =>
    simp only [entryOf, eraseProvider, Std.ExtTreeMap.getElem?_erase] at he
    split at he
    · cases he
    · exact he
  | srt other => exact he

theorem puts_srtErase (r : Registry) (service : Bytes) : r.Puts none (r.srtErase service) := by
  apply puts_of_known
  intro key e he
  cases key with
  | provider other => exact he
  | srt other =>
    simp only [entryOf, srtErase, Std.ExtTreeMap.getElem?_erase] at he
    split at he
    · cases he
    · exact he

private theorem of_map_filter {α : Type} {f : α → StatsEntry} {keep : α → Bool} {o : Option α}
    {e : StatsEntry} (h : (o.filter keep).map f = some e) : o.map f = some e := by
  obtain ⟨a, ha, rfl⟩ := Option.map_eq_some_iff.mp h
  rw [(Option.filter_eq_some_iff.mp ha).1, Option.map_some]

theorem puts_removeSocket (r : Registry) (fd : Nat) (note : ProviderHistory → ProviderHistory) :
    r.Puts none (r.removeSocket fd note) := by
  apply puts_of_known
  intro key e he
  cases key with
  | provider other =>
    simp only [entryOf, removeSocket, Std.ExtTreeMap.getElem?_filter'] at he
    exact of_map_filter he
  | srt other => exact he

theorem puts_removeSrtSocket (r : Registry) (fd : Nat) : r.Puts none (r.removeSrtSocket fd) := by
  apply puts_of_known
  intro key e he
  cases key with
  | provider other => exact he
  | srt other =>
    simp only [entryOf, removeSrtSocket, Std.ExtTreeMap.getElem?_filter'] at he
    exact of_map_filter he

theorem entryOf_pong (r : Registry) (service : Bytes) (fd : Nat) (now : Int) (key : EntryKey) :
    (r.pong service fd now).entryOf key = r.entryOf key := by
  cases key with
  | provider other =>
    simp only [entryOf, pong, Std.ExtTreeMap.getElem?_map, Option.map_map]
    apply congrArg (Option.map · r.providers[other]?)
    funext info
    dsimp only [Function.comp_apply]
    generalize (if service = [] then fd
      else (r.providers[service]?.map ProviderInfo.socketFd).getD fd) = socket
    split <;> rfl
  | srt other => rfl

theorem entryOf_countPings (targets : List (Nat × Bytes)) (skip : Nat → Bool) (size : Bytes → Nat)
    (now : Int) (r : Registry) (key : EntryKey) :
    (targets.foldl (fun r (fd, service) ↦
      if skip fd then r else r.countPing service (size service) now) r).entryOf key =
        r.entryOf key := by
  induction targets generalizing r with
  | nil => rfl
  | cons e targets ih =>
    rw [List.foldl_cons, ih]
    dsimp only
    split
    · rfl
    · apply entryOf_updateProvider_same
      intro info
      rfl

end Registry

/-- What a critical section puts in the registries. -/
theorem Thread.puts_run {cfg : Config} {tid : Nat} {t : Thread} {now : Int} {r r' : Registry}
    {pc : Pc} (h : t.run cfg tid now r = some (r', pc)) : r.Puts (t.puts r) r' := by
  obtain ⟨fd, ip, at_⟩ := t
  unfold Thread.run at h
  cases at_ with
  | registerInsert req =>
    cases (Registry.locked_some h).2
    exact Registry.puts_of_ite _ (r.entryOf_register req fd ip now)
  | srtRegister req =>
    cases h
    exact Registry.puts_of_ite _ (r.entryOf_srtRegister req fd now)
  | requestMark service =>
    cases (Registry.locked_some h).2
    exact r.puts_markConsumer service ip
  | srtMark req provider =>
    cases h
    exact r.puts_srtMarkConsumer req.serviceId ip now
  | requestReset req | providerDisconnected service =>
    cases (Registry.locked_some h).2
    exact r.puts_dropConsumer _
  | registerCount service | portUpdate service port | sdpStore service sdp answers =>
    cases (Registry.locked_some h).2
    apply Registry.puts_of_eq
    apply Registry.entryOf_updateProvider_same
    intro info
    rfl
  | requestLookup service consumerSdp =>
    apply Registry.puts_of_eq
    intro key
    dsimp only at h
    split at h
    · cases (Registry.locked_some h).2
      apply Registry.entryOf_updateProvider_same
      intro info
      rfl
    · cases (Registry.locked_some h).2
      rfl
  | account fd' bytes next =>
    cases (Registry.locked_some h).2
    apply Registry.puts_of_eq
    apply Registry.entryOf_updateFirst
    intro service info
    rfl
  | requestDropProvider req =>
    cases (Registry.locked_some h).2
    exact r.puts_eraseProvider req.serviceId
  | srtErase service provider =>
    cases h
    exact r.puts_srtErase service
  | leaveRegistry =>
    cases (Registry.locked_some h).2
    exact r.puts_removeSocket fd _
  | leaveSrt =>
    cases h
    exact r.puts_removeSrtSocket fd
  | pong service =>
    cases (Registry.locked_some h).2
    exact Registry.puts_of_eq (r.entryOf_pong service fd now)
  | pingCount round =>
    cases (Registry.locked_some h).2
    exact Registry.puts_of_eq (Registry.entryOf_countPings round.targets round.failed.contains
      (fun service ↦ 4 + (pingText service round.now).length) round.now r)
  | pingRemove stale =>
    cases stale with
    | nil =>
      cases h
      exact Registry.puts_of_eq fun _ ↦ rfl
    | cons fd' rest =>
      cases (Registry.locked_some h).2
      exact r.puts_removeSocket fd' _
  | notifyDrop failed =>
    cases h
    have hsame := r.dropSubscribers_entries failed
    exact Registry.puts_of_eq (Registry.entryOf_eq hsame.1 hsame.2.2)
  | _ =>
    -- The other places leave both registries as they are.
    dsimp only at h
    simp only [Registry.locked, Option.ite_none_right_eq_some, Option.some.injEq,
      reduceCtorEq] at h
    all_goals first
      | (obtain ⟨-, he⟩ := h
         cases he
         exact Registry.puts_of_eq (Registry.entryOf_eq rfl rfl))
      | (cases h
         exact Registry.puts_of_eq (Registry.entryOf_eq rfl rfl))

section Steps

variable {cfg : Config} {w v : Server} {l : ServerLabel}

/-- A step puts in the registries what the critical section of a thread does, or nothing. -/
theorem Server.puts_of_step (h : w.step cfg l = some v) :
    ∃ new, w.registry.Puts new v.registry ∧
      (w.PutsPrintable l ↔ ∀ e, new = some e → e.Printable) := by
  have hnothing : ∀ e : StatsEntry, none = some e → e.Printable := fun _ he ↦ nomatch he
  cases l with
  | accept fd ip =>
    obtain ⟨-, rfl⟩ := Server.step_accept h
    exact ⟨none, Registry.puts_of_eq (Registry.entryOf_eq rfl rfl), iff_of_true trivial hnothing⟩
  | recv tid stream answers =>
    obtain ⟨t, -, -, rfl⟩ := Server.step_recv h
    exact ⟨none, Registry.puts_of_eq fun _ ↦ rfl, iff_of_true trivial hnothing⟩
  | run tid now =>
    obtain ⟨t, ht, ⟨msg, answers, hpc, -, hcases⟩ | ⟨-, r, pc, hrun, rfl⟩⟩ := Server.step_run h
    · have hreg : v.registry = w.registry.accountReceived t.fd (4 + msg.length) := by
        rcases hcases with ⟨e, -, rfl⟩ | ⟨pc, -, rfl⟩ <;> rfl
      have hputs : t.puts w.registry = none := by
        rw [Thread.puts, hpc]
      refine ⟨none, ?_, ?_⟩
      · rw [hreg]
        apply Registry.puts_of_eq
        apply Registry.entryOf_updateFirst
        intro service info
        rfl
      · refine iff_of_true ?_ hnothing
        intro t' ht' e he
        cases ht.symm.trans ht'
        rw [hputs] at he
        cases he
    · refine ⟨t.puts w.registry, Thread.puts_run hrun, ?_⟩
      simp only [PutsPrintable, ht, Option.mem_def, Option.some.injEq, forall_eq']
  | timeout tid =>
    obtain ⟨t, req, slot, -, -, -, rfl⟩ := Server.step_timeout h
    exact ⟨none, Registry.puts_of_eq fun _ ↦ rfl, iff_of_true trivial hnothing⟩
  | accepted tid n =>
    obtain ⟨t, out, next, -, -, -, rfl⟩ := Server.step_accepted h
    have hsame := (Server.advance_same cfg (w.emit out.fd (((frame out.msg).drop out.sent).take n))
      tid t out next (if next.raw then out.callEnd else out.sent + n)).1
    exact ⟨none, Registry.puts_of_eq (Registry.entryOf_eq (congrArg Registry.providers hsame)
      (congrArg Registry.srtProviders hsame)), iff_of_true trivial hnothing⟩
  | sendFail tid =>
    obtain ⟨t, out, next, -, -, rfl⟩ := Server.step_sendFail h
    refine ⟨none, Registry.puts_of_eq ?_, iff_of_true trivial hnothing⟩
    split
    · have hsame := (Server.advance_same cfg w tid t out next out.callEnd).1
      exact Registry.entryOf_eq (congrArg Registry.providers hsame)
        (congrArg Registry.srtProviders hsame)
    · exact fun _ ↦ rfl

/-- Without its consumer an entry can still be printed. -/
theorem StatsEntry.Printable.dropConsumer {e : StatsEntry} (h : e.Printable) :
    (e.withConsumer []).Printable := by
  have hnil : Json.Plain [] ∧ isUtf8 [] = true := by decide
  obtain ⟨hstrings, hcodec⟩ := h
  cases e with
  | provider service peerId ip consumerIp protocol codec =>
    simp only [strings, List.forall_mem_cons] at hstrings
    obtain ⟨hservice, hpeerId, hip, -, hrest⟩ := hstrings
    refine ⟨?_, hcodec⟩
    simp only [withConsumer, strings, List.forall_mem_cons]
    exact ⟨hservice, hpeerId, hip, hnil, hrest⟩
  | srt service ip consumerIp =>
    simp only [strings, List.forall_mem_cons] at hstrings
    obtain ⟨hservice, hip, -, hrest⟩ := hstrings
    refine ⟨?_, hcodec⟩
    simp only [withConsumer, strings, List.forall_mem_cons]
    exact ⟨hservice, hip, hnil, hrest⟩

/-- When everything can be printed before a step, it can be printed behind it exactly when the step
stores strings that can. -/
theorem Server.printable_of_step (h : w.step cfg l = some v) (hw : w.registry.Printable) :
    v.registry.Printable ↔ w.PutsPrintable l := by
  obtain ⟨new, hputs, hiff⟩ := Server.puts_of_step h
  rw [hiff]
  constructor
  · intro hv e he
    obtain ⟨key, hkey⟩ := hputs.found e he
    exact hv key e hkey
  · intro hnew key e' he'
    rcases hputs.known key e' he' with he | ⟨e, he, rfl | rfl⟩
    · exact hnew e' he
    · exact hw key _ he
    · exact (hw key e he).dropConsumer

end Steps

/-- In every run of the server, all documents of `generate_json_stats` are JSON and list exactly the
registered services with their strings, if and only if each step stores strings that can be printed
as they are. The SRT cameras are copied at the same time as the providers, or later. -/
theorem faithful_iff_putsPrintable {cfg : Config} (quotient : Nat → Nat → Nat) (page : StatsPage)
    {ls : List ServerLabel} {w : Server} (hr : run (Server.step cfg) .start ls = some w) :
    (∀ ks ks' u u', ks <+: ks' → ks' <+: ls → run (Server.step cfg) .start ks = some u →
      run (Server.step cfg) .start ks' = some u' →
      (StatsSnapshot.of u.registry u'.registry).Faithful
        (generateJsonStats quotient cfg page (.of u.registry u'.registry))) ↔
      Always (Server.step cfg) Server.PutsPrintable .start ls := by
  have hprefix := @forall_prefix_iff_always _ _ (Server.step cfg) Server.PutsPrintable
    (fun _ ↦ True) (fun u ↦ u.registry.Printable) (fun _ _ _ _ _ ↦ trivial)
    (fun _ _ _ _ hu hstep ↦ Server.printable_of_step hstep hu) .start w ls trivial
    Registry.printable_start hr
  rw [← hprefix]
  simp only [faithful_iff, StatsSnapshot.forall_registered]
  constructor
  · intro h ks u hks hu key e he
    have hboth := h ks ks u u (List.prefix_refl ks) hks hu hu
    cases key with
    | provider service => exact hboth.1 service e he
    | srt service => exact hboth.2 service e he
  · intro h ks ks' u u' hks hks' hu hu'
    exact ⟨fun service e he ↦ h ks u (hks.trans hks') hu (.provider service) e he,
      fun service e he ↦ h ks' u' hks' hu' (.srt service) e he⟩

/-- A camera registers with this name. -/
def registration (service : String) : List ServerLabel :=
  [.accept 4 (lit "10.0.0.2"), .run 1 0,
    .recv 1 (frame (lit "type=REGISTER\nservice_id=" ++ lit service ++ lit "\np2p_port=1\n")) none,
    .run 1 0, .run 1 0, .run 1 0]

theorem faithful_registration_cam :
    ∃ w, run (Server.step .unset) .start (registration "cam") = some w ∧
      ∀ quotient page, (StatsSnapshot.of w.registry w.registry).Faithful
        (generateJsonStats quotient .unset page (.of w.registry w.registry)) := by
  have hsome : (run (Server.step .unset) .start (registration "cam")).isSome = true := by
    decide +kernel
  obtain ⟨w, hr⟩ := Option.isSome_iff_exists.mp hsome
  refine ⟨w, hr, ?_⟩
  intro quotient page
  have hall := (faithful_iff_putsPrintable quotient page hr).mpr (by decide +kernel)
  exact hall _ _ w w (List.prefix_refl _) (List.prefix_refl _) hr hr

theorem not_faithful_registration_quote :
    ∃ w, run (Server.step .unset) .start (registration "a\"b") = some w ∧
      ∀ quotient page, ¬(StatsSnapshot.of w.registry w.registry).Faithful
        (generateJsonStats quotient .unset page (.of w.registry w.registry)) := by
  obtain ⟨w, hr, e, he, hnot⟩ :
      ∃ w, run (Server.step .unset) .start (registration "a\"b") = some w ∧
        ∃ e ∈ (StatsSnapshot.of w.registry w.registry).registered, ¬e.Printable :=
    exists_run (Server.step .unset) _ (by decide +kernel)
  refine ⟨w, hr, ?_⟩
  intro quotient page hfaithful
  exact hnot ((faithful_iff quotient .unset page _).mp hfaithful e he)

end Kitty.Signal
