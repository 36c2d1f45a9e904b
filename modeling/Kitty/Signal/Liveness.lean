import Kitty.Signal.Entries

/-!
# Providers that answer their pings

`ping_monitor_thread` and the PONG branch of `handle_client`
(`src/signaling-server/signaling_server.cpp:605–692,1896–1922`) count for each provider the pings
that it has not answered. When the answer to every ping of a round is processed before the next
round, in whatever order with the other steps, no provider is dropped for the pings it missed.
-/

namespace Kitty.Signal

open Kitty.Base

/-! ### Runs -/

/-- The server, with the pings of the last round, and the answers since it began that have been
processed: the socket of the handler, and the service it names. -/
structure Monitored where
  server : Server
  targets : List (Nat × Bytes)
  answers : List (Nat × Bytes)

namespace Monitored

def start : Monitored := ⟨.start, [], []⟩

/-- One event. A round begins where the ping monitor collects its targets. -/
def step (cfg : Config) (m : Monitored) (l : ServerLabel) : Option Monitored :=
  (m.server.step cfg l).map fun v ↦
    match l with
    | .run tid _ =>
      match m.server.threads tid with
      | some ⟨_, _, .pingSleep⟩ => ⟨v, m.server.registry.collectPings.1, []⟩
      | some ⟨fd, _, .pong service⟩ =>
        { m with server := v, answers := (fd, service) :: m.answers }
      | _ => { m with server := v }
    | _ => { m with server := v }

/-- Every ping of the round was answered on its socket, with the name of its service or none. -/
def Answered (m : Monitored) : Prop := ∀ e ∈ m.targets, e ∈ m.answers ∨ (e.1, []) ∈ m.answers

instance (m : Monitored) : Decidable m.Answered := inferInstanceAs (Decidable (∀ e ∈ m.targets, _))

/-- A round begins when every ping of the one before was answered, and pings can be sent. -/
def Lively (m : Monitored) : ServerLabel → Prop
  | .run tid _ => ∀ t ∈ m.server.threads tid, (t.pc matches .pingSleep) = true → m.Answered
  | .sendFail tid => ∀ t ∈ m.server.threads tid, (t.pc matches .sending _ (.pinged ..)) = false
  | _ => True

instance (m : Monitored) : (l : ServerLabel) → Decidable (m.Lively l)
  | .run tid _ => inferInstanceAs (Decidable (∀ t ∈ m.server.threads tid, _))
  | .sendFail tid => inferInstanceAs (Decidable (∀ t ∈ m.server.threads tid, _))
  | .accept .. | .recv .. | .timeout .. | .accepted .. => isTrue trivial

end Monitored

/-! ### What a critical section does with the pings that are counted -/

namespace Registry

/-- Every provider was there before, on the same socket and with as many pings missed. -/
def Carries (r r' : Registry) : Prop :=
  ∀ (service : Bytes) (info' : ProviderInfo), r'.providers[service]? = some info' → ∃ info,
    r.providers[service]? = some info ∧ info'.socketFd = info.socketFd ∧
      info'.missedPongs = info.missedPongs

theorem carries_of_eq {r r' : Registry} (h : r'.providers = r.providers) : r.Carries r' := by
  intro service info' hinfo
  rw [h] at hinfo
  exact ⟨info', hinfo, rfl, rfl⟩

theorem updateProvider_carries (r : Registry) (service : Bytes) {f : ProviderInfo → ProviderInfo}
    (hf : ∀ info, (f info).socketFd = info.socketFd ∧ (f info).missedPongs = info.missedPongs) :
    r.Carries (r.updateProvider service f) := by
  intro service' info' hinfo
  rw [updateProvider, Std.ExtTreeMap.getElem?_modify] at hinfo
  split at hinfo
  · next heq =>
    rw [Std.LawfulEqCmp.eq_of_compare heq] at hinfo
    obtain ⟨info, hold, rfl⟩ := Option.map_eq_some_iff.mp hinfo
    exact ⟨info, hold, hf info⟩
  · exact ⟨info', hinfo, rfl, rfl⟩

theorem updateFirst_carries (r : Registry) (fd : Nat) {f : ProviderInfo → ProviderInfo}
    (hf : ∀ info, (f info).socketFd = info.socketFd ∧ (f info).missedPongs = info.missedPongs) :
    r.Carries (r.updateFirst fd f) := by
  unfold updateFirst
  split
  · exact carries_of_eq rfl
  · next service info hfind =>
    have hget : r.providers[service]? = some info :=
      Std.ExtTreeMap.mem_toList_iff_getElem?_eq_some.mp (List.mem_of_find?_eq_some hfind)
    intro service' info' hinfo
    rw [Std.ExtTreeMap.getElem?_insert] at hinfo
    split at hinfo
    · next heq =>
      rw [← Std.LawfulEqCmp.eq_of_compare heq]
      cases hinfo
      exact ⟨info, hget, hf info⟩
    · exact ⟨info', hinfo, rfl, rfl⟩

theorem eraseProvider_carries (r : Registry) (service : Bytes) :
    r.Carries (r.eraseProvider service) := by
  intro service' info' hinfo
  rw [eraseProvider, Std.ExtTreeMap.getElem?_erase] at hinfo
  split at hinfo
  · cases hinfo
  · exact ⟨info', hinfo, rfl, rfl⟩

theorem removeSocket_carries (r : Registry) (fd : Nat) (note : ProviderHistory → ProviderHistory) :
    r.Carries (r.removeSocket fd note) := by
  intro service' info' hinfo
  rw [removeSocket, Std.ExtTreeMap.getElem?_filter', Option.filter_eq_some_iff] at hinfo
  exact ⟨info', hinfo.1, rfl, rfl⟩

end Registry

/-- A critical section registers a service, counts an answer, counts the pings of a round, or
carries the providers over. -/
inductive PingStep (t : Thread) (now : Int) (r : Registry) : Registry → Prop where
  | register (req : Registry.RegisterRequest) (h : t.pc = .registerInsert req) :
      PingStep t now r (r.register req t.fd t.ip now)
  | pong (service : Bytes) (h : t.pc = .pong service) : PingStep t now r (r.pong service t.fd now)
  | count (round : PingRound) (h : t.pc = .pingCount round) : PingStep t now r
      (round.targets.foldl (fun r (fd, service) ↦
        if round.failed.contains fd then r
        else r.countPing service (4 + (pingText service round.now).length) round.now) r)
  | carry {r' : Registry} (h : r.Carries r') (hpong : ∀ service, t.pc ≠ .pong service)
      (hcount : ∀ round, t.pc ≠ .pingCount round) : PingStep t now r r'

theorem Thread.pingStep {cfg : Config} {tid : Nat} {t : Thread} {now : Int} {r r' : Registry}
    {pc : Pc} (h : t.run cfg tid now r = some (r', pc)) : PingStep t now r r' := by
  unfold Thread.run at h
  cases hpc : t.pc with
  | registerInsert req =>
    simp only [hpc] at h
    cases (Registry.locked_some h).2
    exact .register req hpc
  | pong service =>
    simp only [hpc] at h
    cases (Registry.locked_some h).2
    exact .pong service hpc
  | pingCount round =>
    simp only [hpc] at h
    cases (Registry.locked_some h).2
    exact .count round hpc
  | registerCount service | requestReset req | requestMark service | portUpdate service port
  | sdpStore service sdp answers | providerDisconnected service =>
    simp only [hpc] at h
    cases (Registry.locked_some h).2
    exact .carry (r.updateProvider_carries _ fun _ ↦ ⟨rfl, rfl⟩) (by simp [hpc]) (by simp [hpc])
  | requestLookup service consumerSdp =>
    simp only [hpc] at h
    cases hs : r.providers[service]? with
    | some provider =>
      rw [hs] at h
      cases (Registry.locked_some h).2
      exact .carry (r.updateProvider_carries _ fun _ ↦ ⟨rfl, rfl⟩) (by simp [hpc]) (by simp [hpc])
    | none =>
      rw [hs] at h
      cases (Registry.locked_some h).2
      exact .carry (Registry.carries_of_eq rfl) (by simp [hpc]) (by simp [hpc])
  | account fd bytes next =>
    simp only [hpc] at h
    cases (Registry.locked_some h).2
    exact .carry (r.updateFirst_carries _ fun _ ↦ ⟨rfl, rfl⟩) (by simp [hpc]) (by simp [hpc])
  | requestDropProvider req =>
    simp only [hpc] at h
    cases (Registry.locked_some h).2
    exact .carry (r.eraseProvider_carries _) (by simp [hpc]) (by simp [hpc])
  | notifyDrop failed =>
    simp only [hpc] at h
    cases h
    exact .carry (Registry.carries_of_eq (r.dropSubscribers_entries failed).1) (by simp [hpc])
      (by simp [hpc])
  | leaveRegistry =>
    simp only [hpc] at h
    cases (Registry.locked_some h).2
    exact .carry (r.removeSocket_carries _ _) (by simp [hpc]) (by simp [hpc])
  | pingRemove stale =>
    cases stale with
    | nil =>
      simp only [hpc] at h
      cases h
      exact .carry (Registry.carries_of_eq rfl) (by simp [hpc]) (by simp [hpc])
    | cons fd rest =>
      simp only [hpc] at h
      cases (Registry.locked_some h).2
      exact .carry (r.removeSocket_carries _ _) (by simp [hpc]) (by simp [hpc])
  | _ =>
    -- The other places leave the providers as they are.
    simp only [hpc, Registry.locked, Option.ite_none_right_eq_some, Option.some.injEq,
      reduceCtorEq] at h
    all_goals first
      | (obtain ⟨-, he⟩ := h
         cases he
         exact .carry (Registry.carries_of_eq rfl) (by simp [hpc]) (by simp [hpc]))
      | (cases h
         exact .carry (Registry.carries_of_eq rfl) (by simp [hpc]) (by simp [hpc]))

namespace Registry

variable {r : Registry} {service : Bytes}

/-- A PONG that names the service, or comes on its socket and names none, resets it. The others
reset a service or leave it as it is. -/
theorem getElem?_pong {named : Bytes} {fd : Nat} {now : Int} {info' : ProviderInfo}
    (h : (r.pong named fd now).providers[service]? = some info') : ∃ info,
      r.providers[service]? = some info ∧ info'.socketFd = info.socketFd ∧
        (info'.missedPongs = 0 ∨ info'.missedPongs = info.missedPongs ∧
          (fd, named) ≠ (info.socketFd, service) ∧ (fd, named) ≠ (info.socketFd, [])) := by
  rw [pong, Std.ExtTreeMap.getElem?_map] at h
  generalize hreset : (if named = [] then fd
    else (r.providers[named]?.map ProviderInfo.socketFd).getD fd) = socket at h
  obtain ⟨info, hinfo, rfl⟩ := Option.map_eq_some_iff.mp h
  refine ⟨info, hinfo, by split <;> rfl, ?_⟩
  split
  · exact .inl rfl
  · next hother =>
    refine .inr ⟨rfl, ?_, ?_⟩
    · intro heq
      obtain ⟨rfl, rfl⟩ := Prod.mk.inj heq
      rw [hinfo] at hreset
      exact hother ((ite_self _).symm.trans hreset)
    · intro heq
      obtain ⟨rfl, rfl⟩ := Prod.mk.inj heq
      exact hother ((if_pos rfl).symm.trans hreset)

/-- The pings of a round are counted once for each service. -/
theorem getElem?_countPings {targets : List (Nat × Bytes)} (skip : Nat → Bool)
    (size : Bytes → Nat) (now : Int) (hdistinct : (targets.map Prod.snd).Nodup)
    {info' : ProviderInfo} (h : (targets.foldl (fun r (fd, service) ↦
      if skip fd then r else r.countPing service (size service) now) r).providers[service]? =
        some info') : ∃ info, r.providers[service]? = some info ∧
      info'.socketFd = info.socketFd ∧ info'.missedPongs ≤ info.missedPongs + 1 ∧
        (service ∉ targets.map Prod.snd → info'.missedPongs = info.missedPongs) := by
  induction targets generalizing r with
  | nil => exact ⟨info', h, rfl, Nat.le_succ _, fun _ ↦ rfl⟩
  | cons e targets ih =>
    obtain ⟨fd, named⟩ := e
    rw [List.map_cons, List.nodup_cons] at hdistinct
    obtain ⟨hnew, hdistinct⟩ := hdistinct
    rw [List.foldl_cons] at h
    obtain ⟨info, hinfo, hfd, hle, hsame⟩ := ih hdistinct h
    have hsame' : service ∉ (fd, named).2 :: targets.map Prod.snd →
        info'.missedPongs = info.missedPongs :=
      fun hnot ↦ hsame fun hmem ↦ hnot (List.mem_cons_of_mem _ hmem)
    dsimp only at hinfo
    split at hinfo
    · exact ⟨info, hinfo, hfd, hle, hsame'⟩
    · rw [countPing, updateProvider, Std.ExtTreeMap.getElem?_modify] at hinfo
      split at hinfo
      · next heq =>
        have heq := Std.LawfulEqCmp.eq_of_compare heq
        subst heq
        obtain ⟨old, hold, rfl⟩ := Option.map_eq_some_iff.mp hinfo
        exact ⟨old, hold, hfd, (hsame hnew).le, fun hnot ↦ absurd List.mem_cons_self hnot⟩
      · exact ⟨info, hinfo, hfd, hle, hsame'⟩

private theorem foldl_collect (es : List (Bytes × ProviderInfo)) (targets : List (Nat × Bytes))
    (h : ∀ e ∈ es, e.2.missedPongs < maxMissedPongs) :
    es.foldl (fun ((targets, stale) : List (Nat × Bytes) × Std.ExtTreeSet Nat) (service, info) ↦
      if stale.contains info.socketFd then (targets, stale)
      else if maxMissedPongs ≤ info.missedPongs then (targets, stale.insert info.socketFd)
      else (targets ++ [(info.socketFd, service)], stale)) (targets, ∅) =
        (targets ++ es.map fun e ↦ (e.2.socketFd, e.1), ∅) := by
  induction es generalizing targets with
  | nil => simp
  | cons e es ih =>
    have he := h e List.mem_cons_self
    rw [List.foldl_cons, List.map_cons]
    dsimp only
    rw [Std.ExtTreeSet.contains_empty, if_neg Bool.false_ne_true, if_neg (Nat.not_le.mpr he),
      ih _ fun e' he' ↦ h e' (List.mem_cons_of_mem _ he'), List.append_assoc]
    rfl

/-- When no provider has missed too many pings, all of them are pinged and no socket is stale. -/
theorem collectPings_eq (h : ∀ (service : Bytes) (info : ProviderInfo),
    r.providers[service]? = some info → info.missedPongs < maxMissedPongs) :
    r.collectPings = (r.providers.toList.map fun e ↦ (e.2.socketFd, e.1), ∅) := by
  apply foldl_collect
  intro e he
  exact h e.1 e.2 (Std.ExtTreeMap.mem_toList_iff_getElem?_eq_some.mp he)

/-- No service is pinged twice. -/
theorem nodup_collectPings (h : ∀ (service : Bytes) (info : ProviderInfo),
    r.providers[service]? = some info → info.missedPongs < maxMissedPongs) :
    (r.collectPings.1.map Prod.snd).Nodup := by
  rw [collectPings_eq h, List.map_map, List.Nodup, List.pairwise_map]
  apply Std.ExtTreeMap.distinct_keys_toList.imp
  intro e e' hne heq
  exact hne (Std.LawfulEqCmp.compare_eq_iff_eq.mpr heq)

end Registry

/-! ### Who takes a step -/

theorem EntryStep.pings {cfg : Config} {t : Thread} {now : Int} {r r' : Registry} {pc : Pc}
    (h : EntryStep cfg t now r r' pc) : pc.pings = t.pc.pings := by
  cases h with
  | leaveSubscribers h | leaveSrt h | leaveRegistry h | close h =>
    rw [h]
    rfl
  | _ => exact Pc.GoesOn.pings ‹_›

section Threads

variable {cfg : Config} {w v : Server} {l : ServerLabel}

theorem Server.threads_put (w : Server) (tid : Nat) (t : Thread) (pc : Pc) :
    (w.put tid t pc).threads tid = some { t with pc } :=
  Function.update_self ..

/-- Only the first thread pings. -/
def Server.OneMonitor (w : Server) : Prop :=
  ∀ tid t, w.threads tid = some t → tid ≠ 0 → t.pc.pings = false

theorem Server.oneMonitor_of_step (h : w.step cfg l = some v) (hw : w.OneMonitor) :
    v.OneMonitor := by
  have hupdate : ∀ {tid : Nat} {t : Thread} {pc : Pc}, w.threads tid = some t →
      pc.pings = t.pc.pings → v.threads = Function.update w.threads tid (some { t with pc }) →
        v.OneMonitor := by
    intro tid t pc ht hpings hthr tid' t' ht' hne
    rw [hthr] at ht'
    by_cases heq : tid' = tid
    · subst heq
      rw [Function.update_self] at ht'
      cases ht'
      exact hpings.trans (hw _ t ht hne)
    · rw [Function.update_of_ne heq] at ht'
      exact hw tid' t' ht' hne
  cases Server.move_of_step h with
  | accept fd ip hfd hr hthr hs =>
    intro tid t ht hne
    rw [hthr] at ht
    by_cases heq : tid = w.spawned
    · rw [heq, Function.update_self] at ht
      cases ht
      rfl
    · rw [Function.update_of_ne heq] at ht
      exact hw tid t ht hne
  | run tid now t pc ht hstep hsend hthr hs => exact hupdate ht hstep.pings hthr
  | goOn tid t pc ht hwaits hr hpc hdrop hl hthr hs => exact hupdate ht hpc.pings hthr
  | crash tid now t ht hwaits hr hthr hs =>
    intro tid' t' ht'
    rw [hthr] at ht'
    exact hw tid' t' ht'

/-- The steps of others leave a thread where it is. -/
theorem Server.thread_of_step {t : Thread} {tid : Nat} (h : w.step cfg l = some v)
    (hw : w.Numbered) (ht : w.threads tid = some t) (hl : l.tid ≠ some tid) :
    v.threads tid = some t := by
  cases Server.move_of_step h with
  | accept fd ip hfd hr hthr hs =>
    have hlt := hw.lt ht
    rw [hthr, Function.update_of_ne (by omega), ht]
  | run tid' now t' pc ht' hstep hsend hthr hs =>
    have hne : tid ≠ tid' := fun heq ↦ hl (congrArg some heq.symm)
    rw [hthr, Function.update_of_ne hne, ht]
  | goOn tid' t' pc ht' hwaits hr hpc hdrop hl' hthr hs =>
    have hne : tid ≠ tid' := fun heq ↦ hl (heq ▸ hl')
    rw [hthr, Function.update_of_ne hne, ht]
  | crash tid' now t' ht' hwaits hr hthr hs => rw [hthr, ht]

/-- A step runs the critical section of a thread, or carries the providers over. -/
theorem Server.pingStep_of_step (h : w.step cfg l = some v) :
    (∃ tid now t, l = .run tid now ∧ w.threads tid = some t ∧
        PingStep t now w.registry v.registry) ∨
      w.registry.Carries v.registry ∧ ∀ tid now t, l = .run tid now → w.threads tid = some t →
        ∃ msg answers, t.pc = .received msg answers := by
  cases l with
  | accept fd ip =>
    obtain ⟨-, rfl⟩ := Server.step_accept h
    exact .inr ⟨Registry.carries_of_eq rfl, fun _ _ _ hl ↦ by cases hl⟩
  | recv tid stream answers =>
    obtain ⟨t, -, -, rfl⟩ := Server.step_recv h
    exact .inr ⟨Registry.carries_of_eq rfl, fun _ _ _ hl ↦ by cases hl⟩
  | run tid now =>
    obtain ⟨t, ht, ⟨msg, answers, hpc, -, hcases⟩ | ⟨-, r, pc, hrun, rfl⟩⟩ := Server.step_run h
    · right
      constructor
      · rcases hcases with ⟨e, -, rfl⟩ | ⟨pc, -, rfl⟩ <;>
          exact w.registry.updateFirst_carries _ fun _ ↦ ⟨rfl, rfl⟩
      · intro tid' now' t' hl ht'
        cases hl
        cases ht.symm.trans ht'
        exact ⟨msg, answers, hpc⟩
    · exact .inl ⟨tid, now, t, rfl, ht, Thread.pingStep hrun⟩
  | timeout tid =>
    obtain ⟨t, req, slot, -, -, -, rfl⟩ := Server.step_timeout h
    exact .inr ⟨Registry.carries_of_eq rfl, fun _ _ _ hl ↦ by cases hl⟩
  | accepted tid n =>
    obtain ⟨t, out, next, -, -, -, rfl⟩ := Server.step_accepted h
    have hsame := Server.advance_same cfg (w.emit out.fd (((frame out.msg).drop out.sent).take n))
      tid t out next (if next.raw then out.callEnd else out.sent + n)
    exact .inr ⟨Registry.carries_of_eq (congrArg Registry.providers hsame.1),
      fun _ _ _ hl ↦ by cases hl⟩
  | sendFail tid =>
    obtain ⟨t, out, next, -, -, rfl⟩ := Server.step_sendFail h
    refine .inr ⟨Registry.carries_of_eq ?_, fun _ _ _ hl ↦ by cases hl⟩
    split
    · exact congrArg Registry.providers (Server.advance_same cfg w tid t out next _).1
    · rfl

end Threads

/-! ### The ping monitor -/

/-- A round with all its pings, none of which failed. -/
structure PingRound.Clean (targets : List (Nat × Bytes)) (round : PingRound) : Prop where
  targets : round.targets = targets
  failed : round.failed = []
  stale : round.stale = ∅

/-- The ping monitor sleeps, or is in a round to which nothing has happened. -/
inductive Pc.InRound (targets : List (Nat × Bytes)) : Pc → Prop where
  | sleep : InRound targets .pingSleep
  | send (out : Outgoing) (rest : List (Nat × Bytes)) (round : PingRound)
      (h : round.Clean targets) : InRound targets (.sending out (.pinged rest round))
  | count (round : PingRound) (h : round.Clean targets) : InRound targets (.pingCount round)

/-- Behind the count the ping monitor sleeps: the pings of the last round are counted. -/
def Pc.counted : Pc → Nat
  | .pingSleep => 1
  | _ => 0

theorem inRound_pingNext {targets rest : List (Nat × Bytes)} {round : PingRound}
    (h : round.Clean targets) : (pingNext rest round).InRound targets ∧
      (pingNext rest round).counted = 0 := by
  cases rest with
  | nil => exact ⟨.count round h, rfl⟩
  | cons e rest => exact ⟨.send _ rest round h, rfl⟩

/-- Nothing is stale behind a clean round. -/
theorem PingRound.Clean.sleeps {targets : List (Nat × Bytes)} {round : PingRound}
    (h : round.Clean targets) :
    pingRemoveNext ((round.targets.foldl (fun (stale : Std.ExtTreeSet Nat) (fd, _) ↦
      if round.failed.contains fd then stale.insert fd else stale) round.stale).toList) =
        .pingSleep := by
  have hfold : ∀ es : List (Nat × Bytes), es.foldl (fun (stale : Std.ExtTreeSet Nat) (fd, _) ↦
      if round.failed.contains fd then stale.insert fd else stale) ∅ = ∅ := by
    intro es
    induction es with
    | nil => rfl
    | cons e es ih =>
      rw [List.foldl_cons]
      dsimp only
      rw [h.failed, List.contains_nil, if_neg Bool.false_ne_true, ← h.failed, ih]
  rw [h.stale, hfold, pingRemoveNext, if_pos (by simp)]

section Monitor

variable {cfg : Config} {w v : Server} {l : ServerLabel} {t : Thread}
  {targets : List (Nat × Bytes)}

/-- The ping monitor collects its targets, counts its pings, or sends. -/
inductive MonitorMove (w : Server) (t : Thread) (targets : List (Nat × Bytes)) :
    ServerLabel → Server → Pc → Prop where
  | collect (now : Int) {v : Server} (h : t.pc = .pingSleep) (hr : v.registry = w.registry) :
      MonitorMove w t targets (.run 0 now) v (pingNext w.registry.collectPings.1
        ⟨now, w.registry.collectPings.1, [], w.registry.collectPings.2⟩)
  | count (now : Int) (round : PingRound) {v : Server} (h : t.pc = .pingCount round)
      (hr : v.registry = round.targets.foldl (fun r (fd, service) ↦
        if round.failed.contains fd then r
        else r.countPing service (4 + (pingText service round.now).length) round.now) w.registry) :
      MonitorMove w t targets (.run 0 now) v .pingSleep
  | send (n : Nat) {v : Server} {pc : Pc} (h : t.pc.counted = 0) (hpc : pc.InRound targets)
      (hcounted : pc.counted = 0) (hr : v.registry = w.registry) :
      MonitorMove w t targets (.accepted 0 n) v pc

theorem Server.monitor_of_step (h : w.step cfg l = some v) (ht : w.threads 0 = some t)
    (hround : t.pc.InRound targets) (hl : l.tid = some 0)
    (hfail : ∀ out rest round, l = .sendFail 0 → t.pc ≠ .sending out (.pinged rest round)) :
    ∃ pc, v.threads 0 = some { t with pc } ∧ MonitorMove w t targets l v pc := by
  cases l with
  | accept fd ip => cases hl
  | recv tid stream answers =>
    cases hl
    obtain ⟨u, hu, hpc, -⟩ := Server.step_recv h
    cases ht.symm.trans hu
    rw [hpc] at hround
    cases hround
  | timeout tid =>
    cases hl
    obtain ⟨u, req, slot, hu, hpc, -⟩ := Server.step_timeout h
    cases ht.symm.trans hu
    rw [hpc] at hround
    cases hround
  | run tid now =>
    cases hl
    have hreceived : ∀ msg answers, t.pc ≠ .received msg answers := by
      intro msg answers hpc
      rw [hpc] at hround
      cases hround
    obtain ⟨r, pc, hrun, rfl⟩ := Server.step_run_of_thread h ht hreceived
    refine ⟨pc, w.threads_put 0 t pc, ?_⟩
    unfold Thread.run at hrun
    cases hpc : t.pc with
    | pingSleep =>
      simp only [hpc] at hrun
      cases (Registry.locked_some hrun).2
      exact .collect now hpc rfl
    | pingCount round =>
      simp only [hpc] at hrun
      rw [hpc] at hround
      cases hround with
      | count _ hclean =>
        rw [hclean.sleeps] at hrun
        cases (Registry.locked_some hrun).2
        exact .count now round hpc rfl
    | sending out next =>
      simp only [hpc] at hrun
      cases hrun
    | _ =>
      rw [hpc] at hround
      cases hround
  | accepted tid n =>
    cases hl
    obtain ⟨u, out, next, hu, hpc, -, rfl⟩ := Server.step_accepted h
    cases ht.symm.trans hu
    rw [hpc] at hround
    cases hround with
    | send _ rest round hclean =>
      have hcounted : t.pc.counted = 0 := by
        rw [hpc]
        rfl
      have hnext : (pingNext rest round).InRound targets ∧ (pingNext rest round).counted = 0 :=
        inRound_pingNext hclean
      rw [show (Then.pinged rest round).raw = false from rfl, if_neg Bool.false_ne_true,
        Server.advance]
      split
      · exact ⟨_, w.threads_put 0 t _, .send n hcounted hnext.1 hnext.2 rfl⟩
      · exact ⟨_, w.threads_put 0 t _,
          .send n hcounted (.send _ rest round hclean) rfl rfl⟩
  | sendFail tid =>
    cases hl
    obtain ⟨u, out, next, hu, hpc, -⟩ := Server.step_sendFail h
    cases ht.symm.trans hu
    rw [hpc] at hround
    cases hround with
    | send _ rest round hclean => exact absurd hpc (hfail out rest round rfl)

end Monitor

/-! ### The invariant -/

namespace Monitored

variable {cfg : Config} {m n : Monitored} {l : ServerLabel}

/-- What becomes of the pings and the answers. -/
theorem step_cases (h : m.step cfg l = some n) : m.server.step cfg l = some n.server ∧
    ((∃ tid now t, l = .run tid now ∧ m.server.threads tid = some t ∧ t.pc = .pingSleep ∧
        n.targets = m.server.registry.collectPings.1 ∧ n.answers = []) ∨
      (∃ tid now t service, l = .run tid now ∧ m.server.threads tid = some t ∧
        t.pc = .pong service ∧ n.targets = m.targets ∧
        n.answers = (t.fd, service) :: m.answers) ∨
      (∀ tid now t, l = .run tid now → m.server.threads tid = some t →
        t.pc ≠ .pingSleep ∧ ∀ service, t.pc ≠ .pong service) ∧
        n.targets = m.targets ∧ n.answers = m.answers) := by
  obtain ⟨v, hv, hn⟩ := Option.map_eq_some_iff.mp h
  cases l with
  | run tid now =>
    dsimp only at hn
    split at hn
    · next fd ip ht =>
      subst hn
      exact ⟨hv, .inl ⟨tid, now, _, rfl, ht, rfl, rfl, rfl⟩⟩
    · next fd ip service ht =>
      subst hn
      exact ⟨hv, .inr (.inl ⟨tid, now, _, service, rfl, ht, rfl, rfl, rfl⟩)⟩
    · next hsleep hpong =>
      subst hn
      refine ⟨hv, .inr (.inr ⟨?_, rfl, rfl⟩)⟩
      intro tid' now' t hl ht
      cases hl
      refine ⟨fun hpc ↦ hsleep t.fd t.ip ?_, fun service hpc ↦ hpong t.fd t.ip service ?_⟩
      · rw [ht, ← hpc]
      · rw [ht, ← hpc]
  | _ =>
    subst hn
    refine ⟨hv, .inr (.inr ⟨?_, rfl, rfl⟩)⟩
    intro tid now t hl
    cases hl

/-- A provider has missed no ping beyond the ones counted in this round, or one more, and it has
not answered its ping of this round yet. -/
def Due (m : Monitored) (counted : Nat) (service : Bytes) (info : ProviderInfo) : Prop :=
  info.missedPongs ≤ counted ∨ info.missedPongs ≤ counted + 1 ∧
    (info.socketFd, service) ∈ m.targets ∧ (info.socketFd, service) ∉ m.answers ∧
      (info.socketFd, []) ∉ m.answers

/-- Each service is pinged once a round, by the first thread only, and each provider has missed at
most the last two pings. -/
structure Inv (m : Monitored) : Prop where
  numbered : m.server.Numbered
  others : m.server.OneMonitor
  distinct : (m.targets.map Prod.snd).Nodup
  monitor : ∃ t, m.server.threads 0 = some t ∧ t.pc.InRound m.targets ∧
    ∀ service info, m.server.registry.providers[service]? = some info →
      m.Due t.pc.counted service info

theorem inv_start : start.Inv where
  numbered := Server.numbered_start
  others tid t ht hne := by
    simp [start, Server.start, hne] at ht
  distinct := List.nodup_nil
  monitor := by
    refine ⟨⟨0, [], .pingSleep⟩, rfl, .sleep, ?_⟩
    intro service info hinfo
    rw [start, Server.start, Registry.start, Std.ExtTreeMap.getElem?_empty] at hinfo
    cases hinfo

/-- When all pings of the round were answered, nobody has missed more than one. -/
theorem Inv.missed_le_one (hm : m.Inv) (hanswered : m.Answered) {service : Bytes}
    {info : ProviderInfo} (hinfo : m.server.registry.providers[service]? = some info) :
    info.missedPongs ≤ 1 := by
  obtain ⟨t, -, -, hdue⟩ := hm.monitor
  have hcounted : t.pc.counted ≤ 1 := by
    unfold Pc.counted
    split <;> decide
  rcases hdue service info hinfo with hle | ⟨-, htarget, hown, hany⟩
  · exact Nat.le_trans hle hcounted
  · exact absurd (hanswered _ htarget) (not_or.mpr ⟨hown, hany⟩)

/-- Nobody has missed more than two. -/
theorem Inv.missed_le_two (hm : m.Inv) {service : Bytes} {info : ProviderInfo}
    (hinfo : m.server.registry.providers[service]? = some info) : info.missedPongs ≤ 2 := by
  obtain ⟨t, -, -, hdue⟩ := hm.monitor
  have hcounted : t.pc.counted ≤ 1 := by
    unfold Pc.counted
    split <;> decide
  rcases hdue service info hinfo with hle | ⟨hle, -⟩
  · omega
  · omega

/-- The ping monitor removes nobody. -/
theorem Inv.not_removes (hm : m.Inv) {tid : Nat} {t : Thread}
    (ht : m.server.threads tid = some t) (fd : Nat) (rest : List Nat) :
    t.pc ≠ .pingRemove (fd :: rest) := by
  intro hpc
  by_cases htid : tid = 0
  · obtain ⟨u, hu, hround, -⟩ := hm.monitor
    rw [htid] at ht
    cases ht.symm.trans hu
    rw [hpc] at hround
    cases hround
  · have hpings := hm.others tid t ht htid
    rw [hpc] at hpings
    cases hpings

/-- A handler's step keeps what is known of the providers: a service that registers has missed no
ping, and an answer that leaves a service as it is answers no ping of it. -/
theorem due_of_handler {counted : Nat} {now : Int} {t : Thread}
    (hstep : PingStep t now m.server.registry n.server.registry) (hpings : t.pc.pings = false)
    (htargets : n.targets = m.targets)
    (hanswers : (∀ service, t.pc ≠ .pong service) ∧ n.answers = m.answers ∨
      ∃ service, t.pc = .pong service ∧ n.answers = (t.fd, service) :: m.answers)
    (hdue : ∀ service info, m.server.registry.providers[service]? = some info →
      m.Due counted service info) (service : Bytes) (info' : ProviderInfo)
    (hinfo' : n.server.registry.providers[service]? = some info') :
    n.Due counted service info' := by
  generalize hr : n.server.registry = r' at hstep hinfo'
  cases hstep with
  | register req hpc =>
    rw [Registry.register, Std.ExtTreeMap.getElem?_insert] at hinfo'
    split at hinfo'
    · cases hinfo'
      exact .inl (Nat.zero_le _)
    · rcases hanswers with ⟨-, hsame⟩ | ⟨named, hpong, -⟩
      · rw [Due, htargets, hsame]
        exact hdue service info' hinfo'
      · rw [hpc] at hpong
        cases hpong
  | pong named hpc =>
    obtain ⟨info, hinfo, hfd, hmissed⟩ := Registry.getElem?_pong hinfo'
    rcases hanswers with ⟨hpong, -⟩ | ⟨named', hpong, hmore⟩
    · exact absurd hpc (hpong named)
    · rw [hpc] at hpong
      cases hpong
      rcases hmissed with hzero | ⟨hsame, hown, hany⟩
      · exact .inl (hzero ▸ Nat.zero_le _)
      · rw [Due, htargets, hmore, hfd, hsame]
        apply (hdue service info hinfo).imp_right
        rintro ⟨hle, htarget, hnot, hnotAny⟩
        refine ⟨hle, htarget, ?_, ?_⟩
        · exact List.not_mem_cons_of_ne_of_not_mem hown.symm hnot
        · exact List.not_mem_cons_of_ne_of_not_mem hany.symm hnotAny
  | count round hpc =>
    rw [hpc] at hpings
    cases hpings
  | carry hcarries hpong =>
    obtain ⟨info, hinfo, hfd, hmissed⟩ := hcarries service info' hinfo'
    rcases hanswers with ⟨-, hsame⟩ | ⟨named, hnamed, -⟩
    · rw [Due, htargets, hsame, hfd, hmissed]
      exact hdue service info hinfo
    · exact absurd hnamed (hpong named)

/-- A step of a thread that is not the ping monitor begins no round. -/
theorem due_of_other (hm : m.Inv) (h : m.step cfg l = some n) (hl : l.tid ≠ some 0)
    {counted : Nat} (hdue : ∀ service info, m.server.registry.providers[service]? = some info →
      m.Due counted service info) :
    n.targets = m.targets ∧ ∀ service info, n.server.registry.providers[service]? = some info →
      n.Due counted service info := by
  obtain ⟨hstep, hcases⟩ := step_cases h
  rcases Server.pingStep_of_step hstep with ⟨tid, now, t, rfl, ht, hping⟩ | ⟨hcarries, hreceived⟩
  · have hpings := hm.others tid t ht fun heq ↦ hl (congrArg some heq)
    rcases hcases with ⟨tid', now', t', hl', ht', hpc, -⟩ |
      ⟨tid', now', t', service, hl', ht', hpc, htargets, hmore⟩ | ⟨hnot, htargets, hsame⟩
    · cases hl'
      cases ht.symm.trans ht'
      rw [hpc] at hpings
      cases hpings
    · cases hl'
      cases ht.symm.trans ht'
      exact ⟨htargets, due_of_handler hping hpings htargets (.inr ⟨service, hpc, hmore⟩) hdue⟩
    · exact ⟨htargets,
        due_of_handler hping hpings htargets (.inl ⟨(hnot tid now t rfl ht).2, hsame⟩) hdue⟩
  · rcases hcases with ⟨tid, now, t, hl', ht, hpc, -⟩ | ⟨tid, now, t, service, hl', ht, hpc, -⟩ |
      ⟨-, htargets, hsame⟩
    · obtain ⟨msg, answers, hreceived⟩ := hreceived tid now t hl' ht
      rw [hpc] at hreceived
      cases hreceived
    · obtain ⟨msg, answers, hreceived⟩ := hreceived tid now t hl' ht
      rw [hpc] at hreceived
      cases hreceived
    · refine ⟨htargets, ?_⟩
      intro service info' hinfo'
      obtain ⟨info, hinfo, hfd, hmissed⟩ := hcarries service info' hinfo'
      rw [Due, htargets, hsame, hfd, hmissed]
      exact hdue service info hinfo

/-- The ping monitor begins a round with everybody, counts each ping once, or sends. -/
theorem inv_of_monitor (hm : m.Inv) (hlively : m.Lively l) (h : m.step cfg l = some n)
    (hl : l.tid = some 0) : (n.targets.map Prod.snd).Nodup ∧
      ∃ t, n.server.threads 0 = some t ∧ t.pc.InRound n.targets ∧
        ∀ service info, n.server.registry.providers[service]? = some info →
          n.Due t.pc.counted service info := by
  obtain ⟨hstep, hcases⟩ := step_cases h
  obtain ⟨t, ht, hround, hdue⟩ := hm.monitor
  have hfail : ∀ out rest round, l = .sendFail 0 → t.pc ≠ .sending out (.pinged rest round) := by
    rintro out rest round rfl hpc
    have hping := hlively t ht
    rw [hpc] at hping
    cases hping
  obtain ⟨pc, hthread, hmove⟩ := Server.monitor_of_step hstep ht hround hl hfail
  cases hmove with
  | collect now hpc hr =>
    obtain ⟨htargets, hanswers⟩ :
        n.targets = m.server.registry.collectPings.1 ∧ n.answers = [] := by
      rcases hcases with ⟨-, -, -, -, -, -, hnew⟩ |
        ⟨tid, now', t', service, hl', ht', hpong, -⟩ | ⟨hnot, -⟩
      · exact hnew
      · cases hl'
        cases ht.symm.trans ht'
        rw [hpc] at hpong
        cases hpong
      · exact absurd hpc (hnot 0 now t rfl ht).1
    have hmissed : ∀ (service : Bytes) (info : ProviderInfo),
        m.server.registry.providers[service]? = some info → info.missedPongs ≤ 1 :=
      fun _ _ ↦ hm.missed_le_one (hlively t ht (by rw [hpc]))
    have hfew : ∀ (service : Bytes) (info : ProviderInfo),
        m.server.registry.providers[service]? = some info → info.missedPongs < maxMissedPongs :=
      fun service info hinfo ↦ Nat.lt_of_le_of_lt (hmissed service info hinfo) (by decide)
    have hcollect := Registry.collectPings_eq hfew
    have hclean : PingRound.Clean n.targets ⟨now, m.server.registry.collectPings.1, [],
        m.server.registry.collectPings.2⟩ := ⟨htargets.symm, rfl, by rw [hcollect]⟩
    constructor
    · rw [htargets]
      exact Registry.nodup_collectPings hfew
    · have hround' : (pingNext m.server.registry.collectPings.1 ⟨now,
          m.server.registry.collectPings.1, [], m.server.registry.collectPings.2⟩).InRound
            n.targets :=
        (inRound_pingNext hclean).1
      refine ⟨_, hthread, hround', ?_⟩
      intro service info hinfo
      rw [hr] at hinfo
      refine .inr ⟨?_, ?_, ?_, ?_⟩
      · exact Nat.le_trans (hmissed service info hinfo) (Nat.le_add_left 1 _)
      · rw [htargets, hcollect]
        exact List.mem_map.mpr
          ⟨(service, info), Std.ExtTreeMap.mem_toList_iff_getElem?_eq_some.mpr hinfo, rfl⟩
      · rw [hanswers]
        exact List.not_mem_nil
      · rw [hanswers]
        exact List.not_mem_nil
  | count now round hpc hr =>
    obtain ⟨htargets, hanswers⟩ : n.targets = m.targets ∧ n.answers = m.answers := by
      rcases hcases with ⟨tid, now', t', hl', ht', hsleep, -⟩ |
        ⟨tid, now', t', service, hl', ht', hpong, -⟩ | ⟨-, hsame⟩
      · cases hl'
        cases ht.symm.trans ht'
        rw [hpc] at hsleep
        cases hsleep
      · cases hl'
        cases ht.symm.trans ht'
        rw [hpc] at hpong
        cases hpong
      · exact hsame
    have hclean : round.Clean m.targets := by
      rw [hpc] at hround
      cases hround with
      | count _ hclean => exact hclean
    rw [htargets]
    refine ⟨hm.distinct, _, hthread, .sleep, ?_⟩
    intro service info' hinfo'
    rw [hr] at hinfo'
    obtain ⟨info, hinfo, hfd, hle, -⟩ := Registry.getElem?_countPings round.failed.contains
      (fun service ↦ 4 + (pingText service round.now).length) round.now
      (hclean.targets ▸ hm.distinct) hinfo'
    rw [hpc] at hdue
    rw [Due, htargets, hanswers, hfd]
    rcases hdue service info hinfo with hzero | ⟨hone, hunanswered⟩
    · exact .inl (Nat.le_trans hle (Nat.succ_le_succ hzero))
    · exact .inr ⟨Nat.le_trans hle (Nat.succ_le_succ hone), hunanswered⟩
  | send k hcounted hpc hcounted' hr =>
    rcases hcases with ⟨tid, now, t', hl', -⟩ | ⟨tid, now, t', service, hl', -⟩ |
      ⟨-, htargets, hanswers⟩
    · cases hl'
    · cases hl'
    · rw [htargets]
      refine ⟨hm.distinct, _, hthread, hpc, ?_⟩
      rw [hr, hcounted', ← hcounted]
      intro service info hinfo
      rw [Due, htargets, hanswers]
      exact hdue service info hinfo

/-- Every step of a lively run keeps the invariant. -/
theorem inv_of_step (hm : m.Inv) (hlively : m.Lively l) (h : m.step cfg l = some n) : n.Inv := by
  have hstep := (step_cases h).1
  have hnumbered := (Server.move_of_step hstep).numbered hm.numbered
  have hothers := Server.oneMonitor_of_step hstep hm.others
  by_cases hl : l.tid = some 0
  · obtain ⟨hdistinct, hmonitor⟩ := inv_of_monitor hm hlively h hl
    exact ⟨hnumbered, hothers, hdistinct, hmonitor⟩
  · obtain ⟨t, ht, hround, hdue⟩ := hm.monitor
    obtain ⟨htargets, hdue'⟩ := due_of_other hm h hl hdue
    refine ⟨hnumbered, hothers, htargets ▸ hm.distinct, t, ?_, htargets ▸ hround, hdue'⟩
    exact Server.thread_of_step hstep hm.numbered ht hl

/-- The server does what it does without being watched. -/
theorem server_of_run (cfg : Config) (ls : List ServerLabel) :
    (run (Monitored.step cfg) .start ls).map server = run (Server.step cfg) .start ls := by
  refine run_map (Monitored.step cfg) ?_ .start ls
  intro m l
  cases h : m.step cfg l with
  | none => exact (Option.map_eq_none_iff.mp h).symm
  | some n => exact (step_cases h).1.symm

end Monitored

/-- In every run of the server in which pings can be sent, and each round begins when all pings of
the one before were answered, nobody has missed more than one ping where a round can begin, nor
more than two at any time, and the ping monitor never removes anybody. -/
theorem never_stale {cfg : Config} {ls : List ServerLabel} {m : Monitored}
    (hlively : Always (Monitored.step cfg) Monitored.Lively .start ls)
    (hr : run (Monitored.step cfg) .start ls = some m) :
    (m.Answered → ∀ (service : Bytes) (info : ProviderInfo),
        m.server.registry.providers[service]? = some info → info.missedPongs ≤ 1) ∧
      (∀ (service : Bytes) (info : ProviderInfo),
        m.server.registry.providers[service]? = some info → info.missedPongs ≤ 2) ∧
      ∀ tid t fd rest, m.server.threads tid = some t → t.pc ≠ .pingRemove (fd :: rest) := by
  have hm : m.Inv := invariant_run _ (fun _ _ _ hl hs ht ↦ Monitored.inv_of_step hs hl ht) hlively
    Monitored.inv_start hr
  refine ⟨?_, ?_, ?_⟩
  · exact fun hanswered _ _ hinfo ↦ hm.missed_le_one hanswered hinfo
  · exact fun _ _ hinfo ↦ hm.missed_le_two hinfo
  · exact fun _ _ fd rest ht ↦ hm.not_removes ht fd rest

/-- A camera registers, and its PONG is processed before the ping monitor has counted its PING;
then the next round begins. -/
def pingedOnce : List ServerLabel :=
  [.accept 4 (lit "10.0.0.2"), .run 1 0,
    .recv 1 (frame (lit "type=REGISTER\nservice_id=cam\np2p_port=8554\n")) none, .run 1 0, .run 1 0,
    .run 1 0, .accepted 1 4, .accepted 1 26, .run 1 0, .run 1 0, .run 1 0, .run 0 10, .accepted 0 4,
    .accepted 0 38, .recv 1 (frame (lit "type=PONG\nservice_id=cam\n")) none, .run 1 11, .run 1 11,
    .run 0 12, .run 0 40]

theorem never_stale_pingedOnce : ∃ m, run (Monitored.step .unset) .start pingedOnce = some m ∧
    ∀ (service : Bytes) (info : ProviderInfo),
      m.server.registry.providers[service]? = some info → info.missedPongs ≤ 2 := by
  have hsome : (run (Monitored.step .unset) .start pingedOnce).isSome = true := by decide +kernel
  obtain ⟨m, hr⟩ := Option.isSome_iff_exists.mp hsome
  exact ⟨m, hr, (never_stale (by decide +kernel) hr).2.1⟩

end Kitty.Signal
