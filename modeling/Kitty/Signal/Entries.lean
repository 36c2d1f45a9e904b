import Kitty.Signal.Server

/-!
# Who is registered, and on which socket

The server finds registrations by service and drops them by descriptor. Here is what one
critical section can do to the three registries, the history and the open descriptors; the
counters and texts of the entries are left out.
-/

namespace Kitty.Signal

open Kitty.Base
open Registry

/-- The descriptor a provider is registered with. -/
def Registry.providerFd (r : Registry) (service : Bytes) : Option Nat :=
  (r.providers[service]?).map ProviderInfo.socketFd

/-- The descriptor an SRT camera is registered with. -/
def Registry.srtFd (r : Registry) (service : Bytes) : Option Nat :=
  (r.srtProviders[service]?).map SrtProviderInfo.socketFd

/-- Nobody is registered or dropped from one state to another. -/
structure Registry.SameEntries (r r' : Registry) : Prop where
  providers : ∀ service, r'.providerFd service = r.providerFd service
  size : r'.providers.size = r.providers.size
  history : r'.providerHistory = r.providerHistory
  srt : ∀ service, r'.srtFd service = r.srtFd service
  subscribers : r'.subscriberSockets = r.subscriberSockets
  openFds : r'.openFds = r.openFds

theorem Registry.SameEntries.refl (r : Registry) : r.SameEntries r :=
  ⟨fun _ ↦ rfl, rfl, rfl, fun _ ↦ rfl, rfl, rfl⟩

theorem Registry.SameEntries.trans {r r' r'' : Registry} (h : r.SameEntries r')
    (h' : r'.SameEntries r'') : r.SameEntries r'' where
  providers service := (h'.providers service).trans (h.providers service)
  size := h'.size.trans h.size
  history := h'.history.trans h.history
  srt service := (h'.srt service).trans (h.srt service)
  subscribers := h'.subscribers.trans h.subscribers
  openFds := h'.openFds.trans h.openFds

theorem Registry.updateProvider_sameEntries (r : Registry) (service : Bytes)
    {f : ProviderInfo → ProviderInfo} (hf : ∀ info, (f info).socketFd = info.socketFd) :
    r.SameEntries (r.updateProvider service f) where
  providers service' := by
    unfold providerFd updateProvider
    rw [Std.ExtTreeMap.getElem?_modify]
    split
    · next he =>
      rw [Std.LawfulEqCmp.eq_of_compare he, Option.map_map]
      exact congrArg (Option.map · _) (funext hf)
    · rfl
  size := Std.ExtTreeMap.size_modify
  history := rfl
  srt _ := rfl
  subscribers := rfl
  openFds := rfl

theorem Registry.updateFirst_sameEntries (r : Registry) (fd : Nat)
    {f : ProviderInfo → ProviderInfo} (hf : ∀ info, (f info).socketFd = info.socketFd) :
    r.SameEntries (r.updateFirst fd f) := by
  unfold updateFirst
  split
  · exact .refl r
  · next service info hfind =>
    have hget : r.providers[service]? = some info :=
      Std.ExtTreeMap.mem_toList_iff_getElem?_eq_some.mp (List.mem_of_find?_eq_some hfind)
    refine ⟨?_, ?_, rfl, fun _ ↦ rfl, rfl, rfl⟩
    · intro service'
      unfold providerFd
      rw [Std.ExtTreeMap.getElem?_insert]
      split
      · next he =>
        rw [← Std.LawfulEqCmp.eq_of_compare he, hget]
        exact congrArg some (hf info)
      · rfl
    · have hin : r.providers.contains service = true := by
        rw [Std.ExtTreeMap.contains_eq_isSome_getElem?, hget]
        rfl
      exact Std.ExtTreeMap.size_insert.trans (if_pos hin)

theorem Registry.pong_sameEntries (r : Registry) (service : Bytes) (fd : Nat) (now : Int) :
    r.SameEntries (r.pong service fd now) where
  providers service' := by
    unfold providerFd pong
    rw [Std.ExtTreeMap.getElem?_map, Option.map_map]
    refine congrArg (Option.map · _) (funext ?_)
    intro info
    exact (apply_ite ProviderInfo.socketFd ..).trans (ite_self _)
  size := Std.ExtTreeMap.size_map
  history := rfl
  srt _ := rfl
  subscribers := rfl
  openFds := rfl

theorem Registry.srtMarkConsumer_sameEntries (r : Registry) (service ip : Bytes) (now : Int) :
    r.SameEntries (r.srtMarkConsumer service ip now) where
  providers _ := rfl
  size := rfl
  history := rfl
  srt service' := by
    unfold srtFd srtMarkConsumer
    rw [Std.ExtTreeMap.getElem?_modify]
    split
    · next he =>
      rw [Std.LawfulEqCmp.eq_of_compare he, Option.map_map]
      rfl
    · rfl
  subscribers := rfl
  openFds := rfl

private theorem foldl_sameEntries {α : Type} (f : Registry → α → Registry)
    (hf : ∀ (r : Registry) a, r.SameEntries (f r a)) (as : List α) (r : Registry) :
    r.SameEntries (as.foldl f r) := by
  induction as generalizing r with
  | nil => exact .refl r
  | cons a as ih => exact (hf r a).trans (ih (f r a))

/-! ### Who is in which place -/

/-- The sockets a thread is to send to, beside the one of the current message, before it looks
at a registry again. -/
def Then.inHand : Then → List Nat
  | .notified _ rest _ => rest
  | .pinged rest _ => rest.map Prod.fst
  | _ => []

/-- The sockets a thread is to send to before it looks at a registry again. -/
def Pc.inHand : Pc → List Nat
  | .sending out next => out.fd :: next.inHand
  | .account _ _ next => next.inHand
  | .srtMark _ provider => [provider.socketFd]
  | .requestReset req => [req.provider.socketFd]
  | .requestInstall req => [req.provider.socketFd]
  | _ => []

/-- How far a handler has come that ends: past its subscription, its SRT cameras, its
providers, and past the `close`. -/
def Pc.phase : Pc → Nat
  | .leaveSrt => 1
  | .leaveRegistry => 2
  | .closing => 3
  | .done => 4
  | _ => 0

/-- The thread pings, and serves no client. -/
def Then.pings : Then → Bool
  | .pinged .. => true
  | _ => false

/-- The thread pings, and serves no client. -/
def Pc.pings : Pc → Bool
  | .sending _ next => next.pings
  | .account _ _ next => next.pings
  | .pingSleep | .pingCount _ | .pingRemove _ | .pingClose .. => true
  | _ => false

/-- An entry of a registry: which of the two, and for which service. -/
inductive EntryKey where
  | provider (service : Bytes)
  | srt (service : Bytes)
  deriving DecidableEq

/-- The descriptor of an entry. -/
def Registry.fdOf (r : Registry) : EntryKey → Option Nat
  | .provider service => r.providerFd service
  | .srt service => r.srtFd service

/-- What a handler has set out to do with an entry: nothing; to check for room for it and to
insert it; to send to the socket it was looked up with; to drop it, as that socket could not be
reached. -/
inductive Errand where
  | idle
  | check (req : RegisterRequest)
  | insert (req : RegisterRequest)
  | forward (key : EntryKey) (fd : Nat)
  | drop (key : EntryKey) (fd : Nat)

/-- What a handler has set out to do when its message cannot be sent. -/
def Then.errand : Then → Errand
  | .srtForwarded service provider => .forward (.srt service) provider.socketFd
  | .forwarded req _ => .forward (.provider req.serviceId) req.provider.socketFd
  | _ => .idle

/-- What a thread has set out to do. -/
def Pc.errand : Pc → Errand
  | .registerCheck req => .check req
  | .registerInsert req => .insert req
  | .srtMark req provider => .forward (.srt req.serviceId) provider.socketFd
  | .requestReset req => .forward (.provider req.serviceId) req.provider.socketFd
  | .requestInstall req => .forward (.provider req.serviceId) req.provider.socketFd
  | .sending _ next => next.errand
  | .srtErase service provider => .drop (.srt service) provider.socketFd
  | .requestDropSlot req _ => .drop (.provider req.serviceId) req.provider.socketFd
  | .requestDropProvider req => .drop (.provider req.serviceId) req.provider.socketFd
  | _ => .idle

/-- The entry a handler is about to look up. -/
def Pc.looksUp : Pc → Option EntryKey
  | .srtLookup req => some (.srt req.serviceId)
  | .requestLookup service _ => some (.provider service)
  | _ => none

/-- The entry a handler is about to register. -/
def Pc.registers : Pc → Option EntryKey
  | .registerInsert req => some (.provider req.serviceId)
  | .srtRegister req => some (.srt req.serviceId)
  | _ => none

/-- A thread is at a place where it waits for a message, an answer or a `send` call, or takes
up a message. -/
def Pc.waits : Pc → Bool
  | .recv | .received .. | .requestWait .. | .sending .. => true
  | _ => false

/-- A thread that waits does none of the things the other places are for. -/
theorem Pc.of_waits {pc : Pc} (h : pc.waits = true) :
    pc.phase = 0 ∧ pc.looksUp = none ∧ pc.registers = none := by
  cases pc with
  | recv | received msg answers | requestWait req slot | sending out next => exact ⟨rfl, rfl, rfl⟩
  | _ => cases h

/-- The critical section of a thread leaves the entries and the descriptors as they are. -/
def Pc.keeps : Pc → Bool
  | .registerInsert _ | .srtRegister _ | .subscribe => false
  | .requestDropProvider _ | .srtErase .. | .notifyDrop _ => false
  | .leaveSubscribers | .leaveSrt | .leaveRegistry | .closing | .done => false
  | .pingRemove (_ :: _) | .pingClose .. => false
  | _ => true

/-- Where a thread's errand comes from: it has none, or the one it had; it checks a REGISTER of
the right token, and inserts it when there was room; it has looked up a socket; it could not
send to that socket. -/
inductive Errand.Comes (cfg : Config) (t : Thread) (r : Registry) : Errand → Prop where
  | idle : Comes cfg t r .idle
  | same {errand : Errand} (h : t.pc.errand = errand) : Comes cfg t r errand
  | check (req : RegisterRequest) (msg : Bytes) (answers : Option Nat)
      (h : t.pc = .received msg answers)
      (htype : field (parseMessage msg) (lit "type") = lit "REGISTER")
      (htoken : badToken cfg (parseMessage msg) = false) : Comes cfg t r (.check req)
  | insert (req : RegisterRequest) (h : t.pc = .registerCheck req)
      (hroom : r.atCapacity cfg req.serviceId = false) : Comes cfg t r (.insert req)
  | lookup (key : EntryKey) (fd : Nat) (h : t.pc.looksUp = some key) (hfd : r.fdOf key = some fd) :
      Comes cfg t r (.forward key fd)
  | fail (key : EntryKey) (fd : Nat) (out : Outgoing) (next : Then) (h : t.pc = .sending out next)
      (hnext : next.errand = .forward key fd) : Comes cfg t r (.drop key fd)

/-- A registry names a socket. -/
def Registry.Names (r : Registry) (fd : Nat) : Prop :=
  (∃ service, r.providerFd service = some fd) ∨ (∃ service, r.srtFd service = some fd) ∨
    fd ∈ r.subscriberSockets

/-- A thread goes on with sockets it had in hand, its own, or some a registry names. It stays
a handler or the ping monitor. -/
structure Pc.GoesOn (cfg : Config) (t : Thread) (r : Registry) (pc : Pc) : Prop where
  inHand : ∀ fd ∈ pc.inHand,
    (fd = t.fd ∧ t.pc.pings = false) ∨ fd ∈ t.pc.inHand ∨ r.Names fd
  phase : pc.phase = 0
  pings : pc.pings = t.pc.pings
  errand : pc.errand.Comes cfg t r

/-- What follows a message: the sockets in hand, no end, the same kind of thread. -/
structure Pc.Follows (fd : Nat) (next : Then) (pc : Pc) : Prop where
  inHand : ∀ fd' ∈ pc.inHand, (fd' = fd ∧ next.pings = false) ∨ fd' ∈ next.inHand
  phase : pc.phase = 0
  pings : pc.pings = next.pings

theorem follows_notifyNext (fd : Nat) (service : Bytes) (rest failed failed' : List Nat) :
    (notifyNext service rest failed').Follows fd (.notified service rest failed) := by
  cases rest with
  | nil =>
    simp only [notifyNext]
    split <;> exact ⟨by simp [Pc.inHand], rfl, rfl⟩
  | cons fd' rest => exact ⟨fun _ h ↦ .inr h, rfl, rfl⟩

theorem follows_pingNext (fd : Nat) (rest : List (Nat × Bytes)) (round round' : PingRound) :
    (pingNext rest round').Follows fd (.pinged rest round) := by
  cases rest with
  | nil => exact ⟨by simp [pingNext, Pc.inHand], rfl, rfl⟩
  | cons e rest => exact ⟨fun _ h ↦ .inr h, rfl, rfl⟩

theorem follows_listNext (fd : Nat) (rest : List Bytes) :
    (listNext fd rest).Follows fd (.listed rest) := by
  cases rest with
  | nil => exact ⟨by simp [listNext, Pc.inHand], rfl, rfl⟩
  | cons service rest => exact ⟨by simp [listNext, Pc.inHand, Then.inHand, Then.pings], rfl, rfl⟩

theorem Then.follows_ok (cfg : Config) (fd : Nat) (next : Then) :
    (next.ok cfg fd).Follows fd next := by
  cases next with
  | notified service rest failed => exact follows_notifyNext fd service rest failed failed
  | pinged rest round => exact follows_pingNext fd rest round round
  | listed rest => exact follows_listNext fd rest
  | _ => exact ⟨by simp [Then.ok, reply, Pc.inHand, Then.inHand, Then.pings], rfl, rfl⟩

theorem Then.follows_fail (cfg : Config) (fd : Nat) (out : Outgoing) (next : Then) :
    (next.fail cfg fd out).Follows fd next := by
  cases next with
  | notified service rest failed => exact follows_notifyNext fd service rest failed _
  | pinged rest round => exact follows_pingNext fd rest round _
  | listed rest => exact follows_listNext fd rest
  | _ => exact ⟨by simp [Then.fail, Then.ok, Pc.inHand, Then.inHand, Then.pings], rfl, rfl⟩

@[simp] theorem errand_notifyNext (service : Bytes) (rest failed : List Nat) :
    (notifyNext service rest failed).errand = .idle := by
  cases rest with
  | nil =>
    simp only [notifyNext]
    split <;> rfl
  | cons fd rest => rfl

@[simp] theorem errand_pingNext (rest : List (Nat × Bytes)) (round : PingRound) :
    (pingNext rest round).errand = .idle := by
  cases rest <;> rfl

@[simp] theorem errand_listNext (fd : Nat) (rest : List Bytes) :
    (listNext fd rest).errand = .idle := by
  cases rest <;> rfl

/-- Behind a message that was sent there is no errand. -/
@[simp] theorem Then.errand_ok (cfg : Config) (fd : Nat) (next : Then) :
    (next.ok cfg fd).errand = .idle := by
  cases next with
  | notified service rest failed => exact errand_notifyNext _ _ _
  | pinged rest round => exact errand_pingNext _ _
  | listed rest => exact errand_listNext _ _
  | _ => rfl

/-- Behind a message that could not be sent, the entry that was looked up is dropped. -/
theorem Then.errand_fail {cfg : Config} {t : Thread} {r : Registry} {out : Outgoing} {next : Then}
    (h : t.pc = .sending out next) : (next.fail cfg t.fd out).errand.Comes cfg t r := by
  cases next with
  | srtForwarded service provider => exact .fail _ _ out _ h rfl
  | forwarded req slot => exact .fail _ _ out _ h rfl
  | notified service rest failed =>
    rw [Then.fail, errand_notifyNext]
    exact .idle
  | pinged rest round =>
    rw [Then.fail, errand_pingNext]
    exact .idle
  | _ =>
    rw [Then.fail, Then.errand_ok]
    · exact .idle
    all_goals simp

theorem Pc.Follows.goesOn {cfg : Config} {t : Thread} {r : Registry} {next : Then} {pc : Pc}
    (h : pc.Follows t.fd next) (hhand : ∀ fd ∈ next.inHand, fd ∈ t.pc.inHand)
    (hpings : t.pc.pings = next.pings) (herrand : pc.errand.Comes cfg t r) : pc.GoesOn cfg t r where
  inHand fd hfd := by
    rw [hpings]
    exact (h.inHand fd hfd).imp_right fun h' ↦ .inl (hhand fd h')
  phase := h.phase
  pings := h.pings.trans hpings.symm
  errand := herrand

theorem Pc.goesOn_own {cfg : Config} {t : Thread} {r : Registry} {pc : Pc}
    (hhand : ∀ fd ∈ pc.inHand, fd = t.fd ∧ pc.pings = false) (hphase : pc.phase = 0)
    (hpings : pc.pings = t.pc.pings) (herrand : pc.errand = .idle) : pc.GoesOn cfg t r where
  inHand fd hfd := .inl (hpings ▸ hhand fd hfd)
  phase := hphase
  pings := hpings
  errand := herrand ▸ .idle

/-- A handler replies to its own client. -/
theorem goesOn_reply {cfg : Config} {t : Thread} {r : Registry} (msg : Bytes) {next : Then}
    (hhand : next.inHand = []) (hnext : next.pings = false) (herrand : next.errand = .idle)
    (hpings : t.pc.pings = false) : (reply t.fd msg next).GoesOn cfg t r := by
  refine Pc.goesOn_own ?_ rfl (hnext.trans hpings.symm) herrand
  intro fd hfd
  simp only [reply, Pc.inHand, hhand, List.mem_singleton] at hfd
  exact ⟨hfd, hnext⟩

/-! ### What a critical section does -/

/-- What a critical section does with the entries of the registries. -/
inductive EntryStep (cfg : Config) (t : Thread) (now : Int) (r : Registry) :
    Registry → Pc → Prop where
  | keep {r' : Registry} {pc : Pc} (hkeeps : t.pc.keeps = true) (hr : r.SameEntries r')
      (hpc : pc.GoesOn cfg t r) : EntryStep cfg t now r r' pc
  | register (req : RegisterRequest) {pc : Pc} (h : t.pc = .registerInsert req)
      (hpc : pc.GoesOn cfg t r) : EntryStep cfg t now r (r.register req t.fd t.ip now) pc
  | srtRegister (req : SrtRequest) {pc : Pc} (h : t.pc = .srtRegister req)
      (hpc : pc.GoesOn cfg t r) : EntryStep cfg t now r (r.srtRegister req t.fd now) pc
  | subscribe {pc : Pc} (h : t.pc = .subscribe) (hpc : pc.GoesOn cfg t r) :
      EntryStep cfg t now r (r.subscribe t.fd) pc
  | eraseProvider (req : Rendezvous) {pc : Pc} (h : t.pc = .requestDropProvider req)
      (hpc : pc.GoesOn cfg t r) : EntryStep cfg t now r (r.eraseProvider req.serviceId) pc
  | srtErase (service : Bytes) (provider : SrtProviderInfo) {pc : Pc}
      (h : t.pc = .srtErase service provider) (hpc : pc.GoesOn cfg t r) :
      EntryStep cfg t now r (r.srtErase service) pc
  | leaveSubscribers (h : t.pc = .leaveSubscribers) :
      EntryStep cfg t now r (r.unsubscribe t.fd) .leaveSrt
  | leaveSrt (h : t.pc = .leaveSrt) : EntryStep cfg t now r (r.removeSrtSocket t.fd) .leaveRegistry
  | leaveRegistry (h : t.pc = .leaveRegistry) : EntryStep cfg t now r (r.leave t.fd now) .closing
  | close (h : t.pc = .closing) : EntryStep cfg t now r (r.close t.fd) .done
  | dropSubscribers (failed : List Nat) {pc : Pc} (h : t.pc = .notifyDrop failed)
      (hpc : pc.GoesOn cfg t r) : EntryStep cfg t now r (r.dropSubscribers failed) pc
  | removeStale (fd : Nat) (rest : List Nat) {pc : Pc} (h : t.pc = .pingRemove (fd :: rest))
      (hpc : pc.GoesOn cfg t r) : EntryStep cfg t now r (r.removeStale fd now) pc
  | closeStale (fd : Nat) (rest : List Nat) {pc : Pc} (h : t.pc = .pingClose fd rest)
      (hpc : pc.GoesOn cfg t r) : EntryStep cfg t now r (r.close fd) pc

private theorem collect_registered (es : List (Bytes × ProviderInfo))
    (acc : List (Nat × Bytes) × Std.ExtTreeSet Nat) {fd : Nat} {service : Bytes}
    (h : (fd, service) ∈ (es.foldl (fun (targets, stale) (service, info) ↦
      if stale.contains info.socketFd then (targets, stale)
      else if maxMissedPongs ≤ info.missedPongs then (targets, stale.insert info.socketFd)
      else (targets ++ [(info.socketFd, service)], stale)) acc).1) :
    (fd, service) ∈ acc.1 ∨ ∃ e ∈ es, e.2.socketFd = fd := by
  induction es generalizing acc with
  | nil => exact .inl h
  | cons e es ih =>
    obtain hacc | ⟨e', he', hfd⟩ := ih _ h
    · dsimp only at hacc
      split at hacc
      · exact .inl hacc
      · split at hacc
        · exact .inl hacc
        · rw [List.mem_append, List.mem_singleton] at hacc
          exact hacc.imp_right fun heq ↦ ⟨e, List.mem_cons_self, (Prod.mk.inj heq).1.symm⟩
    · exact .inr ⟨e', List.mem_cons_of_mem _ he', hfd⟩

/-- Every target of the ping monitor is the socket of a provider. -/
theorem Registry.names_of_collectPings (r : Registry) {fd : Nat}
    (h : fd ∈ r.collectPings.1.map Prod.fst) : r.Names fd := by
  obtain ⟨⟨fd', service⟩, hmem, rfl⟩ := List.mem_map.mp h
  obtain habs | ⟨⟨service', info⟩, he, hfd⟩ := collect_registered _ _ hmem
  · cases habs
  · refine .inl ⟨service', ?_⟩
    rw [providerFd, Std.ExtTreeMap.mem_toList_iff_getElem?_eq_some.mp he]
    exact congrArg some hfd

theorem Thread.entryStep {cfg : Config} {tid : Nat} {t : Thread} {now : Int} {r r' : Registry}
    {pc : Pc} (h : t.run cfg tid now r = some (r', pc)) : EntryStep cfg t now r r' pc := by
  unfold Thread.run at h
  cases hpc : t.pc with
  | registerCheck req =>
    simp only [hpc] at h
    cases (Registry.locked_some h).2
    refine .keep (by rw [hpc]; rfl) (.refl r) ?_
    split
    · exact goesOn_reply _ rfl rfl rfl (by rw [hpc]; rfl)
    · next hroom =>
      exact ⟨by simp [Pc.inHand], rfl, by rw [hpc]; rfl, .insert req hpc (by simpa using hroom)⟩
  | registerInsert req =>
    simp only [hpc] at h
    cases (Registry.locked_some h).2
    exact .register req hpc
      (goesOn_reply _ rfl rfl rfl (by rw [hpc]; rfl))
  | registerCount service | requestMark service | portUpdate service port
    | sdpStore service sdp answers | providerDisconnected service =>
    simp only [hpc] at h
    cases (Registry.locked_some h).2
    exact .keep (by rw [hpc]; rfl) (r.updateProvider_sameEntries _ fun _ ↦ rfl)
      (Pc.goesOn_own (by simp [Pc.inHand]) rfl (by rw [hpc]; rfl) rfl)
  | notifyCollect service =>
    simp only [hpc] at h
    cases h
    have hf := follows_notifyNext t.fd service r.subscriberSockets.toList [] []
    refine .keep (by rw [hpc]; rfl) (.refl r) ⟨?_, hf.phase, ?_, ?_⟩
    · intro fd hfd
      obtain h | h := hf.inHand fd hfd
      · exact .inl ⟨h.1, by rw [hpc]; rfl⟩
      · exact .inr (.inr (.inr (.inr (by simpa [Then.inHand] using h))))
    · rw [hf.pings, hpc]
      rfl
    · simp only [errand_notifyNext]
      exact .idle
  | notifyDrop failed =>
    simp only [hpc] at h
    cases h
    exact .dropSubscribers failed hpc
      (Pc.goesOn_own (by simp [Pc.inHand]) rfl (by rw [hpc]; rfl) rfl)
  | srtRegister req =>
    simp only [hpc] at h
    cases h
    exact .srtRegister req hpc
      (goesOn_reply _ rfl rfl rfl (by rw [hpc]; rfl))
  | srtLookup req =>
    simp only [hpc] at h
    cases h
    refine .keep (by rw [hpc]; rfl) (.refl r) ?_
    split
    · next provider hp =>
      refine ⟨fun fd hfd ↦ .inr (.inr (.inr (.inl ⟨req.serviceId, ?_⟩))), rfl, by rw [hpc]; rfl,
        .lookup _ _ (by rw [hpc]; rfl) (congrArg (Option.map SrtProviderInfo.socketFd) hp)⟩
      rw [srtFd, hp, Option.map_some, List.mem_singleton.mp hfd]
    · exact goesOn_reply _ rfl rfl rfl (by rw [hpc]; rfl)
  | srtMark req provider =>
    simp only [hpc] at h
    cases h
    refine .keep (by rw [hpc]; rfl) (r.srtMarkConsumer_sameEntries ..)
      ⟨fun fd hfd ↦ .inr (.inl ?_), rfl, by rw [hpc]; rfl, .same (by rw [hpc]; rfl)⟩
    rw [hpc]
    exact hfd
  | srtErase service provider =>
    simp only [hpc] at h
    cases h
    exact .srtErase service provider hpc
      (goesOn_reply _ rfl rfl rfl (by rw [hpc]; rfl))
  | subscribe =>
    simp only [hpc] at h
    cases h
    exact .subscribe hpc (Pc.goesOn_own (by simp [Pc.inHand]) rfl (by rw [hpc]; rfl) rfl)
  | subscribeList =>
    simp only [hpc] at h
    cases (Registry.locked_some h).2
    have hf := follows_listNext t.fd r.providers.keys
    refine .keep (by rw [hpc]; rfl) ⟨fun _ ↦ rfl, rfl, rfl, fun _ ↦ rfl, rfl, rfl⟩
      (Pc.goesOn_own ?_ hf.phase (by rw [hf.pings, hpc]; rfl) (errand_listNext _ _))
    intro fd hfd
    rw [hf.pings]
    exact (hf.inHand fd hfd).resolve_right (by simp [Then.inHand])
  | requestLookup service consumerSdp =>
    simp only [hpc] at h
    cases hs : r.providers[service]? with
    | some provider =>
      rw [hs] at h
      cases (Registry.locked_some h).2
      refine .keep (by rw [hpc]; rfl) (r.updateProvider_sameEntries _ fun _ ↦ rfl)
        ⟨fun fd hfd ↦ .inr (.inr (.inl ⟨service, ?_⟩)), rfl, by rw [hpc]; rfl,
          .lookup _ _ (by rw [hpc]; rfl) (congrArg (Option.map ProviderInfo.socketFd) hs)⟩
      rw [providerFd, hs, Option.map_some, List.mem_singleton.mp hfd]
    | none =>
      rw [hs] at h
      cases (Registry.locked_some h).2
      exact .keep (by rw [hpc]; rfl) (.refl r)
        (goesOn_reply _ rfl rfl rfl (by rw [hpc]; rfl))
  | requestReset req =>
    simp only [hpc] at h
    cases (Registry.locked_some h).2
    refine .keep (by rw [hpc]; rfl) (r.updateProvider_sameEntries _ fun _ ↦ rfl)
      ⟨fun fd hfd ↦ .inr (.inl ?_), rfl, by rw [hpc]; rfl, .same (by rw [hpc]; rfl)⟩
    rw [hpc]
    exact hfd
  | requestInstall req =>
    simp only [hpc] at h
    cases h
    refine .keep (by rw [hpc]; rfl) ⟨fun _ ↦ rfl, rfl, rfl, fun _ ↦ rfl, rfl, rfl⟩
      ⟨fun fd hfd ↦ .inr (.inl ?_), rfl, by rw [hpc]; rfl, .same (by rw [hpc]; rfl)⟩
    rw [hpc]
    exact hfd
  | requestDropSlot req slot =>
    simp only [hpc] at h
    cases h
    exact .keep (by rw [hpc]; rfl) ⟨fun _ ↦ rfl, rfl, rfl, fun _ ↦ rfl, rfl, rfl⟩
      ⟨by simp [Pc.inHand], rfl, by rw [hpc]; rfl, .same (by rw [hpc]; rfl)⟩
  | requestDropProvider req =>
    simp only [hpc] at h
    cases (Registry.locked_some h).2
    exact .eraseProvider req hpc
      (goesOn_reply _ rfl rfl rfl (by rw [hpc]; rfl))
  | requestWait req slot =>
    simp only [hpc] at h
    split at h
    · cases h
      exact .keep (by rw [hpc]; rfl) (.refl r)
        (Pc.goesOn_own (by simp [Pc.inHand]) rfl (by rw [hpc]; rfl) rfl)
    · cases h
  | sdpFind service sdp answers =>
    simp only [hpc] at h
    cases h
    refine .keep (by rw [hpc]; rfl) (.refl r) ?_
    split <;> exact Pc.goesOn_own (by simp [Pc.inHand]) rfl (by rw [hpc]; rfl) rfl
  | requestErase req slot sdp =>
    simp only [hpc] at h
    cases h
    exact .keep (by rw [hpc]; rfl) ⟨fun _ ↦ rfl, rfl, rfl, fun _ ↦ rfl, rfl, rfl⟩
      (goesOn_reply _ rfl rfl rfl (by rw [hpc]; rfl))
  | pong service =>
    simp only [hpc] at h
    cases (Registry.locked_some h).2
    exact .keep (by rw [hpc]; rfl) (r.pong_sameEntries ..)
      (Pc.goesOn_own (by simp [Pc.inHand]) rfl (by rw [hpc]; rfl) rfl)
  | account fd bytes next =>
    simp only [hpc] at h
    cases (Registry.locked_some h).2
    refine .keep (by rw [hpc]; rfl) (r.updateFirst_sameEntries _ fun _ ↦ rfl)
      ((next.follows_ok cfg t.fd).goesOn ?_ (by rw [hpc]; rfl) ?_)
    · intro fd hfd
      rw [hpc]
      exact hfd
    · rw [Then.errand_ok]
      exact .idle
  | leaveSubscribers =>
    simp only [hpc] at h
    cases h
    exact .leaveSubscribers hpc
  | leaveSrt =>
    simp only [hpc] at h
    cases h
    exact .leaveSrt hpc
  | leaveRegistry =>
    simp only [hpc] at h
    cases (Registry.locked_some h).2
    exact .leaveRegistry hpc
  | closing =>
    simp only [hpc] at h
    cases h
    exact .close hpc
  | pingSleep =>
    simp only [hpc] at h
    cases (Registry.locked_some h).2
    have hf := follows_pingNext t.fd r.collectPings.1 ⟨now, r.collectPings.1, [], r.collectPings.2⟩
      ⟨now, r.collectPings.1, [], r.collectPings.2⟩
    refine .keep (by rw [hpc]; rfl) (.refl r) ⟨?_, hf.phase, ?_, ?_⟩
    · intro fd hfd
      obtain h | h := hf.inHand fd hfd
      · exact absurd h.2 (by simp [Then.pings])
      · exact .inr (.inr (r.names_of_collectPings h))
    · rw [hf.pings, hpc]
      rfl
    · simp only [errand_pingNext]
      exact .idle
  | pingCount round =>
    simp only [hpc] at h
    cases (Registry.locked_some h).2
    refine .keep (by rw [hpc]; rfl) (foldl_sameEntries _ ?_ _ r) ?_
    · intro r e
      split
      · exact .refl r
      · exact r.updateProvider_sameEntries _ fun _ ↦ rfl
    · unfold pingRemoveNext
      split <;> exact Pc.goesOn_own (by simp [Pc.inHand]) rfl (by rw [hpc]; rfl) rfl
  | pingRemove stale =>
    cases stale with
    | nil =>
      simp only [hpc] at h
      cases h
      exact .keep (by rw [hpc]; rfl) (.refl r)
        (Pc.goesOn_own (by simp [Pc.inHand]) rfl (by rw [hpc]; rfl) rfl)
    | cons fd rest =>
      simp only [hpc] at h
      cases (Registry.locked_some h).2
      exact .removeStale fd rest hpc
        (Pc.goesOn_own (by simp [Pc.inHand]) rfl (by rw [hpc]; rfl) rfl)
  | pingClose fd rest =>
    simp only [hpc] at h
    cases h
    refine .closeStale fd rest hpc ?_
    unfold pingRemoveNext
    split <;> exact Pc.goesOn_own (by simp [Pc.inHand]) rfl (by rw [hpc]; rfl) rfl
  | _ =>
    -- The other places leave the entries alone and take up no socket.
    simp only [hpc, Registry.locked, Option.ite_none_right_eq_some, Option.some.injEq,
      reduceCtorEq] at h
    all_goals first
      | (obtain ⟨-, he⟩ := h
         cases he
         exact .keep (by rw [hpc]; rfl) ⟨fun _ ↦ rfl, rfl, rfl, fun _ ↦ rfl, rfl, rfl⟩
           (Pc.goesOn_own (by simp [Pc.inHand]) rfl (by rw [hpc]; rfl) rfl))
      | (cases h
         exact .keep (by rw [hpc]; rfl) ⟨fun _ ↦ rfl, rfl, rfl, fun _ ↦ rfl, rfl, rfl⟩
           (Pc.goesOn_own (by simp [Pc.inHand]) rfl (by rw [hpc]; rfl) rfl))

/-- Where the errand of a thread behind a critical section comes from. -/
theorem EntryStep.errand {cfg : Config} {t : Thread} {now : Int} {r r' : Registry} {pc : Pc}
    (h : EntryStep cfg t now r r' pc) : pc.errand.Comes cfg t r := by
  cases h with
  | leaveSubscribers h | leaveSrt h | leaveRegistry h | close h => exact .idle
  | _ => exact Pc.GoesOn.errand ‹_›

/-! ### What becomes of one entry -/

theorem Registry.fdOf_eq {r r' : Registry} (hp : r'.providers = r.providers)
    (hs : r'.srtProviders = r.srtProviders) (key : EntryKey) : r'.fdOf key = r.fdOf key := by
  cases key with
  | provider service => rw [fdOf, fdOf, providerFd, providerFd, hp]
  | srt service => rw [fdOf, fdOf, srtFd, srtFd, hs]

theorem Registry.SameEntries.fdOf {r r' : Registry} (h : r.SameEntries r') (key : EntryKey) :
    r'.fdOf key = r.fdOf key := by
  cases key with
  | provider service => exact h.providers service
  | srt service => exact h.srt service

theorem Registry.fdOf_register (r : Registry) (req : RegisterRequest) (fd : Nat) (ip : Bytes)
    (now : Int) (key : EntryKey) : (r.register req fd ip now).fdOf key =
      if key = .provider req.serviceId then some fd else r.fdOf key := by
  cases key with
  | provider service =>
    simp only [fdOf, providerFd, register, Std.ExtTreeMap.getElem?_insert, EntryKey.provider.injEq,
      Std.LawfulEqCmp.compare_eq_iff_eq, eq_comm (a := service)]
    split <;> rfl
  | srt service => rw [if_neg (by simp)]; rfl

theorem Registry.fdOf_srtRegister (r : Registry) (req : SrtRequest) (fd : Nat) (now : Int)
    (key : EntryKey) : (r.srtRegister req fd now).fdOf key =
      if key = .srt req.serviceId then some fd else r.fdOf key := by
  cases key with
  | provider service => rw [if_neg (by simp)]; rfl
  | srt service =>
    simp only [fdOf, srtFd, srtRegister, Std.ExtTreeMap.getElem?_insert, EntryKey.srt.injEq,
      Std.LawfulEqCmp.compare_eq_iff_eq, eq_comm (a := service)]
    split <;> rfl

theorem Registry.fdOf_eraseProvider (r : Registry) (service : Bytes) (key : EntryKey) :
    (r.eraseProvider service).fdOf key =
      if key = .provider service then none else r.fdOf key := by
  cases key with
  | provider service' =>
    simp only [fdOf, providerFd, eraseProvider, Std.ExtTreeMap.getElem?_erase,
      EntryKey.provider.injEq, Std.LawfulEqCmp.compare_eq_iff_eq, eq_comm (a := service')]
    split <;> rfl
  | srt service' => rw [if_neg (by simp)]; rfl

theorem Registry.fdOf_srtErase (r : Registry) (service : Bytes) (key : EntryKey) :
    (r.srtErase service).fdOf key = if key = .srt service then none else r.fdOf key := by
  cases key with
  | provider service' => rw [if_neg (by simp)]; rfl
  | srt service' =>
    simp only [fdOf, srtFd, srtErase, Std.ExtTreeMap.getElem?_erase, EntryKey.srt.injEq,
      Std.LawfulEqCmp.compare_eq_iff_eq, eq_comm (a := service')]
    split <;> rfl

private theorem map_filter_ne {α : Type} (f : α → Nat) (fd : Nat) (o : Option α) :
    (o.filter fun a ↦ f a != fd).map f = (o.map f).filter (· != fd) := by
  cases o with
  | none => rfl
  | some a =>
    simp only [Option.filter, Option.map_some]
    split <;> rfl

theorem Registry.fdOf_removeSocket (r : Registry) (fd : Nat)
    (note : ProviderHistory → ProviderHistory)
    (key : EntryKey) : (r.removeSocket fd note).fdOf key =
      if key matches .provider _ then (r.fdOf key).filter (· != fd) else r.fdOf key := by
  cases key with
  | provider service =>
    simp only [fdOf, providerFd, removeSocket, Std.ExtTreeMap.getElem?_filter', if_true]
    exact map_filter_ne _ _ _
  | srt service => rfl

theorem Registry.fdOf_removeSrtSocket (r : Registry) (fd : Nat) (key : EntryKey) :
    (r.removeSrtSocket fd).fdOf key =
      if key matches .srt _ then (r.fdOf key).filter (· != fd) else r.fdOf key := by
  cases key with
  | provider service => rfl
  | srt service =>
    simp only [fdOf, srtFd, removeSrtSocket, Std.ExtTreeMap.getElem?_filter', if_true]
    exact map_filter_ne _ _ _

theorem Registry.dropSubscribers_entries (r : Registry) (failed : List Nat) :
    (r.dropSubscribers failed).providers = r.providers ∧
      (r.dropSubscribers failed).providerHistory = r.providerHistory ∧
      (r.dropSubscribers failed).srtProviders = r.srtProviders := by
  unfold dropSubscribers
  induction failed generalizing r with
  | nil => exact ⟨rfl, rfl, rfl⟩
  | cons fd failed ih => exact ih ((r.unsubscribe fd).close fd)

/-- A critical section leaves an entry as it is, removes it, or registers it. -/
theorem EntryStep.fdOf {cfg : Config} {t : Thread} {now : Int} {r r' : Registry} {pc : Pc}
    (h : EntryStep cfg t now r r' pc) (key : EntryKey) :
    r'.fdOf key = r.fdOf key ∨ r'.fdOf key = none ∨ t.pc.registers = some key := by
  have hfilter : ∀ (o : Option Nat) (fd : Nat),
      o.filter (· != fd) = o ∨ o.filter (· != fd) = none :=
    fun o fd ↦ by
      cases o with
      | none => exact .inl rfl
      | some n =>
        simp only [Option.filter]
        split
        · exact .inl rfl
        · exact .inr rfl
  cases h with
  | keep hkeeps hr hpc => exact .inl (hr.fdOf key)
  | register req h hpc =>
    rw [Registry.fdOf_register]
    split
    · next he => exact .inr (.inr (by rw [h, he]; rfl))
    · exact .inl rfl
  | srtRegister req h hpc =>
    rw [Registry.fdOf_srtRegister]
    split
    · next he => exact .inr (.inr (by rw [h, he]; rfl))
    · exact .inl rfl
  | eraseProvider req h hpc =>
    rw [Registry.fdOf_eraseProvider]
    split
    · exact .inr (.inl rfl)
    · exact .inl rfl
  | srtErase service provider h hpc =>
    rw [Registry.fdOf_srtErase]
    split
    · exact .inr (.inl rfl)
    · exact .inl rfl
  | leaveSrt h =>
    rw [Registry.fdOf_removeSrtSocket]
    split
    · exact (hfilter _ _).imp_right .inl
    · exact .inl rfl
  | leaveRegistry h =>
    rw [Registry.leave, Registry.fdOf_removeSocket]
    split
    · exact (hfilter _ _).imp_right .inl
    · exact .inl rfl
  | removeStale fd rest h hpc =>
    rw [Registry.removeStale, Registry.fdOf_removeSocket]
    split
    · exact (hfilter _ _).imp_right .inl
    · exact .inl rfl
  | dropSubscribers failed h hpc =>
    obtain ⟨hp, -, hs⟩ := r.dropSubscribers_entries failed
    exact .inl (Registry.fdOf_eq hp hs key)
  | subscribe h hpc | leaveSubscribers h | close h | closeStale fd rest h hpc =>
    exact .inl (Registry.fdOf_eq rfl rfl key)

/-! ### What a step does -/

/-- The thread an event is about. -/
def ServerLabel.tid : ServerLabel → Option Nat
  | .accept .. => none
  | .recv tid .. | .run tid _ | .timeout tid | .accepted tid _ | .sendFail tid => some tid

/-- What a step of the server does with its threads and the entries of the registries: a
handler starts, a critical section is run, a thread goes on with the entries as they are, or
the process ends. -/
inductive ServerMove (cfg : Config) (w : Server) : ServerLabel → Server → Prop where
  | accept (fd : Nat) (ip : Bytes) {v : Server} (hfd : fd ∉ w.registry.openFds)
      (hr : v.registry = { w.registry with openFds := w.registry.openFds.insert fd })
      (ht : v.threads = Function.update w.threads w.spawned (some ⟨fd, ip, .connected⟩))
      (hs : v.spawned = w.spawned + 1) : ServerMove cfg w (.accept fd ip) v
  | run (tid : Nat) (now : Int) (t : Thread) (pc : Pc) {v : Server} (htid : w.threads tid = some t)
      (hstep : EntryStep cfg t now w.registry v.registry pc)
      (hsend : ∀ out next, t.pc ≠ .sending out next)
      (ht : v.threads = Function.update w.threads tid (some { t with pc }))
      (hs : v.spawned = w.spawned) : ServerMove cfg w (.run tid now) v
  | goOn (tid : Nat) (t : Thread) (pc : Pc) {l : ServerLabel} {v : Server}
      (htid : w.threads tid = some t) (hwaits : t.pc.waits = true)
      (hr : w.registry.SameEntries v.registry) (hpc : pc.GoesOn cfg t w.registry)
      (hdrop : l = .sendFail tid ∨ ∀ key fd, pc.errand ≠ .drop key fd)
      (hl : l.tid = some tid)
      (ht : v.threads = Function.update w.threads tid (some { t with pc }))
      (hs : v.spawned = w.spawned) : ServerMove cfg w l v
  | crash (tid : Nat) (now : Int) (t : Thread) {v : Server} (htid : w.threads tid = some t)
      (hwaits : t.pc.waits = true) (hr : w.registry.SameEntries v.registry)
      (ht : v.threads = w.threads)
      (hs : v.spawned = w.spawned) : ServerMove cfg w (.run tid now) v

/-- A handler that has taken up a message goes on with no socket but its own. -/
theorem goesOn_of_dispatch {cfg : Config} {t : Thread} {r : Registry} {msg : Bytes}
    {answers : Option Nat} {pc : Pc} (ht : t.pc = .received msg answers)
    (h : dispatch cfg t.fd (parseMessage msg) answers = .ok pc) : pc.GoesOn cfg t r := by
  have hpings : t.pc.pings = false := by rw [ht]; rfl
  cases dispatched_of_dispatch h with
  | refuse msg | leave msg =>
    exact goesOn_reply _ rfl rfl rfl hpings
  | registerCheck req _ htype htoken =>
    exact ⟨by simp [Pc.inHand], rfl, hpings.symm, .check req msg answers ht htype htoken⟩
  | _ => exact Pc.goesOn_own (by simp [Pc.inHand]) rfl hpings.symm rfl

private theorem advance_threads (cfg : Config) (w : Server) (tid : Nat) (t : Thread)
    (out : Outgoing) (next : Then) (reached : Nat) :
    ∃ pc, (w.advance cfg tid t out next reached).threads =
        Function.update w.threads tid (some { t with pc }) ∧
      ((∃ sent, pc = .sending { out with sent } next) ∨ (∃ n, pc = .account out.fd n next) ∨
        pc = next.ok cfg t.fd) := by
  unfold Server.advance
  split
  · split
    · exact ⟨_, rfl, .inr (.inl ⟨_, rfl⟩)⟩
    · exact ⟨_, rfl, .inr (.inr rfl)⟩
  · exact ⟨_, rfl, .inl ⟨_, rfl⟩⟩

/-- A thread that sends goes on behind one `send` call. -/
private theorem move_advance {cfg : Config} {w u : Server} {l : ServerLabel} {tid : Nat}
    {t : Thread}
    {out : Outgoing} {next : Then} {reached : Nat} (ht : w.threads tid = some t)
    (hpc : t.pc = .sending out next) (hr : u.registry = w.registry) (hthr : u.threads = w.threads)
    (hs : u.spawned = w.spawned) (hl : l.tid = some tid) :
    ServerMove cfg w l (u.advance cfg tid t out next reached) := by
  obtain ⟨pc, hthreads, hcase⟩ := advance_threads cfg u tid t out next reached
  have hreg : (u.advance cfg tid t out next reached).registry = w.registry :=
    (Server.advance_same ..).1.trans hr
  have hspawned : (u.advance cfg tid t out next reached).spawned = w.spawned := by
    rw [← hs]
    unfold Server.advance
    split <;> rfl
  refine .goOn tid t pc ht (by rw [hpc]; rfl)
    (by rw [hreg]; exact .refl _) ?_ (.inr ?_) hl
    (by rw [hthreads, hthr]) hspawned
  · obtain ⟨sent, rfl⟩ | ⟨n, rfl⟩ | rfl := hcase
    · exact ⟨fun fd hfd ↦ .inr (.inl (by rw [hpc]; exact hfd)), rfl, by rw [hpc]; rfl,
        .same (by rw [hpc]; rfl)⟩
    · exact ⟨fun fd hfd ↦ .inr (.inl (by rw [hpc]; exact List.mem_cons_of_mem _ hfd)), rfl,
        by rw [hpc]; rfl, .idle⟩
    · exact (next.follows_ok cfg t.fd).goesOn
        (fun fd hfd ↦ by rw [hpc]; exact List.mem_cons_of_mem _ hfd) (by rw [hpc]; rfl)
        (by rw [Then.errand_ok]; exact .idle)
  · intro key fd
    obtain ⟨sent, rfl⟩ | ⟨n, rfl⟩ | rfl := hcase
    · cases next <;> exact fun h ↦ by cases h
    · exact fun h ↦ by cases h
    · rw [Then.errand_ok]
      exact fun h ↦ by cases h

private theorem not_sending_of_run {cfg : Config} {tid : Nat} {t : Thread} {now : Int}
    {r : Registry}
    {x : Registry × Pc} (h : t.run cfg tid now r = some x) (out : Outgoing) (next : Then) :
    t.pc ≠ .sending out next := fun hpc ↦ by
  unfold Thread.run at h
  simp only [hpc] at h
  cases h

theorem Server.move_of_step {cfg : Config} {w v : Server} {l : ServerLabel}
    (h : w.step cfg l = some v) : ServerMove cfg w l v := by
  cases l with
  | accept fd ip =>
    obtain ⟨hfd, rfl⟩ := Server.step_accept h
    exact .accept fd ip hfd rfl rfl rfl
  | recv tid stream answers =>
    obtain ⟨t, ht, hpc, rfl⟩ := Server.step_recv h
    refine .goOn tid t _ ht (by rw [hpc]; rfl) (.refl _) ?_
      (.inr ?_) rfl rfl rfl
    · split <;> exact Pc.goesOn_own (by simp [Pc.inHand]) rfl (by rw [hpc]; rfl) rfl
    · split <;> exact fun _ _ h ↦ by cases h
  | run tid now =>
    obtain ⟨t, ht, ⟨msg, answers, hpc, -, ⟨e, he, rfl⟩ | ⟨pc, hp, rfl⟩⟩ | ⟨-, r, pc, hrun, rfl⟩⟩ :=
      Server.step_run h
    · exact .crash tid now t ht (by rw [hpc]; rfl)
        (w.registry.updateFirst_sameEntries _ fun _ ↦ rfl) rfl rfl
    · refine .goOn tid t pc ht (by rw [hpc]; rfl)
        (w.registry.updateFirst_sameEntries _ fun _ ↦ rfl) (goesOn_of_dispatch hpc hp)
        (.inr ?_) rfl rfl rfl
      intro key fd
      cases dispatched_of_dispatch hp <;> exact fun h ↦ by cases h
    · exact .run tid now t pc ht (Thread.entryStep hrun) (not_sending_of_run hrun) rfl rfl
  | timeout tid =>
    obtain ⟨t, req, slot, ht, hpc, -, rfl⟩ := Server.step_timeout h
    exact .goOn tid t _ ht (by rw [hpc]; rfl) (.refl _)
      (Pc.goesOn_own (by simp [Pc.inHand]) rfl (by rw [hpc]; rfl) rfl)
      (.inr fun _ _ h ↦ by cases h) rfl rfl rfl
  | accepted tid n =>
    obtain ⟨t, out, next, ht, hpc, -, rfl⟩ := Server.step_accepted h
    exact move_advance ht hpc rfl rfl rfl rfl
  | sendFail tid =>
    obtain ⟨t, out, next, ht, hpc, rfl⟩ := Server.step_sendFail h
    split
    · exact move_advance ht hpc rfl rfl rfl rfl
    · refine .goOn tid t _ ht (by rw [hpc]; rfl) (.refl _)
        ((next.follows_fail cfg t.fd out).goesOn ?_ (by rw [hpc]; rfl)
          (Then.errand_fail hpc)) (.inl rfl) rfl rfl rfl
      intro fd hfd
      rw [hpc]
      exact List.mem_cons_of_mem _ hfd

/-- No thread has a number that has not been given out. -/
def Server.Numbered (w : Server) : Prop := ∀ tid, w.spawned ≤ tid → w.threads tid = none

theorem Server.numbered_start : Server.start.Numbered := fun tid h ↦ by
  have hne : tid ≠ 0 := by
    rintro rfl
    exact absurd h (by decide)
  simp [start, hne]

theorem Server.Numbered.lt {w : Server} (h : w.Numbered) {tid : Nat} {t : Thread}
    (ht : w.threads tid = some t) : tid < w.spawned := by
  by_contra hle
  rw [h tid (Nat.le_of_not_lt hle)] at ht
  cases ht

theorem ServerMove.numbered {cfg : Config} {w v : Server} {l : ServerLabel}
    (h : ServerMove cfg w l v) (hw : w.Numbered) : v.Numbered := by
  intro tid hle
  cases h with
  | accept fd ip hfd hr hthr hs =>
    rw [hthr, Function.update_of_ne (by omega)]
    exact hw tid (by omega)
  | run tid' now t pc ht hstep hsend hthr hs =>
    have hlt := hw.lt ht
    rw [hthr, Function.update_of_ne (by omega)]
    exact hw tid (by omega)
  | goOn tid' t pc ht hwaits hr hpc hdrop hl hthr hs =>
    have hlt := hw.lt ht
    rw [hthr, Function.update_of_ne (by omega)]
    exact hw tid (by omega)
  | crash tid' now t ht hwaits hr hthr hs =>
    rw [hthr]
    exact hw tid (by omega)

/-- Where the errand of a thread comes from: the thread was as it is, it has just started, or
a step of its own gave it. -/
theorem Server.errand_of_step {cfg : Config} {w v : Server} {l : ServerLabel} {tid : Nat}
    {t' : Thread} (h : w.step cfg l = some v) (ht' : v.threads tid = some t') :
    w.threads tid = some t' ∨ t'.pc = .connected ∨
      ∃ t, w.threads tid = some t ∧ t'.pc.errand.Comes cfg t w.registry := by
  cases Server.move_of_step h with
  | accept fd ip hfd hr hthr hs =>
    rw [hthr] at ht'
    by_cases he : tid = w.spawned
    · rw [he, Function.update_self] at ht'
      cases ht'
      exact .inr (.inl rfl)
    · rw [Function.update_of_ne he] at ht'
      exact .inl ht'
  | run tid' now t pc ht hstep hsend hthr hs =>
    rw [hthr] at ht'
    by_cases he : tid = tid'
    · rw [he, Function.update_self] at ht'
      cases ht'
      exact .inr (.inr ⟨t, he ▸ ht, hstep.errand⟩)
    · rw [Function.update_of_ne he] at ht'
      exact .inl ht'
  | goOn tid' t pc ht hwaits hr hpc hdrop hl hthr hs =>
    rw [hthr] at ht'
    by_cases he : tid = tid'
    · rw [he, Function.update_self] at ht'
      cases ht'
      exact .inr (.inr ⟨t, he ▸ ht, hpc.errand⟩)
    · rw [Function.update_of_ne he] at ht'
      exact .inl ht'
  | crash tid' now t ht hwaits hr hthr hs =>
    rw [hthr] at ht'
    exact .inl ht'

end Kitty.Signal
