import Kitty.Base.Run
import Kitty.Signal.Entries

/-!
# How long a service was away

`src/signaling-server/signaling_server.cpp` keeps for each service how often and how long it was
not registered: REGISTER (1490–1538) adds up, and the cleanup of a handler that ends (1985–2030)
and the ping monitor (672–690) note when a service goes. A provider that a REQUEST finds
unreachable (1812–1831) goes unnoticed. Beside this, a run here keeps what is to be added up: the
intervals in which the service is not in the registry.
-/

namespace Kitty.Signal

open Kitty.Base

/-! ### Runs -/

/-- What happens to the providers, each with its reading of the clock: a REGISTER is processed, a
REQUEST drops a provider, the ping monitor drops a socket, a handler ends. -/
inductive ProviderEvent where
  | register (req : Registry.RegisterRequest) (fd : Nat) (ip : Bytes) (now : Int)
  | eraseProvider (service : Bytes) (now : Int)
  | removeStale (fd : Nat) (now : Int)
  | leave (fd : Nat) (now : Int)

namespace ProviderEvent

/-- The reading of the clock. -/
def now : ProviderEvent → Int
  | register _ _ _ now | eraseProvider _ now | removeStale _ now | leave _ now => now

/-- What it does to the registry. -/
def apply (r : Registry) : ProviderEvent → Registry
  | register req fd ip now => r.register req fd ip now
  | eraseProvider service _ => r.eraseProvider service
  | removeStale fd now => r.removeStale fd now
  | leave fd now => r.leave fd now

/-- It is the ping monitor's. -/
def pinged : ProviderEvent → Bool
  | removeStale .. => true
  | _ => false

/-- It is a REGISTER of the service. -/
def Registers (service : Bytes) : ProviderEvent → Prop
  | register req .. => req.serviceId = service
  | _ => False

instance (service : Bytes) : (e : ProviderEvent) → Decidable (e.Registers service)
  | register .. => inferInstanceAs (Decidable (_ = _))
  | eraseProvider .. | removeStale .. | leave .. => isFalse id

end ProviderEvent

/-- Since when a service is away, and whether the ping monitor removed it. -/
structure Absence where
  since : Int
  pinged : Bool

/-- A registry, the last reading of the clock, and the intervals in which one service was away:
the one that has not ended, the length of the others and their number. -/
structure Outage where
  registry : Registry
  clock : Int
  gone : Option Absence
  away : Int
  absences : Nat

/-- The process before its first client. -/
def Outage.start : Outage := ⟨.start, 0, none, 0, 0⟩

/-- What a change of the registry is for the service: it goes, it comes back, or neither. -/
def Outage.observe (service : Bytes) (o : Outage) (r : Registry) (now : Int) (pinged : Bool) :
    Outage :=
  match o.registry.providers.contains service, r.providers.contains service, o.gone with
  | true, false, _ => { o with registry := r, clock := now, gone := some ⟨now, pinged⟩ }
  | false, true, some absence =>
    { registry := r, clock := now, gone := none
      away := o.away + (now - absence.since), absences := o.absences + 1 }
  | _, _, _ => { o with registry := r, clock := now }

/-- One event. The clock counts seconds from the epoch in 64 bits and does not go back. -/
def Outage.step (service : Bytes) (o : Outage) (e : ProviderEvent) : Option Outage :=
  if o.clock ≤ e.now ∧ e.now < 2 ^ 63 then
    some (o.observe service (e.apply o.registry) e.now e.pinged)
  else none

/-- The history says how long and how often the service was away. -/
def Outage.Exact (service : Bytes) (o : Outage) : Prop :=
  ∀ history, o.registry.providerHistory[service]? = some history →
    history.totalDowntime = o.away ∧ history.disconnectCount = o.absences

instance (service : Bytes) (o : Outage) : Decidable (o.Exact service) :=
  inferInstanceAs (Decidable (∀ history ∈ o.registry.providerHistory[service]?, _))

/-- What a history has noted when the service registers once more is what there was: the service is
still registered and no time of a disconnect was ever noted; or it is not, it was not the ping
monitor that removed it, and the time noted is the time it went, which is not 0. (Or the ping
monitor removed it at 0, and it is 0.) -/
def Noted (history : ProviderHistory) (now : Int) : Option Absence → Prop
  | none => history.lastDisconnect = 0
  | some absence =>
    absence.pinged = false ∧ 0 < absence.since ∧ history.lastDisconnect = absence.since ∨
      absence.pinged = true ∧ absence.since = 0 ∧ now = 0

instance (history : ProviderHistory) (now : Int) :
    (absence : Option Absence) → Decidable (Noted history now absence)
  | none => inferInstanceAs (Decidable (_ = _))
  | some _ => inferInstanceAs (Decidable (_ ∨ _))

/-- At a REGISTER of the service but the first, its history has noted what there was. -/
def Outage.Booked (service : Bytes) (o : Outage) (e : ProviderEvent) : Prop :=
  e.Registers service → ∀ history, o.registry.providerHistory[service]? = some history →
    Noted history e.now o.gone

instance (service : Bytes) (o : Outage) (e : ProviderEvent) : Decidable (o.Booked service e) :=
  inferInstanceAs (Decidable (_ → ∀ history ∈ o.registry.providerHistory[service]?, _))

/-- `total_uptime` of `generate_json_stats`, a `size_t`. -/
def ProviderInfo.totalUptime (info : ProviderInfo) (now : Int) : Nat :=
  ((now - info.firstSeen - info.totalDowntime) % 2 ^ 64).toNat

/-! ### One event -/

/-- What the history of a service notes when the service goes. -/
def ProviderEvent.note : ProviderEvent → ProviderHistory → ProviderHistory
  | removeStale _ now, history =>
    { history with lastDisconnect := now, disconnectCount := history.disconnectCount + 1 }
  | leave _ now, history => { history with lastDisconnect := now }
  | _, history => history

theorem ProviderEvent.firstSeen_note (e : ProviderEvent) (history : ProviderHistory) :
    (e.note history).firstSeen = history.firstSeen := by
  cases e <;> rfl

theorem ProviderEvent.totalDowntime_note (e : ProviderEvent) (history : ProviderHistory) :
    (e.note history).totalDowntime = history.totalDowntime := by
  cases e <;> rfl

theorem ProviderEvent.disconnectCount_note (e : ProviderEvent) (history : ProviderHistory) :
    (e.note history).disconnectCount =
      history.disconnectCount + if e.pinged = true then 1 else 0 := by
  cases e <;> rfl

/-- The time noted is the time the service goes, or the one noted before. -/
theorem ProviderEvent.lastDisconnect_note (e : ProviderEvent) (history : ProviderHistory) :
    (e.note history).lastDisconnect = e.now ∨
      e.pinged = false ∧ (e.note history).lastDisconnect = history.lastDisconnect := by
  cases e with
  | register | eraseProvider => exact .inr ⟨rfl, rfl⟩
  | removeStale | leave => exact .inl rfl

section Registry

variable {service : Bytes}

theorem Registry.registerHistory_of_none {r : Registry} (h : r.providerHistory[service]? = none)
    (now : Int) : r.registerHistory service now = ⟨now, 0, 0, 0⟩ := by
  rw [registerHistory, h]

/-- A REGISTER leaves the times in the history as they are. -/
theorem Registry.registerHistory_times {r : Registry} {history : ProviderHistory}
    (h : r.providerHistory[service]? = some history) (now : Int) :
    (r.registerHistory service now).firstSeen = history.firstSeen ∧
      (r.registerHistory service now).lastDisconnect = history.lastDisconnect := by
  simp only [registerHistory, h]
  split <;> exact ⟨rfl, rfl⟩

/-- With a time noted, the time since then is added, and the disconnect counted. -/
theorem Registry.registerHistory_of_noted {r : Registry} {history : ProviderHistory} {now : Int}
    (h : r.providerHistory[service]? = some history) (hnoted : 0 < history.lastDisconnect) :
    r.registerHistory service now = { history with
      totalDowntime := (history.totalDowntime + ((now - history.lastDisconnect) % 2 ^ 64).toNat) %
        2 ^ 64
      disconnectCount := history.disconnectCount + 1 } := by
  simp only [registerHistory, h, if_pos hnoted]

theorem Registry.registerHistory_of_zero {r : Registry} {history : ProviderHistory} {now : Int}
    (h : r.providerHistory[service]? = some history) (hzero : history.lastDisconnect = 0) :
    r.registerHistory service now = history := by
  simp [registerHistory, h, hzero]

private theorem compare_eq_iff {a b : Bytes} : compare a b = .eq ↔ a = b :=
  Std.LawfulEqCmp.compare_eq_iff_eq

/-- A socket is dropped with the services on it, and with no others. -/
private theorem removeSocket_cases (r : Registry) (fd : Nat)
    (note : ProviderHistory → ProviderHistory) :
    (r.removeSocket fd note).providers[service]? = r.providers[service]? ∧
        (r.removeSocket fd note).providerHistory[service]? = r.providerHistory[service]? ∨
      (∃ info, r.providers[service]? = some info) ∧
        (r.removeSocket fd note).providers[service]? = none ∧
        (r.removeSocket fd note).providerHistory[service]? =
          (r.providerHistory[service]?).map note := by
  simp only [Registry.removeSocket, Std.ExtTreeMap.getElem?_filter', Std.ExtTreeMap.getElem?_map]
  cases hinfo : r.providers[service]? with
  | none => simp
  | some info =>
    by_cases hfd : info.socketFd = fd
    · right
      simp [hfd]
    · left
      simp [hfd]

/-- An event registers the service, leaves it alone, or removes it. -/
theorem ProviderEvent.apply_cases (service : Bytes) (r : Registry) (e : ProviderEvent) :
    e.Registers service ∧
        (e.apply r).providerHistory[service]? = some (r.registerHistory service e.now) ∧
        (∃ info, (e.apply r).providers[service]? = some info ∧
          info.firstSeen = (r.registerHistory service e.now).firstSeen ∧
          info.totalDowntime = (r.registerHistory service e.now).totalDowntime) ∨
      ¬ e.Registers service ∧ ((e.apply r).providers[service]? = r.providers[service]? ∧
          (e.apply r).providerHistory[service]? = r.providerHistory[service]? ∨
        (∃ info, r.providers[service]? = some info) ∧ (e.apply r).providers[service]? = none ∧
          (e.apply r).providerHistory[service]? = (r.providerHistory[service]?).map e.note) := by
  cases e with
  | register req fd ip now =>
    by_cases hreq : req.serviceId = service
    · left
      subst hreq
      refine ⟨rfl, ?_, ?_⟩
      · simp [apply, Registry.register, ProviderEvent.now]
      · exact ⟨_, Std.ExtTreeMap.getElem?_insert_self, rfl, rfl⟩
    · right
      refine ⟨hreq, .inl ?_⟩
      have hne : ¬ compare req.serviceId service = .eq := compare_eq_iff.not.mpr hreq
      constructor
      · rw [apply, Registry.register, Std.ExtTreeMap.getElem?_insert, if_neg hne]
      · rw [apply, Registry.register, Std.ExtTreeMap.getElem?_insert, if_neg hne]
  | eraseProvider other now =>
    right
    refine ⟨id, ?_⟩
    rw [apply, Registry.eraseProvider, Std.ExtTreeMap.getElem?_erase]
    cases hinfo : r.providers[service]? with
    | none =>
      left
      exact ⟨ite_self _, rfl⟩
    | some info =>
      by_cases hother : compare other service = .eq
      · right
        exact ⟨⟨info, rfl⟩, if_pos hother, by cases r.providerHistory[service]? <;> rfl⟩
      · left
        exact ⟨if_neg hother, rfl⟩
  | removeStale fd now => exact .inr ⟨id, removeSocket_cases r fd _⟩
  | leave fd now => exact .inr ⟨id, removeSocket_cases r fd _⟩

end Registry

/-- A critical section of the server is one of the events, at the time it reads from the clock, or
leaves the histories and who is registered as they are. -/
theorem EntryStep.providerEvent {cfg : Config} {t : Thread} {now : Int} {r r' : Registry} {pc : Pc}
    (h : EntryStep cfg t now r r' pc) : (∃ e : ProviderEvent, e.now = now ∧ r' = e.apply r) ∨
      (∀ service, r'.providerFd service = r.providerFd service) ∧
        r'.providerHistory = r.providerHistory := by
  cases h with
  | keep hkeeps hr hpc => exact .inr ⟨hr.providers, hr.history⟩
  | register req h hpc => exact .inl ⟨.register req t.fd t.ip now, rfl, rfl⟩
  | eraseProvider req h hpc => exact .inl ⟨.eraseProvider req.serviceId now, rfl, rfl⟩
  | leaveRegistry h => exact .inl ⟨.leave t.fd now, rfl, rfl⟩
  | removeStale fd rest h hpc => exact .inl ⟨.removeStale fd now, rfl, rfl⟩
  | dropSubscribers failed h hpc =>
    obtain ⟨hp, hh, -⟩ := r.dropSubscribers_entries failed
    exact .inr ⟨fun service ↦ by rw [Registry.providerFd, hp, Registry.providerFd], hh⟩
  | _ => exact .inr ⟨fun _ ↦ rfl, rfl⟩

/-! ### The invariant -/

/-- What the history, the entry and the intervals of a service have to do with each other, whether
or not they agree. -/
structure Outage.Inv (service : Bytes) (o : Outage) : Prop where
  clock : 0 ≤ o.clock ∧ o.clock < 2 ^ 63
  away_nonneg : 0 ≤ o.away
  /-- A service without a history was never registered. -/
  unseen : o.registry.providerHistory[service]? = none →
    o.registry.providers[service]? = none ∧ o.gone = none ∧ o.away = 0 ∧ o.absences = 0
  /-- The entry of a registered service shows its history. -/
  present : ∀ info, o.registry.providers[service]? = some info → o.gone = none ∧
    ∃ history, o.registry.providerHistory[service]? = some history ∧
      info.firstSeen = history.firstSeen ∧ info.totalDowntime = history.totalDowntime
  /-- A service that was registered and is not is away since some time. -/
  absent : o.registry.providers[service]? = none → ∀ history,
    o.registry.providerHistory[service]? = some history → ∃ absence, o.gone = some absence
  times : ∀ history, o.registry.providerHistory[service]? = some history →
    0 ≤ history.firstSeen ∧ 0 ≤ history.lastDisconnect ∧ history.lastDisconnect ≤ o.clock ∧
      o.away ≤ o.clock - history.firstSeen
  gone : ∀ absence, o.gone = some absence → absence.since ≤ o.clock ∧
    ∀ history, o.registry.providerHistory[service]? = some history →
      history.lastDisconnect ≤ absence.since ∧ o.away ≤ absence.since - history.firstSeen ∧
        (absence.pinged = true → history.lastDisconnect = absence.since)

namespace Outage

variable {service : Bytes} {o t : Outage} {e : ProviderEvent}

theorem inv_start (service : Bytes) : start.Inv service where
  clock := ⟨Int.le_refl 0, by decide⟩
  away_nonneg := Int.le_refl 0
  unseen _ := ⟨Std.ExtTreeMap.getElem?_empty, rfl, rfl, rfl⟩
  present info h := by
    rw [start, Registry.start, Std.ExtTreeMap.getElem?_empty] at h
    cases h
  absent _ history h := by
    rw [start, Registry.start, Std.ExtTreeMap.getElem?_empty] at h
    cases h
  times history h := by
    rw [start, Registry.start, Std.ExtTreeMap.getElem?_empty] at h
    cases h
  gone absence h := by cases h

/-- An event registers the service, which ends an absence if there is one, or leaves it alone, or
removes it, which begins one. -/
inductive Move (service : Bytes) (o : Outage) (e : ProviderEvent) (t : Outage) : Prop where
  | register (he : e.Registers service) (hgone : t.gone = none)
      (hcount : o.gone = none ∧ t.away = o.away ∧ t.absences = o.absences ∨
        ∃ absence, o.gone = some absence ∧ t.away = o.away + (e.now - absence.since) ∧
          t.absences = o.absences + 1)
      (hhistory : t.registry.providerHistory[service]? =
        some (o.registry.registerHistory service e.now))
      (hinfo : ∃ info, t.registry.providers[service]? = some info ∧
        info.firstSeen = (o.registry.registerHistory service e.now).firstSeen ∧
        info.totalDowntime = (o.registry.registerHistory service e.now).totalDowntime)
  | keep (he : ¬ e.Registers service) (hgone : t.gone = o.gone) (haway : t.away = o.away)
      (hcount : t.absences = o.absences)
      (hhistory : t.registry.providerHistory[service]? = o.registry.providerHistory[service]?)
      (hinfo : t.registry.providers[service]? = o.registry.providers[service]?)
  | remove (he : ¬ e.Registers service) (hgone : t.gone = some ⟨e.now, e.pinged⟩)
      (haway : t.away = o.away) (hcount : t.absences = o.absences)
      (hpresent : ∃ info, o.registry.providers[service]? = some info)
      (hhistory : t.registry.providerHistory[service]? =
        (o.registry.providerHistory[service]?).map e.note)
      (hinfo : t.registry.providers[service]? = none)

theorem step_cases (ho : o.Inv service) (h : o.step service e = some t) :
    o.clock ≤ e.now ∧ e.now < 2 ^ 63 ∧ t.clock = e.now ∧ Move service o e t := by
  rw [step] at h
  split at h
  · next hclock =>
    have ht := Option.some.inj h
    refine ⟨hclock.1, hclock.2, ?_, ?_⟩
    · rw [← ht, observe]
      split <;> rfl
    · have hobserve := ht.symm
      simp only [observe, Std.ExtTreeMap.contains_eq_isSome_getElem?] at hobserve
      rcases e.apply_cases service o.registry with ⟨he, hhistory, info, hinfo, hfirst, htotal⟩ |
        ⟨he, ⟨hinfo, hhistory⟩ | ⟨⟨info, hpresent⟩, hinfo, hhistory⟩⟩
      · rw [hinfo] at hobserve
        cases hgone : o.gone with
        | none =>
          have hsame : t = { o with registry := e.apply o.registry, clock := e.now } := by
            rw [hobserve, hgone]
            split <;> simp_all
          subst hsame
          exact .register he hgone (.inl ⟨hgone, rfl, rfl⟩) hhistory ⟨info, hinfo, hfirst, htotal⟩
        | some absence =>
          have habsent : o.registry.providers[service]? = none := by
            cases hold : o.registry.providers[service]? with
            | none => rfl
            | some old =>
              rw [(ho.present old hold).1] at hgone
              cases hgone
          rw [habsent, hgone] at hobserve
          subst hobserve
          exact .register he rfl (.inr ⟨absence, hgone, rfl, rfl⟩) hhistory
            ⟨info, hinfo, hfirst, htotal⟩
      · have hsame : t = { o with registry := e.apply o.registry, clock := e.now } := by
          rw [hobserve, hinfo]
          split <;> simp_all
        subst hsame
        exact .keep he rfl rfl rfl hhistory hinfo
      · rw [hinfo, hpresent] at hobserve
        subst hobserve
        exact .remove he rfl rfl rfl ⟨info, hpresent⟩ hhistory hinfo
  · cases h

/-- Every event keeps the invariant. -/
theorem step_inv (ho : o.Inv service) (h : o.step service e = some t) : t.Inv service := by
  obtain ⟨hle, hlt, hclock, hmove⟩ := step_cases ho h
  have hnow : 0 ≤ e.now := Int.le_trans ho.clock.1 hle
  have haway := ho.away_nonneg
  cases hmove with
  | register he hgone hcount hhistory hinfo =>
    obtain ⟨info, hinfo, hfirst, htotal⟩ := hinfo
    constructor
    · rw [hclock]
      exact ⟨hnow, hlt⟩
    · rcases hcount with ⟨-, hsame, -⟩ | ⟨absence, habsence, hsum, -⟩
      · omega
      · have := (ho.gone absence habsence).1
        omega
    · intro hnone
      rw [hhistory] at hnone
      cases hnone
    · intro info' hinfo'
      cases hinfo.symm.trans hinfo'
      exact ⟨hgone, _, hhistory, hfirst, htotal⟩
    · intro hnone
      rw [hinfo] at hnone
      cases hnone
    · intro history hsome
      cases hhistory.symm.trans hsome
      rw [hclock]
      cases hold : o.registry.providerHistory[service]? with
      | none =>
        obtain ⟨-, hgone', hzero, -⟩ := ho.unseen hold
        rw [Registry.registerHistory_of_none hold]
        rcases hcount with ⟨-, hsame, -⟩ | ⟨absence, habsence, -⟩
        · rw [hsame, hzero, Int.sub_self]
          exact ⟨hnow, Int.le_refl 0, hnow, Int.le_refl 0⟩
        · rw [hgone'] at habsence
          cases habsence
      | some old =>
        obtain ⟨hfirst', hlast⟩ := Registry.registerHistory_times hold e.now
        obtain ⟨h1, h2, h3, h4⟩ := ho.times old hold
        rw [hfirst', hlast]
        refine ⟨h1, h2, Int.le_trans h3 hle, ?_⟩
        rcases hcount with ⟨-, hsame, -⟩ | ⟨absence, habsence, hsum, -⟩
        · omega
        · have := ((ho.gone absence habsence).2 old hold).2.1
          omega
    · intro absence habsence
      rw [hgone] at habsence
      cases habsence
  | keep he hgone hsame hcount hhistory hinfo =>
    constructor
    · rw [hclock]
      exact ⟨hnow, hlt⟩
    · rwa [hsame]
    · rw [hhistory, hinfo, hgone, hsame, hcount]
      exact ho.unseen
    · rw [hhistory, hinfo, hgone]
      exact ho.present
    · rw [hhistory, hinfo, hgone]
      exact ho.absent
    · rw [hhistory, hsame, hclock]
      intro history hsome
      obtain ⟨h1, h2, h3, h4⟩ := ho.times history hsome
      exact ⟨h1, h2, Int.le_trans h3 hle, by omega⟩
    · rw [hhistory, hsame, hgone, hclock]
      intro absence habsence
      obtain ⟨hsince, hhist⟩ := ho.gone absence habsence
      exact ⟨Int.le_trans hsince hle, hhist⟩
  | remove he hgone hsame hcount hpresent hhistory hinfo =>
    obtain ⟨info, hpresent⟩ := hpresent
    obtain ⟨-, old, hold, -⟩ := ho.present info hpresent
    obtain ⟨h1, h2, h3, h4⟩ := ho.times old hold
    rw [hold, Option.map_some] at hhistory
    have hfirst := e.firstSeen_note old
    have hlast := e.lastDisconnect_note old
    constructor
    · rw [hclock]
      exact ⟨hnow, hlt⟩
    · rwa [hsame]
    · intro hnone
      rw [hhistory] at hnone
      cases hnone
    · intro info' hinfo'
      rw [hinfo] at hinfo'
      cases hinfo'
    · exact fun _ _ _ ↦ ⟨_, hgone⟩
    · intro history hsome
      cases hhistory.symm.trans hsome
      omega
    · intro absence habsence
      cases hgone.symm.trans habsence
      refine ⟨Int.le_of_eq hclock.symm, ?_⟩
      intro history hsome
      cases hhistory.symm.trans hsome
      dsimp only
      refine ⟨by omega, by omega, ?_⟩
      intro hpinged
      simpa [hpinged] using hlast

/-! ### What is added up -/

/-- The history is right about the intervals that have ended, and counts the one that has not when
the ping monitor began it. -/
def Accounted (service : Bytes) (o : Outage) : Prop :=
  ∀ history, o.registry.providerHistory[service]? = some history →
    history.totalDowntime = o.away ∧
      history.disconnectCount = o.absences + if o.gone.any Absence.pinged then 1 else 0

theorem accounted_start (service : Bytes) : start.Accounted service := by
  intro history h
  rw [start, Registry.start, Std.ExtTreeMap.getElem?_empty] at h
  cases h

/-- Only a REGISTER of the service adds up. -/
theorem accounted_of_not_registers (ho : o.Inv service) (he : ¬ e.Registers service)
    (hp : o.Accounted service) (h : o.step service e = some t) : t.Accounted service := by
  obtain ⟨-, -, -, hmove⟩ := step_cases ho h
  cases hmove with
  | register hreg => exact absurd hreg he
  | keep _ hgone haway hcount hhistory =>
    rw [Accounted, hgone, haway, hcount, hhistory]
    exact hp
  | remove _ hgone haway hcount hpresent hhistory =>
    obtain ⟨info, hpresent⟩ := hpresent
    obtain ⟨hnone, old, hold, -⟩ := ho.present info hpresent
    obtain ⟨htotal, hnumber⟩ := hp old hold
    rw [hnone, Option.any_none, if_neg Bool.false_ne_true] at hnumber
    intro history hsome
    rw [hhistory, hold, Option.map_some, Option.some.injEq] at hsome
    subst hsome
    rw [hgone, haway, hcount, e.totalDowntime_note, e.disconnectCount_note, hnumber]
    exact ⟨htotal, rfl⟩

/-- What a REGISTER adds to the sums, which stay below what a `size_t` holds. -/
private theorem registerHistory_sums {history : ProviderHistory} {now : Int} (ho : o.Inv service)
    (h : o.registry.providerHistory[service]? = some history) (hp : o.Accounted service)
    (hle : o.clock ≤ now) (hlt : now < 2 ^ 63) :
    ((o.registry.registerHistory service now).totalDowntime : Int) = o.away +
        (if 0 < history.lastDisconnect then now - history.lastDisconnect else 0) ∧
      (o.registry.registerHistory service now).disconnectCount =
        o.absences + (if o.gone.any Absence.pinged then 1 else 0) +
          if 0 < history.lastDisconnect then 1 else 0 := by
  obtain ⟨htotal, hnumber⟩ := hp history h
  obtain ⟨hfirst, hzero, hlast, haway⟩ := ho.times history h
  have hnonneg := ho.away_nonneg
  by_cases hnoted : 0 < history.lastDisconnect
  · rw [Registry.registerHistory_of_noted h hnoted, if_pos hnoted, if_pos hnoted]
    dsimp only
    constructor
    · omega
    · rw [hnumber]
  · rw [Registry.registerHistory_of_zero h (by omega), if_neg hnoted, if_neg hnoted]
    constructor
    · omega
    · exact hnumber

/-- What a REGISTER adds up is right exactly when the history has noted what there was. -/
theorem accounted_register_iff (ho : o.Inv service) (he : e.Registers service)
    (hp : o.Accounted service) (h : o.step service e = some t) :
    t.Accounted service ↔ o.Booked service e := by
  obtain ⟨hle, hlt, -, hmove⟩ := step_cases ho h
  cases hmove with
  | keep hreg | remove hreg => exact absurd he hreg
  | register _ hgone hcount hhistory =>
    simp only [Accounted, Booked, Noted, hgone, hhistory, he, true_implies, Option.some.injEq,
      forall_eq', Option.any_none, if_neg Bool.false_ne_true, Nat.add_zero]
    cases hold : o.registry.providerHistory[service]? with
    | none =>
      obtain ⟨-, hnone, haway, hzero⟩ := ho.unseen hold
      rw [Registry.registerHistory_of_none hold]
      apply iff_of_true
      · rcases hcount with ⟨-, haway', hzero'⟩ | ⟨absence, habsence, -⟩
        · rw [haway', hzero', haway, hzero]
          exact ⟨rfl, rfl⟩
        · rw [hnone] at habsence
          cases habsence
      · intro history hsome
        cases hsome
    | some old =>
      obtain ⟨htotal, hnumber⟩ := registerHistory_sums ho hold hp hle hlt
      simp only [Option.some.injEq, forall_eq']
      rw [htotal, hnumber]
      rcases hcount with ⟨hpresent, haway, hcount⟩ | ⟨absence, habsence, haway, hcount⟩
      · rw [hpresent, haway, hcount]
        obtain ⟨-, hzero, -⟩ := ho.times old hold
        by_cases hnoted : 0 < old.lastDisconnect
        · simp only [if_pos hnoted, Option.any_none, if_neg Bool.false_ne_true]
          omega
        · simp only [if_neg hnoted, Option.any_none, if_neg Bool.false_ne_true]
          omega
      · obtain ⟨since, pinged⟩ := absence
        rw [habsence, haway, hcount]
        obtain ⟨-, hgone⟩ := ho.gone _ habsence
        obtain ⟨hsince, -, hpinged⟩ := hgone old hold
        obtain ⟨-, hzero, -⟩ := ho.times old hold
        dsimp only [Option.any_some] at hsince hpinged ⊢
        -- The ping monitor has counted the absence already, and a REGISTER counts what is noted.
        cases pinged with
        | true =>
          have := hpinged rfl
          by_cases hnoted : 0 < old.lastDisconnect
          · simp only [if_pos hnoted, if_true, reduceCtorEq, false_and, false_or, true_and]
            omega
          · simp only [if_neg hnoted, if_true, reduceCtorEq, false_and, false_or, true_and,
              and_true]
            omega
        | false =>
          by_cases hnoted : 0 < old.lastDisconnect
          · simp only [if_pos hnoted, reduceCtorEq, if_false, false_and, or_false, true_and,
              and_true, Nat.add_zero]
            omega
          · simp only [if_neg hnoted, reduceCtorEq, if_false, false_and, or_false, true_and,
              Nat.add_zero]
            omega

/-- An entry of the registry shows what is right: the service was not away for longer than it is
known, and the time it was there is no negative number. -/
theorem totalUptime_eq (ho : o.Inv service) (hp : o.Accounted service) {info : ProviderInfo}
    (hinfo : o.registry.providers[service]? = some info) {now : Int} (hle : o.clock ≤ now)
    (hlt : now < 2 ^ 63) : (info.totalDowntime : Int) ≤ now - info.firstSeen ∧
      (info.totalUptime now : Int) = now - info.firstSeen - info.totalDowntime := by
  obtain ⟨-, history, hhistory, hfirst, htotal⟩ := ho.present info hinfo
  obtain ⟨haway, -⟩ := hp history hhistory
  obtain ⟨h1, -, -, h4⟩ := ho.times history hhistory
  have hle' : (info.totalDowntime : Int) ≤ now - info.firstSeen := by
    rw [htotal, hfirst, haway]
    omega
  refine ⟨hle', ?_⟩
  rw [ProviderInfo.totalUptime]
  omega

/-- Behind a REGISTER of the service there is no interval that has not ended. -/
theorem accounted_iff_exact (ho : o.Inv service) (he : e.Registers service)
    (h : o.step service e = some t) : t.Accounted service ↔ t.Exact service := by
  obtain ⟨-, -, -, hmove⟩ := step_cases ho h
  cases hmove with
  | register _ hgone => simp [Accounted, Exact, hgone]
  | keep hreg | remove hreg => exact absurd he hreg

end Outage

/-- In every run, the history of a service is right behind each REGISTER of it exactly when at each
of them what it had noted was right; and in such a run the time away that the entry shows is at
most the time since the service was first seen, so that the difference of the two never
underflows. -/
theorem exact_iff_booked (service : Bytes) (es : List ProviderEvent) (o : Outage)
    (hr : run (Outage.step service) .start es = some o) :
    ((∀ ks req fd ip now u, req.serviceId = service →
        ks ++ [.register req fd ip now] <+: es →
        run (Outage.step service) .start (ks ++ [.register req fd ip now]) = some u →
          u.Exact service) ↔
      Always (Outage.step service) (Outage.Booked service) .start es) ∧
    (Always (Outage.step service) (Outage.Booked service) .start es →
      ∀ info now, o.registry.providers[service]? = some info → o.clock ≤ now → now < 2 ^ 63 →
        (info.totalDowntime : Int) ≤ now - info.firstSeen ∧
          (info.totalUptime now : Int) = now - info.firstSeen - info.totalDowntime) := by
  have hinv : ∀ s l t, s.Inv service → Outage.step service s l = some t → t.Inv service :=
    fun _ _ _ ↦ Outage.step_inv
  have hiff : (∀ ks u, ks <+: es → run (Outage.step service) .start ks = some u →
      u.Accounted service) ↔ Always (Outage.step service) (Outage.Booked service) .start es := by
    apply forall_prefix_iff_always _ hinv _ (Outage.inv_start service)
      (Outage.accounted_start service) hr
    intro s e t hs hp h
    by_cases he : e.Registers service
    · exact Outage.accounted_register_iff hs he hp h
    · exact iff_of_true (Outage.accounted_of_not_registers hs he hp h) fun hreg ↦ absurd hreg he
  have hevents : (∀ ks u, ks <+: es → run (Outage.step service) .start ks = some u →
      u.Accounted service) ↔ ∀ ks e u, e.Registers service → ks ++ [e] <+: es →
        run (Outage.step service) .start (ks ++ [e]) = some u → u.Accounted service :=
    forall_prefix_iff_of_events _ hinv
      (fun _ _ _ hs hl hp ↦ Outage.accounted_of_not_registers hs hl hp)
      (Outage.inv_start service) (Outage.accounted_start service)
  have hexact : ∀ ks e u, e.Registers service →
      run (Outage.step service) .start (ks ++ [e]) = some u →
        (u.Accounted service ↔ u.Exact service) := by
    intro ks e u he hu
    rw [run_append] at hu
    obtain ⟨v, hv, hstep⟩ := Option.bind_eq_some_iff.mp hu
    obtain ⟨w, hw, hlast⟩ := Option.bind_eq_some_iff.mp hstep
    cases hlast
    exact Outage.accounted_iff_exact (invariant_of_run _ hinv (Outage.inv_start service) hv) he hw
  constructor
  · rw [← hiff, hevents]
    constructor
    · intro h ks e u he hks hu
      cases e with
      | register req fd ip now => exact (hexact ks _ u he hu).mpr (h ks req fd ip now u he hks hu)
      | _ => exact absurd he id
    · intro h ks req fd ip now u hreq hks hu
      have he : (ProviderEvent.register req fd ip now).Registers service := hreq
      exact (hexact ks _ u he hu).mp (h ks _ u he hks hu)
  · intro halways info now hinfo hle hlt
    exact Outage.totalUptime_eq (invariant_of_run _ hinv (Outage.inv_start service) hr)
      (hiff.mpr halways es o (List.prefix_refl es) hr) hinfo hle hlt

/-- A camera that registers. -/
def camRegisters (now : Int) : ProviderEvent :=
  .register ⟨lit "cam", lit "k1", 0, [], lit "rtsp", lit "h264", 0⟩ 4 (lit "10.0.0.7") now

/-- A camera that disconnects after a while, and is back a minute later. -/
def reconnect : List ProviderEvent := [camRegisters 100, .leave 4 200, camRegisters 260]

theorem exact_reconnect :
    ∃ o, run (Outage.step (lit "cam")) .start reconnect = some o ∧ o.Exact (lit "cam") := by
  obtain ⟨o, hr, -⟩ : ∃ o, run (Outage.step (lit "cam")) .start reconnect = some o ∧ True :=
    exists_run _ _ (by decide +kernel)
  have hexact := (exact_iff_booked (lit "cam") reconnect o hr).1.mpr (by decide +kernel)
  exact ⟨o, hr, hexact [camRegisters 100, .leave 4 200] _ _ _ _ o rfl (List.prefix_refl _) hr⟩

/-- A camera that then registers once more on the connection that it has: it was away for 60
seconds once, and its history says that it was away for 160 seconds twice. -/
theorem exact_again : ∃ o, run (Outage.step (lit "cam")) .start (reconnect ++ [camRegisters 300]) =
    some o ∧ ¬ o.Exact (lit "cam") :=
  exists_run _ _ (by decide +kernel)

end Kitty.Signal
