import Kitty.Forwarding.Owned

/-!
# The provider's connections

A forward thread of the provider is started when the first chunk of an unknown connection has
come and the local service was reached, which is waited for without the mutex; idle cleanup and a
new session close connections under it;
`src/provider-srt/_legacy_libjuice_provider_configurable.c:577–833, 1045–1064, 1105–1160`.
-/

namespace Kitty.Forwarding

open Kitty.Base

/-- `MAX_SERVICES`. -/
def maxServices : Nat := 8

/-- Where `on_recv` of a service is. The ICE library receives on one thread, so it is not called
again before it returns. -/
inductive Callback where
  | idle
  | dialing (connId : BitVec 32)
  | dialed (connId : BitVec 32) (localSocket : Option Nat)
  deriving DecidableEq

/-- `services`, with what its threads share. -/
structure ProviderState extends Shared maxServices where
  connected : Fin maxServices → Bool
  callback : Fin maxServices → Callback

/-- After the configuration was read. -/
def ProviderState.start : ProviderState :=
  ⟨Shared.start maxServices, fun _ ↦ false, fun _ ↦ .idle⟩

/-- A first chunk comes, with memory for a new connection or without; the local service is
reached, or not; `on_recv` goes on, with memory for the argument of the forward thread or without,
and the thread is started or not; the session of a service begins or ends; the cleanup thread or a
new consumer closes connections; the process opens or closes another descriptor; a thread takes
its next step. -/
inductive ProviderEvent where
  | recv (g : Fin maxServices) (connId : BitVec 32) (memory : Bool)
  | dialed (g : Fin maxServices) (fd : Option Nat)
  | attach (g : Fin maxServices) (memory started : Bool)
  | ice (g : Fin maxServices) (connected : Bool)
  | cleanup (g : Fin maxServices)
  | reconnect (g : Fin maxServices)
  | openOther (fd : Nat)
  | closeOther (fd : Nat)
  | advance (p : Nat) (o : Outcome)

namespace ProviderState

variable (w : ProviderState)

/-- `on_recv` goes on to something else. -/
def setCallback (g : Fin maxServices) (c : Callback) : ProviderState :=
  { w with callback := Function.update w.callback g c }

/-- `on_recv` has the mutex back after it has dialed, and looks for its connection again. -/
def attachStep (g : Fin maxServices) (memory started : Bool) (connId : BitVec 32)
    (fd : Option Nat) : ProviderState :=
  match w.findConnection g connId, fd with
  | none, none => w.setCallback g .idle
  | none, some fd => { w.setCallback g .idle with toShared := w.closeFd fd }
  | some i, none =>
    { w.setCallback g .idle with toShared := w.sweep .callback g [] (.closing (g, i) .load) }
  | some i, some fd =>
    let c := w.attach (g, i) fd
    let next :=
      if memory then if started then c.spawn (g, i) else c
      else (c.closeFd fd).sweep .callback g [] (.closing (g, i) .load)
    { w.setCallback g .idle with toShared := next }

/-- The next step of a thread. The cleanup thread and a new session have the mutex while they
close connections. -/
def advanceStep (p : Nat) (o : Outcome) : Thread maxServices → Option ProviderState
  | .forward s n pc =>
    (w.forwardStep true (w.connected s.1) false p s n o pc).map fun t ↦ { w with toShared := t }
  | .sweep kind g todo .enter =>
    if w.locked g then none else some { w with toShared := w.goTo p (.sweep kind g todo .look) }
  | .sweep kind g todo .leave =>
    some { w with toShared := w.goTo p (.sweep kind g todo .done) }
  | .sweep kind g todo pc =>
    (w.sweepStep p kind g o todo pc).map fun t ↦ { w with toShared := t }

/-- The provider and what happens to it. -/
def step : ProviderEvent → Option ProviderState
  | .recv g connId memory =>
    if w.callback g = .idle ∧ w.locked g = false then
      match w.findConnection g connId, w.freePlace g with
      | some _, _ => some w
      | none, none => some w
      | none, some i =>
        if memory then
          some { w.setCallback g (.dialing connId) with toShared := w.create (g, i) connId }
        else some { w with toShared := w.reset (g, i) }
    else none
  | .dialed g fd =>
    match w.callback g, fd with
    | .dialing connId, none => some (w.setCallback g (.dialed connId none))
    | .dialing connId, some fd =>
      if w.Lowest fd then
        some { w.setCallback g (.dialed connId (some fd)) with
          toShared := w.openFd fd (.pending g) }
      else none
    | _, _ => none
  | .attach g memory started =>
    match w.callback g with
    | .dialed connId fd =>
      if w.locked g then none else some (w.attachStep g memory started connId fd)
    | _ => none
  | .ice g connected =>
    if w.locked g then none
    else some { w with connected := Function.update w.connected g connected }
  | .cleanup g =>
    some { w with toShared := w.sweep .cleanup g (List.finRange maxConnections) .enter }
  | .reconnect g =>
    some { w with
      toShared := w.sweep .reconnect g (List.finRange maxConnections) .enter
      connected := Function.update w.connected g false }
  | .openOther fd =>
    if w.Lowest fd then some { w with toShared := w.openFd fd .other } else none
  | .closeOther fd =>
    if w.descriptors fd = some .other then some { w with toShared := w.closeFd fd } else none
  | .advance p o => w.threads[p]?.bind (w.advanceStep p o)

/-- A place is taken only when no thread has a pointer to it, and a number of a descriptor is
given out only when no thread has it and it is in no place that is used. -/
def Fresh (w : ProviderState) : ProviderEvent → Prop
  | .recv g connId _ =>
    w.findConnection g connId = none → ∀ i ∈ w.freePlace g, ¬ w.Pointed (g, i)
  | .dialed _ fd => ∀ n ∈ fd, w.Unused n
  | .openOther fd => w.Unused fd
  | _ => True

/-- While `on_recv` of a service waits, the connections of its number have no forward thread, and
the socket it brings is its own. -/
structure Ready : Prop extends w.Owned where
  dialing : ∀ g connId, (w.callback g = .dialing connId ∨ ∃ fd, w.callback g = .dialed connId fd) →
    ∀ i, (w.connections (g, i)).active = true → (w.connections (g, i)).connId = connId →
      ¬ w.Served (g, i)
  dialed : ∀ g connId fd, w.callback g = .dialed connId (some fd) →
    w.descriptors fd = some (.pending g)

variable {w}

theorem ready_start : ProviderState.start.Ready where
  toOwned := owned_start maxServices
  dialing g connId h := by
    obtain h | ⟨fd, h⟩ := h <;> cases h
  dialed g connId fd h := by cases h

/-- What a service that waits needs of a step: none of its places was taken, none of its forward
threads started and its socket not closed. -/
structure Keeps (w : ProviderState) (t : Shared maxServices) (g : Fin maxServices) : Prop where
  place : ∀ i, (t.connections (g, i)).active = true → (w.connections (g, i)).active = true ∧
    (t.connections (g, i)).connId = (w.connections (g, i)).connId
  served : ∀ i, t.Served (g, i) → w.Served (g, i)
  pending : ∀ fd, w.descriptors fd = some (.pending g) → t.descriptors fd = some (.pending g)

theorem keeps_of_closes {t : Shared maxServices} (h : w.Closes t) (g : Fin maxServices) :
    w.Keeps t g :=
  ⟨fun i ↦ h.place (g, i), fun i ↦ h.served (g, i), fun fd ↦ h.pending fd g⟩

/-- The services that wait are ready as before. -/
theorem Ready.mono (h : w.Ready) {t : Shared maxServices} {connected : Fin maxServices → Bool}
    {callback : Fin maxServices → Callback} (howned : t.Owned)
    (hkeeps : ∀ g, callback g = .idle ∨ callback g = w.callback g ∧ w.Keeps t g) :
    Ready ⟨t, connected, callback⟩ where
  toOwned := howned
  dialing := by
    intro g connId hg i hactive hid hserved
    obtain hidle | ⟨heq, hk⟩ := hkeeps g
    · obtain hg | ⟨fd, hg⟩ := hg <;> cases hidle.symm.trans hg
    · obtain ⟨hactive', hid'⟩ := hk.place i hactive
      simp only [heq] at hg
      exact h.dialing g connId hg i hactive' (hid'.symm.trans hid) (hk.served i hserved)
  dialed := by
    intro g connId fd hg
    obtain hidle | ⟨heq, hk⟩ := hkeeps g
    · cases hidle.symm.trans hg
    · exact hk.pending fd (h.dialed g connId fd (heq.symm.trans hg))

theorem Ready.closes (h : w.Ready) {t : Shared maxServices} {connected : Fin maxServices → Bool}
    (howned : t.Owned) (hcloses : w.Closes t) : Ready ⟨t, connected, w.callback⟩ :=
  h.mono howned fun g ↦ .inr ⟨rfl, keeps_of_closes hcloses g⟩

/-- `on_recv` of one service returns, with nothing changed for the others. -/
theorem Ready.returns (h : w.Ready) {t : Shared maxServices} {g : Fin maxServices}
    (howned : t.Owned) (hkeeps : ∀ g', g' ≠ g → w.Keeps t g') :
    Ready { w.setCallback g .idle with toShared := t } := by
  apply h.mono howned
  intro g'
  by_cases hg : g' = g
  · exact .inl (by rw [hg]; exact Function.update_self ..)
  · exact .inr ⟨Function.update_of_ne hg .., hkeeps g' hg⟩

theorem find_eq_some {g : Fin maxServices} {connId : BitVec 32} {i : Fin maxConnections}
    (h : w.findConnection g connId = some i) :
    (w.connections (g, i)).active = true ∧ (w.connections (g, i)).connId = connId := by
  simpa using List.find?_some h

theorem Ready.attachStep (h : w.Ready) {g : Fin maxServices} {memory started : Bool}
    {connId : BitVec 32} {fd : Option Nat} (hg : w.callback g = .dialed connId fd) :
    (w.attachStep g memory started connId fd).Ready := by
  have hpending : ∀ {k : Nat} {g' : Fin maxServices}, fd = some k → g' ≠ g →
      ∀ k', w.descriptors k' = some (.pending g') → k' ≠ k := by
    rintro k g' rfl hne k' hk' rfl
    have heq := (h.dialed g connId k' hg).symm.trans hk'
    simp only [Option.some.injEq, Owner.pending.injEq] at heq
    exact hne (Fin.ext heq).symm
  unfold ProviderState.attachStep
  cases hi : w.findConnection g connId with
  | none =>
    cases fd with
    | none => exact h.returns h.toOwned fun g' _ ↦ keeps_of_closes (.refl _) g'
    | some fd =>
      refine h.returns (h.closeFd fd) fun g' hne ↦ ⟨fun _ hs ↦ ⟨hs, rfl⟩, fun _ hs ↦ hs, ?_⟩
      intro k hk
      exact (Function.update_of_ne (hpending rfl hne k hk) ..).trans hk
  | some i =>
    obtain ⟨hactive, hid⟩ := find_eq_some hi
    cases fd with
    | none =>
      refine h.returns (h.sweep ?_) fun g' _ ↦ keeps_of_closes closes_sweep g'
      intro s c heq
      cases heq
      exact ⟨hactive, rfl⟩
    | some fd =>
      have hnot := h.dialing g connId (.inr ⟨_, hg⟩) i hactive hid
      have howned : (w.attach (g, i) fd).Owned := h.attach (h.dialed g connId fd hg)
      have hactive' : ((w.attach (g, i) fd).connections (g, i)).active = true := by
        simpa [Shared.attach] using hactive
      have hkeeps : ∀ g', g' ≠ g → w.Keeps (w.attach (g, i) fd) g' := by
        intro g' hne
        refine ⟨?_, fun _ hs ↦ hs, ?_⟩
        · intro j hj
          have hslot : (g', j) ≠ (g, i) := fun heq ↦ hne (congrArg Prod.fst heq)
          simp only [Shared.attach, Function.update_of_ne hslot] at hj ⊢
          exact ⟨hj, trivial⟩
        · intro k hk
          exact (Function.update_of_ne (hpending rfl hne k hk) ..).trans hk
      cases memory with
      | true =>
        cases started with
        | true =>
          apply h.returns (howned.spawn hactive' hnot)
          intro g' hne
          refine ⟨(hkeeps g' hne).place, ?_, (hkeeps g' hne).pending⟩
          intro j hj
          obtain ⟨th, hth, hs⟩ := hj
          obtain hold | hnew := List.mem_append.mp hth
          · exact ⟨th, hold, hs⟩
          · rw [List.mem_singleton.mp hnew] at hs
            cases hs
            exact absurd rfl hne
        | false => exact h.returns howned hkeeps
      | false =>
        have hclosed : ((w.attach (g, i) fd).closeFd fd).Owned := howned.closeFd fd
        have hnew : (((w.attach (g, i) fd).closeFd fd).sweep .callback g []
            (.closing (g, i) .load)).Owned := by
          apply hclosed.sweep
          intro s c heq
          cases heq
          exact ⟨hactive', rfl⟩
        refine h.returns hnew fun g' hne ↦ ⟨(hkeeps g' hne).place, ?_, ?_⟩
        · intro j hj
          exact (closes_sweep.served (g', j) hj : _)
        · intro k hk
          exact (Function.update_of_ne (hpending rfl hne k hk) ..).trans
            ((hkeeps g' hne).pending k hk)

theorem Ready.advanceStep (h : w.Ready) {p : Nat} {o : Outcome} {th : Thread maxServices}
    (hp : w.threads[p]? = some th) {t : ProviderState} (hstep : w.advanceStep p o th = some t) :
    t.Ready := by
  cases th with
  | forward s n pc =>
    simp only [ProviderState.advanceStep, Option.map_eq_some_iff] at hstep
    obtain ⟨t, ht, rfl⟩ := hstep
    exact h.closes (h.forwardStep hp ht) (h.closes_forwardStep hp ht)
  | sweep kind g todo pc =>
    have hgo : ∀ pc', (Thread.sweep kind g todo pc').pointsTo = none →
        Ready { w with toShared := w.goTo p (.sweep kind g todo pc') } := fun pc' hpc' ↦
      h.closes (h.goSweep hp hpc') (closes_goTo hp fun s hs ↦ by cases hs)
    cases pc with
    | enter =>
      simp only [ProviderState.advanceStep] at hstep
      split at hstep <;> cases hstep
      exact hgo .look rfl
    | leave =>
      cases hstep
      exact hgo .done rfl
    | _ =>
      simp only [ProviderState.advanceStep, Option.map_eq_some_iff] at hstep
      obtain ⟨t', ht', rfl⟩ := hstep
      exact h.closes (h.sweepStep hp ht') (h.closes_sweepStep hp ht')

/-- A connection is created, and the local service called. -/
theorem Ready.create (h : w.Ready) {g : Fin maxServices} {connId : BitVec 32}
    {i : Fin maxConnections} (hnone : w.findConnection g connId = none)
    (hnot : ¬ w.Pointed (g, i)) :
    Ready { w.setCallback g (.dialing connId) with toShared := w.create (g, i) connId } where
  toOwned := h.toOwned.create connId hnot
  dialing := by
    intro g' connId' hg' j hactive hid hserved
    by_cases hslot : (g', j) = (g, i)
    · rw [hslot] at hserved
      exact hnot (pointed_of_served hserved)
    · simp only [Shared.create, Function.update_of_ne hslot] at hactive hid
      by_cases hgg : g' = g
      · subst hgg
        have hconn : connId' = connId := by
          obtain hg' | ⟨fd, hg'⟩ := hg' <;>
            simp only [setCallback, Function.update_self] at hg' <;> cases hg'
          rfl
        have hnot' := List.find?_eq_none.mp hnone j (List.mem_finRange j)
        rw [hactive, hid, hconn] at hnot'
        simp at hnot'
      · simp only [setCallback, Function.update_of_ne hgg] at hg'
        exact h.dialing g' connId' hg' j hactive hid hserved
  dialed := by
    intro g' connId' fd hg'
    by_cases hgg : g' = g
    · subst hgg
      simp only [setCallback, Function.update_self] at hg'
      cases hg'
    · simp only [setCallback, Function.update_of_ne hgg] at hg'
      exact h.dialed g' connId' fd hg'

/-- There was no memory for a connection. -/
theorem Ready.reset (h : w.Ready) {g : Fin maxServices} {i : Fin maxConnections}
    (hnot : ¬ w.Pointed (g, i)) : Ready { w with toShared := w.reset (g, i) } := by
  refine h.mono (h.toOwned.reset hnot) fun g' ↦ .inr ⟨rfl, ?_, fun _ hs ↦ hs,
    fun _ hfd ↦ hfd⟩
  intro j hj
  by_cases hslot : (g', j) = (g, i)
  · simp [hslot, Shared.reset, Connection.zero] at hj
  · simp only [Shared.reset, Function.update_of_ne hslot] at hj ⊢
    exact ⟨hj, trivial⟩

/-- The local service was reached, or not. -/
theorem Ready.reached (h : w.Ready) {g : Fin maxServices} {connId : BitVec 32} {fd : Option Nat}
    {t : Shared maxServices} (hg : w.callback g = .dialing connId) (howned : t.Owned)
    (hkeeps : ∀ g', w.Keeps t g')
    (hfd : ∀ fd', fd = some fd' → t.descriptors fd' = some (.pending g)) :
    Ready { w.setCallback g (.dialed connId fd) with toShared := t } where
  toOwned := howned
  dialing := by
    intro g' connId' hg' i hactive hid hserved
    obtain ⟨hactive', hid'⟩ := (hkeeps g').place i hactive
    refine h.dialing g' connId' ?_ i hactive' (hid'.symm.trans hid) ((hkeeps g').served i hserved)
    by_cases hgg : g' = g
    · subst hgg
      obtain hg' | ⟨fd, hg'⟩ := hg' <;>
        simp only [setCallback, Function.update_self] at hg' <;> cases hg'
      exact .inl hg
    · simpa only [setCallback, Function.update_of_ne hgg] using hg'
  dialed := by
    intro g' connId' fd' hg'
    by_cases hgg : g' = g
    · subst hgg
      simp only [setCallback, Function.update_self] at hg'
      cases hg'
      exact hfd fd' rfl
    · simp only [setCallback, Function.update_of_ne hgg] at hg'
      exact (hkeeps g').pending fd' (h.dialed g' connId' fd' hg')

theorem ready_step (w : ProviderState) (e : ProviderEvent) (t : ProviderState)
    (hfresh : Fresh w e) (h : w.Ready) (hstep : w.step e = some t) : t.Ready := by
  cases e with
  | recv g connId memory =>
    simp only [ProviderState.step] at hstep
    split at hstep
    · next hidle =>
      split at hstep
      · cases hstep
        exact h
      · cases hstep
        exact h
      · next i hnone hi =>
        have hnot := hfresh hnone i hi
        split at hstep <;> cases hstep
        · exact h.create hnone hnot
        · exact h.reset hnot
    · cases hstep
  | dialed g fd =>
    simp only [ProviderState.step] at hstep
    cases hg : w.callback g with
    | dialing connId =>
      cases fd with
      | none =>
        simp only [hg] at hstep
        cases hstep
        exact h.reached hg h.toOwned (fun _ ↦ keeps_of_closes (.refl _) _)
          fun fd hfd ↦ by cases hfd
      | some fd =>
        simp only [hg] at hstep
        split at hstep
        · next hlowest =>
          cases hstep
          refine h.reached hg (h.openFd _ (hfresh fd rfl))
            (fun _ ↦ keeps_of_closes (closes_openFd hlowest.1) _) ?_
          intro fd' hfd
          cases hfd
          exact Function.update_self ..
        · cases hstep
    | _ => simp only [hg] at hstep; cases hstep
  | attach g memory started =>
    simp only [ProviderState.step] at hstep
    split at hstep
    · next connId fd hg =>
      split at hstep <;> cases hstep
      exact h.attachStep hg
    · cases hstep
  | ice g connected =>
    simp only [ProviderState.step] at hstep
    split at hstep <;> cases hstep
    exact h.closes h.toOwned (.refl _)
  | cleanup g =>
    cases hstep
    exact h.closes (h.sweep fun s c heq ↦ by cases heq) closes_sweep
  | reconnect g =>
    cases hstep
    exact h.closes (h.sweep fun s c heq ↦ by cases heq) closes_sweep
  | openOther fd =>
    simp only [ProviderState.step] at hstep
    split at hstep
    · next hlowest =>
      cases hstep
      exact h.closes (h.openFd .other hfresh) (closes_openFd hlowest.1)
    · cases hstep
  | closeOther fd =>
    simp only [ProviderState.step] at hstep
    split at hstep
    · next hother =>
      cases hstep
      refine h.closes (h.closeFd fd) (closes_closeFd ?_)
      intro n hn
      cases hother.symm.trans hn
    · cases hstep
  | advance p o =>
    obtain ⟨th, hp, hstep⟩ := Option.bind_eq_some_iff.mp hstep
    exact h.advanceStep hp hstep

end ProviderState

end Kitty.Forwarding
