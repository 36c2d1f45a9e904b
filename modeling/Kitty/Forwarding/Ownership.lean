import Kitty.Forwarding.Consumer
import Kitty.Forwarding.Provider

/-!
# Who owns a forwarded connection

A forward thread has a pointer to a place in an array, not to a connection. When its connection is
closed by other code it may still sleep, or stand before `recv`, while the place is taken for
another connection and the number of its socket given out again; nothing in the source rules that
out. In the runs in which neither happens, every forward thread has its connection for itself;
`src/provider-srt/_legacy_libjuice_provider_configurable.c:586–723, 1045–1064` and
`src/consumer-srt-cloud/_legacy_libjuice_consumer_api.c:559–712, 1602–1671`.
-/

namespace Kitty.Forwarding

open Kitty.Base

/-- In every run in which no place is taken while a thread has a pointer to it, and no number
given out while a thread or a place that is used has it, at most one forward thread has a
connection, and forward threads read, close and free only what is of the connection they were
started for. -/
theorem forward_threads_own (providerEvents : List ProviderEvent)
    (consumerEvents : List ConsumerEvent) :
    (∀ t, run ProviderState.step ProviderState.start providerEvents = some t →
      Always ProviderState.step ProviderState.Fresh ProviderState.start providerEvents →
        t.Exclusive ∧ t.OwnAccesses) ∧
      ∀ t, run ConsumerState.step ConsumerState.start consumerEvents = some t →
        Always ConsumerState.step ConsumerState.Fresh ConsumerState.start consumerEvents →
          t.Exclusive ∧ t.OwnAccesses := by
  constructor
  · intro t hrun hfresh
    have hready := invariant_run ProviderState.step ProviderState.ready_step hfresh
      ProviderState.ready_start hrun
    exact ⟨hready.exclusive, hready.accesses⟩
  · intro t hrun hfresh
    have hready := invariant_run ConsumerState.step ConsumerState.ready_step hfresh
      ConsumerState.ready_start hrun
    exact ⟨hready.exclusive, hready.accesses⟩

instance (w : ProviderState) : (e : ProviderEvent) → Decidable (w.Fresh e)
  | .recv g connId _ =>
    inferInstanceAs (Decidable
      (w.findConnection g connId = none → ∀ i ∈ w.freePlace g, ¬ w.Pointed (g, i)))
  | .dialed _ fd => inferInstanceAs (Decidable (∀ n ∈ fd, w.Unused n))
  | .openOther fd => inferInstanceAs (Decidable (w.Unused fd))
  | .attach _ _ _ | .ice _ _ | .cleanup _ | .reconnect _ | .closeOther _ | .advance _ _ =>
    isTrue trivial

instance (w : ConsumerState) : (e : ConsumerEvent) → Decidable (w.Fresh e)
  | .allocate => inferInstanceAs (Decidable (∀ g ∈ w.freeCamera, ∀ i, ¬ w.Pointed (g, i)))
  | .accept _ fd => inferInstanceAs (Decidable (w.Unused fd))
  | .install k _ _ =>
    inferInstanceAs (Decidable (∀ a ∈ w.accepted[k]?, ∀ c ∈ a,
      (w.cameras c.1).connected = true → ∀ i ∈ w.freePlace c.1, ¬ w.Pointed (c.1, i)))
  | .openOther fd => inferInstanceAs (Decidable (w.Unused fd))
  | .ice _ _ | .reconnect _ | .free _ | .closeOther _ | .advance _ _ => isTrue trivial

/-- The first service has a session, and a first chunk makes a connection with the
descriptor 3. -/
def providerConnection (connId : BitVec 32) : List ProviderEvent :=
  let g : Fin maxServices := ⟨0, by decide⟩
  [.ice g true, .recv g connId true, .dialed g (some 3), .attach g true true]

/-- The first camera has a session, and its accept thread brings the descriptor 3. -/
def consumerConnection (k : Nat) : List ConsumerEvent :=
  let g : Fin Vms.maxCameras := ⟨0, Vms.maxCameras_pos⟩
  [.ice g true, .accept g 3, .install k true true]

/-- A connection comes to its end, and the next one has its place and its descriptor. -/
def providerReuse : List ProviderEvent :=
  providerConnection 1 ++ List.replicate 6 (.advance 0 .ok) ++
    List.replicate 6 (.advance 0 .over) ++ providerConnection 2 ++
    List.replicate 7 (.advance 1 .ok)

/-- The same at the consumer. -/
def consumerReuse : List ConsumerEvent :=
  .allocate :: consumerConnection 0 ++ List.replicate 6 (.advance 0 .ok) ++
    List.replicate 6 (.advance 0 .over) ++ consumerConnection 1 ++
    List.replicate 7 (.advance 1 .ok)

theorem forward_threads_own_reuse :
    (∃ t, run ProviderState.step ProviderState.start providerReuse = some t ∧
      (1, .conn 1) ∈ t.accesses ∧ (2, .conn 2) ∈ t.accesses ∧ t.Exclusive ∧ t.OwnAccesses) ∧
      ∃ t, run ConsumerState.step ConsumerState.start consumerReuse = some t ∧
        (2, .conn 2) ∈ t.accesses ∧ (3, .conn 3) ∈ t.accesses ∧ t.Exclusive ∧ t.OwnAccesses := by
  have hprovider : ∃ t, run ProviderState.step ProviderState.start providerReuse = some t ∧
      (1, .conn 1) ∈ t.accesses ∧ (2, .conn 2) ∈ t.accesses :=
    exists_run ProviderState.step _ (by decide +kernel)
  have hconsumer : ∃ t, run ConsumerState.step ConsumerState.start consumerReuse = some t ∧
      (2, .conn 2) ∈ t.accesses ∧ (3, .conn 3) ∈ t.accesses :=
    exists_run ConsumerState.step _ (by decide +kernel)
  obtain ⟨t, ht, hfirst, hsecond⟩ := hprovider
  obtain ⟨u, hu, hfirst', hsecond'⟩ := hconsumer
  refine ⟨⟨t, ht, hfirst, hsecond, ?_⟩, ⟨u, hu, hfirst', hsecond', ?_⟩⟩
  · exact (forward_threads_own providerReuse consumerReuse).1 t ht (by decide +kernel)
  · exact (forward_threads_own providerReuse consumerReuse).2 u hu (by decide +kernel)

/-- A forward thread finds nothing to read and sleeps, other code closes its connection, and the
next connection has its place and its descriptor when it wakes up. -/
theorem old_thread_serves_new_connection :
    (¬ ∀ events t, run ProviderState.step ProviderState.start events = some t →
      t.Exclusive ∧ t.OwnAccesses) ∧
      ¬ ∀ events t, run ConsumerState.step ConsumerState.start events = some t →
        t.Exclusive ∧ t.OwnAccesses := by
  constructor
  · intro h
    have hrun : ∃ t, run ProviderState.step ProviderState.start
        (providerConnection 1 ++ List.replicate 6 (.advance 0 .ok) ++
          [.advance 0 .again, .cleanup ⟨0, by decide⟩] ++ List.replicate 71 (.advance 1 .ok) ++
          providerConnection 2 ++ List.replicate 6 (.advance 0 .ok)) = some t ∧
        (1, Owner.conn 2) ∈ t.accesses :=
      exists_run ProviderState.step _ (by decide +kernel)
    obtain ⟨t, ht, hforeign⟩ := hrun
    cases (h _ t ht).2 _ hforeign
  · intro h
    have hrun : ∃ t, run ConsumerState.step ConsumerState.start
        (.allocate :: consumerConnection 0 ++ List.replicate 6 (.advance 0 .ok) ++
          [.advance 0 .again, .reconnect ⟨0, Vms.maxCameras_pos⟩] ++
          List.replicate 71 (.advance 1 .ok) ++
          consumerConnection 1 ++ List.replicate 6 (.advance 0 .ok)) = some t ∧
        (2, Owner.conn 3) ∈ t.accesses :=
      exists_run ConsumerState.step _ (by decide +kernel)
    obtain ⟨t, ht, hforeign⟩ := hrun
    cases (h _ t ht).2 _ hforeign

end Kitty.Forwarding
