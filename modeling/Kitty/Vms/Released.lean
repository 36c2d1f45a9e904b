import Kitty.Base.Ledger
import Kitty.Vms.Count

/-!
# What a session leaves behind

`free_camera_session` destroys the agent it finds, and then closes the connections and the listening
socket it finds (`src/consumer-srt-cloud/_legacy_libjuice_consumer_api.c:1404–1430`). An attempt to
connect goes on while another thread frees its session, and what it stores after that (`:1904`,
`:2082`) is closed by nobody; the reconnect monitor may do the same (`:1477`).
-/

namespace Kitty.Vms

open Kitty.Base

/-! ### The condition -/

/-- What `juice_create` returned finds no other agent in its slot, and if it is one, an active
session whose agent no thread has taken away. -/
def AgentFits (w : VmsState) (i : Fin maxCameras) (ok : Bool) : Prop :=
  (w.cameras i).agent = none ∧
    (ok = true → (w.cameras i).active = true ∧ ∀ th ∈ w.threads, th.tookAgent ≠ some i)

instance (w : VmsState) (i : Fin maxCameras) (ok : Bool) : Decidable (AgentFits w i ok) :=
  inferInstanceAs (Decidable (_ ∧ _))

/-- What `socket` returned finds no other listening socket, and if it is one, an active session. -/
def ListenerFits (w : VmsState) (i : Fin maxCameras) (ok : Bool) : Prop :=
  (w.cameras i).listenSocket = none ∧ (ok = true → (w.cameras i).active = true)

instance (w : VmsState) (i : Fin maxCameras) (ok : Bool) : Decidable (ListenerFits w i ok) :=
  inferInstanceAs (Decidable (_ ∧ _))

/-- A resource is stored in a slot while it can still be released with the session there. -/
def StoredInTime (w : VmsState) : Event → Prop
  | .create p ok => ∀ th ∈ w.threads[p]?, ∀ i ∈ th.creating, AgentFits w i ok
  | .listen p ok => ∀ th ∈ w.threads[p]?, ∀ i ∈ th.listening, ListenerFits w i ok
  | .slot i (.agentCreated ok) => AgentFits w i ok
  | .slot i .accepted => (w.cameras i).connected = true → (w.cameras i).active = true
  | _ => True

/-- Threads free a session alone, and resources are stored in time. -/
def ReleasedWhole (w : VmsState) (e : Event) : Prop := FreesAlone w e ∧ StoredInTime w e

/-! ### The ledger of the resources -/

/-- What each slot holds, and what was closed by whom. -/
def VmsState.ledger (w : VmsState) : Ledger (Fin maxCameras) Closer :=
  ⟨fun i ↦ (w.cameras i).held, w.opened.length, w.closed⟩

/-- A run has released a session, or is about to. -/
def FreedBy (w : VmsState) (n r : Nat) : Prop :=
  (n, r) ∈ w.released ∨ ∃ (p : Nat) (i : Fin maxCameras) (after : After),
    w.threads[p]? = some (.destroying i r after) ∧ (w.cameras i).serial = n

/-- Nothing is lost, a slot holds the resources of its session and none without one, and what a run
has closed belongs to the session it frees. -/
structure Stocked (w : VmsState) : Prop where
  sound : w.ledger.Sound
  idle : ∀ i, (w.cameras i).active = false → (w.cameras i).held = []
  owner : ∀ i, ∀ k ∈ (w.cameras i).held, w.opened[k]? = some (w.cameras i).serial
  runs : ∀ k r, (k, .run r) ∈ w.closed → ∃ n, w.opened[k]? = some n ∧ FreedBy w n r
  bare : ∀ (p : Nat) i r after, w.threads[p]? = some (.destroying i r after) →
    (w.cameras i).agent = none

section Step

variable {w t : VmsState} {i : Fin maxCameras} {c : Session} {rest : List Nat}

/-- One slot is written: some of what it holds is closed, and at most one resource is stored. -/
private theorem ledger_change {ks : List Nat} {stored : Bool} {closer : Closer}
    (hcameras : t.cameras = Function.update w.cameras i c)
    (hopened : t.opened = w.opened ++ if stored then [(w.cameras i).serial] else [])
    (hclosed : t.closed = w.closed ++ ks.map (·, closer))
    (hbefore : (w.cameras i).held.Perm (ks ++ rest))
    (hafter : c.held.Perm (rest ++ if stored then [w.opened.length] else [])) :
    w.ledger.Change t.ledger i ks closer stored.toNat := by
  have hlen : t.opened.length = w.opened.length + stored.toNat := by
    rw [hopened]
    cases stored <;> simp
  have hnew : (if stored then [w.opened.length] else []) =
      List.range' w.opened.length stored.toNat := by
    cases stored <;> rfl
  refine ⟨fun j hj ↦ ?_, ⟨rest, hbefore, ?_⟩, hlen, hclosed⟩
  · simp only [VmsState.ledger, hcameras, Function.update_of_ne hj]
  · simp only [VmsState.ledger, hcameras, Function.update_self]
    rwa [← hnew]

/-- Such a step keeps the stock, if nothing is left in a slot without a session, and what a run
closes belongs to a session it frees. -/
private theorem Stocked.update (h : Stocked w) (ks : List Nat) (stored : Bool) (closer : Closer)
    (hcameras : t.cameras = Function.update w.cameras i c)
    (hserial : c.serial = (w.cameras i).serial)
    (hopened : t.opened = w.opened ++ if stored then [(w.cameras i).serial] else [])
    (hclosed : t.closed = w.closed ++ ks.map (·, closer))
    (hbefore : (w.cameras i).held.Perm (ks ++ rest))
    (hafter : c.held.Perm (rest ++ if stored then [w.opened.length] else []))
    (hidle : c.active = false → c.held = [])
    (hfreed : ∀ n r, FreedBy w n r → FreedBy t n r)
    (hcloser : ∀ r, closer = .run r → FreedBy t (w.cameras i).serial r)
    (hbare : ∀ (p : Nat) j r after, t.threads[p]? = some (.destroying j r after) →
      (t.cameras j).agent = none) : Stocked t := by
  have hchange := ledger_change hcameras hopened hclosed hbefore hafter
  have hself : t.cameras i = c := by rw [hcameras, Function.update_self]
  have hother : ∀ j, j ≠ i → t.cameras j = w.cameras j := fun j hj ↦ by
    rw [hcameras, Function.update_of_ne hj]
  have holder : ∀ (k n : Nat), w.opened[k]? = some n → t.opened[k]? = some n := fun k n hk ↦ by
    rw [hopened, List.getElem?_append_left (List.getElem?_eq_some_iff.mp hk).1, hk]
  refine ⟨h.sound.change hchange, ?_, ?_, ?_, hbare⟩
  · intro j hj
    by_cases hji : j = i
    · subst hji
      rw [hself] at hj ⊢
      exact hidle hj
    · rw [hother j hji] at hj ⊢
      exact h.idle j hj
  · intro j k hk
    rcases hchange.mem_held h.sound hk with ⟨hold, -⟩ | ⟨rfl, hle, hlt⟩
    · have hsame : (t.cameras j).serial = (w.cameras j).serial := by
        by_cases hji : j = i
        · subst hji
          rw [hself, hserial]
        · rw [hother j hji]
      rw [hsame]
      exact holder k _ (h.owner j k hold)
    · change w.opened.length ≤ k at hle
      change k < w.opened.length + stored.toNat at hlt
      cases stored with
      | false => exact absurd hlt (by simpa using hle)
      | true =>
        have hk : k = w.opened.length := by
          rw [Bool.toNat_true] at hlt
          omega
        rw [hself, hserial, hopened, hk]
        simp
  · intro k r hk
    rw [hclosed] at hk
    rcases List.mem_append.mp hk with hk | hk
    · obtain ⟨n, hn, hfree⟩ := h.runs k r hk
      exact ⟨n, holder k n hn, hfreed n r hfree⟩
    · obtain ⟨j, hj, heq⟩ := List.mem_map.mp hk
      cases heq
      exact ⟨_, holder k _ (h.owner i k (hbefore.mem_iff.mpr (List.mem_append_left _ hj))),
        hcloser r rfl⟩

private theorem FreedBy.quiet (hq : Quiet w t) {n r : Nat} (h : FreedBy w n r) : FreedBy t n r := by
  rcases h with h | ⟨p, j, after, hp, hn⟩
  · exact .inl (by rwa [hq.released])
  · exact .inr ⟨p, j, after, (hq.freeing p _ rfl).mpr hp, by rw [hq.serial, hn]⟩

/-- A step that frees nothing closes things as somebody else, and puts no agent where a thread has
just taken one. -/
private theorem Stocked.quiet (h : Stocked w) (ks : List Nat) (stored : Bool) (hq : Quiet w t)
    (hcameras : t.cameras = Function.update w.cameras i c)
    (hopened : t.opened = w.opened ++ if stored then [(w.cameras i).serial] else [])
    (hclosed : t.closed = w.closed ++ ks.map (·, .other))
    (hbefore : (w.cameras i).held.Perm (ks ++ rest))
    (hafter : c.held.Perm (rest ++ if stored then [w.opened.length] else []))
    (hactive : stored = true → (w.cameras i).active = true)
    (hagent : (w.cameras i).agent = none → c.agent ≠ none →
      ∀ th ∈ w.threads, th.tookAgent ≠ some i) : Stocked t := by
  have hself : t.cameras i = c := by rw [hcameras, Function.update_self]
  have hserial : c.serial = (w.cameras i).serial := by rw [← hself, hq.serial]
  apply h.update ks stored .other hcameras hserial hopened hclosed hbefore hafter _
    (fun n r ↦ FreedBy.quiet hq)
    (fun r hr ↦ nomatch hr) _
  · intro hinactive
    rw [← hself, hq.active] at hinactive
    have hnone := h.idle i hinactive
    rw [hnone] at hbefore
    obtain ⟨-, rfl⟩ := List.append_eq_nil_iff.mp hbefore.nil_eq.symm
    have hno : stored = false := by
      cases stored with
      | false => rfl
      | true => simp [hactive rfl] at hinactive
    rw [hno] at hafter
    exact hafter.eq_nil
  · intro p j r after hp
    have hold := (hq.freeing p _ rfl).mp hp
    have hbare := h.bare p j r after hold
    by_cases hj : j = i
    · subst hj
      rw [hself]
      by_contra hne
      exact hagent hbare hne _ (List.mem_of_getElem? hold) rfl
    · rw [hcameras, Function.update_of_ne hj, hbare]

/-- What a session has before and after an event from outside. -/
private theorem held_on (c : Session) (k : Nat) (e : SlotEvent)
    (hfits : ∀ ok, e = .agentCreated ok → c.agent = none) :
    ∃ rest, c.held.Perm (c.closes e ++ rest) ∧
      (c.on k e).held.Perm (rest ++ if c.stores e then [k] else []) := by
  cases e with
  | iceConnected =>
    refine ⟨c.held, .refl _, ?_⟩
    simp only [Session.on, Session.stores, Bool.false_eq_true, if_false, List.append_nil]
    split <;> exact .refl _
  | iceFailed => exact ⟨c.held, .refl _, by simp [Session.on, Session.stores, Session.held]⟩
  | iceDisconnected => exact ⟨c.held, .refl _, by simp [Session.on, Session.stores, Session.held]⟩
  | scheduled => exact ⟨c.held, .refl _, by simp [Session.on, Session.stores, Session.held]⟩
  | reconnecting =>
    refine ⟨c.listenSocket.toList, ?_, by simp [Session.on, Session.stores, Session.held]⟩
    rw [Session.held, Session.closes, List.append_assoc, List.append_assoc]
    exact List.perm_append_comm.append_left _
  | agentCreated ok =>
    have hheld : c.held = c.listenSocket.toList ++ c.connections := by
      rw [Session.held, hfits ok rfl]
      rfl
    refine ⟨c.held, .refl _, ?_⟩
    rw [hheld]
    cases ok with
    | false => simp [Session.on, Session.stores, Session.held]
    | true => exact @List.perm_append_comm _ [k] _
  | reconnectFailed =>
    refine ⟨c.listenSocket.toList ++ c.connections, ?_, ?_⟩
    · rw [Session.held, Session.closes, List.append_assoc]
    · simp [Session.on, Session.stores, Session.held]
  | accepted =>
    refine ⟨c.held, .refl _, ?_⟩
    cases hconnected : c.connected <;>
      simp [Session.on, Session.stores, Session.held, hconnected]
  | connectionEnded k' =>
    refine ⟨c.agent.toList ++ c.listenSocket.toList ++ c.connections.erase k', ?_, ?_⟩
    · rw [Session.held, Session.closes]
      split
      · next hmem =>
        exact ((List.perm_cons_erase hmem).append_left _).trans List.perm_middle
      · next hmem => rw [List.erase_of_not_mem hmem, List.nil_append]
    · simp [Session.on, Session.stores, Session.held]

private theorem Stocked.change (h : Stocked w) {e : SlotEvent} (hc : StoredInTime w (.slot i e)) :
    Stocked (changeSession w i e) := by
  have hfits : ∀ ok, e = .agentCreated ok → AgentFits w i ok := by
    rintro ok rfl
    exact hc
  obtain ⟨rest, hbefore, hafter⟩ :=
    held_on (w.cameras i) w.opened.length e fun ok hok ↦ (hfits ok hok).1
  apply h.quiet _ _ (quiet_changeSession w i e) rfl rfl rfl hbefore hafter
  · intro hstored
    cases e with
    | agentCreated ok => exact ((hfits ok rfl).2 hstored).1
    | accepted => exact hc hstored
    | _ => cases hstored
  · intro hnone hsome
    cases e with
    | agentCreated ok =>
      cases ok with
      | false => exact absurd rfl hsome
      | true => exact ((hfits true rfl).2 rfl).2
    | iceConnected =>
      simp only [Session.on] at hsome
      split at hsome <;> exact absurd hnone hsome
    | accepted =>
      simp only [Session.on] at hsome
      split at hsome <;> exact absurd hnone hsome
    | reconnecting => exact absurd rfl hsome
    | reconnectFailed => exact absurd rfl hsome
    | _ => exact absurd hnone hsome

private theorem Stocked.look (h : Stocked w) {threads : List Thread} {running : Bool}
    (hthreads : SameFreeing w.threads threads) : Stocked { w with threads, running } := by
  let i : Fin maxCameras := ⟨0, maxCameras_pos⟩
  have hkept : (w.cameras i).held.Perm ([] ++ (w.cameras i).held) := .refl _
  have hsame : (w.cameras i).held.Perm ((w.cameras i).held ++ if false then [w.opened.length]
    else []) := .of_eq (List.append_nil _).symm
  exact h.quiet [] false (quiet_look hthreads) (Function.update_eq_self _ _).symm
    (List.append_nil _).symm (List.append_nil _).symm hkept hsame (fun hno ↦ nomatch hno)
    fun hnone hsome ↦ absurd hnone hsome

private theorem Stocked.storeAgent (h : Stocked w) {p : Nat} {ok : Bool}
    (hp : w.threads[p]? = some (.create i)) (hfits : AgentFits w i ok) :
    Stocked (storeAgent w p i ok) := by
  have hheld : (w.cameras i).held =
      (w.cameras i).listenSocket.toList ++ (w.cameras i).connections := by
    rw [Session.held, hfits.1]
    rfl
  have hkept : (w.cameras i).held.Perm ([] ++ (w.cameras i).held) := .refl _
  apply h.quiet [] ok (quiet_storeAgent hp ok) rfl rfl (List.append_nil _).symm hkept _
    (fun hok ↦ (hfits.2 hok).1)
  · intro _ hsome
    cases ok with
    | false => exact absurd rfl hsome
    | true => exact (hfits.2 rfl).2
  · rw [hheld]
    cases ok with
    | false => simp [Session.held]
    | true =>
      simp only [Session.held, if_true, Option.toList_some, List.append_assoc]
      rw [← List.append_assoc _ _ [w.opened.length]]
      exact List.perm_append_comm

private theorem Stocked.storeListener (h : Stocked w) {p : Nat} {ok : Bool}
    (hp : w.threads[p]? = some (.listen i)) (hfits : ListenerFits w i ok) :
    Stocked (storeListener w p i ok) := by
  have hheld : (w.cameras i).held = (w.cameras i).agent.toList ++ (w.cameras i).connections := by
    rw [Session.held, hfits.1, Option.toList_none, List.append_nil]
  have hkept : (w.cameras i).held.Perm ([] ++ (w.cameras i).held) := .refl _
  apply h.quiet [] ok (quiet_storeListener hp ok) rfl rfl (List.append_nil _).symm hkept _ hfits.2
    (fun hnone hsome ↦ absurd hnone hsome)
  rw [hheld]
  cases ok with
  | false => simp [Session.held]
  | true =>
    simp only [Session.held, if_true, Option.toList_some, List.append_assoc]
    exact List.perm_append_comm.append_left _

/-- A session that a run begins to free has what it had. -/
private theorem Stocked.enter (h : Stocked w) {p : Nat} {after : After}
    (hp : w.threads[p]? = some (.free i after)) (hi : (w.cameras i).active = true) :
    Stocked (enterFree w p i after) := by
  have hkept : (w.cameras i).held.Perm ([] ++ (w.cameras i).held) := .refl _
  have hsame : (w.cameras i).held.Perm ((w.cameras i).held ++ if false then [w.opened.length]
    else []) := .of_eq (List.append_nil _).symm
  apply h.update (t := enterFree w p i after) [] false .other rfl rfl
    (List.append_nil _).symm (List.append_nil _).symm hkept hsame
    (fun hno ↦ absurd (hno.symm.trans hi) Bool.false_ne_true) _ (fun r hr ↦ nomatch hr) _
  · rintro n r (hold | ⟨q, j, a, hq, hn⟩)
    · exact .inl hold
    · have hne : p ≠ q := by
        rintro rfl
        cases hp.symm.trans hq
      refine .inr ⟨q, j, a, (List.getElem?_set_ne hne).trans hq, ?_⟩
      rw [(sameSessions_enterFree w p i after).serial, hn]
  · intro q j r a hq
    obtain ⟨-, hth⟩ | ⟨-, hold⟩ := getElem?_set_eq_some hq
    · cases hth
    · have hbare := h.bare q j r a hold
      by_cases hj : j = i
      · subst hj
        simpa [enterFree] using hbare
      · simpa [enterFree, Function.update_of_ne hj] using hbare

/-- The run destroys the agent it finds. -/
private theorem Stocked.take (h : Stocked w) (ha : Accounted w) {p r : Nat} {after : After}
    (hp : w.threads[p]? = some (.stopping i r after)) : Stocked (takeAgent w p i r after) := by
  have hactive := ha.freeing p _ i hp rfl
  have hnew : (w.threads.set p (.destroying i r after))[p]? = some (.destroying i r after) :=
    List.getElem?_set_self (List.getElem?_eq_some_iff.mp hp).1
  have hbefore : (w.cameras i).held.Perm ((w.cameras i).agent.toList ++
      ((w.cameras i).listenSocket.toList ++ (w.cameras i).connections)) :=
    .of_eq (List.append_assoc ..)
  apply h.update (t := takeAgent w p i r after) _ false _ rfl rfl (List.append_nil _).symm rfl
    hbefore _
    (fun hno ↦ absurd (hno.symm.trans hactive) Bool.false_ne_true) _ _ _
  · exact .of_eq (List.append_nil _).symm
  · rintro n s (hold | ⟨q, j, a, hq, hn⟩)
    · exact .inl hold
    · have hne : p ≠ q := by
        rintro rfl
        cases hp.symm.trans hq
      refine .inr ⟨q, j, a, (List.getElem?_set_ne hne).trans hq, ?_⟩
      rw [(sameSessions_takeAgent w p i r after).serial, hn]
  · intro s hs
    cases hs
    exact .inr ⟨p, i, after, hnew, (sameSessions_takeAgent w p i r after).serial i⟩
  · intro q j s a hq
    by_cases hj : j = i
    · subst hj
      simp [takeAgent]
    · obtain ⟨-, hth⟩ | ⟨-, hold⟩ := getElem?_set_eq_some hq
      · cases hth
        exact absurd rfl hj
      · simpa [takeAgent, Function.update_of_ne hj] using h.bare q j s a hold

/-- The run closes the rest. -/
private theorem Stocked.release (h : Stocked w) {p r : Nat} {after : After}
    (hp : w.threads[p]? = some (.destroying i r after)) :
    Stocked (releaseSession w p i r after) := by
  have hagent := h.bare p i r after hp
  have hheld : (w.cameras i).held =
      (w.cameras i).listenSocket.toList ++ (w.cameras i).connections := by
    rw [Session.held, hagent]
    rfl
  have hbefore : (w.cameras i).held.Perm
      (((w.cameras i).connections ++ (w.cameras i).listenSocket.toList) ++ []) := by
    rw [hheld, List.append_nil]
    exact List.perm_append_comm
  have hserial : ∀ j, ((releaseSession w p i r after).cameras j).serial =
      (w.cameras j).serial := by
    intro j
    by_cases hj : j = i <;> simp [releaseSession, hj]
  have hagents : ∀ j, ((releaseSession w p i r after).cameras j).agent =
      (w.cameras j).agent := by
    intro j
    by_cases hj : j = i <;> simp [releaseSession, hj]
  have hempty : Session.held
      { w.cameras i with active := false, listenSocket := none, connections := [] } = [] := by
    rw [Session.held, hagent]
    rfl
  apply h.update (t := releaseSession w p i r after) _ false _ rfl rfl (List.append_nil _).symm rfl
    hbefore (.of_eq hempty)
    (fun _ ↦ hempty) _ _ _
  · rintro n s (hold | ⟨q, j, a, hq, hn⟩)
    · exact .inl (List.mem_append_left _ hold)
    · by_cases hqp : q = p
      · subst hqp
        cases hp.symm.trans hq
        exact .inl (List.mem_append_right _ (by simp [hn]))
      · exact .inr ⟨q, j, a, (List.getElem?_set_ne (Ne.symm hqp)).trans hq, by rw [hserial, hn]⟩
  · intro s hs
    cases hs
    exact .inl (List.mem_append_right _ (List.mem_singleton_self _))
  · intro q j s a hq
    obtain ⟨-, hth⟩ | ⟨-, hold⟩ := getElem?_set_eq_some hq
    · cases after <;> cases hth
    · rw [hagents, h.bare q j s a hold]

/-- A new session takes a slot that holds nothing. -/
private theorem Stocked.allocate (h : Stocked w) (ha : Accounted w) {p : Nat} {id : Bytes}
    (hp : w.threads[p]? = some (.allocate id)) (hi : freeSlot w = some i) :
    Stocked (allocateCameraSession w p id i) := by
  have hinactive : (w.cameras i).active = false := by simpa using List.find?_some hi
  have hother : ∀ j, j ≠ i → (allocateCameraSession w p id i).cameras j = w.cameras j :=
    fun j hj ↦ Function.update_of_ne hj ..
  have hself : (allocateCameraSession w p id i).cameras i = .fresh id w.allocated :=
    Function.update_self ..
  have hheld : ∀ j, ((allocateCameraSession w p id i).cameras j).held = (w.cameras j).held := by
    intro j
    by_cases hj : j = i
    · rw [hj, hself, h.idle i hinactive]
      rfl
    · rw [hother j hj]
  have hledger : (allocateCameraSession w p id i).ledger = w.ledger := by
    simp only [VmsState.ledger, hheld]
    rfl
  have hthreads : SameFreeing w.threads (allocateCameraSession w p id i).threads :=
    .set hp rfl rfl
  have hbusy : ∀ (q : Nat) j r a, w.threads[q]? = some (.destroying j r a) → j ≠ i := by
    rintro q j r a hq rfl
    have hactive := ha.freeing q _ j hq rfl
    simp [hinactive] at hactive
  refine ⟨hledger ▸ h.sound, ?_, ?_, ?_, ?_⟩
  · intro j hj
    rw [hheld]
    by_cases hji : j = i
    · rw [hji]
      exact h.idle i hinactive
    · rw [hother j hji] at hj
      exact h.idle j hj
  · intro j k hk
    rw [hheld] at hk
    have hji : j ≠ i := by
      rintro rfl
      simp [h.idle j hinactive] at hk
    rw [hother j hji]
    exact h.owner j k hk
  · intro k r hk
    obtain ⟨n, hn, hfreed⟩ := h.runs k r hk
    refine ⟨n, hn, hfreed.imp_right fun ⟨q, j, a, hq, hserial⟩ ↦ ⟨q, j, a, ?_, ?_⟩⟩
    · exact (hthreads q _ rfl).mpr hq
    · rw [hother j (hbusy q j r a hq), hserial]
  · intro q j r a hq
    have hold := (hthreads q _ rfl).mp hq
    rw [hother j (hbusy q j r a hold)]
    exact h.bare q j r a hold

/-- A step that meets the condition keeps the account and the stock. -/
theorem stocked_step (w : VmsState) (e : Event) (t : VmsState) (hc : ReleasedWhole w e)
    (h : Accounted w ∧ Stocked w) (hstep : step w e = some t) : Accounted t ∧ Stocked t := by
  obtain ⟨ha, hs⟩ := h
  obtain ⟨halone, hstored⟩ := hc
  refine ⟨accounted_step w e t halone ha hstep, ?_⟩
  cases effect_of_step hstep with
  | look hthreads => exact hs.look hthreads
  | change i e => exact hs.change hstored
  | create hp => exact hs.storeAgent hp (hstored _ hp _ rfl)
  | listen hp => exact hs.storeListener hp (hstored _ hp _ rfl)
  | allocate hp hi => exact hs.allocate ha hp hi
  | enter hp hi => exact hs.enter hp hi
  | take hp => exact hs.take ha hp
  | release hp => exact hs.release hp

end Step

theorem stocked_start : Stocked start where
  sound := Ledger.sound_start
  idle _ _ := rfl
  owner _ _ h := nomatch h
  runs _ _ h := nomatch h
  bare _ _ _ _ h := nomatch h

instance (w : VmsState) : (e : Event) → Decidable (StoredInTime w e)
  | .create p ok =>
    inferInstanceAs (Decidable (∀ th ∈ w.threads[p]?, ∀ i ∈ th.creating, AgentFits w i ok))
  | .listen p ok =>
    inferInstanceAs (Decidable (∀ th ∈ w.threads[p]?, ∀ i ∈ th.listening, ListenerFits w i ok))
  | .slot i (.agentCreated ok) => inferInstanceAs (Decidable (AgentFits w i ok))
  | .slot i .accepted =>
    inferInstanceAs (Decidable ((w.cameras i).connected = true → (w.cameras i).active = true))
  | .slot _ .iceConnected | .slot _ .iceFailed | .slot _ .iceDisconnected | .slot _ .scheduled
  | .slot _ .reconnecting | .slot _ .reconnectFailed | .slot _ (.connectionEnded _)
  | .request _ | .quit | .negotiated _ _ | .settled _ _ | .advance _ => isTrue trivial

instance (w : VmsState) (e : Event) : Decidable (ReleasedWhole w e) :=
  inferInstanceAs (Decidable (_ ∧ _))

/-- Two cameras are connected. The first one has two clients, one of which leaves, and the second
one reconnects; then both are disconnected. -/
def connectDisconnect : List Event :=
  twoCameras ++
    [.slot ⟨0, maxCameras_pos⟩ .accepted, .slot ⟨0, maxCameras_pos⟩ .accepted,
      .slot ⟨0, maxCameras_pos⟩ (.connectionEnded 4), .slot secondSlot .reconnecting,
      .slot secondSlot (.agentCreated true), .request (.disconnect (lit "cam1")), .advance 2,
      .advance 2, .request (.disconnect (lit "cam2")), .advance 3, .advance 3, .advance 2,
      .advance 3, .advance 3, .advance 2]

end Kitty.Vms
