import Kitty.Base.Slots
import Kitty.Signal.Server

/-!
# REQUEST and SDP_READY

A REQUEST handler installs a slot for the service, forwards a CONSUMER_CONNECT and waits for
the SDP_READY that answers it; the slot is found by the service alone;
`src/signaling-server/signaling_server.cpp:153–163,1785–1868,1936–1967`. Each handler gets its
own answer as long as no slot is installed for a service that has one, and each SDP_READY
answers the CONSUMER_CONNECT of the slot it finds.
-/

namespace Kitty.Signal

open Kitty.Base
open Registry

/-! ### The slots -/

/-- The slot that waits for the SDP of a service. -/
def Registry.pending (r : Registry) (service : Bytes) : Option Nat := r.pendingSdpRequests[service]?

/-- The SDP in a slot. -/
def Registry.content (r : Registry) (slot : Nat) : Option Bytes :=
  if (r.slots slot).ready then some (r.slots slot).sdp else none

/-- What a thread has to do with the slots when its message has been sent. -/
def Then.role : Then → Role Bytes Bytes
  | .forwarded req slot => .waiting req.serviceId slot
  | _ => .idle

/-- What a thread has to do with the slots. -/
def Pc.role : Pc → Role Bytes Bytes
  | .sending _ next => next.role
  | .account _ _ next => next.role
  | .requestWait req slot => .waiting req.serviceId slot
  | .requestErase req slot sdp => .finished req.serviceId slot sdp
  | .requestDropSlot req slot => .finished req.serviceId slot none
  | .sdpFulfil slot _ answers => .bringing slot answers
  | _ => .idle

def Server.role (w : Server) (tid : Nat) : Role Bytes Bytes :=
  match w.threads tid with
  | some t => t.pc.role
  | none => .idle

/-- The slots of one state are those of another. -/
def Registry.SameSlots (r r' : Registry) : Prop :=
  r'.pendingSdpRequests = r.pendingSdpRequests ∧ r'.slots = r.slots ∧ r'.nextSlot = r.nextSlot

theorem Registry.SameSlots.refl (r : Registry) : r.SameSlots r := ⟨rfl, rfl, rfl⟩

theorem Registry.updateFirst_sameSlots (r : Registry) (fd : Nat) (f : ProviderInfo → ProviderInfo) :
    r.SameSlots (r.updateFirst fd f) := by
  unfold updateFirst
  split <;> exact ⟨rfl, rfl, rfl⟩

theorem Registry.dropSubscribers_sameSlots (r : Registry) (failed : List Nat) :
    r.SameSlots (r.dropSubscribers failed) := by
  unfold dropSubscribers
  induction failed generalizing r with
  | nil => exact .refl r
  | cons fd failed ih => exact ih ((r.unsubscribe fd).close fd)

theorem Registry.countPings_sameSlots (r : Registry) (targets : List (Nat × Bytes))
    (f : Registry → Nat × Bytes → Registry) (hf : ∀ (r : Registry) e, r.SameSlots (f r e)) :
    r.SameSlots (targets.foldl f r) := by
  induction targets generalizing r with
  | nil => exact .refl r
  | cons e targets ih =>
    obtain ⟨h1, h2, h3⟩ := hf r e
    obtain ⟨h4, h5, h6⟩ := ih (f r e)
    exact ⟨h4.trans h1, h5.trans h2, h6.trans h3⟩

@[simp] theorem role_notifyNext (service : Bytes) (rest failed : List Nat) :
    (notifyNext service rest failed).role = .idle := by
  cases rest with
  | nil =>
    simp only [notifyNext]
    split <;> rfl
  | cons fd rest => rfl

@[simp] theorem role_pingNext (rest : List (Nat × Bytes)) (round : PingRound) :
    (pingNext rest round).role = .idle := by
  cases rest <;> rfl

@[simp] theorem role_listNext (fd : Nat) (rest : List Bytes) : (listNext fd rest).role = .idle := by
  cases rest <;> rfl

@[simp] theorem role_pingRemoveNext (stale : List Nat) : (pingRemoveNext stale).role = .idle := by
  unfold pingRemoveNext
  split <;> rfl

/-- Behind a message that was sent, a thread does with the slots what it was to do. -/
@[simp] theorem Then.role_ok (cfg : Config) (fd : Nat) (next : Then) :
    (next.ok cfg fd).role = next.role := by
  cases next with
  | notified service rest failed => exact role_notifyNext _ _ _
  | pinged rest round => exact role_pingNext _ _
  | listed rest => exact role_listNext _ _
  | _ => rfl

/-- A CONSUMER_CONNECT that could not be sent ends the wait for its answer. -/
theorem Then.role_fail_waiting {cfg : Config} {fd : Nat} {out : Outgoing} {next : Then}
    {service : Bytes} {slot : Nat} (h : next.role = .waiting service slot) :
    (next.fail cfg fd out).role = .finished service slot none := by
  cases next with
  | forwarded req slot' =>
    cases h
    rfl
  | _ => cases h

theorem Then.role_fail_idle {cfg : Config} {fd : Nat} {out : Outgoing} {next : Then}
    (h : ∀ service slot, next.role ≠ .waiting service slot) :
    (next.fail cfg fd out).role = next.role := by
  cases next with
  | forwarded req slot => exact absurd rfl (h req.serviceId slot)
  | notified service rest failed => exact role_notifyNext _ _ _
  | pinged rest round => exact role_pingNext _ _
  | listed rest => exact role_listNext _ _
  | _ => rfl

/-- What a critical section does with the slots. -/
inductive SlotStep (t : Thread) (r : Registry) : Registry → Pc → Prop where
  | other {r' : Registry} {pc : Pc} (hrole : pc.role = t.pc.role) (hr : r.SameSlots r')
      (hrec : ∀ w : Server, w.record t.pc = w.answered) : SlotStep t r r' pc
  | install (req : Rendezvous) {pc : Pc} (hpc : t.pc = .requestInstall req)
      (hrole : pc.role = .waiting req.serviceId r.nextSlot) :
      SlotStep t r (r.installPending req.serviceId) pc
  | erase (service : Bytes) (slot : Nat) {pc : Pc} (hold : t.pc.role.holds = some (service, slot))
      (hrole : pc.role = .idle) (hrec : ∀ w : Server, w.record t.pc = w.answered) :
      SlotStep t r (r.erasePending service) pc
  | wake (req : Rendezvous) (slot : Nat) {pc : Pc} (hpc : t.pc = .requestWait req slot)
      (hrole : pc.role = .finished req.serviceId slot (r.content slot)) : SlotStep t r r pc
  | find (service sdp : Bytes) (answers : Option Nat) (slot : Nat) {pc : Pc}
      (hpc : t.pc = .sdpFind service sdp answers) (hfound : r.pending service = some slot)
      (hrole : pc.role = .bringing slot answers) : SlotStep t r r pc
  | miss (service sdp : Bytes) (answers : Option Nat) {pc : Pc}
      (hpc : t.pc = .sdpFind service sdp answers) (hfound : r.pending service = none)
      (hrole : pc.role = .idle) : SlotStep t r r pc
  | fulfil (slot : Nat) (sdp : Bytes) (answers : Option Nat) {pc : Pc}
      (hpc : t.pc = .sdpFulfil slot sdp answers) (hrole : pc.role = .idle) :
      SlotStep t r (r.fulfil slot sdp) pc

theorem Thread.slotStep {cfg : Config} {tid : Nat} {t : Thread} {now : Int} {r r' : Registry}
    {pc : Pc} (h : t.run cfg tid now r = some (r', pc)) : SlotStep t r r' pc := by
  unfold Thread.run at h
  cases hpc : t.pc with
  | requestInstall req =>
    simp only [hpc] at h
    cases h
    exact .install req hpc rfl
  | requestDropSlot req slot =>
    simp only [hpc] at h
    cases h
    exact .erase req.serviceId slot (by rw [hpc]; rfl) rfl fun w ↦ by rw [hpc]; rfl
  | requestErase req slot sdp =>
    simp only [hpc] at h
    cases h
    exact .erase req.serviceId slot (by rw [hpc]; rfl) rfl fun w ↦ by rw [hpc]; rfl
  | requestWait req slot =>
    simp only [hpc] at h
    split at h
    · next hready =>
      cases h
      exact .wake req slot hpc (by rw [Registry.content, if_pos hready]; rfl)
    · cases h
  | sdpFind service sdp answers =>
    simp only [hpc] at h
    cases h
    cases hs : r.pendingSdpRequests[service]? with
    | some slot => exact .find service sdp answers slot hpc hs rfl
    | none => exact .miss service sdp answers hpc hs rfl
  | sdpFulfil slot sdp answers =>
    simp only [hpc] at h
    cases h
    exact .fulfil slot sdp answers hpc rfl
  | registerCheck req =>
    simp only [hpc] at h
    cases (Registry.locked_some h).2
    refine .other ?_ (.refl r) fun w ↦ by rw [hpc]; rfl
    rw [hpc]
    split <;> rfl
  | srtLookup req =>
    simp only [hpc] at h
    cases h
    refine .other ?_ (.refl r) fun w ↦ by rw [hpc]; rfl
    rw [hpc]
    split <;> rfl
  | requestLookup service consumerSdp =>
    simp only [hpc] at h
    cases hs : r.providers[service]? with
    | some provider =>
      rw [hs] at h
      cases (Registry.locked_some h).2
      exact .other (by rw [hpc]; rfl) ⟨rfl, rfl, rfl⟩ fun w ↦ by rw [hpc]; rfl
    | none =>
      rw [hs] at h
      cases (Registry.locked_some h).2
      exact .other (by rw [hpc]; rfl) (.refl r) fun w ↦ by rw [hpc]; rfl
  | account fd bytes next =>
    simp only [hpc] at h
    cases (Registry.locked_some h).2
    exact .other (by rw [hpc]; exact Then.role_ok cfg t.fd next) (r.updateFirst_sameSlots ..)
      fun w ↦ by rw [hpc]; rfl
  | notifyDrop failed =>
    simp only [hpc] at h
    cases h
    exact .other (by rw [hpc]; rfl) (r.dropSubscribers_sameSlots failed) fun w ↦ by rw [hpc]; rfl
  | pingCount round =>
    simp only [hpc] at h
    cases (Registry.locked_some h).2
    refine .other (by rw [hpc]; exact role_pingRemoveNext _)
      (r.countPings_sameSlots _ _ ?_) fun w ↦ by rw [hpc]; rfl
    intro r e
    split
    · exact .refl r
    · exact ⟨rfl, rfl, rfl⟩
  | pingRemove stale =>
    cases stale with
    | nil =>
      simp only [hpc] at h
      cases h
      exact .other (by rw [hpc]; rfl) (.refl r) fun w ↦ by rw [hpc]; rfl
    | cons fd rest =>
      simp only [hpc] at h
      cases (Registry.locked_some h).2
      exact .other (by rw [hpc]; rfl) ⟨rfl, rfl, rfl⟩ fun w ↦ by rw [hpc]; rfl
  | _ =>
    -- The other places do nothing with the slots.
    simp only [hpc, Registry.locked, Option.ite_none_right_eq_some, Option.some.injEq,
      reduceCtorEq] at h
    all_goals first
      | (obtain ⟨-, he⟩ := h
         cases he
         exact .other (by rw [hpc]; first | rfl | (show _ = Role.idle; simp)) ⟨rfl, rfl, rfl⟩
           fun w ↦ by rw [hpc]; rfl)
      | (cases h
         exact .other (by rw [hpc]; first | rfl | (show _ = Role.idle; simp)) ⟨rfl, rfl, rfl⟩
           fun w ↦ by rw [hpc]; rfl)

/-! ### The condition -/

/-- The service a REQUEST handler is about to install a slot for. -/
def Pc.installs : Pc → Option Bytes
  | .requestInstall req => some req.serviceId
  | _ => none

/-- The service whose slot an SDP_READY looks up, and the slot it is meant for. -/
def Pc.finds : Pc → Option (Bytes × Option Nat)
  | .sdpFind service _ answers => some (service, answers)
  | _ => none

/-- The slot that the SDP_READY brought to a slot is meant for. -/
def Pc.brings : Pc → Option Nat
  | .sdpFulfil _ _ answers => answers
  | _ => none

/-- A slot is installed only for a service that has none. An SDP_READY answers a
CONSUMER_CONNECT that was sent: the one whose slot its service has, when there is one. Each
gets one answer. -/
def AnswersMatch (w : Server) : ServerLabel → Prop
  | .run tid _ =>
    (∀ service ∈ (w.threads tid).bind fun t ↦ t.pc.installs, w.registry.pending service = none) ∧
    (∀ q ∈ (w.threads tid).bind fun t ↦ t.pc.finds,
      (∀ e ∈ w.registry.pendingSdpRequests.toList, e.1 = q.1 ↔ q.2 = some e.2) ∧
      ∀ n ∈ q.2, n < w.registry.nextSlot) ∧
    (∀ n ∈ (w.threads tid).bind fun t ↦ t.pc.brings, w.answered n = none)
  | _ => True

instance (w : Server) : (l : ServerLabel) → Decidable (AnswersMatch w l)
  | .run _ _ => inferInstanceAs (Decidable (_ ∧ _))
  | .accept _ _ | .recv _ _ _ | .timeout _ | .accepted _ _ | .sendFail _ => isTrue trivial

/-! ### Every run -/

/-- The slots and the answers of a state match. -/
def Server.SlotsMatch (w : Server) : Prop :=
  Matched w.role w.registry.pending w.registry.content w.answered w.registry.nextSlot

theorem Server.slotsMatch_start : Server.start.SlotsMatch := by
  have hrole : Server.start.role = fun _ ↦ .idle := by
    funext tid
    unfold Server.role
    by_cases h : tid = 0
    · subst h
      rfl
    · simp [start, h]
  have hpending : Server.start.registry.pending = fun _ ↦ none := by
    funext service
    simp [Registry.pending, start, Registry.start]
  unfold SlotsMatch
  rw [hrole, hpending]
  exact Matched.empty

theorem Server.role_put (w : Server) (tid : Nat) (t : Thread) (pc : Pc) :
    (w.put tid t pc).role = Function.update w.role tid pc.role := by
  funext tid'
  unfold Server.role Server.put
  by_cases h : tid' = tid
  · subst h
    simp
  · simp [Function.update_of_ne h]

/-- What is said about the slots depends on the threads, the slots and the answers. -/
theorem Server.SlotsMatch.of_role {w v : Server} {role : Nat → Role Bytes Bytes}
    (h : Matched role w.registry.pending w.registry.content w.answered w.registry.nextSlot)
    (hrole : v.role = role) (hr : w.registry.SameSlots v.registry)
    (ha : v.answered = w.answered) : v.SlotsMatch := by
  obtain ⟨hp, hs, hn⟩ := hr
  have hpending : v.registry.pending = w.registry.pending := by
    funext service
    rw [Registry.pending, hp, Registry.pending]
  have hcontent : v.registry.content = w.registry.content := by
    funext slot
    rw [Registry.content, hs, Registry.content]
  unfold SlotsMatch
  rw [hrole, hpending, hcontent, ha, hn]
  exact h

/-- A thread goes on and its role stays. -/
theorem Server.SlotsMatch.put_same {w : Server} (h : w.SlotsMatch) {tid : Nat} {t : Thread}
    {pc : Pc}
    (ht : w.threads tid = some t) (hrole : pc.role = t.pc.role) :
    Matched (w.put tid t pc).role w.registry.pending w.registry.content w.answered
      w.registry.nextSlot := by
  have hself : w.role tid = t.pc.role := by rw [Server.role, ht]
  rw [Server.role_put, hrole, ← hself, Function.update_eq_self]
  exact h

theorem Registry.pending_installPending (r : Registry) (service : Bytes) :
    (r.installPending service).pending = Function.update r.pending service (some r.nextSlot) := by
  funext service'
  by_cases h : service' = service
  · simp [Registry.pending, installPending, h]
  · have h' : ¬ service = service' := fun he ↦ h he.symm
    simp [Registry.pending, installPending, Function.update_of_ne h, Std.ExtTreeMap.getElem?_insert,
      h']

theorem Registry.pending_erasePending (r : Registry) (service : Bytes) :
    (r.erasePending service).pending = Function.update r.pending service none := by
  funext service'
  by_cases h : service' = service
  · simp [Registry.pending, erasePending, h]
  · have h' : ¬ service = service' := fun he ↦ h he.symm
    simp [Registry.pending, erasePending, Function.update_of_ne h, Std.ExtTreeMap.getElem?_erase,
      h']

theorem Registry.content_installPending (r : Registry) (service : Bytes) :
    (r.installPending service).content = Function.update r.content r.nextSlot none := by
  funext slot
  by_cases h : slot = r.nextSlot
  · simp [Registry.content, installPending, h]
  · simp [Registry.content, installPending, Function.update_of_ne h]

theorem Registry.content_fulfil (r : Registry) (slot : Nat) (sdp : Bytes) :
    (r.fulfil slot sdp).content = Function.update r.content slot (some sdp) := by
  funext slot'
  by_cases h : slot' = slot
  · simp [Registry.content, fulfil, h]
  · simp [Registry.content, fulfil, Function.update_of_ne h]

/-- A critical section keeps slots and answers matched. -/
private theorem slotsMatch_run {cfg : Config} {w : Server} {tid : Nat} {t : Thread} {now : Int}
    {r : Registry} {pc : Pc} (hw : w.SlotsMatch) (hc : AnswersMatch w (.run tid now))
    (ht : w.threads tid = some t) (hr : t.run cfg tid now w.registry = some (r, pc)) :
    Server.SlotsMatch { w.put tid t pc with registry := r, answered := w.record t.pc } := by
  obtain ⟨hinstall, hfind, hbring⟩ := hc
  rw [ht, Option.bind_some] at hinstall hfind hbring
  have hself : w.role tid = t.pc.role := by rw [Server.role, ht]
  have hput := Server.role_put w tid t pc
  cases Thread.slotStep hr with
  | other hrole hsame hrec => exact .of_role (hw.put_same ht hrole) rfl hsame (hrec w)
  | install req hpc hrole =>
    have hnone := hinstall req.serviceId (by rw [hpc]; rfl)
    have hnew := Matched.install hw tid hnone
    rw [← hrole, ← hput, ← Registry.pending_installPending,
      ← Registry.content_installPending] at hnew
    have hrec : w.record t.pc = w.answered := by rw [hpc]; rfl
    rw [hrec]
    exact hnew
  | erase service slot hold hrole hrec =>
    have hnew := Matched.erase hw (hself ▸ hold)
    rw [← hrole, ← hput, ← Registry.pending_erasePending] at hnew
    rw [hrec w]
    exact hnew
  | wake req slot hpc hrole =>
    have hwaits : w.role tid = .waiting req.serviceId slot := by rw [hself, hpc]; rfl
    have hanswer : ∀ a ∈ w.registry.content slot, w.registry.content slot = some a := fun a ha ↦ ha
    have hnew := Matched.finish hw hwaits hanswer
    rw [← hrole, ← hput] at hnew
    have hrec : w.record t.pc = w.answered := by rw [hpc]; rfl
    rw [hrec]
    exact hnew
  | find service sdp answers slot hpc hfound hrole =>
    obtain ⟨hmatch, -⟩ := hfind (service, answers) (by rw [hpc]; rfl)
    have hmeant : answers = some slot := (hmatch (service, slot)
      (Std.ExtTreeMap.mem_toList_iff_getElem?_eq_some.mpr hfound)).mp rfl
    have hnew := Matched.find hw tid hfound
    rw [← hmeant, ← hrole, ← hput] at hnew
    have hrec : w.record t.pc = w.answered := by
      rw [hpc, hmeant]
      exact if_pos (Std.ExtTreeMap.contains_eq_isSome_getElem?.trans (by
        rw [show w.registry.pendingSdpRequests[service]? = _ from hfound]
        rfl))
    rw [hrec]
    exact hnew
  | miss service sdp answers hpc hfound hrole =>
    obtain ⟨hmatch, hsent⟩ := hfind (service, answers) (by rw [hpc]; rfl)
    have hput := hw.put_same ht (hrole.trans (by rw [hpc]; rfl))
    have habsent : ¬ w.registry.pendingSdpRequests.contains service = true := by
      rw [Std.ExtTreeMap.contains_eq_isSome_getElem?,
        show w.registry.pendingSdpRequests[service]? = _ from hfound]
      exact Bool.false_ne_true
    cases answers with
    | none => exact .of_role hput rfl (.refl _) (by rw [hpc]; rfl)
    | some n =>
      have hgone : ∀ k, w.registry.pending k ≠ some n := fun k hk ↦ by
        have hkey : k = service :=
          (hmatch (k, n) (Std.ExtTreeMap.mem_toList_iff_getElem?_eq_some.mpr hk)).mpr rfl
        rw [hkey, hfound] at hk
        cases hk
      have hnew := hput.late (hsent n rfl) hgone sdp
      have hrec : w.record t.pc = Function.update w.answered n (some sdp) := by
        rw [hpc]
        exact if_neg habsent
      rw [hrec]
      exact hnew
  | fulfil slot sdp answers hpc hrole =>
    obtain ⟨rfl, hslot⟩ : (Role.bringing slot answers).Fits w.registry.pending w.registry.content
        w.answered w.registry.nextSlot := by
      have := hw.fits tid
      rwa [hself, hpc] at this
    have hfirst := hbring slot (by rw [hpc]; rfl)
    have hnew := (Matched.rest hw tid).fill hslot hfirst sdp
    rw [← hrole, ← hput, ← Registry.content_fulfil] at hnew
    have hrec : w.record t.pc = Function.update w.answered slot (some sdp) := by rw [hpc]; rfl
    rw [hrec]
    exact hnew

/-- A thread that goes on sending does with the slots what it was to do. -/
theorem Server.role_advance {cfg : Config} {w : Server} {tid : Nat} {t : Thread} {out : Outgoing}
    {next : Then} (ht : w.threads tid = some t) (hpc : t.pc = .sending out next) (reached : Nat) :
    (w.advance cfg tid t out next reached).role = w.role := by
  have hself : w.role tid = next.role := by
    rw [Server.role, ht]
    simp only [hpc, Pc.role]
  unfold Server.advance
  split
  · apply (Server.role_put w tid t _).trans
    rw [Function.update_eq_self_iff, hself]
    split
    · rfl
    · exact Then.role_ok cfg t.fd next
  · apply (Server.role_put w tid t _).trans
    rw [Function.update_eq_self_iff, hself]
    rfl

/-- One event keeps slots and answers matched. -/
theorem Server.SlotsMatch.step {cfg : Config} {w v : Server} {l : ServerLabel}
    (hc : AnswersMatch w l) (hw : w.SlotsMatch) (h : w.step cfg l = some v) : v.SlotsMatch := by
  cases l with
  | accept fd ip =>
    obtain ⟨-, rfl⟩ := Server.step_accept h
    refine .of_role (Matched.rest hw w.spawned) ?_ ⟨rfl, rfl, rfl⟩ rfl
    funext tid
    unfold Server.role
    by_cases he : tid = w.spawned
    · simp [he, Pc.role]
    · simp [Function.update_of_ne he]
  | recv tid stream answers =>
    obtain ⟨t, ht, hpc, rfl⟩ := Server.step_recv h
    refine .of_role (hw.put_same ht ?_) rfl (.refl _) rfl
    rw [hpc]
    split <;> rfl
  | run tid now =>
    obtain ⟨t, ht, ⟨msg, answers, hpc, -, ⟨e, -, rfl⟩ | ⟨pc, hp, rfl⟩⟩ | ⟨-, r, pc, hr, rfl⟩⟩ :=
      Server.step_run h
    · exact .of_role hw rfl (w.registry.updateFirst_sameSlots ..) rfl
    · refine .of_role (hw.put_same ht ?_) rfl (w.registry.updateFirst_sameSlots ..) rfl
      rw [hpc]
      cases dispatched_of_dispatch hp <;> rfl
    · exact slotsMatch_run hw hc ht hr
  | timeout tid =>
    obtain ⟨t, req, slot, ht, hpc, -, rfl⟩ := Server.step_timeout h
    have hwaits : w.role tid = .waiting req.serviceId slot := by
      rw [Server.role, ht]
      simp only [hpc, Pc.role]
    refine .of_role ?_ (Server.role_put w tid t _) (.refl _) rfl
    exact Matched.finish hw hwaits fun a ha ↦ by cases ha
  | accepted tid n =>
    obtain ⟨t, out, next, ht, hpc, -, rfl⟩ := Server.step_accepted h
    generalize hemit : w.emit out.fd (((frame out.msg).drop out.sent).take n) = u
    have hu : u.SlotsMatch ∧ u.threads = w.threads := by
      rw [← hemit]
      exact ⟨hw, rfl⟩
    obtain ⟨hr, -, -, ha⟩ := Server.advance_same cfg u tid t out next
      (if next.raw then out.callEnd else out.sent + n)
    exact .of_role hu.1 (Server.role_advance (hu.2 ▸ ht) hpc _) (hr ▸ .refl _) ha
  | sendFail tid =>
    obtain ⟨t, out, next, ht, hpc, rfl⟩ := Server.step_sendFail h
    split
    · obtain ⟨hr, -, -, ha⟩ := Server.advance_same cfg w tid t out next out.callEnd
      exact .of_role hw (Server.role_advance ht hpc _) (hr ▸ .refl _) ha
    · have hself : w.role tid = next.role := by
        rw [Server.role, ht]
        simp only [hpc, Pc.role]
      cases hf : next.role with
      | waiting service slot =>
        refine .of_role ?_ (Server.role_put w tid t _) (.refl _) rfl
        rw [Then.role_fail_waiting hf]
        exact Matched.finish hw (hself.trans hf) fun a ha ↦ by cases ha
      | _ => exact .of_role (hw.put_same ht ((Then.role_fail_idle (by simp [hf])).trans
          (by rw [hpc]; rfl))) rfl (.refl _) rfl

/-- What a thread that asked for an SDP can rely on: its slot stays under its service from
when it is installed, no other thread has a slot for the service or has this slot, the slot
holds exactly the answer to its CONSUMER_CONNECT from when there is one, and once it is there
the wait ends with it and does not time out. -/
structure Server.Served (cfg : Config) (w : Server) (tid : Nat) (t : Thread) : Prop where
  own : ∀ service slot, t.pc.role.holds = some (service, slot) →
    w.registry.pending service = some slot
  alone : ∀ service slot, t.pc.role.holds = some (service, slot) → ∀ tid' ≠ tid,
    ∀ service' slot', (w.role tid').holds = some (service', slot') →
      service' ≠ service ∧ slot' ≠ slot
  filled : ∀ service slot, t.pc.role = .waiting service slot →
    w.registry.content slot = w.answered slot
  woken : ∀ req slot sdp, t.pc = .requestWait req slot → w.answered slot = some sdp →
    w.step cfg (.timeout tid) = none ∧
      ∀ now, t.run cfg tid now w.registry = some (w.registry, .requestErase req slot (some sdp))
  answer : ∀ req slot sdp, t.pc = .requestErase req slot (some sdp) → w.answered slot = some sdp

theorem Server.SlotsMatch.toServed {cfg : Config} {w : Server} (hw : w.SlotsMatch) {tid : Nat}
    {t : Thread} (ht : w.threads tid = some t) : w.Served cfg tid t := by
  have hself : w.role tid = t.pc.role := by rw [Server.role, ht]
  have hfits := hw.fits tid
  rw [hself] at hfits
  refine ⟨fun service slot hh ↦ hfits.own hh, fun service slot hh tid' hne service' slot' hh' ↦
    ⟨?_, ?_⟩, ?_, ?_, ?_⟩
  · rintro rfl
    exact hne (hw.alone tid' tid service' slot' slot hh' (hself ▸ hh))
  · rintro rfl
    exact hne (hw.eq_of_slot hh' (hself ▸ hh))
  · intro service slot hrole
    rw [hrole] at hfits
    exact hfits.2
  · intro req slot sdp hpc ha
    rw [hpc] at hfits
    have hcontent : w.registry.content slot = some sdp := hfits.2.trans ha
    have hready : (w.registry.slots slot).ready = true ∧ (w.registry.slots slot).sdp = sdp := by
      unfold Registry.content at hcontent
      split at hcontent
      · next hr => exact ⟨hr, Option.some.inj hcontent⟩
      · cases hcontent
    constructor
    · cases htime : w.step cfg (.timeout tid) with
      | none => rfl
      | some v =>
        obtain ⟨t', req', slot', ht', hpc', hnot, -⟩ := Server.step_timeout htime
        cases ht.symm.trans ht'
        cases hpc.symm.trans hpc'
        rw [hready.1] at hnot
        cases hnot
    · intro now
      simp only [Thread.run, hpc, if_pos hready.1, hready.2]
  · intro req slot sdp hpc
    rw [hpc] at hfits
    exact hfits.2 sdp rfl

/-- In every run in which a slot is installed only for a service that has none, and each
SDP_READY answers the CONSUMER_CONNECT of the slot it finds, every REQUEST handler keeps its
slot and is woken with its own answer. -/
theorem served {cfg : Config} {ls : List ServerLabel} {w : Server}
    (hc : Always (Server.step cfg) AnswersMatch .start ls)
    (hr : run (Server.step cfg) .start ls = some w) {tid : Nat} {t : Thread}
    (ht : w.threads tid = some t) : w.Served cfg tid t :=
  have hw : w.SlotsMatch := invariant_run (Server.step cfg) (fun _ _ _ hl hs ht ↦ hs.step hl ht) hc
    Server.slotsMatch_start hr
  hw.toServed ht

/-- A camera registers, as thread 1. -/
def registerCamera : List ServerLabel :=
  [.accept 4 (lit "10.0.0.1"), .run 1 0,
    .recv 1 (frame (lit "type=REGISTER\nservice_id=cam\np2p_port=8554\n")) none, .run 1 0, .run 1 0,
    .run 1 0, .accepted 1 4, .accepted 1 26, .run 1 0, .run 1 0, .run 1 0]

/-- A consumer asks for it and waits. -/
def requestCamera (tid fd : Nat) : List ServerLabel :=
  [.accept fd (lit "10.0.0.2"), .run tid 0,
    .recv tid (frame (lit "type=REQUEST\nservice_id=cam\nconsumer_sdp=v=0\n")) none, .run tid 0,
    .run tid 0, .run tid 0, .run tid 0, .run tid 0, .accepted tid 4, .accepted tid 93, .run tid 0]

/-- The camera answers a CONSUMER_CONNECT. -/
def answerSlot (slot : Nat) : List ServerLabel :=
  [.recv 1 (frame (lit "type=SDP_READY\nservice_id=cam\nsdp=v=0\n")) (some slot), .run 1 0,
    .run 1 0,
    .run 1 0, .run 1 0]

/-- Two consumers, the second one behind the answer to the first. -/
def oneByOne : List ServerLabel :=
  registerCamera ++ (requestCamera 2 5 ++ (answerSlot 0 ++
    (.run 2 0 :: .run 2 0 :: (requestCamera 3 6 ++ answerSlot 1))))

/-- Two consumers, the second one before the answer to the first, which wakes it. -/
def bothAtOnce : List ServerLabel :=
  registerCamera ++ (requestCamera 2 5 ++ (requestCamera 3 6 ++ (answerSlot 0 ++ [.run 3 0])))

theorem served_oneByOne :
    ∃ w t, run (Server.step .unset) .start oneByOne = some w ∧ w.threads 3 = some t ∧
      w.Served .unset 3 t := by
  have hsome : ((run (Server.step .unset) .start oneByOne).bind (·.threads 3)).isSome = true := by
    decide +kernel
  obtain ⟨t, ht⟩ := Option.isSome_iff_exists.mp hsome
  obtain ⟨w, hr, ht⟩ := Option.bind_eq_some_iff.mp ht
  exact ⟨w, t, hr, ht, served (by decide +kernel) hr ht⟩

/-- A second consumer's slot replaces the first one's. The camera's answer to the first
CONSUMER_CONNECT ends up with the second consumer, and the first goes on waiting. -/
theorem not_served_both :
    ∃ w, run (Server.step .unset) .start bothAtOnce = some w ∧
      w.answered 0 = some (lit "v=0\n") ∧ w.role 2 = .waiting (lit "cam") 0 ∧
      w.registry.content 0 = none ∧ w.registry.pending (lit "cam") = some 1 ∧
      w.role 3 = .finished (lit "cam") 1 (some (lit "v=0\n")) ∧ w.answered 1 = none :=
  exists_run (Server.step .unset) (fun w ↦ w.answered 0 = some (lit "v=0\n") ∧
    w.role 2 = .waiting (lit "cam") 0 ∧ w.registry.content 0 = none ∧
    w.registry.pending (lit "cam") = some 1 ∧
    w.role 3 = .finished (lit "cam") 1 (some (lit "v=0\n")) ∧ w.answered 1 = none)
    (by decide +kernel)

end Kitty.Signal
