import Kitty.Forwarding.Owned
import Kitty.Vms.Session

/-!
# The consumer's connections

A forward thread of the multi-camera consumer is started for each socket the accept thread of a
camera brings; the reconnect monitor closes the connections of a camera under its mutex,
`free_camera_session` under the global one, and a camera that is allocated starts from zeros;
`src/consumer-srt-cloud/_legacy_libjuice_consumer_api.c:508–712, 1240–1290, 1383–1437, 1602–1671`.
-/

namespace Kitty.Forwarding

open Kitty.Base Kitty.Vms

/-- `camera_session_t`, as far as its connections go. -/
structure Camera where
  active : Bool
  connected : Bool
  shouldStop : Bool
  nextConnId : BitVec 32

/-- `vms_state`, with what its threads share. Accept threads have sockets that are not in the
table yet, each under its number. -/
structure ConsumerState extends Shared maxCameras where
  cameras : Fin maxCameras → Camera
  accepted : List (Option (Fin maxCameras × Nat))

/-- After `main` has cleared `vms_state`. -/
def ConsumerState.start : ConsumerState :=
  ⟨Shared.start maxCameras, fun _ ↦ ⟨false, false, false, 0⟩, []⟩

/-- A thread has the global mutex while it frees a session. -/
def Thread.frees : Thread maxCameras → Bool
  | .sweep .free _ _ pc =>
    match pc with
    | .look | .closing _ _ | .leave => true
    | .stop | .enter | .done => false
  | _ => false

/-- A session is allocated; a client is accepted; the accept thread goes on with it, with memory
for a connection or without, and the forward thread is started or not; the ICE session of a
camera begins or ends; the monitor reconnects a camera; a session is freed; the process opens or
closes another descriptor; a thread takes its next step. -/
inductive ConsumerEvent where
  | allocate
  | accept (g : Fin maxCameras) (fd : Nat)
  | install (k : Nat) (memory started : Bool)
  | ice (g : Fin maxCameras) (connected : Bool)
  | reconnect (g : Fin maxCameras)
  | free (g : Fin maxCameras)
  | openOther (fd : Nat)
  | closeOther (fd : Nat)
  | advance (p : Nat) (o : Outcome)

namespace ConsumerState

variable (w : ConsumerState)

/-- The global mutex is held. -/
def globalLocked : Bool := w.threads.any Thread.frees

/-- The mutex that other code closes connections under is held. -/
def sweepLocked (kind : Sweep) (g : Fin maxCameras) : Bool :=
  if kind = .free then w.globalLocked else w.locked g

/-- The session `allocate_camera_session` takes. -/
def freeCamera : Option (Fin maxCameras) :=
  (List.finRange maxCameras).find? fun g ↦ !(w.cameras g).active

/-- A field of a session is written. -/
def setCamera (g : Fin maxCameras) (c : Camera) : ConsumerState :=
  { w with cameras := Function.update w.cameras g c }

/-- The accept thread has the mutex of its camera. -/
def installStep (k : Nat) (memory started : Bool) (g : Fin maxCameras) (fd : Nat) :
    ConsumerState :=
  let w' := { w with accepted := w.accepted.set k none }
  if (w.cameras g).connected then
    match w.freePlace g with
    | none => { w' with toShared := w.closeFd fd }
    | some i =>
      if memory then
        let c := (w.create (g, i) (w.cameras g).nextConnId).attach (g, i) fd
        { w' with
          toShared := if started then c.spawn (g, i) else c
          cameras := Function.update w.cameras g
            { w.cameras g with nextConnId := (w.cameras g).nextConnId + 1 } }
      else { w' with toShared := (w.reset (g, i)).closeFd fd }
  else { w' with toShared := w.closeFd fd }

/-- The next step of a thread. The monitor has the mutex of the camera while it closes its
connections, `free_camera_session` the global one. -/
def advanceStep (p : Nat) (o : Outcome) : Thread maxCameras → Option ConsumerState
  | .forward s n pc =>
    if pc = .begin ∧ w.globalLocked then none
    else
      (w.forwardStep (w.cameras s.1).active (w.cameras s.1).connected (w.cameras s.1).shouldStop
        p s n o pc).map fun t ↦ { w with toShared := t }
  | .sweep kind g todo .stop =>
    if w.locked g then none
    else some { w.setCamera g { w.cameras g with connected := false } with
      toShared := w.goTo p (.sweep kind g todo .enter) }
  | .sweep kind g todo .enter =>
    if w.sweepLocked kind g then none
    else some { w with toShared := w.goTo p (.sweep kind g todo .look) }
  | .sweep kind g todo .leave =>
    let c := w.cameras g
    some { w.setCamera g (if kind = .free then { c with active := false }
        else { c with connected := false }) with
      toShared := w.goTo p (.sweep kind g todo .done) }
  | .sweep kind g todo pc =>
    (w.sweepStep p kind g o todo pc).map fun t ↦ { w with toShared := t }

/-- The consumer and what happens to it. -/
def step : ConsumerEvent → Option ConsumerState
  | .allocate =>
    if w.globalLocked then none
    else match w.freeCamera with
      | none => some w
      | some g => some { w.setCamera g ⟨true, false, false, 1⟩ with toShared := w.wipe g }
  | .accept g fd =>
    if w.Lowest fd then
      some { w with
        toShared := w.openFd fd (.pending w.accepted.length)
        accepted := w.accepted ++ [some (g, fd)] }
    else none
  | .install k memory started =>
    match w.accepted[k]? with
    | some (some (g, fd)) =>
      if w.locked g then none else some (w.installStep k memory started g fd)
    | _ => none
  | .ice g connected =>
    if w.locked g then none
    else some (w.setCamera g { w.cameras g with connected })
  | .reconnect g =>
    some { w with toShared := w.sweep .reconnect g (List.finRange maxConnections) .enter }
  | .free g =>
    if (w.cameras g).active then
      some { w.setCamera g { w.cameras g with shouldStop := true } with
        toShared := w.sweep .free g (List.finRange maxConnections) .stop }
    else none
  | .openOther fd =>
    if w.Lowest fd then some { w with toShared := w.openFd fd .other } else none
  | .closeOther fd =>
    if w.descriptors fd = some .other then some { w with toShared := w.closeFd fd } else none
  | .advance p o => w.threads[p]?.bind (w.advanceStep p o)

/-- Places are taken or cleared only when no thread has a pointer to them, and a number of a
descriptor is given out only when no thread has it and it is in no place that is used. -/
def Fresh (w : ConsumerState) : ConsumerEvent → Prop
  | .allocate => ∀ g ∈ w.freeCamera, ∀ i, ¬ w.Pointed (g, i)
  | .accept _ fd => w.Unused fd
  | .install k _ _ =>
    ∀ a ∈ w.accepted[k]?, ∀ c ∈ a, (w.cameras c.1).connected = true →
      ∀ i ∈ w.freePlace c.1, ¬ w.Pointed (c.1, i)
  | .openOther fd => w.Unused fd
  | _ => True

/-- The sockets of the accept threads are their own. -/
structure Ready : Prop extends w.Owned where
  accepted : ∀ k g fd, w.accepted[k]? = some (some (g, fd)) →
    w.descriptors fd = some (.pending k)

variable {w}

theorem ready_start : ConsumerState.start.Ready where
  toOwned := owned_start maxCameras
  accepted _ _ _ h := by cases h

theorem Ready.closes (h : w.Ready) {t : Shared maxCameras} {cameras : Fin maxCameras → Camera}
    (howned : t.Owned) (hcloses : w.Closes t) : Ready ⟨t, cameras, w.accepted⟩ where
  toOwned := howned
  accepted k g fd hk := hcloses.pending fd k (h.accepted k g fd hk)

/-- The accept thread is done with a socket: those of the others are left alone. -/
theorem Ready.settled (h : w.Ready) {t : Shared maxCameras} {cameras : Fin maxCameras → Camera}
    {k : Nat} {g : Fin maxCameras} {fd : Nat} (hk : w.accepted[k]? = some (some (g, fd)))
    (howned : t.Owned) (hfd : ∀ fd', fd' ≠ fd → t.descriptors fd' = w.descriptors fd') :
    Ready ⟨t, cameras, w.accepted.set k none⟩ where
  toOwned := howned
  accepted := by
    intro k' g' fd' hk'
    obtain ⟨-, hnone⟩ | ⟨hne, hk'⟩ := getElem?_set_eq_some hk'
    · cases hnone
    · have hpending := h.accepted k' g' fd' hk'
      refine (hfd fd' ?_).trans hpending
      rintro rfl
      have heq := (h.accepted k g fd' hk).symm.trans hpending
      cases heq
      exact hne rfl

theorem Ready.installStep (h : w.Ready) {k : Nat} {memory started : Bool} {g : Fin maxCameras}
    {fd : Nat} (hk : w.accepted[k]? = some (some (g, fd)))
    (hfresh : w.Fresh (.install k memory started)) :
    (w.installStep k memory started g fd).Ready := by
  have hclose : ∀ (t : Shared maxCameras) fd', fd' ≠ fd →
      (t.closeFd fd).descriptors fd' = t.descriptors fd' :=
    fun t fd' hne ↦ Function.update_of_ne hne ..
  unfold ConsumerState.installStep
  split
  · next hconnected =>
    split
    · exact h.settled hk (h.closeFd fd) (hclose _)
    · next i hi =>
      have hnot : ¬ w.Pointed (g, i) := hfresh _ hk _ rfl hconnected i hi
      split
      · have hcreated : (w.create (g, i) (w.cameras g).nextConnId).Owned := h.create _ hnot
        have hattached : ((w.create (g, i) (w.cameras g).nextConnId).attach (g, i) fd).Owned :=
          hcreated.attach (h.accepted k g fd hk)
        have hfds : ∀ fd', fd' ≠ fd → ((w.create (g, i) (w.cameras g).nextConnId).attach (g, i)
            fd).descriptors fd' = w.descriptors fd' := fun fd' hne ↦ Function.update_of_ne hne ..
        split
        · refine h.settled hk
            (hattached.spawn ?_ fun hserved ↦ hnot (pointed_of_served hserved)) hfds
          simp [Shared.attach, Shared.create]
        · exact h.settled hk hattached hfds
      · exact h.settled hk ((h.reset hnot).closeFd fd) (hclose _)
  · exact h.settled hk (h.closeFd fd) (hclose _)

theorem Ready.advanceStep (h : w.Ready) {p : Nat} {o : Outcome} {th : Thread maxCameras}
    (hp : w.threads[p]? = some th) {t : ConsumerState} (hstep : w.advanceStep p o th = some t) :
    t.Ready := by
  cases th with
  | forward s n pc =>
    simp only [ConsumerState.advanceStep] at hstep
    split at hstep
    · cases hstep
    · obtain ⟨t, ht, rfl⟩ := Option.map_eq_some_iff.mp hstep
      exact h.closes (h.forwardStep hp ht) (h.closes_forwardStep hp ht)
  | sweep kind g todo pc =>
    have hgo : ∀ pc' cameras, (Thread.sweep kind g todo pc').pointsTo = none →
        Ready ⟨w.goTo p (.sweep kind g todo pc'), cameras, w.accepted⟩ := fun pc' _ hpc' ↦
      h.closes (h.goSweep hp hpc') (closes_goTo hp fun s hs ↦ by cases hs)
    cases pc with
    | stop =>
      simp only [ConsumerState.advanceStep] at hstep
      split at hstep <;> cases hstep
      exact hgo .enter _ rfl
    | enter =>
      simp only [ConsumerState.advanceStep] at hstep
      split at hstep <;> cases hstep
      exact hgo .look _ rfl
    | leave =>
      cases hstep
      exact hgo .done _ rfl
    | _ =>
      simp only [ConsumerState.advanceStep, Option.map_eq_some_iff] at hstep
      obtain ⟨t', ht', rfl⟩ := hstep
      exact h.closes (h.sweepStep hp ht') (h.closes_sweepStep hp ht')

theorem ready_step (w : ConsumerState) (e : ConsumerEvent) (t : ConsumerState)
    (hfresh : Fresh w e) (h : w.Ready) (hstep : w.step e = some t) : t.Ready := by
  cases e with
  | allocate =>
    simp only [ConsumerState.step] at hstep
    split at hstep
    · cases hstep
    · split at hstep
      · cases hstep
        exact h
      · next g hg =>
        cases hstep
        refine ⟨h.toOwned.wipe (hfresh g hg), h.accepted⟩
  | accept g fd =>
    simp only [ConsumerState.step] at hstep
    split at hstep
    · next hlowest =>
      cases hstep
      refine ⟨h.openFd _ hfresh, ?_⟩
      intro k g' fd' hk
      obtain hk | ⟨rfl, hnew⟩ := getElem?_concat_eq_some hk
      · exact (closes_openFd hlowest.1).pending fd' k (h.accepted k g' fd' hk)
      · cases hnew
        exact Function.update_self ..
    · cases hstep
  | install k memory started =>
    simp only [ConsumerState.step] at hstep
    split at hstep
    · next g fd hk =>
      split at hstep <;> cases hstep
      exact h.installStep hk hfresh
    · cases hstep
  | ice g connected =>
    simp only [ConsumerState.step] at hstep
    split at hstep <;> cases hstep
    exact h.closes h.toOwned (.refl _)
  | reconnect g =>
    cases hstep
    exact h.closes (h.sweep fun s c heq ↦ by cases heq) closes_sweep
  | free g =>
    simp only [ConsumerState.step] at hstep
    split at hstep <;> cases hstep
    exact h.closes (h.sweep fun s c heq ↦ by cases heq) closes_sweep
  | openOther fd =>
    simp only [ConsumerState.step] at hstep
    split at hstep
    · next hlowest =>
      cases hstep
      exact h.closes (h.openFd .other hfresh) (closes_openFd hlowest.1)
    · cases hstep
  | closeOther fd =>
    simp only [ConsumerState.step] at hstep
    split at hstep
    · next hother =>
      cases hstep
      refine h.closes (h.closeFd fd) (closes_closeFd ?_)
      intro n hn
      cases hother.symm.trans hn
    · cases hstep
  | advance p o =>
    obtain ⟨th, hp, hstep⟩ := Option.bind_eq_some_iff.mp hstep
    exact h.advanceStep hp hstep

end ConsumerState

end Kitty.Forwarding
