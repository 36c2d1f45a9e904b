import Kitty.Vms.Count

/-!
# The identity of cameras

A request to connect a camera looks for a session with its id, and allocates one in a later step;
a request to disconnect it frees the slot it found earlier
(`src/consumer-srt-cloud/_legacy_libjuice_consumer_api.c:495–544, 1822–1860`,
`src/provider-srt/http_api.h:326–342`). Neither looks again.
-/

namespace Kitty.Vms

open Kitty.Base

/-- No active session carries the id. -/
def Unused (w : VmsState) (id : Bytes) : Prop :=
  ∀ j, (w.cameras j).active = true → (w.cameras j).cameraId ≠ id

/-- The slot is the only one with an active session that carries the id, if there is one, and
carries no other id while active. -/
def OnlyAt (w : VmsState) (i : Fin maxCameras) (id : Bytes) : Prop :=
  ∀ j, (w.cameras j).active = true → ((w.cameras j).cameraId = id ↔ j = i)

/-- A session is allocated only for an id that no active session carries. A thread gets past the
look at `active` only when no other thread has for the session, and one that was asked to
disconnect a camera goes there only while the slot it found is the one of the camera. -/
def Identified (w : VmsState) : Event → Prop
  | .advance p =>
    (∀ th ∈ w.threads[p]?, ∀ id ∈ th.allocating, ∀ i ∈ freeSlot w, Unused w id) ∧
    (∀ th ∈ w.threads[p]?, ∀ i ∈ th.entering, (w.cameras i).active = true → NotFreed w i) ∧
    ∀ th ∈ w.threads[p]?, ∀ i ∈ th.entering, ∀ id ∈ th.disconnects, OnlyAt w i id
  | _ => True

/-- No two active sessions carry one id, and a thread that frees a session on a request to
disconnect a camera frees the one of that camera. -/
structure Named (w : VmsState) : Prop where
  unique : ∀ i j, (w.cameras i).active = true → (w.cameras j).active = true →
    (w.cameras i).cameraId = (w.cameras j).cameraId → i = j
  disconnecting : ∀ (p : Nat) (th : Thread) i id, w.threads[p]? = some th →
    th.freeing = some i → th.disconnects = some id → (w.cameras i).cameraId = id

section Step

variable {w t : VmsState}

private theorem Named.sameSessions (h : Named w) (hs : SameSessions w t)
    (hdisconnecting : ∀ (p : Nat) (th : Thread) i id, t.threads[p]? = some th →
      th.freeing = some i → th.disconnects = some id → (w.cameras i).cameraId = id) :
    Named t where
  unique i j hi hj hij := by
    rw [hs.active] at hi hj
    rw [hs.cameraId, hs.cameraId] at hij
    exact h.unique i j hi hj hij
  disconnecting p th i id hp hth hid := by
    rw [hs.cameraId]
    exact hdisconnecting p th i id hp hth hid

private theorem Named.quiet (h : Named w) (hq : Quiet w t) : Named t := by
  apply h.sameSessions hq.toSameSessions
  intro p th i id hp hth hid
  exact h.disconnecting p th i id ((hq.freeing p th (by simp [hth])).mp hp) hth hid

private theorem Named.allocate (h : Named w) (ha : Accounted w) {p : Nat} {id : Bytes}
    {i : Fin maxCameras} (hi : freeSlot w = some i) (hunused : Unused w id) :
    Named (allocateCameraSession w p id i) := by
  have hinactive : (w.cameras i).active = false := by simpa using List.find?_some hi
  have hself : ((allocateCameraSession w p id i).cameras i).cameraId = id := by
    simp [allocateCameraSession]
  have hother : ∀ j, j ≠ i → (allocateCameraSession w p id i).cameras j = w.cameras j :=
    fun j hj ↦ Function.update_of_ne hj ..
  constructor
  · intro j k hj hk hjk
    obtain ⟨rfl, -⟩ | ⟨hne, hold⟩ := active_update hj
    · obtain ⟨rfl, -⟩ | ⟨hne', hold'⟩ := active_update hk
      · rfl
      · rw [hself, hother k hne'] at hjk
        exact absurd hjk.symm (hunused k hold')
    · obtain ⟨rfl, -⟩ | ⟨hne', hold'⟩ := active_update hk
      · rw [hself, hother j hne] at hjk
        exact absurd hjk (hunused j hold)
      · rw [hother j hne, hother k hne'] at hjk
        exact h.unique j k hold hold' hjk
  · intro q th j id' hq hth hid
    obtain ⟨-, rfl⟩ | ⟨-, hold⟩ := getElem?_set_eq_some hq
    · cases hth
    · have hj := ha.freeing q th j hold hth
      have hne : j ≠ i := by
        rintro rfl
        simp [hinactive] at hj
      rw [hother j hne]
      exact h.disconnecting q th j id' hold hth hid

private theorem Named.enter (h : Named w) {p : Nat} {i : Fin maxCameras} {after : After}
    (hi : (w.cameras i).active = true)
    (honly : ∀ id ∈ (Thread.free i after).disconnects, OnlyAt w i id) :
    Named (enterFree w p i after) := by
  apply h.sameSessions (sameSessions_enterFree w p i after)
  intro q th j id hq hth hid
  obtain ⟨-, rfl⟩ | ⟨-, hold⟩ := getElem?_set_eq_some hq
  · cases hth
    have hmem : id ∈ (Thread.free i after).disconnects := by
      cases after <;> exact hid
    exact (honly id hmem i hi).mpr rfl
  · exact h.disconnecting q th j id hold hth hid

private theorem Named.take (h : Named w) {p : Nat} {i : Fin maxCameras} {r : Nat} {after : After}
    (hp : w.threads[p]? = some (.stopping i r after)) : Named (takeAgent w p i r after) := by
  apply h.sameSessions (sameSessions_takeAgent w p i r after)
  intro q th j id hq hth hid
  obtain ⟨rfl, rfl⟩ | ⟨-, hold⟩ := getElem?_set_eq_some hq
  · cases hth
    apply h.disconnecting q _ i id hp rfl
    cases after <;> exact hid
  · exact h.disconnecting q th j id hold hth hid

private theorem Named.release (h : Named w) {p : Nat} {i : Fin maxCameras} {r : Nat}
    {after : After} : Named (releaseSession w p i r after) := by
  have hid : ∀ j, ((releaseSession w p i r after).cameras j).cameraId =
      (w.cameras j).cameraId := by
    intro j
    by_cases hj : j = i <;> simp [releaseSession, hj]
  constructor
  · intro j k hj hk hjk
    rw [hid, hid] at hjk
    obtain ⟨-, hfalse⟩ | ⟨-, hold⟩ := active_update hj
    · simp at hfalse
    · obtain ⟨-, hfalse⟩ | ⟨-, hold'⟩ := active_update hk
      · simp at hfalse
      · exact h.unique j k hold hold' hjk
  · intro q th j id hq hth hdis
    rw [hid]
    obtain ⟨-, rfl⟩ | ⟨-, hold⟩ := getElem?_set_eq_some hq
    · cases after <;> simp [After.resume, Thread.freeing] at hth
    · exact h.disconnecting q th j id hold hth hdis

private theorem named_step (w : VmsState) (e : Event) (t : VmsState) (hc : Identified w e)
    (h : Accounted w ∧ Named w) (hstep : step w e = some t) : Accounted t ∧ Named t := by
  obtain ⟨ha, hn⟩ := h
  have halone : FreesAlone w e := by
    cases e with
    | advance p => exact hc.2.1
    | _ => trivial
  refine ⟨accounted_step w e t halone ha hstep, ?_⟩
  cases effect_of_step hstep with
  | look hthreads => exact hn.quiet (quiet_look hthreads)
  | change i e => exact hn.quiet (quiet_changeSession w i e)
  | create hp => exact hn.quiet (quiet_storeAgent hp _)
  | listen hp => exact hn.quiet (quiet_storeListener hp _)
  | allocate hp hi => exact hn.allocate ha hi (hc.1 _ hp _ rfl _ hi)
  | enter hp hi => exact hn.enter hi (hc.2.2 _ hp _ rfl)
  | take hp => exact hn.take hp
  | release _ => exact hn.release

end Step

/-- `find_camera_session` finds no session when there is none to find. -/
private theorem unused_of_find {w : VmsState} {id : Bytes} (h : findCameraSession w id = none) :
    Unused w id := by
  intro j hj hid
  have hnot := List.find?_eq_none.mp h j (List.mem_finRange j)
  simp [hj, hid] at hnot

/-- A request to disconnect a camera ends with no session of the camera active. -/
private theorem unused_of_disconnected {w t : VmsState} (ha : Accounted w) (hn : Named w)
    {p : Nat} (hc : Identified w (.advance p)) {th : Thread} {id : Bytes}
    (hp : w.threads[p]? = some th) (hid : th.disconnects = some id)
    (hstep : step w (.advance p) = some t) (hdone : t.threads[p]? = some .done) :
    Unused t id := by
  have hlen := (List.getElem?_eq_some_iff.mp hp).1
  simp only [step, hp, Option.bind_some] at hstep
  cases th with
  | handleDisconnect id' =>
    cases hid
    cases hstep
    simp only [List.getElem?_set_self hlen, Option.some.injEq] at hdone
    split at hdone
    · cases hdone
    · next hnone => exact unused_of_find hnone
  | free i after =>
    simp only [advance] at hstep
    split at hstep
    · cases hstep
      simp only [enterFree, List.getElem?_set_self hlen] at hdone
      cases hdone
    · next hinactive =>
      cases hstep
      intro j hj hjd
      have hji := (hc.2.2 _ hp i rfl id hid j hj).mp hjd
      rw [hji] at hj
      exact hinactive hj
  | stopping i r after =>
    cases hstep
    simp only [takeAgent, List.getElem?_set_self hlen] at hdone
    cases hdone
  | destroying i r after =>
    cases hstep
    intro j hj hjd
    obtain ⟨-, hfalse⟩ | ⟨hne, hold⟩ := active_update hj
    · simp at hfalse
    · have hsame : (releaseSession w p i r after).cameras j = w.cameras j :=
        Function.update_of_ne hne ..
      rw [hsame, ← hn.disconnecting p _ i id hp rfl hid] at hjd
      exact hne (hn.unique j i hold (ha.freeing p _ i hp rfl) hjd)
  | _ => cases hid

/-- In every run that meets the condition no two active sessions carry one id or are one
session, so the slot found for an id is the only one with a session of it, and a request to
disconnect a camera ends with no active session of it. -/
theorem identity_unique {events : List Event} {t : VmsState}
    (hrun : run step start events = some t) (hc : Always step Identified start events) :
    (∀ i j, (t.cameras i).active = true → (t.cameras j).active = true →
      (t.cameras i).cameraId = (t.cameras j).cameraId ∨
        (t.cameras i).serial = (t.cameras j).serial → i = j) ∧
      (∀ id i, findCameraSession t id = some i → ∀ j, (t.cameras j).active = true →
        (t.cameras j).cameraId = id → j = i) ∧
      ∀ p th id u, Identified t (.advance p) → t.threads[p]? = some th →
        th.disconnects = some id → step t (.advance p) = some u → u.threads[p]? = some .done →
        ∀ j, (u.cameras j).active = true → (u.cameras j).cameraId ≠ id := by
  have hstart : Accounted start ∧ Named start :=
    ⟨accounted_start, fun i j hi ↦ by simp [start, Session.zero] at hi,
      fun p th i id hp ↦ by simp [start] at hp⟩
  obtain ⟨ha, hn⟩ := invariant_run step named_step hc hstart hrun
  refine ⟨?_, ?_, fun p th id u hid hp hdis hstep hdone ↦
    unused_of_disconnected ha hn hid hp hdis hstep hdone⟩
  · intro i j hi hj hij
    rcases hij with hid | hserial
    · exact hn.unique i j hi hj hid
    · exact ha.serial_inj i j hi hj hserial
  · intro id i hi j hj hjd
    have hfound := List.find?_some hi
    rw [Bool.and_eq_true, beq_iff_eq] at hfound
    exact hn.unique j i hj hfound.1 (hjd.trans hfound.2.symm)

instance (w : VmsState) (id : Bytes) : Decidable (Unused w id) :=
  inferInstanceAs (Decidable (∀ j, (w.cameras j).active = true → (w.cameras j).cameraId ≠ id))

instance (w : VmsState) (i : Fin maxCameras) (id : Bytes) : Decidable (OnlyAt w i id) :=
  inferInstanceAs (Decidable (∀ j, (w.cameras j).active = true →
    ((w.cameras j).cameraId = id ↔ j = i)))

instance (w : VmsState) : (e : Event) → Decidable (Identified w e)
  | .advance p =>
    inferInstanceAs (Decidable (
      (∀ th ∈ w.threads[p]?, ∀ id ∈ th.allocating, ∀ i ∈ freeSlot w, Unused w id) ∧
      (∀ th ∈ w.threads[p]?, ∀ i ∈ th.entering, (w.cameras i).active = true → NotFreed w i) ∧
      ∀ th ∈ w.threads[p]?, ∀ i ∈ th.entering, ∀ id ∈ th.disconnects, OnlyAt w i id))
  | .request _ | .quit | .slot _ _ | .create _ _ | .negotiated _ _ | .listen _ _ | .settled _ _ =>
    isTrue trivial

theorem identity_unique_twoCameras :
    ∃ t, run step start twoCameras = some t ∧ t.numActiveCameras = 2 ∧
      (findCameraSession t (lit "cam1") = some ⟨0, maxCameras_pos⟩ ∧
        findCameraSession t (lit "cam2") = some secondSlot) ∧
      ∀ i j, (t.cameras i).active = true → (t.cameras j).active = true →
        (t.cameras i).cameraId = (t.cameras j).cameraId ∨
          (t.cameras i).serial = (t.cameras j).serial → i = j := by
  have hrun : ∃ t, run step start twoCameras = some t ∧ t.numActiveCameras = 2 ∧
      findCameraSession t (lit "cam1") = some ⟨0, maxCameras_pos⟩ ∧
      findCameraSession t (lit "cam2") = some secondSlot :=
    exists_run step _ (by decide +kernel)
  obtain ⟨t, ht, hnum, hfound⟩ := hrun
  exact ⟨t, ht, hnum, hfound, (identity_unique ht (by decide +kernel)).1⟩

/-- Two requests to connect a camera look for its session before either allocates one. -/
theorem two_connects_share_id :
    ¬ ∀ events t, run step start events = some t →
      ∀ i j, (t.cameras i).active = true → (t.cameras j).active = true →
        (t.cameras i).cameraId = (t.cameras j).cameraId → i = j := by
  intro h
  have hrun : ∃ t, run step start
      [.request (.connect (lit "cam")), .request (.connect (lit "cam")), .advance 0, .advance 1,
        .advance 0, .advance 1, .advance 0, .advance 1] = some t ∧
      ∃ i j, (t.cameras i).active = true ∧ (t.cameras j).active = true ∧
        (t.cameras i).cameraId = (t.cameras j).cameraId ∧ i ≠ j :=
    exists_run step _ (by decide +kernel)
  obtain ⟨t, ht, i, j, hi, hj, hid, hne⟩ := hrun
  exact hne (h _ t ht i j hi hj hid)

end Kitty.Vms
