import Kitty.Vms.Session
import Mathlib.Data.Finset.Card
import Mathlib.Data.Fintype.Card

/-!
# The number of active sessions

`num_active_cameras` is changed when a session is allocated and when it is released, and a
thread looks at `active` only before the long tear-down in between
(`src/consumer-srt-cloud/_legacy_libjuice_consumer_api.c:1383–1437`). Two threads that get past the
look for one session release it twice.
-/

namespace Kitty.Vms

open Kitty.Base

/-- The slots of the active sessions. -/
def activeSlots (w : VmsState) : Finset (Fin maxCameras) :=
  Finset.univ.filter fun i ↦ (w.cameras i).active = true

/-- No other thread is freeing the session of a slot. -/
def NotFreed (w : VmsState) (i : Fin maxCameras) : Prop := ∀ th ∈ w.threads, th.freeing ≠ some i

instance (w : VmsState) (i : Fin maxCameras) : Decidable (NotFreed w i) :=
  inferInstanceAs (Decidable (∀ th ∈ w.threads, th.freeing ≠ some i))

/-- A thread gets past the look at `active` only when no other thread has for the session. -/
def FreesAlone (w : VmsState) : Event → Prop
  | .advance p => ∀ th ∈ w.threads[p]?, ∀ i ∈ th.entering,
      (w.cameras i).active = true → NotFreed w i
  | _ => True

instance (w : VmsState) : (e : Event) → Decidable (FreesAlone w e)
  | .advance p =>
    inferInstanceAs (Decidable (∀ th ∈ w.threads[p]?, ∀ i ∈ th.entering,
      (w.cameras i).active = true → NotFreed w i))
  | .request _ | .quit | .slot _ _ | .create _ _ | .negotiated _ _ | .listen _ _ | .settled _ _ =>
    isTrue trivial

/-- Sessions are counted, threads free different ones, and a session that is no longer active
was released by one run. -/
structure Accounted (w : VmsState) : Prop where
  counted : w.numActiveCameras = (activeSlots w).card
  serial_lt : ∀ i, (w.cameras i).active = true → (w.cameras i).serial < w.allocated
  serial_inj : ∀ i j, (w.cameras i).active = true → (w.cameras j).active = true →
    (w.cameras i).serial = (w.cameras j).serial → i = j
  released_lt : ∀ n r, (n, r) ∈ w.released → n < w.allocated
  unreleased : ∀ i, (w.cameras i).active = true → ∀ r, ((w.cameras i).serial, r) ∉ w.released
  released_once : ∀ n, n < w.allocated →
    (∀ i, (w.cameras i).active = true → (w.cameras i).serial ≠ n) →
    ∃ r, w.released.filter (·.1 = n) = [(n, r)]
  freeing : ∀ (p : Nat) (th : Thread) i, w.threads[p]? = some th → th.freeing = some i →
    (w.cameras i).active = true
  alone : ∀ (p q : Nat) (th th' : Thread) i, w.threads[p]? = some th → w.threads[q]? = some th' →
    th.freeing = some i → th'.freeing = some i → p = q

section Step

variable {w t : VmsState}

/-- The table and its history are accounted for when nothing was allocated or released. -/
private theorem Accounted.sameSessions (h : Accounted w) (hs : SameSessions w t)
    (hfreeing : ∀ (p : Nat) (th : Thread) i, t.threads[p]? = some th → th.freeing = some i →
      (w.cameras i).active = true)
    (halone : ∀ (p q : Nat) (th th' : Thread) i, t.threads[p]? = some th →
      t.threads[q]? = some th' → th.freeing = some i → th'.freeing = some i → p = q) :
    Accounted t where
  counted := by
    have hslots : activeSlots t = activeSlots w := Finset.filter_congr fun i _ ↦ by rw [hs.active]
    rw [hs.num, h.counted, hslots]
  serial_lt i hi := by
    rw [hs.active] at hi
    rw [hs.serial, hs.allocated]
    exact h.serial_lt i hi
  serial_inj i j hi hj hij := by
    rw [hs.active] at hi hj
    rw [hs.serial, hs.serial] at hij
    exact h.serial_inj i j hi hj hij
  released_lt n r hr := by
    rw [hs.released] at hr
    rw [hs.allocated]
    exact h.released_lt n r hr
  unreleased i hi r := by
    rw [hs.active] at hi
    rw [hs.serial, hs.released]
    exact h.unreleased i hi r
  released_once n hn hgone := by
    rw [hs.allocated] at hn
    rw [hs.released]
    apply h.released_once n hn
    intro i hi
    rw [← hs.serial]
    exact hgone i (by rw [hs.active, hi])
  freeing p th i hp hth := by
    rw [hs.active]
    exact hfreeing p th i hp hth
  alone := halone

private theorem Accounted.quiet (h : Accounted w) (hq : Quiet w t) : Accounted t := by
  have hback : ∀ (p : Nat) (th : Thread) i, t.threads[p]? = some th → th.freeing = some i →
      w.threads[p]? = some th := fun p th i hp hth ↦ (hq.freeing p th (by simp [hth])).mp hp
  exact h.sameSessions hq.toSameSessions
    (fun p th i hp hth ↦ h.freeing p th i (hback p th i hp hth) hth)
    (fun p q th th' i hp hp' hth hth' ↦
      h.alone p q th th' i (hback p th i hp hth) (hback q th' i hp' hth') hth hth')

/-- A run of `free_camera_session` starts where there is none. -/
private theorem Accounted.enter (h : Accounted w) {p : Nat} {i : Fin maxCameras} {after : After}
    (hp : w.threads[p]? = some (.free i after)) (hi : (w.cameras i).active = true)
    (hfree : NotFreed w i) : Accounted (enterFree w p i after) := by
  apply h.sameSessions (sameSessions_enterFree w p i after)
  · intro q th j hq hth
    obtain ⟨rfl, rfl⟩ | ⟨-, hq⟩ := getElem?_set_eq_some hq
    · cases hth
      exact hi
    · exact h.freeing q th j hq hth
  · intro q q' th th' j hq hq' hth hth'
    obtain ⟨rfl, rfl⟩ | ⟨-, hold⟩ := getElem?_set_eq_some hq
    · obtain ⟨rfl, rfl⟩ | ⟨-, hold'⟩ := getElem?_set_eq_some hq'
      · rfl
      · cases hth
        exact absurd hth' (hfree th' (List.mem_of_getElem? hold'))
    · obtain ⟨rfl, rfl⟩ | ⟨-, hold'⟩ := getElem?_set_eq_some hq'
      · cases hth'
        exact absurd hth (hfree th (List.mem_of_getElem? hold))
      · exact h.alone q q' th th' j hold hold' hth hth'

/-- It takes the agent. -/
private theorem Accounted.take (h : Accounted w) {p : Nat} {i : Fin maxCameras} {r : Nat}
    {after : After} (hp : w.threads[p]? = some (.stopping i r after)) :
    Accounted (takeAgent w p i r after) := by
  apply h.sameSessions (sameSessions_takeAgent w p i r after)
  · intro q th j hq hth
    obtain ⟨rfl, rfl⟩ | ⟨-, hq⟩ := getElem?_set_eq_some hq
    · exact h.freeing q _ j hp hth
    · exact h.freeing q th j hq hth
  · intro q q' th th' j hq hq' hth hth'
    obtain ⟨rfl, rfl⟩ | ⟨-, hold⟩ := getElem?_set_eq_some hq
    · obtain ⟨rfl, rfl⟩ | ⟨-, hold'⟩ := getElem?_set_eq_some hq'
      · rfl
      · exact h.alone _ _ _ th' j hp hold' hth hth'
    · obtain ⟨rfl, rfl⟩ | ⟨-, hold'⟩ := getElem?_set_eq_some hq'
      · exact h.alone q _ th _ j hold hp hth hth'
      · exact h.alone q q' th th' j hold hold' hth hth'

private theorem activeSlots_update {i : Fin maxCameras} {c : Session} :
    activeSlots { w with cameras := Function.update w.cameras i c } =
      if c.active then insert i (activeSlots w) else (activeSlots w).erase i := by
  ext j
  by_cases hj : j = i
  · subst hj
    cases hc : c.active <;> simp [activeSlots, hc]
  · cases hc : c.active <;> simp [activeSlots, hj]

/-- A slot that is active after a session was changed. -/
theorem active_update {i j : Fin maxCameras} {c : Session}
    (h : ((Function.update w.cameras i c) j).active = true) :
    j = i ∧ c.active = true ∨ j ≠ i ∧ (w.cameras j).active = true := by
  by_cases hj : j = i
  · subst hj
    rw [Function.update_self] at h
    exact .inl ⟨rfl, h⟩
  · rw [Function.update_of_ne hj] at h
    exact .inr ⟨hj, h⟩

/-- A new session is the latest. -/
private theorem Accounted.allocate (h : Accounted w) {p : Nat} {id : Bytes} {i : Fin maxCameras}
    (hp : w.threads[p]? = some (.allocate id)) (hi : freeSlot w = some i) :
    Accounted (allocateCameraSession w p id i) := by
  have hinactive : (w.cameras i).active = false := by simpa using List.find?_some hi
  have hslots : activeSlots (allocateCameraSession w p id i) = insert i (activeSlots w) :=
    activeSlots_update
  have hnotin : i ∉ activeSlots w := by simp [activeSlots, hinactive]
  have hself : ((allocateCameraSession w p id i).cameras i).serial = w.allocated := by
    simp [allocateCameraSession]
  have hother : ∀ j, j ≠ i → (allocateCameraSession w p id i).cameras j = w.cameras j :=
    fun j hj ↦ Function.update_of_ne hj ..
  have hthreads : SameFreeing w.threads (allocateCameraSession w p id i).threads :=
    .set hp rfl rfl
  have hback : ∀ (q : Nat) (th : Thread) j,
      (allocateCameraSession w p id i).threads[q]? = some th → th.freeing = some j →
      w.threads[q]? = some th := fun q th j hq hth ↦ (hthreads q th (by simp [hth])).mp hq
  constructor
  · rw [hslots, Finset.card_insert_of_notMem hnotin]
    simp only [allocateCameraSession, h.counted]
    omega
  · intro j hj
    change _ < w.allocated + 1
    obtain ⟨rfl, -⟩ | ⟨hne, hj⟩ := active_update hj
    · omega
    · rw [hother j hne]
      exact Nat.lt_succ_of_lt (h.serial_lt j hj)
  · intro j k hj hk hjk
    obtain ⟨rfl, -⟩ | ⟨hne, hold⟩ := active_update hj
    · obtain ⟨rfl, -⟩ | ⟨hne', hold'⟩ := active_update hk
      · rfl
      · rw [hself, hother k hne'] at hjk
        exact absurd (h.serial_lt k hold') (by omega)
    · obtain ⟨rfl, -⟩ | ⟨hne', hold'⟩ := active_update hk
      · rw [hself, hother j hne] at hjk
        exact absurd (h.serial_lt j hold) (by omega)
      · rw [hother j hne, hother k hne'] at hjk
        exact h.serial_inj j k hold hold' hjk
  · intro n r hr
    exact Nat.lt_succ_of_lt (h.released_lt n r hr)
  · intro j hj r hr
    obtain ⟨rfl, -⟩ | ⟨hne, hj⟩ := active_update hj
    · rw [hself] at hr
      exact Nat.lt_irrefl _ (h.released_lt _ r hr)
    · rw [hother j hne] at hr
      exact h.unreleased j hj r hr
  · intro n hn hgone
    have hnew : n ≠ w.allocated := by
      rintro rfl
      exact hgone i (by simp [allocateCameraSession]) hself
    change n < w.allocated + 1 at hn
    apply h.released_once n (by omega)
    intro j hj
    have hne : j ≠ i := by
      rintro rfl
      simp [hinactive] at hj
    rw [← hother j hne]
    exact hgone j (by rw [hother j hne, hj])
  · intro q th j hq hth
    have hj := h.freeing q th j (hback q th j hq hth) hth
    have hne : j ≠ i := by
      rintro rfl
      simp [hinactive] at hj
    rw [hother j hne, hj]
  · intro q q' th th' j hq hq' hth hth'
    exact h.alone q q' th th' j (hback q th j hq hth) (hback q' th' j hq' hth') hth hth'

/-- Among the releases, with one more of an active session, those of a session that is not active
then are one. -/
private theorem Accounted.released_append (h : Accounted w) {i : Fin maxCameras} {r n : Nat}
    (hactive : (w.cameras i).active = true) (hn : n < w.allocated)
    (hgone : ∀ j, j ≠ i → (w.cameras j).active = true → (w.cameras j).serial ≠ n) :
    ∃ s, (w.released ++ [((w.cameras i).serial, r)]).filter (·.1 = n) = [(n, s)] := by
  rw [List.filter_append]
  by_cases hi : (w.cameras i).serial = n
  · have hnone : w.released.filter (·.1 = n) = [] := by
      apply List.filter_eq_nil_iff.mpr
      intro (m, s) hx hxn
      have hm : m = n := by simpa using hxn
      exact h.unreleased i hactive s (by rw [hi, ← hm]; exact hx)
    exact ⟨r, by simp [hnone, hi]⟩
  · obtain ⟨s, hs⟩ := h.released_once n hn fun j hj ↦ by
      by_cases hj' : j = i
      · rw [hj']
        exact hi
      · exact hgone j hj' hj
    exact ⟨s, by simp [hs, hi]⟩

/-- The run that frees a session releases it. -/
private theorem Accounted.release (h : Accounted w) {p : Nat} {i : Fin maxCameras} {r : Nat}
    {after : After} (hp : w.threads[p]? = some (.destroying i r after)) :
    Accounted (releaseSession w p i r after) := by
  have hactive := h.freeing p _ i hp rfl
  have hslots : activeSlots (releaseSession w p i r after) = (activeSlots w).erase i :=
    activeSlots_update
  have hmem : i ∈ activeSlots w := by simp [activeSlots, hactive]
  have hother : ∀ j, j ≠ i → (releaseSession w p i r after).cameras j = w.cameras j :=
    fun j hj ↦ Function.update_of_ne hj ..
  -- The thread that released is done with it, and it was the only one that freed the slot.
  have hback : ∀ (q : Nat) (th : Thread) j,
      (releaseSession w p i r after).threads[q]? = some th → th.freeing = some j →
      q ≠ p ∧ j ≠ i ∧ w.threads[q]? = some th := by
    intro q th j hq hth
    obtain ⟨-, rfl⟩ | ⟨hne, hold⟩ := getElem?_set_eq_some hq
    · cases after <;> simp [After.resume, Thread.freeing] at hth
    · refine ⟨hne, ?_, hold⟩
      rintro rfl
      exact hne (h.alone q p th _ j hold hp hth rfl)
  have hleft : ∀ j, ((releaseSession w p i r after).cameras j).active = true →
      j ≠ i ∧ (w.cameras j).active = true := by
    intro j hj
    obtain ⟨-, hfalse⟩ | hj := active_update hj
    · simp at hfalse
    · exact hj
  constructor
  · have hpos : 0 < (activeSlots w).card := Finset.card_pos.mpr ⟨i, hmem⟩
    rw [hslots, Finset.card_erase_of_mem hmem]
    simp only [releaseSession, h.counted]
    omega
  · intro j hj
    obtain ⟨hne, hj⟩ := hleft j hj
    rw [hother j hne]
    exact h.serial_lt j hj
  · intro j k hj hk hjk
    obtain ⟨hne, hj⟩ := hleft j hj
    obtain ⟨hne', hk⟩ := hleft k hk
    rw [hother j hne, hother k hne'] at hjk
    exact h.serial_inj j k hj hk hjk
  · intro n s hs
    rcases List.mem_append.mp hs with hs | hs
    · exact h.released_lt n s hs
    · cases List.mem_singleton.mp hs
      exact h.serial_lt i hactive
  · intro j hj s hs
    obtain ⟨hne, hj⟩ := hleft j hj
    rw [hother j hne] at hs
    rcases List.mem_append.mp hs with hs | hs
    · exact h.unreleased j hj s hs
    · exact hne (h.serial_inj j i hj hactive (Prod.ext_iff.mp (List.mem_singleton.mp hs)).1)
  · intro n hn hgone
    apply h.released_append hactive hn
    intro j hne hj
    rw [← hother j hne]
    exact hgone j (by rw [hother j hne, hj])
  · intro q th j hq hth
    obtain ⟨-, hne, hold⟩ := hback q th j hq hth
    rw [hother j hne]
    exact h.freeing q th j hold hth
  · intro q q' th th' j hq hq' hth hth'
    obtain ⟨-, -, hold⟩ := hback q th j hq hth
    obtain ⟨-, -, hold'⟩ := hback q' th' j hq' hth'
    exact h.alone q q' th th' j hold hold' hth hth'

/-- A step that lets a thread free a session only alone keeps the account. -/
theorem accounted_step (w : VmsState) (e : Event) (t : VmsState) (halone : FreesAlone w e)
    (h : Accounted w) (hstep : step w e = some t) : Accounted t := by
  cases effect_of_step hstep with
  | look hthreads => exact h.quiet (quiet_look hthreads)
  | change i e => exact h.quiet (quiet_changeSession w i e)
  | create hp => exact h.quiet (quiet_storeAgent hp _)
  | listen hp => exact h.quiet (quiet_storeListener hp _)
  | allocate hp hi => exact h.allocate hp hi
  | enter hp hi =>
    exact h.enter hp hi (halone _ hp _ rfl hi)
  | take hp => exact h.take hp
  | release hp => exact h.release hp

end Step

theorem accounted_start : Accounted start := by
  constructor <;> simp [start, Session.zero, activeSlots]

/-- The slot of the second session. -/
def secondSlot : Fin maxCameras := ⟨1, by decide⟩

/-- Two requests to connect a camera, served one after the other. -/
def twoCameras : List Event :=
  [.request (.connect (lit "cam1")), .advance 0, .advance 0, .advance 0, .create 0 true,
    .negotiated 0 true, .listen 0 true, .slot ⟨0, maxCameras_pos⟩ .iceConnected, .settled 0 true,
    .request (.connect (lit "cam2")), .advance 1, .advance 1, .advance 1, .create 1 true,
    .negotiated 1 true, .listen 1 true, .slot secondSlot .iceConnected, .settled 1 true]

end Kitty.Vms
