import Kitty.P2p.Backpressure

/-!
# The dispatch threads of a session slot

Who starts, stops and replaces the thread that sends a session's frames:
`src/consumer-srt-cloud/_legacy_libjuice_consumer_api.c:508–544,721–743,822–948,1383–1436,
2113–2131`. The flags `dispatch_running` and `should_stop` lie in the slot, and
`allocate_camera_session` clears them when it reuses the slot of a freed session. Every read and
write of a flag is a step.
-/

namespace Kitty.Vms

open Kitty.Base Kitty.P2p

/-- Where `dispatch_thread_func` is: about to set `dispatch_running`, to look at `should_stop`,
or to take a frame; sending one; about to drop what is queued, or to clear `dispatch_running`. -/
inductive DispatcherPc where
  | entering
  | checking
  | waiting
  | sending (item : PendingSend)
  | draining
  | clearing
  deriving DecidableEq

/-- A dispatch thread; `session` is history: the session it was started for. -/
structure Dispatcher where
  session : Nat
  pc : DispatcherPc
  deriving DecidableEq

/-- A `connect_to_camera_attempt` that has not started its dispatch thread; `marked` is whether it
has set `dispatch_running`. -/
structure Attempt where
  session : Nat
  marked : Bool
  deriving DecidableEq

/-- Where `dispatch_enqueue` is: about to read the two flags, to take the lock and read them again,
to set `dispatch_running`, to create a thread, to let the lock go, or to enqueue its frame. -/
inductive EnqueuePc where
  | running
  | stop
  | locking
  | runningAgain
  | stopAgain
  | claiming
  | creating
  | unlocking
  | enqueuing
  deriving DecidableEq

/-- A call of `dispatch_enqueue`; `session` is history: the session it was made in. -/
structure Enqueuer where
  session : Nat
  item : PendingSend
  now : Int
  pc : EnqueuePc
  deriving DecidableEq

/-- A `free_camera_session` past its look at `active`: about to set `should_stop`, or about to mark
the slot as free. -/
inductive Freeing where
  | stopping
  | releasing
  deriving DecidableEq

/-- One slot of `vms_state.cameras`. The last three fields are history: the number of the session in
the slot, whether its own dispatch thread was started, and for each frame taken from the queue the
session of the thread that took it and that of the queue. -/
structure DispatchSlot where
  active : Bool
  shouldStop : Bool
  dispatchRunning : Bool
  respawnLock : Bool
  queue : DispatchQueue
  threads : List Dispatcher
  attempts : List Attempt
  enqueuers : List Enqueuer
  frees : List Freeing
  session : Nat
  started : Bool
  taken : List (Nat × Nat)

/-- What happens: the slot is allocated; an attempt takes its next step or ends early; a session is
to be freed, and a free goes on; a frame comes in, and its call goes on; a dispatch thread goes on.
`ok` is the result of `pthread_create`. -/
inductive SlotStep where
  | allocate
  | attempt (p : Nat) (ok : Bool)
  | abandon (p : Nat)
  | free
  | freeing (p : Nat)
  | frame (item : PendingSend) (now : Int)
  | enqueue (p : Nat) (ok : Bool)
  | dispatch (p : Nat)
  deriving DecidableEq

namespace DispatchSlot

/-- A slot no session was ever in. -/
def start : DispatchSlot :=
  { active := false, shouldStop := false, dispatchRunning := false, respawnLock := false
    queue := .start, threads := [], attempts := [], enqueuers := [], frees := [], session := 0
    started := false, taken := [] }

/-- `allocate_camera_session` takes the slot. -/
def allocate (s : DispatchSlot) : DispatchSlot :=
  { s with
    active := true, shouldStop := false, dispatchRunning := false, respawnLock := false
    queue := .start
    attempts := s.attempts ++ [⟨s.session + 1, false⟩]
    session := s.session + 1, started := false }

/-- A dispatch thread is created for a session. -/
def spawn (s : DispatchSlot) (session : Nat) : DispatchSlot :=
  { s with threads := s.threads ++ [⟨session, .entering⟩] }

/-- The thread start of `connect_to_camera_attempt`; it does not look at what `pthread_create`
returns. -/
def attempt (s : DispatchSlot) (p : Nat) (ok : Bool) (a : Attempt) : DispatchSlot :=
  if a.marked then
    { (if ok then s.spawn a.session else s) with
      attempts := s.attempts.eraseIdx p, started := s.started || a.session == s.session }
  else { s with dispatchRunning := true, attempts := s.attempts.set p { a with marked := true } }

/-- A call of `dispatch_enqueue` is at a place. -/
def enqueuerAt (s : DispatchSlot) (p : Nat) (e : Enqueuer) (pc : EnqueuePc) : DispatchSlot :=
  { s with enqueuers := s.enqueuers.set p { e with pc } }

/-- The next step of `dispatch_enqueue`. -/
def enqueue (s : DispatchSlot) (p : Nat) (ok : Bool) (e : Enqueuer) : Option DispatchSlot :=
  match e.pc with
  | .running => some (s.enqueuerAt p e (if s.dispatchRunning then .enqueuing else .stop))
  | .stop => some (s.enqueuerAt p e (if s.shouldStop then .enqueuing else .locking))
  | .locking =>
    if s.respawnLock then none
    else some { s.enqueuerAt p e .runningAgain with respawnLock := true }
  | .runningAgain => some (s.enqueuerAt p e (if s.dispatchRunning then .unlocking else .stopAgain))
  | .stopAgain => some (s.enqueuerAt p e (if s.shouldStop then .unlocking else .claiming))
  | .claiming => some { s.enqueuerAt p e .creating with dispatchRunning := true }
  | .creating =>
    if ok then some ((s.enqueuerAt p e .unlocking).spawn e.session)
    else some { s.enqueuerAt p e .unlocking with dispatchRunning := false }
  | .unlocking => some { s.enqueuerAt p e .enqueuing with respawnLock := false }
  | .enqueuing => some { s with
      queue := (s.queue.enqueue e.item e.now).2, enqueuers := s.enqueuers.eraseIdx p }

/-- A dispatch thread is at a place. -/
def threadAt (s : DispatchSlot) (p : Nat) (th : Dispatcher) (pc : DispatcherPc) : DispatchSlot :=
  { s with threads := s.threads.set p { th with pc } }

/-- The next step of `dispatch_thread_func`; it waits while the queue is empty, and a send ends when
the frame is sent, its client is gone, or a minute has passed. -/
def dispatch (s : DispatchSlot) (p : Nat) (th : Dispatcher) : Option DispatchSlot :=
  match th.pc with
  | .entering => some { s.threadAt p th .checking with dispatchRunning := true }
  | .checking => some (s.threadAt p th (if s.shouldStop then .draining else .waiting))
  | .waiting =>
    match s.queue.dequeue with
    | some (item, queue) => some { s.threadAt p th (.sending item) with
        queue, taken := s.taken ++ [(th.session, s.session)] }
    | none => if s.shouldStop then some (s.threadAt p th .draining) else none
  | .sending _ => some (s.threadAt p th .checking)
  | .draining => some { s.threadAt p th .clearing with queue := Dispatching.drain s.queue }
  | .clearing => some { s with dispatchRunning := false, threads := s.threads.eraseIdx p }

/-- One step. -/
def step (s : DispatchSlot) : SlotStep → Option DispatchSlot
  | .allocate => if s.active then none else some s.allocate
  | .attempt p ok => (s.attempts[p]?).map (s.attempt p ok)
  | .abandon p =>
    match s.attempts[p]? with
    | some ⟨_, false⟩ => some { s with attempts := s.attempts.eraseIdx p }
    | _ => none
  | .free => if s.active then some { s with frees := s.frees ++ [.stopping] } else none
  | .freeing p =>
    match s.frees[p]? with
    | some .stopping => some { s with shouldStop := true, frees := s.frees.set p .releasing }
    | some .releasing => some { s with active := false, frees := s.frees.eraseIdx p }
    | none => none
  | .frame item now =>
    if s.active then
      some { s with enqueuers := s.enqueuers ++ [⟨s.session, item, now, .running⟩] }
    else none
  | .enqueue p ok => s.enqueuers[p]?.bind (s.enqueue p ok)
  | .dispatch p => s.threads[p]?.bind (s.dispatch p)

/-! ### One dispatcher -/

/-- At most one dispatch thread has not returned, it was started for the session in the slot, and
every frame was taken by a thread of its own session. -/
structure SingleDispatcher (s : DispatchSlot) : Prop where
  one : s.threads.length ≤ 1
  own : ∀ th ∈ s.threads, th.session = s.session
  taken : ∀ e ∈ s.taken, e.1 = e.2

/-- The slot is reused only after its dispatch threads have returned; an attempt starts its thread
only in the slot of its own session; and the locked re-check of `dispatch_enqueue` is not made in a
running session whose own dispatch thread was not started yet, nor across a reuse of the slot. -/
def Orderly (s : DispatchSlot) : SlotStep → Prop
  | .allocate => s.threads = []
  | .attempt p _ => ∀ a ∈ s.attempts[p]?, a.marked = true → a.session = s.session
  | .enqueue p _ => ∀ e ∈ s.enqueuers[p]?,
    (e.pc = .runningAgain → s.dispatchRunning = true ∨ s.shouldStop = true ∨ s.started = true) ∧
      (e.pc = .stopAgain → s.shouldStop = true ∨ e.session = s.session)
  | _ => True

/-- What holds between the steps of an orderly run. -/
structure Inv (s : DispatchSlot) : Prop where
  one : s.threads.length ≤ 1
  own : ∀ th ∈ s.threads, th.session = s.session
  taken : ∀ e ∈ s.taken, e.1 = e.2
  unstarted : s.started = false → s.threads = []
  past : ∀ a ∈ s.attempts, a.session ≤ s.session
  nodup : (s.attempts.map Attempt.session).Nodup
  once : s.started = true → ∀ a ∈ s.attempts, a.session ≠ s.session
  marked : ∀ a ∈ s.attempts, a.marked = true → a.session = s.session → s.dispatchRunning = true
  running : s.started = true → s.shouldStop = false → s.dispatchRunning = true
  stopping : ∀ th ∈ s.threads, th.pc = .draining ∨ th.pc = .clearing → s.shouldStop = true
  called : ∀ e ∈ s.enqueuers, e.session ≤ s.session ∧ e.pc ≠ .claiming ∧ e.pc ≠ .creating ∧
    (e.pc = .stopAgain → e.session = s.session → s.shouldStop = true)

theorem Inv.single {s : DispatchSlot} (h : s.Inv) : s.SingleDispatcher := ⟨h.one, h.own, h.taken⟩

theorem inv_start : start.Inv := by
  constructor <;> simp [start]

private theorem inv_queue {s : DispatchSlot} (hs : s.Inv) (queue : DispatchQueue) :
    { s with queue : DispatchSlot }.Inv := { hs with }

private theorem inv_allocate {s : DispatchSlot} (hs : s.Inv) (hc : s.threads = []) :
    s.allocate.Inv where
  one := hs.one
  own := by simp [allocate, hc]
  taken := hs.taken
  unstarted _ := hc
  past := by
    intro a ha
    rcases List.mem_append.mp ha with ha | ha
    · exact (hs.past a ha).trans (Nat.le_succ _)
    · rw [List.mem_singleton.mp ha]
      exact le_rfl
  nodup := by
    simp only [allocate, List.map_append, List.map_singleton]
    refine List.nodup_append.mpr ⟨hs.nodup, List.nodup_singleton _, ?_⟩
    intro n hn m hm
    obtain ⟨a, ha, rfl⟩ := List.mem_map.mp hn
    rw [List.mem_singleton.mp hm]
    have := hs.past a ha
    omega
  once h := by cases h
  marked := by
    intro a ha hm heq
    rcases List.mem_append.mp ha with ha | ha
    · have := hs.past a ha
      simp only [allocate] at heq
      omega
    · rw [List.mem_singleton.mp ha] at hm
      cases hm
  running h := by cases h
  stopping := by simp [allocate, hc]
  called := by
    intro e he
    obtain ⟨hle, h1, h2, -⟩ := hs.called e he
    refine ⟨hle.trans (Nat.le_succ _), h1, h2, fun _ heq ↦ ?_⟩
    simp only [allocate] at heq
    omega

/-- No other attempt has the number of one that is taken off the list. -/
private theorem ne_of_mem_eraseIdx {attempts : List Attempt} {p : Nat} {a b : Attempt}
    (hn : (attempts.map Attempt.session).Nodup) (hp : attempts[p]? = some a)
    (hb : b ∈ attempts.eraseIdx p) : b.session ≠ a.session := by
  obtain ⟨q, hqp, hq⟩ := List.mem_eraseIdx_iff_getElem?.mp hb
  intro heq
  have hlen := (List.getElem?_eq_some_iff.mp hp).1
  have hget : (attempts.map Attempt.session)[q]? = (attempts.map Attempt.session)[p]? := by
    simp [hp, hq, heq]
  have hqlen := (List.getElem?_eq_some_iff.mp hq).1
  exact hqp ((List.getElem?_inj (by simpa using hqlen) hn).mp hget)

private theorem inv_attempt {s : DispatchSlot} (hs : s.Inv) {p : Nat} {ok : Bool} {a : Attempt}
    (hp : s.attempts[p]? = some a) (hc : a.marked = true → a.session = s.session) :
    (s.attempt p ok a).Inv := by
  have hmem := List.mem_of_getElem? hp
  unfold attempt
  by_cases hm : a.marked = true
  · have hsame := hc hm
    have hnot : s.started = false := by
      by_contra hstarted
      exact hs.once (by simpa using hstarted) a hmem hsame
    have hnone := hs.unstarted hnot
    have hnodup : ((s.attempts.eraseIdx p).map Attempt.session).Nodup := by
      rw [← List.eraseIdx_map]
      exact hs.nodup.sublist (List.eraseIdx_sublist _ _)
    have honce : ∀ b ∈ s.attempts.eraseIdx p, b.session ≠ s.session := by
      intro b hb
      rw [← hsame]
      exact ne_of_mem_eraseIdx hs.nodup hp hb
    have hpast : ∀ b ∈ s.attempts.eraseIdx p, b.session ≤ s.session :=
      fun b hb ↦ hs.past b (List.mem_of_mem_eraseIdx hb)
    have hrunning := hs.marked a hmem hm hsame
    rw [if_pos hm]
    cases ok with
    | false =>
      exact { hs with
        unstarted := fun _ ↦ hnone, past := hpast, nodup := hnodup, once := fun _ ↦ honce
        marked := fun _ _ _ _ ↦ hrunning, running := fun _ _ ↦ hrunning }
    | true =>
      refine { hs with
        one := ?_, own := ?_, unstarted := ?_, past := hpast, nodup := hnodup
        once := fun _ ↦ honce, marked := fun _ _ _ _ ↦ hrunning, running := fun _ _ ↦ hrunning
        stopping := ?_ }
      · simp [spawn, hnone]
      · simp [spawn, hnone, hsame]
      · intro hnot
        simp [hsame] at hnot
      · simp [spawn, hnone]
  · rw [if_neg hm]
    have hmap : (s.attempts.set p { a with marked := true }).map Attempt.session =
        s.attempts.map Attempt.session := by
      rw [List.map_set]
      apply List.ext_getElem?
      intro q
      by_cases hq : p = q
      · subst hq
        have hlt := (List.getElem?_eq_some_iff.mp hp).1
        rw [List.getElem?_set_self (by simpa using hlt), List.getElem?_map, hp]
        rfl
      · simp [List.getElem?_set_ne hq]
    have hold : ∀ b ∈ s.attempts.set p { a with marked := true }, ∃ b' ∈ s.attempts,
        b.session = b'.session := by
      intro b hb
      rcases List.mem_or_eq_of_mem_set hb with hb | rfl
      · exact ⟨b, hb, rfl⟩
      · exact ⟨a, hmem, rfl⟩
    refine { hs with
      past := ?_, nodup := ?_, once := ?_, marked := fun _ _ _ _ ↦ rfl, running := fun _ _ ↦ rfl }
    · intro b hb
      obtain ⟨b', hb', heq⟩ := hold b hb
      rw [heq]
      exact hs.past b' hb'
    · rw [hmap]
      exact hs.nodup
    · intro hstarted b hb
      obtain ⟨b', hb', heq⟩ := hold b hb
      rw [heq]
      exact hs.once hstarted b' hb'

private theorem inv_enqueuerAt {s : DispatchSlot} (hs : s.Inv) {p : Nat} {e : Enqueuer}
    (hp : s.enqueuers[p]? = some e) {pc : EnqueuePc} (hclaim : pc ≠ .claiming)
    (hcreate : pc ≠ .creating)
    (hstop : pc = .stopAgain → e.session = s.session → s.shouldStop = true) :
    (s.enqueuerAt p e pc).Inv := by
  refine { hs with called := ?_ }
  intro e' he'
  rcases List.mem_or_eq_of_mem_set he' with he' | rfl
  · exact hs.called e' he'
  · exact ⟨(hs.called e (List.mem_of_getElem? hp)).1, hclaim, hcreate, hstop⟩

private theorem inv_enqueue {s t : DispatchSlot} (hs : s.Inv) {p : Nat} {ok : Bool} {e : Enqueuer}
    (hp : s.enqueuers[p]? = some e)
    (hrun : e.pc = .runningAgain →
      s.dispatchRunning = true ∨ s.shouldStop = true ∨ s.started = true)
    (hstop : e.pc = .stopAgain → s.shouldStop = true ∨ e.session = s.session)
    (h : s.enqueue p ok e = some t) : t.Inv := by
  obtain ⟨-, hclaim, hcreate, hagain⟩ := hs.called e (List.mem_of_getElem? hp)
  unfold enqueue at h
  cases hpc : e.pc with
  | running =>
    simp only [hpc] at h
    cases h
    split
    · exact inv_enqueuerAt hs hp (by simp) (by simp) (by simp)
    · exact inv_enqueuerAt hs hp (by simp) (by simp) (by simp)
  | stop =>
    simp only [hpc] at h
    cases h
    split
    · exact inv_enqueuerAt hs hp (by simp) (by simp) (by simp)
    · exact inv_enqueuerAt hs hp (by simp) (by simp) (by simp)
  | locking =>
    simp only [hpc] at h
    split at h
    · cases h
    · cases h
      have hat : (s.enqueuerAt p e .runningAgain).Inv :=
        inv_enqueuerAt hs hp (by simp) (by simp) (by simp)
      exact { hat with }
  | runningAgain =>
    simp only [hpc] at h
    cases h
    split
    · exact inv_enqueuerAt hs hp (by simp) (by simp) (by simp)
    · next hclear =>
      refine inv_enqueuerAt hs hp (by simp) (by simp) fun _ _ ↦ ?_
      -- a running session whose thread was started has the flag set
      rcases hrun hpc with h | h | h
      · exact absurd h hclear
      · exact h
      · by_contra hlive
        exact hclear (hs.running h (by simpa using hlive))
  | stopAgain =>
    simp only [hpc] at h
    cases h
    have hstopped : s.shouldStop = true := (hstop hpc).elim id (hagain hpc)
    rw [if_pos hstopped]
    exact inv_enqueuerAt hs hp (by simp) (by simp) (by simp)
  | claiming => exact absurd hpc hclaim
  | creating => exact absurd hpc hcreate
  | unlocking =>
    simp only [hpc] at h
    cases h
    have hat : (s.enqueuerAt p e .enqueuing).Inv :=
      inv_enqueuerAt hs hp (by simp) (by simp) (by simp)
    exact { hat with }
  | enqueuing =>
    simp only [hpc] at h
    cases h
    exact { hs with called := fun e' he' ↦ hs.called e' (List.mem_of_mem_eraseIdx he') }

private theorem inv_threadAt {s : DispatchSlot} (hs : s.Inv) {p : Nat} {th : Dispatcher}
    (hp : s.threads[p]? = some th) {pc : DispatcherPc}
    (hstop : pc = .draining ∨ pc = .clearing → s.shouldStop = true) : (s.threadAt p th pc).Inv := by
  have hold : ∀ th' ∈ s.threads.set p { th with pc }, th' ∈ s.threads ∨ th' = { th with pc } :=
    fun th' ↦ List.mem_or_eq_of_mem_set
  refine { hs with one := ?_, own := ?_, unstarted := ?_, stopping := ?_ }
  · simpa [threadAt] using hs.one
  · intro th' hth'
    rcases hold th' hth' with hth' | rfl
    · exact hs.own th' hth'
    · exact hs.own th (List.mem_of_getElem? hp)
  · intro hnot
    simp [threadAt, hs.unstarted hnot]
  · intro th' hth' hpc
    rcases hold th' hth' with hth' | rfl
    · exact hs.stopping th' hth' hpc
    · exact hstop hpc

private theorem inv_dispatch {s t : DispatchSlot} (hs : s.Inv) {p : Nat} {th : Dispatcher}
    (hp : s.threads[p]? = some th) (h : s.dispatch p th = some t) : t.Inv := by
  have hmem := List.mem_of_getElem? hp
  unfold dispatch at h
  cases hpc : th.pc with
  | entering =>
    simp only [hpc] at h
    cases h
    have hat : (s.threadAt p th .checking).Inv := inv_threadAt hs hp (by simp)
    exact { hat with marked := fun _ _ _ _ ↦ rfl, running := fun _ _ ↦ rfl }
  | checking =>
    simp only [hpc] at h
    cases h
    split
    · next hstop => exact inv_threadAt hs hp fun _ ↦ hstop
    · exact inv_threadAt hs hp (by simp)
  | waiting =>
    simp only [hpc] at h
    split at h
    · next item queue _ =>
      cases h
      have hat : (s.threadAt p th (.sending item)).Inv := inv_threadAt hs hp (by simp)
      refine { hat with taken := ?_ }
      intro e he
      rcases List.mem_append.mp he with he | he
      · exact hs.taken e he
      · rw [List.mem_singleton.mp he]
        exact hs.own th hmem
    · split at h
      · next hstop =>
        cases h
        exact inv_threadAt hs hp fun _ ↦ hstop
      · cases h
  | sending item =>
    simp only [hpc] at h
    cases h
    exact inv_threadAt hs hp (by simp)
  | draining =>
    simp only [hpc] at h
    cases h
    have hat : (s.threadAt p th .clearing).Inv :=
      inv_threadAt hs hp fun _ ↦ hs.stopping th hmem (.inl hpc)
    exact inv_queue hat _
  | clearing =>
    simp only [hpc] at h
    cases h
    have hstopped := hs.stopping th hmem (.inr hpc)
    have hold : ∀ th' ∈ s.threads.eraseIdx p, th' ∈ s.threads :=
      fun _ ↦ List.mem_of_mem_eraseIdx
    have hstarted : s.started = true := by
      by_contra hnot
      rw [hs.unstarted (by simpa using hnot)] at hmem
      cases hmem
    refine { hs with
      one := ?_, own := ?_, unstarted := ?_, marked := ?_, running := ?_, stopping := ?_ }
    · exact (List.length_eraseIdx_le _ _).trans hs.one
    · exact fun th' hth' ↦ hs.own th' (hold th' hth')
    · intro hnot
      simp [hs.unstarted hnot]
    · exact fun a ha _ heq ↦ absurd heq (hs.once hstarted a ha)
    · intro _ hlive
      rw [hstopped] at hlive
      cases hlive
    · exact fun th' hth' ↦ hs.stopping th' (hold th' hth')

/-- An orderly step keeps one dispatcher. -/
theorem Inv.step {s t : DispatchSlot} {l : SlotStep} (hc : Orderly s l) (hs : s.Inv)
    (h : s.step l = some t) : t.Inv := by
  cases l with
  | allocate =>
    simp only [DispatchSlot.step] at h
    split at h
    · cases h
    · cases h
      exact inv_allocate hs hc
  | attempt p ok =>
    obtain ⟨a, hp, rfl⟩ := Option.map_eq_some_iff.mp h
    exact inv_attempt hs hp (hc a hp)
  | abandon p =>
    simp only [DispatchSlot.step] at h
    split at h
    · cases h
      have hold : ∀ a ∈ s.attempts.eraseIdx p, a ∈ s.attempts := fun _ ↦ List.mem_of_mem_eraseIdx
      refine { hs with past := ?_, nodup := ?_, once := ?_, marked := ?_ }
      · exact fun a ha ↦ hs.past a (hold a ha)
      · rw [← List.eraseIdx_map]
        exact hs.nodup.sublist (List.eraseIdx_sublist _ _)
      · exact fun hst a ha ↦ hs.once hst a (hold a ha)
      · exact fun a ha ↦ hs.marked a (hold a ha)
    · cases h
  | free =>
    simp only [DispatchSlot.step] at h
    split at h
    · cases h
      exact { hs with }
    · cases h
  | freeing p =>
    simp only [DispatchSlot.step] at h
    split at h
    · cases h
      refine { hs with running := ?_, stopping := fun _ _ _ ↦ rfl, called := ?_ }
      · intro _ hlive
        cases hlive
      · intro e he
        obtain ⟨h1, h2, h3, -⟩ := hs.called e he
        exact ⟨h1, h2, h3, fun _ _ ↦ rfl⟩
    · cases h
      exact { hs with }
    · cases h
  | frame item now =>
    simp only [DispatchSlot.step] at h
    split at h
    · cases h
      refine { hs with called := ?_ }
      intro e he
      rcases List.mem_append.mp he with he | he
      · exact hs.called e he
      · rw [List.mem_singleton.mp he]
        exact ⟨le_rfl, by simp, by simp, by simp⟩
    · cases h
  | enqueue p ok =>
    obtain ⟨e, hp, h⟩ := Option.bind_eq_some_iff.mp h
    obtain ⟨hrun, hstop⟩ := hc e hp
    exact inv_enqueue hs hp hrun hstop h
  | dispatch p =>
    obtain ⟨th, hp, h⟩ := Option.bind_eq_some_iff.mp h
    exact inv_dispatch hs hp h

/-- In an orderly run the slot never has two dispatchers, nor one of an earlier session. -/
theorem singleDispatcher_run {labels : List SlotStep} {s : DispatchSlot}
    (hc : Always step Orderly start labels) (hr : run step start labels = some s) :
    s.SingleDispatcher :=
  (invariant_run step (fun _ _ _ h hi hs ↦ hi.step h hs) hc inv_start hr).single

instance (s : DispatchSlot) (l : SlotStep) : Decidable (Orderly s l) :=
  match l with
  | .allocate => inferInstanceAs (Decidable (_ = _))
  | .attempt _ _ => inferInstanceAs (Decidable (∀ a ∈ s.attempts[_]?, _))
  | .enqueue _ _ => inferInstanceAs (Decidable (∀ e ∈ s.enqueuers[_]?, _))
  | .abandon _ => .isTrue trivial
  | .free => .isTrue trivial
  | .freeing _ => .isTrue trivial
  | .frame _ _ => .isTrue trivial
  | .dispatch _ => .isTrue trivial

instance (s : DispatchSlot) : Decidable s.SingleDispatcher :=
  decidable_of_iff (s.threads.length ≤ 1 ∧ (∀ th ∈ s.threads, th.session = s.session) ∧
      ∀ e ∈ s.taken, e.1 = e.2)
    ⟨fun h ↦ ⟨h.1, h.2.1, h.2.2⟩, fun h ↦ ⟨h.one, h.own, h.taken⟩⟩

end DispatchSlot

open DispatchSlot

/-- A session is allocated and its attempt starts the dispatch thread, which enters its loop. -/
def opening (p : Nat) : List SlotStep :=
  [.allocate, .attempt 0 true, .attempt 0 true, .dispatch p, .dispatch p]

/-- A frame comes in and is queued. -/
def framed (frame : PendingSend) : List SlotStep :=
  [.frame frame 0, .enqueue 0 true, .enqueue 0 true]

/-- The session is freed. -/
def freed : List SlotStep := [.free, .freeing 0, .freeing 0]

/-- A session sends a frame and is freed, its thread returns, and the slot is used again. -/
def reused : List SlotStep :=
  opening 0 ++ framed ⟨0, [1]⟩ ++ [.dispatch 0] ++ freed ++
    [.dispatch 0, .dispatch 0, .dispatch 0, .dispatch 0] ++ opening 0 ++ framed ⟨0, [2]⟩ ++
    [.dispatch 0]

theorem singleDispatcher_reused : ∃ s, run step start reused = some s ∧ s.taken = [(1, 1), (2, 2)] ∧
    s.SingleDispatcher := by
  have hrun : ∃ s, run step start reused = some s ∧ s.taken = [(1, 1), (2, 2)] :=
    exists_run _ _ (by decide +kernel)
  obtain ⟨s, hr, htaken⟩ := hrun
  exact ⟨s, hr, htaken, singleDispatcher_run (by decide +kernel) hr⟩

/-- The thread of the first session is still sending when the slot is used again; it goes on with
the frames of the second one, beside that one's own thread. -/
def overtaken : List SlotStep :=
  opening 0 ++ framed ⟨0, [1]⟩ ++ [.dispatch 0] ++ freed ++ opening 1 ++ framed ⟨0, [2]⟩ ++
    framed ⟨0, [3]⟩ ++ [.dispatch 1, .dispatch 0, .dispatch 0, .dispatch 0]

theorem twoDispatchers_overtaken : ∃ s, run step start overtaken = some s ∧
    s.threads = [⟨1, .sending ⟨0, [3]⟩⟩, ⟨2, .sending ⟨0, [2]⟩⟩] ∧
    s.taken = [(1, 1), (2, 2), (1, 2)] ∧ ¬ s.SingleDispatcher := by
  have hrun : ∃ s, run step start overtaken = some s ∧
      s.threads = [⟨1, .sending ⟨0, [3]⟩⟩, ⟨2, .sending ⟨0, [2]⟩⟩] ∧
      s.taken = [(1, 1), (2, 2), (1, 2)] :=
    exists_run _ _ (by decide +kernel)
  obtain ⟨s, hr, hthreads, htaken⟩ := hrun
  refine ⟨s, hr, hthreads, htaken, fun h ↦ ?_⟩
  have := h.one
  simp [hthreads] at this

end Kitty.Vms
