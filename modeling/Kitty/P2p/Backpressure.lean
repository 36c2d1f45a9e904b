import Kitty.P2p.Delivery

/-!
# Evicting frames while they are sent

`dispatch_enqueue` takes frames out of the queue under its lock and shuts their sockets down after
it has let the lock go; the dispatch thread goes on in between;
`src/consumer-srt-cloud/_legacy_libjuice_consumer_api.c:721–948`. Any number of threads may be about
to shut sockets down, in any order. After a hard error, or `POLLERR` or `POLLHUP`, a socket takes
nothing more.
-/

namespace Kitty.P2p

open Kitty.Base

/-- A client's socket: the bytes it has taken, whether it was shut down, and whether a send on it
has failed for good. The last two fields are history: the frames enqueued for it, and what it had
taken when the first of them was evicted or given up. -/
structure ClientSocket where
  written : Bytes
  shut : Bool
  dead : Bool
  enqueued : List Bytes
  stopped : Option Bytes
  deriving DecidableEq

/-- A socket nothing was done with. -/
def ClientSocket.start : ClientSocket := ⟨[], false, false, [], none⟩

/-- One of its frames was evicted or given up. -/
def ClientSocket.stop (c : ClientSocket) : ClientSocket :=
  { c with stopped := some (c.stopped.getD c.written) }

/-- The queue, the frame being sent with the bytes of it already taken, and the evicted frames whose
sockets are still to be shut down. -/
structure Dispatching where
  queue : DispatchQueue
  sending : Option (PendingSend × Nat)
  releasing : List PendingSend
  shouldStop : Bool
  exited : Bool
  clients : Nat → ClientSocket

/-- The locked part of `dispatch_enqueue`; the `shutdown` of the socket of one evicted frame; the
dispatch thread taking a frame; a `send` that takes some bytes; one that fails, or `POLLERR`; a
client that has taken nothing for a minute; the session being freed; the dispatch thread returning,
which drops what is queued. -/
inductive DispatchLabel where
  | enqueue (item : PendingSend) (now : Int)
  | release (i : Nat)
  | dequeue
  | send (n : Nat)
  | fail
  | stuck
  | stop
  | exit

namespace Dispatching

/-- Nothing enqueued. -/
def start : Dispatching := ⟨.start, none, [], false, false, fun _ ↦ .start⟩

/-- A client's record is replaced. -/
def setClient (w : Dispatching) (k : Nat) (c : ClientSocket) : Dispatching :=
  { w with clients := Function.update w.clients k c }

/-- A client after an enqueue. -/
def afterEnqueue (c : ClientSocket) (k : Nat) (item : PendingSend) (dropped : List PendingSend) :
    ClientSocket :=
  let c := if item.client = k then { c with enqueued := c.enqueued ++ [item.data] } else c
  if dropped.any (·.client == k) then c.stop else c

/-- The frames left in the queue are dropped. -/
def drain (q : DispatchQueue) : DispatchQueue :=
  (fun q : DispatchQueue ↦ if q.items.isEmpty then q else q.pop)^[dispatchQueueSize] q

/-- One event. -/
def step (w : Dispatching) : DispatchLabel → Option Dispatching
  | .enqueue item now =>
    let (dropped, queue) := w.queue.enqueue item now
    some { w with
      queue
      releasing := w.releasing ++ dropped
      clients := fun k ↦ afterEnqueue (w.clients k) k item dropped }
  | .release i => (w.releasing[i]?).map fun item ↦
    { w.setClient item.client { w.clients item.client with shut := true } with
      releasing := w.releasing.eraseIdx i }
  | .dequeue =>
    match w.exited, w.sending, w.queue.dequeue with
    | false, none, some (item, queue) => some
      { w with queue, sending := if item.data = [] then none else some (item, 0) }
    | _, _, _ => none
  | .send n =>
    match w.sending with
    | some (item, sent) =>
      let c := w.clients item.client
      if 0 < n ∧ sent + n ≤ item.data.length ∧ c.shut = false ∧ c.dead = false then some
        { w.setClient item.client
          { c with written := c.written ++ (item.data.drop sent).take n } with
          sending := if sent + n = item.data.length then none else some (item, sent + n) }
      else none
    | none => none
  | .fail => w.sending.map fun e ↦
    { w.setClient e.1.client { (w.clients e.1.client).stop with dead := true } with
      sending := none }
  | .stuck => w.sending.map fun e ↦
    { w.setClient e.1.client { (w.clients e.1.client).stop with shut := true } with
      sending := none }
  | .stop => some { w with shouldStop := true }
  | .exit =>
    if w.shouldStop ∧ w.exited = false ∧ w.sending = none then
      some { w with exited := true, queue := drain w.queue }
    else none

/-! ### The bytes of one client -/

/-- The rest of the frame being sent, when it is for the client. -/
def restFor (k : Nat) : Option (PendingSend × Nat) → Bytes
  | some (item, sent) => if item.client = k then item.data.drop sent else []
  | none => []

/-- The bytes of a client that are still to be sent: the rest of the frame being sent, and the
frames queued. -/
def ahead (w : Dispatching) (k : Nat) : Bytes :=
  restFor k w.sending ++ (blocksFor k w.queue.toList).flatten

/-- What a client's socket has taken is a prefix of the frames enqueued for it. Once one of these
was evicted or given up it takes nothing more, and it is shut down, dead, or about to be shut
down. -/
structure Contiguous (w : Dispatching) (k : Nat) : Prop where
  initial : (w.clients k).written <+: (w.clients k).enqueued.flatten
  silent : ∀ taken, (w.clients k).stopped = some taken → (w.clients k).written = taken
  ended : (w.clients k).stopped.isSome → (w.clients k).shut = true ∨ (w.clients k).dead = true ∨
    ∃ item ∈ w.releasing, item.client = k

/-- What holds of a client whatever happens. -/
structure Sound (w : Dispatching) (k : Nat) : Prop where
  flow : (w.clients k).stopped = none → w.exited = false →
    (w.clients k).written ++ w.ahead k = (w.clients k).enqueued.flatten
  open_ : (w.clients k).stopped = none → (w.clients k).shut = false ∧ (w.clients k).dead = false
  closing : (w.clients k).stopped.isSome → (w.clients k).shut = true ∨ (w.clients k).dead = true ∨
    ∃ item ∈ w.releasing, item.client = k
  releasing : ∀ item ∈ w.releasing, item.client = k → (w.clients k).stopped.isSome = true
  exited : w.exited = true → w.sending = none

/-- No bytes are sent to a client while one of its frames is evicted and its socket not yet shut
down. -/
def ReleasedFirst (w : Dispatching) : DispatchLabel → Prop
  | .send _ => ∀ e ∈ w.sending, ∀ item ∈ w.releasing, item.client ≠ e.1.client
  | _ => True

/-! ### Enqueues -/

section Enqueue

variable (c : ClientSocket) (k : Nat) (item : PendingSend) (dropped : List PendingSend)

@[simp] theorem written_afterEnqueue : (afterEnqueue c k item dropped).written = c.written := by
  unfold afterEnqueue ClientSocket.stop
  split <;> split <;> rfl

@[simp] theorem shut_afterEnqueue : (afterEnqueue c k item dropped).shut = c.shut := by
  unfold afterEnqueue ClientSocket.stop
  split <;> split <;> rfl

@[simp] theorem dead_afterEnqueue : (afterEnqueue c k item dropped).dead = c.dead := by
  unfold afterEnqueue ClientSocket.stop
  split <;> split <;> rfl

theorem enqueued_afterEnqueue :
    (afterEnqueue c k item dropped).enqueued = c.enqueued ++ blocksFor k [item] := by
  rw [blocksFor_cons, blocksFor_nil, List.append_nil]
  unfold afterEnqueue ClientSocket.stop
  by_cases hk : item.client = k
  · rw [if_pos hk, if_pos hk]
    split <;> rfl
  · rw [if_neg hk, if_neg hk, List.append_nil]
    split <;> rfl

theorem stopped_afterEnqueue : (afterEnqueue c k item dropped).stopped =
    if dropped.any (·.client == k) then some (c.stopped.getD c.written) else c.stopped := by
  unfold afterEnqueue ClientSocket.stop
  split <;> split <;> rfl

end Enqueue

/-- Nothing was dropped for a client when none of its frames was. -/
theorem blocksFor_eq_nil {k : Nat} {items : List PendingSend}
    (h : items.any (·.client == k) = false) : blocksFor k items = [] := by
  induction items with
  | nil => rfl
  | cons item items ih =>
    rw [List.any_cons, Bool.or_eq_false_iff] at h
    rw [blocksFor_cons, ih h.2, if_neg (by simpa using h.1)]
    rfl

/-- The frames of a client of which none is dropped wait in the order of their enqueues. -/
theorem blocksFor_enqueue {k : Nat} {q : DispatchQueue} {item : PendingSend} {now : Int}
    (h : (q.enqueue item now).1.any (·.client == k) = false) :
    blocksFor k (q.enqueue item now).2.toList = blocksFor k q.toList ++ blocksFor k [item] := by
  have hsplit := congrArg (blocksFor k) (q.toList_enqueue item now)
  rw [blocksFor_append, blocksFor_append, blocksFor_eq_nil h] at hsplit
  exact hsplit.symm

/-! ### One step -/

variable {w t : Dispatching}

theorem step_dequeue (h : w.step .dequeue = some t) :
    ∃ item queue, w.exited = false ∧ w.sending = none ∧ w.queue.dequeue = some (item, queue) ∧
      t = { w with queue, sending := if item.data = [] then none else some (item, 0) } := by
  simp only [step] at h
  split at h
  · next hrun hsend hq => exact ⟨_, _, hrun, hsend, hq, (Option.some.inj h).symm⟩
  · cases h

theorem step_send {n : Nat} (h : w.step (.send n) = some t) :
    ∃ item sent, w.sending = some (item, sent) ∧
      (0 < n ∧ sent + n ≤ item.data.length ∧ (w.clients item.client).shut = false ∧
        (w.clients item.client).dead = false) ∧
      t = { w.setClient item.client { w.clients item.client with
          written := (w.clients item.client).written ++ (item.data.drop sent).take n } with
        sending := if sent + n = item.data.length then none else some (item, sent + n) } := by
  simp only [step] at h
  split at h
  · next hsend =>
    obtain ⟨hcan, heq⟩ := Option.ite_none_right_eq_some.mp h
    exact ⟨_, _, hsend, hcan, (Option.some.inj heq).symm⟩
  · cases h

theorem sound_start (k : Nat) : start.Sound k where
  flow _ _ := by
    rw [ahead]
    change [] ++ ([] ++ (blocksFor k DispatchQueue.start.toList).flatten) = _
    rw [DispatchQueue.toList_start]
    rfl
  open_ _ := ⟨rfl, rfl⟩
  closing h := by cases h
  releasing item h := by cases h
  exited h := by cases h

theorem contiguous_start (k : Nat) : start.Contiguous k where
  initial := List.nil_prefix
  silent _ h := by cases h
  ended h := by cases h

/-- What an enqueue does to a client. -/
private theorem sound_enqueue {k : Nat} (h : w.Sound k) (item : PendingSend) (now : Int) :
    Sound { w with
      queue := (w.queue.enqueue item now).2
      releasing := w.releasing ++ (w.queue.enqueue item now).1
      clients := fun k ↦ afterEnqueue (w.clients k) k item (w.queue.enqueue item now).1 } k where
  flow hopen hrun := by
    dsimp only at hopen hrun ⊢
    rw [stopped_afterEnqueue] at hopen
    split at hopen
    · cases hopen
    · next hany =>
      rw [written_afterEnqueue, enqueued_afterEnqueue, List.flatten_append,
        ← h.flow hopen hrun, List.append_assoc]
      congr 1
      unfold ahead
      rw [blocksFor_enqueue (by simpa using hany), List.flatten_append, List.append_assoc]
  open_ hopen := by
    dsimp only at hopen ⊢
    rw [stopped_afterEnqueue] at hopen
    split at hopen
    · cases hopen
    · rw [shut_afterEnqueue, dead_afterEnqueue]
      exact h.open_ hopen
  closing hstop := by
    dsimp only at hstop ⊢
    rw [stopped_afterEnqueue] at hstop
    rw [shut_afterEnqueue, dead_afterEnqueue]
    split at hstop
    · next hany =>
      obtain ⟨old, hold, hclient⟩ := List.any_eq_true.mp hany
      exact .inr (.inr ⟨old, List.mem_append_right _ hold, by simpa using hclient⟩)
    · obtain hshut | hdead | ⟨old, hold, hclient⟩ := h.closing hstop
      · exact .inl hshut
      · exact .inr (.inl hdead)
      · exact .inr (.inr ⟨old, List.mem_append_left _ hold, hclient⟩)
  releasing old hold hclient := by
    dsimp only at hold ⊢
    rw [stopped_afterEnqueue]
    obtain hold | hold := List.mem_append.mp hold
    · have hstop := h.releasing old hold hclient
      split
      · rfl
      · exact hstop
    · rw [if_pos (List.any_eq_true.mpr ⟨old, hold, by simpa using hclient⟩)]
      rfl
  exited := h.exited

private theorem sound_release {k i : Nat} {item : PendingSend} (h : w.Sound k)
    (hi : w.releasing[i]? = some item) :
    Sound { w.setClient item.client { w.clients item.client with shut := true } with
      releasing := w.releasing.eraseIdx i } k := by
  have hmem := List.mem_of_getElem? hi
  by_cases hk : k = item.client
  · subst hk
    have hstop := h.releasing item hmem rfl
    refine ⟨?_, ?_, ?_, ?_, h.exited⟩
    all_goals simp only [setClient, Function.update_self]
    · intro hnone
      rw [hnone] at hstop
      cases hstop
    · intro hnone
      rw [hnone] at hstop
      cases hstop
    · exact fun _ ↦ .inl trivial
    · exact fun _ _ _ ↦ hstop
  · refine ⟨?_, ?_, ?_, ?_, h.exited⟩
    all_goals simp only [setClient, Function.update_of_ne hk]
    · exact h.flow
    · exact h.open_
    · intro hstop
      obtain hshut | hdead | ⟨old, hold, hclient⟩ := h.closing hstop
      · exact .inl hshut
      · exact .inr (.inl hdead)
      · refine .inr (.inr ⟨old, ?_, hclient⟩)
        rw [List.mem_eraseIdx_iff_getElem?]
        obtain ⟨j, hj⟩ := List.getElem?_of_mem hold
        refine ⟨j, ?_, hj⟩
        rintro rfl
        cases hi.symm.trans hj
        exact hk hclient.symm
    · exact fun old hold ↦ h.releasing old (List.mem_of_mem_eraseIdx hold)

private theorem sound_dequeue {k : Nat} {item : PendingSend} {queue : DispatchQueue}
    (h : w.Sound k) (hrun : w.exited = false) (hsend : w.sending = none)
    (hq : w.queue.dequeue = some (item, queue)) :
    Sound { w with queue, sending := if item.data = [] then none else some (item, 0) } k where
  flow hopen _ := by
    rw [← h.flow hopen hrun]
    congr 1
    have hrest : restFor k (if item.data = [] then none else some (item, 0)) =
        (blocksFor k [item]).flatten := by
      rw [blocksFor_cons, blocksFor_nil, List.append_nil]
      by_cases hdata : item.data = []
      · rw [if_pos hdata, hdata]
        split <;> rfl
      · rw [if_neg hdata, restFor, List.drop_zero]
        split
        · exact (List.append_nil _).symm
        · rfl
    rw [ahead, ahead, hsend, DispatchQueue.toList_dequeue hq, ← List.singleton_append,
      blocksFor_append, List.flatten_append]
    exact congrArg (· ++ _) hrest
  open_ := h.open_
  closing := h.closing
  releasing := h.releasing
  exited hexit := by
    dsimp only at hexit
    rw [hrun] at hexit
    cases hexit

private theorem sound_send {k n sent : Nat} {item : PendingSend} (h : w.Sound k)
    (hsend : w.sending = some (item, sent)) :
    Sound { w.setClient item.client { w.clients item.client with
        written := (w.clients item.client).written ++ (item.data.drop sent).take n } with
      sending := if sent + n = item.data.length then none else some (item, sent + n) } k := by
  have hrun : w.exited = false := by
    cases hexit : w.exited with
    | false => rfl
    | true =>
      rw [h.exited hexit] at hsend
      cases hsend
  have hrest : restFor k (if sent + n = item.data.length then none else some (item, sent + n)) =
      restFor k (some (item, sent + n)) := by
    split
    · next hend =>
      rw [restFor, restFor, hend, List.drop_length]
      split <;> rfl
    · rfl
  by_cases hk : k = item.client
  · subst hk
    refine ⟨?_, ?_, ?_, ?_, ?_⟩
    all_goals simp only [setClient, Function.update_self]
    · intro hopen _
      rw [← h.flow hopen hrun, List.append_assoc]
      congr 1
      unfold ahead
      dsimp only
      rw [hrest, hsend, restFor, restFor, if_pos rfl, if_pos rfl, ← List.append_assoc,
        ← List.drop_drop, List.take_append_drop]
    · exact h.open_
    · exact h.closing
    · exact h.releasing
    · intro hexit
      rw [hrun] at hexit
      cases hexit
  · refine ⟨?_, ?_, ?_, ?_, ?_⟩
    all_goals simp only [setClient, Function.update_of_ne hk]
    · intro hopen _
      rw [← h.flow hopen hrun]
      congr 1
      unfold ahead
      dsimp only
      rw [hrest, hsend, restFor, restFor, if_neg (Ne.symm hk), if_neg (Ne.symm hk)]
    · exact h.open_
    · exact h.closing
    · exact h.releasing
    · intro hexit
      rw [hrun] at hexit
      cases hexit

/-- A frame is given up, and its socket takes no more bytes. -/
private theorem sound_giveUp {k : Nat} {e : PendingSend × Nat} {c : ClientSocket} (h : w.Sound k)
    (hsend : w.sending = some e) (hstop : c.stopped.isSome = true)
    (hcut : c.shut = true ∨ c.dead = true) :
    Sound { w.setClient e.1.client c with sending := none } k := by
  by_cases hk : k = e.1.client
  · subst hk
    refine ⟨?_, ?_, ?_, ?_, fun _ ↦ rfl⟩
    all_goals simp only [setClient, Function.update_self]
    · intro hnone
      rw [hnone] at hstop
      cases hstop
    · intro hnone
      rw [hnone] at hstop
      cases hstop
    · exact fun _ ↦ hcut.imp id .inl
    · exact fun _ _ _ ↦ hstop
  · refine ⟨?_, ?_, ?_, ?_, fun _ ↦ rfl⟩
    all_goals simp only [setClient, Function.update_of_ne hk]
    · intro hopen hrun
      rw [← h.flow hopen hrun]
      congr 1
      rw [ahead, ahead, hsend, restFor, restFor, if_neg (Ne.symm hk)]
    · exact h.open_
    · exact h.closing
    · exact h.releasing

private theorem sound_exit {k : Nat} (h : w.Sound k) (hsend : w.sending = none)
    (queue : DispatchQueue) : Sound { w with exited := true, queue } k where
  flow _ hrun := by cases hrun
  open_ := h.open_
  closing := h.closing
  releasing := h.releasing
  exited _ := hsend

/-- A client keeps what holds of it whatever happens. -/
theorem Sound.step {k : Nat} {l : DispatchLabel} (h : w.Sound k) (hstep : w.step l = some t) :
    t.Sound k := by
  cases l with
  | enqueue item now =>
    cases hstep
    exact sound_enqueue h item now
  | release i =>
    obtain ⟨item, hi, rfl⟩ := Option.map_eq_some_iff.mp hstep
    exact sound_release h hi
  | dequeue =>
    obtain ⟨item, queue, hrun, hsend, hq, rfl⟩ := step_dequeue hstep
    exact sound_dequeue h hrun hsend hq
  | send n =>
    obtain ⟨item, sent, hsend, -, rfl⟩ := step_send hstep
    exact sound_send h hsend
  | fail =>
    obtain ⟨e, hsend, rfl⟩ := Option.map_eq_some_iff.mp hstep
    exact sound_giveUp h hsend rfl (.inr rfl)
  | stuck =>
    obtain ⟨e, hsend, rfl⟩ := Option.map_eq_some_iff.mp hstep
    exact sound_giveUp h hsend rfl (.inl rfl)
  | stop =>
    cases hstep
    exact ⟨h.flow, h.open_, h.closing, h.releasing, h.exited⟩
  | exit =>
    obtain ⟨hcan, heq⟩ := Option.ite_none_right_eq_some.mp hstep
    rw [← Option.some.inj heq]
    exact sound_exit h hcan.2.2 _

/-! ### What evictions do to the streams -/

/-- What a client's socket has taken and what was enqueued for it stay as they are, or grow by a
frame enqueued; it may be stopped, and then it has taken what it had. -/
private theorem contiguous_step_of_ne_send {k : Nat} {l : DispatchLabel} (hs : w.Sound k)
    (hk : w.Contiguous k) (hl : ∀ n, l ≠ .send n) (hstep : w.step l = some t) :
    t.Contiguous k := by
  have ht : t.Sound k := hs.step hstep
  suffices h : (t.clients k).written = (w.clients k).written ∧
      (w.clients k).enqueued <+: (t.clients k).enqueued ∧
      ((t.clients k).stopped = (w.clients k).stopped ∨
        (t.clients k).stopped = some ((w.clients k).stopped.getD (w.clients k).written)) by
    obtain ⟨hwritten, henqueued, hstopped⟩ := h
    refine ⟨?_, ?_, ht.closing⟩
    · rw [hwritten]
      exact hk.initial.trans henqueued.flatten
    · intro taken htaken
      rw [hwritten]
      obtain hsame | hnew := hstopped
      · exact hk.silent taken (hsame ▸ htaken)
      · rw [hnew] at htaken
        cases hold : (w.clients k).stopped with
        | none =>
          rw [hold] at htaken
          exact Option.some.inj htaken
        | some old =>
          rw [hold] at htaken
          exact hk.silent taken (hold.trans htaken)
  cases l with
  | enqueue item now =>
    cases hstep
    dsimp only
    rw [written_afterEnqueue, enqueued_afterEnqueue, stopped_afterEnqueue]
    refine ⟨rfl, List.prefix_append _ _, ?_⟩
    split
    · exact .inr rfl
    · exact .inl rfl
  | release i =>
    obtain ⟨item, -, rfl⟩ := Option.map_eq_some_iff.mp hstep
    by_cases hclient : k = item.client
    · subst hclient
      simp [setClient]
    · simp [setClient, Function.update_of_ne hclient]
  | dequeue =>
    obtain ⟨item, queue, -, -, -, rfl⟩ := step_dequeue hstep
    exact ⟨rfl, List.prefix_refl _, .inl rfl⟩
  | send n => exact absurd rfl (hl n)
  | fail | stuck =>
    obtain ⟨e, -, rfl⟩ := Option.map_eq_some_iff.mp hstep
    by_cases hclient : k = e.1.client
    · subst hclient
      simp [setClient, ClientSocket.stop]
    · simp [setClient, Function.update_of_ne hclient]
  | stop =>
    cases hstep
    exact ⟨rfl, List.prefix_refl _, .inl rfl⟩
  | exit =>
    obtain ⟨-, heq⟩ := Option.ite_none_right_eq_some.mp hstep
    rw [← Option.some.inj heq]
    exact ⟨rfl, List.prefix_refl _, .inl rfl⟩

/-- A send goes on with the stream of a client that was not stopped. -/
private theorem contiguous_step_send {n : Nat} (hs : ∀ k, w.Sound k) (hk : ∀ k, w.Contiguous k)
    (hc : w.ReleasedFirst (.send n)) (hstep : w.step (.send n) = some t) (k : Nat) :
    t.Contiguous k := by
  have ht : t.Sound k := (hs k).step hstep
  obtain ⟨item, sent, hsend, ⟨-, -, hshut, hdead⟩, rfl⟩ := step_send hstep
  by_cases hclient : k = item.client
  · subst hclient
    have hopen : (w.clients item.client).stopped = none := by
      cases hstop : (w.clients item.client).stopped with
      | none => rfl
      | some taken =>
        obtain h | h | ⟨old, hold, hsame⟩ := (hs item.client).closing (by rw [hstop]; rfl)
        · cases hshut.symm.trans h
        · cases hdead.symm.trans h
        · exact absurd hsame (hc _ hsend old hold)
    have hrun : w.exited = false := by
      cases hexit : w.exited with
      | false => rfl
      | true =>
        rw [(hs item.client).exited hexit] at hsend
        cases hsend
    refine ⟨?_, ?_, ht.closing⟩
    · have hflow := ht.flow (by simpa [setClient] using hopen) hrun
      simp only [setClient, Function.update_self] at hflow ⊢
      rw [← hflow]
      exact List.prefix_append _ _
    · intro taken htaken
      simp [setClient, hopen] at htaken
  · refine ⟨?_, ?_, ht.closing⟩
    all_goals simp only [setClient, Function.update_of_ne hclient]
    · exact (hk k).initial
    · exact (hk k).silent

/-- A send between the eviction of a frame and the shutdown of its socket is seen. -/
private theorem releasedFirst_of_contiguous {n : Nat} (hs : ∀ k, w.Sound k)
    (hk : ∀ k, w.Contiguous k) (hstep : w.step (.send n) = some t) (ht : ∀ k, t.Contiguous k) :
    w.ReleasedFirst (.send n) := by
  obtain ⟨item, sent, hsend, ⟨hpos, hle, -⟩, rfl⟩ := step_send hstep
  intro e he old hold hsame
  rw [hsend, Option.mem_some_iff] at he
  subst he
  obtain ⟨taken, htaken⟩ :=
    Option.isSome_iff_exists.mp ((hs item.client).releasing old hold hsame)
  have hbefore := (hk item.client).silent taken htaken
  have hafter := (ht item.client).silent taken
  simp only [setClient, Function.update_self] at hafter
  have hgrown := congrArg List.length ((hafter htaken).trans hbefore.symm)
  rw [List.length_append, List.length_take, List.length_drop] at hgrown
  omega

instance (w : Dispatching) : (l : DispatchLabel) → Decidable (w.ReleasedFirst l)
  | .send _ => inferInstanceAs (Decidable (∀ e ∈ w.sending, ∀ item ∈ w.releasing, _))
  | .enqueue _ _ | .release _ | .dequeue | .fail | .stuck | .stop | .exit => isTrue trivial

end Dispatching

/-- The streams stay contiguous exactly when no bytes are sent to a client between the eviction of
one of its frames and the shutdown of its socket. -/
theorem contiguous_iff_releasedFirst {ls : List DispatchLabel} {t : Dispatching}
    (hr : run Dispatching.step .start ls = some t) :
    (∀ ks u, ks <+: ls → run Dispatching.step .start ks = some u → ∀ k, u.Contiguous k) ↔
      Always Dispatching.step Dispatching.ReleasedFirst .start ls := by
  have hsound : ∀ s l u, (∀ k, Dispatching.Sound s k) → Dispatching.step s l = some u →
      ∀ k, u.Sound k := fun s l u hs hstep k ↦ (hs k).step hstep
  refine forall_prefix_iff_always Dispatching.step hsound ?_ Dispatching.sound_start
    Dispatching.contiguous_start hr
  intro s l u hs hk hstep
  cases l with
  | send n => exact ⟨Dispatching.releasedFirst_of_contiguous hs hk hstep,
      fun hc ↦ Dispatching.contiguous_step_send hs hk hc hstep⟩
  | _ => exact iff_of_true (fun k ↦ Dispatching.contiguous_step_of_ne_send (hs k) (hk k)
      (fun n h ↦ by cases h) hstep) trivial

/-- Two clients are sent to while a frame of one of them takes two sends. -/
def mixedClients : List DispatchLabel :=
  [.enqueue ⟨0, [1, 2]⟩ 0, .enqueue ⟨1, [3]⟩ 0, .dequeue, .send 1, .enqueue ⟨0, [4]⟩ 0, .send 1,
    .dequeue, .send 1]

theorem contiguous_mixedClients : ∃ t, run Dispatching.step .start mixedClients = some t ∧
    ∀ ks u, ks <+: mixedClients → run Dispatching.step .start ks = some u →
      ∀ k, u.Contiguous k := by
  obtain ⟨t, ht⟩ := Option.isSome_iff_exists.mp
    (show (run Dispatching.step .start mixedClients).isSome = true by decide +kernel)
  exact ⟨t, ht, (contiguous_iff_releasedFirst ht).mpr (by decide +kernel)⟩

/-- A client for which 64 frames are queued, of which the first is evicted; the next one is sent
before its socket is shut down. -/
def sentBehindEvicted : List DispatchLabel :=
  (List.range dispatchQueueSize).map (fun i ↦ .enqueue ⟨0, [UInt8.ofNat i]⟩ 0) ++
    [.dequeue, .send 1]

theorem evicted_gap : ¬ ∀ ls t, run Dispatching.step .start ls = some t →
    ∀ k, t.Contiguous k := by
  intro h
  have hrun : ∃ t, run Dispatching.step .start sentBehindEvicted = some t ∧
      ¬ (t.clients 0).written <+: (t.clients 0).enqueued.flatten :=
    exists_run Dispatching.step _ (by decide +kernel)
  obtain ⟨t, ht, hgap⟩ := hrun
  exact hgap (h _ t ht 0).initial

end Kitty.P2p
