import Kitty.P2p.Dispatch
import Mathlib.Data.List.Induction

/-!
# Runs of the dispatch queue

What holds of `dispatch_queue_t` whatever `dispatch_enqueue` and the dispatch thread do to it;
`src/consumer-srt-cloud/_legacy_libjuice_consumer_api.c:721–848`. A frame that is larger than
`DISPATCH_QUEUE_MAX_BYTES` is let in alone: the loop that makes room stops at an empty queue.
-/

namespace Kitty.P2p

open Kitty.Base

/-- The bytes of some frames. -/
def totalBytes (items : List PendingSend) : Nat := (items.map (·.data.length)).sum

@[simp] theorem totalBytes_nil : totalBytes [] = 0 := rfl

@[simp] theorem totalBytes_cons (item : PendingSend) (items : List PendingSend) :
    totalBytes (item :: items) = item.data.length + totalBytes items := by
  simp [totalBytes]

@[simp] theorem totalBytes_append (items items' : List PendingSend) :
    totalBytes (items ++ items') = totalBytes items + totalBytes items' := by
  simp [totalBytes]

/-! ### The fields against the list -/

namespace DispatchQueue

/-- `bytes_queued` is the number of bytes queued. -/
def Counted (q : DispatchQueue) : Prop := q.bytesQueued = totalBytes q.toList

theorem counted_start : start.Counted := by
  rw [Counted, toList_start]
  rfl

/-- A frame that leaves takes its bytes out of the count, which is never cut at zero. -/
theorem Counted.pop {q : DispatchQueue} (h : q.Counted) (hne : q.items.isEmpty = false) :
    q.pop.Counted := by
  rw [Counted, q.toList_pop hne, totalBytes_cons] at h
  have hle : q.items.front.data.length ≤ q.bytesQueued := by omega
  change (if q.items.front.data.length ≤ q.bytesQueued
    then q.bytesQueued - q.items.front.data.length else 0) = totalBytes q.pop.toList
  rw [if_pos hle]
  omega

theorem Counted.evict {size fuel : Nat} {q : DispatchQueue} (h : q.Counted) :
    (q.evict size fuel).2.Counted := by
  induction fuel generalizing q with
  | zero => exact h
  | succ fuel ih =>
    rw [DispatchQueue.evict]
    split
    · next hc => exact ih (q := q.drop) (h.pop (isEmpty_of_crowded hc))
    · exact h

/-- At the end of the loop that makes room there is a free cell, and room for the bytes unless the
queue is empty. -/
theorem room_evict (q : DispatchQueue) (size : Nat) :
    (q.evict size dispatchQueueSize).2.items.full = false ∧
      ((q.evict size dispatchQueueSize).2.bytesQueued + size ≤ dispatchQueueMaxBytes ∨
        (q.evict size dispatchQueueSize).2.toList = []) := by
  have hlen : q.toList.length ≤ dispatchQueueSize := by
    rw [toList, Ring.length_toList]
    exact q.items.length_lt.le
  have hfree := full_evict size dispatchQueueSize q hlen
  generalize (q.evict size dispatchQueueSize).2 = q' at hfree ⊢
  simp only [crowded, Bool.or_eq_false_iff, Bool.and_eq_false_iff, decide_eq_false_iff_not,
    Bool.not_eq_false', not_lt] at hfree
  refine ⟨hfree.1, hfree.2.imp_right fun hempty ↦ ?_⟩
  apply List.eq_nil_of_length_eq_zero
  rw [toList, Ring.length_toList]
  exact q'.items.isEmpty_iff.mp hempty

theorem toList_append {q : DispatchQueue} (hfull : q.items.full = false) (item : PendingSend) :
    (q.append item).toList = q.toList ++ [item] :=
  Ring.toList_push _ item hfull

theorem Counted.append {q : DispatchQueue} (h : q.Counted) (hfull : q.items.full = false)
    (item : PendingSend) : (q.append item).Counted := by
  rw [Counted, toList_append hfull, totalBytes_append, ← h, totalBytes_cons, totalBytes_nil]
  rfl

theorem Counted.logDrops {q : DispatchQueue} (h : q.Counted) (now : Int) :
    (q.logDrops now).Counted := by
  unfold DispatchQueue.logDrops
  split <;> exact h

theorem bytesQueued_logDrops (q : DispatchQueue) (now : Int) :
    (q.logDrops now).bytesQueued = q.bytesQueued := by
  unfold logDrops
  split <;> rfl

theorem Counted.enqueue {q : DispatchQueue} (h : q.Counted) (item : PendingSend) (now : Int) :
    (q.enqueue item now).2.Counted :=
  (h.evict.append (q.room_evict item.data.length).1 item).logDrops now

theorem Counted.dequeue {q q' : DispatchQueue} {item : PendingSend} (h : q.Counted)
    (hq : q.dequeue = some (item, q')) : q'.Counted := by
  unfold DispatchQueue.dequeue at hq
  split at hq
  · cases hq
  · next hne =>
    cases hq
    exact h.pop (by simpa using hne)

/-- The frames never fill the ring. -/
theorem length_toList_lt (q : DispatchQueue) : q.toList.length < dispatchQueueSize := by
  rw [toList, Ring.length_toList]
  exact q.items.length_lt

/-- An enqueue leaves at most `DISPATCH_QUEUE_MAX_BYTES` bytes, or only the frame it put in. -/
theorem bytes_enqueue {q : DispatchQueue} (item : PendingSend) (now : Int) :
    (q.enqueue item now).2.bytesQueued ≤ dispatchQueueMaxBytes ∨
      (q.enqueue item now).2.toList = [item] := by
  obtain ⟨hfull, hroom⟩ := q.room_evict item.data.length
  simp only [enqueue, toList_logDrops, bytesQueued_logDrops, toList_append hfull]
  refine hroom.imp id fun hnil ↦ ?_
  rw [hnil]
  rfl

/-- Whatever is evicted, the new frame is counted. -/
theorem length_le_bytes_enqueue (q : DispatchQueue) (item : PendingSend) (now : Int) :
    item.data.length ≤ (q.enqueue item now).2.bytesQueued := by
  rw [enqueue, bytesQueued_logDrops]
  exact Nat.le_add_left _ _

/-- The frames one call evicts fit into its arrays. -/
theorem length_evicted_lt (q : DispatchQueue) (item : PendingSend) (now : Int) :
    (q.enqueue item now).1.length < dispatchQueueSize := by
  have hsplit := congrArg List.length (toList_evict item.data.length dispatchQueueSize q)
  rw [List.length_append] at hsplit
  have hlt := q.length_toList_lt
  change (q.evict item.data.length dispatchQueueSize).1.length < _
  omega

end DispatchQueue

/-! ### Runs -/

/-- A call of `dispatch_enqueue`, or the dispatch thread looking for a frame. -/
inductive QueueOp where
  | enqueue (item : PendingSend) (now : Int)
  | dequeue

/-- The queue, the frames put into it, and those that have left it with whether they were
dropped. -/
structure QueueHistory where
  queue : DispatchQueue
  enqueued : List PendingSend
  left : List (PendingSend × Bool)

namespace QueueHistory

/-- A new queue. -/
def start : QueueHistory := ⟨.start, [], []⟩

/-- One operation. The dispatch thread waits while the queue is empty. -/
def step (w : QueueHistory) : QueueOp → QueueHistory
  | .enqueue item now =>
    let (dropped, queue) := w.queue.enqueue item now
    { queue, enqueued := w.enqueued ++ [item], left := w.left ++ dropped.map (·, true) }
  | .dequeue =>
    match w.queue.dequeue with
    | some (item, queue) => { w with queue, left := w.left ++ [(item, false)] }
    | none => w

/-- What has left the queue, in order, and then what is in it, is what was put in. -/
def Fifo (w : QueueHistory) : Prop := w.left.map Prod.fst ++ w.queue.toList = w.enqueued

theorem Fifo.step {w : QueueHistory} (h : w.Fifo) (op : QueueOp) : (w.step op).Fifo := by
  cases op with
  | enqueue item now =>
    have hsplit := w.queue.toList_enqueue item now
    have hfst : ((w.queue.enqueue item now).1.map (·, true)).map Prod.fst =
        (w.queue.enqueue item now).1 := by
      rw [List.map_map]
      exact List.map_id _
    change (w.left ++ (w.queue.enqueue item now).1.map (·, true)).map Prod.fst ++
      (w.queue.enqueue item now).2.toList = w.enqueued ++ [item]
    rw [List.map_append, hfst, List.append_assoc, ← hsplit, ← List.append_assoc, h]
  | dequeue =>
    unfold QueueHistory.step
    cases hq : w.queue.dequeue with
    | none => exact h
    | some e =>
      change (w.left ++ [(e.1, false)]).map Prod.fst ++ e.2.toList = w.enqueued
      rw [← h, DispatchQueue.toList_dequeue hq, List.map_append, List.append_assoc]
      rfl

theorem counted_step {w : QueueHistory} (h : w.queue.Counted) (op : QueueOp) :
    (w.step op).queue.Counted := by
  cases op with
  | enqueue item now => exact h.enqueue item now
  | dequeue =>
    unfold QueueHistory.step
    cases hq : w.queue.dequeue with
    | none => exact h
    | some e => exact h.dequeue hq

theorem fifo_run (ops : List QueueOp) :
    (ops.foldl step start).Fifo ∧ (ops.foldl step start).queue.Counted := by
  induction ops using List.reverseRecOn with
  | nil => exact ⟨DispatchQueue.toList_start, DispatchQueue.counted_start⟩
  | append_singleton ops op ih =>
    rw [List.foldl_append]
    exact ⟨ih.1.step op, counted_step ih.2 op⟩

end QueueHistory

/-- The queue stays first in, first out, and its fields stay what they stand for. What an enqueue
leaves is within the limits, unless the frame alone is larger than the limit of bytes. -/
theorem queue_consistent (ops : List QueueOp) :
    let w := ops.foldl QueueHistory.step .start
    w.left.map Prod.fst ++ w.queue.toList = w.enqueued ∧
    w.queue.bytesQueued = totalBytes w.queue.toList ∧
    w.queue.items.head < dispatchQueueSize ∧
    w.queue.items.tail = (w.queue.items.head + w.queue.toList.length) % dispatchQueueSize ∧
    ∀ item now,
      let dropped := (w.queue.enqueue item now).1
      let queue := (w.queue.enqueue item now).2
      dropped.length < dispatchQueueSize ∧
      w.queue.toList ++ [item] = dropped ++ queue.toList ∧
      queue.toList.length < dispatchQueueSize ∧
      (queue.bytesQueued ≤ dispatchQueueMaxBytes ∨
        dispatchQueueMaxBytes < item.data.length ∧ queue.toList = [item]) := by
  intro w
  obtain ⟨hfifo, hcount⟩ := QueueHistory.fifo_run ops
  refine ⟨hfifo, hcount, w.queue.items.head_lt, ?_, ?_⟩
  · rw [DispatchQueue.toList, Ring.length_toList, Ring.tail_eq]
  · intro item now
    have hcount' : (w.queue.enqueue item now).2.Counted := hcount.enqueue item now
    refine ⟨w.queue.length_evicted_lt item now, w.queue.toList_enqueue item now,
      DispatchQueue.length_toList_lt _, ?_⟩
    obtain hbytes | honly := w.queue.bytes_enqueue item now
    · exact .inl hbytes
    · rw [DispatchQueue.Counted, honly, totalBytes_cons, totalBytes_nil, Nat.add_zero] at hcount'
      rw [hcount']
      obtain hlt | hle := Nat.lt_or_ge dispatchQueueMaxBytes item.data.length
      · exact .inr ⟨hlt, honly⟩
      · exact .inl hle

/-- A frame of one byte more than the limit is let into the empty queue. -/
theorem oversized_enqueued : ¬ ∀ (ops : List QueueOp) (item : PendingSend) (now : Int),
    ((ops.foldl QueueHistory.step .start).queue.enqueue item now).2.bytesQueued ≤
      dispatchQueueMaxBytes := by
  intro h
  obtain ⟨data, hdata⟩ : ∃ data : Bytes, dispatchQueueMaxBytes < data.length :=
    ⟨List.replicate (dispatchQueueMaxBytes + 1) 0, by
      rw [List.length_replicate]
      exact Nat.lt_succ_self _⟩
  have hle := DispatchQueue.length_le_bytes_enqueue
    (([] : List QueueOp).foldl QueueHistory.step .start).queue ⟨0, data⟩ 0
  exact Nat.not_le.mpr hdata (hle.trans (h [] ⟨0, data⟩ 0))

end Kitty.P2p
