import Kitty.Base.Bytes
import Kitty.Base.Ring

/-!
# The dispatch queue

The bounded queue between the ICE callback and the thread that writes to the local
clients: `dispatch_queue_t`, `dispatch_enqueue` and the dequeue of `dispatch_thread_func`;
`src/consumer-srt-cloud/_legacy_libjuice_consumer_api.c:130–147,721–848`. A descriptor in
the queue is a duplicate of a client's socket and is known by the client.
-/

namespace Kitty.P2p

open Kitty.Base

/-- `DISPATCH_QUEUE_SIZE`: the cells of the queue. -/
def dispatchQueueSize : Nat := 64

/-- `DISPATCH_QUEUE_MAX_BYTES`. -/
def dispatchQueueMaxBytes : Nat := 64 * 1024 * 1024

/-- `pending_send_t`: a frame for a client. -/
structure PendingSend where
  client : Nat
  data : Bytes
deriving DecidableEq

/-- `dispatch_queue_t` without its lock. -/
structure DispatchQueue where
  items : Ring PendingSend dispatchQueueSize
  bytesQueued : Nat
  dropCount : Nat
  dropBytes : Nat
  lastDropLog : Int

namespace DispatchQueue

/-- The queue of a new session. -/
def start : DispatchQueue := ⟨.empty ⟨0, []⟩ (by decide), 0, 0, 0, 0⟩

/-- The queued frames, oldest first. -/
def toList (q : DispatchQueue) : List PendingSend := q.items.toList

/-- The oldest frame leaves the queue. -/
def pop (q : DispatchQueue) : DispatchQueue :=
  { q with
    items := q.items.pop
    bytesQueued := if q.items.front.data.length ≤ q.bytesQueued
      then q.bytesQueued - q.items.front.data.length else 0 }

/-- The oldest frame is dropped, and counted. -/
def drop (q : DispatchQueue) : DispatchQueue :=
  { q.pop with
    dropCount := q.dropCount + 1
    dropBytes := q.dropBytes + q.items.front.data.length }

/-- No cell, or too few bytes, for a frame of the given size. -/
def crowded (q : DispatchQueue) (size : Nat) : Bool :=
  q.items.full || (decide (dispatchQueueMaxBytes < q.bytesQueued + size) && !q.items.isEmpty)

/-- The loop that drops the oldest frames until the new one fits; the fuel is the bound of
its safety check. -/
def evict (size : Nat) : Nat → DispatchQueue → List PendingSend × DispatchQueue
  | 0, q => ([], q)
  | fuel + 1, q =>
    if q.crowded size then
      let (dropped, q') := evict size fuel q.drop
      (q.items.front :: dropped, q')
    else ([], q)

/-- The new frame takes the first free cell. -/
def append (q : DispatchQueue) (item : PendingSend) : DispatchQueue :=
  { q with items := q.items.push item, bytesQueued := q.bytesQueued + item.data.length }

/-- The warning about dropped frames, at most once a second, clears their counts. -/
def logDrops (q : DispatchQueue) (now : Int) : DispatchQueue :=
  if 0 < q.dropCount ∧ 1 ≤ now - q.lastDropLog then
    { q with dropCount := 0, dropBytes := 0, lastDropLog := now }
  else q

/-- The locked part of `dispatch_enqueue`: the frames it drops and the queue after it. -/
def enqueue (q : DispatchQueue) (item : PendingSend) (now : Int) :
    List PendingSend × DispatchQueue :=
  let (dropped, q) := q.evict item.data.length dispatchQueueSize
  (dropped, (q.append item).logDrops now)

/-- The locked part of the dispatch thread's loop. -/
def dequeue (q : DispatchQueue) : Option (PendingSend × DispatchQueue) :=
  if q.items.isEmpty then none else some (q.items.front, q.pop)

/-! ### The queue as a list -/

@[simp] theorem toList_start : start.toList = [] := Ring.toList_empty _ _

/-- The oldest frame leaves first. -/
theorem toList_pop (q : DispatchQueue) (h : q.items.isEmpty = false) :
    q.toList = q.items.front :: q.pop.toList :=
  q.items.toList_pop h

theorem toList_dequeue {q q' : DispatchQueue} {item : PendingSend}
    (h : q.dequeue = some (item, q')) : q.toList = item :: q'.toList := by
  unfold dequeue at h
  split at h
  · cases h
  · next he =>
    cases h
    exact q.toList_pop (by simpa using he)

/-- A crowded queue is not empty. -/
theorem isEmpty_of_crowded {q : DispatchQueue} {size : Nat} (h : q.crowded size = true) :
    q.items.isEmpty = false := by
  cases he : q.items.isEmpty with
  | false => rfl
  | true =>
    have hlen := q.items.isEmpty_iff.mp he
    have hfull : q.items.full = false := by
      cases hf : q.items.full with
      | false => rfl
      | true =>
        have hone := q.items.full_iff.mp hf
        rw [hlen] at hone
        exact absurd hone (by decide)
    simp [crowded, he, hfull] at h

/-- What is evicted are the oldest frames, in order. -/
theorem toList_evict (size fuel : Nat) (q : DispatchQueue) :
    q.toList = (q.evict size fuel).1 ++ (q.evict size fuel).2.toList := by
  induction fuel generalizing q with
  | zero => rfl
  | succ fuel ih =>
    rw [evict]
    split
    · next hc =>
      rw [q.toList_pop (isEmpty_of_crowded hc)]
      exact congrArg _ (ih q.drop)
    · rfl

/-- The loop ends before its safety check: a cell is free. -/
theorem full_evict (size fuel : Nat) (q : DispatchQueue) (h : q.toList.length ≤ fuel) :
    (q.evict size fuel).2.crowded size = false := by
  induction fuel generalizing q with
  | zero =>
    have hnil : q.toList = [] := List.length_eq_zero_iff.mp (by omega)
    cases hc : q.crowded size with
    | false => simpa [evict] using hc
    | true =>
      rw [q.toList_pop (isEmpty_of_crowded hc)] at hnil
      cases hnil
  | succ fuel ih =>
    rw [evict]
    split
    · next hc =>
      apply ih q.drop
      rw [q.toList_pop (isEmpty_of_crowded hc), List.length_cons] at h
      exact Nat.le_of_succ_le_succ h
    · next hc => simpa using hc

@[simp] theorem toList_logDrops (q : DispatchQueue) (now : Int) :
    (q.logDrops now).toList = q.toList := by
  unfold logDrops
  split <;> rfl

/-- The queue is first in, first out, less the frames it dropped. -/
theorem toList_enqueue (q : DispatchQueue) (item : PendingSend) (now : Int) :
    q.toList ++ [item] = (q.enqueue item now).1 ++ (q.enqueue item now).2.toList := by
  have hlen : q.toList.length ≤ dispatchQueueSize := by
    rw [toList, Ring.length_toList]
    exact q.items.length_lt.le
  have hfree := full_evict item.data.length dispatchQueueSize q hlen
  simp only [crowded, Bool.or_eq_false_iff] at hfree
  simp only [enqueue, toList_logDrops]
  rw [toList_evict item.data.length dispatchQueueSize q, List.append_assoc]
  exact congrArg _ (Ring.toList_push _ item hfree.1).symm

end DispatchQueue

end Kitty.P2p
