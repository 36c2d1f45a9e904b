import Kitty.P2p.Integrity

/-!
# The order of the frames handed over

Only the chunks behind the first one are checked against the frame in progress: a first
chunk always starts its frame again, also when the slot has handed over that frame or a
later one. Without such stale first chunks the frames of a connection leave in the order of
their sending; `src/consumer-srt-cloud/_legacy_libjuice_consumer_api.c:994–1069`.
-/

namespace Kitty.P2p

open Kitty.Base

/-- No first chunk is delivered of a frame at or before the newest one its slot has handed
over. -/
def FirstFresh (w : Downlink) : DownLabel → Prop
  | .deliver k _ => ∀ e ∈ w.sender.sent[k]?, ∀ i ∈ w.slotOf e.1.conn,
      e.1.index = 0 → ∀ p ∈ w.enqueued i, p.1 < e.1.frame
  | _ => True

instance (w : Downlink) : (l : DownLabel) → Decidable (FirstFresh w l)
  | .deliver _ _ => inferInstanceAs (Decidable (∀ _ ∈ _, _))
  | .forward _ | .accept _ _ _ | .close _ | .cleanup _ => isTrue trivial

/-- The frames a slot has handed over rise, and so does the one in progress. -/
structure Rising (y : Chunk) (c : Connection) (enqueued : List (Nat × Bytes)) : Prop where
  pairwise : (enqueued.map Prod.fst).Pairwise (· < ·)
  progress : c.active → c.frameInProgress → ∀ p ∈ enqueued, p.1 < y.frame

/-! ### One connection -/

theorem Connection.store_progress (c : Connection) (d : Datagram) :
    ((c.store d).1.frameInProgress = true → c.frameInProgress = true) ∧
      ((c.store d).2.isSome → (c.store d).1.frameInProgress = false) := by
  unfold Connection.store
  split
  · dsimp only
    split <;> simp
  · simp

/-- A later chunk is stored, and a frame completed by it, only while one is in progress. -/
theorem Connection.receive_progress (c : Connection) (d : Datagram) (now : Int) :
    (d.offset ≠ 0 → (c.receive d now).1.frameInProgress = true → c.frameInProgress = true) ∧
      ((c.receive d now).2.isSome →
        (c.receive d now).1.frameInProgress = false ∧
          (d.offset ≠ 0 → c.frameInProgress = true)) := by
  unfold Connection.receive
  dsimp only
  split
  · simp
  · by_cases h0 : d.offset = 0
    · simp only [h0, ne_eq, not_true_eq_false, false_implies, if_true, true_and, and_true]
      split
      · simp
      · split
        · simp
        · exact (Connection.store_progress _ d).2
    · simp only [if_neg h0]
      split
      · simp
      · next hin =>
        have hp : c.frameInProgress = true := by
          cases hfp : c.frameInProgress with
          | true => rfl
          | false => simp [hfp] at hin
        split
        · simp
        · exact ⟨fun _ _ ↦ hp, fun h ↦ ⟨(Connection.store_progress _ d).2 h, fun _ ↦ hp⟩⟩

theorem Connection.afterRecv_progress (c : Connection) (d : Datagram) (env : RecvEnv) :
    (c.afterRecv d env).frameInProgress = (c.receive d env.now).1.frameInProgress := by
  unfold Connection.afterRecv
  cases c.receive d env.now with
  | mk c' frame =>
    cases frame with
    | none => cases env.spare <;> rfl
    | some frame =>
      cases env.spare with
      | none => rfl
      | some spare =>
        simp only [Connection.attachSpare]
        split <;> rfl

/-- Taking a chunk keeps the order, when a first chunk is newer than all handed over. -/
theorem rising_receive {y k : Chunk} {c : Connection} {enqueued : List (Nat × Bytes)}
    (h : Rising y c enqueued) (hact : c.active)
    (hfresh : k.index = 0 → ∀ p ∈ enqueued, p.1 < k.frame)
    (F : Bytes) (env : RecvEnv) :
    let d := chunkDatagram k.conn k.seq F k.index
    let y' := if k.index = 0 then k else y
    Rising y' (c.afterRecv d env)
      (enqueued ++ ((c.handed d env).map fun p ↦ (y'.frame, p.2)).toList) := by
  intro d y'
  obtain ⟨hlater, hdone⟩ := c.receive_progress d env.now
  have hoff : d.offset ≠ 0 ↔ k.index ≠ 0 := by
    simp only [d, chunkDatagram, ne_eq, Nat.mul_eq_zero, maxChunkPayload_pos.ne', or_false]
  -- The frame in progress, or just completed, is newer than all handed over.
  have hnew : (c.receive d env.now).1.frameInProgress = true ∨ (c.receive d env.now).2.isSome →
      ∀ p ∈ enqueued, p.1 < y'.frame := by
    intro hor
    by_cases h0 : k.index = 0
    · simpa only [y', if_pos h0] using hfresh h0
    · simp only [y', if_neg h0]
      apply h.progress hact
      rcases hor with hp | hs
      · exact hlater (hoff.mpr h0) hp
      · exact (hdone hs).2 (hoff.mpr h0)
  cases hh : c.handed d env with
  | none =>
    simp only [Option.map_none, Option.toList_none, List.append_nil]
    refine ⟨h.pairwise, fun _ hp ↦ hnew (.inl ?_)⟩
    rwa [Connection.afterRecv_progress] at hp
  | some p =>
    have hs := Option.isSome_of_eq_some (Connection.receive_of_handed hh)
    constructor
    · rw [List.map_append, List.pairwise_append]
      refine ⟨h.pairwise, by simp, ?_⟩
      intro a ha b hb
      obtain ⟨q, hq, rfl⟩ := List.mem_map.mp ha
      have hb' : b = y'.frame := by simpa using hb
      rw [hb']
      exact hnew (.inr hs) q hq
    · intro _ hp
      rw [Connection.afterRecv_progress, (hdone hs).1] at hp
      cases hp

/-! ### The whole session -/

private theorem rising_deliver {w t : Downlink} (hi : w.sender.Inv)
    (hw : ∀ i, Rising (w.first i) (w.cam.connections i) (w.enqueued i)) {k : Nat} {env : RecvEnv}
    (hc : FirstFresh w (.deliver k env)) (h : w.step (.deliver k env) = some t) :
    ∀ i, Rising (t.first i) (t.cam.connections i) (t.enqueued i) := by
  obtain ⟨chunk, data, F, hk, hF, ⟨-, rfl⟩ | ⟨i, hs, rfl⟩⟩ := Downlink.step_deliver hi h
  · exact hw
  · intro j
    obtain ⟨-, hfind⟩ := Downlink.slotOf_some hs
    obtain ⟨-, hact, -⟩ := CameraSession.findConnectionById_some hfind
    by_cases hj : j = i
    · subst hj
      have hr := rising_receive (hw j) hact (hc _ hk j hs) F env
      simp only [CameraSession.setConnection, Function.update_self, Downlink.enqueued_note]
      simpa only [Downlink.note, Function.update_self] using hr
    · simp only [CameraSession.setConnection, Function.update_of_ne hj,
        Downlink.enqueued_note_of_ne w hj]
      simpa only [Downlink.note, Function.update_of_ne hj] using hw j

/-- Every event keeps the order, when no stale first chunk is delivered. -/
theorem rising_step {w t : Downlink} {l : DownLabel} (hi : w.sender.Inv)
    (hw : ∀ i, Rising (w.first i) (w.cam.connections i) (w.enqueued i)) (hc : FirstFresh w l)
    (h : w.step l = some t) : ∀ i, Rising (t.first i) (t.cam.connections i) (t.enqueued i) := by
  cases l with
  | forward l =>
    obtain ⟨s, -, rfl⟩ := Option.map_eq_some_iff.mp h
    exact hw
  | deliver k env => exact rising_deliver hi hw hc h
  | accept fd buffers now =>
    obtain ⟨-, rfl | ⟨i, n, c, -, rfl, -⟩⟩ := Downlink.step_accept h
    · exact hw
    · intro j
      by_cases hj : j = i
      · subst hj
        exact ⟨by simp, by simp⟩
      · simpa [CameraSession.setConnection, Function.update_of_ne hj] using hw j
  | close i =>
    obtain ⟨c, hact, -, rfl⟩ := Downlink.step_close h
    intro j
    by_cases hj : j = i
    · subst hj
      refine ⟨(hw j).pairwise, ?_⟩
      intro h' _
      simp only [CameraSession.setConnection, Function.update_self, hact] at h'
      cases h'
    · simpa [CameraSession.setConnection, Function.update_of_ne hj] using hw j
  | cleanup now =>
    cases h
    intro j
    refine ⟨(hw j).pairwise, ?_⟩
    simp only [CameraSession.cleanupStaleConnections]
    split
    · simp only [Connection.cleanup]
      split
      · intro _ hp
        cases hp
      · exact (hw j).progress
    · exact (hw j).progress

/-- What a connection hands to the dispatch queue are frames sent on it, each at most once
and in the order of their sending, in every run in which the numbers do not wrap and no
first chunk is delivered of a frame at or before the newest one handed over. -/
theorem enqueued_increasing {ls : List DownLabel} {w : Downlink}
    (hc : Always Downlink.step (fun w l ↦ NoWrap w l ∧ FirstFresh w l) .start ls)
    (hr : run Downlink.step .start ls = some w) (i : Nat) :
    ((w.enqueued i).map Prod.fst).Pairwise (· < ·) ∧ ∀ e ∈ w.enqueued i,
      (w.sender.forwarders (w.cam.connections i).connId).frames[e.1]? = some e.2 := by
  have hstep : ∀ s l t, NoWrap s l ∧ FirstFresh s l →
      (s.Inv ∧ ∀ i, Rising (s.first i) (s.cam.connections i) (s.enqueued i)) →
      s.step l = some t →
      t.Inv ∧ ∀ i, Rising (t.first i) (t.cam.connections i) (t.enqueued i) :=
    fun s l t hl hs ht ↦ ⟨hs.1.step hl.1 ht, rising_step hs.1.sender hs.2 hl.2 ht⟩
  have hstart : ∀ i, Rising (Downlink.start.first i) (Downlink.start.cam.connections i)
      (Downlink.start.enqueued i) := fun i ↦ ⟨by simp [Downlink.start], by simp [Downlink.start]⟩
  have hboth := invariant_run Downlink.step hstep hc ⟨Downlink.inv_start, hstart⟩ hr
  exact ⟨(hboth.2 i).pairwise, hboth.1.enqueued i⟩

/-- Two frames of one chunk each, delivered in order. -/
def inOrder : List DownLabel :=
  [.accept 5 (some (fun _ ↦ 0, fun _ ↦ 0)) 0, .forward (.read 1 (lit "a")), .forward (.draw 1),
    .forward (.send 1 true), .forward (.read 1 (lit "b")), .forward (.draw 1),
    .forward (.send 1 true), .deliver 0 ⟨1, 7, some fun _ ↦ 0⟩, .deliver 1 ⟨2, 8, none⟩]

theorem enqueued_increasing_inOrder :
    ∃ w, run Downlink.step .start inOrder = some w ∧
      ((w.enqueued 0).map Prod.fst).Pairwise (· < ·) ∧ ∀ e ∈ w.enqueued 0,
        (w.sender.forwarders (w.cam.connections 0).connId).frames[e.1]? = some e.2 :=
  ⟨_, rfl, enqueued_increasing (show Always Downlink.step _ .start inOrder by decide) rfl 0⟩

/-- The same two frames with the first datagram delivered again behind the second. -/
def staleFirst : List DownLabel := inOrder.dropLast ++
  [.deliver 1 ⟨2, 8, some fun _ ↦ 0⟩, .deliver 0 ⟨3, 9, none⟩]

/-- The first of two frames is handed over before and behind the second one. -/
theorem enqueued_staleFirst :
    ∃ w, run Downlink.step .start staleFirst = some w ∧
      (w.sender.forwarders 1).frames = [lit "a", lit "b"] ∧
      w.enqueued 0 = [(0, lit "a"), (1, lit "b"), (0, lit "a")] ∧
      ¬ ((w.enqueued 0).map Prod.fst).Pairwise (· < ·) :=
  ⟨_, rfl, by decide, by decide, by decide⟩

end Kitty.P2p
