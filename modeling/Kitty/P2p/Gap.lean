import Kitty.P2p.Delivery
import Kitty.P2p.Order

/-!
# What a client reads when the link loses datagrams

A frame that lost a chunk is left out and the TCP session is kept: neither an abandoned
reassembly nor a round of `cleanup_stale_connections` touches a socket, and the next frame
follows the last one written. What the clients read are whole frames in the order of their
sending; `src/consumer-srt-cloud/_legacy_libjuice_consumer_api.c:600–629,790–948`.
-/

namespace Kitty.P2p

open Kitty.Base

/-! ### A link that only loses -/

/-- No datagram is delivered twice or behind a later one. -/
def LossOnly (w : Downlink) : DownLabel → Prop
  | .deliver k _ => w.delivered ≤ k
  | _ => True

instance (w : Downlink) : (l : DownLabel) → Decidable (LossOnly w l)
  | .deliver _ _ => inferInstanceAs (Decidable (_ ≤ _))
  | .forward _ | .accept _ _ _ | .close _ | .cleanup _ => isTrue trivial

/-- The chunks of a connection are sent in order. -/
def Sender.InOrder (s : Sender) : Prop :=
  s.sent.Pairwise fun e e' ↦ e.1.conn = e'.1.conn →
    e.1.frame < e'.1.frame ∨ e.1.frame = e'.1.frame ∧ e.1.index < e'.1.index

theorem Sender.InOrder.step {s t : Sender} {l : SendLabel} (hi : s.Inv) (ho : s.Ordered)
    (hs : s.InOrder) (h : s.step false l = some t) : t.InOrder := by
  cases l with
  | read c data =>
    obtain ⟨-, rfl⟩ := step_read h
    exact hs
  | draw c =>
    obtain ⟨-, rfl⟩ := step_draw h
    exact hs
  | send c ok =>
    obtain ⟨seq, hseq, rfl⟩ := step_send h
    cases ok with
    | false => exact hs
    | true =>
      refine List.pairwise_append.mpr ⟨hs, List.pairwise_singleton _ _, ?_⟩
      intro e he e' he' hc
      rw [List.mem_singleton.mp he'] at hc ⊢
      dsimp only at hc ⊢
      have hlt := (hi.sent e he).frame_lt
      rw [hc] at hlt
      by_cases hlast : e.1.frame + 1 = (s.forwarders c).frames.length
      · -- The new chunk is the next one of the frame in the buffer.
        have hcur := ((ho.behind e he).current (hc ▸ hlast)).1
        have hoff := ((hi.ok c).drawn seq hseq).2
        have hdiv : (s.forwarders c).offset / maxChunkPayload =
            numChunks (s.forwarders c).offset := by
          rw [(hi.ok c).aligned hoff, Nat.mul_div_cancel _ maxChunkPayload_pos,
            ← (hi.ok c).aligned hoff]
        rw [hc] at hcur
        exact .inr ⟨by omega, hdiv ▸ hcur⟩
      · exact .inl (by omega)

/-- A chunk of a frame of the slot's connection was delivered. -/
def Downlink.Seen (w : Downlink) (i frame : Nat) : Prop :=
  ∃ j e, w.sender.sent[j]? = some e ∧ j < w.delivered ∧
    e.1.conn = (w.cam.connections i).connId ∧ e.1.frame = frame

/-- The frames handed over, and the one in progress, began with a datagram delivered. -/
structure Downlink.Heard (w : Downlink) : Prop where
  inOrder : w.sender.InOrder
  enqueued : ∀ i, ∀ p ∈ w.enqueued i, w.Seen i p.1
  progress : ∀ i, (w.cam.connections i).active → (w.cam.connections i).frameInProgress →
    w.Seen i (w.first i).frame

theorem Downlink.heard_start : Downlink.start.Heard :=
  ⟨by simp [start, Sender.start, Sender.InOrder], by simp [start], by
    intro i h
    cases h⟩

private theorem Downlink.Seen.mono {w t : Downlink} {i frame : Nat} (h : w.Seen i frame)
    (hs : w.sender.sent <+: t.sender.sent) (hd : w.delivered ≤ t.delivered)
    (hc : (t.cam.connections i).connId = (w.cam.connections i).connId) : t.Seen i frame := by
  obtain ⟨j, e, he, hj, hconn, hf⟩ := h
  exact ⟨j, e, getElem?_of_initial hs he, by omega, hc ▸ hconn, hf⟩

/-- A first chunk delivered in order begins a frame newer than all handed over. -/
theorem Downlink.Heard.firstFresh {w : Downlink} (h : w.Heard) {l : DownLabel}
    (hl : LossOnly w l) : FirstFresh w l := by
  cases l with
  | deliver k env =>
    intro e he i hi h0 p hp
    obtain ⟨j, e', he', hj, hconn, hf⟩ := h.enqueued i p hp
    obtain ⟨-, hfind⟩ := Downlink.slotOf_some hi
    obtain ⟨-, -, hid⟩ := CameraSession.findConnectionById_some hfind
    obtain ⟨hjl, rfl⟩ := List.getElem?_eq_some_iff.mp he'
    obtain ⟨hkl, rfl⟩ := List.getElem?_eq_some_iff.mp he
    have hjk : j < k := lt_of_lt_of_le hj hl
    rcases List.pairwise_iff_getElem.mp h.inOrder j k hjl hkl hjk (hconn.trans hid) with
      hlt | ⟨-, hlt⟩
    · omega
    · omega
  | _ => trivial

private theorem heard_deliver {w t : Downlink} (hi : w.sender.Inv) (hw : w.Heard) {k : Nat}
    {env : RecvEnv} (hl : LossOnly w (.deliver k env)) (h : w.step (.deliver k env) = some t) :
    t.Heard := by
  have hk1 : w.delivered ≤ k + 1 := Nat.le_succ_of_le hl
  obtain ⟨chunk, data, F, hk, hF, ⟨-, rfl⟩ | ⟨i, hs, rfl⟩⟩ := Downlink.step_deliver hi h
  · exact ⟨hw.inOrder, fun i p hp ↦ (hw.enqueued i p hp).mono (List.prefix_refl _) hk1 rfl,
      fun i ha hp ↦ (hw.progress i ha hp).mono (List.prefix_refl _) hk1 rfl⟩
  · obtain ⟨-, hfind⟩ := Downlink.slotOf_some hs
    obtain ⟨-, hact, hid⟩ := CameraSession.findConnectionById_some hfind
    generalize hd : chunkDatagram chunk.conn chunk.seq F chunk.index = d
    have hoff : d.offset ≠ 0 ↔ chunk.index ≠ 0 := by
      simp only [← hd, chunkDatagram, ne_eq, Nat.mul_eq_zero, maxChunkPayload_pos.ne', or_false]
    obtain ⟨hlater, hdone⟩ := (w.cam.connections i).receive_progress d env.now
    dsimp only
    generalize ht : ({ w.note i chunk ((w.cam.connections i).handed d env) with
      cam := w.cam.setConnection i ((w.cam.connections i).afterRecv d env)
      delivered := k + 1 } : Downlink) = t
    have hsent : t.sender = w.sender := by rw [← ht]; rfl
    have hdel : t.delivered = k + 1 := by rw [← ht]
    have hconn : ∀ j, (t.cam.connections j).connId = (w.cam.connections j).connId := by
      intro j
      rw [← ht]
      by_cases hj : j = i
      · subst hj
        simp [CameraSession.setConnection, Connection.afterRecv_connId]
      · simp [CameraSession.setConnection, Function.update_of_ne hj]
    have hmono : ∀ j frame, w.Seen j frame → t.Seen j frame := fun j frame hj ↦
      hj.mono (hsent ▸ List.prefix_refl _) (hdel ▸ hk1) (hconn j)
    -- The frame in progress, or just completed, began with this datagram or an earlier one.
    have hnew : ((w.cam.connections i).receive d env.now).1.frameInProgress = true ∨
        ((w.cam.connections i).receive d env.now).2.isSome →
        t.Seen i (if chunk.index = 0 then chunk else w.first i).frame := by
      intro hor
      by_cases h0 : chunk.index = 0
      · simp only [if_pos h0]
        refine ⟨k, (chunk, data), hsent ▸ hk, by omega, ?_, rfl⟩
        rw [hconn, hid]
      · simp only [if_neg h0]
        refine hmono i _ (hw.progress i hact ?_)
        rcases hor with hp | hs
        · exact hlater (hoff.mpr h0) hp
        · exact (hdone hs).2 (hoff.mpr h0)
    refine ⟨hsent ▸ hw.inOrder, ?_, ?_⟩
    · intro j p hp
      by_cases hj : j = i
      · subst hj
        rw [← ht, Downlink.enqueued_note] at hp
        rcases List.mem_append.mp hp with hp | hp
        · exact hmono j _ (hw.enqueued j p hp)
        · cases hh : (w.cam.connections j).handed d env with
          | none => simp [hh] at hp
          | some q =>
            simp only [hh, Option.map_some, Option.toList_some, List.mem_singleton] at hp
            rw [hp]
            exact hnew (.inr (Option.isSome_of_eq_some (Connection.receive_of_handed hh)))
      · rw [← ht, Downlink.enqueued_note_of_ne w hj] at hp
        exact hmono j _ (hw.enqueued j p hp)
    · intro j ha hp
      rw [← ht] at ha hp
      by_cases hj : j = i
      · subst hj
        simp only [CameraSession.setConnection, Function.update_self,
          Connection.afterRecv_progress] at hp
        have hfirst : t.first j = if chunk.index = 0 then chunk else w.first j := by
          rw [← ht]
          simp [Downlink.note]
        rw [hfirst]
        exact hnew (.inl hp)
      · simp only [CameraSession.setConnection, Function.update_of_ne hj] at ha hp
        have hfirst : t.first j = w.first j := by
          rw [← ht]
          simp [Downlink.note, Function.update_of_ne hj]
        rw [hfirst]
        exact hmono j _ (hw.progress j ha hp)

/-- Every event of a link that only loses keeps it so. -/
theorem Downlink.Heard.step {w t : Downlink} {l : DownLabel} (hi : w.Inv) (hw : w.Heard)
    (hl : LossOnly w l) (h : w.step l = some t) : t.Heard := by
  cases l with
  | forward l =>
    obtain ⟨s, hs, rfl⟩ := Option.map_eq_some_iff.mp h
    have hp := Sender.sent_step hs
    exact ⟨hw.inOrder.step hi.sender hi.ordered hs,
      fun i p hp' ↦ (hw.enqueued i p hp').mono hp le_rfl rfl,
      fun i ha hp' ↦ (hw.progress i ha hp').mono hp le_rfl rfl⟩
  | deliver k env => exact heard_deliver hi.sender hw hl h
  | accept fd buffers now =>
    obtain ⟨-, rfl | ⟨i, n, c, -, rfl, hc⟩⟩ := Downlink.step_accept h
    · exact hw
    · refine ⟨hw.inOrder, ?_, ?_⟩
      · intro j p hp
        by_cases hj : j = i
        · subst hj
          simp at hp
        · simp only [Function.update_of_ne hj] at hp
          refine (hw.enqueued j p hp).mono (List.prefix_refl _) le_rfl ?_
          simp [CameraSession.setConnection, Function.update_of_ne hj]
      · intro j ha hp
        by_cases hj : j = i
        · subst hj
          simp only [CameraSession.setConnection, Function.update_self] at hp
          rcases hc with rfl | ⟨buf, spare, rfl⟩ <;> cases hp
        · simp only [CameraSession.setConnection, Function.update_of_ne hj] at ha hp
          refine (hw.progress j ha hp).mono (List.prefix_refl _) le_rfl ?_
          simp [CameraSession.setConnection, Function.update_of_ne hj]
  | close i =>
    obtain ⟨c, hact, hid, rfl⟩ := Downlink.step_close h
    have hconn : ∀ j, ((w.cam.setConnection i c).connections j).connId =
        (w.cam.connections j).connId := by
      intro j
      by_cases hj : j = i
      · subst hj
        simpa [CameraSession.setConnection] using hid
      · simp [CameraSession.setConnection, Function.update_of_ne hj]
    refine ⟨hw.inOrder,
      fun j p hp ↦ (hw.enqueued j p hp).mono (List.prefix_refl _) le_rfl (hconn j),
      ?_⟩
    intro j ha hp
    by_cases hj : j = i
    · subst hj
      simp only [CameraSession.setConnection, Function.update_self, hact] at ha
      cases ha
    · simp only [CameraSession.setConnection, Function.update_of_ne hj] at ha hp
      exact (hw.progress j ha hp).mono (List.prefix_refl _) le_rfl (hconn j)
  | cleanup now =>
    cases h
    have hclean := w.cam.cleanup_same now
    refine ⟨hw.inOrder,
      fun j p hp ↦ (hw.enqueued j p hp).mono (List.prefix_refl _) le_rfl (hclean j).2.1,
      ?_⟩
    intro j ha hp
    exact (hw.progress j ((hclean j).1 ▸ ha) ((hclean j).2.2 hp)).mono (List.prefix_refl _) le_rfl
      (hclean j).2.1

/-! ### The clients -/

/-- What holds of a session and its clients in every reachable state. -/
structure Delivery.Inv (w : Delivery) : Prop where
  down : w.down.Inv
  heard : w.down.Heard
  rising : ∀ i, Rising (w.down.first i) (w.down.cam.connections i) (w.down.enqueued i)
  serves : ∀ i, (w.down.cam.connections i).active → w.clientOf i < w.accepted ∧
    (w.clients (w.clientOf i)).handed = w.down.enqueued i ∧
    (w.clients (w.clientOf i)).conn = (w.down.cam.connections i).connId
  own : ∀ i j, (w.down.cam.connections i).active → (w.down.cam.connections j).active →
    w.clientOf i = w.clientOf j → i = j
  fresh : ∀ k, w.accepted ≤ k → w.clients k = .start
  known : ∀ item ∈ w.waiting ++ w.callback.released, item.client < w.accepted
  handed : ∀ k, ((w.clients k).handed.map Prod.fst).Pairwise (· < ·) ∧
    ∀ e ∈ (w.clients k).handed,
      (w.down.sender.forwarders (w.clients k).conn).frames[e.1]? = some e.2
  stream : ∀ k, Streaming (w.clients k) (blocksFor k w.waiting) (w.part k)

theorem Delivery.inv_start : Delivery.start.Inv where
  down := Downlink.inv_start
  heard := Downlink.heard_start
  rising _ := ⟨by simp [start, Downlink.start], by simp [start, Downlink.start]⟩
  serves _ h := by cases h
  own _ _ h := by cases h
  fresh _ _ := rfl
  known := by simp [start, waiting, Callback.pending, Callback.released]
  handed _ := ⟨by simp [start, Client.start], by simp [start, Client.start]⟩
  stream _ := by simpa [start, waiting, Callback.pending, part] using Streaming.start

/-- The bytes taken of the frame being sent are the beginning of the first one waiting. -/
private theorem part_head (w : Delivery) (k : Nat) :
    w.part k = [] ∨ ∃ block rest, blocksFor k w.waiting = block :: rest ∧ w.part k <+: block := by
  unfold Delivery.part Delivery.waiting
  cases w.sending with
  | none => exact .inl rfl
  | some p =>
    by_cases h : p.1.client = k
    · refine .inr ⟨p.1.data, blocksFor k (w.queue.toList ++ w.callback.pending), ?_, ?_⟩
      · simp [blocksFor_cons, h]
      · simp only [if_pos h]
        exact List.take_prefix _ _
    · exact .inl (if_neg h)

/-- At any time a socket has taken whole frames and at most the beginning of a later one. -/
theorem Delivery.Inv.whole {w : Delivery} (hw : w.Inv) (k : Nat) :
    WholeFrames (w.clients k).handed (w.clients k).written :=
  (hw.stream k).whole (part_head w k)

private theorem inv_quiet {w : Delivery} {down : Downlink} (hw : w.Inv) (hq : Quiet w.down down)
    (hd : down.Inv) (hh : down.Heard)
    (hr : ∀ i, Rising (down.first i) (down.cam.connections i) (down.enqueued i)) :
    Delivery.Inv { w with down } where
  down := hd
  heard := hh
  rising := hr
  serves i ha := by
    obtain ⟨ha', hid, he⟩ := hq.slots i ha
    obtain ⟨hlt, hhand, hconn⟩ := hw.serves i ha'
    exact ⟨hlt, hhand.trans he.symm, hconn.trans hid.symm⟩
  own i j hi hj := hw.own i j (hq.slots i hi).1 (hq.slots j hj).1
  fresh := hw.fresh
  known := hw.known
  handed k := ⟨(hw.handed k).1, fun e he ↦ getElem?_of_initial (hq.frames _) ((hw.handed k).2 e he)⟩
  stream := hw.stream

/-- What a client keeps, all clients keep. -/
private theorem setClient_same {β : Type} (w : Delivery) {k : Nat} {c : Client} (f : Client → β)
    (h : f c = f (w.clients k)) (j : Nat) : f ((w.setClient k c).clients j) = f (w.clients j) := by
  by_cases hj : j = k
  · simp [Delivery.setClient, hj, h]
  · simp [Delivery.setClient, Function.update_of_ne hj]

/-- A client that is accepted is none of those to come. -/
private theorem setClient_beyond (w : Delivery) {k : Nat} (c : Client) (hk : k < w.accepted)
    {j : Nat} (hj : w.accepted ≤ j) : (w.setClient k c).clients j = w.clients j :=
  Function.update_of_ne (by omega) ..

private theorem inv_handOver {w : Delivery} {down : Downlink} {i : Nat} {e : Nat × Bytes}
    (hw : w.Inv) (hidle : w.callback = .idle) (hact : (w.down.cam.connections i).active = true)
    (hs : down.sender = w.down.sender)
    (hslots : ∀ j, (down.cam.connections j).active = (w.down.cam.connections j).active ∧
      (down.cam.connections j).connId = (w.down.cam.connections j).connId)
    (he : down.enqueued = Function.update w.down.enqueued i (w.down.enqueued i ++ [e]))
    (hd : down.Inv) (hh : down.Heard)
    (hr : ∀ i, Rising (down.first i) (down.cam.connections i) (down.enqueued i)) :
    Delivery.Inv { w.setClient (w.clientOf i) { w.clients (w.clientOf i) with
      handed := (w.clients (w.clientOf i)).handed ++ [e] } with
        down, callback := .enqueue ⟨w.clientOf i, e.2⟩ } := by
  obtain ⟨hlt, hhand, hconn⟩ := hw.serves i hact
  have hwait : w.waiting = (w.sending.map Prod.fst).toList ++ w.queue.toList := by
    simp [Delivery.waiting, hidle, Callback.pending]
  refine ⟨hd, hh, hr, ?_, ?_, ?_, ?_,
    ?_, ?_⟩
  · intro j ha
    rw [(hslots j).1] at ha
    obtain ⟨hlt', hhand', hconn'⟩ := hw.serves j ha
    refine ⟨hlt', ?_, ?_⟩
    · by_cases hj : j = i
      · subst hj
        simp [Delivery.setClient, he, hhand]
      · have hne : w.clientOf j ≠ w.clientOf i := fun h ↦ hj (hw.own j i ha hact h)
        simpa [Delivery.setClient, he, Function.update_of_ne hj, Function.update_of_ne hne] using
          hhand'
    · rw [(hslots j).2, ← hconn']
      by_cases hj : w.clientOf j = w.clientOf i
      · simp [Delivery.setClient, hj]
      · simp [Delivery.setClient, Function.update_of_ne hj]
  · intro j j' hj hj'
    rw [(hslots j).1] at hj
    rw [(hslots j').1] at hj'
    exact hw.own j j' hj hj'
  · intro k hk
    exact (setClient_beyond w _ hlt hk).trans (hw.fresh k hk)
  · intro item hi
    simp only [Delivery.waiting, Delivery.setClient, Callback.pending, Callback.released,
      List.append_nil, List.mem_append, List.mem_singleton] at hi
    rcases hi with hi | rfl
    · refine hw.known item (List.mem_append_left _ ?_)
      rw [hwait]
      exact List.mem_append.mpr hi
    · exact hlt
  · intro k
    by_cases hk : k = w.clientOf i
    · subst hk
      have hpair := (hr i).pairwise
      have henq := hd.enqueued i
      rw [he, Function.update_self, ← hhand] at hpair henq
      refine ⟨by simpa [Delivery.setClient] using hpair, ?_⟩
      intro p hp
      simp only [Delivery.setClient, Function.update_self] at hp ⊢
      rw [hconn, ← (hslots i).2]
      exact henq p hp
    · simp only [Delivery.setClient, Function.update_of_ne hk, hs]
      exact hw.handed k
  · intro k
    have hold := hw.stream k
    rw [hwait] at hold
    by_cases hk : k = w.clientOf i
    · subst hk
      have := hold.hand e
      simpa [Delivery.setClient, Delivery.waiting, Callback.pending, blocksFor_cons,
        Delivery.part] using this
    · simpa [Delivery.setClient, Delivery.waiting, Callback.pending, blocksFor_cons,
        Delivery.part, Function.update_of_ne hk, Ne.symm hk] using hold

private theorem gap_accept {w : Delivery} {i n : Nat} {c : Connection} (hw : w.Inv)
    (hd : Downlink.Inv { w.down with
      cam := { w.down.cam.setConnection i c with nextConnId := n }
      enqueued := Function.update w.down.enqueued i [] })
    (hh : Downlink.Heard { w.down with
      cam := { w.down.cam.setConnection i c with nextConnId := n }
      enqueued := Function.update w.down.enqueued i [] })
    (hr : ∀ j, Rising (w.down.first j) ((w.down.cam.setConnection i c).connections j)
      (Function.update w.down.enqueued i [] j)) :
    Delivery.Inv { w.setClient w.accepted { Client.start with conn := c.connId } with
      down := { w.down with
        cam := { w.down.cam.setConnection i c with nextConnId := n }
        enqueued := Function.update w.down.enqueued i [] }
      accepted := w.accepted + 1
      clientOf := Function.update w.clientOf i w.accepted } := by
  have hne : ∀ j, (w.down.cam.connections j).active → w.clientOf j ≠ w.accepted := fun j ha ↦
    (hw.serves j ha).1.ne
  refine ⟨hd, hh, hr, ?_, ?_, ?_, ?_,
    ?_, ?_⟩
  · intro j ha
    by_cases hj : j = i
    · subst hj
      simp [Delivery.setClient, CameraSession.setConnection, Client.start]
    · simp only [CameraSession.setConnection, Function.update_of_ne hj] at ha
      obtain ⟨hlt, hserves⟩ := hw.serves j ha
      simp only [Delivery.setClient, CameraSession.setConnection, Function.update_of_ne hj,
        Function.update_of_ne (hne j ha)]
      exact ⟨Nat.lt_succ_of_lt hlt, hserves⟩
  · intro j j' hj hj' heq
    by_cases h : j = i
    · by_cases h' : j' = i
      · rw [h, h']
      · subst h
        simp only [CameraSession.setConnection, Function.update_of_ne h'] at hj'
        simp only [Function.update_self, Function.update_of_ne h'] at heq
        exact absurd heq.symm (hne j' hj')
    · simp only [CameraSession.setConnection, Function.update_of_ne h] at hj
      by_cases h' : j' = i
      · subst h'
        simp only [Function.update_self, Function.update_of_ne h] at heq
        exact absurd heq (hne j hj)
      · simp only [CameraSession.setConnection, Function.update_of_ne h'] at hj'
        simp only [Function.update_of_ne h, Function.update_of_ne h'] at heq
        exact hw.own j j' hj hj' heq
  · intro k hk
    have hk' : k ≠ w.accepted := by
      rintro rfl
      exact absurd hk (Nat.not_succ_le_self _)
    simpa [Delivery.setClient, Function.update_of_ne hk'] using hw.fresh k (Nat.le_of_succ_le hk)
  · intro item hi
    exact Nat.lt_succ_of_lt (hw.known item hi)
  · intro k
    by_cases hk : k = w.accepted
    · subst hk
      simp [Delivery.setClient, Client.start]
    · simpa [Delivery.setClient, Function.update_of_ne hk] using hw.handed k
  · intro k
    by_cases hk : k = w.accepted
    · subst hk
      have hold := hw.stream w.accepted
      rw [hw.fresh _ le_rfl] at hold
      simp only [Delivery.setClient, Function.update_self]
      exact hold
    · simp only [Delivery.setClient, Function.update_of_ne hk]
      exact hw.stream k

/-- Outside the transport, only the way of the frames already handed over changes. -/
private theorem inv_inside {w t : Delivery} (hw : w.Inv) (hdown : t.down = w.down)
    (hacc : t.accepted = w.accepted) (hof : t.clientOf = w.clientOf)
    (hhand : ∀ k, (t.clients k).handed = (w.clients k).handed)
    (hconn : ∀ k, (t.clients k).conn = (w.clients k).conn)
    (hfresh : ∀ k, w.accepted ≤ k → t.clients k = w.clients k)
    (hknown : ∀ item ∈ t.waiting ++ t.callback.released,
      item ∈ w.waiting ++ w.callback.released)
    (hstream : ∀ k, Streaming (t.clients k) (blocksFor k t.waiting) (t.part k)) : t.Inv where
  down := hdown ▸ hw.down
  heard := hdown ▸ hw.heard
  rising := hdown ▸ hw.rising
  serves := by
    rw [hdown, hof, hacc]
    intro i ha
    rw [hhand, hconn]
    exact hw.serves i ha
  own := by
    rw [hdown, hof]
    exact hw.own
  fresh k hk := by
    rw [hacc] at hk
    rw [hfresh k hk]
    exact hw.fresh k hk
  known item hi := hacc ▸ hw.known item (hknown item hi)
  handed k := by
    rw [hdown, hhand, hconn]
    exact hw.handed k
  stream := hstream

private theorem inv_enqueue {w t : Delivery} {now : Int} (hw : w.Inv)
    (h : w.step (.enqueue now) = some t) : t.Inv := by
  simp only [Delivery.step] at h
  cases hcb : w.callback with
  | idle => simp [hcb] at h
  | release dropped => simp [hcb] at h
  | enqueue item =>
    simp only [hcb, Option.some.injEq] at h
    have hlist := w.queue.toList_enqueue item now
    generalize w.queue.enqueue item now = r at h hlist
    obtain ⟨dropped, queue⟩ := r
    dsimp only at h hlist
    have hpend : (if dropped = [] then Callback.idle else .release dropped).pending = [] := by
      split <;> rfl
    have hrel : (if dropped = [] then Callback.idle else .release dropped).released = dropped := by
      split
      · next hd => exact hd.symm
      · rfl
    have hwait : w.waiting = (w.sending.map Prod.fst).toList ++ (dropped ++ queue.toList) := by
      rw [← hlist, Delivery.waiting, hcb, List.append_assoc]
      rfl
    subst h
    refine inv_inside hw rfl rfl rfl (fun _ ↦ rfl) (fun _ ↦ rfl) ?_ ?_
      ?_
    · intro k hk
      -- A dropped frame is one of a client accepted before.
      have hany : dropped.any (·.client == k) = false := by
        rw [List.any_eq_false]
        intro i hi
        have := hw.known i (by
          rw [hwait]
          simp [hi])
        simp only [beq_iff_eq]
        omega
      simp [hany]
    · intro i hi
      simp only [Delivery.waiting, hpend, hrel, List.append_nil, List.mem_append] at hi
      rw [hwait]
      simp only [List.mem_append]
      tauto
    · intro k
      have hold := hw.stream k
      rw [hwait, blocksFor_append, blocksFor_append] at hold
      have hnew := hold.drop (dropped.any (·.client == k)) fun hd ↦ by
        simpa [blocksFor, List.any_eq_false] using hd
      simpa [Delivery.waiting, hpend, Delivery.part] using hnew

private theorem inv_release {w t : Delivery} (hw : w.Inv) (h : w.step .release = some t) :
    t.Inv := by
  simp only [Delivery.step] at h
  cases hcb : w.callback with
  | idle => simp [hcb] at h
  | enqueue item => simp [hcb] at h
  | release dropped =>
    cases dropped with
    | nil => simp [hcb] at h
    | cons item rest =>
      simp only [hcb, Option.some.injEq] at h
      have hpend : (if rest = [] then Callback.idle else .release rest).pending = [] := by
        split <;> rfl
      have hrel : (if rest = [] then Callback.idle else .release rest).released = rest := by
        split
        · next hd => exact hd.symm
        · rfl
      have hwait : w.waiting = (w.sending.map Prod.fst).toList ++ w.queue.toList := by
        simp [Delivery.waiting, hcb, Callback.pending]
      have hitem : item.client < w.accepted :=
        hw.known item (by simp [hcb, Callback.released])
      subst h
      refine inv_inside hw rfl rfl rfl (setClient_same w Client.handed rfl)
        (setClient_same w Client.conn rfl) (fun _ ↦ setClient_beyond w _ hitem) ?_
        ?_
      · intro i hi
        simp only [Delivery.waiting, Delivery.setClient, hpend, hrel, List.append_nil,
          List.mem_append] at hi
        rw [hwait, hcb]
        simp only [List.mem_append, Callback.released, List.mem_cons]
        tauto
      · intro k
        have hold := hw.stream k
        rw [hwait] at hold
        by_cases hk : k = item.client
        · subst hk
          simpa [Delivery.setClient, Delivery.waiting, hpend, Delivery.part] using hold.shutdown
        · simpa [Delivery.setClient, Delivery.waiting, hpend, Delivery.part,
            Function.update_of_ne hk] using hold

private theorem inv_dequeue {w t : Delivery} (hw : w.Inv) (h : w.step .dequeue = some t) :
    t.Inv := by
  simp only [Delivery.step] at h
  cases hs : w.sending with
  | some p => simp [hs] at h
  | none =>
    cases hq : w.queue.dequeue with
    | none => simp [hs, hq] at h
    | some r =>
      obtain ⟨item, queue⟩ := r
      simp only [hs, hq, Option.some.injEq] at h
      have hlist := DispatchQueue.toList_dequeue hq
      have hwait : w.waiting = item :: (queue.toList ++ w.callback.pending) := by
        simp [Delivery.waiting, hs, hlist]
      have hpart : ∀ k, w.part k = [] := fun k ↦ by simp [Delivery.part, hs]
      subst h
      refine inv_inside hw rfl rfl rfl (fun _ ↦ rfl) (fun _ ↦ rfl) (fun _ _ ↦ rfl) ?_
        ?_
      · intro i hi
        rw [hwait]
        by_cases hd : item.data = []
        · simp only [Delivery.waiting, hd, if_true] at hi
          simp only [List.cons_append, List.mem_cons, List.mem_append] at hi ⊢
          simp at hi
          tauto
        · simp only [Delivery.waiting, hd, if_false] at hi
          simpa using hi
      · intro k
        have hold := hw.stream k
        rw [hwait, hpart, blocksFor_cons] at hold
        by_cases hd : item.data = []
        · -- An empty frame is done at once.
          simp only [hd] at hold
          by_cases hk : item.client = k
          · simp only [if_pos hk, List.singleton_append] at hold
            simpa [Delivery.waiting, Delivery.part, hd] using hold.finish
          · simpa [Delivery.waiting, Delivery.part, hd, hk] using hold
        · simpa [Delivery.waiting, Delivery.part, hd, blocksFor_cons] using hold

private theorem inv_send {w t : Delivery} {n : Nat} (hw : w.Inv)
    (h : w.step (.send n) = some t) : t.Inv := by
  simp only [Delivery.step] at h
  cases hs : w.sending with
  | none => simp [hs] at h
  | some p =>
    obtain ⟨item, sent⟩ := p
    simp only [hs] at h
    split at h
    · next hg =>
      obtain ⟨hn, hle, hshut, hdead⟩ := hg
      simp only [Option.some.injEq] at h
      have hwait : w.waiting = item :: (w.queue.toList ++ w.callback.pending) := by
        simp [Delivery.waiting, hs]
      have hlt : item.client < w.accepted :=
        hw.known item (List.mem_append_left _ (by rw [hwait]; exact List.mem_cons_self ..))
      subst h
      refine inv_inside hw rfl rfl rfl (setClient_same w Client.handed rfl)
        (setClient_same w Client.conn rfl) (fun _ ↦ setClient_beyond w _ hlt) ?_
        ?_
      · intro i hi
        rw [hwait]
        simp only [Delivery.waiting, Delivery.setClient] at hi
        split at hi
        · exact List.mem_cons_of_mem _ (by simpa using hi)
        · simpa using hi
      · intro k
        have hold := hw.stream k
        rw [hwait, blocksFor_cons] at hold
        by_cases hk : k = item.client
        · subst hk
          simp only [if_true, List.singleton_append, Delivery.part, hs] at hold
          have hnew := hold.write hshut hdead n
          by_cases hend : sent + n = item.data.length
          · rw [hend, List.take_length] at hnew
            simpa [Delivery.setClient, Delivery.waiting, Delivery.part, hend] using hnew.finish
          · simpa [Delivery.setClient, Delivery.waiting, Delivery.part, hend, blocksFor_cons]
              using hnew
        · have hk' := Ne.symm hk
          by_cases hend : sent + n = item.data.length
          · simpa [Delivery.setClient, Delivery.waiting, Delivery.part, hend, hk', hs,
              Function.update_of_ne hk] using hold
          · simpa [Delivery.setClient, Delivery.waiting, Delivery.part, hend, hk', hs,
              blocksFor_cons, Function.update_of_ne hk] using hold
    · cases h

/-- The frame being sent is given up, on a socket that takes no more bytes. -/
private theorem inv_giveUp {w : Delivery} {item : PendingSend} {sent : Nat} {c : Client}
    (hw : w.Inv) (hs : w.sending = some (item, sent))
    (hhand : c.handed = (w.clients item.client).handed)
    (hconn : c.conn = (w.clients item.client).conn)
    (hwritten : c.written = (w.clients item.client).written)
    (hcut : c.shut = true ∨ c.dead = true) :
    Delivery.Inv { w.setClient item.client c with sending := none } := by
  have hwait : w.waiting = item :: (w.queue.toList ++ w.callback.pending) := by
    simp [Delivery.waiting, hs]
  have hlt : item.client < w.accepted :=
    hw.known item (List.mem_append_left _ (by rw [hwait]; exact List.mem_cons_self ..))
  refine inv_inside hw rfl rfl rfl (setClient_same w Client.handed hhand)
    (setClient_same w Client.conn hconn) (fun _ ↦ setClient_beyond w _ hlt) ?_
    ?_
  · intro i hi
    rw [hwait]
    exact List.mem_cons_of_mem _ (by simpa [Delivery.waiting, Delivery.setClient] using hi)
  · intro k
    by_cases hk : k = item.client
    · subst hk
      simpa [Delivery.setClient, Delivery.part] using
        Streaming.abandon (hw.whole _) hhand hwritten hcut
    · have hold := hw.stream k
      rw [hwait, blocksFor_cons] at hold
      simpa [Delivery.setClient, Delivery.waiting, Delivery.part, hs, Ne.symm hk,
        Function.update_of_ne hk] using hold

/-- The link loses datagrams only, and the numbers of those in flight do not wrap. -/
def Losing (w : Delivery) : DeliveryLabel → Prop
  | .link l => LossOnly w.down l ∧ NoWrap w.down l
  | _ => True

instance (w : Delivery) : (l : DeliveryLabel) → Decidable (Losing w l)
  | .link _ => inferInstanceAs (Decidable (_ ∧ _))
  | .enqueue _ | .release | .dequeue | .send _ | .fail | .stuck => isTrue trivial

theorem Delivery.Inv.step {w t : Delivery} {l : DeliveryLabel} (hc : Losing w l) (hw : w.Inv)
    (h : w.step l = some t) : t.Inv := by
  cases l with
  | link l =>
    obtain ⟨hl, hn⟩ := hc
    obtain ⟨down, hd, hcases⟩ := Delivery.step_link hw.down.sender h
    have hdown := hw.down.step hn hd
    have hheard := hw.heard.step hw.down hl hd
    have hrising := rising_step hw.down.sender hw.rising (hw.heard.firstFresh hl) hd
    rcases hcases with ⟨hq, rfl⟩ | ⟨hidle, i, e, hact, hs, hslots, he, rfl⟩ |
      ⟨i, c, n, hact, hid, rfl, rfl⟩
    · exact inv_quiet hw hq hdown hheard hrising
    · exact inv_handOver hw hidle hact hs hslots he hdown hheard hrising
    · exact gap_accept hw hdown hheard hrising
  | enqueue now => exact inv_enqueue hw h
  | release => exact inv_release hw h
  | dequeue => exact inv_dequeue hw h
  | send n => exact inv_send hw h
  | fail =>
    simp only [Delivery.step] at h
    cases hs : w.sending with
    | none => simp [hs] at h
    | some p =>
      simp only [hs, Option.some.injEq] at h
      exact h ▸ inv_giveUp hw hs rfl rfl rfl (.inr rfl)
  | stuck =>
    simp only [Delivery.step] at h
    cases hs : w.sending with
    | none => simp [hs] at h
    | some p =>
      simp only [hs, Option.some.injEq] at h
      exact h ▸ inv_giveUp hw hs rfl rfl rfl (.inl rfl)

/-- No event of the transport touches a socket. -/
private theorem link_socket {w t : Delivery} {l : DownLabel} (hw : w.Inv)
    (h : w.step (.link l) = some t) (k : Nat) :
    (t.clients k).written = (w.clients k).written ∧ (t.clients k).shut = (w.clients k).shut := by
  obtain ⟨down, -, ⟨-, rfl⟩ | ⟨-, i, e, -, -, -, -, rfl⟩ | ⟨i, c, n, -, -, -, rfl⟩⟩ :=
    Delivery.step_link hw.down.sender h
  · exact ⟨rfl, rfl⟩
  · by_cases hk : k = w.clientOf i
    · simp [Delivery.setClient, hk]
    · simp [Delivery.setClient, Function.update_of_ne hk]
  · by_cases hk : k = w.accepted
    · subst hk
      rw [hw.fresh _ le_rfl]
      simp [Delivery.setClient, Client.start]
    · simp [Delivery.setClient, Function.update_of_ne hk]

/-- Whatever datagrams are lost, a client's socket has taken, at any time, whole frames sent
on its connection, each at most once and in the order of their sending, and then at most
the beginning of a later one. The frames left out are those that lost a chunk and those the
queue has dropped. No loss and no cleanup touches a socket: as long as no send on it has
failed, it is not shut down and the queue has dropped none of its frames, it takes every
frame that arrives complete. -/
theorem written_wholeFrames {ls : List DeliveryLabel} {w : Delivery}
    (hc : Always Delivery.step Losing .start ls) (hr : run Delivery.step .start ls = some w)
    (k : Nat) :
    let c := w.clients k
    (c.handed.map Prod.fst).Pairwise (· < ·) ∧
    (∀ e ∈ c.handed, (w.down.sender.forwarders c.conn).frames[e.1]? = some e.2) ∧
    WholeFrames c.handed c.written ∧
    (c.shut = false → c.dead = false → c.dropped = false → blocksFor k w.waiting = [] →
      c.written = (c.handed.map Prod.snd).flatten) ∧
    ∀ l t, w.step (.link l) = some t →
      (t.clients k).written = c.written ∧ (t.clients k).shut = c.shut := by
  have hw : w.Inv := invariant_run Delivery.step (fun _ _ _ hl hs ht ↦ hs.step hl ht) hc
    Delivery.inv_start hr
  refine ⟨(hw.handed k).1, (hw.handed k).2, hw.whole k, ?_,
    fun l t ht ↦ link_socket hw ht k⟩
  intro hshut hdead hdrop hwait
  have hpart : w.part k = [] := by
    rcases part_head w k with hp | ⟨block, rest, hb, -⟩
    · exact hp
    · rw [hwait] at hb
      cases hb
  have hstream := hw.stream k
  rw [hwait, hpart] at hstream
  obtain ⟨done, rest, -, hrest, ho, hall⟩ | ⟨hcut, -⟩ := hstream
  · rw [List.map_eq_nil_iff.mp hrest, List.append_nil] at hall
    rw [ho, List.append_nil, hall hdrop]
  · simp [hshut, hdead] at hcut

/-- What the dispatch thread does for a frame of one byte. -/
def dispatchByte : List DeliveryLabel := [.enqueue 0, .dequeue, .send 1]

/-- Three frames of one chunk each, of which the second is lost. -/
def lostSecond : List DeliveryLabel :=
  [.link (.accept 5 (some (fun _ ↦ 0, fun _ ↦ 0)) 0),
    .link (.forward (.read 1 (lit "a"))), .link (.forward (.draw 1)),
    .link (.forward (.send 1 true)),
    .link (.forward (.read 1 (lit "b"))), .link (.forward (.draw 1)),
    .link (.forward (.send 1 true)),
    .link (.forward (.read 1 (lit "c"))), .link (.forward (.draw 1)),
    .link (.forward (.send 1 true)),
    .link (.deliver 0 ⟨1, 7, some fun _ ↦ 0⟩)] ++ dispatchByte ++
  [.link (.deliver 2 ⟨2, 8, none⟩)] ++ dispatchByte

theorem written_wholeFrames_lostSecond :
    ∃ w, run Delivery.step .start lostSecond = some w ∧
      (w.clients 0).written = ((w.clients 0).handed.map Prod.snd).flatten :=
  ⟨_, rfl, (written_wholeFrames (show Always Delivery.step Losing .start lostSecond by decide) rfl
    0).2.2.2.1 (by decide) (by decide) (by decide) (by decide)⟩

/-- The third frame is written behind the first one, and the socket was never shut down. -/
theorem written_lostSecond :
    ∃ w, run Delivery.step .start lostSecond = some w ∧
      Always Delivery.step Losing .start lostSecond ∧
      (w.down.sender.forwarders 1).frames = [lit "a", lit "b", lit "c"] ∧
      (w.clients 0).conn = 1 ∧ (w.clients 0).handed = [(0, lit "a"), (2, lit "c")] ∧
      (w.clients 0).written = lit "ac" ∧ (w.clients 0).shut = false ∧
      ¬ (w.clients 0).written <+: (w.down.sender.forwarders 1).frames.flatten :=
  ⟨_, rfl, by decide, by decide, by decide, by decide, by decide, by decide, by decide⟩

end Kitty.P2p
