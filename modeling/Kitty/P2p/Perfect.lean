import Kitty.P2p.Integrity

/-!
# A perfect link

The window of a frame is only as wide as the frame has chunks, while its numbers come from
a counter that all connections of the service share. So even a link that loses, repeats
and reorders nothing delivers every frame only as long as no other connection draws a
number between the first and the last one of a frame;
`src/provider-srt/_legacy_libjuice_provider_configurable.c:645–651`,
`src/consumer-srt-cloud/_legacy_libjuice_consumer_api.c:1022–1030`.
-/

namespace Kitty.P2p

open Kitty.Base

/-! ### Consecutive numbers -/

/-- How many numbers the thread has drawn for the frame in its buffer. -/
def Forwarder.drawn (f : Forwarder) : Nat :=
  numChunks f.offset + if f.seq.isSome then 1 else 0

/-- The thread is between the first and the last number of its frame. -/
def Forwarder.midFrame (f : Forwarder) : Prop :=
  0 < f.drawn ∧ f.drawn < numChunks f.buffer.length

instance (f : Forwarder) : Decidable f.midFrame := inferInstanceAs (Decidable (_ ∧ _))

section Consecutive

-- The connections whose frames are to arrive.
variable (Open : Nat → Prop)

/-- Every datagram leaves, and no number is drawn while another open connection is between
the first and the last one of a frame. -/
def Exclusive (s : Sender) : SendLabel → Prop
  | .draw c => ∀ c', Open c' → c' ≠ c → ¬ (s.forwarders c').midFrame
  | .send _ ok => ok = true
  | .read _ _ => True

/-- The numbers of each frame of an open connection follow each other without a gap. -/
structure Sender.Consecutive (s : Sender) : Prop where
  chunks : ∀ e ∈ s.sent, ∀ e' ∈ s.sent, Open e.1.conn → e.1.conn = e'.1.conn →
    e.1.frame = e'.1.frame → e.1.seq + e'.1.index = e'.1.seq + e.1.index
  next : ∀ e ∈ s.sent, Open e.1.conn →
    e.1.frame + 1 = (s.forwarders e.1.conn).frames.length →
    (s.forwarders e.1.conn).offset < (s.forwarders e.1.conn).buffer.length →
    e.1.seq + numChunks (s.forwarders e.1.conn).offset =
      (s.forwarders e.1.conn).next s.globalSeqNum + e.1.index
  drawn : ∀ c n, Open c → (s.forwarders c).seq = some n →
    numChunks (s.forwarders c).offset + 1 < numChunks (s.forwarders c).buffer.length →
    s.globalSeqNum = n + 1

variable {Open}

/-- A connection on which nothing was read may be opened. -/
theorem Sender.Consecutive.open {s : Sender} (hi : s.Inv) (h : s.Consecutive Open)
    {Open' : Nat → Prop} (ho : ∀ c, Open' c → Open c ∨ (s.forwarders c).frames = []) :
    s.Consecutive Open' := by
  have hsent : ∀ e ∈ s.sent, Open' e.1.conn → Open e.1.conn := by
    intro e he hc
    apply (ho _ hc).resolve_right
    intro hnil
    have := (hi.sent e he).frame_lt
    rw [hnil] at this
    exact absurd this (by simp)
  refine ⟨fun e he e' he' hc ↦ h.chunks e he e' he' (hsent e he hc),
    fun e he hc ↦ h.next e he (hsent e he hc), ?_⟩
  intro c n hc hn
  refine h.drawn c n ((ho c hc).resolve_right ?_) hn
  intro hnil
  have := ((hi.ok c).drawn n hn).2
  simp [Forwarder.buffer, hnil] at this

/-- An unfinished frame has chunks left to draw. -/
private theorem numChunks_offset_lt {c g : Nat} {f : Forwarder} (h : f.Ok c g)
    (hlt : f.offset < f.buffer.length) : numChunks f.offset < numChunks f.buffer.length := by
  apply (lt_numPieces_iff _ _ _ maxChunkPayload_pos).mpr
  rwa [← h.aligned hlt]

private theorem consecutive_draw {s t : Sender} {c : Nat} (hi : s.Inv) (ho : s.Ordered)
    (hs : s.Consecutive Open) (hx : Exclusive Open s (.draw c))
    (h : s.step false (.draw c) = some t) :
    t.Consecutive Open := by
  obtain ⟨⟨-, hnone⟩, rfl⟩ := Sender.step_draw h
  refine ⟨hs.chunks, ?_, ?_⟩
  · intro e he hc hlast hlt
    by_cases hd : e.1.conn = c
    · simp only [hd, Function.update_self, Forwarder.next, Option.getD_some] at hlast hlt ⊢
      have := hs.next e he hc (hd ▸ hlast) (hd ▸ hlt)
      rw [hd] at this
      simpa [Forwarder.next, hnone] using this
    · simp only [Function.update_of_ne hd] at hlast hlt ⊢
      rw [hs.next e he hc hlast hlt]
      cases hseq : (s.forwarders e.1.conn).seq with
      | some n => simp [Forwarder.next, hseq]
      | none =>
        -- The other thread has sent a chunk of an unfinished frame, so it is in the middle.
        refine absurd ⟨?_, ?_⟩ (hx e.1.conn hc hd)
        · have := ((ho.behind e he).current hlast).1
          simp only [Forwarder.drawn]
          omega
        · simpa [Forwarder.drawn, hseq] using numChunks_offset_lt (hi.ok _) hlt
  · intro d n hc hn hmore
    by_cases hd : d = c
    · subst hd
      simp only [Function.update_self, Option.some.injEq] at hn
      rw [← hn]
    · simp only [Function.update_of_ne hd] at hn hmore
      refine absurd ⟨?_, ?_⟩ (hx d hc hd)
      · simp [Forwarder.drawn, hn]
      · simpa [Forwarder.drawn, hn] using hmore

private theorem consecutive_send {s t : Sender} {c : Nat} (hi : s.Inv) (hs : s.Consecutive Open)
    (h : s.step false (.send c true) = some t) : t.Consecutive Open := by
  obtain ⟨seq, hseq, rfl⟩ := Sender.step_send h
  simp only [Bool.true_eq_false, false_and, if_false, if_true]
  have hok := hi.ok c
  have hlt := (hok.drawn seq hseq).2
  have ha := hok.aligned hlt
  have hadv := numChunks_advance hlt ha
  have hpos := List.length_pos_of_mem (Forwarder.buffer_mem hlt).1
  have hdiv : (s.forwarders c).offset / maxChunkPayload = numChunks (s.forwarders c).offset := by
    rw [ha, Nat.mul_div_cancel _ maxChunkPayload_pos, ← ha]
  have hnext : (s.forwarders c).next s.globalSeqNum = seq := by simp [Forwarder.next, hseq]
  -- The chunk just sent continues the numbers of its frame.
  have hnew : ∀ e ∈ s.sent, Open e.1.conn → e.1.conn = c →
      e.1.frame = (s.forwarders c).frames.length - 1 →
      e.1.seq + numChunks (s.forwarders c).offset = seq + e.1.index := by
    intro e he hopen hc hf
    have := hs.next e he hopen (by rw [hc]; omega) (by rw [hc]; exact hlt)
    rwa [hc, hnext] at this
  refine ⟨?_, ?_,
    ?_⟩
  · intro e he e' he' hopen hc hf
    rcases List.mem_append.mp he with he | he
    · rcases List.mem_append.mp he' with he' | he'
      · exact hs.chunks e he e' he' hopen hc hf
      · rw [List.mem_singleton.mp he'] at hc hf ⊢
        simpa only [hdiv] using hnew e he hopen hc hf
    · rw [List.mem_singleton.mp he] at hopen hc hf ⊢
      rcases List.mem_append.mp he' with he' | he'
      · simpa only [hdiv] using (hnew e' he' (hc ▸ hopen) hc.symm hf.symm).symm
      · rw [List.mem_singleton.mp he']
  · intro e he hopen hlast hlt'
    by_cases hd : e.1.conn = c
    · simp only [hd, Function.update_self, Forwarder.buffer] at hlast hlt' ⊢
      change _ < (s.forwarders c).buffer.length at hlt'
      rw [show (s.forwarders c).frames.getLast?.getD [] = (s.forwarders c).buffer from rfl, hadv]
      have hmore : numChunks (s.forwarders c).offset + 1 <
          numChunks (s.forwarders c).buffer.length := by
        apply (lt_numPieces_iff _ _ _ maxChunkPayload_pos).mpr
        rw [Nat.succ_mul, ← ha]
        simp only [Forwarder.buffer] at hlt' ⊢
        omega
      have hg := hs.drawn c seq (hd ▸ hopen) hseq hmore
      simp only [Forwarder.next, Option.getD_none]
      rcases List.mem_append.mp he with he | he
      · have := hnew e he hopen hd (by omega)
        omega
      · rw [List.mem_singleton.mp he]
        simp only [hdiv]
        omega
    · simp only [Function.update_of_ne hd] at hlast hlt' ⊢
      rcases List.mem_append.mp he with he | he
      · exact hs.next e he hopen hlast hlt'
      · rw [List.mem_singleton.mp he] at hd
        exact absurd rfl hd
  · intro d n hopen hn hmore
    by_cases hd : d = c
    · subst hd
      simp at hn
    · simp only [Function.update_of_ne hd] at hn hmore
      exact hs.drawn d n hopen hn hmore

theorem Sender.Consecutive.step {s t : Sender} {l : SendLabel} (hi : s.Inv) (ho : s.Ordered)
    (hs : s.Consecutive Open) (hx : Exclusive Open s l) (h : s.step false l = some t) :
    t.Consecutive Open := by
  cases l with
  | read c data =>
    obtain ⟨-, rfl⟩ := step_read h
    refine ⟨hs.chunks, ?_, ?_⟩
    · intro e he hc hlast hlt
      by_cases hd : e.1.conn = c
      · have hfr := (hi.sent e he).frame_lt
        simp only [hd, Function.update_self, List.length_append, List.length_singleton] at hlast hfr
        omega
      · simp only [Function.update_of_ne hd] at hlast hlt ⊢
        exact hs.next e he hc hlast hlt
    · intro d n hc hn hmore
      by_cases hd : d = c
      · subst hd
        simp at hn
      · simp only [Function.update_of_ne hd] at hn hmore
        exact hs.drawn d n hc hn hmore
  | draw c => exact consecutive_draw hi ho hs hx h
  | send c ok =>
    cases hx
    exact consecutive_send hi hs h

end Consecutive

/-! ### The order of the chunks -/

/-- The place behind a chunk: the next chunk of its frame, or the next frame. -/
def advance (F : Bytes) (m j : Nat) : Nat × Nat :=
  if j + 1 < numChunks F.length then (m, j + 1) else (m + 1, 0)

/-- The chunks lead from one place, a frame and a chunk of it, to another without a gap. -/
inductive Follows (frames : List Bytes) : Nat × Nat → List Chunk → Nat × Nat → Prop where
  | nil (p : Nat × Nat) : Follows frames p [] p
  | cons {F : Bytes} {k : Chunk} {ks : List Chunk} {q : Nat × Nat}
      (hF : frames[k.frame]? = some F) (h : Follows frames (advance F k.frame k.index) ks q) :
      Follows frames (k.frame, k.index) (k :: ks) q

/-- A further chunk at the place reached. -/
theorem Follows.append {frames : List Bytes} {F : Bytes} {ks : List Chunk}
    {p q : Nat × Nat} (h : Follows frames p ks q) (k : Chunk) (hq : q = (k.frame, k.index))
    (hF : frames[k.frame]? = some F) :
    Follows frames p (ks ++ [k]) (advance F k.frame k.index) := by
  induction h with
  | nil p =>
    subst hq
    exact .cons hF (.nil _)
  | cons hF' _ ih => exact .cons hF' (ih hq)

theorem Follows.mono {frames frames' : List Bytes} {ks : List Chunk} {p q : Nat × Nat}
    (h : Follows frames p ks q) (hf : frames <+: frames') : Follows frames' p ks q := by
  induction h with
  | nil p => exact .nil p
  | cons hF _ ih => exact .cons (getElem?_of_initial hf hF) ih

/-- The place of the next chunk a thread will send. -/
def Forwarder.place (f : Forwarder) : Nat × Nat :=
  if f.offset < f.buffer.length then (f.frames.length - 1, numChunks f.offset)
  else (f.frames.length, 0)

/-- The chunks of a connection behind the first `n` datagrams sent. -/
def Sender.pending (s : Sender) (n c : Nat) : List Chunk :=
  ((s.sent.drop n).map Prod.fst).filter fun k ↦ k.conn == c

private theorem place_send {f : Forwarder} {c g : Nat} (h : f.Ok c g)
    (hlt : f.offset < f.buffer.length) :
    Forwarder.place { f with
      offset := f.offset + min (f.buffer.length - f.offset) maxChunkPayload, seq := none } =
      advance f.buffer (f.frames.length - 1) (numChunks f.offset) := by
  have ha := h.aligned hlt
  have hadv := numChunks_advance hlt ha
  have hpos := List.length_pos_of_mem (Forwarder.buffer_mem hlt).1
  have hmore := lt_numPieces_iff maxChunkPayload f.buffer.length (numChunks f.offset + 1)
    maxChunkPayload_pos
  rw [Nat.succ_mul, ← ha] at hmore
  unfold Forwarder.place advance
  change (if f.offset + min (f.buffer.length - f.offset) maxChunkPayload < f.buffer.length
    then _ else _) = if _ < numPieces _ _ then _ else _
  rw [hadv]
  by_cases hlast : f.offset + maxChunkPayload < f.buffer.length
  · rw [if_pos (by omega), if_pos (hmore.mpr hlast)]
  · rw [if_neg (by omega), if_neg (by rwa [hmore]), Nat.sub_add_cancel hpos]

/-- The datagrams behind any of those sent lead to where the thread is. -/
theorem follows_step {Open : Nat → Prop} {s t : Sender} {l : SendLabel} (hi : s.Inv)
    (hx : Exclusive Open s l) (h : s.step false l = some t) {n c : Nat} {p : Nat × Nat}
    (hn : n ≤ s.sent.length)
    (hf : Follows (s.forwarders c).frames p (s.pending n c) (s.forwarders c).place) :
    Follows (t.forwarders c).frames p (t.pending n c) (t.forwarders c).place := by
  have hpre := Sender.frames_step h c
  cases l with
  | read d data =>
    obtain ⟨⟨-, hoff, hpos, -⟩, rfl⟩ := Sender.step_read h
    by_cases hd : c = d
    · subst hd
      have hplace : (s.forwarders c).place = ((s.forwarders c).frames.length, 0) := by
        simp [Forwarder.place, hoff]
      have hplace' : Forwarder.place ⟨(s.forwarders c).frames ++ [data], 0, none⟩ =
          ((s.forwarders c).frames.length, 0) := by
        rw [Forwarder.place, Forwarder.buffer_append, if_pos hpos]
        simp [numChunks, numPieces, maxChunkPayload, maxUdpPayload, headerSize]
      simp only [Function.update_self] at hpre ⊢
      rw [hplace', ← hplace]
      exact hf.mono hpre
    · simp only [Function.update_of_ne hd]
      exact hf
  | draw d =>
    obtain ⟨-, rfl⟩ := Sender.step_draw h
    by_cases hd : c = d
    · subst hd
      simp only [Function.update_self]
      exact hf
    · simp only [Function.update_of_ne hd]
      exact hf
  | send d ok =>
    cases hx
    obtain ⟨seq, hseq, rfl⟩ := Sender.step_send h
    simp only [Bool.true_eq_false, false_and, if_false, if_true] at hpre ⊢
    simp only [Sender.pending, List.drop_append_of_le_length hn, List.map_append,
      List.filter_append]
    by_cases hd : c = d
    · subst hd
      have hok := hi.ok c
      have hlt := (hok.drawn seq hseq).2
      have ha := hok.aligned hlt
      have hdiv : (s.forwarders c).offset / maxChunkPayload =
          numChunks (s.forwarders c).offset := by
        rw [ha, Nat.mul_div_cancel _ maxChunkPayload_pos, ← ha]
      have hplace : (s.forwarders c).place =
          ((s.forwarders c).frames.length - 1, numChunks (s.forwarders c).offset) := by
        rw [Forwarder.place, if_pos hlt]
      simp only [Function.update_self]
      rw [place_send hok hlt]
      have happ := hf.append
        ⟨c, (s.forwarders c).frames.length - 1, numChunks (s.forwarders c).offset, seq⟩
        hplace (Forwarder.buffer_mem hlt).2
      simpa [hdiv, Sender.pending] using happ
    · simp only [Function.update_of_ne hd]
      have hne : (d == c) = false := by simpa using Ne.symm hd
      simpa [hne, Sender.pending] using hf

/-! ### One connection -/

/-- A slot that can hand a frame over: it has a buffer, a spare and a socket. -/
structure Ready (c : Connection) : Prop where
  buffer : c.reassemblyBuffer.isSome
  spare : c.spareBuffer.isSome
  socket : 0 ≤ c.localSocket

/-- A slot that has taken the chunks before a place: nothing of the frame there, or its
first chunks and no others. -/
structure InStep (s : Sender) (c : Connection) (m j : Nat) : Prop where
  ready : Ready c
  idle : j = 0 → c.frameInProgress = false
  progress : 0 < j → c.frameInProgress = true ∧ ∃ F y, y.frame = m ∧ InFrame s y c F ∧
    (∀ i, c.chunkReceived i = decide (i < j)) ∧ j < numChunks F.length

/-- The chunk at the place of a slot is stored: the slot moves on within the frame, or hands
the frame over. -/
private theorem store_next {s : Sender} {y : Chunk} {c : Connection} {F : Bytes} (hr : Ready c)
    (hc : InFrame s y c F) (hp : c.frameInProgress = true) (hF : F.length ≤ bufferSize)
    (conn seq : Nat) {j : Nat} (hj : j < numChunks F.length)
    (hgot : ∀ i, c.chunkReceived i = decide (i < j)) :
    let d := chunkDatagram conn seq F j
    (c.store d).2 = (if j + 1 < numChunks F.length then none else some F) ∧
      if j + 1 < numChunks F.length then
        Ready (c.store d).1 ∧ (c.store d).1.frameInProgress = true ∧ InFrame s y (c.store d).1 F ∧
          ∀ i, (c.store d).1.chunkReceived i = decide (i < j + 1)
      else (c.store d).1.reassemblyBuffer.isSome ∧ (c.store d).1.spareBuffer = none ∧
        0 ≤ (c.store d).1.localSocket ∧ (c.store d).1.frameInProgress = false := by
  intro d
  have hrecv : ∀ i, (c.toReassembly.copy d).chunkReceived i = decide (i < j + 1) := by
    intro i
    simp only [Reassembly.copy, d, chunkDatagram_index]
    by_cases hi : i = j
    · subst hi
      simp
    · rw [Function.update_of_ne hi, hgot]
      simp only [decide_eq_decide]
      omega
  rcases c.store_cases hc.filling hF conn seq hj with ⟨hg, -⟩ | ⟨-, hfill, hcase⟩
  · rw [hgot] at hg
    simp at hg
  · have hfull := hfill.full_iff
    simp only [d] at hrecv
    simp only [hrecv, decide_eq_true_iff] at hfull
    have hsome : (c.toReassembly.copy d).reassemblyBuffer.isSome := by
      obtain ⟨buf, hbuf, -⟩ := hfill.2
      exact Option.isSome_iff_exists.mpr ⟨buf, hbuf⟩
    rcases hcase with ⟨hn, he⟩ | ⟨hy, he⟩
    · have hmore : j + 1 < numChunks F.length := by
        by_contra hle
        have := hfull.mpr fun i hi ↦ by omega
        rw [hn] at this
        cases this
      rw [if_pos hmore, if_pos hmore, he]
      exact ⟨rfl, ⟨hsome, hr.spare, hr.socket⟩, hp,
        ⟨hc.1, hc.2, hc.3, hc.4, hfill, hc.6, hc.7⟩, hrecv⟩
    · have hlast : ¬ j + 1 < numChunks F.length := fun hlt ↦ by
        have := hfull.mp hy (j + 1) hlt
        omega
      have hout := hfill.finish_some hy hr.socket hr.spare
      obtain ⟨spare, hspare⟩ := Option.isSome_iff_exists.mp hr.spare
      obtain ⟨buf, hbuf⟩ := Option.isSome_iff_exists.mp hsome
      have hspare' : (c.toReassembly.copy d).spareBuffer = some spare := hspare
      rw [if_neg hlast, if_neg hlast, he]
      refine ⟨hout, ?_, ?_, hr.socket, rfl⟩
      · simp only [Reassembly.finish_buffer]
        exact hsome
      · change ((c.toReassembly.copy d).finish c.localSocket).1.spareBuffer = none
        simp [Reassembly.finish, hbuf, hspare', hr.socket]

-- Under 32 bits the difference of two near numbers is their difference.
private theorem offset_add (y j : Nat) (hj : j < 2 ^ 32) :
    ((y + j) % 2 ^ 32 + 2 ^ 32 - y % 2 ^ 32) % 2 ^ 32 = j := by
  omega

/-- The next chunk of a slot is stored into the frame it belongs to. -/
private theorem receive_next {Open : Nat → Prop} {s : Sender} (hi : s.Inv)
    (hs : s.Consecutive Open) {k : Chunk} {data F : Bytes} {c : Connection} (ho : Open k.conn)
    (hk : (k, data) ∈ s.sent)
    (hF : (s.forwarders k.conn).frames[k.frame]? = some F) (hid : c.connId = k.conn)
    (hc : InStep s c k.frame k.index) (now : Int) :
    ∃ c' y, c.receive (chunkDatagram k.conn k.seq F k.index) now =
        c'.store (chunkDatagram k.conn k.seq F k.index) ∧ y.frame = k.frame ∧
      Ready c' ∧ c'.frameInProgress = true ∧ InFrame s y c' F ∧
      (∀ i, c'.chunkReceived i = decide (i < k.index)) ∧
      F.length ≤ bufferSize ∧ k.index < numChunks F.length := by
  obtain ⟨Fk, hFk, -, hle, hidx, -⟩ := hi.sent _ hk
  have hFF : Fk = F := Option.some.inj (hFk.symm.trans hF)
  subst hFF
  dsimp only at hidx
  by_cases h0 : k.index = 0
  · rw [h0] at hidx ⊢
    refine ⟨_, k, c.receive_first k.conn k.seq now hle hidx hc.ready.buffer, rfl, ?_, rfl, ?_, ?_,
      hle, hidx⟩
    · exact ⟨hc.ready.buffer, hc.ready.spare, hc.ready.socket⟩
    · exact ⟨⟨data, hk⟩, hid.symm, h0, hF, c.toReassembly.filling_newFrame Fk hc.ready.buffer,
        rfl, rfl⟩
    · simp [Connection.startFrame, Reassembly.newFrame]
  · obtain ⟨hp, F', y, hy, hin, hgot, -⟩ := hc.progress (by omega)
    have hcc : y.conn = k.conn := hin.conn.trans hid
    have hFF' : F' = Fk := by
      have := hin.frame
      rw [hcc, hy, hF] at this
      exact (Option.some.inj this).symm
    subst hFF'
    obtain ⟨dy, hdy⟩ := hin.sent
    -- The chunk's number is as far behind the first one as the chunk is.
    have hseq : y.seq + k.index = k.seq + y.index := hs.chunks _ hdy _ hk (hcc ▸ ho) hcc hy
    rw [hin.index, Nat.add_zero] at hseq
    have hmax := numChunks_le hle
    have hbits : maxChunksPerFrame < 2 ^ 32 := by decide
    have hoff : (k.seq % 2 ^ 32 + 2 ^ 32 - y.seq % 2 ^ 32) % 2 ^ 32 = k.index := by
      rw [← hseq]
      exact offset_add y.seq k.index (by omega)
    have hpos : F'.length ≠ 0 := by
      have := (lt_numPieces_iff _ _ _ maxChunkPayload_pos).mp hidx
      omega
    refine ⟨{ c with lastActivity := now, lastSeqNum := k.seq % 2 ^ 32 }, y, ?_, hy,
      ⟨hc.ready.1, hc.ready.2, hc.ready.3⟩, hp,
      ⟨hin.1, hin.2, hin.3, hin.4, hin.5, hin.6, hin.7⟩, hgot, hle, hidx⟩
    rw [c.receive_later k.conn k.seq now h0]
    obtain ⟨buf, hbuf⟩ := Option.isSome_iff_exists.mp hc.ready.buffer
    dsimp only
    rw [if_neg (by simp [hp, hin.filling.1, hbuf, List.length_eq_zero_iff.not.mp hpos]),
      if_neg (by rw [hin.startSeq, hin.chunks, hoff]; omega)]

/-- The next chunk moves a slot to the next place, and the last one hands the frame over. -/
theorem inStep_afterRecv {Open : Nat → Prop} {s : Sender} (hi : s.Inv)
    (hs : s.Consecutive Open) {k : Chunk} {data F : Bytes} {c : Connection} (ho : Open k.conn)
    (hk : (k, data) ∈ s.sent)
    (hF : (s.forwarders k.conn).frames[k.frame]? = some F) (hid : c.connId = k.conn)
    (hc : InStep s c k.frame k.index) {env : RecvEnv} (hdup : 0 ≤ env.dup)
    (hspare : env.spare.isSome) :
    let d := chunkDatagram k.conn k.seq F k.index
    c.handed d env = (if k.index + 1 < numChunks F.length then none else some (env.dup, F)) ∧
      InStep s (c.afterRecv d env) (advance F k.frame k.index).1 (advance F k.frame k.index).2 := by
  intro d
  obtain ⟨c', y, hrecv, hy, hr, hp, hin, hgot, hle, hidx⟩ :=
    receive_next hi hs ho hk hF hid hc env.now
  obtain ⟨hout, hnext⟩ := store_next hr hin hp hle k.conn k.seq hidx hgot
  have hlen : 0 < F.length := by
    have := (lt_numPieces_iff _ _ _ maxChunkPayload_pos).mp hidx
    omega
  obtain ⟨spare, hsp⟩ := Option.isSome_iff_exists.mp hspare
  simp only [Connection.handed, Connection.afterRecv, d, hrecv, advance]
  by_cases hmore : k.index + 1 < numChunks F.length
  · simp only [if_pos hmore] at hout hnext ⊢
    obtain ⟨hr', hp', hin', hgot'⟩ := hnext
    cases hst : c'.store (chunkDatagram k.conn k.seq F k.index) with
    | mk c'' out =>
      rw [hst] at hout hr' hp' hin' hgot'
      cases hout
      exact ⟨rfl, ⟨hr', by simp, fun _ ↦ ⟨hp', F, y, hy, hin', hgot', hmore⟩⟩⟩
  · simp only [if_neg hmore] at hout hnext ⊢
    obtain ⟨hbuf', hnone, hsock', hp'⟩ := hnext
    cases hst : c'.store (chunkDatagram k.conn k.seq F k.index) with
    | mk c'' out =>
      rw [hst] at hout hbuf' hnone hsock' hp'
      cases hout
      dsimp only at hbuf' hnone hsock' hp'
      simp only [hsp, Connection.attachSpare, hnone, Option.isNone_none, if_true]
      exact ⟨by simp [hdup, hlen], ⟨⟨hbuf', rfl, hsock'⟩, fun _ ↦ hp', by simp⟩⟩

/-! ### The whole session -/

/-- A perfect link and a consumer in good health: every datagram leaves and is delivered once
and in order, memory and descriptors are there, connection ids are not reused, and no frame
rests for longer than the cleanup allows. -/
def PerfectLink (w : Downlink) : DownLabel → Prop
  | .forward (.send _ ok) => ok = true
  | .forward _ => True
  | .deliver k env => k = w.delivered ∧ 0 ≤ env.dup ∧ env.spare.isSome
  | .accept _ buffers _ => buffers.isSome ∧ w.cam.findConnectionById w.cam.nextConnId = none ∧
      (w.sender.forwarders w.cam.nextConnId).frames = []
  | .close _ => True
  | .cleanup now => ∀ i < maxConnections, (w.cam.connections i).active = true →
      (w.cam.connections i).frameInProgress = true →
      now - (w.cam.connections i).lastActivity ≤ reassemblyTimeout

/-- No number is drawn while another open connection is between the first and the last number
of a frame. -/
def DrawAlone (w : Downlink) : DownLabel → Prop
  | .forward (.draw c) => ∀ i < maxConnections, (w.cam.connections i).active = true →
      (w.cam.connections i).connId ≠ c →
      ¬ (w.sender.forwarders (w.cam.connections i).connId).midFrame
  | _ => True

instance (w : Downlink) : (l : DownLabel) → Decidable (PerfectLink w l)
  | .forward (.send _ ok) => inferInstanceAs (Decidable (ok = true))
  | .forward (.read _ _) | .forward (.draw _) | .close _ => isTrue trivial
  | .deliver _ _ | .accept _ _ _ => inferInstanceAs (Decidable (_ ∧ _ ∧ _))
  | .cleanup _ => inferInstanceAs (Decidable (∀ _ < _, _))

instance (w : Downlink) : (l : DownLabel) → Decidable (DrawAlone w l)
  | .forward (.draw _) => inferInstanceAs (Decidable (∀ _ < _, _))
  | .forward (.read _ _) | .forward (.send _ _) | .deliver _ _ | .accept _ _ _ | .close _
  | .cleanup _ => isTrue trivial

/-- A connection is open while a slot is in use by it. -/
def Downlink.Open (w : Downlink) (c : Nat) : Prop :=
  ∃ i < maxConnections, (w.cam.connections i).active = true ∧ (w.cam.connections i).connId = c

/-- The frames read on the connection of a slot. -/
def Downlink.framesOf (w : Downlink) (i : Nat) : List Bytes :=
  (w.sender.forwarders (w.cam.connections i).connId).frames

/-- A slot has handed over the first `m` frames of its connection and taken the first `j`
chunks of the next one, and the datagrams in flight continue from there. -/
structure Tracks (w : Downlink) (i m j : Nat) : Prop where
  inStep : InStep w.sender (w.cam.connections i) m j
  follows : Follows (w.framesOf i) (m, j)
    (w.sender.pending w.delivered (w.cam.connections i).connId)
    (w.sender.forwarders (w.cam.connections i).connId).place
  count : (w.enqueued i).length = m
  frames : (w.enqueued i).map Prod.snd = (w.framesOf i).take m
  before : ∀ e ∈ w.sender.sent.take w.delivered, e.1.conn = (w.cam.connections i).connId →
    e.1.frame < m ∨ e.1.frame = m ∧ e.1.index < j

/-- What holds in every state a perfect link leads to. -/
structure Downlink.Perfect (w : Downlink) : Prop where
  sender : w.sender.Inv
  ordered : w.sender.Ordered
  consecutive : w.sender.Consecutive w.Open
  delivered_le : w.delivered ≤ w.sender.sent.length
  active : w.cam.active = true
  inUse : ∀ i, (w.cam.connections i).active → i < maxConnections
  unique : ∀ i j, (w.cam.connections i).active → (w.cam.connections j).active →
    (w.cam.connections i).connId = (w.cam.connections j).connId → i = j
  tracks : ∀ i, (w.cam.connections i).active → ∃ m j, Tracks w i m j

theorem Downlink.perfect_start : Downlink.start.Perfect := by
  refine ⟨Sender.inv_start, Sender.ordered_start,
    ⟨by simp [start, Sender.start], by simp [start, Sender.start],
      by simp [start, Sender.start, Forwarder.start]⟩, le_rfl, rfl, ?_, ?_, ?_⟩
  · intro i h
    cases h
  · intro i j h
    cases h
  · intro i h
    cases h

/-- The next datagram leaves the chunks in flight of its own connection only. -/
private theorem pending_deliver {s : Sender} {n : Nat} {k : Chunk} {data : Bytes}
    (h : s.sent[n]? = some (k, data)) (c : Nat) :
    s.pending n c = if k.conn = c then k :: s.pending (n + 1) c else s.pending (n + 1) c := by
  obtain ⟨hlt, hget⟩ := List.getElem?_eq_some_iff.mp h
  simp only [Sender.pending, List.drop_eq_getElem_cons hlt, hget, List.map_cons, List.filter_cons]
  by_cases hc : k.conn = c <;> simp [hc]

private theorem InStep.mono {s t : Sender} {c : Connection} {m j : Nat} (h : InStep s c m j)
    (hsent : s.sent <+: t.sent)
    (hf : ∀ d, (s.forwarders d).frames <+: (t.forwarders d).frames) : InStep t c m j := by
  refine ⟨h.ready, h.idle, ?_⟩
  intro hj
  obtain ⟨hp, F, y, hy, ⟨⟨data, hd⟩, hc, h0, hF, hrest⟩, hgot⟩ := h.progress hj
  exact ⟨hp, F, y, hy, ⟨⟨data, hsent.subset hd⟩, hc, h0, getElem?_of_initial (hf _) hF, hrest,
    ‹_›, ‹_›⟩, hgot⟩

private theorem take_of_initial {α : Type} {xs ys : List α} (h : xs <+: ys) {m : Nat}
    (hm : m ≤ xs.length) : ys.take m = xs.take m := by
  obtain ⟨rest, rfl⟩ := h
  exact List.take_append_of_le_length hm

private theorem Tracks.le {w : Downlink} {i m j : Nat} (h : Tracks w i m j) :
    m ≤ (w.framesOf i).length := by
  have := congrArg List.length h.frames
  rw [List.length_map, h.count, List.length_take] at this
  omega

private theorem perfect_forward {w : Downlink} {s : Sender} {l : SendLabel} (hw : w.Perfect)
    (hx : Exclusive w.Open w.sender l) (h : w.sender.step false l = some s) :
    Downlink.Perfect { w with sender := s } := by
  have hf := Sender.frames_step h
  have hsent := Sender.sent_step h
  refine ⟨hw.sender.step h, hw.ordered.step hw.sender h,
    hw.consecutive.step hw.sender hw.ordered hx h,
    hw.delivered_le.trans hsent.length_le, hw.active, hw.inUse, hw.unique, ?_⟩
  intro i hact
  obtain ⟨m, j, ht⟩ := hw.tracks i hact
  refine ⟨m, j, ht.inStep.mono hsent hf, follows_step hw.sender hx h hw.delivered_le ht.follows,
    ht.count, ?_, fun e he hc ↦ ht.before e ?_ hc⟩
  · rw [ht.frames]
    exact (take_of_initial (hf _) ht.le).symm
  · rwa [take_of_initial hsent hw.delivered_le] at he

/-- A datagram of another connection leaves a slot where it is. -/
private theorem Tracks.skip {w t : Downlink} {i m j : Nat} {k : Chunk} {data : Bytes}
    (h : Tracks w i m j) (hk : w.sender.sent[w.delivered]? = some (k, data))
    (hne : k.conn ≠ (w.cam.connections i).connId) (hs : t.sender = w.sender)
    (hd : t.delivered = w.delivered + 1) (hc : t.cam.connections i = w.cam.connections i)
    (he : t.enqueued i = w.enqueued i) : Tracks t i m j := by
  have hfr : t.framesOf i = w.framesOf i := by rw [Downlink.framesOf, hs, hc]; rfl
  refine ⟨by rw [hs, hc]; exact h.inStep, ?_, by rw [he]; exact h.count, ?_, ?_⟩
  · rw [hfr, hs, hd, hc]
    have := h.follows
    rwa [pending_deliver hk, if_neg hne] at this
  · rw [he, hfr]
    exact h.frames
  · intro e hmem hconn
    rw [hs, hd, List.take_add_one, hk] at hmem
    rw [hc] at hconn
    rcases List.mem_append.mp hmem with hmem | hmem
    · exact h.before e hmem hconn
    · rw [List.mem_singleton.mp hmem] at hconn
      exact absurd hconn hne

/-- The chunk at the place of a slot moves it to the next place. -/
private theorem Tracks.next {w t : Downlink} (hw : w.Perfect) {i m j : Nat} {k : Chunk}
    {data F : Bytes} (h : Tracks w i m j) (hk : w.sender.sent[w.delivered]? = some (k, data))
    (hF : (w.sender.forwarders k.conn).frames[k.frame]? = some F)
    (hid : (w.cam.connections i).connId = k.conn) (ho : w.Open k.conn) {env : RecvEnv}
    (hdup : 0 ≤ env.dup)
    (hspare : env.spare.isSome) (hs : t.sender = w.sender) (hd : t.delivered = w.delivered + 1)
    (hc : t.cam.connections i =
      (w.cam.connections i).afterRecv (chunkDatagram k.conn k.seq F k.index) env)
    (he : (t.enqueued i).map Prod.snd = (w.enqueued i).map Prod.snd ++
      (((w.cam.connections i).handed (chunkDatagram k.conn k.seq F k.index) env).map
        Prod.snd).toList) :
    ∃ m' j', Tracks t i m' j' := by
  have hid' : (t.cam.connections i).connId = (w.cam.connections i).connId := by
    rw [hc, Connection.afterRecv_connId]
  have hfr : t.framesOf i = w.framesOf i := by rw [Downlink.framesOf, hs, hid']; rfl
  have hfol := h.follows
  rw [pending_deliver hk, if_pos hid.symm] at hfol
  -- The chunk is the one at the place of the slot.
  obtain ⟨F', hF', hplace, hrest⟩ : ∃ F', (w.framesOf i)[k.frame]? = some F' ∧
      (m, j) = (k.frame, k.index) ∧ Follows (w.framesOf i) (advance F' k.frame k.index)
        (w.sender.pending (w.delivered + 1) (w.cam.connections i).connId)
        (w.sender.forwarders (w.cam.connections i).connId).place := by
    cases hfol with
    | cons hF' hrest => exact ⟨_, hF', rfl, hrest⟩
  have hFF : F' = F := by
    rw [Downlink.framesOf, hid, hF] at hF'
    exact (Option.some.inj hF').symm
  subst hFF
  obtain ⟨rfl, rfl⟩ := Prod.mk.inj hplace
  have hmem := List.mem_of_getElem? hk
  obtain ⟨hout, hstep⟩ :=
    inStep_afterRecv hw.sender hw.consecutive ho hmem hF hid h.inStep hdup hspare
  have hcount : (t.enqueued i).length = (advance F' k.frame k.index).1 ∧
      (t.enqueued i).map Prod.snd = (w.framesOf i).take (advance F' k.frame k.index).1 := by
    have hlen : (t.enqueued i).length = ((t.enqueued i).map Prod.snd).length := by simp
    have hold : (w.enqueued i).length = ((w.enqueued i).map Prod.snd).length := by simp
    rw [hlen, he, hout, h.frames, List.length_append, ← h.frames, List.length_map, h.count]
    unfold advance
    split
    · exact ⟨rfl, by simp [h.frames]⟩
    · refine ⟨rfl, ?_⟩
      rw [List.take_add_one, hF', h.frames]
      rfl
  refine ⟨(advance F' k.frame k.index).1, (advance F' k.frame k.index).2,
    by rw [hs, hc]; exact hstep,
    ?_, hcount.1, by rw [hfr]; exact hcount.2, ?_⟩
  · rw [hfr, hs, hd, hid']
    exact hrest
  · intro e hmem' hconn
    rw [hs, hd, List.take_add_one, hk] at hmem'
    rw [hid'] at hconn
    have hadv : ∀ a b : Nat, a < k.frame ∨ a = k.frame ∧ b ≤ k.index →
        a < (advance F' k.frame k.index).1 ∨
          a = (advance F' k.frame k.index).1 ∧ b < (advance F' k.frame k.index).2 := by
      intro a b hab
      unfold advance
      split <;> simp only <;> omega
    rcases List.mem_append.mp hmem' with hmem' | hmem'
    · have := h.before e hmem' hconn
      exact hadv _ _ (by omega)
    · rw [List.mem_singleton.mp hmem']
      exact hadv _ _ (.inr ⟨rfl, le_rfl⟩)

private theorem perfect_deliver {w t : Downlink} (hw : w.Perfect) {env : RecvEnv}
    (hdup : 0 ≤ env.dup) (hspare : env.spare.isSome)
    (h : w.step (.deliver w.delivered env) = some t) : t.Perfect := by
  obtain ⟨chunk, data, F, hk, hF, ⟨hs, rfl⟩ | ⟨i, hs, rfl⟩⟩ := Downlink.step_deliver hw.sender h
  · refine ⟨hw.sender, hw.ordered, hw.consecutive, (List.getElem?_eq_some_iff.mp hk).1, hw.active,
      hw.inUse, hw.unique, fun i hact ↦ ?_⟩
    obtain ⟨m, j, ht⟩ := hw.tracks i hact
    refine ⟨m, j, ht.skip hk ?_ rfl rfl rfl rfl⟩
    simp only [Downlink.slotOf, hw.active, if_true] at hs
    exact (CameraSession.findConnectionById_none hs (hw.inUse i hact) hact).symm
  · obtain ⟨-, hfind⟩ := Downlink.slotOf_some hs
    obtain ⟨hi, hact, hid⟩ := CameraSession.findConnectionById_some hfind
    have hsame := (w.cam.connections i).afterRecv_same
      (chunkDatagram chunk.conn chunk.seq F chunk.index) env
    have hconn : ∀ j, (Function.update w.cam.connections i ((w.cam.connections i).afterRecv
          (chunkDatagram chunk.conn chunk.seq F chunk.index) env) j).connId =
          (w.cam.connections j).connId ∧
        (Function.update w.cam.connections i ((w.cam.connections i).afterRecv
          (chunkDatagram chunk.conn chunk.seq F chunk.index) env) j).active =
          (w.cam.connections j).active := by
      intro j
      by_cases hj : j = i
      · subst hj
        simpa using hsame
      · simp [Function.update_of_ne hj]
    have hopen : ∀ c, (∃ j < maxConnections, (Function.update w.cam.connections i
        ((w.cam.connections i).afterRecv (chunkDatagram chunk.conn chunk.seq F chunk.index) env)
          j).active = true ∧ (Function.update w.cam.connections i ((w.cam.connections i).afterRecv
          (chunkDatagram chunk.conn chunk.seq F chunk.index) env) j).connId = c) → w.Open c :=
      fun c ⟨j, hj, hactj, hidj⟩ ↦ ⟨j, hj, (hconn j).2 ▸ hactj, (hconn j).1 ▸ hidj⟩
    refine ⟨hw.sender, hw.ordered, hw.consecutive.open hw.sender fun c hc ↦ .inl (hopen c hc),
      (List.getElem?_eq_some_iff.mp hk).1, hw.active,
      fun j hj ↦ hw.inUse j ((hconn j).2 ▸ hj), fun j j' hj hj' hjj ↦
        hw.unique j j' ((hconn j).2 ▸ hj) ((hconn j').2 ▸ hj') ?_, fun j hj ↦ ?_⟩
    · rw [← (hconn j).1, ← (hconn j').1]
      exact hjj
    · have hactj : (w.cam.connections j).active = true := (hconn j).2 ▸ hj
      obtain ⟨m, n, ht⟩ := hw.tracks j hactj
      by_cases hji : j = i
      · subst hji
        refine ht.next hw hk hF hid ⟨j, hi, hact, hid⟩ hdup hspare rfl rfl ?_ ?_
        · simp [CameraSession.setConnection]
        · simp only [Downlink.enqueued_note, List.map_append]
          cases (w.cam.connections j).handed
            (chunkDatagram chunk.conn chunk.seq F chunk.index) env <;> rfl
      · refine ⟨m, n, ht.skip hk ?_ rfl rfl ?_ ?_⟩
        · intro heq
          exact hji (hw.unique j i hactj hact (heq.symm.trans hid.symm))
        · simp [CameraSession.setConnection, Function.update_of_ne hji]
        · simp [Downlink.enqueued_note_of_ne w hji]

private theorem perfect_accept {w t : Downlink} (hw : w.Perfect) {fd now : Int}
    {buffers : Option (Buffer UInt8 × Buffer UInt8)}
    (hnew : w.cam.findConnectionById w.cam.nextConnId = none)
    (hfresh : (w.sender.forwarders w.cam.nextConnId).frames = [])
    (h : w.step (.accept fd buffers now) = some t) : t.Perfect := by
  obtain ⟨hfd, rfl | ⟨i, n, c, hslot, rfl, hc⟩⟩ := Downlink.step_accept h
  · exact hw
  · obtain ⟨hi, -⟩ := CameraSession.freeSlot_some hslot
    -- No slot in use has the new connection's id.
    have hother : ∀ j, (w.cam.connections j).active →
        (w.cam.connections j).connId ≠ w.cam.nextConnId := fun j hj ↦
      CameraSession.findConnectionById_none hnew (hw.inUse j hj) hj
    have hcid : c.active → c.connId = w.cam.nextConnId := by
      rcases hc with rfl | ⟨buf, spare, rfl⟩
      · intro hact
        cases hact
      · exact fun _ ↦ rfl
    refine ⟨hw.sender, hw.ordered, hw.consecutive.open hw.sender ?_, hw.delivered_le, hw.active,
      ?_, ?_, ?_⟩
    · rintro d ⟨j, hj, hactj, rfl⟩
      by_cases hji : j = i
      · subst hji
        simp only [CameraSession.setConnection, Function.update_self] at hactj ⊢
        rw [hcid hactj]
        exact .inr hfresh
      · simp only [CameraSession.setConnection, Function.update_of_ne hji] at hactj ⊢
        exact .inl ⟨j, hj, hactj, rfl⟩
    · intro j hj
      by_cases hji : j = i
      · exact hji ▸ hi
      · simp only [CameraSession.setConnection, Function.update_of_ne hji] at hj
        exact hw.inUse j hj
    · intro j j' hj hj' hjj
      simp only [CameraSession.setConnection] at hj hj' hjj
      by_cases hji : j = i <;> by_cases hji' : j' = i
      · rw [hji, hji']
      · subst hji
        rw [Function.update_self] at hj hjj
        rw [Function.update_of_ne hji'] at hj' hjj
        exact absurd (hjj.symm.trans (hcid hj)) (hother j' hj')
      · subst hji'
        rw [Function.update_self] at hj' hjj
        rw [Function.update_of_ne hji] at hj hjj
        exact absurd (hjj.trans (hcid hj')) (hother j hj)
      · rw [Function.update_of_ne hji] at hj hjj
        rw [Function.update_of_ne hji'] at hj' hjj
        exact hw.unique j j' hj hj' hjj
    · intro j hj
      by_cases hji : j = i
      · subst hji
        simp only [CameraSession.setConnection, Function.update_self] at hj
        rcases hc with rfl | ⟨buf, spare, rfl⟩
        · cases hj
        · -- Nothing was read on the new connection, so nothing of it is in flight.
          have hnone : ∀ e ∈ w.sender.sent, e.1.conn ≠ w.cam.nextConnId := by
            intro e he heq
            have := (hw.sender.sent e he).frame_lt
            rw [heq, hfresh] at this
            exact absurd this (by simp)
          have hpend : w.sender.pending w.delivered w.cam.nextConnId = [] := by
            apply List.filter_eq_nil_iff.mpr
            intro k hk
            obtain ⟨e, he, rfl⟩ := List.mem_map.mp hk
            simpa using hnone e (List.mem_of_mem_drop he)
          have hplace : (w.sender.forwarders w.cam.nextConnId).place = (0, 0) := by
            simp [Forwarder.place, Forwarder.buffer, hfresh]
          refine ⟨0, 0, ?_, ?_, ?_, ?_, ?_⟩
          · simp only [CameraSession.setConnection, Function.update_self]
            exact ⟨⟨rfl, rfl, hfd⟩, fun _ ↦ rfl, by simp⟩
          · simp only [Downlink.framesOf, CameraSession.setConnection, Function.update_self,
              CameraSession.opened, hpend, hplace]
            exact .nil _
          · simp
          · simp
          · intro e he hconn
            simp only [CameraSession.setConnection, Function.update_self,
              CameraSession.opened] at hconn
            exact absurd hconn (hnone e (List.mem_of_mem_take he))
      · simp only [CameraSession.setConnection, Function.update_of_ne hji] at hj
        obtain ⟨m, n, ht⟩ := hw.tracks j hj
        refine ⟨m, n, ?_, ?_, ?_, ?_, ?_⟩
        · simpa [CameraSession.setConnection, Function.update_of_ne hji] using ht.inStep
        · simpa [Downlink.framesOf, CameraSession.setConnection, Function.update_of_ne hji]
            using ht.follows
        · simpa [Function.update_of_ne hji] using ht.count
        · simpa [Downlink.framesOf, CameraSession.setConnection, Function.update_of_ne hji]
            using ht.frames
        · simpa [CameraSession.setConnection, Function.update_of_ne hji] using ht.before

private theorem perfect_close {w t : Downlink} (hw : w.Perfect) {i : Nat}
    (h : w.step (.close i) = some t) : t.Perfect := by
  obtain ⟨c, hact, -, rfl⟩ := Downlink.step_close h
  -- A slot still in use is another one.
  have hne : ∀ j, ((w.cam.setConnection i c).connections j).active = true → j ≠ i := by
    rintro j hj rfl
    simp [CameraSession.setConnection, hact] at hj
  have hsame : ∀ j, j ≠ i → (w.cam.setConnection i c).connections j = w.cam.connections j :=
    fun j hj ↦ by simp [CameraSession.setConnection, Function.update_of_ne hj]
  refine ⟨hw.sender, hw.ordered, hw.consecutive.open hw.sender ?_, hw.delivered_le, hw.active,
    ?_, ?_, ?_⟩
  · rintro d ⟨j, hj, hactj, rfl⟩
    have hn := hsame j (hne j hactj)
    rw [hn] at hactj ⊢
    exact .inl ⟨j, hj, hactj, rfl⟩
  · intro j hj
    have := hj
    rw [hsame j (hne j hj)] at this
    exact hw.inUse j this
  · intro j j' hj hj' hjj
    have hn := hne j hj
    have hn' := hne j' hj'
    rw [hsame j hn, hsame j' hn'] at hjj
    rw [hsame j hn] at hj
    rw [hsame j' hn'] at hj'
    exact hw.unique j j' hj hj' hjj
  · intro j hj
    have hn := hsame j (hne j hj)
    rw [hn] at hj
    obtain ⟨m, n, ht⟩ := hw.tracks j hj
    refine ⟨m, n, ?_, ?_, ht.count, ?_, ?_⟩
    · rw [hn]
      exact ht.inStep
    · simpa only [Downlink.framesOf, hn] using ht.follows
    · simpa only [Downlink.framesOf, hn] using ht.frames
    · simpa only [hn] using ht.before

/-- A cleanup that finds no frame at rest for too long changes nothing. -/
private theorem cleanup_eq {cam : CameraSession} {now : Int} (hin : ∀ i < maxConnections,
    (cam.connections i).active = true → (cam.connections i).frameInProgress = true →
      now - (cam.connections i).lastActivity ≤ reassemblyTimeout) :
    cam.cleanupStaleConnections now = cam := by
  have : (fun i ↦ if i < maxConnections then (cam.connections i).cleanup now
      else cam.connections i) = cam.connections := by
    funext i
    split
    · next hi =>
      rw [Connection.cleanup, if_neg]
      rintro ⟨hact, hp, hlong⟩
      have := hin i hi hact hp
      omega
    · rfl
  rw [CameraSession.cleanupStaleConnections, this]

/-- Every event of a perfect link keeps the slots in step, as long as threads draw alone. -/
theorem Downlink.Perfect.step {w t : Downlink} {l : DownLabel}
    (hc : PerfectLink w l ∧ DrawAlone w l)
    (hw : w.Perfect) (h : w.step l = some t) : t.Perfect := by
  obtain ⟨hp, hd⟩ := hc
  cases l with
  | forward l =>
    obtain ⟨s, hl, rfl⟩ := Option.map_eq_some_iff.mp h
    refine perfect_forward hw ?_ hl
    cases l with
    | read c data => trivial
    | draw c =>
      rintro c' ⟨i, hi, hact, rfl⟩ hne
      exact hd i hi hact hne
    | send c ok => exact hp
  | deliver k env =>
    obtain ⟨rfl, hdup, hspare⟩ := hp
    exact perfect_deliver hw hdup hspare h
  | accept fd buffers now => exact perfect_accept hw hp.2.1 hp.2.2 h
  | close i => exact perfect_close hw h
  | cleanup now =>
    cases h
    rw [cleanup_eq hp]
    exact hw

/-- Over a perfect link, when no connection draws in the middle of another one's frame, an open
connection hands over the frames sent on it once each and in order: a frame as soon as its
last chunk is delivered, and all of them when nothing is in flight and its thread is between
two reads. -/
theorem enqueued_of_perfectLink {ls : List DownLabel} {w : Downlink}
    (hc : Always Downlink.step (fun w l ↦ PerfectLink w l ∧ DrawAlone w l) .start ls)
    (hr : run Downlink.step .start ls = some w) (i : Nat)
    (hact : (w.cam.connections i).active = true) :
    (w.enqueued i).map Prod.snd <+: w.framesOf i ∧
      (∀ e ∈ w.sender.sent.take w.delivered, e.1.conn = (w.cam.connections i).connId →
        (∀ F, (w.framesOf i)[e.1.frame]? = some F → e.1.index + 1 = numChunks F.length) →
        e.1.frame < (w.enqueued i).length) ∧
      (w.delivered = w.sender.sent.length →
        (w.sender.forwarders (w.cam.connections i).connId).offset =
          (w.sender.forwarders (w.cam.connections i).connId).buffer.length →
        (w.enqueued i).map Prod.snd = w.framesOf i) := by
  have hw : w.Perfect :=
    invariant_run Downlink.step (fun _ _ _ hl hs ht ↦ hs.step hl ht) hc Downlink.perfect_start hr
  obtain ⟨m, j, ht⟩ := hw.tracks i hact
  refine ⟨ht.frames ▸ List.take_prefix _ _, ?_, ?_⟩
  · intro e he hconn hlast
    rw [ht.count]
    rcases ht.before e he hconn with hlt | ⟨heq, hidx⟩
    · exact hlt
    · obtain ⟨-, F, y, hy, hin, -, hj⟩ := ht.inStep.progress (by omega)
      have hF : (w.framesOf i)[e.1.frame]? = some F := by
        rw [Downlink.framesOf, ← hin.conn, heq, ← hy]
        exact hin.frame
      have := hlast F hF
      omega
  · intro hall hoff
    have hfol := ht.follows
    have hnil : w.sender.pending w.delivered (w.cam.connections i).connId = [] := by
      simp [Sender.pending, hall]
    have hplace : (w.sender.forwarders (w.cam.connections i).connId).place =
        ((w.framesOf i).length, 0) := by
      simp [Forwarder.place, hoff, Downlink.framesOf]
    rw [hnil, hplace] at hfol
    cases hfol
    rw [ht.frames, List.take_length]

/-- Two clients; a frame of two chunks for the first one, with its chunks sent by `labels`. -/
def twoClients (labels : List DownLabel) : List DownLabel :=
  .accept 5 (some (fun _ ↦ 0, fun _ ↦ 0)) 0 :: .accept 6 (some (fun _ ↦ 0, fun _ ↦ 0)) 0 ::
    .forward (.read 1 (List.replicate 1085 0)) :: .forward (.read 2 (lit "x")) :: labels

/-- A thread sends its next chunk. -/
def sendChunk (c : Nat) : List DownLabel := [.forward (.draw c), .forward (.send c true)]

/-- The three datagrams, delivered in order. -/
def deliverThree : List DownLabel :=
  [.deliver 0 ⟨1, 7, some fun _ ↦ 0⟩, .deliver 1 ⟨1, 8, some fun _ ↦ 0⟩,
    .deliver 2 ⟨1, 9, some fun _ ↦ 0⟩]

/-- The chunks of the first frame are drawn one after the other. -/
def drawnAlone : List DownLabel :=
  twoClients (sendChunk 1 ++ sendChunk 1 ++ sendChunk 2 ++ deliverThree)

theorem enqueued_of_perfectLink_drawnAlone :
    ∃ w, run Downlink.step .start drawnAlone = some w ∧
      (w.enqueued 0).map Prod.snd <+: w.framesOf 0 ∧
      (∀ e ∈ w.sender.sent.take w.delivered, e.1.conn = (w.cam.connections 0).connId →
        (∀ F, (w.framesOf 0)[e.1.frame]? = some F → e.1.index + 1 = numChunks F.length) →
        e.1.frame < (w.enqueued 0).length) ∧
      (w.delivered = w.sender.sent.length →
        (w.sender.forwarders (w.cam.connections 0).connId).offset =
          (w.sender.forwarders (w.cam.connections 0).connId).buffer.length →
        (w.enqueued 0).map Prod.snd = w.framesOf 0) := by
  obtain ⟨w, hr, hact⟩ := exists_run Downlink.step
    (fun w ↦ (w.cam.connections 0).active = true)
    (show (run Downlink.step .start drawnAlone).any _ = true by decide +kernel)
  have hc : Always Downlink.step (fun w l ↦ PerfectLink w l ∧ DrawAlone w l) .start drawnAlone := by
    decide +kernel
  exact ⟨w, hr, enqueued_of_perfectLink hc hr 0 hact⟩

/-- The second client's only chunk is drawn between the two of the first frame. -/
def drawnBetween : List DownLabel :=
  twoClients (sendChunk 1 ++ sendChunk 2 ++ sendChunk 1 ++ deliverThree)

/-- The first frame is never handed over, although the link delivered all of it in order. -/
theorem enqueued_drawnBetween :
    Always Downlink.step PerfectLink .start drawnBetween ∧
    ∃ w, run Downlink.step .start drawnBetween = some w ∧
      (w.cam.connections 0).active = true ∧ w.delivered = w.sender.sent.length ∧
      (w.framesOf 0).length = 1 ∧ w.enqueued 0 = [] :=
  ⟨by decide +kernel, exists_run Downlink.step _ (by decide +kernel)⟩

end Kitty.P2p
