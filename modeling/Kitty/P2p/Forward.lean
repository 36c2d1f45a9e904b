import Kitty.Base.Bytes
import Kitty.Base.Fragment
import Kitty.Base.Run

/-!
# Datagrams and the threads that send them

The packet format and the two `forward_local_to_p2p` threads:
`src/provider-srt/_legacy_libjuice_provider_configurable.c:631–723` and
`src/consumer-srt-cloud/_legacy_libjuice_consumer_api.c:635–712`. Each read of the local
socket is one frame, cut into chunks that carry a sequence number drawn from a counter
which all connections of the service share.
-/

namespace Kitty.P2p

open Kitty.Base

/-- `BUFFER_SIZE`: the most bytes of one frame. -/
def bufferSize : Nat := 4194304

/-- `MAX_UDP_PAYLOAD`. -/
def maxUdpPayload : Nat := 1100

/-- `HEADER_SIZE`: connection id, sequence number, total size and offset. -/
def headerSize : Nat := 16

/-- `MAX_CHUNK_PAYLOAD`. -/
def maxChunkPayload : Nat := maxUdpPayload - headerSize

/-- `MAX_CHUNKS_PER_FRAME`: the bytes of a chunk bitmap. -/
def maxChunksPerFrame : Nat := bufferSize / maxChunkPayload + 2

/-- `MAX_CONNECTIONS`: the connection slots of a session. -/
def maxConnections : Nat := 64

/-- `REASSEMBLY_TIMEOUT`, in seconds. -/
def reassemblyTimeout : Int := 30

/-! ### Datagrams -/

/-- The fields of a datagram. -/
structure Datagram where
  connId : Nat
  seqNum : Nat
  totalSize : Nat
  offset : Nat
  payload : Bytes

/-- The receivers' reading of a datagram; a shorter one than a header is dropped. -/
def Datagram.parse (data : Bytes) : Option Datagram :=
  if data.length < headerSize then none
  else some ⟨readBe32 data 0, readBe32 data 4, readBe32 data 8, readBe32 data 12,
    data.drop headerSize⟩

/-- The packet a thread builds for the bytes of its buffer from `offset` on. -/
def packet (connId seq : Nat) (buffer : Bytes) (offset : Nat) : Bytes :=
  be32 connId ++ be32 seq ++ be32 buffer.length ++ be32 offset ++
    (buffer.drop offset).take (min (buffer.length - offset) maxChunkPayload)

/-- Every field comes back as it was written, in 32 bits. -/
theorem parse_packet (connId seq : Nat) (buffer : Bytes) (offset : Nat) :
    Datagram.parse (packet connId seq buffer offset) =
      some ⟨connId % 2 ^ 32, seq % 2 ^ 32, buffer.length % 2 ^ 32, offset % 2 ^ 32,
        (buffer.drop offset).take maxChunkPayload⟩ := by
  generalize hp : (buffer.drop offset).take (min (buffer.length - offset) maxChunkPayload) = rest
  have hrest : (buffer.drop offset).take maxChunkPayload = rest := by
    rw [← hp, min_comm, ← List.length_drop, List.take_eq_take_min]
  have hdata : packet connId seq buffer offset =
      be32 connId ++ (be32 seq ++ (be32 buffer.length ++ (be32 offset ++ rest))) := by
    simp [packet, hp]
  have h0 := readBe32_be32 [] (be32 seq ++ (be32 buffer.length ++ (be32 offset ++ rest))) connId
  have h4 := readBe32_be32 (be32 connId) (be32 buffer.length ++ (be32 offset ++ rest)) seq
  have h8 := readBe32_be32 (be32 connId ++ be32 seq) (be32 offset ++ rest) buffer.length
  have h12 := readBe32_be32 (be32 connId ++ be32 seq ++ be32 buffer.length) rest offset
  simp only [List.nil_append, List.append_assoc, List.length_append, length_be32,
    List.length_nil, Nat.reduceAdd] at h0 h4 h8 h12
  have hlen : ¬ (packet connId seq buffer offset).length < headerSize := by
    simp only [hdata, List.length_append, length_be32, headerSize]
    omega
  rw [Datagram.parse, if_neg hlen, hdata, h0, h4, h8, h12, hrest]
  rfl

/-! ### Forwarding threads -/

/-- A chunk as it was sent: its connection, its frame among those read on it, its place in
that frame, and the number drawn for it, before it is cut to 32 bits. -/
structure Chunk where
  conn : Nat
  frame : Nat
  index : Nat
  seq : Nat
deriving DecidableEq

/-- One `forward_local_to_p2p` thread: the frames it has read, of which the last is in its
buffer, the offset of the next chunk, and the number drawn for that chunk. -/
structure Forwarder where
  frames : List Bytes
  offset : Nat
  seq : Option Nat

/-- The bytes of the last read. -/
def Forwarder.buffer (f : Forwarder) : Bytes := f.frames.getLast?.getD []

/-- A thread that has read nothing. -/
def Forwarder.start : Forwarder := ⟨[], 0, none⟩

/-- The sending side of a session: the counter of sequence numbers, one thread for each
connection id, and the datagrams given to `juice_send` in order. -/
structure Sender where
  globalSeqNum : Nat
  forwarders : Nat → Forwarder
  sent : List (Chunk × Bytes)

/-- A session in which nothing was read. -/
def Sender.start : Sender := ⟨0, fun _ ↦ .start, []⟩

/-- What a forwarding thread does next: `recv` on its socket, the atomic draw of a number,
or `juice_send` with its outcome. -/
inductive SendLabel where
  | read (c : Nat) (data : Bytes)
  | draw (c : Nat)
  | send (c : Nat) (ok : Bool)

/-- One step of the thread of a connection. A failed `juice_send` costs the provider the one
chunk, and the consumer, which `breaks` out of its loop, the rest of the frame. -/
def Sender.step (breaks : Bool) (s : Sender) : SendLabel → Option Sender
  | .read c data =>
    let f := s.forwarders c
    if c < 2 ^ 32 ∧ f.offset = f.buffer.length ∧ 0 < data.length ∧ data.length ≤ bufferSize then
      some { s with
        forwarders := Function.update s.forwarders c ⟨f.frames ++ [data], 0, none⟩ }
    else none
  | .draw c =>
    let f := s.forwarders c
    if f.offset < f.buffer.length ∧ f.seq = none then
      some { s with
        globalSeqNum := s.globalSeqNum + 1
        forwarders := Function.update s.forwarders c { f with seq := some s.globalSeqNum } }
    else none
  | .send c ok =>
    let f := s.forwarders c
    match f.seq with
    | none => none
    | some seq =>
      let chunkSize := min (f.buffer.length - f.offset) maxChunkPayload
      let offset := if ok = false ∧ breaks then f.buffer.length else f.offset + chunkSize
      let chunk : Chunk := ⟨c, f.frames.length - 1, f.offset / maxChunkPayload, seq⟩
      some { s with
        forwarders := Function.update s.forwarders c { f with offset, seq := none }
        sent := if ok then s.sent ++ [(chunk, packet c seq f.buffer f.offset)] else s.sent }

/-! ### What the threads have sent -/

/-- How many chunks a frame is sent in. -/
def numChunks (size : Nat) : Nat := numPieces maxChunkPayload size

/-- A lower bound of the numbers the thread will still send. -/
def Forwarder.next (f : Forwarder) (globalSeqNum : Nat) : Nat := f.seq.getD globalSeqNum

/-- The variables of a thread between its steps. -/
structure Forwarder.Ok (c : Nat) (f : Forwarder) (globalSeqNum : Nat) : Prop where
  sized : ∀ F ∈ f.frames, c < 2 ^ 32 ∧ 0 < F.length ∧ F.length ≤ bufferSize
  offset_le : f.offset ≤ f.buffer.length
  aligned : f.offset < f.buffer.length → f.offset = numChunks f.offset * maxChunkPayload
  drawn : ∀ n, f.seq = some n → n < globalSeqNum ∧ f.offset < f.buffer.length

/-- A datagram is the packet of a chunk of a frame its thread has read. -/
def SentOk (f : Forwarder) (e : Chunk × Bytes) : Prop :=
  ∃ F, f.frames[e.1.frame]? = some F ∧ e.1.conn < 2 ^ 32 ∧ F.length ≤ bufferSize ∧
    e.1.index < numChunks F.length ∧
    e.2 = packet e.1.conn e.1.seq F (e.1.index * maxChunkPayload)

/-- The numbers still to be sent lie behind the rest of the frame of a sent chunk. -/
structure Behind (f : Forwarder) (globalSeqNum : Nat) (k : Chunk) : Prop where
  older : ∀ F, f.frames[k.frame]? = some F → k.frame + 1 < f.frames.length →
    k.seq + (numChunks F.length - k.index) ≤ f.next globalSeqNum
  current : k.frame + 1 = f.frames.length →
    k.index < numChunks f.offset ∧
      k.seq + (numChunks f.offset - k.index) ≤ f.next globalSeqNum

/-- Chunks of a later frame have numbers behind the rest of an earlier one. -/
def Precedes (f : Forwarder) (k l : Chunk) : Prop :=
  k.frame < l.frame → ∀ F, f.frames[k.frame]? = some F →
    k.seq + (numChunks F.length - k.index) ≤ l.seq

/-! ### One step of a thread -/

theorem Sender.step_read {breaks : Bool} {s t : Sender} {c : Nat} {data : Bytes}
    (h : s.step breaks (.read c data) = some t) :
    (c < 2 ^ 32 ∧ (s.forwarders c).offset = (s.forwarders c).buffer.length ∧ 0 < data.length ∧
      data.length ≤ bufferSize) ∧
    t = { s with forwarders :=
      Function.update s.forwarders c ⟨(s.forwarders c).frames ++ [data], 0, none⟩ } := by
  simp only [Sender.step] at h
  split at h
  · next hg => exact ⟨hg, (Option.some.inj h).symm⟩
  · cases h

theorem Sender.step_draw {breaks : Bool} {s t : Sender} {c : Nat}
    (h : s.step breaks (.draw c) = some t) :
    ((s.forwarders c).offset < (s.forwarders c).buffer.length ∧ (s.forwarders c).seq = none) ∧
    t = { s with
      globalSeqNum := s.globalSeqNum + 1
      forwarders := Function.update s.forwarders c
        { s.forwarders c with seq := some s.globalSeqNum } } := by
  simp only [Sender.step] at h
  split at h
  · next hg => exact ⟨hg, (Option.some.inj h).symm⟩
  · cases h

theorem Sender.step_send {breaks : Bool} {s t : Sender} {c : Nat} {ok : Bool}
    (h : s.step breaks (.send c ok) = some t) :
    ∃ seq, (s.forwarders c).seq = some seq ∧
    t = { s with
      forwarders := Function.update s.forwarders c
        { s.forwarders c with
          offset := if ok = false ∧ breaks then (s.forwarders c).buffer.length
            else (s.forwarders c).offset +
              min ((s.forwarders c).buffer.length - (s.forwarders c).offset) maxChunkPayload
          seq := none }
      sent := if ok then s.sent ++ [(⟨c, (s.forwarders c).frames.length - 1,
          (s.forwarders c).offset / maxChunkPayload, seq⟩,
          packet c seq (s.forwarders c).buffer (s.forwarders c).offset)] else s.sent } := by
  simp only [Sender.step] at h
  split at h
  · cases h
  · next seq hs => exact ⟨seq, hs, (Option.some.inj h).symm⟩

/-! ### What every step keeps -/

theorem maxChunkPayload_pos : 0 < maxChunkPayload := by decide

theorem Forwarder.buffer_append (frames : List Bytes) (data : Bytes) (offset : Nat)
    (seq : Option Nat) : Forwarder.buffer ⟨frames ++ [data], offset, seq⟩ = data := by
  simp [Forwarder.buffer]

/-- A thread with something left to send has a frame. -/
theorem Forwarder.buffer_mem {f : Forwarder} (h : f.offset < f.buffer.length) :
    f.buffer ∈ f.frames ∧ f.frames[f.frames.length - 1]? = some f.buffer := by
  cases hl : f.frames.getLast? with
  | none => simp [Forwarder.buffer, hl] at h
  | some F =>
    have hb : f.buffer = F := by simp [Forwarder.buffer, hl]
    rw [hb, ← List.getLast?_eq_getElem?]
    exact ⟨List.mem_of_getLast? hl, hl⟩

/-- Numbers drawn by other threads do not disturb a thread. -/
theorem Forwarder.Ok.mono {c g g' : Nat} {f : Forwarder} (h : f.Ok c g) (hg : g ≤ g') : f.Ok c g' :=
  ⟨h.sized, h.offset_le, h.aligned,
    fun n hn ↦ ⟨by have := (h.drawn n hn).1; omega, (h.drawn n hn).2⟩⟩

theorem getElem?_of_initial {α : Type} {xs ys : List α} (h : xs <+: ys) {i : Nat} {x : α}
    (hx : xs[i]? = some x) : ys[i]? = some x := by
  obtain ⟨rest, rfl⟩ := h
  rw [List.getElem?_append_left (List.getElem?_eq_some_iff.mp hx).1, hx]

/-- A datagram stays the packet of its chunk while frames are added. -/
theorem SentOk.mono {f f' : Forwarder} {e : Chunk × Bytes} (h : SentOk f e)
    (hf : f.frames <+: f'.frames) : SentOk f' e := by
  obtain ⟨F, hF, hrest⟩ := h
  exact ⟨F, getElem?_of_initial hf hF, hrest⟩

/-- Sending one chunk moves the offset to the next one. -/
theorem numChunks_advance {offset size : Nat} (hlt : offset < size)
    (ha : offset = numChunks offset * maxChunkPayload) :
    numChunks (offset + min (size - offset) maxChunkPayload) = numChunks offset + 1 := by
  have hp := maxChunkPayload_pos
  apply numPieces_eq _ _ (numChunks offset) hp
  · rw [← ha]
    omega
  · rw [Nat.succ_mul, ← ha]
    omega

/-- Frames are only added. -/
theorem Sender.frames_step {breaks : Bool} {s t : Sender} {l : SendLabel}
    (h : s.step breaks l = some t) (c : Nat) :
    (s.forwarders c).frames <+: (t.forwarders c).frames := by
  cases l with
  | read d data =>
    obtain ⟨-, rfl⟩ := step_read h
    by_cases hd : c = d
    · subst hd
      simp
    · simp [Function.update_of_ne hd]
  | draw d =>
    obtain ⟨-, rfl⟩ := step_draw h
    by_cases hd : c = d
    · subst hd
      simp
    · simp [Function.update_of_ne hd]
  | send d ok =>
    obtain ⟨seq, -, rfl⟩ := step_send h
    by_cases hd : c = d
    · subst hd
      simp
    · simp [Function.update_of_ne hd]

/-- Datagrams are only added. -/
theorem Sender.sent_step {breaks : Bool} {s t : Sender} {l : SendLabel}
    (h : s.step breaks l = some t) : s.sent <+: t.sent := by
  cases l with
  | read d data =>
    obtain ⟨-, rfl⟩ := step_read h
    exact List.prefix_refl _
  | draw d =>
    obtain ⟨-, rfl⟩ := step_draw h
    exact List.prefix_refl _
  | send d ok =>
    obtain ⟨seq, -, rfl⟩ := step_send h
    cases ok
    · exact List.prefix_refl _
    · exact List.prefix_append _ _

/-- What holds of the sending side in every reachable state. -/
structure Sender.Inv (s : Sender) : Prop where
  ok : ∀ c, (s.forwarders c).Ok c s.globalSeqNum
  sent : ∀ e ∈ s.sent, SentOk (s.forwarders e.1.conn) e

theorem Sender.inv_start : Sender.start.Inv :=
  ⟨fun _ ↦ ⟨by simp [start, Forwarder.start], by simp [start, Forwarder.start],
    by simp [start, Forwarder.start, Forwarder.buffer], by simp [start, Forwarder.start]⟩,
    by simp [start]⟩

/-- The chunk a thread sends is the one its offset and its number say. -/
private theorem sentOk_new {c g seq : Nat} {f : Forwarder} (h : f.Ok c g) (hs : f.seq = some seq) :
    SentOk f (⟨c, f.frames.length - 1, f.offset / maxChunkPayload, seq⟩,
      packet c seq f.buffer f.offset) := by
  have hlt := (h.drawn seq hs).2
  obtain ⟨hmem, hget⟩ := Forwarder.buffer_mem hlt
  obtain ⟨hc, -, hle⟩ := h.sized _ hmem
  have ha := h.aligned hlt
  have hdiv : f.offset / maxChunkPayload = numChunks f.offset := by
    rw [ha, Nat.mul_div_cancel _ maxChunkPayload_pos, ← ha]
  refine ⟨f.buffer, hget, hc, hle, ?_, ?_⟩
  · simp only [hdiv]
    apply (lt_numPieces_iff _ _ _ maxChunkPayload_pos).mpr
    rwa [← ha]
  · simp only [hdiv]
    rw [← ha]

theorem Sender.Inv.step {breaks : Bool} {s t : Sender} {l : SendLabel} (hs : s.Inv)
    (h : s.step breaks l = some t) : t.Inv := by
  have hf := Sender.frames_step h
  cases l with
  | read c data =>
    obtain ⟨⟨hc, -, hpos, hle⟩, rfl⟩ := step_read h
    refine ⟨?_, fun e he ↦ (hs.sent e he).mono (hf _)⟩
    intro d
    by_cases hd : d = c
    · subst hd
      simp only [Function.update_self]
      refine ⟨?_, by simp, fun _ ↦ by simp [numChunks, numPieces, maxChunkPayload,
        maxUdpPayload, headerSize], by simp⟩
      intro F hF
      rcases List.mem_append.mp hF with hF | hF
      · exact (hs.ok d).sized F hF
      · rw [List.mem_singleton.mp hF]
        exact ⟨hc, hpos, hle⟩
    · simp only [Function.update_of_ne hd]
      exact hs.ok d
  | draw c =>
    obtain ⟨⟨hlt, -⟩, rfl⟩ := step_draw h
    refine ⟨?_, fun e he ↦ (hs.sent e he).mono (hf _)⟩
    intro d
    by_cases hd : d = c
    · subst hd
      simp only [Function.update_self]
      exact ⟨(hs.ok d).sized, (hs.ok d).offset_le, (hs.ok d).aligned,
        fun n hn ↦ ⟨by cases hn; exact Nat.lt_succ_self _, hlt⟩⟩
    · simp only [Function.update_of_ne hd]
      exact (hs.ok d).mono (Nat.le_succ _)
  | send c ok =>
    obtain ⟨seq, hseq, rfl⟩ := step_send h
    have hc := hs.ok c
    have hlt := (hc.drawn seq hseq).2
    constructor
    · intro d
      by_cases hd : d = c
      · subst hd
        simp only [Function.update_self]
        refine ⟨hc.sized, ?_, ?_, by simp⟩
        · simp only [Forwarder.buffer] at hlt ⊢
          split <;> omega
        · simp only [Forwarder.buffer] at hlt ⊢
          split
          · omega
          · intro hlt'
            have ha := hc.aligned (by simpa [Forwarder.buffer] using hlt)
            have hadv := numChunks_advance hlt ha
            rw [hadv, Nat.succ_mul, ← ha]
            omega
      · simp only [Function.update_of_ne hd]
        exact hs.ok d
    · intro e he
      have hnew : SentOk (s.forwarders c) (⟨c, (s.forwarders c).frames.length - 1,
          (s.forwarders c).offset / maxChunkPayload, seq⟩,
          packet c seq (s.forwarders c).buffer (s.forwarders c).offset) := sentOk_new hc hseq
      cases ok with
      | false => exact (hs.sent e he).mono (hf _)
      | true =>
        rcases List.mem_append.mp he with he | he
        · exact (hs.sent e he).mono (hf _)
        · rw [List.mem_singleton.mp he]
          exact hnew.mono (hf _)

/-- The numbers of the chunks sent so far, in the order of their frames. -/
structure Sender.Ordered (s : Sender) : Prop where
  behind : ∀ e ∈ s.sent, Behind (s.forwarders e.1.conn) s.globalSeqNum e.1
  precedes : ∀ e ∈ s.sent, ∀ e' ∈ s.sent, e.1.conn = e'.1.conn →
    Precedes (s.forwarders e.1.conn) e.1 e'.1

theorem Sender.ordered_start : Sender.start.Ordered := ⟨by simp [start], by simp [start]⟩

private theorem Forwarder.next_mono (f : Forwarder) {g g' : Nat} (h : g ≤ g') :
    f.next g ≤ f.next g' := by
  unfold Forwarder.next
  cases f.seq with
  | none => exact h
  | some n => exact le_rfl

private theorem Behind.mono {f : Forwarder} {g g' : Nat} {k : Chunk} (h : Behind f g k)
    (hg : g ≤ g') : Behind f g' k :=
  ⟨fun F hF hlt ↦ (h.older F hF hlt).trans (f.next_mono hg),
    fun hlast ↦ ⟨(h.current hlast).1, (h.current hlast).2.trans (f.next_mono hg)⟩⟩

private theorem Precedes.mono {f f' : Forwarder} {e : Chunk × Bytes} {l : Chunk}
    (h : Precedes f e.1 l) (he : SentOk f e) (hf : f.frames <+: f'.frames) :
    Precedes f' e.1 l := by
  intro hlt F hF
  obtain ⟨F', hF', -⟩ := he
  rw [getElem?_of_initial hf hF'] at hF
  exact h hlt F (hF ▸ hF')

theorem SentOk.frame_lt {f : Forwarder} {e : Chunk × Bytes} (h : SentOk f e) :
    e.1.frame < f.frames.length := by
  obtain ⟨F, hF, -⟩ := h
  exact (List.getElem?_eq_some_iff.mp hF).1

-- The frame in the buffer is finished, so its last number is behind its first chunk.
private theorem behind_read {c g : Nat} {f : Forwarder} {e : Chunk × Bytes} {data : Bytes}
    (h : Behind f g e.1) (hok : f.Ok c g) (he : SentOk f e) (ho : f.offset = f.buffer.length) :
    Behind ⟨f.frames ++ [data], 0, none⟩ g e.1 := by
  have hnext : f.next g = g := by
    cases hs : f.seq with
    | none => simp [Forwarder.next, hs]
    | some n => exact absurd (hok.drawn n hs).2 (by omega)
  have hlt := he.frame_lt
  constructor
  · intro F hF _
    rw [List.getElem?_append_left hlt] at hF
    by_cases hold : e.1.frame + 1 < f.frames.length
    · exact hnext ▸ h.older F hF hold
    · have hlast : e.1.frame + 1 = f.frames.length := by omega
      have hF' : f.buffer = F := by
        rw [Forwarder.buffer, List.getLast?_eq_getElem?, ← hlast, Nat.add_sub_cancel, hF]
        rfl
      have hcur := (h.current hlast).2
      rw [ho, hF', hnext] at hcur
      exact hcur
  · intro hlast
    simp only [List.length_append, List.length_singleton] at hlast
    omega

private theorem behind_draw {g : Nat} {f : Forwarder} {k : Chunk} (h : Behind f g k)
    (hs : f.seq = none) : Behind { f with seq := some g } (g + 1) k := by
  have hnext : f.next g = g := by simp [Forwarder.next, hs]
  exact ⟨fun F hF hlt ↦ hnext ▸ h.older F hF hlt, fun hlast ↦ hnext ▸ h.current hlast⟩

private theorem behind_send {c g seq : Nat} {f : Forwarder} {k : Chunk} (h : Behind f g k)
    (hok : f.Ok c g) (hs : f.seq = some seq) :
    Behind { f with
      offset := f.offset + min (f.buffer.length - f.offset) maxChunkPayload, seq := none } g k := by
  obtain ⟨hn, hlt⟩ := hok.drawn seq hs
  have hnext : f.next g = seq := by simp [Forwarder.next, hs]
  have hadv := numChunks_advance hlt (hok.aligned hlt)
  constructor
  · intro F hF hold
    have := h.older F hF hold
    rw [hnext] at this
    exact this.trans (le_of_lt hn)
  · intro hlast
    obtain ⟨hi, hcur⟩ := h.current hlast
    rw [hnext] at hcur
    simp only [hadv, Forwarder.next, Option.getD_none]
    omega

-- The chunk just sent is the last one of its frame so far.
private theorem behind_new {c g seq : Nat} {f : Forwarder} (hok : f.Ok c g)
    (hs : f.seq = some seq) :
    Behind { f with
      offset := f.offset + min (f.buffer.length - f.offset) maxChunkPayload, seq := none } g
      ⟨c, f.frames.length - 1, f.offset / maxChunkPayload, seq⟩ := by
  obtain ⟨hn, hlt⟩ := hok.drawn seq hs
  have ha := hok.aligned hlt
  have hadv := numChunks_advance hlt ha
  have hdiv : f.offset / maxChunkPayload = numChunks f.offset := by
    rw [ha, Nat.mul_div_cancel _ maxChunkPayload_pos, ← ha]
  have hpos := List.length_pos_of_mem (Forwarder.buffer_mem hlt).1
  constructor
  · intro F hF hold
    simp only at hold
    omega
  · intro hlast
    simp only [hadv, hdiv, Forwarder.next, Option.getD_none]
    omega

theorem Sender.Ordered.step {s t : Sender} {l : SendLabel} (hi : s.Inv) (ho : s.Ordered)
    (h : s.step false l = some t) : t.Ordered := by
  have hf := Sender.frames_step h
  cases l with
  | read c data =>
    obtain ⟨⟨-, hoff, -, -⟩, rfl⟩ := step_read h
    refine ⟨?_, fun e he e' he' hee ↦
      (ho.precedes e he e' he' hee).mono (hi.sent e he) (hf _)⟩
    intro e he
    by_cases hd : e.1.conn = c
    · simp only [hd, Function.update_self]
      exact behind_read (hd ▸ ho.behind e he) (hi.ok c) (hd ▸ hi.sent e he) hoff
    · simp only [Function.update_of_ne hd]
      exact ho.behind e he
  | draw c =>
    obtain ⟨⟨-, hnone⟩, rfl⟩ := step_draw h
    refine ⟨?_, fun e he e' he' hee ↦
      (ho.precedes e he e' he' hee).mono (hi.sent e he) (hf _)⟩
    intro e he
    by_cases hd : e.1.conn = c
    · simp only [hd, Function.update_self]
      exact behind_draw (hd ▸ ho.behind e he) hnone
    · simp only [Function.update_of_ne hd]
      exact (ho.behind e he).mono (Nat.le_succ _)
  | send c ok =>
    obtain ⟨seq, hseq, rfl⟩ := step_send h
    have hok := hi.ok c
    have hlt := (hok.drawn seq hseq).2
    have hlen := (Forwarder.buffer_mem hlt).2
    have hold : ∀ e ∈ s.sent, Behind (Function.update s.forwarders c { s.forwarders c with
        offset := (s.forwarders c).offset +
          min ((s.forwarders c).buffer.length - (s.forwarders c).offset) maxChunkPayload
        seq := none } e.1.conn) s.globalSeqNum e.1 := by
      intro e he
      by_cases hd : e.1.conn = c
      · rw [hd, Function.update_self]
        exact behind_send (hd ▸ ho.behind e he) hok hseq
      · rw [Function.update_of_ne hd]
        exact ho.behind e he
    cases ok with
    | false =>
      simp only [Bool.false_eq_true, and_false, if_false]
      refine ⟨hold, ?_⟩
      intro e he e' he' hee
      simp only [Bool.false_eq_true, and_false, if_false] at hf
      exact (ho.precedes e he e' he' hee).mono (hi.sent e he) (hf _)
    | true =>
      simp only [Bool.true_eq_false, false_and, if_false, if_true] at hf ⊢
      constructor
      · intro e he
        rcases List.mem_append.mp he with he | he
        · exact hold e he
        · rw [List.mem_singleton.mp he]
          simp only [Function.update_self]
          exact behind_new hok hseq
      · intro e he e' he' hee
        rcases List.mem_append.mp he with he | he
        · rcases List.mem_append.mp he' with he' | he'
          · exact (ho.precedes e he e' he' hee).mono (hi.sent e he) (hf _)
          · rw [List.mem_singleton.mp he'] at hee ⊢
            have hnew : Precedes (s.forwarders e.1.conn) e.1 ⟨c, (s.forwarders c).frames.length - 1,
                (s.forwarders c).offset / maxChunkPayload, seq⟩ := by
              intro hfr F hF
              simp only at hee hfr ⊢
              have hnext : (s.forwarders e.1.conn).next s.globalSeqNum = seq := by
                rw [hee]
                simp [Forwarder.next, hseq]
              rw [← hnext]
              apply (ho.behind e he).older F hF
              rw [hee]
              omega
            exact hnew.mono (hi.sent e he) (hf _)
        · -- No frame read later than the one in the buffer has been sent.
          rw [List.mem_singleton.mp he] at hee ⊢
          intro hfr
          simp only at hee hfr
          rcases List.mem_append.mp he' with he' | he'
          · have := (hi.sent e' he').frame_lt
            rw [← hee] at this
            omega
          · rw [List.mem_singleton.mp he'] at hfr
            simp only at hfr
            omega

end Kitty.P2p
