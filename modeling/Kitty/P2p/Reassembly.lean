import Kitty.P2p.Forward

/-!
# The part of reassembly both programs share

The reassembly fields of `connection_t` and the block of `on_recv` and `on_recv_camera`
that checks a chunk, copies it and hands a finished frame over:
`src/provider-srt/_legacy_libjuice_provider_configurable.c:826–889` and
`src/consumer-srt-cloud/_legacy_libjuice_consumer_api.c:994–1069`.
-/

namespace Kitty.P2p

open Kitty.Base

/-- The fields of `connection_t` a frame is put together in. -/
structure Reassembly where
  reassemblyBuffer : Option (Buffer UInt8)
  spareBuffer : Option (Buffer UInt8)
  chunkReceived : Nat → Bool
  expectedSize : Nat
  bytesReceived : Nat

/-- A first chunk clears the bitmap and the count. -/
def Reassembly.newFrame (r : Reassembly) (totalSize : Nat) : Reassembly :=
  { r with chunkReceived := fun _ ↦ false, expectedSize := totalSize, bytesReceived := 0 }

/-- The bounds check before the copy. -/
def Reassembly.accepts (r : Reassembly) (d : Datagram) : Bool :=
  d.totalSize == r.expectedSize &&
  d.offset / maxChunkPayload < maxChunksPerFrame &&
  d.offset < d.totalSize &&
  d.offset + d.payload.length ≤ d.totalSize &&
  d.offset + d.payload.length ≤ bufferSize &&
  !r.chunkReceived (d.offset / maxChunkPayload)

/-- The copy of a chunk into the buffer. -/
def Reassembly.copy (r : Reassembly) (d : Datagram) : Reassembly :=
  { r with
    reassemblyBuffer := r.reassemblyBuffer.map (memcpy · d.offset d.payload)
    chunkReceived := Function.update r.chunkReceived (d.offset / maxChunkPayload) true
    bytesReceived := (r.bytesReceived + d.payload.length) % 2 ^ 32 }

/-- A finished frame leaves with its buffer, and the spare takes the place of that one;
without a spare, or without a local socket, the frame is dropped. -/
def Reassembly.finish (r : Reassembly) (localSocket : Int) : Reassembly × Option Bytes :=
  let cleared := { r with bytesReceived := 0, expectedSize := 0 }
  match r.reassemblyBuffer, r.spareBuffer with
  | some buf, some spare =>
    if 0 ≤ localSocket then
      ({ cleared with reassemblyBuffer := some spare, spareBuffer := none },
        some (readBuffer buf r.expectedSize))
    else (cleared, none)
  | _, _ => (cleared, none)

/-- Whether the counted bytes make up the frame. -/
def Reassembly.full (r : Reassembly) : Bool := r.expectedSize ≤ r.bytesReceived

/-! ### The chunks of a frame -/

/-- The datagram of one chunk of a frame, as the receiver reads it. -/
def chunkDatagram (conn seq : Nat) (F : Bytes) (index : Nat) : Datagram :=
  ⟨conn, seq % 2 ^ 32, F.length, index * maxChunkPayload, piece maxChunkPayload F index⟩

/-- What a receiver reads from the packet of a chunk. -/
theorem parse_chunk {conn seq index : Nat} {F : Bytes} (hc : conn < 2 ^ 32)
    (hF : F.length ≤ bufferSize) (hi : index < numChunks F.length) :
    Datagram.parse (packet conn seq F (index * maxChunkPayload)) =
      some (chunkDatagram conn seq F index) := by
  have hlt := (lt_numPieces_iff maxChunkPayload F.length index maxChunkPayload_pos).mp hi
  have hb : bufferSize < 2 ^ 32 := by decide
  rw [parse_packet, Nat.mod_eq_of_lt hc, Nat.mod_eq_of_lt (show F.length < 2 ^ 32 by omega),
    Nat.mod_eq_of_lt (show index * maxChunkPayload < 2 ^ 32 by omega)]
  rfl

/-- The place of a chunk in its frame is read back from its offset. -/
theorem chunkDatagram_index (conn seq : Nat) (F : Bytes) (index : Nat) :
    (chunkDatagram conn seq F index).offset / maxChunkPayload = index :=
  Nat.mul_div_cancel index maxChunkPayload_pos

/-- A frame of at most `BUFFER_SIZE` bytes has a bit for each of its chunks. -/
theorem numChunks_le {size : Nat} (h : size ≤ bufferSize) : numChunks size < maxChunksPerFrame := by
  have : numChunks size ≤ numChunks bufferSize :=
    Nat.div_le_div_right (by omega)
  exact lt_of_le_of_lt this (by decide)

/-- A chunk of the frame in the buffer passes the check when it was not copied yet. -/
theorem accepts_chunk {r : Reassembly} (conn seq : Nat) {index : Nat} {F : Bytes}
    (hF : F.length ≤ bufferSize) (hi : index < numChunks F.length)
    (he : r.expectedSize = F.length) :
    r.accepts (chunkDatagram conn seq F index) = !r.chunkReceived index := by
  have hlt := (lt_numPieces_iff maxChunkPayload F.length index maxChunkPayload_pos).mp hi
  have hbits : index < maxChunksPerFrame := (hi.trans (numChunks_le hF))
  have hend : index * maxChunkPayload + (piece maxChunkPayload F index).length ≤ F.length := by
    rw [length_piece]
    omega
  unfold Reassembly.accepts
  rw [chunkDatagram_index]
  simp [chunkDatagram, he, hbits, hlt, hend, hend.trans hF]

/-! ### Filling the buffer with one frame -/

/-- The buffer holds chunks of one frame, and the bitmap and the count agree with it. -/
def Reassembly.Filling (r : Reassembly) (F : Bytes) : Prop :=
  r.expectedSize = F.length ∧ ∃ buf, r.reassemblyBuffer = some buf ∧
    Partial maxChunkPayload F r.chunkReceived buf r.bytesReceived

/-- A first chunk starts with an empty bitmap. -/
theorem Reassembly.filling_newFrame (r : Reassembly) (F : Bytes) (hb : r.reassemblyBuffer.isSome) :
    (r.newFrame F.length).Filling F := by
  obtain ⟨buf, hbuf⟩ := Option.isSome_iff_exists.mp hb
  exact ⟨rfl, buf, hbuf, Partial.empty _ _ _⟩

/-- Copying a missing chunk of the frame. -/
theorem Reassembly.Filling.copy {r : Reassembly} {F : Bytes} (h : r.Filling F)
    (hF : F.length ≤ bufferSize) (conn seq : Nat) {index : Nat} (hi : index < numChunks F.length)
    (hgot : r.chunkReceived index = false) :
    (r.copy (chunkDatagram conn seq F index)).Filling F := by
  obtain ⟨he, buf, hbuf, hp⟩ := h
  have hnext := hp.insert hi hgot
  have hle := gathered_le maxChunkPayload F (Function.update r.chunkReceived index true)
    maxChunkPayload_pos
  rw [← hnext.count_eq] at hle
  have hb : bufferSize < 2 ^ 32 := by decide
  refine ⟨he, memcpy buf (index * maxChunkPayload) (piece maxChunkPayload F index), ?_, ?_⟩
  · simp [Reassembly.copy, hbuf, chunkDatagram]
  · simp only [Reassembly.copy, chunkDatagram_index]
    change Partial _ _ _ _ ((r.bytesReceived + (piece maxChunkPayload F index).length) % 2 ^ 32)
    rw [Nat.mod_eq_of_lt (by omega)]
    exact hnext

/-- The count reaches the size when every chunk was copied, and not before. -/
theorem Reassembly.Filling.full_iff {r : Reassembly} {F : Bytes} (h : r.Filling F) :
    r.full ↔ ∀ j < numChunks F.length, r.chunkReceived j := by
  obtain ⟨he, buf, -, hp⟩ := h
  rw [Reassembly.full, decide_eq_true_iff, he, hp.count_eq]
  exact length_le_gathered_iff _ _ _ maxChunkPayload_pos

/-- What is handed over is the frame. -/
theorem Reassembly.Filling.finish {r : Reassembly} {F : Bytes} (h : r.Filling F) (hfull : r.full)
    (sock : Int) (out : Bytes) (ho : (r.finish sock).2 = some out) : out = F := by
  obtain ⟨he, buf, hbuf, hp⟩ := h
  rw [Reassembly.full, decide_eq_true_iff, he] at hfull
  cases hs : r.spareBuffer with
  | none => simp [Reassembly.finish, hs] at ho
  | some spare =>
    simp only [Reassembly.finish, hs, hbuf] at ho
    split at ho
    · rw [← Option.some.inj ho, he]
      exact hp.read_eq maxChunkPayload_pos hfull
    · cases ho

/-- With a spare buffer and an open socket the frame is handed over. -/
theorem Reassembly.Filling.finish_some {r : Reassembly} {F : Bytes} (h : r.Filling F)
    (hfull : r.full) {sock : Int} (hsock : 0 ≤ sock) (hs : r.spareBuffer.isSome) :
    (r.finish sock).2 = some F := by
  obtain ⟨spare, hspare⟩ := Option.isSome_iff_exists.mp hs
  obtain ⟨buf, hbuf⟩ : ∃ buf, r.reassemblyBuffer = some buf := ⟨_, h.2.choose_spec.1⟩
  have hsome : ∃ out, (r.finish sock).2 = some out := by
    simp [Reassembly.finish, hspare, hbuf, hsock]
  obtain ⟨out, ho⟩ := hsome
  rw [ho, h.finish hfull sock out ho]

/-- A finished frame leaves a buffer behind when it found one. -/
theorem Reassembly.finish_buffer (r : Reassembly) (sock : Int) :
    (r.finish sock).1.reassemblyBuffer.isSome = r.reassemblyBuffer.isSome := by
  unfold Reassembly.finish
  cases r.reassemblyBuffer with
  | none => rfl
  | some buf =>
    cases r.spareBuffer with
    | none => rfl
    | some spare =>
      dsimp only
      split <;> rfl

/-- After a finished frame none is expected. -/
theorem Reassembly.finish_expectedSize (r : Reassembly) (sock : Int) :
    (r.finish sock).1.expectedSize = 0 := by
  unfold Reassembly.finish
  cases r.reassemblyBuffer with
  | none => rfl
  | some buf =>
    cases r.spareBuffer with
    | none => rfl
    | some spare =>
      dsimp only
      split <;> rfl

end Kitty.P2p
