import Kitty.Base.Bytes

/-!
# The patch of the FLV header

The receive loops of `srt_pump_thread` (`tools/augentix_view.py:416–459`) and of
`tools/feed-direct.py:322–369`. The camera sends 0 for the header's DataOffset, bytes 5 to 8
of the stream; both readers put the 9 of the specification there, and both look for the header
in one chunk.
-/

namespace Kitty.Viewer

open Kitty.Base

/-! ### The two readers -/

/-- What `srt_recv` returns: bytes, 0, or `SRT_ERROR` with a message that a receive timed out or
with another one. -/
inductive SrtRead where
  | bytes (chunk : Bytes)
  | zero
  | expired
  | failed
  deriving DecidableEq, Repr

/-- The variables of a receive loop, what it has passed on, and how often it has logged that the
header is patched. -/
structure Reader where
  total : Nat
  headerPatched : Bool
  firstByteSeen : Bool
  out : Bytes
  patches : Nat
  deriving DecidableEq, Repr

/-- A reader before its loop. -/
def Reader.start : Reader := ⟨0, false, false, [], 0⟩

/-- `chunk[:5] + b"\x00\x00\x00\x09" + chunk[9:]` -/
def patched (chunk : Bytes) : Bytes := chunk.take 5 ++ [0, 0, 0, 9] ++ chunk.drop 9

/-- What `srt_pump_thread` does with a chunk; its `total` already counts the chunk at the test. -/
def pumpChunk (r : Reader) (chunk : Bytes) : Reader :=
  let total := r.total + chunk.length
  if !r.headerPatched && 9 ≤ total && chunk.take 3 = lit "FLV" then
    ⟨total, true, true, r.out ++ patched chunk, r.patches + 1⟩
  else if !r.headerPatched && 9 ≤ total then
    ⟨total, true, true, r.out ++ chunk, r.patches⟩
  else ⟨total, r.headerPatched, true, r.out ++ chunk, r.patches⟩

/-- What `feed-direct.py` does with a chunk; its `total_bytes` are those of the chunks before. -/
def feedChunk (r : Reader) (chunk : Bytes) : Reader :=
  let total := r.total + chunk.length
  if !r.headerPatched && r.total = 0 && 9 ≤ chunk.length && chunk.take 3 = lit "FLV" then
    ⟨total, true, true, r.out ++ patched chunk, r.patches + 1⟩
  else if r.total = 0 then ⟨total, true, true, r.out ++ chunk, r.patches⟩
  else ⟨total, r.headerPatched, true, r.out ++ chunk, r.patches⟩

/-- A receive loop over its reads; `ends` says when a read of 0 bytes ends it. -/
def recvLoop (step : Reader → Bytes → Reader) (ends : Reader → Bool) (r : Reader) :
    List SrtRead → Reader
  | [] => r
  | .bytes chunk :: reads => recvLoop step ends (step r chunk) reads
  | .zero :: reads => if ends r then r else recvLoop step ends r reads
  | .expired :: reads => recvLoop step ends r reads
  | .failed :: _ => r

/-- The loop of `srt_pump_thread`, as long as the fan-out is open. -/
def pumpLoop (reads : List SrtRead) : Reader := recvLoop pumpChunk (fun _ ↦ false) .start reads

/-- The loop of `feed-direct.py`, as long as its standard output is open; 0 is the end of the stream
once a byte was seen. -/
def feedLoop (reads : List SrtRead) : Reader := recvLoop feedChunk (·.firstByteSeen) .start reads

/-! ### A stream in chunks -/

/-- The chunks among the reads. -/
def chunksOf (reads : List SrtRead) : List Bytes :=
  reads.filterMap fun
    | .bytes chunk => some chunk
    | _ => none

/-- The reads bring the stream in chunks that are not empty; a receive may time out at any time. -/
def Splits (stream : Bytes) (reads : List SrtRead) : Prop :=
  (chunksOf reads).flatten = stream ∧
    ∀ read ∈ reads, read = .expired ∨ ∃ chunk, read = .bytes chunk ∧ chunk ≠ []

/-- The header is in the first chunk. -/
def HeaderWhole (reads : List SrtRead) : Prop :=
  ∃ chunk chunks, chunksOf reads = chunk :: chunks ∧ 9 ≤ chunk.length

/-- A run passes the stream on with its header patched, once, and no other byte changed. -/
def Reader.PatchedOnce (stream : Bytes) (r : Reader) : Prop :=
  r.patches = 1 ∧ r.out = patched stream

/-- Two runs over one stream pass on the same bytes, those of the stream with its header patched. -/
def PatchedAlike (stream : Bytes) (r r' : Reader) : Prop :=
  r.out = r'.out ∧ r.PatchedOnce stream ∧ r'.PatchedOnce stream

private theorem chunksOf_ne_nil {stream : Bytes} {reads : List SrtRead}
    (h : Splits stream reads) : ∀ chunk ∈ chunksOf reads, chunk ≠ [] := by
  intro chunk hmem
  obtain ⟨read, hread, hsome⟩ := List.mem_filterMap.mp hmem
  rcases h.2 read hread with rfl | ⟨c, rfl, hne⟩
  · cases hsome
  · cases hsome
    exact hne

/-- Timeouts leave a reader as it is. -/
private theorem recvLoop_eq_foldl (step : Reader → Bytes → Reader) (ends : Reader → Bool)
    {reads : List SrtRead} (r : Reader)
    (h : ∀ read ∈ reads, read = .expired ∨ ∃ chunk, read = .bytes chunk ∧ chunk ≠ []) :
    recvLoop step ends r reads = (chunksOf reads).foldl step r := by
  induction reads generalizing r with
  | nil => rfl
  | cons read reads ih =>
    have htail := fun r ↦ ih r fun read hread ↦ h read (List.mem_cons_of_mem _ hread)
    rcases h read List.mem_cons_self with rfl | ⟨chunk, rfl, -⟩
    · exact htail r
    · exact htail (step r chunk)

/-! ### A reader that no longer looks for the header -/

/-- Chunks pass a reader unchanged once it has stopped looking for the header. -/
def Settles (step : Reader → Bytes → Reader) : Prop :=
  ∀ r chunk, r.headerPatched = true → (step r chunk).headerPatched = true ∧
    (step r chunk).out = r.out ++ chunk ∧ (step r chunk).patches = r.patches

theorem pumpChunk_settles : Settles pumpChunk := by
  intro r chunk hr
  simp [pumpChunk, hr]

theorem feedChunk_settles : Settles feedChunk := by
  intro r chunk hr
  by_cases h0 : r.total = 0 <;> simp [feedChunk, hr, h0]

theorem Settles.foldl {step : Reader → Bytes → Reader} (hstep : Settles step) {r : Reader}
    (hr : r.headerPatched = true) (chunks : List Bytes) :
    (chunks.foldl step r).out = r.out ++ chunks.flatten ∧
      (chunks.foldl step r).patches = r.patches := by
  induction chunks generalizing r with
  | nil => simp
  | cons chunk chunks ih =>
    obtain ⟨hpatched, hout, hpatches⟩ := hstep r chunk hr
    obtain ⟨hout', hpatches'⟩ := ih hpatched
    rw [List.foldl_cons]
    exact ⟨by rw [hout', hout, List.append_assoc, List.flatten_cons],
      by rw [hpatches', hpatches]⟩

/-! ### A header in one chunk -/

/-- The patch of a whole header is the same with what follows it. -/
theorem patched_append {chunk : Bytes} (h : 9 ≤ chunk.length) (rest : Bytes) :
    patched (chunk ++ rest) = patched chunk ++ rest := by
  rw [patched, patched, List.take_append_of_le_length (by omega),
    List.drop_append_of_le_length h]
  simp only [List.append_assoc]

/-- A first chunk that a reader has patched leaves the stream patched once. -/
private theorem patchedOnce_of_first {step : Reader → Bytes → Reader} (hstep : Settles step)
    {chunk : Bytes} (hlen : 9 ≤ chunk.length)
    (hfirst : step .start chunk = ⟨chunk.length, true, true, patched chunk, 1⟩)
    (chunks : List Bytes) :
    ((chunk :: chunks).foldl step .start).PatchedOnce (chunk ++ chunks.flatten) := by
  rw [List.foldl_cons, hfirst]
  obtain ⟨hout, hpatches⟩ := hstep.foldl (r := ⟨chunk.length, true, true, patched chunk, 1⟩) rfl
    chunks
  exact ⟨hpatches, by rw [hout, patched_append hlen]⟩

/-! ### A header in pieces -/

/-- A patch where "FLV" stands behind the first bytes of the stream is not that of the header. -/
private theorem patched_misplaced {before chunk : Bytes} (rest : Bytes) (hpos : before ≠ [])
    (hlt : before.length < 9) (hflv : lit "FLV" <+: before ++ chunk ++ rest)
    (hchunk : chunk.take 3 = lit "FLV") :
    before ++ patched chunk ++ rest ≠ patched (before ++ chunk ++ rest) := by
  obtain ⟨u, rfl⟩ : ∃ u, chunk = lit "FLV" ++ u := ⟨_, by rw [← hchunk, List.take_append_drop]⟩
  -- what the patch writes at 5 to 8 meets a letter of the chunk's own "FLV"
  have hflv' : lit "FLV" = [70, 76, 86] := by decide
  rw [hflv'] at hflv ⊢
  intro h
  match before, hpos with
  | [a], _ => simp at hflv
  | [a, b], _ => simp at hflv
  | [a, b, c], _ => simp [patched] at h
  | [a, b, c, d], _ => simp [patched] at h
  | [a, b, c, d, e], _ => simp [patched] at h
  | [a, b, c, d, e, f], _ => simp [patched] at h
  | [a, b, c, d, e, f, g], _ => simp [patched] at h
  | [a, b, c, d, e, f, g, i], _ => simp [patched] at h
  | a :: b :: c :: d :: e :: f :: g :: i :: j :: l, _ =>
    simp at hlt
    omega

/-- A reader that never patches passes on a stream without a patch. -/
private theorem not_patchedOnce_of_settled {step : Reader → Bytes → Reader} (hstep : Settles step)
    {r : Reader} (hr : r.headerPatched = true) (h0 : r.patches = 0) (chunks : List Bytes)
    (stream : Bytes) : ¬(chunks.foldl step r).PatchedOnce stream := by
  intro h
  have := (hstep.foldl hr chunks).2.symm.trans h.1
  omega

/-- The pump with fewer than nine bytes passed on, and the header still looked for. The induction
is on the chunks up to the one that brings the ninth byte. -/
private theorem pump_not_patchedOnce {r : Reader} {chunks : List Bytes}
    (hr : r.headerPatched = false) (h0 : r.patches = 0) (htotal : r.total = r.out.length)
    (hpos : r.out ≠ []) (hlt : r.out.length < 9) (hflv : lit "FLV" <+: r.out ++ chunks.flatten) :
    ¬(chunks.foldl pumpChunk r).PatchedOnce (r.out ++ chunks.flatten) := by
  induction chunks generalizing r with
  | nil =>
    rintro ⟨hone, -⟩
    rw [List.foldl_nil, h0] at hone
    cases hone
  | cons chunk chunks ih =>
    rw [List.foldl_cons, List.flatten_cons, ← List.append_assoc]
    rw [List.flatten_cons, ← List.append_assoc] at hflv
    by_cases h9 : 9 ≤ r.total + chunk.length
    · by_cases hchunk : chunk.take 3 = lit "FLV"
      · have hstep : pumpChunk r chunk = ⟨r.total + chunk.length, true, true,
            r.out ++ patched chunk, r.patches + 1⟩ := by simp [pumpChunk, hr, h9, hchunk]
        rintro ⟨-, hout⟩
        rw [hstep, (pumpChunk_settles.foldl rfl chunks).1] at hout
        exact patched_misplaced chunks.flatten hpos hlt hflv hchunk hout
      · refine not_patchedOnce_of_settled pumpChunk_settles ?_ ?_ chunks _ <;>
          simp [pumpChunk, hr, h9, hchunk, h0]
    · have hstep : pumpChunk r chunk = ⟨r.total + chunk.length, false, true,
          r.out ++ chunk, r.patches⟩ := by simp [pumpChunk, hr, h9]
      rw [hstep]
      refine ih rfl h0 ?_ ?_ ?_ hflv
      · simp [htotal]
      · simp [hpos]
      · rw [List.length_append, ← htotal]
        omega

/-! ### When the header is patched -/

/-- The first chunk of a stream that begins with the header, whole or in part. -/
private theorem chunks_of_splits {stream : Bytes} (hflv : lit "FLV" <+: stream)
    {reads : List SrtRead} (h : Splits stream reads) :
    ∃ chunk chunks, chunksOf reads = chunk :: chunks ∧ chunk ≠ [] ∧
      stream = chunk ++ chunks.flatten := by
  cases hchunks : chunksOf reads with
  | nil =>
    have hnil : stream = [] := by rw [← h.1, hchunks]; rfl
    subst hnil
    exact absurd (List.prefix_nil.mp hflv) (by decide)
  | cons chunk chunks =>
    refine ⟨chunk, chunks, rfl, chunksOf_ne_nil h chunk (hchunks ▸ List.mem_cons_self), ?_⟩
    rw [← h.1, hchunks, List.flatten_cons]

private theorem take_three {chunk rest : Bytes} (hflv : lit "FLV" <+: chunk ++ rest)
    (hlen : 9 ≤ chunk.length) : chunk.take 3 = lit "FLV" := by
  have htake := List.prefix_iff_eq_take.mp hflv
  rw [htake, show (lit "FLV").length = 3 by decide,
    List.take_append_of_le_length (by omega)]

/-- A reader that patches a whole header in its first chunk, and no header in pieces, patches the
stream once when its first chunk holds the whole header. -/
private theorem recvLoop_patchedOnce_iff {step : Reader → Bytes → Reader} {ends : Reader → Bool}
    (hstep : Settles step)
    (hwhole : ∀ chunk, 9 ≤ chunk.length → chunk.take 3 = lit "FLV" →
      step .start chunk = ⟨chunk.length, true, true, patched chunk, 1⟩)
    (hpieces : ∀ chunk chunks, chunk ≠ [] → chunk.length < 9 →
      lit "FLV" <+: chunk ++ chunks.flatten →
        ¬((chunk :: chunks).foldl step .start).PatchedOnce (chunk ++ chunks.flatten))
    {stream : Bytes} (hflv : lit "FLV" <+: stream) {reads : List SrtRead}
    (h : Splits stream reads) :
    (recvLoop step ends .start reads).PatchedOnce stream ↔ HeaderWhole reads := by
  obtain ⟨chunk, chunks, hchunks, hne, rfl⟩ := chunks_of_splits hflv h
  rw [recvLoop_eq_foldl _ _ _ h.2, hchunks]
  constructor
  · intro honce
    refine ⟨chunk, chunks, hchunks, ?_⟩
    by_contra hlt
    exact hpieces chunk chunks hne (Nat.lt_of_not_le hlt) hflv honce
  · rintro ⟨chunk', chunks', hsame, hlen⟩
    obtain ⟨rfl, rfl⟩ := List.cons.inj (hchunks.symm.trans hsame)
    exact patchedOnce_of_first hstep hlen (hwhole chunk hlen (take_three hflv hlen)) chunks

theorem pumpLoop_patchedOnce_iff {stream : Bytes} (hflv : lit "FLV" <+: stream)
    {reads : List SrtRead} (h : Splits stream reads) :
    (pumpLoop reads).PatchedOnce stream ↔ HeaderWhole reads := by
  refine recvLoop_patchedOnce_iff pumpChunk_settles ?_ ?_ hflv h
  · intro chunk hlen hchunk
    simp [pumpChunk, Reader.start, hlen, hchunk]
  · intro chunk chunks hne hlt hflv
    have hfirst : pumpChunk .start chunk = ⟨chunk.length, false, true, chunk, 0⟩ := by
      simp [pumpChunk, Reader.start, Nat.not_le.mpr hlt]
    rw [List.foldl_cons, hfirst]
    exact pump_not_patchedOnce rfl rfl rfl hne hlt hflv

theorem feedLoop_patchedOnce_iff {stream : Bytes} (hflv : lit "FLV" <+: stream)
    {reads : List SrtRead} (h : Splits stream reads) :
    (feedLoop reads).PatchedOnce stream ↔ HeaderWhole reads := by
  refine recvLoop_patchedOnce_iff feedChunk_settles ?_ ?_ hflv h
  · intro chunk hlen hchunk
    simp [feedChunk, Reader.start, hlen, hchunk]
  · intro chunk chunks _ hlt _
    refine not_patchedOnce_of_settled feedChunk_settles ?_ ?_ chunks _ <;>
      simp [feedChunk, Reader.start, Nat.not_le.mpr hlt]

private theorem patchedAlike_iff {stream : Bytes} {r r' : Reader} :
    PatchedAlike stream r r' ↔ r.PatchedOnce stream ∧ r'.PatchedOnce stream :=
  ⟨And.right, fun h ↦ ⟨h.1.2.trans h.2.2.symm, h⟩⟩

/-- Two runs of either reader over one FLV stream pass the same patched stream on exactly when
the first chunk of each holds the whole header. -/
theorem header_patched_iff {stream : Bytes} (hflv : lit "FLV" <+: stream)
    {reads reads' : List SrtRead} (h : Splits stream reads) (h' : Splits stream reads') :
    (PatchedAlike stream (pumpLoop reads) (pumpLoop reads') ↔
      HeaderWhole reads ∧ HeaderWhole reads') ∧
    (PatchedAlike stream (feedLoop reads) (feedLoop reads') ↔
      HeaderWhole reads ∧ HeaderWhole reads') := by
  constructor
  · rw [patchedAlike_iff, pumpLoop_patchedOnce_iff hflv h, pumpLoop_patchedOnce_iff hflv h']
  · rw [patchedAlike_iff, feedLoop_patchedOnce_iff hflv h, feedLoop_patchedOnce_iff hflv h']

/-- The first bytes that a camera sends: the header and the word in front of the first tag. -/
def cameraHeader : Bytes := lit "FLV" ++ [1, 5, 0, 0, 0, 0, 0, 0, 0, 0]

private theorem splits_whole : Splits cameraHeader [.bytes cameraHeader] :=
  ⟨by decide, by simp [show cameraHeader ≠ [] by decide]⟩

private theorem splits_pieces {n : Nat} (h : 0 < n) (hn : n < 13) :
    Splits cameraHeader [.bytes (cameraHeader.take n), .expired, .bytes (cameraHeader.drop n)] := by
  have hlen : cameraHeader.length = 13 := by decide
  have htake : cameraHeader.take n ≠ [] :=
    List.ne_nil_of_length_pos (by rw [List.length_take]; omega)
  have hdrop : cameraHeader.drop n ≠ [] :=
    List.ne_nil_of_length_pos (by rw [List.length_drop]; omega)
  exact ⟨by simp [chunksOf], by simp [htake, hdrop]⟩

theorem header_patched_whole :
    PatchedAlike cameraHeader (pumpLoop [.bytes cameraHeader])
      (pumpLoop [.bytes (cameraHeader.take 9), .expired, .bytes (cameraHeader.drop 9)]) ∧
    PatchedAlike cameraHeader (feedLoop [.bytes cameraHeader])
      (feedLoop [.bytes (cameraHeader.take 9), .expired, .bytes (cameraHeader.drop 9)]) := by
  have hwhole : HeaderWhole [.bytes cameraHeader] := ⟨cameraHeader, [], rfl, by decide⟩
  have hnine : HeaderWhole
      [.bytes (cameraHeader.take 9), .expired, .bytes (cameraHeader.drop 9)] :=
    ⟨cameraHeader.take 9, [cameraHeader.drop 9], rfl, by decide⟩
  have hpatched := header_patched_iff (by decide) splits_whole
    (splits_pieces (by decide : 0 < 9) (by decide))
  exact ⟨hpatched.1.mpr ⟨hwhole, hnine⟩, hpatched.2.mpr ⟨hwhole, hnine⟩⟩

/-- With the header in two pieces both readers pass it on with its DataOffset 0. -/
theorem header_unpatched_in_pieces :
    lit "FLV" <+: cameraHeader ∧ Splits cameraHeader [.bytes cameraHeader] ∧
    Splits cameraHeader [.bytes (cameraHeader.take 4), .expired, .bytes (cameraHeader.drop 4)] ∧
    (pumpLoop [.bytes cameraHeader]).out ≠
      (pumpLoop [.bytes (cameraHeader.take 4), .expired,
        .bytes (cameraHeader.drop 4)]).out ∧
    (feedLoop [.bytes cameraHeader]).out ≠
      (feedLoop [.bytes (cameraHeader.take 4), .expired,
        .bytes (cameraHeader.drop 4)]).out :=
  ⟨by decide, splits_whole, splits_pieces (by decide) (by decide), by decide, by decide⟩

end Kitty.Viewer
