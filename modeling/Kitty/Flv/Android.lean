import Kitty.Base.Run
import Kitty.Flv.Stream

/-!
# The Android consumer

`src/consumer-srt-android/consumer_srt_p2p.c:184–239, 259–307, 381–432`. A client is sent the
stream from its beginning, and nothing looks at how far behind its cursor is.
-/

namespace Kitty.Flv

open Kitty.Base

/-- `MAX_HTTP_CLIENTS` of the Android consumer. -/
def androidMaxClients : Nat := 4

/-- The end of the replay: a cursor within the bytes sent from the cache is moved behind them. -/
def androidEndHeader (c : HttpClient) : HttpClient :=
  if c.cursor < c.flvHdrOff then
    { c with flvHdrSent := true, cursor := c.flvHdrOff, position := c.flvHdrOff }
  else { c with flvHdrSent := true }

/-- What happens to the stream: a receive call returns bytes, or the last one does; a client has
finished its handshake; a call in some client's turn. -/
inductive AndroidEvent where
  | received (data : Bytes)
  | ended
  | joined (fd : Nat)
  | call (call : Call)

/-- `http_handshake_thread` once it has the mutex: the cursor is the length of the cache. -/
def androidJoin (s : StreamState) (fd : Nat) : StreamState :=
  if s.clients.length < androidMaxClients then
    { s with
      clients := s.clients ++ [.joined fd s.flvHeader.length s.flvHeader.length] }
  else s

/-- `srt_recv_thread` and `http_handshake_thread`. -/
def androidStep (s : StreamState) : AndroidEvent → Option StreamState
  | .received data =>
    if s.receiving ∧ s.draining = none ∧ 0 < data.length ∧ data.length ≤ recvSize then
      some (receive s data)
    else none
  | .ended =>
    if s.receiving ∧ s.draining = none then some { s with receiving := false, clients := [] }
    else none
  | .joined fd => if s.draining = none then some (androidJoin s fd) else none
  | .call call => s.draining.bind fun i ↦ drainStep androidEndHeader s i call

/-! ### What a client was sent -/

/-- Before the end of the replay a client was sent bytes of the cache, after it the stream up to
its position. -/
structure AndroidClient (s : StreamState) (c : HttpClient) : Prop extends Placed s c where
  replayed : c.flvHdrOff ≤ s.flvHeader.length
  header : c.flvHdrSent = false →
    c.position ≤ s.flvHeader.length ∧ c.delivered = s.stream.zipIdx.take c.flvHdrOff
  live : c.flvHdrSent = true → c.delivered = s.stream.zipIdx.take c.position

/-- The stream is buffered and every open client was sent the beginning of it. -/
structure AndroidGood (s : StreamState) : Prop extends Buffered s where
  clients : ∀ c ∈ s.clients, 0 ≤ c.fd → AndroidClient s c

/-- A client is sent bytes of the ring only while its cursor is at most the size of the ring
behind. -/
def InWindow (s : StreamState) : AndroidEvent → Prop
  | .call (.sent (.bytes _)) => ∀ c ∈ current s, await s c = .ringBytes →
      s.stream.length ≤ c.position + ringSize
  | _ => True

section Client

variable {s : StreamState} {c : HttpClient}

private theorem AndroidClient.of_eq {t : StreamState} (h : AndroidClient s c)
    (hstream : t.stream = s.stream) (hheader : t.flvHeader = s.flvHeader) :
    AndroidClient t c where
  cursor := h.cursor
  behind := hstream ▸ h.behind
  replayed := hheader ▸ h.replayed
  header := hheader ▸ hstream ▸ h.header
  live := hstream ▸ h.live

private theorem AndroidClient.receive (h : AndroidClient s c) (hb : Buffered s) {data : Bytes}
    (hdata : data.length ≤ recvSize) : AndroidClient (receive s data) c := by
  have hlen := hb.length_flvHeader
  have hgrows := hb.length_flvHeader_receive hdata
  have hbehind := h.behind
  have hreplayed := h.replayed
  refine ⟨⟨h.cursor, ?_⟩, ?_, fun hsent ↦ ⟨?_, ?_⟩, ?_⟩
  · rw [stream_receive, List.length_append]
    omega
  · omega
  · have := (h.header hsent).1
    omega
  · rw [stream_receive, take_zipIdx_append data (by omega)]
    exact (h.header hsent).2
  · intro hsent
    rw [stream_receive, take_zipIdx_append data (by omega)]
    exact h.live hsent

private theorem AndroidClient.endHeader (h : AndroidClient s c) (hb : Buffered s)
    (hsent : c.flvHdrSent = false) (hoff : s.flvHeader.length ≤ c.flvHdrOff) :
    AndroidClient s (androidEndHeader c) := by
  have hlen := hb.length_flvHeader
  obtain ⟨hpos, hdelivered⟩ := h.header hsent
  have hreplayed := h.replayed
  have hcursor := h.cursor
  simp only [headerCacheSize, counterModulus] at hlen hcursor
  rw [androidEndHeader]
  split
  · refine ⟨⟨?_, ?_⟩, hreplayed, fun hs ↦ by simp at hs, fun _ ↦ hdelivered⟩
    · simp only [counterModulus]
      omega
    · dsimp only
      omega
  · have heq : c.flvHdrOff = c.position := by omega
    refine ⟨⟨h.cursor, h.behind⟩, hreplayed, fun hs ↦ by simp at hs, ?_⟩
    intro _
    dsimp only
    rw [hdelivered, heq]

private theorem AndroidClient.moves (h : AndroidClient s c) (hb : Buffered s) {call : Call}
    {c' : HttpClient} (hmove : Moves androidEndHeader s c call c')
    (hwindow : ∀ k, call = .sent (.bytes k) → await s c = .ringBytes →
      s.stream.length ≤ c.position + ringSize) : AndroidClient s c' := by
  cases hmove with
  | interrupted => exact h
  | httpHeader _ => exact ⟨⟨h.cursor, h.behind⟩, h.replayed, h.header, h.live⟩
  | cachedHeader hsent hpos hk =>
    obtain ⟨hposition, hdelivered⟩ := h.header hsent
    refine ⟨⟨h.cursor, h.behind⟩, hk, fun _ ↦ ⟨hposition, ?_⟩, ?_⟩
    · rw [delivered_sendCached hb hk, hdelivered, ← List.take_add]
      rfl
    · intro hs
      simp [HttpClient.sendCached, hsent] at hs
  | headerEnd hsent hoff => exact h.endHeader hb hsent hoff
  | ringBytes hawait hsent hpos hlive hk =>
    have hplaced := h.toPlaced.sendRing hb hlive hk
    have hsent' := hb.flvHdrSent hsent hlive
    refine ⟨hplaced, h.replayed, ?_, ?_⟩
    · intro hs
      simp [HttpClient.sendRing, hsent'] at hs
    · intro _
      rw [delivered_sendRing h.toPlaced hb hlive hk (hwindow _ rfl hawait), h.live hsent',
        ← List.take_add]
      rfl

end Client

/-! ### Runs -/

private theorem androidClient_joined {s : StreamState} (hb : Buffered s) (fd : Nat) :
    AndroidClient s (.joined fd s.flvHeader.length s.flvHeader.length) where
  cursor := by
    have hlen := hb.length_flvHeader
    simp only [headerCacheSize] at hlen
    simp only [HttpClient.joined, counterModulus]
    omega
  behind := hb.length_flvHeader.2
  replayed := Nat.zero_le _
  header _ := ⟨le_rfl, rfl⟩
  live hsent := by cases hsent

private theorem good_androidStep (s : StreamState) (e : AndroidEvent) (t : StreamState)
    (hwindow : InWindow s e) (h : AndroidGood s) (hstep : androidStep s e = some t) :
    AndroidGood t := by
  have hb := h.toBuffered
  cases e with
  | received data =>
    obtain ⟨⟨-, -, -, hdata⟩, heq⟩ := Option.ite_none_right_eq_some.mp hstep
    cases heq
    refine ⟨hb.receive hdata, ?_⟩
    intro c hc hfd
    rw [clients_receive] at hc
    exact (h.clients c hc hfd).receive hb hdata
  | ended =>
    obtain ⟨-, heq⟩ := Option.ite_none_right_eq_some.mp hstep
    cases heq
    exact ⟨⟨hb.ring, hb.total, hb.header⟩, fun c hc ↦ by simp at hc⟩
  | joined fd =>
    obtain ⟨-, heq⟩ := Option.ite_none_right_eq_some.mp hstep
    cases heq
    obtain ⟨clients, draining, hjoin⟩ : ∃ clients draining,
        androidJoin s fd = { s with clients, draining } := join_frame
    refine ⟨hb.of_frame ⟨clients, draining, hjoin⟩, ?_⟩
    intro c hc hfd
    have hclient : AndroidClient s c := by
      obtain hc | rfl := mem_clients_join hc
      · exact h.clients c hc hfd
      · exact androidClient_joined hb fd
    rw [hjoin]
    exact hclient.of_eq rfl rfl
  | call call =>
    obtain ⟨i, hi, hdrain⟩ := Option.bind_eq_some_iff.mp hstep
    have hframe := drainStep_frame hdrain
    refine ⟨hb.of_frame hframe, ?_⟩
    intro c hc hfd
    have hclient : AndroidClient s c := by
      apply forall_drainStep hdrain h.clients _ hc hfd
      intro c c' hget hfd hc hmove
      apply hc.moves hb hmove
      intro k hcall hawait
      subst hcall
      exact hwindow c (by simp [current, hi, hget]) hawait
    obtain ⟨clients, draining, rfl⟩ := hframe
    exact hclient.of_eq rfl rfl

private theorem good_androidInit (memory : Nat → UInt8) : AndroidGood (streamInit memory true) :=
  ⟨.of_stream_eq_nil rfl rfl rfl, fun c hc ↦ by simp [streamInit] at hc⟩

/-- While no client is sent bytes of the ring from a cursor more than the size of the ring
behind, every open client has been sent a prefix of the stream, each byte at its position. -/
theorem android_prefix_of_inWindow {memory : Nat → UInt8} {events : List AndroidEvent}
    {t : StreamState} (hrun : run androidStep (streamInit memory true) events = some t)
    (hwindow : Always androidStep InWindow (streamInit memory true) events) :
    ∀ c ∈ t.clients, 0 ≤ c.fd →
      c.delivered.map Prod.fst <+: t.stream ∧
        ∀ b p, (b, p) ∈ c.delivered → t.stream[p]? = some b := by
  intro c hc hfd
  have hgood := invariant_run androidStep good_androidStep hwindow (good_androidInit memory) hrun
  have hclient := hgood.clients c hc hfd
  obtain ⟨n, hn⟩ : ∃ n, c.delivered = t.stream.zipIdx.take n := by
    cases hsent : c.flvHdrSent with
    | false => exact ⟨_, (hclient.header hsent).2⟩
    | true => exact ⟨_, hclient.live hsent⟩
  rw [hn]
  constructor
  · rw [List.map_take, List.zipIdx_map_fst]
    exact List.take_prefix n t.stream
  · intro b p hmem
    exact List.mem_zipIdx_iff_getElem?.mp (List.mem_of_mem_take hmem)

/-- A client that joins after the first byte and is sent what follows at once. -/
def promptEvents : List AndroidEvent :=
  [.received [70], .call .own, .joined 5, .received [76, 86], .call (.wrote true),
    .call (.sent (.bytes 3)), .call .own, .call .own, .call .own, .received [1],
    .call (.sent (.bytes 1))]

instance (s : StreamState) : (e : AndroidEvent) → Decidable (InWindow s e)
  | .call (.sent (.bytes _)) =>
    inferInstanceAs (Decidable (∀ c ∈ current s, await s c = .ringBytes →
      s.stream.length ≤ c.position + ringSize))
  | .call (.sent .wouldBlock) | .call (.sent .interrupted) | .call (.sent .failed)
  | .call (.wrote _) | .call .own | .received _ | .ended | .joined _ => isTrue trivial

theorem android_prefix_prompt :
    ∃ t, run androidStep (streamInit (fun _ ↦ 0) true) promptEvents = some t ∧
      (∃ c ∈ t.clients, c.fd = 5 ∧ c.delivered.map Prod.fst = [70, 76, 86, 1]) ∧
      ∀ c ∈ t.clients, 0 ≤ c.fd →
        c.delivered.map Prod.fst <+: t.stream ∧
          ∀ b p, (b, p) ∈ c.delivered → t.stream[p]? = some b := by
  have hrun : ∃ t, run androidStep (streamInit (fun _ ↦ 0) true) promptEvents = some t ∧
      ∃ c ∈ t.clients, c.fd = 5 ∧ c.delivered.map Prod.fst = [70, 76, 86, 1] :=
    exists_run androidStep _ (by decide +kernel)
  obtain ⟨t, ht, hsent⟩ := hrun
  exact ⟨t, ht, hsent, android_prefix_of_inWindow ht (by decide +kernel)⟩

/-! ### A client that joins late -/

/-- The bytes of a full receive call. -/
private def zeros : Bytes := List.replicate recvSize 0

/-- After `n` calls that received zeros, and no client. -/
private def idle (n : Nat) : StreamState :=
  { streamInit (fun _ ↦ 0) true with
    totalBytes := recvSize * n % counterModulus
    stream := List.replicate (recvSize * n) 0
    flvHeader := (List.replicate (recvSize * n) 0).take headerCacheSize }

private theorem length_zeros : zeros.length = recvSize := List.length_replicate

private theorem idle_zero : idle 0 = streamInit (fun _ ↦ 0) true := by
  simp [idle, streamInit]

private theorem buffered_idle (n : Nat) : Buffered (idle n) := by
  refine ⟨?_, ?_, rfl⟩
  · intro p x hx _
    obtain ⟨_, rfl⟩ := List.getElem?_eq_some_iff.mp hx
    exact (List.getElem_replicate ..).symm
  · simp only [idle, List.length_replicate]

private theorem run_idle (n : Nat) :
    run androidStep (idle n) [.received zeros, .call .own] = some (idle (n + 1)) := by
  have hdata : zeros.length ≤ recvSize := length_zeros.le
  have hreceived : androidStep (idle n) (.received zeros) = some (receive (idle n) zeros) := by
    rw [androidStep, if_pos]
    exact ⟨rfl, rfl, length_zeros ▸ by decide, hdata⟩
  have hstream : List.replicate (recvSize * n) (0 : UInt8) ++ zeros =
      List.replicate (recvSize * (n + 1)) 0 := by
    rw [zeros, List.replicate_append_replicate, Nat.mul_succ]
  have hbuf : wrapWrite ringSize (fun _ ↦ 0) (recvSize * n % counterModulus) zeros =
      fun _ ↦ 0 := wrapWrite_replicate 0 recvSize
  rw [run_cons, hreceived, receive_eq (buffered_idle n)]
  simp only [idle, streamInit, hbuf, hstream, length_zeros, Nat.mod_add_mod]
  rfl

/-- A client joins, the next byte is received, and the client is sent the cache and a byte. -/
private def lateEvents : List AndroidEvent :=
  [.joined 7, .received [1], .call (.wrote true), .call (.sent (.bytes headerCacheSize)),
    .call .own, .call (.sent (.bytes 1))]

/-- The first byte of the ring goes to the cell the late client reads first. -/
private theorem slice_late (buf : Nat → UInt8) :
    slice (wrapWrite ringSize buf (ringSize + headerCacheSize) [1])
      (headerCacheSize % ringSize) 1 = [1] := by
  have hcell : headerCacheSize % ringSize = (ringSize + headerCacheSize + 0) % ringSize := by
    rw [Nat.add_zero, Nat.add_mod_left]
  rw [hcell]
  have hwritten : wrapWrite ringSize buf (ringSize + headerCacheSize) [1]
      ((ringSize + headerCacheSize + 0) % ringSize) = 1 :=
    wrapWrite_written (by decide) (by decide) (by decide)
  exact congrArg (fun b ↦ [b]) hwritten

/-- A call in the turn of the only client. -/
private theorem call_single {s : StreamState} {c c' : HttpClient} {call : Call} (hfd : 0 ≤ c.fd)
    (hdrain : drain androidEndHeader s c call = some (.goesOn c')) :
    androidStep { s with clients := [c], draining := some 0 } (.call call) =
      some { s with clients := [c'], draining := some 0 } := by
  have hopen : ¬c.fd < 0 := by omega
  have hturn : drain androidEndHeader { s with clients := [c], draining := some 0 } c call =
      some (.goesOn c') := hdrain
  simp only [androidStep, Option.bind_some, drainStep, List.getElem?_cons_zero, if_neg hopen,
    hturn, Option.map_some, applyTurn, List.set_cons_zero]

/-- A client that joined at the end of the cache is sent the cache and the byte at its cursor. -/
private theorem run_served {u : StreamState} {n : Nat} (hheader : u.flvHeader.length = n)
    (hpos : 0 < n) (hlive : n < u.totalBytes)
    (htake : ∀ c : HttpClient, c.cursor = n → 1 ≤ ringTake u c)
    (hslice : slice u.buf (n % ringSize) 1 = [1]) :
    ∃ t c, run androidStep { u with clients := [.joined 7 n n], draining := some 0 }
        [.call (.wrote true), .call (.sent (.bytes n)), .call .own, .call (.sent (.bytes 1))] =
        some t ∧ t.clients = [c] ∧ c.fd = 7 ∧
      t.stream = u.stream ∧ c.delivered.map Prod.fst = u.flvHeader ++ [1] := by
  have hwhole : u.flvHeader.take n = u.flvHeader := List.take_of_length_le hheader.le
  have hfd : 0 ≤ (7 : Int) := by decide
  let sent := HttpClient.sendRing ⟨7, n, true, true, n, n, u.flvHeader.zipIdx⟩ u 1
  have hwrote : drain androidEndHeader u (.joined 7 n n) (.wrote true) =
      some (.goesOn ⟨7, n, true, false, 0, n, []⟩) := rfl
  have hreplay : drain androidEndHeader u ⟨7, n, true, false, 0, n, []⟩ (.sent (.bytes n)) =
      some (.goesOn ⟨7, n, true, false, n, n, u.flvHeader.zipIdx⟩) := by
    simp [drain, await, hheader, hpos, afterSend, hpos.ne', HttpClient.sendCached, hwhole]
  have hend : drain androidEndHeader u ⟨7, n, true, false, n, n, u.flvHeader.zipIdx⟩ .own =
      some (.goesOn ⟨7, n, true, true, n, n, u.flvHeader.zipIdx⟩) := by
    simp [drain, await, hheader, hpos, androidEndHeader]
  have hring : drain androidEndHeader u ⟨7, n, true, true, n, n, u.flvHeader.zipIdx⟩
      (.sent (.bytes 1)) = some (.goesOn sent) := by
    have hlimit := htake ⟨7, n, true, true, n, n, u.flvHeader.zipIdx⟩ rfl
    simp [sent, drain, await, hlive, afterSend, hlimit]
  refine ⟨{ u with clients := [sent], draining := some 0 }, sent, ?_, rfl, rfl, rfl, ?_⟩
  · rw [run_cons, call_single hfd hwrote, Option.bind_some, run_cons, call_single hfd hreplay,
      Option.bind_some, run_cons, call_single hfd hend, Option.bind_some, run_cons,
      call_single hfd hring]
    rfl
  · simp [sent, HttpClient.sendRing, hslice, List.zipIdx_map_fst]

private theorem run_late (s : StreamState) (hreceiving : s.receiving = true)
    (hdraining : s.draining = none) (hclients : s.clients = [])
    (hheader : s.flvHeader.length = headerCacheSize)
    (htotal : s.totalBytes = ringSize + headerCacheSize) :
    ∃ t c, run androidStep s lateEvents = some t ∧ t.clients = [c] ∧ c.fd = 7 ∧
      t.stream = s.stream ++ [1] ∧ c.delivered.map Prod.fst = s.flvHeader ++ [1] := by
  let joined : StreamState := { s with clients := [.joined 7 headerCacheSize headerCacheSize] }
  let received : StreamState := { joined with
    buf := wrapWrite ringSize s.buf s.totalBytes [1]
    totalBytes := (s.totalBytes + 1) % counterModulus
    draining := some 0
    stream := s.stream ++ [1] }
  have hfull : ¬s.flvHeader.length < headerCacheSize := hheader.not_lt
  have hjoined : androidStep s (.joined 7) = some joined := by
    rw [androidStep, if_pos hdraining, androidJoin, hclients, hheader]
    rfl
  have hreceived : androidStep joined (.received [1]) = some received := by
    rw [androidStep, if_pos ⟨hreceiving, hdraining, by decide, by decide⟩, receive, cacheHeader,
      if_neg hfull]
    rfl
  have hbytes : received.totalBytes = ringSize + headerCacheSize + 1 :=
    congrArg (fun total ↦ (total + 1) % counterModulus) htotal
  have hlive : headerCacheSize < received.totalBytes := hbytes ▸ by decide
  have htake : ∀ c : HttpClient, c.cursor = headerCacheSize → 1 ≤ ringTake received c := by
    intro c hc
    rw [ringTake, hc, hbytes]
    decide
  have hslice : slice received.buf (headerCacheSize % ringSize) 1 = [1] := by
    rw [show received.buf = wrapWrite ringSize s.buf s.totalBytes [1] from rfl, htotal]
    exact slice_late s.buf
  rw [lateEvents, run_cons, hjoined, Option.bind_some, run_cons, hreceived, Option.bind_some]
  exact run_served (u := received) hheader (by decide) hlive htake hslice

private theorem run_idle_late {n : Nat} (hheader : headerCacheSize < recvSize * n)
    (htotal : recvSize * n % counterModulus = ringSize + headerCacheSize) :
    ∃ events t c, run androidStep (streamInit (fun _ ↦ 0) true) events = some t ∧
      c ∈ t.clients ∧ 0 ≤ c.fd ∧ ¬ c.delivered.map Prod.fst <+: t.stream := by
  have hlen : (idle n).flvHeader.length = headerCacheSize := by
    simp only [idle, List.length_take, List.length_replicate]
    omega
  obtain ⟨t, c, ht, hclients, hfd, hstream, hsent⟩ := run_late (idle n) rfl rfl rfl hlen htotal
  have hidle := run_replicate androidStep idle run_idle n
  refine ⟨(List.replicate n [.received zeros, .call .own]).flatten ++ lateEvents, t, c, ?_, ?_, ?_,
    ?_⟩
  · rw [run_append, ← idle_zero, hidle]
    exact ht
  · simp [hclients]
  · simp [hfd]
  · intro hbegins
    rw [hsent, hstream] at hbegins
    have hlast := List.prefix_iff_getElem?.mp hbegins headerCacheSize (by simp [hlen])
    have hlate : headerCacheSize < (idle n).stream.length := by
      simpa only [idle, List.length_replicate] using hheader
    rw [List.getElem?_append_left hlate, List.getElem_append_right hlen.le] at hlast
    obtain ⟨_, hzero⟩ := List.getElem?_eq_some_iff.mp hlast
    simp [idle] at hzero

/-- A client that joins after the ring has wrapped is sent the byte that was just received in
place of the one that stood in its cell before. -/
theorem android_late_client_not_prefix :
    ¬ ∀ memory events t, run androidStep (streamInit memory true) events = some t →
      ∀ c ∈ t.clients, 0 ≤ c.fd → c.delivered.map Prod.fst <+: t.stream := by
  intro h
  obtain ⟨events, t, c, hrun, hc, hfd, hnot⟩ := run_idle_late
    (show headerCacheSize < recvSize * 2049 by decide) (by decide)
  exact hnot (h _ events t hrun c hc hfd)

end Kitty.Flv
