import Kitty.Base.Run
import Kitty.Flv.Stream

/-!
# The cloud consumer

`src/consumer-srt-cloud/consumer_srt.c:258–441, 501–561`. A client is sent the cache and then what
arrives after it joined; one that falls too far behind is dropped before the next client is
served. A new provider starts a new session, and the clients that are there stay.
-/

namespace Kitty.Flv

open Kitty.Base

/-- `MAX_HTTP_CLIENTS` of the cloud consumer. -/
def cloudMaxClients : Nat := 8

/-- The end of the replay; the cursor stays where it is. -/
def cloudEndHeader (c : HttpClient) : HttpClient := { c with flvHdrSent := true }

/-- `prune_lagged_clients_locked`. -/
def pruneLagged (s : StreamState) : StreamState :=
  { s with
    clients := s.clients.map fun c ↦
      if 0 ≤ c.fd ∧ ringSize < (s.totalBytes + counterModulus - c.cursor) % counterModulus then
        { c with fd := -1 }
      else c }

/-- A session starts: `srt_producer_thread` resets the counter, the cache and every client. What
a client was sent is counted anew. -/
def startSession (s : StreamState) : StreamState :=
  { s with
    totalBytes := 0
    flvHeader := []
    receiving := true
    stream := []
    clients := s.clients.map fun c ↦
      if 0 ≤ c.fd then
        { c with
          cursor := 0, flvHdrSent := false, flvHdrOff := 0, position := 0, delivered := [] }
      else c }

/-- `http_handshake_thread` once it has the mutex: the cursor is the end of the stream. -/
def cloudJoin (s : StreamState) (fd : Nat) : StreamState :=
  if s.clients.length < cloudMaxClients then
    { s with clients := s.clients ++ [.joined fd s.totalBytes s.stream.length] }
  else s

/-- What happens to the stream: a provider is accepted; a receive call returns bytes, or the last
one of a session does; a client has finished its handshake; a call in some client's turn. -/
inductive CloudEvent where
  | accepted
  | received (data : Bytes)
  | ended
  | joined (fd : Nat)
  | call (call : Call)

/-- `srt_producer_thread` and `http_handshake_thread`. -/
def cloudStep (s : StreamState) : CloudEvent → Option StreamState
  | .accepted => if ¬s.receiving ∧ s.draining = none then some (startSession s) else none
  | .received data =>
    if s.receiving ∧ s.draining = none ∧ 0 < data.length ∧ data.length ≤ recvSize then
      some (pruneLagged (receive s data))
    else none
  | .ended =>
    if s.receiving ∧ s.draining = none then some { s with receiving := false } else none
  | .joined fd => if s.draining = none then some (cloudJoin s fd) else none
  | .call call => s.draining.bind fun i ↦ drainStep cloudEndHeader s i call

/-! ### What a client was sent -/

/-- The cursor of an open client is at most the size of the ring behind. A client was sent bytes
of the cache, and then the stream from some position on up to its own. -/
structure CloudClient (s : StreamState) (c : HttpClient) : Prop extends Placed s c where
  window : s.stream.length ≤ c.position + ringSize
  replayed : c.flvHdrOff ≤ s.flvHeader.length
  header : c.flvHdrSent = false → c.delivered = s.stream.zipIdx.take c.flvHdrOff
  live : c.flvHdrSent = true → ∃ start n, c.position = start + n ∧
    c.delivered = s.stream.zipIdx.take c.flvHdrOff ++ (s.stream.zipIdx.drop start).take n

/-- The stream is buffered and every open client is served from it. -/
structure CloudGood (s : StreamState) : Prop extends Buffered s where
  clients : ∀ c ∈ s.clients, 0 ≤ c.fd → CloudClient s c

section Client

variable {s : StreamState} {c : HttpClient}

private theorem take_drop_zipIdx_append {l : Bytes} {start n : Nat} (data : Bytes)
    (h : start + n ≤ l.length) :
    ((l ++ data).zipIdx.drop start).take n = (l.zipIdx.drop start).take n := by
  have hlen : start ≤ l.zipIdx.length := by
    rw [List.length_zipIdx]
    omega
  rw [List.zipIdx_append, List.drop_append_of_le_length hlen,
    List.take_append_of_le_length (by rw [List.length_drop, List.length_zipIdx]; omega)]

private theorem CloudClient.of_eq {t : StreamState} (h : CloudClient s c)
    (hstream : t.stream = s.stream) (hheader : t.flvHeader = s.flvHeader) : CloudClient t c where
  cursor := h.cursor
  behind := hstream ▸ h.behind
  window := hstream ▸ h.window
  replayed := hheader ▸ h.replayed
  header := hstream ▸ h.header
  live := hstream ▸ h.live

/-- A client that is not dropped keeps up with what was received. -/
private theorem CloudClient.receive (h : CloudClient s c) (hb : Buffered s) {data : Bytes}
    (hdata : data.length ≤ recvSize)
    (hkept : ¬ringSize < ((receive s data).totalBytes + counterModulus - c.cursor) %
      counterModulus) : CloudClient (pruneLagged (Flv.receive s data)) c := by
  have hlen := hb.length_flvHeader
  have hgrows := hb.length_flvHeader_receive hdata
  have htotal := (hb.receive hdata).total
  have hbehind := h.behind
  have hreplayed := h.replayed
  have hcursor := h.cursor
  have hwindow := h.window
  rw [stream_receive, List.length_append] at htotal
  have hstream : (pruneLagged (Flv.receive s data)).stream = s.stream ++ data :=
    stream_receive s data
  refine ⟨⟨hcursor, ?_⟩, ?_, ?_, ?_, ?_⟩
  · rw [hstream, List.length_append]
    omega
  · rw [hstream, List.length_append]
    rw [htotal, hcursor] at hkept
    simp only [ringSize, counterModulus, recvSize] at *
    omega
  · exact hreplayed.trans hgrows
  · intro hsent
    rw [hstream, take_zipIdx_append data (by omega)]
    exact h.header hsent
  · intro hsent
    obtain ⟨start, n, hposition, hdelivered⟩ := h.live hsent
    refine ⟨start, n, hposition, ?_⟩
    rw [hstream, take_zipIdx_append data (by omega), take_drop_zipIdx_append data (by omega)]
    exact hdelivered

/-- Every move of a client in its turn keeps it served from the stream. -/
theorem CloudClient.moves (h : CloudClient s c) (hb : Buffered s) {call : Call}
    {c' : HttpClient} (hmove : Moves cloudEndHeader s c call c') : CloudClient s c' := by
  cases hmove with
  | interrupted => exact h
  | httpHeader _ => exact ⟨⟨h.cursor, h.behind⟩, h.window, h.replayed, h.header, h.live⟩
  | cachedHeader hsent hpos hk =>
    refine ⟨⟨h.cursor, h.behind⟩, h.window, hk, ?_, ?_⟩
    · intro _
      rw [delivered_sendCached hb hk, h.header hsent, ← List.take_add]
      rfl
    · intro hs
      simp [HttpClient.sendCached, hsent] at hs
  | headerEnd hsent hoff =>
    refine ⟨⟨h.cursor, h.behind⟩, h.window, h.replayed, fun hs ↦ by simp [cloudEndHeader] at hs,
      fun _ ↦ ⟨c.position, 0, rfl, ?_⟩⟩
    rw [List.take_zero, List.append_nil]
    exact h.header hsent
  | @ringBytes k hawait hsent hpos hlive hk =>
    have hsent' := hb.flvHdrSent hsent hlive
    refine ⟨h.toPlaced.sendRing hb hlive hk, ?_, h.replayed, ?_, ?_⟩
    · exact h.window.trans (by simp only [HttpClient.sendRing]; omega)
    · intro hs
      simp [HttpClient.sendRing, hsent'] at hs
    · intro _
      obtain ⟨start, n, hposition, hdelivered⟩ := h.live hsent'
      refine ⟨start, n + k, by simp only [HttpClient.sendRing]; omega, ?_⟩
      rw [delivered_sendRing h.toPlaced hb hlive hk h.window, hdelivered, hposition,
        List.append_assoc, ← List.drop_drop, ← List.take_add]
      rfl

end Client

/-! ### Runs -/

/-- The open clients of a session that has just started. -/
theorem mem_startSession {s : StreamState} {c : HttpClient}
    (hc : c ∈ (startSession s).clients) (hfd : 0 ≤ c.fd) :
    ∃ c₀ : HttpClient, c =
      { c₀ with
        cursor := 0, flvHdrSent := false, flvHdrOff := 0, position := 0, delivered := [] } := by
  obtain ⟨c₀, -, rfl⟩ := List.mem_map.mp hc
  split at hfd
  · next hopen => exact ⟨c₀, if_pos hopen⟩
  · next hclosed => exact absurd hfd hclosed

/-- The open clients that were not dropped. -/
theorem mem_pruneLagged {s : StreamState} {c : HttpClient} (hc : c ∈ (pruneLagged s).clients)
    (hfd : 0 ≤ c.fd) : c ∈ s.clients ∧
      ¬ringSize < (s.totalBytes + counterModulus - c.cursor) % counterModulus := by
  obtain ⟨c₀, hc₀, rfl⟩ := List.mem_map.mp hc
  split at hfd
  · simp at hfd
  · next hkept =>
    rw [if_neg hkept]
    exact ⟨hc₀, fun hlag ↦ hkept ⟨hfd, hlag⟩⟩

/-- Every event keeps the clients served from the buffered stream. -/
theorem good_cloudStep (s : StreamState) (e : CloudEvent) (t : StreamState) (h : CloudGood s)
    (hstep : cloudStep s e = some t) : CloudGood t := by
  have hb := h.toBuffered
  cases e with
  | accepted =>
    obtain ⟨-, heq⟩ := Option.ite_none_right_eq_some.mp hstep
    cases heq
    refine ⟨.of_stream_eq_nil rfl rfl rfl, ?_⟩
    intro c hc hfd
    obtain ⟨c₀, rfl⟩ := mem_startSession hc hfd
    exact ⟨⟨rfl, le_rfl⟩, Nat.zero_le _, le_rfl, fun _ ↦ rfl, fun hs ↦ by cases hs⟩
  | received data =>
    obtain ⟨⟨-, -, -, hdata⟩, heq⟩ := Option.ite_none_right_eq_some.mp hstep
    cases heq
    have hb' := hb.receive hdata
    refine ⟨⟨hb'.ring, hb'.total, hb'.header⟩, ?_⟩
    intro c hc hfd
    obtain ⟨hc, hkept⟩ := mem_pruneLagged hc hfd
    rw [clients_receive] at hc
    exact (h.clients c hc hfd).receive hb hdata hkept
  | ended =>
    obtain ⟨-, heq⟩ := Option.ite_none_right_eq_some.mp hstep
    cases heq
    refine ⟨⟨hb.ring, hb.total, hb.header⟩, ?_⟩
    intro c hc hfd
    exact (h.clients c hc hfd).of_eq rfl rfl
  | joined fd =>
    obtain ⟨-, heq⟩ := Option.ite_none_right_eq_some.mp hstep
    cases heq
    obtain ⟨clients, draining, hjoin⟩ : ∃ clients draining,
        cloudJoin s fd = { s with clients, draining } := join_frame
    refine ⟨hb.of_frame ⟨clients, draining, hjoin⟩, ?_⟩
    intro c hc hfd
    have hclient : CloudClient s c := by
      obtain hc | rfl := mem_clients_join hc
      · exact h.clients c hc hfd
      · exact ⟨⟨hb.total, le_rfl⟩, Nat.le_add_right _ _, Nat.zero_le _, fun _ ↦ rfl,
          fun hs ↦ by cases hs⟩
    rw [hjoin]
    exact hclient.of_eq rfl rfl
  | call call =>
    obtain ⟨i, hi, hdrain⟩ := Option.bind_eq_some_iff.mp hstep
    have hframe := drainStep_frame hdrain
    refine ⟨hb.of_frame hframe, ?_⟩
    intro c hc hfd
    have hclient : CloudClient s c :=
      forall_drainStep hdrain h.clients (fun c c' _ _ hc hmove ↦ hc.moves hb hmove) hc hfd
    obtain ⟨clients, draining, rfl⟩ := hframe
    exact hclient.of_eq rfl rfl

theorem good_cloudInit (memory : Nat → UInt8) : CloudGood (streamInit memory false) :=
  ⟨.of_stream_eq_nil rfl rfl rfl, fun c hc ↦ by simp [streamInit] at hc⟩

/-- In every reachable state the ring holds the last bytes of the session, the cursor of every
open client lies within them, and a call that sends bytes of the ring sends those of the stream
at the cursor and moves the cursor by their number. -/
theorem cloud_ring_holds_last {memory : Nat → UInt8} {events : List CloudEvent} {t : StreamState}
    (hrun : run cloudStep (streamInit memory false) events = some t) :
    t.totalBytes = t.stream.length % 2 ^ 64 ∧
      (∀ p b, t.stream[p]? = some b → t.stream.length ≤ p + ringSize →
        t.buf (p % ringSize) = b) ∧
      (∀ c ∈ t.clients, 0 ≤ c.fd → c.cursor = c.position % 2 ^ 64 ∧
        c.position ≤ t.stream.length ∧ t.stream.length ≤ c.position + ringSize) ∧
      ∀ i c k u, t.draining = some i → t.clients[i]? = some c → await t c = .ringBytes → 0 < k →
        cloudStep t (.call (.sent (.bytes k))) = some u →
          u.clients[i]? = some { c with
            cursor := c.cursor + k
            position := c.position + k
            delivered := c.delivered ++ ((t.stream.drop c.position).take k).zipIdx c.position } ∧
          u.stream = t.stream := by
  have hgood := invariant_of_run cloudStep good_cloudStep (good_cloudInit memory) hrun
  have hb := hgood.toBuffered
  refine ⟨hb.total, hb.ring, ?_, ?_⟩
  · intro c hc hfd
    have hclient := hgood.clients c hc hfd
    exact ⟨hclient.cursor, hclient.behind, hclient.window⟩
  · intro i c k u hi hc hawait hk hstep
    simp only [cloudStep, hi, Option.bind_some] at hstep
    obtain ⟨hfd, htake, rfl⟩ := drainStep_ringBytes hstep hc hawait hk
    have hclient := hgood.clients c (List.mem_of_getElem? hc) hfd
    obtain ⟨-, hlive⟩ := await_ringBytes hawait
    have hnowrap : (c.cursor + k) % counterModulus = c.cursor + k := by
      have hend := Nat.mod_lt t.stream.length (show 0 < counterModulus by decide)
      rw [← hb.total] at hend
      have hpending : ringTake t c ≤ t.totalBytes - c.cursor := by
        simp only [ringTake]
        split <;> omega
      exact Nat.mod_eq_of_lt (by omega)
    refine ⟨?_, rfl⟩
    rw [List.getElem?_set_self (List.getElem?_eq_some_iff.mp hc).1, HttpClient.sendRing, hnowrap,
      slice_ring hclient.toPlaced hb hlive htake hclient.window]

/-- A provider connects, a client joins between two receive calls, and the replay of the cache to
it has ended. -/
def cloudEvents : List CloudEvent :=
  [.accepted, .received [70], .call .own, .joined 5, .received [76, 86], .call (.wrote true),
    .call (.sent (.bytes 3)), .call .own]

theorem cloud_ring_holds_last_start :
    ∃ t, run cloudStep (streamInit (fun _ ↦ 0) false) cloudEvents = some t ∧
      (∃ c ∈ t.clients, c.cursor = 1 ∧ await t c = .ringBytes) ∧
      t.totalBytes = t.stream.length % 2 ^ 64 ∧
      (∀ p b, t.stream[p]? = some b → t.stream.length ≤ p + ringSize →
        t.buf (p % ringSize) = b) ∧
      ∀ c ∈ t.clients, 0 ≤ c.fd → c.cursor = c.position % 2 ^ 64 ∧
        c.position ≤ t.stream.length ∧ t.stream.length ≤ c.position + ringSize := by
  have hrun : ∃ t, run cloudStep (streamInit (fun _ ↦ 0) false) cloudEvents = some t ∧
      ∃ c ∈ t.clients, c.cursor = 1 ∧ await t c = .ringBytes :=
    exists_run cloudStep _ (by decide +kernel)
  obtain ⟨t, ht, hserved⟩ := hrun
  have hring := cloud_ring_holds_last ht
  exact ⟨t, ht, hserved, hring.1, hring.2.1, hring.2.2.1⟩

end Kitty.Flv
