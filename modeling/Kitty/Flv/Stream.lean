import Kitty.Base.Bytes
import Kitty.Base.Window

/-!
# The stream and its HTTP clients

What the two SRT consumers share; `src/consumer-srt-cloud/consumer_srt.c:106–139, 274–327` and
`src/consumer-srt-android/consumer_srt_p2p.c:134–241`. The bytes of the stream go to a ring and the
first of them to a cache; every client is sent the cache and then the ring from its cursor on.
The thread that receives has the mutex while it sends, and a client's turn is told here from one
call into the system to the next.
-/

namespace Kitty.Flv

open Kitty.Base

/-- `RING_SIZE`. -/
def ringSize : Nat := 4 * 1024 * 1024

/-- `HEADER_CACHE_SIZE`. -/
def headerCacheSize : Nat := 2048

/-- The most bytes one call receives, `sizeof(buf)`. -/
def recvSize : Nat := 2048

/-- The counters of bytes are of type `uint64_t`. -/
def counterModulus : Nat := 2 ^ 64

/-- `http_client_t`. The last two fields are history: the position of the stream the cursor
stands for, and the bytes the client was sent of the stream, with their positions in it. -/
structure HttpClient where
  fd : Int
  cursor : Nat
  headerSent : Bool
  flvHdrSent : Bool
  flvHdrOff : Nat
  position : Nat
  delivered : List (UInt8 × Nat)
  deriving DecidableEq

/-- A client that has just joined. -/
def HttpClient.joined (fd cursor position : Nat) : HttpClient where
  fd := fd
  cursor := cursor
  headerSent := false
  flvHdrSent := false
  flvHdrOff := 0
  position := position
  delivered := []

/-- `g_stream`, with the bytes of `flv_header` in use and the clients below `n_clients`.
`receiving` tells whether the thread is in its loop of receive calls, `draining` whose turn it
is while it has the mutex. The bytes received in the session are history. -/
structure StreamState where
  buf : Nat → UInt8
  totalBytes : Nat
  clients : List HttpClient
  flvHeader : Bytes
  receiving : Bool
  draining : Option Nat
  stream : Bytes

/-- Before the first byte. -/
def streamInit (memory : Nat → UInt8) (receiving : Bool) : StreamState where
  buf := memory
  totalBytes := 0
  clients := []
  flvHeader := []
  receiving := receiving
  draining := none
  stream := []

/-! ### Receiving -/

/-- The first bytes of a session are cached. -/
def cacheHeader (s : StreamState) (data : Bytes) : StreamState :=
  if s.flvHeader.length < headerCacheSize then
    { s with flvHeader := s.flvHeader ++ data.take (headerCacheSize - s.flvHeader.length) }
  else s

/-- `ring_write`. -/
def ringWrite (s : StreamState) (data : Bytes) : StreamState :=
  { s with
    buf := wrapWrite ringSize s.buf s.totalBytes data
    totalBytes := (s.totalBytes + data.length) % counterModulus }

/-- What every receive call does to the stream before the clients are sent anything. -/
def receive (s : StreamState) (data : Bytes) : StreamState :=
  let s := ringWrite (cacheHeader s data) data
  { s with stream := s.stream ++ data, draining := some 0 }

/-- `prune_locked` and `compact_clients_locked`: the clients that were not closed move up. -/
def compact (clients : List HttpClient) : List HttpClient := clients.filter (0 ≤ ·.fd)

/-! ### A client's turn -/

/-- What a call of `send` returns: bytes taken, `EAGAIN`, `EINTR`, or another error. -/
inductive SendResult where
  | bytes (k : Nat)
  | wouldBlock
  | interrupted
  | failed
  deriving DecidableEq

/-- A call `drain_client_locked` makes, with what it returns: `write_all` of the HTTP header, or
`send`. Between two calls it takes steps of its own. -/
inductive Call where
  | wrote (ok : Bool)
  | sent (result : SendResult)
  | own
  deriving DecidableEq

/-- What `drain_client_locked` does next. -/
inductive Await where
  | httpHeader
  | cachedHeader
  | headerEnd
  | ringBytes
  | done
  deriving DecidableEq

/-- Where a client's turn is. -/
def await (s : StreamState) (c : HttpClient) : Await :=
  if !c.headerSent then .httpHeader
  else if !c.flvHdrSent && 0 < s.flvHeader.length then
    if c.flvHdrOff < s.flvHeader.length then .cachedHeader else .headerEnd
  else if c.cursor < s.totalBytes then .ringBytes
  else .done

/-- How many bytes of the ring the next call offers. -/
def ringTake (s : StreamState) (c : HttpClient) : Nat :=
  let pending := s.totalBytes - c.cursor
  let off := c.cursor % ringSize
  min (if off + pending ≤ ringSize then pending else ringSize - off) (2 ^ 20)

/-- Bytes of the cache were sent. -/
def HttpClient.sendCached (c : HttpClient) (s : StreamState) (k : Nat) : HttpClient :=
  { c with
    flvHdrOff := c.flvHdrOff + k
    delivered := c.delivered ++ ((s.flvHeader.drop c.flvHdrOff).take k).zipIdx c.flvHdrOff }

/-- Bytes of the ring were sent. -/
def HttpClient.sendRing (c : HttpClient) (s : StreamState) (k : Nat) : HttpClient :=
  { c with
    cursor := (c.cursor + k) % counterModulus
    position := c.position + k
    delivered := c.delivered ++ (slice s.buf (c.cursor % ringSize) k).zipIdx c.position }

/-- How a client's turn goes on: with the client as it is then, or it is over, and the client is
left as it was or closed. -/
inductive Turn where
  | goesOn (c : HttpClient)
  | finished
  | dropped

/-- After a call of `send` that was offered `limit` bytes. -/
def afterSend (c : HttpClient) (limit : Nat) (moved : Nat → HttpClient) :
    SendResult → Option Turn
  | .bytes k =>
    if k = 0 then some .dropped else if k ≤ limit then some (.goesOn (moved k)) else none
  | .wouldBlock => some .finished
  | .interrupted => some (.goesOn c)
  | .failed => some .dropped

/-- `drain_client_locked` from one call to the next. What it does when the cache has been sent
is not the same in the two programs. -/
def drain (endHeader : HttpClient → HttpClient) (s : StreamState) (c : HttpClient)
    (call : Call) : Option Turn :=
  match await s c, call with
  | .httpHeader, .wrote ok =>
    some (if ok then .goesOn { c with headerSent := true } else .dropped)
  | .cachedHeader, .sent r =>
    afterSend c (s.flvHeader.length - c.flvHdrOff) (c.sendCached s) r
  | .headerEnd, .own => some (.goesOn (endHeader c))
  | .ringBytes, .sent r => afterSend c (ringTake s c) (c.sendRing s) r
  | .done, .own => some .finished
  | _, _ => none

/-- What the turn of the `i`-th client does to the stream. -/
def applyTurn (s : StreamState) (i : Nat) (c : HttpClient) : Turn → StreamState
  | .goesOn c' => { s with clients := s.clients.set i c' }
  | .finished => { s with draining := some (i + 1) }
  | .dropped => { s with clients := s.clients.set i { c with fd := -1 }, draining := some (i + 1) }

/-- The loop over the clients. After the last of them the mutex is given back. -/
def drainStep (endHeader : HttpClient → HttpClient) (s : StreamState) (i : Nat) (call : Call) :
    Option StreamState :=
  match s.clients[i]? with
  | none =>
    if call = .own then some { s with clients := compact s.clients, draining := none } else none
  | some c =>
    if c.fd < 0 then if call = .own then some { s with draining := some (i + 1) } else none
    else (drain endHeader s c call).map (applyTurn s i c)

/-! ### What a turn can do -/

/-- What can have become of a client while its turn goes on. -/
inductive Moves (endHeader : HttpClient → HttpClient) (s : StreamState) (c : HttpClient) :
    Call → HttpClient → Prop where
  | interrupted : Moves endHeader s c (.sent .interrupted) c
  | httpHeader (h : c.headerSent = false) :
      Moves endHeader s c (.wrote true) { c with headerSent := true }
  | cachedHeader {k : Nat} (hsent : c.flvHdrSent = false) (hpos : 0 < k)
      (hk : c.flvHdrOff + k ≤ s.flvHeader.length) :
      Moves endHeader s c (.sent (.bytes k)) (c.sendCached s k)
  | headerEnd (hsent : c.flvHdrSent = false) (hoff : s.flvHeader.length ≤ c.flvHdrOff) :
      Moves endHeader s c .own (endHeader c)
  | ringBytes {k : Nat} (h : await s c = .ringBytes)
      (hsent : c.flvHdrSent = true ∨ s.flvHeader = []) (hpos : 0 < k)
      (hlive : c.cursor < s.totalBytes) (hk : k ≤ ringTake s c) :
      Moves endHeader s c (.sent (.bytes k)) (c.sendRing s k)

private theorem moves_of_afterSend {c c' : HttpClient} {limit : Nat} {moved : Nat → HttpClient}
    {r : SendResult} (h : afterSend c limit moved r = some (.goesOn c')) :
    r = .interrupted ∧ c' = c ∨ ∃ k, r = .bytes k ∧ 0 < k ∧ k ≤ limit ∧ c' = moved k := by
  cases r with
  | bytes k =>
    right
    simp only [afterSend] at h
    split at h
    · simp at h
    · next hk =>
      split at h
      · next hle =>
        refine ⟨k, rfl, Nat.pos_of_ne_zero hk, hle, ?_⟩
        simpa using h.symm
      · simp at h
  | interrupted =>
    left
    simp only [afterSend, Option.some.injEq, Turn.goesOn.injEq] at h
    exact ⟨rfl, h.symm⟩
  | wouldBlock => simp [afterSend] at h
  | failed => simp [afterSend] at h

private theorem await_cachedHeader {s : StreamState} {c : HttpClient}
    (h : await s c = .cachedHeader) :
    c.flvHdrSent = false ∧ c.flvHdrOff < s.flvHeader.length := by
  simp only [await] at h
  split at h
  · simp at h
  · split at h
    · next hsent =>
      split at h
      · next hoff =>
        simp only [Bool.and_eq_true, Bool.not_eq_eq_eq_not, Bool.not_true] at hsent
        exact ⟨hsent.1, hoff⟩
      · simp at h
    · split at h <;> simp at h

private theorem await_headerEnd {s : StreamState} {c : HttpClient}
    (h : await s c = .headerEnd) :
    c.flvHdrSent = false ∧ s.flvHeader.length ≤ c.flvHdrOff := by
  simp only [await] at h
  split at h
  · simp at h
  · split at h
    · next hsent =>
      split at h
      · simp at h
      · next hoff =>
        simp only [Bool.and_eq_true, Bool.not_eq_eq_eq_not, Bool.not_true] at hsent
        exact ⟨hsent.1, Nat.le_of_not_lt hoff⟩
    · split at h <;> simp at h

/-- Before a call that sends bytes of the ring. -/
theorem await_ringBytes {s : StreamState} {c : HttpClient}
    (h : await s c = .ringBytes) :
    (c.flvHdrSent = true ∨ s.flvHeader = []) ∧ c.cursor < s.totalBytes := by
  simp only [await] at h
  split at h
  · simp at h
  · split at h
    · split at h <;> simp at h
    · next hsent =>
      split at h
      · next hlive =>
        refine ⟨?_, hlive⟩
        cases hc : c.flvHdrSent with
        | true => exact .inl rfl
        | false => exact .inr (by simpa [hc] using hsent)
      · simp at h

private theorem await_httpHeader {s : StreamState} {c : HttpClient}
    (h : await s c = .httpHeader) : c.headerSent = false := by
  simp only [await] at h
  split at h
  · next hc => simpa using hc
  · split at h
    · split at h <;> simp at h
    · split at h <;> simp at h

/-- A turn that goes on is one of these moves. -/
theorem moves_of_drain {endHeader : HttpClient → HttpClient} {s : StreamState} {c c' : HttpClient}
    {call : Call} (h : drain endHeader s c call = some (.goesOn c')) :
    Moves endHeader s c call c' := by
  simp only [drain] at h
  split at h
  · next ok hawait =>
    cases ok with
    | false => simp at h
    | true =>
      simp only [if_true, Option.some.injEq, Turn.goesOn.injEq] at h
      subst h
      exact .httpHeader (await_httpHeader hawait)
  · next r hawait =>
    obtain ⟨hsent, hoff⟩ := await_cachedHeader hawait
    obtain ⟨rfl, rfl⟩ | ⟨k, rfl, hpos, hk, rfl⟩ := moves_of_afterSend h
    · exact .interrupted
    · exact .cachedHeader hsent hpos (by omega)
  · next hawait =>
    obtain ⟨hsent, hoff⟩ := await_headerEnd hawait
    simp only [Option.some.injEq, Turn.goesOn.injEq] at h
    subst h
    exact .headerEnd hsent hoff
  · next r hawait =>
    obtain ⟨hsent, hlive⟩ := await_ringBytes hawait
    obtain ⟨rfl, rfl⟩ | ⟨k, rfl, hpos, hk, rfl⟩ := moves_of_afterSend h
    · exact .interrupted
    · exact .ringBytes hawait hsent hpos hlive hk
  · simp at h
  · simp at h

/-- The client whose turn it is. -/
def current (s : StreamState) : Option HttpClient := s.draining.bind fun i ↦ s.clients[i]?

/-- A step of the loop changes the clients and whose turn it is. -/
theorem drainStep_frame {endHeader : HttpClient → HttpClient} {s t : StreamState} {i : Nat}
    {call : Call} (h : drainStep endHeader s i call = some t) :
    ∃ clients draining, t = { s with clients, draining } := by
  simp only [drainStep] at h
  split at h
  · split at h
    · exact ⟨_, _, (Option.some.inj h).symm⟩
    · simp at h
  · split at h
    · split at h
      · exact ⟨s.clients, _, (Option.some.inj h).symm⟩
      · simp at h
    · obtain ⟨turn, -, rfl⟩ := Option.map_eq_some_iff.mp h
      cases turn with
      | goesOn c' => exact ⟨_, s.draining, rfl⟩
      | finished => exact ⟨s.clients, _, rfl⟩
      | dropped => exact ⟨_, _, rfl⟩

/-- A call that sends bytes of the ring. -/
theorem drainStep_ringBytes {endHeader : HttpClient → HttpClient} {s t : StreamState} {i k : Nat}
    {c : HttpClient} (h : drainStep endHeader s i (.sent (.bytes k)) = some t)
    (hi : s.clients[i]? = some c) (hawait : await s c = .ringBytes) (hk : 0 < k) :
    0 ≤ c.fd ∧ k ≤ ringTake s c ∧ t = { s with clients := s.clients.set i (c.sendRing s k) } := by
  simp only [drainStep, hi] at h
  split at h
  · simp at h
  · next hopen =>
    simp only [drain, hawait, afterSend, if_neg hk.ne'] at h
    split at h
    · next hle =>
      simp only [Option.map_some, Option.some.injEq] at h
      exact ⟨by omega, hle, h.symm⟩
    · simp at h

/-- What holds of every open client and is kept by its own moves holds after a step. -/
theorem forall_drainStep {endHeader : HttpClient → HttpClient} {s t : StreamState} {i : Nat}
    {call : Call} (h : drainStep endHeader s i call = some t) {P : HttpClient → Prop}
    (hold : ∀ c ∈ s.clients, 0 ≤ c.fd → P c)
    (hmove : ∀ c c', s.clients[i]? = some c → 0 ≤ c.fd → P c → Moves endHeader s c call c' → P c')
    {c : HttpClient} (hc : c ∈ t.clients) (hfd : 0 ≤ c.fd) : P c := by
  simp only [drainStep] at h
  split at h
  · split at h
    · cases h
      exact hold c (List.mem_filter.mp hc).1 hfd
    · simp at h
  · next c₀ hi =>
    split at h
    · split at h
      · cases h
        exact hold c hc hfd
      · simp at h
    · next hopen =>
      have hmem := List.mem_of_getElem? hi
      obtain ⟨turn, hturn, rfl⟩ := Option.map_eq_some_iff.mp h
      cases turn with
      | goesOn c' =>
        obtain hc | rfl := List.mem_or_eq_of_mem_set hc
        · exact hold c hc hfd
        · have hopen : 0 ≤ c₀.fd := by omega
          exact hmove c₀ c hi hopen (hold c₀ hmem hopen) (moves_of_drain hturn)
      | finished => exact hold c hc hfd
      | dropped =>
        obtain hc | rfl := List.mem_or_eq_of_mem_set hc
        · exact hold c hc hfd
        · simp at hfd

section Join

variable {s : StreamState} {joined : HttpClient} {maxClients : Nat}

/-- The clients after one has joined, if there was room. -/
theorem mem_clients_join {c : HttpClient} (hc : c ∈ (if s.clients.length < maxClients then
      { s with clients := s.clients ++ [joined] } else s).clients) :
    c ∈ s.clients ∨ c = joined := by
  split at hc
  · obtain hc | hc := List.mem_append.mp hc
    · exact .inl hc
    · exact .inr (List.mem_singleton.mp hc)
  · exact .inl hc

/-- Nothing but the clients is changed. -/
theorem join_frame : ∃ clients draining, (if s.clients.length < maxClients then
      { s with clients := s.clients ++ [joined] } else s) = { s with clients, draining } := by
  split
  · exact ⟨_, s.draining, rfl⟩
  · exact ⟨s.clients, s.draining, rfl⟩

end Join

/-! ### The ring, the counter and the cache -/

/-- The ring holds the last bytes of the session, the counter is their number, and the cache has
the first of them. -/
structure Buffered (s : StreamState) : Prop where
  ring : Holds ringSize s.buf s.stream
  total : s.totalBytes = s.stream.length % counterModulus
  header : s.flvHeader = s.stream.take headerCacheSize

theorem ringSize_dvd_counterModulus : ringSize ∣ counterModulus := ⟨2 ^ 42, rfl⟩

/-- Before the first byte of a session. -/
theorem Buffered.of_stream_eq_nil {s : StreamState} (hstream : s.stream = [])
    (htotal : s.totalBytes = 0) (hheader : s.flvHeader = []) : Buffered s where
  ring := by
    rw [hstream]
    exact Holds.nil ringSize s.buf
  total := by
    rw [hstream, htotal]
    rfl
  header := by
    rw [hstream, hheader]
    rfl

private theorem flvHeader_cacheHeader {s : StreamState} (h : Buffered s) (data : Bytes) :
    (cacheHeader s data).flvHeader = (s.stream ++ data).take headerCacheSize := by
  have hlen : s.flvHeader.length = min headerCacheSize s.stream.length := by
    rw [h.header, List.length_take]
  rw [cacheHeader, List.take_append]
  split
  · next hroom =>
    rw [h.header, List.length_take, Nat.min_eq_right (by omega)]
  · next hroom =>
    rw [show headerCacheSize - s.stream.length = 0 by omega, List.take_zero, List.append_nil]
    exact h.header

/-- What a receive call leaves. -/
theorem receive_eq {s : StreamState} (h : Buffered s) (data : Bytes) :
    receive s data =
      { s with
        buf := wrapWrite ringSize s.buf s.totalBytes data
        totalBytes := (s.totalBytes + data.length) % counterModulus
        flvHeader := (s.stream ++ data).take headerCacheSize
        draining := some 0
        stream := s.stream ++ data } := by
  rw [← flvHeader_cacheHeader h data, receive, ringWrite, cacheHeader]
  split <;> rfl

/-- A receive call appends to the session. -/
theorem Buffered.receive {s : StreamState} (h : Buffered s) {data : Bytes}
    (hdata : data.length ≤ recvSize) : Buffered (receive s data) := by
  rw [receive_eq h]
  constructor
  · dsimp only
    rw [h.total, wrapWrite_mod ringSize_dvd_counterModulus]
    refine h.ring.wrapWrite (by decide) (hdata.trans ?_)
    decide
  · dsimp only
    rw [h.total, Nat.mod_add_mod, List.length_append]
  · rfl

/-- The cache has at most its size, and no more than the stream. -/
theorem Buffered.length_flvHeader {s : StreamState} (hb : Buffered s) :
    s.flvHeader.length ≤ headerCacheSize ∧ s.flvHeader.length ≤ s.stream.length := by
  rw [hb.header, List.length_take]
  omega

/-- A receive call leaves the clients alone. -/
@[simp] theorem clients_receive (s : StreamState) (data : Bytes) :
    (Flv.receive s data).clients = s.clients := by
  simp only [Flv.receive, ringWrite, cacheHeader]
  split <;> rfl

@[simp] theorem stream_receive (s : StreamState) (data : Bytes) :
    (Flv.receive s data).stream = s.stream ++ data := by
  simp only [Flv.receive, ringWrite, cacheHeader]
  split <;> rfl

/-- With an empty cache there is nothing in the ring to send. -/
theorem Buffered.flvHdrSent {s : StreamState} {c : HttpClient} (hb : Buffered s)
    (hsent : c.flvHdrSent = true ∨ s.flvHeader = []) (hlive : c.cursor < s.totalBytes) :
    c.flvHdrSent = true := by
  apply hsent.resolve_right
  intro hnil
  rw [hb.header, List.take_eq_nil_iff] at hnil
  have hstream : s.stream = [] := hnil.resolve_left (by decide)
  rw [hb.total, hstream, List.length_nil, Nat.zero_mod] at hlive
  omega

/-- The cache only grows. -/
theorem Buffered.length_flvHeader_receive {s : StreamState} (hb : Buffered s) {data : Bytes}
    (hdata : data.length ≤ recvSize) :
    s.flvHeader.length ≤ (Flv.receive s data).flvHeader.length := by
  rw [(hb.receive hdata).header, hb.header, stream_receive, List.length_take, List.length_take,
    List.length_append]
  omega

/-- Clients and their turns are no part of this. -/
theorem Buffered.of_frame {s t : StreamState} (hb : Buffered s)
    (ht : ∃ clients draining, t = { s with clients, draining }) : Buffered t := by
  obtain ⟨clients, draining, rfl⟩ := ht
  exact ⟨hb.ring, hb.total, hb.header⟩

/-! ### Cursors -/

/-- The cursor of a client stands for its position. -/
structure Placed (s : StreamState) (c : HttpClient) : Prop where
  cursor : c.cursor = c.position % counterModulus
  behind : c.position ≤ s.stream.length

/-- Bytes of the stream keep their positions when it grows. -/
theorem take_zipIdx_append {l : Bytes} {n : Nat} (data : Bytes) (h : n ≤ l.length) :
    (l ++ data).zipIdx.take n = l.zipIdx.take n := by
  rw [List.zipIdx_append, List.take_append_of_le_length (by simpa using h)]

private theorem zipIdx_take_drop (l : Bytes) (p k : Nat) :
    ((l.drop p).take k).zipIdx p = (l.zipIdx.drop p).take k := by
  apply List.ext_getElem
  · simp
  · intro i h₁ h₂
    simp

section Sending

variable {s : StreamState} {c : HttpClient} {k : Nat}

/-- What is offered of the ring lies between the cursor and the end of the stream, and in one
piece. -/
theorem Placed.ringTake (h : Placed s c) (hb : Buffered s) (hlive : c.cursor < s.totalBytes)
    (hk : k ≤ ringTake s c) :
    c.position + k ≤ s.stream.length ∧ c.position % ringSize + k ≤ ringSize := by
  have hcursor := h.cursor
  have hbehind := h.behind
  have htotal := hb.total
  have hoff : c.cursor % ringSize = c.position % ringSize := by
    rw [hcursor, Nat.mod_mod_of_dvd _ ringSize_dvd_counterModulus]
  simp only [Flv.ringTake, hoff] at hk
  have hlt : c.position % ringSize < ringSize := Nat.mod_lt _ (by decide)
  generalize c.position % ringSize = off at hk hlt ⊢
  simp only [counterModulus] at hcursor htotal
  constructor
  · have hpending : k ≤ s.totalBytes - c.cursor := by
      split at hk <;> omega
    omega
  · split at hk <;> omega

/-- Bytes of the cache are those of the stream. -/
theorem delivered_sendCached (hb : Buffered s) (hk : c.flvHdrOff + k ≤ s.flvHeader.length) :
    (c.sendCached s k).delivered =
      c.delivered ++ (s.stream.zipIdx.drop c.flvHdrOff).take k := by
  have hcache : (s.flvHeader.drop c.flvHdrOff).take k = (s.stream.drop c.flvHdrOff).take k := by
    rw [hb.header, List.length_take] at hk
    rw [hb.header, List.drop_take, List.take_take, Nat.min_eq_left (by omega)]
  rw [HttpClient.sendCached, hcache, zipIdx_take_drop]

/-- Bytes of the ring are those of the stream at the cursor, when the cursor is not too far
behind. -/
theorem slice_ring (h : Placed s c) (hb : Buffered s) (hlive : c.cursor < s.totalBytes)
    (hk : k ≤ ringTake s c) (hwindow : s.stream.length ≤ c.position + ringSize) :
    slice s.buf (c.cursor % ringSize) k = (s.stream.drop c.position).take k := by
  obtain ⟨hend, hoff⟩ := h.ringTake hb hlive hk
  rw [h.cursor, Nat.mod_mod_of_dvd _ ringSize_dvd_counterModulus]
  exact hb.ring.slice hwindow hend hoff

theorem delivered_sendRing (h : Placed s c) (hb : Buffered s) (hlive : c.cursor < s.totalBytes)
    (hk : k ≤ ringTake s c) (hwindow : s.stream.length ≤ c.position + ringSize) :
    (c.sendRing s k).delivered = c.delivered ++ (s.stream.zipIdx.drop c.position).take k := by
  rw [HttpClient.sendRing, slice_ring h hb hlive hk hwindow, zipIdx_take_drop]

/-- The cursor moves with the position. -/
theorem Placed.sendRing (h : Placed s c) (hb : Buffered s) (hlive : c.cursor < s.totalBytes)
    (hk : k ≤ Flv.ringTake s c) : Placed s (c.sendRing s k) where
  cursor := by
    simp only [HttpClient.sendRing]
    rw [h.cursor, Nat.mod_add_mod]
  behind := (h.ringTake hb hlive hk).1

end Sending

end Kitty.Flv
