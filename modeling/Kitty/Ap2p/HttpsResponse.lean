import Kitty.Ap2p.Handlers
import Kitty.Base.Blank
import Kitty.Base.Stores
import Mathlib.Data.List.Infix

/-!
# The response of an HTTP request

`write_callback_1` and `send_https_request` of `src/ap2p/n_https.c:16–95`. libcurl hands the body
over in chunks of its own choosing and stops the transfer when the callback returns anything but
the size of its chunk. `size_t` has `w` bits.
-/

namespace Kitty.Ap2p

open Kitty.Base

variable {w : Nat}

/-! ### The callback -/

/-- What libcurl hands over in one call: `nmemb` elements of `size` bytes. -/
structure Chunk (w : Nat) where
  size : BitVec w
  nmemb : BitVec w
  data : Bytes
  length_data : data.length = size.toNat * nmemb.toNat
  length_lt : data.length < 2 ^ w

/-- `write_ctx_t`, less the buffer itself. -/
structure WriteCtx (w : Nat) where
  size : BitVec w
  used : BitVec w
  deriving DecidableEq

/-- A call of the callback: what it stores to the buffer, the context it leaves and what it
returns. -/
structure Written (w : Nat) where
  stores : List (Store UInt8)
  ctx : WriteCtx w
  returned : BitVec w
  deriving DecidableEq

/-- `write_callback_1` -/
def writeCallback1 (chunk : Chunk w) (ctx : WriteCtx w) : Written w :=
  let totalSize := chunk.size * chunk.nmemb
  let remaining := ctx.size - ctx.used - 1#w
  let toCopy := if totalSize < remaining then totalSize else remaining
  if 0#w < toCopy then
    let used := ctx.used + toCopy
    ⟨[⟨ctx.used.toNat, chunk.data.take toCopy.toNat⟩, ⟨used.toNat, [NUL]⟩], ⟨ctx.size, used⟩,
      totalSize⟩
  else ⟨[], ctx, totalSize⟩

/-! ### The request -/

/-- What the options of the method ask of libcurl. -/
inductive CurlMethod where
  | post (fields : Bytes)
  | customPut (fields : Bytes)
  | httpGet
  deriving DecidableEq

/-- The options of a transfer. -/
structure CurlTransfer where
  url : Bytes
  username : Bytes
  password : Bytes
  method : CurlMethod
  deriving DecidableEq

/-- The calls of the callback in `curl_easy_perform`, and whether every one returned the size of
its chunk. -/
def deliver : WriteCtx w → List (Chunk w) → List (Written w) × Bool
  | _, [] => ([], true)
  | ctx, chunk :: chunks =>
    let call := writeCallback1 chunk ctx
    if call.returned.toNat = chunk.data.length then
      let r := deliver call.ctx chunks
      (call :: r.1, r.2)
    else ([call], false)

/-- What a request does to its response buffer, and what it returns. -/
structure HttpsRun (w : Nat) where
  cleared : List (Store UInt8)
  calls : List (Written w)
  result : Int

/-- The transfer that `send_https_request` sets up. -/
def curlTransfer (username password endpoint method data : Bytes) : CurlTransfer :=
  ⟨snprintf 256 [lit "http://localhost", endpoint], username, password,
    if method = lit "POST" then .post data
    else if method = lit "PUT" then .customPut data
    else .httpGet⟩

/-- `send_https_request`. `curl` is `none` when `curl_easy_init` fails; otherwise it has, for a
transfer, the chunks that come and whether it succeeds when the callback does not stop it. -/
def sendHttpsRequest (curl : Option (CurlTransfer → List (Chunk w) × Bool))
    (username password endpoint method data : Bytes) (responseSize : BitVec w) : HttpsRun w :=
  match curl with
  | none => ⟨[], [], -1⟩
  | some curl =>
    let transfer := curl (curlTransfer username password endpoint method data)
    let r := deliver ⟨responseSize, 0#w⟩ transfer.1
    ⟨[⟨0, List.replicate responseSize.toNat NUL⟩], r.1, if r.2 && transfer.2 then 0 else -1⟩

/-! ### The buffer from moment to moment -/

/-- The bytes that have come and the memory at each moment of a transfer: before every call, after
each of its stores, and at the end. -/
def moments (received : Bytes) (cells : Nat → UInt8) :
    List (Chunk w) → List (Written w) → List (Bytes × (Nat → UInt8))
  | chunk :: chunks, call :: calls =>
    (received, cells) ::
      ((call.stores.inits.tail.map fun part ↦ (received ++ chunk.data, stored cells part)) ++
        moments (received ++ chunk.data) (stored cells call.stores) chunks calls)
  | _, _ => [(received, cells)]

/-- The buffer holds the first bytes of what has come, as many as leave room for a NUL, and NULs
behind them. -/
def HoldsFirst (size : Nat) (received : Bytes) (cells : Nat → UInt8) : Prop :=
  slice cells 0 size = received.take (size - 1) ++
    List.replicate (size - min received.length (size - 1)) NUL

/-- A handler reads the answer from its cleared buffer as the text that was kept. -/
theorem cstr_of_holdsFirst {buffer : Buffer} {answer : Bytes} {cells : Nat → UInt8}
    (h : HoldsFirst buffer.size answer cells) :
    cstr (slice cells 0 buffer.size) = fill buffer answer := by
  have hsize : 1 ≤ buffer.size := by cases buffer <;> decide
  rw [h, fill]
  generalize hn : buffer.size - min answer.length (buffer.size - 1) = n
  cases n with
  | zero => omega
  | succ n => rw [List.replicate_succ, cstr_append_nul]

/-- The text that is kept is terminated inside the buffer. -/
theorem HoldsFirst.nul_mem {size : Nat} {received : Bytes} {cells : Nat → UInt8} (hpos : 0 < size)
    (h : HoldsFirst size received cells) : NUL ∈ slice cells 0 size := by
  rw [h]
  refine List.mem_append_right _ (List.mem_replicate.mpr ⟨?_, rfl⟩)
  omega

/-- Cleared memory holds nothing yet. -/
theorem holdsFirst_cleared (size : Nat) (cells : Nat → UInt8) :
    HoldsFirst size [] (copyAt cells 0 (List.replicate size NUL)) := by
  rw [HoldsFirst, slice_copyAt (by simp)]
  simp

/-- What there is room for of a chunk is kept behind what was kept before. -/
theorem HoldsFirst.append {size : Nat} {received : Bytes} {cells : Nat → UInt8} (hpos : 0 < size)
    (h : HoldsFirst size received cells) (data : Bytes) {used n : Nat}
    (hused : used = min received.length (size - 1)) (hn : n = min data.length (size - 1 - used)) :
    HoldsFirst size (received ++ data) (copyAt cells used (data.take n)) := by
  have hkept : (received.take (size - 1)).length = used := by
    rw [List.length_take]
    omega
  have htake : (data.take n).length = n := by
    rw [List.length_take]
    omega
  have hdata : data.take (size - 1 - received.length) = data.take n :=
    List.take_eq_take_iff.mpr (by omega)
  rw [HoldsFirst, slice_copyAt (by omega), h, htake, List.take_append_of_le_length (by omega),
    List.take_of_length_le (by omega), List.drop_append, List.drop_eq_nil_of_le (by omega),
    List.nil_append, List.drop_replicate, List.take_append, hdata, hkept]
  congr 2
  rw [List.length_append]
  omega

/-- The NUL that the callback writes behind what it kept is there already. -/
theorem HoldsFirst.terminate {size : Nat} {received : Bytes} {cells : Nat → UInt8}
    (hpos : 0 < size) (h : HoldsFirst size received cells) {used : Nat}
    (hused : used = min received.length (size - 1)) :
    HoldsFirst size received (copyAt cells used [NUL]) := by
  have hkept : (received.take (size - 1)).length = used := by
    rw [List.length_take]
    omega
  obtain ⟨n, hn⟩ : ∃ n, size - min received.length (size - 1) = n + 1 := ⟨size - used - 1, by omega⟩
  rw [HoldsFirst] at h ⊢
  rw [slice_copyAt (by simp; omega), h, hn, List.take_append_of_le_length (by omega),
    List.take_of_length_le (by omega), List.drop_append, List.drop_eq_nil_of_le (by simp; omega),
    hkept, List.replicate_succ]
  simp

/-! ### One call -/

/-- The callback has kept as much of what has come as leaves room for a NUL. -/
structure Kept (received : Bytes) (ctx : WriteCtx w) (cells : Nat → UInt8) : Prop where
  used : ctx.used.toNat = min received.length (ctx.size.toNat - 1)
  holds : HoldsFirst ctx.size.toNat received cells

section Call

variable {received : Bytes} {ctx : WriteCtx w} {cells : Nat → UInt8} (chunk : Chunk w)

theorem toNat_totalSize : (chunk.size * chunk.nmemb).toNat = chunk.data.length := by
  rw [BitVec.toNat_mul, ← chunk.length_data, Nat.mod_eq_of_lt chunk.length_lt]

/-- The callback returns the size of its chunk, whatever its context is. -/
theorem toNat_returned : (writeCallback1 chunk ctx).returned.toNat = chunk.data.length := by
  rw [← toNat_totalSize chunk, writeCallback1]
  simp only
  generalize (if chunk.size * chunk.nmemb < ctx.size - ctx.used - 1#w then
    chunk.size * chunk.nmemb else ctx.size - ctx.used - 1#w) = toCopy
  split <;> rfl

/-- The room that is left does not wrap around, with one byte kept for the NUL. -/
theorem toNat_remaining (hpos : 0 < ctx.size.toNat) (hused : ctx.used.toNat ≤ ctx.size.toNat - 1) :
    (ctx.size - ctx.used - 1#w).toNat = ctx.size.toNat - 1 - ctx.used.toNat := by
  have hw : w ≠ 0 := by
    rintro rfl
    have := ctx.size.isLt
    omega
  have hone : (1#w).toNat = 1 := by
    rw [BitVec.toNat_ofNat, Nat.one_mod_two_pow (Nat.pos_of_ne_zero hw)]
  have hsub : (ctx.size - ctx.used).toNat = ctx.size.toNat - ctx.used.toNat :=
    BitVec.toNat_sub_of_le (BitVec.le_def.mpr (by omega))
  rw [BitVec.toNat_sub_of_le (BitVec.le_def.mpr (by omega)), hsub, hone]
  omega

/-- What a call does, in numbers: it copies what there is room for, and ends it with a NUL. -/
theorem writeCallback1_spec (hpos : 0 < ctx.size.toNat)
    (hused : ctx.used.toNat ≤ ctx.size.toNat - 1) :
    ∃ (n : Nat) (used : BitVec w), n = min chunk.data.length (ctx.size.toNat - 1 - ctx.used.toNat) ∧
      used.toNat = ctx.used.toNat + n ∧ (writeCallback1 chunk ctx).ctx = ⟨ctx.size, used⟩ ∧
      (writeCallback1 chunk ctx).stores =
        if n = 0 then []
        else [⟨ctx.used.toNat, chunk.data.take n⟩, ⟨ctx.used.toNat + n, [NUL]⟩] := by
  have htotal := toNat_totalSize chunk
  have hremaining := toNat_remaining hpos hused
  rw [writeCallback1]
  simp only [BitVec.lt_def, htotal, hremaining]
  generalize htoCopy : (if chunk.data.length < ctx.size.toNat - 1 - ctx.used.toNat then
    chunk.size * chunk.nmemb else ctx.size - ctx.used - 1#w) = toCopy
  have hmin : toCopy.toNat = min chunk.data.length (ctx.size.toNat - 1 - ctx.used.toNat) := by
    rw [← htoCopy]
    split
    · rw [htotal]
      omega
    · rw [hremaining]
      omega
  have hsum : (ctx.used + toCopy).toNat = ctx.used.toNat + toCopy.toNat := by
    have := ctx.size.isLt
    rw [BitVec.toNat_add, Nat.mod_eq_of_lt (by omega)]
  rw [BitVec.toNat_ofNat, Nat.zero_mod]
  by_cases hcopy : 0 < toCopy.toNat
  · refine ⟨toCopy.toNat, ctx.used + toCopy, hmin, hsum, ?_, ?_⟩
    · rw [if_pos hcopy]
    · rw [if_pos hcopy, if_neg (by omega), hsum]
  · refine ⟨0, ctx.used, by omega, by omega, ?_, ?_⟩
    · rw [if_neg hcopy]
    · rw [if_neg hcopy, if_pos rfl]

/-- A call stores inside the buffer. -/
theorem writeCallback1_inside (hpos : 0 < ctx.size.toNat) (h : Kept received ctx cells) :
    ∀ store ∈ (writeCallback1 chunk ctx).stores, store.Inside ctx.size.toNat := by
  obtain ⟨n, used, hn, -, -, hstores⟩ := writeCallback1_spec chunk hpos (by have := h.used; omega)
  rw [hstores]
  have hused := h.used
  intro store hmem
  split at hmem
  · cases hmem
  · rcases List.mem_pair.mp hmem with rfl | rfl
    · simp only [Store.Inside, List.length_take]
      omega
    · simp only [Store.Inside, List.length_singleton]
      omega

/-- After the first store of a call the buffer holds what came with it. -/
theorem writeCallback1_holds (hpos : 0 < ctx.size.toNat) (h : Kept received ctx cells) :
    ∀ part ∈ (writeCallback1 chunk ctx).stores.inits.tail,
      HoldsFirst ctx.size.toNat (received ++ chunk.data) (stored cells part) := by
  obtain ⟨n, used, hn, -, -, hstores⟩ := writeCallback1_spec chunk hpos (by have := h.used; omega)
  rw [hstores]
  have hused := h.used
  have hcopied := h.holds.append hpos chunk.data hused hn
  intro part hmem
  split at hmem
  · cases hmem
  · rcases List.mem_pair.mp hmem with rfl | rfl
    · exact hcopied
    · exact hcopied.terminate hpos (by simp only [List.length_append]; omega)

/-- A call keeps what came with it. -/
theorem writeCallback1_kept (hpos : 0 < ctx.size.toNat) (h : Kept received ctx cells) :
    Kept (received ++ chunk.data) (writeCallback1 chunk ctx).ctx
      (stored cells (writeCallback1 chunk ctx).stores) ∧
    (writeCallback1 chunk ctx).ctx.size = ctx.size := by
  obtain ⟨n, used, hn, hsum, hctx, hstores⟩ :=
    writeCallback1_spec chunk hpos (by have := h.used; omega)
  have hused := h.used
  have hcopied := h.holds.append hpos chunk.data hused hn
  rw [hctx, hstores]
  refine ⟨⟨?_, ?_⟩, rfl⟩
  · change used.toNat = min (received ++ chunk.data).length (ctx.size.toNat - 1)
    rw [hsum, List.length_append]
    omega
  · by_cases h0 : n = 0
    · rw [if_pos h0]
      rw [h0, List.take_zero] at hcopied
      have hsame : copyAt cells ctx.used.toNat [] = cells := by
        funext i
        exact copyAt_of_outside (by simp; omega)
      rwa [hsame] at hcopied
    · rw [if_neg h0]
      exact hcopied.terminate hpos (by simp only [List.length_append]; omega)

end Call

/-! ### A transfer -/

/-- From what was kept before, a transfer goes on to its end, and at each of its moments the buffer
holds the first bytes of what has come, and what lies behind it is as it was. -/
theorem deliver_kept {ctx : WriteCtx w} (hpos : 0 < ctx.size.toNat) {received : Bytes}
    {cells : Nat → UInt8} (h : Kept received ctx cells) (chunks : List (Chunk w)) :
    (deliver ctx chunks).2 = true ∧
    (deliver ctx chunks).1.map (·.returned.toNat) = chunks.map (·.data.length) ∧
    (∀ call ∈ (deliver ctx chunks).1, ∀ store ∈ call.stores, store.Inside ctx.size.toNat) ∧
    ∀ moment ∈ moments received cells chunks (deliver ctx chunks).1,
      HoldsFirst ctx.size.toNat moment.1 moment.2 ∧
        ∀ i, ctx.size.toNat ≤ i → moment.2 i = cells i := by
  induction chunks generalizing ctx received cells with
  | nil =>
    refine ⟨rfl, rfl, by simp [deliver], fun moment hmem ↦ ?_⟩
    obtain rfl := List.mem_singleton.mp hmem
    exact ⟨h.holds, fun _ _ ↦ rfl⟩
  | cons chunk chunks ih =>
    have hreturned : (writeCallback1 chunk ctx).returned.toNat = chunk.data.length :=
      toNat_returned chunk
    obtain ⟨hkept, hsize⟩ := writeCallback1_kept chunk hpos h
    obtain ⟨hok, hmap, hinside, hholds⟩ := ih (by rwa [hsize]) hkept
    rw [hsize] at hinside hholds
    simp only [deliver, if_pos hreturned]
    refine ⟨hok, ?_, ?_, ?_⟩
    · rw [List.map_cons, List.map_cons, hreturned, hmap]
    · intro call hcall
      rcases List.mem_cons.mp hcall with rfl | hcall
      · exact writeCallback1_inside chunk hpos h
      · exact hinside call hcall
    · intro moment hmem
      have hcall := writeCallback1_inside chunk hpos h
      rcases List.mem_cons.mp hmem with rfl | hmem
      · exact ⟨h.holds, fun _ _ ↦ rfl⟩
      · rcases List.mem_append.mp hmem with hmem | hmem
        · obtain ⟨part, hpart, rfl⟩ := List.mem_map.mp hmem
          have hbegins := (List.mem_inits part _).mp (List.mem_of_mem_tail hpart)
          exact ⟨writeCallback1_holds chunk hpos h part hpart, fun _ hi ↦
            stored_of_outside (fun store hs ↦ hcall store (hbegins.subset hs)) cells hi⟩
        · obtain ⟨hfirst, hbehind⟩ := hholds moment hmem
          exact ⟨hfirst, fun i hi ↦ (hbehind i hi).trans (stored_of_outside hcall cells hi)⟩

/-- A request keeps the first bytes of its answer, with a NUL behind them at every moment from the
clearing of the buffer on, stores nothing behind the buffer, and is not stopped by an answer that
is too long. -/
theorem response_accumulates (curl : CurlTransfer → List (Chunk w) × Bool)
    (username password endpoint method data : Bytes) {responseSize : BitVec w}
    (hpos : 1 ≤ responseSize.toNat) (cells : Nat → UInt8) :
    let transfer := curl (curlTransfer username password endpoint method data)
    let run := sendHttpsRequest (some curl) username password endpoint method data responseSize
    (∀ moment ∈ moments [] (stored cells run.cleared) transfer.1 run.calls,
      HoldsFirst responseSize.toNat moment.1 moment.2 ∧
        NUL ∈ slice moment.2 0 responseSize.toNat ∧
        ∀ i, responseSize.toNat ≤ i → moment.2 i = cells i) ∧
    (∀ store ∈ run.cleared ++ run.calls.flatMap (·.stores), store.Inside responseSize.toNat) ∧
    run.calls.map (·.returned.toNat) = transfer.1.map (·.data.length) ∧
    run.result = if transfer.2 then 0 else -1 := by
  intro transfer run
  have hcleared : Kept [] ⟨responseSize, 0#w⟩ (stored cells run.cleared) :=
    ⟨by simp, holdsFirst_cleared responseSize.toNat cells⟩
  obtain ⟨hok, hmap, hinside, hholds⟩ := deliver_kept (by exact hpos) hcleared transfer.1
  have hclear : ∀ store ∈ run.cleared, store.Inside responseSize.toNat := by
    intro store hmem
    obtain rfl := List.mem_singleton.mp hmem
    simp [Store.Inside]
  refine ⟨?_, ?_, hmap, ?_⟩
  · intro moment hmem
    obtain ⟨hfirst, hbehind⟩ := hholds moment hmem
    exact ⟨hfirst, hfirst.nul_mem hpos, fun i hi ↦
      (hbehind i hi).trans (stored_of_outside hclear cells hi)⟩
  · intro store hmem
    rcases List.mem_append.mp hmem with hmem | hmem
    · exact hclear store hmem
    · obtain ⟨call, hcall, hstore⟩ := List.mem_flatMap.mp hmem
      exact hinside call hcall store hstore
  · change (if (deliver ⟨responseSize, 0#w⟩ transfer.1).2 && transfer.2 then (0 : Int) else -1) = _
    rw [hok, Bool.true_and]

/-- A chunk as libcurl hands it over, in elements of one byte. -/
def byteChunk (data : Bytes) (h : data.length < 2 ^ 32) : Chunk 32 where
  size := 1#32
  nmemb := BitVec.ofNat 32 data.length
  data := data
  length_data := by rw [BitVec.toNat_ofNat, BitVec.toNat_ofNat, Nat.mod_eq_of_lt h]; simp
  length_lt := h

/-- An answer of ten bytes in three chunks, and a buffer of eight. -/
theorem response_accumulates_eight :
    let curl : CurlTransfer → List (Chunk 32) × Bool := fun _ ↦
      ([byteChunk (lit "OK, ") (by decide), byteChunk (lit "all") (by decide),
        byteChunk (lit " of") (by decide)], true)
    let transfer := curl (curlTransfer (lit "admin") [] (lit "/netsdk/image") (lit "GET") [])
    let run := sendHttpsRequest (some curl) (lit "admin") [] (lit "/netsdk/image") (lit "GET") []
      8#32
    (∀ moment ∈ moments [] (stored (fun _ ↦ 0xA5) run.cleared) transfer.1 run.calls,
      HoldsFirst (8#32).toNat moment.1 moment.2 ∧ NUL ∈ slice moment.2 0 (8#32).toNat ∧
        ∀ i, (8#32).toNat ≤ i → moment.2 i = 0xA5) ∧
    (∀ store ∈ run.cleared ++ run.calls.flatMap (·.stores), store.Inside (8#32).toNat) ∧
    run.calls.map (·.returned.toNat) = transfer.1.map (·.data.length) ∧
    run.result = if transfer.2 then 0 else -1 :=
  response_accumulates _ (lit "admin") [] (lit "/netsdk/image") (lit "GET") [] (by decide)
    fun _ ↦ 0xA5

end Kitty.Ap2p
