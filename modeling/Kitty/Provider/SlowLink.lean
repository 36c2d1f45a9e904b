import Kitty.Base.Arrivals
import Kitty.Provider.Receive

/-!
# Frames on a slow link

What the provider's message loop receives when the server's frames come in segments with receive
timeouts between them; `src/provider-srt/_legacy_libjuice_provider_configurable.c:186–205,
1498–1528`. `recv_message` keeps nothing between two calls, so a timeout in a frame makes the
next call read the rest of it as a header.
-/

namespace Kitty.Provider

open Kitty.Base
open Kitty.Sdp (maxSdpLen)

/-! ### The loop on what comes -/

/-- `recv` with `MSG_WAITALL`: the bytes it has at a timeout, or -1 when it has none. A call
for no bytes returns 0 at once. -/
def recvWaitAll (n : Nat) (s : List (Option UInt8)) : Option (Recv × List (Option UInt8)) :=
  (waitAll n s).map fun r ↦ (if r.1 = [] ∧ 0 < n then .failed EAGAIN else .bytes r.1, r.2)

/-- The messages that the rounds from the `k`-th on receive; `others` has the `errno` that the
other calls of a round leave. -/
def receives (others : Nat → Option Int) : Nat → Nat → Loop → List (Option UInt8) → List Bytes
  | 0, _, _, _ => []
  | fuel + 1, k, l, s =>
    if l.left then []
    else
      match round recvWaitAll ⟨false, others k⟩ l s with
      | none => []
      | some (msg, l, s) => msg.toList ++ receives others fuel (k + 1) l s

/-- The messages the loop receives of what comes, until it waits for more. A round takes at
least one byte or one timeout. -/
def received (others : Nat → Option Int) (errno : Int) (incoming : List Incoming) : List Bytes :=
  receives others ((ticks incoming).length + 1) 0 (.enter errno) (ticks incoming)

/-! ### One round -/

/-- A word is the four bytes it was read from. -/
private theorem be32_readBe32 {word : Bytes} (h : word.length = 4) :
    be32 (readBe32 word 0) = word := by
  match word, h with
  | [a, b, c, d], _ =>
    have ha := a.toNat_lt
    have hb := b.toNat_lt
    have hc := c.toNat_lt
    have hd := d.toNat_lt
    simp only [be32, readBe32, List.getD_cons_zero, List.getD_cons_succ]
    refine congrArg₂ List.cons ?_ (congrArg₂ List.cons ?_ (congrArg₂ List.cons ?_
      (congrArg₂ List.cons ?_ rfl)))
    all_goals
      apply UInt8.toNat_inj.mp
      rw [UInt8.toNat_ofNat']
      omega

private theorem recvWaitAll_map {n : Nat} {bs : Bytes} (h : bs.length = n)
    (rest : List (Option UInt8)) :
    recvWaitAll n (bs.map some ++ rest) = some (.bytes bs, rest) := by
  subst h
  have hnil : ¬ (bs = [] ∧ 0 < bs.length) := fun h ↦ by simp [h.1] at h
  rw [recvWaitAll, waitAll_map, Option.map_some]
  dsimp only
  rw [if_neg hnil]

/-- A call stores all it was to, or it comes to a timeout. -/
private theorem recvWaitAll_spec {n : Nat} {s rest : List (Option UInt8)} {r : Recv}
    (h : recvWaitAll n s = some (r, rest)) :
    (∃ bs : Bytes, r.exactly n = some bs ∧ bs.length = n ∧ s = bs.map some ++ rest) ∨
      (r.exactly n = none ∧ ∃ bs : Bytes, s = bs.map some ++ none :: rest) := by
  obtain ⟨⟨bs, rest'⟩, hw, he⟩ := Option.map_eq_some_iff.mp h
  cases he
  dsimp only
  rcases waitAll_spec hw with ⟨hn, hs⟩ | ⟨hn, hs⟩
  · refine .inl ⟨bs, ?_, hn, hs⟩
    have hnil : ¬ (bs = [] ∧ 0 < n) := by
      rintro ⟨rfl, hpos⟩
      simp at hn
      omega
    rw [if_neg hnil, Recv.exactly, if_pos hn]
  · refine .inr ⟨?_, bs, hs⟩
    split
    · rfl
    · rw [Recv.exactly, if_neg (by omega)]

/-- Reading on to the end of what does not fit takes bytes and timeouts, nothing else. -/
private theorem drain_spec {fuel remaining : Nat} {errno errno' : Int}
    {s rest : List (Option UInt8)}
    (h : drain recvWaitAll fuel remaining errno s = some (errno', rest)) : rest <:+ s := by
  induction fuel generalizing remaining errno s with
  | zero =>
    cases h
    exact List.suffix_rfl
  | succ fuel ih =>
    rw [drain] at h
    split at h
    · cases h
      exact List.suffix_rfl
    · obtain ⟨⟨r, more⟩, hr, h⟩ := Option.bind_eq_some_iff.mp h
      have hmore : more <:+ s := by
        rcases recvWaitAll_spec hr with ⟨bs, -, -, rfl⟩ | ⟨-, bs, rfl⟩
        · exact List.suffix_append _ _
        · exact (List.suffix_cons _ _).trans (List.suffix_append _ _)
      dsimp only at h
      split at h
      · cases h
        exact hmore
      · exact (ih h).trans hmore

/-- What `recv_message` takes: the frame of the message it returns, or else a timeout alone or at
least one byte. -/
private theorem recvMessage_spec {size : Nat} {errno errno' : Int} {msg : Option Bytes}
    {s rest : List (Option UInt8)}
    (h : recvMessage recvWaitAll size errno s = some (msg, errno', rest)) :
    (∃ m : Bytes, msg = some m ∧ m.length < size ∧ s = (frame m).map some ++ rest) ∨
      (msg = none ∧ (s = none :: rest ∨ rest.reduceOption.length < s.reduceOption.length)) := by
  obtain ⟨⟨header, more⟩, hheader, h⟩ := Option.bind_eq_some_iff.mp h
  dsimp only at h
  rcases recvWaitAll_spec hheader with ⟨word, hword, hlen, hs⟩ | ⟨hword, bs, hs⟩
  · rw [hword] at h
    dsimp only at h
    have hbytes : s.reduceOption.length = 4 + more.reduceOption.length := by
      rw [hs, List.reduceOption_append, reduceOption_map_some, List.length_append, hlen]
    have hless : ∀ {last : List (Option UInt8)}, last <:+ more →
        last.reduceOption.length < s.reduceOption.length := by
      rintro last ⟨gone, rfl⟩
      rw [hbytes, List.reduceOption_append, List.length_append]
      omega
    split at h
    · obtain ⟨⟨e, last⟩, hdrain, h⟩ := Option.bind_eq_some_iff.mp h
      cases h
      exact .inr ⟨rfl, .inr (hless (drain_spec hdrain))⟩
    · next hfits =>
      obtain ⟨⟨payload, last⟩, hpayload, h⟩ := Option.bind_eq_some_iff.mp h
      cases h
      rcases recvWaitAll_spec hpayload with ⟨m, hm, hmlen, hmore⟩ | ⟨hm, bs, hmore⟩
      · refine .inl ⟨m, hm, by omega, ?_⟩
        rw [hs, hmore, frame, hmlen, be32_readBe32 hlen]
        simp
      · refine .inr ⟨hm, .inr (hless ?_)⟩
        rw [hmore]
        exact (List.suffix_cons _ _).trans (List.suffix_append _ _)
  · rw [hword] at h
    cases h
    refine .inr ⟨rfl, ?_⟩
    cases bs with
    | nil => exact .inl hs
    | cons b bs =>
      refine .inr ?_
      rw [hs, List.reduceOption_append, reduceOption_map_some, List.reduceOption_cons_of_none,
        List.length_append, List.length_cons]
      omega

/-- What a round takes; the loop may be left only when no message has been received. -/
private theorem round_spec {e : Option Int} {l l' : Loop} {s rest : List (Option UInt8)}
    {msg : Option Bytes} (hg : l.gRunning = true)
    (h : round recvWaitAll ⟨false, e⟩ l s = some (msg, l', rest)) :
    l'.gRunning = true ∧
      ((∃ m : Bytes, msg = some m ∧ m.length < maxSdpLen + 512 ∧
        s = (frame m).map some ++ rest) ∨
      (msg = none ∧ (s = none :: rest ∨ rest.reduceOption.length < s.reduceOption.length))) := by
  simp only [round, hg, Bool.not_true, Bool.false_eq_true, if_false] at h
  obtain ⟨⟨msg', errno, rest'⟩, hrecv, h⟩ := Option.bind_eq_some_iff.mp h
  have hspec := recvMessage_spec hrecv
  cases msg' with
  | some m =>
    cases h
    exact ⟨rfl, hspec⟩
  | none =>
    dsimp only at h
    rw [if_neg (by simp)] at h
    split at h <;>
      · cases h
        exact ⟨rfl, hspec⟩

/-- A timeout between frames is an idle tick. -/
private theorem round_timeout (e : Option Int) {l : Loop} (hg : l.gRunning = true)
    (s : List (Option UInt8)) : round recvWaitAll ⟨false, e⟩ l (none :: s) =
      some (none, ⟨e.getD EAGAIN, true, false⟩, s) := by
  have hrecv : recvMessage recvWaitAll (maxSdpLen + 512) l.errno (none :: s) =
      some (none, EAGAIN, s) := rfl
  simp only [round, hg, hrecv, Option.bind_eq_bind, Option.bind_some]
  rfl

/-- A message that fits is returned. -/
private theorem recvMessage_frame {size : Nat} (errno : Int) {m : Bytes} (hm : m.length < size)
    (hword : m.length < 2 ^ 32) (s : List (Option UInt8)) :
    recvMessage recvWaitAll size errno ((frame m).map some ++ s) = some (some m, errno, s) := by
  have hread : readBe32 (be32 m.length) 0 = m.length := by
    have h := readBe32_be32 [] [] m.length
    rwa [List.nil_append, List.append_nil, List.length_nil, Nat.mod_eq_of_lt hword] at h
  have hheader : (frame m).map some ++ s = (be32 m.length).map some ++ (m.map some ++ s) := by
    simp [frame]
  have hm' : ¬ size ≤ m.length := Nat.not_le.mpr hm
  rw [recvMessage, hheader, recvWaitAll_map (length_be32 _)]
  simp only [Option.bind_eq_bind, Option.bind_some, Recv.exactly, length_be32, if_true, hread, hm',
    if_false, recvWaitAll_map rfl, Recv.errno]
  rfl

/-- So the loop receives it. -/
private theorem round_frame (e : Option Int) {l : Loop} (hg : l.gRunning = true) {m : Bytes}
    (hm : m.length < maxSdpLen + 512) (s : List (Option UInt8)) :
    round recvWaitAll ⟨false, e⟩ l ((frame m).map some ++ s) =
      some (some m, ⟨e.getD l.errno, true, false⟩, s) := by
  have hword : m.length < 2 ^ 32 := by
    unfold maxSdpLen at hm
    omega
  simp only [round, hg, recvMessage_frame l.errno hm hword, Option.bind_eq_bind, Option.bind_some,
    Bool.not_true, Bool.not_false, Bool.false_eq_true, if_false]
  rfl

/-! ### All rounds -/

/-- The loop takes at least the frames of what it receives. When they are all the bytes there
were, they were whole and had room in the buffer. -/
theorem receives_spec (others : Nat → Option Int) (fuel k : Nat) (l : Loop)
    (hg : l.gRunning = true) (s : List (Option UInt8)) :
    ((receives others fuel k l s).flatMap frame).length ≤ s.reduceOption.length ∧
      (∀ m ∈ receives others fuel k l s, m.length < maxSdpLen + 512) ∧
      (((receives others fuel k l s).flatMap frame).length = s.reduceOption.length →
        FramesWhole (receives others fuel k l s) s) := by
  have hnone : ∀ s : List (Option UInt8), (([] : List Bytes).flatMap frame).length ≤
      s.reduceOption.length ∧ (∀ m ∈ ([] : List Bytes), m.length < maxSdpLen + 512) ∧
      ((([] : List Bytes).flatMap frame).length = s.reduceOption.length → FramesWhole [] s) :=
    fun s ↦ ⟨Nat.zero_le _, by simp,
      fun h ↦ reduceOption_eq_nil_iff.mp (List.length_eq_zero_iff.mp h.symm)⟩
  induction fuel generalizing k l s with
  | zero => exact hnone s
  | succ fuel ih =>
    rw [receives]
    by_cases hl : l.left = true
    · rw [if_pos hl]
      exact hnone s
    · rw [if_neg hl]
      cases hround : round recvWaitAll ⟨false, others k⟩ l s with
      | none => exact hnone s
      | some out =>
        obtain ⟨msg, l', rest⟩ := out
        obtain ⟨hg', hspec⟩ := round_spec hg hround
        obtain ⟨hle, hfit, hwhole⟩ := ih (k + 1) l' hg' rest
        dsimp only
        rcases hspec with ⟨m, rfl, hm, rfl⟩ | ⟨rfl, hs⟩
        · rw [Option.toList_some, List.singleton_append, List.flatMap_cons,
            List.reduceOption_append, reduceOption_map_some, List.length_append,
            List.length_append]
          refine ⟨by omega, List.forall_mem_cons.mpr ⟨hm, hfit⟩, fun heq ↦ ?_⟩
          exact ⟨0, rest, rfl, hwhole (by omega)⟩
        · rw [Option.toList_none, List.nil_append]
          rcases hs with rfl | hless
          · rw [List.reduceOption_cons_of_none]
            refine ⟨hle, hfit, fun heq ↦ ?_⟩
            have hrest := hwhole heq
            cases hmsgs : receives others fuel (k + 1) l' rest with
            | nil =>
              rw [hmsgs] at hrest
              exact List.forall_mem_cons.mpr ⟨rfl, hrest⟩
            | cons m ms =>
              rw [hmsgs] at hrest
              obtain ⟨j, last, rfl, hlast⟩ := hrest
              exact ⟨j + 1, last, rfl, hlast⟩
          · exact ⟨by omega, hfit, fun heq ↦ by omega⟩

private theorem receives_timeouts (others : Nat → Option Int) (fuel k n : Nat) (l : Loop)
    (hg : l.gRunning = true) (hl : l.left = false) (hfuel : n < fuel)
    (s : List (Option UInt8)) : ∃ fuel' k' l', l'.gRunning = true ∧ l'.left = false ∧
      fuel = n + fuel' ∧ receives others fuel k l (List.replicate n none ++ s) =
        receives others fuel' k' l' s := by
  induction n generalizing fuel k l with
  | zero => exact ⟨fuel, k, l, hg, hl, by omega, rfl⟩
  | succ n ih =>
    obtain ⟨fuel, rfl⟩ : ∃ f, fuel = f + 1 := ⟨fuel - 1, by omega⟩
    obtain ⟨fuel', k', l', hg', hl', hsum, hrest⟩ :=
      ih fuel (k + 1) ⟨(others k).getD EAGAIN, true, false⟩ rfl rfl (by omega)
    refine ⟨fuel', k', l', hg', hl', by omega, ?_⟩
    rw [List.replicate_succ, List.cons_append, receives, hl, if_neg (by simp),
      round_timeout _ hg]
    exact hrest

/-- Whole frames with room in the buffer are all received. -/
theorem receives_whole (others : Nat → Option Int) {fuel k : Nat} {l : Loop} {messages : List Bytes}
    {s : List (Option UInt8)} (hg : l.gRunning = true) (hl : l.left = false)
    (hfit : ∀ m ∈ messages, m.length < maxSdpLen + 512) (hwhole : FramesWhole messages s)
    (hfuel : s.length < fuel) : receives others fuel k l s = messages := by
  induction messages generalizing fuel k l s with
  | nil =>
    have hs : s = List.replicate s.length none := List.eq_replicate_of_mem hwhole
    obtain ⟨fuel', k', l', hg', hl', hsum, hrest⟩ :=
      receives_timeouts others fuel k s.length l hg hl hfuel []
    rw [List.append_nil, ← hs] at hrest
    obtain ⟨f, rfl⟩ : ∃ f, fuel' = f + 1 := ⟨fuel' - 1, by omega⟩
    have hwait : round recvWaitAll ⟨false, others k'⟩ l' [] = none := by
      simp only [round, hg']
      rfl
    rw [hrest, receives, hl', if_neg (by simp), hwait]
  | cons m ms ih =>
    obtain ⟨n, rest, rfl, hrest⟩ := hwhole
    simp only [List.length_append, List.length_replicate, List.length_map, length_frame] at hfuel
    obtain ⟨fuel', k', l', hg', hl', hsum, hsame⟩ :=
      receives_timeouts others fuel k n l hg hl (by omega) ((frame m).map some ++ rest)
    obtain ⟨f, rfl⟩ : ∃ f, fuel' = f + 1 := ⟨fuel' - 1, by omega⟩
    rw [hsame, receives, hl', if_neg (by simp),
      round_frame _ hg' (hfit m (by simp))]
    exact congrArg (m :: ·) (ih rfl rfl (fun a ha ↦ hfit a (List.mem_cons_of_mem _ ha)) hrest
      (by omega))

/-- The loop receives what the server has sent, for every segmentation and all timeouts, exactly
when each message leaves room for the NUL and each timeout falls behind whole frames. -/
theorem received_eq_iff (others : Nat → Option Int) (errno : Int) {messages : List Bytes}
    {incoming : List Incoming}
    (hsent : (ticks incoming).reduceOption = messages.flatMap frame) :
    received others errno incoming = messages ↔
      (∀ m ∈ messages, m.length < maxSdpLen + 512) ∧ BetweenFrames messages (ticks incoming) := by
  rw [← framesWhole_iff hsent]
  constructor
  · intro h
    obtain ⟨-, hfit, hwhole⟩ := receives_spec others ((ticks incoming).length + 1) 0
      (.enter errno) rfl (ticks incoming)
    rw [show receives others _ 0 _ _ = messages from h] at hfit hwhole
    exact ⟨hfit, hwhole (by rw [hsent])⟩
  · rintro ⟨hfit, hwhole⟩
    exact receives_whole others rfl rfl hfit hwhole (Nat.lt_succ_self _)

theorem received_eq_iff_ping : received (fun _ ↦ none) 0
    [.timeout, .segment (frame (lit "type=PING")), .timeout] = [lit "type=PING"] ↔
      (∀ m ∈ [lit "type=PING"], m.length < maxSdpLen + 512) ∧
        BetweenFrames [lit "type=PING"]
          (ticks [.timeout, .segment (frame (lit "type=PING")), .timeout]) :=
  received_eq_iff _ _ (by decide +kernel)

/-- A PING whose header comes in two segments, with a timeout between them, is lost. -/
theorem received_ne_of_timeout : ¬ ∀ (others : Nat → Option Int) (errno : Int)
    (messages : List Bytes) (incoming : List Incoming),
    (∀ m ∈ messages, m.length ≤ maxSdpLen + 512) →
      (ticks incoming).reduceOption = messages.flatMap frame →
        received others errno incoming = messages := by
  intro h
  have hlost := h (fun _ ↦ none) 0 [lit "type=PING"]
    [.timeout, .segment [0, 0], .timeout, .segment ([0, 9] ++ lit "type=PING")] (by decide +kernel)
    (by decide +kernel)
  revert hlost
  decide +kernel

end Kitty.Provider
