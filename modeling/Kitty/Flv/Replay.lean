import Kitty.Flv.Cloud

/-!
# The replay and the ring

In the cloud consumer the cursor of a client is where the stream ended when it joined, or the
beginning of a session that started later, and the end of the replay leaves it there
(`src/consumer-srt-cloud/consumer_srt.c:300–313`). What the replay covers of the stream behind the
cursor is sent twice. The Android consumer moves the cursor.
-/

namespace Kitty.Flv

open Kitty.Base

/-- No position of the session was sent to the client twice, and they were sent in order. -/
def Increasing (c : HttpClient) : Prop := (c.delivered.map Prod.snd).Pairwise (· < ·)

/-- A client is sent bytes of the ring only from a cursor that is not behind the end of the
bytes replayed to it. -/
def PastReplay (s : StreamState) : CloudEvent → Prop
  | .call (.sent (.bytes k)) => ∀ c ∈ current s, await s c = .ringBytes → 0 < k →
      c.flvHdrOff ≤ c.position
  | _ => True

private theorem pairwise_positions (off start n : Nat) :
    (List.range' 0 off ++ List.range' start n).Pairwise (· < ·) ↔ n = 0 ∨ off ≤ start := by
  rw [List.pairwise_append]
  constructor
  · rintro ⟨-, -, hbefore⟩
    by_cases hn : n = 0
    · exact .inl hn
    · right
      by_contra hlt
      have hfirst : start ∈ List.range' start n := List.mem_range'_1.mpr (by omega)
      have hagain : start ∈ List.range' 0 off := List.mem_range'_1.mpr (by omega)
      exact Nat.lt_irrefl _ (hbefore start hagain start hfirst)
  · intro h
    refine ⟨List.pairwise_lt_range', List.pairwise_lt_range', ?_⟩
    intro a ha b hb
    rw [List.mem_range'_1] at ha hb
    omega

private theorem map_snd_zipIdx {l : Bytes} {start n : Nat} (h : start + n ≤ l.length) :
    ((l.zipIdx.drop start).take n).map Prod.snd = List.range' start n := by
  rw [List.map_take, List.map_drop, List.zipIdx_map_snd, List.drop_range',
    List.take_range'_of_length_ge (by omega), Nat.mul_one, Nat.zero_add]

section Client

variable {s : StreamState} {c : HttpClient}

/-- The positions sent before the end of the replay. -/
private theorem increasing_of_header (h : CloudClient s c) (hb : Buffered s)
    (hsent : c.flvHdrSent = false) : Increasing c := by
  have hlen := hb.length_flvHeader
  have hreplayed := h.replayed
  rw [Increasing, h.header hsent]
  have hpositions := map_snd_zipIdx (show 0 + c.flvHdrOff ≤ s.stream.length by omega)
  rw [List.drop_zero] at hpositions
  rw [hpositions]
  exact List.pairwise_lt_range'

/-- The positions sent after it are in order when none of them comes before its end. -/
private theorem increasing_iff (h : CloudClient s c) (hb : Buffered s) {start n : Nat}
    (hposition : c.position = start + n)
    (hdelivered : c.delivered =
      s.stream.zipIdx.take c.flvHdrOff ++ (s.stream.zipIdx.drop start).take n) :
    Increasing c ↔ n = 0 ∨ c.flvHdrOff ≤ start := by
  have hlen := hb.length_flvHeader
  have hreplayed := h.replayed
  have hbehind := h.behind
  have hreplay := map_snd_zipIdx (show 0 + c.flvHdrOff ≤ s.stream.length by omega)
  have hring := map_snd_zipIdx (show start + n ≤ s.stream.length by omega)
  rw [List.drop_zero] at hreplay
  rw [Increasing, hdelivered, List.map_append, hreplay, hring]
  exact pairwise_positions c.flvHdrOff start n

/-- Bytes of the ring are in order when those before them were and the cursor is not behind the
end of the replay. -/
private theorem increasing_sendRing (h : CloudClient s c) (hb : Buffered s) (hinc : Increasing c)
    {k : Nat} (hsent : c.flvHdrSent = true) (hlive : c.cursor < s.totalBytes) (hk : 0 < k)
    (htake : k ≤ ringTake s c) (hmoved : CloudClient s (c.sendRing s k)) :
    Increasing (c.sendRing s k) ↔ c.flvHdrOff ≤ c.position := by
  obtain ⟨start, n, hposition, hdelivered⟩ := h.live hsent
  have hbefore := (increasing_iff h hb hposition hdelivered).mp hinc
  have hdelivered' : (c.sendRing s k).delivered =
      s.stream.zipIdx.take c.flvHdrOff ++ (s.stream.zipIdx.drop start).take (n + k) := by
    rw [delivered_sendRing h.toPlaced hb hlive htake h.window, hdelivered, hposition,
      List.append_assoc, ← List.drop_drop, ← List.take_add]
  have hposition' : (c.sendRing s k).position = start + (n + k) := by
    simp only [HttpClient.sendRing]
    omega
  rw [increasing_iff hmoved hb hposition' hdelivered']
  simp only [HttpClient.sendRing]
  omega

private theorem increasing_moves (h : CloudClient s c) (hb : Buffered s) (hinc : Increasing c)
    {call : Call} {c' : HttpClient} (hmove : Moves cloudEndHeader s c call c')
    (hpast : ∀ k, call = .sent (.bytes k) → await s c = .ringBytes → 0 < k →
      c.flvHdrOff ≤ c.position) : Increasing c' := by
  have hmoved := h.moves hb hmove
  cases hmove with
  | interrupted | httpHeader _ | headerEnd _ _ => exact hinc
  | cachedHeader hsent _ _ => exact increasing_of_header hmoved hb hsent
  | ringBytes hawait hsent hpos hlive hk =>
    have hsent' := hb.flvHdrSent hsent hlive
    exact (increasing_sendRing h hb hinc hsent' hlive hpos hk hmoved).mpr
      (hpast _ rfl hawait hpos)

end Client

/-! ### Runs -/

/-- Every open client was sent increasing positions of the session. -/
def NoRepeat (s : StreamState) : Prop := ∀ c ∈ s.clients, 0 ≤ c.fd → Increasing c

private theorem noRepeat_of_pastReplay {s t : StreamState} {e : CloudEvent} (h : CloudGood s)
    (hinc : NoRepeat s) (hstep : cloudStep s e = some t) (hpast : PastReplay s e) :
    NoRepeat t := by
  intro c hc hfd
  cases e with
  | accepted =>
    obtain ⟨-, heq⟩ := Option.ite_none_right_eq_some.mp hstep
    cases heq
    obtain ⟨c₀, rfl⟩ := mem_startSession hc hfd
    exact List.Pairwise.nil
  | received data =>
    obtain ⟨-, heq⟩ := Option.ite_none_right_eq_some.mp hstep
    cases heq
    have hc := (mem_pruneLagged hc hfd).1
    rw [clients_receive] at hc
    exact hinc c hc hfd
  | ended =>
    obtain ⟨-, heq⟩ := Option.ite_none_right_eq_some.mp hstep
    cases heq
    exact hinc c hc hfd
  | joined fd =>
    obtain ⟨-, heq⟩ := Option.ite_none_right_eq_some.mp hstep
    cases heq
    obtain hc | rfl := mem_clients_join hc
    · exact hinc c hc hfd
    · exact List.Pairwise.nil
  | call call =>
    obtain ⟨i, hi, hdrain⟩ := Option.bind_eq_some_iff.mp hstep
    apply forall_drainStep hdrain hinc _ hc hfd
    intro c c' hget hopen hbefore hmove
    have hclient := h.clients c (List.mem_of_getElem? hget) hopen
    apply increasing_moves hclient h.toBuffered hbefore hmove
    intro k hcall hawait hpos
    subst hcall
    exact hpast c (by simp [current, hi, hget]) hawait hpos

private theorem pastReplay_of_noRepeat {s t : StreamState} {e : CloudEvent} (h : CloudGood s)
    (hinc : NoRepeat s) (hstep : cloudStep s e = some t) (hafter : NoRepeat t) :
    PastReplay s e := by
  unfold PastReplay
  split
  · next k =>
    intro c hc hawait hk
    obtain ⟨i, hi, hget⟩ := Option.bind_eq_some_iff.mp hc
    simp only [cloudStep, hi, Option.bind_some] at hstep
    obtain ⟨hopen, htake, rfl⟩ := drainStep_ringBytes hstep hget hawait hk
    have hmem := List.mem_of_getElem? hget
    have hclient := h.clients c hmem hopen
    obtain ⟨hsent, hlive⟩ := await_ringBytes hawait
    have hmoved := hclient.moves h.toBuffered (.ringBytes hawait hsent hk hlive htake)
    have hagain : Increasing (c.sendRing s k) :=
      hafter _ (List.mem_set (List.getElem?_eq_some_iff.mp hget).1 _) hopen
    exact (increasing_sendRing hclient h.toBuffered (hinc c hmem hopen)
      (h.toBuffered.flvHdrSent hsent hlive) hlive hk htake hmoved).mp hagain
  · trivial

/-- No client is sent a position of a session twice, in any state of a run, when no client is
sent bytes of the ring from a cursor behind the end of its replay, and only then. -/
theorem cloud_noRepeat_iff_pastReplay {memory : Nat → UInt8} {events : List CloudEvent}
    {t : StreamState} (hrun : run cloudStep (streamInit memory false) events = some t) :
    (∀ es u, es <+: events → run cloudStep (streamInit memory false) es = some u →
        ∀ c ∈ u.clients, 0 ≤ c.fd → (c.delivered.map Prod.snd).Pairwise (· < ·)) ↔
      Always cloudStep PastReplay (streamInit memory false) events :=
  forall_prefix_iff_always cloudStep good_cloudStep
    (fun _ _ _ hgood hinc hstep ↦ ⟨pastReplay_of_noRepeat hgood hinc hstep,
      noRepeat_of_pastReplay hgood hinc hstep⟩)
    (good_cloudInit memory) (fun c hc ↦ by simp [streamInit] at hc) hrun

instance (s : StreamState) : (e : CloudEvent) → Decidable (PastReplay s e)
  | .call (.sent (.bytes k)) =>
    inferInstanceAs (Decidable (∀ c ∈ current s, await s c = .ringBytes → 0 < k →
      c.flvHdrOff ≤ c.position))
  | .call (.sent .wouldBlock) | .call (.sent .interrupted) | .call (.sent .failed)
  | .call (.wrote _) | .call .own | .accepted | .received _ | .ended | .joined _ => isTrue trivial

theorem cloud_noRepeat_start :
    ∃ t, run cloudStep (streamInit (fun _ ↦ 0) false) cloudEvents = some t ∧
      (∃ c ∈ t.clients, c.delivered = [(70, 0), (76, 1), (86, 2)]) ∧
      ∀ es u, es <+: cloudEvents → run cloudStep (streamInit (fun _ ↦ 0) false) es = some u →
        ∀ c ∈ u.clients, 0 ≤ c.fd → (c.delivered.map Prod.snd).Pairwise (· < ·) := by
  have hrun : ∃ t, run cloudStep (streamInit (fun _ ↦ 0) false) cloudEvents = some t ∧
      ∃ c ∈ t.clients, c.delivered = [(70, 0), (76, 1), (86, 2)] :=
    exists_run cloudStep _ (by decide +kernel)
  obtain ⟨t, ht, hsent⟩ := hrun
  exact ⟨t, ht, hsent, (cloud_noRepeat_iff_pastReplay ht).mpr (by decide +kernel)⟩

/-- A client that joins before the first byte is sent that byte from the cache and again from
the ring. -/
theorem cloud_early_client_repeats :
    ¬ ∀ memory events t, run cloudStep (streamInit memory false) events = some t →
      ∀ c ∈ t.clients, 0 ≤ c.fd → (c.delivered.map Prod.snd).Pairwise (· < ·) := by
  intro h
  have hrun : ∃ t, run cloudStep (streamInit (fun _ ↦ 0) false)
      [.accepted, .joined 5, .received [70], .call (.wrote true), .call (.sent (.bytes 1)),
        .call .own, .call (.sent (.bytes 1))] = some t ∧
      ∃ c ∈ t.clients, 0 ≤ c.fd ∧ c.delivered.map Prod.snd = [0, 0] :=
    exists_run cloudStep _ (by decide +kernel)
  obtain ⟨t, ht, c, hc, hfd, hpositions⟩ := hrun
  have hinc := h _ _ t ht c hc hfd
  rw [hpositions] at hinc
  simp at hinc

end Kitty.Flv
