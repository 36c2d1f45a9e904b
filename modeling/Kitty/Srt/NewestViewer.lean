import Kitty.Srt.Handoff
import Kitty.Srt.PumpSource

/-!
# The newest viewer

The control thread posts the requests of viewers in a mailbox of one slot, and sets a flag that
stops the pump; the pump thread takes the request in the slot and clears the flag;
`src/ap2p/srt_thread.c:450–588`. A request is posted in three steps under the lock, between which
the pump goes on where it needs no lock. The descriptors, and the steps of
`srt_rendezvous_connect`, are those of `Kitty.Srt.Handoff`; here it is one call. The steps of
`pump_src_to_srt` are those of `Kitty.Srt.PumpSource`.
-/

namespace Kitty.Srt

open Kitty.Base

/-! ### The two threads -/

/-- A posted request and its place among those posted. -/
structure Numbered where
  number : Nat
  posted : Posted
  deriving DecidableEq

/-- Where the control thread is in `post_pump_request`: outside; with the lock, before it closes the
active socket; with the lock, before it stores the request. -/
inductive PostPc where
  | idle
  | closing (req : Posted)
  | storing (req : Posted)
  deriving DecidableEq

/-- Where `pump_thread_main` is: waiting for a request; in `srt_rendezvous_connect`; before it makes
the socket the active one; in `connect_src`; in `pump_src_to_srt`; before it withdraws the socket;
before `srt_close`; at the end of a round; returned. -/
inductive StreamPc where
  | waiting
  | connecting (req : Numbered)
  | publishing
  | opening
  | pumping (src : SrcPump)
  | withdrawing
  | closing
  | done
  | exited
  deriving DecidableEq

/-- Both threads and what they share. `active` says that `g_active_srt` is the socket of the pump,
and `srtClosed` that the control thread has closed it. No step reads the last four: the requests
posted, the numbers of those for which a rendezvous was begun and of those overwritten in the slot,
and how many blocks were being sent or came to be sent since the flag was set. -/
structure Viewers where
  post : PostPc
  pending : Option Numbered
  cancel : Bool
  active : Bool
  srtClosed : Bool
  pump : StreamPc
  shutdown : Bool
  log : List Posted
  served : List Nat
  replaced : List Nat
  passed : Nat
  deriving DecidableEq

/-- What happens: the control thread begins to post a request, closes the active socket, stores the
request; a call of `pump_thread_main` returns; `connect_src` returns, when the source is connected
with whether a path is configured; a call of `pump_src_to_srt` returns; a signal asks for
shutdown. -/
inductive ViewersEvent where
  | post (req : Posted)
  | closeActive
  | store
  | call (ok : Bool)
  | opened (hasPath : Option Bool)
  | src (e : SrcEvent)
  | shutdown

/-- The pump thread goes on. -/
def ViewersEvent.isPump : ViewersEvent → Bool
  | .call _ | .opened _ | .src _ => true
  | .post _ | .closeActive | .store | .shutdown => false

/-- A request is posted with a descriptor. -/
def ViewersEvent.valid : ViewersEvent → Bool
  | .post req => req.udpFd.isSome
  | _ => true

/-- Something was sent. -/
def SrcEvent.isSend : SrcEvent → Bool
  | .send _ => true
  | _ => false

/-- A block is being sent. -/
def SrcPump.inBlock (src : SrcPump) : Bool :=
  match src.phase with
  | .block _ _ _ | .sending _ _ _ => true
  | _ => false

/-- A block is being sent. -/
def StreamPc.inBlock : StreamPc → Bool
  | .pumping src => src.inBlock
  | _ => false

namespace Viewers

/-- Both threads at their start. -/
def start : Viewers where
  post := .idle
  pending := none
  cancel := false
  active := false
  srtClosed := false
  pump := .waiting
  shutdown := false
  log := []
  served := []
  replaced := []
  passed := 0

/-- The pump takes the request in the slot, and begins the rendezvous when the request has a
descriptor. -/
def take (w : Viewers) (req : Numbered) : Viewers :=
  let w := { w with pending := none, cancel := false }
  if req.posted.udpFd = none then { w with pump := .done }
  else { w with pump := .connecting req, served := w.served ++ [req.number] }

/-- The next call of `pump_thread_main`, outside `connect_src` and `pump_src_to_srt`. What needs the
lock waits until no request is being posted. -/
def callStep (w : Viewers) (ok : Bool) : Option Viewers :=
  match w.pump with
  | .waiting =>
    if w.shutdown then some { w with pump := .exited }
    else if w.post = .idle then w.pending.map w.take else none
  | .connecting _ =>
    some { w with pump := if ok then .publishing else .done, srtClosed := false }
  | .publishing => if w.post = .idle then some { w with active := true, pump := .opening } else none
  | .pumping src =>
    match src.phase with
    | .returned _ => some { w with pump := .withdrawing }
    | _ => none
  | .withdrawing =>
    if w.post = .idle then some { w with active := false, pump := .closing } else none
  | .closing => some { w with pump := .done }
  | .done => some { w with pump := .waiting }
  | .opening | .exited => none

/-- `pump_src_to_srt` goes on. Nothing can be sent on a closed socket. -/
def srcStep (w : Viewers) (e : SrcEvent) : Option Viewers :=
  match w.pump with
  | .pumping src =>
    if w.srtClosed && e.isSend then none
    else (src.step w.shutdown w.cancel e).map fun src' ↦
      { w with
        pump := .pumping src'
        passed := if w.cancel && !src.inBlock && src'.inBlock then w.passed + 1 else w.passed }
  | _ => none

/-- One event. -/
def step (w : Viewers) : ViewersEvent → Option Viewers
  | .post req =>
    if w.post = .idle then
      some { w with
        post := .closing req
        cancel := true
        passed := if w.cancel then w.passed else if w.pump.inBlock then 1 else 0 }
    else none
  | .closeActive =>
    match w.post with
    | .closing req =>
      some { w with post := .storing req, active := false, srtClosed := w.srtClosed || w.active }
    | _ => none
  | .store =>
    match w.post with
    | .storing req =>
      some { w with
        post := .idle
        pending := some ⟨w.log.length, req⟩
        log := w.log ++ [req]
        replaced := w.replaced ++ (w.pending.map Numbered.number).toList }
    | _ => none
  | .call ok => w.callStep ok
  | .opened hasPath =>
    match w.pump with
    | .opening =>
      some { w with
        pump := match hasPath with
          | some hasPath => .pumping (if hasPath then .start else .startRaw)
          | none => .withdrawing }
    | _ => none
  | .src e => w.srcStep e
  | .shutdown => some { w with shutdown := true }

end Viewers

/-! ### The end of a stream -/

/-- Once the flag is set, `pump_src_to_srt` has no more to receive. -/
def SrcPump.stopping (src : SrcPump) : Bool :=
  match src.phase with
  | .block _ _ _ | .sending _ _ _ | .top | .returned _ => true
  | .request | .header _ _ | .polling | .receiving => false

/-- The most steps that `pump_src_to_srt` takes once the flag is set. -/
def SrcPump.rank (src : SrcPump) : Nat :=
  match src.phase with
  | .request => 6 + 3 * localBufferSize
  | .header buf _ => 5 + 2 * localBufferSize + (localBufferSize - buf.length)
  | .polling => 4 + 2 * localBufferSize
  | .receiving => 3 + 2 * localBufferSize
  | .block _ buf off => 2 + 2 * (buf.length - off)
  | .sending _ buf off => 1 + 2 * (buf.length - off)
  | .top => 1
  | .returned _ => 0

/-- A stream in a block ends with it. -/
theorem SrcPump.stopping_of_inBlock {src : SrcPump} (h : src.inBlock = true) :
    src.stopping = true := by
  unfold inBlock at h
  unfold stopping
  split at h
  case h_3 => cases h
  all_goals simp [*]

/-- What comes with the end of the header is sent first. -/
private theorem SrcPump.rank_headerRead (src : SrcPump) (buf : Bytes) (off : Nat) :
    (src.headerRead buf off).rank ≤ 2 + 2 * buf.length := by
  unfold headerRead
  split
  · exact Nat.zero_le _
  · split
    · exact Nat.zero_le _
    · split
      · change 2 + 2 * ((buf.drop off).length - 0) ≤ _
        rw [List.length_drop]
        omega
      · change 1 ≤ _
        omega

/-- Once the flag is set, every step comes nearer to the end. -/
theorem SrcPump.rank_step {shutdown : Bool} {src src' : SrcPump} {e : SrcEvent}
    (h : src.step shutdown true e = some src') : src'.rank < src.rank := by
  rw [rank.eq_def src]
  cases move_of_step h with
  | asked hphase =>
    rw [hphase]
    change 5 + 2 * localBufferSize + localBufferSize < 6 + 3 * localBufferSize
    omega
  | notAsked hphase =>
    rw [hphase]
    change 0 < 6 + 3 * localBufferSize
    omega
  | @partHeader buf bytes _ le hphase hne hfit _ =>
    rw [hphase]
    dsimp only
    have hpos := List.length_pos_iff.mpr hne
    have hlen : (buf ++ bytes).length = buf.length + bytes.length := List.length_append
    split
    · change 5 + 2 * localBufferSize + (localBufferSize - (buf ++ bytes).length) < _
      omega
    · change 0 < _
      omega
  | @headerEnd buf bytes _ le off hphase hne hfit _ =>
    rw [hphase]
    dsimp only
    have hpos := List.length_pos_iff.mpr hne
    have hlen : (buf ++ bytes).length = buf.length + bytes.length := List.length_append
    apply Nat.lt_of_le_of_lt (rank_headerRead _ _ _)
    omega
  | lost hphase _ =>
    rw [hphase]
    change 0 < _
    dsimp only
    omega
  | @nextSend _ buf off hphase _ =>
    rw [hphase]
    change 1 + 2 * (buf.length - off) < 2 + 2 * (buf.length - off)
    omega
  | blockEnd hphase _ =>
    rw [hphase]
    change 1 < _
    dsimp only
    omega
  | @sent _ buf off rc hphase hpos hle =>
    rw [hphase]
    change 2 + 2 * (buf.length - (off + rc)) < 1 + 2 * (buf.length - off)
    omega
  | sendFailed hphase =>
    rw [hphase]
    change 0 < _
    dsimp only
    omega
  | goesOn _ _ hcancel => cases hcancel
  | stops hphase =>
    rw [hphase]
    exact Nat.zero_lt_one
  | ready hphase =>
    rw [hphase]
    change 3 + 2 * localBufferSize < 4 + 2 * localBufferSize
    omega
  | nothing hphase _ =>
    change 1 < _
    obtain hphase | hphase := hphase
    all_goals
      rw [hphase]
      dsimp only
      omega
  | ended hphase _ =>
    change 0 < _
    obtain hphase | hphase := hphase
    all_goals
      rw [hphase]
      dsimp only
      omega
  | @taken bytes hphase hfit =>
    rw [hphase]
    change 2 + 2 * (bytes.length - 0) < 3 + 2 * localBufferSize
    omega

/-- Once the flag is set, a stream that has no more to receive begins no block. -/
theorem SrcPump.stopping_step {shutdown : Bool} {src src' : SrcPump} {e : SrcEvent}
    (h : src.step shutdown true e = some src') (hstop : src.stopping = true) :
    src'.stopping = true ∧ (src'.inBlock = true → src.inBlock = true) := by
  rw [stopping.eq_def src] at hstop
  rw [inBlock.eq_def src]
  cases move_of_step h with
  | asked hphase | notAsked hphase | partHeader hphase | headerEnd hphase | lost hphase
  | ready hphase | taken hphase =>
    rw [hphase] at hstop
    cases hstop
  | nextSend hphase | blockEnd hphase | sent hphase | sendFailed hphase =>
    rw [hphase]
    exact ⟨rfl, fun _ ↦ rfl⟩
  | goesOn _ _ hcancel => cases hcancel
  | stops hphase =>
    rw [hphase]
    exact ⟨rfl, id⟩
  | nothing hphase | ended hphase =>
    obtain hphase | hphase := hphase
    all_goals
      rw [hphase] at hstop
      cases hstop

/-- The pump begins no block before it takes another request, once the flag is set. -/
def StreamPc.stopping : StreamPc → Bool
  | .pumping src => src.stopping
  | .connecting _ | .publishing | .opening => false
  | .waiting | .withdrawing | .closing | .done | .exited => true

/-- The most steps the pump takes before it waits for another request, once the flag is set. -/
def StreamPc.rank : StreamPc → Nat
  | .connecting _ => 13 + 3 * localBufferSize
  | .publishing => 12 + 3 * localBufferSize
  | .opening => 11 + 3 * localBufferSize
  | .pumping src => 4 + src.rank
  | .withdrawing => 3
  | .closing => 2
  | .done => 1
  | .waiting | .exited => 0

namespace Viewers

/-! ### The pump thread -/

/-- Since the flag was set, the pump has passed one block at most, and when it has passed one it
passes no more. -/
def FewPassed (w : Viewers) : Prop :=
  w.cancel = true → w.passed = 0 ∨ w.passed = 1 ∧ w.pump.stopping = true

/-- The pump goes on towards the next request: the mailbox and what is known of the requests stay as
they are. -/
structure Onward (w v : Viewers) : Prop where
  post : v.post = w.post
  pending : v.pending = w.pending
  cancel : v.cancel = w.cancel
  shutdown : v.shutdown = w.shutdown
  log : v.log = w.log
  served : v.served = w.served
  replaced : v.replaced = w.replaced
  few : w.FewPassed → v.FewPassed
  exited : v.pump = .exited → w.shutdown = true
  nearer : w.cancel = true → w.shutdown = false → v.pump.rank < w.pump.rank

/-- A step that passes no block. -/
private theorem onward {w : Viewers} {old pc : StreamPc} {active srtClosed : Bool}
    (hpump : w.pump = old) (hstop : old.stopping = true → pc.stopping = true)
    (hrank : w.shutdown = false → pc.rank < old.rank)
    (hexited : pc = .exited → w.shutdown = true) :
    w.Onward { w with pump := pc, active, srtClosed } where
  post := rfl
  pending := rfl
  cancel := rfl
  shutdown := rfl
  log := rfl
  served := rfl
  replaced := rfl
  few hfew hcancel := by
    obtain hnone | ⟨hone, hstopping⟩ := hfew hcancel
    · exact .inl hnone
    · exact .inr ⟨hone, hstop (hpump ▸ hstopping)⟩
  exited := hexited
  nearer _ hrun := by
    rw [hpump]
    exact hrank hrun

/-- A call of `pump_thread_main` takes the request in the slot, or goes on. -/
private theorem callStep_cases {w v : Viewers} {ok : Bool} (h : w.callStep ok = some v) :
    (∃ req, w.pump = .waiting ∧ w.post = .idle ∧ w.pending = some req ∧ v = w.take req) ∨
      w.Onward v := by
  unfold callStep at h
  cases hpump : w.pump with
  | waiting =>
    rw [hpump] at h
    dsimp only at h
    by_cases hshutdown : w.shutdown = true
    · rw [if_pos hshutdown] at h
      cases h
      right
      apply onward hpump (fun _ ↦ rfl) ?_ fun _ ↦ hshutdown
      intro hrun
      rw [hshutdown] at hrun
      cases hrun
    · rw [if_neg hshutdown] at h
      split at h
      · next hidle =>
        obtain ⟨req, hreq, rfl⟩ := Option.map_eq_some_iff.mp h
        exact .inl ⟨req, rfl, hidle, hreq, rfl⟩
      · cases h
  | connecting req =>
    rw [hpump] at h
    cases h
    right
    apply onward hpump (fun hstop ↦ by cases hstop) ?_ fun hexit ↦ by cases ok <;> cases hexit
    intro _
    cases ok with
    | true =>
      change 12 + 3 * localBufferSize < 13 + 3 * localBufferSize
      omega
    | false =>
      change 1 < 13 + 3 * localBufferSize
      omega
  | publishing =>
    rw [hpump] at h
    dsimp only at h
    split at h
    · cases h
      right
      apply onward hpump (fun hstop ↦ by cases hstop) ?_ fun hexit ↦ by cases hexit
      intro _
      change 11 + 3 * localBufferSize < 12 + 3 * localBufferSize
      omega
    · cases h
  | pumping src =>
    rw [hpump] at h
    dsimp only at h
    split at h
    · cases h
      right
      apply onward hpump (fun _ ↦ rfl) ?_ fun hexit ↦ by cases hexit
      intro _
      change 3 < 4 + src.rank
      omega
    · cases h
  | withdrawing =>
    rw [hpump] at h
    dsimp only at h
    split at h
    · cases h
      right
      exact onward hpump (fun _ ↦ rfl) (fun _ ↦ Nat.lt_succ_self 2) fun hexit ↦ by cases hexit
    · cases h
  | closing =>
    rw [hpump] at h
    cases h
    exact .inr (onward hpump (fun _ ↦ rfl) (fun _ ↦ Nat.lt_succ_self 1) fun hexit ↦ by cases hexit)
  | done =>
    rw [hpump] at h
    cases h
    exact .inr (onward hpump (fun _ ↦ rfl) (fun _ ↦ Nat.zero_lt_one) fun hexit ↦ by cases hexit)
  | opening | exited =>
    rw [hpump] at h
    cases h

/-- A source is connected, or it is not. -/
private theorem opened_onward {w v : Viewers} {hasPath : Option Bool}
    (h : w.step (.opened hasPath) = some v) : w.Onward v := by
  unfold step at h
  cases hpump : w.pump with
  | opening =>
    rw [hpump] at h
    cases h
    apply onward hpump (fun hstop ↦ by cases hstop) ?_ fun hexit ↦ by
      rcases hasPath with _ | _ | _ <;> cases hexit
    intro _
    rcases hasPath with _ | _ | _
    · change 3 < 11 + 3 * localBufferSize
      omega
    · change 4 + 1 < 11 + 3 * localBufferSize
      omega
    · change 4 + (6 + 3 * localBufferSize) < 11 + 3 * localBufferSize
      omega
  | _ =>
    rw [hpump] at h
    cases h

/-- A step of `pump_src_to_srt` begins a block only when none was passed since the flag was set. -/
private theorem srcStep_onward {w v : Viewers} {e : SrcEvent} (h : w.srcStep e = some v) :
    w.Onward v := by
  unfold srcStep at h
  cases hpump : w.pump with
  | pumping src =>
    rw [hpump] at h
    dsimp only at h
    split at h
    · cases h
    · obtain ⟨src', hsrc, rfl⟩ := Option.map_eq_some_iff.mp h
      constructor
      case post | pending | cancel | shutdown | log | served | replaced => rfl
      case exited => exact fun hexit ↦ by cases hexit
      case few =>
        intro hfew hcancel
        have hset : w.cancel = true := hcancel
        rw [hset] at hsrc
        change (if w.cancel && !src.inBlock && src'.inBlock then w.passed + 1 else w.passed) = 0 ∨
          (if w.cancel && !src.inBlock && src'.inBlock then w.passed + 1 else w.passed) = 1 ∧
            src'.stopping = true
        rw [hset, Bool.true_and]
        obtain hnone | ⟨hone, hstop⟩ := hfew hset
        · rw [hnone]
          by_cases hbegin : (!src.inBlock && src'.inBlock) = true
          · rw [if_pos hbegin]
            rw [Bool.and_eq_true] at hbegin
            exact .inr ⟨rfl, SrcPump.stopping_of_inBlock hbegin.2⟩
          · rw [if_neg hbegin]
            exact .inl rfl
        · rw [hpump] at hstop
          obtain ⟨hstop', hin⟩ := SrcPump.stopping_step hsrc hstop
          have hbegin : (!src.inBlock && src'.inBlock) = false := by
            cases hblock : src'.inBlock with
            | true => rw [hin hblock, Bool.not_true, Bool.false_and]
            | false => rw [Bool.and_false]
          rw [hbegin]
          exact .inr ⟨hone, hstop'⟩
      case nearer =>
        intro hcancel _
        rw [hcancel] at hsrc
        rw [hpump]
        exact Nat.add_lt_add_left (SrcPump.rank_step hsrc) 4
  | _ =>
    rw [hpump] at h
    cases h

/-- The pump takes the request in the slot, or it goes on towards the next one. -/
theorem pump_cases {w v : Viewers} {e : ViewersEvent} (he : e.isPump = true)
    (h : w.step e = some v) :
    (∃ req, w.pump = .waiting ∧ w.post = .idle ∧ w.pending = some req ∧ v = w.take req) ∨
      w.Onward v := by
  cases e with
  | post | closeActive | store | shutdown => cases he
  | call ok => exact callStep_cases h
  | opened hasPath => exact .inr (opened_onward h)
  | src e => exact .inr (srcStep_onward h)

/-! ### The mailbox -/

/-- The request that is being posted. -/
def posting (w : Viewers) : Option Posted :=
  match w.post with
  | .idle => none
  | .closing req | .storing req => some req

/-- The numbers of the requests, by what has become of them. -/
def numbers (w : Viewers) : List Nat :=
  w.served ++ w.replaced ++ (w.pending.map Numbered.number).toList

/-- The flag is set when a request is pending or being posted. What is pending was posted last, and
each request was served, was replaced by a newer one, or is pending. -/
structure Newest (w : Viewers) : Prop where
  cancel : w.cancel = (w.pending.isSome || w.posting.isSome)
  last : ∀ req, w.pending = some req →
    req.number + 1 = w.log.length ∧ w.log.getLast? = some req.posted
  once : w.numbers.Perm (List.range w.log.length)
  newer : ∀ n ∈ w.replaced, n + 1 < w.log.length
  pendingValid : ∀ req, w.pending = some req → req.posted.udpFd.isSome = true
  postingValid : ∀ req, w.posting = some req → req.udpFd.isSome = true
  few : w.FewPassed
  exited : w.pump = .exited → w.shutdown = true

theorem start_newest : start.Newest where
  cancel := rfl
  last _ h := by cases h
  once := List.Perm.refl _
  newer _ h := by cases h
  pendingValid _ h := by cases h
  postingValid _ h := by cases h
  few h := by cases h
  exited h := by cases h

/-- A request with a descriptor is served. -/
private theorem take_eq {req : Numbered} (h : req.posted.udpFd.isSome = true) (w : Viewers) :
    w.take req = { w with
      pending := none
      cancel := false
      pump := .connecting req
      served := w.served ++ [req.number] } := by
  unfold take
  rw [if_neg]
  intro hnone
  rw [hnone] at h
  cases h

private theorem take_newest {w : Viewers} {req : Numbered} (hw : w.Newest) (hidle : w.post = .idle)
    (hreq : w.pending = some req) : (w.take req).Newest := by
  rw [take_eq (hw.pendingValid req hreq)]
  constructor
  case cancel =>
    unfold posting
    rw [hidle]
    rfl
  case last | pendingValid => exact fun _ h ↦ by cases h
  case once =>
    have honce := hw.once
    unfold numbers at honce ⊢
    rw [hreq] at honce
    rw [Option.map_none, Option.toList_none, List.append_nil, List.append_assoc]
    apply List.Perm.trans _ honce
    rw [List.append_assoc]
    exact (List.perm_append_comm).append_left _
  case newer => exact hw.newer
  case postingValid => exact hw.postingValid
  case few => exact fun h ↦ by cases h
  case exited => exact fun h ↦ by cases h

private theorem onward_newest {w v : Viewers} (hw : w.Newest) (h : w.Onward v) : v.Newest := by
  have hposting : v.posting = w.posting := by rw [posting, posting, h.post]
  have hnumbers : v.numbers = w.numbers := by
    rw [numbers, numbers, h.served, h.replaced, h.pending]
  constructor
  case cancel => rw [h.cancel, h.pending, hposting, hw.cancel]
  case last => rw [h.pending, h.log]; exact hw.last
  case once => rw [hnumbers, h.log]; exact hw.once
  case newer => rw [h.replaced, h.log]; exact hw.newer
  case pendingValid => rw [h.pending]; exact hw.pendingValid
  case postingValid => rw [hposting]; exact hw.postingValid
  case few => exact h.few hw.few
  case exited => rw [h.shutdown]; exact h.exited

/-- The flag is set; a block that is being sent then is the one that may pass. -/
private theorem post_newest {w : Viewers} {req : Posted} (hw : w.Newest)
    (hreq : req.udpFd.isSome = true) : { w with
      post := .closing req
      cancel := true
      passed := if w.cancel then w.passed else if w.pump.inBlock then 1 else 0 }.Newest where
  cancel := (Bool.or_true _).symm
  last := hw.last
  once := hw.once
  newer := hw.newer
  pendingValid := hw.pendingValid
  postingValid _ h := by
    cases h
    exact hreq
  few _ := by
    dsimp only
    by_cases hcancel : w.cancel = true
    · rw [if_pos hcancel]
      exact hw.few hcancel
    · rw [if_neg hcancel]
      by_cases hblock : w.pump.inBlock = true
      · rw [if_pos hblock]
        refine .inr ⟨rfl, ?_⟩
        cases hpump : w.pump with
        | pumping src =>
          rw [hpump] at hblock
          exact SrcPump.stopping_of_inBlock hblock
        | _ =>
          rw [hpump] at hblock
          cases hblock
      · rw [if_neg hblock]
        exact .inl rfl
  exited := hw.exited

/-- The request is stored, over one that was pending. -/
private theorem store_newest {w : Viewers} {req : Posted} (hw : w.Newest)
    (hpost : w.post = .storing req) : { w with
      post := .idle
      pending := some ⟨w.log.length, req⟩
      log := w.log ++ [req]
      replaced := w.replaced ++ (w.pending.map Numbered.number).toList }.Newest := by
  have hposting : w.posting = some req := by rw [posting, hpost]
  constructor
  case cancel =>
    dsimp only
    rw [hw.cancel, hposting, Option.isSome_some, Bool.or_true]
    rfl
  case last =>
    rintro _ ⟨⟩
    constructor
    · show _ = (w.log ++ [req]).length
      rw [List.length_append]
      rfl
    · exact List.getLast?_concat
  case once =>
    have honce := hw.once
    unfold numbers at honce ⊢
    dsimp only
    rw [List.length_append, List.length_singleton, List.range_succ, ← List.append_assoc]
    exact honce.append_right _
  case newer =>
    intro n hn
    dsimp only at hn ⊢
    rw [List.length_append, List.length_singleton]
    obtain hold | hnew := List.mem_append.mp hn
    · have hlt := hw.newer n hold
      omega
    · rw [Option.mem_toList, Option.map_eq_some_iff] at hnew
      obtain ⟨old, hold, rfl⟩ := hnew
      have hlast := (hw.last old hold).1
      omega
  case pendingValid =>
    rintro _ ⟨⟩
    exact hw.postingValid req hposting
  case postingValid => exact fun _ h ↦ by cases h
  case few => exact hw.few
  case exited => exact hw.exited

/-- Every event keeps what is known of the mailbox. -/
theorem Newest.step {w v : Viewers} {e : ViewersEvent} (hw : w.Newest) (hvalid : e.valid = true)
    (h : w.step e = some v) : v.Newest := by
  have hpump : e.isPump = true → v.Newest := by
    intro he
    obtain ⟨req, -, hidle, hreq, rfl⟩ | honward := pump_cases he h
    · exact take_newest hw hidle hreq
    · exact onward_newest hw honward
  cases e with
  | call | opened | src => exact hpump rfl
  | post req =>
    unfold Viewers.step at h
    dsimp only at h
    split at h
    · cases h
      exact post_newest hw hvalid
    · cases h
  | closeActive =>
    unfold Viewers.step at h
    dsimp only at h
    split at h
    · next req hpost =>
      cases h
      have hposting : w.posting = some req := by rw [posting, hpost]
      constructor
      case cancel => rw [hw.cancel, hposting]; rfl
      case postingValid => rintro _ ⟨⟩; exact hw.postingValid req hposting
      all_goals first
        | exact hw.last
        | exact hw.once
        | exact hw.newer
        | exact hw.pendingValid
        | exact hw.few
        | exact hw.exited
    · cases h
  | store =>
    unfold Viewers.step at h
    dsimp only at h
    split at h
    · next req hpost =>
      cases h
      exact store_newest hw hpost
    · cases h
  | shutdown =>
    cases h
    exact { hw with exited := fun _ ↦ rfl }

/-- Every run keeps it. -/
theorem newest_run {events : List ViewersEvent} (hvalid : ∀ e ∈ events, e.valid = true)
    {w v : Viewers} (hw : w.Newest) (hrun : run step w events = some v) : v.Newest := by
  induction events generalizing w with
  | nil =>
    cases hrun
    exact hw
  | cons e events ih =>
    obtain ⟨u, hu, hrest⟩ := Option.bind_eq_some_iff.mp hrun
    apply ih (fun e he ↦ hvalid e (List.mem_cons_of_mem _ he)) _ hrest
    exact hw.step (hvalid e List.mem_cons_self) hu

/-! ### No request is left -/

/-- The request was served, or a newer one has replaced it. -/
def Settled (w : Viewers) (n : Nat) : Prop := n ∈ w.served ∨ n ∈ w.replaced

/-- The control thread leaves the pump where it is, and what it takes from the slot is replaced. -/
theorem control_cases {w v : Viewers} {e : ViewersEvent} (he : e.isPump = false)
    (h : w.step e = some v) : v.pump = w.pump ∧ v.served = w.served ∧
      (w.cancel = true → v.cancel = true) ∧ (v.pending = w.pending ∧ v.replaced = w.replaced ∨
        v.pending.isSome = true ∧
          v.replaced = w.replaced ++ (w.pending.map Numbered.number).toList) := by
  unfold Viewers.step at h
  cases e with
  | call | opened | src => cases he
  | post req =>
    dsimp only at h
    split at h <;> cases h
    exact ⟨rfl, rfl, fun _ ↦ rfl, .inl ⟨rfl, rfl⟩⟩
  | closeActive =>
    dsimp only at h
    split at h <;> cases h
    exact ⟨rfl, rfl, id, .inl ⟨rfl, rfl⟩⟩
  | store =>
    dsimp only at h
    split at h <;> cases h
    exact ⟨rfl, rfl, id, .inr ⟨rfl, rfl⟩⟩
  | shutdown =>
    cases h
    exact ⟨rfl, rfl, id, .inl ⟨rfl, rfl⟩⟩

/-- What is settled stays so. -/
theorem Settled.step {w v : Viewers} {e : ViewersEvent} {n : Nat} (hw : w.Settled n)
    (h : w.step e = some v) : v.Settled n := by
  cases he : e.isPump with
  | true =>
    obtain ⟨req, -, -, -, rfl⟩ | honward := pump_cases he h
    · unfold take
      dsimp only
      split
      · exact hw
      · exact Or.imp_left (List.mem_append_left _) hw
    · rw [Settled, honward.served, honward.replaced]
      exact hw
  | false =>
    obtain ⟨-, hserved, -, ⟨-, hreplaced⟩ | ⟨-, hreplaced⟩⟩ := control_cases he h
    · rw [Settled, hserved, hreplaced]
      exact hw
    · rw [Settled, hserved, hreplaced]
      exact Or.imp_right (List.mem_append_left _) hw

/-- A shutdown is not taken back. -/
theorem shutdown_step {w v : Viewers} {e : ViewersEvent} (h : w.step e = some v)
    (hrun : v.shutdown = false) : w.shutdown = false := by
  cases he : e.isPump with
  | true =>
    obtain ⟨req, -, -, -, rfl⟩ | honward := pump_cases he h
    · unfold take at hrun
      dsimp only at hrun
      split at hrun <;> exact hrun
    · rw [← honward.shutdown]
      exact hrun
  | false =>
    unfold Viewers.step at h
    cases e with
    | call | opened | src => cases he
    | post | closeActive | store =>
      dsimp only at h
      split at h <;> cases h
      exact hrun
    | shutdown =>
      cases h
      cases hrun

/-- A run without a shutdown settles a pending request before the pump has taken more steps than its
place is away from the next request. -/
theorem settled_run {events : List ViewersEvent} (hvalid : ∀ e ∈ events, e.valid = true)
    {w v : Viewers} (hw : w.Newest) {req : Numbered} (hreq : w.pending = some req)
    (hrun : run step w events = some v) (hshutdown : v.shutdown = false)
    (hmany : w.pump.rank < events.countP ViewersEvent.isPump) : v.Settled req.number := by
  have hkeep : ∀ {events : List ViewersEvent} {u : Viewers}, u.Settled req.number →
      run step u events = some v → v.Settled req.number := by
    intro events u hu hrest
    apply invariant_of_run (fun w l ↦ step w l) _ hu hrest
    intro s l t hs h
    exact Settled.step hs h
  have hoff : ∀ {events : List ViewersEvent} {u : Viewers}, run step u events = some v →
      u.shutdown = false := by
    intro events
    induction events with
    | nil =>
      intro u hrest
      cases hrest
      exact hshutdown
    | cons e events ih =>
      intro u hrest
      obtain ⟨t, ht, hrest⟩ := Option.bind_eq_some_iff.mp hrest
      exact shutdown_step ht (ih hrest)
  induction events generalizing w with
  | nil => exact absurd hmany (Nat.not_lt_zero _)
  | cons e events ih =>
    have hcancel : w.cancel = true := by rw [hw.cancel, hreq]; rfl
    have hw_off := hoff hrun
    obtain ⟨u, hu, hrest⟩ := Option.bind_eq_some_iff.mp hrun
    have hunewest := hw.step (hvalid e List.mem_cons_self) hu
    have hvalid' := fun e he ↦ hvalid e (List.mem_cons_of_mem _ he)
    rw [List.countP_cons] at hmany
    cases he : e.isPump with
    | true =>
      rw [he, if_pos rfl] at hmany
      obtain ⟨taken, -, -, htaken, rfl⟩ | honward := pump_cases he hu
      · cases hreq.symm.trans htaken
        apply hkeep _ hrest
        rw [take_eq (hw.pendingValid req hreq)]
        exact .inl (List.mem_append_right _ List.mem_cons_self)
      · apply ih hvalid' hunewest (honward.pending.trans hreq) hrest
        have hnearer := honward.nearer hcancel hw_off
        omega
    | false =>
      rw [he, if_neg Bool.false_ne_true] at hmany
      obtain ⟨hpump, -, -, ⟨hpending, -⟩ | ⟨-, hreplaced⟩⟩ := control_cases he hu
      · apply ih hvalid' hunewest (hpending.trans hreq) hrest
        rw [hpump]
        exact hmany
      · apply hkeep _ hrest
        rw [hreq] at hreplaced
        right
        rw [hreplaced]
        exact List.mem_append_right _ List.mem_cons_self

/-- A stream that has not returned can go on: whatever it calls may fail. -/
private theorem exists_src_step (shutdown cancel : Bool) (src : SrcPump) :
    (∃ rc, src.phase = .returned rc) ∨
      ∃ e : SrcEvent, e.isSend = false ∧ (src.step shutdown cancel e).isSome = true := by
  cases hphase : src.phase with
  | request => exact .inr ⟨.request false, rfl, by unfold SrcPump.step; rw [hphase]; rfl⟩
  | header buf prevWasLe => exact .inr ⟨.recvClosed, rfl, by unfold SrcPump.step; rw [hphase]; rfl⟩
  | block onError buf off => exact .inr ⟨.check, rfl, by unfold SrcPump.step; rw [hphase]; rfl⟩
  | sending onError buf off =>
    exact .inr ⟨.sendError, rfl, by unfold SrcPump.step; rw [hphase]; rfl⟩
  | top => exact .inr ⟨.check, rfl, by unfold SrcPump.step; rw [hphase]; rfl⟩
  | polling => exact .inr ⟨.poll .failed, rfl, by unfold SrcPump.step; rw [hphase]; rfl⟩
  | receiving => exact .inr ⟨.recvClosed, rfl, by unfold SrcPump.step; rw [hphase]; rfl⟩
  | returned rc => exact .inl ⟨rc, rfl⟩

/-- A pump with a request to take can go on, as soon as no request is being posted. -/
theorem exists_pump_step {w : Viewers} (hw : w.Newest) (hpending : w.pending.isSome = true)
    (hshutdown : w.shutdown = false) (hidle : w.post = .idle) :
    ∃ e, e.isPump = true ∧ (w.step e).isSome = true := by
  have hcall : (w.callStep true).isSome = true → ∃ e, e.isPump = true ∧ (w.step e).isSome = true :=
    fun h ↦ ⟨.call true, rfl, h⟩
  unfold callStep at hcall
  cases hpump : w.pump with
  | waiting =>
    rw [hpump, hshutdown] at hcall
    dsimp only at hcall
    rw [if_neg Bool.false_ne_true, if_pos hidle, Option.isSome_map] at hcall
    exact hcall hpending
  | connecting | closing | done =>
    rw [hpump] at hcall
    exact hcall rfl
  | publishing | withdrawing =>
    rw [hpump] at hcall
    dsimp only at hcall
    rw [if_pos hidle] at hcall
    exact hcall rfl
  | opening =>
    refine ⟨.opened none, rfl, ?_⟩
    unfold step
    rw [hpump]
    rfl
  | pumping src =>
    obtain ⟨rc, hreturned⟩ | ⟨e, hsend, hsome⟩ := exists_src_step w.shutdown w.cancel src
    · rw [hpump] at hcall
      dsimp only at hcall
      rw [hreturned] at hcall
      exact hcall rfl
    · refine ⟨.src e, rfl, ?_⟩
      unfold step srcStep
      rw [hpump]
      dsimp only
      rw [hsend, Bool.and_false, if_neg Bool.false_ne_true, Option.isSome_map]
      exact hsome
  | exited =>
    have hset := hw.exited hpump
    rw [hshutdown] at hset
    cases hset

/-! ### The newest viewer wins -/

/-- The step that empties the slot clears the flag with it, and the rendezvous that begins is that
of the request posted last. -/
structure Takes (w v : Viewers) (req : Numbered) : Prop where
  pending : w.pending = some req ∧ v.pending = none
  cancel : w.cancel = true ∧ v.cancel = false
  serving : v.pump = .connecting req ∧ v.served = w.served ++ [req.number]
  last : req.number + 1 = w.log.length ∧ w.log.getLast? = some req.posted

/-- What the two threads do for viewers. The flag is set exactly when a request is pending or being
posted; no step but one that takes the request clears it, empties the slot or serves a request; no
more than one block passes while the flag is set; each request was served once, replaced by a newer
one, or is pending, and a pending one is settled as the pump goes on, which it can. -/
structure NewestWins (w : Viewers) : Prop where
  flag : w.cancel = (w.pending.isSome || w.posting.isSome)
  taken : ∀ e v, w.step e = some v →
    w.cancel = true ∧ v.cancel = false ∨ w.pending.isSome = true ∧ v.pending = none ∨
      v.served ≠ w.served → ∃ req, w.Takes v req
  passed : w.cancel = true → w.passed ≤ 1
  once : w.numbers.Perm (List.range w.log.length)
  newer : ∀ n ∈ w.replaced, n + 1 < w.log.length
  settled : ∀ req, w.pending = some req → ∀ events v, (∀ e ∈ events, e.valid = true) →
    run step w events = some v → v.shutdown = false →
    w.pump.rank < events.countP ViewersEvent.isPump → v.Settled req.number
  live : w.pending.isSome = true → w.shutdown = false → w.post = .idle →
    ∃ e, e.isPump = true ∧ (w.step e).isSome = true

/-- However the requests are posted between the steps of the pump, the newest viewer wins. -/
theorem newest_viewer_wins (events : List ViewersEvent) (w : Viewers)
    (hvalid : ∀ e ∈ events, e.valid = true) (hrun : run step start events = some w) :
    w.NewestWins := by
  have hw := newest_run hvalid start_newest hrun
  constructor
  case flag => exact hw.cancel
  case taken =>
    intro e v h hchange
    cases he : e.isPump with
    | true =>
      obtain ⟨req, -, -, hreq, rfl⟩ | honward := pump_cases he h
      · refine ⟨req, ⟨hreq, ?_⟩, ⟨?_, ?_⟩, ?_, hw.last req hreq⟩
        · rw [take_eq (hw.pendingValid req hreq)]
        · rw [hw.cancel, hreq]
          rfl
        · rw [take_eq (hw.pendingValid req hreq)]
        · rw [take_eq (hw.pendingValid req hreq)]
          exact ⟨rfl, rfl⟩
      · rw [honward.cancel, honward.pending, honward.served] at hchange
        obtain ⟨hset, hclear⟩ | ⟨hsome, hnone⟩ | hne := hchange
        · rw [hset] at hclear
          cases hclear
        · rw [hnone] at hsome
          cases hsome
        · exact absurd rfl hne
    | false =>
      obtain ⟨-, hserved, hset, hpending⟩ := control_cases he h
      obtain ⟨hcancel, hclear⟩ | ⟨hsome, hnone⟩ | hne := hchange
      · rw [hset hcancel] at hclear
        cases hclear
      · obtain ⟨hsame, -⟩ | ⟨hstored, -⟩ := hpending
        · rw [← hsame, hnone] at hsome
          cases hsome
        · rw [hnone] at hstored
          cases hstored
      · exact absurd hserved hne
  case passed =>
    intro hcancel
    obtain hnone | ⟨hone, -⟩ := hw.few hcancel
    · omega
    · omega
  case once => exact hw.once
  case newer => exact hw.newer
  case settled => exact fun req hreq events v hmore hrest ↦ settled_run hmore hw hreq hrest
  case live => exact exists_pump_step hw

/-- The second viewer comes while a block is sent to the first, and the third before the second is
served. -/
private def sampleEvents : List ViewersEvent :=
  let viewer (ip : Bytes) (fd : Nat) : Posted := ⟨⟨ip, 9000, 5000, lit "203.0.113.7"⟩, some fd⟩
  [.post (viewer (lit "198.51.100.1") 3), .closeActive, .store, .call true, .call true, .call true,
    .opened (some false), .src .check, .src (.poll .ready), .src (.recv (lit "FLV")), .src .check,
    .post (viewer (lit "198.51.100.2") 4), .src (.send 3), .closeActive, .store, .src .check,
    .post (viewer (lit "198.51.100.3") 5), .closeActive, .store, .src .check, .call true,
    .call true, .call true, .call true, .call true]

/-- The third is served and the second is not, and the first gets the block it was getting. -/
theorem third_viewer_wins : ∃ w, run step start sampleEvents = some w ∧
    (w.served = [0, 2] ∧ w.replaced = [1] ∧ w.passed = 1) ∧ w.NewestWins := by
  obtain ⟨w, hrun, hw⟩ := @exists_run _ _ step start sampleEvents
    (fun w : Viewers ↦ w.served = [0, 2] ∧ w.replaced = [1] ∧ w.passed = 1) _ (by decide +kernel)
  exact ⟨w, hrun, hw, newest_viewer_wins sampleEvents w (by decide +kernel) hrun⟩

end Viewers

end Kitty.Srt
