import Kitty.Base.Run
import Kitty.Sdp.Relay

/-!
# The message loop of the libjuice provider

`recv_message` and the loop that calls it;
`src/provider-srt/_legacy_libjuice_provider_configurable.c:186–205,1498–1606`. The loop tells
a receive timeout from a lost connection by `errno`, which only a call that fails sets: the end
of the stream leaves there what an earlier call has put.
-/

namespace Kitty.Provider

open Kitty.Base
open Kitty.Sdp (maxSdpLen)

/-! ### One message -/

/-- What a call of `recv` returns: the bytes it has stored, none at the end of the stream, or
-1 with its `errno`. -/
inductive Recv where
  | bytes (bs : Bytes)
  | failed (errno : Int)
  deriving DecidableEq

/-- The number it returns. -/
def Recv.count : Recv → Int
  | bytes bs => bs.length
  | failed _ => -1

/-- What `errno` is after it. -/
def Recv.errno (before : Int) : Recv → Int
  | bytes _ => before
  | failed e => e

/-- The bytes of a call that has stored as many as it was to. -/
def Recv.exactly (n : Nat) : Recv → Option Bytes
  | bytes bs => if bs.length = n then some bs else none
  | failed _ => none

section Socket

variable {Socket : Type} (recv : Nat → Socket → Option (Recv × Socket))

/-- The loop that reads what does not fit, 4096 bytes at a time. A call that stores bytes
leaves fewer of them, so `remaining` rounds are enough. -/
def drain : Nat → Nat → Int → Socket → Option (Int × Socket)
  | 0, _, errno, s => some (errno, s)
  | fuel + 1, remaining, errno, s =>
    if remaining = 0 then some (errno, s)
    else do
      let (r, s) ← recv (min remaining 4096) s
      if r.count ≤ 0 then return (r.errno errno, s)
      drain fuel (remaining - r.count.toNat) errno s

/-- `recv_message` into a buffer of `size` bytes: the message, when it returns 1, what is in
`errno` and what is left at the socket. A call of `recv` that never returns is `none`. -/
def recvMessage (size : Nat) (errno : Int) (s : Socket) :
    Option (Option Bytes × Int × Socket) := do
  let (header, s) ← recv 4 s
  match header.exactly 4 with
  | none => return (none, header.errno errno, s)
  | some word =>
    let msgLen := readBe32 word 0
    if size ≤ msgLen then
      let (errno, s) ← drain recv msgLen msgLen errno s
      return (none, errno, s)
    else
      let (payload, s) ← recv msgLen s
      return (payload.exactly msgLen, payload.errno errno, s)

/-! ### The loop -/

/-- `EAGAIN`, with which a `recv` fails when its time is out. -/
def EAGAIN : Int := 11

/-- `EWOULDBLOCK`, the same number. -/
def EWOULDBLOCK : Int := 11

/-- What the loop reads besides the socket, and whether it has been left. -/
structure Loop where
  errno : Int
  gRunning : Bool
  left : Bool
  deriving DecidableEq

/-- What else happens in a round of the loop: a signal that ends the provider, and the `errno`
of the last of the other calls that fails (`send_message`, `handle_consumer_connect`, …). -/
structure Elsewhere where
  stop : Bool
  others : Option Int

/-- A round of the loop: the message it has received and what is left. -/
def round (e : Elsewhere) (l : Loop) (s : Socket) : Option (Option Bytes × Loop × Socket) :=
  if !l.gRunning then some (none, { l with left := true }, s)
  else do
    let (msg, errno, s) ← recvMessage recv (maxSdpLen + 512) l.errno s
    let gRunning := !e.stop
    match msg with
    | none =>
      if !gRunning then return (none, ⟨errno, gRunning, true⟩, s)
      -- an idle tick
      if errno = EAGAIN ∨ errno = EWOULDBLOCK then
        return (none, ⟨e.others.getD errno, gRunning, false⟩, s)
      return (none, ⟨errno, gRunning, true⟩, s)
    | some msg => return (some msg, ⟨e.others.getD errno, gRunning, false⟩, s)

end Socket

/-! ### Rounds one after the other -/

/-- A call of `recv` among those whose results are known. -/
def nextResult (n : Nat) : List Recv → Option (Recv × List Recv)
  | [] => none
  | .failed e :: rest => some (.failed e, rest)
  | .bytes bs :: rest => if bs.length ≤ n then some (.bytes bs, rest) else none

/-- A round of the loop with what its calls of `recv` return. -/
structure Round extends Elsewhere where
  results : List Recv

/-- A round happens when `results` is what its calls of `recv` return, neither more nor less.
Nothing happens in a loop that has been left. -/
def step (l : Loop) (r : Round) : Option Loop :=
  if l.left then some l
  else
    match round nextResult r.toElsewhere l r.results with
    | some (_, l, []) => some l
    | _ => none

/-- The loop at its beginning. -/
def Loop.enter (errno : Int) : Loop := ⟨errno, true, false⟩

/-- A round in which the server has closed the connection. -/
def Round.Closed (r : Round) : Prop := r.results = [.bytes []] ∧ r.stop = false

/-- The loop takes the way to a new connection in a bounded number of rounds, whatever the other
calls in them do. -/
def Exits (l : Loop) : Prop :=
  ∃ n, ∀ rs : List Round, (∀ r ∈ rs, r.Closed) → n ≤ rs.length →
    ∃ t, run step l rs = some t ∧ t.left = true ∧ t.gRunning = true

/-- The `errno` of a call that has failed. -/
def Recv.failure : Recv → Option Int
  | bytes _ => none
  | failed e => some e

/-- The `errno`s of the calls that have failed in a round, in order. -/
def Round.failures (r : Round) : List Int :=
  r.results.filterMap Recv.failure ++ r.others.toList

/-- The `errno` of the last call that has failed before the loop or in it. -/
def lastFailure (errno : Int) (rs : List Round) : Int :=
  ((rs.flatMap Round.failures).getLast?).getD errno

/-! ### What is left in `errno` -/

private theorem nextResult_eq {n : Nat} {rs rest : List Recv} {r : Recv}
    (h : nextResult n rs = some (r, rest)) : rs = r :: rest := by
  cases rs with
  | nil => cases h
  | cons a as =>
    cases a with
    | failed e =>
      cases h
      rfl
    | bytes bs =>
      rw [nextResult] at h
      split at h
      · cases h
        rfl
      · cases h

/-- The last failure of some calls of `recv`, or what was in `errno` before them. -/
private def errnoAfter (errno : Int) (used : List Recv) : Int :=
  ((used.filterMap Recv.failure).getLast?).getD errno

private theorem errnoAfter_append (errno : Int) (used more : List Recv) :
    errnoAfter errno (used ++ more) = errnoAfter (errnoAfter errno used) more := by
  unfold errnoAfter
  rw [List.filterMap_append, List.getLast?_append]
  cases (more.filterMap Recv.failure).getLast? <;> rfl

private theorem errnoAfter_singleton (errno : Int) (r : Recv) :
    errnoAfter errno [r] = r.errno errno := by
  cases r <;> rfl

/-- Reading on to the end of a message leaves the last failure in `errno`. -/
private theorem errno_drain {fuel remaining : Nat} {errno errno' : Int} {rs rest : List Recv}
    (h : drain nextResult fuel remaining errno rs = some (errno', rest)) :
    ∃ used, rs = used ++ rest ∧ errno' = errnoAfter errno used := by
  induction fuel generalizing remaining errno rs with
  | zero =>
    cases h
    exact ⟨[], rfl, rfl⟩
  | succ fuel ih =>
    rw [drain] at h
    split at h
    · cases h
      exact ⟨[], rfl, rfl⟩
    · obtain ⟨⟨r, more⟩, hr, h⟩ := Option.bind_eq_some_iff.mp h
      have hrs := nextResult_eq hr
      dsimp only at h
      split at h
      · cases h
        exact ⟨[r], hrs, (errnoAfter_singleton errno r).symm⟩
      · next hcount =>
        obtain ⟨used, hmore, he⟩ := ih h
        refine ⟨r :: used, by rw [hrs, hmore, List.cons_append], ?_⟩
        have hkeep : r.errno errno = errno := by
          cases r with
          | bytes bs => rfl
          | failed e => exact absurd (by simp [Recv.count]) hcount
        have hcons := errnoAfter_append errno [r] used
        rw [errnoAfter_singleton, hkeep] at hcons
        exact he.trans hcons.symm

/-- So does `recv_message`. -/
private theorem errno_recvMessage {size : Nat} {errno errno' : Int} {rs rest : List Recv}
    {msg : Option Bytes} (h : recvMessage nextResult size errno rs = some (msg, errno', rest)) :
    ∃ used, rs = used ++ rest ∧ errno' = errnoAfter errno used := by
  obtain ⟨⟨header, more⟩, hheader, h⟩ := Option.bind_eq_some_iff.mp h
  have hrs := nextResult_eq hheader
  dsimp only at h
  cases hword : header.exactly 4 with
  | none =>
    rw [hword] at h
    cases h
    exact ⟨[header], hrs, (errnoAfter_singleton errno header).symm⟩
  | some word =>
    have hkeep : header.errno errno = errno := by
      cases header with
      | bytes bs => rfl
      | failed e => cases hword
    have hcons : ∀ used, errnoAfter errno (header :: used) = errnoAfter errno used := by
      intro used
      have happend := errnoAfter_append errno [header] used
      rwa [errnoAfter_singleton, hkeep] at happend
    rw [hword] at h
    dsimp only at h
    split at h
    · obtain ⟨⟨e, last⟩, hdrain, h⟩ := Option.bind_eq_some_iff.mp h
      cases h
      obtain ⟨used, hmore, he⟩ := errno_drain hdrain
      exact ⟨header :: used, by rw [hrs, hmore, List.cons_append], he.trans (hcons used).symm⟩
    · obtain ⟨⟨payload, last⟩, hpayload, h⟩ := Option.bind_eq_some_iff.mp h
      cases h
      have hmore := nextResult_eq hpayload
      refine ⟨[header, payload], by rw [hrs, hmore]; rfl, ?_⟩
      rw [hcons, errnoAfter_singleton]

private theorem lastFailure_round (errno : Int) (r : Round) :
    lastFailure errno [r] = r.others.getD (errnoAfter errno r.results) := by
  unfold lastFailure errnoAfter
  rw [List.flatMap_cons, List.flatMap_nil, List.append_nil, Round.failures, List.getLast?_append]
  cases r.others <;> rfl

private theorem lastFailure_cons (errno : Int) (r : Round) (rs : List Round) :
    lastFailure errno (r :: rs) = lastFailure (lastFailure errno [r]) rs := by
  unfold lastFailure
  rw [List.flatMap_cons, List.flatMap_cons, List.flatMap_nil, List.append_nil,
    List.getLast?_append]
  cases (rs.flatMap Round.failures).getLast? <;> rfl

/-- A round that is not the last one leaves the last failure in `errno`; without a signal the
provider goes on running. -/
private theorem step_spec {l t : Loop} {r : Round} (hl : l.left = false) (hg : l.gRunning = true)
    (hstop : r.stop = false) (h : step l r = some t) :
    t.gRunning = true ∧ (t.left = true ∨ t.errno = lastFailure l.errno [r]) := by
  simp only [step, hl, Bool.false_eq_true, if_false] at h
  cases hround : round nextResult r.toElsewhere l r.results with
  | none =>
    rw [hround] at h
    cases h
  | some out =>
    obtain ⟨got, l', rest⟩ := out
    rw [hround] at h
    cases rest with
    | cons a as => cases h
    | nil =>
      cases h
      simp only [round, hg, Bool.not_true, Bool.false_eq_true, if_false] at hround
      obtain ⟨⟨msg, errno, rest⟩, hrecv, hround⟩ := Option.bind_eq_some_iff.mp hround
      obtain ⟨used, hused, he⟩ := errno_recvMessage hrecv
      cases msg with
      | some msg =>
        cases hround
        rw [List.append_nil] at hused
        refine ⟨by simp [hstop], .inr ?_⟩
        rw [lastFailure_round, hused, he]
      | none =>
        simp only [hstop, Bool.not_false, Bool.not_true, Bool.false_eq_true, if_false] at hround
        split at hround
        · cases hround
          rw [List.append_nil] at hused
          refine ⟨rfl, .inr ?_⟩
          rw [lastFailure_round, hused, he]
        · cases hround
          exact ⟨rfl, .inl rfl⟩

private theorem run_left {l : Loop} (hl : l.left = true) (rs : List Round) :
    run step l rs = some l := by
  induction rs with
  | nil => rfl
  | cons r rs ih => rw [run_cons, step, if_pos hl, Option.bind_some, ih]

/-- A loop that is still in its rounds has in `errno` what the last call that failed has put
there. -/
theorem errno_run {l t : Loop} {rs : List Round} (hl : l.left = false) (hg : l.gRunning = true)
    (hstop : ∀ r ∈ rs, r.stop = false) (h : run step l rs = some t) :
    t.gRunning = true ∧ (t.left = true ∨ t.errno = lastFailure l.errno rs) := by
  induction rs generalizing l with
  | nil =>
    cases h
    exact ⟨hg, .inr rfl⟩
  | cons r rs ih =>
    obtain ⟨m, hm, h⟩ := Option.bind_eq_some_iff.mp h
    obtain ⟨hgm, hleft⟩ := step_spec hl hg (hstop r (by simp)) hm
    cases hlm : m.left with
    | true =>
      rw [run_left hlm] at h
      cases h
      exact ⟨hgm, .inl hlm⟩
    | false =>
      have he : m.errno = lastFailure l.errno [r] := by simpa [hlm] using hleft
      have hrest := ih hlm hgm (fun a ha ↦ hstop a (List.mem_cons_of_mem _ ha)) h
      rwa [he, ← lastFailure_cons] at hrest

/-! ### When the server has closed the connection -/

/-- The end of the stream is read as what `errno` says. -/
private theorem step_closed {l : Loop} {r : Round} (hl : l.left = false) (hg : l.gRunning = true)
    (hr : r.Closed) : step l r =
      if l.errno = EAGAIN ∨ l.errno = EWOULDBLOCK then some ⟨r.others.getD l.errno, true, false⟩
      else some ⟨l.errno, true, true⟩ := by
  obtain ⟨hresults, hstop⟩ := hr
  have hrecv : recvMessage nextResult (maxSdpLen + 512) l.errno [.bytes []] =
      some (none, l.errno, []) := rfl
  simp only [step, hl, round, hg, hresults, hstop, hrecv, Bool.not_true, Bool.not_false,
    Bool.false_eq_true, if_false, Option.bind_eq_bind, Option.bind_some]
  by_cases he : l.errno = EAGAIN ∨ l.errno = EWOULDBLOCK
  · rw [if_pos he, if_pos he]
    rfl
  · rw [if_neg he, if_neg he]
    rfl

/-- A round in which the connection is closed and no other call fails. -/
private def quiet : Round := ⟨⟨false, none⟩, [.bytes []]⟩

/-- With a timeout in `errno` the loop takes the end of the stream for one more, for ever. -/
private theorem run_quiet {l : Loop} (hl : l.left = false) (hg : l.gRunning = true)
    (he : l.errno = EAGAIN ∨ l.errno = EWOULDBLOCK) (n : Nat) :
    run step l (List.replicate n quiet) = some l := by
  have hstep : step l quiet = some l := by
    rw [step_closed hl hg ⟨rfl, rfl⟩, if_pos he]
    cases l
    cases hl
    cases hg
    rfl
  induction n with
  | zero => rfl
  | succ n ih => rw [List.replicate_succ, run_cons, hstep, Option.bind_some, ih]

private theorem exits_iff_errno {l : Loop} (hg : l.gRunning = true) :
    Exits l ↔ l.left = true ∨ ¬ (l.errno = EAGAIN ∨ l.errno = EWOULDBLOCK) := by
  constructor
  · rintro ⟨n, h⟩
    by_contra hno
    obtain ⟨hleft, he⟩ := not_or.mp hno
    have hl : l.left = false := Bool.eq_false_iff.mpr hleft
    have hclosed : ∀ r ∈ List.replicate n quiet, r.Closed := by
      intro r hr
      rw [List.eq_of_mem_replicate hr]
      exact ⟨rfl, rfl⟩
    obtain ⟨t, ht, htl, -⟩ := h (List.replicate n quiet) hclosed (by simp)
    rw [run_quiet hl hg (not_not.mp he)] at ht
    cases ht
    exact hleft htl
  · intro h
    cases hl : l.left with
    | true => exact ⟨0, fun rs _ _ ↦ ⟨l, run_left hl rs, hl, hg⟩⟩
    | false =>
      have he : ¬ (l.errno = EAGAIN ∨ l.errno = EWOULDBLOCK) := by simpa [hl] using h
      refine ⟨1, fun rs hclosed hn ↦ ?_⟩
      cases rs with
      | nil => simp at hn
      | cons r rs =>
        refine ⟨⟨l.errno, true, true⟩, ?_, rfl, rfl⟩
        rw [run_cons, step_closed hl hg (hclosed r (by simp)), if_neg he, Option.bind_some]
        exact run_left rfl rs

/-- Behind any history of receive outcomes the provider leaves its loop when the server closes
the connection exactly when it has left it already, or the last call that failed, if any, did
not run into its timeout. -/
theorem exits_iff {errno : Int} {rs : List Round} {t : Loop} (hstop : ∀ r ∈ rs, r.stop = false)
    (hrun : run step (.enter errno) rs = some t) : Exits t ↔ t.left = true ∨
      ¬ (lastFailure errno rs = EAGAIN ∨ lastFailure errno rs = EWOULDBLOCK) := by
  obtain ⟨hg, hleft⟩ := errno_run rfl rfl hstop hrun
  rw [exits_iff_errno hg]
  cases hl : t.left with
  | true => simp
  | false =>
    have he : t.errno = lastFailure errno rs := by simpa [hl, Loop.enter] using hleft
    rw [he]

/-- A PING that comes and a second without one. -/
private def idle : List Round :=
  [⟨⟨false, none⟩, [.bytes (be32 9), .bytes (lit "type=PING")]⟩, ⟨⟨false, none⟩, [.failed EAGAIN]⟩]

private theorem run_idle : run step (.enter 0) idle = some ⟨EAGAIN, true, false⟩ := by
  decide +kernel

theorem exits_iff_idle : Exits ⟨EAGAIN, true, false⟩ ↔ (false = true ∨
    ¬ (lastFailure 0 idle = EAGAIN ∨ lastFailure 0 idle = EWOULDBLOCK)) :=
  exits_iff (by decide) run_idle

/-- After a second without messages the end of the stream keeps the provider in its loop. -/
theorem not_exits_of_timeout : ¬ ∀ (errno : Int) (rs : List Round) (t : Loop),
    (∀ r ∈ rs, r.stop = false) → run step (.enter errno) rs = some t → Exits t := by
  intro h
  have hexits := h 0 idle _ (by decide) run_idle
  rw [exits_iff_errno rfl] at hexits
  revert hexits
  decide

end Kitty.Provider
