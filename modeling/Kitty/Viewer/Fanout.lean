import Kitty.Base.Bytes
import Kitty.Base.Run
import Mathlib.Data.List.Nodup

/-!
# The fan-out of the viewer

`FlvFanout` of `tools/augentix_view.py:363–409` and the handlers that drain it,
`_serve_live_flv` (550–569). The methods of the fan-out hold its lock; a handler takes no lock when
it drains its queue, so each of its operations on the queue and the event is a step of its own, and
so is each operation of `push` on them.
-/

namespace Kitty.Viewer

open Kitty.Base

/-! ### Handlers -/

/-- The next operation of a handler. -/
inductive Pc where
  /-- `fanout.add_consumer()` -/
  | attach
  /-- `while not fanout.closed` -/
  | loop
  /-- `if not queue` -/
  | test
  /-- `ev.wait(timeout=1.0)` -/
  | wait
  /-- `ev.clear()` -/
  | clear
  /-- `queue[:]`, on the right of the assignment -/
  | copy
  /-- `queue[:] = []`, on its left -/
  | empty
  /-- `self.wfile.write(out)` -/
  | write
  /-- `fanout.remove_consumer(consumer)` -/
  | leave
  | gone
  deriving DecidableEq, Repr

/-- The handler is one of the consumers. -/
def Pc.attached : Pc → Bool
  | .attach | .gone => false
  | _ => true

/-- The handler is a consumer and goes on draining. -/
def Pc.serving : Pc → Bool
  | .attach | .leave | .gone => false
  | _ => true

/-- A thread in `_serve_live_flv`, with what it was ever given to write; `taken` are all the chunks
that `chunks` has held. The last two say what the chunks are due to be: the prefix that was there
when it was attached, and what was pushed from then on. -/
structure Handler where
  pc : Pc
  ev : Bool
  queue : List Bytes
  chunks : List Bytes
  out : Bytes
  taken : List Bytes
  replayed : Bytes
  pushed : List Bytes
  deriving DecidableEq, Repr

/-- A handler of a new request. -/
def Handler.new : Handler := ⟨.attach, false, [], [], [], [], [], []⟩

/-- An operation that takes no lock. A wait ends when the event is set or the time is over; a
write fails when the viewer has gone. -/
def Handler.serve (closed viewer : Bool) (h : Handler) : Handler :=
  match h.pc with
  | .loop => { h with pc := if closed then .leave else .test }
  | .test => { h with pc := if h.queue = [] then .wait else .copy }
  | .wait => { h with pc := .clear }
  | .clear => { h with pc := .loop, ev := false }
  | .copy => { h with pc := .empty, chunks := h.queue, taken := h.taken ++ h.queue }
  | .empty => { h with pc := .write, queue := [] }
  | .write =>
    { h with pc := if viewer then .loop else .leave, out := h.out ++ h.chunks.flatten }
  | _ => h

/-! ### The fan-out -/

/-- `PREFIX_BYTES`. -/
def prefixBytes : Nat := 256 * 1024

/-- Where a method that holds the lock is in its loop over the consumers. -/
inductive Holder where
  /-- `buf.append(chunk)`, or the end of `push` -/
  | append (chunk : Bytes) (rest : List Nat)
  /-- `ev.set()` -/
  | set (chunk : Bytes) (i : Nat) (rest : List Nat)
  /-- `ev.set()` of `close`, or its end -/
  | close (rest : List Nat)
  deriving DecidableEq

/-- The fan-out and the handlers, which are numbered in the order of their requests. -/
structure Fanout where
  handlers : List Handler
  consumers : List Nat
  cached : Bytes
  closed : Bool
  holder : Option Holder
  deriving DecidableEq

/-- No request has come yet. -/
def Fanout.start : Fanout := ⟨[], [], [], false, none⟩

/-- What happens: a request comes; `push` or `close` takes the lock; the next operation of the
method that holds the lock, or of a handler. -/
inductive Event where
  | request
  | push (chunk : Bytes)
  | close
  | locked
  | serve (i : Nat) (viewer : Bool)
  deriving DecidableEq

/-- The event is an operation of this handler. -/
def Event.isOf (i : Nat) : Event → Bool
  | .serve j _ => i == j
  | _ => false

/-- `push`, up to its loop. The chunk is due to every consumer. -/
def Fanout.push (f : Fanout) (chunk : Bytes) : Fanout :=
  { f with
    cached :=
      if f.cached.length < prefixBytes then
        f.cached ++ chunk.take (prefixBytes - f.cached.length)
      else f.cached
    holder := some (.append chunk f.consumers)
    handlers := f.handlers.map fun h ↦
      if h.pc.attached then { h with pushed := h.pushed ++ [chunk] } else h }

/-- The next operation of a method that holds the lock. -/
def Fanout.locked (f : Fanout) : Holder → Fanout
  | .append _ [] => { f with holder := none }
  | .append chunk (i :: rest) =>
    { f with
      handlers := f.handlers.modify i fun h ↦ { h with queue := h.queue ++ [chunk] }
      holder := some (.set chunk i rest) }
  | .set chunk i rest =>
    { f with
      handlers := f.handlers.modify i fun h ↦ { h with ev := true }
      holder := some (.append chunk rest) }
  | .close [] => { f with holder := none }
  | .close (i :: rest) =>
    { f with
      handlers := f.handlers.modify i fun h ↦ { h with ev := true }
      holder := some (.close rest) }

/-- `add_consumer`: a prefix that is there is replayed. -/
def Handler.attach (h : Handler) (cached : Bytes) : Handler :=
  { h with
    pc := .loop
    ev := cached ≠ []
    queue := if cached = [] then [] else [cached]
    replayed := cached }

/-- The next operation of a handler. -/
def Fanout.serve (f : Fanout) (i : Nat) (viewer : Bool) (h : Handler) : Option Fanout :=
  match h.pc with
  | .attach =>
    if f.holder = none then
      some { f with
        handlers := f.handlers.set i (h.attach f.cached)
        consumers := f.consumers ++ [i] }
    else none
  | .leave =>
    if f.holder = none then
      some { f with
        handlers := f.handlers.set i { h with pc := .gone }
        consumers := f.consumers.erase i }
    else none
  | .gone => none
  | _ => some { f with handlers := f.handlers.set i (h.serve f.closed viewer) }

/-- One event. -/
def step (f : Fanout) : Event → Option Fanout
  | .request => some { f with handlers := f.handlers ++ [.new] }
  | .push chunk => if f.holder = none then some (f.push chunk) else none
  | .close =>
    if f.holder = none then
      some { f with closed := true, holder := some (.close f.consumers) }
    else none
  | .locked => f.holder.map f.locked
  | .serve i viewer => f.handlers[i]?.bind (f.serve i viewer)

/-! ### What a step does to a handler -/

/-- The chunk of a push that is yet to be appended to the queue of this handler. -/
def Fanout.onWay (f : Fanout) (i : Nat) : List Bytes :=
  match f.holder with
  | some (.append chunk rest) => if i ∈ rest then [chunk] else []
  | some (.set chunk _ rest) => if i ∈ rest then [chunk] else []
  | _ => []

/-- The consumers that the loop of a method has yet to come to. -/
def Holder.rest : Holder → List Nat
  | .append _ rest => rest
  | .set _ i rest => i :: rest
  | .close rest => rest

/-- A handler is fresh until it is attached; what it has copied is at the front of its queue until
it empties it; and it has written all that it took, or is about to. -/
structure Handler.Good (h : Handler) : Prop where
  attach : h.pc = .attach → h = .new
  empty : h.pc = .empty → h.chunks <+: h.queue
  out : h.out ++ (if h.pc = .empty ∨ h.pc = .write then h.chunks.flatten else []) =
    h.taken.flatten

/-- The consumers are the handlers that are attached, and a method that holds the lock goes
through them. -/
structure Fanout.Good (f : Fanout) : Prop where
  nodup : f.consumers.Nodup
  lt : ∀ i ∈ f.consumers, i < f.handlers.length
  consumer : ∀ i h, f.handlers[i]? = some h → (i ∈ f.consumers ↔ h.pc.attached = true)
  holder : ∀ c, f.holder = some c → c.rest <:+ f.consumers
  handlers : ∀ h ∈ f.handlers, h.Good

/-- What a step does to a handler and to the chunk on its way to it; the operation may be the
handler's `own`. -/
inductive Moves : Bool → Handler → List Bytes → Handler → List Bytes → Prop
  | stays (h c) : Moves false h c h c
  | pushed (h chunk) (ha : h.pc.attached = true) :
    Moves false h [] { h with pushed := h.pushed ++ [chunk] } [chunk]
  | appended (h chunk) (ha : h.pc.attached = true) :
    Moves false h [chunk] { h with queue := h.queue ++ [chunk] } []
  | signalled (h c) (ha : h.pc.attached = true) : Moves false h c { h with ev := true } c
  | attached (h cached) (hpc : h.pc = .attach) : Moves true h [] (h.attach cached) []
  | left (h) (hpc : h.pc = .leave) : Moves true h [] { h with pc := .gone } []
  | served (h c closed viewer) (hpc : h.pc.serving = true) :
    Moves true h c (h.serve closed viewer) c

/-- What an operation of a handler can do to the fan-out. -/
inductive Served (f : Fanout) (i : Nat) (viewer : Bool) (h : Handler) : Fanout → Prop
  | attach (hpc : h.pc = .attach) (hfree : f.holder = none) :
    Served f i viewer h
      { f with
        handlers := f.handlers.set i (h.attach f.cached)
        consumers := f.consumers ++ [i] }
  | leave (hpc : h.pc = .leave) (hfree : f.holder = none) :
    Served f i viewer h
      { f with
        handlers := f.handlers.set i { h with pc := .gone }
        consumers := f.consumers.erase i }
  | goOn (hpc : h.pc.serving = true) :
    Served f i viewer h { f with handlers := f.handlers.set i (h.serve f.closed viewer) }

theorem Fanout.onWay_of_free {f : Fanout} (h : f.holder = none) (i : Nat) : f.onWay i = [] := by
  rw [onWay, h]

/-- No chunk is on its way to a thread that is no consumer. -/
theorem Fanout.Good.onWay_eq_nil {f : Fanout} (hf : f.Good) {i : Nat} (hi : i ∉ f.consumers) :
    f.onWay i = [] := by
  unfold onWay
  split
  · next chunk rest hc => exact if_neg fun h ↦ hi ((hf.holder _ hc).subset h)
  · next chunk j rest hc =>
    exact if_neg fun h ↦ hi ((hf.holder _ hc).subset (List.mem_cons_of_mem _ h))
  · rfl

section Step

variable {f t : Fanout} {q : Nat} {h' : Handler}

/-- A method that holds the lock appends and sets at each of the consumers once. -/
private theorem moves_locked (hf : f.Good) {c : Holder} (hc : f.holder = some c)
    (hq : (f.locked c).handlers[q]? = some h') : ∃ h, f.handlers[q]? = some h ∧
      Moves false h (f.onWay q) h' ((f.locked c).onWay q) := by
  have hrest := hf.holder c hc
  have hattached : ∀ i, i ∈ c.rest → ∀ h, f.handlers[i]? = some h → h.pc.attached = true :=
    fun i hi h hh ↦ (hf.consumer i h hh).mp (hrest.subset hi)
  have hnodup : c.rest.Nodup := hf.nodup.sublist hrest.sublist
  match c, hc, hattached, hnodup, hq with
  | .append chunk [], hc, _, _, hq =>
    have hway : f.onWay q = [] := by simp [Fanout.onWay, hc]
    exact ⟨h', hq, hway ▸ .stays h' []⟩
  | .append chunk (i :: rest), hc, hattached, hnodup, hq =>
    have hway : f.onWay q = if q ∈ i :: rest then [chunk] else [] := by rw [Fanout.onWay, hc]
    have hway' : (f.locked (.append chunk (i :: rest))).onWay q =
      if q ∈ rest then [chunk] else [] := rfl
    rw [hway, hway']
    rcases getElem?_modify_eq_some hq with ⟨rfl, h, hh, rfl⟩ | ⟨hne, hh⟩
    · rw [if_pos (by simp), if_neg (List.nodup_cons.mp hnodup).1]
      exact ⟨h, hh, .appended h chunk (hattached q (by simp [Holder.rest]) h hh)⟩
    · have hmem : q ∈ i :: rest ↔ q ∈ rest := by simp [hne]
      simp only [hmem]
      exact ⟨h', hh, .stays h' _⟩
  | .set chunk i rest, hc, hattached, _, hq =>
    have hway : (f.locked (.set chunk i rest)).onWay q = f.onWay q := by
      simp only [Fanout.onWay, hc, Fanout.locked]
    rw [hway]
    rcases getElem?_modify_eq_some hq with ⟨rfl, h, hh, rfl⟩ | ⟨-, hh⟩
    · exact ⟨h, hh, .signalled h _ (hattached q (by simp [Holder.rest]) h hh)⟩
    · exact ⟨h', hh, .stays h' _⟩
  | .close [], hc, _, _, hq =>
    have hway : f.onWay q = [] := by rw [Fanout.onWay, hc]
    exact ⟨h', hq, hway ▸ .stays h' []⟩
  | .close (i :: rest), hc, hattached, _, hq =>
    have hway : f.onWay q = [] := by rw [Fanout.onWay, hc]
    have hway' : (f.locked (.close (i :: rest))).onWay q = [] := rfl
    rw [hway, hway']
    rcases getElem?_modify_eq_some hq with ⟨rfl, h, hh, rfl⟩ | ⟨-, hh⟩
    · exact ⟨h, hh, .signalled h [] (hattached q (by simp [Holder.rest]) h hh)⟩
    · exact ⟨h', hh, .stays h' []⟩

/-- A handler takes the lock to come and to go, and goes on by itself. -/
private theorem served_of_serve {i : Nat} {viewer : Bool} {h : Handler}
    (hserve : f.serve i viewer h = some t) : Served f i viewer h t := by
  unfold Fanout.serve at hserve
  split at hserve
  · next hpc =>
    split at hserve
    · next hfree =>
      cases hserve
      exact .attach hpc hfree
    · cases hserve
  · next hpc =>
    split at hserve
    · next hfree =>
      cases hserve
      exact .leave hpc hfree
    · cases hserve
  · cases hserve
  · next hattach hleave hgone =>
    cases hserve
    refine .goOn ?_
    cases hpc : h.pc <;> first | rfl | contradiction

/-- An operation of a handler moves it, and no other. -/
private theorem moves_serve {i : Nat} {viewer : Bool} (hstep : step f (.serve i viewer) = some t)
    (hq : t.handlers[q]? = some h') : ∃ h, f.handlers[q]? = some h ∧
      Moves (q == i) h (f.onWay q) h' (t.onWay q) := by
  obtain ⟨hi, hhi, hserve⟩ := Option.bind_eq_some_iff.mp hstep
  have hset : ∃ new, t.handlers = f.handlers.set i new ∧ t.holder = f.holder ∧
      Moves true hi (f.onWay i) new (f.onWay i) := by
    cases served_of_serve hserve with
    | attach hpc hfree =>
      rw [Fanout.onWay_of_free hfree]
      exact ⟨_, rfl, rfl, .attached hi f.cached hpc⟩
    | leave hpc hfree =>
      rw [Fanout.onWay_of_free hfree]
      exact ⟨_, rfl, rfl, .left hi hpc⟩
    | goOn hpc => exact ⟨_, rfl, rfl, .served hi _ _ _ hpc⟩
  obtain ⟨new, hhandlers, hholder, hmoves⟩ := hset
  have hway : t.onWay q = f.onWay q := by rw [Fanout.onWay, Fanout.onWay, hholder]
  rw [hhandlers] at hq
  rw [hway]
  rcases getElem?_set_eq_some hq with ⟨rfl, rfl⟩ | ⟨hne, hh⟩
  · refine ⟨hi, hhi, ?_⟩
    rw [beq_self_eq_true]
    exact hmoves
  · refine ⟨h', hh, ?_⟩
    rw [beq_eq_false_iff_ne.mpr hne]
    exact .stays h' _

/-- A step moves the handlers that are there, and maybe there is a new one. -/
theorem moves_of_step (hf : f.Good) {l : Event} (hstep : step f l = some t)
    (hq : t.handlers[q]? = some h') :
    (∃ h, f.handlers[q]? = some h ∧ Moves (l.isOf q) h (f.onWay q) h' (t.onWay q)) ∨
      q = f.handlers.length ∧ h' = .new ∧ t.onWay q = [] := by
  cases l with
  | request =>
    cases hstep
    rcases getElem?_concat_eq_some hq with hh | ⟨rfl, rfl⟩
    · exact .inl ⟨h', hh, .stays h' _⟩
    · refine .inr ⟨rfl, rfl, hf.onWay_eq_nil fun hmem ↦ ?_⟩
      exact absurd (hf.lt _ hmem) (Nat.lt_irrefl _)
  | push chunk =>
    left
    rw [step] at hstep
    split at hstep
    · next hfree =>
      cases hstep
      rw [Fanout.push, List.getElem?_map, Option.map_eq_some_iff] at hq
      obtain ⟨h, hh, rfl⟩ := hq
      have hway : (f.push chunk).onWay q = if q ∈ f.consumers then [chunk] else [] := rfl
      rw [hway, Fanout.onWay_of_free hfree]
      refine ⟨h, hh, ?_⟩
      by_cases hattached : h.pc.attached = true
      · rw [if_pos hattached, if_pos ((hf.consumer q h hh).mpr hattached)]
        exact .pushed h chunk hattached
      · rw [if_neg hattached, if_neg (mt (hf.consumer q h hh).mp hattached)]
        exact .stays h []
    · cases hstep
  | close =>
    left
    rw [step] at hstep
    split at hstep
    · next hfree =>
      cases hstep
      refine ⟨h', hq, ?_⟩
      rw [Fanout.onWay_of_free hfree]
      exact .stays h' []
    · cases hstep
  | locked =>
    obtain ⟨c, hc, rfl⟩ := Option.map_eq_some_iff.mp hstep
    exact .inl (moves_locked hf hc hq)
  | serve i viewer => exact .inl (moves_serve hstep hq)

/-- No handler disappears. -/
private theorem length_le_of_step {l : Event} (hstep : step f l = some t) :
    f.handlers.length ≤ t.handlers.length := by
  cases l with
  | request =>
    cases hstep
    simp
  | push chunk =>
    rw [step] at hstep
    split at hstep
    · cases hstep
      simp [Fanout.push]
    · cases hstep
  | close =>
    rw [step] at hstep
    split at hstep
    · cases hstep
      exact Nat.le_refl _
    · cases hstep
  | locked =>
    obtain ⟨c, -, rfl⟩ := Option.map_eq_some_iff.mp hstep
    unfold Fanout.locked
    split <;> simp
  | serve i viewer =>
    obtain ⟨h, -, hserve⟩ := Option.bind_eq_some_iff.mp hstep
    cases served_of_serve hserve <;> simp

/-- A handler that is there is moved by a step. -/
theorem exists_moves_of_step (hf : f.Good) {l : Event} (hstep : step f l = some t) {h : Handler}
    (hh : f.handlers[q]? = some h) : ∃ h', t.handlers[q]? = some h' ∧
      Moves (l.isOf q) h (f.onWay q) h' (t.onWay q) := by
  have hlt : q < f.handlers.length := (List.getElem?_eq_some_iff.mp hh).1
  have hq := List.getElem?_eq_getElem (Nat.lt_of_lt_of_le hlt (length_le_of_step hstep))
  refine ⟨_, hq, ?_⟩
  rcases moves_of_step hf hstep hq with ⟨old, hold, hm⟩ | ⟨heq, -⟩
  · cases hold.symm.trans hh
    exact hm
  · exact absurd heq (Nat.ne_of_lt hlt)

/-! ### The invariant -/

theorem Handler.Good.new : Handler.new.Good := ⟨fun _ ↦ rfl, nofun, rfl⟩

/-- A handler that serves goes on in order. -/
private theorem Handler.Good.serve {h : Handler} (hg : h.Good) (hpc : h.pc.serving = true)
    (closed viewer : Bool) : (h.serve closed viewer).Good := by
  have hout := hg.out
  have hempty := hg.empty
  unfold Handler.serve
  cases hp : h.pc with
  | attach | leave | gone =>
    rw [hp] at hpc
    cases hpc
  | loop =>
    rw [hp] at hout
    cases closed <;> exact ⟨nofun, nofun, hout⟩
  | test =>
    rw [hp] at hout
    by_cases hqueue : h.queue = []
    · simp only [hqueue, if_true]
      exact ⟨nofun, nofun, hout⟩
    · simp only [hqueue, if_false]
      exact ⟨nofun, nofun, hout⟩
  | wait | clear =>
    rw [hp] at hout
    exact ⟨nofun, nofun, hout⟩
  | copy =>
    rw [hp] at hout
    refine ⟨nofun, fun _ ↦ List.prefix_rfl, ?_⟩
    simpa using hout
  | empty =>
    rw [hp] at hout
    exact ⟨nofun, nofun, hout⟩
  | write =>
    rw [hp] at hout
    cases viewer <;> exact ⟨nofun, nofun, by simpa using hout⟩

/-- Every step keeps the invariant of a handler. -/
theorem Handler.Good.moves {h : Handler} {own : Bool} {c c' : List Bytes} (hg : h.Good)
    (hm : Moves own h c h' c') : h'.Good := by
  have hnot : h.pc.attached = true → h.pc ≠ .attach := by
    rintro hattached hpc
    rw [hpc] at hattached
    cases hattached
  cases hm with
  | stays => exact hg
  | pushed _ chunk hattached =>
    exact ⟨fun hpc ↦ absurd hpc (hnot hattached), hg.empty, hg.out⟩
  | appended _ chunk hattached =>
    refine ⟨fun hpc ↦ absurd hpc (hnot hattached), fun hpc ↦ ?_, hg.out⟩
    exact (hg.empty hpc).trans (List.prefix_append _ _)
  | signalled _ _ hattached =>
    exact ⟨fun hpc ↦ absurd hpc (hnot hattached), hg.empty, hg.out⟩
  | attached _ cached hpc =>
    obtain rfl := hg.attach hpc
    exact ⟨nofun, nofun, rfl⟩
  | left _ hpc =>
    have hout := hg.out
    rw [hpc] at hout
    exact ⟨nofun, nofun, hout⟩
  | served _ _ closed viewer hpc => exact hg.serve hpc closed viewer

/-- An operation of another keeps a handler a consumer. -/
theorem Moves.attached_eq {h : Handler} {c c' : List Bytes} (hm : Moves false h c h' c') :
    h'.pc.attached = h.pc.attached := by
  cases hm <;> rfl

/-- A handler that serves stays a consumer. -/
private theorem attached_serve {h : Handler} (hpc : h.pc.serving = true) (closed viewer : Bool) :
    (h.serve closed viewer).pc.attached = true := by
  unfold Handler.serve
  cases hp : h.pc with
  | attach | leave | gone =>
    rw [hp] at hpc
    cases hpc
  | loop => cases closed <;> rfl
  | test => dsimp only; split <;> rfl
  | write => cases viewer <;> rfl
  | wait | clear | copy | empty => rfl

/-- The other handlers stay consumers, or are none. -/
private theorem consumer_of_step (hf : f.Good) {l : Event} (hstep : step f l = some t)
    (hother : l.isOf q = false) (hsame : q ∈ t.consumers ↔ q ∈ f.consumers)
    (hq : t.handlers[q]? = some h') : q ∈ t.consumers ↔ h'.pc.attached = true := by
  rw [hsame]
  rcases moves_of_step hf hstep hq with ⟨h, hh, hm⟩ | ⟨rfl, rfl, -⟩
  · rw [hother] at hm
    rw [hm.attached_eq]
    exact hf.consumer q h hh
  · exact iff_of_false (fun hmem ↦ absurd (hf.lt _ hmem) (Nat.lt_irrefl _)) nofun

/-- The handlers that are there keep their invariant. -/
private theorem handlers_of_step (hf : f.Good) {l : Event} (hstep : step f l = some t) :
    ∀ h ∈ t.handlers, h.Good := by
  intro h' hmem
  obtain ⟨q, hq⟩ := List.getElem?_of_mem hmem
  rcases moves_of_step hf hstep hq with ⟨h, hh, hm⟩ | ⟨-, rfl, -⟩
  · exact (hf.handlers h (List.mem_of_getElem? hh)).moves hm
  · exact .new

/-- The invariant, once one handler has gone on. -/
private theorem good_of_set (hf : f.Good) {i : Nat} {viewer : Bool}
    (hstep : step f (.serve i viewer) = some t) {h new : Handler}
    (hh : f.handlers[i]? = some h) (hset : t.handlers = f.handlers.set i new)
    (hnodup : t.consumers.Nodup) (hsame : ∀ q, q ≠ i → (q ∈ t.consumers ↔ q ∈ f.consumers))
    (hown : i ∈ t.consumers ↔ new.pc.attached = true)
    (hholder : ∀ c, t.holder = some c → c.rest <:+ t.consumers) : t.Good := by
  have hlt : i < f.handlers.length := (List.getElem?_eq_some_iff.mp hh).1
  refine ⟨hnodup, ?_, ?_, hholder, handlers_of_step hf hstep⟩
  · intro j hj
    rw [hset, List.length_set]
    by_cases hne : j = i
    · exact hne ▸ hlt
    · exact hf.lt j ((hsame j hne).mp hj)
  · intro q h' hq
    by_cases hne : q = i
    · subst hne
      rw [hset, List.getElem?_set_self hlt] at hq
      cases hq
      exact hown
    · exact consumer_of_step hf hstep (beq_eq_false_iff_ne.mpr hne) (hsame q hne) hq

/-- An operation of a handler keeps the invariant. -/
private theorem good_serve (hf : f.Good) {i : Nat} {viewer : Bool}
    (hstep : step f (.serve i viewer) = some t) : t.Good := by
  obtain ⟨h, hh, hserve⟩ := Option.bind_eq_some_iff.mp hstep
  have hmem := hf.consumer i h hh
  cases served_of_serve hserve with
  | attach hpc hfree =>
    have hnew : i ∉ f.consumers := by
      rw [hmem, hpc]
      decide
    have hnodup : (f.consumers ++ [i]).Nodup :=
      List.nodup_append_comm.mp (List.nodup_cons.mpr ⟨hnew, hf.nodup⟩)
    refine good_of_set hf hstep hh rfl hnodup (fun q hne ↦ by simp [hne])
      (iff_of_true (List.mem_append_right _ (List.mem_singleton_self i)) rfl) ?_
    exact fun c hc ↦ absurd (hfree.symm.trans hc) nofun
  | leave hpc hfree =>
    refine good_of_set hf hstep hh rfl (hf.nodup.erase i) (fun q ↦ List.mem_erase_of_ne)
      (iff_of_false hf.nodup.not_mem_erase nofun) ?_
    exact fun c hc ↦ absurd (hfree.symm.trans hc) nofun
  | goOn hpc =>
    have hattached : h.pc.attached = true := by
      cases hp : h.pc <;> first | rfl | (rw [hp] at hpc; cases hpc)
    exact good_of_set hf hstep hh rfl hf.nodup (fun _ _ ↦ Iff.rfl)
      (iff_of_true (hmem.mpr hattached) (attached_serve hpc _ _)) hf.holder

/-- Every step keeps the invariant. -/
theorem Fanout.Good.step (hf : f.Good) {l : Event} (hstep : step f l = some t) : t.Good := by
  have hhandlers := handlers_of_step hf hstep
  have hconsumer : (∀ q, l.isOf q = false) → t.consumers = f.consumers →
      ∀ q h', t.handlers[q]? = some h' → (q ∈ t.consumers ↔ h'.pc.attached = true) :=
    fun hother hsame q h' hq ↦ consumer_of_step hf hstep (hother q) (by rw [hsame]) hq
  cases l with
  | request =>
    cases hstep
    refine ⟨hf.nodup, ?_, hconsumer (fun _ ↦ rfl) rfl, hf.holder, hhandlers⟩
    intro i hi
    rw [List.length_append]
    exact Nat.lt_add_right _ (hf.lt i hi)
  | push chunk =>
    rw [Viewer.step] at hstep
    split at hstep
    · cases hstep
      refine ⟨hf.nodup, ?_, hconsumer (fun _ ↦ rfl) rfl, ?_, hhandlers⟩
      · intro i hi
        rw [Fanout.push, List.length_map]
        exact hf.lt i hi
      · rintro c ⟨⟩
        exact List.suffix_rfl
    · cases hstep
  | close =>
    rw [Viewer.step] at hstep
    split at hstep
    · cases hstep
      refine ⟨hf.nodup, hf.lt, hconsumer (fun _ ↦ rfl) rfl, ?_, hhandlers⟩
      rintro c ⟨⟩
      exact List.suffix_rfl
    · cases hstep
  | locked =>
    obtain ⟨c, hc, rfl⟩ := Option.map_eq_some_iff.mp hstep
    have hrest := hf.holder c hc
    have hlength := length_le_of_step hstep
    have hsame : (f.locked c).consumers = f.consumers := by
      unfold Fanout.locked
      split <;> rfl
    refine ⟨hsame ▸ hf.nodup, ?_, hconsumer (fun _ ↦ rfl) hsame, ?_, hhandlers⟩
    · rw [hsame]
      exact fun i hi ↦ Nat.lt_of_lt_of_le (hf.lt i hi) hlength
    · intro c' hc'
      rw [hsame]
      refine List.IsSuffix.trans ?_ hrest
      -- the loop has gone on by one consumer at most
      unfold Fanout.locked at hc'
      split at hc'
      · cases hc'
      · cases hc'
        exact List.suffix_rfl
      · cases hc'
        exact List.suffix_cons _ _
      · cases hc'
      · cases hc'
        exact List.suffix_cons _ _
  | serve i viewer => exact good_serve hf hstep

end Step

end Kitty.Viewer
