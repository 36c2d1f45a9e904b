import Kitty.Viewer.Fanout

/-!
# What the viewers are given

A viewer is due the prefix that was there when it was attached, and every chunk pushed from then
on. A handler copies its queue and empties it in two operations. What `push` appends between the
two is lost, and nothing else is.
-/

namespace Kitty.Viewer

open Kitty.Base

/-! ### Nothing is lost -/

/-- What of its queue a handler has yet to take. -/
def Handler.left (h : Handler) : List Bytes :=
  if h.pc = .empty then h.queue.drop h.chunks.length else h.queue

/-- What a handler is due to take: the prefix when it was attached, and what was pushed since. -/
def Handler.due (h : Handler) : List Bytes :=
  (if h.replayed = [] then [] else [h.replayed]) ++ h.pushed

/-- What is due was taken, in order and once, or is in the queue or on the way there. -/
def Handler.Kept (h : Handler) (onWay : List Bytes) : Prop :=
  h.taken ++ (h.left ++ onWay) = h.due

/-- No handler has lost or doubled anything. -/
def Fanout.Lossless (f : Fanout) : Prop :=
  ∀ (i : Nat) (h : Handler), f.handlers[i]? = some h → h.Kept (f.onWay i)

/-- A handler that empties its queue has copied all that is in it. -/
def EmptiesCopied (f : Fanout) : Event → Prop
  | .serve i _ => ∀ h ∈ f.handlers[i]?, h.pc = .empty → h.queue = h.chunks
  | _ => True

instance (f : Fanout) : (l : Event) → Decidable (EmptiesCopied f l)
  | .serve i _ =>
    inferInstanceAs (Decidable (∀ h ∈ f.handlers[i]?, h.pc = .empty → h.queue = h.chunks))
  | .request | .push _ | .close | .locked => isTrue trivial

variable {h h' : Handler} {own : Bool} {c c' : List Bytes}

theorem EmptiesCopied.queue_eq {f : Fanout} {l : Event} {i : Nat} (hc : EmptiesCopied f l)
    (hown : l.isOf i = true) (hh : f.handlers[i]? = some h) (hpc : h.pc = .empty) :
    h.queue = h.chunks := by
  cases l with
  | serve j viewer =>
    obtain rfl := beq_iff_eq.mp hown
    exact hc h hh hpc
  | request | push | close | locked => cases hown

theorem Handler.left_of_ne (h : Handler) (hpc : h.pc ≠ .empty) : h.left = h.queue := if_neg hpc

/-- What is appended to the queue is yet to be taken. -/
private theorem Handler.Good.left_append (hg : h.Good) (chunk : Bytes) :
    ({ h with queue := h.queue ++ [chunk] } : Handler).left = h.left ++ [chunk] := by
  unfold Handler.left
  dsimp only
  split
  · next hpc => exact List.drop_append_of_le_length (hg.empty hpc).length_le
  · rfl

/-- Nothing is left of a queue of which all was copied. -/
private theorem Handler.Good.left_eq_nil_iff (hg : h.Good) (hpc : h.pc = .empty) :
    h.left = [] ↔ h.queue = h.chunks := by
  obtain ⟨rest, hrest⟩ := hg.empty hpc
  rw [Handler.left, if_pos hpc, ← hrest, List.drop_left]
  simp

/-- A handler that serves loses something when it empties more than it has copied. -/
private theorem Handler.Good.kept_serve_iff (hg : h.Good) (hpc : h.pc.serving = true)
    (hkept : h.Kept c) (closed viewer : Bool) :
    (h.serve closed viewer).Kept c ↔ (h.pc = .empty → h.queue = h.chunks) := by
  have hqueue : h.pc ≠ .empty → h.taken ++ (h.queue ++ c) = h.due := fun hne ↦
    h.left_of_ne hne ▸ hkept
  unfold Handler.serve
  cases hp : h.pc with
  | attach | leave | gone =>
    rw [hp] at hpc
    cases hpc
  | loop => cases closed <;> exact iff_of_true (hqueue (by rw [hp]; decide)) nofun
  | test =>
    refine iff_of_true ?_ nofun
    by_cases hnone : h.queue = []
    · simp only [hnone, if_true]
      exact hnone ▸ hqueue (by rw [hp]; decide)
    · simp only [hnone, if_false]
      exact hqueue (by rw [hp]; decide)
  | wait | clear => exact iff_of_true (hqueue (by rw [hp]; decide)) nofun
  | copy =>
    refine iff_of_true ?_ nofun
    have hdue := hqueue (by rw [hp]; decide)
    simpa [Handler.Kept, Handler.left, Handler.due] using hdue
  | empty =>
    rw [← hg.left_eq_nil_iff hp]
    have hnew : (h.taken ++ ([] ++ c) = h.due) ↔ h.left = [] := by
      rw [← hkept]
      simp
    exact hnew.trans ⟨fun h _ ↦ h, fun h ↦ h rfl⟩
  | write => cases viewer <;> exact iff_of_true (hqueue (by rw [hp]; decide)) nofun

/-- A step keeps what a handler is due, unless the handler empties more than it has copied. -/
theorem Handler.Good.kept_moves_iff (hg : h.Good) (hkept : h.Kept c)
    (hm : Moves own h c h' c') :
    h'.Kept c' ↔ (own = true → h.pc = .empty → h.queue = h.chunks) := by
  cases hm with
  | stays => exact iff_of_true hkept nofun
  | pushed _ chunk =>
    refine iff_of_true ?_ nofun
    have hdue := congrArg (· ++ [chunk]) hkept
    simpa [Handler.Kept, Handler.due, Handler.left] using hdue
  | appended _ chunk =>
    refine iff_of_true ?_ nofun
    rw [Handler.Kept, hg.left_append, List.append_nil]
    exact hkept
  | signalled => exact iff_of_true hkept nofun
  | attached _ cached hpc =>
    obtain rfl := hg.attach hpc
    refine iff_of_true ?_ nofun
    simp [Handler.Kept, Handler.due, Handler.left, Handler.attach, Handler.new]
  | left _ hpc =>
    refine iff_of_true ?_ fun _ hempty ↦ absurd (hpc.symm.trans hempty) nofun
    rw [Handler.Kept, Handler.left_of_ne h (by rw [hpc]; decide)] at hkept
    exact hkept
  | served _ _ closed viewer hpc =>
    rw [hg.kept_serve_iff hpc hkept]
    exact ⟨fun h _ ↦ h, fun h ↦ h rfl⟩

section Step

variable {f t : Fanout} {l : Event}

/-- A step keeps what is due to every handler when its condition holds. -/
theorem Fanout.Good.lossless_step_iff (hf : f.Good) (hl : f.Lossless)
    (hstep : Viewer.step f l = some t) : t.Lossless ↔ EmptiesCopied f l := by
  constructor
  · intro ht
    cases l with
    | serve i viewer =>
      intro h hh
      obtain ⟨h', hq, hm⟩ := exists_moves_of_step hf hstep hh
      have hg := hf.handlers h (List.mem_of_getElem? hh)
      exact (hg.kept_moves_iff (hl i h hh) hm).mp (ht i h' hq) (beq_self_eq_true i)
    | request | push | close | locked => trivial
  · intro hc q h' hq
    rcases moves_of_step hf hstep hq with ⟨h, hh, hm⟩ | ⟨-, rfl, hway⟩
    · have hg := hf.handlers h (List.mem_of_getElem? hh)
      exact (hg.kept_moves_iff (hl q h hh) hm).mpr fun hown ↦ hc.queue_eq hown hh
    · rw [hway]
      rfl

end Step

/-! ### What waits is taken -/

/-- The operations of its own after which a handler that serves has copied its queue, when there is
something in it. -/
def Pc.toCopy : Pc → Nat
  | .copy => 1
  | .test => 2
  | .loop => 3
  | .clear | .write | .attach => 4
  | .wait | .empty => 5
  | .leave | .gone => 0

/-- The handler has left, or the chunks are taken, or they will be within `n` operations of it. -/
def Taking (chunks : List Bytes) (n : Nat) (h : Handler) : Prop :=
  h.pc = .leave ∨ h.pc = .gone ∨ chunks <+: h.taken ∨
    chunks <+: h.taken ++ h.left ∧ h.pc.toCopy ≤ n

variable {chunks : List Bytes} {n : Nat}

/-- An operation of another does not put it off. -/
private theorem Taking.other (hg : h.Good) (ht : Taking chunks n h) (hm : Moves false h c h' c') :
    Taking chunks n h' := by
  cases hm with
  | stays => exact ht
  | pushed => exact ht
  | appended _ chunk =>
    obtain hpc | hpc | htaken | ⟨hleft, hn⟩ := ht
    · exact .inl hpc
    · exact .inr (.inl hpc)
    · exact .inr (.inr (.inl htaken))
    · refine .inr (.inr (.inr ⟨?_, hn⟩))
      rw [hg.left_append, ← List.append_assoc]
      exact hleft.trans (List.prefix_append _ _)
  | signalled => exact ht

private theorem taken_prefix_serve (h : Handler) (closed viewer : Bool) :
    h.taken <+: (h.serve closed viewer).taken := by
  unfold Handler.serve
  split
  case h_5 => exact List.prefix_append _ _
  all_goals exact List.prefix_rfl

/-- An operation of its own brings it nearer. -/
private theorem Taking.serve (hg : h.Good) (hpc : h.pc.serving = true)
    (hc : h.pc = .empty → h.queue = h.chunks) (ht : Taking chunks (n + 1) h)
    (closed viewer : Bool) : Taking chunks n (h.serve closed viewer) := by
  obtain hp | hp | htaken | ⟨hleft, hn⟩ := ht
  · rw [hp] at hpc
    cases hpc
  · rw [hp] at hpc
    cases hpc
  · exact .inr (.inr (.inl (htaken.trans (taken_prefix_serve h closed viewer))))
  · have hqueue : h.pc ≠ .empty → chunks <+: h.taken ++ h.queue := fun hne ↦
      h.left_of_ne hne ▸ hleft
    unfold Handler.serve
    cases hp : h.pc with
    | attach | leave | gone =>
      rw [hp] at hpc
      cases hpc
    | loop =>
      rw [hp] at hn
      cases closed with
      | true => exact .inl rfl
      | false => exact .inr (.inr (.inr ⟨hqueue (by rw [hp]; decide), Nat.le_of_succ_le_succ hn⟩))
    | test =>
      rw [hp] at hn
      have hqueue := hqueue (by rw [hp]; decide)
      by_cases hnone : h.queue = []
      · rw [hnone, List.append_nil] at hqueue
        exact .inr (.inr (.inl hqueue))
      · simp only [hnone, if_false]
        exact .inr (.inr (.inr ⟨hqueue, Nat.le_of_succ_le_succ hn⟩))
    | wait | clear =>
      rw [hp] at hn
      exact .inr (.inr (.inr ⟨hqueue (by rw [hp]; decide), Nat.le_of_succ_le_succ hn⟩))
    | copy => exact .inr (.inr (.inl (hqueue (by rw [hp]; decide))))
    | empty =>
      rw [(hg.left_eq_nil_iff hp).mpr (hc hp), List.append_nil] at hleft
      exact .inr (.inr (.inl hleft))
    | write =>
      rw [hp] at hn
      cases viewer with
      | true => exact .inr (.inr (.inr ⟨hqueue (by rw [hp]; decide), Nat.le_of_succ_le_succ hn⟩))
      | false => exact .inl rfl

private theorem Taking.next (hg : h.Good) (hc : h.pc = .empty → h.queue = h.chunks)
    (ht : Taking chunks (n + 1) h) (hm : Moves true h c h' c') : Taking chunks n h' := by
  cases hm with
  | attached _ cached hpc =>
    obtain rfl := hg.attach hpc
    have hnone : chunks = [] := by
      obtain hp | hp | htaken | ⟨hleft, -⟩ := ht
      · cases hp
      · cases hp
      · exact List.prefix_nil.mp htaken
      · exact List.prefix_nil.mp hleft
    rw [hnone]
    exact .inr (.inr (.inl List.nil_prefix))
  | left => exact .inr (.inl rfl)
  | served _ _ closed viewer hpc => exact ht.serve hg hpc hc closed viewer

/-- Along a run each operation of the handler brings it nearer. -/
private theorem taking_of_run {f t : Fanout} {js : List Event} {i : Nat} (hf : f.Good)
    (hc : Always step EmptiesCopied f js) (hr : run step f js = some t)
    (hh : f.handlers[i]? = some h) (ht : Taking chunks (js.countP (·.isOf i)) h) :
    ∃ h', t.handlers[i]? = some h' ∧ Taking chunks 0 h' := by
  induction js generalizing f h with
  | nil =>
    cases hr
    exact ⟨h, hh, ht⟩
  | cons l js ih =>
    obtain ⟨u, hstep, hr⟩ := Option.bind_eq_some_iff.mp hr
    obtain ⟨hu, hhu, hm⟩ := exists_moves_of_step hf hstep hh
    have hg := hf.handlers h (List.mem_of_getElem? hh)
    refine ih (hf.step hstep) (hc.2 u hstep) hr hhu ?_
    rw [List.countP_cons] at ht
    cases hown : l.isOf i with
    | false =>
      rw [hown] at hm ht
      exact ht.other hg hm
    | true =>
      rw [hown] at hm ht
      exact ht.next hg (hc.1.queue_eq hown hh) hm

/-- What waits for a handler is taken with the fifth operation of it, while it goes on serving. -/
private theorem taken_of_run {f t : Fanout} {js : List Event} {i : Nat} (hf : f.Good)
    (hc : Always step EmptiesCopied f js) (hr : run step f js = some t)
    (hh : f.handlers[i]? = some h) (hh' : t.handlers[i]? = some h')
    (hcount : 5 ≤ js.countP (·.isOf i)) (hpc : h'.pc.serving = true) :
    h.taken ++ h.left <+: h'.taken := by
  have hrank : h.pc.toCopy ≤ 5 := by cases h.pc <;> decide
  obtain ⟨h'', hh'', ht⟩ := taking_of_run hf hc hr hh
    (.inr (.inr (.inr ⟨List.prefix_rfl, hrank.trans hcount⟩)))
  cases hh''.symm.trans hh'
  obtain hp | hp | htaken | ⟨-, hn⟩ := ht
  · rw [hp] at hpc
    cases hpc
  · rw [hp] at hpc
    cases hpc
  · exact htaken
  · cases hp : h'.pc <;> rw [hp] at hn hpc <;> cases hpc <;> exact absurd hn (by decide)

/-! ### Runs -/

/-- In every state of the run the handlers have lost nothing, and what waits for one is taken when
it has done five operations more and goes on serving. -/
structure Delivers (ls : List Event) : Prop where
  lossless : ∀ ks f, ks <+: ls → run step .start ks = some f → f.Lossless
  taken : ∀ ks js f t, ks ++ js <+: ls → run step .start ks = some f → run step f js = some t →
    ∀ (i : Nat) (h h' : Handler), f.handlers[i]? = some h → t.handlers[i]? = some h' →
      5 ≤ js.countP (·.isOf i) → h'.pc.serving = true → h.taken ++ h.left <+: h'.taken

private theorem good_start : Fanout.start.Good :=
  ⟨List.nodup_nil, nofun, nofun, nofun, nofun⟩

/-- The viewers are given what they are due in the runs in which no chunk is appended to a queue
between its copy and its emptying. -/
theorem delivers_iff {ls : List Event} {t : Fanout} (hr : run step .start ls = some t) :
    Delivers ls ↔ Always step EmptiesCopied .start ls := by
  have hlossless := forall_prefix_iff_always step (fun _ _ _ hf hstep ↦ Fanout.Good.step hf hstep)
    (fun _ _ _ hf hl hstep ↦ hf.lossless_step_iff hl hstep) good_start nofun hr
  constructor
  · exact fun h ↦ hlossless.mp h.lossless
  · intro hc
    refine ⟨hlossless.mpr hc, ?_⟩
    rintro ks js f t ⟨rest, rfl⟩ hks hjs i h h' hh hh' hcount hpc
    have hf : f.Good :=
      invariant_of_run step (fun _ _ _ hf hstep ↦ Fanout.Good.step hf hstep) good_start hks
    rw [List.append_assoc] at hc
    exact taken_of_run hf (hc.of_append step hks).left hjs hh hh' hcount hpc

/-- Two viewers: the second one is given the prefix, and leaves. -/
def twoViewers : List Event :=
  [.request, .serve 0 true, .push (lit "FLV"), .locked, .locked, .locked, .serve 0 true,
    .serve 0 true, .serve 0 true, .request, .serve 1 true, .serve 0 true, .push (lit "a"),
    .locked, .locked, .serve 0 true, .locked, .locked, .locked, .serve 1 true, .serve 1 true,
    .serve 1 true, .serve 1 true, .serve 1 false, .serve 1 true]

theorem delivers_two_viewers : Delivers twoViewers := by
  obtain ⟨t, hr, -⟩ : ∃ t, run step .start twoViewers = some t ∧ True :=
    exists_run step (fun _ ↦ True) (by decide +kernel)
  exact (delivers_iff hr).mpr (by decide +kernel)

/-- A chunk is pushed when a handler has copied its queue, and it empties the queue then. -/
def pushBetween : List Event :=
  [.request, .serve 0 true, .push (lit "FLV"), .locked, .locked, .locked, .serve 0 true,
    .serve 0 true, .serve 0 true, .push (lit "a"), .locked, .locked, .locked, .serve 0 true]

instance (h : Handler) (onWay : List Bytes) : Decidable (h.Kept onWay) :=
  inferInstanceAs (Decidable (h.taken ++ (h.left ++ onWay) = h.due))

/-- What is pushed between the copy of a queue and its emptying is lost. -/
theorem not_delivers_of_push_between : ¬ ∀ ls t, run step .start ls = some t → Delivers ls := by
  intro h
  obtain ⟨t, hr, lost, hlost, hkept⟩ : ∃ t, run step .start pushBetween = some t ∧
      ∃ h ∈ t.handlers[0]?, ¬ h.Kept (t.onWay 0) :=
    exists_run step (fun t ↦ ∃ h ∈ t.handlers[0]?, ¬ h.Kept (t.onWay 0)) (by decide +kernel)
  exact hkept ((h pushBetween t hr).lossless pushBetween t List.prefix_rfl hr 0 lost hlost)

end Kitty.Viewer
