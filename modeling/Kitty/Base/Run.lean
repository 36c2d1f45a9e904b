import Mathlib.Data.List.Infix

/-!
# Runs of a labelled transition system

A system is a partial step function: `step s l` is the state after the event `l`, or
`none` when the event cannot happen in `s`. Conditions on a run are conditions on the
state before each of its steps, so a property of every run whose steps all meet a
condition follows from one preservation lemma.
-/

namespace Kitty.Base

variable {State Label : Type} (step : State → Label → Option State)

/-- The state after a list of events, when each of them can happen. -/
def run (s : State) : List Label → Option State
  | [] => some s
  | l :: ls => (step s l).bind fun t ↦ run t ls

/-- Every step of the run starts where the condition holds. -/
def Always (C : State → Label → Prop) (s : State) : List Label → Prop
  | [] => True
  | l :: ls => C s l ∧ ∀ t, step s l = some t → Always C t ls

/-- The condition on a run can be checked along the run. -/
instance decidableAlways {C : State → Label → Prop} [∀ s l, Decidable (C s l)] (s : State) :
    (ls : List Label) → Decidable (Always step C s ls)
  | [] => isTrue trivial
  | l :: ls =>
    match h : step s l with
    | none => decidable_of_iff (C s l) ⟨fun hc ↦ ⟨hc, fun t ht ↦ by simp [h] at ht⟩, And.left⟩
    | some t =>
      have : Decidable (Always step C t ls) := decidableAlways t ls
      decidable_of_iff (C s l ∧ Always step C t ls)
        ⟨fun hc ↦ ⟨hc.1, fun u hu ↦ by cases h.symm.trans hu; exact hc.2⟩,
          fun hc ↦ ⟨hc.1, hc.2 t h⟩⟩

/-- No event leaves the state as it is. -/
@[simp] theorem run_nil (s : State) : run step s [] = some s := rfl

/-- The first event, then the others. -/
theorem run_cons (s : State) (l : Label) (ls : List Label) :
    run step s (l :: ls) = (step s l).bind fun t ↦ run step t ls := rfl

/-- One list of events after the other. -/
theorem run_append (s : State) (ls ks : List Label) :
    run step s (ls ++ ks) = (run step s ls).bind fun t ↦ run step t ks := by
  induction ls generalizing s with
  | nil => rfl
  | cons l ls ih =>
    rw [List.cons_append, run_cons, run_cons, Option.bind_assoc]
    exact Option.bind_congr fun t _ ↦ ih t

/-- The same events over and over again. -/
theorem run_replicate {ls : List Label} (f : Nat → State)
    (h : ∀ n, run step (f n) ls = some (f (n + 1))) (n : Nat) :
    run step (f 0) (List.replicate n ls).flatten = some (f n) := by
  induction n with
  | zero => rfl
  | succ n ih =>
    rw [List.replicate_succ', List.flatten_append, List.flatten_singleton, run_append, ih]
    exact h n

/-- Stronger conditions hold of fewer runs. -/
theorem Always.mono {C D : State → Label → Prop} (h : ∀ s l, C s l → D s l) {s : State}
    {ls : List Label} (hc : Always step C s ls) : Always step D s ls := by
  induction ls generalizing s with
  | nil => trivial
  | cons l ls ih => exact ⟨h s l hc.1, fun t ht ↦ ih (hc.2 t ht)⟩

/-- A condition on events that all events of a run meet holds along the run. -/
theorem Always.of_forall {C : State → Label → Prop} {D : Label → Prop} (h : ∀ s l, D l → C s l)
    {ls : List Label} (hd : ∀ l ∈ ls, D l) (s : State) : Always step C s ls := by
  induction ls generalizing s with
  | nil => trivial
  | cons l ls ih =>
    exact ⟨h s l (hd l List.mem_cons_self), fun t _ ↦ ih (fun k hk ↦ hd k (.tail l hk)) t⟩

/-- Two conditions that hold along a run. -/
theorem Always.and {C D : State → Label → Prop} {s : State} {ls : List Label}
    (hc : Always step C s ls) (hd : Always step D s ls) :
    Always step (fun s l ↦ C s l ∧ D s l) s ls := by
  induction ls generalizing s with
  | nil => trivial
  | cons l ls ih => exact ⟨⟨hc.1, hd.1⟩, fun t ht ↦ ih (hc.2 t ht) (hd.2 t ht)⟩

/-- What holds along a run holds along the rest of it. -/
theorem Always.of_append {C : State → Label → Prop} {s t : State} {ls ks : List Label}
    (hr : run step s ls = some t) (h : Always step C s (ls ++ ks)) : Always step C t ks := by
  induction ls generalizing s with
  | nil =>
    cases hr
    exact h
  | cons l ls ih =>
    obtain ⟨u, hu, hr⟩ := Option.bind_eq_some_iff.mp hr
    exact ih hr (h.2 u hu)

/-- What holds along a run holds along its beginning. -/
theorem Always.left {C : State → Label → Prop} {s : State} {ls ks : List Label}
    (h : Always step C s (ls ++ ks)) : Always step C s ls := by
  induction ls generalizing s with
  | nil => trivial
  | cons l ls ih => exact ⟨h.1, fun t ht ↦ ih (h.2 t ht)⟩

/-- A property that every allowed step keeps holds at the end of every allowed run. -/
theorem invariant_run {C : State → Label → Prop} {Inv : State → Prop}
    (hstep : ∀ s l t, C s l → Inv s → step s l = some t → Inv t) {s t : State}
    {ls : List Label} (hc : Always step C s ls) (hs : Inv s) (hr : run step s ls = some t) :
    Inv t := by
  induction ls generalizing s with
  | nil =>
    cases hr
    exact hs
  | cons l ls ih =>
    rw [run_cons] at hr
    cases hl : step s l with
    | none => simp [hl] at hr
    | some u =>
      rw [hl] at hr
      exact ih (hc.2 u hl) (hstep s l u hc.1 hs hl) hr

/-- A property that every step keeps holds at the end of every run. -/
theorem invariant_of_run {Inv : State → Prop}
    (hstep : ∀ s l t, Inv s → step s l = some t → Inv t) {s t : State} {ls : List Label}
    (hs : Inv s) (hr : run step s ls = some t) : Inv t := by
  induction ls generalizing s with
  | nil =>
    cases hr
    exact hs
  | cons l ls ih =>
    obtain ⟨u, hl, hr⟩ := Option.bind_eq_some_iff.mp hr
    exact ih (hstep s l u hs hl) hr

/-- An invariant of the state and the events that led there. -/
theorem history_run {E : Label → Prop} {Inv : List Label → State → Prop}
    (hstep : ∀ ls s l t, E l → Inv ls s → step s l = some t → Inv (ls ++ [l]) t) {s t : State}
    {ls : List Label} (hE : ∀ l ∈ ls, E l) (h0 : Inv [] s) (hr : run step s ls = some t) :
    Inv ls t := by
  induction ls using List.reverseRecOn generalizing t with
  | nil =>
    cases hr
    exact h0
  | append_singleton ls l ih =>
    rw [run_append] at hr
    obtain ⟨u, hu, hlast⟩ := Option.bind_eq_some_iff.mp hr
    obtain ⟨t', ht', hnil⟩ := Option.bind_eq_some_iff.mp hlast
    cases hnil
    exact hstep ls u l t (hE l (by simp)) (ih (fun l hl ↦ hE l (by simp [hl])) hu) ht'

/-- Two conditions that agree on the steps from states of an invariant hold of the same runs,
when one of them keeps it. -/
theorem always_iff_always {C D : State → Label → Prop} {Inv : State → Prop}
    (hiff : ∀ s l t, Inv s → step s l = some t → (C s l ↔ D s l))
    (hkeep : ∀ s l t, Inv s → D s l → step s l = some t → Inv t) {s t : State} {ls : List Label}
    (hs : Inv s) (hr : run step s ls = some t) : Always step C s ls ↔ Always step D s ls := by
  induction ls generalizing s with
  | nil => exact Iff.rfl
  | cons l ls ih =>
    rw [run_cons] at hr
    cases hl : step s l with
    | none => simp [hl] at hr
    | some u =>
      rw [hl] at hr
      have hhead := hiff s l u hs hl
      constructor
      · rintro ⟨hc, hrest⟩
        have hd := hhead.mp hc
        refine ⟨hd, ?_⟩
        intro v hv
        cases hl.symm.trans hv
        exact (ih (hkeep s l u hs hd hl) hr).mp (hrest u hl)
      · rintro ⟨hd, hrest⟩
        refine ⟨hhead.mpr hd, ?_⟩
        intro v hv
        cases hl.symm.trans hv
        exact (ih (hkeep s l u hs hd hl) hr).mpr (hrest u hl)

/-- A property of the states of a run that a step keeps exactly when a condition holds before
it: it holds all along the run when the condition does. -/
theorem forall_prefix_iff_always {C : State → Label → Prop} {Inv P : State → Prop}
    (hkeep : ∀ s l t, Inv s → step s l = some t → Inv t)
    (hiff : ∀ s l t, Inv s → P s → step s l = some t → (P t ↔ C s l)) {s t : State}
    {ls : List Label} (hs : Inv s) (hp : P s) (hr : run step s ls = some t) :
    (∀ ks u, ks <+: ls → run step s ks = some u → P u) ↔ Always step C s ls := by
  induction ls generalizing s with
  | nil =>
    refine iff_of_true ?_ trivial
    intro ks u hks hu
    rw [List.prefix_nil.mp hks] at hu
    cases hu
    exact hp
  | cons l ls ih =>
    rw [run_cons] at hr
    cases hl : step s l with
    | none => simp [hl] at hr
    | some v =>
      rw [hl] at hr
      have hhead := hiff s l v hs hp hl
      have hstep : ∀ ks, run step s (l :: ks) = run step v ks := fun ks ↦ by simp [run_cons, hl]
      constructor
      · intro h
        have hv : P v := h [l] v ⟨ls, rfl⟩ (hstep [])
        refine ⟨hhead.mp hv, ?_⟩
        intro w hw
        cases hl.symm.trans hw
        apply (ih (hkeep s l v hs hl) hv hr).mp
        intro ks u hks hu
        exact h (l :: ks) u (List.prefix_cons_inj l |>.mpr hks) ((hstep ks).trans hu)
      · rintro ⟨hc, hrest⟩ ks u hks hu
        have hv := hhead.mpr hc
        cases ks with
        | nil =>
          cases hu
          exact hp
        | cons k ks =>
          obtain ⟨rfl, hrest'⟩ := List.cons_prefix_cons.mp hks
          exact (ih (hkeep s k v hs hl) hv hr).mpr (hrest v hl) ks u hrest'
            ((hstep ks).symm.trans hu)

/-- A property of the states of a run that only some events can end holds all along the run when
it holds behind each of these. -/
theorem forall_prefix_iff_of_events {Inv P : State → Prop} {E : Label → Prop}
    (hinv : ∀ s l t, Inv s → step s l = some t → Inv t)
    (hkeep : ∀ s l t, Inv s → ¬ E l → P s → step s l = some t → P t) {s : State} (hs : Inv s)
    (hp : P s) {ls : List Label} : (∀ ks u, ks <+: ls → run step s ks = some u → P u) ↔
      ∀ ks l u, E l → ks ++ [l] <+: ls → run step s (ks ++ [l]) = some u → P u := by
  constructor
  · intro h ks l u _ hks hu
    exact h _ u hks hu
  · intro h ks
    induction ks using List.reverseRecOn with
    | nil =>
      intro u _ hu
      cases hu
      exact hp
    | append_singleton ks l ih =>
      intro u hks hu
      by_cases hl : E l
      · exact h ks l u hl hks hu
      · rw [run_append] at hu
        obtain ⟨v, hv, hstep⟩ := Option.bind_eq_some_iff.mp hu
        obtain ⟨w, hw, hlast⟩ := Option.bind_eq_some_iff.mp hstep
        cases hlast
        have hbefore := ih v ((List.prefix_append ks [l]).trans hks) hv
        exact hkeep v l u (invariant_of_run step hinv hs hv) hl hbefore hw

/-- A condition holds along a run with one event more. -/
theorem Always.concat {C : State → Label → Prop} {s t : State} {ls : List Label} {l : Label}
    (hc : Always step C s ls) (hr : run step s ls = some t) (hl : C t l) :
    Always step C s (ls ++ [l]) := by
  induction ls generalizing s with
  | nil =>
    cases hr
    exact ⟨hl, fun _ _ ↦ trivial⟩
  | cons k ks ih =>
    refine ⟨hc.1, fun u hu ↦ ih (hc.2 u hu) ?_⟩
    rwa [run_cons, hu] at hr

/-- The last refresh: where `Q` can only begin with a refresh, there was a last one in every run
that ends in `Q`; what a refresh establishes and the other steps keep holds at the end. -/
theorem since_last {R : State → Label → State → Prop} {Q : State → Prop}
    {I : Label → State → Prop} (hrefresh : ∀ s l t, step s l = some t → R s l t → Q t → I l t)
    (hquiet : ∀ s l t, step s l = some t → ¬ R s l t → Q t → Q s ∧ ∀ k, I k s → I k t)
    {s t : State} {ls : List Label} (hs : ¬ Q s) (hr : run step s ls = some t) (ht : Q t) :
    ∃ pre l span u v, ls = pre ++ l :: span ∧ run step s pre = some u ∧ step u l = some v ∧
      R u l v ∧ Q v ∧ Always step (fun s l ↦ ∀ t, step s l = some t → ¬ R s l t ∧ Q t) v span ∧
      run step v span = some t ∧ I l t := by
  induction ls using List.reverseRecOn generalizing t with
  | nil =>
    cases hr
    exact absurd ht hs
  | append_singleton ks k ih =>
    rw [run_append] at hr
    obtain ⟨w, hw, hlast⟩ := Option.bind_eq_some_iff.mp hr
    obtain ⟨x, hstep, hx⟩ := Option.bind_eq_some_iff.mp hlast
    cases hx
    by_cases hR : R w k t
    · exact ⟨ks, k, [], w, t, rfl, hw, hstep, hR, ht, trivial, rfl, hrefresh w k t hstep hR ht⟩
    · obtain ⟨hq, hkeep⟩ := hquiet w k t hstep hR ht
      obtain ⟨pre, l, span, u, v, rfl, hpre, hl, hRl, hQv, hspan, hrun, hI⟩ := ih hw hq
      refine ⟨pre, l, span ++ [k], u, v, by simp, hpre, hl, hRl, hQv, ?_, ?_, hkeep l hI⟩
      · refine hspan.concat step hrun ?_
        intro y hy
        cases hstep.symm.trans hy
        exact ⟨hR, ht⟩
      · rw [run_append, hrun]
        exact hlast

/-- A state with more in it runs as what it is a view of. -/
theorem run_map {View : Type} {view : State → View} {vstep : View → Label → Option View}
    (h : ∀ s l, (step s l).map view = vstep (view s) l) (s : State) (ls : List Label) :
    (run step s ls).map view = run vstep (view s) ls := by
  induction ls generalizing s with
  | nil => rfl
  | cons l ls ih =>
    rw [run_cons, run_cons, ← h s l]
    cases step s l with
    | none => rfl
    | some t => exact ih t

/-! ### Lists of threads -/

section Threads

variable {Thread : Type} {threads : List Thread} {new th : Thread} {p q : Nat}

/-- The thread at a place after one thread has gone on. -/
theorem getElem?_set_eq_some (h : (threads.set p new)[q]? = some th) :
    q = p ∧ th = new ∨ q ≠ p ∧ threads[q]? = some th := by
  by_cases hq : q = p
  · subst hq
    rw [List.getElem?_set] at h
    split at h
    · split at h
      · exact .inl ⟨rfl, (Option.some.inj h).symm⟩
      · cases h
    · next hne => exact absurd rfl hne
  · rw [List.getElem?_set_ne (Ne.symm hq)] at h
    exact .inr ⟨hq, h⟩

/-- The thread at a place after another was started. -/
theorem getElem?_concat_eq_some (h : (threads ++ [new])[q]? = some th) :
    threads[q]? = some th ∨ q = threads.length ∧ th = new := by
  obtain hlt | hge := Nat.lt_or_ge q threads.length
  · rw [List.getElem?_append_left hlt] at h
    exact .inl h
  · rw [List.getElem?_append_right hge, List.getElem?_singleton] at h
    split at h
    · cases h
      exact .inr ⟨by omega, rfl⟩
    · cases h

/-- The thread at a place after one thread was changed. -/
theorem getElem?_modify_eq_some {change : Thread → Thread}
    (h : (threads.modify p change)[q]? = some th) :
    (q = p ∧ ∃ old, threads[q]? = some old ∧ th = change old) ∨ q ≠ p ∧ threads[q]? = some th := by
  by_cases hq : q = p
  · subst hq
    rw [List.getElem?_modify_eq, Option.map_eq_map, Option.map_eq_some_iff] at h
    obtain ⟨old, hold, rfl⟩ := h
    exact .inl ⟨rfl, old, hold, rfl⟩
  · rw [List.getElem?_modify_ne change threads (Ne.symm hq)] at h
    exact .inr ⟨hq, h⟩

end Threads

/-! ### Runs on fixed inputs -/

/-- What a concrete run ends in can be computed. -/
theorem exists_run {s : State} {ls : List Label} (P : State → Prop) [DecidablePred P]
    (h : (run step s ls).any (P ·) = true) : ∃ t, run step s ls = some t ∧ P t := by
  cases hr : run step s ls with
  | none => simp [hr] at h
  | some t => exact ⟨t, rfl, by simpa [hr] using h⟩

end Kitty.Base
