import Mathlib.Logic.Function.Basic

/-!
# Answers matched by key

Parties ask a question under a key and wait for its answer. Each installs a slot of its own
for the key, and whoever brings an answer finds the slot by the key. Nothing but the order of
the steps keeps one party's slot from another's answer: it does when a slot is installed only
for a key that has none, and an answer is brought only to the slot of its question.
-/

namespace Kitty.Base

/-- What a party is doing: nothing with the slots; waiting for the answer in its slot;
finished with its slot, the answer or nothing in hand; bringing an answer to a slot it has
found, meant for the slot of the question it answers. -/
inductive Role (Key Answer : Type) where
  | idle
  | waiting (key : Key) (slot : Nat)
  | finished (key : Key) (slot : Nat) (answer : Option Answer)
  | bringing (slot : Nat) (meant : Option Nat)
  deriving DecidableEq

/-- The slot a party has installed for a key and not yet erased. -/
def Role.holds {Key Answer : Type} : Role Key Answer → Option (Key × Nat)
  | .waiting key slot => some (key, slot)
  | .finished key slot _ => some (key, slot)
  | _ => none

section Matched

variable {Party Key Answer : Type}

/-- What a role says about the table of slots: the slot a party holds is there under its key,
and filled with the answer to its question as soon as there is one. -/
def Role.Fits (pending : Key → Option Nat) (content answered : Nat → Option Answer) (next : Nat) :
    Role Key Answer → Prop
  | .idle => True
  | .waiting key slot => pending key = some slot ∧ content slot = answered slot
  | .finished key slot answer => pending key = some slot ∧ ∀ a ∈ answer, answered slot = some a
  | .bringing slot meant => meant = some slot ∧ slot < next

/-- Every role fits the table, and no two parties hold slots for one key. -/
structure Matched (role : Party → Role Key Answer) (pending : Key → Option Nat)
    (content answered : Nat → Option Answer) (next : Nat) : Prop where
  fits : ∀ p, (role p).Fits pending content answered next
  alone : ∀ p q k n m, (role p).holds = some (k, n) → (role q).holds = some (k, m) → p = q
  bounded : ∀ k n, pending k = some n → n < next
  keyed : ∀ k l n, pending k = some n → pending l = some n → k = l
  fresh : ∀ n, next ≤ n → answered n = none

variable {role : Party → Role Key Answer} {pending : Key → Option Nat}
  {content answered : Nat → Option Answer} {next : Nat}

/-- The slot a party holds is there under its key. -/
theorem Role.Fits.own {r : Role Key Answer} (h : r.Fits pending content answered next) {k : Key}
    {n : Nat} (hk : r.holds = some (k, n)) : pending k = some n := by
  cases r with
  | idle => cases hk
  | waiting key slot =>
    cases hk
    exact h.1
  | finished key slot answer =>
    cases hk
    exact h.1
  | bringing slot meant => cases hk

/-- A role keeps fitting when its slot stays, and stays filled as it was. -/
theorem Role.Fits.mono {r : Role Key Answer} (h : r.Fits pending content answered next)
    {pending' : Key → Option Nat} {content' answered' : Nat → Option Answer} {next' : Nat}
    (hheld : ∀ k n, r.holds = some (k, n) →
      pending' k = some n ∧ content' n = content n ∧ answered' n = answered n)
    (hnext : next ≤ next') : r.Fits pending' content' answered' next' := by
  cases r with
  | idle => trivial
  | waiting key slot =>
    obtain ⟨hp, hc, ha⟩ := hheld key slot rfl
    exact ⟨hp, by rw [hc, ha, h.2]⟩
  | finished key slot answer =>
    obtain ⟨hp, -, ha⟩ := hheld key slot rfl
    exact ⟨hp, fun a hmem ↦ by rw [ha, h.2 a hmem]⟩
  | bringing slot meant => exact ⟨h.1, Nat.lt_of_lt_of_le h.2 hnext⟩

theorem Matched.empty :
    Matched (fun _ : Party ↦ .idle) (fun _ : Key ↦ none) content (fun _ ↦ none) next :=
  ⟨fun _ ↦ trivial, by simp [Role.holds], by simp, by simp, by simp⟩

/-- Two parties that hold one slot are the same. -/
theorem Matched.eq_of_slot (h : Matched role pending content answered next) {p q : Party}
    {k l : Key} {n : Nat} (hp : (role p).holds = some (k, n)) (hq : (role q).holds = some (l, n)) :
    p = q := by
  have hkl : k = l := h.keyed k l n ((h.fits p).own hp) ((h.fits q).own hq)
  exact h.alone p q k n n hp (hkl ▸ hq)

/-! ### What a party does -/

section Party

variable [DecidableEq Party]

/-- A party takes up a role that fits, for a key nobody else holds a slot for. -/
theorem Matched.set (h : Matched role pending content answered next) (p : Party)
    {r : Role Key Answer} (hr : r.Fits pending content answered next)
    (halone : ∀ q k n m, r.holds = some (k, n) → (role q).holds = some (k, m) → q = p) :
    Matched (Function.update role p r) pending content answered next where
  fits := (Function.forall_update_iff role fun _ r ↦ r.Fits pending content answered next).mpr
    ⟨hr, fun q _ ↦ h.fits q⟩
  alone q q' k n m hq hq' := by
    by_cases he : q = p
    · by_cases he' : q' = p
      · rw [he, he']
      · rw [he, Function.update_self] at hq
        rw [Function.update_of_ne he'] at hq'
        exact he.trans (halone q' k n m hq hq').symm
    · rw [Function.update_of_ne he] at hq
      by_cases he' : q' = p
      · rw [he', Function.update_self] at hq'
        exact (halone q k m n hq' hq).trans he'.symm
      · rw [Function.update_of_ne he'] at hq'
        exact h.alone q q' k n m hq hq'
  bounded := h.bounded
  keyed := h.keyed
  fresh := h.fresh

/-- A party is done with the slots. -/
theorem Matched.rest (h : Matched role pending content answered next) (p : Party) :
    Matched (Function.update role p .idle) pending content answered next :=
  h.set p trivial fun _ _ _ _ hr ↦ by cases hr

/-- A party has found the slot of a key, and its answer is meant for it. -/
theorem Matched.find (h : Matched role pending content answered next) (p : Party) {k : Key}
    {n : Nat} (hk : pending k = some n) :
    Matched (Function.update role p (.bringing n (some n))) pending content answered next :=
  h.set p ⟨rfl, h.bounded k n hk⟩ fun _ _ _ _ hr ↦ by cases hr

/-- A waiting party takes the answer out of its slot, or gives up. -/
theorem Matched.finish (h : Matched role pending content answered next) {p : Party} {k : Key}
    {n : Nat} (hp : role p = .waiting k n) {answer : Option Answer}
    (ha : ∀ a ∈ answer, content n = some a) :
    Matched (Function.update role p (.finished k n answer)) pending content answered next := by
  obtain ⟨hk, hc⟩ : (Role.waiting k n).Fits pending content answered next := hp ▸ h.fits p
  refine h.set p ⟨hk, fun a hmem ↦ by rw [← hc, ha a hmem]⟩ ?_
  intro q l m m' hl hq
  cases hl
  exact h.alone q p k m' n hq (by rw [hp]; rfl)

end Party

/-! ### What becomes of the table -/

section Table

variable [DecidableEq Key]

/-- The next slot is installed for a key that has none. -/
theorem Matched.grow (h : Matched role pending content answered next) {k : Key}
    (hk : pending k = none) :
    Matched role (Function.update pending k (some next)) (Function.update content next none)
      answered (next + 1) where
  fits p := by
    refine (h.fits p).mono ?_ (Nat.le_succ _)
    intro l n hl
    have hl := (h.fits p).own hl
    have hne : l ≠ k := by
      rintro rfl
      rw [hk] at hl
      cases hl
    have hn : n ≠ next := Nat.ne_of_lt (h.bounded l n hl)
    exact ⟨by rw [Function.update_of_ne hne, hl], Function.update_of_ne hn .., rfl⟩
  alone := h.alone
  bounded l n hl := by
    by_cases he : l = k
    · rw [he, Function.update_self, Option.some.injEq] at hl
      omega
    · rw [Function.update_of_ne he] at hl
      exact Nat.lt_succ_of_lt (h.bounded l n hl)
  keyed l l' n hl hl' := by
    by_cases he : l = k
    · by_cases he' : l' = k
      · rw [he, he']
      · rw [he, Function.update_self, Option.some.injEq] at hl
        rw [Function.update_of_ne he'] at hl'
        exact absurd (h.bounded l' n hl') (by omega)
    · rw [Function.update_of_ne he] at hl
      by_cases he' : l' = k
      · rw [he', Function.update_self, Option.some.injEq] at hl'
        exact absurd (h.bounded l n hl) (by omega)
      · rw [Function.update_of_ne he'] at hl'
        exact h.keyed l l' n hl hl'
  fresh n hn := h.fresh n (Nat.le_of_succ_le hn)

/-- A slot nobody holds is given up. -/
theorem Matched.drop (h : Matched role pending content answered next) {k : Key}
    (hk : ∀ p n, (role p).holds ≠ some (k, n)) :
    Matched role (Function.update pending k none) content answered next where
  fits p := by
    refine (h.fits p).mono ?_ (Nat.le_refl _)
    intro l n hl
    have hne : l ≠ k := by
      rintro rfl
      exact hk p n hl
    exact ⟨by rw [Function.update_of_ne hne, (h.fits p).own hl], rfl, rfl⟩
  alone := h.alone
  bounded l n hl := by
    by_cases he : l = k
    · simp [he] at hl
    · rw [Function.update_of_ne he] at hl
      exact h.bounded l n hl
  keyed l l' n hl hl' := by
    by_cases he : l = k
    · simp [he] at hl
    · by_cases he' : l' = k
      · simp [he'] at hl'
      · rw [Function.update_of_ne he] at hl
        rw [Function.update_of_ne he'] at hl'
        exact h.keyed l l' n hl hl'
  fresh := h.fresh

/-- A party installs the next slot for a key that has none, and waits. -/
theorem Matched.install [DecidableEq Party] (h : Matched role pending content answered next)
    (p : Party) {k : Key} (hk : pending k = none) :
    Matched (Function.update role p (.waiting k next)) (Function.update pending k (some next))
      (Function.update content next none) answered (next + 1) := by
  refine (h.grow hk).set p ⟨Function.update_self .., ?_⟩ ?_
  · rw [Function.update_self, h.fresh next (Nat.le_refl _)]
  · intro q l n m hl hq
    cases hl
    rw [(h.fits q).own hq] at hk
    cases hk

/-- A party that has finished gives its slot up. -/
theorem Matched.erase [DecidableEq Party] (h : Matched role pending content answered next)
    {p : Party} {k : Key} {n : Nat} (hp : (role p).holds = some (k, n)) :
    Matched (Function.update role p .idle) (Function.update pending k none) content answered
      next := by
  apply (h.rest p).drop
  intro q m hq
  by_cases he : q = p
  · simp [he, Role.holds] at hq
  · rw [Function.update_of_ne he] at hq
    exact he (h.alone q p k m n hq hp)

end Table

/-- The first answer to a question fills its slot. -/
theorem Matched.fill (h : Matched role pending content answered next) {n : Nat} (hn : n < next)
    (hfirst : answered n = none) (a : Answer) :
    Matched role pending (Function.update content n (some a)) (Function.update answered n (some a))
      next where
  fits p := by
    have hp := h.fits p
    cases hr : role p with
    | idle => trivial
    | waiting k m =>
      rw [hr] at hp
      refine ⟨hp.1, ?_⟩
      by_cases he : m = n
      · rw [he, Function.update_self, Function.update_self]
      · rw [Function.update_of_ne he, Function.update_of_ne he, hp.2]
    | finished k m answer =>
      rw [hr] at hp
      refine ⟨hp.1, ?_⟩
      intro x hx
      have hm : m ≠ n := by
        rintro rfl
        rw [hp.2 x hx] at hfirst
        cases hfirst
      rw [Function.update_of_ne hm, hp.2 x hx]
    | bringing m meant =>
      rw [hr] at hp
      exact hp
  alone := h.alone
  bounded := h.bounded
  keyed := h.keyed
  fresh m hm := by
    rw [Function.update_of_ne (by omega)]
    exact h.fresh m hm

/-- An answer comes to a question whose slot is not there any more. -/
theorem Matched.late (h : Matched role pending content answered next) {n : Nat} (hn : n < next)
    (hgone : ∀ k, pending k ≠ some n) (a : Answer) :
    Matched role pending content (Function.update answered n (some a)) next where
  fits p := by
    refine (h.fits p).mono ?_ (Nat.le_refl _)
    intro k m hk
    have hm : m ≠ n := by
      rintro rfl
      exact hgone k ((h.fits p).own hk)
    exact ⟨(h.fits p).own hk, rfl, Function.update_of_ne hm ..⟩
  alone := h.alone
  bounded := h.bounded
  keyed := h.keyed
  fresh m hm := by
    rw [Function.update_of_ne (by omega)]
    exact h.fresh m hm

end Matched

end Kitty.Base
