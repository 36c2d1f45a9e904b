import Mathlib.Logic.Function.Basic

/-!
# Things that are opened, handed over and closed

Things are numbered as they are opened. Each is in one place until it is closed: opening one
and handing one over need an empty place to put it in, for what a place holds when another
thing is put there is lost.
-/

namespace Kitty.Base

/-- What each place holds, how often each thing was closed, and how many were opened. -/
@[ext] structure Custody (Place : Type) where
  held : Place → Option Nat
  released : Nat → Nat
  next : Nat

namespace Custody

/-- Nothing was opened. -/
def start (Place : Type) : Custody Place := ⟨fun _ ↦ none, fun _ ↦ 0, 0⟩

variable {Place : Type} [DecidableEq Place]

/-- A thing is opened and put in a place. -/
def acquire (c : Custody Place) (p : Place) : Custody Place :=
  { c with held := Function.update c.held p (some c.next), next := c.next + 1 }

/-- What is in one place is handed over to another. -/
def move (c : Custody Place) (p q : Place) : Custody Place :=
  { c with held := Function.update (Function.update c.held q (c.held p)) p none }

/-- What is in a place is closed. -/
def release (c : Custody Place) (p : Place) : Custody Place :=
  match c.held p with
  | none => c
  | some r =>
    { c with
      held := Function.update c.held p none
      released := Function.update c.released r (c.released r + 1) }

/-- An opened thing is where it was put. -/
theorem held_acquire (c : Custody Place) (p x : Place) :
    (c.acquire p).held x = if x = p then some c.next else c.held x :=
  Function.update_apply ..

/-- A thing that was handed over is where it came to. -/
theorem held_move (c : Custody Place) (p q x : Place) :
    (c.move p q).held x = if x = p then none else if x = q then c.held p else c.held x := by
  rw [← Function.update_apply c.held q, ← Function.update_apply _ p]
  rfl

/-- A place whose thing was closed is empty. -/
theorem held_release (c : Custody Place) (p x : Place) :
    (c.release p).held x = if x = p then none else c.held x := by
  unfold release
  cases hp : c.held p with
  | none =>
    by_cases hx : x = p
    · rw [if_pos hx, hx, hp]
    · rw [if_neg hx]
  | some r => exact Function.update_apply ..

omit [DecidableEq Place] in
/-- One more is counted for one thing. -/
theorem update_count (n : Nat → Nat) (s : Nat) :
    Function.update n s (n s + 1) = fun r ↦ n r + if some s = some r then 1 else 0 := by
  funext r
  rw [Function.update_apply]
  by_cases hrs : r = s
  · subst hrs
    rw [if_pos rfl, if_pos rfl]
  · rw [if_neg hrs, if_neg fun h ↦ hrs (Option.some.inj h).symm, Nat.add_zero]

/-- Closing counts for the thing in the place. -/
theorem released_release (c : Custody Place) (p : Place) (r : Nat) :
    (c.release p).released r = c.released r + if c.held p = some r then 1 else 0 := by
  unfold release
  cases hp : c.held p with
  | none => rfl
  | some s => exact congrFun (update_count c.released s) r

/-- Closing opens nothing. -/
theorem next_release (c : Custody Place) (p : Place) : (c.release p).next = c.next := by
  unfold release
  cases c.held p <;> rfl

/-- The thing in a place was closed when it is counted, the place is empty and the others are as
they were. -/
theorem eq_release {c d : Custody Place} {p : Place} (hp : d.held p = none)
    (hothers : ∀ x, x ≠ p → d.held x = c.held x)
    (hreleased : ∀ r, d.released r = c.released r + if c.held p = some r then 1 else 0)
    (hnext : d.next = c.next) : d = c.release p := by
  ext x r
  · rw [held_release]
    by_cases hx : x = p
    · rw [if_pos hx, hx, hp]
    · rw [if_neg hx, hothers x hx]
  · rw [released_release, hreleased]
  · rw [next_release, hnext]

omit [DecidableEq Place] in
/-- Nothing is lost: what is held is open and in one place, and all else was closed once. -/
structure Sound (c : Custody Place) : Prop where
  alone : ∀ p q r, c.held p = some r → c.held q = some r → p = q
  unreleased : ∀ p r, c.held p = some r → r < c.next ∧ c.released r = 0
  settled : ∀ r, r < c.next → c.released r = 1 ∨ ∃ p, c.held p = some r
  unopened : ∀ r, c.next ≤ r → c.released r = 0

omit [DecidableEq Place] in
theorem start_sound : (start Place).Sound where
  alone _ _ _ h := by cases h
  unreleased _ _ h := by cases h
  settled _ h := absurd h (Nat.not_lt_zero _)
  unopened _ _ := rfl

/-- A thing can be opened in an empty place. -/
theorem Sound.acquire {c : Custody Place} (h : c.Sound) {p : Place} (hp : c.held p = none) :
    (c.acquire p).Sound := by
  have hheld : ∀ x r, (c.acquire p).held x = some r →
      x = p ∧ r = c.next ∨ x ≠ p ∧ c.held x = some r := by
    intro x r hx
    rw [held_acquire] at hx
    split at hx
    · next hxp => exact .inl ⟨hxp, (Option.some.inj hx).symm⟩
    · next hxp => exact .inr ⟨hxp, hx⟩
  refine ⟨?_, ?_, ?_, ?_⟩
  · intro x y r hx hy
    rcases hheld x r hx with ⟨rfl, rfl⟩ | ⟨-, hx'⟩ <;>
      rcases hheld y _ hy with ⟨rfl, hr⟩ | ⟨-, hy'⟩
    · rfl
    · exact absurd (h.unreleased y _ hy').1 (Nat.lt_irrefl _)
    · exact absurd (hr ▸ (h.unreleased x r hx').1) (Nat.lt_irrefl _)
    · exact h.alone x y r hx' hy'
  · intro x r hx
    rcases hheld x r hx with ⟨-, rfl⟩ | ⟨-, hx⟩
    · exact ⟨Nat.lt_succ_self _, h.unopened _ (Nat.le_refl _)⟩
    · obtain ⟨hlt, hzero⟩ := h.unreleased x r hx
      exact ⟨Nat.lt_succ_of_lt hlt, hzero⟩
  · intro r hr
    rcases Nat.lt_succ_iff_lt_or_eq.mp hr with hr | rfl
    · rcases h.settled r hr with hone | ⟨x, hx⟩
      · exact .inl hone
      · have hxp : x ≠ p := fun he ↦ by simp [he, hp] at hx
        exact .inr ⟨x, by rw [held_acquire, if_neg hxp, hx]⟩
    · exact .inr ⟨p, by rw [held_acquire, if_pos rfl]⟩
  · intro r hr
    exact h.unopened r (Nat.le_of_succ_le hr)

/-- A thing can be handed over to an empty place. -/
theorem Sound.move {c : Custody Place} (h : c.Sound) {p q : Place} (hq : c.held q = none) :
    (c.move p q).Sound := by
  have hheld : ∀ x r, (c.move p q).held x = some r →
      x = q ∧ c.held p = some r ∨ x ≠ p ∧ c.held x = some r := by
    intro x r hx
    rw [held_move] at hx
    split at hx
    · cases hx
    · next hxp =>
      split at hx
      · next hxq => exact .inl ⟨hxq, hx⟩
      · exact .inr ⟨hxp, hx⟩
  refine ⟨?_, ?_, ?_, h.unopened⟩
  · intro x y r hx hy
    rcases hheld x r hx with ⟨rfl, hx'⟩ | ⟨hxp, hx'⟩ <;>
      rcases hheld y r hy with ⟨rfl, hy'⟩ | ⟨hyp, hy'⟩
    · rfl
    · exact absurd (h.alone p y r hx' hy').symm hyp
    · exact absurd (h.alone x p r hx' hy') hxp
    · exact h.alone x y r hx' hy'
  · intro x r hx
    rcases hheld x r hx with ⟨-, hx⟩ | ⟨-, hx⟩
    · exact h.unreleased p r hx
    · exact h.unreleased x r hx
  · intro r hr
    rcases h.settled r hr with hone | ⟨x, hx⟩
    · exact .inl hone
    · have hxq : x ≠ q := fun he ↦ by simp [he, hq] at hx
      by_cases hxp : x = p
      · subst hxp
        exact .inr ⟨q, by rw [held_move, if_neg (Ne.symm hxq), if_pos rfl, hx]⟩
      · exact .inr ⟨x, by rw [held_move, if_neg hxp, if_neg hxq, hx]⟩

/-- What a place holds can be closed. -/
theorem Sound.release {c : Custody Place} (h : c.Sound) (p : Place) : (c.release p).Sound := by
  have hnext := c.next_release p
  have hheld : ∀ x r, (c.release p).held x = some r → x ≠ p ∧ c.held x = some r := by
    intro x r hx
    rw [held_release] at hx
    split at hx
    · cases hx
    · next hxp => exact ⟨hxp, hx⟩
  refine ⟨?_, ?_, ?_, ?_⟩
  · intro x y r hx hy
    exact h.alone x y r (hheld x r hx).2 (hheld y r hy).2
  · intro x r hx
    obtain ⟨hxp, hx⟩ := hheld x r hx
    obtain ⟨hr, hzero⟩ := h.unreleased x r hx
    rw [hnext, released_release, hzero, if_neg fun hp ↦ hxp (h.alone x p r hx hp)]
    exact ⟨hr, rfl⟩
  · intro r hr
    rw [hnext] at hr
    rw [released_release]
    by_cases hp : c.held p = some r
    · rw [if_pos hp, (h.unreleased p r hp).2]
      exact .inl rfl
    · rw [if_neg hp]
      rcases h.settled r hr with hone | ⟨x, hx⟩
      · exact .inl hone
      · have hxp : x ≠ p := fun he ↦ hp (he ▸ hx)
        exact .inr ⟨x, by rw [held_release, if_neg hxp, hx]⟩
  · intro r hr
    rw [hnext] at hr
    rw [released_release, h.unopened r hr, if_neg fun hp ↦ ?_]
    exact absurd (h.unreleased p r hp).1 (Nat.not_lt.mpr hr)

omit [DecidableEq Place] in
/-- A thing that no place holds any more was closed, and closed once. -/
theorem Sound.released_once {c : Custody Place} (h : c.Sound) {r : Nat} (hr : r < c.next)
    (hheld : ∀ p, c.held p ≠ some r) : c.released r = 1 :=
  (h.settled r hr).resolve_right fun ⟨p, hp⟩ ↦ hheld p hp

end Custody

end Kitty.Base
