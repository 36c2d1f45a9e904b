import Mathlib.Logic.Function.Basic

/-!
# Records written field by field

A record is read and written under keys. Each write depends on nothing but its key and the
text written, so what a list of writes leaves under a key is decided by the last write to it.
-/

namespace Kitty.Base

/-- A record with a reader and a writer for each key. The keys name different places, and
what they read is all there is in it. -/
structure Fields (Record Key Text Held : Type) [DecidableEq Key] where
  get : Key → Record → Held
  put : Record → Key → Text → Record
  stored : Key → Text → Held
  get_put : ∀ r k t j, get j (put r k t) = if j = k then stored k t else get j r
  ext : ∀ {r s}, (∀ k, get k r = get k s) → r = s

variable {Record Key Text Held : Type} [DecidableEq Key]

/-- The text of the last write to a key. -/
def lastWrite (k : Key) : List (Key × Text) → Option Text
  | [] => none
  | (j, t) :: writes => (lastWrite k writes).or (if j = k then some t else none)

/-- The last write of two lists is that of the second, or else that of the first. -/
theorem lastWrite_append (k : Key) (writes more : List (Key × Text)) :
    lastWrite k (writes ++ more) = (lastWrite k more).or (lastWrite k writes) := by
  induction writes with
  | nil => exact Option.or_none.symm
  | cons w writes ih => rw [List.cons_append, lastWrite, lastWrite, ih, Option.or_assoc]

/-- A key that is not written to has no last write. -/
theorem lastWrite_eq_none {k : Key} {writes : List (Key × Text)} (h : ∀ w ∈ writes, w.1 ≠ k) :
    lastWrite k writes = none := by
  induction writes with
  | nil => rfl
  | cons w writes ih =>
    rw [lastWrite, ih fun w' hw' ↦ h w' (List.mem_cons_of_mem _ hw'), Option.none_or,
      if_neg (h w List.mem_cons_self)]

/-- The last write comes from the last source of writes that has one. -/
theorem lastWrite_flatMap {Source : Type} {k : Key} {read : Source → List (Key × Text)}
    {before after : List Source} {source : Source}
    (hsource : (lastWrite k (read source)).isSome)
    (hafter : ∀ s ∈ after, ∀ w ∈ read s, w.1 ≠ k) :
    lastWrite k ((before ++ source :: after).flatMap read) = lastWrite k (read source) := by
  have hnone : lastWrite k (after.flatMap read) = none := lastWrite_eq_none fun w hw ↦ by
    obtain ⟨s, hs, hw⟩ := List.mem_flatMap.mp hw
    exact hafter s hs w hw
  obtain ⟨t, ht⟩ := Option.isSome_iff_exists.mp hsource
  rw [List.flatMap_append, List.flatMap_cons, lastWrite_append, lastWrite_append, hnone, ht]
  rfl

namespace Fields

variable (F : Fields Record Key Text Held)

/-- One write after the other. -/
def putAll (r : Record) (writes : List (Key × Text)) : Record :=
  writes.foldl (fun r w ↦ F.put r w.1 w.2) r

/-- A key holds what the last write to it stored, or what it held. -/
theorem get_putAll (r : Record) (writes : List (Key × Text)) (k : Key) :
    F.get k (F.putAll r writes) = ((lastWrite k writes).map (F.stored k)).getD (F.get k r) := by
  induction writes generalizing r with
  | nil => rfl
  | cons w writes ih =>
    obtain ⟨j, t⟩ := w
    have hcons : F.putAll r ((j, t) :: writes) = F.putAll (F.put r j t) writes := rfl
    rw [hcons, ih, F.get_put, lastWrite]
    cases lastWrite k writes with
    | some u => rfl
    | none =>
      by_cases hj : j = k
      · subst hj
        simp
      · simp [hj, Ne.symm hj]

/-- The writes leave the record as it was when the last one to each key stores what the key
held, and only then. -/
theorem putAll_eq_self_iff (r : Record) (writes : List (Key × Text)) :
    F.putAll r writes = r ↔ ∀ k t, lastWrite k writes = some t → F.stored k t = F.get k r := by
  constructor
  · intro h k t ht
    have hk := F.get_putAll r writes k
    rw [h, ht] at hk
    exact hk.symm
  · intro h
    apply F.ext
    intro k
    rw [F.get_putAll]
    cases hw : lastWrite k writes with
    | none => rfl
    | some t => exact h k t hw

end Fields

end Kitty.Base
