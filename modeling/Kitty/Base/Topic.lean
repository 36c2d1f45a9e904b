import Kitty.Base.Bytes

/-!
# Topics and topic filters

A topic is a path of levels between slashes. A filter names levels, `+` for any one level, and
at its end `#` for any levels that are left, also for none of them.
-/

namespace Kitty.Base

/-- The byte `/` between two levels. -/
def SLASH : UInt8 := 47

/-- The levels of a topic. -/
def levels (topic : Bytes) : List Bytes := topic.splitOn SLASH

/-- The topic of some levels. -/
def joinLevels (ls : List Bytes) : Bytes := [SLASH].intercalate ls

/-- The levels of a topic that a filter names, and those left to its `#`. -/
def matchLevels : List Bytes → List Bytes → Option (List Bytes × List Bytes)
  | [], [] => some ([], [])
  | [], _ :: _ => none
  | f :: fs, [] => if f = lit "#" ∧ fs = [] then some ([], []) else none
  | f :: fs, t :: ts =>
    if f = lit "#" then if fs = [] then some ([], t :: ts) else none
    else if f = lit "+" ∨ f = t then (matchLevels fs ts).map fun r ↦ (t :: r.1, r.2) else none

/-- What of a topic a filter names, and what is written after it, if anything is. -/
def matchTopic (filter topic : Bytes) : Option (Bytes × Option Bytes) :=
  (matchLevels (levels filter) (levels topic)).map fun r ↦
    (joinLevels r.1, if r.2 = [] then none else some (joinLevels r.2))

/-- The named levels are the first ones, the others are left. -/
theorem matchLevels_append {fs ts named left : List Bytes}
    (h : matchLevels fs ts = some (named, left)) : ts = named ++ left := by
  induction fs generalizing ts named left with
  | nil =>
    cases ts with
    | nil =>
      cases h
      rfl
    | cons t ts => cases h
  | cons f fs ih =>
    cases ts with
    | nil =>
      simp only [matchLevels] at h
      split at h <;> cases h
      rfl
    | cons t ts =>
      simp only [matchLevels] at h
      split at h
      · split at h <;> cases h
        rfl
      · split at h
        · obtain ⟨⟨named', left'⟩, hrest, heq⟩ := Option.map_eq_some_iff.mp h
          cases heq
          rw [ih hrest, List.cons_append]
        · cases h

/-- A filter that names a level names one of every topic it matches. -/
theorem named_ne_nil {f : Bytes} {fs ts named left : List Bytes} (hf : f ≠ lit "#")
    (h : matchLevels (f :: fs) ts = some (named, left)) : named ≠ [] := by
  cases ts with
  | nil => simp [matchLevels, hf] at h
  | cons t ts =>
    simp only [matchLevels, if_neg hf] at h
    split at h
    · obtain ⟨⟨named', left'⟩, -, heq⟩ := Option.map_eq_some_iff.mp h
      cases heq
      exact List.cons_ne_nil _ _
    · cases h

/-- A slash stands between levels. -/
theorem joinLevels_append {ls ks : List Bytes} (hls : ls ≠ []) (hks : ks ≠ []) :
    joinLevels (ls ++ ks) = joinLevels ls ++ SLASH :: joinLevels ks := by
  unfold joinLevels
  induction ls with
  | nil => exact absurd rfl hls
  | cons l ls ih =>
    cases ls with
    | nil => rw [List.singleton_append, List.intercalate_cons_of_ne_nil hks]; simp
    | cons l' ls =>
      have hrest := ih (List.cons_ne_nil l' ls)
      have hne : l' :: ls ++ ks ≠ [] := List.cons_ne_nil _ _
      rw [List.cons_append, List.intercalate_cons_of_ne_nil hne, hrest,
        List.intercalate_cons_of_ne_nil (List.cons_ne_nil l' ls)]
      simp only [List.append_assoc, List.cons_append]

/-- A topic that a filter matches is what the filter names, or that, a slash and the rest. -/
theorem topic_of_matchTopic {f filter topic head : Bytes} {fs : List Bytes} {left : Option Bytes}
    (hfilter : levels filter = f :: fs) (hf : f ≠ lit "#")
    (h : matchTopic filter topic = some (head, left)) :
    topic = head ++ left.elim [] (SLASH :: ·) := by
  obtain ⟨⟨named, rest⟩, hmatch, heq⟩ := Option.map_eq_some_iff.mp h
  rw [hfilter] at hmatch
  have hnamed := named_ne_nil hf hmatch
  have htopic : topic = joinLevels (named ++ rest) := by
    rw [← matchLevels_append hmatch]
    exact (List.intercalate_splitOn SLASH).symm
  cases heq
  by_cases hrest : rest = []
  · simp [htopic, hrest]
  · rw [htopic, joinLevels_append hnamed hrest, if_neg hrest, Option.elim_some]

end Kitty.Base
