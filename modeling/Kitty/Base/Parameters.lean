import Kitty.Base.Find

/-!
# Lists of named parameters

Texts such as a query string or a list of cookies: parameters with a separator between them, each
of them a name, a mark and a value, with blanks around it. Searching the text for a name and the
mark finds the first parameter whose name ends with the name searched for.
-/

namespace Kitty.Base

variable {α : Type}

/-- A parameter as it stands in a text, with what stands around it. -/
structure Param (α : Type) where
  pad : List α
  name : List α
  value : List α
  trail : List α

/-- The elements of a text of parameters that are no part of a name or a value. -/
structure Syntax (α : Type) where
  mark : α
  sep : α
  blank : α → Bool
  mark_ne_sep : mark ≠ sep
  blank_mark : blank mark = false
  blank_sep : blank sep = false

namespace Syntax

variable (S : Syntax α)

/-- A name, or a value. -/
structure Word (w : List α) : Prop where
  mark : S.mark ∉ w
  sep : S.sep ∉ w
  blank : ∀ b ∈ w, S.blank b = false

/-- A parameter with blanks around its name and value. -/
structure Good (p : Param α) : Prop where
  name : S.Word p.name
  value : S.Word p.value
  pad : ∀ b ∈ p.pad, S.blank b = true
  trail : ∀ b ∈ p.trail, S.blank b = true

/-- The text of a parameter. -/
def text (p : Param α) : List α := p.pad ++ p.name ++ S.mark :: (p.value ++ p.trail)

/-- The text of all parameters. -/
def paramsText : List (Param α) → List α
  | [] => []
  | [p] => S.text p
  | p :: q :: ps => S.text p ++ S.sep :: paramsText (q :: ps)

/-- Where the value of the first parameter begins whose name is looked for. -/
def startWhere (looked : List α → Bool) : List (Param α) → Option Nat
  | [] => none
  | p :: ps =>
    if looked p.name then some (p.pad.length + p.name.length + 1)
    else (startWhere looked ps).map (· + ((S.text p).length + 1))

end Syntax

variable [DecidableEq α]

instance (S : Syntax α) (w : List α) : Decidable (S.Word w) :=
  decidable_of_iff (S.mark ∉ w ∧ S.sep ∉ w ∧ ∀ b ∈ w, S.blank b = false)
    ⟨fun ⟨mark, sep, blank⟩ ↦ ⟨mark, sep, blank⟩, fun ⟨mark, sep, blank⟩ ↦ ⟨mark, sep, blank⟩⟩

instance (S : Syntax α) (p : Param α) : Decidable (S.Good p) :=
  decidable_of_iff (S.Word p.name ∧ S.Word p.value ∧ (∀ b ∈ p.pad, S.blank b = true) ∧
      ∀ b ∈ p.trail, S.blank b = true)
    ⟨fun ⟨name, value, pad, trail⟩ ↦ ⟨name, value, pad, trail⟩,
      fun ⟨name, value, pad, trail⟩ ↦ ⟨name, value, pad, trail⟩⟩

/-- The first parameter whose name ends with the given one has that name. -/
def FirstEnding (name : List α) (ps : List (Param α)) : Prop :=
  ∀ p ∈ ps.find? fun p ↦ decide (name <:+ p.name), p.name = name

instance (name : List α) (ps : List (Param α)) : Decidable (FirstEnding name ps) :=
  inferInstanceAs (Decidable (∀ p ∈ ps.find? _, _))

omit [DecidableEq α] in
/-- A word without the separator that ends a text begins behind it. -/
theorem suffix_append_cons_iff {sep : α} {word a b : List α} (h : sep ∉ word) :
    word <:+ a ++ sep :: b ↔ word <:+ b := by
  constructor
  · intro hs
    rcases List.suffix_or_suffix_of_suffix hs (List.suffix_append a (sep :: b)) with hs | hs
    · rcases List.suffix_cons_iff.mp hs with rfl | hs
      · exact absurd List.mem_cons_self h
      · exact hs
    · exact absurd (hs.subset List.mem_cons_self) h
  · exact fun hs ↦ (hs.trans (List.suffix_cons sep b)).trans (List.suffix_append a _)

namespace Syntax

variable {S : Syntax α} {name : List α} {ps : List (Param α)}

omit [DecidableEq α] in
/-- The blanks before a name are no part of a word. -/
private theorem suffix_pad_iff (hname : S.Word name) {pad key : List α}
    (hpad : ∀ b ∈ pad, S.blank b = true) : name <:+ pad ++ key ↔ name <:+ key := by
  induction pad with
  | nil => exact Iff.rfl
  | cons b pad ih =>
    have hb : b ∉ name := fun hmem ↦ by
      have := hname.blank b hmem
      rw [hpad b List.mem_cons_self] at this
      cases this
    have hcons := suffix_append_cons_iff (a := []) (b := pad ++ key) hb
    rw [List.cons_append]
    exact hcons.trans (ih fun c hc ↦ hpad c (List.mem_cons_of_mem _ hc))

omit [DecidableEq α] in
private theorem not_mem_of_blank {c : α} (hc : S.blank c = false) {w : List α}
    (h : ∀ b ∈ w, S.blank b = true) : c ∉ w := fun hmem ↦ by
  rw [h c hmem] at hc
  cases hc

omit [DecidableEq α] in
private theorem Good.mark_not_mem_key {p : Param α} (h : S.Good p) : S.mark ∉ p.pad ++ p.name :=
  List.mem_append.not.mpr (not_or.mpr ⟨not_mem_of_blank S.blank_mark h.pad, h.name.mark⟩)

omit [DecidableEq α] in
private theorem Good.not_mem_tail {p : Param α} (h : S.Good p) :
    S.mark ∉ p.value ++ p.trail ∧ S.sep ∉ p.value ++ p.trail := by
  constructor
  · exact List.mem_append.not.mpr
      (not_or.mpr ⟨h.value.mark, not_mem_of_blank S.blank_mark h.trail⟩)
  · exact List.mem_append.not.mpr
      (not_or.mpr ⟨h.value.sep, not_mem_of_blank S.blank_sep h.trail⟩)

/-- The search in a text that begins with a parameter. -/
private theorem find_param (hname : S.Word name) {p : Param α} (hp : S.Good p) (rest : List α) :
    (find (name ++ [S.mark]) (p.pad ++ p.name ++ S.mark :: rest)).map (· + (name.length + 1)) =
      if name <:+ p.name then some (p.pad.length + p.name.length + 1)
      else ((find (name ++ [S.mark]) rest).map (· + (name.length + 1))).map
        (· + (p.pad.length + p.name.length + 1)) := by
  have hiff : name <:+ p.pad ++ p.name ↔ name <:+ p.name := suffix_pad_iff hname hp.pad
  rw [find_mark hname.mark hp.mark_not_mem_key]
  by_cases h : name <:+ p.name
  · have hle := h.length_le
    rw [if_pos (hiff.mpr h), if_pos h, Option.map_some, List.length_append, Option.some.injEq]
    omega
  · rw [if_neg (h ∘ hiff.mp), if_neg h, Option.map_map, Option.map_map, List.length_append]
    congr 1
    funext i
    simp only [Function.comp_apply]
    omega

/-- The search finds the first parameter whose name ends with the name. -/
theorem find_paramsText (hname : S.Word name) (hps : ∀ p ∈ ps, S.Good p) :
    (find (name ++ [S.mark]) (S.paramsText ps)).map (· + (name.length + 1)) =
      S.startWhere (fun n ↦ decide (name <:+ n)) ps := by
  have hne : name ++ [S.mark] ≠ [] := by simp
  have hmark : S.mark ∈ name ++ [S.mark] := by simp
  have hsep : S.sep ∉ name ++ [S.mark] := by
    simp [hname.sep, S.mark_ne_sep.symm]
  induction ps with
  | nil => rw [paramsText, find_nil hne]; rfl
  | cons p ps ih =>
    have hp := hps p List.mem_cons_self
    have hrest := ih fun q hq ↦ hps q (List.mem_cons_of_mem _ hq)
    obtain ⟨htailmark, -⟩ := hp.not_mem_tail
    rw [startWhere]
    simp only [decide_eq_true_eq]
    cases ps with
    | nil =>
      rw [paramsText, text, find_param hname hp, find_of_not_mem hmark htailmark]
      rfl
    | cons q ps =>
      rw [paramsText, text, List.append_assoc, List.cons_append, find_param hname hp,
        find_append_cons hne hsep, find_of_not_mem hmark htailmark, Option.none_or, ← hrest]
      split
      · rfl
      · rw [Option.map_map, Option.map_map, Option.map_map]
        congr 1
        funext i
        simp only [Function.comp_apply, List.length_append, List.length_cons]
        omega

omit [DecidableEq α] in
/-- What lies further behind is not here. -/
private theorem map_add_ne_some {o : Option Nat} {k n : Nat} (h : k < n) :
    o.map (· + n) ≠ some k := by
  intro heq
  obtain ⟨i, -, hi⟩ := Option.map_eq_some_iff.mp heq
  omega

/-- What is found is the parameter of the name exactly when the first one whose name ends with it
is that parameter. -/
theorem startWhere_eq_iff (S : Syntax α) (name : List α) (ps : List (Param α)) :
    S.startWhere (fun n ↦ decide (name <:+ n)) ps = S.startWhere (fun n ↦ decide (n = name)) ps ↔
      FirstEnding name ps := by
  induction ps with
  | nil => simp [startWhere, FirstEnding]
  | cons p ps ih =>
    rw [startWhere, startWhere, FirstEnding]
    simp only [decide_eq_true_eq]
    by_cases hsuffix : name <:+ p.name
    · rw [if_pos hsuffix, List.find?_cons_of_pos (by simpa using hsuffix)]
      by_cases hname : p.name = name
      · rw [if_pos hname]
        simp [hname]
      · rw [if_neg hname]
        apply iff_of_false
        · -- Another parameter of the name is further behind.
          refine (map_add_ne_some ?_).symm
          rw [text, List.length_append, List.length_append, List.length_cons]
          omega
        · simpa using hname
    · have hname : p.name ≠ name := fun heq ↦ hsuffix (heq ▸ List.suffix_refl _)
      rw [if_neg hsuffix, if_neg hname, List.find?_cons_of_neg (by simpa using hsuffix),
        Option.map_inj_right (by intro i j h; simpa using h)]
      exact ih

/-- From where a value begins to the next separator stand the value and the blanks behind it. -/
theorem map_startWhere (hps : ∀ p ∈ ps, S.Good p) (looked : List α → Bool) :
    (S.startWhere looked ps).map (fun i ↦ ((S.paramsText ps).drop i).takeWhile (· ≠ S.sep)) =
      (ps.find? fun p ↦ looked p.name).map fun p ↦ p.value ++ p.trail := by
  induction ps with
  | nil => rfl
  | cons p ps ih =>
    have hp := hps p List.mem_cons_self
    have hrest := ih fun q hq ↦ hps q (List.mem_cons_of_mem _ hq)
    obtain ⟨-, htailsep⟩ := hp.not_mem_tail
    have hdrop : ∀ rest, (p.pad ++ p.name ++ S.mark :: rest).drop
        (p.pad.length + p.name.length + 1) = rest := by
      intro rest
      rw [← List.length_append, ← List.drop_drop, List.drop_left, List.drop_one, List.tail_cons]
    rw [startWhere]
    split
    · next hlooked =>
      rw [List.find?_cons_of_pos (by simpa using hlooked), Option.map_some, Option.map_some]
      congr 1
      cases ps with
      | nil =>
        rw [paramsText, text, hdrop, List.takeWhile_eq_self_iff]
        intro b hb
        simpa using fun heq : b = S.sep ↦ htailsep (heq ▸ hb)
      | cons q ps =>
        rw [paramsText, text, List.append_assoc, List.cons_append, hdrop,
          takeWhile_ne_append_cons htailsep]
    · next hlooked =>
      rw [List.find?_cons_of_neg (by simpa using hlooked), ← hrest, Option.map_map]
      cases ps with
      | nil => rfl
      | cons q ps =>
        congr 1
        funext i
        simp only [Function.comp_apply, paramsText]
        congr 1
        rw [Nat.add_comm i, ← List.drop_drop, ← List.drop_drop, List.drop_left, List.drop_one,
          List.tail_cons]

omit [DecidableEq α] in
/-- A value begins in the text, or at its end. -/
theorem startWhere_le {looked : List α → Bool} {i : Nat} (h : S.startWhere looked ps = some i) :
    i ≤ (S.paramsText ps).length := by
  induction ps generalizing i with
  | nil => cases h
  | cons p ps ih =>
    have hparam : p.pad.length + p.name.length + 1 ≤ (S.text p).length := by
      rw [text, List.length_append, List.length_append, List.length_cons]
      omega
    have hfirst : (S.text p).length ≤ (S.paramsText (p :: ps)).length := by
      cases ps with
      | nil => exact Nat.le_refl _
      | cons q ps =>
        rw [paramsText, List.length_append]
        exact Nat.le_add_right _ _
    rw [startWhere] at h
    split at h
    · cases h
      omega
    · obtain ⟨j, hj, rfl⟩ := Option.map_eq_some_iff.mp h
      cases ps with
      | nil => cases hj
      | cons q ps =>
        have := ih hj
        rw [paramsText, List.length_append, List.length_cons]
        omega

omit [DecidableEq α] in
/-- No value is found when no name is looked for. -/
theorem startWhere_eq_none_iff {looked : List α → Bool} :
    S.startWhere looked ps = none ↔ ∀ p ∈ ps, looked p.name = false := by
  induction ps with
  | nil => simp [startWhere]
  | cons p ps ih =>
    rw [startWhere, List.forall_mem_cons, ← ih]
    split
    · next h => simp [h]
    · next h => simp [h]

omit [DecidableEq α] in
/-- An element that is no mark and no separator, and that is in no parameter, is not in the text. -/
theorem not_mem_paramsText {b : α} (hmark : b ≠ S.mark) (hsep : b ≠ S.sep)
    (h : ∀ p ∈ ps, b ∉ p.pad ∧ b ∉ p.name ∧ b ∉ p.value ∧ b ∉ p.trail) : b ∉ S.paramsText ps := by
  have htext : ∀ p ∈ ps, b ∉ S.text p := by
    intro p hp
    obtain ⟨h1, h2, h3, h4⟩ := h p hp
    simp [text, h1, h2, h3, h4, hmark]
  clear h
  induction ps with
  | nil => exact List.not_mem_nil
  | cons p ps ih =>
    have hp := htext p List.mem_cons_self
    have hrest := ih fun q hq ↦ htext q (List.mem_cons_of_mem _ hq)
    cases ps with
    | nil => exact hp
    | cons q ps =>
      rw [paramsText, List.mem_append, List.mem_cons]
      rintro (hmem | hmem | hmem)
      · exact hp hmem
      · exact hsep hmem
      · exact hrest hmem

end Syntax

end Kitty.Base
