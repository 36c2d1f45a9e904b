import Mathlib.Data.List.Nodup

/-!
# Who closed what

Things are numbered as they are opened, and a place holds any number of them. What is closed is
entered with the one that closed it. Each change concerns one place: some of its things are closed
and some new ones are opened in it. Where nothing is put into a place that loses what was there, a
thing is held in one place or was closed once.
-/

namespace Kitty.Base

/-- What each place holds, how many things were opened, and what was closed by whom. -/
structure Ledger (Place Closer : Type) where
  held : Place → List Nat
  next : Nat
  closed : List (Nat × Closer)

namespace Ledger

variable {Place Closer : Type} {l l' : Ledger Place Closer} {p : Place} {ks : List Nat}
  {c : Closer} {opened : Nat}

/-- Nothing was opened. -/
def start (Place Closer : Type) : Ledger Place Closer := ⟨fun _ ↦ [], 0, []⟩

/-- In one place some things are closed and so many are opened. -/
structure Change (l l' : Ledger Place Closer) (p : Place) (ks : List Nat) (c : Closer)
    (opened : Nat) : Prop where
  others : ∀ q, q ≠ p → l'.held q = l.held q
  here : ∃ rest, (l.held p).Perm (ks ++ rest) ∧
    (l'.held p).Perm (rest ++ List.range' l.next opened)
  next : l'.next = l.next + opened
  closed : l'.closed = l.closed ++ ks.map (·, c)

/-- What is held is open and in one place, and all else was closed once. -/
structure Sound (l : Ledger Place Closer) : Prop where
  nodup : ∀ p, (l.held p).Nodup
  alone : ∀ p q k, k ∈ l.held p → k ∈ l.held q → p = q
  held_lt : ∀ p, ∀ k ∈ l.held p, k < l.next
  unclosed : ∀ p, ∀ k ∈ l.held p, ∀ c, (k, c) ∉ l.closed
  settled : ∀ k < l.next, (∃ p, k ∈ l.held p) ∨ ∃ c, l.closed.filter (·.1 = k) = [(k, c)]
  closed_lt : ∀ k c, (k, c) ∈ l.closed → k < l.next

theorem sound_start : (start Place Closer).Sound where
  nodup _ := List.nodup_nil
  alone _ _ _ h := nomatch h
  held_lt _ _ h := nomatch h
  unclosed _ _ h := nomatch h
  settled _ h := absurd h (Nat.not_lt_zero _)
  closed_lt _ _ h := nomatch h

/-- A change that closes nothing and opens nothing. -/
theorem Change.refl (l : Ledger Place Closer) (p : Place) (c : Closer) : l.Change l p [] c 0 :=
  ⟨fun _ _ ↦ rfl, ⟨l.held p, .refl _, by simp⟩, rfl, by simp⟩

/-- What a place holds afterwards was there before and was not closed, or is new. -/
theorem Change.mem_here (h : l.Change l' p ks c opened) (hl : l.Sound) {k : Nat} :
    k ∈ l'.held p ↔ k ∈ l.held p ∧ k ∉ ks ∨ l.next ≤ k ∧ k < l.next + opened := by
  obtain ⟨rest, hbefore, hafter⟩ := h.here
  have hnodup := hbefore.nodup_iff.mp (hl.nodup p)
  rw [List.nodup_append] at hnodup
  rw [hafter.mem_iff, hbefore.mem_iff, List.mem_append, List.mem_append, List.mem_range'_1]
  have hsplit : k ∈ rest ↔ (k ∈ ks ∨ k ∈ rest) ∧ k ∉ ks := by
    constructor
    · intro hk
      exact ⟨.inr hk, fun hks ↦ hnodup.2.2 k hks k hk rfl⟩
    · rintro ⟨hks | hk, hnot⟩
      · exact absurd hks hnot
      · exact hk
  rw [← hsplit]

/-- What is closed was in the place. -/
theorem Change.mem_of_closed (h : l.Change l' p ks c opened) {k : Nat} (hk : k ∈ ks) :
    k ∈ l.held p := by
  obtain ⟨rest, hbefore, -⟩ := h.here
  exact hbefore.mem_iff.mpr (List.mem_append_left _ hk)

theorem Change.nodup_closed (h : l.Change l' p ks c opened) (hl : l.Sound) : ks.Nodup := by
  obtain ⟨rest, hbefore, -⟩ := h.here
  exact (List.nodup_append.mp (hbefore.nodup_iff.mp (hl.nodup p))).1

/-- Any place after a change. -/
theorem Change.mem_held (h : l.Change l' p ks c opened) (hl : l.Sound) {q : Place} {k : Nat}
    (hk : k ∈ l'.held q) :
    k ∈ l.held q ∧ k ∉ ks ∨ q = p ∧ l.next ≤ k ∧ k < l.next + opened := by
  by_cases hq : q = p
  · subst hq
    exact ((h.mem_here hl).mp hk).imp_right fun hnew ↦ ⟨rfl, hnew⟩
  · rw [h.others q hq] at hk
    exact .inl ⟨hk, fun hks ↦ hq (hl.alone q p k hk (h.mem_of_closed hks))⟩

/-- The entries of one thing. -/
private theorem filter_entries (ks : List Nat) (c : Closer) (k : Nat) :
    (ks.map (·, c)).filter (·.1 = k) = (ks.filter (· = k)).map (·, c) := by
  induction ks with
  | nil => rfl
  | cons j ks ih =>
    by_cases hj : j = k <;> simp [hj, ih]

/-- A sound ledger stays sound. -/
theorem Sound.change (hl : l.Sound) (h : l.Change l' p ks c opened) : l'.Sound where
  nodup q := by
    by_cases hq : q = p
    · subst hq
      obtain ⟨rest, hbefore, hafter⟩ := h.here
      have hrest := (List.nodup_append.mp (hbefore.nodup_iff.mp (hl.nodup q))).2.1
      rw [hafter.nodup_iff, List.nodup_append]
      refine ⟨hrest, List.nodup_range', fun k hk j hj ↦ ?_⟩
      have hlt := hl.held_lt q k (hbefore.mem_iff.mpr (List.mem_append_right _ hk))
      have hle := (List.mem_range'_1.mp hj).1
      omega
    · rw [h.others q hq]
      exact hl.nodup q
  alone q q' k hk hk' := by
    rcases h.mem_held hl hk with ⟨hold, -⟩ | ⟨rfl, hnew⟩
    · rcases h.mem_held hl hk' with ⟨hold', -⟩ | ⟨rfl, hnew'⟩
      · exact hl.alone q q' k hold hold'
      · exact absurd (hl.held_lt q k hold) (by omega)
    · rcases h.mem_held hl hk' with ⟨hold', -⟩ | ⟨rfl, -⟩
      · exact absurd (hl.held_lt q' k hold') (by omega)
      · rfl
  held_lt q k hk := by
    rw [h.next]
    rcases h.mem_held hl hk with ⟨hold, -⟩ | ⟨-, -, hlt⟩
    · exact Nat.lt_add_right _ (hl.held_lt q k hold)
    · exact hlt
  unclosed q k hk c' hc := by
    rw [h.closed] at hc
    rcases List.mem_append.mp hc with hc | hc
    · rcases h.mem_held hl hk with ⟨hold, -⟩ | ⟨-, hle, -⟩
      · exact hl.unclosed q k hold c' hc
      · exact absurd (hl.closed_lt k c' hc) (by omega)
    · obtain ⟨j, hj, heq⟩ := List.mem_map.mp hc
      cases heq
      rcases h.mem_held hl hk with ⟨-, hnot⟩ | ⟨-, hle, -⟩
      · exact hnot hj
      · exact absurd (hl.held_lt p k (h.mem_of_closed hj)) (by omega)
  settled k hk := by
    rw [h.next] at hk
    rw [h.closed, List.filter_append, filter_entries]
    by_cases hks : k ∈ ks
    · have hheld := h.mem_of_closed hks
      have hnone : l.closed.filter (·.1 = k) = [] := by
        apply List.filter_eq_nil_iff.mpr
        rintro ⟨j, c'⟩ hj hjk
        have hjk : j = k := by simpa using hjk
        exact hl.unclosed p k hheld c' (hjk ▸ hj)
      have hone : ks.filter (· = k) = [k] := by
        have hcount := List.count_eq_one_of_mem (h.nodup_closed hl) hks
        rw [← List.replicate_one, ← hcount]
        exact List.filter_eq _
      exact .inr ⟨c, by rw [hnone, hone]; rfl⟩
    · have hnone : ks.filter (· = k) = [] :=
        List.filter_eq_nil_iff.mpr fun j hj hjk ↦ hks (of_decide_eq_true hjk ▸ hj)
      rw [hnone, List.map_nil, List.append_nil]
      by_cases hnew : l.next ≤ k
      · exact .inl ⟨p, (h.mem_here hl).mpr (.inr ⟨hnew, hk⟩)⟩
      · refine (hl.settled k (by omega)).imp_left fun ⟨q, hq⟩ ↦ ⟨q, ?_⟩
        by_cases hqp : q = p
        · subst hqp
          exact (h.mem_here hl).mpr (.inl ⟨hq, hks⟩)
        · rwa [h.others q hqp]
  closed_lt k c' hc := by
    rw [h.closed] at hc
    rw [h.next]
    rcases List.mem_append.mp hc with hc | hc
    · exact Nat.lt_add_right _ (hl.closed_lt k c' hc)
    · obtain ⟨j, hj, heq⟩ := List.mem_map.mp hc
      cases heq
      exact Nat.lt_add_right _ (hl.held_lt p k (h.mem_of_closed hj))

end Ledger

end Kitty.Base
