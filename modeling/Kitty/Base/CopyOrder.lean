import Mathlib.Data.List.Nodup

/-!
# Copying in an order

Named things are copied one after the other over what was in their places. A copy that is
interrupted leaves anything in its place and ends the copying: what is before it in the order is
there whole, and what is behind it is as it was. So where a thing is there that was not there before,
everything before it in the order is there whole.
-/

namespace Kitty.Base

variable {Name Content : Type} {order : List Name} {src old dst dst' : Name → Option Content}

/-- The first `k` things are copied, and the others are as they were. -/
structure CopiedFirst (order : List Name) (src old dst : Name → Option Content) (k : Nat) :
    Prop where
  whole : ∀ n ∈ order.take k, dst n = src n
  behind : ∀ n ∈ order.drop k, dst n = old n

/-- The first `k` things are copied, and those behind the next one are as they were. -/
structure CopiedUpTo (order : List Name) (src old dst : Name → Option Content) (k : Nat) :
    Prop where
  whole : ∀ n ∈ order.take k, dst n = src n
  behind : ∀ n ∈ order.drop (k + 1), dst n = old n

/-- Where all is as it was, the copying has not begun. -/
theorem CopiedFirst.start (order : List Name) (src old : Name → Option Content) :
    CopiedFirst order src old old 0 :=
  ⟨fun n hn ↦ by simp at hn, fun _ _ ↦ rfl⟩

/-- A thing that was not touched is not the next one. -/
private theorem ne_of_mem_take (hnodup : order.Nodup) {k : Nat} {m n : Name}
    (hm : order[k]? = some m) (hn : n ∈ order.take k) : n ≠ m := by
  rintro rfl
  obtain ⟨i, hi, hin⟩ := List.mem_take_iff_getElem.mp hn
  obtain ⟨hk, hkn⟩ := List.getElem?_eq_some_iff.mp hm
  have := (hnodup.getElem_inj_iff).mp (hin.trans hkn.symm)
  omega

private theorem ne_of_mem_drop (hnodup : order.Nodup) {k : Nat} {m n : Name}
    (hm : order[k]? = some m) (hn : n ∈ order.drop (k + 1)) : n ≠ m := by
  rintro rfl
  obtain ⟨i, hi, hin⟩ := List.mem_drop_iff_getElem.mp hn
  obtain ⟨hk, hkn⟩ := List.getElem?_eq_some_iff.mp hm
  have := (hnodup.getElem_inj_iff).mp (hin.trans hkn.symm)
  omega

private theorem mem_take_succ {k : Nat} {m n : Name} (hm : order[k]? = some m)
    (hn : n ∈ order.take (k + 1)) : n ∈ order.take k ∨ n = m := by
  rw [List.take_add_one, hm] at hn
  simpa using hn

/-- What is behind the next thing is behind the ones before it too. -/
private theorem mem_drop_of_succ {k : Nat} {n : Name} (hn : n ∈ order.drop (k + 1)) :
    n ∈ order.drop k :=
  (List.drop_sublist_drop_left order (Nat.le_succ k)).mem hn

/-- Nothing was touched behind the next thing. -/
theorem CopiedFirst.upTo {k : Nat} (h : CopiedFirst order src old dst k) :
    CopiedUpTo order src old dst k :=
  ⟨h.whole, fun n hn ↦ h.behind n (mem_drop_of_succ hn)⟩

/-- The next thing was copied whole. -/
theorem CopiedFirst.next (hnodup : order.Nodup) {k : Nat} {m : Name} (hm : order[k]? = some m)
    (h : CopiedFirst order src old dst k) (hframe : ∀ n, n ≠ m → dst' n = dst n)
    (hcopy : dst' m = src m) : CopiedFirst order src old dst' (k + 1) where
  whole := by
    intro n hn
    obtain hn | rfl := mem_take_succ hm hn
    · rw [hframe n (ne_of_mem_take hnodup hm hn)]
      exact h.whole n hn
    · exact hcopy
  behind := by
    intro n hn
    rw [hframe n (ne_of_mem_drop hnodup hm hn)]
    exact h.behind n (mem_drop_of_succ hn)

/-- The copying of the next thing was interrupted. -/
theorem CopiedFirst.interrupted (hnodup : order.Nodup) {k : Nat} {m : Name}
    (hm : order[k]? = some m) (h : CopiedFirst order src old dst k)
    (hframe : ∀ n, n ≠ m → dst' n = dst n) : CopiedUpTo order src old dst' k where
  whole := by
    intro n hn
    rw [hframe n (ne_of_mem_take hnodup hm hn)]
    exact h.whole n hn
  behind := by
    intro n hn
    rw [hframe n (ne_of_mem_drop hnodup hm hn)]
    exact h.behind n (mem_drop_of_succ hn)

/-- A thing that is not as it was, in whatever state it is, has everything before it whole. -/
theorem CopiedUpTo.whole_of_changed {k i j : Nat} (h : CopiedUpTo order src old dst k) {n m : Name}
    (hi : order[i]? = some n) (hj : order[j]? = some m) (hij : i < j) (hm : dst m ≠ old m) :
    dst n = src n := by
  obtain ⟨hi, rfl⟩ := List.getElem?_eq_some_iff.mp hi
  obtain ⟨hj, rfl⟩ := List.getElem?_eq_some_iff.mp hj
  have hjk : j ≤ k := by
    by_contra hlt
    refine hm (h.behind _ (List.mem_drop_iff_getElem.mpr ⟨j - (k + 1), by omega, ?_⟩))
    congr 1
    omega
  exact h.whole _ (List.mem_take_iff_getElem.mpr ⟨i, by omega, rfl⟩)

end Kitty.Base
