import Kitty.CJson.Item
import Kitty.Signal.StatsJson

/-!
# Doubles that are integers

An integer below `10 ^ 15` is a `double`, and `%1.15g` and `%1.17g` print it as `%d` would. On the
text of an integer, `strtod` reads this integer.
-/

namespace Kitty.CJson

open Kitty.Base
open Kitty.Signal (digitsValue signedValue)

/-- The integer at the beginning of a text, and how many bytes it has. -/
def integerOf (text : Bytes) : Option (Int × Nat) :=
  let rest := Json.dropSign [45] text
  let digits := rest.takeWhile Json.isDigit
  if digits = [] then none
  else
    some (signedValue (text.head? == some 45) digits, text.length - rest.length + digits.length)

private theorem length_dropSign_le (text : Bytes) :
    (Json.dropSign [45] text).length ≤ text.length := by
  unfold Json.dropSign
  split
  · exact Nat.le_refl _
  · split
    · exact Nat.le_succ _
    · exact Nat.le_refl _

instance : CDouble Int where
  strtod := integerOf
  finite n := n.natAbs < 10 ^ 15
  same := (· == ·)
  print15 := stdToString
  print17 := stdToString
  strtod_le {text d used} h := by
    have hle := length_dropSign_le text
    have hdigits := (List.takeWhile_prefix Json.isDigit (l := Json.dropSign [45] text)).length_le
    simp only [integerOf] at h
    split at h
    · cases h
    · next hne =>
      have hpos := List.length_pos_iff.mpr hne
      cases h
      omega

/-- An integer is read back from its text. -/
private theorem integerOf_stdToString (v : Int) :
    integerOf (stdToString v) = some (v, (stdToString v).length) := by
  have hall : ∀ b ∈ decimal v.natAbs, Json.isDigit b = true := fun _ ↦ Signal.isDigit_of_mem_decimal
  have hdigits := List.takeWhile_eq_self_iff.mpr hall
  have hne := Signal.decimal_ne_nil v.natAbs
  unfold stdToString
  split
  · next hneg =>
    have hvalue : signedValue true (decimal v.natAbs) = v := by
      rw [signedValue, if_pos rfl, Signal.digitsValue_decimal]
      omega
    simp only [integerOf, Json.dropSign_minus, hdigits, if_neg hne]
    rw [List.head?_cons, beq_self_eq_true, hvalue, List.length_cons, Nat.add_sub_cancel_left,
      Nat.add_comm]
  · next hpos =>
    have hsign := Json.dropSign_digits hne hall []
    rw [List.append_nil] at hsign
    have hhead : ((decimal v.natAbs).head? == some 45) = false := by
      cases hd : decimal v.natAbs with
      | nil => rfl
      | cons b rest =>
        have hb := hall b (by rw [hd]; exact List.mem_cons_self)
        rw [List.head?_cons, beq_eq_false_iff_ne]
        rintro ⟨⟩
        exact absurd hb (by decide)
    have hvalue : signedValue false (decimal v.natAbs) = v := by
      rw [signedValue, if_neg Bool.false_ne_true, Signal.digitsValue_decimal]
      omega
    simp only [integerOf, hsign, hdigits, if_neg hne, hhead]
    rw [hvalue, Nat.sub_self, Nat.zero_add]

private theorem length_stdToString_lt {v : Int} (h : v.natAbs < 10 ^ 15) :
    (stdToString v).length ≤ 24 := by
  have hdigits : (decimal v.natAbs).length ≤ 15 := by
    rw [decimal, List.length_map]
    exact (Nat.length_toDigits_le_iff (by decide) (by decide)).mpr h
  rw [stdToString]
  split
  · rw [List.length_cons]
    omega
  · omega

instance : LawfulCDouble Int where
  length_print15 h := length_stdToString_lt (of_decide_eq_true h)
  length_print17 h := length_stdToString_lt (of_decide_eq_true h)
  isNumber_print15 _ := Signal.isNumber_stdToString _
  isNumber_print17 _ := Signal.isNumber_stdToString _
  strtod_print15 {d test used} _ h _ := by
    have hread := (integerOf_stdToString d).symm.trans h
    cases hread
    exact ⟨rfl, rfl⟩
  strtod_print17 _ := integerOf_stdToString _

end Kitty.CJson
