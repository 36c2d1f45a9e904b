import Kitty.Base.Bytes
import Mathlib.Data.List.TakeWhile

/-!
# Numbers in messages

`std::stoi` on the values that `handle_client` of
`src/signaling-server/signaling_server.cpp:1443,1449,1570,1637,1926` takes from a message:
leading white space and a sign, then decimal digits; whatever follows them is ignored. A
text without digits, or with a number no `int` holds, makes it throw.
-/

namespace Kitty.Signal

open Kitty.Base

/-- The exceptions `std::stoi` throws. -/
inductive StdException where
  | invalidArgument
  | outOfRange
deriving DecidableEq

/-- `isspace` in the C locale. -/
def isSpace (b : UInt8) : Bool := b == 32 || (9 ≤ b && b ≤ 13)

/-- `isdigit`. -/
def isDigit (b : UInt8) : Bool := 48 ≤ b && b ≤ 57

/-- The number a string of digits stands for. -/
def digitsValue (digits : Bytes) : Nat := digits.foldl (fun n d ↦ n * 10 + (d.toNat - 48)) 0

/-- The number with its sign. -/
def signedValue (negative : Bool) (digits : Bytes) : Int :=
  if negative then -(digitsValue digits : Int) else digitsValue digits

/-- The number fits an `int`. -/
def InIntRange (v : Int) : Prop := -2 ^ 31 ≤ v ∧ v < 2 ^ 31

instance (v : Int) : Decidable (InIntRange v) := inferInstanceAs (Decidable (_ ∧ _))

/-- A sign, if there is one, and what follows it. -/
def splitSign : Bytes → Bool × Bytes
  | 45 :: rest => (true, rest)
  | 43 :: rest => (false, rest)
  | rest => (false, rest)

/-- `std::stoi(text)`. -/
def stoi (text : Bytes) : Except StdException Int :=
  let (negative, rest) := splitSign (text.dropWhile isSpace)
  let digits := rest.takeWhile isDigit
  if digits = [] then .error .invalidArgument
  else if InIntRange (signedValue negative digits) then .ok (signedValue negative digits)
  else .error .outOfRange

/-- A text that begins as a decimal number does: white space, a sign, digits. -/
structure BeginsNumber (text : Bytes) (negative : Bool) (digits : Bytes) : Prop where
  nonempty : digits ≠ []
  digit : ∀ b ∈ digits, isDigit b = true
  split : ∃ space sign rest, text = space ++ (sign ++ (digits ++ rest)) ∧
    (∀ b ∈ space, isSpace b = true) ∧
    (negative = true ∧ sign = [45] ∨ negative = false ∧ (sign = [] ∨ sign = [43])) ∧
    ∀ b ∈ rest.head?, isDigit b = false

/-- The number a text begins with, when an `int` holds it. -/
def IntText (text : Bytes) (v : Int) : Prop :=
  ∃ negative digits, BeginsNumber text negative digits ∧
    v = signedValue negative digits ∧ InIntRange v

private theorem isSpace_of_digit {b : UInt8} (h : isDigit b = true) : isSpace b = false := by
  simp only [isDigit, Bool.and_eq_true, decide_eq_true_eq, UInt8.le_iff_toNat_le] at h
  have h48 := h.1
  change 48 ≤ b.toNat at h48
  simp only [isSpace, Bool.or_eq_false_iff, Bool.and_eq_false_iff, beq_eq_false_iff_ne, ne_eq,
    decide_eq_false_iff_not, UInt8.le_iff_toNat_le]
  refine ⟨?_, .inr ?_⟩
  · intro hb
    rw [hb] at h48
    exact absurd h48 (by decide)
  · change ¬ b.toNat ≤ 13
    omega

private theorem takeWhile_run {p : UInt8 → Bool} {run rest : Bytes} (h : ∀ b ∈ run, p b = true)
    (hr : ∀ b ∈ rest.head?, p b = false) : (run ++ rest).takeWhile p = run := by
  rw [List.takeWhile_append_of_pos h]
  cases rest with
  | nil => simp
  | cons b rest => simp [hr b rfl]

private theorem dropWhile_run {p : UInt8 → Bool} {run rest : Bytes} (h : ∀ b ∈ run, p b = true)
    (hr : ∀ b ∈ rest.head?, p b = false) : (run ++ rest).dropWhile p = rest := by
  rw [List.dropWhile_append_of_pos h]
  cases rest with
  | nil => rfl
  | cons b rest => simp [hr b rfl]

private theorem takeWhile_head? (p : UInt8 → Bool) (text : Bytes) :
    ∀ b ∈ (text.dropWhile p).head?, p b = false := by
  intro b hb
  have := List.head?_dropWhile_not p text
  rw [Option.mem_def.mp hb] at this
  simpa using this

/-- The sign is read back, and so is what follows it. -/
private theorem splitSign_eq {negative : Bool} {sign rest : Bytes}
    (h : negative = true ∧ sign = [45] ∨ negative = false ∧ (sign = [] ∨ sign = [43]))
    (hr : ∀ b ∈ rest.head?, isDigit b = true) : splitSign (sign ++ rest) = (negative, rest) := by
  rcases h with ⟨rfl, rfl⟩ | ⟨rfl, rfl | rfl⟩
  · rfl
  · cases rest with
    | nil => rfl
    | cons b rest =>
      have hb := hr b rfl
      simp only [List.nil_append]
      unfold splitSign
      split
      · next heq =>
        cases heq
        exact absurd hb (by decide)
      · next heq =>
        cases heq
        exact absurd hb (by decide)
      · rfl
  · rfl

private theorem splitSign_split (text : Bytes) : ∃ sign, text = sign ++ (splitSign text).2 ∧
    ((splitSign text).1 = true ∧ sign = [45] ∨
      (splitSign text).1 = false ∧ (sign = [] ∨ sign = [43])) := by
  unfold splitSign
  split
  · exact ⟨[45], rfl, .inl ⟨rfl, rfl⟩⟩
  · exact ⟨[43], rfl, .inr ⟨rfl, .inr rfl⟩⟩
  · exact ⟨[], rfl, .inr ⟨rfl, .inl rfl⟩⟩

/-- `std::stoi` returns exactly the numbers that begin a text and fit an `int`. -/
theorem stoi_eq_ok_iff (text : Bytes) (v : Int) : stoi text = .ok v ↔ IntText text v := by
  constructor
  · intro h
    obtain ⟨sign, hsplit, hsign⟩ := splitSign_split (text.dropWhile isSpace)
    unfold stoi at h
    generalize splitSign (text.dropWhile isSpace) = s at h hsplit hsign
    obtain ⟨negative, rest⟩ := s
    dsimp only at h hsplit hsign
    split at h
    · cases h
    · next hne =>
      split at h
      · next hrange =>
        rw [← Except.ok.inj h]
        refine ⟨negative, rest.takeWhile isDigit, ⟨hne, fun b hb ↦ List.mem_takeWhile_imp hb,
          text.takeWhile isSpace, sign, rest.dropWhile isDigit, ?_,
          fun b hb ↦ List.mem_takeWhile_imp hb, hsign, takeWhile_head? isDigit rest⟩, rfl, hrange⟩
        rw [List.takeWhile_append_dropWhile, ← hsplit, List.takeWhile_append_dropWhile]
      · cases h
  · rintro ⟨negative, digits, ⟨hne, hd, space, sign, rest, rfl, hsp, hsign, hrest⟩, rfl, hrange⟩
    obtain ⟨d, ds, rfl⟩ := List.exists_cons_of_ne_nil hne
    have hdig : isDigit d = true := hd d (List.mem_cons_self ..)
    have hhead : ∀ b ∈ (sign ++ (d :: ds ++ rest)).head?, isSpace b = false := by
      intro b hb
      rcases hsign with ⟨-, rfl⟩ | ⟨-, rfl | rfl⟩
      · cases hb
        decide
      · cases hb
        exact isSpace_of_digit hdig
      · cases hb
        decide
    have hsplit : splitSign (sign ++ (d :: ds ++ rest)) = (negative, d :: ds ++ rest) :=
      splitSign_eq hsign fun b hb ↦ by
        cases hb
        exact hdig
    unfold stoi
    rw [dropWhile_run hsp hhead, hsplit]
    dsimp only
    rw [takeWhile_run hd hrest, if_neg hne, if_pos hrange]

/-- A text that begins with a number no `int` holds, or with none, makes `std::stoi` throw. -/
theorem stoi_isOk_iff (text : Bytes) : (stoi text).toBool = true ↔ ∃ v, IntText text v := by
  constructor
  · intro h
    cases hs : stoi text with
    | error e =>
      rw [hs] at h
      cases h
    | ok v => exact ⟨v, (stoi_eq_ok_iff text v).mp hs⟩
  · rintro ⟨v, hv⟩
    rw [(stoi_eq_ok_iff text v).mpr hv]
    rfl

instance (text : Bytes) : Decidable (∃ v, IntText text v) :=
  decidable_of_iff _ (stoi_isOk_iff text)

/-! ### Numbers read back -/

private theorem toNat_of_mem_toDigits {n : Nat} {c : Char} (hc : c ∈ Nat.toDigits 10 n) :
    48 ≤ c.toNat ∧ c.toNat ≤ 57 := by
  have hdigit := Nat.isDigit_of_mem_toDigits (by decide) (by decide) hc
  simp only [Char.isDigit, Bool.and_eq_true, decide_eq_true_eq, ge_iff_le] at hdigit
  exact ⟨hdigit.1, hdigit.2⟩

/-- The decimal text of a number has digits only. -/
theorem isDigit_of_mem_decimal {n : Nat} {b : UInt8} (hb : b ∈ decimal n) : isDigit b = true := by
  obtain ⟨c, hc, rfl⟩ := List.mem_map.mp hb
  obtain ⟨h48, h57⟩ := toNat_of_mem_toDigits hc
  simp only [isDigit, Bool.and_eq_true, decide_eq_true_eq, UInt8.le_iff_toNat_le,
    UInt8.toNat_ofNat']
  change 48 ≤ c.toNat % 256 ∧ c.toNat % 256 ≤ 57
  omega

theorem decimal_ne_nil (n : Nat) : decimal n ≠ [] := fun h ↦
  Nat.toDigits_ne_nil (List.map_eq_nil_iff.mp h)

/-- The decimal text of a number below `10 ^ k` has at most `k` digits. -/
theorem length_stdToString_le {n k : Nat} (hk : 0 < k) (h : n < 10 ^ k) :
    (stdToString n).length ≤ k := by
  rw [stdToString, if_neg (by omega), Int.natAbs_natCast, decimal, List.length_map]
  exact (Nat.length_toDigits_le_iff (by decide) hk).mpr h

/-- An `int` is printed with at most ten digits and a sign. -/
theorem length_stdToString_of_int {v : Int} (h : InIntRange v) : (stdToString v).length ≤ 11 := by
  have hdigits : (decimal v.natAbs).length ≤ 10 := by
    have hlt : v.natAbs < 10 ^ 10 := by
      have h1 := h.1
      have h2 := h.2
      omega
    rw [decimal, List.length_map]
    exact (Nat.length_toDigits_le_iff (by decide) (by decide)).mpr hlt
  rw [stdToString]
  split
  · rw [List.length_cons]
    omega
  · omega

/-- No newline is printed. -/
theorem lf_not_mem_stdToString (v : Int) : LF ∉ stdToString v := by
  have hdecimal : LF ∉ decimal v.natAbs := fun h ↦ absurd (isDigit_of_mem_decimal h) (by decide)
  rw [stdToString]
  split
  · rw [List.mem_cons]
    rintro (h | h)
    · cases h
    · exact hdecimal h
  · exact hdecimal

/-- The digits of a number stand for it. -/
theorem digitsValue_decimal (n : Nat) : digitsValue (decimal n) = n := by
  have hfold : ∀ (cs : List Char) (init : Nat), (∀ c ∈ cs, 48 ≤ c.toNat ∧ c.toNat ≤ 57) →
      (cs.map fun c ↦ UInt8.ofNat c.toNat).foldl (fun n d ↦ n * 10 + (d.toNat - 48)) init =
        Nat.ofDigitChars 10 cs init := by
    intro cs
    induction cs with
    | nil => exact fun init _ ↦ Nat.ofDigitChars_nil.symm
    | cons c cs ih =>
      intro init hcs
      have hc := hcs c (List.mem_cons_self ..)
      have hstep : init * 10 + ((UInt8.ofNat c.toNat).toNat - 48) = 10 * init + (c.toNat - 48) := by
        rw [UInt8.toNat_ofNat']
        omega
      rw [List.map_cons, List.foldl_cons, hstep, ih _ fun d hd ↦ hcs d (List.mem_cons_of_mem _ hd),
        Nat.ofDigitChars_cons]
      rfl
  rw [digitsValue, decimal, hfold _ 0 fun c hc ↦ toNat_of_mem_toDigits hc,
    Nat.ofDigitChars_ten_toDigits]

private theorem beginsNumber_decimal (n : Nat) {negative : Bool} {sign : Bytes}
    (h : negative = true ∧ sign = [45] ∨ negative = false ∧ (sign = [] ∨ sign = [43])) :
    BeginsNumber (sign ++ decimal n) negative (decimal n) where
  nonempty := decimal_ne_nil n
  digit _ hb := isDigit_of_mem_decimal hb
  split := ⟨[], sign, [], by simp, by simp, h, by simp⟩

/-- Nothing stands before the digits, and they all are read. -/
theorem read_decimal (n : Nat) : splitSign ((decimal n).dropWhile isSpace) = (false, decimal n) ∧
    (decimal n).takeWhile isDigit = decimal n := by
  have hall : ∀ b ∈ decimal n, isDigit b = true := fun _ ↦ isDigit_of_mem_decimal
  have hhead : ∀ b ∈ (decimal n).head?, isDigit b = true := fun b hb ↦
    hall b (List.mem_of_mem_head? hb)
  have hspace : (decimal n).dropWhile isSpace = decimal n := by
    have hrun := dropWhile_run (show ∀ b ∈ ([] : Bytes), isSpace b = true by simp)
      fun b hb ↦ isSpace_of_digit (hhead b hb)
    rwa [List.nil_append] at hrun
  refine ⟨?_, List.takeWhile_eq_self_iff.mpr hall⟩
  rw [hspace]
  exact splitSign_eq (.inr ⟨rfl, .inl rfl⟩) hhead

/-- `std::stoi` reads back the `int` that was printed. -/
theorem stoi_stdToString_of_int {v : Int} (h : InIntRange v) : stoi (stdToString v) = .ok v := by
  rw [stoi_eq_ok_iff, stdToString]
  split
  · next hneg =>
    refine ⟨true, decimal v.natAbs, beginsNumber_decimal _ (.inl ⟨rfl, rfl⟩), ?_, h⟩
    rw [signedValue, if_pos rfl, digitsValue_decimal]
    omega
  · next hpos =>
    refine ⟨false, decimal v.natAbs, beginsNumber_decimal _ (.inr ⟨rfl, .inl rfl⟩), ?_, h⟩
    rw [signedValue, if_neg Bool.false_ne_true, digitsValue_decimal]
    omega

end Kitty.Signal
