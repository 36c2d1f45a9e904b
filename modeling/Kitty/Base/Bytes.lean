import Mathlib.Algebra.Group.Int.Defs
import Mathlib.Algebra.Group.Nat.Defs
import Mathlib.Data.List.TakeWhile

/-!
# Byte strings, lines and big-endian words

A byte string is the list of its bytes. `getlines` is the loop
`while (std::getline(stream, line))` over a string held in memory, `readBe32` and
`be32` are `ntohl` and `htonl` read as the number they transport, and `strstr` is
the C substring search returning what stands at the match.
-/

namespace Kitty.Base

/-- A byte string: the contents of a `std::string` or of a C buffer. -/
abbrev Bytes := List UInt8

/-- The bytes of a string literal of the source, in UTF-8. -/
def lit (s : String) : Bytes := s.toUTF8.data.toList

/-- The newline byte that ends a line. -/
def LF : UInt8 := 10

/-- The carriage return. -/
def CR : UInt8 := 13

/-- The byte `=` between a key and its value. -/
def EQ : UInt8 := 61

/-- The byte that ends a C string. -/
def NUL : UInt8 := 0

/-! ### Lines -/

/-- The lines `std::getline` returns one after the other: a newline ends a line, and a
last line without one is returned when it has a byte. -/
def getlines : Bytes → List Bytes
  | [] => []
  | b :: rest =>
    if b = LF then [] :: getlines rest
    else match getlines rest with
      | [] => [[b]]
      | line :: lines => (b :: line) :: lines

/-- Every line followed by its newline. -/
def unlines (lines : List Bytes) : Bytes := lines.flatMap (· ++ [LF])

/-- The empty text has no lines. -/
@[simp] theorem getlines_nil : getlines [] = [] := rfl

/-- A newline ends the line read so far. -/
@[simp] theorem getlines_newline (rest : Bytes) : getlines (LF :: rest) = [] :: getlines rest := by
  simp [getlines]

/-- Text without a newline is read into the line that follows it. -/
theorem getlines_append (p rest : Bytes) (hp : LF ∉ p) (hne : p ≠ []) :
    getlines (p ++ rest) =
      match getlines rest with
      | [] => [p]
      | line :: lines => (p ++ line) :: lines := by
  induction p with
  | nil => exact absurd rfl hne
  | cons b p ih =>
    have hb : b ≠ LF := fun h ↦ hp (by simp [h])
    have hp' : LF ∉ p := fun h ↦ hp (List.mem_cons_of_mem _ h)
    simp only [List.cons_append, getlines, if_neg hb]
    cases p with
    | nil =>
      rw [List.nil_append]
      cases getlines rest <;> rfl
    | cons c p =>
      rw [ih hp' (by simp)]
      cases getlines rest <;> rfl

/-- A terminated line is read back, and the rest is read after it. -/
theorem getlines_line (line rest : Bytes) (hl : LF ∉ line) :
    getlines (line ++ LF :: rest) = line :: getlines rest := by
  by_cases hne : line = []
  · subst hne
    exact getlines_newline rest
  · rw [getlines_append line _ hl hne, getlines_newline]
    simp

/-- Terminated lines are read back in order before the rest. -/
theorem getlines_unlines_append (lines : List Bytes) (rest : Bytes)
    (hl : ∀ line ∈ lines, LF ∉ line) :
    getlines (unlines lines ++ rest) = lines ++ getlines rest := by
  induction lines with
  | nil => rfl
  | cons line lines ih =>
    have ht : ∀ l ∈ lines, LF ∉ l := fun l h ↦ hl l (List.mem_cons_of_mem _ h)
    have he : unlines (line :: lines) ++ rest = line ++ LF :: (unlines lines ++ rest) := by
      simp [unlines]
    rw [he, getlines_line line _ (hl line (by simp)), ih ht, List.cons_append]

/-- A line holds nothing but bytes of the text. -/
theorem mem_of_mem_getlines {text line : Bytes} (h : line ∈ getlines text) : line ⊆ text := by
  induction text generalizing line with
  | nil => simp at h
  | cons b rest ih =>
    rw [getlines] at h
    split at h
    · rcases List.mem_cons.mp h with rfl | h
      · exact List.nil_subset _
      · exact fun c hc ↦ List.mem_cons_of_mem _ (ih h hc)
    · split at h
      · simp only [List.mem_singleton] at h
        rw [h]
        exact fun c hc ↦ by simp_all
      · next first lines hlines =>
        have hfirst : first ⊆ rest := ih (by rw [hlines]; exact List.mem_cons_self ..)
        rcases List.mem_cons.mp h with rfl | h
        · exact List.cons_subset_cons _ hfirst
        · exact fun c hc ↦ List.mem_cons_of_mem _
            (ih (by rw [hlines]; exact List.mem_cons_of_mem _ h) hc)

/-! ### Searching -/

/-- `strstr(hay, needle)`: the text from the first match on. -/
def strstr (needle : Bytes) : Bytes → Option Bytes
  | [] => if needle = [] then some [] else none
  | b :: rest => if needle.isPrefixOf (b :: rest) then some (b :: rest) else strstr needle rest

/-- The first match is at a place where the word stands, or before it. -/
theorem strstr_first {needle pre rest found : Bytes}
    (h : strstr needle (pre ++ (needle ++ rest)) = some found) : needle ++ rest <:+ found := by
  induction pre with
  | nil =>
    rw [List.nil_append] at h
    cases hn : needle ++ rest with
    | nil =>
      rw [hn] at h
      exact List.nil_suffix
    | cons b t =>
      have hp : needle.isPrefixOf (b :: t) = true := by
        rw [← hn]
        exact List.isPrefixOf_iff_prefix.mpr (List.prefix_append _ _)
      rw [hn, strstr, if_pos hp, Option.some.injEq] at h
      exact h ▸ List.suffix_refl _
  | cons b pre ih =>
    rw [List.cons_append, strstr] at h
    split at h
    · rw [← Option.some.inj h]
      exact ⟨b :: pre, rfl⟩
    · exact ih h

/-- So what follows the word there is the end of what follows it at the first match. -/
theorem strstr_drop {needle pre rest found : Bytes}
    (h : strstr needle (pre ++ (needle ++ rest)) = some found) :
    rest <:+ found.drop needle.length := by
  have hsuffix := strstr_first h
  refine List.suffix_of_suffix_length_le ((List.suffix_append _ _).trans hsuffix)
    (List.drop_suffix _ _) ?_
  have := hsuffix.length_le
  rw [List.length_append] at this
  rw [List.length_drop]
  omega

/-! ### C strings -/

/-- What a C program sees of a buffer that is a string to it. -/
def cstr (buffer : Bytes) : Bytes := buffer.takeWhile (· ≠ NUL)

/-- `snprintf(buf, size, ..)` of constant text and `%s` arguments. -/
def snprintf (size : Nat) (parts : List Bytes) : Bytes := (parts.flatMap cstr).take (size - 1)

theorem nul_not_mem_cstr (buffer : Bytes) : NUL ∉ cstr buffer := fun h ↦ by
  simpa using List.mem_takeWhile_imp h

theorem cstr_of_nul_not_mem {buffer : Bytes} (h : NUL ∉ buffer) : cstr buffer = buffer :=
  List.takeWhile_eq_self_iff.mpr fun b hb ↦ by simpa using fun he : b = NUL ↦ h (he ▸ hb)

theorem nul_not_mem_snprintf (size : Nat) (parts : List Bytes) : NUL ∉ snprintf size parts := by
  intro h
  obtain ⟨part, -, hb⟩ := List.mem_flatMap.mp (List.mem_of_mem_take h)
  exact nul_not_mem_cstr part hb

/-- Strings are printed whole. -/
theorem flatMap_cstr {parts : List Bytes} (h : ∀ part ∈ parts, NUL ∉ part) :
    parts.flatMap cstr = parts.flatten := by
  have hmap : parts.map cstr = parts.map id :=
    List.map_congr_left fun part hpart ↦ cstr_of_nul_not_mem (h part hpart)
  rw [List.flatMap_def, hmap, List.map_id]

/-- Strings that fit are printed one after the other. -/
theorem snprintf_eq {size : Nat} {parts : List Bytes} (hnul : ∀ part ∈ parts, NUL ∉ part)
    (hlen : parts.flatten.length < size) : snprintf size parts = parts.flatten := by
  rw [snprintf, flatMap_cstr hnul]
  exact List.take_of_length_le (by omega)

/-! ### Decimal text -/

/-- The decimal digits `std::to_string` and `%d` print for a natural number. -/
def decimal (n : Nat) : Bytes := (Nat.toDigits 10 n).map fun c ↦ UInt8.ofNat c.toNat

/-- `std::to_string` of a signed integer. -/
def stdToString (v : Int) : Bytes :=
  if v < 0 then 45 :: decimal v.natAbs else decimal v.natAbs

/-- No NUL is printed. -/
theorem nul_not_mem_stdToString (v : Int) : NUL ∉ stdToString v := by
  have hdecimal : ∀ n, NUL ∉ decimal n := fun n h ↦ by
    obtain ⟨c, hc, hb⟩ := List.mem_map.mp h
    have hdigit := Nat.isDigit_of_mem_toDigits (by decide) (by decide) hc
    simp only [Char.isDigit, Bool.and_eq_true, decide_eq_true_eq, ge_iff_le] at hdigit
    have hval : c.toNat % 256 = 0 := by
      have := congrArg UInt8.toNat hb
      simpa [NUL] using this
    have h48 : 48 ≤ c.toNat := hdigit.1
    have h57 : c.toNat ≤ 57 := hdigit.2
    omega
  unfold stdToString
  split
  · intro h
    rcases List.mem_cons.mp h with h | h
    · cases h
    · exact hdecimal _ h
  · exact hdecimal _

/-! ### Big-endian words -/

/-- `htonl` as it stands on the wire: four bytes, most significant first. -/
def be32 (n : Nat) : Bytes :=
  [UInt8.ofNat (n / 2 ^ 24), UInt8.ofNat (n / 2 ^ 16), UInt8.ofNat (n / 2 ^ 8), UInt8.ofNat n]

/-- `ntohl` of the four bytes at an offset; a missing byte reads as zero, and callers check
the length first. -/
def readBe32 (data : Bytes) (off : Nat) : Nat :=
  (data.getD off 0).toNat * 2 ^ 24 + (data.getD (off + 1) 0).toNat * 2 ^ 16 +
    (data.getD (off + 2) 0).toNat * 2 ^ 8 + (data.getD (off + 3) 0).toNat

/-- A word takes four bytes. -/
@[simp] theorem length_be32 (n : Nat) : (be32 n).length = 4 := rfl

/-- Reading a word back from where it was written gives its value modulo `2 ^ 32`. -/
theorem readBe32_be32 (pre rest : Bytes) (n : Nat) :
    readBe32 (pre ++ be32 n ++ rest) pre.length = n % 2 ^ 32 := by
  have hget : ∀ k, k < 4 → (pre ++ be32 n ++ rest).getD (pre.length + k) 0 = (be32 n).getD k 0 := by
    intro k hk
    rw [List.append_assoc]
    simp only [List.getD_eq_getElem?_getD]
    rw [List.getElem?_append_right (by omega), Nat.add_sub_cancel_left,
      List.getElem?_append_left (by simpa using hk)]
  have h0 := hget 0 (by omega)
  rw [Nat.add_zero] at h0
  unfold readBe32
  rw [h0, hget 1 (by omega), hget 2 (by omega), hget 3 (by omega)]
  simp only [be32, List.getD_cons_zero, List.getD_cons_succ, UInt8.toNat_ofNat']
  omega

end Kitty.Base
