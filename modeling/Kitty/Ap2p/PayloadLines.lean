import Kitty.Ap2p.Rejection
import Kitty.Base.Trim

/-!
# Lines of a payload

A payload is read line by line, and a line is a key and a value with white space around them and
perhaps a comment at its end; `src/ap2p/config.c:71–81, 104–136`.
-/

namespace Kitty.Ap2p

open Kitty.Base
open Kitty.Signal (isSpace isDigit)

/-! ### Terminators -/

/-- The first line of a payload, then the others. -/
theorem payloadWrites_eq {payload : Bytes} (h : payload ≠ []) :
    payloadWrites payload = (lineWrite ((payload.takeWhile (!endsLine ·)).take 1023)).toList ++
      payloadWrites ((payload.dropWhile (!endsLine ·)).dropWhile endsLine) := by
  obtain ⟨n, hn⟩ : ∃ n, payload.length = n + 1 :=
    ⟨payload.length - 1, by have := List.length_pos_iff.mpr h; omega⟩
  have hrest : ((payload.dropWhile (!endsLine ·)).dropWhile endsLine).length ≤ n := by
    cases payload with
    | nil => contradiction
    | cons b payload =>
      have hlen := length_rest_lt b payload
      rw [List.length_cons] at hn
      omega
  rw [payloadWrites, hn, confLines, if_neg h, List.filterMap_cons, payloadWrites,
    ← confLines_of_length_le n _ hrest]
  cases lineWrite ((payload.takeWhile (!endsLine ·)).take 1023) <;> rfl

private theorem lineWrite_of_space {line : Bytes} (h : ∀ b ∈ line, isSpace b = true) :
    lineWrite line = none := by
  have htrim : trim (cstr line) = [] := trimBy_of_all fun b hb ↦
    h b ((List.takeWhile_prefix _).subset ((List.takeWhile_prefix _).subset hb))
  rw [lineWrite, lineEntry, htrim]
  rfl

/-- Whatever the number of rounds, if they are enough, the loop sees every line that is not empty
once, in the order of the payload. -/
theorem filter_confLines {rounds : Nat} {payload : Bytes} (h : payload.length ≤ rounds) :
    (confLines rounds payload).filter (!·.isEmpty) =
      (pieces endsLine payload).map (·.take 1023) := by
  induction rounds generalizing payload with
  | zero =>
    rw [List.length_eq_zero_iff.mp (Nat.le_zero.mp h)]
    rfl
  | succ rounds ih =>
    cases payload with
    | nil => rfl
    | cons b payload =>
      have hrest := length_rest_lt b payload
      rw [List.length_cons] at h
      rw [confLines, if_neg (List.cons_ne_nil b payload), List.filter_cons,
        ih (hrest.trans (Nat.le_of_succ_le_succ h)), pieces_eq endsLine (b :: payload)]
      cases (b :: payload).takeWhile (!endsLine ·) <;> rfl

/-- The writes of a payload are those of its lines. -/
theorem payloadWrites_pieces (payload : Bytes) :
    payloadWrites payload = ((pieces endsLine payload).map (·.take 1023)).filterMap lineWrite := by
  rw [payloadWrites, ← filter_confLines le_rfl, List.filterMap_filter]
  apply List.filterMap_congr
  intro line _
  cases line with
  | nil => rfl
  | cons b line => rfl

/-- A terminator ends what is before it. -/
theorem payloadWrites_append {t : UInt8} (ht : endsLine t = true) (payload rest : Bytes) :
    payloadWrites (payload ++ t :: rest) = payloadWrites payload ++ payloadWrites rest := by
  rw [payloadWrites_pieces, pieces_append_cons ht, List.map_append, List.filterMap_append,
    ← payloadWrites_pieces, ← payloadWrites_pieces]

/-- Of a line, as much is read as fits. -/
theorem payloadWrites_take {line : Bytes} (hline : ∀ b ∈ line, endsLine b = false) :
    payloadWrites line = (lineWrite (line.take 1023)).toList := by
  rw [payloadWrites_pieces, pieces_of_all hline]
  cases line with
  | nil => rfl
  | cons b line =>
    rw [if_neg (by simp), List.map_singleton, List.filterMap_cons]
    cases lineWrite ((b :: line).take 1023) <;> rfl

/-- A line that fits is read in one piece. -/
theorem payloadWrites_line {line : Bytes} (hline : ∀ b ∈ line, endsLine b = false)
    (h : line.length ≤ 1023) : payloadWrites line = (lineWrite line).toList := by
  rw [payloadWrites_take hline, List.take_of_length_le h]

/-- Nothing is taken from white space. -/
theorem payloadWrites_of_space {payload : Bytes} (h : ∀ b ∈ payload, isSpace b = true) :
    payloadWrites payload = [] := by
  induction hn : payload.length using Nat.strongRecOn generalizing payload with
  | ind n ih =>
    cases payload with
    | nil => rfl
    | cons b payload =>
      rw [List.length_cons] at hn
      have hline : ∀ b' ∈ ((b :: payload).takeWhile (!endsLine ·)).take 1023, isSpace b' = true :=
        fun b' hb' ↦ h b' ((List.takeWhile_prefix _).subset (List.mem_of_mem_take hb'))
      have hrest : ∀ b' ∈ ((b :: payload).dropWhile (!endsLine ·)).dropWhile endsLine,
          isSpace b' = true :=
        fun b' hb' ↦ h b' ((List.dropWhile_suffix _).subset ((List.dropWhile_suffix _).subset hb'))
      have hlen := length_rest_lt b payload
      rw [payloadWrites_eq (List.cons_ne_nil b payload), lineWrite_of_space hline,
        ih _ (by omega) hrest rfl]
      rfl

/-! ### Keys and values -/

/-- The part of a text before the first `#`. -/
def beforeHash (s : Bytes) : Bytes := s.takeWhile (· ≠ 35)

theorem trim_eq (s : Bytes) : trim s = trimBy isSpace (beforeHash s) := rfl

theorem beforeHash_of_not_mem {s : Bytes} (h : 35 ∉ s) : beforeHash s = s :=
  List.takeWhile_eq_self_iff.mpr fun b hb ↦ decide_eq_true fun heq : b = 35 ↦ h (heq ▸ hb)

theorem not_mem_beforeHash (s : Bytes) : 35 ∉ beforeHash s := not_mem_takeWhile_ne 35 s

theorem beforeHash_append {s : Bytes} (h : 35 ∉ s) (t : Bytes) :
    beforeHash (s ++ t) = s ++ beforeHash t :=
  List.takeWhile_append_of_pos fun b hb ↦ decide_eq_true fun heq : b = 35 ↦ h (heq ▸ hb)

/-- What is read of a line: the bytes before its first NUL, without the comment. -/
def lineText (line : Bytes) : Bytes := beforeHash (cstr line)

/-- The key a line names. -/
def keyOf (text : Bytes) : Bytes := trimBy isSpace (text.takeWhile (· ≠ EQ))

/-- The value a line gives. -/
def valueOf (text : Bytes) : Bytes := trimBy isSpace ((text.dropWhile (· ≠ EQ)).drop 1)

/-- The loop takes a key and a value from each line with a `=`: trimming the line first takes
nothing from them. -/
theorem lineEntry_eq (line : Bytes) :
    lineEntry line =
      if EQ ∈ lineText line then some (keyOf (lineText line), valueOf (lineText line))
      else none := by
  have hash : 35 ∉ lineText line := not_mem_beforeHash (cstr line)
  have htrim : trim (cstr line) = trimBy isSpace (lineText line) := rfl
  unfold lineEntry
  rw [htrim]
  dsimp only
  generalize lineText line = text at hash
  by_cases hmem : EQ ∈ text
  · rw [if_pos hmem]
    obtain ⟨value, htext⟩ := exists_append_cons hmem
    have hkey : EQ ∉ text.takeWhile (· ≠ EQ) := not_mem_takeWhile_ne EQ text
    have hvalue : valueOf text = trimBy isSpace value := by
      rw [valueOf, htext, dropWhile_ne_append_cons hkey, List.drop_one, List.tail_cons]
    rw [keyOf, hvalue]
    generalize text.takeWhile (· ≠ EQ) = key at htext hkey
    subst htext
    have hkey' : EQ ∉ key.dropWhile isSpace := fun h ↦ hkey ((List.dropWhile_suffix _).subset h)
    have hhash : 35 ∉ key.dropWhile isSpace := fun h ↦
      hash (List.mem_append_left _ ((List.dropWhile_suffix _).subset h))
    have hhash' : 35 ∉ value.rdropWhile isSpace := fun h ↦
      hash (List.mem_append_right _
        (List.mem_cons_of_mem _ ((List.rdropWhile_prefix _ _).subset h)))
    rw [trimBy_append_cons (by decide), if_neg (by simp), dropWhile_ne_append_cons hkey',
      takeWhile_ne_append_cons hkey']
    dsimp only
    rw [trim_eq, trim_eq, beforeHash_of_not_mem hhash, beforeHash_of_not_mem hhash',
      trimBy_dropWhile, trimBy_rdropWhile]
  · have hmem' : EQ ∉ trimBy isSpace text := fun h ↦
      hmem ((List.dropWhile_suffix _).subset ((List.rdropWhile_prefix _ _).subset h))
    have hdrop : (trimBy isSpace text).dropWhile (· ≠ EQ) = [] :=
      List.dropWhile_eq_nil_iff.mpr fun b hb ↦
        decide_eq_true fun heq : b = EQ ↦ hmem' (heq ▸ hb)
    rw [if_neg hmem, hdrop]
    exact ite_self none

/-- What follows a NUL does not matter. -/
theorem lineWrite_cstr (line : Bytes) : lineWrite (cstr line) = lineWrite line := by
  rw [lineWrite, lineEntry, cstr_of_nul_not_mem (nul_not_mem_cstr line)]
  rfl

/-- A key and a value with white space around them. -/
theorem lineEntry_key {x key y value : Bytes} (hx : ∀ b ∈ x, isSpace b = true)
    (hy : ∀ b ∈ y, isSpace b = true) (hkey : ∀ b ∈ key, isSpace b = false ∧ b ≠ EQ ∧ b ≠ 35)
    (hnul : NUL ∉ x ++ (key ++ y) ++ EQ :: value) :
    lineEntry (x ++ (key ++ y) ++ EQ :: value) = some (key, trim value) := by
  have hspace : ∀ {b}, isSpace b = true → b ≠ EQ ∧ b ≠ 35 := by
    intro b hb
    constructor <;> rintro rfl <;> contradiction
  have hhead : ∀ b ∈ x ++ (key ++ y), b ≠ EQ ∧ b ≠ 35 := by
    intro b hb
    obtain hb | hb := List.mem_append.mp hb
    · exact hspace (hx b hb)
    obtain hb | hb := List.mem_append.mp hb
    · exact (hkey b hb).2
    · exact hspace (hy b hb)
  have heq : EQ ∉ x ++ (key ++ y) := fun h ↦ (hhead _ h).1 rfl
  have htext : lineText (x ++ (key ++ y) ++ EQ :: value) =
      x ++ (key ++ y) ++ EQ :: beforeHash value := by
    rw [lineText, cstr_of_nul_not_mem hnul, beforeHash_append fun h ↦ (hhead _ h).2 rfl]
    exact congrArg (_ ++ ·) (List.takeWhile_cons_of_pos (by decide))
  rw [lineEntry_eq, htext, if_pos (by simp), keyOf, valueOf, takeWhile_ne_append_cons heq,
    dropWhile_ne_append_cons heq, trimBy_append_left hx, trimBy_word hy fun b hb ↦ (hkey b hb).1,
    List.drop_one, List.tail_cons, trim_eq]

/-! ### Numbers -/

private theorem isDigit_of_isSpace {b : UInt8} (h : isSpace b = true) : isDigit b = false := by
  simp only [isSpace, Bool.or_eq_true, Bool.and_eq_true, decide_eq_true_eq, beq_iff_eq,
    UInt8.le_iff_toNat_le, ← UInt8.toNat_inj, UInt8.reduceToNat] at h
  simp only [isDigit, Bool.and_eq_false_iff, decide_eq_false_iff_not, UInt8.le_iff_toNat_le,
    UInt8.reduceToNat]
  omega

private theorem atoi_append_space {text after : Bytes} (h : ∀ b ∈ after, isSpace b = true) :
    atoi (text ++ after) = atoi text := by
  apply atoi_append
  · intro b hb
    exact isDigit_of_isSpace (h b (List.mem_of_head? hb))
  · intro b hb
    rw [List.dropWhile_eq_nil_iff.mpr h] at hb
    contradiction

/-- A number reads the same when the text around it is skipped. -/
theorem atoi_trimBy {p : UInt8 → Bool} (hp : ∀ b, p b = true → isSpace b = true) (text : Bytes) :
    atoi (trimBy p text) = atoi text := by
  obtain ⟨x, y, htext, hx, hy⟩ := exists_trimBy p text
  calc atoi (trimBy p text)
      _ = atoi (trimBy p text ++ y) := (atoi_append_space fun b hb ↦ hp b (hy b hb)).symm
      _ = atoi (x ++ (trimBy p text ++ y)) := by
        rw [← atoi_dropWhile (x ++ _), List.dropWhile_append_of_pos fun b hb ↦ hp b (hx b hb),
          atoi_dropWhile]
      _ = atoi text := by rw [← htext]

/-- A number ends before a `#`. -/
theorem atoi_beforeHash (text : Bytes) : atoi (beforeHash text) = atoi text := by
  by_cases hmem : 35 ∈ text
  · obtain ⟨rest, htext⟩ := exists_append_cons hmem
    calc atoi (beforeHash text)
        _ = atoi (beforeHash text ++ 35 :: rest) := (atoi_append_cons (by decide) _ _).symm
        _ = atoi text := by rw [beforeHash, ← htext]
  · rw [beforeHash_of_not_mem hmem]

/-- The C string in an array that a text was copied to. -/
theorem cstr_strncpy {v : Bytes} (hnul : NUL ∉ v) (size : Nat) :
    cstr (CharArray.strncpy size v).bytes = v.take (size - 1) := by
  have htake : ∀ b ∈ v.take (size - 1), decide (b ≠ NUL) = true :=
    fun b hb ↦ decide_eq_true fun heq ↦ hnul (heq ▸ List.mem_of_mem_take hb)
  rw [CharArray.strncpy, cstr, List.takeWhile_append_of_pos htake]
  generalize size - (v.take (size - 1)).length = n
  cases n with
  | zero => simp
  | succ n => simp [List.replicate_succ]

end Kitty.Ap2p
