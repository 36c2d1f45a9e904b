import Kitty.Base.Words
import Kitty.Branding.Scrub

/-!
# The gate of the shipped binary

The scan for forbidden tokens of `branding/verify.sh:36–59`, and the files that pass it once
`branding/scrub.py` has gone over them. The two lists of words are not the same: the gate knows
`GCC:` in either case, and it has no exception for the names of libraries.
-/

namespace Kitty.Branding

open Kitty.Base

/-! ### The scan -/

/-- A byte that `strings` prints. -/
def isGraphic (b : UInt8) : Bool := (32 ≤ b && b ≤ 126) || b == 9

/-- `strings`: the pieces of printable bytes, of at least four. -/
def strings (data : Bytes) : List Bytes :=
  (data.splitOnP (!isGraphic ·)).filter (4 ≤ ·.length)

/-- `grep -E`: the lines in which one of the tokens stands. -/
def grep (tokens : List Spelling) (lines : List Bytes) : List Bytes :=
  lines.filter fun line ↦ tokens.any (·.occurs line)

/-- `FORBIDDEN_I`. -/
def forbiddenI : List Spelling :=
  [wordAnyCase (lit "OpenSSL ") ++ [digits], wordAnyCase (lit "libcurl/"),
    wordAnyCase (lit "libcurl-"), wordAnyCase (lit "Eclipse Paho"),
    wordAnyCase (lit "libpaho-mqtt-c/"), wordAnyCase (lit "libpaho-mqtt-c-"),
    wordAnyCase (lit "paho-mqtt-c/"), wordAnyCase (lit "Mosquitto"), wordAnyCase (lit "libsrt/"),
    wordAnyCase (lit "libsrt v"), wordAnyCase (lit "libjuice/"), wordAnyCase (lit "libjuice-"),
    wordAnyCase (lit "libevent/"), wordAnyCase (lit "libevent-"), wordAnyCase (lit "Augentix"),
    wordAnyCase (lit "GCC:")]

/-- `FORBIDDEN_C`. -/
def forbiddenC : List Spelling :=
  [wordOf (lit "SIGNALING_HOST"), wordOf (lit "STUN_HOST"), wordOf (lit "STUN_PORT"),
    wordOf (lit "STUN_USERNAME"), wordOf (lit "STUN_PASSWORD"), wordOf (lit "TURN_HOST"),
    wordOf (lit "TURN_PORT"), wordOf (lit "TURN_USERNAME"), wordOf (lit "TURN_PASSWORD"),
    wordOf (lit "SERVICE_ID"), wordOf (lit "provider_srt")]

/-- `LEAKS`. -/
def leaks (data : Bytes) : List Bytes :=
  grep forbiddenI (strings data) ++ grep forbiddenC (strings data)

/-- Tokens are of at least four bytes, which are printable. -/
private theorem tokens_graphic : ∀ w ∈ forbiddenI ++ forbiddenC, 4 ≤ w.length ∧
    ∀ places ∈ w, ∀ b ∈ places, isGraphic b = true := by
  have hall : ∀ w ∈ forbiddenI ++ forbiddenC, 4 ≤ w.length ∧
      ∀ places ∈ w, places.all isGraphic = true := by
    decide +kernel
  exact fun w hw ↦ ⟨(hall w hw).1, fun places hp ↦ List.all_eq_true.mp ((hall w hw).2 places hp)⟩

private theorem grep_append (first second : List Spelling) (lines : List Bytes) :
    grep first lines ++ grep second lines = [] ↔ grep (first ++ second) lines = [] := by
  simp only [grep, List.append_eq_nil_iff, List.filter_eq_nil_iff, List.any_append, Bool.or_eq_true,
    not_or, forall_and]

/-- A file has no leaks when none of the tokens stands in it. -/
theorem leaks_eq_nil_iff (data : Bytes) :
    leaks data = [] ↔ ∀ w ∈ forbiddenI ++ forbiddenC, w.occurs data = false := by
  rw [leaks, grep_append, grep, List.filter_eq_nil_iff]
  constructor
  · intro h w hw
    obtain ⟨hlen, hgraphic⟩ := tokens_graphic w hw
    have hsep : ∀ places ∈ w, ∀ b ∈ places, (!isGraphic b) = false := by
      intro places hp b hb
      rw [hgraphic places hp b hb, Bool.not_true]
    rw [Bool.eq_false_iff, Ne, Spelling.occurs_splitOnP_iff hsep]
    rintro ⟨piece, hpiece, hocc⟩
    refine h piece (List.mem_filter.mpr ⟨hpiece, ?_⟩) (List.any_eq_true.mpr ⟨w, hw, hocc⟩)
    exact decide_eq_true (hlen.trans (Spelling.length_le_of_occurs hocc))
  · intro h piece hpiece hany
    obtain ⟨w, hw, hocc⟩ := List.any_eq_true.mp hany
    have hpart := infix_of_mem_splitOnP (List.mem_filter.mp hpiece).1
    have hdata := Spelling.occurs_of_infix hpart hocc
    rw [h w hw] at hdata
    cases hdata

/-! ### The scrubbed file -/

/-- A token stands in the scrubbed file when it stands in what is left of a string. -/
theorem occurs_scrub_iff {w : Spelling} (hw : w ∈ forbiddenI ++ forbiddenC) (data : Bytes) :
    w.occurs (scrub data) = true ↔
      ∃ run ∈ data.splitOn NUL, w.occurs (leftBy forbidden run) = true := by
  have hsep : ∀ places ∈ w, ∀ b ∈ places, (b == NUL) = false := by
    intro places hp b hb
    have h := (tokens_graphic w hw).2 places hp b hb
    rw [beq_eq_false_iff_ne]
    rintro rfl
    cases h
  have hne : w ≠ [] := by
    rintro rfl
    exact absurd (tokens_graphic [] hw).1 (by decide)
  have hrun : ∀ run, NUL ∉ run →
      (w.occurs (scrub run) = true ↔ w.occurs (leftBy forbidden run) = true) := by
    intro run hnul
    rw [scrub_of_nul_not_mem hnul, Spelling.occurs_append_replicate_iff hsep hne rfl]
  induction data using splitOnP_induction (p := (· == NUL)) with
  | single run hnone =>
    have hnul : NUL ∉ run := fun hmem ↦ by simpa using hnone NUL hmem
    rw [hrun run hnul, List.splitOn_eq_singleton hnul]
    simp
  | divide run sep rest hnone heq ih =>
    have hnul : NUL ∉ run := fun hmem ↦ by simpa using hnone NUL hmem
    obtain rfl : sep = NUL := beq_iff_eq.mp heq
    rw [scrub_append_nul, Spelling.occurs_append_cons_iff hsep rfl, hrun run hnul,
      List.splitOn_append_cons_self_of_not_mem hnul, List.exists_mem_cons_iff]
    exact or_congr_right ih

/-- A token is left of a string when the patterns blank nothing before its end. -/
theorem occurs_leftBy_iff {w : Spelling} (hne : w ≠ []) (run : Bytes) :
    w.occurs (leftBy forbidden run) = true ↔ ∃ j, w.opens (run.drop j) = true ∧
      ¬ ∃ earlier p later k, forbidden = earlier ++ p :: later ∧ p.Hits (leftBy earlier run) k ∧
        k < j + w.length := by
  rw [Spelling.occurs_iff]
  refine exists_congr fun j ↦ ?_
  rw [Spelling.opens_drop_prefix_iff hne (leftBy_begins forbidden run)]
  refine and_congr_right fun hopens ↦ ?_
  have hlen := Spelling.length_le_of_opens hopens
  have hpos : 0 < w.length := List.length_pos_iff.mpr hne
  rw [List.length_drop] at hlen
  rw [← length_leftBy_lt_iff (by omega), Nat.not_lt]

/-! ### The tokens that the patterns know -/

/-- The tokens that the patterns of the scrubber let through: the name of a library may have the
first three, and the patterns know the last one in capitals only. -/
def loose : List Spelling :=
  [wordAnyCase (lit "libcurl-"), wordAnyCase (lit "libjuice-"), wordAnyCase (lit "libevent-"),
    wordAnyCase (lit "GCC:")]

/-- Every other token, maybe without its first three places, is a word of a pattern; and the guard keeps no
match with it, for it has a byte that no library's name has, or the pattern is not for words that
begin with `lib`. -/
private theorem tokens_known : ∀ w ∈ forbiddenI ++ forbiddenC, w ∈ loose ∨
    ∃ i ∈ [0, 3], ∃ p ∈ forbidden, (∃ v ∈ p, Spelling.Refines (w.drop i) v) ∧
      ((∃ places ∈ w.drop i, (places.any fun b ↦ isNameByte b || b == LF) = false) ∨
        ∀ v ∈ p, 3 ≤ v.length ∧ Spelling.opens (v.take 3) (lit "lib") = false) := by
  decide +kernel

/-- Such a token does not stay. -/
private theorem hits_of_known {w : Spelling} (hw : w ∈ forbiddenI ++ forbiddenC)
    (hknown : w ∉ loose) {run : Bytes} {j : Nat} (hopens : w.opens (run.drop j) = true) :
    ∃ earlier p later k, forbidden = earlier ++ p :: later ∧ p.Hits (leftBy earlier run) k ∧
      k < j + w.length := by
  obtain ⟨i, hi, p, hp, ⟨v, hv, hrefines⟩, hguard⟩ := (tokens_known w hw).resolve_left hknown
  have hi : i < w.length := by
    have hlen := (tokens_graphic w hw).1
    simp only [List.mem_cons, List.not_mem_nil, or_false] at hi
    omega
  obtain ⟨earlier, later, hsplit⟩ := List.append_of_mem hp
  have hne : w ≠ [] := List.ne_nil_of_length_pos (by omega)
  have hlen := Spelling.length_le_of_opens hopens
  rw [List.length_drop] at hlen
  by_contra hnone
  -- the patterns before it have left the token as it was
  have hroom : j + w.length ≤ (leftBy earlier run).length := by
    by_contra hshort
    obtain ⟨first, q, second, k, hearlier, hhit, hk⟩ :=
      (length_leftBy_lt_iff (by omega)).mp (Nat.not_le.mp hshort)
    refine hnone ⟨first, q, second ++ p :: later, k, ?_, hhit, hk⟩
    rw [hsplit, hearlier, List.append_assoc, List.cons_append]
  have hopens :=
    (Spelling.opens_drop_prefix_iff hne (leftBy_begins earlier run)).mpr ⟨hopens, hroom⟩
  have hrest := Spelling.opens_drop hopens i
  rw [List.drop_drop] at hrest
  have hstarts : p.starts ((leftBy earlier run).drop (j + i)) = true :=
    List.any_eq_true.mpr ⟨v, hv, hrefines.opens hrest⟩
  obtain ⟨k, hk, hfirst⟩ := exists_firstStart_le (by omega) hstarts
  have hkeep : isSoname ((leftBy earlier run).drop k) = true := by
    by_contra hcut
    exact hnone ⟨earlier, p, later, k, hsplit, ⟨hfirst, Bool.eq_false_iff.mpr hcut⟩, by omega⟩
  obtain ⟨hlib, hbytes⟩ := prefix_of_isSoname hkeep
  rcases hguard with ⟨places, hplaces, hbad⟩ | hstart
  · obtain ⟨b, hb, hin⟩ := Spelling.exists_mem_of_opens hrest hplaces
    have hb : b ∈ (leftBy earlier run).drop k := by
      rw [show j + i = k + (j + i - k) by omega, ← List.drop_drop] at hb
      exact List.mem_of_mem_drop hb
    refine List.any_eq_false.mp hbad b hin ?_
    rw [Bool.or_eq_true, beq_iff_eq]
    exact hbytes b hb
  · obtain ⟨u, hu, hopens⟩ := List.any_eq_true.mp (firstStart_lt hfirst).2
    obtain ⟨rest, hlib⟩ := hlib
    rw [← hlib] at hopens
    have hthree : (lit "lib").length = 3 := by decide +kernel
    have htake := Spelling.opens_take (lit "lib") hopens (hthree ▸ (hstart u hu).1)
    rw [hthree, (hstart u hu).2] at htake
    cases htake

private theorem loose_subset : ∀ w ∈ loose, w ∈ forbiddenI ++ forbiddenC := by
  decide +kernel

/-- The file passes when in its strings every loose token is cut by a pattern that has something to
blank before the token's end. -/
theorem leaks_scrub_iff (data : Bytes) : leaks (scrub data) = [] ↔
    ∀ run ∈ data.splitOn NUL, ∀ w ∈ loose, ∀ j, w.opens (run.drop j) = true →
      ∃ earlier p later k, forbidden = earlier ++ p :: later ∧ p.Hits (leftBy earlier run) k ∧
        k < j + w.length := by
  have hne : ∀ w ∈ forbiddenI ++ forbiddenC, w ≠ [] := fun w hw ↦
    List.ne_nil_of_length_pos (Nat.lt_of_lt_of_le (by decide) (tokens_graphic w hw).1)
  rw [leaks_eq_nil_iff]
  constructor
  · intro h run hrun w hloose j hopens
    have hw := loose_subset w hloose
    by_contra hstays
    have hocc := (occurs_scrub_iff hw data).mpr
      ⟨run, hrun, (occurs_leftBy_iff (hne w hw) run).mpr ⟨j, hopens, hstays⟩⟩
    rw [h w hw] at hocc
    cases hocc
  · intro h w hw
    rw [Bool.eq_false_iff, Ne, occurs_scrub_iff hw]
    rintro ⟨run, hrun, hocc⟩
    obtain ⟨j, hopens, hstays⟩ := (occurs_leftBy_iff (hne w hw) run).mp hocc
    by_cases hloose : w ∈ loose
    · exact hstays (h run hrun w hloose j hopens)
    · exact hstays (hits_of_known hw hloose hopens)

/-- The gate finds its token in the name of a library, which the guard of the scrubber keeps. -/
theorem leaks_scrub_ne_nil_of_soname : ¬ ∀ data, leaks (scrub data) = [] := by
  intro h
  have hleaks := h (lit "libcurl-gnutls.so.4" ++ [NUL])
  revert hleaks
  decide +kernel

end Kitty.Branding
