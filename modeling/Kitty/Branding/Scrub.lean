import Kitty.Base.Blank
import Kitty.Base.Json

/-!
# The scrubber of the shipped binary

`scrub` of `branding/scrub.py:50–135`. Each pattern is a word and all that follows it up to the next
NUL; its matches are filled with NULs, one pattern after the other, except a match that looks like
the name of a shared library. The guard looks at the match and not at the string it stands in, and
a match may begin anywhere in a string.
-/

namespace Kitty.Branding

open Kitty.Base
open Kitty.Base.Json (isDigit)

/-! ### The patterns -/

/-- The alternatives that a pattern may begin with; `[^\x00]*` follows them. -/
abbrev Pattern := List Spelling

/-- `[0-9]`. -/
def digits : Bytes := lit "0123456789"

/-- `[/\- ]`. -/
def bannerMarks : Bytes := lit "/- "

/-- `FORBIDDEN`. -/
def forbidden : List Pattern :=
  [[wordAnyCase (lit "OpenSSL ") ++ [digits]],
    [wordAnyCase (lit "libcurl") ++ [bannerMarks]],
    [wordAnyCase (lit "Eclipse Paho")],
    [wordAnyCase (lit "libpaho-mqtt-c") ++ [bannerMarks]],
    [wordAnyCase (lit "paho-mqtt-c") ++ [bannerMarks]],
    [wordAnyCase (lit "Mosquitto")],
    [wordAnyCase (lit "libsrt") ++ [bannerMarks]],
    [wordAnyCase (lit "libjuice") ++ [bannerMarks]],
    [wordAnyCase (lit "libevent") ++ [bannerMarks]],
    [wordAnyCase (lit "Augentix")],
    [wordOf (lit "GCC:")],
    [wordOf (lit "SIGNALING_HOST")],
    [wordOf (lit "STUN_HOST"), wordOf (lit "STUN_PORT"), wordOf (lit "STUN_USERNAME"),
      wordOf (lit "STUN_PASSWORD")],
    [wordOf (lit "TURN_HOST"), wordOf (lit "TURN_PORT"), wordOf (lit "TURN_USERNAME"),
      wordOf (lit "TURN_PASSWORD")],
    [wordOf (lit "SERVICE_ID")],
    [wordOf (lit "provider_srt")]]

/-- The pattern matches from the beginning of the text. -/
def Pattern.starts (p : Pattern) (text : Bytes) : Bool := p.any fun w ↦ w.opens text

/-! ### The guard -/

/-- `[A-Za-z0-9_+\.\-]`. -/
def isNameByte (b : UInt8) : Bool :=
  (65 ≤ b && b ≤ 90) || (97 ≤ b && b ≤ 122) || isDigit b || (lit "_+.-").contains b

/-- What follows the point of a version: `[0-9]+(\.[0-9]+)*`, when some digits have been `seen`
`[0-9]*(\.[0-9]+)*`. -/
def versionGroup (seen : Bool) : Bytes → Bool
  | [] => seen
  | b :: rest =>
    if isDigit b then versionGroup true rest else seen && b == 46 && versionGroup false rest

/-- `(\.[0-9]+)*`. -/
def versions : Bytes → Bool
  | [] => true
  | b :: rest => b == 46 && versionGroup false rest

/-- `[A-Za-z0-9_+\.\-]+\.so(\.[0-9]+)*`. -/
def sonameRest : Bytes → Bool
  | [] => false
  | b :: rest =>
    isNameByte b &&
      (((lit ".so").isPrefixOf rest && versions (rest.drop 3)) || sonameRest rest)

/-- `lib[A-Za-z0-9_+\.\-]+\.so(\.[0-9]+)*`. -/
def isSonameText (text : Bytes) : Bool := (lit "lib").isPrefixOf text && sonameRest (text.drop 3)

/-- `_SO_FILENAME.match`; the `$` at its end also stands before a last newline. -/
def isSoname (text : Bytes) : Bool :=
  isSonameText text || (text.getLast? == some LF && isSonameText text.dropLast)

/-! ### The scrubber -/

/-- `scrub`, on the contents of the file. -/
def scrub (data : Bytes) : Bytes := blankAll isSoname (forbidden.map Pattern.starts) data

/-- What patterns leave of a C string. -/
def leftBy (patterns : List Pattern) (text : Bytes) : Bytes :=
  leftOf isSoname (patterns.map Pattern.starts) text

/-- The first match of a pattern in a C string, when the guard does not keep it, begins there. -/
abbrev Pattern.Hits (p : Pattern) (text : Bytes) (k : Nat) : Prop :=
  Kitty.Base.Hits p.starts isSoname text k

/-- The patterns match words of at least four bytes, which are no NULs. -/
private theorem forbidden_words : ∀ p ∈ forbidden, ∀ w ∈ p, 4 ≤ w.length ∧
    (∀ places ∈ w, NUL ∉ places) ∧ Spelling.opens (w.take 4) (lit "lib.") = false := by
  decide

private theorem isSearch_starts {p : Pattern} (hp : p ∈ forbidden) : IsSearch p.starts := by
  constructor
  · intro a b
    unfold Pattern.starts
    rw [Bool.eq_iff_iff, List.any_eq_true, List.any_eq_true]
    refine exists_congr fun w ↦ and_congr_right fun hw ↦ ?_
    rw [Spelling.opens_append_nul (forbidden_words p hp w hw).2.1]
  · rw [Pattern.starts, List.any_eq_false]
    intro w hw h
    have hlen := (forbidden_words p hp w hw).1
    cases w with
    | nil => simp at hlen
    | cons places w => cases h

private theorem isSearch_of_mem : ∀ starts ∈ forbidden.map Pattern.starts, IsSearch starts := by
  intro starts h
  obtain ⟨p, hp, rfl⟩ := List.mem_map.mp h
  exact isSearch_starts hp

/-- The file keeps its size. -/
theorem length_scrub (data : Bytes) : (scrub data).length = data.length := length_blankAll data

/-- The strings of the file are scrubbed by themselves. -/
theorem scrub_append_nul (front back : Bytes) :
    scrub (front ++ NUL :: back) = scrub front ++ NUL :: scrub back :=
  blankAll_append_nul isSearch_of_mem front back

/-- Of a C string a beginning is left, and NULs behind it. -/
theorem scrub_of_nul_not_mem {run : Bytes} (h : NUL ∉ run) : scrub run = leftBy forbidden run ++
    List.replicate (run.length - (leftBy forbidden run).length) NUL :=
  blankAll_eq isSearch_of_mem h

/-- So it is with a C string in the file. -/
theorem scrub_run {before run after : Bytes} (h : IsRun before run after) :
    scrub (before ++ (run ++ after)) = scrub before ++ (leftBy forbidden run ++
      (List.replicate (run.length - (leftBy forbidden run).length) NUL ++ scrub after)) := by
  rw [scrub, blankAll_run isSearch_of_mem h, blankAll_eq isSearch_of_mem h.nul_not_mem,
    List.append_assoc]
  rfl

theorem leftBy_begins (patterns : List Pattern) (run : Bytes) : leftBy patterns run <+: run :=
  leftOf_begins run

/-- Less than `n` bytes are left of a C string when one of the patterns, in what the ones before
have left, has something to blank before the `n`-th byte. -/
theorem length_leftBy_lt_iff {patterns : List Pattern} {run : Bytes} {n : Nat}
    (hn : n ≤ run.length) : (leftBy patterns run).length < n ↔ ∃ earlier p later k,
      patterns = earlier ++ p :: later ∧ p.Hits (leftBy earlier run) k ∧ k < n := by
  rw [leftBy, length_leftOf_lt_iff hn]
  constructor
  · rintro ⟨before, starts, after, k, hsplit, hhit, hk⟩
    obtain ⟨earlier, rest, rfl, rfl, hrest⟩ := List.map_eq_append_iff.mp hsplit
    obtain ⟨p, later, rfl, rfl, rfl⟩ := List.map_eq_cons_iff.mp hrest
    exact ⟨earlier, p, later, k, rfl, hhit, hk⟩
  · rintro ⟨earlier, p, later, k, rfl, hhit, hk⟩
    refine ⟨earlier.map Pattern.starts, p.starts, later.map Pattern.starts, k, ?_, hhit, hk⟩
    rw [List.map_append, List.map_cons]

/-! ### Names of shared libraries -/

private theorem mem_versionGroup {seen : Bool} {text : Bytes} (h : versionGroup seen text = true) :
    ∀ b ∈ text, isDigit b = true ∨ b = 46 := by
  induction text generalizing seen with
  | nil => simp
  | cons b text ih =>
    rw [versionGroup] at h
    split at h
    · next hdigit => exact List.forall_mem_cons.mpr ⟨.inl hdigit, ih h⟩
    · rw [Bool.and_eq_true, Bool.and_eq_true, beq_iff_eq] at h
      exact List.forall_mem_cons.mpr ⟨.inr h.1.2, ih h.2⟩

private theorem mem_versions {text : Bytes} (h : versions text = true) :
    ∀ b ∈ text, isDigit b = true ∨ b = 46 := by
  cases text with
  | nil => simp
  | cons b text =>
    rw [versions, Bool.and_eq_true, beq_iff_eq] at h
    exact List.forall_mem_cons.mpr ⟨.inr h.1, mem_versionGroup h.2⟩

private theorem sonameRest_iff {text : Bytes} : sonameRest text = true ↔
    ∃ name vers, name ≠ [] ∧ (∀ b ∈ name, isNameByte b = true) ∧ versions vers = true ∧
      text = name ++ (lit ".so" ++ vers) := by
  induction text with
  | nil => simp [sonameRest]
  | cons b text ih =>
    rw [sonameRest, Bool.and_eq_true, Bool.or_eq_true, ih, Bool.and_eq_true,
      List.isPrefixOf_iff_prefix]
    constructor
    · rintro ⟨hb, ⟨⟨vers, rfl⟩, hvers⟩ | ⟨name, vers, -, hname, hvers, rfl⟩⟩
      · exact ⟨[b], vers, by simp, by simpa using hb, hvers, rfl⟩
      · exact ⟨b :: name, vers, by simp, List.forall_mem_cons.mpr ⟨hb, hname⟩, hvers, rfl⟩
    · rintro ⟨name, vers, hne, hname, hvers, heq⟩
      cases name with
      | nil => exact absurd rfl hne
      | cons c name =>
        rw [List.cons_append, List.cons.injEq] at heq
        obtain ⟨rfl, rfl⟩ := heq
        rw [List.forall_mem_cons] at hname
        refine ⟨hname.1, ?_⟩
        cases name with
        | nil => exact .inl ⟨⟨vers, rfl⟩, hvers⟩
        | cons d name => exact .inr ⟨d :: name, vers, by simp, hname.2, hvers, rfl⟩

/-- A name of a library: the word, a name, the suffix with versions, and maybe a newline. -/
private theorem isSoname_iff {text : Bytes} : isSoname text = true ↔
    ∃ name vers tail, name ≠ [] ∧ (∀ b ∈ name, isNameByte b = true) ∧ versions vers = true ∧
      (tail = [] ∨ tail = [LF]) ∧
        text = lit "lib" ++ (name ++ (lit ".so" ++ (vers ++ tail))) := by
  have htext : ∀ text, isSonameText text = true ↔
      ∃ name vers, name ≠ [] ∧ (∀ b ∈ name, isNameByte b = true) ∧ versions vers = true ∧
        text = lit "lib" ++ (name ++ (lit ".so" ++ vers)) := by
    intro text
    rw [isSonameText, Bool.and_eq_true, List.isPrefixOf_iff_prefix]
    constructor
    · rintro ⟨⟨rest, rfl⟩, hrest⟩
      obtain ⟨name, vers, hne, hname, hvers, heq⟩ := sonameRest_iff.mp hrest
      exact ⟨name, vers, hne, hname, hvers, congrArg (lit "lib" ++ ·) heq⟩
    · rintro ⟨name, vers, hne, hname, hvers, rfl⟩
      exact ⟨List.prefix_append _ _, sonameRest_iff.mpr ⟨name, vers, hne, hname, hvers, rfl⟩⟩
  rw [isSoname, Bool.or_eq_true, Bool.and_eq_true, beq_iff_eq, htext, htext]
  constructor
  · rintro (⟨name, vers, hne, hname, hvers, rfl⟩ | ⟨hlast, name, vers, hne, hname, hvers, heq⟩)
    · exact ⟨name, vers, [], hne, hname, hvers, .inl rfl, by simp⟩
    · refine ⟨name, vers, [LF], hne, hname, hvers, .inr rfl, ?_⟩
      rw [← List.dropLast_append_getLast? LF hlast, heq]
      simp
  · rintro ⟨name, vers, tail, hne, hname, hvers, rfl | rfl, rfl⟩
    · exact .inl ⟨name, vers, hne, hname, hvers, by simp⟩
    · have hsplit : lit "lib" ++ (name ++ (lit ".so" ++ (vers ++ [LF]))) =
          lit "lib" ++ (name ++ (lit ".so" ++ vers)) ++ [LF] := by simp
      rw [hsplit]
      exact .inr ⟨by simp, name, vers, hne, hname, hvers, by simp⟩

/-- A library's name begins with `lib`, and has the bytes of names and maybe a newline. -/
theorem prefix_of_isSoname {text : Bytes} (h : isSoname text = true) :
    lit "lib" <+: text ∧ ∀ b ∈ text, isNameByte b = true ∨ b = LF := by
  obtain ⟨name, vers, tail, -, hname, hvers, htail, rfl⟩ := isSoname_iff.mp h
  refine ⟨List.prefix_append _ _, ?_⟩
  have hlib : ∀ b ∈ lit "lib", isNameByte b = true := by decide +kernel
  have hso : ∀ b ∈ lit ".so", isNameByte b = true := by decide +kernel
  intro b hb
  rw [List.mem_append, List.mem_append, List.mem_append, List.mem_append] at hb
  rcases hb with hb | hb | hb | hb | hb
  · exact .inl (hlib b hb)
  · exact .inl (hname b hb)
  · exact .inl (hso b hb)
  · left
    rcases mem_versions hvers b hb with hdigit | rfl
    · simp [isNameByte, hdigit]
    · decide
  · rcases htail with rfl | rfl
    · cases hb
    · exact .inr (List.mem_singleton.mp hb)

/-- Behind its name part a library's name has no letters of `lib`. -/
private theorem not_mem_suffix {vers tail : Bytes} (hvers : versions vers = true)
    (htail : tail = [] ∨ tail = [LF]) {b : UInt8} (hb : b ∈ lit "lib") :
    b ∉ lit ".so" ++ (vers ++ tail) := by
  have hletter : b ∉ lit ".so" ∧ isDigit b = false ∧ b ≠ 46 ∧ b ≠ LF := by
    revert b
    decide +kernel
  obtain ⟨hso, hdigit, hdot, hlf⟩ := hletter
  rw [List.mem_append, List.mem_append]
  rintro (h | h | h)
  · exact hso h
  · rcases mem_versions hvers b h with h | h
    · rw [hdigit] at h
      cases h
    · exact hdot h
  · rcases htail with rfl | rfl
    · cases h
    · exact hlf (List.mem_singleton.mp h)

/-- A place where `lib` begins is in the name part, or right before its end. -/
private theorem isSoname_drop {name vers tail : Bytes} {k : Nat}
    (hname : ∀ b ∈ name, isNameByte b = true) (hvers : versions vers = true)
    (htail : tail = [] ∨ tail = [LF])
    (hlib : lit "lib" <+: (lit "lib" ++ (name ++ (lit ".so" ++ (vers ++ tail)))).drop k) :
    isSoname ((lit "lib" ++ (name ++ (lit ".so" ++ (vers ++ tail)))).drop k) = true ∨
      lit "lib." <+: (lit "lib" ++ (name ++ (lit ".so" ++ (vers ++ tail)))).drop k := by
  have hthree : (lit "lib").length = 3 := by decide
  obtain ⟨rest, hrest⟩ := hlib
  have hk : k ≤ name.length := by
    by_contra hlong
    -- the last letter of the word would be in the suffix
    have hlast : (lit "lib").getLast? = some 98 := by decide
    have hget : ((lit "lib" ++ (name ++ (lit ".so" ++ (vers ++ tail)))).drop k)[2]? = some 98 := by
      rw [← hrest, List.getElem?_append_left (by omega)]
      decide
    rw [List.getElem?_drop, List.getElem?_append_right (by omega),
      List.getElem?_append_right (by omega)] at hget
    exact not_mem_suffix hvers htail (by decide) (List.mem_of_getElem? hget)
  have hdrop : (lit "lib" ++ (name ++ (lit ".so" ++ (vers ++ tail)))).drop k =
      lit "lib" ++ (name.drop k ++ (lit ".so" ++ (vers ++ tail))) := by
    rw [← hrest]
    refine congrArg (lit "lib" ++ ·) ?_
    have h := congrArg (List.drop 3) hrest
    rw [List.drop_drop, Nat.add_comm k 3, ← hthree, List.drop_left, ← List.drop_drop,
      List.drop_left, List.drop_append_of_le_length hk] at h
    exact h
  rw [hdrop]
  by_cases hend : k = name.length
  · right
    rw [List.drop_of_length_le (by omega), List.nil_append]
    refine ⟨lit "so" ++ (vers ++ tail), ?_⟩
    rw [show lit "lib." = lit "lib" ++ [46] by decide,
      show lit ".so" = [46] ++ lit "so" by decide]
    simp
  · left
    refine isSoname_iff.mpr ⟨name.drop k, vers, tail, ?_,
      fun b hb ↦ hname b (List.mem_of_mem_drop hb), hvers, htail, rfl⟩
    rw [Ne, List.drop_eq_nil_iff]
    omega

/-- In a library's name the guard keeps the matches that begin with `lib`. -/
private theorem isSoname_drop_iff {run : Bytes} (hrun : isSoname run = true) {p : Pattern}
    (hp : p ∈ forbidden) {k : Nat} (hk : p.starts (run.drop k) = true) :
    isSoname (run.drop k) = true ↔ lit "lib" <+: run.drop k := by
  constructor
  · exact fun h ↦ (prefix_of_isSoname h).1
  · intro h
    obtain ⟨name, vers, tail, -, hname, hvers, htail, rfl⟩ := isSoname_iff.mp hrun
    refine (isSoname_drop hname hvers htail h).resolve_right ?_
    rintro ⟨rest, hrest⟩
    rw [← hrest, Pattern.starts, List.any_eq_true] at hk
    obtain ⟨w, hw, hopens⟩ := hk
    obtain ⟨hlen, -, hno⟩ := forbidden_words p hp w hw
    have hfour : (lit "lib.").length = 4 := by decide
    have htake := Spelling.opens_take (lit "lib.") hopens (hfour ▸ hlen)
    rw [hfour, hno] at htake
    cases htake

/-! ### What becomes of the strings -/

/-- A library's name keeps its bytes, wherever it stands in the file, and the file its size. -/
def KeepsSonames (data : Bytes) : Prop :=
  (scrub data).length = data.length ∧ ∀ before run after, IsRun before run after →
    data = before ++ (run ++ after) → isSoname run = true →
      ((scrub data).drop before.length).take run.length = run

/-- What stands in the scrubbed file from where a string was. -/
private theorem drop_scrub {before run after : Bytes} (h : IsRun before run after) :
    (scrub (before ++ (run ++ after))).drop before.length = leftBy forbidden run ++
      (List.replicate (run.length - (leftBy forbidden run).length) NUL ++ scrub after) := by
  rw [scrub_run h]
  exact List.drop_left' (length_scrub before)

private theorem leftBy_eq_self_iff {run : Bytes} : leftBy forbidden run = run ↔
    ∀ p ∈ forbidden, ∀ k, ¬ p.Hits run k := by
  rw [leftBy, leftOf_eq_self_iff]
  exact List.forall_mem_map

private theorem take_append_nuls {left run : Bytes} (hle : left.length ≤ run.length)
    (after : Bytes) : (left ++ (List.replicate (run.length - left.length) NUL ++ after)).take
      run.length = left ++ List.replicate (run.length - left.length) NUL := by
  rw [← List.append_assoc]
  refine List.take_left' ?_
  rw [List.length_append, List.length_replicate]
  omega

/-- NULs in the place of the rest of a C string make it another one. -/
private theorem append_nuls_eq_iff {left run : Bytes} (hnul : NUL ∉ run) :
    left ++ List.replicate (run.length - left.length) NUL = run ↔ left = run := by
  constructor
  · intro h
    have hnone : run.length - left.length = 0 := by
      by_contra hne
      refine hnul (h ▸ List.mem_append_right _ ?_)
      exact List.mem_replicate.mpr ⟨hne, rfl⟩
    rwa [hnone, List.replicate_zero, List.append_nil] at h
  · intro h
    rw [h, Nat.sub_self, List.replicate_zero, List.append_nil]

/-- A string is whole in the scrubbed file when no pattern has anything to blank in it. -/
private theorem take_drop_scrub_iff {before run after : Bytes} (h : IsRun before run after) :
    ((scrub (before ++ (run ++ after))).drop before.length).take run.length = run ↔
      ∀ p ∈ forbidden, ∀ k, ¬ p.Hits run k := by
  rw [drop_scrub h, take_append_nuls (leftBy_begins forbidden run).length_le,
    append_nuls_eq_iff h.nul_not_mem, leftBy_eq_self_iff]

/-- In a library's name there is nothing to blank when the first match begins with `lib`. -/
private theorem not_hits_iff {run : Bytes} (hrun : isSoname run = true) {p : Pattern}
    (hp : p ∈ forbidden) {k : Nat} :
    ¬ p.Hits run k ↔ (firstStart p.starts run = some k → lit "lib" <+: run.drop k) := by
  constructor
  · intro h hk
    refine (isSoname_drop_iff hrun hp (firstStart_lt hk).2).mp ?_
    by_contra hkeep
    exact h ⟨hk, Bool.eq_false_iff.mpr hkeep⟩
  · rintro h ⟨hk, hkeep⟩
    rw [(isSoname_drop_iff hrun hp (firstStart_lt hk).2).mpr (h hk)] at hkeep
    cases hkeep

/-- The library names that are kept are those in which the first match of each pattern, if it has
one, begins with `lib`. -/
theorem keepsSonames_iff (data : Bytes) : KeepsSonames data ↔
    ∀ before run after, IsRun before run after → data = before ++ (run ++ after) →
      isSoname run = true → ∀ p ∈ forbidden, ∀ k, firstStart p.starts run = some k →
        lit "lib" <+: run.drop k := by
  rw [KeepsSonames, and_iff_right (length_scrub data)]
  refine forall_congr' fun before ↦ forall_congr' fun run ↦ forall_congr' fun after ↦
    forall_congr' fun hrun ↦ forall_congr' fun hdata ↦ forall_congr' fun hsoname ↦ ?_
  rw [hdata, take_drop_scrub_iff hrun]
  exact forall_congr' fun p ↦ forall_congr' fun hp ↦ forall_congr' fun k ↦
    not_hits_iff hsoname hp

/-- The name of the library of Mosquitto does not stay whole. -/
theorem not_keepsSonames_of_mosquitto : ¬ ∀ data, KeepsSonames data := by
  intro h
  have hkept := (h (lit "libmosquitto.so.1" ++ [NUL])).2 [] (lit "libmosquitto.so.1") [NUL]
    ⟨by decide, .inl rfl, .inr ⟨[], rfl⟩⟩ rfl (by decide)
  revert hkept
  decide

/-- Every string of the file that ends with a NUL is read in the scrubbed file as it was, or as
the empty string. -/
def WholeStrings (data : Bytes) : Prop :=
  ∀ before run after, IsRun before run (NUL :: after) → data = before ++ (run ++ NUL :: after) →
    cstr ((scrub data).drop before.length) = run ∨ cstr ((scrub data).drop before.length) = []

/-- A C string in the scrubbed file is read as what the patterns have left of it. -/
private theorem cstr_scrub {before run after : Bytes} (h : IsRun before run (NUL :: after)) :
    cstr ((scrub (before ++ (run ++ NUL :: after))).drop before.length) =
      leftBy forbidden run := by
  have hleft : NUL ∉ leftBy forbidden run := fun hmem ↦
    h.nul_not_mem ((leftBy_begins forbidden run).subset hmem)
  have hnil : scrub [] = [] := List.length_eq_zero_iff.mp (length_scrub [])
  have hafter := scrub_append_nul [] after
  rw [List.nil_append, hnil, List.nil_append] at hafter
  rw [drop_scrub h, hafter]
  cases run.length - (leftBy forbidden run).length with
  | zero => rw [List.replicate_zero, List.nil_append, cstr_append_nul, cstr_of_nul_not_mem hleft]
  | succ n => rw [List.replicate_succ, List.cons_append, cstr_append_nul, cstr_of_nul_not_mem hleft]

/-- Nothing is left of a string when one of the patterns, in what the ones before have left, has
something to blank at the beginning. -/
private theorem leftBy_eq_nil_iff {run : Bytes} (hne : run ≠ []) : leftBy forbidden run = [] ↔
    ∃ earlier p later, forbidden = earlier ++ p :: later ∧ p.Hits (leftBy earlier run) 0 := by
  rw [← List.length_eq_zero_iff, ← Nat.lt_one_iff,
    length_leftBy_lt_iff (List.length_pos_iff.mpr hne)]
  refine exists_congr fun earlier ↦ exists_congr fun p ↦ exists_congr fun later ↦ ?_
  constructor
  · rintro ⟨k, hsplit, hhit, hk⟩
    exact ⟨hsplit, Nat.lt_one_iff.mp hk ▸ hhit⟩
  · rintro ⟨hsplit, hhit⟩
    exact ⟨0, hsplit, hhit, Nat.one_pos⟩

/-- The strings that stay whole or are blanked are those in which no pattern has a match to blank,
or one of them, in what the patterns before it have left, has it at the beginning. -/
theorem wholeStrings_iff (data : Bytes) : WholeStrings data ↔
    ∀ before run after, IsRun before run (NUL :: after) →
      data = before ++ (run ++ NUL :: after) →
        (∀ p ∈ forbidden, ∀ k, ¬ p.Hits run k) ∨
          ∃ earlier p later, forbidden = earlier ++ p :: later ∧ p.Hits (leftBy earlier run) 0 := by
  refine forall_congr' fun before ↦ forall_congr' fun run ↦ forall_congr' fun after ↦
    forall_congr' fun hrun ↦ forall_congr' fun hdata ↦ ?_
  rw [hdata, cstr_scrub hrun, leftBy_eq_self_iff]
  by_cases hne : run = []
  · -- an empty string has nothing to blank
    have hnone : ∀ p ∈ forbidden, ∀ k, ¬ p.Hits run k := by
      rintro p - k ⟨hk, -⟩
      rw [hne] at hk
      cases hk
    exact iff_of_true (.inl hnone) (.inl hnone)
  · rw [leftBy_eq_nil_iff hne]

/-- Of the path of a directory the beginning stays, which names another one. -/
theorem not_wholeStrings_of_path : ¬ ∀ data, WholeStrings data := by
  intro h
  have hkept := h (lit "/opt/Augentix/bin" ++ [NUL]) [] (lit "/opt/Augentix/bin") []
    ⟨by decide, .inl rfl, .inr ⟨[], rfl⟩⟩ rfl
  revert hkept
  decide

end Kitty.Branding
