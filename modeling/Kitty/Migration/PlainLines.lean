import Kitty.Ap2p.PayloadLines
import Kitty.Migration.Translation

/-!
# Plain lines

Version 1, the cut-over script and version 2 each read lines in their own way. What version 2 makes
of a translated line is what version 1 made of the line when it is plain;
`src/provider-srt/provider_srt.c:134–166` and `src/ap2p/config.c:71–136`.
-/

namespace Kitty.Migration

open Kitty.Base
open Kitty.Ap2p
open Kitty.Signal (isSpace)

/-- The value of a field: of a `char` array, the C string in it. -/
def value (f : Field) (cfg : Ap2pConfig) : FieldValue :=
  match f.held cfg with
  | .str bytes => .str (cstr bytes)
  | .int v => .int v

/-- The sizes of the arrays for the text of a field in version 1 and in version 2. -/
def textSizes : Field → Option (Nat × Nat)
  | .nodeId => some (256, 64)
  | .ctrlHost => some (128, 128)
  | .ctrlPort => none
  | .ctrlScheme => some (8, 8)
  | .ctrlToken => some (128, 128)
  | .edgeHost => some (128, 128)
  | .edgePort => none
  | .relayHost => some (128, 128)
  | .relayPort => none
  | .relayUser => some (128, 64)
  | .relayPass => some (128, 64)
  | .srcHost => some (128, 64)
  | .srcPort => none
  | .srcPath => some (512, 256)
  | .srcAuth => some (256, 128)
  | .latencyMs => none
  | .verbose => none

/-- The key is written in capital letters, after nothing but white space and before nothing but
spaces and tabs. One that is renamed stands alone before the `=`. -/
def PlainKey (f : Field) (head : Bytes) : Prop :=
  trimBy isBlank (head.dropWhile isStripped) = oldName f ∧
    (oldName f = newName f ∨ head = oldName f)

/-- The part of a value that version 1 reads: as much as fits its buffer behind the key. -/
def oldPart (head value : Bytes) : Bytes := value.take (254 - head.length)

/-- The part that version 2 reads: up to the first carriage return, as far as that fits behind the
new key. -/
def newPart (head value : Bytes) : Bytes :=
  let key := (renamed head).rtakeWhile (· ≠ CR)
  (value.takeWhile (· ≠ CR)).take (1022 - key.length)

/-- What version 1 takes from its part. -/
def oldText (head value : Bytes) : Bytes := strip (cstr (oldPart head value))

/-- What version 2 takes from its part. -/
def newText (head value : Bytes) : Bytes := trim (cstr (newPart head value))

/-- A number is the same in both parts of the value. A text does not begin with a byte that only
version 2 skips, and as much of it is kept in either array. -/
def PlainValue (f : Field) (head value : Bytes) : Prop :=
  match textSizes f with
  | none => atoi (oldPart head value) = atoi (newPart head value)
  | some sizes => (∀ b ∈ (oldText head value).head?, isSpace b = false) ∧
      min (sizes.1 - 1) (oldText head value).length = min (sizes.2 - 1) (newText head value).length

/-- What stands before the first `=` of a line. -/
def lineKey (line : Bytes) : Bytes := line.takeWhile (· ≠ EQ)

/-- What stands behind it. -/
def lineValue (line : Bytes) : Bytes := (line.dropWhile (· ≠ EQ)).drop 1

/-- The first `=` of the line is in the buffer of version 1 and the key before it is plain. What
version 1 reads after its buffer is full and what version 2 reads after a carriage return say
nothing more of the field. -/
def ReadTogether (f : Field) (line : Bytes) : Prop :=
  EQ ∈ line ∧ (lineKey line).length ≤ 254 ∧ PlainKey f (lineKey line) ∧
    (∀ w ∈ fileWrites (line.drop 255), w.1 ≠ oldKey f) ∧
    ∀ w ∈ payloadWrites ((lineValue line).dropWhile (· ≠ CR)), w.1 ≠ f

/-- Both programs take the field from the same place of the line, and a plain value. -/
def PlainLine (f : Field) (line : Bytes) : Prop :=
  ReadTogether f line ∧ PlainValue f (lineKey line) (lineValue line)

instance (f : Field) (head : Bytes) : Decidable (PlainKey f head) :=
  inferInstanceAs (Decidable (_ ∧ _))

instance (f : Field) (head value : Bytes) : Decidable (PlainValue f head value) :=
  match h : textSizes f with
  | none => decidable_of_iff (atoi (oldPart head value) = atoi (newPart head value)) (by
      rw [PlainValue, h])
  | some sizes =>
    haveI := Option.decidableForallMem (p := fun b ↦ isSpace b = false) (oldText head value).head?
    decidable_of_iff ((∀ b ∈ (oldText head value).head?, isSpace b = false) ∧
      min (sizes.1 - 1) (oldText head value).length =
        min (sizes.2 - 1) (newText head value).length) (by rw [PlainValue, h])

instance (f : Field) (line : Bytes) : Decidable (ReadTogether f line) :=
  inferInstanceAs (Decidable (_ ∧ _ ∧ _ ∧ _ ∧ _))

instance (f : Field) (line : Bytes) : Decidable (PlainLine f line) :=
  inferInstanceAs (Decidable (_ ∧ _))

/-! ### What is taken from a line -/

/-- What version 1 skips, version 2 skips too. -/
theorem isSpace_of_isStripped {b : UInt8} (h : isStripped b = true) : isSpace b = true := by
  simp only [isStripped, Bool.or_eq_true, beq_iff_eq] at h
  obtain ((rfl | rfl) | rfl) | rfl := h <;> rfl

private theorem isStripped_of_isBlank {b : UInt8} (h : isBlank b = true) :
    isStripped b = true ∧ b ≠ EQ ∧ b ≠ 35 ∧ endsLine b = false := by
  simp only [isBlank, Bool.or_eq_true, beq_iff_eq] at h
  obtain rfl | rfl := h <;> decide

/-- What version 1 takes from a line whose key has blanks around it. -/
theorem configWrite_plain {f : Field} {x y value : Bytes} (hx : ∀ b ∈ x, isStripped b = true)
    (hy : ∀ b ∈ y, isBlank b = true) (hnul : NUL ∉ x ++ (oldName f ++ y) ++ EQ :: value) :
    configWrite (x ++ (oldName f ++ y) ++ EQ :: value) = some (oldKey f, strip value) := by
  obtain ⟨⟨hne, -⟩, -, hword, -, hfind, -⟩ := names f
  have hname : ∀ b ∈ oldName f, isStripped b = false :=
    fun b hb ↦ (isKeyByte_facts (hword b hb)).2.1
  have hkey : EQ ∉ oldName f ++ y := by
    intro hmem
    obtain hmem | hmem := List.mem_append.mp hmem
    · exact (isKeyByte_facts (hword _ hmem)).2.2.2.1 rfl
    · exact (isStripped_of_isBlank (hy _ hmem)).2.1 rfl
  have hp : strip (x ++ (oldName f ++ y) ++ EQ :: value) =
      oldName f ++ y ++ EQ :: value.rdropWhile isStripped := by
    rw [strip, trimBy_append_cons (by decide),
      dropWhile_word hne hx hname]
  have hfirst : (oldName f ++ y ++ EQ :: value.rdropWhile isStripped).head? ∉
      [none, some 35, some 59, some 91] := by
    cases hold : oldName f with
    | nil => contradiction
    | cons c name =>
      have hc := isKeyByte_facts (hword c (hold ▸ List.mem_cons_self))
      simp [hc.2.2.2.2.2.1, hc.2.2.2.2.2.2.1, hc.2.2.2.2.2.2.2]
  have hentry : configEntry (x ++ (oldName f ++ y) ++ EQ :: value) =
      some (oldName f, strip value) := by
    unfold configEntry
    rw [cstr_of_nul_not_mem hnul, hp]
    dsimp only
    rw [if_neg hfirst, dropWhile_ne_append_cons hkey, takeWhile_ne_append_cons hkey]
    dsimp only
    rw [strip, trimBy_word (fun b hb ↦ (isStripped_of_isBlank (hy b hb)).1) hname, strip,
      trimBy_rdropWhile, strip]
  rw [configWrite, hentry]
  dsimp only [Option.bind_some]
  rw [hfind]
  rfl

/-- What version 2 takes from a line whose key has blanks around it. -/
theorem lineWrite_plain {f : Field} {x y value : Bytes} (hx : ∀ b ∈ x, isStripped b = true)
    (hy : ∀ b ∈ y, isBlank b = true) (hnul : NUL ∉ x ++ (newName f ++ y) ++ EQ :: value) :
    lineWrite (x ++ (newName f ++ y) ++ EQ :: value) = some (f, trim value) := by
  obtain ⟨⟨-, hne⟩, -, -, hword, -, hfind⟩ := names f
  have hkey : ∀ b ∈ newName f, isSpace b = false ∧ b ≠ EQ ∧ b ≠ 35 := fun b hb ↦
    have hb := isKeyByte_facts (hword b hb)
    ⟨hb.1, hb.2.2.2.1, hb.2.2.2.2.2.1⟩
  rw [lineWrite, lineEntry_key (fun b hb ↦ isSpace_of_isStripped (hx b hb))
    (fun b hb ↦ isSpace_of_isStripped (isStripped_of_isBlank (hy b hb)).1) hkey hnul]
  dsimp only [Option.bind_some]
  rw [hfind]
  rfl

/-- A plain key between blanks becomes the new name between them. -/
theorem PlainKey.renamed {f : Field} {head : Bytes} (h : PlainKey f head) :
    ∃ x y, head = x ++ (oldName f ++ y) ∧ renamed head = x ++ (newName f ++ y) ∧
      (∀ b ∈ x, isStripped b = true) ∧ ∀ b ∈ y, isBlank b = true := by
  obtain ⟨htrim, hsame⟩ := h
  obtain ⟨x, y, hsplit, hx, hy⟩ := exists_trimBy isBlank (head.dropWhile isStripped)
  rw [htrim] at hsplit
  have hhead : head = head.takeWhile isStripped ++ x ++ (oldName f ++ y) := by
    rw [List.append_assoc, ← hsplit, List.takeWhile_append_dropWhile]
  have hskip : ∀ b ∈ head.takeWhile isStripped ++ x, isStripped b = true := by
    intro b hb
    obtain hb | hb := List.mem_append.mp hb
    · exact List.mem_takeWhile_imp hb
    · exact (isStripped_of_isBlank (hx b hb)).1
  obtain hsame | hold := hsame
  · refine ⟨_, y, hhead, ?_, hskip, hy⟩
    -- The names that are replaced are not those of fields that keep theirs.
    have hrules : ∀ rule ∈ sedRules, trimBy isBlank (rule.1.dropWhile isStripped) ≠ oldName f := by
      cases f <;> first | decide +kernel | exact absurd hsame (by decide +kernel)
    rw [renamed_of_not_mem fun rule hrule heq ↦ hrules rule hrule (heq ▸ htrim), ← hsame]
    exact hhead
  · refine ⟨[], [], by simpa using hold, ?_, by simp, by simp⟩
    rw [hold, renamed_oldName, List.nil_append, List.append_nil]

private theorem cstr_line {head : Bytes} (hnul : NUL ∉ head) (value : Bytes) :
    cstr (head ++ EQ :: value) = head ++ EQ :: cstr value := by
  have hall : ∀ b ∈ head, decide (b ≠ NUL) = true := fun b hb ↦
    decide_eq_true fun heq : b = NUL ↦ hnul (heq ▸ hb)
  rw [cstr, List.takeWhile_append_of_pos hall, List.takeWhile_cons_of_pos (by decide), cstr]

private theorem nul_not_mem_line {head : Bytes} (hnul : NUL ∉ head) (value : Bytes) :
    NUL ∉ head ++ EQ :: cstr value := by
  intro h
  obtain h | h := List.mem_append.mp h
  · exact hnul h
  · obtain h | h := List.mem_cons.mp h
    · contradiction
    · exact nul_not_mem_cstr value h

private theorem nul_not_mem_key {name x y : Bytes} (hname : ∀ b ∈ name, isKeyByte b = true)
    (hx : ∀ b ∈ x, isStripped b = true) (hy : ∀ b ∈ y, isBlank b = true) :
    NUL ∉ x ++ (name ++ y) := by
  intro h
  simp only [List.mem_append] at h
  obtain h | h | h := h
  · exact absurd (hx _ h) (by decide)
  · exact absurd (hname _ h) (by decide)
  · exact absurd (hy _ h) (by decide)

/-- Behind a plain key, version 1 reads as much as fits its buffer. -/
theorem configWrite_take {f : Field} {head : Bytes} (hkey : PlainKey f head)
    (hlength : head.length ≤ 254) (value : Bytes) :
    configWrite ((head ++ EQ :: value).take 255) = some (oldKey f, oldText head value) := by
  have htake : (head ++ EQ :: value).take 255 = head ++ EQ :: value.take (254 - head.length) := by
    obtain ⟨n, hn⟩ : ∃ n, 254 = head.length + n := ⟨254 - head.length, by omega⟩
    rw [List.take_append, List.take_of_length_le (by omega), hn, Nat.add_sub_cancel_left]
    rw [show 255 - head.length = n + 1 by omega, List.take_succ_cons]
  obtain ⟨x, y, hhead, -, hx, hy⟩ := hkey.renamed
  have hnul : NUL ∉ head := hhead ▸ nul_not_mem_key (names f).2.2.1 hx hy
  rw [htake, ← configWrite_cstr, cstr_line hnul, oldText, oldPart]
  have hline := nul_not_mem_line hnul (value.take (254 - head.length))
  rw [hhead] at hline ⊢
  exact configWrite_plain hx hy hline

private theorem payloadWrites_append_left {x rest : Bytes} (hx : ∀ b ∈ x, isSpace b = true)
    (hlast : ∀ b ∈ x.getLast?, endsLine b = true) :
    payloadWrites (x ++ rest) = payloadWrites rest := by
  obtain rfl | ⟨x, b, rfl⟩ := List.eq_nil_or_concat' x
  · rfl
  · rw [List.append_assoc, List.singleton_append, payloadWrites_append (hlast b (by simp)),
      payloadWrites_of_space fun b' hb' ↦ hx b' (List.mem_append_left _ hb'), List.nil_append]

private theorem payloadWrites_append_right {line rest : Bytes}
    (hrest : ∀ b ∈ rest.head?, endsLine b = true) :
    payloadWrites (line ++ rest) = payloadWrites line ++ payloadWrites rest := by
  cases rest with
  | nil =>
    rw [List.append_nil]
    exact (List.append_nil _).symm
  | cons b rest =>
    have hb := hrest b rfl
    have hskip : payloadWrites (b :: rest) = payloadWrites rest := payloadWrites_append hb [] rest
    rw [payloadWrites_append hb, hskip]

private theorem endsLine_eq_false {b : UInt8} (hlf : b ≠ LF) (hcr : b ≠ CR) :
    endsLine b = false := by
  rw [endsLine, beq_false_of_ne hlf, beq_false_of_ne hcr, Bool.or_false]

/-- A piece of a translated line with the new name in it, up to its carriage return. -/
private theorem payloadWrites_piece {f : Field} {x y value : Bytes}
    (hx : ∀ b ∈ x, isStripped b = true) (hy : ∀ b ∈ y, isBlank b = true)
    (hends : ∀ b ∈ x ++ (newName f ++ y) ++ EQ :: value, endsLine b = false)
    (hlength : (x ++ (newName f ++ y)).length ≤ 1022) :
    payloadWrites (x ++ (newName f ++ y) ++ EQ :: value) =
      [(f, trim (cstr (value.take (1022 - (x ++ (newName f ++ y)).length))))] := by
  have hnul := nul_not_mem_key (names f).2.2.2.1 hx hy
  rw [payloadWrites_take hends, List.take_append, List.take_of_length_le (by omega)]
  obtain ⟨n, hn⟩ : ∃ n, 1022 - (x ++ (newName f ++ y)).length = n := ⟨_, rfl⟩
  rw [hn, show 1023 - (x ++ (newName f ++ y)).length = n + 1 by omega, List.take_succ_cons,
    ← lineWrite_cstr, cstr_line hnul, lineWrite_plain hx hy (nul_not_mem_line hnul _)]
  rfl

private theorem endsLine_newName {f : Field} {y : Bytes} (hy : ∀ b ∈ y, isBlank b = true) :
    ∀ b ∈ newName f ++ y, endsLine b = false := by
  intro b hb
  obtain hb | hb := List.mem_append.mp hb
  · exact (isKeyByte_facts ((names f).2.2.2.1 b hb)).2.2.1
  · exact (isStripped_of_isBlank (hy b hb)).2.2.2

/-- Behind a plain key, version 2 reads up to the first carriage return, and then the rest. -/
theorem payloadWrites_sedLine {f : Field} {head v : Bytes} (hkey : PlainKey f head)
    (heq : EQ ∉ head) (hlength : head.length ≤ 254) (hlf : LF ∉ head ++ EQ :: v) :
    payloadWrites (sedLine (head ++ EQ :: v)) =
      (f, newText head v) :: payloadWrites (v.dropWhile (· ≠ CR)) := by
  obtain ⟨x, y, hhead, hnew, hx, hy⟩ := hkey.renamed
  have hname : ∀ b ∈ newName f ++ y, endsLine b = false := endsLine_newName hy
  -- The white space up to the last carriage return is in lines of its own.
  have hpiece : (renamed head).rtakeWhile (· ≠ CR) =
      x.rtakeWhile (· ≠ CR) ++ (newName f ++ y) := by
    rw [hnew]
    refine rtakeWhile_append fun b hb ↦ decide_eq_true fun heq : b = CR ↦ ?_
    exact absurd (hname b hb) (by simp [heq, endsLine])
  have hlines : x.rdropWhile (· ≠ CR) ++ x.rtakeWhile (· ≠ CR) = x :=
    List.rdropWhile_append_rtakeWhile
  have hlast : ∀ b ∈ (x.rdropWhile (· ≠ CR)).getLast?, endsLine b = true := by
    intro b hb
    rw [eq_of_getLast?_rdropWhile_ne hb]
    rfl
  have hcrPiece : ∀ b ∈ x.rtakeWhile (· ≠ CR), b ≠ CR := fun b hb ↦ by
    simpa using List.mem_rtakeWhile_imp hb
  generalize x.rdropWhile (· ≠ CR) = lines at *
  generalize x.rtakeWhile (· ≠ CR) = piece at *
  subst hlines
  have hxLines : ∀ b ∈ lines, isSpace b = true := fun b hb ↦
    isSpace_of_isStripped (hx b (List.mem_append_left _ hb))
  have hxPiece : ∀ b ∈ piece, isStripped b = true := fun b hb ↦
    hx b (List.mem_append_right _ hb)
  have hends : ∀ b ∈ piece ++ (newName f ++ y) ++ EQ :: v.takeWhile (· ≠ CR),
      endsLine b = false := by
    intro b hb
    rw [List.mem_append, List.mem_append, List.mem_cons] at hb
    obtain (hb | hb) | rfl | hb := hb
    · refine endsLine_eq_false (fun heq ↦ hlf ?_) (hcrPiece b hb)
      rw [hhead, ← heq]
      simp [hb]
    · exact hname b hb
    · rfl
    · refine endsLine_eq_false (fun heq ↦ hlf ?_) fun heq ↦ not_mem_takeWhile_ne CR v (heq ▸ hb)
      exact List.mem_append_right _ (List.mem_cons_of_mem _
        ((List.takeWhile_prefix _).subset (heq ▸ hb)))
  have hfits : (piece ++ (newName f ++ y)).length ≤ 1022 := by
    have hshort := (names f).2.1
    rw [hhead] at hlength
    simp only [List.length_append] at hlength ⊢
    omega
  have hrest : ∀ b ∈ (v.dropWhile (· ≠ CR)).head?, endsLine b = true := by
    intro b hb
    obtain ⟨rest, hrest⟩ := List.head?_eq_some_iff.mp hb
    rw [eq_of_dropWhile_ne hrest]
    rfl
  calc payloadWrites (sedLine (head ++ EQ :: v))
      _ = payloadWrites (lines ++ (piece ++ (newName f ++ y) ++ EQ :: v)) := by
        rw [sedLine_key heq, hnew]
        simp only [List.append_assoc]
      _ = payloadWrites (piece ++ (newName f ++ y) ++ EQ :: v.takeWhile (· ≠ CR) ++
          v.dropWhile (· ≠ CR)) := by
        rw [payloadWrites_append_left hxLines hlast, List.append_assoc _ (EQ :: _),
          List.cons_append, List.takeWhile_append_dropWhile]
      _ = (f, newText head v) :: payloadWrites (v.dropWhile (· ≠ CR)) := by
        rw [payloadWrites_append_right hrest, payloadWrites_piece hxPiece hy hends hfits, newText,
          newPart, hpiece]
        rfl

private theorem line_eq {line : Bytes} (h : EQ ∈ line) :
    lineKey line ++ EQ :: lineValue line = line := by
  obtain ⟨v, hline⟩ := exists_append_cons h
  have hkey : EQ ∉ line.takeWhile (· ≠ EQ) := not_mem_takeWhile_ne EQ line
  have hvalue : lineValue line = v := by
    rw [lineValue, hline, dropWhile_ne_append_cons hkey]
    rfl
  rw [hvalue, lineKey, ← hline]

/-- From a line that is read together, either program takes the field last from the value behind
the first `=`. -/
theorem taken_together {f : Field} {line : Bytes} (h : ReadTogether f line) (hlf : LF ∉ line) :
    lastWrite (oldKey f) (fileWrites line) = some (oldText (lineKey line) (lineValue line)) ∧
      lastWrite f (payloadWrites (sedLine line)) =
        some (newText (lineKey line) (lineValue line)) := by
  obtain ⟨heq, hlength, hkey, hold, hnew⟩ := h
  have hhead : EQ ∉ lineKey line := not_mem_takeWhile_ne EQ line
  have hline := line_eq heq
  generalize lineKey line = head at *
  generalize lineValue line = v at *
  subst hline
  constructor
  · rw [fileWrites_take hlf, configWrite_take hkey hlength, lastWrite_append,
      lastWrite_eq_none hold]
    simp [lastWrite]
  · rw [payloadWrites_sedLine hkey hhead hlength hlf, lastWrite, lastWrite_eq_none hnew]
    simp

/-! ### Values -/

private theorem atoi_cstr (v : Bytes) : atoi (cstr v) = atoi v := by
  by_cases hmem : NUL ∈ v
  · obtain ⟨rest, hsplit⟩ := exists_append_cons hmem
    calc atoi (cstr v)
        _ = atoi (cstr v ++ NUL :: rest) := (atoi_append_cons (by decide) _ _).symm
        _ = atoi v := by rw [cstr, ← hsplit]
  · rw [cstr_of_nul_not_mem hmem]

/-- The number that version 1 takes is the one in its part. -/
theorem atoi_oldText (head v : Bytes) : atoi (oldText head v) = atoi (oldPart head v) := by
  rw [oldText, strip, atoi_trimBy fun _ ↦ isSpace_of_isStripped, atoi_cstr]

/-- Neither does a comment change the number that version 2 takes. -/
theorem atoi_newText (head v : Bytes) : atoi (newText head v) = atoi (newPart head v) := by
  rw [newText, trim_eq, atoi_trimBy (fun _ ↦ id), atoi_beforeHash, atoi_cstr]

private theorem snprintf_text {v : Bytes} (hnul : NUL ∉ v) (size : Nat) :
    snprintf size [v] = v.take (size - 1) := by
  rw [snprintf, List.flatMap_cons, List.flatMap_nil, List.append_nil, cstr_of_nul_not_mem hnul]

/-- What version 2 keeps of a value. -/
theorem value_stored (f : Field) {v : Bytes} (hnul : NUL ∉ v) :
    value f (applyField ap2pStateInit.config f v) = match textSizes f with
      | none => .int (atoi v)
      | some sizes => .str (v.take (sizes.2 - 1)) := by
  cases f <;> first | rfl | exact congrArg FieldValue.str (cstr_strncpy hnul _)

/-- What version 1 keeps of it. -/
theorem oldKey_stored (f : Field) {v : Bytes} (hnul : NUL ∉ v) :
    (oldKey f).stored v = match textSizes f with
      | none => .int (atoi v)
      | some sizes => .str (v.take (sizes.1 - 1)) := by
  cases f <;> first | rfl | exact congrArg FieldValue.str (snprintf_text hnul _)

private theorem textSizes_pos (f : Field) :
    ∀ sizes ∈ textSizes f, 0 < sizes.1 - 1 ∧ 0 < sizes.2 - 1 := by
  cases f <;> decide

private theorem oldText_eq (head v : Bytes) :
    ∃ a, oldText head v = trimBy isStripped a ∧ a <+: cstr v :=
  ⟨_, rfl, takeWhile_prefix_takeWhile (List.take_prefix _ _)⟩

private theorem newText_eq (head v : Bytes) :
    ∃ b, newText head v = trimBy isSpace b ∧ b <+: cstr v :=
  ⟨_, rfl, (List.takeWhile_prefix _).trans
    (takeWhile_prefix_takeWhile ((List.take_prefix _ _).trans (List.takeWhile_prefix _)))⟩

private theorem nul_not_mem_trimBy {p : UInt8 → Bool} {a v : Bytes} (ha : a <+: cstr v) :
    NUL ∉ trimBy p a := fun h ↦ nul_not_mem_cstr v
  (ha.subset ((List.dropWhile_suffix _).subset ((List.rdropWhile_prefix _ _).subset h)))

/-- The two programs keep the same of a value when it is plain, and only then. -/
theorem stored_eq_iff (f : Field) (head v : Bytes) :
    (oldKey f).stored (oldText head v) =
        value f (applyField ap2pStateInit.config f (newText head v)) ↔
      PlainValue f head v := by
  obtain ⟨a, hold, ha⟩ := oldText_eq head v
  obtain ⟨b, hnew, hb⟩ := newText_eq head v
  have hskip : ∀ c, isStripped c = true → isSpace c = true := fun _ ↦ isSpace_of_isStripped
  have hnulOld : NUL ∉ oldText head v := hold ▸ nul_not_mem_trimBy ha
  have hnulNew : NUL ∉ newText head v := hnew ▸ nul_not_mem_trimBy hb
  rw [PlainValue, oldKey_stored f hnulOld, value_stored f hnulNew]
  cases hsizes : textSizes f with
  | none =>
    dsimp only
    rw [FieldValue.int.injEq, atoi_oldText, atoi_newText]
  | some sizes =>
    obtain ⟨hone, htwo⟩ := textSizes_pos f sizes hsizes
    dsimp only
    rw [FieldValue.str.injEq, hold, hnew, take_trimBy_eq_iff hskip ha hb hone htwo]

/-! ### What is lost of other lines -/

private theorem head_of_configEntry {line k v : Bytes} (hnul : NUL ∉ line)
    (h : configEntry line = some (k, v)) :
    EQ ∈ line ∧ k = strip (line.takeWhile (· ≠ EQ)) := by
  unfold configEntry at h
  rw [cstr_of_nul_not_mem hnul] at h
  dsimp only at h
  split at h
  · contradiction
  cases hdrop : (strip line).dropWhile (· ≠ EQ) with
  | nil =>
    rw [hdrop] at h
    contradiction
  | cons b after =>
    rw [hdrop] at h
    have hmem : EQ ∈ line := by
      obtain ⟨x, y, hline, -, -⟩ := exists_trimBy isStripped line
      change line = x ++ (strip line ++ y) at hline
      have hstrip : EQ ∈ strip line := by
        apply (List.dropWhile_suffix (· ≠ EQ)).subset
        rw [hdrop, eq_of_dropWhile_ne hdrop]
        exact List.mem_cons_self
      rw [hline]
      exact List.mem_append_right _ (List.mem_append_left _ hstrip)
    refine ⟨hmem, ?_⟩
    obtain ⟨value, hline⟩ := exists_append_cons hmem
    have hhead := not_mem_takeWhile_ne EQ line
    generalize line.takeWhile (· ≠ EQ) = head at *
    have hp : strip line = head.dropWhile isStripped ++ EQ :: value.rdropWhile isStripped := by
      rw [hline, strip, trimBy_append_cons (by decide)]
    have hhead' : EQ ∉ head.dropWhile isStripped := fun hmem ↦
      hhead ((List.dropWhile_suffix _).subset hmem)
    rw [hp, takeWhile_ne_append_cons hhead'] at h
    have hk := (Prod.mk.inj (Option.some.inj h)).1
    rw [← hk, strip, trimBy_dropWhile, strip]

/-- No two names are the same but for the case of their letters. -/
private theorem names_distinct (f : Field) :
    (∀ entry ∈ keyNames, entry.2 = oldKey f → entry.1 = oldName f) ∧
      (∀ rule ∈ sedRules, strcasecmp (oldName f) rule.1 = true → rule.1 = oldName f) ∧
      ∀ entry ∈ kFields, strcasecmp (oldName f) entry.1 = true →
        entry.1 = oldName f ∧ oldName f = newName f := by
  cases f <;> decide +kernel

private theorem isKeyByte_toLower {b c : UInt8} (hc : isKeyByte c = true)
    (h : toLower b = toLower c) : isSpace b = false ∧ b ≠ EQ ∧ b ≠ 35 := by
  have hc' : 97 ≤ (toLower c).toNat ∧ (toLower c).toNat ≤ 122 ∨ (toLower c).toNat = 95 := by
    simp only [isKeyByte, Bool.or_eq_true, Bool.and_eq_true, decide_eq_true_eq, beq_iff_eq,
      UInt8.le_iff_toNat_le, ← UInt8.toNat_inj, UInt8.reduceToNat] at hc
    simp only [toLower, Bool.and_eq_true, decide_eq_true_eq, UInt8.le_iff_toNat_le,
      UInt8.reduceToNat]
    split
    · rw [UInt8.toNat_add]
      simp only [UInt8.reduceToNat]
      omega
    · omega
  rw [← h] at hc'
  simp only [toLower, Bool.and_eq_true, decide_eq_true_eq, UInt8.le_iff_toNat_le,
    UInt8.reduceToNat] at hc'
  have hb : 65 ≤ b.toNat := by
    split at hc'
    · omega
    · omega
  simp only [isSpace, EQ, Bool.or_eq_false_iff, beq_eq_false_iff_ne, Bool.and_eq_false_iff,
    decide_eq_false_iff_not, UInt8.le_iff_toNat_le, ne_eq, ← UInt8.toNat_inj, UInt8.reduceToNat]
  omega

private theorem fileWrites_short {line : Bytes} (hlength : line.length ≤ 255) (hlf : LF ∉ line) :
    fileWrites line = (configWrite line).toList := by
  have hnil : fileWrites [] = [] := rfl
  rw [fileWrites_take hlf, List.take_of_length_le hlength, List.drop_of_length_le hlength, hnil,
    List.append_nil]

/-- The key of a line of version 1 is the old name, but for the case of its letters. -/
private theorem key_of_fileWrites {f : Field} {line v : Bytes} (hlength : line.length ≤ 255)
    (hnul : NUL ∉ line) (hlf : LF ∉ line) (hold : (oldKey f, v) ∈ fileWrites line) :
    EQ ∈ line ∧ (strip (lineKey line)).map toLower = (oldName f).map toLower := by
  rw [fileWrites_short hlength hlf, Option.mem_toList] at hold
  obtain ⟨⟨k, v'⟩, hentry, hknown⟩ := Option.bind_eq_some_iff.mp hold
  obtain ⟨known, hfind, hpair⟩ := Option.map_eq_some_iff.mp hknown
  obtain ⟨hmem, hk⟩ := head_of_configEntry hnul hentry
  refine ⟨hmem, ?_⟩
  rw [lineKey, ← hk,
    ← (names_distinct f).1 known (List.mem_of_find?_eq_some hfind) (Prod.mk.inj hpair).1]
  have hsome := List.find?_some hfind
  exact beq_iff_eq.mp hsome

/-- Such a key is a word. -/
private theorem word_of_lower {f : Field} {k : Bytes}
    (hlower : k.map toLower = (oldName f).map toLower) :
    k ≠ [] ∧ ∀ b ∈ k, isSpace b = false ∧ b ≠ EQ ∧ b ≠ 35 := by
  obtain ⟨⟨hoName, -⟩, -, hword, -⟩ := names f
  constructor
  · rintro rfl
    exact hoName (List.map_eq_nil_iff.mp hlower.symm)
  · intro b hb
    have hmap : toLower b ∈ (oldName f).map toLower := hlower ▸ List.mem_map_of_mem hb
    obtain ⟨c, hc, hbc⟩ := List.mem_map.mp hmap
    exact isKeyByte_toLower (hword c hc) hbc.symm

/-- In a line, only blanks are skipped behind the old name. -/
private theorem trimBy_isBlank_of_strip {f : Field} {head : Bytes} (hlf : LF ∉ head)
    (hcr : CR ∉ head) (h : strip head = oldName f) :
    trimBy isBlank (head.dropWhile isStripped) = oldName f := by
  obtain ⟨-, -, hword, -⟩ := names f
  have hword' : ∀ b ∈ oldName f, isBlank b = false := fun b hb ↦ by
    have hstripped := (isKeyByte_facts (hword b hb)).2.1
    rw [← Bool.not_eq_true] at hstripped ⊢
    exact fun hb' ↦ hstripped (isStripped_of_isBlank hb').1
  obtain ⟨y, hsplit, hy⟩ := exists_rdropWhile_append isStripped (head.dropWhile isStripped)
  change head.dropWhile isStripped = strip head ++ y at hsplit
  rw [h] at hsplit
  have hy' : ∀ b ∈ y, isBlank b = true := by
    intro b hb
    have hmem : b ∈ head := (List.dropWhile_suffix isStripped).subset (by simp [hsplit, hb])
    have hstripped := hy b hb
    simp only [isStripped, Bool.or_eq_true, beq_iff_eq] at hstripped
    obtain ((rfl | rfl) | rfl) | rfl := hstripped
    · rfl
    · rfl
    · exact absurd hmem hcr
    · exact absurd hmem hlf
  rw [hsplit, trimBy_word hy' hword']

/-- A key that is not plain is not taken by the camera, although version 1 takes it. -/
theorem payloadWrites_not_plainKey {f : Field} {line v : Bytes} (hlength : line.length ≤ 255)
    (hnul : NUL ∉ line) (hlf : LF ∉ line) (hcr : CR ∉ line)
    (hold : (oldKey f, v) ∈ fileWrites line) (hkey : ¬ PlainKey f (lineKey line)) :
    payloadWrites (sedLine line) = [] := by
  obtain ⟨-, hrules, hfields⟩ := names_distinct f
  obtain ⟨hmem, hlower⟩ := key_of_fileWrites hlength hnul hlf hold
  obtain ⟨hne, hbytes⟩ := word_of_lower hlower
  have hline := (line_eq hmem).symm
  have hhead : EQ ∉ lineKey line := not_mem_takeWhile_ne EQ line
  generalize lineKey line = head at *
  generalize lineValue line = value at *
  have hcase : ∀ {name}, name = strip head → strcasecmp (oldName f) name = true := by
    rintro name rfl
    exact beq_iff_eq.mpr hlower.symm
  have htrim : strip head = oldName f →
      trimBy isBlank (head.dropWhile isStripped) = oldName f :=
    trimBy_isBlank_of_strip (fun hb ↦ hlf (hline ▸ List.mem_append_left _ hb))
      fun hb ↦ hcr (hline ▸ List.mem_append_left _ hb)
  have hunchanged : renamed head = head := by
    apply renamed_of_not_mem
    intro rule hrule heq
    have hstrip : ∀ rule ∈ sedRules, strip rule.1 = rule.1 := by decide +kernel
    have hrule' : rule.1 = strip head := by rw [← heq, hstrip rule hrule]
    have hsame : rule.1 = oldName f := hrules rule hrule (hcase hrule')
    exact hkey ⟨htrim (hrule'.symm.trans hsame), Or.inr (heq.symm.trans hsame)⟩
  have hnone : lineWrite line = none := by
    obtain ⟨x, y, hsplit, hx, hy⟩ := exists_trimBy isStripped head
    change head = x ++ (strip head ++ y) at hsplit
    have hentry : lineEntry (x ++ (strip head ++ y) ++ EQ :: value) =
        some (strip head, trim value) :=
      lineEntry_key (fun b hb ↦ isSpace_of_isStripped (hx b hb))
        (fun b hb ↦ isSpace_of_isStripped (hy b hb)) hbytes (hsplit ▸ hline ▸ hnul)
    rw [← hsplit, ← hline] at hentry
    rw [lineWrite, hentry, Option.bind_some, Option.map_eq_none_iff, List.find?_eq_none]
    intro entry hentry' hname
    have hname' : entry.1 = strip head := of_decide_eq_true hname
    obtain ⟨hsame, hkept⟩ := hfields entry hentry' (hcase hname')
    exact hkey ⟨htrim (hname'.symm.trans hsame), Or.inl hkept⟩
  have hends : ∀ b ∈ line, endsLine b = false := fun b hb ↦
    endsLine_eq_false (fun heq ↦ hlf (heq ▸ hb)) fun heq ↦ hcr (heq ▸ hb)
  rw [hline, sedLine_key hhead, hunchanged, ← hline, payloadWrites_line hends (by omega), hnone]
  rfl

/-- Of an ordinary line that fits the buffer, the two programs take the field together or one of
them alone. -/
theorem readTogether_or_not_both {f : Field} {line : Bytes} (hlength : line.length ≤ 255)
    (hnul : NUL ∉ line) (hlf : LF ∉ line) (hcr : CR ∉ line) :
    ReadTogether f line ∨ (∀ v, (oldKey f, v) ∉ fileWrites line) ∨
      ∀ v, (f, v) ∉ payloadWrites (sedLine line) := by
  by_cases hold : ∃ v, (oldKey f, v) ∈ fileWrites line
  · obtain ⟨v, hv⟩ := hold
    have hmem := (key_of_fileWrites hlength hnul hlf hv).1
    by_cases hkey : PlainKey f (lineKey line)
    · have hshort : (lineKey line).length ≤ 254 := by
        have hsum := congrArg List.length (line_eq hmem)
        rw [List.length_append, List.length_cons] at hsum
        omega
      have hdrop : line.drop 255 = [] := List.drop_of_length_le hlength
      have hrest : (lineValue line).dropWhile (· ≠ CR) = [] := by
        rw [List.dropWhile_eq_nil_iff]
        intro b hb
        refine decide_eq_true fun heq : b = CR ↦ hcr ?_
        rw [← line_eq hmem, ← heq]
        exact List.mem_append_right _ (List.mem_cons_of_mem _ hb)
      refine Or.inl ⟨hmem, hshort, hkey, ?_, ?_⟩
      · rw [hdrop]
        exact fun w hw ↦ absurd hw List.not_mem_nil
      · rw [hrest]
        exact fun w hw ↦ absurd hw List.not_mem_nil
    · right
      right
      rw [payloadWrites_not_plainKey hlength hnul hlf hcr hv hkey]
      exact fun v ↦ List.not_mem_nil
  · exact Or.inr (Or.inl fun v hv ↦ hold ⟨v, hv⟩)

end Kitty.Migration
