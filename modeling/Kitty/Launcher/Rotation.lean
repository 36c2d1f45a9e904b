import Kitty.Base.Bytes
import Kitty.Base.Run

/-!
# The rotation of a log

`rotate_one_log` and `check_flash_space` of `deploy/ambicam.sh:88–140`, for one log and the
service that appends to it all the while. The archives are taken for what they unpack to. Beside
the files stands everything that the service ever wrote.
-/

namespace Kitty.Launcher

open Kitty.Base

/-- `$ROTATE_SIZE_BYTES` -/
def rotateSizeBytes : Nat := 256 * 1024

/-- `$ROTATE_KEEP` -/
def rotateKeep : Nat := 3

/-- Where the launcher is in the rotation. -/
inductive RotatePc where
  | idle
  /-- In the loop, with `$i`. -/
  | shift (i : Nat)
  /-- Before `cp`. -/
  | copy
  /-- Before `gzip`, with what is in `$file.1`. -/
  | compress (copied : Bytes)
  /-- Before the log is emptied; how much of it was copied. -/
  | truncate (copied : Nat)
  deriving DecidableEq, Repr

/-- A log: the file, its archives `$file.1.gz` to `$file.3.gz`, and all that was ever written. -/
structure Log where
  file : Bytes
  gz : Nat → Option Bytes
  written : Bytes
  pc : RotatePc

/-- A log that nothing was written to. -/
def Log.init : Log := ⟨[], fun _ ↦ none, [], .idle⟩

/-- The steps of the service and of the launcher; those of the launcher may fail. -/
inductive LogStep where
  | append (chunk : Bytes)
  | rotate
  | mv (ok : Bool)
  | cp (ok : Bool)
  /-- Where it fails, an archive of that name may be lost. -/
  | gzip (ok kept : Bool)
  | empty
  /-- `check_flash_space` finds the flash full. -/
  | flashFull
  deriving DecidableEq, Repr

/-- `mv file.prev.gz file.i.gz`, where there is one. -/
def Log.shiftOne (s : Log) (i : Nat) (ok : Bool) : Nat → Option Bytes :=
  match s.gz (i - 1) with
  | some old =>
    if ok then Function.update (Function.update s.gz i (some old)) (i - 1) none else s.gz
  | none => s.gz

/-- The loop goes on while `$i` is above one. -/
def shiftPc (i : Nat) : RotatePc := if 1 < i then .shift i else .copy

/-- A step of the service or the launcher. -/
def Log.step (s : Log) : LogStep → Option Log
  | .append chunk => some { s with file := s.file ++ chunk, written := s.written ++ chunk }
  | .rotate =>
    if s.pc = .idle then
      some (if s.file.length < rotateSizeBytes then s else { s with pc := shiftPc rotateKeep })
    else none
  | .mv ok =>
    match s.pc with
    | .shift i => some { s with gz := s.shiftOne i ok, pc := shiftPc (i - 1) }
    | _ => none
  | .cp ok =>
    match s.pc with
    | .copy => some { s with pc := if ok then .compress s.file else .truncate 0 }
    | _ => none
  | .gzip ok kept =>
    match s.pc with
    | .compress copied =>
      some (if ok then
        { s with gz := Function.update s.gz 1 (some copied), pc := .truncate copied.length }
        else
          { s with
            gz := if kept then s.gz else Function.update s.gz 1 none
            pc := .truncate 0 })
    | _ => none
  | .empty =>
    match s.pc with
    | .truncate _ => some { s with file := [], pc := .idle }
    | _ => none
  | .flashFull => if s.pc = .idle then some { s with file := [] } else none

/-- What the archives hold, the oldest first. -/
def Log.archived (s : Log) : Bytes :=
  (s.gz 3).getD [] ++ (s.gz 2).getD [] ++ (s.gz 1).getD []

/-- What is kept: the archives and the log. -/
def Log.kept (s : Log) : Bytes := s.archived ++ s.file

/-! ### What is kept was written, once and in its order -/

/-- What is kept is part of what was written, except that before the log is emptied the beginning
of it that was copied is there twice. -/
def Log.Ordered (s : Log) : Prop :=
  match s.pc with
  | .shift i => (i = 3 ∨ i = 2) ∧ s.kept.Sublist s.written
  | .compress copied => copied <+: s.file ∧ s.kept.Sublist s.written
  | .truncate copied => (s.archived ++ s.file.drop copied).Sublist s.written
  | _ => s.kept.Sublist s.written

/-- A shift loses at most the archive that is overwritten. -/
private theorem archived_shift {s : Log} {i : Nat} (hi : i = 3 ∨ i = 2) (ok : Bool) :
    ({ s with gz := s.shiftOne i ok } : Log).archived.Sublist s.archived := by
  unfold Log.archived Log.shiftOne
  obtain rfl | rfl := hi
  · cases h2 : s.gz 2 with
    | none => simp [h2]
    | some old => cases ok <;> simp [h2]
  · cases h1 : s.gz 1 with
    | none => simp [h1]
    | some old => cases ok <;> simp [h1]

/-- A new first archive takes the place of the one before. -/
private theorem archived_update (s : Log) (x : Option Bytes) :
    ({ s with gz := Function.update s.gz 1 x } : Log).archived =
      (s.gz 3).getD [] ++ (s.gz 2).getD [] ++ x.getD [] := by
  simp [Log.archived]

/-- What is appended comes behind everything else. -/
private theorem Log.Ordered.append {s : Log} (h : s.Ordered) (chunk : Bytes) :
    Log.Ordered { s with file := s.file ++ chunk, written := s.written ++ chunk } := by
  have hkept (hs : s.kept.Sublist s.written) :
      (s.archived ++ (s.file ++ chunk)).Sublist (s.written ++ chunk) := by
    rw [← List.append_assoc]
    exact hs.append (List.Sublist.refl chunk)
  unfold Log.Ordered at h ⊢
  cases hpc : s.pc with
  | idle | copy =>
    rw [hpc] at h
    exact hkept h
  | shift i =>
    rw [hpc] at h
    exact ⟨h.1, hkept h.2⟩
  | compress copied =>
    rw [hpc] at h
    exact ⟨h.1.trans (List.prefix_append _ _), hkept h.2⟩
  | truncate copied =>
    rw [hpc] at h
    have hdrop : ((s.file ++ chunk).drop copied).Sublist (s.file.drop copied ++ chunk) := by
      rw [List.drop_append]
      exact (List.Sublist.refl _).append (List.drop_sublist _ _)
    have hrest := h.append (List.Sublist.refl chunk)
    rw [List.append_assoc] at hrest
    exact ((List.Sublist.refl s.archived).append hdrop).trans hrest

/-- The end of the rotation keeps the order. -/
private theorem Log.Ordered.gzip {s : Log} {copied : Bytes} (hcopied : copied <+: s.file)
    (h : s.kept.Sublist s.written) (ok kept : Bool) :
    Log.Ordered (if ok then
        { s with gz := Function.update s.gz 1 (some copied), pc := .truncate copied.length }
      else
        { s with
          gz := if kept then s.gz else Function.update s.gz 1 none
          pc := .truncate 0 }) := by
  cases ok with
  | true =>
    refine List.Sublist.trans ?_ h
    change (({ s with gz := Function.update s.gz 1 (some copied) } : Log).archived ++
      s.file.drop copied.length).Sublist (s.archived ++ s.file)
    obtain ⟨later, hlater⟩ := hcopied
    rw [archived_update, ← hlater, List.drop_left, Log.archived, List.append_assoc _ _ later]
    exact ((List.sublist_append_left _ _).append (List.Sublist.refl _))
  | false =>
    refine List.Sublist.trans ?_ h
    cases kept with
    | true => exact List.Sublist.refl _
    | false =>
      change (({ s with gz := Function.update s.gz 1 none } : Log).archived ++
        s.file.drop 0).Sublist (s.archived ++ s.file)
      rw [archived_update, List.drop_zero, Log.archived]
      exact ((List.Sublist.refl _).append (List.nil_sublist _)).append (List.Sublist.refl _)

/-- Every step keeps the order, whatever fails. -/
private theorem Log.Ordered.step {s t : Log} {e : LogStep} (h : s.Ordered)
    (hstep : s.step e = some t) : t.Ordered := by
  cases e with
  | append chunk =>
    cases hstep
    exact h.append chunk
  | rotate =>
    rw [Log.step] at hstep
    split at hstep
    · next hpc =>
      cases hstep
      rw [Log.Ordered, hpc] at h
      split
      · rwa [Log.Ordered, hpc]
      · exact ⟨.inl rfl, h⟩
    · cases hstep
  | mv ok =>
    rw [Log.step] at hstep
    split at hstep
    · next i hpc =>
      cases hstep
      rw [Log.Ordered, hpc] at h
      obtain ⟨hi, hs⟩ := h
      have hkept :
          (({ s with gz := s.shiftOne i ok } : Log).archived ++ s.file).Sublist s.written :=
        ((archived_shift hi ok).append (List.Sublist.refl _)).trans hs
      obtain rfl | rfl := hi
      · exact ⟨.inr rfl, hkept⟩
      · exact hkept
    · cases hstep
  | cp ok =>
    rw [Log.step] at hstep
    split at hstep
    · next hpc =>
      cases hstep
      rw [Log.Ordered, hpc] at h
      cases ok with
      | true => exact ⟨List.prefix_refl _, h⟩
      | false => exact h
    · cases hstep
  | gzip ok kept =>
    rw [Log.step] at hstep
    split at hstep
    · next copied hpc =>
      cases hstep
      rw [Log.Ordered, hpc] at h
      exact .gzip h.1 h.2 ok kept
    · cases hstep
  | empty =>
    rw [Log.step] at hstep
    split at hstep
    · next copied hpc =>
      cases hstep
      rw [Log.Ordered, hpc] at h
      exact ((List.Sublist.refl s.archived).append (List.nil_sublist _)).trans h
    · cases hstep
  | flashFull =>
    rw [Log.step] at hstep
    split at hstep
    · next hpc =>
      cases hstep
      rw [Log.Ordered, hpc] at h
      rw [Log.Ordered, hpc]
      exact ((List.Sublist.refl s.archived).append (List.nil_sublist _)).trans h
    · cases hstep

/-! ### What is kept when nothing fails -/

/-- Nothing fails, the flash is not full, and the service writes nothing between the copy of its
log and the moment that it is emptied. -/
def Log.smooth (s : Log) : LogStep → Bool
  | .append _ =>
    match s.pc with
    | .compress _ | .truncate _ => false
    | _ => true
  | .mv ok | .cp ok | .gzip ok _ => ok
  | .rotate | .empty => true
  | .flashFull => false

/-- The archives are filled from the first on, apart from the one that a shift has made room in,
and a rotation is on its way only with a log that is large enough. -/
def Log.Filled (s : Log) : Prop :=
  match s.pc with
  | .idle => (s.gz 1 = none → s.gz 2 = none) ∧ (s.gz 2 = none → s.gz 3 = none)
  | .shift i =>
    rotateSizeBytes ≤ s.file.length ∧
      (i = 3 ∧ (s.gz 1 = none → s.gz 2 = none) ∧ (s.gz 2 = none → s.gz 3 = none) ∨
        i = 2 ∧ s.gz 2 = none ∧ (s.gz 1 = none → s.gz 3 = none))
  | .copy =>
    rotateSizeBytes ≤ s.file.length ∧ s.gz 1 = none ∧ (s.gz 2 = none → s.gz 3 = none)
  | .compress copied =>
    rotateSizeBytes ≤ s.file.length ∧ s.gz 1 = none ∧ (s.gz 2 = none → s.gz 3 = none) ∧
      copied = s.file
  | .truncate copied =>
    copied = s.file.length ∧ s.gz 1 ≠ none ∧ (s.gz 2 = none → s.gz 3 = none)

/-- What is kept, without what is there twice. -/
def Log.once (s : Log) : Bytes :=
  match s.pc with
  | .truncate copied => s.archived ++ s.file.drop copied
  | _ => s.kept

/-- What is kept is the end of what was written, and all of it until there are three archives, each
of the size that a log is rotated at. -/
structure Log.Exact (s : Log) : Prop where
  filled : s.Filled
  sizes : ∀ i b, s.gz i = some b → rotateSizeBytes ≤ b.length
  once : s.once <:+ s.written
  whole : s.gz 3 = none → s.once = s.written

/-- What is kept by a log that was not rotated thrice, or by one that was. -/
private theorem Log.Exact.kept {s : Log} (h : s.Exact) (hpc : s.pc = .idle) :
    s.kept <:+ s.written ∧ (s.kept = s.written ∨ 3 * rotateSizeBytes ≤ s.kept.length) := by
  have hfilled := h.filled
  have honce := h.once
  have hwhole := h.whole
  rw [Log.Filled, hpc] at hfilled
  rw [Log.once, hpc] at honce hwhole
  refine ⟨honce, ?_⟩
  cases h3 : s.gz 3 with
  | none => exact .inl (hwhole h3)
  | some b3 =>
    have h2 : s.gz 2 ≠ none := fun h2 ↦ by simp [hfilled.2 h2] at h3
    have h1 : s.gz 1 ≠ none := fun h1 ↦ h2 (hfilled.1 h1)
    obtain ⟨b2, h2⟩ := Option.ne_none_iff_exists'.mp h2
    obtain ⟨b1, h1⟩ := Option.ne_none_iff_exists'.mp h1
    have hb1 := h.sizes 1 b1 h1
    have hb2 := h.sizes 2 b2 h2
    have hb3 := h.sizes 3 b3 h3
    right
    simp only [Log.kept, Log.archived, h1, h2, h3, Option.getD_some, List.length_append]
    omega

/-- The archives are large enough after one was changed. -/
private theorem sizes_update {gz : Nat → Option Bytes}
    (h : ∀ i b, gz i = some b → rotateSizeBytes ≤ b.length) (j : Nat) {x : Option Bytes}
    (hx : ∀ b, x = some b → rotateSizeBytes ≤ b.length) (i : Nat) (b : Bytes)
    (hi : Function.update gz j x i = some b) : rotateSizeBytes ≤ b.length := by
  by_cases hij : i = j
  · subst hij
    rw [Function.update_self] at hi
    exact hx b hi
  · rw [Function.update_of_ne hij] at hi
    exact h i b hi

/-- More is written, where nothing is there twice. -/
private theorem Log.Exact.append {s : Log} (h : s.Exact) {chunk : Bytes}
    (hsmooth : s.smooth (.append chunk) = true) :
    Log.Exact { s with file := s.file ++ chunk, written := s.written ++ chunk } := by
  have honce := h.once
  have hwhole := h.whole
  have hfilled := h.filled
  rw [Log.smooth] at hsmooth
  have hkept : s.once = s.kept ∧
      Log.once { s with file := s.file ++ chunk, written := s.written ++ chunk } =
        s.kept ++ chunk := by
    unfold Log.once Log.kept
    cases hpc : s.pc with
    | idle | shift | copy => exact ⟨rfl, (List.append_assoc ..).symm⟩
    | compress | truncate => simp [hpc] at hsmooth
  rw [hkept.1] at honce hwhole
  refine ⟨?_, h.sizes, ?_, ?_⟩
  · unfold Log.Filled at hfilled ⊢
    cases hpc : s.pc with
    | idle =>
      rw [hpc] at hfilled
      exact hfilled
    | shift | copy =>
      rw [hpc] at hfilled
      refine ⟨?_, hfilled.2⟩
      rw [List.length_append]
      exact Nat.le_add_right_of_le hfilled.1
    | compress | truncate => simp [hpc] at hsmooth
  · rw [hkept.2]
    obtain ⟨before, hbefore⟩ := honce
    exact ⟨before, by rw [← List.append_assoc, hbefore]⟩
  · intro h3
    rw [hkept.2, hwhole h3]

/-- An archive goes one place up, or there is none to go. -/
private theorem Log.Exact.mv {s : Log} (h : s.Exact) {i : Nat} (hpc : s.pc = .shift i) :
    Log.Exact { s with gz := s.shiftOne i true, pc := shiftPc (i - 1) } := by
  have hfilled := h.filled
  have honce := h.once
  have hwhole := h.whole
  rw [Log.Filled, hpc] at hfilled
  rw [Log.once, hpc] at honce hwhole
  obtain ⟨hsize, ⟨rfl, h12, h23⟩ | ⟨rfl, h2, h13⟩⟩ := hfilled
  · cases h2 : s.gz 2 with
    | none =>
      have hgz : s.shiftOne 3 true = s.gz := by simp [Log.shiftOne, h2]
      rw [hgz]
      exact ⟨⟨hsize, .inr ⟨rfl, h2, fun _ ↦ h23 h2⟩⟩, h.sizes, honce, hwhole⟩
    | some old =>
      have hgz : s.shiftOne 3 true =
          Function.update (Function.update s.gz 3 (some old)) 2 none := by
        simp [Log.shiftOne, h2]
      rw [hgz]
      have h1 : s.gz 1 ≠ none := fun h1 ↦ by simp [h12 h1] at h2
      refine ⟨⟨hsize, .inr ⟨rfl, by simp, fun h ↦ absurd h (by simpa using h1)⟩⟩, ?_, ?_, ?_⟩
      · refine sizes_update (sizes_update h.sizes 3 ?_) 2 nofun
        rintro b ⟨⟩
        exact h.sizes 2 _ h2
      · refine List.IsSuffix.trans ?_ honce
        change _ <:+ (s.gz 3).getD [] ++ (s.gz 2).getD [] ++ (s.gz 1).getD [] ++ s.file
        refine ⟨(s.gz 3).getD [], ?_⟩
        simp [Log.once, shiftPc, Log.kept, Log.archived, h2]
      · intro h3
        simp at h3
  · cases h1 : s.gz 1 with
    | none =>
      have hgz : s.shiftOne 2 true = s.gz := by simp [Log.shiftOne, h1]
      rw [hgz]
      exact ⟨⟨hsize, h1, fun _ ↦ h13 h1⟩, h.sizes, honce, hwhole⟩
    | some old =>
      have hgz : s.shiftOne 2 true =
          Function.update (Function.update s.gz 2 (some old)) 1 none := by
        simp [Log.shiftOne, h1]
      rw [hgz]
      have hsame : Log.once { s with
          gz := Function.update (Function.update s.gz 2 (some old)) 1 none
          pc := shiftPc (2 - 1) } = s.kept := by
        simp [Log.once, shiftPc, Log.kept, Log.archived, h1, h2]
      refine ⟨⟨hsize, by simp, fun h ↦ by simp at h⟩, ?_, ?_, ?_⟩
      · refine sizes_update (sizes_update h.sizes 2 ?_) 1 nofun
        rintro b ⟨⟩
        exact h.sizes 1 _ h1
      · rw [hsame]
        exact honce
      · intro h3
        rw [hsame]
        exact hwhole (by simpa using h3)

/-- The log becomes the first archive. -/
private theorem Log.Exact.gzip {s : Log} (h : s.Exact) {copied : Bytes}
    (hpc : s.pc = .compress copied) :
    Log.Exact { s with
      gz := Function.update s.gz 1 (some copied)
      pc := .truncate copied.length } := by
  have hfilled := h.filled
  have honce := h.once
  have hwhole := h.whole
  rw [Log.Filled, hpc] at hfilled
  rw [Log.once, hpc] at honce hwhole
  obtain ⟨hsize, h1, h23, rfl⟩ := hfilled
  have hsame : Log.once { s with
      gz := Function.update s.gz 1 (some s.file)
      pc := .truncate s.file.length } = s.kept := by
    simp [Log.once, Log.kept, Log.archived, h1]
  refine ⟨⟨rfl, by simp, by simpa using h23⟩, ?_, ?_, ?_⟩
  · refine sizes_update h.sizes 1 ?_
    rintro b ⟨⟩
    exact hsize
  · rw [hsame]
    exact honce
  · intro h3
    rw [hsame]
    exact hwhole (by simpa using h3)

/-- A step at which nothing fails keeps what is kept exact. -/
private theorem Log.Exact.step {s t : Log} {e : LogStep} (hsmooth : s.smooth e = true)
    (h : s.Exact) (hstep : s.step e = some t) : t.Exact := by
  cases e with
  | append chunk =>
    cases hstep
    exact h.append hsmooth
  | rotate =>
    rw [Log.step] at hstep
    split at hstep
    · next hpc =>
      cases hstep
      split
      · exact h
      · next hsize =>
        have hfilled := h.filled
        have honce := h.once
        have hwhole := h.whole
        rw [Log.Filled, hpc] at hfilled
        rw [Log.once, hpc] at honce hwhole
        exact ⟨⟨Nat.le_of_not_lt hsize, .inl ⟨rfl, hfilled⟩⟩, h.sizes, honce, hwhole⟩
    · cases hstep
  | mv ok =>
    cases hsmooth
    rw [Log.step] at hstep
    split at hstep
    · next i hpc =>
      cases hstep
      exact h.mv hpc
    · cases hstep
  | cp ok =>
    cases hsmooth
    rw [Log.step] at hstep
    split at hstep
    · next hpc =>
      cases hstep
      have hfilled := h.filled
      have honce := h.once
      have hwhole := h.whole
      rw [Log.Filled, hpc] at hfilled
      rw [Log.once, hpc] at honce hwhole
      exact ⟨⟨hfilled.1, hfilled.2.1, hfilled.2.2, rfl⟩, h.sizes, honce, hwhole⟩
    · cases hstep
  | gzip ok kept =>
    cases hsmooth
    rw [Log.step] at hstep
    split at hstep
    · next copied hpc =>
      cases hstep
      exact h.gzip hpc
    · cases hstep
  | empty =>
    rw [Log.step] at hstep
    split at hstep
    · next copied hpc =>
      cases hstep
      have hfilled := h.filled
      have honce := h.once
      have hwhole := h.whole
      rw [Log.Filled, hpc] at hfilled
      rw [Log.once, hpc] at honce hwhole
      obtain ⟨rfl, h1, h23⟩ := hfilled
      simp only [List.drop_length] at honce hwhole
      exact ⟨⟨fun hnone ↦ absurd hnone h1, h23⟩, h.sizes, honce, hwhole⟩
    · cases hstep
  | flashFull => cases hsmooth

/-- The archives and the log hold what the service wrote, each part at most once and in its
order, whatever fails, except between the copy of a log and the moment that it is emptied. When
nothing fails, the flash is never found full, and nothing is written in just that moment, they hold
all of it up to three archives, and from then on the end of it, of three times the size that a log
is rotated at or more. -/
theorem kept_of_run {s : Log} {ls : List LogStep} (hr : run Log.step .init ls = some s)
    (hpc : s.pc = .idle) :
    s.kept.Sublist s.written ∧ (Always Log.step (fun s e ↦ s.smooth e = true) .init ls →
      s.kept <:+ s.written ∧ (s.kept = s.written ∨ 3 * rotateSizeBytes ≤ s.kept.length)) := by
  constructor
  · have hordered : s.Ordered := by
      refine invariant_of_run Log.step (fun _ _ _ hs hstep ↦ hs.step hstep) ?_ hr
      exact List.Sublist.refl []
    rwa [Log.Ordered, hpc] at hordered
  · intro hsmooth
    have hexact : s.Exact := by
      refine invariant_run Log.step (fun _ _ _ hc hs hstep ↦ hs.step hc hstep) hsmooth ?_ hr
      exact ⟨⟨fun _ ↦ rfl, fun _ ↦ rfl⟩, nofun, List.suffix_refl [], fun _ ↦ rfl⟩
    exact hexact.kept hpc

/-- A log is rotated once, and written to again. -/
def rotated (chunk : Bytes) : List LogStep :=
  [.append chunk, .rotate, .mv true, .mv true, .cp true, .gzip true true, .empty, .append [65]]

private theorem exists_rotated {chunk : Bytes} (h : rotateSizeBytes ≤ chunk.length) :
    ∃ s, run Log.step .init (rotated chunk) = some s ∧ s.pc = .idle := by
  simp [rotated, run, Log.step, Log.init, shiftPc, rotateKeep, Nat.not_lt.mpr h]

theorem kept_of_run_rotated :
    ∃ s, run Log.step .init (rotated (List.replicate rotateSizeBytes 0)) = some s ∧
      s.kept.Sublist s.written ∧ (Always Log.step (fun s e ↦ s.smooth e = true) .init
          (rotated (List.replicate rotateSizeBytes 0)) →
        s.kept <:+ s.written ∧ (s.kept = s.written ∨ 3 * rotateSizeBytes ≤ s.kept.length)) := by
  obtain ⟨s, hs, hpc⟩ := exists_rotated (List.length_replicate (a := (0 : UInt8))).ge
  exact ⟨s, hs, kept_of_run hs hpc⟩

end Kitty.Launcher
