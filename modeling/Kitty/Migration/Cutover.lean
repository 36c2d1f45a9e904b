import Kitty.Migration.PlainLines

/-!
# The cut-over to version 2

The cut-over script sends the translated file to the camera as the payload of its runtime
configuration. Where the last line of every field is plain, the camera has the values that
version 1 used; `ops/cutover-v2.0.sh:196–270`.
-/

namespace Kitty.Migration

open Kitty.Base
open Kitty.Ap2p

/-- The camera accepts the translated file, and every field has the value that version 1 used. -/
def Migrates (state : Ap2pState) (file : Bytes) : Prop :=
  ∀ cfg, loadConfig file = some cfg →
    (applyAp2pConfPayload state (keyTranslation file)).1 = 0 ∧
      ∀ f, value f (applyAp2pConfPayload state (keyTranslation file)).2.config =
        (oldKey f).held cfg

/-- One of the two programs takes the field from the line. -/
def takenFrom (f : Field) (line : Bytes) : Bool :=
  (fileWrites line).any (·.1 = oldKey f) || (payloadWrites (sedLine line)).any (·.1 = f)

/-- The last line that the field is taken from. -/
def lastLine (file : Bytes) (f : Field) : Option Bytes :=
  (file.splitOn LF).reverse.find? (takenFrom f)

/-- The last line that the field is taken from is plain; when it is taken from none, the camera has
the default of version 1. -/
def Kept (state : Ap2pState) (file : Bytes) (f : Field) : Prop :=
  match lastLine file f with
  | some line => PlainLine f line
  | none => value f state.config = (oldKey f).held .default

/-- The last line that the field is taken from is not read together: it is longer than the buffer of
version 1, there is a NUL or a carriage return in it, or one of the two programs does not take the
field from it. -/
def ReadApart (file : Bytes) (f : Field) : Prop :=
  ∃ line ∈ lastLine file f, ¬ ReadTogether f line ∧
    (255 < line.length ∨ NUL ∈ line ∨ CR ∈ line ∨ (∀ v, (oldKey f, v) ∉ fileWrites line) ∨
      ∀ v, (f, v) ∉ payloadWrites (sedLine line))

instance (state : Ap2pState) (file : Bytes) (f : Field) : Decidable (Kept state file f) :=
  match h : lastLine file f with
  | some line => decidable_of_iff (PlainLine f line) (by rw [Kept, h])
  | none => decidable_of_iff (value f state.config = (oldKey f).held .default) (by rw [Kept, h])

/-- Version 1 reads a file as its lines. -/
theorem fileWrites_lines (file : Bytes) :
    fileWrites file = (file.splitOn LF).flatMap fileWrites := by
  have hlines : ∀ line ∈ file.splitOn LF, LF ∉ line := fun _ ↦ not_mem_of_mem_splitOn
  have hread := @flatMap_intercalate _ _ LF fileWrites (LF ∉ ·) rfl
    (fun _ rest hline ↦ fileWrites_append hline rest) _ hlines
  rwa [List.intercalate_splitOn] at hread

/-- The camera reads the translated file as the translated lines. -/
theorem payloadWrites_lines (file : Bytes) :
    payloadWrites (keyTranslation file) =
      (file.splitOn LF).flatMap fun line ↦ payloadWrites (sedLine line) := by
  have hread := @flatMap_intercalate _ _ LF payloadWrites (fun _ ↦ True) rfl
    (fun line rest _ ↦ payloadWrites_append rfl line rest) ((file.splitOn LF).map sedLine)
    fun _ _ ↦ trivial
  rw [keyTranslation, hread, List.flatMap_map]

/-- The value that the camera has for a field after a payload. -/
theorem value_configAfter (state : Ap2pState) (payload : Bytes) (f : Field) :
    value f (configAfter state payload) =
      ((lastWrite f (payloadWrites payload)).map fun v ↦
        value f (applyField ap2pStateInit.config f v)).getD (value f state.config) := by
  have hget := configFields.get_putAll state.config (payloadWrites payload) f
  change f.held (configAfter state payload) = _ at hget
  unfold value
  rw [hget]
  cases lastWrite f (payloadWrites payload) <;> rfl

private theorem config_applyAp2pConfPayload (state : Ap2pState) (payload : Bytes) :
    (applyAp2pConfPayload state payload).2.config = configAfter state payload := by
  by_cases hne : payload = []
  · rw [hne]
    rfl
  · rw [applyAp2pConfPayload_eq state payload hne]
    split <;> rfl

private theorem not_taken {f : Field} {line : Bytes} (h : takenFrom f line = false) :
    (∀ w ∈ fileWrites line, w.1 ≠ oldKey f) ∧ ∀ w ∈ payloadWrites (sedLine line), w.1 ≠ f := by
  rw [takenFrom, Bool.or_eq_false_iff, List.any_eq_false, List.any_eq_false] at h
  exact ⟨fun w hw heq ↦ h.1 w hw (decide_eq_true heq), fun w hw heq ↦ h.2 w hw (decide_eq_true heq)⟩

private theorem lines_of_lastLine {file line : Bytes} {f : Field}
    (h : lastLine file f = some line) :
    ∃ before after, file.splitOn LF = before ++ line :: after ∧
      ∀ s ∈ after, takenFrom f s = false := by
  obtain ⟨-, after, before, hlines, hafter⟩ := List.find?_eq_some_iff_append.mp h
  refine ⟨before.reverse, after.reverse, ?_, fun s hs ↦ ?_⟩
  · rw [← List.reverse_reverse (file.splitOn LF), hlines]
    simp
  · simpa using hafter s (List.mem_reverse.mp hs)

/-- When the last line that a field is taken from is read together, both programs take the field
from the value in it. -/
theorem lastWrite_of_together {file line : Bytes} {f : Field} (hline : lastLine file f = some line)
    (h : ReadTogether f line) :
    lastWrite (oldKey f) (fileWrites file) = some (oldText (lineKey line) (lineValue line)) ∧
      lastWrite f (payloadWrites (keyTranslation file)) =
        some (newText (lineKey line) (lineValue line)) := by
  obtain ⟨before, after, hlines, hafter⟩ := lines_of_lastLine hline
  have hlf : LF ∉ line := not_mem_of_mem_splitOn (by rw [hlines]; simp)
  obtain ⟨hold, hnew⟩ := taken_together h hlf
  rw [fileWrites_lines, payloadWrites_lines, hlines]
  constructor
  · rw [lastWrite_flatMap (hold ▸ rfl) fun s hs ↦ (not_taken (hafter s hs)).1, hold]
  · rw [lastWrite_flatMap (hnew ▸ rfl) fun s hs ↦ (not_taken (hafter s hs)).2, hnew]

/-- From a file without such a line, neither program takes the field. -/
theorem lastWrite_of_none {file : Bytes} {f : Field} (h : lastLine file f = none) :
    lastWrite (oldKey f) (fileWrites file) = none ∧
      lastWrite f (payloadWrites (keyTranslation file)) = none := by
  have hnot : ∀ s ∈ file.splitOn LF, takenFrom f s = false := fun s hs ↦ by
    simpa using List.find?_eq_none.mp h s (List.mem_reverse.mpr hs)
  rw [fileWrites_lines, payloadWrites_lines]
  constructor
  · refine lastWrite_eq_none fun w hw ↦ ?_
    obtain ⟨s, hs, hw⟩ := List.mem_flatMap.mp hw
    exact (not_taken (hnot s hs)).1 w hw
  · refine lastWrite_eq_none fun w hw ↦ ?_
    obtain ⟨s, hs, hw⟩ := List.mem_flatMap.mp hw
    exact (not_taken (hnot s hs)).2 w hw

/-- A field whose last line is not read apart has the same value in both programs when it is kept,
and only then. -/
theorem value_eq_iff_kept {state : Ap2pState} {file : Bytes} {cfg : ProviderConfig} {f : Field}
    (hcfg : loadConfig file = some cfg) (h : ∀ line ∈ lastLine file f, ReadTogether f line) :
    value f (configAfter state (keyTranslation file)) = (oldKey f).held cfg ↔
      Kept state file f := by
  rw [value_configAfter, held_loadConfig hcfg, Kept]
  cases hline : lastLine file f with
  | some line =>
    have htogether := h line hline
    obtain ⟨hold, hnew⟩ := lastWrite_of_together hline htogether
    rw [hold, hnew, eq_comm]
    exact (stored_eq_iff f _ _).trans ⟨fun hplain ↦ ⟨htogether, hplain⟩, And.right⟩
  | none =>
    obtain ⟨hold, hnew⟩ := lastWrite_of_none hline
    rw [hold, hnew]
    rfl

private theorem together_of_kept {state : Ap2pState} {file : Bytes} {f : Field}
    (h : Kept state file f) : ∀ line ∈ lastLine file f, ReadTogether f line := by
  intro line hline
  rw [Kept, Option.mem_def.mp hline] at h
  exact h.1

private theorem readApart_of_not_together {file line : Bytes} {f : Field}
    (hline : lastLine file f = some line) (h : ¬ ReadTogether f line) : ReadApart file f := by
  obtain ⟨before, after, hlines, -⟩ := lines_of_lastLine hline
  have hlf : LF ∉ line := not_mem_of_mem_splitOn (by rw [hlines]; simp)
  refine ⟨line, hline, h, ?_⟩
  by_cases hlength : 255 < line.length
  · exact Or.inl hlength
  by_cases hnul : NUL ∈ line
  · exact Or.inr (Or.inl hnul)
  by_cases hcr : CR ∈ line
  · exact Or.inr (Or.inr (Or.inl hcr))
  obtain htogether | hone := readTogether_or_not_both (Nat.not_lt.mp hlength) hnul hlf hcr
  · exact absurd htogether h
  · exact Or.inr (Or.inr (Or.inr hone))

/-- The translation of an accepted file is not empty when the signaling host is kept. -/
private theorem keyTranslation_ne_nil {state : Ap2pState} {file : Bytes} {cfg : ProviderConfig}
    (hcfg : loadConfig file = some cfg) (h : Kept state file .ctrlHost) :
    keyTranslation file ≠ [] := by
  intro hnil
  cases hline : lastLine file .ctrlHost with
  | some line =>
    have hnew := (lastWrite_of_together hline (together_of_kept h line hline)).2
    rw [hnil] at hnew
    contradiction
  | none =>
    have hheld := held_loadConfig hcfg .signalingHost
    have hold := (lastWrite_of_none hline).1
    change lastWrite .signalingHost (fileWrites file) = none at hold
    rw [hold] at hheld
    exact signalingHost_ne_nil hcfg (FieldValue.str.inj hheld)

/-- When every field is kept, the camera accepts the translated file and has the values of
version 1. When it does and has, every field is kept, but for those whose last line is read
apart. -/
theorem migrates_of_kept (state : Ap2pState) (file : Bytes) :
    ((∀ f, Kept state file f) → Migrates state file) ∧
      ∀ cfg, loadConfig file = some cfg → Migrates state file →
        ∀ f, Kept state file f ∨ ReadApart file f := by
  constructor
  · intro h cfg hcfg
    have hvalue : ∀ f, value f (configAfter state (keyTranslation file)) = (oldKey f).held cfg :=
      fun f ↦ (value_eq_iff_kept hcfg (together_of_kept (h f))).mpr (h f)
    have hhostSet := signalingHost_ne_nil hcfg
    have hhost : (configAfter state (keyTranslation file)).ctrlHost.isEmpty = false := by
      have htext : cstr (configAfter state (keyTranslation file)).ctrlHost.bytes =
          cfg.signalingHost := FieldValue.str.inj (hvalue .ctrlHost)
      rw [← htext] at hhostSet
      rw [CharArray.isEmpty]
      cases hbytes : (configAfter state (keyTranslation file)).ctrlHost.bytes with
      | nil => simp [hbytes, cstr] at hhostSet
      | cons b bytes =>
        rw [hbytes] at hhostSet
        rw [List.getD_cons_zero]
        exact beq_false_of_ne fun heq ↦ hhostSet (by simp [heq, cstr])
    rw [applyAp2pConfPayload_eq state _ (keyTranslation_ne_nil hcfg (h .ctrlHost)), hhost,
      if_neg Bool.false_ne_true]
    exact ⟨rfl, hvalue⟩
  · intro cfg hcfg hmigrates f
    have hvalue := (hmigrates cfg hcfg).2 f
    rw [config_applyAp2pConfPayload] at hvalue
    by_cases hline : ∀ line ∈ lastLine file f, ReadTogether f line
    · exact Or.inl ((value_eq_iff_kept hcfg hline).mp hvalue)
    · push Not at hline
      obtain ⟨line, hlast, hnot⟩ := hline
      exact Or.inr (readApart_of_not_together hlast hnot)

/-- A file with a blank before an `=`. -/
def blankBeforeEquals : Bytes := lit "SERVICE_ID = cam\nSIGNALING_HOST=sig\nSTUN_HOST=stun\n"

/-- Version 1 reads the service id; the camera is left without a node id. -/
theorem service_id_lost :
    (∃ cfg, loadConfig blankBeforeEquals = some cfg ∧ cfg.serviceId = lit "cam") ∧
      value .nodeId (applyAp2pConfPayload ap2pStateInit
        (keyTranslation blankBeforeEquals)).2.config = .str [] ∧
      ¬ Migrates ap2pStateInit blankBeforeEquals := by
  have hcfg : ∃ cfg, loadConfig blankBeforeEquals = some cfg ∧ cfg.serviceId = lit "cam" := by
    have hsome : (loadConfig blankBeforeEquals).map (·.serviceId) = some (lit "cam") := by
      decide +kernel
    exact Option.map_eq_some_iff.mp hsome
  have hlost : value .nodeId (applyAp2pConfPayload ap2pStateInit
      (keyTranslation blankBeforeEquals)).2.config = .str [] := by decide +kernel
  refine ⟨hcfg, hlost, ?_⟩
  intro h
  obtain ⟨cfg, hload, hid⟩ := hcfg
  have hnode := (h cfg hload).2 .nodeId
  rw [hlost] at hnode
  have hempty : [] = cfg.serviceId := FieldValue.str.inj hnode
  rw [hid] at hempty
  exact absurd hempty (by decide)

/-- A camera with the defaults of version 1. -/
def defaultState : Ap2pState :=
  { ap2pStateInit with
    config := { ap2pStateInit.config with
      ctrlPort := 8888
      ctrlScheme := .strncpy 8 (lit "plain")
      edgePort := 3478
      relayPort := 3478
      srcHost := .strncpy 64 (lit "127.0.0.1") } }

/-- A file with a path that just fits the buffer, a comment that does not, and a key that is set
twice. -/
def plainFile : Bytes :=
  lit "SERVICE_ID=cam\r\nSIGNALING_HOST= sig\nSTUN_HOST=stun \nLOCAL_HTTP_PATH=/" ++
    List.replicate 238 97 ++ lit "\nlatency_ms=1\nLATENCY_MS = 2 #" ++ List.replicate 300 46 ++ [LF]

/-- The fields of the table are all there are. -/
private theorem kept_of_table {state : Ap2pState} {file : Bytes}
    (h : ∀ entry ∈ kFields, Kept state file entry.2) (f : Field) : Kept state file f :=
  h (newName f, f) (List.mem_of_find?_eq_some (names f).2.2.2.2.2)

/-- It migrates. -/
theorem plain_file_migrates : (loadConfig plainFile).isSome ∧ Migrates defaultState plainFile := by
  refine ⟨by decide +kernel, (migrates_of_kept defaultState plainFile).1 (kept_of_table ?_)⟩
  decide +kernel

end Kitty.Migration
