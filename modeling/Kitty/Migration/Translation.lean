import Kitty.Base.Shell
import Kitty.Migration.LoadConfig

/-!
# The key translation of the cut-over

The cut-over script renames the keys of a version 1 file with a `sed` command, which changes a line
only when a key stands at its beginning with `=` right after it; `ops/cutover-v2.0.sh:196–217`.
-/

namespace Kitty.Migration

open Kitty.Base
open Kitty.Ap2p
open Kitty.Signal (isSpace)

/-- The substitutions of the `sed` command, in their order. -/
def sedRules : List (Bytes × Bytes) :=
  [(lit "SERVICE_ID", lit "NODE_ID"), (lit "SIGNALING_HOST", lit "CTRL_HOST"),
    (lit "SIGNALING_PORT", lit "CTRL_PORT"), (lit "SIGNALING_SCHEME", lit "CTRL_SCHEME"),
    (lit "API_TOKEN", lit "CTRL_TOKEN"), (lit "STUN_HOST", lit "EDGE_HOST"),
    (lit "STUN_PORT", lit "EDGE_PORT"), (lit "TURN_HOST", lit "RELAY_HOST"),
    (lit "TURN_PORT", lit "RELAY_PORT"), (lit "TURN_USERNAME", lit "RELAY_USER"),
    (lit "TURN_PASSWORD", lit "RELAY_PASS"), (lit "LOCAL_HOST", lit "SRC_HOST"),
    (lit "LOCAL_PORT", lit "SRC_PORT"), (lit "LOCAL_HTTP_PATH", lit "SRC_PATH"),
    (lit "LOCAL_HTTP_AUTH", lit "SRC_AUTH")]

/-- `s/^KEY=/NAME=/`. -/
def substitute (line : Bytes) (rule : Bytes × Bytes) : Bytes :=
  if (rule.1 ++ [EQ]).isPrefixOf line then rule.2 ++ line.drop rule.1.length else line

/-- All of them on a line. -/
def sedLine (line : Bytes) : Bytes := sedRules.foldl substitute line

/-- The text the script makes of a file: every line for itself, the last one with or without its
newline as it was. -/
def keyTranslation (file : Bytes) : Bytes := [LF].intercalate ((file.splitOn LF).map sedLine)

/-! ### Names of keys -/

/-- The key of version 1 for a field of the camera. -/
def oldKey : Field → Key
  | .nodeId => .serviceId
  | .ctrlHost => .signalingHost
  | .ctrlPort => .signalingPort
  | .ctrlScheme => .signalingScheme
  | .ctrlToken => .apiToken
  | .edgeHost => .stunHost
  | .edgePort => .stunPort
  | .relayHost => .turnHost
  | .relayPort => .turnPort
  | .relayUser => .turnUsername
  | .relayPass => .turnPassword
  | .srcHost => .localHost
  | .srcPort => .localPort
  | .srcPath => .localHttpPath
  | .srcAuth => .localHttpAuth
  | .latencyMs => .latencyMs
  | .verbose => .verbose

/-- The name of a key in a table. -/
def nameIn {Key : Type} [DecidableEq Key] (names : List (Bytes × Key)) (k : Key) : Bytes :=
  ((names.find? (·.2 = k)).map (·.1)).getD []

/-- The name of a field's key in version 1. -/
def oldName (f : Field) : Bytes := nameIn keyNames (oldKey f)

/-- Its name in version 2. -/
def newName (f : Field) : Bytes := nameIn kFields f

/-- A capital letter or an underscore. -/
def isKeyByte (b : UInt8) : Bool := (65 ≤ b && b ≤ 90) || b == 95

/-- Such a byte is neither skipped nor does it end anything. -/
theorem isKeyByte_facts {b : UInt8} (h : isKeyByte b = true) :
    isSpace b = false ∧ isStripped b = false ∧ endsLine b = false ∧ b ≠ EQ ∧ b ≠ NUL ∧ b ≠ 35 ∧
      b ≠ 59 ∧ b ≠ 91 := by
  simp only [isKeyByte, Bool.or_eq_true, Bool.and_eq_true, decide_eq_true_eq, beq_iff_eq,
    UInt8.le_iff_toNat_le, ← UInt8.toNat_inj, UInt8.reduceToNat] at h
  simp only [isSpace, isStripped, endsLine, EQ, NUL, CR, LF, Bool.or_eq_false_iff,
    beq_eq_false_iff_ne, Bool.and_eq_false_iff, decide_eq_false_iff_not,
    UInt8.le_iff_toNat_le, ne_eq, ← UInt8.toNat_inj, UInt8.reduceToNat]
  omega

/-- The names of the keys are words, and each is found in its table. -/
theorem names (f : Field) :
    (oldName f ≠ [] ∧ newName f ≠ []) ∧ (newName f).length ≤ 16 ∧
      (∀ b ∈ oldName f, isKeyByte b = true) ∧ (∀ b ∈ newName f, isKeyByte b = true) ∧
      keyNames.find? (strcasecmp (oldName f) ·.1) = some (oldName f, oldKey f) ∧
      kFields.find? (·.1 = newName f) = some (newName f, f) := by
  have hwords : (oldName f).all isKeyByte = true ∧ (newName f).all isKeyByte = true := by
    cases f <;> decide +kernel
  have hfound : keyNames.find? (strcasecmp (oldName f) ·.1) = some (oldName f, oldKey f) ∧
      kFields.find? (·.1 = newName f) = some (newName f, f) := by
    cases f <;> decide +kernel
  refine ⟨?_, ?_, List.all_eq_true.mp hwords.1, List.all_eq_true.mp hwords.2, hfound⟩
  · cases f <;> decide
  · cases f <;> decide

/-! ### What is renamed -/

/-- What the substitutions make of a key. -/
def renamed (key : Bytes) : Bytes :=
  sedRules.foldl (fun key rule ↦ if rule.1 = key then rule.2 else key) key

private theorem substitute_key {key value : Bytes} {rule : Bytes × Bytes} (hkey : EQ ∉ key)
    (hrule : EQ ∉ rule.1) : substitute (key ++ EQ :: value) rule =
      (if rule.1 = key then rule.2 else key) ++ EQ :: value := by
  have hbegins : (rule.1 ++ [EQ]).isPrefixOf (key ++ EQ :: value) = true ↔ rule.1 = key := by
    rw [List.isPrefixOf_iff_prefix]
    constructor
    · rintro ⟨after, heq⟩
      rw [List.append_assoc, List.singleton_append] at heq
      rw [← takeWhile_ne_append_cons hrule after, heq, takeWhile_ne_append_cons hkey]
    · intro heq
      exact ⟨value, by rw [heq, List.append_assoc, List.singleton_append]⟩
  rw [substitute]
  by_cases heq : rule.1 = key
  · rw [if_pos (hbegins.mpr heq), if_pos heq, heq, List.drop_left]
  · rw [if_neg (mt hbegins.mp heq), if_neg heq]

private theorem foldl_substitute {rules : List (Bytes × Bytes)}
    (hrules : ∀ rule ∈ rules, EQ ∉ rule.1 ∧ EQ ∉ rule.2) {key value : Bytes} (hkey : EQ ∉ key) :
    rules.foldl substitute (key ++ EQ :: value) =
      rules.foldl (fun key rule ↦ if rule.1 = key then rule.2 else key) key ++ EQ :: value := by
  induction rules generalizing key with
  | nil => rfl
  | cons rule rules ih =>
    obtain ⟨hold, hnew⟩ := hrules rule List.mem_cons_self
    have hkey' : EQ ∉ if rule.1 = key then rule.2 else key := by
      split
      · exact hnew
      · exact hkey
    rw [List.foldl_cons, List.foldl_cons, substitute_key hkey hold,
      ih (fun r hr ↦ hrules r (List.mem_cons_of_mem _ hr)) hkey']

/-- The substitutions change a line up to its `=` only. -/
theorem sedLine_key {key value : Bytes} (hkey : EQ ∉ key) :
    sedLine (key ++ EQ :: value) = renamed key ++ EQ :: value := by
  have hrules : ∀ rule ∈ sedRules, EQ ∉ rule.1 ∧ EQ ∉ rule.2 := by decide +kernel
  exact foldl_substitute hrules hkey

/-- The key of a field becomes its name in version 2. -/
theorem renamed_oldName (f : Field) : renamed (oldName f) = newName f := by
  cases f <;> decide +kernel

/-- A key that no rule is about is left as it is. -/
theorem renamed_of_not_mem {key : Bytes} (h : ∀ rule ∈ sedRules, rule.1 ≠ key) :
    renamed key = key := by
  rw [renamed]
  generalize sedRules = rules at h
  induction rules with
  | nil => rfl
  | cons rule rules ih =>
    rw [List.foldl_cons, if_neg (h rule List.mem_cons_self)]
    exact ih fun r hr ↦ h r (List.mem_cons_of_mem _ hr)

end Kitty.Migration
