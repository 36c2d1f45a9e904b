import Kitty.Ap2p.Config

/-!
# Rejected payloads

`apply_ap2p_conf_payload` rejects a payload after which no CTRL_HOST is set, when all of its
lines are in the live configuration; `src/ap2p/config.c:93–152`. A rejected payload leaves the
shared state as it was exactly when it sets no field to anything new.
-/

namespace Kitty.Ap2p

open Kitty.Base

/-- What a field of the configuration holds. -/
inductive FieldValue where
  | str (bytes : Bytes)
  | int (value : Int)
  deriving DecidableEq

/-- The value of a field. -/
def Field.held : Field → Ap2pConfig → FieldValue
  | .nodeId, cfg => .str cfg.nodeId.bytes
  | .ctrlHost, cfg => .str cfg.ctrlHost.bytes
  | .ctrlPort, cfg => .int cfg.ctrlPort
  | .ctrlScheme, cfg => .str cfg.ctrlScheme.bytes
  | .ctrlToken, cfg => .str cfg.ctrlToken.bytes
  | .edgeHost, cfg => .str cfg.edgeHost.bytes
  | .edgePort, cfg => .int cfg.edgePort
  | .relayHost, cfg => .str cfg.relayHost.bytes
  | .relayPort, cfg => .int cfg.relayPort
  | .relayUser, cfg => .str cfg.relayUser.bytes
  | .relayPass, cfg => .str cfg.relayPass.bytes
  | .srcHost, cfg => .str cfg.srcHost.bytes
  | .srcPort, cfg => .int cfg.srcPort
  | .srcPath, cfg => .str cfg.srcPath.bytes
  | .srcAuth, cfg => .str cfg.srcAuth.bytes
  | .latencyMs, cfg => .int cfg.latencyMs
  | .verbose, cfg => .int cfg.verbose

/-- What a field holds once a text is written to it. -/
def Field.stored (f : Field) (val : Bytes) : FieldValue :=
  f.held (applyField ap2pStateInit.config f val)

/-- A write to a field is read back there, whatever the configuration, and nowhere else. -/
theorem held_applyField (cfg : Ap2pConfig) (f : Field) (val : Bytes) (g : Field) :
    g.held (applyField cfg f val) = if g = f then f.stored val else g.held cfg := by
  by_cases hg : g = f
  · subst hg
    rw [if_pos rfl]
    cases g <;> rfl
  · rw [if_neg hg]
    cases f <;> cases g <;> first | rfl | exact absurd rfl hg

private theorem CharArray.eq_of_bytes {size : Nat} : ∀ {a b : CharArray size},
    FieldValue.str a.bytes = .str b.bytes → a = b
  | ⟨_, _⟩, ⟨_, _⟩, rfl => rfl

/-- The fields are all there is in a configuration. -/
theorem eq_of_held {cfg cfg' : Ap2pConfig} (h : ∀ f : Field, f.held cfg = f.held cfg') :
    cfg = cfg' := by
  cases cfg
  cases cfg'
  rw [Ap2pConfig.mk.injEq]
  exact ⟨CharArray.eq_of_bytes (h .nodeId), CharArray.eq_of_bytes (h .ctrlHost),
    FieldValue.int.inj (h .ctrlPort), CharArray.eq_of_bytes (h .ctrlScheme),
    CharArray.eq_of_bytes (h .ctrlToken), CharArray.eq_of_bytes (h .edgeHost),
    FieldValue.int.inj (h .edgePort), CharArray.eq_of_bytes (h .relayHost),
    FieldValue.int.inj (h .relayPort), CharArray.eq_of_bytes (h .relayUser),
    CharArray.eq_of_bytes (h .relayPass), CharArray.eq_of_bytes (h .srcHost),
    FieldValue.int.inj (h .srcPort), CharArray.eq_of_bytes (h .srcPath),
    CharArray.eq_of_bytes (h .srcAuth), FieldValue.int.inj (h .latencyMs),
    FieldValue.int.inj (h .verbose)⟩

/-- The configuration as a record written field by field. -/
def configFields : Fields Ap2pConfig Field Bytes FieldValue where
  get := Field.held
  put := applyField
  stored := Field.stored
  get_put cfg f val g := held_applyField cfg f val g
  ext := eq_of_held

/-- The fields a payload sets, in the order of its lines. -/
def payloadWrites (payload : Bytes) : List (Field × Bytes) :=
  (confLines payload.length payload).filterMap lineWrite

/-- The lines of a payload are its writes, one after the other. -/
theorem foldl_lines (cfg : Ap2pConfig) (lines : List Bytes) :
    lines.foldl applyLine cfg = configFields.putAll cfg (lines.filterMap lineWrite) := by
  induction lines generalizing cfg with
  | nil => rfl
  | cons line lines ih =>
    rw [List.foldl_cons, ih, List.filterMap_cons, applyLine]
    cases lineWrite line with
    | none => rfl
    | some w => rfl

/-- The configuration after a payload. -/
def configAfter (state : Ap2pState) (payload : Bytes) : Ap2pConfig :=
  configFields.putAll state.config (payloadWrites payload)

/-- What a payload does: nothing when it is empty; else its writes stay, and the flags change
when a CTRL_HOST is set after them. -/
theorem applyAp2pConfPayload_eq (state : Ap2pState) (payload : Bytes) (hne : payload ≠ []) :
    applyAp2pConfPayload state payload =
      if (configAfter state payload).ctrlHost.isEmpty then
        (-1, { state with config := configAfter state payload })
      else
        (0, { state with
          config := configAfter state payload
          stateReady := 1
          srtReloadPending := if state.stateReady = 0 then state.srtReloadPending else 1 }) := by
  unfold applyAp2pConfPayload
  rw [if_neg hne, foldl_lines]
  rfl

/-! ### The host after a payload -/

private theorem nul_not_mem_trim {s : Bytes} (h : NUL ∉ s) : NUL ∉ trim s := fun hm ↦
  h ((List.takeWhile_prefix _).subset ((List.dropWhile_suffix _).subset
    ((List.rdropWhile_prefix _ _).subset hm)))

/-- A value is a C string. -/
theorem nul_not_mem_value {line : Bytes} {f : Field} {val : Bytes}
    (h : lineWrite line = some (f, val)) : NUL ∉ val := by
  unfold lineWrite lineEntry at h
  obtain ⟨entry, hentry, h⟩ := Option.bind_eq_some_iff.mp h
  obtain ⟨known, -, h⟩ := Option.map_eq_some_iff.mp h
  obtain ⟨-, rfl⟩ := Prod.mk.inj h
  have hp : NUL ∉ trim (cstr line) := nul_not_mem_trim (nul_not_mem_cstr line)
  dsimp only at hentry
  generalize trim (cstr line) = p at hp hentry
  split at hentry
  · cases hentry
  · split at hentry
    · cases hentry
    · next b after hafter =>
      rw [← Option.some.inj hentry]
      have hsub : b :: after ⊆ p := hafter ▸ (List.dropWhile_suffix _).subset
      exact nul_not_mem_trim fun hm ↦ hp (hsub (List.mem_cons_of_mem _ hm))

/-- The last write is one of the writes. -/
theorem mem_of_lastWrite {f : Field} {val : Bytes} {writes : List (Field × Bytes)}
    (h : lastWrite f writes = some val) : (f, val) ∈ writes := by
  induction writes with
  | nil => cases h
  | cons w writes ih =>
    rw [lastWrite] at h
    cases hw : lastWrite f writes with
    | some u =>
      rw [hw] at h
      cases h
      exact List.mem_cons_of_mem _ (ih hw)
    | none =>
      rw [hw, Option.none_or] at h
      split at h
      · next hf =>
        rw [← hf, ← Option.some.inj h]
        exact List.mem_cons_self ..
      · cases h

/-- A CTRL_HOST is set after the payload: the one given last in it, or the one held before
when it gives none. -/
def HostSet (state : Ap2pState) (payload : Bytes) : Prop :=
  match lastWrite .ctrlHost (payloadWrites payload) with
  | some host => host ≠ []
  | none => state.config.ctrlHost.isEmpty = false

instance (state : Ap2pState) (payload : Bytes) : Decidable (HostSet state payload) := by
  unfold HostSet
  split <;> infer_instance

/-- Every field that the payload sets held already what it is set to last. -/
def SetsNothingNew (state : Ap2pState) (payload : Bytes) : Prop :=
  ∀ f val, lastWrite f (payloadWrites payload) = some val → f.stored val = f.held state.config

/-- The host after the payload is that one. -/
theorem ctrlHost_after (state : Ap2pState) (payload : Bytes) :
    (configAfter state payload).ctrlHost.isEmpty = false ↔ HostSet state payload := by
  have hget := configFields.get_putAll state.config (payloadWrites payload) .ctrlHost
  unfold HostSet
  cases hw : lastWrite .ctrlHost (payloadWrites payload) with
  | none =>
    rw [hw] at hget
    have heq : (configAfter state payload).ctrlHost = state.config.ctrlHost :=
      CharArray.eq_of_bytes hget
    rw [heq]
  | some host =>
    rw [hw] at hget
    have heq : (configAfter state payload).ctrlHost = .strncpy 128 host :=
      CharArray.eq_of_bytes hget
    obtain ⟨line, -, hline⟩ := List.mem_filterMap.mp (mem_of_lastWrite hw)
    have hempty := CharArray.isEmpty_strncpy (show 2 ≤ 128 by decide) (nul_not_mem_value hline)
    rw [heq]
    dsimp only
    rw [Ne, ← hempty, Bool.not_eq_true]

/-! ### Rejection -/

/-- A rejected payload leaves the flags alone. -/
theorem flags_of_rejected {state : Ap2pState} {payload : Bytes}
    (h : (applyAp2pConfPayload state payload).1 = -1) :
    (applyAp2pConfPayload state payload).2 =
      { state with config := (applyAp2pConfPayload state payload).2.config } := by
  by_cases hne : payload = []
  · subst hne
    rfl
  · rw [applyAp2pConfPayload_eq state payload hne] at h ⊢
    cases hempty : (configAfter state payload).ctrlHost.isEmpty with
    | true => rw [if_pos rfl]
    | false =>
      rw [hempty, if_neg Bool.false_ne_true] at h
      cases h

/-- A payload that is rejected leaves the shared state as it was when it is empty, or sets no
field to anything new. -/
theorem rejected_unchanged_iff (state : Ap2pState) (payload : Bytes) :
    ((applyAp2pConfPayload state payload).1 = -1 →
        (applyAp2pConfPayload state payload).2 = state) ↔
      payload = [] ∨ HostSet state payload ∨ SetsNothingNew state payload := by
  by_cases hne : payload = []
  · subst hne
    exact ⟨fun _ ↦ .inl rfl, fun _ _ ↦ rfl⟩
  rw [applyAp2pConfPayload_eq state payload hne, ← ctrlHost_after]
  have hsame : ({ state with config := configAfter state payload } : Ap2pState) = state ↔
      SetsNothingNew state payload := by
    refine Iff.trans ?_ (configFields.putAll_eq_self_iff state.config (payloadWrites payload))
    exact ⟨fun h ↦ congrArg Ap2pState.config h, fun h ↦ by
      change ({ state with config := configFields.putAll _ _ } : Ap2pState) = state
      rw [h]⟩
  cases hempty : (configAfter state payload).ctrlHost.isEmpty with
  | false => simp
  | true =>
    rw [if_pos rfl]
    constructor
    · exact fun h ↦ .inr (.inr (hsame.mp (h rfl)))
    · rintro (h | h | h) -
      · exact absurd h hne
      · cases h
      · exact hsame.mpr h

/-- A running camera's state: a host is set, and the first payload has come. -/
def runningState : Ap2pState :=
  { ap2pStateInit with
    config := applyField ap2pStateInit.config .ctrlHost (lit "signal.example")
    stateReady := 1 }

/-- A payload that sets CTRL_HOST to nothing is rejected, and the host is gone. -/
theorem rejected_changed : ∃ payload, (applyAp2pConfPayload runningState payload).1 = -1 ∧
    (applyAp2pConfPayload runningState payload).2 ≠ runningState :=
  ⟨lit "CTRL_HOST=\n", by decide +kernel⟩

end Kitty.Ap2p
