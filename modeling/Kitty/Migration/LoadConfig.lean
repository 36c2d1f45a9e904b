import Kitty.Ap2p.Rejection
import Kitty.Base.Trim

/-!
# The configuration file of version 1

The SRT provider of version 1 reads a file of `KEY=value` lines into its `config_t`;
`src/provider-srt/provider_srt.c:83–112, 134–218`.
-/

namespace Kitty.Migration

open Kitty.Base
open Kitty.Ap2p (FieldValue atoi)

/-- `config_t`. A `char` array is the C string in it. -/
structure ProviderConfig where
  localHost : Bytes
  localPort : Int
  localHttpPath : Bytes
  localHttpAuth : Bytes
  serviceId : Bytes
  signalingHost : Bytes
  signalingPort : Int
  apiToken : Bytes
  stunHost : Bytes
  stunPort : Int
  turnHost : Bytes
  turnPort : Int
  turnUsername : Bytes
  turnPassword : Bytes
  bindPort : Int
  latencyMs : Int
  verbose : Int
  signalingScheme : Bytes
  signalingCa : Bytes
  signalingCert : Bytes
  signalingKey : Bytes
  signalingVerifyHost : Int
  deriving DecidableEq

/-- What `load_config` begins with; the rest of `g_cfg` is zero. -/
def ProviderConfig.default : ProviderConfig where
  localHost := lit "127.0.0.1"
  localPort := 80
  localHttpPath := []
  localHttpAuth := []
  serviceId := []
  signalingHost := []
  signalingPort := 8888
  apiToken := []
  stunHost := []
  stunPort := 3478
  turnHost := []
  turnPort := 3478
  turnUsername := []
  turnPassword := []
  bindPort := 0
  latencyMs := 300
  verbose := 0
  signalingScheme := lit "plain"
  signalingCa := []
  signalingCert := []
  signalingKey := []
  signalingVerifyHost := 1

/-- The keys of a file. -/
inductive Key where
  | localHost | localPort | localHttpPath | localHttpAuth | serviceId | signalingHost
  | signalingPort | apiToken | stunHost | stunPort | turnHost | turnPort | turnUsername
  | turnPassword | bindPort | latencyMs | verbose | signalingScheme | signalingCa | signalingCert
  | signalingKey | signalingVerifyHost
  deriving DecidableEq

/-- The names of the keys, in the order they are compared with. -/
def keyNames : List (Bytes × Key) :=
  [(lit "LOCAL_HOST", .localHost), (lit "LOCAL_PORT", .localPort),
    (lit "LOCAL_HTTP_PATH", .localHttpPath), (lit "LOCAL_HTTP_AUTH", .localHttpAuth),
    (lit "SERVICE_ID", .serviceId), (lit "SIGNALING_HOST", .signalingHost),
    (lit "SIGNALING_PORT", .signalingPort), (lit "API_TOKEN", .apiToken),
    (lit "STUN_HOST", .stunHost), (lit "STUN_PORT", .stunPort), (lit "TURN_HOST", .turnHost),
    (lit "TURN_PORT", .turnPort), (lit "TURN_USERNAME", .turnUsername),
    (lit "TURN_PASSWORD", .turnPassword), (lit "BIND_PORT", .bindPort),
    (lit "LATENCY_MS", .latencyMs), (lit "VERBOSE", .verbose),
    (lit "SIGNALING_SCHEME", .signalingScheme), (lit "SIGNALING_CA", .signalingCa),
    (lit "SIGNALING_CERT", .signalingCert), (lit "SIGNALING_KEY", .signalingKey),
    (lit "SIGNALING_VERIFY_HOST", .signalingVerifyHost)]

/-- `snprintf(cfg->…, sizeof(cfg->…), "%s", v)` or `atoi(v)`. -/
def applyKey (cfg : ProviderConfig) (k : Key) (v : Bytes) : ProviderConfig :=
  match k with
  | .localHost => { cfg with localHost := snprintf 128 [v] }
  | .localPort => { cfg with localPort := atoi v }
  | .localHttpPath => { cfg with localHttpPath := snprintf 512 [v] }
  | .localHttpAuth => { cfg with localHttpAuth := snprintf 256 [v] }
  | .serviceId => { cfg with serviceId := snprintf 256 [v] }
  | .signalingHost => { cfg with signalingHost := snprintf 128 [v] }
  | .signalingPort => { cfg with signalingPort := atoi v }
  | .apiToken => { cfg with apiToken := snprintf 128 [v] }
  | .stunHost => { cfg with stunHost := snprintf 128 [v] }
  | .stunPort => { cfg with stunPort := atoi v }
  | .turnHost => { cfg with turnHost := snprintf 128 [v] }
  | .turnPort => { cfg with turnPort := atoi v }
  | .turnUsername => { cfg with turnUsername := snprintf 128 [v] }
  | .turnPassword => { cfg with turnPassword := snprintf 128 [v] }
  | .bindPort => { cfg with bindPort := atoi v }
  | .latencyMs => { cfg with latencyMs := atoi v }
  | .verbose => { cfg with verbose := atoi v }
  | .signalingScheme => { cfg with signalingScheme := snprintf 8 [v] }
  | .signalingCa => { cfg with signalingCa := snprintf 256 [v] }
  | .signalingCert => { cfg with signalingCert := snprintf 256 [v] }
  | .signalingKey => { cfg with signalingKey := snprintf 256 [v] }
  | .signalingVerifyHost => { cfg with signalingVerifyHost := atoi v }

/-- A space, a tab, a carriage return or a newline. -/
def isStripped (b : UInt8) : Bool := b == 32 || b == 9 || b == CR || b == LF

/-- `strip`. -/
def strip (s : Bytes) : Bytes := trimBy isStripped s

/-- `tolower` in the C locale. -/
def toLower (b : UInt8) : UInt8 := if 65 ≤ b && b ≤ 90 then b + 32 else b

/-- `!strcasecmp(s, t)`. -/
def strcasecmp (s t : Bytes) : Bool := s.map toLower == t.map toLower

/-- The key and the value of a line: not of one that is blank, a comment, a section or without
`=`. -/
def configEntry (line : Bytes) : Option (Bytes × Bytes) :=
  let p := strip (cstr line)
  if p.head? ∈ [none, some 35, some 59, some 91] then none
  else match p.dropWhile (· ≠ EQ) with
    | [] => none
    | _ :: after => some (strip (p.takeWhile (· ≠ EQ)), strip after)

/-- The key a line sets and its value; an unknown key sets none. -/
def configWrite (line : Bytes) : Option (Key × Bytes) :=
  (configEntry line).bind fun entry ↦
    (keyNames.find? (strcasecmp entry.1 ·.1)).map fun known ↦ (known.2, entry.2)

/-- `fgets` into the buffer of 256 bytes: a line with its newline, or as much of it as fits. -/
def fgets (text : Bytes) : Bytes :=
  if LF ∈ text.take 255 then text.takeWhile (· ≠ LF) ++ [LF] else text.take 255

/-- What the loop of `load_config` reads, at most one line for each byte. -/
def fgetsLines : Nat → Bytes → List Bytes
  | 0, _ => []
  | rounds + 1, text =>
    if text = [] then []
    else fgets text :: fgetsLines rounds (text.drop (fgets text).length)

/-- The keys a file sets, in the order of its lines. -/
def fileWrites (file : Bytes) : List (Key × Bytes) :=
  (fgetsLines file.length file).filterMap configWrite

/-- The checks at the end of `load_config`. -/
def ProviderConfig.accepted (cfg : ProviderConfig) : Bool :=
  cfg.signalingHost ≠ [] && cfg.stunHost ≠ [] && cfg.serviceId ≠ [] &&
    if strcasecmp cfg.signalingScheme (lit "tls") then
      cfg.signalingCa ≠ [] && cfg.signalingCert ≠ [] && cfg.signalingKey ≠ []
    else strcasecmp cfg.signalingScheme (lit "plain")

/-- `load_config` of a file that can be opened. -/
def loadConfig (file : Bytes) : Option ProviderConfig :=
  let cfg := (fileWrites file).foldl (fun cfg w ↦ applyKey cfg w.1 w.2) .default
  if cfg.accepted then some cfg else none

/-- What a key stands for in a configuration. -/
def Key.held : Key → ProviderConfig → FieldValue
  | .localHost, cfg => .str cfg.localHost
  | .localPort, cfg => .int cfg.localPort
  | .localHttpPath, cfg => .str cfg.localHttpPath
  | .localHttpAuth, cfg => .str cfg.localHttpAuth
  | .serviceId, cfg => .str cfg.serviceId
  | .signalingHost, cfg => .str cfg.signalingHost
  | .signalingPort, cfg => .int cfg.signalingPort
  | .apiToken, cfg => .str cfg.apiToken
  | .stunHost, cfg => .str cfg.stunHost
  | .stunPort, cfg => .int cfg.stunPort
  | .turnHost, cfg => .str cfg.turnHost
  | .turnPort, cfg => .int cfg.turnPort
  | .turnUsername, cfg => .str cfg.turnUsername
  | .turnPassword, cfg => .str cfg.turnPassword
  | .bindPort, cfg => .int cfg.bindPort
  | .latencyMs, cfg => .int cfg.latencyMs
  | .verbose, cfg => .int cfg.verbose
  | .signalingScheme, cfg => .str cfg.signalingScheme
  | .signalingCa, cfg => .str cfg.signalingCa
  | .signalingCert, cfg => .str cfg.signalingCert
  | .signalingKey, cfg => .str cfg.signalingKey
  | .signalingVerifyHost, cfg => .int cfg.signalingVerifyHost

/-- What a key stands for once a text is written to it. -/
def Key.stored (k : Key) (v : Bytes) : FieldValue := k.held (applyKey .default k v)

/-- A write to a key is read back there, and nowhere else. -/
theorem held_applyKey (cfg : ProviderConfig) (k : Key) (v : Bytes) (j : Key) :
    j.held (applyKey cfg k v) = if j = k then k.stored v else j.held cfg := by
  by_cases hj : j = k
  · subst hj
    rw [if_pos rfl]
    cases j <;> rfl
  · rw [if_neg hj]
    cases k <;> cases j <;> first | rfl | exact absurd rfl hj

/-- The keys are all there is in a configuration. -/
theorem ext_held {cfg cfg' : ProviderConfig} (h : ∀ k : Key, k.held cfg = k.held cfg') :
    cfg = cfg' := by
  cases cfg
  cases cfg'
  rw [ProviderConfig.mk.injEq]
  exact ⟨FieldValue.str.inj (h .localHost), FieldValue.int.inj (h .localPort),
    FieldValue.str.inj (h .localHttpPath), FieldValue.str.inj (h .localHttpAuth),
    FieldValue.str.inj (h .serviceId), FieldValue.str.inj (h .signalingHost),
    FieldValue.int.inj (h .signalingPort), FieldValue.str.inj (h .apiToken),
    FieldValue.str.inj (h .stunHost), FieldValue.int.inj (h .stunPort),
    FieldValue.str.inj (h .turnHost), FieldValue.int.inj (h .turnPort),
    FieldValue.str.inj (h .turnUsername), FieldValue.str.inj (h .turnPassword),
    FieldValue.int.inj (h .bindPort), FieldValue.int.inj (h .latencyMs),
    FieldValue.int.inj (h .verbose), FieldValue.str.inj (h .signalingScheme),
    FieldValue.str.inj (h .signalingCa), FieldValue.str.inj (h .signalingCert),
    FieldValue.str.inj (h .signalingKey), FieldValue.int.inj (h .signalingVerifyHost)⟩

/-- The configuration as a record written field by field. -/
def providerFields : Fields ProviderConfig Key Bytes FieldValue where
  get := Key.held
  put := applyKey
  stored := Key.stored
  get_put := held_applyKey
  ext := ext_held

/-- A key of an accepted file stands for what the last line that sets it says, or for what it stood
for before. -/
theorem held_loadConfig {file : Bytes} {cfg : ProviderConfig} (h : loadConfig file = some cfg)
    (k : Key) : k.held cfg =
      ((lastWrite k (fileWrites file)).map k.stored).getD (k.held .default) := by
  unfold loadConfig at h
  dsimp only at h
  split at h
  · rw [← Option.some.inj h]
    exact providerFields.get_putAll .default (fileWrites file) k
  · contradiction

/-- An accepted file sets the signaling host. -/
theorem signalingHost_ne_nil {file : Bytes} {cfg : ProviderConfig}
    (h : loadConfig file = some cfg) : cfg.signalingHost ≠ [] := by
  unfold loadConfig at h
  dsimp only at h
  split at h
  · next haccepted =>
    rw [← Option.some.inj h]
    simp only [ProviderConfig.accepted, Bool.and_eq_true, decide_eq_true_eq] at haccepted
    exact haccepted.1.1.1
  · contradiction

/-! ### The lines of a file -/

private theorem length_fgets_pos {text : Bytes} (h : text ≠ []) : 0 < (fgets text).length := by
  unfold fgets
  split
  · simp
  · rw [List.length_take]
    have := List.length_pos_iff.mpr h
    omega

private theorem fgetsLines_of_length_le (rounds : Nat) (text : Bytes) (h : text.length ≤ rounds) :
    fgetsLines rounds text = fgetsLines text.length text := by
  induction hn : text.length using Nat.strongRecOn generalizing rounds text with
  | ind n ih =>
    cases text with
    | nil => cases rounds <;> subst hn <;> rfl
    | cons b text =>
      have hpos := length_fgets_pos (List.cons_ne_nil b text)
      rw [List.length_cons] at hn h
      obtain ⟨rounds, rfl⟩ : ∃ r, rounds = r + 1 := ⟨rounds - 1, by omega⟩
      subst hn
      have hrest : ((b :: text).drop (fgets (b :: text)).length).length ≤ text.length := by
        rw [List.length_drop, List.length_cons]
        omega
      simp only [fgetsLines, List.cons_ne_nil, if_false]
      rw [ih _ (by omega) rounds _ (by omega) rfl, ih _ (by omega) text.length _ hrest rfl]

/-- The first line that is read, then the others. -/
theorem fileWrites_eq {text : Bytes} (h : text ≠ []) :
    fileWrites text = (configWrite (fgets text)).toList ++
      fileWrites (text.drop (fgets text).length) := by
  have hpos := length_fgets_pos h
  obtain ⟨n, hn⟩ : ∃ n, text.length = n + 1 :=
    ⟨text.length - 1, by have := List.length_pos_iff.mpr h; omega⟩
  have hrest : (text.drop (fgets text).length).length ≤ n := by
    rw [List.length_drop]
    omega
  rw [fileWrites, hn, fgetsLines, if_neg h, List.filterMap_cons, fileWrites,
    ← fgetsLines_of_length_le n _ hrest]
  cases configWrite (fgets text) <;> rfl

/-- What follows a NUL does not matter. -/
theorem configWrite_cstr (line : Bytes) : configWrite (cstr line) = configWrite line := by
  rw [configWrite, configEntry, cstr_of_nul_not_mem (nul_not_mem_cstr line)]
  rfl

/-- The newline at the end of a line does not matter. -/
theorem configWrite_newline (line : Bytes) : configWrite (line ++ [LF]) = configWrite line := by
  have hstrip : strip (cstr (line ++ [LF])) = strip (cstr line) := by
    rw [cstr, cstr, List.takeWhile_append]
    split
    · next hall =>
      have heq : line.takeWhile (· ≠ NUL) = line :=
        (List.takeWhile_prefix _).eq_of_length hall
      rw [heq]
      exact trimBy_append_right fun b hb ↦ List.mem_singleton.mp hb ▸ rfl
    · rfl
  rw [configWrite, configEntry, hstrip, configWrite, configEntry]

private theorem fgets_line {line rest : Bytes} (hline : LF ∉ line) (h : line.length ≤ 254) :
    fgets (line ++ LF :: rest) = line ++ [LF] := by
  have hmem : LF ∈ (line ++ LF :: rest).take 255 := by
    rw [List.take_append, List.take_of_length_le (by omega)]
    obtain ⟨n, hn⟩ : ∃ n, 255 - line.length = n + 1 := ⟨254 - line.length, by omega⟩
    simp [hn]
  rw [fgets, if_pos hmem, List.takeWhile_append_of_pos (by
    intro b hb
    simpa using fun heq : b = LF ↦ hline (heq ▸ hb)), List.takeWhile_cons_of_neg (by simp),
    List.append_nil]

private theorem fgets_long {line rest : Bytes} (hline : LF ∉ line) (h : 255 ≤ line.length) :
    fgets (line ++ rest) = line.take 255 := by
  have htake : (line ++ rest).take 255 = line.take 255 := List.take_append_of_le_length h
  rw [fgets, htake, if_neg fun hmem ↦ hline (List.mem_of_mem_take hmem)]

/-- Of a line, what fits the buffer is read first, then the rest. -/
theorem fileWrites_take {line : Bytes} (hline : LF ∉ line) :
    fileWrites line = (configWrite (line.take 255)).toList ++ fileWrites (line.drop 255) := by
  have hfgets : fgets line = line.take 255 := by
    rw [fgets, if_neg fun hmem ↦ hline (List.mem_of_mem_take hmem)]
  by_cases hne : line = []
  · rw [hne]
    rfl
  · have hrest : line.drop (line.take 255).length = line.drop 255 :=
      List.drop_eq_drop_iff.mpr (by simp)
    rw [fileWrites_eq hne, hfgets, hrest]

/-- The line ends at its newline, however it is read. -/
theorem fileWrites_append {line : Bytes} (hline : LF ∉ line) (rest : Bytes) :
    fileWrites (line ++ LF :: rest) = fileWrites line ++ fileWrites rest := by
  induction hn : line.length using Nat.strongRecOn generalizing line with
  | ind n ih =>
    have hne : line ++ LF :: rest ≠ [] := by simp
    rw [fileWrites_eq hne, fileWrites_take hline]
    by_cases hlen : line.length ≤ 254
    · have hdrop : (line ++ LF :: rest).drop (line ++ [LF]).length = rest := by
        rw [List.append_cons line LF rest, List.drop_left]
      have hnil : fileWrites [] = [] := rfl
      rw [fgets_line hline hlen, hdrop, configWrite_newline, List.take_of_length_le (by omega),
        List.drop_of_length_le (by omega), hnil, List.append_nil]
    · have hlong : 255 ≤ line.length := by omega
      have hdrop : (line ++ LF :: rest).drop (line.take 255).length =
          line.drop 255 ++ LF :: rest := by
        rw [List.length_take_of_le hlong, List.drop_append_of_le_length hlong]
      rw [fgets_long hline hlong, hdrop, ih _ (by rw [List.length_drop]; omega)
        (fun hmem ↦ hline (List.mem_of_mem_drop hmem)) rfl, List.append_assoc]

end Kitty.Migration
