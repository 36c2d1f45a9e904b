import Kitty.Migration.LoadConfig
import Kitty.Sdp.Relay

/-!
# The sections of the provider's configuration file

`load_config` of the libjuice provider: a file of `KEY=value` lines, in which each `[NAME]`
begins the settings of one more service, up to eight of them. The keys before the first one are
those of the whole provider and, in a file without sections, of its only service;
`src/provider-srt/_legacy_libjuice_provider_configurable.c:59–78,153–175,378–539`. A header that
is malformed, or one too many, leaves the section before it current.
-/

namespace Kitty.Provider

open Kitty.Base
open Kitty.Ap2p (atoi)
open Kitty.Migration (fgetsLines isStripped)

/-! ### What is configured -/

/-- `service_config_t`: what the provider registers a service with, and its local port. -/
structure ServiceConfig extends Sdp.ServiceConfig where
  localPort : Int

/-- The fields of `service_state_t` that are set here; `memset` zeroes the others. -/
structure ServiceState where
  cfg : ServiceConfig
  keepaliveEnabled : Int
  nextConnId : Nat

/-- `global_config_t`. -/
structure GlobalConfig where
  signalingServer : Bytes
  signalingPort : Int
  apiToken : Bytes
  turnServerHost : Bytes
  turnServerPort : Int
  turnServerUsername : Bytes
  turnServerPassword : Bytes
  turnServerEnabled : Int

/-- The `legacy_…` locals: the service of a file without sections. -/
structure LegacyService where
  serviceId : Bytes
  protocol : Bytes
  codec : Bytes
  localPort : Int
  p2pPort : Int

/-- The variables of the loop. `services` has the first `num_services` of the array, and no
section is current in the global scope. -/
structure LoadState where
  config : GlobalConfig
  services : List ServiceState
  legacy : LegacyService
  currentSection : Option Nat

/-- `MAX_SERVICES`. -/
def maxServices : Nat := 8

/-- What `load_config` begins with. -/
def LoadState.start : LoadState where
  config := ⟨[], 8888, [], [], 3478, [], [], 0⟩
  services := []
  legacy := ⟨[], lit "rtsp", lit "h264", 554, 9100⟩
  currentSection := none

/-- The service a section begins with, the `n`-th in the array. -/
def newService (n : Nat) (sectionName : Bytes) : ServiceState where
  cfg :=
    { serviceId := sectionName.take 127
      protocol := lit "rtsp"
      codec := lit "h264"
      p2pPort := 9100 + n
      consumerPort := 0
      localPort := 554 }
  keepaliveEnabled := 1
  nextConnId := 1

/-! ### Keys -/

/-- The keys of a section. -/
inductive SectionKey where
  | protocol | codec | localPort | p2pPort | consumerPort

/-- Their names, in the order they are compared with. -/
def sectionKeys : List (Bytes × SectionKey) :=
  [(lit "PROTOCOL", .protocol), (lit "CODEC", .codec), (lit "SERVICE_CODEC", .codec),
    (lit "LOCAL_PORT", .localPort), (lit "P2P_PORT", .p2pPort),
    (lit "CONSUMER_PORT", .consumerPort)]

/-- The keys of the whole provider. -/
inductive GlobalKey where
  | signalingServer | signalingPort | turnServerHost | turnServerPort | turnServerUsername
  | turnServerPassword | apiToken

/-- Their names. -/
def globalKeys : List (Bytes × GlobalKey) :=
  [(lit "SIGNALING_SERVER", .signalingServer), (lit "SIGNALING_PORT", .signalingPort),
    (lit "TURN_SERVER_HOST", .turnServerHost), (lit "TURN_SERVER_PORT", .turnServerPort),
    (lit "TURN_SERVER_USERNAME", .turnServerUsername),
    (lit "TURN_SERVER_PASSWORD", .turnServerPassword), (lit "API_TOKEN", .apiToken)]

/-- The keys of the service of a file without sections. -/
inductive LegacyKey where
  | serviceId | protocol | codec | localPort | p2pPort

/-- Their names, which are compared with after the global ones. -/
def legacyKeys : List (Bytes × LegacyKey) :=
  [(lit "SERVICE_ID", .serviceId), (lit "SERVICE_PROTOCOL", .protocol),
    (lit "SERVICE_CODEC", .codec), (lit "CODEC", .codec), (lit "LOCAL_SERVICE_PORT", .localPort),
    (lit "P2P_PORT", .p2pPort)]

/-- What a name stands for: the first `strcmp` that is zero. -/
def findKey {κ : Type} (names : List (Bytes × κ)) (key : Bytes) : Option κ :=
  (names.find? (·.1 == key)).map (·.2)

/-- `strncpy` or `atoi` into a field of the section's service. -/
def ServiceConfig.set (cfg : ServiceConfig) (k : SectionKey) (value : Bytes) : ServiceConfig :=
  match k with
  | .protocol => { cfg with protocol := value.take 15 }
  | .codec => { cfg with codec := value.take 15 }
  | .localPort => { cfg with localPort := atoi value }
  | .p2pPort => { cfg with p2pPort := atoi value }
  | .consumerPort => { cfg with consumerPort := atoi value }

/-- Into a field of `g_config`. -/
def GlobalConfig.set (config : GlobalConfig) (k : GlobalKey) (value : Bytes) : GlobalConfig :=
  match k with
  | .signalingServer => { config with signalingServer := value.take 255 }
  | .signalingPort => { config with signalingPort := atoi value }
  | .turnServerHost => { config with turnServerHost := value.take 255, turnServerEnabled := 1 }
  | .turnServerPort => { config with turnServerPort := atoi value % 2 ^ 16 }
  | .turnServerUsername => { config with turnServerUsername := value.take 255 }
  | .turnServerPassword => { config with turnServerPassword := value.take 255 }
  | .apiToken => { config with apiToken := value.take 255 }

/-- Into one of the `legacy_…` locals. -/
def LegacyService.set (legacy : LegacyService) (k : LegacyKey) (value : Bytes) : LegacyService :=
  match k with
  | .serviceId => { legacy with serviceId := value.take 127 }
  | .protocol => { legacy with protocol := value.take 15 }
  | .codec => { legacy with codec := value.take 15 }
  | .localPort => { legacy with localPort := atoi value }
  | .p2pPort => { legacy with p2pPort := atoi value }

/-! ### Lines -/

/-- A line of the file, as the loop tells them apart: one without effect (blank, a comment, a
divider or one without `=`), a header without `]`, a header, or a key with its value. -/
inductive ConfigLine where
  | skipped
  | malformed
  | header (sectionName : Bytes)
  | entry (key value : Bytes)
  deriving DecidableEq

/-- `trim_whitespace`. The first byte behind the spaces and tabs always stays, also when it is
the end of the line. -/
def trimWhitespace (s : Bytes) : Bytes :=
  match s.dropWhile (fun b ↦ b == 32 || b == 9) with
  | [] => []
  | b :: rest => b :: rest.rdropWhile isStripped

/-- What the loop makes of the buffer `fgets` has filled. -/
def readLine (buffer : Bytes) : ConfigLine :=
  match trimWhitespace (cstr buffer) with
  | [] => .skipped
  | 35 :: _ => .skipped
  | 91 :: rest =>
    if 93 ∈ rest then .header (trimWhitespace (rest.takeWhile (· ≠ 93))) else .malformed
  | trimmed =>
    match trimmed.dropWhile (· ≠ EQ) with
    | [] => .skipped
    | _ :: value =>
      .entry (trimWhitespace (trimmed.takeWhile (· ≠ EQ))) (trimWhitespace value)

/-- The lines of a file: what one `fgets` into `CONFIG_LINE_MAX` bytes reads each time. -/
def configLines (file : Bytes) : List ConfigLine := (fgetsLines file.length file).map readLine

/-! ### The loop -/

/-- A key in the global scope. -/
def LoadState.setGlobal (st : LoadState) (key value : Bytes) : LoadState :=
  match findKey globalKeys key with
  | some k => { st with config := st.config.set k value }
  | none =>
    match findKey legacyKeys key with
    | some k => { st with legacy := st.legacy.set k value }
    | none => st

/-- A key of a section: its service with the field set, if the name is known. -/
def ServiceState.assign (s : ServiceState) (key value : Bytes) : ServiceState :=
  match findKey sectionKeys key with
  | some k => { s with cfg := s.cfg.set k value }
  | none => s

/-- A key in the scope of a section. -/
def LoadState.setSection (st : LoadState) (i : Nat) (key value : Bytes) : LoadState :=
  { st with services := st.services.modify i (·.assign key value) }

/-- One round of the loop. -/
def loadLine (st : LoadState) : ConfigLine → LoadState
  | .skipped => st
  | .malformed => st
  | .header sectionName =>
    if maxServices ≤ st.services.length then st
    else { st with
      services := st.services ++ [newService st.services.length sectionName]
      currentSection := some st.services.length }
  | .entry key value =>
    match st.currentSection with
    | none => st.setGlobal key value
    | some i => st.setSection i key value

/-- The loop. -/
def load (lines : List ConfigLine) : LoadState := lines.foldl loadLine .start

/-- Whether the service of a file without sections is made. -/
def LoadState.usesLegacy (st : LoadState) : Bool :=
  st.services.isEmpty && !st.legacy.serviceId.isEmpty

/-- The services at the end. -/
def LoadState.configured (st : LoadState) : List ServiceState :=
  if st.usesLegacy then
    [{ cfg :=
        { serviceId := snprintf 128 [st.legacy.serviceId]
          protocol := snprintf 16 [st.legacy.protocol]
          codec := snprintf 16 [st.legacy.codec]
          p2pPort := st.legacy.p2pPort
          consumerPort := 0
          localPort := st.legacy.localPort }
       keepaliveEnabled := 1
       nextConnId := 1 }]
  else st.services

/-- `load_config` of a file that can be opened: the global settings and the services. -/
def loadConfig (file : Bytes) : GlobalConfig × List ServiceState :=
  let st := load (configLines file)
  (st.config, st.configured)

/-! ### Where a line stands -/

/-- A well-formed header. -/
def ConfigLine.isHeader : ConfigLine → Bool
  | .header _ => true
  | _ => false

/-- A header, well-formed or not. -/
def ConfigLine.isHeading : ConfigLine → Bool
  | .header _ | .malformed => true
  | _ => false

/-- How many well-formed headers there are among some lines. -/
def headers (lines : List ConfigLine) : Nat := lines.countP (·.isHeader)

/-- Before any header, under the header of a service, or under a header that is malformed or
beyond the maximum. -/
inductive Scope where
  | global
  | service (i : Nat)
  | nowhere

/-- Where a line stands that comes behind these, by the last header among them. -/
def scope (before : List ConfigLine) : Scope :=
  match before.reverse.dropWhile (!·.isHeading) with
  | [] => .global
  | .header _ :: earlier =>
    if headers earlier < maxServices then .service (headers earlier) else .nowhere
  | _ => .nowhere

@[simp] theorem headers_concat (before : List ConfigLine) (l : ConfigLine) :
    headers (before ++ [l]) = headers before + if l.isHeader then 1 else 0 := by
  simp [headers]

theorem load_concat (before : List ConfigLine) (l : ConfigLine) :
    load (before ++ [l]) = loadLine (load before) l := by
  simp [load]

theorem scope_concat (before : List ConfigLine) (l : ConfigLine) :
    scope (before ++ [l]) = match l with
      | .header _ => if headers before < maxServices then .service (headers before) else .nowhere
      | .malformed => .nowhere
      | _ => scope before := by
  unfold scope
  rw [List.reverse_concat]
  cases l with
  | header sectionName =>
    have hreverse : headers before.reverse = headers before := List.countP_reverse ..
    rw [List.dropWhile_cons_of_neg (by simp [ConfigLine.isHeading])]
    change (if headers before.reverse < _ then Scope.service (headers before.reverse) else _) = _
    rw [hreverse]
  | malformed => rfl
  | skipped => rfl
  | entry key value => rfl

theorem setGlobal_services (st : LoadState) (key value : Bytes) :
    (st.setGlobal key value).services = st.services := by
  unfold LoadState.setGlobal
  split
  · rfl
  · split <;> rfl

theorem setGlobal_currentSection (st : LoadState) (key value : Bytes) :
    (st.setGlobal key value).currentSection = st.currentSection := by
  unfold LoadState.setGlobal
  split
  · rfl
  · split <;> rfl

/-- The services and the current section after some lines, by the headers among them alone. -/
theorem load_eq (lines : List ConfigLine) :
    (load lines).services.length = min (headers lines) maxServices ∧
      (load lines).currentSection =
        if headers lines = 0 then none else some (min (headers lines) maxServices - 1) := by
  induction lines using List.reverseRecOn with
  | nil => exact ⟨rfl, rfl⟩
  | append_singleton before l ih =>
    obtain ⟨hlength, hcurrent⟩ := ih
    rw [load_concat, headers_concat]
    cases l with
    | skipped => exact ⟨hlength, hcurrent⟩
    | malformed => exact ⟨hlength, hcurrent⟩
    | header sectionName =>
      rw [loadLine, ConfigLine.isHeader, if_pos rfl, if_neg (Nat.succ_ne_zero _), hlength]
      split
      · next hfull =>
        have hmin : min (headers before) maxServices = maxServices := by omega
        have hmin' : min (headers before + 1) maxServices = maxServices := by omega
        rw [if_neg (by unfold maxServices at hfull; omega)] at hcurrent
        rw [hmin', hlength, hcurrent, hmin]
        exact ⟨rfl, rfl⟩
      · next hroom =>
        have hmin : min (headers before) maxServices = headers before := by omega
        have hmin' : min (headers before + 1) maxServices = headers before + 1 := by omega
        rw [hmin', hmin, List.length_append, hlength, hmin]
        exact ⟨rfl, rfl⟩
    | entry key value =>
      rw [loadLine]
      split
      · rw [setGlobal_services, setGlobal_currentSection]
        exact ⟨hlength, hcurrent⟩
      · exact ⟨(List.length_modify ..).trans hlength, hcurrent⟩

/-- Under the header of a service as many well-formed ones came before as it has in the array. -/
theorem headers_of_scope {before : List ConfigLine} {i : Nat} (h : scope before = .service i) :
    headers before = i + 1 ∧ i < maxServices := by
  induction before using List.reverseRecOn with
  | nil => cases h
  | append_singleton before l ih =>
    rw [scope_concat] at h
    rw [headers_concat]
    cases l with
    | skipped => exact ih h
    | malformed => cases h
    | header sectionName =>
      dsimp only at h
      split at h
      · next hroom =>
        cases h
        exact ⟨rfl, hroom⟩
      · cases h
    | entry key value => exact ih h

/-- In the scope of a service the code has it current. -/
theorem currentSection_of_scope {before : List ConfigLine} {i : Nat}
    (h : scope before = .service i) :
    (load before).currentSection = some i ∧ i < (load before).services.length := by
  obtain ⟨hheaders, hi⟩ := headers_of_scope h
  obtain ⟨hlength, hcurrent⟩ := load_eq before
  rw [hcurrent, hlength, hheaders, if_neg (Nat.succ_ne_zero i)]
  have hmin : min (i + 1) maxServices = i + 1 := by omega
  rw [hmin]
  exact ⟨rfl, Nat.lt_succ_self i⟩

/-! ### The service of a file without sections -/

/-- The value a line gives `SERVICE_ID`. -/
def serviceIdValue : ConfigLine → Option Bytes
  | .entry key value => if key = lit "SERVICE_ID" then some value else none
  | _ => none

/-- The last value given to `SERVICE_ID`. -/
def lastServiceId (lines : List ConfigLine) : Bytes :=
  ((lines.filterMap serviceIdValue).getLast?).getD []

theorem lastServiceId_concat (before : List ConfigLine) (l : ConfigLine) :
    lastServiceId (before ++ [l]) = (serviceIdValue l).getD (lastServiceId before) := by
  unfold lastServiceId
  rw [List.filterMap_append]
  cases h : serviceIdValue l with
  | none => simp [h]
  | some value => simp [h]

theorem mem_of_findKey {κ : Type} {names : List (Bytes × κ)} {key : Bytes} {k : κ}
    (h : findKey names key = some k) : (key, k) ∈ names := by
  obtain ⟨known, hfind, rfl⟩ := Option.map_eq_some_iff.mp h
  have hkey : known.1 = key := by simpa using List.find?_some hfind
  rw [← hkey]
  exact List.mem_of_find?_eq_some hfind

theorem setGlobal_serviceId (st : LoadState) (key value : Bytes) :
    (st.setGlobal key value).legacy.serviceId =
      if key = lit "SERVICE_ID" then value.take 127 else st.legacy.serviceId := by
  split
  · next hkey =>
    have hglobal : findKey globalKeys key = none := by rw [hkey]; decide
    have hlegacy : findKey legacyKeys key = some .serviceId := by rw [hkey]; rfl
    rw [LoadState.setGlobal, hglobal, hlegacy]
    rfl
  · next hkey =>
    unfold LoadState.setGlobal
    split
    · rfl
    · split
      · next k hk =>
        have hmem := mem_of_findKey hk
        cases k with
        | serviceId => exact absurd (by simpa [legacyKeys] using hmem) hkey
        | _ => rfl
      · rfl

theorem legacy_serviceId {lines : List ConfigLine} (h : headers lines = 0) :
    (load lines).legacy.serviceId = (lastServiceId lines).take 127 := by
  induction lines using List.reverseRecOn with
  | nil => rfl
  | append_singleton before l ih =>
    rw [headers_concat, Nat.add_eq_zero_iff] at h
    rw [load_concat, lastServiceId_concat]
    cases l with
    | skipped => exact ih h.1
    | malformed => exact ih h.1
    | header sectionName => cases h.2
    | entry key value =>
      rw [loadLine, (load_eq before).2, if_pos h.1]
      dsimp only
      rw [setGlobal_serviceId, serviceIdValue, ih h.1]
      split <;> rfl

/-- When the service of a file without sections is made. -/
theorem usesLegacy_iff (lines : List ConfigLine) :
    (load lines).usesLegacy = true ↔ headers lines = 0 ∧ lastServiceId lines ≠ [] := by
  have hempty : (load lines).services.isEmpty = true ↔ headers lines = 0 := by
    rw [List.isEmpty_iff_length_eq_zero, (load_eq lines).1]
    unfold maxServices
    omega
  rw [LoadState.usesLegacy, Bool.and_eq_true, hempty]
  refine and_congr_right fun h ↦ ?_
  rw [legacy_serviceId h]
  simp

/-- How many services there are at the end. -/
theorem length_loadConfig (file : Bytes) :
    (loadConfig file).2.length =
      if headers (configLines file) = 0 ∧ lastServiceId (configLines file) ≠ [] then 1
      else min (headers (configLines file)) maxServices := by
  change (load (configLines file)).configured.length = _
  rw [LoadState.configured]
  by_cases h : (load (configLines file)).usesLegacy = true
  · rw [if_pos h, if_pos ((usesLegacy_iff _).mp h)]
    rfl
  · rw [if_neg h, if_neg fun h' ↦ h ((usesLegacy_iff _).mpr h')]
    exact (load_eq _).1

/-! ### Isolation -/

/-- The sections of a file are isolated. `value'` is any value the line might give: that it
sets no field means that it leaves all of them as they are, whatever it gives. The services that
are counted are those `load_config` ends with. -/
structure Isolated (file : Bytes) : Prop where
  own : ∀ before key value after i, configLines file = before ++ .entry key value :: after →
    scope before = .service i → ∃ s, (load before).services[i]? = some s ∧
      (loadLine (load before) (.entry key value)).services =
        (load before).services.set i (s.assign key value)
  nowhere : ∀ before key value after, configLines file = before ++ .entry key value :: after →
    scope before = .nowhere → ∀ value',
      (loadLine (load before) (.entry key value')).services = (load before).services
  count : (loadConfig file).2.length = min (headers (configLines file)) maxServices

/-- No key that stands under a malformed header, or one too many, is one that the section before
it has, and a file without sections names no service. -/
def Harmless (lines : List ConfigLine) : Prop :=
  (∀ before key value after, lines = before ++ .entry key value :: after →
    scope before = .nowhere → headers before ≠ 0 → findKey sectionKeys key = none) ∧
      (headers lines = 0 → lastServiceId lines = [])

/-- Two values that no field holds alike. -/
theorem ServiceConfig.set_ne (cfg : ServiceConfig) (k : SectionKey) :
    cfg.set k (lit "1") ≠ cfg.set k (lit "2") := by
  have htext : (lit "1").take 15 ≠ (lit "2").take 15 := by decide
  have hnumber : atoi (lit "1") ≠ atoi (lit "2") := by decide
  intro h
  cases k with
  | protocol => exact htext (congrArg (·.protocol) h)
  | codec => exact htext (congrArg (·.codec) h)
  | localPort => exact hnumber (congrArg (·.localPort) h)
  | p2pPort => exact hnumber (congrArg (·.p2pPort) h)
  | consumerPort => exact hnumber (congrArg (·.consumerPort) h)

/-- A name that leaves a service as it is, whatever the value, is not one of a section. -/
theorem findKey_of_assign {s : ServiceState} {key : Bytes} (h : ∀ value, s.assign key value = s) :
    findKey sectionKeys key = none := by
  cases hk : findKey sectionKeys key with
  | none => rfl
  | some k =>
    have hset : ∀ value, s.cfg.set k value = s.cfg := fun value ↦ by
      have := congrArg ServiceState.cfg (h value)
      rwa [ServiceState.assign, hk] at this
    exact absurd ((hset (lit "1")).trans (hset (lit "2")).symm) (s.cfg.set_ne k)

/-- What one key does in the scope of a service. -/
theorem services_loadLine {before : List ConfigLine} {i : Nat} (h : scope before = .service i)
    (key value : Bytes) : ∃ s, (load before).services[i]? = some s ∧
      (loadLine (load before) (.entry key value)).services =
        (load before).services.set i (s.assign key value) := by
  obtain ⟨hcurrent, hi⟩ := currentSection_of_scope h
  have hs := List.getElem?_eq_getElem hi
  refine ⟨_, hs, ?_⟩
  rw [loadLine, hcurrent]
  change (load before).services.modify i _ = _
  rw [List.modify_eq_set_getElem?, hs]
  rfl

theorem loadLine_of_headers {before : List ConfigLine} (h : headers before ≠ 0) :
    ∃ i, i < (load before).services.length ∧ ∀ key value,
      loadLine (load before) (.entry key value) = (load before).setSection i key value := by
  obtain ⟨hlength, hcurrent⟩ := load_eq before
  rw [if_neg h] at hcurrent
  refine ⟨_, ?_, fun key value ↦ by rw [loadLine, hcurrent]⟩
  unfold maxServices at hlength ⊢
  omega

theorem loadLine_of_no_headers {before : List ConfigLine} (h : headers before = 0)
    (key value : Bytes) :
    loadLine (load before) (.entry key value) = (load before).setGlobal key value := by
  rw [loadLine, (load_eq before).2, if_pos h]

theorem findKey_of_nowhere {before : List ConfigLine} {key : Bytes} (hheaders : headers before ≠ 0)
    (h : ∀ value, (loadLine (load before) (.entry key value)).services = (load before).services) :
    findKey sectionKeys key = none := by
  obtain ⟨i, hi, hload⟩ := loadLine_of_headers hheaders
  have hs := List.getElem?_eq_getElem hi
  apply findKey_of_assign (s := (load before).services[i])
  intro value
  have hsame := congrArg (·[i]?) (h value)
  rw [hload] at hsame
  change ((load before).services.modify i _)[i]? = _ at hsame
  rw [List.getElem?_modify_eq, hs] at hsame
  exact Option.some.inj hsame

/-- As many services as headers: there is none without a section. -/
theorem count_iff (file : Bytes) :
    (loadConfig file).2.length = min (headers (configLines file)) maxServices ↔
      (headers (configLines file) = 0 → lastServiceId (configLines file) = []) := by
  rw [length_loadConfig]
  split
  · next hlegacy =>
    rw [hlegacy.1]
    exact ⟨fun h ↦ absurd h (by decide), fun h ↦ absurd (h rfl) hlegacy.2⟩
  · next hlegacy =>
    exact ⟨fun _ hheaders ↦ not_not.mp fun hid ↦ hlegacy ⟨hheaders, hid⟩, fun _ ↦ rfl⟩

theorem harmless_of_isolated {file : Bytes} (h : Isolated file) : Harmless (configLines file) :=
  ⟨fun before key value after hsplit hscope hheaders ↦
    findKey_of_nowhere hheaders (h.nowhere before key value after hsplit hscope),
    (count_iff file).mp h.count⟩

/-- The sections of a file are isolated exactly when no key of a service stands under a header
that is malformed or beyond the maximum, and the file is none without sections that names a
service. -/
theorem isolated_iff (file : Bytes) : Isolated file ↔ Harmless (configLines file) := by
  refine ⟨harmless_of_isolated, fun h ↦ ⟨fun before key value _ _ _ hscope ↦
    services_loadLine hscope key value, ?_, (count_iff file).mpr h.2⟩⟩
  intro before key value after hsplit hscope value'
  by_cases hheaders : headers before = 0
  · rw [loadLine_of_no_headers hheaders]
    exact setGlobal_services ..
  · obtain ⟨i, -, hload⟩ := loadLine_of_headers hheaders
    have hassign : ∀ s : ServiceState, s.assign key value' = s := fun s ↦ by
      rw [ServiceState.assign, h.1 before key value after hsplit hscope hheaders]
    rw [hload]
    change (load before).services.modify i (·.assign key value') = _
    rw [funext hassign]
    exact List.modify_id ..

/-- A header without `]` between two cameras. -/
def malformedFile : Bytes := lit "[cam1]\nCODEC=h264\n[cam2\nCODEC=h265\n"

/-- A ninth section. -/
def surplusFile : Bytes :=
  lit "[cam1]\n[cam2]\n[cam3]\n[cam4]\n[cam5]\n[cam6]\n[cam7]\n[cam8]\n" ++
    lit "LOCAL_PORT=8554\n[cam9]\nLOCAL_PORT=9554\n"

theorem sections_not_isolated : ¬ Isolated malformedFile ∧ ¬ Isolated surplusFile := by
  constructor
  · intro h
    have := (harmless_of_isolated h).1
      [.header (lit "cam1"), .entry (lit "CODEC") (lit "h264"), .malformed] (lit "CODEC")
      (lit "h265") [] (by decide +kernel) rfl (by decide)
    exact absurd this (by decide)
  · intro h
    have := (harmless_of_isolated h).1
      ((configLines surplusFile).take 10) (lit "LOCAL_PORT") (lit "9554") [] (by decide +kernel)
      (by rfl) (by decide +kernel)
    exact absurd this (by decide)

end Kitty.Provider
