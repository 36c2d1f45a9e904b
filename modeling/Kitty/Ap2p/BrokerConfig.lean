import Kitty.Ap2p.Bootstrap
import Kitty.CJson.Documents

/-!
# The broker in the bootstrap file

Two parts of the program read `config.json`: `ap2p_state_load_bootstrap` of `src/ap2p/config.c` by a
search for the keys, and `load_mqtt_config` of `src/ap2p/legacy_cases.c` by cJSON. They come to the
same broker and the same login.
-/

namespace Kitty.Ap2p

open Kitty.Base Kitty.Base.Json
open Kitty.CJson (Item CDouble HasItem cJSONParse itemOf membersOf caseInsensitiveStrcmp)

/-! ### The program -/

/-- What the bootstrap file gives `ap2p_state_t`, whose arrays are zero before. -/
structure BootstrapConfig where
  mqttUrl : Bytes
  mqttUrlBkp : Bytes
  mqttUser : Bytes
  mqttPass : Bytes
  deriving DecidableEq

/-- `ap2p_state_load_bootstrap`, with what the file has; it reads 4095 bytes. -/
def ap2pStateLoadBootstrap (file : Bytes) : Option BootstrapConfig :=
  let buf := cstr (file.take 4095)
  if file = [] then none
  else
    (extractJsonString buf (lit "mqttUrl") 256).map fun url ↦
      { mqttUrl := url.take 255
        mqttUrlBkp := (extractJsonString buf (lit "mqttUrl_BKP") 256).getD []
        mqttUser := (extractJsonString buf (lit "username") 64).getD []
        mqttPass := (extractJsonString buf (lit "password") 64).getD [] }

/-- `MQTT_MAIN_HOST`, `MQTT_BACKUP_HOST`, `USERNAME` and `PASSWORD`. -/
structure MqttConfig where
  mainHost : Bytes
  backupHost : Bytes
  username : Bytes
  password : Bytes
  deriving DecidableEq

/-- How `load_mqtt_config` ends; `%s` is not defined for the null pointer of an item that is no
string. -/
inductive MqttLoad where
  | fails
  | undefined
  | loads (config : MqttConfig)
  deriving DecidableEq

section Cjson

variable (D : Type) [CDouble D]

/-- `load_mqtt_config`, with what the file has; it reads 1023 bytes. -/
def loadMqttConfig (file : Bytes) : MqttLoad :=
  match cJSONParse (D := D) (file.take 1023) with
  | none => .fails
  | some json =>
    match json.getObjectItem (lit "mqttUrl"), json.getObjectItem (lit "username"),
        json.getObjectItem (lit "password") with
    | some broker, some username, some password =>
      match broker.valuestring, username.valuestring, password.valuestring with
      | some broker, some username, some password =>
        let backup := (json.getObjectItem (lit "mqttUrl_BKP")).bind Item.valuestring
        .loads
          { mainHost := snprintf 256 [broker]
            backupHost := snprintf 256 [backup.getD broker]
            username := snprintf 64 [username]
            password := snprintf 64 [password] }
      | _, _, _ => .undefined
    | _, _, _ => .fails

end Cjson

/-! ### Members -/

/-- No other name of the object is this key in other letters. -/
def OneCase (o : FlatObject) (key : Bytes) : Prop :=
  ∀ m ∈ o.members, caseInsensitiveStrcmp key m.name = true → m.name = key

instance (o : FlatObject) (key : Bytes) : Decidable (OneCase o key) := List.decidableBAll _ o.members

/-- The key leads to its member in the text, and to no other in the item. -/
def Unambiguous (o : FlatObject) (key : Bytes) : Prop := KeyLeadsToMember o key ∧ OneCase o key

variable {D : Type} [CDouble D] {o : FlatObject} {key s : Bytes}

/-- What `extract_json_string` copies. -/
private theorem extractJsonString_eq (h : o.WellFormed) (hkey : KeyLeadsToMember o key)
    (outSz : Nat) : extractJsonString o.text key outSz =
      (o.stringMember key).map fun (_, s, _) ↦ s.take (outSz - 1) := by
  rw [extractJsonString, (jsonStart_eq_iff h key).mpr hkey, Option.map_map]
  cases hm : o.stringMember key with
  | none => rfl
  | some found =>
    obtain ⟨m, s, colon⟩ := found
    obtain ⟨-, hplain, rest, hdrop⟩ := drop_stringMember h hm
    have hstring : o.text.drop (colon + 1 + m.afterColon.length + 1) = s ++ QUOTE :: rest := by
      rw [Nat.add_assoc, Nat.add_assoc, ← List.drop_drop, hdrop,
        show COLON :: (m.afterColon ++ QUOTE :: (s ++ QUOTE :: rest)) =
          COLON :: (m.afterColon ++ [QUOTE]) ++ (s ++ QUOTE :: rest) by simp,
        show 1 + (m.afterColon.length + 1) = (COLON :: (m.afterColon ++ [QUOTE])).length by
          simp [Nat.add_comm], List.drop_left]
    simp only [Option.map_some, Function.comp_apply]
    rw [hstring, takeWhile_ne_append_cons fun hq ↦ (hplain QUOTE hq).2.1 rfl]

private theorem caseInsensitiveStrcmp_self (key : Bytes) : caseInsensitiveStrcmp key key = true :=
  beq_self_eq_true _

/-- The item of a flat value has its string, and nothing in it. -/
private theorem item_flatValue {v : FlatValue} (h : v.WellFormed) {item : Item D}
    (hitem : itemOf v.value = some item) : item.valuestring = v.string? ∧ item.nesting = 0 := by
  cases v with
  | string s =>
    have hnul : NUL ∉ s := fun hmem ↦ absurd (h NUL hmem).1 (by decide)
    obtain ⟨s', hs, rfl⟩ := Option.map_eq_some_iff.mp hitem
    rw [(CJson.eq_of_textOf hs).1, Item.valuestring, cstr_of_nul_not_mem hnul]
    exact ⟨rfl, rfl⟩
  | token text =>
    obtain ⟨w, hw⟩ := Option.isSome_iff_exists.mp h
    rw [FlatValue.value, hw, Option.getD_some] at hitem
    unfold scalarOf at hw
    repeat' split at hw
    all_goals cases hw
    · cases hitem
      exact ⟨rfl, rfl⟩
    · cases hitem
      exact ⟨rfl, rfl⟩
    · cases hitem
      exact ⟨rfl, rfl⟩
    · obtain ⟨d, -, rfl⟩ := Option.map_eq_some_iff.mp hitem
      exact ⟨rfl, rfl⟩

/-- cJSON finds the member that has the name, when no other name is the same in other letters. -/
private theorem getObjectItem_members {ms : List FlatMember} (h : ∀ m ∈ ms, m.WellFormed)
    (hcase : ∀ m ∈ ms, caseInsensitiveStrcmp key m.name = true → m.name = key)
    {members : List (Bytes × Item D)}
    (hmembers : membersOf (ms.map fun m ↦ (m.name, m.value.value)) = some members) (place : Nat) :
    (((Item.object members).getObjectItem key).map Item.valuestring) =
      (memberFrom key ms place).map fun (m, _) ↦ m.value.string? := by
  induction ms generalizing members place with
  | nil =>
    cases hmembers
    rfl
  | cons m ms ih =>
    obtain ⟨name, hname, heq⟩ := Option.bind_eq_some_iff.mp hmembers
    obtain ⟨item, hitem, heq⟩ := Option.bind_eq_some_iff.mp heq
    obtain ⟨rest, hrest, rfl⟩ := Option.map_eq_some_iff.mp heq
    have hname := (CJson.eq_of_textOf hname).1
    have hvalue := (item_flatValue (h m List.mem_cons_self).2.2.2.2.2 hitem).1
    have htail := ih (fun n hn ↦ h n (List.mem_cons_of_mem _ hn))
      (fun n hn ↦ hcase n (List.mem_cons_of_mem _ hn)) hrest (place + m.text.length + 1)
    subst hname
    rw [Item.getObjectItem, List.find?_cons, memberFrom]
    by_cases hkey : m.name = key
    · have hsame : caseInsensitiveStrcmp key m.name = true := by
        rw [hkey]
        exact caseInsensitiveStrcmp_self key
      rw [hsame, if_pos hkey]
      exact congrArg some hvalue
    · have hother : caseInsensitiveStrcmp key m.name = false := Bool.not_eq_true _ ▸ fun hsame ↦
        hkey (hcase m List.mem_cons_self hsame)
      rw [hother, if_neg hkey]
      exact htail

/-- What cJSON finds for a key in the object. -/
private theorem getObjectItem_flat (h : o.WellFormed) (hcase : OneCase o key)
    {members : List (Bytes × Item D)} (hmembers : membersOf o.values = some members) :
    ((Item.object members).getObjectItem key).bind Item.valuestring =
      (o.stringMember key).map fun (_, s, _) ↦ s := by
  have hfind := getObjectItem_members h.2.2.2 hcase hmembers (o.lead.length + 1 + o.inner.length)
  change _ = (o.member key).map _ at hfind
  rw [FlatObject.stringMember]
  cases hitem : (Item.object members).getObjectItem key with
  | none =>
    rw [hitem] at hfind
    cases hm : o.member key with
    | none => rfl
    | some found =>
      rw [hm] at hfind
      cases hfind
  | some item =>
    rw [hitem] at hfind
    cases hm : o.member key with
    | none =>
      rw [hm] at hfind
      cases hfind
    | some found =>
      obtain ⟨m, colon⟩ := found
      rw [hm] at hfind
      have hvalue : item.valuestring = m.value.string? := Option.some.inj hfind
      rw [Option.bind_some, Option.bind_some, hvalue]
      dsimp only
      cases m.value.string? <;> rfl

private theorem nesting_flat {ms : List FlatMember} (h : ∀ m ∈ ms, m.WellFormed)
    {members : List (Bytes × Item D)}
    (hmembers : membersOf (ms.map fun m ↦ (m.name, m.value.value)) = some members) :
    CJson.membersNesting members = 0 := by
  induction ms generalizing members with
  | nil =>
    cases hmembers
    rfl
  | cons m ms ih =>
    obtain ⟨name, -, heq⟩ := Option.bind_eq_some_iff.mp hmembers
    obtain ⟨item, hitem, heq⟩ := Option.bind_eq_some_iff.mp heq
    obtain ⟨rest, hrest, rfl⟩ := Option.map_eq_some_iff.mp heq
    have hzero := (item_flatValue (h m List.mem_cons_self).2.2.2.2.2 hitem).2
    rw [CJson.membersNesting, hzero, ih (fun n hn ↦ h n (List.mem_cons_of_mem _ hn)) hrest]
    rfl

/-- cJSON reads the object. -/
private theorem cJSONParse_flat (h : o.WellFormed) {members : List (Bytes × Item D)}
    (hmembers : membersOf o.values = some members) :
    cJSONParse o.text = some (.object members) ∧ NUL ∉ o.text := by
  obtain ⟨l, hws, hreads⟩ := h.reads
  have hend : Ws o.trail [] := by
    have hblank := h.2.2.1.ws []
    rwa [List.append_nil] at hblank
  have hitem : itemOf (.object o.values) = some (Item.object members) := by
    rw [itemOf, hmembers, Option.map_some]
  have hnesting : (Item.object members).nesting ≤ CJson.nestingLimit := by
    rw [Item.nesting, nesting_flat h.2.2.2 hmembers]
    decide
  obtain ⟨parseEnd, hparse⟩ :=
    CJson.parseWithOpts_of_reads hws hreads hend hitem hnesting false
  exact ⟨by rw [cJSONParse, hparse], Json.nul_not_mem_document hws hreads hend⟩

/-! ### The two readers -/

/-- The string of the member of a name. -/
def FlatObject.string (o : FlatObject) (key : Bytes) : Option Bytes :=
  (o.stringMember key).map fun (_, s, _) ↦ s

private theorem snprintf_string (h : o.WellFormed) (hs : o.string key = some s) (size : Nat) :
    snprintf size [s] = s.take (size - 1) := by
  obtain ⟨⟨m, s', colon⟩, hm, rfl⟩ := Option.map_eq_some_iff.mp hs
  obtain ⟨-, hplain, -⟩ := drop_stringMember h hm
  have hnul : NUL ∉ s' := fun hmem ↦ absurd (hplain NUL hmem).1 (by decide)
  rw [snprintf, List.flatMap_singleton, cstr_of_nul_not_mem hnul]

/-- A flat file of at most 1023 bytes that cJSON has an item for, whose broker, user name and password
are strings, and in which no key can be taken for another, gives both readers the same broker and
the same login; the backup broker is the same as well when there is one, and otherwise one of them
takes the broker for it. -/
theorem brokers_agree {url user pass : Bytes} (h : o.WellFormed)
    (hlength : o.text.length ≤ 1023) (hitem : HasItem D (.object o.values))
    (hkeys : ∀ key ∈ [lit "mqttUrl", lit "mqttUrl_BKP", lit "username", lit "password"],
      Unambiguous o key)
    (hurl : o.string (lit "mqttUrl") = some url) (huser : o.string (lit "username") = some user)
    (hpass : o.string (lit "password") = some pass) :
    let b : BootstrapConfig :=
      { mqttUrl := url.take 255
        mqttUrlBkp := ((o.string (lit "mqttUrl_BKP")).getD []).take 255
        mqttUser := user.take 63
        mqttPass := pass.take 63 }
    ap2pStateLoadBootstrap o.text = some b ∧
      loadMqttConfig D o.text = .loads
        { mainHost := b.mqttUrl
          backupHost := if (o.string (lit "mqttUrl_BKP")).isSome then b.mqttUrlBkp else b.mqttUrl
          username := b.mqttUser
          password := b.mqttPass } := by
  obtain ⟨members, hmembers, -⟩ := CJson.exists_membersOf hitem
  obtain ⟨hparse, hnul⟩ := cJSONParse_flat h hmembers
  have hread : cstr (o.text.take 4095) = o.text := by
    rw [List.take_of_length_le (by omega), cstr_of_nul_not_mem hnul]
  have hne : o.text ≠ [] := by
    rw [FlatObject.text]
    simp
  have hextract : ∀ key ∈ [lit "mqttUrl", lit "mqttUrl_BKP", lit "username", lit "password"],
      ∀ outSz, extractJsonString o.text key outSz = (o.string key).map (·.take (outSz - 1)) := by
    intro key hkey outSz
    rw [extractJsonString_eq h (hkeys key hkey).1, FlatObject.string, Option.map_map]
    rfl
  have hfind : ∀ key ∈ [lit "mqttUrl", lit "mqttUrl_BKP", lit "username", lit "password"],
      ((Item.object members).getObjectItem key).bind Item.valuestring = o.string key :=
    fun key hkey ↦ getObjectItem_flat h (hkeys key hkey).2 hmembers
  have hstring : ∀ key s, ((Item.object members).getObjectItem key).bind Item.valuestring = some s →
      ∃ item, (Item.object members).getObjectItem key = some item ∧ item.valuestring = some s :=
    fun key s hs ↦ Option.bind_eq_some_iff.mp hs
  simp only [List.forall_mem_cons] at hextract hfind
  obtain ⟨hextractUrl, hextractBkp, hextractUser, hextractPass, -⟩ := hextract
  obtain ⟨hfindUrl, hfindBkp, hfindUser, hfindPass, -⟩ := hfind
  obtain ⟨broker, hbroker, hbrokerString⟩ := hstring _ _ (hfindUrl.trans hurl)
  obtain ⟨username, husername, husernameString⟩ := hstring _ _ (hfindUser.trans huser)
  obtain ⟨password, hpassword, hpasswordString⟩ := hstring _ _ (hfindPass.trans hpass)
  constructor
  · rw [ap2pStateLoadBootstrap, hread, if_neg hne, hextractUrl, hextractBkp, hextractUser,
      hextractPass, hurl, huser, hpass]
    simp only [Option.map_some, Option.getD_some, List.take_take, Nat.min_self]
    cases o.string (lit "mqttUrl_BKP") <;> rfl
  · rw [loadMqttConfig, List.take_of_length_le hlength, hparse]
    simp only [hbroker, husername, hpassword, hbrokerString, husernameString, hpasswordString,
      hfindBkp]
    rw [snprintf_string h hurl, snprintf_string h huser, snprintf_string h hpass]
    cases hbkp : o.string (lit "mqttUrl_BKP") with
    | none =>
      rw [Option.getD_none, snprintf_string h hurl]
      rfl
    | some backup =>
      rw [Option.getD_some, snprintf_string h hbkp]
      rfl

/-- A file with two brokers, a login and a number. -/
def brokerObject : FlatObject :=
  ⟨[], [], [member (lit "mqttUrl") (.string (lit "tcp://10.0.0.5:1883")),
    member (lit "mqttUrl_BKP") (.string (lit "tcp://10.0.0.6:1883")),
    member (lit "username") (.string (lit "cam")), member (lit "password") (.string (lit "s3cret")),
    member (lit "productType") (.token (lit "7"))], [LF]⟩

theorem brokers_agree_brokerObject :
    ap2pStateLoadBootstrap brokerObject.text =
        some ⟨lit "tcp://10.0.0.5:1883", lit "tcp://10.0.0.6:1883", lit "cam", lit "s3cret"⟩ ∧
      loadMqttConfig Int brokerObject.text = .loads
        ⟨lit "tcp://10.0.0.5:1883", lit "tcp://10.0.0.6:1883", lit "cam", lit "s3cret"⟩ := by
  have hwf : brokerObject.WellFormed := by decide +kernel
  have hutf8 : ∀ m ∈ brokerObject.members, isUtf8 m.name = true ∧
      ∀ s ∈ m.value.string?, isUtf8 s = true := by decide +kernel
  have hitem : HasItem Int (.object brokerObject.values) := by
    simp only [brokerObject, List.forall_mem_cons] at hutf8
    obtain ⟨⟨hurl, hurlText⟩, ⟨hbkp, hbkpText⟩, ⟨huser, huserText⟩, ⟨hpass, hpassText⟩,
      ⟨htype, -⟩, -⟩ := hutf8
    exact ⟨hurl, hurlText _ rfl, hbkp, hbkpText _ rfl, huser, huserText _ rfl, hpass,
      hpassText _ rfl, htype, ⟨by decide, 7, by decide⟩, trivial⟩
  have hkeys : ∀ key ∈ [lit "mqttUrl", lit "mqttUrl_BKP", lit "username", lit "password"],
      Unambiguous brokerObject key := by
    simp only [List.forall_mem_cons]
    refine ⟨⟨(jsonStart_eq_iff hwf _).mp ?_, ?_⟩, ⟨(jsonStart_eq_iff hwf _).mp ?_, ?_⟩,
      ⟨(jsonStart_eq_iff hwf _).mp ?_, ?_⟩, ⟨(jsonStart_eq_iff hwf _).mp ?_, ?_⟩,
      List.forall_mem_nil _⟩ <;> decide +kernel
  have hbkp : brokerObject.string (lit "mqttUrl_BKP") = some (lit "tcp://10.0.0.6:1883") := by
    decide +kernel
  have hagree := @brokers_agree Int _ brokerObject (lit "tcp://10.0.0.5:1883") (lit "cam")
    (lit "s3cret") hwf (by decide +kernel) hitem hkeys (by decide +kernel) (by decide +kernel)
    (by decide +kernel)
  simp only [hbkp] at hagree
  exact hagree

end Kitty.Ap2p
