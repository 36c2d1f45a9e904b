import Kitty.Signal.StatsJson

/-!
# What the statistics say

The document of `generate_json_stats` is JSON and lists the registered services with their strings
exactly when none of the strings needs an escape; `src/signaling-server/signaling_server.cpp:838–964`.
-/

namespace Kitty.Signal

open Kitty.Base
open Kitty.Base.Json (Value Shown)

/-! ### The list of services -/

/-- What is listed of a provider or of an SRT camera: its name and its other strings. -/
inductive StatsEntry where
  | provider (service peerId ip consumerIp protocol codec : Bytes)
  | srt (service ip consumerIp : Bytes)
  deriving DecidableEq

namespace StatsEntry

/-- The strings. -/
def strings : StatsEntry → List Bytes
  | provider service peerId ip consumerIp protocol codec =>
    [service, peerId, ip, consumerIp, protocol, codec]
  | srt service ip consumerIp => [service, ip, consumerIp]

/-- What is printed for the codec when it is empty. -/
def withCodec : StatsEntry → StatsEntry
  | provider service peerId ip consumerIp protocol codec =>
    provider service peerId ip consumerIp protocol (if codec = [] then lit "h264" else codec)
  | srt service ip consumerIp => srt service ip consumerIp

/-- The codec is given. -/
def HasCodec : StatsEntry → Prop
  | provider _ _ _ _ _ codec => codec ≠ []
  | srt .. => True

instance : (e : StatsEntry) → Decidable e.HasCodec
  | provider .. => inferInstanceAs (Decidable (_ ≠ _))
  | srt .. => isTrue trivial

/-- No string needs an escape, each is UTF-8, and the codec is given. -/
def Printable (e : StatsEntry) : Prop :=
  (∀ s ∈ e.strings, Json.Plain s ∧ isUtf8 s = true) ∧ e.HasCodec

instance (e : StatsEntry) : Decidable e.Printable := inferInstanceAs (Decidable (_ ∧ _))

/-- What a provider is in the registry. -/
def ofProvider (service : Bytes) (info : ProviderInfo) : StatsEntry :=
  provider service info.peerId info.ip info.consumerIp info.serviceProtocol info.serviceCodec

/-- What an SRT camera is in the registry. -/
def ofSrt (service : Bytes) (sp : SrtProviderInfo) : StatsEntry :=
  srt service sp.srflxIp sp.consumerIp

/-- What an item of the list says. -/
def decode (v : Value) : Option StatsEntry := do
  let service ← v.getText (lit "service_id")
  let ip ← v.getText (lit "ip")
  let consumerIp ← v.getText (lit "consumer_ip")
  let transport ← v.getText (lit "transport")
  if transport = lit "libjuice" then
    let peerId ← v.getText (lit "peer_id")
    let protocol ← v.getText (lit "protocol")
    let codec ← v.getText (lit "codec")
    some (provider service peerId ip consumerIp protocol codec)
  else if transport = lit "srt" then some (srt service ip consumerIp)
  else none

/-- Every string that is found is one in the item. -/
theorem occurs_of_decode {v : Value} {e : StatsEntry} (h : decode v = some e) :
    ∀ s ∈ e.strings, Json.Occurs s v := by
  obtain ⟨service, hservice, h⟩ := Option.bind_eq_some_iff.mp h
  obtain ⟨ip, hip, h⟩ := Option.bind_eq_some_iff.mp h
  obtain ⟨consumerIp, hconsumerIp, h⟩ := Option.bind_eq_some_iff.mp h
  obtain ⟨transport, -, h⟩ := Option.bind_eq_some_iff.mp h
  split at h
  · obtain ⟨peerId, hpeerId, h⟩ := Option.bind_eq_some_iff.mp h
    obtain ⟨protocol, hprotocol, h⟩ := Option.bind_eq_some_iff.mp h
    obtain ⟨codec, hcodec, h⟩ := Option.bind_eq_some_iff.mp h
    cases h
    simp only [strings, List.forall_mem_cons]
    exact ⟨.of_getText hservice, .of_getText hpeerId, .of_getText hip, .of_getText hconsumerIp,
      .of_getText hprotocol, .of_getText hcodec, fun _ h ↦ nomatch h⟩
  · split at h
    · cases h
      simp only [strings, List.forall_mem_cons]
      exact ⟨.of_getText hservice, .of_getText hip, .of_getText hconsumerIp, fun _ h ↦ nomatch h⟩
    · cases h

end StatsEntry

/-- What the list of a document says. -/
def decodeEntries (v : Value) : Option (List StatsEntry) :=
  match v.get (lit "providers") with
  | some (.array items) => items.mapM StatsEntry.decode
  | _ => none

/-- The registered services, in the order of the registries. -/
def StatsSnapshot.registered (snap : StatsSnapshot) : List StatsEntry :=
  (snap.providers.toList.map fun e ↦ .ofProvider e.1 e.2) ++
    snap.srtProviders.toList.map fun e ↦ .ofSrt e.1 e.2

/-- The document is JSON, and its list says exactly which services are registered, with their
strings. -/
def StatsSnapshot.Faithful (snap : StatsSnapshot) (doc : Bytes) : Prop :=
  (Json.parse doc).bind decodeEntries = some snap.registered

/-- A string of a registered service. -/
def StatsSnapshot.Stored (snap : StatsSnapshot) (s : Bytes) : Prop :=
  ∃ e ∈ snap.registered, s ∈ e.strings

/-! ### The members -/

/-- A member that is printed as it is: its name needs no escape, and its text is a stored string or
needs none either. -/
def MemberOk (stored : Bytes → Prop) (f : Bytes × Shown) : Prop :=
  Tame f.1 ∧
    match f.2 with
    | .text s => stored s ∨ Tame s
    | .bare t => Tame t ∧ (Json.scalarOf t).isSome = true

section Fields

variable {stored : Bytes → Prop} {key : Bytes}

private theorem memberOk_stored (hkey : Tame key) {s : Bytes} (h : stored s) :
    MemberOk stored (key, .text s) := ⟨hkey, .inl h⟩

private theorem memberOk_text (hkey : Tame key) {s : Bytes} (h : Tame s) :
    MemberOk stored (key, .text s) := ⟨hkey, .inr h⟩

private theorem memberOk_int (hkey : Tame key) (v : Int) :
    MemberOk stored (key, .bare (stdToString v)) :=
  ⟨hkey, tame_stdToString v, Json.scalarOf_isSome_of_isNumber (isNumber_stdToString v)⟩

private theorem memberOk_fixed (hkey : Tame key) (hundredths : Nat) :
    MemberOk stored (key, .bare (fixedText hundredths)) :=
  ⟨hkey, tame_fixedText hundredths, Json.scalarOf_isSome_of_isNumber (isNumber_fixedText _)⟩

private theorem memberOk_bool (hkey : Tame key) (b : Bool) :
    MemberOk stored (key, .bare (boolText b)) := by
  refine ⟨hkey, tame_boolText b, ?_⟩
  cases b <;> decide

private theorem memberOk_bare (hkey : Tame key) {t : Bytes}
    (h : Tame t ∧ (Json.scalarOf t).isSome = true) : MemberOk stored (key, .bare t) := ⟨hkey, h⟩

theorem serverFields_ok (cfg : Config) (page : StatsPage) :
    ∀ f ∈ serverFields cfg page, MemberOk stored f := by
  simp only [serverFields, List.forall_mem_cons]
  exact ⟨memberOk_text (by decide) (tame_getUptime _ _), memberOk_int (by decide) _,
    memberOk_int (by decide) _, memberOk_bool (by decide) _, memberOk_text (by decide) (by decide),
    fun _ h ↦ nomatch h⟩

theorem resourceFields_ok (quotient : Nat → Nat → Nat) (metrics : ResourceMetrics) :
    ∀ f ∈ resourceFields quotient metrics, MemberOk stored f := by
  simp only [resourceFields, List.forall_mem_cons]
  exact ⟨memberOk_fixed (by decide) _, memberOk_fixed (by decide) _, memberOk_int (by decide) _,
    memberOk_int (by decide) _, memberOk_int (by decide) _, memberOk_int (by decide) _,
    memberOk_text (by decide) (tame_formatBytes _ _),
    memberOk_text (by decide) (tame_formatBytes _ _),
    memberOk_text (by decide) ((tame_formatBytes _ _).append (by decide)),
    memberOk_text (by decide) ((tame_formatBytes _ _).append (by decide)), fun _ h ↦ nomatch h⟩

theorem statsFields_ok (snap : StatsSnapshot) : ∀ f ∈ statsFields snap, MemberOk stored f := by
  simp only [statsFields, List.forall_mem_cons]
  exact ⟨memberOk_int (by decide) _, memberOk_int (by decide) _, memberOk_int (by decide) _,
    memberOk_int (by decide) _, memberOk_int (by decide) _, memberOk_int (by decide) _,
    fun _ h ↦ nomatch h⟩

theorem providerFields_ok (quotient : Nat → Nat → Nat) (now : Int) {service : Bytes}
    {info : ProviderInfo} (h : ∀ s ∈ (StatsEntry.ofProvider service info).strings, stored s) :
    ∀ f ∈ providerFields quotient now service info, MemberOk stored f := by
  simp only [StatsEntry.ofProvider, StatsEntry.strings, List.forall_mem_cons] at h
  obtain ⟨hservice, hpeerId, hip, hconsumerIp, hprotocol, hcodec, -⟩ := h
  simp only [providerFields, List.forall_mem_cons]
  refine ⟨memberOk_stored (by decide) hservice, memberOk_stored (by decide) hpeerId,
    memberOk_stored (by decide) hip, memberOk_int (by decide) _, memberOk_int (by decide) _,
    memberOk_int (by decide) _, memberOk_int (by decide) _, memberOk_int (by decide) _,
    memberOk_int (by decide) _, memberOk_text (by decide) (tame_formatBytes _ _),
    memberOk_text (by decide) (tame_formatBytes _ _), memberOk_stored (by decide) hconsumerIp,
    memberOk_bool (by decide) _, memberOk_int (by decide) _, memberOk_int (by decide) _,
    memberOk_fixed (by decide) _, memberOk_int (by decide) _,
    memberOk_stored (by decide) hprotocol, ?_,
    memberOk_text (by decide) (by decide), fun _ h ↦ nomatch h⟩
  split
  · exact memberOk_text (by decide) (by decide)
  · exact memberOk_stored (by decide) hcodec

theorem srtProviderFields_ok (now : Int) {service : Bytes} {sp : SrtProviderInfo}
    (h : ∀ s ∈ (StatsEntry.ofSrt service sp).strings, stored s) :
    ∀ f ∈ srtProviderFields now service sp, MemberOk stored f := by
  simp only [StatsEntry.ofSrt, StatsEntry.strings, List.forall_mem_cons] at h
  obtain ⟨hservice, hip, hconsumerIp, -⟩ := h
  simp only [srtProviderFields, List.forall_mem_cons]
  exact ⟨memberOk_stored (by decide) hservice, memberOk_text (by decide) (by decide),
    memberOk_stored (by decide) hip, memberOk_int (by decide) _, memberOk_int (by decide) _,
    memberOk_bare (by decide) (by decide), memberOk_bare (by decide) (by decide),
    memberOk_bare (by decide) (by decide), memberOk_bare (by decide) (by decide),
    memberOk_text (by decide) (by decide), memberOk_text (by decide) (by decide),
    memberOk_stored (by decide) hconsumerIp, memberOk_bool (by decide) _,
    memberOk_bare (by decide) (by decide), memberOk_bare (by decide) (by decide),
    memberOk_bare (by decide) (by decide), memberOk_bare (by decide) (by decide),
    memberOk_text (by decide) (by decide), memberOk_text (by decide) (by decide),
    memberOk_text (by decide) (by decide), fun _ h ↦ nomatch h⟩

/-! ### The lines -/

theorem Tame.not_mem {text : Bytes} (h : Tame text) : Json.BACKSLASH ∉ text := h.2.not_mem

theorem Tame.isUtf8 {text : Bytes} (h : Tame text) : Base.isUtf8 text = true := by
  have hascii := isUtf8_append_of_ascii h.1 []
  rwa [List.append_nil] at hascii

private theorem tame_blanks (n : Nat) : Tame (List.replicate n 32) := by
  constructor
  · intro b hb
    rw [List.eq_of_mem_replicate hb]
    decide
  · intro b hb
    rw [List.eq_of_mem_replicate hb]
    decide

private theorem blank_blanks (n : Nat) : Json.Blank (List.replicate n 32) := fun b hb ↦ by
  rw [List.eq_of_mem_replicate hb]
  decide

variable {f : Bytes × Shown}

theorem MemberOk.sound (h : MemberOk stored f) (hstored : ∀ s, stored s → Json.Plain s) :
    Json.Plain f.1 ∧ f.2.Sound := by
  obtain ⟨name, shown⟩ := f
  obtain ⟨hname, hshown⟩ := h
  refine ⟨hname.2, ?_⟩
  cases shown with
  | text s => exact hshown.elim (hstored s) And.right
  | bare t => exact hshown.2

theorem MemberOk.isUtf8_line (h : MemberOk stored f) (hstored : ∀ s, stored s → isUtf8 s = true)
    (n : Nat) : isUtf8 (Json.line (List.replicate n 32) f.1 f.2.print) = true := by
  obtain ⟨name, shown⟩ := f
  obtain ⟨hname, hshown⟩ := h
  apply Json.isUtf8_line (tame_blanks n).isUtf8 hname.isUtf8
  cases shown with
  | text s =>
    have hs : isUtf8 s = true := hshown.elim (hstored s) Tame.isUtf8
    change isUtf8 (Json.QUOTE :: (s ++ [Json.QUOTE])) = true
    rw [isUtf8_cons_of_le (by decide), isUtf8_append_cons _ (by decide), hs]
    rfl
  | bare t => exact hshown.1.isUtf8

theorem MemberOk.lineKeeps (h : MemberOk stored f) (n : Nat) :
    Json.LineKeeps stored (Json.line (List.replicate n 32) f.1 f.2.print) := by
  obtain ⟨name, shown⟩ := f
  obtain ⟨hname, hshown⟩ := h
  have hname' := Json.not_mem_name (tame_blanks n).not_mem hname.not_mem
  have htame : ∀ text, Json.BACKSLASH ∉ text →
      Json.LineKeeps stored (Json.line (List.replicate n 32) name text) := fun text htext ↦ by
    apply Json.lineKeeps_of_not_mem
    rw [Json.line_eq, List.mem_append]
    rintro (hb | hb)
    · exact hname' hb
    · exact htext hb
  cases shown with
  | text s =>
    rcases hshown with hs | hs
    · exact Json.lineKeeps_quoted hs (tame_blanks n).not_mem hname.not_mem
    · exact htame _ (Json.not_mem_quoted hs.not_mem)
  | bare t => exact htame _ hshown.1.not_mem

variable {fields : List (Bytes × Shown)}

/-- An object of such members behind other text. -/
theorem lineKeeps_statsBlock {before : Bytes} (hbefore : Json.BACKSLASH ∉ before) (blanks : Nat)
    (h : ∀ f ∈ fields, MemberOk stored f) :
    Json.LineKeeps stored (before ++ statsBlock blanks fields) := by
  rw [statsBlock, Json.memberBlock, Json.append_block]
  apply Json.lineKeeps_lines
  · rw [List.mem_append]
    rintro (hb | hb)
    · exact hbefore hb
    · exact absurd hb (by decide)
  · rw [List.mem_append]
    rintro (hb | hb)
    · exact (tame_blanks _).not_mem hb
    · exact absurd hb (by decide)
  · intro l hl
    obtain ⟨f, hf, rfl⟩ := List.mem_map.mp hl
    exact (h f hf).lineKeeps blanks

theorem isUtf8_statsBlock {before : Bytes} (hbefore : isUtf8 before = true) (blanks : Nat)
    (h : ∀ f ∈ fields, MemberOk stored f) (hstored : ∀ s, stored s → isUtf8 s = true) :
    isUtf8 (before ++ statsBlock blanks fields) = true := by
  rw [statsBlock, Json.memberBlock, Json.append_block]
  apply Json.isUtf8_lines
  · rw [isUtf8_append_cons _ (by decide), hbefore]
    rfl
  · rw [isUtf8_append_cons _ (by decide), (tame_blanks _).isUtf8]
    rfl
  · intro l hl
    obtain ⟨f, hf, rfl⟩ := List.mem_map.mp hl
    exact (h f hf).isUtf8_line hstored blanks

theorem isText_statsBlock (blanks : Nat) (hne : fields ≠ []) (h : ∀ f ∈ fields, MemberOk stored f)
    (hstored : ∀ s, stored s → Json.Plain s) :
    Json.IsText (Json.memberValue fields) (statsBlock blanks fields) :=
  Json.isText_memberBlock (blank_blanks _) (blank_blanks _) hne fun f hf ↦ (h f hf).sound hstored

end Fields

/-! ### The document -/

section Document

variable (quotient : Nat → Nat → Nat) (cfg : Config) (page : StatsPage) (snap : StatsSnapshot)

/-- What the document means. -/
def statsDocument : Value :=
  .object
    [(lit "server", Json.memberValue (serverFields cfg page)),
      (lit "resources", Json.memberValue (resourceFields quotient page.resourceMetrics)),
      (lit "stats", Json.memberValue (statsFields snap)),
      (lit "providers", .array ((statsEntries quotient page.now snap).map Json.memberValue))]

theorem statsEntries_ok {fields : List (Bytes × Shown)}
    (h : fields ∈ statsEntries quotient page.now snap) :
    fields ≠ [] ∧ ∀ f ∈ fields, MemberOk snap.Stored f := by
  rcases List.mem_append.mp h with h | h
  · obtain ⟨e, he, rfl⟩ := List.mem_map.mp h
    refine ⟨List.cons_ne_nil _ _, providerFields_ok quotient page.now fun s hs ↦ ?_⟩
    exact ⟨.ofProvider e.1 e.2, List.mem_append_left _ (List.mem_map_of_mem he), hs⟩
  · obtain ⟨e, he, rfl⟩ := List.mem_map.mp h
    refine ⟨List.cons_ne_nil _ _, srtProviderFields_ok page.now fun s hs ↦ ?_⟩
    exact ⟨.ofSrt e.1 e.2, List.mem_append_right _ (List.mem_map_of_mem he), hs⟩

/-- In the document a literal with an escape stands inside one of the stored strings. -/
theorem keeps_generateJsonStats :
    Json.Keeps snap.Stored (generateJsonStats quotient cfg page snap) := by
  have hdoc : Json.LineKeeps snap.Stored ([] ++ Json.block []
      [Json.line (lit "  ") (lit "server") (statsBlock 4 (serverFields cfg page)),
        Json.line (lit "  ") (lit "resources")
          (statsBlock 4 (resourceFields quotient page.resourceMetrics)),
        Json.line (lit "  ") (lit "stats") (statsBlock 4 (statsFields snap)),
        Json.line (lit "  ") (lit "providers") (Json.listing (lit "  ")
          ((statsEntries quotient page.now snap).map fun fields ↦
            lit "    " ++ statsBlock 6 fields))]) := by
    rw [Json.append_block]
    apply Json.lineKeeps_lines (by decide) (by decide)
    simp only [List.forall_mem_cons, Json.line_eq]
    refine ⟨lineKeeps_statsBlock (by decide) 4 (serverFields_ok cfg page),
      lineKeeps_statsBlock (by decide) 4 (resourceFields_ok quotient _),
      lineKeeps_statsBlock (by decide) 4 (statsFields_ok snap), ?_, fun _ h ↦ nomatch h⟩
    rw [Json.append_listing]
    apply Json.lineKeeps_lines (by decide) (by decide)
    intro l hl
    obtain ⟨fields, hfields, rfl⟩ := List.mem_map.mp hl
    exact lineKeeps_statsBlock (by decide) 6 (statsEntries_ok quotient page snap hfields).2
  exact Json.keeps_append_LF hdoc.1 (Json.keeps_of_not_mem List.not_mem_nil)

theorem isUtf8_generateJsonStats (h : ∀ s, snap.Stored s → isUtf8 s = true) :
    isUtf8 (generateJsonStats quotient cfg page snap) = true := by
  have hdoc : isUtf8 ([] ++ Json.block []
      [Json.line (lit "  ") (lit "server") (statsBlock 4 (serverFields cfg page)),
        Json.line (lit "  ") (lit "resources")
          (statsBlock 4 (resourceFields quotient page.resourceMetrics)),
        Json.line (lit "  ") (lit "stats") (statsBlock 4 (statsFields snap)),
        Json.line (lit "  ") (lit "providers") (Json.listing (lit "  ")
          ((statsEntries quotient page.now snap).map fun fields ↦
            lit "    " ++ statsBlock 6 fields))]) = true := by
    rw [Json.append_block]
    apply Json.isUtf8_lines (by decide) (by decide)
    simp only [List.forall_mem_cons, Json.line_eq]
    refine ⟨isUtf8_statsBlock (by decide) 4 (serverFields_ok cfg page) h,
      isUtf8_statsBlock (by decide) 4 (resourceFields_ok quotient _) h,
      isUtf8_statsBlock (by decide) 4 (statsFields_ok snap) h, ?_, fun _ h ↦ nomatch h⟩
    rw [Json.append_listing]
    apply Json.isUtf8_lines (by decide) (by decide)
    intro l hl
    obtain ⟨fields, hfields, rfl⟩ := List.mem_map.mp hl
    exact isUtf8_statsBlock (by decide) 6 (statsEntries_ok quotient page snap hfields).2 h
  change isUtf8 (_ ++ LF :: []) = true
  rw [isUtf8_append_cons _ (by decide)]
  rw [List.nil_append] at hdoc
  rw [hdoc]
  rfl

/-- When no string needs an escape, the document means what is printed. -/
theorem parse_generateJsonStats (hplain : ∀ s, snap.Stored s → Json.Plain s)
    (hutf8 : ∀ s, snap.Stored s → isUtf8 s = true) :
    Json.parse (generateJsonStats quotient cfg page snap) =
      some (statsDocument quotient cfg page snap) := by
  have hentries : Json.IsText (.array ((statsEntries quotient page.now snap).map Json.memberValue))
      (Json.listing (lit "  ") ((statsEntries quotient page.now snap).map fun fields ↦
        lit "    " ++ statsBlock 6 fields)) := by
    apply Json.isText_listing (by decide) (by decide)
    intro fields hfields
    obtain ⟨hne, hok⟩ := statsEntries_ok quotient page snap hfields
    exact isText_statsBlock 6 hne hok hplain
  have hdoc := @Json.isText_block (Bytes × Bytes × Value) (·.1) (·.2.1) (·.2.2) (lit "  ") []
    (by decide) (by decide)
    [(lit "server", statsBlock 4 (serverFields cfg page), Json.memberValue (serverFields cfg page)),
      (lit "resources", statsBlock 4 (resourceFields quotient page.resourceMetrics),
        Json.memberValue (resourceFields quotient page.resourceMetrics)),
      (lit "stats", statsBlock 4 (statsFields snap), Json.memberValue (statsFields snap)),
      (lit "providers", Json.listing (lit "  ")
        ((statsEntries quotient page.now snap).map fun fields ↦ lit "    " ++ statsBlock 6 fields),
        .array ((statsEntries quotient page.now snap).map Json.memberValue))]
    (List.cons_ne_nil _ _) (by
      simp only [List.forall_mem_cons]
      exact ⟨⟨by decide,
          isText_statsBlock 4 (List.cons_ne_nil _ _) (serverFields_ok cfg page) hplain⟩,
        ⟨by decide,
          isText_statsBlock 4 (List.cons_ne_nil _ _) (resourceFields_ok quotient _) hplain⟩,
        ⟨by decide, isText_statsBlock 4 (List.cons_ne_nil _ _) (statsFields_ok snap) hplain⟩,
        ⟨by decide, hentries⟩, fun _ h ↦ nomatch h⟩)
  have hread := hdoc (lit "\n") (by decide +kernel)
  have hend : Json.Ws (lit "\n") [] := ⟨lit "\n", by simp, by decide +kernel⟩
  exact (Json.parse_eq_some_iff ..).mpr ⟨isUtf8_generateJsonStats quotient cfg page snap hutf8,
    _, _, Json.Ws.refl _, hread, hend⟩

/-! ### The list in the document -/

/-- The names of the members of an entry. -/
def entryKeys : List Bytes :=
  ["service_id", "peer_id", "ip", "p2p_port", "connected_duration", "messages_sent",
    "messages_received", "bytes_sent", "bytes_received", "bytes_sent_formatted",
    "bytes_received_formatted", "consumer_ip", "has_consumer", "total_downtime",
    "disconnect_count", "uptime_percentage", "consumer_port", "protocol", "codec",
    "transport"].map lit

private theorem nodup_entryKeys : entryKeys.Nodup := by decide

/-- The member at a place of an entry is found by its name. -/
private theorem getText_entry {fields : List (Bytes × Shown)}
    (hkeys : fields.map Prod.fst = entryKeys) (n : Nat) {key s : Bytes}
    (h : fields[n]? = some (key, .text s)) : (Json.memberValue fields).getText key = some s :=
  Json.getText_memberValue (hkeys ▸ nodup_entryKeys) (List.mem_of_getElem? h)

theorem decode_providerFields (now : Int) (service : Bytes) (info : ProviderInfo) :
    StatsEntry.decode (Json.memberValue (providerFields quotient now service info)) =
      some (StatsEntry.ofProvider service info).withCodec := by
  have hget := @getText_entry (providerFields quotient now service info) rfl
  rw [StatsEntry.decode, hget 0 rfl, hget 2 rfl, hget 11 rfl, hget 19 rfl, hget 1 rfl, hget 17 rfl,
    hget 18 rfl]
  rfl

theorem decode_srtProviderFields (now : Int) (service : Bytes) (sp : SrtProviderInfo) :
    StatsEntry.decode (Json.memberValue (srtProviderFields now service sp)) =
      some (StatsEntry.ofSrt service sp).withCodec := by
  have hget := @getText_entry (srtProviderFields now service sp) rfl
  rw [StatsEntry.decode, hget 0 rfl, hget 2 rfl, hget 11 rfl, hget 19 rfl]
  rfl

private theorem mapM_of_forall {α β γ : Type} {f : α → β} {g : α → γ} {decode : β → Option γ}
    (h : ∀ a, decode (f a) = some (g a)) (l : List α) :
    (l.map f).mapM decode = some (l.map g) := by
  induction l with
  | nil => rfl
  | cons a l ih =>
    rw [List.map_cons, List.mapM_cons, h, ih]
    rfl

/-- The list in the document says which services are registered, with a codec for each. -/
theorem decodeEntries_statsDocument :
    decodeEntries (statsDocument quotient cfg page snap) =
      some (snap.registered.map StatsEntry.withCodec) := by
  have hproviders : (statsDocument quotient cfg page snap).get (lit "providers") =
      some (.array ((statsEntries quotient page.now snap).map Json.memberValue)) := by
    have hkeys : [lit "server", lit "resources", lit "stats", lit "providers"].Nodup := by decide
    refine Json.get_of_mem ?_ (List.mem_of_getElem? (show _[3]? = _ from rfl))
    exact hkeys
  rw [decodeEntries, hproviders]
  dsimp only
  have hfirst := mapM_of_forall (fun e : Bytes × ProviderInfo ↦
    decode_providerFields quotient page.now e.1 e.2) snap.providers.toList
  have hsecond := mapM_of_forall (fun e : Bytes × SrtProviderInfo ↦
    decode_srtProviderFields page.now e.1 e.2) snap.srtProviders.toList
  rw [statsEntries, List.map_append, List.map_map, List.map_map, List.mapM_append]
  simp only [Function.comp_def]
  rw [hfirst, hsecond, StatsSnapshot.registered, List.map_append, List.map_map, List.map_map]
  rfl

/-- Every string of the list is one in the document. -/
theorem occurs_of_decodeEntries {v : Value} {entries : List StatsEntry}
    (h : decodeEntries v = some entries) {e : StatsEntry} (he : e ∈ entries) {s : Bytes}
    (hs : s ∈ e.strings) : Json.Occurs s v := by
  unfold decodeEntries at h
  split at h
  · next items hitems =>
    have hitem : ∃ item ∈ items, StatsEntry.decode item = some e := by
      clear hitems
      induction items generalizing entries with
      | nil =>
        cases h
        cases he
      | cons item items ih =>
        rw [List.mapM_cons] at h
        obtain ⟨first, hfirst, h⟩ := Option.bind_eq_some_iff.mp h
        obtain ⟨rest, hrest, h⟩ := Option.bind_eq_some_iff.mp h
        cases h
        rcases List.mem_cons.mp he with rfl | he
        · exact ⟨item, List.mem_cons_self, hfirst⟩
        · obtain ⟨item', hitem', hdecode⟩ := ih he hrest
          exact ⟨item', List.mem_cons_of_mem _ hitem', hdecode⟩
    obtain ⟨item, hmem, hdecode⟩ := hitem
    exact (Json.Occurs.item hmem (StatsEntry.occurs_of_decode hdecode s hs)).of_get hitems
  · cases h

theorem StatsEntry.withCodec_eq_self_iff (e : StatsEntry) : e.withCodec = e ↔ e.HasCodec := by
  cases e with
  | provider service peerId ip consumerIp protocol codec =>
    rw [withCodec, HasCodec, provider.injEq]
    simp only [true_and, ite_eq_right_iff]
    constructor
    · intro h hnil
      exact absurd (h hnil) (by rw [hnil]; decide)
    · exact fun h hnil ↦ absurd hnil h
  | srt => simp [withCodec, HasCodec]

/-- The strings of a faithful document need no escape. -/
theorem plain_of_faithful (h : snap.Faithful (generateJsonStats quotient cfg page snap)) {s : Bytes}
    (hs : snap.Stored s) : Json.Plain s ∧ isUtf8 s = true := by
  obtain ⟨v, hparse, hdecode⟩ := Option.bind_eq_some_iff.mp h
  have hliteral : ∀ s, snap.Stored s →
      Json.Literal s (generateJsonStats quotient cfg page snap) := by
    rintro s ⟨e, he, hs⟩
    exact Json.literal_of_parse hparse (occurs_of_decodeEntries hdecode he hs)
  obtain ⟨hplain, hquoted⟩ :=
    Json.plain_of_literals (keeps_generateJsonStats quotient cfg page snap) hliteral hs
  exact ⟨hplain, Json.isUtf8_of_quoted ((Json.parse_eq_some_iff ..).mp hparse).1 hquoted⟩

/-- The document is faithful exactly when all the strings can be printed as they are and each
provider has a codec. -/
theorem faithful_iff : snap.Faithful (generateJsonStats quotient cfg page snap) ↔
    ∀ e ∈ snap.registered, e.Printable := by
  have hlist (hplain : ∀ s, snap.Stored s → Json.Plain s)
      (hutf8 : ∀ s, snap.Stored s → isUtf8 s = true) :
      snap.Faithful (generateJsonStats quotient cfg page snap) ↔
        ∀ e ∈ snap.registered, e.HasCodec := by
    rw [StatsSnapshot.Faithful, parse_generateJsonStats quotient cfg page snap hplain hutf8,
      Option.bind_some, decodeEntries_statsDocument, Option.some.injEq]
    simp only [← StatsEntry.withCodec_eq_self_iff]
    have hmap := @List.map_inj_left _ _ snap.registered StatsEntry.withCodec id
    rw [List.map_id] at hmap
    exact hmap
  constructor
  · intro h
    have hstored : ∀ s, snap.Stored s → Json.Plain s ∧ isUtf8 s = true := fun s hs ↦
      plain_of_faithful quotient cfg page snap h hs
    have hcodec := (hlist (fun s hs ↦ (hstored s hs).1) fun s hs ↦ (hstored s hs).2).mp h
    exact fun e he ↦ ⟨fun s hs ↦ hstored s ⟨e, he, hs⟩, hcodec e he⟩
  · intro h
    have hstored : ∀ s, snap.Stored s → Json.Plain s ∧ isUtf8 s = true := by
      rintro s ⟨e, he, hs⟩
      exact (h e he).1 s hs
    exact (hlist (fun s hs ↦ (hstored s hs).1) fun s hs ↦ (hstored s hs).2).mpr
      fun e he ↦ (h e he).2

end Document

end Kitty.Signal
