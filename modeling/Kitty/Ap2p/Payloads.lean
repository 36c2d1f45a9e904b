import Kitty.Ap2p.PayloadLines
import Kitty.Base.Run

/-!
# What a payload means

A payload gives each field of the configuration the value of the last line that names its key;
`src/ap2p/config.c:1–152`. Whether it is accepted is decided by the host in the configuration
after it, not by the host in the payload, which is what `src/ap2p/state.h:88–94` promises.
-/

namespace Kitty.Ap2p

open Kitty.Base
open Kitty.Signal (isSpace isDigit splitSign signedValue InIntRange)

/-! ### Keys and values of the fields -/

/-- The key of a field. -/
def Field.key : Field → Bytes
  | .nodeId => lit "NODE_ID"
  | .ctrlHost => lit "CTRL_HOST"
  | .ctrlPort => lit "CTRL_PORT"
  | .ctrlScheme => lit "CTRL_SCHEME"
  | .ctrlToken => lit "CTRL_TOKEN"
  | .edgeHost => lit "EDGE_HOST"
  | .edgePort => lit "EDGE_PORT"
  | .relayHost => lit "RELAY_HOST"
  | .relayPort => lit "RELAY_PORT"
  | .relayUser => lit "RELAY_USER"
  | .relayPass => lit "RELAY_PASS"
  | .srcHost => lit "SRC_HOST"
  | .srcPort => lit "SRC_PORT"
  | .srcPath => lit "SRC_PATH"
  | .srcAuth => lit "SRC_AUTH"
  | .latencyMs => lit "LATENCY_MS"
  | .verbose => lit "VERBOSE"

/-- The size of a field's array; a number has none. -/
def Field.capacity : Field → Option Nat
  | .nodeId | .relayUser | .relayPass | .srcHost => some 64
  | .ctrlHost | .ctrlToken | .edgeHost | .relayHost | .srcAuth => some 128
  | .ctrlScheme => some 8
  | .srcPath => some 256
  | .ctrlPort | .edgePort | .relayPort | .srcPort | .latencyMs | .verbose => none

/-- A text in an array, with NULs behind it. -/
def padded (size : Nat) (text : Bytes) : Bytes := text ++ List.replicate (size - text.length) NUL

/-- The decimal integer a text begins with. -/
def decimalValue (text : Bytes) : Int :=
  let (negative, rest) := splitSign (text.dropWhile isSpace)
  signedValue negative (rest.takeWhile isDigit)

/-- What a value means for a field: as much of the text as the array has room for, or the
number. -/
def Field.meaning (f : Field) (val : Bytes) : FieldValue :=
  match f.capacity with
  | some size => .str (padded size (val.take (size - 1)))
  | none => .int (decimalValue val)

/-- `atoi` reads a number that an `int` holds. -/
theorem atoi_eq {text : Bytes} (h : InIntRange (decimalValue text)) :
    atoi text = decimalValue text := by
  have hclamp : atoi text = max (-2 ^ 31) (min (2 ^ 31 - 1) (decimalValue text)) := rfl
  have hlow := h.1
  have hhigh := h.2
  rw [hclamp]
  omega

/-- What `apply_field` stores is what the value means. -/
theorem stored_eq_meaning {f : Field} {val : Bytes}
    (h : f.capacity = none → InIntRange (decimalValue val)) : f.stored val = f.meaning val := by
  cases f
  case ctrlPort | edgePort | relayPort | srcPort | latencyMs | verbose =>
    exact congrArg FieldValue.int (atoi_eq (h rfl))
  all_goals rfl

private theorem key_of_mem_kFields : ∀ entry ∈ kFields, entry.1 = entry.2.key := by decide

private theorem find?_kFields (f : Field) :
    kFields.find? (·.1 = f.key) = some (f.key, f) := by
  cases f <;> rfl

/-- A line writes to the field whose key it names. -/
theorem lineWrite_eq_some_iff {line : Bytes} {f : Field} {val : Bytes} :
    lineWrite line = some (f, val) ↔
      EQ ∈ lineText line ∧ keyOf (lineText line) = f.key ∧ valueOf (lineText line) = val := by
  rw [lineWrite, lineEntry_eq]
  by_cases hmem : EQ ∈ lineText line
  · rw [if_pos hmem, Option.bind_some, Option.map_eq_some_iff]
    constructor
    · rintro ⟨known, hfind, heq⟩
      obtain ⟨rfl, rfl⟩ := Prod.mk.inj heq
      have hname : known.1 = keyOf (lineText line) := by simpa using List.find?_some hfind
      have hkey := key_of_mem_kFields known (List.mem_of_find?_eq_some hfind)
      exact ⟨hmem, hname.symm.trans hkey, rfl⟩
    · rintro ⟨-, hname, rfl⟩
      rw [hname]
      exact ⟨_, find?_kFields f, rfl⟩
  · rw [if_neg hmem]
    constructor
    · intro h
      cases h
    · intro h
      exact absurd h.1 hmem

/-! ### The last line that names a key -/

/-- The lines of a payload, as they are read. -/
def payloadLines (payload : Bytes) : List Bytes :=
  (payload.splitOnP endsLine).map fun line ↦ lineText (line.take 1023)

/-- The line names the key. -/
def Names (key text : Bytes) : Prop := EQ ∈ text ∧ keyOf text = key

instance (key text : Bytes) : Decidable (Names key text) := inferInstanceAs (Decidable (_ ∧ _))

/-- The value of the last line of a payload that names a key. -/
def lastValue (payload key : Bytes) : Option Bytes :=
  ((payloadLines payload).filter (Names key ·)).getLast?.map valueOf

private theorem lastWrite_lines (f : Field) (lines : List Bytes) :
    lastWrite f (lines.filterMap lineWrite) =
      ((lines.map lineText).filter (Names f.key ·)).getLast?.map valueOf := by
  induction lines with
  | nil => rfl
  | cons line lines ih =>
    rw [List.filterMap_cons, List.map_cons, List.filter_cons]
    cases hw : lineWrite line with
    | none =>
      have hnot : ¬ Names f.key (lineText line) := fun h ↦ by
        rw [lineWrite_eq_some_iff.mpr ⟨h.1, h.2, rfl⟩] at hw
        cases hw
      rw [if_neg (by simpa using hnot)]
      exact ih
    | some w =>
      obtain ⟨g, val⟩ := w
      obtain ⟨hmem, hkey, hval⟩ := lineWrite_eq_some_iff.mp hw
      dsimp only
      rw [lastWrite, ih]
      by_cases hg : g = f
      · subst hg
        have hnames : Names g.key (lineText line) := ⟨hmem, hkey⟩
        rw [if_pos rfl, if_pos (by simpa using hnames), List.getLast?_cons]
        cases ((lines.map lineText).filter (Names g.key ·)).getLast? with
        | none => exact congrArg some hval.symm
        | some text => rfl
      · have hnot : ¬ Names f.key (lineText line) := fun h ↦ hg (by
          have hfind := find?_kFields g
          rw [← hkey, h.2, find?_kFields f] at hfind
          exact (congrArg Prod.snd (Option.some.inj hfind)).symm)
        rw [if_neg hg, if_neg (by simpa using hnot), Option.or_none]

/-- The last write to a field comes from the last line that names its key. -/
theorem lastWrite_payloadWrites (payload : Bytes) (f : Field) :
    lastWrite f (payloadWrites payload) = lastValue payload f.key := by
  have hall : payloadWrites payload =
      ((payload.splitOnP endsLine).map (·.take 1023)).filterMap lineWrite := by
    rw [payloadWrites_pieces, pieces, List.filterMap_map, List.filterMap_map, List.filterMap_filter]
    apply List.filterMap_congr
    intro line _
    cases line with
    | nil => rfl
    | cons b line => rfl
  rw [hall, lastWrite_lines, List.map_map]
  rfl

/-! ### The fields after a payload -/

/-- A payload is its writes, also when it is empty. -/
theorem config_applyAp2pConfPayload (state : Ap2pState) (payload : Bytes) :
    (applyAp2pConfPayload state payload).2.config = configAfter state payload := by
  by_cases hne : payload = []
  · rw [hne]
    rfl
  · rw [applyAp2pConfPayload_eq state payload hne]
    split <;> rfl

/-- A line that names no key of the configuration changes nothing. -/
theorem applyLine_of_not_names {line : Bytes} (h : ∀ f : Field, ¬ Names f.key (lineText line))
    (cfg : Ap2pConfig) : applyLine cfg line = cfg := by
  rw [applyLine]
  cases hw : lineWrite line with
  | none => rfl
  | some w =>
    obtain ⟨hmem, hkey, -⟩ := lineWrite_eq_some_iff.mp hw
    exact absurd ⟨hmem, hkey⟩ (h w.1)

/-- After a payload each field holds what the last line that names its key gives it, or what it
held before. The same payload again leaves the fields as they are, the lines that are blank or a
comment, have no `=` or name no key change no field, and the loop takes each line once. -/
theorem fields_after_payload (state : Ap2pState) (payload : Bytes)
    (hrange : ∀ f : Field, f.capacity = none → ∀ val ∈ lastValue payload f.key,
      InIntRange (decimalValue val)) :
    (∀ f : Field, f.held (applyAp2pConfPayload state payload).2.config =
      ((lastValue payload f.key).map f.meaning).getD (f.held state.config)) ∧
    (applyAp2pConfPayload (applyAp2pConfPayload state payload).2 payload).2.config =
      (applyAp2pConfPayload state payload).2.config ∧
    (∀ cfg line, ((∀ b ∈ lineText line, isSpace b = true) ∨ EQ ∉ lineText line ∨
        ∀ f : Field, keyOf (lineText line) ≠ f.key) → applyLine cfg line = cfg) ∧
    ∀ rounds, payload.length ≤ rounds → (confLines rounds payload).filter (!·.isEmpty) =
      ((payload.splitOnP endsLine).filter (!·.isEmpty)).map (·.take 1023) := by
  refine ⟨fun f ↦ ?_, ?_, fun cfg line h ↦ ?_, fun rounds ↦ filter_confLines⟩
  · have hget := configFields.get_putAll state.config (payloadWrites payload) f
    rw [lastWrite_payloadWrites] at hget
    rw [config_applyAp2pConfPayload]
    refine Eq.trans hget ?_
    cases hval : lastValue payload f.key with
    | none => rfl
    | some val => exact stored_eq_meaning fun hnum ↦ hrange f hnum val hval
  · rw [config_applyAp2pConfPayload, configAfter, configFields.putAll_eq_self_iff]
    intro f val hval
    have hget := configFields.get_putAll state.config (payloadWrites payload) f
    rw [hval] at hget
    rw [config_applyAp2pConfPayload]
    exact hget.symm
  · apply applyLine_of_not_names
    rintro f ⟨hmem, hkey⟩
    obtain h | h | h := h
    · exact absurd (h EQ hmem) (by decide)
    · exact h hmem
    · exact h f hkey

/-- A host is set twice, the second time in a line that is not ended, after a comment and a
number. -/
theorem fields_after_hosts :
    Field.ctrlHost.held (applyAp2pConfPayload ap2pStateInit
      (lit "CTRL_HOST=a\r\n# LATENCY_MS=1\nLATENCY_MS = -20 # ms\n\nCTRL_HOST=b=c")).2.config =
        Field.ctrlHost.meaning (lit "b=c") ∧
    Field.latencyMs.held (applyAp2pConfPayload ap2pStateInit
      (lit "CTRL_HOST=a\r\n# LATENCY_MS=1\nLATENCY_MS = -20 # ms\n\nCTRL_HOST=b=c")).2.config =
        .int (-20) := by
  obtain ⟨hfields, -⟩ := fields_after_payload ap2pStateInit
    (lit "CTRL_HOST=a\r\n# LATENCY_MS=1\nLATENCY_MS = -20 # ms\n\nCTRL_HOST=b=c") (by
      intro f
      cases f <;> decide +kernel)
  rw [hfields, hfields]
  decide +kernel

/-! ### Acceptance -/

/-- The payload itself gives a host: the last line that names CTRL_HOST has a value. -/
def SuppliesHost (payload : Bytes) : Prop :=
  ∃ host, lastValue payload Field.ctrlHost.key = some host ∧ host ≠ []

instance (payload : Bytes) : Decidable (SuppliesHost payload) :=
  match h : lastValue payload Field.ctrlHost.key with
  | none => isFalse (by rintro ⟨host, hhost, -⟩; rw [h] at hhost; cases hhost)
  | some host => decidable_of_iff (host ≠ []) ⟨fun hne ↦ ⟨host, h, hne⟩, by
      rintro ⟨host', hhost, hne⟩
      rw [h] at hhost
      cases hhost
      exact hne⟩

/-- One payload after the other. -/
def payloadStep (state : Ap2pState) (payload : Bytes) : Option Ap2pState :=
  some (applyAp2pConfPayload state payload).2

/-- The payload is accepted exactly when it gives a host. -/
def AcceptedAsSupplied (state : Ap2pState) (payload : Bytes) : Prop :=
  (applyAp2pConfPayload state payload).1 = 0 ↔ SuppliesHost payload

instance (state : Ap2pState) (payload : Bytes) : Decidable (AcceptedAsSupplied state payload) :=
  inferInstanceAs (Decidable (_ ↔ _))

/-- No host from before can stand in for the payload's: the payload is empty, has a line for
CTRL_HOST, or meets a configuration without one. -/
def NoEarlierHost (state : Ap2pState) (payload : Bytes) : Prop :=
  payload = [] ∨ lastValue payload Field.ctrlHost.key ≠ none ∨
    state.config.ctrlHost.isEmpty = true

private theorem accepted_iff (state : Ap2pState) (payload : Bytes) :
    (applyAp2pConfPayload state payload).1 = 0 ↔ payload ≠ [] ∧ HostSet state payload := by
  by_cases hne : payload = []
  · have hempty : (applyAp2pConfPayload state []).1 = -1 := rfl
    simp [hne, hempty]
  · rw [applyAp2pConfPayload_eq state payload hne, ← ctrlHost_after]
    cases (configAfter state payload).ctrlHost.isEmpty <;> simp [hne]

private theorem acceptedAsSupplied_iff (state : Ap2pState) (payload : Bytes) :
    AcceptedAsSupplied state payload ↔ NoEarlierHost state payload := by
  have hwrite := lastWrite_payloadWrites payload .ctrlHost
  rw [AcceptedAsSupplied, accepted_iff, NoEarlierHost, HostSet, SuppliesHost, hwrite]
  by_cases hne : payload = []
  · have hnone : lastValue [] Field.ctrlHost.key = none := by decide
    simp [hne, hnone]
  cases lastValue payload Field.ctrlHost.key with
  | some host => simp [hne]
  | none => simp [hne]

/-- In a sequence of payloads each one is accepted exactly when it gives a host itself, when none
that gives no host comes while a host is set, and only then. -/
theorem accepted_as_supplied_iff (state : Ap2pState) (payloads : List Bytes) :
    Always payloadStep AcceptedAsSupplied state payloads ↔
      Always payloadStep NoEarlierHost state payloads := by
  constructor
  · exact Always.mono payloadStep fun s p ↦ (acceptedAsSupplied_iff s p).mp
  · exact Always.mono payloadStep fun s p ↦ (acceptedAsSupplied_iff s p).mpr

/-- A second payload without a host is accepted because the first one had it. -/
theorem accepted_without_host : ¬ Always payloadStep AcceptedAsSupplied ap2pStateInit
    [lit "CTRL_HOST=signal.example\n", lit "LATENCY_MS=200\n"] := by
  decide +kernel

/-! ### Round trip -/

/-- The text of a value in a payload. -/
def FieldValue.payloadText : FieldValue → Bytes
  | .str text => text
  | .int value => stdToString value

/-- A value a field can be given: a text on one line that its array has room for, without white
space at its ends, or an `int`. -/
def Field.Carries (f : Field) : FieldValue → Prop
  | .str text => (∃ size, f.capacity = some size ∧ text.length < size) ∧ NUL ∉ text ∧
      (∀ b ∈ text, endsLine b = false) ∧ (∀ b ∈ text.head?, isSpace b = false) ∧
      ∀ b ∈ text.getLast?, isSpace b = false
  | .int value => f.capacity = none ∧ InIntRange value

/-- The line that gives a field its value. -/
def assignmentLine (given : Field → FieldValue) (f : Field) : Bytes :=
  f.key ++ EQ :: (given f).payloadText

/-- A text before its first `#`, without the white space before that. -/
def uncommented (text : Bytes) : Bytes := (beforeHash text).rdropWhile isSpace

/-- What a field holds when it was given a value. -/
def Field.received (f : Field) : FieldValue → FieldValue
  | .str text => .str (padded (f.capacity.getD 0) (uncommented text))
  | .int value => .int value

private theorem key_facts (f : Field) : f.key.length ≤ 11 ∧
    (∀ b ∈ f.key, isSpace b = false ∧ b ≠ EQ ∧ b ≠ 35) ∧
    ∀ b ∈ f.key, endsLine b = false ∧ b ≠ NUL := by
  have hbytes : f.key.all (fun b ↦ !isSpace b && !endsLine b && b != EQ && b != 35 && b != NUL) =
      true := by cases f <;> decide +kernel
  simp only [List.all_eq_true, Bool.and_eq_true, Bool.not_eq_true', bne_iff_ne] at hbytes
  refine ⟨by cases f <;> decide, fun b hb ↦ ?_, fun b hb ↦ ?_⟩
  · obtain ⟨⟨⟨⟨hspace, -⟩, heq⟩, hhash⟩, -⟩ := hbytes b hb
    exact ⟨hspace, heq, hhash⟩
  · obtain ⟨⟨⟨⟨-, hends⟩, -⟩, -⟩, hnul⟩ := hbytes b hb
    exact ⟨hends, hnul⟩

private theorem size_le {f : Field} {size : Nat} (h : f.capacity = some size) : size ≤ 256 := by
  cases f <;> cases h <;> decide

private theorem mem_stdToString {value : Int} {b : UInt8} (h : b ∈ stdToString value) :
    isDigit b = true ∨ b = 45 := by
  rw [stdToString] at h
  split at h
  · obtain rfl | h := List.mem_cons.mp h
    · exact .inr rfl
    · exact .inl (Kitty.Signal.isDigit_of_mem_decimal h)
  · exact .inl (Kitty.Signal.isDigit_of_mem_decimal h)

private theorem numberByte {b : UInt8} (h : isDigit b = true ∨ b = 45) :
    isSpace b = false ∧ endsLine b = false ∧ b ≠ NUL ∧ b ≠ 35 := by
  obtain h | rfl := h
  · simp only [isDigit, Bool.and_eq_true, decide_eq_true_eq, UInt8.le_iff_toNat_le,
      UInt8.reduceToNat] at h
    simp only [isSpace, endsLine, LF, CR, NUL, Bool.or_eq_false_iff, Bool.and_eq_false_iff,
      decide_eq_false_iff_not, beq_eq_false_iff_ne, ne_eq, UInt8.le_iff_toNat_le,
      ← UInt8.toNat_inj, UInt8.reduceToNat]
    omega
  · decide

/-- The text of a value is on one line. -/
theorem Field.Carries.oneLine {f : Field} {v : FieldValue} (h : f.Carries v) :
    v.payloadText.length ≤ 256 ∧ ∀ b ∈ v.payloadText, endsLine b = false ∧ b ≠ NUL := by
  cases v with
  | str text =>
    obtain ⟨⟨size, hsize, hlen⟩, hnul, hline, -⟩ := h
    constructor
    · exact (Nat.le_of_lt hlen).trans (size_le hsize)
    · exact fun b hb ↦ ⟨hline b hb, fun heq ↦ hnul (heq ▸ hb)⟩
  | int value =>
    constructor
    · exact (Kitty.Signal.length_stdToString_of_int h.2).trans (by decide)
    · exact fun b hb ↦ ⟨(numberByte (mem_stdToString hb)).2.1,
        (numberByte (mem_stdToString hb)).2.2.1⟩

/-- An `int` that is printed is read back. -/
theorem decimalValue_stdToString {value : Int} (h : InIntRange value) :
    decimalValue (stdToString value) = value := by
  have hread := Kitty.Signal.stoi_stdToString_of_int h
  unfold Kitty.Signal.stoi at hread
  unfold decimalValue
  generalize splitSign ((stdToString value).dropWhile isSpace) = s at hread
  obtain ⟨negative, rest⟩ := s
  dsimp only at hread ⊢
  split at hread
  · cases hread
  · split at hread
    · exact Except.ok.inj hread
    · cases hread

/-- A text without white space before it is trimmed at its end. -/
theorem trim_eq_uncommented {text : Bytes} (hhead : ∀ b ∈ text.head?, isSpace b = false) :
    trim text = uncommented text := by
  rw [trim_eq, trimBy, uncommented]
  apply congrArg (List.rdropWhile isSpace)
  unfold beforeHash
  cases text with
  | nil => rfl
  | cons b text =>
    rw [List.takeWhile_cons]
    split
    · exact List.dropWhile_cons_of_neg (by simp [hhead b rfl])
    · rfl

/-- What the trimmed text of a value means is what the field receives. -/
theorem Field.Carries.stored_trim {f : Field} {v : FieldValue} (h : f.Carries v) :
    f.stored (trim v.payloadText) = f.received v := by
  cases v with
  | str text =>
    obtain ⟨⟨size, hsize, hlen⟩, -, -, hhead, -⟩ := h
    have htrim := trim_eq_uncommented hhead
    have hshort : (uncommented text).length ≤ size - 1 := by
      have hle := (List.rdropWhile_prefix isSpace (beforeHash text)).length_le
      have hle' := (List.takeWhile_prefix (· ≠ 35) (l := text)).length_le
      change (uncommented text).length ≤ (beforeHash text).length at hle
      change (beforeHash text).length ≤ text.length at hle'
      omega
    have hmeaning : f.meaning (uncommented text) = f.received (.str text) := by
      rw [Field.meaning, Field.received, hsize]
      dsimp only
      rw [List.take_of_length_le hshort, Option.getD_some]
    rw [FieldValue.payloadText, htrim, ← hmeaning]
    exact stored_eq_meaning fun hnone ↦ by rw [hsize] at hnone; cases hnone
  | int value =>
    have hbytes := fun b hb ↦ numberByte (@mem_stdToString value b hb)
    have htrim : trim (stdToString value) = stdToString value := by
      rw [trim_eq, beforeHash_of_not_mem fun hmem ↦ (hbytes 35 hmem).2.2.2 rfl]
      exact trimBy_eq_self (fun b hb ↦ (hbytes b (List.mem_of_mem_head? hb)).1)
        fun b hb ↦ (hbytes b (List.mem_of_mem_getLast? hb)).1
    have hvalue := decimalValue_stdToString h.2
    rw [FieldValue.payloadText, htrim, stored_eq_meaning fun _ ↦ hvalue.symm ▸ h.2, Field.meaning,
      h.1, hvalue]
    rfl

/-- The line of a field writes the trimmed text of its value to it. -/
theorem lineWrite_assignmentLine {given : Field → FieldValue} {f : Field}
    (h : f.Carries (given f)) :
    lineWrite (assignmentLine given f) = some (f, trim (given f).payloadText) := by
  have hnul : NUL ∉ [] ++ (f.key ++ []) ++ EQ :: (given f).payloadText := by
    intro hmem
    rw [List.nil_append, List.append_nil] at hmem
    obtain hmem | hmem := List.mem_append.mp hmem
    · exact ((key_facts f).2.2 _ hmem).2 rfl
    obtain hmem | hmem := List.mem_cons.mp hmem
    · exact absurd hmem (by decide)
    · exact (h.oneLine.2 _ hmem).2 rfl
  have hentry := lineEntry_key (x := []) (y := []) (by simp) (by simp) (key_facts f).2.1 hnul
  rw [List.nil_append, List.append_nil] at hentry
  rw [lineWrite, assignmentLine, hentry, Option.bind_some, find?_kFields]
  rfl

/-- The writes of a payload with a line for each field in a list. -/
theorem payloadWrites_assignment {given : Field → FieldValue} {order : List Field}
    (hcarries : ∀ f : Field, f.Carries (given f)) {sep final : Bytes} (hne : sep ≠ [])
    (hsep : ∀ b ∈ sep, endsLine b = true) (hfinal : ∀ b ∈ final, endsLine b = true) :
    payloadWrites (sep.intercalate (order.map (assignmentLine given)) ++ final) =
      order.map fun f ↦ (f, trim (given f).payloadText) := by
  have hlines : ∀ line ∈ order.map (assignmentLine given),
      line ≠ [] ∧ ∀ b ∈ line, endsLine b = false := by
    intro line hline
    obtain ⟨f, -, rfl⟩ := List.mem_map.mp hline
    constructor
    · exact List.append_ne_nil_of_right_ne_nil _ (List.cons_ne_nil _ _)
    · intro b hb
      obtain hb | hb := List.mem_append.mp hb
      · exact ((key_facts f).2.2 b hb).1
      obtain rfl | hb := List.mem_cons.mp hb
      · decide
      · exact ((hcarries f).oneLine.2 b hb).1
  rw [payloadWrites_pieces, pieces_intercalate hne hsep hfinal hlines, List.map_map,
    List.filterMap_map, ← List.filterMap_eq_map]
  apply List.filterMap_congr
  intro f _
  have hlength : (assignmentLine given f).length ≤ 1023 := by
    have hkey := (key_facts f).1
    have htext := (hcarries f).oneLine.1
    rw [assignmentLine, List.length_append, List.length_cons]
    omega
  rw [Function.comp_apply, Function.comp_apply, List.take_of_length_le hlength]
  exact lineWrite_assignmentLine (hcarries f)

private theorem lastWrite_map {order : List Field} {f : Field} (hf : f ∈ order)
    (val : Field → Bytes) : lastWrite f (order.map fun g ↦ (g, val g)) = some (val f) := by
  induction order with
  | nil => cases hf
  | cons g order ih =>
    rw [List.map_cons, lastWrite]
    by_cases hmem : f ∈ order
    · rw [ih hmem]
      rfl
    · obtain rfl | h := List.mem_cons.mp hf
      · rw [if_pos rfl]
        cases hw : lastWrite f (order.map fun g ↦ (g, val g)) with
        | none => rfl
        | some text =>
          have hin := mem_of_lastWrite hw
          obtain ⟨g, hg, heq⟩ := List.mem_map.mp hin
          exact absurd ((Prod.mk.inj heq).1 ▸ hg) hmem
      · exact absurd h hmem

/-- A payload with a line for each field, in any order and whatever the state before it, is
accepted when the host is more than a comment, and leaves in each field the number given, or the
text given up to its first `#`: all of it when it has none. -/
theorem assignment_received (given : Field → FieldValue) (order : List Field) (state : Ap2pState)
    (sep final : Bytes) (hcarries : ∀ f : Field, f.Carries (given f))
    (hhost : ∀ host, given .ctrlHost = .str host → uncommented host ≠ [])
    (horder : ∀ f, f ∈ order) (hne : sep ≠ []) (hsep : ∀ b ∈ sep, endsLine b = true)
    (hfinal : ∀ b ∈ final, endsLine b = true) :
    (applyAp2pConfPayload state
      (sep.intercalate (order.map (assignmentLine given)) ++ final)).1 = 0 ∧
    (∀ f : Field, f.held (applyAp2pConfPayload state
        (sep.intercalate (order.map (assignmentLine given)) ++ final)).2.config =
      f.received (given f)) ∧
    ∀ (f : Field) (text : Bytes), given f = .str text → 35 ∉ text →
      f.received (given f) = .str (padded (f.capacity.getD 0) text) := by
  have hwrites : payloadWrites (sep.intercalate (order.map (assignmentLine given)) ++ final) = _ :=
    payloadWrites_assignment hcarries hne hsep hfinal
  generalize sep.intercalate (order.map (assignmentLine given)) ++ final = payload at hwrites
  have hlast : ∀ f, lastWrite f (payloadWrites payload) = some (trim (given f).payloadText) := by
    intro f
    rw [hwrites]
    exact lastWrite_map (horder f) fun f ↦ trim (given f).payloadText
  refine ⟨?_, fun f ↦ ?_, fun f text hgiven hhash ↦ ?_⟩
  · rw [accepted_iff, HostSet, hlast]
    constructor
    · rintro rfl
      exact nomatch hlast .ctrlHost
    · have hhost' := hcarries .ctrlHost
      cases hgiven : given .ctrlHost with
      | str host =>
        rw [hgiven] at hhost'
        dsimp only [FieldValue.payloadText]
        rw [trim_eq_uncommented hhost'.2.2.2.1]
        exact hhost host hgiven
      | int value =>
        rw [hgiven] at hhost'
        cases hhost'.1
  · have hget := configFields.get_putAll state.config (payloadWrites payload) f
    rw [hlast] at hget
    rw [config_applyAp2pConfPayload]
    exact Eq.trans hget (hcarries f).stored_trim
  · have htext := hcarries f
    rw [hgiven] at htext
    rw [hgiven, Field.received, uncommented, beforeHash_of_not_mem hhash,
      List.rdropWhile_eq_self_iff.mpr fun hne ↦ by
        simp [htext.2.2.2.2 _ (List.getLast?_eq_some_getLast hne)]]

/-- A configuration with a given password for the relay. -/
def givenPassword (password : Bytes) : Field → FieldValue
  | .relayPass => .str password
  | .ctrlHost => .str (lit "signal.example")
  | f => if f.capacity = none then .int (-20) else .str (lit "a b=c")

private theorem carries_str {f : Field} {text : Bytes} {size : Nat} (hsize : f.capacity = some size)
    (hlength : text.length < size) (hnul : NUL ∉ text) (hends : text.any endsLine = false)
    (hhead : text.head?.any isSpace = false) (hlast : text.getLast?.any isSpace = false) :
    f.Carries (.str text) :=
  ⟨⟨size, hsize, hlength⟩, hnul, fun b hb ↦ by simpa using List.any_eq_false.mp hends b hb,
    fun b hb ↦ by
      rw [Option.mem_def.mp hb] at hhead
      exact hhead,
    fun b hb ↦ by
      rw [Option.mem_def.mp hb] at hlast
      exact hlast⟩

private theorem givenPassword_carries {password : Bytes}
    (h : Field.relayPass.Carries (.str password)) (f : Field) :
    f.Carries (givenPassword password f) := by
  cases f
  case relayPass => exact h
  case ctrlPort | edgePort | relayPort | srcPort | latencyMs | verbose => exact ⟨rfl, by decide⟩
  all_goals exact carries_str rfl (by decide) (by decide) (by decide) (by decide) (by decide)

/-- A password with `=`, blanks and a `#` in it is received up to the `#`. -/
theorem password_received :
    (applyAp2pConfPayload ap2pStateInit ([CR, LF].intercalate
      ((kFields.map (·.2)).map (assignmentLine (givenPassword (lit "p= s #4")))) ++ [])).1 = 0 ∧
    Field.relayPass.held (applyAp2pConfPayload ap2pStateInit ([CR, LF].intercalate
      ((kFields.map (·.2)).map (assignmentLine (givenPassword (lit "p= s #4")))) ++ [])).2.config =
        .str (padded 64 (lit "p= s")) := by
  obtain ⟨haccepted, hheld, -⟩ := assignment_received (givenPassword (lit "p= s #4"))
    (kFields.map (·.2)) ap2pStateInit [CR, LF] []
    (givenPassword_carries
      (carries_str rfl (by decide) (by decide) (by decide) (by decide) (by decide)))
    (by
      rintro host ⟨⟩
      decide)
    (by
      intro f
      cases f <;> decide)
    (by decide) (by decide +kernel) (by decide +kernel)
  rw [hheld]
  exact ⟨haccepted, by decide⟩

/-- So what follows the `#` in a password is lost. -/
theorem password_cut :
    (∀ f : Field, f.Carries (givenPassword (lit "pass#word") f)) ∧
    Field.relayPass.held (applyAp2pConfPayload ap2pStateInit ([LF].intercalate
      ((kFields.map (·.2)).map (assignmentLine (givenPassword (lit "pass#word")))) ++
      [LF])).2.config ≠
        .str (padded 64 (lit "pass#word")) := by
  constructor
  · exact givenPassword_carries
      (carries_str rfl (by decide) (by decide) (by decide) (by decide) (by decide))
  · decide +kernel

end Kitty.Ap2p
