import Kitty.Ap2p.Payloads
import Kitty.Migration.Retained

/-!
# The provisioning of a fleet

`ops/fleet-provision.sh:52–198`: for each row of a CSV file a payload with all keys of the
configuration is published to be retained for the camera of that row, and the topic that version 1
used is cleared before. How the two `mosquitto_pub` of each row end is given.
-/

namespace Kitty.Migration

open Kitty.Base
open Kitty.Ap2p
open Kitty.Signal (isSpace InIntRange)

/-! ### The script -/

/-- The variables that the script takes from its environment: `$BROKER_PASS`, and those that go
into every payload. One that is not set has no bytes. -/
structure FleetEnv where
  brokerPass : Bytes
  shared : Field → Bytes

/-- The defaults of the environment; `$CTRL_TOKEN` and `$RELAY_PASS` have none, and neither have
the values of the rows. -/
def fleetDefault : Field → Bytes
  | .ctrlHost => lit "signaling.devices.arcisai.io"
  | .ctrlPort => lit "80"
  | .ctrlScheme => lit "plain"
  | .edgeHost | .relayHost => lit "turn.devices.arcisai.io"
  | .edgePort | .relayPort => lit "5349"
  | .relayUser => lit "arcisai"
  | .srcHost => lit "127.0.0.1"
  | .srcPort => lit "80"
  | .srcAuth => lit "Basic YWRtaW46"
  | .ctrlToken | .relayPass | .nodeId | .srcPath | .latencyMs | .verbose => []

/-- `${name:-default}` -/
def orDefault (value dflt : Bytes) : Bytes := if value = [] then dflt else value

/-- `IFS=, read -r -a`: a last cell of no bytes is none, and NULs are passed over. -/
def readCells (line : Bytes) : List Bytes :=
  let cells := (line.filter (· ≠ NUL)).splitOn 44
  if cells.getLast? = some [] then cells.dropLast else cells

/-- `${cell%$'\r'}` -/
def stripCr (cell : Bytes) : Bytes := if cell.getLast? = some CR then cell.dropLast else cell

/-- The cells of a line. -/
def rowData (line : Bytes) : List Bytes := (readCells line).map stripCr

/-- `${row_data[i]:-default}` -/
def column (row : List Bytes) (i : Nat) (dflt : Bytes) : Bytes := orDefault (row.getD i []) dflt

/-- The serial number of a row. -/
def serial (line : Bytes) : Bytes := column (rowData line) 0 []

/-- What the payload of a row says for each key. -/
def fleetValue (env : FleetEnv) (line : Bytes) : Field → Bytes
  | .nodeId => serial line
  | .latencyMs => column (rowData line) 2 (lit "300")
  | .verbose => column (rowData line) 3 (lit "0")
  | .srcPath => column (rowData line) 4 (lit "/flv/live_ch0_1.flv?verify=" ++
      column (rowData line) 1 (lit "REPLACE_WITH_VERIFY_TOKEN"))
  | f => orDefault (env.shared f) (fleetDefault f)

/-- The order of the lines of a payload. -/
def fleetOrder : List Field :=
  [.nodeId, .ctrlHost, .ctrlPort, .ctrlScheme, .ctrlToken, .edgeHost, .edgePort, .relayHost,
    .relayPort, .relayUser, .relayPass, .srcHost, .srcPort, .srcPath, .srcAuth, .latencyMs,
    .verbose]

/-- A line for each key of a list. -/
def keyLines (value : Field → Bytes) (order : List Field) : Bytes :=
  order.flatMap fun f ↦ f.key ++ EQ :: value f ++ [LF]

/-- The here-document. -/
def fleetPayload (env : FleetEnv) (line : Bytes) : Bytes :=
  keyLines (fleetValue env line) fleetOrder

/-- The counters of the script, and the broker. -/
structure Tally where
  row : Nat
  ok : Nat
  skip : Nat
  fail : Nat
  broker : Broker Bytes

/-- How the two commands of a row end: the one that clears case 81, and the one that publishes to
case 90. -/
abbrev Outcomes : Type := Nat → Publication × Publication

/-- Both commands are acknowledged. -/
def bothAcknowledged (p : Publication × Publication) : Bool :=
  p.1 = .acknowledged && p.2 = .acknowledged

/-- The broker after the commands of a row: the second is given only when the first succeeds. -/
def publishRow (env : FleetEnv) (line : Bytes) (p : Publication × Publication)
    (broker : Broker Bytes) : Broker Bytes :=
  let cleared := p.1.after (rxTopic (serial line) 81) [] broker
  if p.1 = .acknowledged then
    p.2.after (rxTopic (serial line) 90) (fleetPayload env line) cleared
  else cleared

/-- A row. The first has the number 0 among the outcomes. -/
def provisionRow (env : FleetEnv) (dry : Bool) (outcomes : Outcomes) (t : Tally) (line : Bytes) :
    Tally :=
  if serial line = [] then { t with row := t.row + 1, skip := t.skip + 1 }
  else if dry then { t with row := t.row + 1 }
  else
    let p := outcomes t.row
    { row := t.row + 1
      ok := if bothAcknowledged p then t.ok + 1 else t.ok
      skip := t.skip
      fail := if bothAcknowledged p then t.fail else t.fail + 1
      broker := publishRow env line p t.broker }

/-- The lines that `read` accepts: what is behind the last newline is none. -/
def readLines (csv : Bytes) : List Bytes := (csv.splitOn LF).dropLast

/-- The script, where it does not stop before the first row. -/
def fleetProvision (env : FleetEnv) (dry : Bool) (csv : Bytes) (outcomes : Outcomes)
    (broker : Broker Bytes) : Option Tally :=
  if env.brokerPass = [] ∨ env.shared .ctrlToken = [] ∨ env.shared .relayPass = [] then none
  else
    match readLines csv with
    | [] => none
    | header :: lines =>
      if (rowData header)[0]? = some (lit "serial") then
        some (lines.foldl (provisionRow env dry outcomes) ⟨0, 0, 0, 0, broker⟩)
      else none

/-- The exit code at the end of the script. -/
def Tally.exitCode (t : Tally) : Nat := if 0 < t.fail then 1 else 0

/-! ### What a payload gives a camera -/

/-- A value that a camera takes as it is: a text on one line, without a `#` or white space at its
ends, that its array has room for, or the number that an `int` holds. -/
def TakenAsIs (f : Field) (value : Bytes) : Prop :=
  (∀ b ∈ value, endsLine b = false ∧ b ≠ NUL ∧ b ≠ 35) ∧
    (∀ b ∈ value.head?, isSpace b = false) ∧ (∀ b ∈ value.getLast?, isSpace b = false) ∧
    value.length ≤ f.capacity.elim 1000 (· - 1) ∧
    (f.capacity = none → InIntRange (decimalValue value))

instance (f : Field) (value : Bytes) : Decidable (TakenAsIs f value) :=
  haveI := List.decidableBAll (fun b ↦ endsLine b = false ∧ b ≠ NUL ∧ b ≠ 35) value
  haveI := Option.decidableForallMem (p := fun b ↦ isSpace b = false) value.head?
  haveI := Option.decidableForallMem (p := fun b ↦ isSpace b = false) value.getLast?
  inferInstanceAs (Decidable (_ ∧ _))

private theorem fleetKey (f : Field) : f.key.length ≤ 11 ∧
    (∀ b ∈ f.key, isSpace b = false ∧ b ≠ EQ ∧ b ≠ 35) ∧
    ∀ b ∈ f.key, endsLine b = false ∧ b ≠ NUL := by
  have hbytes : f.key.all (fun b ↦ !isSpace b && !endsLine b && b != EQ && b != 35 && b != NUL) =
      true := by cases f <;> decide +kernel
  simp only [List.all_eq_true, Bool.and_eq_true, Bool.not_eq_true', bne_iff_ne] at hbytes
  refine ⟨by cases f <;> decide, ?_, ?_⟩
  · intro b hb
    obtain ⟨⟨⟨⟨hspace, -⟩, heq⟩, hhash⟩, -⟩ := hbytes b hb
    exact ⟨hspace, heq, hhash⟩
  · intro b hb
    obtain ⟨⟨⟨⟨-, hends⟩, -⟩, -⟩, hnul⟩ := hbytes b hb
    exact ⟨hends, hnul⟩

/-- A line with a key and a value writes the value to the field of the key. -/
private theorem lineWrite_keyLine (f : Field) {value : Bytes} (hnul : NUL ∉ value) :
    lineWrite (f.key ++ EQ :: value) = some (f, trim value) := by
  have hline : NUL ∉ [] ++ (f.key ++ []) ++ EQ :: value := by
    rw [List.nil_append, List.append_nil]
    intro hmem
    obtain hmem | hmem := List.mem_append.mp hmem
    · exact ((fleetKey f).2.2 _ hmem).2 rfl
    · obtain hmem | hmem := List.mem_cons.mp hmem
      · exact absurd hmem (by decide)
      · exact hnul hmem
  have hentry := lineEntry_key (x := []) (y := []) (by simp) (by simp) (fleetKey f).2.1 hline
  rw [List.nil_append, List.append_nil] at hentry
  rw [lineWrite, hentry, Option.bind_some]
  cases f <;> rfl

/-- A payload with a line for each key writes each value to its field. -/
private theorem payloadWrites_keyLines {value : Field → Bytes}
    (hline : ∀ f, ∀ b ∈ value f, endsLine b = false ∧ b ≠ NUL)
    (hlength : ∀ f, (value f).length ≤ 1000) (order : List Field) :
    payloadWrites (keyLines value order) = order.map fun f ↦ (f, trim (value f)) := by
  induction order with
  | nil => exact payloadWrites_of_space (by simp [keyLines])
  | cons f order ih =>
    have hone : ∀ b ∈ f.key ++ EQ :: value f, endsLine b = false := by
      intro b hb
      obtain hb | hb := List.mem_append.mp hb
      · exact ((fleetKey f).2.2 b hb).1
      · obtain rfl | hb := List.mem_cons.mp hb
        · decide
        · exact (hline f b hb).1
    have hfits : (f.key ++ EQ :: value f).length ≤ 1023 := by
      have hkey := (fleetKey f).1
      have hvalue := hlength f
      rw [List.length_append, List.length_cons]
      omega
    have hsplit : keyLines value (f :: order) =
        (f.key ++ EQ :: value f) ++ LF :: keyLines value order := by
      rw [keyLines, List.flatMap_cons, List.append_assoc]
      rfl
    rw [hsplit, payloadWrites_append (by decide), payloadWrites_line hone hfits, ih,
      lineWrite_keyLine f fun hnul ↦ (hline f _ hnul).2 rfl]
    rfl

private theorem lastWrite_order {order : List Field} {f : Field} (hf : f ∈ order)
    (hnodup : order.Nodup) (value : Field → Bytes) :
    lastWrite f (order.map fun g ↦ (g, value g)) = some (value f) := by
  induction order with
  | nil => cases hf
  | cons g order ih =>
    rw [List.nodup_cons] at hnodup
    rw [List.map_cons, lastWrite]
    obtain rfl | hf := List.mem_cons.mp hf
    · rw [lastWrite_eq_none, Option.none_or, if_pos rfl]
      intro w hw heq
      obtain ⟨g, hg, rfl⟩ := List.mem_map.mp hw
      exact hnodup.1 (heq ▸ hg)
    · rw [ih hf hnodup.2]
      rfl

private theorem TakenAsIs.trim_eq {f : Field} {value : Bytes} (h : TakenAsIs f value) :
    trim value = value := by
  have hhash : 35 ∉ value := fun hmem ↦ (h.1 35 hmem).2.2 rfl
  rw [Kitty.Ap2p.trim_eq, beforeHash_of_not_mem hhash]
  exact trimBy_eq_self h.2.1 h.2.2.1

private theorem capacity_le (f : Field) : f.capacity.elim 1000 (· - 1) ≤ 1000 := by
  cases f <;> decide

private theorem ctrlHost_ne_nil (env : FleetEnv) (line : Bytes) :
    fleetValue env line .ctrlHost ≠ [] := by
  change orDefault _ _ ≠ []
  unfold orDefault
  split
  · decide
  · assumption

private theorem mem_fleetOrder (f : Field) : f ∈ fleetOrder := by cases f <;> decide

private theorem nodup_fleetOrder : fleetOrder.Nodup := by decide

/-- A camera in any state accepts a payload with values that it takes as they are, and holds
them. -/
private theorem apply_fleetPayload {env : FleetEnv} {line : Bytes}
    (h : ∀ f, TakenAsIs f (fleetValue env line f)) (state : Ap2pState) :
    (applyAp2pConfPayload state (fleetPayload env line)).1 = 0 ∧
      ∀ f : Field, f.held (applyAp2pConfPayload state (fleetPayload env line)).2.config =
        f.meaning (fleetValue env line f) := by
  have hwrites : payloadWrites (fleetPayload env line) =
      fleetOrder.map fun f ↦ (f, trim (fleetValue env line f)) := by
    refine payloadWrites_keyLines (fun f b hb ↦ ?_) (fun f ↦ ?_) fleetOrder
    · exact ⟨((h f).1 b hb).1, ((h f).1 b hb).2.1⟩
    · exact (h f).2.2.2.1.trans (capacity_le f)
  have hlast (f : Field) :
      lastWrite f (payloadWrites (fleetPayload env line)) = some (fleetValue env line f) := by
    rw [hwrites, lastWrite_order (mem_fleetOrder f) nodup_fleetOrder
      fun f ↦ trim (fleetValue env line f), (h f).trim_eq]
  have hne : fleetPayload env line ≠ [] := by
    intro hnil
    have := hlast .ctrlHost
    rw [hnil, payloadWrites_of_space (by simp)] at this
    cases this
  constructor
  · have hhost : (configAfter state (fleetPayload env line)).ctrlHost.isEmpty = false := by
      rw [ctrlHost_after, HostSet, hlast]
      exact ctrlHost_ne_nil env line
    rw [applyAp2pConfPayload_eq state _ hne, hhost]
    rfl
  · intro f
    have hget := configFields.get_putAll state.config (payloadWrites (fleetPayload env line)) f
    rw [hlast] at hget
    rw [config_applyAp2pConfPayload]
    exact Eq.trans hget (stored_eq_meaning (h f).2.2.2.2)

/-! ### What a row leaves at the broker -/

/-- A topic tells the camera and the case. -/
private theorem rxTopic_inj {sn sn' : Bytes} {case case' : Nat}
    (hcase : case = 81 ∨ case = 90) (hcase' : case' = 81 ∨ case' = 90)
    (h : rxTopic sn case = rxTopic sn' case') : sn = sn' ∧ case = case' := by
  have hlength (n : Nat) (hn : n = 81 ∨ n = 90) : (stdToString n).length = 2 := by
    obtain rfl | rfl := hn <;> decide
  obtain ⟨hhead, htail⟩ := List.append_inj' h ((hlength _ hcase).trans (hlength _ hcase').symm)
  refine ⟨List.append_cancel_left (List.append_cancel_right hhead), ?_⟩
  obtain rfl | rfl := hcase <;> obtain rfl | rfl := hcase'
  · rfl
  · exact absurd htail (by decide)
  · exact absurd htail (by decide)
  · rfl

variable {env : FleetEnv} {line : Bytes} {p : Publication × Publication} {broker : Broker Bytes}

/-- A row touches the two topics of its camera. -/
private theorem publishRow_of_ne {topic : Bytes} (h81 : topic ≠ rxTopic (serial line) 81)
    (h90 : topic ≠ rxTopic (serial line) 90) :
    publishRow env line p broker topic = broker topic := by
  unfold publishRow
  split
  · rw [Publication.after_of_ne h90, Publication.after_of_ne h81]
  · rw [Publication.after_of_ne h81]

private theorem publishRow_81 : publishRow env line p broker (rxTopic (serial line) 81) =
    if p.1.taken then [] else broker (rxTopic (serial line) 81) := by
  unfold publishRow
  split
  · rw [Publication.after_of_ne (rxTopic_ne _).symm, Publication.after_self]
  · rw [Publication.after_self]

private theorem publishRow_90 : publishRow env line p broker (rxTopic (serial line) 90) =
    if p.1 = .acknowledged ∧ p.2.taken = true then fleetPayload env line
    else broker (rxTopic (serial line) 90) := by
  unfold publishRow
  by_cases hack : p.1 = .acknowledged
  · rw [if_pos hack, Publication.after_self, Publication.after_of_ne (rxTopic_ne _)]
    simp only [hack, true_and]
  · rw [if_neg hack, Publication.after_of_ne (rxTopic_ne _), if_neg fun h ↦ hack h.1]

private theorem publishRow_other {sn : Bytes} (h : serial line ≠ sn) {case : Nat}
    (hcase : case = 81 ∨ case = 90) :
    publishRow env line p broker (rxTopic sn case) = broker (rxTopic sn case) := by
  refine publishRow_of_ne (fun heq ↦ ?_) fun heq ↦ ?_
  · exact h (rxTopic_inj hcase (.inl rfl) heq).1.symm
  · exact h (rxTopic_inj hcase (.inr rfl) heq).1.symm

/-! ### All rows -/

/-- The broker takes the payload of a row, whether or not this is acknowledged. -/
def payloadTaken (p : Publication × Publication) : Bool := p.1 = .acknowledged && p.2.taken

private theorem payloadTaken_iff :
    payloadTaken p = true ↔ p.1 = .acknowledged ∧ p.2.taken = true := by
  rw [payloadTaken, Bool.and_eq_true, decide_eq_true_eq]

/-- What the rows of a file amount to: the counters add up, a topic of no row is as it was, the
topics of a camera are as they were or hold what they should, and the last row of a camera whose
payload the broker took is the one that is retained. -/
structure Provisioned (env : FleetEnv) (outcomes : Outcomes) (broker : Broker Bytes)
    (lines : List Bytes) (t : Tally) : Prop where
  row : t.row = lines.length
  counts : t.ok + t.skip + t.fail = t.row
  fail : t.fail = 0 ↔ ∀ i line, lines[i]? = some line → serial line ≠ [] →
    bothAcknowledged (outcomes i) = true
  other : ∀ topic, (∀ line ∈ lines, topic ≠ rxTopic (serial line) 81 ∧
    topic ≠ rxTopic (serial line) 90) → t.broker topic = broker topic
  case81 : ∀ sn, t.broker (rxTopic sn 81) = broker (rxTopic sn 81) ∨ t.broker (rxTopic sn 81) = []
  case90 : ∀ sn, t.broker (rxTopic sn 90) = broker (rxTopic sn 90) ∨
    ∃ line ∈ lines, serial line = sn ∧ t.broker (rxTopic sn 90) = fleetPayload env line
  last : ∀ i line, lines[i]? = some line → serial line ≠ [] → payloadTaken (outcomes i) = true →
    (∀ j line', i < j → lines[j]? = some line' → payloadTaken (outcomes j) = true →
      serial line' ≠ serial line) →
    t.broker (rxTopic (serial line) 81) = [] ∧
      t.broker (rxTopic (serial line) 90) = fleetPayload env line

/-- The rows up to one more: it is one of those before, or the last. -/
private theorem getElem?_concat_iff {lines : List Bytes} {last line : Bytes} {i : Nat} :
    (lines ++ [last])[i]? = some line ↔
      lines[i]? = some line ∨ i = lines.length ∧ line = last := by
  constructor
  · exact getElem?_concat_eq_some
  · rintro (h | ⟨rfl, rfl⟩)
    · exact (List.getElem?_append_left (List.getElem?_eq_some_iff.mp h).1).trans h
    · simp

/-- Whether all rows of a file were acknowledged. -/
private theorem forall_concat {lines : List Bytes} {last : Bytes} {P : Nat → Bytes → Prop} :
    (∀ i line, (lines ++ [last])[i]? = some line → P i line) ↔
      (∀ i line, lines[i]? = some line → P i line) ∧ P lines.length last := by
  constructor
  · intro h
    exact ⟨fun i line hi ↦ h i line (getElem?_concat_iff.mpr (.inl hi)),
      h _ _ (getElem?_concat_iff.mpr (.inr ⟨rfl, rfl⟩))⟩
  · rintro ⟨hbefore, hlast⟩ i line hi
    rcases getElem?_concat_iff.mp hi with hi | ⟨rfl, rfl⟩
    · exact hbefore i line hi
    · exact hlast

/-- A row that is skipped. -/
private theorem Provisioned.skip {outcomes : Outcomes} {lines : List Bytes} {t : Tally}
    (h : Provisioned env outcomes broker lines t) (hserial : serial line = []) :
    Provisioned env outcomes broker (lines ++ [line])
      { t with row := t.row + 1, skip := t.skip + 1 } where
  row := by simp [h.row]
  counts := by
    have := h.counts
    dsimp only
    omega
  fail := by
    rw [forall_concat, ← h.fail]
    exact ⟨fun hfail ↦ ⟨hfail, fun hne ↦ absurd hserial hne⟩, And.left⟩
  other topic htopic := h.other topic fun l hl ↦ htopic l (List.mem_append_left _ hl)
  case81 := h.case81
  case90 sn := (h.case90 sn).imp_right fun ⟨l, hl, hsn⟩ ↦ ⟨l, List.mem_append_left _ hl, hsn⟩
  last i l hi hne htaken hlater := by
    rcases getElem?_concat_iff.mp hi with hi | ⟨rfl, rfl⟩
    · exact h.last i l hi hne htaken fun j l' hj hl' ↦
        hlater j l' hj (getElem?_concat_iff.mpr (.inl hl'))
    · exact absurd hserial hne

/-- A row that is published. -/
private theorem Provisioned.publish {outcomes : Outcomes} {lines : List Bytes} {t : Tally}
    (h : Provisioned env outcomes broker lines t) (hserial : serial line ≠ []) :
    Provisioned env outcomes broker (lines ++ [line])
      { row := t.row + 1
        ok := if bothAcknowledged (outcomes t.row) then t.ok + 1 else t.ok
        skip := t.skip
        fail := if bothAcknowledged (outcomes t.row) then t.fail else t.fail + 1
        broker := publishRow env line (outcomes t.row) t.broker } where
  row := by simp [h.row]
  counts := by
    have := h.counts
    dsimp only
    split <;> omega
  fail := by
    rw [forall_concat, ← h.fail, ← h.row]
    dsimp only
    cases hack : bothAcknowledged (outcomes t.row) with
    | true => simp
    | false => simp [hserial]
  other topic htopic := by
    obtain ⟨h81, h90⟩ := htopic line (by simp)
    dsimp only
    rw [publishRow_of_ne h81 h90]
    exact h.other topic fun l hl ↦ htopic l (List.mem_append_left _ hl)
  case81 sn := by
    dsimp only
    by_cases hsn : serial line = sn
    · subst hsn
      rw [publishRow_81]
      split
      · exact .inr rfl
      · exact h.case81 _
    · rw [publishRow_other hsn (.inl rfl)]
      exact h.case81 sn
  case90 sn := by
    have hbefore : t.broker (rxTopic sn 90) = broker (rxTopic sn 90) ∨
        ∃ l ∈ lines ++ [line], serial l = sn ∧ t.broker (rxTopic sn 90) = fleetPayload env l :=
      (h.case90 sn).imp_right fun ⟨l, hl, hsn⟩ ↦ ⟨l, List.mem_append_left _ hl, hsn⟩
    dsimp only
    by_cases hsn : serial line = sn
    · subst hsn
      rw [publishRow_90]
      split
      · exact .inr ⟨line, by simp, rfl, rfl⟩
      · exact hbefore
    · rw [publishRow_other hsn (.inr rfl)]
      exact hbefore
  last i l hi hne htaken hlater := by
    dsimp only
    rcases getElem?_concat_iff.mp hi with hi | ⟨rfl, rfl⟩
    · obtain ⟨h81, h90⟩ := h.last i l hi hne htaken fun j l' hj hl' ↦
        hlater j l' hj (getElem?_concat_iff.mpr (.inl hl'))
      by_cases hsn : serial line = serial l
      · -- a later row of the camera clears case 81 at most
        have hnot : ¬ payloadTaken (outcomes t.row) = true := fun hrow ↦
          hlater lines.length line (List.getElem?_eq_some_iff.mp hi).1
            (getElem?_concat_iff.mpr (.inr ⟨rfl, rfl⟩)) (h.row ▸ hrow) hsn
        rw [← hsn] at h81 h90 ⊢
        rw [publishRow_81, publishRow_90, if_neg (payloadTaken_iff.not.mp hnot), h81, ite_self]
        exact ⟨rfl, h90⟩
      · rw [publishRow_other hsn (.inl rfl), publishRow_other hsn (.inr rfl)]
        exact ⟨h81, h90⟩
    · rw [← h.row] at htaken
      obtain ⟨hcleared, htaken⟩ := payloadTaken_iff.mp htaken
      refine ⟨?_, publishRow_90.trans (if_pos ⟨hcleared, htaken⟩)⟩
      rw [publishRow_81, hcleared]
      rfl

private theorem provisioned_rows (env : FleetEnv) (outcomes : Outcomes) (broker : Broker Bytes)
    (lines : List Bytes) : Provisioned env outcomes broker lines
      (lines.foldl (provisionRow env false outcomes) ⟨0, 0, 0, 0, broker⟩) := by
  induction lines using List.reverseRecOn with
  | nil =>
    exact ⟨rfl, rfl, ⟨nofun, fun _ ↦ rfl⟩, fun _ _ ↦ rfl, fun _ ↦ .inl rfl, fun _ ↦ .inl rfl,
      nofun⟩
  | append_singleton lines line ih =>
    rw [List.foldl_append, List.foldl_cons, List.foldl_nil, provisionRow]
    by_cases hserial : serial line = []
    · rw [if_pos hserial]
      exact ih.skip hserial
    · rw [if_neg hserial, if_neg Bool.false_ne_true]
      exact ih.publish hserial

/-- Whatever becomes of the single publications: the script counts every row that `read` accepts
once, and its exit code is 0 exactly when all rows with a serial number were acknowledged. The last
row of a camera whose payload the broker took, acknowledged or not, is what it retains for case 90,
with case 81 cleared, and a camera in any state that takes the values of the row as they are accepts
the payload and then holds these values in all its fields. Case 90 of a camera is what it was or the
payload of one of its rows, and all other topics are as they were. -/
theorem fleet_provisioned {env : FleetEnv} {csv : Bytes} {outcomes : Outcomes}
    {broker : Broker Bytes} {t : Tally}
    (h : fleetProvision env false csv outcomes broker = some t) :
    Provisioned env outcomes broker (readLines csv).tail t ∧
      (t.exitCode = 0 ↔ ∀ i line, (readLines csv).tail[i]? = some line → serial line ≠ [] →
        bothAcknowledged (outcomes i) = true) ∧
      ∀ line, (∀ f, TakenAsIs f (fleetValue env line f)) → ∀ state,
        (applyAp2pConfPayload state (fleetPayload env line)).1 = 0 ∧
          ∀ f : Field, f.held (applyAp2pConfPayload state (fleetPayload env line)).2.config =
            f.meaning (fleetValue env line f) := by
  have hrows : Provisioned env outcomes broker (readLines csv).tail t := by
    unfold fleetProvision at h
    split at h
    · cases h
    · split at h
      · cases h
      · next header lines hlines =>
        split at h
        · cases h
          rw [hlines]
          exact provisioned_rows env outcomes broker lines
        · cases h
  refine ⟨hrows, ?_, fun line hline state ↦ apply_fleetPayload hline state⟩
  rw [← hrows.fail, Tally.exitCode]
  split <;> omega

/-- An environment with what has no default. -/
def benchEnv : FleetEnv :=
  ⟨lit "secret", fun f ↦ if f = .ctrlToken ∨ f = .relayPass then lit "token" else []⟩

/-- Two rows of a camera, the second without a latency, one of another camera, and a line that is not
ended. -/
def benchCsv : Bytes := lit "serial,verify_token\r\nA1,x%2F,200,1\r\nA2,z\nA1,y\nA3"

/-- The last publication fails, and the broker has taken it. -/
def benchOutcomes : Outcomes := fun i ↦
  (.acknowledged, if i = 2 then .failed true else .acknowledged)

theorem fleet_provisioned_bench : ∃ t,
    fleetProvision benchEnv false benchCsv benchOutcomes (fun _ ↦ []) = some t ∧
    t.row = 3 ∧ t.exitCode ≠ 0 ∧
    t.broker (rxTopic (lit "A1") 90) = fleetPayload benchEnv (lit "A1,y") ∧
    ∀ line ∈ (readLines benchCsv).tail, ∀ state,
      (applyAp2pConfPayload state (fleetPayload benchEnv line)).1 = 0 := by
  obtain ⟨t, ht⟩ := Option.isSome_iff_exists.mp (show (fleetProvision benchEnv false benchCsv
    benchOutcomes (fun _ ↦ [])).isSome = true by decide +kernel)
  obtain ⟨hrows, hexit, hline⟩ := fleet_provisioned ht
  have htail : (readLines benchCsv).tail =
      [lit "A1,x%2F,200,1\r", lit "A2,z", lit "A1,y"] := by decide +kernel
  have hserial : serial (lit "A1,y") = lit "A1" := by decide +kernel
  rw [htail] at hrows hexit ⊢
  refine ⟨t, ht, hrows.row, fun hzero ↦ ?_, ?_, fun line hmem state ↦ (hline line ?_ state).1⟩
  · have hack := hexit.mp hzero 2 (lit "A1,y") rfl (by decide +kernel)
    cases hack
  · rw [← hserial]
    refine (hrows.last 2 (lit "A1,y") rfl (by decide +kernel) rfl fun j line' hj hget ↦ ?_).2
    have hbeyond := (List.getElem?_eq_some_iff.mp hget).1
    simp only [List.length_cons, List.length_nil] at hbeyond
    omega
  · simp only [List.mem_cons, List.not_mem_nil, or_false] at hmem
    obtain rfl | rfl | rfl := hmem <;> intro f <;> cases f <;> decide +kernel

end Kitty.Migration
