import Kitty.CJson.RoundTrip

/-!
# Heartbeats

Case 0 of `src/ap2p/legacy_cases.c` publishes what `get_system_info` prints with cJSON, or a fixed
document when there are no readings. The array of 256 bytes has room for every reading, so what is
published is always a JSON document.
-/

namespace Kitty.Ap2p

open Kitty.Base
open Kitty.CJson (Item CDouble LawfulCDouble print render numberText)

variable {D : Type} [CDouble D]

/-- The `double` values that `get_system_info` adds. -/
structure Readings (D : Type) where
  temperature : D
  total : D
  used : D
  free : D
  usedPercentage : D
  cpu : D
  deriving DecidableEq

/-- `root_obj` -/
def Readings.item (r : Readings D) : Item D :=
  .object [(lit "Temperature_C", .number r.temperature),
    (lit "SD_Card", .object [(lit "Total", .number r.total), (lit "Used", .number r.used),
      (lit "Free", .number r.free), (lit "Used_Percentage", .number r.usedPercentage)]),
    (lit "CPU", .number r.cpu)]

/-- What is published without readings. -/
def unavailable : Bytes := lit "\x7b\"keepalive\":true,\"telemetry\":\"unavailable\"\x7d"

section Program

-- The byte that there is at a place of a new block of a size.
variable (fresh : Nat → Nat → UInt8)

/-- `get_system_info`: it returns null when a file or the card cannot be read. -/
def getSystemInfo (readings : Option (Readings D)) : Option Bytes :=
  readings.map fun r ↦
    match print fresh r.item false with
    | .ok jsonStr => snprintf 256 [jsonStr]
    | .error _ => snprintf 256 [lit "\x7b\x7d"]

/-- `handle_case_0`: what is in `response` when it publishes. -/
def handleCase0Response (readings : Option (Readings D)) : Bytes :=
  match getSystemInfo fresh readings with
  | none => snprintf 8192 [unavailable]
  | some systemInfo =>
    if systemInfo = [] then snprintf 8192 [unavailable] else (cstr systemInfo).take 8191

end Program

/-! ### The text of the readings -/

private theorem length_render_item [LawfulCDouble D] (r : Readings D) :
    (render false 0 r.item).length ≤ 225 := by
  have h₁ := (CJson.numberText_fits r.temperature).1
  have h₂ := (CJson.numberText_fits r.total).1
  have h₃ := (CJson.numberText_fits r.used).1
  have h₄ := (CJson.numberText_fits r.free).1
  have h₅ := (CJson.numberText_fits r.usedPercentage).1
  have h₆ := (CJson.numberText_fits r.cpu).1
  have hnames : (CJson.renderString (lit "Temperature_C")).length = 15 ∧
      (CJson.renderString (lit "SD_Card")).length = 9 ∧
      (CJson.renderString (lit "Total")).length = 7 ∧
      (CJson.renderString (lit "Used")).length = 6 ∧
      (CJson.renderString (lit "Free")).length = 6 ∧
      (CJson.renderString (lit "Used_Percentage")).length = 17 ∧
      (CJson.renderString (lit "CPU")).length = 5 := by decide +kernel
  obtain ⟨hn₁, hn₂, hn₃, hn₄, hn₅, hn₆, hn₇⟩ := hnames
  simp only [Readings.item, render, CJson.renderMembers, List.isEmpty_cons, List.isEmpty_nil,
    List.length_append, List.length_cons, List.length_nil, Bool.false_eq_true, if_false, if_true,
    hn₁, hn₂, hn₃, hn₄, hn₅, hn₆, hn₇]
  omega

private theorem all_item {E : Type} (r : Readings E) :
    r.item.All (fun _ ↦ True) (fun s ↦ isUtf8 (cstr s) = true) := by
  simp only [Readings.item, Item.All, CJson.membersAll, and_true, true_and]
  decide +kernel

/-- Every heartbeat is a JSON document, whatever can be read: that of the readings, of which one
that is no number is null, or the fixed one. -/
theorem handleCase0Response_json [LawfulCDouble D] (fresh : Nat → Nat → UInt8)
    (readings : Option (Readings D)) :
    Json.parse (handleCase0Response fresh readings) = some
      (match readings with
      | none => .object [(lit "keepalive", .bool true),
          (lit "telemetry", .string (lit "unavailable"))]
      | some r => CJson.valueOf r.item) := by
  cases readings with
  | none => rfl
  | some r =>
    have hlength := length_render_item r
    have hparse := CJson.parse_render (all_item r) false
    obtain ⟨block, hprint, hblock, -⟩ :=
      (CJson.serves_print fresh r.item false).1.exists_ok (by
        have hmax : 227 ≤ intMax := by decide
        omega)
    have hinfo : getSystemInfo fresh (some r) = some (render false 0 r.item) := by
      simp only [getSystemInfo, Option.map_some, hprint]
      rw [snprintf, List.flatMap_singleton, hblock, List.take_of_length_le (by omega)]
    have hne : render false 0 r.item ≠ [] := by
      intro hnil
      rw [hnil] at hparse
      cases hparse
    have hcstr : cstr (render false 0 r.item) = render false 0 r.item := by
      rw [← hblock, cstr_of_nul_not_mem (nul_not_mem_cstr block)]
    rw [handleCase0Response, hinfo]
    simp only [if_neg hne]
    rw [hcstr, List.take_of_length_le (by omega), hparse]

/-- Readings of a card of 29 GB. -/
def cardReadings : Readings Int := ⟨41, 29804, 1204, 28600, 4, 17⟩

theorem handleCase0Response_json_cardReadings :
    Json.parse (handleCase0Response (fun _ _ ↦ 0xFF) (some cardReadings)) =
      some (CJson.valueOf cardReadings.item) :=
  handleCase0Response_json (fun _ _ ↦ 0xFF) (some cardReadings)

end Kitty.Ap2p
