import Kitty.Base.Appends
import Kitty.Base.Trim

/-!
# The summary of a boot

`bt_format_summary` of `src/ap2p/boot_timing.c:15–128`: the times at which the milestones of a boot
were reached, as JSON. Milestones are left out when no more than 32 bytes are free, but the text in
front of them and the text between the two lists are appended in any case. `int` and
`size_t` have 32 bits, as on the camera.
-/

namespace Kitty.Ap2p

open Kitty.Base

/-! ### Milestones and times -/

/-- `bt_milestone_t` -/
inductive Milestone where
  | ap2pMain
  | configLoaded
  | mqttConnecting
  | mqttConnected
  | subscribed
  | case81Rx
  | stateReady
  | srtStarted
  | edgeSrflx
  | ctrlRegistered
  deriving DecidableEq, Repr

/-- The milestones from 0 to `BT__COUNT`. -/
def Milestone.all : List Milestone :=
  [.ap2pMain, .configLoaded, .mqttConnecting, .mqttConnected, .subscribed, .case81Rx, .stateReady,
    .srtStarted, .edgeSrflx, .ctrlRegistered]

/-- `g_names` -/
def Milestone.name : Milestone → Bytes
  | .ap2pMain => lit "ap2p_main"
  | .configLoaded => lit "config_loaded"
  | .mqttConnecting => lit "mqtt_connecting"
  | .mqttConnected => lit "mqtt_connected"
  | .subscribed => lit "subscribed"
  | .case81Rx => lit "case81_rx"
  | .stateReady => lit "state_ready"
  | .srtStarted => lit "srt_started"
  | .edgeSrflx => lit "edge_srflx"
  | .ctrlRegistered => lit "ctrl_registered"

/-- A time in seconds, a `double` in the source: what the program does with it. `print` is the
conversion `%.3f`. -/
class Seconds (D : Type) where
  zero : D
  minusOne : D
  positive : D → Bool
  nonneg : D → Bool
  sub : D → D → D
  print : D → Bytes
  nul_not_mem_print : ∀ d, NUL ∉ print d

export Seconds (nul_not_mem_print)

/-- The static variables of `boot_timing.c`, less the one-shot guard. -/
structure BootTiming (D : Type) where
  marks : Milestone → D
  ambicamT0 : D
  version : Bytes

/-- What is read from `/proc/uptime`, `/tmp/boot_t0` and the `VERSION` file. A time is `none` when
its file cannot be opened or does not begin with a number. -/
structure BootFiles (D : Type) where
  uptime : Option D
  bootT0 : Option D
  version : Option Bytes

/-- `bt_version_string`, and what it caches. -/
def btVersionString (file : Option Bytes) (cached : Bytes) : Bytes :=
  if cstr cached ≠ [] then cstr cached
  else
    match file with
    | none => lit "unknown"
    | some text =>
      let line :=
        if LF ∈ text.take 31 then text.takeWhile (· ≠ LF) ++ [LF] else text.take 31
      let stripped := (cstr line).rdropWhile fun b ↦ b = LF || b = CR || b = 32 || b = 9
      if stripped = [] then lit "unknown" else stripped

variable {D : Type} [Seconds D]

/-- `bt_uptime_now_sec` -/
def btUptimeNowSec (files : BootFiles D) : D := files.uptime.getD Seconds.zero

/-- `load_ambicam_t0_unlocked` and `bt_version_string` -/
def BootTiming.load (s : BootTiming D) (files : BootFiles D) : BootTiming D where
  marks := s.marks
  ambicamT0 :=
    if Seconds.nonneg s.ambicamT0 then s.ambicamT0 else files.bootT0.getD Seconds.zero
  version := btVersionString files.version s.version

/-- `t0` -/
def BootTiming.t0 (s : BootTiming D) : D :=
  if Seconds.positive s.ambicamT0 then s.ambicamT0 else Seconds.zero

/-! ### The texts of a summary -/

/-- The text in front of the milestones. -/
def summaryHead (s : BootTiming D) (now : D) (nodeId : Option Bytes) : Bytes :=
  lit "\x7b\"node_id\":\"" ++ cstr (nodeId.getD []) ++
    lit "\",\"version\":\"" ++ cstr s.version ++
    lit "\",\"ambicam_start_uptime_sec\":" ++ Seconds.print s.t0 ++
    lit ",\"now_uptime_sec\":" ++ Seconds.print now ++
    lit ",\"since_ambicam_start_sec\":\x7b"

/-- The texts of one list, the first without a comma. -/
def markTexts (value : Milestone → D) : Bool → List Milestone → List Bytes
  | _, [] => []
  | first, m :: ms =>
    ((if first then [] else lit ",") ++ lit "\"" ++ m.name ++ lit "\":" ++
      Seconds.print (value m)) :: markTexts value false ms

/-- The times since the launcher started, or -1. -/
def sinceTexts (s : BootTiming D) : List Bytes :=
  markTexts (fun m ↦
    if Seconds.positive (s.marks m) && Seconds.positive s.t0 then Seconds.sub (s.marks m) s.t0
    else Seconds.minusOne) true Milestone.all

/-- The text between the two lists. -/
def summarySeparator : Bytes := lit "\x7d,\"uptime_at_milestone_sec\":\x7b"

/-- The times as they were marked. -/
def uptimeTexts (s : BootTiming D) : List Bytes := markTexts s.marks true Milestone.all

/-- `(int)buflen - 32`; `none` when it is not an `int`. -/
def markLimit (buflen : BitVec 32) : Option Int :=
  if -2 ^ 31 ≤ buflen.toInt - 32 then some (buflen.toInt - 32) else none

/-- `bt_format_summary` of a buffer, null or not. The result has the stores and the length that is
returned, and is `none` when an `int` overflows. -/
def btFormatSummary (files : BootFiles D) (s : BootTiming D) (buf : Bool) (buflen : BitVec 32)
    (nodeId : Option Bytes) : Option Appended × BootTiming D :=
  if !buf || buflen < 64#32 then (some .start, s)
  else
    let s := s.load files
    (do
      let p ← Appended.start.append buflen (summaryHead s (btUptimeNowSec files) nodeId)
      let limit ← markLimit buflen
      let p ← p.appendBelow buflen limit (sinceTexts s)
      let p ← p.append buflen summarySeparator
      let p ← p.appendBelow buflen limit (uptimeTexts s)
      p.append buflen (lit "\x7d\x7d"), s)

/-- The lengths of its texts keep a summary in its buffer. The limit is 32 bytes before the end of
the buffer: the text in front of the milestones ends there or before it, so does every entry of the
first list that begins before the limit, and every entry of the second list that begins before the
limit ends at most 29 bytes behind it. A length that is negative as an `int` leaves the milestones
out. -/
def SummaryFits (buflen : Nat) (head : Bytes) (since uptimes : List Bytes) : Prop :=
  if buflen < 2 ^ 31 then
    head.length ≤ buflen - 32 ∧ EndsBy (buflen - 32) 0 head.length since ∧
      EndsBy (buflen - 32) 29 (head.length + since.flatten.length + 29) uptimes
  else 2 ^ 31 + 32 ≤ buflen ∧ head.length + 31 < 2 ^ 31

instance (buflen : Nat) (head : Bytes) (since uptimes : List Bytes) :
    Decidable (SummaryFits buflen head since uptimes) :=
  inferInstanceAs (Decidable (if buflen < 2 ^ 31 then
    head.length ≤ buflen - 32 ∧ EndsBy (buflen - 32) 0 head.length since ∧
      EndsBy (buflen - 32) 29 (head.length + since.flatten.length + 29) uptimes
    else 2 ^ 31 + 32 ≤ buflen ∧ head.length + 31 < 2 ^ 31))

/-! ### No text has a NUL -/

theorem nul_not_mem_markTexts (value : Milestone → D) (first : Bool) (ms : List Milestone) :
    ∀ text ∈ markTexts value first ms, NUL ∉ text := by
  have hname : ∀ m : Milestone, NUL ∉ m.name := by
    intro m
    cases m <;> decide
  have hquote : NUL ∉ lit "\"" ∧ NUL ∉ lit "\":" ∧ NUL ∉ lit "," := by decide
  induction ms generalizing first with
  | nil => simp [markTexts]
  | cons m ms ih =>
    intro text hmem
    rcases List.mem_cons.mp hmem with rfl | hmem
    · have hcomma : NUL ∉ (if first then [] else lit ",") := by
        split
        · exact List.not_mem_nil
        · exact hquote.2.2
      simp only [List.mem_append, not_or]
      exact ⟨⟨⟨⟨hcomma, hquote.1⟩, hname m⟩, hquote.2.1⟩, nul_not_mem_print _⟩
    · exact ih false text hmem

theorem nul_not_mem_summaryHead (s : BootTiming D) (now : D) (nodeId : Option Bytes) :
    NUL ∉ summaryHead s now nodeId := by
  simp only [summaryHead, List.mem_append, not_or]
  refine ⟨⟨⟨⟨⟨⟨⟨⟨by decide, nul_not_mem_cstr _⟩, by decide⟩, nul_not_mem_cstr _⟩, by decide⟩, ?_⟩,
    by decide⟩, ?_⟩, by decide⟩
  · exact nul_not_mem_print _
  · exact nul_not_mem_print _

/-! ### What is appended -/

/-- The texts that are appended with a limit for the milestones. -/
def summaryTexts (limit : Int) (head : Bytes) (since uptimes : List Bytes) : List Bytes :=
  let since := below limit head.length since
  head :: since ++ summarySeparator ::
    below limit (head.length + since.flatten.length + summarySeparator.length) uptimes ++
      [lit "\x7d\x7d"]

/-- A summary is its texts, appended one after the other. -/
private theorem append_texts (buflen : BitVec 32) (limit : Option Int) (head : Bytes)
    (since uptimes : List Bytes) :
    (do
      let p ← Appended.start.append buflen head
      let limit ← limit
      let p ← p.appendBelow buflen limit since
      let p ← p.append buflen summarySeparator
      let p ← p.appendBelow buflen limit uptimes
      p.append buflen (lit "\x7d\x7d")) =
    limit.bind fun limit ↦
      Appended.start.appendAll buflen (summaryTexts limit head since uptimes) := by
  cases limit with
  | none => exact Option.bind_fun_none _
  | some limit =>
    simp only [summaryTexts, List.cons_append, List.append_assoc, appendAll_cons, appendAll_append,
      appendBelow_eq, Option.bind_eq_bind, Option.bind_some]
    refine Option.bind_congr fun p hp ↦ ?_
    have hn : p.n = head.length := (n_of_append hp).trans (Nat.zero_add _)
    rw [hn]
    refine Option.bind_congr fun p' hp' ↦ Option.bind_congr fun p'' hp'' ↦ ?_
    rw [n_of_append hp'', n_of_appendAll hp', hn]
    exact Option.bind_congr fun p₃ _ ↦ (Option.bind_fun_some _).symm

/-- The texts end before the end of the buffer when they keep their limits. The last of them is
two bytes long. -/
private theorem summaryTexts_lt_iff {buflen : Nat} (h : 64 ≤ buflen) (hlt : buflen < 2 ^ 31)
    (head : Bytes) (since uptimes : List Bytes) :
    (summaryTexts (buflen - 32 : Nat) head since uptimes).flatten.length < buflen ↔
      SummaryFits buflen head since uptimes := by
  have hseparator : summarySeparator.length = 29 := by decide
  have hend : (lit "\x7d\x7d").length = 2 := by decide
  rw [SummaryFits, if_pos hlt, summaryTexts]
  simp only [List.flatten_cons, List.flatten_append, List.length_append, List.flatten_nil,
    List.length_nil, hseparator, hend, List.cons_append]
  obtain ⟨L, rfl⟩ : ∃ L, buflen = L + 32 := ⟨buflen - 32, by omega⟩
  rw [Nat.add_sub_cancel, ← endsBy_below_iff]
  generalize hm : head.length + (below L head.length since).flatten.length = m
  by_cases hhead : head.length ≤ L
  · have hsince := @below_le_iff_endsBy L 0 head.length hhead since
    rw [hm] at hsince
    rw [← hsince]
    by_cases hle : m ≤ L
    · rw [← @below_le_iff_endsBy L 29 (m + 29) (by omega) uptimes]
      omega
    · omega
  · omega

/-- A length that is negative as an `int` leaves the milestones out. -/
private theorem summaryTexts_neg {limit : Int} (h : limit ≤ 0) (head : Bytes)
    (since uptimes : List Bytes) :
    (summaryTexts limit head since uptimes).flatten.length = head.length + 31 := by
  have hseparator : summarySeparator.length = 29 := by decide
  have hend : (lit "\x7d\x7d").length = 2 := by decide
  rw [summaryTexts, below_of_le (by omega), below_of_le (by omega)]
  simp [hseparator, hend]

theorem nul_not_mem_summaryTexts (limit : Int) (s : BootTiming D) (now : D)
    (nodeId : Option Bytes) : ∀ text ∈ summaryTexts limit (summaryHead s now nodeId) (sinceTexts s)
      (uptimeTexts s), NUL ∉ text := by
  have hbelow : ∀ n texts, (∀ text ∈ texts, NUL ∉ text) → ∀ text ∈ below limit n texts,
      NUL ∉ text := fun n texts h text hmem ↦ h text ((below_sublist limit n texts).subset hmem)
  intro text hmem
  simp only [summaryTexts, List.cons_append, List.append_assoc, List.mem_cons, List.mem_append,
    List.not_mem_nil, or_false] at hmem
  rcases hmem with rfl | hmem | rfl | hmem | rfl
  · exact nul_not_mem_summaryHead s now nodeId
  · exact hbelow _ _ (nul_not_mem_markTexts _ _ _) text hmem
  · decide
  · exact hbelow _ _ (nul_not_mem_markTexts _ _ _) text hmem
  · decide

/-! ### When a summary stays in its buffer -/

/-- The limit of a buffer length. -/
private theorem markLimit_eq (buflen : BitVec 32) (h : 64 ≤ buflen.toNat) :
    (buflen.toNat < 2 ^ 31 ∧ markLimit buflen = some ((buflen.toNat - 32 : Nat) : Int)) ∨
    (2 ^ 31 + 32 ≤ buflen.toNat ∧ ∃ limit ≤ 0, markLimit buflen = some limit) ∨
    (2 ^ 31 ≤ buflen.toNat ∧ buflen.toNat < 2 ^ 31 + 32 ∧ markLimit buflen = none) := by
  have hlt := buflen.isLt
  rw [markLimit, BitVec.toInt_eq_toNat_cond]
  by_cases hint : 2 * buflen.toNat < 2 ^ 32
  · rw [if_pos hint, if_pos (by omega)]
    exact .inl ⟨by omega, by congr 1; omega⟩
  · rw [if_neg hint]
    by_cases hover : 2 ^ 31 + 32 ≤ buflen.toNat
    · rw [if_pos (by omega)]
      exact .inr (.inl ⟨hover, _, by omega, rfl⟩)
    · rw [if_neg (by omega)]
      exact .inr (.inr ⟨by omega, by omega, rfl⟩)

section Result

variable (files : BootFiles D) (s : BootTiming D) {buflen : BitVec 32} (nodeId : Option Bytes)

theorem btFormatSummary_eq (h : 64 ≤ buflen.toNat) :
    (btFormatSummary files s true buflen nodeId).1 = (markLimit buflen).bind fun limit ↦
      Appended.start.appendAll buflen (summaryTexts limit
        (summaryHead (s.load files) (btUptimeNowSec files) nodeId) (sinceTexts (s.load files))
        (uptimeTexts (s.load files))) := by
  have hguard : (!true || decide (buflen < 64#32)) = false := by
    simp only [Bool.not_true, Bool.false_or, decide_eq_false_iff_not, BitVec.lt_def]
    exact Nat.not_lt.mpr h
  rw [btFormatSummary, if_neg (by rw [hguard]; decide)]
  exact append_texts buflen (markLimit buflen) _ _ _

/-- With a limit the texts are appended inside the buffer when all of them fit. -/
private theorem inBuffer_of_limit_iff (h : 64 ≤ buflen.toNat) {limit : Int}
    (hlimit : markLimit buflen = some limit) :
    (∃ p, (btFormatSummary files s true buflen nodeId).1 = some p ∧ p.InBuffer buflen.toNat) ↔
      (summaryTexts limit (summaryHead (s.load files) (btUptimeNowSec files) nodeId)
        (sinceTexts (s.load files)) (uptimeTexts (s.load files))).flatten.length < buflen.toNat ∧
      (summaryTexts limit (summaryHead (s.load files) (btUptimeNowSec files) nodeId)
        (sinceTexts (s.load files)) (uptimeTexts (s.load files))).flatten.length ≤ intMax := by
  rw [btFormatSummary_eq files s nodeId h, hlimit, Option.bind_some]
  exact appendAll_inBuffer_iff (by simp [summaryTexts]) (nul_not_mem_summaryTexts limit _ _ nodeId)

/-- A summary in a buffer whose length is an `int`. -/
private theorem inBuffer_of_int_iff (h : 64 ≤ buflen.toNat) (hlt : buflen.toNat < 2 ^ 31)
    (hlimit : markLimit buflen = some ((buflen.toNat - 32 : Nat) : Int)) :
    (∃ p, (btFormatSummary files s true buflen nodeId).1 = some p ∧ p.InBuffer buflen.toNat) ↔
      SummaryFits buflen.toNat (summaryHead (s.load files) (btUptimeNowSec files) nodeId)
        (sinceTexts (s.load files)) (uptimeTexts (s.load files)) := by
  rw [inBuffer_of_limit_iff files s nodeId h hlimit, ← summaryTexts_lt_iff h hlt]
  exact ⟨And.left, fun hfits ↦ ⟨hfits, by rw [intMax]; omega⟩⟩

/-- `bt_format_summary` stores only inside its buffer, leaves a string there and returns its
length exactly when the lengths of the texts keep it there. -/
theorem btFormatSummary_inBuffer_iff (h : 64 ≤ buflen.toNat) :
    (∃ p, (btFormatSummary files s true buflen nodeId).1 = some p ∧ p.InBuffer buflen.toNat) ↔
      SummaryFits buflen.toNat (summaryHead (s.load files) (btUptimeNowSec files) nodeId)
        (sinceTexts (s.load files)) (uptimeTexts (s.load files)) := by
  rcases markLimit_eq buflen h with ⟨hlt, hlimit⟩ | ⟨hge, limit, hneg, hlimit⟩ | ⟨hge, hlt, hlimit⟩
  · exact inBuffer_of_int_iff files s nodeId h hlt hlimit
  · rw [inBuffer_of_limit_iff files s nodeId h hlimit, summaryTexts_neg hneg, SummaryFits,
      if_neg (by omega), intMax]
    omega
  · rw [btFormatSummary_eq files s nodeId h, hlimit, Option.bind_none, SummaryFits,
      if_neg (by omega)]
    constructor
    · rintro ⟨p, hp, -⟩
      cases hp
    · rintro ⟨hover, -⟩
      omega

end Result

/-! ### The buffer of `bt_publish_summary` -/

/-- The version has at most the 31 bytes of its cache. -/
theorem length_btVersionString_le (file : Option Bytes) {cached : Bytes}
    (h : (cstr cached).length ≤ 31) : (btVersionString file cached).length ≤ 31 := by
  have hunknown : (lit "unknown").length ≤ 31 := by decide
  rw [btVersionString.eq_def]
  split
  · exact h
  · split
    · exact hunknown
    · next text =>
      generalize hline : (if LF ∈ text.take 31 then text.takeWhile (· ≠ LF) ++ [LF]
        else text.take 31) = line
      have hlength : line.length ≤ 31 := by
        rw [← hline]
        split
        · next hlf =>
          obtain ⟨behind, hsplit⟩ := exists_append_cons hlf
          have hbefore := not_mem_takeWhile_ne LF (text.take 31)
          generalize (text.take 31).takeWhile (· ≠ LF) = before at hsplit hbefore
          have htext : text = before ++ LF :: (behind ++ text.drop 31) := by
            rw [← List.cons_append, ← List.append_assoc, ← hsplit, List.take_append_drop]
          have htake := congrArg List.length hsplit
          rw [List.length_take, List.length_append, List.length_cons] at htake
          rw [htext, takeWhile_ne_append_cons hbefore, List.length_append, List.length_singleton]
          omega
        · exact List.length_take_le ..
      simp only
      split
      · exact hunknown
      · calc _ ≤ (cstr line).length := (List.rdropWhile_prefix _ _).length_le
          _ ≤ line.length := (List.takeWhile_prefix _).length_le
          _ ≤ 31 := hlength

theorem length_markTexts_le {width : Nat} {value : Milestone → D}
    (hprint : ∀ m, (Seconds.print (value m)).length ≤ width) (first : Bool) (ms : List Milestone) :
    (markTexts value first ms).flatten.length ≤ (19 + width) * ms.length := by
  have hname : ∀ m : Milestone, m.name.length ≤ 15 := by
    intro m
    cases m <;> decide
  have hquote : (lit "\"").length = 1 ∧ (lit "\":").length = 2 ∧ (lit ",").length = 1 := by decide
  induction ms generalizing first with
  | nil => exact Nat.zero_le _
  | cons m ms ih =>
    have hcomma : (if first then [] else lit ",").length ≤ 1 := by
      split
      · exact Nat.zero_le _
      · exact hquote.2.2.le
    have htail := ih false
    have hm := hname m
    have hvalue := hprint m
    rw [markTexts, List.flatten_cons, List.length_cons, Nat.mul_succ]
    simp only [List.length_append, hquote.1, hquote.2.1]
    omega

/-- With node ids of at most 900 bytes and times of at most 24, a summary stays in the 2048 bytes
that it is published from. -/
theorem published_inBuffer (files : BootFiles D) (s : BootTiming D) (nodeId : Option Bytes)
    (hprint : ∀ d : D, (Seconds.print d).length ≤ 24) (hversion : (cstr s.version).length ≤ 31)
    (hnode : (cstr (nodeId.getD [])).length ≤ 900) :
    ∃ p, (btFormatSummary files s true 2048#32 nodeId).1 = some p ∧ p.InBuffer 2048 := by
  refine (@inBuffer_of_int_iff D _ files s 2048#32 nodeId (by decide) (by decide)
    (by decide)).mpr ?_
  have hversion' : (cstr (s.load files).version).length ≤ 31 :=
    (List.takeWhile_prefix _).length_le.trans (length_btVersionString_le files.version hversion)
  have hhead : (summaryHead (s.load files) (btUptimeNowSec files) nodeId).length ≤ 1079 := by
    have ht0 := hprint (s.load files).t0
    have hnow := hprint (btUptimeNowSec files)
    have hlit : (lit "\x7b\"node_id\":\"").length + (lit "\",\"version\":\"").length +
        (lit "\",\"ambicam_start_uptime_sec\":").length + (lit ",\"now_uptime_sec\":").length +
        (lit ",\"since_ambicam_start_sec\":\x7b").length ≤ 100 := by decide
    simp only [summaryHead, List.length_append]
    omega
  have hsince : (sinceTexts (s.load files)).flatten.length ≤ 430 :=
    length_markTexts_le (fun _ ↦ hprint _) _ _
  have huptimes : (uptimeTexts (s.load files)).flatten.length ≤ 430 :=
    length_markTexts_le (fun _ ↦ hprint _) _ _
  change SummaryFits 2048 _ _ _
  rw [SummaryFits, if_pos (by decide)]
  exact ⟨by omega, endsBy_of_length_le (by omega), endsBy_of_length_le (by omega)⟩

/-! ### A camera that has just started -/

/-- A time in whole milliseconds. -/
structure Millis where
  count : Int
  deriving DecidableEq, Repr

/-- What `%.3f` prints of a time in whole milliseconds. -/
def Millis.print (t : Millis) : Bytes :=
  (if t.count < 0 then lit "-" else []) ++ stdToString (t.count.natAbs / 1000 : Nat) ++ lit "." ++
    (stdToString (1000 + t.count.natAbs % 1000 : Nat)).drop 1

instance : Seconds Millis where
  zero := ⟨0⟩
  minusOne := ⟨-1000⟩
  positive t := 0 < t.count
  nonneg t := 0 ≤ t.count
  sub t t' := ⟨t.count - t'.count⟩
  print := Millis.print
  nul_not_mem_print t := by
    have hsign : NUL ∉ (if t.count < 0 then lit "-" else []) := by split <;> decide
    have hdot : NUL ∉ lit "." := by decide
    simp only [Millis.print, List.mem_append, not_or]
    exact ⟨⟨⟨hsign, nul_not_mem_stdToString _⟩, hdot⟩,
      fun h ↦ nul_not_mem_stdToString _ (List.mem_of_mem_drop h)⟩

/-- No milestone has been reached, and none of the files can be read. -/
def noMilestones : BootTiming Millis := ⟨fun _ ↦ ⟨0⟩, ⟨-1000⟩, []⟩

/-- The buffer of `bt_publish_summary` is long enough then. -/
theorem btFormatSummary_inBuffer_2048 :
    ∃ p, (btFormatSummary ⟨none, none, none⟩ noMilestones true 2048#32 none).1 = some p ∧
      p.InBuffer (2048#32).toNat :=
  (btFormatSummary_inBuffer_iff ⟨none, none, none⟩ noMilestones none (by decide)).mpr
    (by decide +kernel)

/-- In a buffer of 64 bytes a summary without milestones ends behind the buffer, and text is stored
there. -/
theorem btFormatSummary_overflows :
    ∃ p, (btFormatSummary ⟨none, none, none⟩ noMilestones true 64#32 none).1 = some p ∧
      64 ≤ p.n ∧ ∃ store ∈ p.stores, ¬store.Inside 64 := by
  have hrun : (btFormatSummary ⟨none, none, none⟩ noMilestones true 64#32 none).1.any (fun p ↦
      64 ≤ p.n && p.stores.any fun store ↦ 64 < store.off + store.items.length) = true := by
    decide +kernel
  obtain ⟨p, hp, hover⟩ := (Option.any_eq_true _ _).mp hrun
  simp only [Bool.and_eq_true, decide_eq_true_eq, List.any_eq_true] at hover
  obtain ⟨hn, store, hmem, hstore⟩ := hover
  exact ⟨p, hp, hn, store, hmem, Nat.not_le.mpr hstore⟩

end Kitty.Ap2p
