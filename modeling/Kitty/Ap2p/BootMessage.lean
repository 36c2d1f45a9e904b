import Kitty.Ap2p.BootTiming
import Kitty.Base.JsonCompact
import Kitty.Base.Run

/-!
# The message of a boot

`bt_mark` and `bt_publish_summary` of `src/ap2p/boot_timing.c:53–62, 130–163`. The threads mark
milestones one after the other, as often as they get there. `bt_publish_summary` takes the lock
twice, and every call but the first comes to nothing.
-/

namespace Kitty.Ap2p

open Kitty.Base
open Kitty.Base.Json (Value compact Unescaped IsPlainText IsNumber QUOTE)

/-! ### The program -/

section Program

variable {D : Type} [Seconds D]

/-- `load_ambicam_t0_unlocked` -/
def BootTiming.loadAmbicamT0 (s : BootTiming D) (files : BootFiles D) : BootTiming D where
  marks := s.marks
  ambicamT0 :=
    if Seconds.nonneg s.ambicamT0 then s.ambicamT0 else files.bootT0.getD Seconds.zero
  version := s.version

/-- The time is equal to zero. -/
def Seconds.isZero (d : D) : Bool := Seconds.nonneg d && !Seconds.positive d

/-- `bt_mark` -/
def btMark (files : BootFiles D) (s : BootTiming D) (m : Milestone) : BootTiming D :=
  let s := s.loadAmbicamT0 files
  if Seconds.isZero (s.marks m) then
    { s with marks := Function.update s.marks m (btUptimeNowSec files) }
  else s

theorem btMark_marks (files : BootFiles D) (s : BootTiming D) (m : Milestone) :
    (btMark files s m).marks = if Seconds.isZero (s.marks m) then
      Function.update s.marks m (btUptimeNowSec files) else s.marks := by
  unfold btMark
  dsimp only [BootTiming.loadAmbicamT0]
  split <;> rfl

theorem btMark_ambicamT0 (files : BootFiles D) (s : BootTiming D) (m : Milestone) :
    (btMark files s m).ambicamT0 = (s.loadAmbicamT0 files).ambicamT0 := by
  unfold btMark
  dsimp only
  split <;> rfl

theorem btMark_version (files : BootFiles D) (s : BootTiming D) (m : Milestone) :
    (btMark files s m).version = s.version := by
  unfold btMark
  dsimp only
  split <;> rfl

/-- A retained message. -/
structure BootMessage where
  topic : Bytes
  payload : Bytes
  deriving DecidableEq

/-- The static variables of `boot_timing.c`, whether a call of `bt_publish_summary` is behind its
first section, and what was published. -/
structure BootState (D : Type) where
  timing : BootTiming D
  published : Bool
  rendering : Bool
  messages : List BootMessage

/-- A process that has just started. -/
def BootState.start : BootState D where
  timing := ⟨fun _ ↦ Seconds.zero, Seconds.minusOne, []⟩
  published := false
  rendering := false
  messages := []

/-- What the threads do: a milestone is marked; `bt_publish_summary` is called; a call that goes on
prints the summary into an array with those cells and hands it to the client, if there is one. -/
inductive BootEvent (D : Type) where
  | mark (m : Milestone) (files : BootFiles D)
  | call
  | publish (files : BootFiles D) (json : Nat → UInt8) (client : Bool) (nodeId : Option Bytes)

/-- `topic` -/
def bootTopic (nodeId : Bytes) : Bytes := snprintf 160 [lit "torque/tx/", nodeId, lit "/boot"]

/-- One event; `none` also when an `int` overflows. -/
def BootState.step (w : BootState D) : BootEvent D → Option (BootState D)
  | .mark m files => some { w with timing := btMark files w.timing m }
  | .call => some (if w.published then w else { w with published := true, rendering := true })
  | .publish files json client nodeId =>
    if w.rendering then
      let (result, timing) := btFormatSummary files w.timing true 2048#32 nodeId
      result.map fun p ↦
        let id := cstr (nodeId.getD [])
        { w with
          timing, rendering := false
          messages := if client && id != [] && p.n != 0 then
            w.messages ++ [⟨bootTopic id, slice (stored json p.stores) 0 p.n⟩] else w.messages }
    else none

end Program

/-! ### What a summary says -/

/-- A text that is a number of at most 24 bytes. -/
def IsShortNumber (text : Bytes) : Prop := IsNumber text ∧ text.length ≤ 24

instance (text : Bytes) : Decidable (IsShortNumber text) :=
  inferInstanceAs (Decidable (_ ∧ _))

/-- What the program counts on of the times that a clock shows: they are not negative, and they and
their differences are printed as short numbers. -/
class ClockSeconds (D : Type) extends Seconds D where
  Shown : D → Prop
  shown_zero : Shown zero
  nonneg_of_shown {d : D} (h : Shown d) : nonneg d = true
  positive_zero : positive zero = false
  nonneg_minusOne : nonneg minusOne = false
  print_minusOne : IsShortNumber (print minusOne)
  print_of_shown {d : D} (h : Shown d) : IsShortNumber (print d)
  print_sub {d d' : D} (h : Shown d) (h' : Shown d') : IsShortNumber (print (sub d d'))

variable {D : Type} [ClockSeconds D]

/-- The time of a milestone since the launcher started, where both are known. -/
def sinceStart (t0 mark : D) : D :=
  if Seconds.positive mark && Seconds.positive t0 then Seconds.sub mark t0 else Seconds.minusOne

/-- A value for each milestone. -/
def milestoneValues (value : Milestone → D) : List (Bytes × Value) :=
  Milestone.all.map fun m ↦ (m.name, .number (Seconds.print (value m)))

/-- The document of a boot. -/
def bootValue (nodeId version : Bytes) (t0 now : D) (marks : Milestone → D) : Value :=
  .object [(lit "node_id", .string nodeId), (lit "version", .string version),
    (lit "ambicam_start_uptime_sec", .number (Seconds.print t0)),
    (lit "now_uptime_sec", .number (Seconds.print now)),
    (lit "since_ambicam_start_sec", .object (milestoneValues fun m ↦ sinceStart t0 (marks m))),
    (lit "uptime_at_milestone_sec", .object (milestoneValues marks))]

private theorem flatten_markTexts (value : Milestone → D) (first : Bool) (ms : List Milestone) :
    (markTexts value first ms).flatten = (if first || ms.isEmpty then [] else lit ",") ++
      Json.compactMembers (ms.map fun m ↦ (m.name, .number (Seconds.print (value m)))) := by
  have hquote : lit "\"" = [QUOTE] ∧ lit "\":" = [QUOTE, 58] ∧ lit "," = [44] := by decide
  induction ms generalizing first with
  | nil => cases first <;> rfl
  | cons m ms ih =>
    rw [markTexts, List.flatten_cons, ih, hquote.1, hquote.2.1, hquote.2.2]
    cases ms <;> cases first <;> simp [Json.compactMembers, compact, Json.quoted, QUOTE]

/-- The texts of a summary are its document. -/
private theorem compact_bootValue (s : BootTiming D) (now : D) (nodeId : Option Bytes) :
    summaryHead s now nodeId ++ (sinceTexts s).flatten ++ summarySeparator ++
        (uptimeTexts s).flatten ++ lit "\x7d\x7d" =
      compact (bootValue (cstr (nodeId.getD [])) (cstr s.version) s.t0 now s.marks) := by
  rw [sinceTexts, uptimeTexts, flatten_markTexts, flatten_markTexts]
  simp only [summaryHead, summarySeparator, bootValue, milestoneValues, sinceStart, compact,
    Json.compactMembers, Json.quoted, List.isEmpty_cons, List.isEmpty_nil, Bool.false_eq_true,
    Bool.true_or, if_false, if_true, List.append_assoc, List.cons_append, List.nil_append,
    List.append_nil]
  rfl

/-- The times that a summary prints. -/
private theorem short_sinceStart {t0 mark : D} (ht0 : ClockSeconds.Shown t0)
    (hmark : ClockSeconds.Shown mark) : IsShortNumber (Seconds.print (sinceStart t0 mark)) := by
  rw [sinceStart]
  split
  · exact ClockSeconds.print_sub hmark ht0
  · exact ClockSeconds.print_minusOne

private theorem unescaped_milestoneValues {value : Milestone → D}
    (h : ∀ m, IsShortNumber (Seconds.print (value m))) :
    Unescaped (.object (milestoneValues value)) := by
  have hname : ∀ m : Milestone, IsPlainText m.name := by
    intro m
    cases m <;> decide +kernel
  simp only [milestoneValues, Milestone.all, List.map_cons, List.map_nil, Unescaped,
    Json.MembersUnescaped, hname, (h _).1, and_self]

/-- Where the names need no escape, the document is one. -/
private theorem unescaped_bootValue {nodeId version : Bytes} {t0 now : D} {marks : Milestone → D}
    (hid : IsPlainText nodeId) (hversion : IsPlainText version) (ht0 : ClockSeconds.Shown t0)
    (hnow : ClockSeconds.Shown now) (hmarks : ∀ m, ClockSeconds.Shown (marks m)) :
    Unescaped (bootValue nodeId version t0 now marks) := by
  have hsince := unescaped_milestoneValues fun m ↦ short_sinceStart ht0 (hmarks m)
  have huptimes := unescaped_milestoneValues fun m ↦ ClockSeconds.print_of_shown (hmarks m)
  simp only [bootValue, Unescaped, Json.MembersUnescaped, hid, hversion,
    (ClockSeconds.print_of_shown ht0).1, (ClockSeconds.print_of_shown hnow).1, and_true,
    true_and] at hsince huptimes ⊢
  exact ⟨by decide +kernel, by decide +kernel, by decide +kernel, by decide +kernel,
    by decide +kernel, hsince, by decide +kernel, huptimes⟩

/-! ### What is published -/

/-- The summary of a node with an id of at most 255 bytes is in the array as it is. -/
private theorem exists_rendered (files : BootFiles D) {s : BootTiming D} (nodeId : Option Bytes)
    (hversion : (cstr s.version).length ≤ 31) (hid : (cstr (nodeId.getD [])).length ≤ 255)
    (ht0 : ClockSeconds.Shown (s.load files).t0) (hnow : ClockSeconds.Shown (btUptimeNowSec files))
    (hmarks : ∀ m, ClockSeconds.Shown (s.marks m)) :
    ∃ p, (btFormatSummary files s true 2048#32 nodeId).1 = some p ∧ p.n ≠ 0 ∧
      ∀ cells, slice (stored cells p.stores) 0 p.n =
        compact (bootValue (cstr (nodeId.getD [])) (cstr (s.load files).version) (s.load files).t0
          (btUptimeNowSec files) s.marks) := by
  have hlimit : markLimit 2048#32 = some 2016 := by decide
  have hlit : (lit "\x7b\"node_id\":\"").length + (lit "\",\"version\":\"").length +
      (lit "\",\"ambicam_start_uptime_sec\":").length + (lit ",\"now_uptime_sec\":").length +
      (lit ",\"since_ambicam_start_sec\":\x7b").length ≤ 100 := by decide
  have hseparator : summarySeparator.length = 29 := by decide
  have hclose : (lit "\x7d\x7d").length = 2 := by decide
  have hversion' : (cstr (s.load files).version).length ≤ 31 :=
    (List.takeWhile_prefix _).length_le.trans (length_btVersionString_le files.version hversion)
  have hhead : (summaryHead (s.load files) (btUptimeNowSec files) nodeId).length ≤ 434 := by
    have ht0' := (ClockSeconds.print_of_shown ht0).2
    have hnow' := (ClockSeconds.print_of_shown hnow).2
    simp only [summaryHead, List.length_append]
    omega
  have hsince : (sinceTexts (s.load files)).flatten.length ≤ 430 :=
    length_markTexts_le (fun m ↦ (short_sinceStart ht0 (hmarks m)).2) _ _
  have huptimes : (uptimeTexts (s.load files)).flatten.length ≤ 430 :=
    length_markTexts_le (fun m ↦ (ClockSeconds.print_of_shown (hmarks m)).2) _ _
  have hdoc := compact_bootValue (s.load files) (btUptimeNowSec files) nodeId
  have hnul := nul_not_mem_summaryTexts 2016 (s.load files) (btUptimeNowSec files) nodeId
  have heq := btFormatSummary_eq files s nodeId (by decide : 64 ≤ (2048#32).toNat)
  rw [hlimit, Option.bind_some] at heq
  generalize summaryHead (s.load files) (btUptimeNowSec files) nodeId = head at hdoc hnul heq hhead
  generalize sinceTexts (s.load files) = since at hdoc hnul heq hsince
  generalize uptimeTexts (s.load files) = uptimes at hdoc hnul heq huptimes
  have htexts : summaryTexts 2016 head since uptimes =
      head :: since ++ summarySeparator :: uptimes ++ [lit "\x7d\x7d"] := by
    rw [summaryTexts, below_of_lt (by omega), below_of_lt (by omega)]
  have hflatten : (summaryTexts 2016 head since uptimes).flatten =
      head ++ since.flatten ++ summarySeparator ++ uptimes.flatten ++ lit "\x7d\x7d" := by
    rw [htexts]
    simp
  have hlength : (summaryTexts 2016 head since uptimes).flatten.length < 2048 := by
    rw [hflatten]
    simp only [List.length_append]
    omega
  obtain ⟨p, hp, hholds, -⟩ := (Appended.holds_start (2048#32).toNat).appendAll hnul
    (by rwa [Appended.start, Nat.zero_add])
    (by
      rw [Appended.start, Nat.zero_add, intMax]
      omega)
  rw [List.nil_append, hflatten, hdoc] at hholds
  refine ⟨p, heq.trans hp, ?_, hholds.holds⟩
  rw [hholds.n_eq, bootValue, compact]
  exact Nat.succ_ne_zero _

/-! ### The times that are told -/

/-- A clock that runs, and the time that the launcher wrote. -/
structure BootFiles.Timed (files : BootFiles D) : Prop where
  uptime : ClockSeconds.Shown (btUptimeNowSec files)
  positive : Seconds.positive (btUptimeNowSec files) = true
  bootT0 : ClockSeconds.Shown (files.bootT0.getD Seconds.zero)

/-- What an event reads. -/
def BootEvent.files : BootEvent D → Option (BootFiles D)
  | .mark _ files => some files
  | .call => none
  | .publish files _ _ _ => some files

/-- The files of an event can be read, and a node id has its array of 256 bytes. -/
def BootEvent.Timed (e : BootEvent D) : Prop :=
  (∀ files ∈ e.files, files.Timed) ∧
    ∀ files json client nodeId, e = .publish files json client nodeId →
      (cstr (nodeId.getD [])).length ≤ 255

/-- The time at which an event marks a milestone. -/
def BootEvent.marks (m : Milestone) : BootEvent D → Option D
  | .mark m' files => if m' = m then some (btUptimeNowSec files) else none
  | _ => none

/-- When each milestone was marked first; zero for one that was not. -/
def firstMark (es : List (BootEvent D)) (m : Milestone) : D :=
  (es.findSome? (BootEvent.marks m)).getD Seconds.zero

/-- What was read first as the start of the launcher. -/
def launchedAt (es : List (BootEvent D)) : Option D :=
  es.findSome? fun e ↦ e.files.map fun files ↦ files.bootT0.getD Seconds.zero

/-- The start of the launcher as a summary has it that reads those files after those events. -/
def launchTime (es : List (BootEvent D)) (files : BootFiles D) : D :=
  let t0 := (launchedAt es).getD (files.bootT0.getD Seconds.zero)
  if Seconds.positive t0 then t0 else Seconds.zero

/-- The document of a boot after those events. -/
def bootDocument (es : List (BootEvent D)) (files : BootFiles D) (nodeId : Bytes) : Value :=
  bootValue (cstr nodeId) (cstr (btVersionString files.version [])) (launchTime es files)
    (btUptimeNowSec files) (firstMark es)

/-- A message is that of a call after which these events came. -/
def Tells (es : List (BootEvent D)) (message : BootMessage) : Prop :=
  ∃ before files json nodeId after, es = before ++ .publish files json true (some nodeId) :: after ∧
    message = ⟨bootTopic (cstr nodeId), compact (bootDocument before files nodeId)⟩

/-- An event that hands a message to the client. -/
def BootEvent.sends : BootEvent D → Bool
  | .publish _ _ client nodeId => client && cstr (nodeId.getD []) != []
  | _ => false

/-! ### What the state knows -/

section Times

variable {es : List (BootEvent D)}

private theorem shown_of_marks (hes : ∀ e ∈ es, e.Timed) {m : Milestone} {d : D}
    (h : es.findSome? (BootEvent.marks m) = some d) :
    ClockSeconds.Shown d ∧ Seconds.positive d = true := by
  obtain ⟨e, he, hd⟩ := List.exists_of_findSome?_eq_some h
  cases e with
  | mark m' files =>
    have htimed := (hes _ he).1 files rfl
    rw [BootEvent.marks] at hd
    split at hd
    · cases hd
      exact ⟨htimed.uptime, htimed.positive⟩
    · cases hd
  | call => cases hd
  | publish files json client nodeId => cases hd

private theorem shown_firstMark (hes : ∀ e ∈ es, e.Timed) (m : Milestone) :
    ClockSeconds.Shown (firstMark es m) := by
  rw [firstMark]
  cases h : es.findSome? (BootEvent.marks m) with
  | none => exact ClockSeconds.shown_zero
  | some d => exact (shown_of_marks hes h).1

private theorem shown_launchedAt (hes : ∀ e ∈ es, e.Timed) {d : D} (h : launchedAt es = some d) :
    ClockSeconds.Shown d := by
  obtain ⟨e, he, hd⟩ := List.exists_of_findSome?_eq_some h
  obtain ⟨files, hfiles, rfl⟩ := Option.map_eq_some_iff.mp hd
  exact ((hes e he).1 files hfiles).bootT0

private theorem isZero_zero : Seconds.isZero (Seconds.zero : D) = true := by
  rw [Seconds.isZero, ClockSeconds.nonneg_of_shown ClockSeconds.shown_zero,
    ClockSeconds.positive_zero]
  rfl

/-- A milestone is marked with the time that is read, unless it was before. -/
private theorem firstMark_concat (hes : ∀ e ∈ es, e.Timed) (m : Milestone) (files : BootFiles D) :
    firstMark (es ++ [.mark m files]) =
      if Seconds.isZero (firstMark es m) then
        Function.update (firstMark es) m (btUptimeNowSec files)
      else firstMark es := by
  funext m'
  have happend : firstMark (es ++ [.mark m files]) m' =
      ((es.findSome? (BootEvent.marks m')).or
        (if m = m' then some (btUptimeNowSec files) else none)).getD Seconds.zero := by
    rw [firstMark, List.findSome?_append, List.findSome?_singleton]
    rfl
  rw [happend]
  by_cases hm : m = m'
  · subst hm
    rw [if_pos rfl]
    cases h : es.findSome? (BootEvent.marks m) with
    | none => simp [firstMark, h, isZero_zero]
    | some d => simp [firstMark, h, Seconds.isZero, (shown_of_marks hes h).2]
  · rw [if_neg hm, Option.or_none]
    split
    · rw [Function.update_of_ne (Ne.symm hm)]
      rfl
    · rfl

/-- Other events mark nothing. -/
private theorem firstMark_of_marks {e : BootEvent D} (h : ∀ m, e.marks m = none) :
    firstMark (es ++ [e]) = firstMark es := by
  funext m
  rw [firstMark, List.findSome?_append, List.findSome?_singleton, h, Option.or_none]
  rfl

/-- The start of the launcher is known from the first event that reads it. -/
private theorem launchedAt_concat (es : List (BootEvent D)) (e : BootEvent D) :
    launchedAt (es ++ [e]) =
      (launchedAt es).or (e.files.map fun files ↦ files.bootT0.getD Seconds.zero) := by
  rw [launchedAt, List.findSome?_append, List.findSome?_singleton]
  rfl

/-- So it is not read again. -/
private theorem getD_launchedAt (hes : ∀ e ∈ es, e.Timed) (files : BootFiles D) :
    (if Seconds.nonneg ((launchedAt es).getD Seconds.minusOne) then
      (launchedAt es).getD Seconds.minusOne else files.bootT0.getD Seconds.zero) =
      (launchedAt es).getD (files.bootT0.getD Seconds.zero) := by
  cases h : launchedAt es with
  | none => rw [Option.getD_none, ClockSeconds.nonneg_minusOne, if_neg Bool.false_ne_true]; rfl
  | some d =>
    rw [Option.getD_some, if_pos (ClockSeconds.nonneg_of_shown (shown_launchedAt hes h))]
    rfl

private theorem shown_launchTime (hes : ∀ e ∈ es, e.Timed) {files : BootFiles D}
    (hfiles : files.Timed) : ClockSeconds.Shown (launchTime es files) := by
  rw [launchTime]
  split
  · cases h : launchedAt es with
    | none => exact hfiles.bootT0
    | some d => exact shown_launchedAt hes h
  · exact ClockSeconds.shown_zero

end Times

/-- What the state has to do with the events so far. Until the summary is printed the version has
not been read. -/
structure BootState.Knows (es : List (BootEvent D)) (w : BootState D) : Prop where
  timed : ∀ e ∈ es, e.Timed
  marks : w.timing.marks = firstMark es
  ambicamT0 : w.timing.ambicamT0 = (launchedAt es).getD Seconds.minusOne
  rendering : w.rendering = true → w.published = true
  quiet : w.rendering = true ∨ w.published = false →
    w.timing.version = [] ∧ w.messages = [] ∧ ∀ e ∈ es, e.sends = false
  once : w.messages.length ≤ 1
  tells : ∀ message ∈ w.messages, Tells es message
  sent : ∀ e ∈ es, e.sends = true → w.messages ≠ []

private theorem knows_start : (BootState.start : BootState D).Knows [] where
  timed := nofun
  marks := rfl
  ambicamT0 := rfl
  rendering := nofun
  quiet := fun _ ↦ ⟨rfl, rfl, nofun⟩
  once := Nat.zero_le _
  tells := nofun
  sent := nofun

private theorem Tells.concat {es : List (BootEvent D)} {message : BootMessage}
    (h : Tells es message) (e : BootEvent D) : Tells (es ++ [e]) message := by
  obtain ⟨before, files, json, nodeId, after, rfl, hmessage⟩ := h
  exact ⟨before, files, json, nodeId, after ++ [e], by simp, hmessage⟩

private theorem forall_mem_concat {α : Type} {xs : List α} {x : α} {P : α → Prop}
    (h : ∀ y ∈ xs, P y) (hx : P x) : ∀ y ∈ xs ++ [x], P y :=
  List.forall_mem_append.mpr ⟨h, List.forall_mem_singleton.mpr hx⟩

/-- A milestone is marked. -/
private theorem BootState.Knows.mark {es : List (BootEvent D)} {w : BootState D} (h : w.Knows es)
    {m : Milestone} {files : BootFiles D} (he : (BootEvent.mark m files).Timed) :
    Knows (es ++ [.mark m files]) { w with timing := btMark files w.timing m } where
  timed := forall_mem_concat h.timed he
  marks := by rw [firstMark_concat h.timed, ← h.marks, btMark_marks]
  ambicamT0 := by
    rw [launchedAt_concat, btMark_ambicamT0, BootTiming.loadAmbicamT0, h.ambicamT0]
    simp only
    rw [getD_launchedAt h.timed]
    cases launchedAt es <;> rfl
  rendering := h.rendering
  quiet hq := by
    obtain ⟨hversion, hmessages, hsends⟩ := h.quiet hq
    exact ⟨(btMark_version files w.timing m).trans hversion, hmessages,
      forall_mem_concat hsends rfl⟩
  once := h.once
  tells message hm := (h.tells message hm).concat _
  sent := forall_mem_concat h.sent nofun

/-- `bt_publish_summary` is called. -/
private theorem BootState.Knows.call {es : List (BootEvent D)} {w : BootState D} (h : w.Knows es)
    (he : (BootEvent.call : BootEvent D).Timed) :
    Knows (es ++ [.call])
      (if w.published then w else { w with published := true, rendering := true }) := by
  have hmarks : firstMark (es ++ [.call]) = firstMark es := firstMark_of_marks fun _ ↦ rfl
  have hlaunched : launchedAt (es ++ [.call]) = launchedAt es := by
    rw [launchedAt_concat]
    exact Option.or_none
  have hkeep : w.Knows (es ++ [.call]) :=
    ⟨forall_mem_concat h.timed he, h.marks.trans hmarks.symm, by rw [hlaunched, h.ambicamT0],
      h.rendering, fun hq ↦ ⟨(h.quiet hq).1, (h.quiet hq).2.1,
        forall_mem_concat (h.quiet hq).2.2 rfl⟩, h.once,
      fun message hm ↦ (h.tells message hm).concat _, forall_mem_concat h.sent nofun⟩
  cases hpublished : w.published with
  | true => exact hkeep
  | false =>
    have hquiet := hkeep.quiet (.inr hpublished)
    exact { hkeep with rendering := fun _ ↦ rfl, quiet := fun _ ↦ hquiet }

/-- A summary is printed and handed on. -/
private theorem BootState.Knows.publish {es : List (BootEvent D)} {w w' : BootState D}
    (h : w.Knows es) {files : BootFiles D} {json : Nat → UInt8} {client : Bool}
    {nodeId : Option Bytes} (he : (BootEvent.publish files json client nodeId).Timed)
    (hstep : w.step (.publish files json client nodeId) = some w') :
    w'.Knows (es ++ [.publish files json client nodeId]) := by
  rw [BootState.step] at hstep
  split at hstep
  · next hrendering =>
    obtain ⟨hversion, hmessages, hsends⟩ := h.quiet (.inl hrendering)
    have hfiles := he.1 files rfl
    have htime : (w.timing.load files).t0 = launchTime es files := by
      rw [launchTime, ← getD_launchedAt h.timed files, ← h.ambicamT0]
      rfl
    obtain ⟨p, hp, hn, hcells⟩ := exists_rendered files nodeId (by rw [hversion]; decide)
      (he.2 files json client nodeId rfl) (htime ▸ shown_launchTime h.timed hfiles) hfiles.uptime
      (fun m ↦ h.marks ▸ shown_firstMark h.timed m)
    have hdoc : bootValue (cstr (nodeId.getD [])) (cstr (w.timing.load files).version)
        (w.timing.load files).t0 (btUptimeNowSec files) w.timing.marks =
          bootDocument es files (nodeId.getD []) := by
      rw [htime, h.marks, bootDocument, BootTiming.load, hversion]
    have hresult : btFormatSummary files w.timing true 2048#32 nodeId =
        (some p, w.timing.load files) := Prod.ext hp rfl
    have hmarks : w.timing.marks = firstMark (es ++ [.publish files json client nodeId]) :=
      h.marks.trans (firstMark_of_marks fun _ ↦ rfl).symm
    have hlaunched : (w.timing.load files).ambicamT0 =
        (launchedAt (es ++ [.publish files json client nodeId])).getD Seconds.minusOne := by
      rw [BootTiming.load, h.ambicamT0, launchedAt_concat]
      simp only
      rw [getD_launchedAt h.timed]
      cases launchedAt es <;> rfl
    have hpayload := (hcells json).trans (congrArg compact hdoc)
    have hn' : (p.n != 0) = true := bne_iff_ne.mpr hn
    rw [hresult] at hstep
    simp only [Option.map_some, Option.some.injEq, hpayload, hn', Bool.and_true, hmessages,
      List.nil_append] at hstep
    subst hstep
    refine ⟨forall_mem_concat h.timed he, hmarks, hlaunched, nofun, fun hq ↦ ?_, ?_, ?_, ?_⟩
    · have hpublished := h.rendering hrendering
      rcases hq with hq | hq
      · cases hq
      · exact absurd (hpublished.symm.trans hq) (by decide)
    · dsimp only
      split
      · exact Nat.le_refl _
      · exact Nat.zero_le _
    · intro message hmem
      dsimp only at hmem
      split at hmem
      · next hsends' =>
        obtain ⟨hclient, hid⟩ := Bool.and_eq_true_iff.mp hsends'
        cases nodeId with
        | none => cases hid
        | some id =>
          refine ⟨es, files, json, id, [], ?_, List.mem_singleton.mp hmem⟩
          rw [hclient]
      · cases hmem
    · refine forall_mem_concat (fun e he hsent ↦ ?_) fun hsent ↦ ?_
      · rw [hsends e he] at hsent
        cases hsent
      · rw [BootEvent.sends] at hsent
        dsimp only
        rw [if_pos hsent]
        exact List.cons_ne_nil _ _
  · cases hstep

/-- Over any calls of the threads one message is published at most, and one is when the call that goes
on, which is the first, comes to its end with a client and a node id. It is a document with the first
time of each milestone that was marked before, unless the node id or the version needs an escape. -/
theorem message_of_boot {es : List (BootEvent D)} {w : BootState D}
    (hr : run BootState.step .start es = some w) (htimed : ∀ e ∈ es, e.Timed) :
    w.messages.length ≤ 1 ∧ (∀ e ∈ es, e.sends = true → w.messages ≠ []) ∧
      ∀ message ∈ w.messages, ∃ before files json nodeId after,
        es = before ++ .publish files json true (some nodeId) :: after ∧
          message.topic = bootTopic (cstr nodeId) ∧
          (IsPlainText (cstr nodeId) → IsPlainText (cstr (btVersionString files.version [])) →
            Json.parse message.payload = some (bootDocument before files nodeId)) := by
  have hknows : w.Knows es := by
    refine history_run BootState.step (fun es s e t he hs hstep ↦ ?_) htimed knows_start hr
    cases e with
    | mark m files =>
      cases hstep
      exact hs.mark he
    | call =>
      cases hstep
      exact hs.call he
    | publish files json client nodeId => exact hs.publish he hstep
  refine ⟨hknows.once, hknows.sent, fun message hmem ↦ ?_⟩
  obtain ⟨before, files, json, nodeId, after, hes, rfl⟩ := hknows.tells message hmem
  refine ⟨before, files, json, nodeId, after, hes, rfl, fun hid hversion ↦ ?_⟩
  have hbefore : ∀ e ∈ before, e.Timed := fun e he ↦ htimed e (by simp [hes, he])
  have hfiles : files.Timed := (htimed (.publish files json true (some nodeId))
    (by simp [hes])).1 files rfl
  exact Json.parse_compact (unescaped_bootValue hid hversion (shown_launchTime hbefore hfiles)
    hfiles.uptime (shown_firstMark hbefore))

/-! ### Two milestones -/

/-- What a clock shows in a boot of 42 seconds. -/
def shownTimes : List Millis := [⟨0⟩, ⟨4120⟩, ⟨9480⟩, ⟨12770⟩, ⟨41730⟩]

instance : ClockSeconds Millis where
  Shown t := t ∈ shownTimes
  shown_zero := by decide
  nonneg_of_shown {d} h := by
    revert d
    decide
  positive_zero := by decide
  nonneg_minusOne := by decide
  print_minusOne := by decide +kernel
  print_of_shown {d} h := by
    revert d
    decide +kernel
  print_sub {d d'} h h' := by
    have hall : ∀ d ∈ shownTimes, ∀ d' ∈ shownTimes,
        IsShortNumber (Seconds.print (Seconds.sub d d')) := by decide +kernel
    exact hall d h d' h'

/-- What is read at a time. -/
def filesAt (uptime : Millis) : BootFiles Millis := ⟨some uptime, some ⟨4120⟩, some (lit "2.0.7\n")⟩

/-- A milestone is marked twice, another one once, and the summary is asked for twice. -/
def twoMilestones : List (BootEvent Millis) :=
  [.mark .ap2pMain (filesAt ⟨9480⟩), .mark .ap2pMain (filesAt ⟨12770⟩),
    .mark .ctrlRegistered (filesAt ⟨41730⟩), .call, .call,
    .publish (filesAt ⟨41730⟩) (fun _ ↦ 0xFF) true (some (lit "cam001"))]

private theorem timed_filesAt {t : Millis} (h : t ∈ shownTimes) (hpos : 0 < t.count) :
    (filesAt t).Timed :=
  ⟨h, decide_eq_true hpos, (by decide : (⟨4120⟩ : Millis) ∈ shownTimes)⟩

private theorem timed_mark (m : Milestone) {t : Millis} (h : t ∈ shownTimes) (hpos : 0 < t.count) :
    (BootEvent.mark m (filesAt t)).Timed :=
  ⟨fun files hfiles ↦ by cases hfiles; exact timed_filesAt h hpos, nofun⟩

private theorem timed_twoMilestones : ∀ e ∈ twoMilestones, e.Timed := by
  simp only [twoMilestones, List.forall_mem_cons]
  refine ⟨timed_mark _ (by decide) (by decide), timed_mark _ (by decide) (by decide),
    timed_mark _ (by decide) (by decide), ⟨nofun, nofun⟩, ⟨nofun, nofun⟩, ⟨?_, ?_⟩, nofun⟩
  · intro files hfiles
    cases hfiles
    exact timed_filesAt (by decide) (by decide)
  · intro files json client nodeId h
    cases h
    decide

theorem message_of_boot_twoMilestones :
    ∃ w : BootState Millis, run BootState.step .start twoMilestones = some w ∧
      w.messages.length ≤ 1 ∧ (∀ e ∈ twoMilestones, e.sends = true → w.messages ≠ []) ∧
      ∀ message ∈ w.messages, ∃ before files json nodeId after,
        twoMilestones = before ++ .publish files json true (some nodeId) :: after ∧
          message.topic = bootTopic (cstr nodeId) ∧
          (IsPlainText (cstr nodeId) → IsPlainText (cstr (btVersionString files.version [])) →
            Json.parse message.payload = some (bootDocument before files nodeId)) := by
  have hrun : (run BootState.step .start twoMilestones).any
      (fun w ↦ decide (w.messages.length = 1)) = true := by
    decide +kernel
  obtain ⟨w, hw, -⟩ := exists_run BootState.step (fun w ↦ w.messages.length = 1) hrun
  exact ⟨w, hw, message_of_boot hw timed_twoMilestones⟩

end Kitty.Ap2p
