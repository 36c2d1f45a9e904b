import Kitty.Ap2p.PayloadLines
import Kitty.Base.Find
import Kitty.Base.Retained

/-!
# The retained configuration moves to case 90

The flash tool moves the configuration that the broker retains for a camera from its case 81 to its
case 90, where version 2 looks for it: it reads both, publishes the one of case 81 again when case
90 has none, clears case 81, and only then looks whether case 90 has one;
`tools/flash-kitty.py:675–740`.
-/

namespace Kitty.Migration

open Kitty.Base
open Kitty.Ap2p
open Kitty.Signal (isSpace)
open Script

/-- The topic of a case of a camera. -/
def rxTopic (sn : Bytes) (case : Nat) : Bytes :=
  lit "torque/rx/" ++ sn ++ lit "/" ++ stdToString case

/-- How the five commands end, in the order in which they are called. -/
structure Commands where
  legacy : Receipt
  current90 : Receipt
  republish : Publication
  clear : Publication
  final : Receipt

/-- `bytes.strip()` leaves something. -/
def HasText (stdout : Bytes) : Prop := trimBy isSpace stdout ≠ []

instance (stdout : Bytes) : Decidable (HasText stdout) :=
  inferInstanceAs (Decidable (_ ≠ _))

/-- `b"NODE_ID" in stdout`. -/
def NamesNode (stdout : Bytes) : Prop := (find (lit "NODE_ID") stdout).isSome

instance (stdout : Bytes) : Decidable (NamesNode stdout) :=
  inferInstanceAs (Decidable (_ = true))

/-- `mqtt_migrate_81_to_90`, less what it prints. -/
def mqttMigrate81To90 (sn : Bytes) (commands : Commands) : Script Bytes Bool := do
  let legacyBytes ← subscribe (rxTopic sn 81) commands.legacy
  let current90 ← subscribe (rxTopic sn 90) commands.current90
  if ¬ HasText current90 ∧ HasText legacyBytes ∧ NamesNode legacyBytes then
    -- a failure is only warned of
    let _ ← publish (rxTopic sn 90) legacyBytes commands.republish
  let _ ← publish (rxTopic sn 81) [] commands.clear
  let final ← subscribe (rxTopic sn 90) commands.final
  return HasText final ∧ NamesNode final

/-- The topics of two cases differ. -/
theorem rxTopic_ne (sn : Bytes) : rxTopic sn 90 ≠ rxTopic sn 81 := fun h ↦
  absurd (List.append_cancel_left h) (by decide)

/-! ### How the migration ends -/

section Ends

variable {sn : Bytes} {commands : Commands} {broker : Broker Bytes}
  {post : Except TimeoutExpired Bool → Broker Bytes → Prop}

/-- What is read of case 81. -/
def snapshot (sn : Bytes) (commands : Commands) (broker : Broker Bytes) : Bytes :=
  commands.legacy.stdout (broker (rxTopic sn 81))

/-- What was read of case 81 is published again. -/
def Republishes (sn : Bytes) (commands : Commands) (broker : Broker Bytes) : Prop :=
  commands.current90 ≠ .timedOut ∧
    ¬ HasText (commands.current90.stdout (broker (rxTopic sn 90))) ∧
    HasText (snapshot sn commands broker) ∧ NamesNode (snapshot sn commands broker)

instance (sn : Bytes) (commands : Commands) (broker : Broker Bytes) :
    Decidable (Republishes sn commands broker) :=
  inferInstanceAs (Decidable (_ ∧ _))

/-- The broker when case 81 is about to be cleared. -/
def beforeClear (sn : Bytes) (commands : Commands) (broker : Broker Bytes) : Broker Bytes :=
  if Republishes sn commands broker then
    commands.republish.after (rxTopic sn 90) (snapshot sn commands broker) broker
  else broker

/-- The migration is stopped before it clears case 81. -/
def StopsEarly (sn : Bytes) (commands : Commands) (broker : Broker Bytes) : Prop :=
  commands.legacy = .timedOut ∨ commands.current90 = .timedOut ∨
    Republishes sn commands broker ∧ commands.republish.late = true

instance (sn : Bytes) (commands : Commands) (broker : Broker Bytes) :
    Decidable (StopsEarly sn commands broker) :=
  inferInstanceAs (Decidable (_ ∨ _))

/-- What is left once case 81 is cleared, and case 90 is looked at. -/
def Clears (post : Except TimeoutExpired Bool → Broker Bytes → Prop) (sn : Bytes)
    (commands : Commands) (broker : Broker Bytes) : Prop :=
  let cleared := commands.clear.after (rxTopic sn 81) [] broker
  let final := commands.final.stdout (cleared (rxTopic sn 90))
  if commands.clear.late ∨ commands.final = .timedOut then post (.error .expired) cleared
  else post (.ok (HasText final ∧ NamesNode final)) cleared

private theorem ends_clear :
    (do
      let _ ← publish (rxTopic sn 81) [] commands.clear
      let final ← subscribe (rxTopic sn 90) commands.final
      return HasText final ∧ NamesNode final : Script Bytes Bool).Ends post broker ↔
      Clears post sn commands broker := by
  rw [ends_publish, ends_subscribe, ends_pure, Clears]
  by_cases hlate : commands.clear.late = true
  · rw [if_pos hlate, if_pos (Or.inl hlate)]
  · by_cases hfinal : commands.final = .timedOut
    · rw [if_neg hlate, if_pos hfinal, if_pos (Or.inr hfinal)]
    · rw [if_neg hlate, if_neg hfinal, if_neg (not_or.mpr ⟨hlate, hfinal⟩)]

/-- Nothing is published again when case 81 is not read in time. -/
theorem not_republishes_of_timedOut (h : commands.legacy = .timedOut) :
    ¬ Republishes sn commands broker := by
  rintro ⟨-, -, htext, -⟩
  rw [snapshot, h] at htext
  exact htext rfl

/-- The migration is stopped before the clear, or goes on with it. -/
theorem ends_migrate :
    (mqttMigrate81To90 sn commands).Ends post broker ↔
      if StopsEarly sn commands broker then
        post (.error .expired) (beforeClear sn commands broker)
      else Clears post sn commands (beforeClear sn commands broker) := by
  have hread : commands.legacy.stdout (broker (rxTopic sn 81)) = snapshot sn commands broker := rfl
  unfold mqttMigrate81To90
  rw [ends_subscribe, hread]
  by_cases hlegacy : commands.legacy = .timedOut
  · have hstops : StopsEarly sn commands broker := Or.inl hlegacy
    rw [if_pos hlegacy, if_pos hstops, beforeClear,
      if_neg (not_republishes_of_timedOut hlegacy)]
  rw [if_neg hlegacy, ends_subscribe]
  by_cases hcurrent : commands.current90 = .timedOut
  · have hstops : StopsEarly sn commands broker := Or.inr (Or.inl hcurrent)
    have hnot : ¬ Republishes sn commands broker := fun hrep ↦ hrep.1 hcurrent
    rw [if_pos hcurrent, if_pos hstops, beforeClear, if_neg hnot]
  rw [if_neg hcurrent, ends_ite, ends_clear]
  have hstops : StopsEarly sn commands broker ↔
      Republishes sn commands broker ∧ commands.republish.late = true := by
    rw [StopsEarly, or_iff_right hlegacy, or_iff_right hcurrent]
  by_cases hrep : Republishes sn commands broker
  · rw [if_pos hrep.2, ends_publish, ends_clear, beforeClear, if_pos hrep]
    by_cases hlate : commands.republish.late = true
    · rw [if_pos hlate, if_pos (hstops.mpr ⟨hrep, hlate⟩)]
    · rw [if_neg hlate, if_neg fun h ↦ hlate (hstops.mp h).2]
  · rw [if_neg fun h ↦ hrep ⟨hcurrent, h⟩, beforeClear, if_neg hrep,
      if_neg fun h ↦ hrep (hstops.mp h).1]

/-- The broker that the migration leaves. -/
theorem exec_migrate :
    ((mqttMigrate81To90 sn commands).exec broker).2 =
      if StopsEarly sn commands broker then beforeClear sn commands broker
      else commands.clear.after (rxTopic sn 81) [] (beforeClear sn commands broker) := by
  change (mqttMigrate81To90 sn commands).Ends (fun _ b ↦ b = _) broker
  rw [ends_migrate]
  by_cases hstops : StopsEarly sn commands broker
  · rw [if_pos hstops, if_pos hstops]
  · rw [if_neg hstops, if_neg hstops, Clears]
    split <;> rfl

/-- The migration changes no topic but the two of the camera. -/
theorem exec_migrate_of_ne {topic : Bytes} (h81 : topic ≠ rxTopic sn 81)
    (h90 : topic ≠ rxTopic sn 90) :
    ((mqttMigrate81To90 sn commands).exec broker).2 topic = broker topic := by
  have hbefore : beforeClear sn commands broker topic = broker topic := by
    unfold beforeClear
    split
    · exact Publication.after_of_ne h90
    · rfl
  rw [exec_migrate]
  split
  · exact hbefore
  · rw [Publication.after_of_ne h81, hbefore]

/-- Case 90 is not touched by the clear. -/
theorem exec_migrate_case90 :
    ((mqttMigrate81To90 sn commands).exec broker).2 (rxTopic sn 90) =
      beforeClear sn commands broker (rxTopic sn 90) := by
  rw [exec_migrate]
  split
  · rfl
  · exact Publication.after_of_ne (rxTopic_ne sn)

/-- Case 81 is left as it is, or cleared. -/
theorem exec_migrate_case81 :
    ((mqttMigrate81To90 sn commands).exec broker).2 (rxTopic sn 81) =
      if StopsEarly sn commands broker ∨ commands.clear.taken = false then
        broker (rxTopic sn 81)
      else [] := by
  have hbefore : beforeClear sn commands broker (rxTopic sn 81) = broker (rxTopic sn 81) := by
    unfold beforeClear
    split
    · exact Publication.after_of_ne (rxTopic_ne sn).symm
    · rfl
  rw [exec_migrate]
  by_cases hstops : StopsEarly sn commands broker
  · rw [if_pos hstops, if_pos (Or.inl hstops), hbefore]
  · rw [if_neg hstops, Publication.after_self, hbefore]
    simp only [hstops, false_or]
    cases commands.clear.taken <;> rfl

/-- A migration that reports success has read a configuration from case 90. -/
theorem case90_of_migrated (hfinal : commands.final = .answered)
    (h : ((mqttMigrate81To90 sn commands).exec broker).1 = .ok true) :
    ((mqttMigrate81To90 sn commands).exec broker).2 (rxTopic sn 90) ≠ [] := by
  revert h
  change (mqttMigrate81To90 sn commands).Ends (fun r b ↦ r = .ok true → b (rxTopic sn 90) ≠ []) _
  rw [ends_migrate]
  split
  · exact fun h ↦ nomatch h
  · unfold Clears
    dsimp only
    split
    · exact fun h ↦ nomatch h
    · intro h hnil
      have hstdout : commands.final.stdout (commands.clear.after (rxTopic sn 81) []
          (beforeClear sn commands broker) (rxTopic sn 90)) = [] := by
        rw [hnil, hfinal]
        rfl
      have htrue := of_decide_eq_true (Except.ok.inj h)
      rw [hstdout] at htrue
      exact htrue.1 rfl

end Ends

/-! ### What survives -/

/-- The message is the payload, perhaps with the newline that is printed after it. -/
def Retains (payload message : Bytes) : Prop := message = payload ∨ message = payload ++ [LF]

instance (payload message : Bytes) : Decidable (Retains payload message) :=
  inferInstanceAs (Decidable (_ ∨ _))

/-- The camera makes the same of it. -/
theorem applyAp2pConfPayload_retains {payload message : Bytes} (h : Retains payload message)
    (hne : payload ≠ []) (state : Ap2pState) :
    applyAp2pConfPayload state message = applyAp2pConfPayload state payload := by
  rcases h with rfl | rfl
  · rfl
  · have hconfig : configAfter state (payload ++ [LF]) = configAfter state payload := by
      have hwrites := @payloadWrites_append LF rfl payload []
      rw [configAfter, hwrites, show payloadWrites [] = [] from rfl, List.append_nil, configAfter]
    rw [applyAp2pConfPayload_eq _ _ hne, applyAp2pConfPayload_eq _ _ (by simp), hconfig]

/-- The payload is retained on case 90, or still on case 81. -/
def Survives (sn payload : Bytes) (broker : Broker Bytes) : Prop :=
  Retains payload (broker (rxTopic sn 90)) ∨ broker (rxTopic sn 81) = payload

instance (sn payload : Bytes) (broker : Broker Bytes) : Decidable (Survives sn payload broker) :=
  inferInstanceAs (Decidable (_ ∨ _))

/-- The migration does not come to the clear, or the clear has no effect; or what was read of
case 81 is what is retained there and it is taken for case 90; or nothing is taken for case 90,
where the same payload is retained already. -/
def MovesSafely (sn : Bytes) (commands : Commands) (broker : Broker Bytes) : Prop :=
  StopsEarly sn commands broker ∨ commands.clear.taken = false ∨
    if Republishes sn commands broker ∧ commands.republish.taken = true then
      Retains (broker (rxTopic sn 81)) (snapshot sn commands broker)
    else Retains (broker (rxTopic sn 81)) (broker (rxTopic sn 90))

instance (sn : Bytes) (commands : Commands) (broker : Broker Bytes) :
    Decidable (MovesSafely sn commands broker) :=
  inferInstanceAs (Decidable (_ ∨ _ ∨ _))

/-- What case 90 has when case 81 is about to be cleared. -/
theorem beforeClear_case90 (sn : Bytes) (commands : Commands) (broker : Broker Bytes) :
    beforeClear sn commands broker (rxTopic sn 90) =
      if Republishes sn commands broker ∧ commands.republish.taken = true then
        snapshot sn commands broker
      else broker (rxTopic sn 90) := by
  unfold beforeClear
  by_cases hrep : Republishes sn commands broker
  · rw [if_pos hrep, Publication.after_self]
    simp only [hrep, true_and]
  · rw [if_neg hrep, if_neg fun h ↦ hrep h.1]

/-- A migration keeps the payload exactly when it moves it safely. -/
theorem survives_iff {sn : Bytes} {commands : Commands} {broker : Broker Bytes}
    (h : broker (rxTopic sn 81) ≠ []) :
    Survives sn (broker (rxTopic sn 81)) ((mqttMigrate81To90 sn commands).exec broker).2 ↔
      MovesSafely sn commands broker := by
  unfold Survives MovesSafely
  rw [exec_migrate_case90, exec_migrate_case81, ← or_assoc (a := StopsEarly sn commands broker)]
  by_cases hkept : StopsEarly sn commands broker ∨ commands.clear.taken = false
  · simp only [hkept, if_true, true_or, or_true]
  · have hcleared : ¬ ([] : Bytes) = broker (rxTopic sn 81) := fun hnil ↦ h hnil.symm
    rw [if_neg hkept, or_iff_left hcleared, or_iff_right hkept, beforeClear_case90]
    split <;> rfl

/-- The broker retains one configuration for a camera, on case 81. -/
def legacyBroker (sn payload : Bytes) : Broker Bytes :=
  Function.update (fun _ ↦ []) (rxTopic sn 81) payload

/-- When every command succeeds, the configuration is moved. -/
theorem survives_moved :
    Survives (lit "ATPL-1") (lit "NODE_ID=ATPL-1\nCTRL_HOST=host\n")
      ((mqttMigrate81To90 (lit "ATPL-1")
        ⟨.answered, .answered, .acknowledged, .acknowledged, .answered⟩).exec
        (legacyBroker (lit "ATPL-1") (lit "NODE_ID=ATPL-1\nCTRL_HOST=host\n"))).2 :=
  (@survives_iff (lit "ATPL-1") ⟨.answered, .answered, .acknowledged, .acknowledged, .answered⟩
    (legacyBroker (lit "ATPL-1") (lit "NODE_ID=ATPL-1\nCTRL_HOST=host\n"))
    (by decide)).mpr (by decide)

/-- When the first command fails, case 81 is cleared as if it had been empty, and the
configuration is lost. -/
theorem survives_unread :
    ¬ ∀ (sn : Bytes) (commands : Commands) (broker : Broker Bytes), broker (rxTopic sn 81) ≠ [] →
      Survives sn (broker (rxTopic sn 81)) ((mqttMigrate81To90 sn commands).exec broker).2 := by
  intro h
  have hlost := h (lit "ATPL-1") ⟨.failed [], .answered, .acknowledged, .acknowledged, .answered⟩
    (legacyBroker (lit "ATPL-1") (lit "NODE_ID=ATPL-1\nCTRL_HOST=host\n")) (by decide)
  revert hlost
  decide

end Kitty.Migration
