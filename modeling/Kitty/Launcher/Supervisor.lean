import Kitty.Base.Run
import Mathlib.Algebra.Group.Nat.Defs

/-!
# The supervisor of the launcher

The three respawn blocks of `monitor_step` in `deploy/ambicam.sh:265–321`, which differ in the
service only. What `date`, `-x`, `pidof` and the `start_` functions come to is given for each round.
Beside the code's three variables for each service stands what it should amount to: a function of
the attempts that were made so far.
-/

namespace Kitty.Launcher

open Kitty.Base

/-- What the launcher looks after. -/
inductive Service where
  /-- `MQTT_vcamclient_Augentix` -/
  | mqtt
  /-- `P2Pambicam` -/
  | p2p
  /-- `provider_srt` -/
  | srt
  deriving DecidableEq, Repr

/-- Only the MQTT client is restarted without a look at its program. -/
def Service.optional : Service → Bool
  | .mqtt => false
  | .p2p | .srt => true

/-- `$BACKOFF_MIN` -/
def backoffMin : Nat := 2

/-- `$BACKOFF_MAX` -/
def backoffMax : Nat := 60

/-- `$MAX_CONSECUTIVE_FAILS` -/
def maxConsecutiveFails : Nat := 5

/-- The variables of a service: `_fails`, `_backoff` and `_next_try`. -/
structure Watch where
  fails : Nat
  backoff : Nat
  nextTry : Nat
  deriving DecidableEq, Repr

/-- The variables before the first round. -/
def Watch.init : Watch := ⟨0, backoffMin, 0⟩

/-- What a round finds out about a service: whether its program can be executed, whether it runs,
and whether a start, if one is made, succeeds. -/
structure Probe where
  executable : Bool
  running : Bool
  starts : Bool
  deriving DecidableEq, Repr

/-- The service is to be restarted. -/
def Probe.down (p : Probe) (name : Service) : Bool :=
  (!name.optional || p.executable) && !p.running

/-- An attempt to start a service. -/
structure Attempt where
  time : Nat
  ok : Bool
  deriving DecidableEq, Repr

/-- A respawn block: the variables after it, and the attempt it makes. -/
def Watch.respawn (w : Watch) (name : Service) (now : Nat) (p : Probe) : Watch × Option Attempt :=
  if p.down name ∧ w.nextTry ≤ now then
    if p.starts then ({ w with fails := 0, backoff := backoffMin }, some ⟨now, true⟩)
    else
      let backoff := if backoffMax < w.backoff * 2 then backoffMax else w.backoff * 2
      (⟨w.fails + 1, backoff, now + backoff⟩, some ⟨now, false⟩)
  else (w, none)

/-- The alarm of a respawn block, with its count: it is sent after a failed attempt. -/
def Watch.alarm (after : Watch) (attempt : Option Attempt) : Option Nat :=
  match attempt with
  | some ⟨_, false⟩ => if maxConsecutiveFails ≤ after.fails then some after.fails else none
  | _ => none

/-- The launcher, with the attempts and the alarms of each service so far. -/
structure Supervisor where
  watch : Service → Watch
  attempts : Service → List Attempt
  alarms : Service → List Nat

/-- The launcher when it enters its loop. -/
def Supervisor.init : Supervisor := ⟨fun _ ↦ .init, fun _ ↦ [], fun _ ↦ []⟩

/-- One round. -/
structure Round where
  now : Nat
  probe : Service → Probe

/-- A service's block in a round. -/
def Supervisor.block (s : Supervisor) (r : Round) (name : Service) : Watch × Option Attempt :=
  (s.watch name).respawn name r.now (r.probe name)

/-- `monitor_step`: the blocks of the three services, one after the other. -/
def Supervisor.monitorStep (s : Supervisor) (r : Round) : Supervisor where
  watch name := (s.block r name).1
  attempts name := s.attempts name ++ (s.block r name).2.toList
  alarms name := s.alarms name ++ ((s.block r name).1.alarm (s.block r name).2).toList

/-- The loop. -/
def Supervisor.monitor (rounds : List Round) : Supervisor :=
  rounds.foldl Supervisor.monitorStep .init

/-! ### What the variables amount to -/

/-- The failed attempts since the last that succeeded, the newest attempt first. -/
def failures : List Attempt → Nat
  | ⟨_, false⟩ :: earlier => failures earlier + 1
  | _ => 0

/-- The pause after so many failures. -/
def pause (n : Nat) : Nat := min backoffMax (2 ^ (n + 1))

/-- The end of the pause after the last failure, the newest attempt first. -/
def resumes : List Attempt → Nat
  | [] => 0
  | ⟨time, false⟩ :: earlier => time + pause (failures earlier + 1)
  | ⟨_, true⟩ :: earlier => resumes earlier

/-- The counts that alarms are sent with, the newest attempt first. -/
def alarmsOf : List Attempt → List Nat
  | [] => []
  | ⟨time, false⟩ :: earlier =>
    alarmsOf earlier ++
      if maxConsecutiveFails ≤ failures (⟨time, false⟩ :: earlier)
      then [failures (⟨time, false⟩ :: earlier)] else []
  | ⟨_, true⟩ :: earlier => alarmsOf earlier

/-- The variables after some attempts, the newest first. -/
def Watch.after (attempts : List Attempt) : Watch :=
  ⟨failures attempts, pause (failures attempts), resumes attempts⟩

/-- No attempt is made before the pause is over, the newest attempt first. -/
def Paced : List Attempt → Prop
  | [] => True
  | a :: earlier => resumes earlier ≤ a.time ∧ Paced earlier

theorem watch_monitorStep (s : Supervisor) (r : Round) (name : Service) :
    (s.monitorStep r).watch name = (s.block r name).1 :=
  rfl

theorem attempts_monitorStep (s : Supervisor) (r : Round) (name : Service) :
    (s.monitorStep r).attempts name = s.attempts name ++ (s.block r name).2.toList :=
  rfl

theorem alarms_monitorStep (s : Supervisor) (r : Round) (name : Service) :
    (s.monitorStep r).alarms name =
      s.alarms name ++ ((s.block r name).1.alarm (s.block r name).2).toList :=
  rfl

theorem pause_zero : pause 0 = backoffMin := by decide

/-- The pause doubles until it is at its bound. -/
theorem pause_succ (n : Nat) :
    pause (n + 1) = if backoffMax < pause n * 2 then backoffMax else pause n * 2 := by
  have hpow : 2 ^ (n + 1 + 1) = 2 ^ (n + 1) * 2 := Nat.pow_succ ..
  by_cases h : backoffMax < pause n * 2
  · rw [if_pos h]
    unfold pause backoffMax at *
    omega
  · rw [if_neg h]
    unfold pause backoffMax at *
    omega

theorem pause_le (n : Nat) : pause n ≤ backoffMax := Nat.min_le_left ..

/-- A block goes by the attempts that were made: it makes one where the service is down and the
pause is over. -/
theorem respawn_after (attempts : List Attempt) (name : Service) (now : Nat) (p : Probe) :
    (Watch.after attempts).respawn name now p =
      if p.down name ∧ resumes attempts ≤ now then
        (.after (⟨now, p.starts⟩ :: attempts), some ⟨now, p.starts⟩)
      else (.after attempts, none) := by
  unfold Watch.respawn
  change (if p.down name = true ∧ resumes attempts ≤ now then _ else _) = _
  by_cases h : p.down name = true ∧ resumes attempts ≤ now
  · rw [if_pos h, if_pos h]
    cases p.starts with
    | true =>
      rw [if_pos rfl, ← pause_zero]
      rfl
    | false =>
      rw [if_neg Bool.false_ne_true]
      simp only [Watch.after, failures, resumes, pause_succ]
      rfl
  · rw [if_neg h, if_neg h]

/-- The alarm that follows an attempt. -/
theorem alarm_after (attempts : List Attempt) (a : Attempt) :
    alarmsOf (a :: attempts) =
      alarmsOf attempts ++ ((Watch.after (a :: attempts)).alarm (some a)).toList := by
  obtain ⟨time, ok⟩ := a
  cases ok with
  | true => simp [alarmsOf, Watch.alarm]
  | false =>
    rw [alarmsOf, Watch.alarm, Watch.after]
    by_cases h : maxConsecutiveFails ≤ failures (⟨time, false⟩ :: attempts)
    · rw [if_pos h, if_pos h]
      rfl
    · rw [if_neg h, if_neg h]
      rfl

/-- What the launcher keeps about a service is what its attempts say. -/
structure Supervisor.Accounts (s : Supervisor) (name : Service) : Prop where
  watch : s.watch name = .after (s.attempts name).reverse
  alarms : s.alarms name = alarmsOf (s.attempts name).reverse
  paced : Paced (s.attempts name).reverse

private theorem accounts_init (name : Service) : Supervisor.init.Accounts name :=
  ⟨rfl, rfl, trivial⟩

/-- A round keeps the accounts of a service. -/
private theorem Supervisor.Accounts.monitorStep {s : Supervisor} {name : Service}
    (h : s.Accounts name) (r : Round) : (s.monitorStep r).Accounts name := by
  have hblock := respawn_after (s.attempts name).reverse name r.now (r.probe name)
  rw [← h.watch] at hblock
  change s.block r name = _ at hblock
  by_cases hcond : (r.probe name).down name ∧ resumes (s.attempts name).reverse ≤ r.now
  · rw [if_pos hcond] at hblock
    have hattempts : ((s.monitorStep r).attempts name).reverse =
        ⟨r.now, (r.probe name).starts⟩ :: (s.attempts name).reverse := by
      rw [attempts_monitorStep, hblock]
      exact List.reverse_append
    refine ⟨?_, ?_, ?_⟩
    · rw [hattempts, watch_monitorStep, hblock]
    · rw [hattempts, alarm_after, ← h.alarms, alarms_monitorStep, hblock]
    · rw [hattempts]
      exact ⟨hcond.2, h.paced⟩
  · rw [if_neg hcond] at hblock
    have hattempts : (s.monitorStep r).attempts name = s.attempts name := by
      rw [attempts_monitorStep, hblock]
      exact List.append_nil _
    refine ⟨?_, ?_, ?_⟩
    · rw [hattempts, watch_monitorStep, hblock]
      exact h.watch
    · rw [hattempts, ← h.alarms, alarms_monitorStep, hblock]
      exact List.append_nil _
    · rw [hattempts]
      exact h.paced

private theorem accounts_monitor (rounds : List Round) (name : Service) :
    (Supervisor.monitor rounds).Accounts name := by
  induction rounds using List.reverseRecOn with
  | nil => exact accounts_init name
  | append_singleton rounds r ih =>
    rw [Supervisor.monitor, List.foldl_append]
    exact ih.monitorStep r

/-- Over every sequence of rounds: the variables of a service are what its attempts say, each
alarm follows a failure from the fifth in a row on, no attempt is made before the pause of the last
failure is over, which is at most a minute, and a round makes an attempt whenever the service is
down and that pause is over. -/
theorem monitor_accounts (rounds : List Round) (name : Service) :
    let s := Supervisor.monitor rounds
    s.Accounts name ∧ (∀ n, pause n ≤ backoffMax) ∧
      ∀ r : Round, (s.monitorStep r).attempts name = s.attempts name ++
        if (r.probe name).down name ∧ resumes (s.attempts name).reverse ≤ r.now
        then [⟨r.now, (r.probe name).starts⟩] else [] := by
  intro s
  have h : s.Accounts name := accounts_monitor rounds name
  refine ⟨h, pause_le, ?_⟩
  intro r
  rw [attempts_monitorStep, Supervisor.block, h.watch, respawn_after]
  split <;> rfl

end Kitty.Launcher
