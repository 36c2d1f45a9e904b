import Kitty.Base.Bytes
import Mathlib.Logic.Function.Basic

/-!
# Retained messages

A broker keeps for each topic the last message that was published to be retained, and a message of
no bytes clears the topic. A program asks for them and publishes them through commands, each of
which it waits for only so long: a command that is not done by then stops the program, with the
broker as it is. A publication that is not acknowledged may have been taken all the same.
-/

namespace Kitty.Base

/-- The message retained for each topic; it has no bytes where there is none. -/
abbrev Broker (T : Type) := T → Bytes

/-- How a command that asks for the retained message ends: the broker has answered it, it fails
with something printed, or it is not done in time. -/
inductive Receipt where
  | answered
  | failed (stdout : Bytes)
  | timedOut
  deriving DecidableEq

/-- What is printed: the message, if there is one, and a newline after it. -/
def Receipt.stdout (message : Bytes) : Receipt → Bytes
  | answered => if message = [] then [] else message ++ [LF]
  | failed stdout => stdout
  | timedOut => []

/-- How a command that publishes ends: the broker has acknowledged the message, or the command
fails or is not done in time, whether or not the broker has taken the message. -/
inductive Publication where
  | acknowledged
  | failed (taken : Bool)
  | timedOut (taken : Bool)
  deriving DecidableEq

namespace Publication

/-- The broker has taken the message. -/
def taken : Publication → Bool
  | acknowledged => true
  | failed taken => taken
  | timedOut taken => taken

/-- The command is not done in time. -/
def late : Publication → Bool
  | timedOut _ => true
  | _ => false

/-- The broker after it. -/
def after {T : Type} [DecidableEq T] (topic : T) (message : Bytes) (broker : Broker T)
    (p : Publication) : Broker T :=
  if p.taken then Function.update broker topic message else broker

end Publication

/-- What stops a program: `subprocess.TimeoutExpired`. -/
inductive TimeoutExpired where
  | expired
  deriving DecidableEq

/-- A program of such commands. -/
abbrev Script (T : Type) := ExceptT TimeoutExpired (StateM (Broker T))

namespace Script

variable {T : Type} {α β : Type}

/-- What a program returns, if it is not stopped, and the broker then. -/
def exec (x : Script T α) (broker : Broker T) : Except TimeoutExpired α × Broker T :=
  (ExceptT.run x).run broker

/-- `mosquitto_sub -C 1`. -/
def subscribe (topic : T) (receipt : Receipt) : Script T Bytes := do
  let broker ← get
  if receipt = .timedOut then throw .expired
  return receipt.stdout (broker topic)

/-- `mosquitto_pub --retain`; the program learns whether it succeeds. -/
def publish [DecidableEq T] (topic : T) (message : Bytes) (p : Publication) : Script T Bool := do
  modify fun broker ↦ p.after topic message broker
  if p.late then throw .expired
  return p = .acknowledged

/-- However the program ends, this holds of what it leaves: of what it returns, if it is not
stopped, and of the broker. -/
def Ends (post : Except TimeoutExpired α → Broker T → Prop) (x : Script T α)
    (broker : Broker T) : Prop :=
  post (x.exec broker).1 (x.exec broker).2

/-! ### How a program ends -/

variable {post : Except TimeoutExpired β → Broker T → Prop} {broker : Broker T}

/-- A program that only returns leaves the broker alone. -/
theorem ends_pure (b : β) : (pure b : Script T β).Ends post broker ↔ post (.ok b) broker := Iff.rfl

/-- A program goes on after a subscription that is answered or fails. -/
theorem ends_subscribe (topic : T) (receipt : Receipt) (f : Bytes → Script T β) :
    (subscribe topic receipt >>= f).Ends post broker ↔
      if receipt = .timedOut then post (.error .expired) broker
      else (f (receipt.stdout (broker topic))).Ends post broker := by
  cases receipt <;> exact Iff.rfl

/-- A program goes on after a publication that is acknowledged or fails. -/
theorem ends_publish [DecidableEq T] (topic : T) (message : Bytes) (p : Publication)
    (f : Bool → Script T β) :
    (publish topic message p >>= f).Ends post broker ↔
      if p.late then post (.error .expired) (p.after topic message broker)
      else (f (p = .acknowledged)).Ends post (p.after topic message broker) := by
  cases p <;> exact Iff.rfl

/-- Of two programs the one that is chosen ends. -/
theorem ends_ite (c : Prop) [Decidable c] (x y : Script T β) :
    (if c then x else y).Ends post broker ↔
      if c then x.Ends post broker else y.Ends post broker := by
  split <;> exact Iff.rfl

end Script

/-! ### What a publication changes -/

namespace Publication

variable {T : Type} [DecidableEq T] {broker : Broker T} {topic : T} {message : Bytes}
  {p : Publication}

/-- It changes no other topic. -/
theorem after_of_ne {other : T} (h : other ≠ topic) :
    p.after topic message broker other = broker other := by
  unfold after
  split
  · exact Function.update_of_ne h _ _
  · rfl

/-- The topic has the message if it is taken, and else what it had. -/
theorem after_self :
    p.after topic message broker topic = if p.taken then message else broker topic := by
  unfold after
  split
  · exact Function.update_self ..
  · rfl

end Publication

end Kitty.Base
