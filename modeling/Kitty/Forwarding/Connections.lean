import Kitty.Base.Run
import Mathlib.Data.List.FinRange
import Mathlib.Logic.Function.Basic

/-!
# Forwarded connections

The table of connections that the provider and the multi-camera consumer share between their
threads, and the two kinds of threads that close them;
`src/provider-srt/_legacy_libjuice_provider_configurable.c:577–723, 1045–1064` and
`src/consumer-srt-cloud/_legacy_libjuice_consumer_api.c:550–712`. A thread is told from one
access to what others write to the next, so what is read outside the mutex is read when it is.
-/

namespace Kitty.Forwarding

/-- `MAX_CONNECTIONS`. -/
def maxConnections : Nat := 64

/-- A place for a connection: the service or camera, and the place in its array. -/
abbrev Slot (groups : Nat) := Fin groups × Fin maxConnections

/-- `connection_t`, without the frame it reassembles. The last field is history: a number for
each time the place was cleared. -/
structure Connection where
  connId : BitVec 32
  localSocket : Option Nat
  active : Bool
  serial : Nat

/-- A connection of zeros: its `local_socket` is the descriptor 0. -/
def Connection.zero (serial : Nat) : Connection := ⟨0, some 0, false, serial⟩

/-- What a descriptor is open for: a connection, a connection that is to be, or nothing of this
table. -/
inductive Owner where
  | conn (serial : Nat)
  | pending (n : Nat)
  | other
  deriving DecidableEq

/-- Where a thread is in `close_connection`: about to read `local_socket`, to close what it read,
to write -1, or to free the buffers and clear `active`. -/
inductive ClosePc where
  | load
  | close (fd : Nat)
  | forget
  | clear
  deriving DecidableEq

/-- Where a thread is in `forward_local_to_p2p`: before its loop; about to look at one of the
operands of the loop's condition, to read the descriptor, to receive from what it read, to write
the next header, to lock; in `close_connection`. -/
inductive ForwardPc where
  | begin
  | connected
  | active
  | socket
  | stop
  | load
  | recv (fd : Option Nat)
  | send
  | lock
  | closing (pc : ClosePc)
  | done
  deriving DecidableEq

/-- The other code that closes connections. -/
inductive Sweep where
  | callback
  | cleanup
  | reconnect
  | free
  deriving DecidableEq

/-- Where such code is: before it, about to take its lock, to look at the next connection, in
`close_connection`, about to leave. -/
inductive SweepPc (groups : Nat) where
  | stop
  | enter
  | look
  | closing (slot : Slot groups) (pc : ClosePc)
  | leave
  | done
  deriving DecidableEq

/-- A thread. A forward thread was given a place, with the connection of a number in it. -/
inductive Thread (groups : Nat) where
  | forward (slot : Slot groups) (serial : Nat) (pc : ForwardPc)
  | sweep (kind : Sweep) (group : Fin groups) (todo : List (Fin maxConnections))
      (pc : SweepPc groups)
  deriving DecidableEq

/-- What decides where a forward thread goes on: memory for its buffer or not; data, nothing yet
or the end from `recv`; another chunk of the frame or not. -/
inductive Outcome where
  | ok
  | again
  | over
  deriving DecidableEq

variable {groups : Nat}

/-- The place a forward thread that is not done has. -/
def Thread.serves : Thread groups → Option (Slot groups)
  | .forward _ _ .done => none
  | .forward s _ _ => some s
  | .sweep _ _ _ _ => none

/-- The place a thread still has a pointer to. -/
def Thread.pointsTo : Thread groups → Option (Slot groups)
  | .forward _ _ .done => none
  | .forward s _ _ => some s
  | .sweep _ _ _ (.closing s _) => some s
  | .sweep _ _ _ _ => none

/-- The descriptor a thread has read and is about to use. -/
def Thread.holds : Thread groups → Option Nat
  | .forward _ _ (.recv fd) => fd
  | .forward _ _ (.closing (.close fd)) => some fd
  | .sweep _ _ _ (.closing _ (.close fd)) => some fd
  | _ => none

/-- Whether a thread holds the mutex of a service or camera. -/
def Thread.locks (g : Fin groups) : Thread groups → Bool
  | .forward s _ (.closing _) => s.1 == g
  | .sweep kind g' _ pc =>
    g' == g && kind != .free && match pc with
      | .look | .closing _ _ | .leave => true
      | .stop | .enter | .done => false
  | _ => false

/-- The connections, the descriptors of the process and the threads. The last two fields are
history: how often a place was cleared, and which forward thread, by the number of its
connection, used the memory or the descriptor of what. -/
structure Shared (groups : Nat) where
  connections : Slot groups → Connection
  descriptors : Nat → Option Owner
  threads : List (Thread groups)
  created : Nat
  accesses : List (Nat × Owner)

/-- Nothing but the standard descriptors is open. -/
def Shared.start (groups : Nat) : Shared groups where
  connections := fun _ ↦ .zero 0
  descriptors := fun fd ↦ if fd < 3 then some .other else none
  threads := []
  created := 1
  accesses := []

namespace Shared

variable (w : Shared groups)

/-- A mutex is held. -/
def locked (g : Fin groups) : Bool := w.threads.any (Thread.locks g)

/-- `find_connection`. -/
def findConnection (g : Fin groups) (connId : BitVec 32) : Option (Fin maxConnections) :=
  (List.finRange maxConnections).find? fun i ↦
    (w.connections (g, i)).active && (w.connections (g, i)).connId == connId

/-- The place `create_connection` takes. -/
def freePlace (g : Fin groups) : Option (Fin maxConnections) :=
  (List.finRange maxConnections).find? fun i ↦ !(w.connections (g, i)).active

/-- The number that the system gives out next. -/
def Lowest (fd : Nat) : Prop := w.descriptors fd = none ∧ ∀ k < fd, w.descriptors k ≠ none

instance (fd : Nat) : Decidable (w.Lowest fd) :=
  inferInstanceAs (Decidable (w.descriptors fd = none ∧ ∀ k < fd, w.descriptors k ≠ none))

/-- A descriptor is opened. -/
def openFd (fd : Nat) (owner : Owner) : Shared groups :=
  { w with descriptors := Function.update w.descriptors fd (some owner) }

/-- A descriptor is closed. -/
def closeFd (fd : Nat) : Shared groups :=
  { w with descriptors := Function.update w.descriptors fd none }

/-- `create_connection` at a place, with memory for the buffers. -/
def create (s : Slot groups) (connId : BitVec 32) : Shared groups :=
  { w with
    connections := Function.update w.connections s ⟨connId, none, true, w.created⟩
    created := w.created + 1 }

/-- `create_connection` at a place, without. -/
def reset (s : Slot groups) : Shared groups :=
  { w with
    connections := Function.update w.connections s (.zero w.created)
    created := w.created + 1 }

/-- `allocate_camera_session` clears all the places of a camera. -/
def wipe (g : Fin groups) : Shared groups :=
  { w with
    connections := fun s ↦ if s.1 = g then .zero w.created else w.connections s
    created := w.created + 1 }

/-- A connection gets its socket. -/
def attach (s : Slot groups) (fd : Nat) : Shared groups :=
  { w with
    connections := Function.update w.connections s { w.connections s with localSocket := some fd }
    descriptors :=
      Function.update w.descriptors fd (some (.conn (w.connections s).serial)) }

/-- `pthread_create` of a forward thread. -/
def spawn (s : Slot groups) : Shared groups :=
  { w with threads := w.threads ++ [.forward s (w.connections s).serial .begin] }

/-- Other code begins to close connections. -/
def sweep (kind : Sweep) (g : Fin groups) (todo : List (Fin maxConnections))
    (pc : SweepPc groups) : Shared groups :=
  { w with threads := w.threads ++ [.sweep kind g todo pc] }

/-- A thread goes on. -/
def goTo (p : Nat) (th : Thread groups) : Shared groups :=
  { w with threads := w.threads.set p th }

/-- A forward thread uses something. -/
def record (n : Nat) (owner : Owner) : Shared groups :=
  { w with accesses := w.accesses ++ [(n, owner)] }

/-- A forward thread uses the memory of its place. -/
def touch (s : Slot groups) (n : Nat) : Shared groups :=
  w.record n (.conn (w.connections s).serial)

/-- A forward thread uses a descriptor. -/
def touchFd (fd : Nat) (n : Nat) : Shared groups :=
  match w.descriptors fd with
  | some owner => w.record n owner
  | none => w

/-! ### `close_connection` -/

/-- One step of `close_connection`, and what is next. -/
def closeStep (s : Slot groups) : ClosePc → Shared groups × Option ClosePc
  | .load =>
    (w, match (w.connections s).localSocket with
      | some fd => some (.close fd)
      | none => some .clear)
  | .close fd => (w.closeFd fd, some .forget)
  | .forget =>
    ({ w with
      connections := Function.update w.connections s { w.connections s with localSocket := none } },
      some .clear)
  | .clear =>
    ({ w with
      connections := Function.update w.connections s { w.connections s with active := false } },
      none)

/-- What that step uses. -/
def touchClosing (s : Slot groups) (n : Nat) : ClosePc → Shared groups
  | .close fd => w.touchFd fd n
  | _ => w.touch s n

/-! ### `forward_local_to_p2p` -/

/-- The next step of a forward thread, with what it finds in its service or camera. -/
def forwardStep (found connected stopped : Bool) (p : Nat) (s : Slot groups) (n : Nat)
    (o : Outcome) : ForwardPc → Option (Shared groups)
  | .begin =>
    some (w.goTo p (.forward s n (if o = .over ∨ found = false then .done else .connected)))
  | .connected => some (w.goTo p (.forward s n (if connected then .active else .lock)))
  | .active =>
    let next := if (w.connections s).active then .socket else .lock
    some ((w.touch s n).goTo p (.forward s n next))
  | .socket =>
    let next := if (w.connections s).localSocket.isSome then .stop else .lock
    some ((w.touch s n).goTo p (.forward s n next))
  | .stop => some (w.goTo p (.forward s n (if stopped then .lock else .load)))
  | .load => some ((w.touch s n).goTo p (.forward s n (.recv (w.connections s).localSocket)))
  | .recv fd =>
    match fd.bind w.descriptors, o with
    | none, .over => some (w.goTo p (.forward s n .lock))
    | none, _ => none
    | some owner, .ok => some ((w.record n owner).goTo p (.forward s n .send))
    | some owner, .again => some ((w.record n owner).goTo p (.forward s n .connected))
    | some owner, .over => some ((w.record n owner).goTo p (.forward s n .lock))
  | .send =>
    let next := if o = .again then .send else .connected
    some ((w.touch s n).goTo p (.forward s n next))
  | .lock => if w.locked s.1 then none else some (w.goTo p (.forward s n (.closing .load)))
  | .closing pc =>
    let r := (w.touchClosing s n pc).closeStep s pc
    some (r.1.goTo p (.forward s n (match r.2 with | some pc => .closing pc | none => .done)))
  | .done => none

/-- The next step of other code that closes connections, under its lock. `cleanup_thread` looks
how long a connection was idle. -/
def sweepStep (p : Nat) (kind : Sweep) (g : Fin groups) (o : Outcome) :
    List (Fin maxConnections) → SweepPc groups → Option (Shared groups)
  | [], .look => some (w.goTo p (.sweep kind g [] .leave))
  | i :: todo, .look =>
    let next := if (w.connections (g, i)).active ∧ (kind = .cleanup → o = .ok) then
      .closing (g, i) .load else .look
    some (w.goTo p (.sweep kind g todo next))
  | todo, .closing s pc =>
    let r := w.closeStep s pc
    some (r.1.goTo p (.sweep kind g todo
      (match r.2 with | some pc => .closing s pc | none => .look)))
  | _, _ => none

end Shared

end Kitty.Forwarding
