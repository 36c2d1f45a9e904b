import Kitty.Base.Bytes
import Kitty.Base.Run
import Mathlib.Data.Fintype.Basic
import Mathlib.Data.List.FinRange

/-!
# Camera sessions

The table of sessions of the multi-camera consumer and the threads that reach it;
`src/consumer-srt-cloud/_legacy_libjuice_consumer_api.c:495–562, 1242–1293, 1383–1478, 1602–1671,
1822–2141` and `src/provider-srt/http_api.h:271–342`. Every HTTP request has a thread of its own,
the reconnect monitor, the threads of a session and the ICE callbacks change fields of sessions, and
the main thread frees what is left at the end. A thread is told from one access to what others write
to the next.
-/

namespace Kitty.Vms

open Kitty.Base

/-- `MAX_CAMERAS`. -/
def maxCameras : Nat := 32

theorem maxCameras_pos : 0 < maxCameras := by decide

/-- `camera_session_t`. The ICE agent, the listening socket and the sockets of the active connections
are numbered as they are stored; without a number `agent` is a null pointer and `listen_socket` −1.
The last field is history: the number of the allocation that
made the session. -/
structure Session where
  active : Bool
  cameraId : Bytes
  connected : Bool
  needsReconnect : Bool
  agent : Option Nat
  listenSocket : Option Nat
  connections : List Nat
  shouldStop : Bool
  serial : Nat
  deriving DecidableEq

/-- A session of zeros. -/
def Session.zero : Session := ⟨false, [], false, false, none, none, [], false, 0⟩

/-- What `allocate_camera_session` makes of a slot. -/
def Session.fresh (id : Bytes) (serial : Nat) : Session :=
  ⟨true, id, false, false, none, none, [], false, serial⟩

@[simp] theorem Session.fresh_active (id : Bytes) (n : Nat) : (fresh id n).active = true := rfl

@[simp] theorem Session.fresh_cameraId (id : Bytes) (n : Nat) : (fresh id n).cameraId = id := rfl

@[simp] theorem Session.fresh_serial (id : Bytes) (n : Nat) : (fresh id n).serial = n := rfl

/-- The resources a session has. -/
def Session.held (c : Session) : List Nat :=
  c.agent.toList ++ c.listenSocket.toList ++ c.connections

/-- Who closed a resource: a run of `free_camera_session`, or somebody else, that is a reconnect or
the thread of a connection. -/
inductive Closer where
  | run (r : Nat)
  | other
  deriving DecidableEq

/-- What the caller of `free_camera_session` goes on with. -/
inductive After where
  | connect (id : Bytes)
  | attempt
  | disconnect (id : Bytes)
  | shutdown (next : Nat)
  deriving DecidableEq

/-- Where a thread is. `handleConnect`, `connect` and `handleDisconnect` are about to look a
session up, `handleFound` and `connectFound` about to look at the fields of the one they found;
`allocate` is about to take a slot, `create` to create its ICE agent, `negotiate` to offer it to the
signaling server, `listen` to open the listening socket, and `await` waits for the connection.
A thread in `free_camera_session` is about to look whether the session is active, has told its
threads to stop, or is destroying the agent. Runs of `free_camera_session` that got past the
look are numbered. -/
inductive Thread where
  | handleConnect (id : Bytes)
  | handleFound (id : Bytes) (slot : Fin maxCameras)
  | connect (id : Bytes)
  | connectFound (id : Bytes) (slot : Fin maxCameras)
  | allocate (id : Bytes)
  | create (slot : Fin maxCameras)
  | negotiate (slot : Fin maxCameras)
  | listen (slot : Fin maxCameras)
  | await (slot : Fin maxCameras)
  | handleDisconnect (id : Bytes)
  | free (slot : Fin maxCameras) (after : After)
  | stopping (slot : Fin maxCameras) (run : Nat) (after : After)
  | destroying (slot : Fin maxCameras) (run : Nat) (after : After)
  | shutdown (next : Nat)
  | done
  deriving DecidableEq

/-- The slot whose session a thread is freeing. -/
def Thread.freeing : Thread → Option (Fin maxCameras)
  | .stopping slot _ _ => some slot
  | .destroying slot _ _ => some slot
  | _ => none

/-- The slot whose session a thread is about to look at in `free_camera_session`. -/
def Thread.entering : Thread → Option (Fin maxCameras)
  | .free slot _ => some slot
  | _ => none

/-- The slot a thread is about to store an agent in. -/
def Thread.creating : Thread → Option (Fin maxCameras)
  | .create slot => some slot
  | _ => none

/-- The slot a thread is about to store a listening socket in. -/
def Thread.listening : Thread → Option (Fin maxCameras)
  | .listen slot => some slot
  | _ => none

/-- The slot whose agent a thread has taken and is destroying. -/
def Thread.tookAgent : Thread → Option (Fin maxCameras)
  | .destroying slot _ _ => some slot
  | _ => none

/-- The camera a thread is about to allocate a session for. -/
def Thread.allocating : Thread → Option Bytes
  | .allocate id => some id
  | _ => none

/-- The camera a thread was asked to disconnect. -/
def Thread.disconnects : Thread → Option Bytes
  | .handleDisconnect id => some id
  | .free _ (.disconnect id) => some id
  | .stopping _ _ (.disconnect id) => some id
  | .destroying _ _ (.disconnect id) => some id
  | _ => none

/-- A thread that is done with `free_camera_session`. -/
def After.resume : After → Thread
  | .connect id => .allocate id
  | .attempt => .done
  | .disconnect _ => .done
  | .shutdown next => .shutdown next

/-- `vms_state` and the threads. The last five fields are history: how many sessions were
allocated, how many runs of `free_camera_session` were started, which run released which session,
in the slot of which session each resource was stored, and who closed which resource. -/
structure VmsState where
  cameras : Fin maxCameras → Session
  numActiveCameras : Int
  running : Bool
  threads : List Thread
  allocated : Nat
  runs : Nat
  released : List (Nat × Nat)
  opened : List Nat
  closed : List (Nat × Closer)

/-- After `main` has cleared `vms_state`. -/
def start : VmsState := ⟨fun _ ↦ .zero, 0, true, [], 0, 0, [], [], []⟩

/-! ### The table -/

/-- `find_camera_session`. -/
def findCameraSession (w : VmsState) (id : Bytes) : Option (Fin maxCameras) :=
  (List.finRange maxCameras).find? fun i ↦ (w.cameras i).active && (w.cameras i).cameraId == id

/-- The slot `allocate_camera_session` takes. -/
def freeSlot (w : VmsState) : Option (Fin maxCameras) :=
  (List.finRange maxCameras).find? fun i ↦ !(w.cameras i).active

/-- `allocate_camera_session` by the thread `p`. -/
def allocateCameraSession (w : VmsState) (p : Nat) (id : Bytes) (i : Fin maxCameras) : VmsState :=
  { w with
    cameras := Function.update w.cameras i (.fresh id w.allocated)
    numActiveCameras := w.numActiveCameras + 1
    threads := w.threads.set p (.create i)
    allocated := w.allocated + 1 }

/-- `free_camera_session` finds the session active and tells its threads to stop. -/
def enterFree (w : VmsState) (p : Nat) (i : Fin maxCameras) (after : After) : VmsState :=
  { w with
    cameras := Function.update w.cameras i { w.cameras i with shouldStop := true }
    threads := w.threads.set p (.stopping i w.runs after)
    runs := w.runs + 1 }

/-- It takes the agent away and destroys it. -/
def takeAgent (w : VmsState) (p : Nat) (i : Fin maxCameras) (r : Nat) (after : After) : VmsState :=
  { w with
    cameras := Function.update w.cameras i { w.cameras i with agent := none, connected := false }
    threads := w.threads.set p (.destroying i r after)
    closed := w.closed ++ (w.cameras i).agent.toList.map (·, .run r) }

/-- It closes the sockets, marks the session as inactive and counts it out. -/
def releaseSession (w : VmsState) (p : Nat) (i : Fin maxCameras) (r : Nat) (after : After) :
    VmsState :=
  { w with
    cameras := Function.update w.cameras i
      { w.cameras i with active := false, listenSocket := none, connections := [] }
    numActiveCameras := w.numActiveCameras - 1
    threads := w.threads.set p after.resume
    released := w.released ++ [((w.cameras i).serial, r)]
    closed := w.closed ++
      ((w.cameras i).connections ++ (w.cameras i).listenSocket.toList).map (·, .run r) }

/-- `connect_to_camera_attempt` stores what `juice_create` returns. -/
def storeAgent (w : VmsState) (p : Nat) (i : Fin maxCameras) (ok : Bool) : VmsState :=
  { w with
    cameras := Function.update w.cameras i
      { w.cameras i with agent := if ok then some w.opened.length else none }
    threads := w.threads.set p (if ok then .negotiate i else .free i .attempt)
    opened := w.opened ++ if ok then [(w.cameras i).serial] else [] }

/-- It stores what `socket` returns. -/
def storeListener (w : VmsState) (p : Nat) (i : Fin maxCameras) (ok : Bool) : VmsState :=
  { w with
    cameras := Function.update w.cameras i
      { w.cameras i with listenSocket := if ok then some w.opened.length else none }
    threads := w.threads.set p (if ok then .await i else .free i .attempt)
    opened := w.opened ++ if ok then [(w.cameras i).serial] else [] }

/-! ### Events -/

/-- A request of the HTTP interface. -/
inductive Request where
  | connect (id : Bytes)
  | disconnect (id : Bytes)

/-- The thread that serves it. -/
def Request.thread : Request → Thread
  | .connect id => .handleConnect id
  | .disconnect id => .handleDisconnect id

/-- What the ICE callbacks, the reconnect monitor, the accept thread and the threads of connections
do to a session. -/
inductive SlotEvent where
  | iceConnected
  | iceFailed
  | iceDisconnected
  | scheduled
  | reconnecting
  | agentCreated (ok : Bool)
  | reconnectFailed
  | accepted
  | connectionEnded (k : Nat)

/-- The fields of a session after such an event; `k` is the number of what is stored, if anything
is. A client is turned away while the camera is not connected. -/
def Session.on (c : Session) (k : Nat) : SlotEvent → Session
  | .iceConnected =>
    if c.connected then c else { c with connected := true, needsReconnect := false }
  | .iceFailed => { c with connected := false, needsReconnect := true }
  | .iceDisconnected =>
    { c with connected := false, needsReconnect := c.needsReconnect || c.agent.isSome }
  | .scheduled => { c with needsReconnect := true }
  | .reconnecting =>
    { c with agent := none, connections := [], connected := false, needsReconnect := false }
  | .agentCreated ok => { c with agent := if ok then some k else none }
  | .reconnectFailed => { c with agent := none, needsReconnect := true }
  | .accepted => if c.connected then { c with connections := c.connections ++ [k] } else c
  | .connectionEnded k => { c with connections := c.connections.erase k }

/-- Whether it stores a resource in the session. -/
def Session.stores (c : Session) : SlotEvent → Bool
  | .agentCreated ok => ok
  | .accepted => c.connected
  | _ => false

/-- What it closes of the session. A reconnect closes the sockets of the connections, and their
threads are left to free the buffers. -/
def Session.closes (c : Session) : SlotEvent → List Nat
  | .reconnecting => c.agent.toList ++ c.connections
  | .reconnectFailed => c.agent.toList
  | .connectionEnded k => if k ∈ c.connections then [k] else []
  | _ => []

/-- Such an event. -/
def changeSession (w : VmsState) (i : Fin maxCameras) (e : SlotEvent) : VmsState :=
  { w with
    cameras := Function.update w.cameras i ((w.cameras i).on w.opened.length e)
    opened := w.opened ++ if (w.cameras i).stores e then [(w.cameras i).serial] else []
    closed := w.closed ++ ((w.cameras i).closes e).map (·, .other) }

/-- A request arrives; the main thread leaves its loop; a session is changed from outside; a
thread creates an agent, or fails to; its offer is answered, or is not; it opens the listening
socket, or fails to; its attempt ends; a thread takes its next step. -/
inductive Event where
  | request (r : Request)
  | quit
  | slot (i : Fin maxCameras) (e : SlotEvent)
  | create (p : Nat) (ok : Bool)
  | negotiated (p : Nat) (ok : Bool)
  | listen (p : Nat) (ok : Bool)
  | settled (p : Nat) (ok : Bool)
  | advance (p : Nat)

/-- The next step of a thread. -/
def advance (w : VmsState) (p : Nat) : Thread → Option VmsState
  | .handleConnect id =>
    let next := match findCameraSession w id with
      | some i => .handleFound id i
      | none => .connect id
    some { w with threads := w.threads.set p next }
  | .handleFound id i =>
    let c := w.cameras i
    let next := if c.connected || c.needsReconnect || c.agent.isSome then .done else .connect id
    some { w with threads := w.threads.set p next }
  | .connect id =>
    let next := match findCameraSession w id with
      | some i => .connectFound id i
      | none => .allocate id
    some { w with threads := w.threads.set p next }
  | .connectFound id i =>
    let next := if (w.cameras i).connected then .done else .free i (.connect id)
    some { w with threads := w.threads.set p next }
  | .allocate id =>
    match freeSlot w with
    | some i => some (allocateCameraSession w p id i)
    | none => some { w with threads := w.threads.set p .done }
  | .handleDisconnect id =>
    let next := match findCameraSession w id with
      | some i => .free i (.disconnect id)
      | none => .done
    some { w with threads := w.threads.set p next }
  | .free i after =>
    if (w.cameras i).active then some (enterFree w p i after)
    else some { w with threads := w.threads.set p after.resume }
  | .stopping i r after => some (takeAgent w p i r after)
  | .destroying i r after => some (releaseSession w p i r after)
  | .shutdown next =>
    let thread :=
      if h : next < maxCameras then
        if (w.cameras ⟨next, h⟩).active then .free ⟨next, h⟩ (.shutdown (next + 1))
        else .shutdown (next + 1)
      else .done
    some { w with threads := w.threads.set p thread }
  | .create _ | .negotiate _ | .listen _ | .await _ | .done => none

/-- The program and what happens to it. -/
def step (w : VmsState) : Event → Option VmsState
  | .request r => some { w with threads := w.threads ++ [r.thread] }
  | .quit =>
    if w.running then some { w with running := false, threads := w.threads ++ [.shutdown 0] }
    else none
  | .slot i e => some (changeSession w i e)
  | .create p ok =>
    match w.threads[p]? with
    | some (.create i) => some (storeAgent w p i ok)
    | _ => none
  | .negotiated p ok =>
    match w.threads[p]? with
    | some (.negotiate i) =>
      some { w with threads := w.threads.set p (if ok then .listen i else .free i .attempt) }
    | _ => none
  | .listen p ok =>
    match w.threads[p]? with
    | some (.listen i) => some (storeListener w p i ok)
    | _ => none
  | .settled p ok =>
    match w.threads[p]? with
    | some (.await i) =>
      if ok = true ∧ (w.cameras i).connected = false then none
      else some { w with threads := w.threads.set p (if ok then .done else .free i .attempt) }
    | _ => none
  | .advance p => w.threads[p]?.bind (advance w p)

/-! ### What a step can do -/

/-- The threads that are freeing a session are the same, and at the same place. -/
def SameFreeing (before after : List Thread) : Prop :=
  ∀ (p : Nat) (th : Thread), th.freeing.isSome → (after[p]? = some th ↔ before[p]? = some th)

/-- Nothing was allocated or released: the sessions are active as before, under their ids. -/
structure SameSessions (w t : VmsState) : Prop where
  active : ∀ i, (t.cameras i).active = (w.cameras i).active
  cameraId : ∀ i, (t.cameras i).cameraId = (w.cameras i).cameraId
  serial : ∀ i, (t.cameras i).serial = (w.cameras i).serial
  num : t.numActiveCameras = w.numActiveCameras
  allocated : t.allocated = w.allocated
  released : t.released = w.released

/-- Nobody began, or went on, to free a session either. -/
structure Quiet (w t : VmsState) : Prop extends SameSessions w t where
  freeing : SameFreeing w.threads t.threads

/-- What a step does to the table. In the first case nothing: a thread has only looked at it, or
has begun or ended. -/
inductive Effect (w : VmsState) : Event → VmsState → Prop where
  | look {e : Event} {threads : List Thread} {running : Bool} (h : SameFreeing w.threads threads) :
      Effect w e { w with threads, running }
  | change (i : Fin maxCameras) (e : SlotEvent) : Effect w (.slot i e) (changeSession w i e)
  | create {p : Nat} {i : Fin maxCameras} {ok : Bool} (hp : w.threads[p]? = some (.create i)) :
      Effect w (.create p ok) (storeAgent w p i ok)
  | listen {p : Nat} {i : Fin maxCameras} {ok : Bool} (hp : w.threads[p]? = some (.listen i)) :
      Effect w (.listen p ok) (storeListener w p i ok)
  | allocate {p : Nat} {id : Bytes} {i : Fin maxCameras} (hp : w.threads[p]? = some (.allocate id))
      (hi : freeSlot w = some i) : Effect w (.advance p) (allocateCameraSession w p id i)
  | enter {p : Nat} {i : Fin maxCameras} {after : After}
      (hp : w.threads[p]? = some (.free i after)) (hi : (w.cameras i).active = true) :
      Effect w (.advance p) (enterFree w p i after)
  | take {p : Nat} {i : Fin maxCameras} {r : Nat} {after : After}
      (hp : w.threads[p]? = some (.stopping i r after)) :
      Effect w (.advance p) (takeAgent w p i r after)
  | release {p : Nat} {i : Fin maxCameras} {r : Nat} {after : After}
      (hp : w.threads[p]? = some (.destroying i r after)) :
      Effect w (.advance p) (releaseSession w p i r after)

/-- A thread that frees nothing went on to something else. -/
theorem SameFreeing.set {threads : List Thread} {p : Nat} {old new : Thread}
    (hp : threads[p]? = some old) (hold : old.freeing = none) (hnew : new.freeing = none) :
    SameFreeing threads (threads.set p new) := by
  intro q th hth
  rw [List.getElem?_set]
  split
  · next heq =>
    subst heq
    have hne : ∀ other : Thread, other.freeing = none → other ≠ th := by
      rintro other ho rfl
      simp [ho] at hth
    rw [hp, if_pos (List.getElem?_eq_some_iff.mp hp).1]
    simp [hne old hold, hne new hnew]
  · rfl

private theorem SameFreeing.append (threads : List Thread) {th : Thread}
    (hth : th.freeing = none) : SameFreeing threads (threads ++ [th]) := by
  intro p other hother
  constructor
  · intro h
    obtain hold | ⟨-, rfl⟩ := getElem?_concat_eq_some h
    · exact hold
    · simp [hth] at hother
  · intro h
    rw [List.getElem?_append_left (List.getElem?_eq_some_iff.mp h).1, h]

theorem quiet_look {w : VmsState} {threads : List Thread} {running : Bool}
    (h : SameFreeing w.threads threads) : Quiet w { w with threads, running } :=
  ⟨⟨fun _ ↦ rfl, fun _ ↦ rfl, fun _ ↦ rfl, rfl, rfl, rfl⟩, h⟩

/-- A field of a session that has nothing to do with its identity was changed. -/
private theorem sameSessions_update {w : VmsState} {i : Fin maxCameras} {c : Session}
    {threads : List Thread} {runs : Nat} {opened : List Nat} {closed : List (Nat × Closer)}
    (hactive : c.active = (w.cameras i).active) (hid : c.cameraId = (w.cameras i).cameraId)
    (hserial : c.serial = (w.cameras i).serial) :
    SameSessions w
      { w with cameras := Function.update w.cameras i c, threads, runs, opened, closed } := by
  refine ⟨fun j ↦ ?_, fun j ↦ ?_, fun j ↦ ?_, rfl, rfl, rfl⟩ <;>
    by_cases hj : j = i <;> simp [Function.update_of_ne, hj, hactive, hid, hserial]

theorem sameSessions_enterFree (w : VmsState) (p : Nat) (i : Fin maxCameras) (after : After) :
    SameSessions w (enterFree w p i after) := sameSessions_update rfl rfl rfl

theorem sameSessions_takeAgent (w : VmsState) (p : Nat) (i : Fin maxCameras) (r : Nat)
    (after : After) : SameSessions w (takeAgent w p i r after) := sameSessions_update rfl rfl rfl

theorem on_identity (c : Session) (k : Nat) (e : SlotEvent) :
    (c.on k e).active = c.active ∧ (c.on k e).cameraId = c.cameraId ∧
      (c.on k e).serial = c.serial := by
  cases e with
  | iceConnected =>
    simp only [Session.on]
    split <;> exact ⟨rfl, rfl, rfl⟩
  | accepted =>
    simp only [Session.on]
    split <;> exact ⟨rfl, rfl, rfl⟩
  | _ => exact ⟨rfl, rfl, rfl⟩

theorem quiet_changeSession (w : VmsState) (i : Fin maxCameras) (e : SlotEvent) :
    Quiet w (changeSession w i e) := by
  obtain ⟨hactive, hid, hserial⟩ := on_identity (w.cameras i) w.opened.length e
  exact ⟨sameSessions_update hactive hid hserial, fun _ _ _ ↦ Iff.rfl⟩

theorem quiet_storeAgent {w : VmsState} {p : Nat} {i : Fin maxCameras}
    (hp : w.threads[p]? = some (.create i)) (ok : Bool) : Quiet w (storeAgent w p i ok) :=
  ⟨sameSessions_update rfl rfl rfl, .set hp rfl (by split <;> rfl)⟩

theorem quiet_storeListener {w : VmsState} {p : Nat} {i : Fin maxCameras}
    (hp : w.threads[p]? = some (.listen i)) (ok : Bool) : Quiet w (storeListener w p i ok) :=
  ⟨sameSessions_update rfl rfl rfl, .set hp rfl (by split <;> rfl)⟩

private theorem effect_advance {w t : VmsState} {p : Nat} {th : Thread}
    (hp : w.threads[p]? = some th) (h : advance w p th = some t) : Effect w (.advance p) t := by
  cases th with
  | handleConnect id =>
    cases h
    exact .look (.set hp rfl (by split <;> rfl))
  | handleFound id i =>
    cases h
    exact .look (.set hp rfl (by split <;> rfl))
  | connect id =>
    cases h
    exact .look (.set hp rfl (by split <;> rfl))
  | connectFound id i =>
    cases h
    exact .look (.set hp rfl (by split <;> rfl))
  | allocate id =>
    simp only [advance] at h
    split at h
    · next i hi =>
      cases h
      exact .allocate hp hi
    · cases h
      exact .look (.set hp rfl rfl)
  | handleDisconnect id =>
    cases h
    exact .look (.set hp rfl (by split <;> rfl))
  | free i after =>
    simp only [advance] at h
    split at h
    · next hi =>
      cases h
      exact .enter hp hi
    · cases h
      exact .look (.set hp rfl (by cases after <;> rfl))
  | stopping i r after =>
    cases h
    exact .take hp
  | destroying i r after =>
    cases h
    exact .release hp
  | shutdown next =>
    cases h
    exact .look (.set hp rfl (by split <;> [split; skip] <;> rfl))
  | create i => cases h
  | negotiate i => cases h
  | listen i => cases h
  | await i => cases h
  | done => cases h

/-- Every step is one of these. -/
theorem effect_of_step {w t : VmsState} {e : Event} (h : step w e = some t) : Effect w e t := by
  cases e with
  | request r =>
    cases h
    exact .look (.append w.threads (by cases r <;> rfl))
  | quit =>
    simp only [step] at h
    split at h
    · cases h
      exact .look (.append w.threads rfl)
    · cases h
  | slot i e =>
    cases h
    exact .change i e
  | create p ok =>
    simp only [step] at h
    split at h
    · next i hp =>
      cases h
      exact .create hp
    · cases h
  | negotiated p ok =>
    simp only [step] at h
    split at h
    · next i hp =>
      cases h
      exact .look (.set hp rfl (by split <;> rfl))
    · cases h
  | listen p ok =>
    simp only [step] at h
    split at h
    · next i hp =>
      cases h
      exact .listen hp
    · cases h
  | settled p ok =>
    simp only [step] at h
    split at h
    · next i hp =>
      split at h
      · cases h
      · cases h
        exact .look (.set hp rfl (by split <;> rfl))
    · cases h
  | advance p =>
    obtain ⟨th, hp, h⟩ := Option.bind_eq_some_iff.mp h
    exact effect_advance hp h

end Kitty.Vms
