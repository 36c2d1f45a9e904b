import Kitty.Signal.Entries

/-!
# Who closes a socket

A client's socket is closed by its own handler, by a handler that could not notify it, and by
the ping monitor, and the registries know it by its number, which `accept` gives out again;
`src/signaling-server/signaling_server.cpp:380–404,605–692,1985–2030`. Every socket is closed
once, and never used behind that, as long as only its own handler closes it, and not while
another thread has it in hand.
-/

namespace Kitty.Signal

open Kitty.Base
open Registry

/-- The server, with whose everything is: the thread that registered an entry, the one that
subscribed a socket, and the one of the last connection accepted on a descriptor; how often
the descriptor of a thread's connection has been closed; and which of the sockets a thread
has in hand have been closed since it took them up. -/
structure Owned where
  server : Server
  registrant : EntryKey → Nat
  subscriber : Nat → Nat
  conn : Nat → Nat
  closes : Nat → Nat
  stale : Nat → Nat → Bool

/-- The descriptors the next step of a thread closes. -/
def Thread.closing (t : Thread) : List Nat :=
  match t.pc with
  | .closing => [t.fd]
  | .notifyDrop failed => failed
  | .pingClose fd _ => [fd]
  | _ => []

/-- The sockets a thread has in hand. -/
def Server.hand (w : Server) (tid : Nat) : List Nat :=
  ((w.threads tid).map fun t ↦ t.pc.inHand).getD []

/-- One more `close` of the connection on each descriptor. -/
def countCloses (conn : Nat → Nat) (closes : Nat → Nat) (fds : List Nat) : Nat → Nat :=
  fds.foldl (fun closes fd ↦ Function.update closes (conn fd) (closes (conn fd) + 1)) closes

namespace Owned

def start : Owned := ⟨.start, fun _ ↦ 0, fun _ ↦ 0, fun _ ↦ 0, fun _ ↦ 0, fun _ _ ↦ false⟩

/-- A step that closes some descriptors. -/
def closed (O : Owned) (fds : List Nat) (v : Server) : Owned :=
  { O with
    server := v
    closes := countCloses O.conn O.closes fds
    stale := fun tid fd ↦ (v.hand tid).contains fd && (O.stale tid fd || fds.contains fd) }

/-- A step of a thread of the program. -/
def ran (O : Owned) (tid : Nat) (t : Thread) (v : Server) : Owned :=
  { O.closed t.closing v with
    registrant := match t.pc.registers with
      | some key => Function.update O.registrant key tid
      | none => O.registrant
    subscriber := if t.pc matches .subscribe then Function.update O.subscriber t.fd tid
      else O.subscriber }

/-- One event. -/
def step (cfg : Config) (O : Owned) (l : ServerLabel) : Option Owned :=
  (O.server.step cfg l).map fun v ↦
    match l with
    | .accept fd _ => { O.closed [] v with conn := Function.update O.conn fd O.server.spawned }
    | .run tid _ => match O.server.threads tid with
      | some t => O.ran tid t v
      | none => O.closed [] v
    | _ => O.closed [] v

/-- The server does what it does without being watched. -/
theorem server_of_run (cfg : Config) (ls : List ServerLabel) :
    (run (Owned.step cfg) .start ls).map server = run (Server.step cfg) .start ls := by
  refine run_map (Owned.step cfg) ?_ .start ls
  intro O l
  rw [step, Option.map_map]
  cases hs : O.server.step cfg l with
  | none => rfl
  | some v =>
    rw [Option.map_some, Function.comp_apply]
    split
    · rfl
    · split <;> rfl
    · rfl

end Owned

/-- A step of a thread closes another client's socket. -/
def Pc.closesOther : Pc → Bool
  | .notifyDrop _ => true
  | .pingClose .. => true
  | _ => false

/-- A socket is closed by its own handler, when no other thread has it in hand. -/
def ClosesOwn (O : Owned) : ServerLabel → Prop
  | .run tid _ => ∀ t ∈ O.server.threads tid, t.pc.closesOther = false ∧
      (t.pc.phase = 3 → ∀ tid' < O.server.spawned, tid' ≠ tid → t.fd ∉ O.server.hand tid')
  | _ => True

instance (O : Owned) : (l : ServerLabel) → Decidable (ClosesOwn O l)
  | .run _ _ => inferInstanceAs (Decidable (∀ _ ∈ _, _))
  | .accept _ _ | .recv _ _ _ | .timeout _ | .accepted _ _ | .sendFail _ => isTrue trivial

/-- What the cleanup of a connection removes is its own. -/
structure Owned.CleansOwn (cfg : Config) (O : Owned) : Prop where
  entries : ∀ tid now t V, O.server.threads tid = some t →
    (t.pc = .leaveSubscribers ∨ t.pc = .leaveSrt ∨ t.pc = .leaveRegistry) →
    O.step cfg (.run tid now) = some V → ∀ key,
      V.server.registry.fdOf key ≠ O.server.registry.fdOf key → O.registrant key = tid
  subscribers : ∀ tid now t V, O.server.threads tid = some t →
    (t.pc = .leaveSubscribers ∨ t.pc = .leaveSrt ∨ t.pc = .leaveRegistry) →
    O.step cfg (.run tid now) = some V → ∀ fd ∈ O.server.registry.subscriberSockets,
      fd ∉ V.server.registry.subscriberSockets → O.subscriber fd = tid

/-- Whose sockets are, and that they are not used behind their `close`. The connection of a
handler is closed once, by its last step. Until then its descriptor is open and is that of no
other connection. What a registry names, and what a thread sends to, is the descriptor of a
connection that is not closed: the one that was registered, the one that was looked up. -/
structure Owned.Sound (cfg : Config) (O : Owned) : Prop where
  opened : ∀ tid t, O.server.threads tid = some t → t.pc.pings = false → t.pc.phase < 4 →
    O.closes tid = 0 ∧ O.conn t.fd = tid ∧ t.fd ∈ O.server.registry.openFds
  once : ∀ tid t, O.server.threads tid = some t → t.pc.pings = false → t.pc.phase = 4 →
    O.closes tid = 1
  entry : ∀ key fd, O.server.registry.fdOf key = some fd →
    O.conn fd = O.registrant key ∧ O.closes (O.conn fd) = 0
  subscribed : ∀ fd ∈ O.server.registry.subscriberSockets,
    O.conn fd = O.subscriber fd ∧ O.closes (O.conn fd) = 0
  sends : ∀ tid t out next, O.server.threads tid = some t → t.pc = .sending out next →
    O.stale tid out.fd = false ∧ O.closes (O.conn out.fd) = 0 ∧
      out.fd ∈ O.server.registry.openFds
  cleans : O.CleansOwn cfg

/-! ### The connections behind the sockets -/

/-- A thread serves the connection on a descriptor, and has not come further in its cleanup. -/
def Server.Serves (w : Server) (tid fd phase : Nat) : Prop :=
  ∃ t, w.threads tid = some t ∧ t.pc.pings = false ∧ t.fd = fd ∧ t.pc.phase ≤ phase

/-- The last phase of a cleanup before which an entry is there. -/
def EntryKey.phase : EntryKey → Nat
  | .provider _ => 2
  | .srt _ => 1

/-- The connection of a handler is open until its last step, and a registry names, and a
thread has in hand, only sockets of handlers that have not come so far. -/
structure Owned.Inv (O : Owned) : Prop where
  numbered : O.server.Numbered
  unborn : ∀ tid, O.server.spawned ≤ tid → O.closes tid = 0
  opened : ∀ tid t, O.server.threads tid = some t → t.pc.pings = false → t.pc.phase < 4 →
    O.closes tid = 0 ∧ O.conn t.fd = tid ∧ t.fd ∈ O.server.registry.openFds
  once : ∀ tid t, O.server.threads tid = some t → t.pc.pings = false → t.pc.phase = 4 →
    O.closes tid = 1
  entry : ∀ key fd, O.server.registry.fdOf key = some fd →
    O.server.Serves (O.registrant key) fd key.phase
  subscribed : ∀ fd ∈ O.server.registry.subscriberSockets, O.server.Serves (O.subscriber fd) fd 0
  hand : ∀ tid, ∀ fd ∈ O.server.hand tid, ∃ tid', O.server.Serves tid' fd 3
  fresh : ∀ tid fd, O.stale tid fd = false

theorem Server.hand_of_some {w : Server} {tid : Nat} {t : Thread} (h : w.threads tid = some t) :
    w.hand tid = t.pc.inHand := by
  rw [hand, h]
  rfl

theorem Server.Numbered.lt_of_hand {w : Server} (h : w.Numbered) {tid fd : Nat}
    (hfd : fd ∈ w.hand tid) : tid < w.spawned := by
  by_contra hge
  rw [Server.hand, h tid (Nat.le_of_not_lt hge)] at hfd
  cases hfd

theorem Server.hand_of_eq {w v : Server} {tid : Nat} (h : v.threads tid = w.threads tid) :
    v.hand tid = w.hand tid := by
  rw [hand, hand, h]

theorem Server.Serves.mono {w : Server} {tid fd m n : Nat} (h : w.Serves tid fd m) (hmn : m ≤ n) :
    w.Serves tid fd n := by
  obtain ⟨t, ht, hpings, hfd, hphase⟩ := h
  exact ⟨t, ht, hpings, hfd, Nat.le_trans hphase hmn⟩

/-- A connection that is served is open, and that of its thread. -/
theorem Owned.Inv.serves {O : Owned} (h : O.Inv) {tid fd n : Nat} (hs : O.server.Serves tid fd n)
    (hn : n ≤ 3) : O.closes tid = 0 ∧ O.conn fd = tid ∧ fd ∈ O.server.registry.openFds := by
  obtain ⟨t, ht, hpings, rfl, hphase⟩ := hs
  exact h.opened tid t ht hpings (by omega)

/-- One thread serves a connection. -/
theorem Owned.Inv.serves_unique {O : Owned} (h : O.Inv) {tid tid' fd m n : Nat}
    (hs : O.server.Serves tid fd m) (hs' : O.server.Serves tid' fd n) (hm : m ≤ 3) (hn : n ≤ 3) :
    tid = tid' :=
  (h.serves hs hm).2.1.symm.trans (h.serves hs' hn).2.1

/-- What the registries name is served. -/
theorem Owned.Inv.names {O : Owned} (h : O.Inv) {fd : Nat} (hfd : O.server.registry.Names fd) :
    ∃ tid, O.server.Serves tid fd 3 := by
  obtain ⟨service, hs⟩ | ⟨service, hs⟩ | hs := hfd
  · exact ⟨_, (h.entry (.provider service) fd hs).mono (by simp [EntryKey.phase])⟩
  · exact ⟨_, (h.entry (.srt service) fd hs).mono (by simp [EntryKey.phase])⟩
  · exact ⟨_, (h.subscribed fd hs).mono (by omega)⟩

theorem Owned.inv_start : Owned.start.Inv where
  numbered := Server.numbered_start
  unborn _ _ := rfl
  opened tid t h hpings := by
    by_cases h0 : tid = 0
    · subst h0
      cases h
      cases hpings
    · simp [start, Server.start, h0] at h
  once tid t h hpings := by
    by_cases h0 : tid = 0
    · subst h0
      cases h
      cases hpings
    · simp [start, Server.start, h0] at h
  entry key fd h := by
    cases key <;> simp [start, Server.start, Registry.start, fdOf, providerFd, srtFd] at h
  subscribed fd h := by simp [start, Server.start, Registry.start] at h
  hand tid fd h := by
    by_cases h0 : tid = 0
    · subst h0
      cases h
    · simp [start, Server.start, Server.hand, h0] at h
  fresh _ _ := rfl

/-- A thread that goes on serves what it served, unless its cleanup has come further. -/
private theorem serves_moved {w v : Server} {tid : Nat} {t : Thread} {pc : Pc} {tid' fd n : Nat}
    (h : w.Serves tid' fd n) (ht : w.threads tid = some t)
    (hthr : v.threads = Function.update w.threads tid (some { t with pc }))
    (hpings : pc.pings = t.pc.pings) (hphase : tid' = tid → pc.phase ≤ n) : v.Serves tid' fd n := by
  obtain ⟨u, hu, hup, hfd, hun⟩ := h
  by_cases he : tid' = tid
  · subst he
    cases ht.symm.trans hu
    exact ⟨{ t with pc }, by rw [hthr, Function.update_self], hpings.trans hup, hfd, hphase rfl⟩
  · exact ⟨u, by rw [hthr, Function.update_of_ne he, hu], hup, hfd, hun⟩

/-- A step of one thread that opens and closes nothing keeps the invariant, when what the
registries name behind it is served. -/
private theorem inv_moved {O V : Owned} {tid : Nat} {t : Thread} {pc : Pc} (hO : O.Inv)
    (ht : O.server.threads tid = some t)
    (hthr : V.server.threads = Function.update O.server.threads tid (some { t with pc }))
    (hs : V.server.spawned = O.server.spawned) (hpings : pc.pings = t.pc.pings)
    (hlt : t.pc.phase < 4) (hlt' : pc.phase < 4)
    (hopen : V.server.registry.openFds = O.server.registry.openFds) (hconn : V.conn = O.conn)
    (hcloses : V.closes = O.closes)
    (hstale : ∀ tid fd, V.stale tid fd = true → O.stale tid fd = true)
    (hentry : ∀ key fd, V.server.registry.fdOf key = some fd →
      V.server.Serves (V.registrant key) fd key.phase)
    (hsub : ∀ fd ∈ V.server.registry.subscriberSockets, V.server.Serves (V.subscriber fd) fd 0)
    (hhand : ∀ fd ∈ pc.inHand, (fd = t.fd ∧ t.pc.pings = false) ∨ fd ∈ t.pc.inHand ∨
      O.server.registry.Names fd) (hnum : V.server.Numbered) : V.Inv where
  numbered := hnum
  unborn tid' h := by
    rw [hcloses]
    exact hO.unborn tid' (hs ▸ h)
  opened tid' t' ht' hp hphase := by
    rw [hcloses, hconn, hopen]
    rw [hthr] at ht'
    by_cases he : tid' = tid
    · rw [he, Function.update_self] at ht'
      cases ht'
      rw [he]
      exact hO.opened tid t ht (hpings.symm.trans hp) hlt
    · rw [Function.update_of_ne he] at ht'
      exact hO.opened tid' t' ht' hp hphase
  once tid' t' ht' hp hphase := by
    rw [hcloses]
    rw [hthr] at ht'
    by_cases he : tid' = tid
    · rw [he, Function.update_self] at ht'
      cases ht'
      exact absurd hphase (Nat.ne_of_lt hlt')
    · rw [Function.update_of_ne he] at ht'
      exact hO.once tid' t' ht' hp hphase
  entry := hentry
  subscribed := hsub
  hand tid' fd hfd := by
    have hkeep : (∃ tid', O.server.Serves tid' fd 3) → ∃ tid', V.server.Serves tid' fd 3 :=
      fun ⟨u, hu⟩ ↦ ⟨u, serves_moved hu ht hthr hpings fun _ ↦ Nat.le_of_lt_succ hlt'⟩
    by_cases he : tid' = tid
    · have hthread : V.server.threads tid = some { t with pc } := by
        rw [hthr, Function.update_self]
      rw [he, Server.hand_of_some hthread] at hfd
      obtain ⟨rfl, hp⟩ | hfd | hfd := hhand fd hfd
      · exact ⟨tid, { t with pc }, hthread, hpings.trans hp, rfl, Nat.le_of_lt_succ hlt'⟩
      · exact hkeep (hO.hand tid fd (by rwa [Server.hand_of_some ht]))
      · exact hkeep (hO.names hfd)
    · have hsame : V.server.threads tid' = O.server.threads tid' := by
        rw [hthr, Function.update_of_ne he]
      exact hkeep (hO.hand tid' fd (by rwa [Server.hand_of_eq hsame] at hfd))
  fresh tid' fd := by
    cases h : V.stale tid' fd with
    | false => rfl
    | true => rw [← hO.fresh tid' fd, hstale tid' fd h]

/-- What the registries name is served when they and the registrants stay as they are. -/
private theorem named_same {O V : Owned} {tid : Nat} {t : Thread} {pc : Pc} (hO : O.Inv)
    (ht : O.server.threads tid = some t)
    (hthr : V.server.threads = Function.update O.server.threads tid (some { t with pc }))
    (hpings : pc.pings = t.pc.pings) (hphase : pc.phase = 0)
    (hreg : V.registrant = O.registrant) (hsub : V.subscriber = O.subscriber)
    (hfd : ∀ key, V.server.registry.fdOf key = O.server.registry.fdOf key ∨
      V.server.registry.fdOf key = none)
    (hsubs : V.server.registry.subscriberSockets = O.server.registry.subscriberSockets) :
    (∀ key fd, V.server.registry.fdOf key = some fd →
      V.server.Serves (V.registrant key) fd key.phase) ∧
    ∀ fd ∈ V.server.registry.subscriberSockets, V.server.Serves (V.subscriber fd) fd 0 := by
  constructor
  · intro key fd h
    obtain hk | hk := hfd key
    · rw [hk] at h
      rw [hreg]
      exact serves_moved (hO.entry key fd h) ht hthr hpings fun _ ↦ by omega
    · rw [hk] at h
      cases h
  · intro fd h
    rw [hsubs] at h
    rw [hsub]
    exact serves_moved (hO.subscribed fd h) ht hthr hpings fun _ ↦ by omega

/-! ### One step -/

/-- What a step of the watched server is. -/
theorem Owned.step_some {cfg : Config} {O V : Owned} {l : ServerLabel} (h : O.step cfg l = some V) :
    ∃ v, O.server.step cfg l = some v ∧ V.server = v ∧
      ((∃ fd ip, l = .accept fd ip ∧
          V = { O.closed [] v with conn := Function.update O.conn fd O.server.spawned }) ∨
        (∃ tid now t, l = .run tid now ∧ O.server.threads tid = some t ∧ V = O.ran tid t v) ∨
        (∀ fd ip, l ≠ .accept fd ip) ∧ (∀ tid now, l = .run tid now → O.server.threads tid = none) ∧
          V = O.closed [] v) := by
  obtain ⟨v, hv, rfl⟩ := Option.map_eq_some_iff.mp h
  refine ⟨v, hv, ?_⟩
  split
  · next fd ip => exact ⟨rfl, .inl ⟨fd, ip, rfl, rfl⟩⟩
  · next tid now =>
    split
    · next t ht => exact ⟨rfl, .inr (.inl ⟨tid, now, t, rfl, ht, rfl⟩)⟩
    · next ht =>
      refine ⟨rfl, .inr (.inr ⟨?_, ?_, rfl⟩)⟩
      · intro fd ip he
        cases he
      · intro tid' now' he
        cases he
        exact ht
  · next hacc hrun =>
    exact ⟨rfl, .inr (.inr ⟨hacc, fun tid now he ↦ absurd he (hrun tid now), rfl⟩)⟩

/-- A step of a thread registers, subscribes and closes nothing. -/
def Pc.quiet : Pc → Bool
  | .registerInsert _ | .srtRegister _ | .subscribe => false
  | .notifyDrop _ | .closing | .pingClose .. => false
  | _ => true

private theorem ran_closes_nothing {O : Owned} {tid : Nat} {t : Thread} {v : Server}
    (h : t.pc.quiet = true) : O.ran tid t v = O.closed [] v := by
  unfold Owned.ran Thread.closing
  cases hpc : t.pc with
  | registerInsert req | srtRegister req | subscribe | notifyDrop failed | closing
  | pingClose fd rest =>
    rw [hpc] at h
    cases h
  | _ => rfl

private theorem quiet_of_keeps {pc : Pc} (h : pc.keeps = true) : pc.quiet = true := by
  cases pc with
  | registerInsert req | srtRegister req | subscribe | notifyDrop failed | closing
  | pingClose fd rest => cases h
  | _ => rfl

private theorem keeps_of_waits {pc : Pc} (h : pc.waits = true) : pc.keeps = true := by
  cases pc with
  | recv | received msg answers | requestWait req slot | sending out next => rfl
  | _ => cases h

private theorem phase_of_keeps {pc : Pc} (h : pc.keeps = true) : pc.phase = 0 := by
  cases pc with
  | leaveSrt | leaveRegistry | closing | done => cases h
  | _ => rfl

private theorem stale_closed {O : Owned} {fds : List Nat} {v : Server} {tid fd : Nat}
    (hfd : fd ∉ fds) (h : (O.closed fds v).stale tid fd = true) : O.stale tid fd = true := by
  simp only [Owned.closed, Bool.and_eq_true, Bool.or_eq_true, List.contains_iff_mem] at h
  exact h.2.resolve_right hfd

/-- A thread goes on and the entries stay as they are. -/
private theorem inv_goOn {cfg : Config} {O : Owned} (hO : O.Inv) {v : Server} {tid : Nat}
    {t : Thread}
    {pc : Pc} (ht : O.server.threads tid = some t) (hkeeps : t.pc.keeps = true)
    (hr : O.server.registry.SameEntries v.registry) (hpc : pc.GoesOn cfg t O.server.registry)
    (hthr : v.threads = Function.update O.server.threads tid (some { t with pc }))
    (hs : v.spawned = O.server.spawned) (hnum : v.Numbered) : (O.closed [] v).Inv := by
  have hthr' : (O.closed [] v).server.threads = _ := hthr
  obtain ⟨hentry, hsub⟩ := named_same hO ht hthr' hpc.pings hpc.phase rfl rfl
    (fun key ↦ .inl (hr.fdOf key)) hr.subscribers
  exact inv_moved hO ht hthr hs hpc.pings (by rw [phase_of_keeps hkeeps]; omega)
    (by rw [hpc.phase]; omega) hr.openFds rfl rfl (fun _ _ h ↦ stale_closed (by simp) h) hentry hsub
    hpc.inHand hnum

/-- A critical section that removes entries, or none, and closes nothing. -/
private theorem inv_remove {cfg : Config} {O : Owned} (hO : O.Inv) {v : Server} {tid : Nat}
    {t : Thread} {pc : Pc} (ht : O.server.threads tid = some t)
    (hV : O.ran tid t v = O.closed [] v) (hphase : t.pc.phase = 0)
    (hfd : ∀ key, v.registry.fdOf key = O.server.registry.fdOf key ∨ v.registry.fdOf key = none)
    (hsubs : v.registry.subscriberSockets = O.server.registry.subscriberSockets)
    (hopen : v.registry.openFds = O.server.registry.openFds)
    (hpc : pc.GoesOn cfg t O.server.registry)
    (hthr : v.threads = Function.update O.server.threads tid (some { t with pc }))
    (hs : v.spawned = O.server.spawned) (hnum : v.Numbered) : (O.ran tid t v).Inv := by
  rw [hV]
  have hthr' : (O.closed [] v).server.threads = _ := hthr
  obtain ⟨hentry, hsub⟩ := named_same hO ht hthr' hpc.pings hpc.phase rfl rfl hfd hsubs
  exact inv_moved hO ht hthr hs hpc.pings (by rw [hphase]; omega) (by rw [hpc.phase]; omega) hopen
    rfl rfl (fun _ _ h ↦ stale_closed (by simp) h) hentry hsub hpc.inHand hnum

/-- A handler registers an entry. -/
private theorem inv_register {cfg : Config} {O : Owned} (hO : O.Inv) {v : Server} {tid : Nat}
    {t : Thread} {pc : Pc} {key : EntryKey} (ht : O.server.threads tid = some t)
    (hreg : t.pc.registers = some key)
    (hfd : ∀ key', v.registry.fdOf key' =
      if key' = key then some t.fd else O.server.registry.fdOf key')
    (hsubs : v.registry.subscriberSockets = O.server.registry.subscriberSockets)
    (hopen : v.registry.openFds = O.server.registry.openFds)
    (hpc : pc.GoesOn cfg t O.server.registry)
    (hthr : v.threads = Function.update O.server.threads tid (some { t with pc }))
    (hs : v.spawned = O.server.spawned) (hnum : v.Numbered) : (O.ran tid t v).Inv := by
  obtain ⟨hpings, hphase, hV⟩ : t.pc.pings = false ∧ t.pc.phase = 0 ∧ O.ran tid t v =
      { O.closed [] v with registrant := Function.update O.registrant key tid } := by
    unfold Owned.ran Thread.closing
    cases hp : t.pc with
    | registerInsert req | srtRegister req =>
      rw [hp] at hreg
      cases hreg
      exact ⟨rfl, rfl, rfl⟩
    | _ =>
      rw [hp] at hreg
      cases hreg
  rw [hV]
  refine inv_moved hO ht hthr hs hpc.pings (by rw [hphase]; omega) (by rw [hpc.phase]; omega) hopen
    rfl rfl (fun _ _ h ↦ stale_closed (by simp) h) ?_ ?_
    hpc.inHand hnum
  · intro key' fd h
    change v.registry.fdOf key' = some fd at h
    rw [hfd] at h
    change v.Serves (Function.update O.registrant key tid key') fd key'.phase
    split at h
    · next he =>
      cases h
      rw [he, Function.update_self]
      exact ⟨{ t with pc }, by rw [hthr, Function.update_self], hpc.pings.trans hpings, rfl,
        by rw [hpc.phase]; omega⟩
    · next he =>
      rw [Function.update_of_ne he]
      exact serves_moved (hO.entry key' fd h) ht hthr hpc.pings fun _ ↦ by rw [hpc.phase]; omega
  · intro fd h
    change fd ∈ v.registry.subscriberSockets at h
    rw [hsubs] at h
    exact serves_moved (hO.subscribed fd h) ht hthr hpc.pings fun _ ↦ by rw [hpc.phase]

/-- A handler subscribes its socket. -/
private theorem inv_subscribe {cfg : Config} {O : Owned} (hO : O.Inv) {v : Server} {tid : Nat}
    {t : Thread} {pc : Pc} (ht : O.server.threads tid = some t) (hp : t.pc = .subscribe)
    (hr : v.registry = O.server.registry.subscribe t.fd)
    (hpc : pc.GoesOn cfg t O.server.registry)
    (hthr : v.threads = Function.update O.server.threads tid (some { t with pc }))
    (hs : v.spawned = O.server.spawned) (hnum : v.Numbered) : (O.ran tid t v).Inv := by
  have hV : O.ran tid t v =
      { O.closed [] v with subscriber := Function.update O.subscriber t.fd tid } := by
    simp only [Owned.ran, Thread.closing, hp, Pc.registers]
    rfl
  have hpings : t.pc.pings = false := by rw [hp]; rfl
  rw [hV]
  refine inv_moved hO ht hthr hs hpc.pings (by rw [hp]; simp [Pc.phase]) (by rw [hpc.phase]; omega)
    (by change v.registry.openFds = _; rw [hr]; rfl) rfl rfl
    (fun _ _ h ↦ stale_closed (by simp) h) ?_ ?_ hpc.inHand hnum
  · intro key fd h
    change v.registry.fdOf key = some fd at h
    rw [hr] at h
    exact serves_moved (hO.entry key fd ((fdOf_eq rfl rfl key).symm.trans h)) ht hthr hpc.pings
      fun _ ↦ by rw [hpc.phase]; omega
  · intro fd h
    change fd ∈ v.registry.subscriberSockets at h
    change v.Serves (Function.update O.subscriber t.fd tid fd) fd 0
    by_cases he : fd = t.fd
    · rw [he, Function.update_self]
      exact ⟨{ t with pc }, by rw [hthr, Function.update_self], hpc.pings.trans hpings, rfl,
        by rw [hpc.phase]⟩
    · rw [Function.update_of_ne he]
      rw [hr, subscribe, Std.ExtTreeSet.mem_insert, Std.LawfulEqCmp.compare_eq_iff_eq] at h
      exact serves_moved (hO.subscribed fd (h.resolve_left fun heq ↦ he heq.symm)) ht hthr hpc.pings
        fun _ ↦ by rw [hpc.phase]

/-- A handler comes one phase further in its cleanup, and removes what it has of this phase. -/
private theorem inv_leave {O : Owned} (hO : O.Inv) {v : Server} {tid : Nat} {t : Thread} {pc : Pc}
    (ht : O.server.threads tid = some t) (hV : O.ran tid t v = O.closed [] v)
    (hpings : t.pc.pings = false) (hpings' : pc.pings = false) (hphase : pc.phase = t.pc.phase + 1)
    (hlt : pc.phase < 4) (hhand : pc.inHand = [])
    (hfd : ∀ key fd, v.registry.fdOf key = some fd → O.server.registry.fdOf key = some fd ∧
      (key.phase = t.pc.phase → fd ≠ t.fd))
    (hsubs : ∀ fd ∈ v.registry.subscriberSockets, fd ∈ O.server.registry.subscriberSockets ∧
      (t.pc.phase = 0 → fd ≠ t.fd))
    (hopen : v.registry.openFds = O.server.registry.openFds)
    (hthr : v.threads = Function.update O.server.threads tid (some { t with pc }))
    (hs : v.spawned = O.server.spawned) (hnum : v.Numbered) : (O.ran tid t v).Inv := by
  -- What the thread itself serves is still there only for a later phase.
  have hserves : ∀ tid' fd n, O.server.Serves tid' fd n → (n = t.pc.phase → fd ≠ t.fd) →
      v.Serves tid' fd n := fun tid' fd n h hne ↦ by
    apply serves_moved h ht hthr (hpings'.trans hpings.symm)
    intro he
    obtain ⟨u, hu, -, hufd, hun⟩ := h
    rw [he] at hu
    cases ht.symm.trans hu
    by_cases hn : n = t.pc.phase
    · exact absurd hufd.symm (hne hn)
    · omega
  rw [hV]
  refine inv_moved hO ht hthr hs (hpings'.trans hpings.symm) (by omega) hlt hopen rfl rfl
    (fun _ _ h ↦ stale_closed (by simp) h) ?_ ?_ ?_ hnum
  · intro key fd h
    obtain ⟨hkeep, hne⟩ := hfd key fd h
    exact hserves _ _ _ (hO.entry key fd hkeep) hne
  · intro fd h
    obtain ⟨hkeep, hne⟩ := hsubs fd h
    exact hserves _ _ _ (hO.subscribed fd hkeep) fun h0 ↦ hne h0.symm
  · rw [hhand]
    exact fun _ h ↦ by cases h

/-- A handler closes its descriptor, which nobody else has in hand. -/
private theorem inv_close {O : Owned} (hO : O.Inv) {v : Server} {tid : Nat} {t : Thread}
    (ht : O.server.threads tid = some t) (hp : t.pc = .closing)
    (hc : ∀ tid' < O.server.spawned, tid' ≠ tid → t.fd ∉ O.server.hand tid')
    (hr : v.registry = O.server.registry.close t.fd)
    (hthr : v.threads = Function.update O.server.threads tid (some { t with pc := .done }))
    (hs : v.spawned = O.server.spawned) (hnum : v.Numbered) : (O.ran tid t v).Inv := by
  have hpings : t.pc.pings = false := by rw [hp]; rfl
  have hphase : t.pc.phase = 3 := by rw [hp]; rfl
  obtain ⟨hzero, hconn, hopen⟩ := hO.opened tid t ht hpings (by omega)
  have hV : O.ran tid t v = O.closed [t.fd] v := by
    simp only [Owned.ran, Thread.closing, hp, Pc.registers]
    rfl
  have hcloses : (O.closed [t.fd] v).closes = Function.update O.closes tid 1 := by
    simp only [Owned.closed, countCloses, List.foldl_cons, List.foldl_nil, hconn, hzero]
  have hself : v.threads tid = some { t with pc := .done } := by
    rw [hthr, Function.update_self]
  have hother : ∀ {tid' : Nat}, tid' ≠ tid → v.threads tid' = O.server.threads tid' := fun he ↦ by
    rw [hthr, Function.update_of_ne he]
  have hserves : ∀ {tid' fd n}, O.server.Serves tid' fd n → tid' ≠ tid → v.Serves tid' fd n :=
    fun ⟨u, hu, h⟩ he ↦ ⟨u, by rw [hother he, hu], h⟩
  have hlast : ∀ {tid' fd n}, O.server.Serves tid' fd n → n < 3 → tid' ≠ tid := by
    rintro _ fd n ⟨u, hu, -, -, hun⟩ hn rfl
    cases ht.symm.trans hu
    omega
  have hfd : ∀ key, v.registry.fdOf key = O.server.registry.fdOf key := by
    rw [hr]
    exact fdOf_eq rfl rfl
  rw [hV]
  exact {
    numbered := hnum
    unborn := fun tid' h ↦ by
      have hlt := hO.numbered.lt ht
      rw [hcloses, Function.update_of_ne]
      · exact hO.unborn tid' (hs ▸ h)
      · change v.spawned ≤ tid' at h
        omega
    opened := fun tid' t' ht' hp' hphase' ↦ by
      change v.threads tid' = some t' at ht'
      by_cases he : tid' = tid
      · rw [he, hself] at ht'
        cases ht'
        exact absurd hphase' (by simp [Pc.phase])
      · rw [hother he] at ht'
        obtain ⟨h0, h1, h2⟩ := hO.opened tid' t' ht' hp' hphase'
        have hne : t'.fd ≠ t.fd := fun heq ↦ he (by rw [← h1, heq, hconn])
        refine ⟨by rw [hcloses, Function.update_of_ne he, h0], h1, ?_⟩
        change t'.fd ∈ v.registry.openFds
        rw [hr, close, Std.ExtTreeSet.mem_erase]
        exact ⟨by simpa [Std.LawfulEqCmp.compare_eq_iff_eq] using hne.symm, h2⟩
    once := fun tid' t' ht' hp' hphase' ↦ by
      change v.threads tid' = some t' at ht'
      rw [hcloses]
      by_cases he : tid' = tid
      · rw [he, Function.update_self]
      · rw [hother he] at ht'
        rw [Function.update_of_ne he]
        exact hO.once tid' t' ht' hp' hphase'
    entry := fun key fd h ↦ by
      have hs := hO.entry key fd ((hfd key).symm.trans h)
      exact hserves hs (hlast hs (by cases key <;> simp [EntryKey.phase]))
    subscribed := fun fd h ↦ by
      change fd ∈ v.registry.subscriberSockets at h
      rw [hr] at h
      have hs := hO.subscribed fd h
      exact hserves hs (hlast hs (by omega))
    hand := fun tid' fd h ↦ by
      change fd ∈ v.hand tid' at h
      by_cases he : tid' = tid
      · rw [he, Server.hand_of_some hself] at h
        cases h
      · have h' : fd ∈ O.server.hand tid' := by rwa [Server.hand_of_eq (hother he)] at h
        obtain ⟨u, hu⟩ := hO.hand tid' fd h'
        refine ⟨u, hserves hu ?_⟩
        intro heq
        -- The closing thread serves `t.fd` alone, which this thread does not have in hand.
        rw [heq] at hu
        obtain ⟨x, hx, -, hxfd, -⟩ := hu
        cases ht.symm.trans hx
        exact hc tid' (hO.numbered.lt_of_hand h') he (hxfd ▸ h')
    fresh := fun tid' fd ↦ by
      by_cases hmem : fd = t.fd
      · by_cases he : tid' = tid
        · simp [Owned.closed, he, Server.hand_of_some hself, Pc.inHand]
        · have hno : t.fd ∉ v.hand tid' := by
            rw [Server.hand_of_eq (hother he)]
            exact fun h ↦ hc tid' (hO.numbered.lt_of_hand h) he h
          simp [Owned.closed, hmem, hno]
      · simp [Owned.closed, hO.fresh tid' fd, hmem] }

/-- A client is accepted on a descriptor that is not open. -/
private theorem inv_accept {O : Owned} (hO : O.Inv) {v : Server} {fd : Nat} {ip : Bytes}
    (hfd : fd ∉ O.server.registry.openFds)
    (hr : v.registry =
      { O.server.registry with openFds := O.server.registry.openFds.insert fd })
    (hthr : v.threads =
      Function.update O.server.threads O.server.spawned (some ⟨fd, ip, .connected⟩))
    (hs : v.spawned = O.server.spawned + 1) (hnum : v.Numbered) :
    Owned.Inv { O.closed [] v with conn := Function.update O.conn fd O.server.spawned } := by
  have hself : v.threads O.server.spawned = some ⟨fd, ip, .connected⟩ := by
    rw [hthr, Function.update_self]
  have hother : ∀ {tid}, tid ≠ O.server.spawned → v.threads tid = O.server.threads tid :=
    fun he ↦ by rw [hthr, Function.update_of_ne he]
  have hserves : ∀ {tid f n}, O.server.Serves tid f n → v.Serves tid f n := fun ⟨u, hu, h⟩ ↦
    ⟨u, by rw [hother (Nat.ne_of_lt (hO.numbered.lt hu)), hu], h⟩
  exact {
    numbered := hnum
    unborn := fun tid h ↦ by
      change v.spawned ≤ tid at h
      exact hO.unborn tid (by omega)
    opened := fun tid t ht hp hphase ↦ by
      change v.threads tid = some t at ht
      change O.closes tid = 0 ∧ Function.update O.conn fd O.server.spawned t.fd = tid ∧
        t.fd ∈ v.registry.openFds
      rw [hr, Std.ExtTreeSet.mem_insert, Std.LawfulEqCmp.compare_eq_iff_eq]
      by_cases he : tid = O.server.spawned
      · rw [he, hself] at ht
        cases ht
        exact ⟨hO.unborn tid (Nat.le_of_eq he.symm), by rw [Function.update_self, he], .inl rfl⟩
      · rw [hother he] at ht
        obtain ⟨h0, h1, h2⟩ := hO.opened tid t ht hp hphase
        have hne : t.fd ≠ fd := fun heq ↦ hfd (heq ▸ h2)
        exact ⟨h0, by rw [Function.update_of_ne hne, h1], .inr h2⟩
    once := fun tid t ht hp hphase ↦ by
      change v.threads tid = some t at ht
      by_cases he : tid = O.server.spawned
      · rw [he, hself] at ht
        cases ht
        cases hphase
      · rw [hother he] at ht
        exact hO.once tid t ht hp hphase
    entry := fun key f h ↦ by
      change v.registry.fdOf key = some f at h
      rw [hr, fdOf_eq rfl rfl key] at h
      exact hserves (hO.entry key f h)
    subscribed := fun f h ↦ by
      change f ∈ v.registry.subscriberSockets at h
      rw [hr] at h
      exact hserves (hO.subscribed f h)
    hand := fun tid f h ↦ by
      change f ∈ v.hand tid at h
      by_cases he : tid = O.server.spawned
      · rw [he, Server.hand_of_some hself] at h
        cases h
      · rw [Server.hand_of_eq (hother he)] at h
        obtain ⟨u, hu⟩ := hO.hand tid f h
        exact ⟨u, hserves hu⟩
    fresh := fun tid f ↦ by simp [Owned.closed, hO.fresh tid f] }

theorem Owned.Inv.step {cfg : Config} {O V : Owned} {l : ServerLabel} (hc : ClosesOwn O l)
    (hO : O.Inv) (h : O.step cfg l = some V) : V.Inv := by
  obtain ⟨v, hv, rfl, hV⟩ := Owned.step_some h
  have hmove := Server.move_of_step hv
  have hnum := hmove.numbered hO.numbered
  have hwait : ∀ tid t, O.server.threads tid = some t → t.pc.waits = true → l.tid = some tid →
      V = O.closed [] V.server := fun tid t ht hwaits hl ↦ by
    obtain ⟨fd, ip, rfl, -⟩ | ⟨tid', now, t', rfl, ht', hV⟩ | ⟨-, -, hV⟩ := hV
    · cases hl
    · cases hl
      cases ht.symm.trans ht'
      rw [ran_closes_nothing (quiet_of_keeps (keeps_of_waits hwaits))] at hV
      exact hV
    · exact hV
  cases hmove with
  | accept fd ip hfd hr hthr hs =>
    obtain ⟨fd', ip', he, hV⟩ | ⟨tid, now, t, he, -⟩ | ⟨hacc, -⟩ := hV
    · cases he
      rw [hV]
      exact inv_accept hO hfd hr hthr hs hnum
    · cases he
    · exact absurd rfl (hacc fd ip)
  | goOn tid t pc ht hwaits hr hpc hdrop hl hthr hs =>
    rw [hwait tid t ht hwaits hl]
    exact inv_goOn hO ht (keeps_of_waits hwaits) hr hpc hthr hs hnum
  | crash tid now t ht hwaits hr hthr hs =>
    rw [hwait tid t ht hwaits rfl]
    have hpc : t.pc.GoesOn cfg t O.server.registry :=
      ⟨fun _ h ↦ .inr (.inl h), (Pc.of_waits hwaits).1, rfl, .same rfl⟩
    refine inv_goOn hO ht (keeps_of_waits hwaits) hr hpc ?_ hs hnum
    rw [hthr]
    exact (Function.update_eq_self_iff.mpr ht.symm).symm
  | run tid now t pc ht hstep hsend hthr hs =>
    have hV : V = O.ran tid t V.server := by
      obtain ⟨fd, ip, he, -⟩ | ⟨tid', now', u, he, hu, hV⟩ | ⟨-, hnone, -⟩ := hV
      · cases he
      · cases he
        cases ht.symm.trans hu
        exact hV
      · rw [hnone tid now rfl] at ht
        cases ht
    obtain ⟨hnot, hhold⟩ := hc t ht
    rw [hV]
    have hfd : t.pc.registers = none → ∀ key,
        V.server.registry.fdOf key = O.server.registry.fdOf key ∨
          V.server.registry.fdOf key = none :=
      fun hno key ↦ (hstep.fdOf key).imp_right fun h ↦ h.resolve_right (by simp [hno])
    generalize hreg : V.server.registry = r at hstep
    cases hstep with
    | keep hkeeps hr hpc =>
      rw [ran_closes_nothing (quiet_of_keeps hkeeps)]
      exact inv_goOn hO ht hkeeps (hreg ▸ hr) hpc hthr hs hnum
    | register req h hpc =>
      refine inv_register hO ht (by rw [h]; rfl) ?_ (by rw [hreg]; rfl)
        (by rw [hreg]; rfl) hpc hthr hs hnum
      intro key'
      rw [hreg]
      exact fdOf_register _ req t.fd t.ip now key'
    | srtRegister req h hpc =>
      refine inv_register hO ht (by rw [h]; rfl) ?_ (by rw [hreg]; rfl)
        (by rw [hreg]; rfl) hpc hthr hs hnum
      intro key'
      rw [hreg]
      exact fdOf_srtRegister _ req t.fd now key'
    | subscribe h hpc => exact inv_subscribe hO ht h hreg hpc hthr hs hnum
    | eraseProvider req h hpc | srtErase service provider h hpc | removeStale fd rest h hpc =>
      exact inv_remove hO ht (ran_closes_nothing (by rw [h]; rfl)) (by rw [h]; rfl)
        (hfd (by rw [h]; rfl)) (by rw [hreg]; rfl) (by rw [hreg]; rfl) hpc hthr hs hnum
    | leaveSubscribers h =>
      refine inv_leave hO ht (ran_closes_nothing (by rw [h]; rfl)) (by rw [h]; rfl) rfl
        (by rw [h]; rfl) (by simp [Pc.phase]) rfl ?_ ?_
        (by rw [hreg]; rfl) hthr hs hnum
      · intro key fd hkey
        rw [hreg, fdOf_eq rfl rfl key] at hkey
        exact ⟨hkey, fun he ↦ by cases key <;> simp [EntryKey.phase, h, Pc.phase] at he⟩
      · intro fd hmem
        rw [hreg, unsubscribe, Std.ExtTreeSet.mem_erase] at hmem
        exact ⟨hmem.2, fun _ heq ↦ hmem.1 (by rw [heq]; exact Std.ReflCmp.compare_self)⟩
    | leaveSrt h =>
      refine inv_leave hO ht (ran_closes_nothing (by rw [h]; rfl)) (by rw [h]; rfl) rfl
        (by rw [h]; rfl) (by simp [Pc.phase]) rfl ?_ ?_
        (by rw [hreg]; rfl) hthr hs hnum
      · intro key fd hkey
        rw [hreg, fdOf_removeSrtSocket] at hkey
        cases key with
        | provider service =>
          exact ⟨hkey, fun he ↦ by simp [EntryKey.phase, h, Pc.phase] at he⟩
        | srt service =>
          obtain ⟨hk, hne⟩ := Option.filter_eq_some_iff.mp hkey
          exact ⟨hk, fun _ ↦ by simpa using hne⟩
      · intro fd hmem
        rw [hreg] at hmem
        exact ⟨hmem, fun he ↦ by simp [h, Pc.phase] at he⟩
    | leaveRegistry h =>
      refine inv_leave hO ht (ran_closes_nothing (by rw [h]; rfl)) (by rw [h]; rfl) rfl
        (by rw [h]; rfl) (by simp [Pc.phase]) rfl ?_ ?_
        (by rw [hreg]; rfl) hthr hs hnum
      · intro key fd hkey
        rw [hreg, leave, fdOf_removeSocket] at hkey
        cases key with
        | provider service =>
          obtain ⟨hk, hne⟩ := Option.filter_eq_some_iff.mp hkey
          exact ⟨hk, fun _ ↦ by simpa using hne⟩
        | srt service =>
          exact ⟨hkey, fun he ↦ by simp [EntryKey.phase, h, Pc.phase] at he⟩
      · intro fd hmem
        rw [hreg] at hmem
        exact ⟨hmem, fun he ↦ by simp [h, Pc.phase] at he⟩
    | close h => exact inv_close hO ht h (hhold (by rw [h]; rfl)) hreg hthr hs hnum
    | dropSubscribers failed h hpc =>
      rw [h] at hnot
      cases hnot
    | closeStale fd rest h hpc =>
      rw [h] at hnot
      cases hnot

/-! ### Every run -/

/-- What a filter by a descriptor takes away has that descriptor. -/
private theorem eq_of_filter_ne {o : Option Nat} {fd : Nat} (h : o.filter (· != fd) ≠ o) :
    o = some fd := by
  cases o with
  | none => exact absurd rfl h
  | some n =>
    by_cases he : n = fd
    · rw [he]
    · exact absurd (Option.filter_some_pos (by simpa using he)) h

/-- The cleanup of a connection removes what has its descriptor. -/
private theorem cleanup_run {cfg : Config} {tid : Nat} {t : Thread} {now : Int} {r r' : Registry}
    {pc : Pc} (hp : t.pc = .leaveSubscribers ∨ t.pc = .leaveSrt ∨ t.pc = .leaveRegistry)
    (h : t.run cfg tid now r = some (r', pc)) :
    (∀ key, r'.fdOf key ≠ r.fdOf key → r.fdOf key = some t.fd) ∧
      ∀ fd ∈ r.subscriberSockets, fd ∉ r'.subscriberSockets → fd = t.fd := by
  unfold Thread.run at h
  obtain hp | hp | hp := hp
  · simp only [hp] at h
    cases h
    refine ⟨fun key hne ↦ absurd (fdOf_eq rfl rfl key) hne, ?_⟩
    intro fd hmem hno
    by_contra he
    apply hno
    rw [unsubscribe, Std.ExtTreeSet.mem_erase]
    exact ⟨fun heq ↦ he (Std.LawfulEqCmp.eq_of_compare heq).symm, hmem⟩
  · simp only [hp] at h
    cases h
    refine ⟨?_, fun fd hmem hno ↦ absurd hmem hno⟩
    intro key hne
    rw [fdOf_removeSrtSocket] at hne
    split at hne
    · exact eq_of_filter_ne hne
    · exact absurd rfl hne
  · simp only [hp] at h
    cases (Registry.locked_some h).2
    refine ⟨?_, fun fd hmem hno ↦ absurd hmem hno⟩
    intro key hne
    rw [leave, fdOf_removeSocket] at hne
    split at hne
    · exact eq_of_filter_ne hne
    · exact absurd rfl hne

theorem Owned.Inv.cleansOwn {O : Owned} (hO : O.Inv) (cfg : Config) : O.CleansOwn cfg := by
  have hown : ∀ tid now t V, O.server.threads tid = some t →
      (t.pc = .leaveSubscribers ∨ t.pc = .leaveSrt ∨ t.pc = .leaveRegistry) →
      O.step cfg (.run tid now) = some V → O.server.Serves tid t.fd 3 ∧
        (∀ key, V.server.registry.fdOf key ≠ O.server.registry.fdOf key →
          O.server.registry.fdOf key = some t.fd) ∧
        ∀ fd ∈ O.server.registry.subscriberSockets,
          fd ∉ V.server.registry.subscriberSockets → fd = t.fd := by
    intro tid now t V ht hp hstep
    have hserves : O.server.Serves tid t.fd 3 := by
      obtain h | h | h := hp <;> exact ⟨t, ht, by rw [h]; rfl, rfl, by rw [h]; simp [Pc.phase]⟩
    obtain ⟨v, hv, rfl, -⟩ := Owned.step_some hstep
    have hpc : ∀ msg answers, t.pc ≠ .received msg answers := fun msg answers hrec ↦ by
      rw [hrec] at hp
      simp at hp
    obtain ⟨r, pc, hrun, hV⟩ := Server.step_run_of_thread hv ht hpc
    rw [hV]
    exact ⟨hserves, cleanup_run hp hrun⟩
  constructor
  · intro tid now t V ht hp hstep key hne
    obtain ⟨hserves, hkeys, -⟩ := hown tid now t V ht hp hstep
    have hentry := hO.entry key t.fd (hkeys key hne)
    exact hO.serves_unique hentry hserves (by cases key <;> simp [EntryKey.phase]) (Nat.le_refl _)
  · intro tid now t V ht hp hstep fd hmem hno
    obtain ⟨hserves, -, hsubs⟩ := hown tid now t V ht hp hstep
    obtain rfl := hsubs fd hmem hno
    exact hO.serves_unique (hO.subscribed _ hmem) hserves (by omega) (Nat.le_refl _)

theorem Owned.Inv.sound {O : Owned} (hO : O.Inv) (cfg : Config) : O.Sound cfg where
  opened := hO.opened
  once := hO.once
  entry key fd h := by
    obtain ⟨h0, h1, -⟩ := hO.serves (hO.entry key fd h) (by cases key <;> simp [EntryKey.phase])
    exact ⟨h1, by rw [h1, h0]⟩
  subscribed fd h := by
    obtain ⟨h0, h1, -⟩ := hO.serves (hO.subscribed fd h) (by omega)
    exact ⟨h1, by rw [h1, h0]⟩
  sends tid t out next ht hpc := by
    have hmem : out.fd ∈ O.server.hand tid := by
      rw [Server.hand_of_some ht, hpc]
      exact List.mem_cons_self
    obtain ⟨u, hu⟩ := hO.hand tid out.fd hmem
    obtain ⟨h0, h1, h2⟩ := hO.serves hu (Nat.le_refl _)
    exact ⟨hO.fresh tid out.fd, by rw [h1, h0], h2⟩
  cleans := hO.cleansOwn cfg

/-- In every run in which a socket is closed by its own handler alone, and not while another
thread has it in hand, every socket is closed once and not used behind that, and every cleanup
removes what its own connection registered. -/
theorem owned_sound {cfg : Config} {ls : List ServerLabel} {O : Owned}
    (hc : Always (Owned.step cfg) ClosesOwn .start ls)
    (hr : run (Owned.step cfg) .start ls = some O) : O.Sound cfg :=
  have hO : O.Inv := invariant_run (Owned.step cfg) (fun _ _ _ hl hs ht ↦ hs.step hl ht) hc
    Owned.inv_start hr
  hO.sound cfg

/-- A client connects and sends a message, which is taken up. -/
def tells (tid fd : Nat) (msg : String) : List ServerLabel :=
  [.accept fd (lit "10.0.0.1"), .run tid 0, .recv tid (frame (lit msg)) none, .run tid 0]

/-- A client registers a camera, and its handler comes to tell the subscribers. -/
def registersAs (tid fd : Nat) (service : String) : List ServerLabel :=
  tells tid fd ("type=REGISTER\nservice_id=" ++ service ++ "\np2p_port=1\n") ++
    [.run tid 0, .run tid 0, .sendFail tid, .run tid 0]

/-- The connection of a client ends, and its handler is about to drop its providers. -/
def hangsUp (tid : Nat) : List ServerLabel := [.recv tid [] none, .run tid 0, .run tid 0]

/-- A camera registers and hangs up, and its descriptor is given to another one. -/
def takesTurns : List ServerLabel :=
  registersAs 1 4 "a" ++ (.run 1 0 :: (hangsUp 1 ++ (.run 1 0 :: .run 1 0 :: registersAs 2 4 "b")))

/-- A subscriber cannot be told of camera `a`, so the handler of `a` closes its descriptor. It
is given to camera `b` before the subscriber's own handler ends. -/
def closedByOther : List ServerLabel :=
  tells 1 4 "type=SUBSCRIBE\n" ++ ([.run 1 0, .run 1 0, .run 1 0] ++ (registersAs 2 5 "a" ++
    ([.run 2 0, .sendFail 2, .run 2 0] ++ (registersAs 3 4 "b" ++ hangsUp 1))))

theorem owned_sound_turns :
    ∃ O, run (Owned.step .unset) .start takesTurns = some O ∧ O.Sound .unset := by
  have hsome : (run (Owned.step .unset) .start takesTurns).isSome = true := by decide +kernel
  obtain ⟨O, hr⟩ := Option.isSome_iff_exists.mp hsome
  exact ⟨O, hr, owned_sound (by decide +kernel) hr⟩

/-- The cleanup of the subscriber removes camera `b`, which another connection registered, and
its `close` closes the connection of `b`, whose handler goes on with it. -/
theorem not_sound_closed_by_other :
    ∃ O, run (Owned.step .unset) .start closedByOther = some O ∧
      O.registrant (.provider (lit "b")) = 3 ∧
      O.server.registry.fdOf (.provider (lit "b")) = some 4 ∧ O.closes 1 = 1 ∧ O.closes 3 = 0 ∧
      ((run (Owned.step .unset) O [.run 1 0, .run 1 0]).map fun V ↦
        (V.server.registry.fdOf (.provider (lit "b")), V.closes 3,
          (V.server.threads 3).map fun t ↦ t.pc.phase)) = some (none, 1, some 0) :=
  exists_run (Owned.step .unset) (fun O ↦ O.registrant (.provider (lit "b")) = 3 ∧
    O.server.registry.fdOf (.provider (lit "b")) = some 4 ∧ O.closes 1 = 1 ∧ O.closes 3 = 0 ∧
    ((run (Owned.step .unset) O [.run 1 0, .run 1 0]).map fun V ↦
      (V.server.registry.fdOf (.provider (lit "b")), V.closes 3,
        (V.server.threads 3).map fun t ↦ t.pc.phase)) = some (none, 1, some 0)) (by decide +kernel)

end Kitty.Signal
