import Kitty.P2p.Inert

/-!
# Keepalives of a connection

The keepalive thread of the consumer and the cleanup of the provider, with a clock;
`src/consumer-srt-cloud/_legacy_libjuice_consumer_api.c:1306–1376` and
`src/provider-srt/_legacy_libjuice_provider_configurable.c:1045–1064`. On a connection the consumer
may only listen, so the thread sends a datagram without payload on it in every fifth round. A round
is not later than a period behind the one before, and no keepalive is longer on its way than a
delay.
-/

namespace Kitty.P2p

open Kitty.Base

/-! ### The keepalive thread -/

/-- The heartbeat of the consumer. -/
def ping : Bytes := be32 0 ++ be32 1 ++ be32 0 ++ be32 0

/-- What is sent on each connection in use. -/
def CameraSession.keepalives (cam : CameraSession) : List Bytes :=
  (List.range maxConnections).filterMap fun i ↦
    let c := cam.connections i
    if !c.active || c.connId == 0 then none else some (keepalive c.connId)

/-- A round of `keepalive_thread_func` on a connected session: `per_conn_kick` and what is sent. -/
def CameraSession.keepaliveRound (cam : CameraSession) (perConnKick : Nat) : Nat × List Bytes :=
  if 5 ≤ perConnKick + 1 then (0, ping :: cam.keepalives) else (perConnKick + 1, [ping])

/-! ### Both ends and what is between them -/

/-- A session of the consumer, with its keepalive thread, a service of the provider, and the
datagrams on the way to it, each with the time when it was sent. -/
structure Path where
  cam : CameraSession
  connected : Bool
  perConnKick : Nat
  svc : Service
  transit : List (Int × Bytes)
  now : Int
  woken : Int

/-- Time passes; the keepalive thread makes a round; the consumer goes on with something else and
sends datagrams meanwhile; a datagram arrives or is lost; something else happens to the service, of
which `cleanup` has the time of the clock. -/
inductive PathEvent where
  | wait (seconds : Nat)
  | round
  | consumer (cam : CameraSession) (connected : Bool) (sent : List Bytes)
  | deliver (k : Nat) (env : ServiceEnv)
  | lose (k : Nat)
  | close (i : Nat)
  | reset
  | cleanup

namespace Path

/-- Datagrams are sent. -/
def send (w : Path) (sent : List Bytes) : Path :=
  { w with transit := w.transit ++ sent.map (w.now, ·) }

/-- One event of the system. -/
def step (w : Path) : PathEvent → Option Path
  | .wait seconds => some { w with now := w.now + seconds }
  | .round =>
    if w.connected then
      let (perConnKick, sent) := w.cam.keepaliveRound w.perConnKick
      some { w.send sent with perConnKick, woken := w.now }
    else some { w with woken := w.now }
  | .consumer cam connected sent => some { w.send sent with cam, connected }
  | .deliver k env =>
    match w.transit[k]? with
    | none => none
    | some (_, data) =>
      if env.now = w.now then
        some { w with svc := (onRecv w.svc data env).1, transit := w.transit.eraseIdx k }
      else none
  | .lose k => some { w with transit := w.transit.eraseIdx k }
  | .close i => some { w with svc := w.svc.closeConnection i }
  | .reset => some { w with svc := w.svc.reset }
  | .cleanup => some { w with svc := w.svc.cleanup w.now }

/-- The session has the connection. -/
def Holds (cam : CameraSession) (connId : Nat) : Prop :=
  ∃ i < maxConnections, (cam.connections i).active = true ∧ (cam.connections i).connId = connId

instance (cam : CameraSession) (connId : Nat) : Decidable (Holds cam connId) :=
  inferInstanceAs (Decidable (∃ i < maxConnections, _))

/-- The thread comes round in time, on a session that stays connected and has the connection, and
the network delivers the keepalives of the connection in time. -/
def Timely (period delay connId : Nat) (w : Path) : PathEvent → Prop
  | .wait seconds => w.now + seconds ≤ w.woken + period ∧
      ∀ p ∈ w.transit, p.2 = keepalive connId → w.now + seconds ≤ p.1 + delay
  | .consumer cam connected _ => Holds cam connId ∧ connected = true
  | .lose k => w.transit[k]?.map Prod.snd ≠ some (keepalive connId)
  | _ => True

instance (period delay connId : Nat) (w : Path) :
    (l : PathEvent) → Decidable (Timely period delay connId w l)
  | .wait seconds => inferInstanceAs (Decidable (w.now + seconds ≤ w.woken + period ∧
      ∀ p ∈ w.transit, p.2 = keepalive connId → w.now + seconds ≤ p.1 + delay))
  | .consumer cam connected _ => inferInstanceAs (Decidable (Holds cam connId ∧ connected = true))
  | .lose k => inferInstanceAs (Decidable (w.transit[k]?.map Prod.snd ≠ some (keepalive connId)))
  | .round | .deliver _ _ | .close _ | .reset | .cleanup => isTrue trivial

/-- The session has opened the connection, and nothing of it has come to the service. -/
structure Opened (period connId : Nat) (w : Path) : Prop where
  holds : Holds w.cam connId
  connected : w.connected = true
  kick : w.perConnKick < 5
  woken : w.woken ≤ w.now ∧ w.now ≤ w.woken + period
  transit : ∀ p ∈ w.transit, p.2 ≠ keepalive connId
  unknown : w.svc.findConnection connId = none

end Path

/-! ### The age of a connection at the service -/

/-- The service has at most one connection of this name, and the time of its last activity is such
a one. -/
def Service.Only (connId : Nat) (P : Int → Prop) (svc : Service) : Prop :=
  ∃ s, ∀ j < maxConnections, (svc.connections j).active = true →
    (svc.connections j).connId = connId → j = s ∧ P (svc.connections j).lastActivity

namespace Service

variable {svc t : Service} {connId : Nat} {P Q : Int → Prop}

theorem Only.mono (h : svc.Only connId P) (hPQ : ∀ a, P a → Q a) : svc.Only connId Q := by
  obtain ⟨s, hs⟩ := h
  exact ⟨s, fun j hj hactive hid ↦ (hs j hj hactive hid).imp_right (hPQ _)⟩

/-- It stays so where connections are at most closed. -/
theorem Only.of_fewer (h : svc.Only connId P)
    (hfewer : ∀ j, (t.connections j).active = true → (t.connections j).connId = connId →
      (svc.connections j).active = true ∧ (svc.connections j).connId = connId ∧
        (t.connections j).lastActivity = (svc.connections j).lastActivity) :
    t.Only connId P := by
  obtain ⟨s, hs⟩ := h
  refine ⟨s, fun j hj hactive hid ↦ ?_⟩
  obtain ⟨hactive', hid', hlast⟩ := hfewer j hactive hid
  rw [hlast]
  exact hs j hj hactive' hid'

theorem Only.closeConnection (h : svc.Only connId P) (i : Nat) :
    (svc.closeConnection i).Only connId P := by
  refine h.of_fewer fun j hactive hid ↦ ?_
  by_cases hj : j = i
  · subst hj
    simp [Service.closeConnection, setConnection, ServiceConnection.close] at hactive
  · simp only [Service.closeConnection, setConnection, Function.update_of_ne hj] at hactive hid ⊢
    exact ⟨hactive, hid, trivial⟩

theorem Only.cleanup (h : svc.Only connId P) (now : Int) : (svc.cleanup now).Only connId P := by
  refine h.of_fewer fun j hactive hid ↦ ?_
  simp only [Service.cleanup] at hactive hid ⊢
  split at hactive
  · cases hactive
  · next hkept =>
    rw [if_neg hkept] at hid ⊢
    exact ⟨hactive, hid, rfl⟩

theorem Only.reset (h : svc.Only connId P) : svc.reset.Only connId P := by
  refine h.of_fewer fun j hactive hid ↦ ?_
  simp only [Service.reset] at hactive hid ⊢
  split at hactive
  · cases hactive
  · next hkept =>
    rw [if_neg hkept] at hid ⊢
    exact ⟨hactive, hid, rfl⟩

theorem Only.meanwhile (h : svc.Only connId P) (ms : List Meanwhile) :
    (ms.foldl Service.meanwhile svc).Only connId P := by
  induction ms generalizing svc with
  | nil => exact h
  | cons m ms ih =>
    cases m with
    | close i => exact ih (h.closeConnection i)
    | cleanup now => exact ih (h.cleanup now)

/-- A slot is written without changing whose it is. -/
theorem Only.setConnection (h : svc.Only connId P) {i : Nat} {c : ServiceConnection}
    (hactive : (svc.connections i).active = true) (hid : c.connId = (svc.connections i).connId)
    (hlast : c.lastActivity = (svc.connections i).lastActivity ∨ P c.lastActivity) :
    (svc.setConnection i c).Only connId P := by
  obtain ⟨s, hs⟩ := h
  refine ⟨s, fun j hj hactive' hid' ↦ ?_⟩
  by_cases hji : j = i
  · subst hji
    simp only [Service.setConnection, Function.update_self] at hactive' hid' ⊢
    obtain ⟨hslot, hage⟩ := hs j hj hactive (hid.symm.trans hid')
    refine ⟨hslot, ?_⟩
    rcases hlast with heq | hnew
    · rwa [heq]
    · exact hnew
  · simp only [Service.setConnection, Function.update_of_ne hji] at hactive' hid' ⊢
    exact hs j hj hactive' hid'

theorem findConnection_eq_none {svc : Service} {connId : Nat} (h : svc.findConnection connId = none)
    {j : Nat} (hj : j < maxConnections) (hactive : (svc.connections j).active = true) :
    (svc.connections j).connId ≠ connId := by
  have hnot := List.find?_eq_none.mp h j (List.mem_range.mpr hj)
  simpa [hactive] using hnot

/-- A connection is made where there is none. -/
theorem Only.createConnection (h : svc.Only connId P) {made : Nat}
    (hnone : svc.findConnection made = none) (buffers : Option (Buffer UInt8 × Buffer UInt8))
    {now : Int} (hnow : P now) : (svc.createConnection made buffers now).Only connId P := by
  have hcleared : ∀ i, (svc.setConnection i .zero).Only connId P := by
    intro i
    refine h.of_fewer fun j hactive hid ↦ ?_
    by_cases hji : j = i
    · subst hji
      simp [Service.setConnection, ServiceConnection.zero] at hactive
    · simp only [Service.setConnection, Function.update_of_ne hji] at hactive hid ⊢
      exact ⟨hactive, hid, trivial⟩
  unfold Service.createConnection
  split
  · exact h
  · exact hcleared _
  · next i buf spare _ =>
    by_cases hmade : made = connId
    · subst hmade
      refine ⟨i, fun j hj hactive hid ↦ ?_⟩
      by_cases hji : j = i
      · subst hji
        simp only [Service.setConnection, Function.update_self]
        exact ⟨trivial, hnow⟩
      · simp only [Service.setConnection, Function.update_of_ne hji] at hactive hid
        exact absurd hid (findConnection_eq_none hnone hj hactive)
    · obtain ⟨s, hs⟩ := h
      refine ⟨s, fun j hj hactive hid ↦ ?_⟩
      by_cases hji : j = i
      · subst hji
        simp only [Service.setConnection, Function.update_self] at hid
        exact absurd hid hmade
      · simp only [Service.setConnection, Function.update_of_ne hji] at hactive hid ⊢
        exact hs j hj hactive hid

theorem Only.connection (h : svc.Only connId P) (d : Datagram) {env : ServiceEnv}
    (hnow : P env.now) : (svc.connection d env).1.Only connId P := by
  unfold Service.connection
  split
  · exact h
  · next hnone =>
    split
    · exact h
    · have hcreated := h.createConnection hnone env.buffers hnow
      have hlater := hcreated.meanwhile env.meanwhile
      dsimp only
      split
      · exact hcreated
      · split
        · exact hlater
        · next i hi =>
          split
          · exact hlater.closeConnection i
          · exact hlater.setConnection (findConnection_some hi).1 rfl (.inl rfl)

theorem Only.refillSpare (h : svc.Only connId P) (made : Nat) (spare : Option (Buffer UInt8)) :
    (svc.refillSpare made spare).Only connId P := by
  unfold Service.refillSpare
  split
  · next sp i hi =>
    refine h.setConnection (findConnection_some hi).1 ?_ (.inl ?_) <;>
      · unfold ServiceConnection.attachSpare
        split <;> rfl
  · exact h

end Service

/-- A datagram shows that its connection is alive. -/
theorem ServiceConnection.receive_lastActivity (c : ServiceConnection) (d : Datagram) (now : Int) :
    (c.receive d now).1.lastActivity = now ∧ (c.receive d now).1.connId = c.connId := by
  unfold ServiceConnection.receive ServiceConnection.store ServiceConnection.startFrame
  dsimp only
  repeat' split
  all_goals exact ⟨rfl, rfl⟩

namespace Service

variable {svc : Service} {connId : Nat} {P : Int → Prop}

/-- Every datagram that comes keeps it, where the time now is such a one. -/
theorem Only.onRecv (h : svc.Only connId P) (data : Bytes) {env : ServiceEnv} (hnow : P env.now) :
    (onRecv svc data env).1.Only connId P := by
  unfold P2p.onRecv
  split
  · exact h
  · next d _ =>
    split
    · exact h
    · have hconnection := h.connection d hnow
      cases hc : svc.connection d env with
      | mk svc' slot =>
        rw [hc] at hconnection
        cases slot with
        | none => exact hconnection
        | some i =>
          obtain ⟨hactive, -⟩ := connection_some hc
          obtain ⟨hlast, hid⟩ :=
            ServiceConnection.receive_lastActivity (svc'.connections i) d env.now
          have hset := hconnection.setConnection hactive hid (.inr (by rw [hlast]; exact hnow))
          dsimp only
          cases hr : (svc'.connections i).receive d env.now with
          | mk c frame =>
            rw [hr] at hset
            cases frame with
            | none => exact hset
            | some frame => exact hset.refillSpare d.connId env.spare

theorem findConnection_lt {i : Nat} (h : svc.findConnection connId = some i) : i < maxConnections :=
  List.mem_range.mp (List.mem_of_find?_eq_some h)

/-- A datagram of a connection is its last activity. -/
theorem Only.onRecv_own (h : svc.Only connId P) {data : Bytes} {d : Datagram} (env : ServiceEnv)
    (hd : Datagram.parse data = some d) (hid : d.connId = connId)
    (hping : ¬ (d.connId = 0 ∧ d.totalSize = 0 ∧ d.offset = 0)) :
    (P2p.onRecv svc data env).1.Only connId (· = env.now) := by
  cases hfound : svc.findConnection connId with
  | none =>
    have hvacuous : svc.Only connId (· = env.now) :=
      ⟨0, fun j hj hactive hown ↦ absurd hown (findConnection_eq_none hfound hj hactive)⟩
    exact hvacuous.onRecv data rfl
  | some i =>
    obtain ⟨hactive, hown⟩ := findConnection_some hfound
    obtain ⟨hlast, hsame⟩ := ServiceConnection.receive_lastActivity (svc.connections i) d env.now
    have hset : (svc.setConnection i ((svc.connections i).receive d env.now).1).Only connId
        (· = env.now) := by
      obtain ⟨s, hs⟩ := h
      refine ⟨s, fun j hj hactive' hid' ↦ ?_⟩
      by_cases hji : j = i
      · subst hji
        simp only [Service.setConnection, Function.update_self]
        exact ⟨(hs j hj hactive hown).1, hlast⟩
      · simp only [Service.setConnection, Function.update_of_ne hji] at hactive' hid'
        have hi := (hs i (findConnection_lt hfound) hactive hown).1
        exact absurd ((hs j hj hactive' hid').1.trans hi.symm) hji
    have hconnection : svc.connection d env = (svc, some i) := by
      rw [Service.connection, hid, hfound]
    rw [onRecv_eq env hd hping, hconnection]
    dsimp only
    cases hr : (svc.connections i).receive d env.now with
    | mk c frame =>
      rw [hr] at hset
      cases frame with
      | none => exact hset
      | some frame => exact hset.refillSpare d.connId env.spare

end Service

/-! ### What keeps a connection -/

theorem parse_keepalive {connId : Nat} (h : connId < 2 ^ 32) :
    Datagram.parse (keepalive connId) = some ⟨connId, 0, 0, 0, []⟩ := by
  have hparse := parse_packet connId 0 [] 0
  rw [Nat.mod_eq_of_lt h] at hparse
  rw [keepalive, ← List.append_nil (be32 connId ++ be32 0 ++ be32 0 ++ be32 0)]
  exact hparse

/-- A keepalive is the last activity of its connection. -/
theorem Service.Only.onRecv_keepalive {svc : Service} {connId : Nat} {P : Int → Prop}
    (h : svc.Only connId P) (hne : connId ≠ 0) (hlt : connId < 2 ^ 32) (env : ServiceEnv) :
    (P2p.onRecv svc (keepalive connId) env).1.Only connId (· = env.now) :=
  h.onRecv_own env (parse_keepalive hlt) rfl fun hping ↦ hne hping.1

theorem mem_keepalives {cam : CameraSession} {connId : Nat} (h : Path.Holds cam connId)
    (hne : connId ≠ 0) : keepalive connId ∈ cam.keepalives := by
  obtain ⟨i, hi, hactive, rfl⟩ := h
  refine List.mem_filterMap.mpr ⟨i, List.mem_range.mpr hi, ?_⟩
  simp [hactive, hne]

namespace Path

variable {period delay connId : Nat} {w t : Path}

/-- A connection with this last activity is not forgotten: a keepalive is on its way to it, or the
thread sends one in time. -/
def Kept (period connId : Nat) (w : Path) (lastActivity : Int) : Prop :=
  (∃ p ∈ w.transit, p.2 = keepalive connId ∧ p.1 ≤ lastActivity + 5 * period) ∨
    w.woken + (5 - w.perConnKick) * period ≤ lastActivity + 5 * period

/-- What holds all along while everything is in time. -/
structure Alive (period delay connId : Nat) (w : Path) : Prop where
  holds : Holds w.cam connId
  connected : w.connected = true
  kick : w.perConnKick < 5
  woken : w.woken ≤ w.now ∧ w.now ≤ w.woken + period
  transit : ∀ p ∈ w.transit, p.2 = keepalive connId → w.now ≤ p.1 + delay
  kept : w.svc.Only connId (Kept period connId w)

theorem Opened.alive (h : w.Opened period connId) : w.Alive period delay connId where
  holds := h.holds
  connected := h.connected
  kick := h.kick
  woken := h.woken
  transit p hp hkeepalive := absurd hkeepalive (h.transit p hp)
  kept := ⟨0, fun _ hj hactive hid ↦
    absurd hid (Service.findConnection_eq_none h.unknown hj hactive)⟩

/-- The next keepalive is in time for what is active now. -/
theorem Alive.next_le (h : w.Alive period delay connId) :
    w.woken + (5 - w.perConnKick) * period ≤ w.now + 5 * period := by
  have hwoken := h.woken.1
  have hkick : (5 - w.perConnKick : Int) * period ≤ 5 * period :=
    Int.mul_le_mul_of_nonneg_right (by omega) (Int.natCast_nonneg _)
  omega

/-- A connection that is kept is not old. -/
theorem Alive.age_le (h : w.Alive period delay connId) {lastActivity : Int}
    (hkept : Kept period connId w lastActivity) :
    w.now - lastActivity ≤ 5 * period + delay := by
  rcases hkept with ⟨p, hp, hkeepalive, hsent⟩ | hnext
  · have hdelay := h.transit p hp hkeepalive
    omega
  · have hwoken := h.woken.2
    have hkick := h.kick
    have hround : (1 : Int) * period ≤ (5 - w.perConnKick) * period :=
      Int.mul_le_mul_of_nonneg_right (by omega) (Int.natCast_nonneg _)
    omega

/-- What is sent is not late. -/
private theorem transit_send (h : w.Alive period delay connId) (sent : List Bytes) :
    ∀ p ∈ (w.send sent).transit, p.2 = keepalive connId → w.now ≤ p.1 + delay := by
  intro p hp hkeepalive
  rcases List.mem_append.mp hp with hp | hp
  · exact h.transit p hp hkeepalive
  · obtain ⟨data, -, rfl⟩ := List.mem_map.mp hp
    exact Int.le_add_of_nonneg_right (Int.natCast_nonneg _)

/-- A round of the thread brings the next keepalive nearer, or sends it. -/
private theorem Alive.round (h : w.Alive period delay connId) (hne : connId ≠ 0)
    (hs : w.step .round = some t) : t.Alive period delay connId := by
  have hnow := h.woken.2
  have hkick := h.kick
  have hawake : w.now ≤ w.now ∧ w.now ≤ w.now + period :=
    ⟨Int.le_refl _, Int.le_add_of_nonneg_right (Int.natCast_nonneg _)⟩
  simp only [Path.step, if_pos h.connected, CameraSession.keepaliveRound] at hs
  split at hs
  · cases hs
    refine ⟨h.holds, h.connected, Nat.zero_lt_succ 4, hawake, transit_send h _,
      h.kept.mono fun lastActivity hkept ↦ .inl ?_⟩
    rcases hkept with ⟨p, hp, hkeepalive, hsent⟩ | hnext
    · exact ⟨p, List.mem_append_left _ hp, hkeepalive, hsent⟩
    · have hfour : w.perConnKick = 4 := by omega
      rw [hfour] at hnext
      have hsent : w.now ≤ lastActivity + 5 * period := by omega
      exact ⟨(w.now, keepalive connId), List.mem_append_right _
        (List.mem_map_of_mem (List.mem_cons_of_mem _ (mem_keepalives h.holds hne))), rfl, hsent⟩
  · next hearly =>
    cases hs
    refine ⟨h.holds, h.connected, Nat.lt_of_not_le hearly, hawake, transit_send h _,
      h.kept.mono fun lastActivity hkept ↦ ?_⟩
    rcases hkept with ⟨p, hp, hkeepalive, hsent⟩ | hnext
    · exact .inl ⟨p, List.mem_append_left _ hp, hkeepalive, hsent⟩
    · have hround : (5 - w.perConnKick : Int) = (5 - (w.perConnKick + 1 : Nat)) + 1 := by omega
      rw [hround, Int.add_mul, Int.one_mul] at hnext
      have hnearer : w.now + (5 - (w.perConnKick + 1 : Nat)) * period ≤
          lastActivity + 5 * period := by omega
      exact .inr hnearer

/-- What was on its way still is when something else has come. -/
private theorem mem_eraseIdx_of_ne {transit : List (Int × Bytes)} {k : Nat} {p q : Int × Bytes}
    (hp : p ∈ transit) (hk : transit[k]? = some q) (hne : q ≠ p) : p ∈ transit.eraseIdx k := by
  obtain ⟨i, hi⟩ := List.getElem?_of_mem hp
  refine List.mem_eraseIdx_iff_getElem?.mpr ⟨i, ?_, hi⟩
  rintro rfl
  exact hne (Option.some.inj (hk.symm.trans hi))

/-- What arrives is a keepalive of the connection, or it leaves them on their way. -/
private theorem Alive.deliver (h : w.Alive period delay connId) (hne : connId ≠ 0)
    (hlt : connId < 2 ^ 32) {k : Nat} {env : ServiceEnv} (hs : w.step (.deliver k env) = some t) :
    t.Alive period delay connId := by
  simp only [Path.step] at hs
  split at hs
  · cases hs
  · next sent data hk =>
    split at hs
    · next hnow =>
      cases hs
      refine ⟨h.holds, h.connected, h.kick, h.woken,
        fun p hp ↦ h.transit p (List.mem_of_mem_eraseIdx hp), ?_⟩
      by_cases hown : data = keepalive connId
      · have hlast := h.kept.onRecv_keepalive hne hlt env
        rw [← hown, hnow] at hlast
        refine hlast.mono ?_
        rintro _ rfl
        exact .inr h.next_le
      · refine (h.kept.mono ?_).onRecv data ?_
        · rintro lastActivity (⟨p, hp, hkeepalive, hsent⟩ | hnext)
          · refine .inl ⟨p, mem_eraseIdx_of_ne hp hk ?_, hkeepalive, hsent⟩
            rintro rfl
            exact hown hkeepalive
          · exact .inr hnext
        · rw [hnow]
          exact .inr h.next_le
    · cases hs

/-- Every step in time keeps it. -/
theorem Alive.step (h : w.Alive period delay connId) (hne : connId ≠ 0) (hlt : connId < 2 ^ 32)
    {l : PathEvent} (hl : Timely period delay connId w l) (hs : w.step l = some t) :
    t.Alive period delay connId := by
  cases l with
  | wait seconds =>
    cases hs
    have hwoken := h.woken.1
    exact ⟨h.holds, h.connected, h.kick, ⟨by dsimp only; omega, hl.1⟩, hl.2, h.kept⟩
  | round => exact h.round hne hs
  | consumer cam connected sent =>
    cases hs
    refine ⟨hl.1, hl.2, h.kick, h.woken, transit_send h sent, h.kept.mono ?_⟩
    rintro lastActivity (⟨p, hp, hkept⟩ | hnext)
    · exact .inl ⟨p, List.mem_append_left _ hp, hkept⟩
    · exact .inr hnext
  | deliver k env => exact h.deliver hne hlt hs
  | lose k =>
    cases hs
    refine ⟨h.holds, h.connected, h.kick, h.woken,
      fun p hp ↦ h.transit p (List.mem_of_mem_eraseIdx hp), h.kept.mono ?_⟩
    rintro lastActivity (⟨p, hp, hkeepalive, hsent⟩ | hnext)
    · refine .inl ⟨p, ?_, hkeepalive, hsent⟩
      cases hk : w.transit[k]? with
      | none => rwa [List.eraseIdx_of_length_le (List.getElem?_eq_none_iff.mp hk)]
      | some q =>
        refine mem_eraseIdx_of_ne hp hk ?_
        rintro rfl
        exact hl (by rw [hk, Option.map_some, hkeepalive])
    · exact .inr hnext
  | close i =>
    cases hs
    exact ⟨h.holds, h.connected, h.kick, h.woken, h.transit, h.kept.closeConnection i⟩
  | reset =>
    cases hs
    exact ⟨h.holds, h.connected, h.kick, h.woken, h.transit, h.kept.reset⟩
  | cleanup =>
    cases hs
    exact ⟨h.holds, h.connected, h.kick, h.woken, h.transit, h.kept.cleanup w.now⟩

/-- While the thread comes round in time and its keepalives arrive in time, the provider's cleanup
never closes the connection, however long nothing else is sent on it, as long as five periods and
the delay are no more than the time after which it does. -/
theorem cleanup_keeps_of_timely {w₀ : Path}
    (hslack : (5 * period + delay : Int) ≤ reassemblyTimeout) (hne : connId ≠ 0)
    (hlt : connId < 2 ^ 32) (h₀ : w₀.Opened period connId) {ls : List PathEvent}
    (ht : Always Path.step (Timely period delay connId) w₀ ls)
    (hr : run Path.step w₀ ls = some w) {i : Nat} (hi : i < maxConnections)
    (hactive : (w.svc.connections i).active = true)
    (hid : (w.svc.connections i).connId = connId) :
    (w.svc.cleanup w.now).connections i = w.svc.connections i := by
  have halive := invariant_run Path.step (fun _ _ _ hl h hs ↦ Alive.step h hne hlt hl hs) ht
    h₀.alive hr
  obtain ⟨s, hs⟩ := halive.kept
  have hage := halive.age_le (hs i hi hactive hid).2
  rw [Service.cleanup]
  dsimp only
  rw [if_neg]
  rintro ⟨-, -, hold⟩
  omega

/-- A client has sent one request, and from then on it only listens. -/
def listening : Path where
  cam := { CameraSession.start with connections := fun i ↦
    if i = 0 then { Connection.zero with connId := 1, active := true } else .zero }
  connected := true
  perConnKick := 0
  svc := .start
  transit := [(0, packet 1 0 (lit "GET") 0)]
  now := 0
  woken := 0

/-- The request comes, and one minute passes. -/
def oneMinute : List PathEvent :=
  let rounds := (List.replicate 5 [PathEvent.wait 5, .round]).flatten
  [.deliver 0 serviceEnv] ++ rounds ++ [.wait 2, .deliver 5 { serviceEnv with now := 27 }, .wait 3,
    .round] ++ (List.replicate 4 [PathEvent.wait 5, .round]).flatten ++ [.wait 4,
    .deliver 10 { serviceEnv with now := 54 }]

theorem cleanup_keeps_of_timely_oneMinute : ∃ w, run Path.step listening oneMinute = some w ∧
    w.now = 54 ∧ (w.svc.connections 0).active = true ∧
      (w.svc.cleanup w.now).connections 0 = w.svc.connections 0 := by
  obtain ⟨w, hr, hnow, hactive, hid⟩ : ∃ w, run Path.step listening oneMinute = some w ∧
      w.now = 54 ∧ (w.svc.connections 0).active = true ∧ (w.svc.connections 0).connId = 1 :=
    exists_run _ _ (by decide +kernel)
  have h₀ : listening.Opened 5 1 :=
    ⟨by decide, rfl, by decide, by decide, by decide +kernel, by decide +kernel⟩
  have ht : Always Path.step (Timely 5 5 1) listening oneMinute := by decide +kernel
  exact ⟨w, hr, hnow, hactive, cleanup_keeps_of_timely (by decide) (by decide) (by decide) h₀ ht hr
    (by decide) hactive hid⟩

end Path

end Kitty.P2p
