import Kitty.P2p.Bounds

/-!
# Datagrams with a useless size

`on_recv` on a datagram whose size is zero, as the consumer's keepalives of a connection have it, or
larger than the buffer; `src/provider-srt/_legacy_libjuice_provider_configurable.c:729–889`. The
comment at `src/consumer-srt-cloud/_legacy_libjuice_consumer_api.c:1337–1346` counts on such a
datagram only showing that the connection is alive. The connection is looked up, and made, before
the size is looked at.
-/

namespace Kitty.P2p

open Kitty.Base

/-- The size of a datagram is not that of a frame the provider takes. -/
def Datagram.Useless (d : Datagram) : Prop := d.totalSize = 0 ∨ bufferSize < d.totalSize

namespace Service

/-- The connection of a datagram is marked as alive, and nothing else happens. -/
def touch (svc : Service) (d : Datagram) (now : Int) : Service :=
  match svc.findConnection d.connId with
  | some i =>
    svc.setConnection i { svc.connections i with lastActivity := now, lastSeqNum := d.seqNum }
  | none => svc

/-- Whether the local service is dialled for a datagram. -/
def dials (svc : Service) (d : Datagram) (env : ServiceEnv) : Bool :=
  (svc.findConnection d.connId).isNone && d.offset == 0 &&
    ((svc.createConnection d.connId env.buffers env.now).findConnection d.connId).isSome

/-- Whatever the system calls return, the datagram does nothing but mark its connection. -/
def Inert (svc : Service) (data : Bytes) (d : Datagram) : Prop :=
  ∀ env, onRecv svc data env = (svc.touch d env.now, .none) ∧ svc.dials d env = false

/-- No connection can be made. -/
def Full (svc : Service) : Prop := ∀ i < maxConnections, (svc.connections i).active = true

/-- A full service makes no connection. -/
theorem createConnection_full {svc : Service} (h : svc.Full) (connId : Nat)
    (buffers : Option (Buffer UInt8 × Buffer UInt8)) (now : Int) :
    svc.createConnection connId buffers now = svc := by
  have hnone : (List.range maxConnections).find? (fun i ↦ !(svc.connections i).active) = none := by
    rw [List.find?_eq_none]
    intro i hi
    simp [h i (List.mem_range.mp hi)]
  simp [createConnection, hnone]

/-- With a free slot and memory a connection is made. -/
theorem findConnection_createConnection {svc : Service} (h : ¬ svc.Full) (connId : Nat)
    (bufs : Buffer UInt8 × Buffer UInt8) (now : Int) :
    ((svc.createConnection connId (some bufs) now).findConnection connId).isSome = true := by
  obtain ⟨k, hk, hfree⟩ : ∃ k < maxConnections, (svc.connections k).active = false := by
    simpa [Full] using h
  have hsome : ((List.range maxConnections).find? fun i ↦ !(svc.connections i).active).isSome := by
    rw [List.find?_isSome]
    exact ⟨k, List.mem_range.mpr hk, by simp [hfree]⟩
  obtain ⟨i, hi⟩ := Option.isSome_iff_exists.mp hsome
  have hlt := List.mem_range.mp (List.mem_of_find?_eq_some hi)
  rw [findConnection, List.find?_isSome]
  refine ⟨i, List.mem_range.mpr hlt, ?_⟩
  simp [createConnection, hi, setConnection]

end Service

/-- On a connection that is there, such a datagram only counts as a sign of life. -/
theorem ServiceConnection.receive_useless {c : ServiceConnection} (hc : c.Bounded) {d : Datagram}
    (hd : d.Useless) (now : Int) :
    c.receive d now = ({ c with lastActivity := now, lastSeqNum := d.seqNum }, none) := by
  have hacc : c.accepts d = false := by
    rw [Bool.eq_false_iff]
    intro ha
    rw [Reassembly.accepts_eq, Bool.and_eq_true, Reassembly.inRange_iff] at ha
    obtain ⟨⟨heq, -, hlt, -, -⟩, -⟩ := ha
    have hsize := hc.size
    rcases hd with hd | hd <;> omega
  unfold ServiceConnection.receive
  by_cases h0 : d.offset = 0
  · exact if_pos ⟨h0, hd⟩
  · simp only [h0, false_and, if_false]
    split
    · rfl
    · unfold ServiceConnection.store
      rw [if_neg]
      intro h
      have : c.accepts d = true := h
      simp [hacc] at this

/-- Exactly when the datagram is inert: it does not open a connection, its connection exists, or
there is no room for one. -/
theorem inert_iff {events : List ServiceEvent} {svc : Service}
    (hr : run Service.step .start events = some svc) {data : Bytes} {d : Datagram}
    (hd : Datagram.parse data = some d) (hid : d.connId ≠ 0) (hbad : d.Useless) :
    svc.Inert data d ↔ d.offset ≠ 0 ∨ (svc.findConnection d.connId).isSome = true ∨ svc.Full := by
  have hbounded := Service.bounded_run hr
  constructor
  · intro h
    by_contra hnot
    simp only [not_or, not_not, Bool.not_eq_true, Option.isSome_eq_false_iff] at hnot
    obtain ⟨h0, hnone, hfree⟩ := hnot
    have hdial := (h serviceEnv).2
    have hmade := Service.findConnection_createConnection hfree d.connId
      (fun _ ↦ 0, fun _ ↦ 0) serviceEnv.now
    simp only [Service.dials, hnone, h0, serviceEnv, beq_self_eq_true, Bool.true_and] at hdial
    rw [serviceEnv, hdial] at hmade
    cases hmade
  · intro h env
    have hrecv : onRecv svc data env = _ := onRecv_eq env hd fun h ↦ hid h.1
    cases hf : svc.findConnection d.connId with
    | some i =>
      have hc : svc.connection d env = (svc, some i) := by simp [Service.connection, hf]
      rw [hrecv, hc]
      simp only [ServiceConnection.receive_useless (hbounded i) hbad env.now]
      simp [Service.touch, Service.dials, hf]
    | none =>
      have hc : svc.connection d env = (svc, none) := by
        by_cases h0 : d.offset = 0
        · have hfull : svc.Full := by simpa [h0, hf] using h
          simp [Service.connection, hf, h0, Service.createConnection_full hfull]
        · simp [Service.connection, hf, h0]
      have hdial : svc.dials d env = false := by
        by_cases h0 : d.offset = 0
        · have hfull : svc.Full := by simpa [h0, hf] using h
          simp [Service.dials, Service.createConnection_full hfull, hf]
        · simp [Service.dials, h0]
      rw [hrecv, hc]
      exact ⟨by simp [Service.touch, hf], hdial⟩

/-- The keepalive of one connection, as the consumer builds it. -/
def keepalive (connId : Nat) : Bytes := be32 connId ++ be32 0 ++ be32 0 ++ be32 0

/-- The keepalive of a connection the provider has. -/
theorem inert_iff_keepalive : ∃ svc, run Service.step .start oneCall = some svc ∧
    svc.Inert (keepalive 1) ⟨1, 0, 0, 0, []⟩ := by
  have hrun : ∃ svc, run Service.step .start oneCall = some svc ∧
      (svc.findConnection 1).isSome = true :=
    exists_run _ _ (by decide +kernel)
  obtain ⟨svc, hr, hfound⟩ := hrun
  have hd : Datagram.parse (keepalive 1) = some ⟨1, 0, 0, 0, []⟩ := rfl
  exact ⟨svc, hr, (inert_iff hr hd (by decide) (.inl rfl)).mpr (.inr (.inl hfound))⟩

/-- The keepalive of a connection the provider does not have: it makes the connection, dials the
local service, and only then looks at the size. -/
theorem keepalive_dials :
    Datagram.parse (keepalive 7) = some ⟨7, 0, 0, 0, []⟩ ∧
    Service.dials .start ⟨7, 0, 0, 0, []⟩ serviceEnv = true ∧
    (onRecv .start (keepalive 7) serviceEnv).1.findConnection 7 = some 0 ∧
    ¬ Service.Inert .start (keepalive 7) ⟨7, 0, 0, 0, []⟩ := by
  have hdial : Service.dials .start ⟨7, 0, 0, 0, []⟩ serviceEnv = true := by decide +kernel
  refine ⟨rfl, hdial, by decide +kernel, ?_⟩
  intro h
  have := (h serviceEnv).2
  rw [hdial] at this
  cases this

end Kitty.P2p
