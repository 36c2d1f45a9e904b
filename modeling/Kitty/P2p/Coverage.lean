import Kitty.Base.Coverage
import Kitty.P2p.Bounds

/-!
# Frames declared complete

Both programs call a frame complete when the bytes of its chunks add up to its size;
`src/consumer-srt-cloud/_legacy_libjuice_consumer_api.c:1026–1069` and
`src/provider-srt/_legacy_libjuice_provider_configurable.c:851–889`. The bitmap has one bit for the
chunks that start within the same `MAX_CHUNK_PAYLOAD` bytes, and a peer may send chunks of any
length, so two of them can overlap. The history of a run keeps the chunks accepted for each frame,
and what the callbacks hand over.
-/

namespace Kitty.P2p

open Kitty.Base

/-- A frame that was declared complete: its size, the chunks accepted for it, and what the callback
handed over, if anything. -/
structure Completion where
  size : Nat
  chunks : List Datagram
  frame : Option Bytes

/-- Every byte of the frame was written by a chunk of it, and is what that chunk says. -/
def Completion.Exact (c : Completion) : Prop :=
  (∀ x < c.size, ∃ d ∈ c.chunks, d.offset ≤ x ∧ x < d.offset + d.payload.length ∧
    ∀ frame, c.frame = some frame → frame[x]? = d.payload[x - d.offset]?) ∧
  ∀ frame, c.frame = some frame → frame.length = c.size

/-- The chunks accepted for the frame in each slot, and the frames completed so far. -/
structure History where
  chunks : Nat → List Datagram
  completed : List Completion

/-- Nothing was received. -/
def History.start : History := ⟨fun _ ↦ [], []⟩

/-- The block a chunk writes. -/
def Datagram.block (d : Datagram) : Nat × Bytes := (d.offset, d.payload)

/-- The chunks accepted before a datagram for the same frame. -/
def History.before (h : History) (i : Nat) (d : Datagram) : List Datagram :=
  if d.begins then [] else h.chunks i

/-- A datagram was looked at in a slot: the reassembly fields there before and after the callback,
whether its chunk was taken, and what the callback handed over. A frame is declared complete when it
is handed over, or when it is not expected any more. -/
def History.note (h : History) (i : Nat) (d : Datagram) (r after : Reassembly) (taken : Bool)
    (frame : Option Bytes) : History :=
  let size := (r.opened d).expectedSize
  let chunks := if taken then h.before i d ++ [d] else h.before i d
  if frame.isSome || size != 0 && after.expectedSize == 0 then
    ⟨Function.update h.chunks i [], h.completed ++ [⟨size, chunks, frame⟩]⟩
  else { h with chunks := Function.update h.chunks i chunks }

/-- The callback handed over a frame of no slot. -/
def History.stray (h : History) : Option Bytes → History
  | some frame => { h with completed := h.completed ++ [⟨frame.length, [], some frame⟩] }
  | none => h

/-- The block a provider's callback writes to a local socket. -/
def Reaction.block : Reaction → Option Bytes
  | .write _ block => some block
  | .none | .pong _ => Option.none

/-- A chunk that is accepted overlaps none accepted before for its frame. -/
def History.Apart (h : History) (i : Nat) (d : Datagram) (taken : Bool) : Prop :=
  taken = true → ∀ k ∈ h.before i d, ¬ Overlaps k.block d.block

instance (h : History) (i : Nat) (d : Datagram) (taken : Bool) : Decidable (h.Apart i d taken) :=
  inferInstanceAs (Decidable (_ → _))

/-- One event of a session, with the history. -/
def CameraSession.observe (w : CameraSession × History) (l : SessionEvent) :
    Option (CameraSession × History) :=
  (w.1.step l).map fun cam ↦ (cam, match l with
    | .recv data env =>
      let frame := (onRecvCamera w.1 data env).2.map (·.2)
      match w.1.reader data with
      | some (i, d) =>
        let c := w.1.connections i
        w.2.note i d c.toReassembly (cam.connections i).toReassembly (c.takes d) frame
      | none => w.2.stray frame
    | _ => w.2)

/-- One event of a service, with the history. -/
def Service.observe (w : Service × History) (l : ServiceEvent) : Option (Service × History) :=
  (w.1.step l).map fun svc ↦ (svc, match l with
    | .recv data env =>
      let frame := (onRecv w.1 data env).2.block
      match w.1.reader data env with
      | (before, some (i, d)) =>
        let c := before.connections i
        w.2.note i d c.toReassembly (svc.connections i).toReassembly (c.takes d) frame
      | (_, none) => w.2.stray frame
    | _ => w.2)

/-- The chunks of a session do not overlap. -/
def CameraSession.Apart (w : CameraSession × History) : SessionEvent → Prop
  | .recv data _ =>
    ∀ e ∈ w.1.reader data, w.2.Apart e.1 e.2 ((w.1.connections e.1).takes e.2)
  | _ => True

/-- The chunks of a service do not overlap. -/
def Service.Apart (w : Service × History) : ServiceEvent → Prop
  | .recv data env =>
    ∀ e ∈ (w.1.reader data env).2,
      w.2.Apart e.1 e.2 (((w.1.reader data env).1.connections e.1).takes e.2)
  | _ => True

/-! ### One slot -/

/-- While a frame is in progress, the buffer holds its chunks. -/
def Building (chunks : List Datagram) (r : Reassembly) : Prop :=
  r.expectedSize ≠ 0 → ∀ buf, r.reassemblyBuffer = some buf →
    Assembled (chunks.map Datagram.block) r.expectedSize buf r.bytesReceived

theorem kept_building (chunks : List Datagram) : Kept (Building chunks) where
  fresh r he _ _ hne := absurd he hne
  givenUp r _ hne := absurd rfl hne
  closed r _ _ buf hbuf := by cases hbuf
  spare r _ h := h

namespace Reassembly

/-- What is handed over is read from the buffer. -/
theorem finish_some {r : Reassembly} {sock : Int} {frame : Bytes}
    (h : (r.finish sock).2 = some frame) :
    ∃ buf, r.reassemblyBuffer = some buf ∧ frame = readBuffer buf r.expectedSize := by
  unfold Reassembly.finish at h
  split at h
  · next buf spare hbuf hspare =>
    split at h
    · exact ⟨buf, hbuf, (Option.some.inj h).symm⟩
    · cases h
  · cases h

/-- A chunk is turned away, is one more of its frame, or completes it. -/
theorem stored_cases (r : Reassembly) (d : Datagram) (taken : Bool) (sock : Int) :
    r.stored d taken sock = (if taken then r.copy d else r, none) ∨
      taken = true ∧ (r.copy d).full = true ∧
        r.stored d taken sock = (r.copy d).finish sock := by
  unfold Reassembly.stored
  cases taken with
  | false => exact .inl rfl
  | true =>
    by_cases hfull : (r.copy d).full = true
    · exact .inr ⟨rfl, hfull, by rw [if_pos rfl, if_pos hfull]⟩
    · exact .inl (by rw [if_pos rfl, if_pos rfl, if_neg hfull])

end Reassembly

theorem Building.opened {h : History} {i : Nat} {r : Reassembly} (hb : Building (h.chunks i) r)
    (d : Datagram) : Building (h.before i d) (r.opened d) := by
  unfold History.before Reassembly.opened
  cases d.begins with
  | false => exact hb
  | true => exact fun _ buf _ ↦ Assembled.empty _ buf

/-- A chunk over none of the others is one more of the frame. -/
theorem Building.copy {chunks : List Datagram} {r : Reassembly} (hb : Building chunks r)
    (hr : r.Bounded) {d : Datagram} (hexp : r.expectedSize ≠ 0) (hacc : r.accepts d = true)
    (hapart : ∀ k ∈ chunks, ¬ Overlaps k.block d.block) :
    Building (chunks ++ [d]) (r.copy d) := by
  intro _ buf' hbuf'
  obtain ⟨buf, hbuf, rfl⟩ := Option.map_eq_some_iff.mp hbuf'
  have hcount := hr.count_add hacc
  rw [Reassembly.accepts_eq, Bool.and_eq_true, Reassembly.inRange_iff] at hacc
  obtain ⟨⟨hsize, -, -, hend, -⟩, -⟩ := hacc
  have hwrite := (hb hexp buf hbuf).write (w := d.block) (by rw [← hsize]; exact hend)
    (by simpa using hapart)
  simp only [Reassembly.copy, Nat.mod_eq_of_lt hcount, List.map_append, List.map_singleton]
  exact hwrite

/-- A frame that is complete by count, with no two chunks over each other, is complete. -/
theorem Building.exact {chunks : List Datagram} {r : Reassembly} (hb : Building chunks r)
    (hexp : r.expectedSize ≠ 0) {buf : Buffer UInt8} (hbuf : r.reassemblyBuffer = some buf)
    (hfull : r.full = true) {sock : Int} {handed : Option Bytes}
    (hhanded : ∀ frame, handed = some frame → (r.finish sock).2 = some frame) :
    (⟨r.expectedSize, chunks, handed⟩ : Completion).Exact := by
  have ha := hb hexp buf hbuf
  rw [Reassembly.full, decide_eq_true_iff] at hfull
  have hframe : ∀ frame, handed = some frame → frame = readBuffer buf r.expectedSize := by
    intro frame hf
    obtain ⟨buf', hbuf', rfl⟩ := Reassembly.finish_some (hhanded frame hf)
    rw [hbuf] at hbuf'
    rw [Option.some.inj hbuf']
  constructor
  · intro x hx
    obtain ⟨w, hw, hle, hlt⟩ := ha.covered hfull hx
    obtain ⟨d, hd, rfl⟩ := List.mem_map.mp hw
    refine ⟨d, hd, hle, hlt, ?_⟩
    intro frame hf
    rw [hframe frame hf]
    exact ha.read hw hle hlt
  · intro frame hf
    rw [hframe frame hf, length_readBuffer]

/-! ### What is handed over -/

/-- What `on_recv_camera` passes to `dispatch_enqueue` for a connection. -/
theorem onRecvCamera_handed {cam : CameraSession} {data : Bytes} {i : Nat} {d : Datagram}
    (env : RecvEnv) (h : cam.reader data = some (i, d)) :
    (onRecvCamera cam data env).2 = (cam.connections i).handed d env := by
  obtain ⟨hact, hd, hbeat, hi⟩ := CameraSession.reader_some h
  simp only [onRecvCamera, hact, hd, hbeat, hi, Bool.not_true, Bool.false_eq_true, if_false,
    Connection.handed]
  rcases (cam.connections i).receive d env.now with ⟨c, _ | frame⟩ <;> rfl

theorem onRecvCamera_handed_none {cam : CameraSession} {data : Bytes} (env : RecvEnv)
    (h : cam.reader data = none) : (onRecvCamera cam data env).2 = none := by
  unfold CameraSession.reader at h
  unfold onRecvCamera
  split
  · rfl
  · next hact =>
    rw [if_neg hact] at h
    split
    · rfl
    · next d hd =>
      simp only [hd] at h
      split
      · rfl
      · next hbeat =>
        rw [if_neg hbeat, Option.map_eq_none_iff] at h
        rw [h]

theorem onRecv_block_none {svc svc' : Service} {data : Bytes} {env : ServiceEnv}
    (h : svc.reader data env = (svc', none)) : (onRecv svc data env).2.block = none := by
  unfold Service.reader at h
  unfold onRecv
  generalize Datagram.parse data = parsed at h ⊢
  cases parsed with
  | none => rfl
  | some d =>
    dsimp only at h ⊢
    split at h
    · next hbeat =>
      rw [if_pos hbeat]
      dsimp only
      split <;> rfl
    · next hbeat =>
      have hnone := Option.map_eq_none_iff.mp (congrArg Prod.snd h)
      rw [if_neg hbeat]
      rcases hc : svc.connection d env with ⟨svc'', slot⟩
      rw [hc] at hnone
      rw [show slot = none from hnone]
      rfl

/-- Only a frame that was put together is written to the local socket. -/
theorem receive_of_onRecv_block {svc svc' : Service} {data : Bytes} {env : ServiceEnv} {i : Nat}
    {d : Datagram} (h : svc.reader data env = (svc', some (i, d))) {frame : Bytes}
    (hf : (onRecv svc data env).2.block = some frame) :
    ((svc'.connections i).receive d env.now).2 = some frame := by
  obtain ⟨hd, hbeat, hc⟩ := Service.reader_some h
  simp only [onRecv_eq env hd hbeat, hc] at hf
  rcases hr : (svc'.connections i).receive d env.now with ⟨c, _ | block⟩
  · simp [hr, Reaction.block] at hf
  · simp only [hr] at hf
    split at hf
    · exact hf
    · cases hf

/-! ### One datagram -/

namespace History

theorem note_chunks_of_ne (h : History) {i j : Nat} (hj : j ≠ i) (d : Datagram)
    (r after : Reassembly) (taken : Bool) (frame : Option Bytes) :
    (h.note i d r after taken frame).chunks j = h.chunks j := by
  simp only [History.note]
  split <;> exact Function.update_of_ne hj _ _

variable {h : History} {i : Nat} {d : Datagram} {r after : Reassembly} {taken : Bool} {sock : Int}
  {frame : Option Bytes}

/-- A datagram that completes no frame adds its chunk, if it was taken. -/
theorem note_open
    (hstored : (r.opened d).stored d taken sock =
      (if taken then (r.opened d).copy d else r.opened d, none))
    (hslot : ∃ s, after = { ((r.opened d).stored d taken sock).1 with spareBuffer := s })
    (hframe : ∀ f, frame = some f → ((r.opened d).stored d taken sock).2 = some f) :
    h.note i d r after taken frame = { h with
      chunks := Function.update h.chunks i
        (if taken then h.before i d ++ [d] else h.before i d) } := by
  have hnone : frame = none := by
    cases frame with
    | none => rfl
    | some f =>
      have hsome := hframe f rfl
      rw [hstored] at hsome
      cases hsome
  have hsize : after.expectedSize = (r.opened d).expectedSize := by
    obtain ⟨s, rfl⟩ := hslot
    rw [hstored]
    cases taken <;> rfl
  simp only [note, hnone, hsize]
  rw [if_neg]
  simp

/-- The slot of a datagram holds the chunks of its frame afterwards. `after` is what the callback
leaves, up to the spare buffer. -/
theorem building_note (hb : Building (h.chunks i) r) (hr : r.Bounded)
    (ht : taken = true → r.Taking d) (hapart : h.Apart i d taken)
    (hslot : ∃ s, after = { ((r.opened d).stored d taken sock).1 with spareBuffer := s })
    (hframe : ∀ f, frame = some f → ((r.opened d).stored d taken sock).2 = some f) :
    Building ((h.note i d r after taken frame).chunks i) after := by
  have hopened := hb.opened d
  rcases (r.opened d).stored_cases d taken sock with hopen | ⟨rfl, hfull, hfinish⟩
  · rw [note_open hopen hslot hframe]
    obtain ⟨s, rfl⟩ := hslot
    apply (kept_building _).spare
    simp only [hopen, Function.update_self]
    cases taken with
    | false => exact hopened
    | true =>
      have htaking := ht rfl
      exact hopened.copy (hr.opened d) htaking.expected htaking.accepts (hapart rfl)
  · obtain ⟨s, rfl⟩ := hslot
    rw [hfinish]
    exact fun hne ↦ absurd (Reassembly.finish_expectedSize _ _) hne

/-- All the slots do, when the datagram changes no other but for spare buffers. -/
theorem building_update (slots slots' : Nat → Reassembly)
    (hb : ∀ j, Building (h.chunks j) (slots j)) (hr : (slots i).Bounded)
    (ht : taken = true → (slots i).Taking d) (hapart : h.Apart i d taken)
    (hslot : ∀ j, ∃ s, slots' j =
      { (Function.update slots i (((slots i).opened d).stored d taken sock).1 j) with
        spareBuffer := s })
    (hframe : ∀ f, frame = some f → (((slots i).opened d).stored d taken sock).2 = some f)
    (j : Nat) :
    Building ((h.note i d (slots i) (slots' i) taken frame).chunks j) (slots' j) := by
  by_cases hj : j = i
  · subst hj
    have hself := hslot j
    rw [Function.update_self] at hself
    exact building_note (hb j) hr ht hapart hself hframe
  · obtain ⟨s, hs⟩ := hslot j
    rw [note_chunks_of_ne _ hj, hs, Function.update_of_ne hj]
    exact (kept_building _).spare _ _ (hb j)

/-- A frame that a datagram completes is complete. -/
theorem exact_note (hb : Building (h.chunks i) r) (hr : r.Bounded)
    (ht : taken = true → r.Taking d) (hapart : h.Apart i d taken)
    (hslot : ∃ s, after = { ((r.opened d).stored d taken sock).1 with spareBuffer := s })
    (hframe : ∀ f, frame = some f → ((r.opened d).stored d taken sock).2 = some f)
    (hdone : ∀ c ∈ h.completed, c.Exact) :
    ∀ c ∈ (h.note i d r after taken frame).completed, c.Exact := by
  rcases (r.opened d).stored_cases d taken sock with hopen | ⟨rfl, hfull, hfinish⟩
  · rw [note_open hopen hslot hframe]
    exact hdone
  · have htaking := ht rfl
    have hcopy := (hb.opened d).copy (hr.opened d) htaking.expected htaking.accepts (hapart rfl)
    obtain ⟨buf, hbuf⟩ := htaking.buffer
    have hcopied : ((r.opened d).copy d).reassemblyBuffer =
        some (memcpy buf d.offset d.payload) := by simp [Reassembly.copy, hbuf]
    rw [hfinish] at hframe
    have hexact := hcopy.exact htaking.expected hcopied hfull hframe
    intro c hc
    simp only [note] at hc
    split at hc
    · rcases List.mem_append.mp hc with hc | hc
      · exact hdone c hc
      · rw [List.mem_singleton.mp hc]
        exact hexact
    · exact hdone c hc

end History

/-! ### Whole runs -/

/-- The slots are bounded and hold the chunks of their frames, and the completed frames are
complete. -/
structure CameraSession.Covered (w : CameraSession × History) : Prop where
  bounded : w.1.Slots fun _ ↦ Reassembly.Bounded
  building : w.1.Slots fun i ↦ Building (w.2.chunks i)
  exact : ∀ c ∈ w.2.completed, c.Exact

structure Service.Covered (w : Service × History) : Prop where
  bounded : w.1.Slots fun _ ↦ Reassembly.Bounded
  building : w.1.Slots fun i ↦ Building (w.2.chunks i)
  exact : ∀ c ∈ w.2.completed, c.Exact

theorem CameraSession.Covered.step {w w' : CameraSession × History} {l : SessionEvent}
    (hc : CameraSession.Apart w l) (hw : CameraSession.Covered w)
    (h : CameraSession.observe w l = some w') : CameraSession.Covered w' := by
  obtain ⟨cam, hcam, rfl⟩ := Option.map_eq_some_iff.mp h
  have hbounded := CameraSession.bounded_step hw.bounded hcam
  cases l with
  | recv data env =>
    cases hcam
    cases hread : w.1.reader data with
    | none =>
      simp only [hread, onRecvCamera_handed_none env hread]
      refine ⟨hbounded, ?_, hw.exact⟩
      intro j
      simp only [onRecvCamera_reader_none env hread]
      exact hw.building j
    | some e =>
      obtain ⟨i, d⟩ := e
      have hreceive := (w.1.connections i).receive_reassembly d env.now
      have hapart : w.2.Apart i d ((w.1.connections i).takes d) := hc (i, d) hread
      have hframe : ∀ f, (onRecvCamera w.1 data env).2.map (·.2) = some f →
          (((w.1.connections i).toReassembly.opened d).stored d ((w.1.connections i).takes d)
            (w.1.connections i).localSocket).2 = some f := by
        intro f hf
        rw [onRecvCamera_handed env hread] at hf
        obtain ⟨p, hp, rfl⟩ := Option.map_eq_some_iff.mp hf
        rw [← hreceive]
        exact Connection.receive_of_handed hp
      have hslot : ∀ j, ∃ s, ((onRecvCamera w.1 data env).1.connections j).toReassembly =
          { (Function.update (fun j ↦ (w.1.connections j).toReassembly) i
            (((w.1.connections i).toReassembly.opened d).stored d ((w.1.connections i).takes d)
              (w.1.connections i).localSocket).1 j) with spareBuffer := s } := by
        intro j
        obtain ⟨s, hs⟩ := onRecvCamera_reader env hread j
        refine ⟨s, hs.trans ?_⟩
        rw [← hreceive, CameraSession.setConnection,
          Function.apply_update fun _ ↦ Connection.toReassembly]
        rfl
      have hself := hslot i
      rw [Function.update_self] at hself
      simp only [hread]
      generalize onRecvCamera w.1 data env = out at hbounded hframe hslot hself ⊢
      have hbuilding := History.building_update (fun j ↦ (w.1.connections j).toReassembly)
        (fun j ↦ (out.1.connections j).toReassembly) hw.building (hw.bounded i) Connection.taking
        hapart hslot hframe
      have hexact := History.exact_note (hw.building i) (hw.bounded i) Connection.taking hapart
        hself hframe hw.exact
      exact ⟨hbounded, hbuilding, hexact⟩
  | _ =>
    exact ⟨hbounded, hw.building.event (fun _ ↦ kept_building _) (by simp) hcam, hw.exact⟩

theorem Service.Covered.step {w w' : Service × History} {l : ServiceEvent}
    (hc : Service.Apart w l) (hw : Service.Covered w) (h : Service.observe w l = some w') :
    Service.Covered w' := by
  obtain ⟨svc, hsvc, rfl⟩ := Option.map_eq_some_iff.mp h
  have hbounded := Service.bounded_step hw.bounded hsvc
  cases l with
  | recv data env =>
    cases hsvc
    have hbnd := hw.bounded.reader (fun _ ↦ kept_bounded) data env
    have hbld := hw.building.reader (fun _ ↦ kept_building _) data env
    simp only [Service.Apart] at hc
    cases hread : w.1.reader data env with
    | mk svc slot =>
      rw [hread] at hbnd hbld hc
      cases slot with
      | none =>
        simp only [hread, onRecv_block_none hread]
        refine ⟨hbounded, ?_, hw.exact⟩
        simp only [onRecv_reader_none hread]
        exact hbld
      | some e =>
        obtain ⟨i, d⟩ := e
        have hreceive := (svc.connections i).receive_reassembly d env.now
        have hapart : w.2.Apart i d ((svc.connections i).takes d) := hc (i, d) rfl
        have hframe : ∀ f, (onRecv w.1 data env).2.block = some f →
            (((svc.connections i).toReassembly.opened d).stored d ((svc.connections i).takes d)
              (svc.connections i).localSocket).2 = some f := by
          intro f hf
          rw [← hreceive]
          exact receive_of_onRecv_block hread hf
        have hslot : ∀ j, ∃ s, ((onRecv w.1 data env).1.connections j).toReassembly =
            { (Function.update (fun j ↦ (svc.connections j).toReassembly) i
              (((svc.connections i).toReassembly.opened d).stored d ((svc.connections i).takes d)
                (svc.connections i).localSocket).1 j) with spareBuffer := s } := by
          intro j
          obtain ⟨s, hs⟩ := onRecv_reader hread j
          refine ⟨s, hs.trans ?_⟩
          rw [← hreceive, Service.setConnection,
            Function.apply_update fun _ ↦ ServiceConnection.toReassembly]
          rfl
        have hself := hslot i
        rw [Function.update_self] at hself
        simp only [hread]
        generalize onRecv w.1 data env = out at hbounded hframe hslot hself ⊢
        have hbuilding := History.building_update (fun j ↦ (svc.connections j).toReassembly)
          (fun j ↦ (out.1.connections j).toReassembly) hbld (hbnd i) ServiceConnection.taking
          hapart hslot hframe
        have hexact := History.exact_note (hbld i) (hbnd i) ServiceConnection.taking hapart hself
          hframe hw.exact
        exact ⟨hbounded, hbuilding, hexact⟩
  | _ =>
    exact ⟨hbounded, hw.building.event (fun _ ↦ kept_building _) (by simp) hsvc, hw.exact⟩

/-- While no accepted chunk overlaps another of its frame, every byte of a frame declared complete
was written by a chunk accepted for that frame, in both programs. -/
theorem exact_coverage {events : List SessionEvent} {cam : CameraSession × History}
    (hc : Always CameraSession.observe CameraSession.Apart (.start, .start) events)
    (hr : run CameraSession.observe (.start, .start) events = some cam)
    {calls : List ServiceEvent} {svc : Service × History}
    (hc' : Always Service.observe Service.Apart (.start, .start) calls)
    (hr' : run Service.observe (.start, .start) calls = some svc) :
    (∀ c ∈ cam.2.completed, c.Exact) ∧ ∀ c ∈ svc.2.completed, c.Exact := by
  have hcam : CameraSession.Covered (.start, .start) :=
    ⟨CameraSession.slots_start fun _ ↦ kept_bounded,
      CameraSession.slots_start fun _ ↦ kept_building _, by simp [History.start]⟩
  have hsvc : Service.Covered (.start, .start) :=
    ⟨Service.slots_start fun _ ↦ kept_bounded, Service.slots_start fun _ ↦ kept_building _,
      by simp [History.start]⟩
  exact ⟨(invariant_run _ (fun _ _ _ h hi hs ↦ hi.step h hs) hc hcam hr).exact,
    (invariant_run _ (fun _ _ _ h hi hs ↦ hi.step h hs) hc' hsvc hr').exact⟩

/-- The run of a session can be checked. -/
instance (w : CameraSession × History) (l : SessionEvent) : Decidable (CameraSession.Apart w l) :=
  match l with
  | .recv _ _ => inferInstanceAs (Decidable (∀ e ∈ CameraSession.reader _ _, _))
  | .accept _ _ _ => .isTrue trivial
  | .close _ => .isTrue trivial
  | .cleanup _ => .isTrue trivial
  | .reconnect => .isTrue trivial
  | .free => .isTrue trivial
  | .allocate => .isTrue trivial

instance (w : Service × History) (l : ServiceEvent) : Decidable (Service.Apart w l) :=
  match l with
  | .recv _ _ => inferInstanceAs (Decidable (∀ e ∈ Prod.snd _, _))
  | .close _ => .isTrue trivial
  | .cleanup _ => .isTrue trivial
  | .reset => .isTrue trivial

/-- A datagram of a peer that fills in the header as it likes. -/
def crafted (conn seq size offset : Nat) (payload : Bytes) : Bytes :=
  be32 conn ++ be32 seq ++ be32 size ++ be32 offset ++ payload

/-- The chunks of one frame for a client. -/
def forClient (chunks : List Bytes) : List SessionEvent :=
  .accept 5 (some (fun _ ↦ 0, fun _ ↦ 0)) 0 :: chunks.map (.recv · ⟨0, 6, none⟩)

/-- The chunks of one frame for a new connection. -/
def forService (chunks : List Bytes) : List ServiceEvent := chunks.map (.recv · serviceEnv)

/-- A frame in two chunks. -/
def twoChunks : List Bytes :=
  [crafted 1 0 1086 0 (List.replicate 1084 7), crafted 1 1 1086 1084 [8, 9]]

theorem exact_coverage_twoChunks : ∃ cam svc,
    run CameraSession.observe (.start, .start) (forClient twoChunks) = some cam ∧
    run Service.observe (.start, .start) (forService twoChunks) = some svc ∧
    cam.2.completed.length = 1 ∧ svc.2.completed.length = 1 ∧
    (∀ c ∈ cam.2.completed, c.Exact) ∧ ∀ c ∈ svc.2.completed, c.Exact := by
  have hcam : ∃ cam, run CameraSession.observe (.start, .start) (forClient twoChunks) = some cam ∧
      cam.2.completed.length = 1 :=
    exists_run _ _ (by decide +kernel)
  have hsvc : ∃ svc, run Service.observe (.start, .start) (forService twoChunks) = some svc ∧
      svc.2.completed.length = 1 :=
    exists_run _ _ (by decide +kernel)
  obtain ⟨cam, hr, hlen⟩ := hcam
  obtain ⟨svc, hr', hlen'⟩ := hsvc
  have hexact := exact_coverage (by decide +kernel) hr (by decide +kernel) hr'
  exact ⟨cam, svc, hr, hr', hlen, hlen', hexact⟩

/-- A first chunk of 1085 bytes, and a second one that starts at the last of them. -/
def twiceCounted : List Bytes :=
  [crafted 1 0 1086 0 (List.replicate 1085 7), crafted 1 1 1086 1084 [8]]

/-- A completed frame that was handed over with a byte no chunk wrote. -/
def Completion.Missing (c : Completion) (x : Nat) : Prop :=
  c.frame.isSome = true ∧ x < c.size ∧
    ∀ d ∈ c.chunks, ¬ (d.offset ≤ x ∧ x < d.offset + d.payload.length)

instance (c : Completion) (x : Nat) : Decidable (c.Missing x) :=
  inferInstanceAs (Decidable (_ ∧ _))

theorem Completion.Missing.not_exact {c : Completion} {x : Nat} (h : c.Missing x) : ¬ c.Exact := by
  intro he
  obtain ⟨d, hd, hle, hlt, -⟩ := he.1 x h.2.1
  exact h.2.2 d hd ⟨hle, hlt⟩

/-- One byte is counted twice, and the last byte of the frame handed over was never written. -/
theorem missing_twiceCounted :
    (∃ cam, run CameraSession.observe (.start, .start) (forClient twiceCounted) = some cam ∧
      ∃ c ∈ cam.2.completed, c.frame.isSome = true ∧ ¬ c.Exact) ∧
    ∃ svc, run Service.observe (.start, .start) (forService twiceCounted) = some svc ∧
      ∃ c ∈ svc.2.completed, c.frame.isSome = true ∧ ¬ c.Exact := by
  have hcam : ∃ cam,
      run CameraSession.observe (.start, .start) (forClient twiceCounted) = some cam ∧
        ∃ c ∈ cam.2.completed, c.Missing 1085 :=
    exists_run _ _ (by decide +kernel)
  have hsvc : ∃ svc,
      run Service.observe (.start, .start) (forService twiceCounted) = some svc ∧
        ∃ c ∈ svc.2.completed, c.Missing 1085 :=
    exists_run _ _ (by decide +kernel)
  obtain ⟨cam, hr, c, hc, hmiss⟩ := hcam
  obtain ⟨svc, hr', c', hc', hmiss'⟩ := hsvc
  exact ⟨⟨cam, hr, c, hc, hmiss.1, hmiss.not_exact⟩, svc, hr', c', hc', hmiss'.1,
    hmiss'.not_exact⟩

end Kitty.P2p
