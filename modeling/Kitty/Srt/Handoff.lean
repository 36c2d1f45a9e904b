import Kitty.Base.Custody
import Kitty.Base.Run
import Kitty.Srt.Control

/-!
# Handing the UDP socket to the pump

The control thread posts a request with its UDP descriptor in a mailbox of one slot; the pump
thread takes it, wraps the descriptor in an SRT socket and streams over that;
`src/ap2p/srt_thread.c:364–427,433–460,525–588` and, for what `srt_bind_acquire` does when it
fails, `third_party/libsrt/srtcore/api.cpp:941–968,3216–3280`. A descriptor is lost when a
request is posted over another, and closed twice when libsrt fails after it took it.
-/

namespace Kitty.Srt

open Kitty.Base

/-- `pump_request_t`: the request with the descriptor handed over. -/
structure Posted where
  request : PumpRequest
  udpFd : Option Nat
  deriving DecidableEq

/-- Where the pump thread is: waiting for a request; before `srt_create_socket`; before the
socket options; before `srt_bind_acquire`; before `srt_close` and then `close` when one of these
failed; before `getaddrinfo`; before `srt_connect`; about to make the socket the active one;
streaming; about to withdraw it; before `srt_close`; at the end of the round; returned. -/
inductive PumpPc where
  | waiting
  | taken (req : Posted)
  | optioning (req : Posted) (srt : Nat)
  | binding (req : Posted) (srt : Nat)
  | abandoning (udpFd : Option Nat) (srt : Nat)
  | dropping (udpFd : Option Nat)
  | resolving (req : Posted) (srt : Nat)
  | connecting (req : Posted) (srt : Nat)
  | publishing (srt : Nat)
  | pumping (srt : Nat)
  | withdrawing (srt : Nat)
  | closing (srt : Nat)
  | done
  | exited
  deriving DecidableEq

/-- The pump is about to call `srt_bind_acquire`. -/
def PumpPc.isBinding : PumpPc → Bool
  | .binding _ _ => true
  | _ => false

/-- The SRT socket the pump has. -/
def PumpPc.srt : PumpPc → Option Nat
  | .optioning _ s | .binding _ s | .abandoning _ s | .resolving _ s | .connecting _ s
  | .publishing s | .pumping s | .withdrawing s | .closing s => some s
  | .waiting | .taken _ | .dropping _ | .done | .exited => none

/-- The pump waits for a request, or has returned. -/
def PumpPc.idle : PumpPc → Bool
  | .waiting | .exited => true
  | _ => false

/-- The SRT socket the pump has that has no descriptor yet. -/
def PumpPc.bare : PumpPc → Option Nat
  | .optioning _ s | .binding _ s | .abandoning _ s => some s
  | _ => none

/-- Both threads and what they share. Descriptors and SRT sockets are numbered as they are
opened: `wraps` is the descriptor an SRT socket has acquired, `closes` counts how often each
descriptor was closed, and `handed` lists those that were handed over. -/
structure Handoff where
  ctrl : Ctrl
  next : Nat
  pending : Option Posted
  cancel : Bool
  running : Bool
  activeSrt : Option Nat
  pump : PumpPc
  nextSrt : Nat
  wraps : Nat → Option Nat
  srtClosed : Nat → Bool
  closes : Nat → Nat
  shutdown : Bool
  handed : List Nat

namespace Handoff

/-- Both threads at their start. -/
def start : Handoff where
  ctrl := .start
  next := 0
  pending := none
  cancel := false
  running := false
  activeSrt := none
  pump := .waiting
  nextSrt := 0
  wraps := fun _ ↦ none
  srtClosed := fun _ ↦ false
  closes := fun _ ↦ 0
  shutdown := false
  handed := []

/-- `close(fd)`, which fails for −1. -/
def close (w : Handoff) : Option Nat → Handoff
  | some fd => { w with closes := Function.update w.closes fd (w.closes fd + 1) }
  | none => w

/-- `srt_close(s)`: the descriptor of the socket is closed with it; a socket already closed is
none any more. -/
def srtClose (w : Handoff) (s : Nat) : Handoff :=
  if w.srtClosed s then w
  else { w.close (w.wraps s) with srtClosed := Function.update w.srtClosed s true }

/-- `post_pump_request`, under the lock. -/
def post (w : Handoff) (req : Posted) : Handoff :=
  let w := match w.activeSrt with
    | some s => { w.srtClose s with activeSrt := none }
    | none => w
  { w with cancel := true, pending := some req, handed := req.udpFd.toList ++ w.handed }

/-- What a call of the pump thread returns; `srt_bind_acquire` may also fail after libsrt took
the descriptor, which libsrt closes then. -/
inductive Outcome where
  | ok
  | fail
  | failTaken
  deriving DecidableEq

/-- The next thing the pump thread does. -/
def pumpStep (w : Handoff) (o : Outcome) : Option Handoff :=
  match w.pump with
  | .waiting =>
    if w.shutdown then some { w with pump := .exited }
    else w.pending.map fun req ↦
      { w with pending := none, cancel := false, running := true, pump := .taken req }
  | .taken req =>
    if req.udpFd = none then some { w with pump := .done }
    else if o = .ok then
      some { w with nextSrt := w.nextSrt + 1, pump := .optioning req w.nextSrt }
    else some { w with pump := .dropping req.udpFd }
  | .optioning req s =>
    some { w with pump := if o = .ok then .binding req s else .abandoning req.udpFd s }
  | .binding req s =>
    match o with
    | .ok =>
      some { w with wraps := Function.update w.wraps s req.udpFd, pump := .resolving req s }
    | .fail => some { w with pump := .abandoning req.udpFd s }
    | .failTaken => some { w.close req.udpFd with pump := .abandoning req.udpFd s }
  | .abandoning fd s => some { w.srtClose s with pump := .dropping fd }
  | .dropping fd => some { w.close fd with pump := .done }
  | .resolving req s => some { w with pump := if o = .ok then .connecting req s else .closing s }
  | .connecting _ s => some { w with pump := if o = .ok then .publishing s else .closing s }
  | .publishing s => some { w with activeSrt := some s, pump := .pumping s }
  | .pumping s =>
    if o = .ok && !w.cancel && !w.shutdown then some w else some { w with pump := .withdrawing s }
  | .withdrawing s => some { w with activeSrt := none, pump := .closing s }
  | .closing s => some { w.srtClose s with pump := .done }
  | .done => some { w with running := false, pump := .waiting }
  | .exited => none

/-- What happens: a call of the control thread or of the pump thread returns, or a signal asks
for shutdown. -/
inductive Label where
  | ctrl (e : CtrlEvent)
  | pump (o : Outcome)
  | shutdown

/-- The control thread goes on. A socket it allocates is a new one. -/
def ctrlStep (w : Handoff) (e : CtrlEvent) : Option Handoff :=
  (w.ctrl.step e).bind fun ctrl ↦
    match e with
    | .allocated (some fd) _ =>
      if fd = w.next then some { w with ctrl, next := w.next + 1 } else none
    | .posted =>
      match w.ctrl.pc with
      | .post req => some { w.post ⟨req, w.ctrl.udp⟩ with ctrl }
      | _ => none
    | .closed => some { w.close w.ctrl.udp with ctrl }
    | _ => some { w with ctrl }

/-- One event. -/
def step (w : Handoff) : Label → Option Handoff
  | .ctrl e => w.ctrlStep e
  | .pump o => w.pumpStep o
  | .shutdown => some { w with shutdown := true }

/-- No request is posted over another, and `srt_bind_acquire` does not fail after libsrt took
the descriptor. -/
def OneAtATime (w : Handoff) : Label → Prop
  | .ctrl .posted => w.pending = none
  | .pump .failTaken => w.pump.isBinding = false
  | _ => True

instance (w : Handoff) : (l : Label) → Decidable (w.OneAtATime l)
  | .ctrl .posted => inferInstanceAs (Decidable (_ = _))
  | .pump .failTaken => inferInstanceAs (Decidable (_ = _))
  | .ctrl (.allocated _ _) | .ctrl (.discovered _) | .ctrl (.opened _) | .ctrl (.sent _)
  | .ctrl (.received _) | .ctrl .timeout | .ctrl .stop | .ctrl .closed | .pump .ok | .pump .fail
  | .shutdown => isTrue trivial

/-! ### Who has a descriptor -/

/-- The control thread, the mailbox and the pump thread. -/
inductive Holder where
  | ctrl
  | slot
  | pump
  deriving DecidableEq

/-- The descriptor an SRT socket has, until it is closed. -/
def srtFd (w : Handoff) (s : Nat) : Option Nat := if w.srtClosed s then none else w.wraps s

/-- The descriptor the pump has to close where it is, directly or with its SRT socket. -/
def fdAt (w : Handoff) : PumpPc → Option Nat
  | .taken req | .optioning req _ | .binding req _ => req.udpFd
  | .abandoning udpFd _ | .dropping udpFd => udpFd
  | .resolving _ s | .connecting _ s | .publishing s | .pumping s | .withdrawing s | .closing s =>
    w.srtFd s
  | .waiting | .done | .exited => none

/-- The descriptors as things that are handed over and closed. -/
def custody (w : Handoff) : Custody Holder where
  held
    | .ctrl => w.ctrl.udp
    | .slot => w.pending.bind Posted.udpFd
    | .pump => w.fdAt w.pump
  released := w.closes
  next := w.next

/-- As long as no descriptor is lost or closed twice. The active SRT socket is the one the pump
is about to withdraw, so the control thread closes no other. -/
structure Inv (w : Handoff) : Prop where
  sound : w.custody.Sound
  ctrl : w.ctrl.Ok
  unopened : ∀ s, w.nextSrt ≤ s → w.wraps s = none ∧ w.srtClosed s = false
  opened : ∀ s, w.pump.srt = some s → s < w.nextSrt
  bare : ∀ s, w.pump.bare = some s → w.wraps s = none ∧ w.srtClosed s = false
  active : ∀ s, w.activeSrt = some s → w.pump = .pumping s ∨ w.pump = .withdrawing s
  handed : ∀ fd ∈ w.handed, fd < w.next ∧ w.ctrl.udp ≠ some fd

theorem start_inv : start.Inv where
  sound := by
    have hstart : start.custody = Custody.start Holder := by
      unfold custody Custody.start
      congr
      funext p
      cases p <;> rfl
    rw [hstart]
    exact Custody.start_sound
  ctrl := Ctrl.start_ok
  unopened _ _ := ⟨rfl, rfl⟩
  opened _ h := by cases h
  bare _ h := by cases h
  active _ h := by cases h
  handed _ h := by cases h

private theorem close_eq (w : Handoff) (fd : Option Nat) :
    w.close fd = { w with closes := fun r ↦ w.closes r + if fd = some r then 1 else 0 } := by
  cases fd with
  | none => simp [close]
  | some fd => rw [close, Custody.update_count]

/-- Closing an SRT socket closes the descriptor it has. -/
private theorem srtClose_eq (w : Handoff) (s : Nat) : w.srtClose s =
    { w.close (w.srtFd s) with srtClosed := Function.update w.srtClosed s true } := by
  unfold srtClose srtFd
  by_cases hs : w.srtClosed s = true
  · rw [if_pos hs, if_pos hs, ← hs, Function.update_eq_self]
    rfl
  · rw [if_neg hs, if_neg hs]

private theorem custody_ext {c d : Custody Holder} (hctrl : c.held .ctrl = d.held .ctrl)
    (hslot : c.held .slot = d.held .slot) (hpump : c.held .pump = d.held .pump)
    (hreleased : ∀ r, c.released r = d.released r) (hnext : c.next = d.next) : c = d := by
  refine Custody.ext (funext ?_) (funext hreleased) hnext
  intro p
  cases p
  · exact hctrl
  · exact hslot
  · exact hpump

/-! ### The pump thread -/

/-- The pump goes on with the descriptor where it is. -/
private theorem Inv.goto {w : Handoff} (hw : w.Inv) {pc : PumpPc} (hfd : w.fdAt pc = w.fdAt w.pump)
    (hopened : pc.srt = none ∨ pc.srt = w.pump.srt) (hbare : pc.bare = none ∨ pc.bare = w.pump.bare)
    (hactive : ∀ s, w.activeSrt = some s → pc = .pumping s ∨ pc = .withdrawing s) :
    { w with pump := pc }.Inv where
  sound := by
    have hcustody : { w with pump := pc }.custody = w.custody :=
      custody_ext rfl rfl hfd (fun _ ↦ rfl) rfl
    rw [hcustody]
    exact hw.sound
  ctrl := hw.ctrl
  unopened := hw.unopened
  opened s hs := by
    have hs : pc.srt = some s := hs
    rcases hopened with h | h
    · cases h.symm.trans hs
    · exact hw.opened s (h ▸ hs)
  bare s hs := by
    have hs : pc.bare = some s := hs
    rcases hbare with h | h
    · cases h.symm.trans hs
    · exact hw.bare s (h ▸ hs)
  active := hactive
  handed := hw.handed

/-- Unless the pump streams, no SRT socket is active. -/
private theorem Inv.inactive {w : Handoff} (hw : w.Inv)
    (hpump : ∀ s, w.pump ≠ .pumping s ∧ w.pump ≠ .withdrawing s) (s : Nat) (pc : PumpPc)
    (hs : w.activeSrt = some s) : pc = .pumping s ∨ pc = .withdrawing s :=
  ((hw.active s hs).elim (hpump s).1 (hpump s).2).elim

/-- The pump takes the request with its descriptor. -/
private theorem take_inv {w : Handoff} {req : Posted} (hw : w.Inv) (hpump : w.pump = .waiting)
    (hpending : w.pending = some req) :
    { w with pending := none, cancel := false, running := true, pump := .taken req }.Inv where
  sound := by
    have hcustody : { w with
        pending := none, cancel := false, running := true, pump := .taken req }.custody =
        w.custody.move .slot .pump := by
      refine custody_ext ?_ ?_ ?_ (fun _ ↦ rfl) rfl
      · rw [Custody.held_move, if_neg (by decide), if_neg (by decide)]
        rfl
      · rw [Custody.held_move, if_pos rfl]
        rfl
      · rw [Custody.held_move, if_neg (by decide), if_pos rfl]
        simp [custody, hpending, fdAt]
    rw [hcustody]
    exact hw.sound.move (by simp [custody, hpump, fdAt])
  ctrl := hw.ctrl
  unopened := hw.unopened
  opened _ h := by cases h
  bare _ h := by cases h
  active s hs := hw.inactive (by simp [hpump]) s _ hs
  handed := hw.handed

/-- The pump creates an SRT socket. -/
private theorem create_inv {w : Handoff} {req : Posted} (hw : w.Inv) (hpump : w.pump = .taken req) :
    { w with nextSrt := w.nextSrt + 1, pump := .optioning req w.nextSrt }.Inv where
  sound := by
    have hcustody :
        { w with nextSrt := w.nextSrt + 1, pump := .optioning req w.nextSrt }.custody =
          w.custody :=
      custody_ext rfl rfl (by simp [custody, hpump, fdAt]) (fun _ ↦ rfl) rfl
    rw [hcustody]
    exact hw.sound
  ctrl := hw.ctrl
  unopened s hs := hw.unopened s (Nat.le_of_succ_le hs)
  opened s hs := by
    cases hs
    exact Nat.lt_succ_self _
  bare s hs := by
    cases hs
    exact hw.unopened _ (Nat.le_refl _)
  active s hs := hw.inactive (by simp [hpump]) s _ hs
  handed := hw.handed

/-- libsrt takes the descriptor. -/
private theorem bind_inv {w : Handoff} {req : Posted} {s : Nat} (hw : w.Inv)
    (hpump : w.pump = .binding req s) :
    { w with wraps := Function.update w.wraps s req.udpFd, pump := .resolving req s }.Inv where
  sound := by
    have hcustody :
        { w with wraps := Function.update w.wraps s req.udpFd, pump := .resolving req s }.custody =
          w.custody := by
      refine custody_ext rfl rfl ?_ (fun _ ↦ rfl) rfl
      simp [custody, hpump, fdAt, srtFd, (hw.bare s (by rw [hpump]; rfl)).2]
    rw [hcustody]
    exact hw.sound
  ctrl := hw.ctrl
  unopened x hx := by
    have hs : s < w.nextSrt := hw.opened s (by rw [hpump]; rfl)
    have hne : x ≠ s := Nat.ne_of_gt (Nat.lt_of_lt_of_le hs hx)
    exact ⟨(Function.update_of_ne hne ..).trans (hw.unopened x hx).1, (hw.unopened x hx).2⟩
  opened x hx := hw.opened x (by rw [hpump]; exact hx)
  bare _ h := by cases h
  active x hx := hw.inactive (by simp [hpump]) x _ hx
  handed := hw.handed

/-- An SRT socket that took no descriptor is closed. -/
private theorem abandon_inv {w : Handoff} {udpFd : Option Nat} {s : Nat} (hw : w.Inv)
    (hpump : w.pump = .abandoning udpFd s) :
    { w.srtClose s with pump := .dropping udpFd }.Inv := by
  obtain ⟨hwraps, hclosed⟩ := hw.bare s (by rw [hpump]; rfl)
  have hfd : w.srtFd s = none := by rw [srtFd, hclosed, hwraps]; rfl
  have hs : s < w.nextSrt := hw.opened s (by rw [hpump]; rfl)
  rw [srtClose_eq, hfd]
  refine ⟨?_, hw.ctrl, fun x hx ↦ ⟨(hw.unopened x hx).1, ?_⟩, fun _ h ↦ (by cases h),
    fun _ h ↦ (by cases h), fun x hx ↦ hw.inactive (by simp [hpump]) x _ hx, hw.handed⟩
  · have hcustody : { w.close none with
        srtClosed := Function.update w.srtClosed s true, pump := .dropping udpFd }.custody =
        w.custody :=
      custody_ext rfl rfl (by simp [custody, hpump, fdAt]) (fun _ ↦ rfl) rfl
    rw [hcustody]
    exact hw.sound
  · have hne : x ≠ s := Nat.ne_of_gt (Nat.lt_of_lt_of_le hs hx)
    exact (Function.update_of_ne hne ..).trans (hw.unopened x hx).2

/-- The pump closes the descriptor it was left with. -/
private theorem drop_inv {w : Handoff} {udpFd : Option Nat} (hw : w.Inv)
    (hpump : w.pump = .dropping udpFd) : { w.close udpFd with pump := .done }.Inv := by
  rw [close_eq]
  refine ⟨?_, hw.ctrl, hw.unopened, fun _ h ↦ (by cases h), fun _ h ↦ (by cases h),
    fun x hx ↦ hw.inactive (by simp [hpump]) x _ hx, hw.handed⟩
  have hcustody : { w with
      closes := fun r ↦ w.closes r + if udpFd = some r then 1 else 0, pump := .done }.custody =
      w.custody.release .pump := by
    refine Custody.eq_release rfl ?_ ?_ rfl
    · intro x hx
      cases x with
      | ctrl | slot => rfl
      | pump => exact absurd rfl hx
    · intro r
      simp [custody, hpump, fdAt]
  rw [hcustody]
  exact hw.sound.release .pump

/-- The pump closes its SRT socket, which may be closed already. -/
private theorem closing_inv {w : Handoff} {s : Nat} (hw : w.Inv) (hpump : w.pump = .closing s) :
    { w.srtClose s with pump := .done }.Inv := by
  have hs : s < w.nextSrt := hw.opened s (by rw [hpump]; rfl)
  rw [srtClose_eq, close_eq]
  refine ⟨?_, hw.ctrl, fun x hx ↦ ⟨(hw.unopened x hx).1, ?_⟩, fun _ h ↦ (by cases h),
    fun _ h ↦ (by cases h), fun x hx ↦ hw.inactive (by simp [hpump]) x _ hx, hw.handed⟩
  · have hcustody : { w with
        closes := fun r ↦ w.closes r + if w.srtFd s = some r then 1 else 0
        srtClosed := Function.update w.srtClosed s true
        pump := .done }.custody = w.custody.release .pump := by
      refine Custody.eq_release rfl ?_ ?_ rfl
      · intro x hx
        cases x with
        | ctrl | slot => rfl
        | pump => exact absurd rfl hx
      · intro r
        simp [custody, hpump, fdAt]
    rw [hcustody]
    exact hw.sound.release .pump
  · have hne : x ≠ s := Nat.ne_of_gt (Nat.lt_of_lt_of_le hs hx)
    exact (Function.update_of_ne hne ..).trans (hw.unopened x hx).2

/-- The pump makes its SRT socket the active one. -/
private theorem publish_inv {w : Handoff} {s : Nat} (hw : w.Inv) (hpump : w.pump = .publishing s) :
    { w with activeSrt := some s, pump := .pumping s }.Inv where
  sound := by
    have hcustody : { w with activeSrt := some s, pump := .pumping s }.custody = w.custody :=
      custody_ext rfl rfl (by simp [custody, hpump, fdAt, srtFd]) (fun _ ↦ rfl) rfl
    rw [hcustody]
    exact hw.sound
  ctrl := hw.ctrl
  unopened := hw.unopened
  opened x hx := hw.opened x (by rw [hpump]; exact hx)
  bare _ h := by cases h
  active x hx := by
    cases hx
    exact .inl rfl
  handed := hw.handed

/-- The pump withdraws its SRT socket. -/
private theorem withdraw_inv {w : Handoff} {s : Nat} (hw : w.Inv)
    (hpump : w.pump = .withdrawing s) :
    { w with activeSrt := none, pump := .closing s }.Inv where
  sound := by
    have hcustody : { w with activeSrt := none, pump := .closing s }.custody = w.custody :=
      custody_ext rfl rfl (by simp [custody, hpump, fdAt, srtFd]) (fun _ ↦ rfl) rfl
    rw [hcustody]
    exact hw.sound
  ctrl := hw.ctrl
  unopened := hw.unopened
  opened x hx := hw.opened x (by rw [hpump]; exact hx)
  bare _ h := by cases h
  active _ h := by cases h
  handed := hw.handed

/-- One step of the pump thread. -/
private theorem pumpStep_inv {w v : Handoff} {o : Outcome} (hc : w.OneAtATime (.pump o))
    (hw : w.Inv) (hstep : w.pumpStep o = some v) : v.Inv := by
  unfold pumpStep at hstep
  split at hstep
  · next hpump =>
    split at hstep
    · cases hstep
      exact hw.goto (by rw [hpump]; rfl) (.inl rfl) (.inl rfl) (hw.inactive (by simp [hpump]) · _)
    · obtain ⟨req, hpending, rfl⟩ := Option.map_eq_some_iff.mp hstep
      exact take_inv hw hpump hpending
  · next req hpump =>
    have hactive := hw.inactive (by simp [hpump])
    split at hstep
    · next hfd =>
      cases hstep
      exact hw.goto (by rw [hpump]; exact hfd.symm) (.inl rfl) (.inl rfl) (hactive · _)
    · split at hstep
      · cases hstep
        exact create_inv hw hpump
      · cases hstep
        exact hw.goto (by rw [hpump]; rfl) (.inl rfl) (.inl rfl) (hactive · _)
  · next req s hpump =>
    have hactive := hw.inactive (by simp [hpump])
    cases hstep
    split <;>
      exact hw.goto (by rw [hpump]; rfl) (.inr (by rw [hpump]; rfl)) (.inr (by rw [hpump]; rfl))
        (hactive · _)
  · next req s hpump =>
    cases o with
    | ok =>
      cases hstep
      exact bind_inv hw hpump
    | fail =>
      cases hstep
      exact hw.goto (by rw [hpump]; rfl) (.inr (by rw [hpump]; rfl)) (.inr (by rw [hpump]; rfl))
        (hw.inactive (by simp [hpump]) · _)
    | failTaken =>
      have hc : w.pump.isBinding = false := hc
      rw [hpump] at hc
      cases hc
  · next udpFd s hpump =>
    cases hstep
    exact abandon_inv hw hpump
  · next udpFd hpump =>
    cases hstep
    exact drop_inv hw hpump
  · next req s hpump =>
    cases hstep
    split <;>
      exact hw.goto (by rw [hpump]; rfl) (.inr (by rw [hpump]; rfl)) (.inl rfl)
        (hw.inactive (by simp [hpump]) · _)
  · next req s hpump =>
    cases hstep
    split <;>
      exact hw.goto (by rw [hpump]; rfl) (.inr (by rw [hpump]; rfl)) (.inl rfl)
        (hw.inactive (by simp [hpump]) · _)
  · next s hpump =>
    cases hstep
    exact publish_inv hw hpump
  · next s hpump =>
    split at hstep
    · cases hstep
      exact hw
    · cases hstep
      apply hw.goto (by rw [hpump]; rfl) (.inr (by rw [hpump]; rfl)) (.inl rfl)
      intro x hx
      rcases hw.active x hx with h | h <;> rw [hpump] at h <;> cases h
      exact .inr rfl
  · next s hpump =>
    cases hstep
    exact withdraw_inv hw hpump
  · next s hpump =>
    cases hstep
    exact closing_inv hw hpump
  · next hpump =>
    cases hstep
    have hidle : { w with pump := .waiting }.Inv :=
      hw.goto (by rw [hpump]; rfl) (.inl rfl) (.inl rfl) (hw.inactive (by simp [hpump]) · _)
    exact ⟨hidle.sound, hidle.ctrl, hidle.unopened, hidle.opened, hidle.bare, hidle.active,
      hidle.handed⟩
  · cases hstep

/-! ### The control thread -/

/-- A call that leaves the descriptor of the control thread alone. -/
private theorem leave_inv {w : Handoff} {ctrl : Ctrl} (hw : w.Inv) (hctrl : ctrl.Ok)
    (hudp : ctrl.udp = w.ctrl.udp) : { w with ctrl }.Inv where
  sound := by
    have hcustody : { w with ctrl }.custody = w.custody :=
      custody_ext hudp rfl rfl (fun _ ↦ rfl) rfl
    rw [hcustody]
    exact hw.sound
  ctrl := hctrl
  unopened := hw.unopened
  opened := hw.opened
  bare := hw.bare
  active := hw.active
  handed fd hfd := ⟨(hw.handed fd hfd).1, fun h ↦ (hw.handed fd hfd).2 (hudp ▸ h)⟩

/-- A socket is allocated while the control thread has none. -/
private theorem allocate_inv {w : Handoff} {ctrl : Ctrl} (hw : w.Inv) (hctrl : ctrl.Ok)
    (hnone : w.ctrl.udp = none) (hudp : ctrl.udp = some w.next) :
    { w with ctrl, next := w.next + 1 }.Inv where
  sound := by
    have hcustody : { w with ctrl, next := w.next + 1 }.custody = w.custody.acquire .ctrl := by
      refine custody_ext ?_ ?_ ?_ (fun _ ↦ rfl) rfl
      · rw [Custody.held_acquire, if_pos rfl]
        exact hudp
      · rw [Custody.held_acquire, if_neg (by decide)]
        rfl
      · rw [Custody.held_acquire, if_neg (by decide)]
        rfl
    rw [hcustody]
    exact hw.sound.acquire hnone
  ctrl := hctrl
  unopened := hw.unopened
  opened := hw.opened
  bare := hw.bare
  active := hw.active
  handed fd hfd := by
    obtain ⟨hlt, -⟩ := hw.handed fd hfd
    refine ⟨Nat.lt_succ_of_lt hlt, ?_⟩
    intro h
    have h : ctrl.udp = some fd := h
    rw [hudp] at h
    cases h
    exact Nat.lt_irrefl _ hlt

/-- The session is over and its socket is closed. -/
private theorem closed_inv {w : Handoff} (hw : w.Inv) :
    { w.close w.ctrl.udp with ctrl := { w.ctrl with udp := none, pc := .start } }.Inv := by
  rw [close_eq]
  refine ⟨?_, ⟨fun _ ↦ rfl, fun _ h ↦ (by cases h)⟩, hw.unopened, hw.opened, hw.bare, hw.active,
    fun fd hfd ↦ ⟨(hw.handed fd hfd).1, fun h ↦ (by cases h)⟩⟩
  have hcustody : { w with
      closes := fun r ↦ w.closes r + if w.ctrl.udp = some r then 1 else 0
      ctrl := { w.ctrl with udp := none, pc := .start } }.custody = w.custody.release .ctrl := by
    refine Custody.eq_release rfl ?_ (fun _ ↦ rfl) rfl
    intro x hx
    cases x with
    | ctrl => exact absurd rfl hx
    | slot | pump => rfl
  rw [hcustody]
  exact hw.sound.release .ctrl

/-- The active SRT socket is closed under the pump thread. -/
private theorem cancel_inv {w : Handoff} {s : Nat} (hw : w.Inv) (hs : w.activeSrt = some s) :
    { w.srtClose s with activeSrt := none }.Inv := by
  have hpump := hw.active s hs
  have hsrt : w.pump.srt = some s := by rcases hpump with h | h <;> rw [h] <;> rfl
  have hbare : w.pump.bare = none := by rcases hpump with h | h <;> rw [h] <;> rfl
  have hfd : w.fdAt w.pump = w.srtFd s := by rcases hpump with h | h <;> rw [h] <;> rfl
  rw [srtClose_eq, close_eq]
  refine ⟨?_, hw.ctrl, fun x hx ↦ ⟨(hw.unopened x hx).1, ?_⟩, hw.opened, ?_,
    fun _ h ↦ (by cases h), hw.handed⟩
  · have hcustody : { w with
        closes := fun r ↦ w.closes r + if w.srtFd s = some r then 1 else 0
        srtClosed := Function.update w.srtClosed s true
        activeSrt := none }.custody = w.custody.release .pump := by
      refine Custody.eq_release ?_ ?_ ?_ rfl
      · rcases hpump with h | h <;> simp [custody, h, fdAt, srtFd]
      · intro x hx
        cases x with
        | ctrl | slot => rfl
        | pump => exact absurd rfl hx
      · intro r
        simp [custody, hfd]
    rw [hcustody]
    exact hw.sound.release .pump
  · have hne : x ≠ s := Nat.ne_of_gt (Nat.lt_of_lt_of_le (hw.opened s hsrt) hx)
    exact (Function.update_of_ne hne ..).trans (hw.unopened x hx).2
  · intro x hx
    have hx : w.pump.bare = some x := hx
    cases hbare.symm.trans hx

/-- The request with its descriptor is put in the empty mailbox. -/
private theorem put_inv {w : Handoff} (hw : w.Inv) (req : PumpRequest)
    (hpending : w.pending = none) :
    { w with
      activeSrt := none, cancel := true, pending := some ⟨req, w.ctrl.udp⟩
      handed := w.ctrl.udp.toList ++ w.handed
      ctrl := { w.ctrl with udp := none, pc := .realloc } }.Inv where
  sound := by
    have hcustody : { w with
        activeSrt := none, cancel := true, pending := some ⟨req, w.ctrl.udp⟩
        handed := w.ctrl.udp.toList ++ w.handed
        ctrl := { w.ctrl with udp := none, pc := .realloc } }.custody =
        w.custody.move .ctrl .slot := by
      refine custody_ext ?_ ?_ ?_ (fun _ ↦ rfl) rfl
      · rw [Custody.held_move, if_pos rfl]
        rfl
      · rw [Custody.held_move, if_neg (by decide), if_pos rfl]
        rfl
      · rw [Custody.held_move, if_neg (by decide), if_neg (by decide)]
        rfl
    rw [hcustody]
    exact hw.sound.move (by simp [custody, hpending])
  ctrl := ⟨fun _ ↦ rfl, fun _ h ↦ by cases h⟩
  unopened := hw.unopened
  opened := hw.opened
  bare := hw.bare
  active _ h := by cases h
  handed fd hfd := by
    refine ⟨?_, fun h ↦ by cases h⟩
    rcases List.mem_append.mp hfd with hfd | hfd
    · exact (hw.sound.unreleased .ctrl fd (Option.mem_toList.mp hfd)).1
    · exact (hw.handed fd hfd).1

/-- One step of the control thread. -/
private theorem ctrlStep_inv {w v : Handoff} {e : CtrlEvent} (hc : w.OneAtATime (.ctrl e))
    (hw : w.Inv) (hstep : w.ctrlStep e = some v) : v.Inv := by
  obtain ⟨ctrl, hctrl, hstep⟩ := Option.bind_eq_some_iff.mp hstep
  by_cases he : e.leavesUdp = true
  · obtain ⟨hok, hudp⟩ := Ctrl.step_udp hw.ctrl he hctrl
    cases e <;> cases he <;> cases hstep <;> exact leave_inv hw hok hudp
  · cases e with
    | allocated udp localPort =>
      obtain ⟨hok, hnone, hudp⟩ := Ctrl.onAllocated_udp hw.ctrl hctrl
      cases udp with
      | none =>
        cases hstep
        exact leave_inv hw hok (hudp.trans hnone.symm)
      | some fd =>
        obtain ⟨rfl, hv⟩ := Option.ite_none_right_eq_some.mp hstep
        cases hv
        exact allocate_inv hw hok hnone hudp
    | posted =>
      obtain ⟨req, hpc, -, rfl⟩ := Ctrl.posted_udp hw.ctrl hctrl
      have hpending : w.pending = none := hc
      simp only [hpc, post] at hstep
      cases hactive : w.activeSrt with
      | none =>
        simp only [hactive] at hstep
        cases hstep
        exact put_inv hw req hpending
      | some s =>
        simp only [hactive] at hstep
        cases hstep
        have hsame : (w.srtClose s).ctrl = w.ctrl ∧ (w.srtClose s).pending = w.pending := by
          rw [srtClose_eq, close_eq]
          exact ⟨rfl, rfl⟩
        have hput := put_inv (cancel_inv hw hactive) req (hsame.2.trans hpending)
        exact hsame.1 ▸ hput
    | closed =>
      cases Ctrl.closed_udp hctrl
      cases hstep
      exact closed_inv hw
    | discovered | opened | sent | received | timeout | stop => exact absurd rfl he

private theorem step_inv (w : Handoff) (l : Label) (v : Handoff) (hc : w.OneAtATime l)
    (hw : w.Inv) (hstep : w.step l = some v) : v.Inv := by
  cases l with
  | ctrl e => exact ctrlStep_inv hc hw hstep
  | pump o => exact pumpStep_inv hc hw hstep
  | shutdown =>
    cases hstep
    exact ⟨hw.sound, hw.ctrl, hw.unopened, hw.opened, hw.bare, hw.active, hw.handed⟩

/-- As long as no request is posted over another and libsrt returns a descriptor it cannot use,
every descriptor handed over was closed once when the pump is idle and nothing is pending. -/
theorem handed_closed_once {ls : List Label} {w : Handoff} (hc : Always step OneAtATime start ls)
    (hr : run step start ls = some w) (hidle : w.pump.idle = true) (hpending : w.pending = none) :
    ∀ fd ∈ w.handed, w.closes fd = 1 := by
  have hw : w.Inv := invariant_run step step_inv hc start_inv hr
  intro fd hfd
  obtain ⟨hlt, hctrl⟩ := hw.handed fd hfd
  apply hw.sound.released_once hlt
  intro p
  cases p with
  | ctrl => exact hctrl
  | slot => simp [custody, hpending]
  | pump =>
    have hfd : w.fdAt w.pump = none := by
      cases hpump : w.pump <;> rw [hpump] at hidle <;> cases hidle <;> rfl
    simp [custody, hfd]

/-- A session up to its loop with a first descriptor. -/
def registeredLabels : List Label :=
  [.ctrl (.allocated (some 0) 50000), .ctrl (.discovered (some ⟨lit "198.51.100.7", 50000⟩)),
    .ctrl (.opened true), .ctrl (.sent true), .ctrl (.received (some .registered))]

/-- A viewer arrives. -/
def viewerLabels : List Label :=
  [.ctrl (.received (some (.peer ⟨lit "203.0.113.9", 40000, []⟩))), .ctrl .posted]

/-- A second viewer arrives while the first one is streamed to: the first socket is closed by the
thread that posts the request, and the pump connects to the second viewer in vain. -/
def nextViewerLabels : List Label :=
  registeredLabels ++ viewerLabels ++
    [.pump .ok, .pump .ok, .pump .ok, .pump .ok, .pump .ok, .pump .ok, .pump .ok, .pump .ok,
      .ctrl (.allocated (some 1) 50001), .ctrl (.discovered none)] ++ viewerLabels ++
    [.pump .ok, .pump .ok, .pump .ok, .pump .ok, .pump .ok, .pump .ok, .pump .ok, .pump .ok,
      .pump .ok, .pump .fail, .pump .ok, .pump .ok]

/-- Two viewers arrive before the pump has taken the first request. -/
def twoViewersLabels : List Label :=
  registeredLabels ++ viewerLabels ++
    [.ctrl (.allocated (some 1) 50001), .ctrl (.discovered none)] ++ viewerLabels ++
    [.pump .ok, .pump .ok, .pump .ok, .pump .ok, .pump .fail, .pump .ok, .pump .ok]

theorem handed_closed_once_next_viewer : ∃ w, run step start nextViewerLabels = some w ∧
    w.handed = [1, 0] ∧ ∀ fd ∈ w.handed, w.closes fd = 1 := by
  obtain ⟨w, hr, hidle, hpending, hhanded⟩ :
      ∃ w, run step start nextViewerLabels = some w ∧
        w.pump.idle = true ∧ w.pending = none ∧ w.handed = [1, 0] :=
    exists_run step _ (by decide +kernel)
  exact ⟨w, hr, hhanded, handed_closed_once (by decide +kernel) hr hidle hpending⟩

/-- The descriptor in the request that was overwritten is never closed. -/
theorem overwritten_never_closed : ∃ w, run step start twoViewersLabels = some w ∧
    w.pump.idle = true ∧ w.pending = none ∧ 0 ∈ w.handed ∧ w.closes 0 = 0 ∧ w.closes 1 = 1 :=
  exists_run step (fun w ↦ w.pump.idle = true ∧ w.pending = none ∧ 0 ∈ w.handed ∧
    w.closes 0 = 0 ∧ w.closes 1 = 1) (by decide +kernel)

-- libsrt took the descriptor, failed and closed it, and `srt_rendezvous_connect` closes it again.
example : (run step start (registeredLabels ++ viewerLabels ++
    [.pump .ok, .pump .ok, .pump .ok, .pump .failTaken, .pump .ok, .pump .ok, .pump .ok])).any
      (fun w ↦ w.pump.idle && w.closes 0 == 2) = true := by
  decide +kernel

end Handoff

end Kitty.Srt
