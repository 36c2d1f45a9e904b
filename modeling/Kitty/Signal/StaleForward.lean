import Kitty.Signal.Entries

/-!
# A forward that fails

A REQUEST or SRT_REQUEST handler looks a camera up, sends to its socket, and when the send
fails erases the entry of the service, each under a lock of its own;
`src/signaling-server/signaling_server.cpp:1623–1719,1752–1831`. It erases what it looked up
as long as the service is not registered again in between.
-/

namespace Kitty.Signal

open Kitty.Base
open Registry

/-- The server, with how often each entry has been registered, and how often the entry a
handler looks up had been when it did. -/
structure Watched where
  server : Server
  registrations : EntryKey → Nat
  seen : Nat → Nat

namespace Watched

def start : Watched := ⟨.start, fun _ ↦ 0, fun _ ↦ 0⟩

/-- What a thread at some place registers and looks up. -/
def ran (W : Watched) (tid : Nat) (pc : Pc) (v : Server) : Watched where
  server := v
  registrations := match pc.registers with
    | some key => Function.update W.registrations key (W.registrations key + 1)
    | none => W.registrations
  seen := match pc.looksUp with
    | some key => Function.update W.seen tid (W.registrations key)
    | none => W.seen

/-- One event. -/
def step (cfg : Config) (W : Watched) (l : ServerLabel) : Option Watched :=
  (W.server.step cfg l).map fun v ↦
    match l with
    | .run tid _ => match W.server.threads tid with
      | some t => W.ran tid t.pc v
      | none => { W with server := v }
    | _ => { W with server := v }

/-- The server does what it does without being watched. -/
theorem server_of_run (cfg : Config) (ls : List ServerLabel) :
    (run (Watched.step cfg) .start ls).map server = run (Server.step cfg) .start ls := by
  refine run_map (Watched.step cfg) ?_ .start ls
  intro W l
  rw [step, Option.map_map]
  cases hs : W.server.step cfg l with
  | none => rfl
  | some v =>
    rw [Option.map_some, Function.comp_apply]
    split
    · split <;> rfl
    · rfl

end Watched

/-- The entry whose socket a handler sends to. -/
def Pc.forwards (pc : Pc) : Option EntryKey :=
  match pc.errand with
  | .forward key _ => some key
  | _ => none

/-- The entry a handler is to drop. -/
def Pc.drops (pc : Pc) : Option EntryKey :=
  match pc.errand with
  | .drop key _ => some key
  | _ => none

/-- When a send to a socket that was looked up fails, the entry has not been registered since,
or it is gone; and nobody registers an entry that another handler is to drop. -/
def NotReturned (W : Watched) : ServerLabel → Prop
  | .sendFail tid => ∀ key ∈ (W.server.threads tid).bind fun t ↦ t.pc.forwards,
      W.registrations key = W.seen tid ∨ W.server.registry.fdOf key = none
  | .run tid _ => ∀ key ∈ (W.server.threads tid).bind fun t ↦ t.pc.registers,
      ∀ tid' < W.server.spawned, tid' ≠ tid →
        ((W.server.threads tid').bind fun t ↦ t.pc.drops) ≠ some key
  | _ => True

instance (W : Watched) : (l : ServerLabel) → Decidable (NotReturned W l)
  | .run _ _ => inferInstanceAs (Decidable (∀ _ ∈ _, _))
  | .sendFail _ => inferInstanceAs (Decidable (∀ _ ∈ _, _))
  | .accept _ _ | .recv _ _ _ | .timeout _ | .accepted _ _ => isTrue trivial

/-- The entry the next step of a handler removes, and the socket it was looked up with. -/
def Pc.removes : Pc → Option (EntryKey × Nat)
  | .srtErase service provider => some (.srt service, provider.socketFd)
  | .requestDropProvider req => some (.provider req.serviceId, req.provider.socketFd)
  | _ => none

/-- A handler whose send has failed removes no entry but the one with the socket it looked up,
and that one not when it has been registered since. -/
def Watched.DropsLookedUp (cfg : Config) (W : Watched) : Prop :=
  ∀ tid now t key fd V, W.server.threads tid = some t → t.pc.removes = some (key, fd) →
    W.step cfg (.run tid now) = some V →
    (∀ key', V.server.registry.fdOf key' ≠ W.server.registry.fdOf key' →
      key' = key ∧ W.server.registry.fdOf key' = some fd) ∧
    (W.registrations key ≠ W.seen tid → V.server.registry.fdOf key = W.server.registry.fdOf key)

/-! ### What is known of an errand -/

/-- What is known while a handler sends to a socket it looked up, or is to drop its entry: an
entry that has not been registered since has that socket. -/
def Watched.Fits (W : Watched) (tid : Nat) : Errand → Prop
  | .forward key fd => W.seen tid ≤ W.registrations key ∧
      (W.registrations key = W.seen tid → ∀ fd' ∈ W.server.registry.fdOf key, fd' = fd)
  | .drop key fd => W.server.registry.fdOf key = none ∨
      W.registrations key = W.seen tid ∧ ∀ fd' ∈ W.server.registry.fdOf key, fd' = fd
  | _ => True

/-- Every thread's errand fits. -/
structure Watched.Inv (W : Watched) : Prop where
  numbered : W.server.Numbered
  fits : ∀ tid t, W.server.threads tid = some t → W.Fits tid t.pc.errand

theorem Watched.inv_start : Watched.start.Inv where
  numbered := Server.numbered_start
  fits tid t h := by
    by_cases h0 : tid = 0
    · subst h0
      cases h
      trivial
    · simp [start, Server.start, h0] at h

/-- An errand keeps fitting when its entry is not registered and stays or goes. -/
private theorem fits_of_same {W V : Watched} {tid : Nat} {errand : Errand}
    (h : W.Fits tid errand) (hseen : V.seen tid = W.seen tid)
    (hregs : V.registrations = W.registrations)
    (hfd : ∀ key, V.server.registry.fdOf key = W.server.registry.fdOf key ∨
      V.server.registry.fdOf key = none) : V.Fits tid errand := by
  cases errand with
  | forward key fd =>
    refine ⟨by rw [hseen, hregs]; exact h.1, ?_⟩
    intro he fd' hfd'
    rw [hseen, hregs] at he
    obtain hk | hk := hfd key
    · exact h.2 he fd' (hk ▸ hfd')
    · rw [hk] at hfd'
      cases hfd'
  | drop key fd =>
    obtain hk | hk := hfd key
    · obtain hnone | ⟨he, hall⟩ := h
      · exact .inl (hk.trans hnone)
      · exact .inr ⟨by rw [hseen, hregs]; exact he, by rw [hk]; exact hall⟩
    · exact .inl hk
  | _ => trivial

/-- A handler that is to send to a socket it looked up, or to drop its entry, neither registers
nor looks up. -/
private theorem place_of_errand {pc : Pc} {key : EntryKey} {fd : Nat}
    (h : pc.errand = .forward key fd ∨ pc.errand = .drop key fd) :
    pc.registers = none ∧ pc.looksUp = none := by
  cases pc with
  | registerInsert req | srtRegister req | srtLookup req | requestLookup service sdp =>
    obtain h | h := h <;> cases h
  | _ => exact ⟨rfl, rfl⟩

private theorem registers_of_looksUp {pc : Pc} {key : EntryKey} (h : pc.looksUp = some key) :
    pc.registers = none := by
  cases pc with
  | registerInsert req | srtRegister req => cases h
  | _ => rfl

/-- What a step of the watched server is. -/
theorem Watched.step_some {cfg : Config} {W V : Watched} {l : ServerLabel}
    (h : W.step cfg l = some V) : ∃ v, W.server.step cfg l = some v ∧ V.server = v ∧
      ((∃ tid now t, l = .run tid now ∧ W.server.threads tid = some t ∧ V = W.ran tid t.pc v) ∨
        (∀ tid now, l = .run tid now → W.server.threads tid = none) ∧
          V = { W with server := v }) := by
  obtain ⟨v, hv, rfl⟩ := Option.map_eq_some_iff.mp h
  refine ⟨v, hv, ?_⟩
  split
  · next tid now =>
    split
    · next t ht => exact ⟨rfl, .inl ⟨tid, now, t, rfl, ht, rfl⟩⟩
    · next ht => exact ⟨rfl, .inr ⟨fun tid' now' he ↦ by cases he; exact ht, rfl⟩⟩
  · next hrun => exact ⟨rfl, .inr ⟨fun tid now he ↦ absurd he (hrun tid now), rfl⟩⟩

/-- A step at a place where nothing is registered or looked up is only watched. -/
private theorem ran_quiet {W : Watched} {tid : Nat} {pc : Pc} {v : Server}
    (hreg : pc.registers = none) (hlook : pc.looksUp = none) :
    W.ran tid pc v = { W with server := v } := by
  simp only [Watched.ran, hreg, hlook]

/-- A step in which no entry is registered or looked up. -/
private theorem fits_quiet {cfg : Config} {W : Watched} (hW : W.Inv) {l : ServerLabel} {v : Server}
    {tid : Nat} {t : Thread} {pc : Pc} (hc : NotReturned W l) (htid : W.server.threads tid = some t)
    (hlook : t.pc.looksUp = none) (hr : W.server.registry.SameEntries v.registry)
    (herrand : pc.errand.Comes cfg t W.server.registry)
    (hdrop : l = .sendFail tid ∨ ∀ key fd, pc.errand ≠ .drop key fd)
    (ht : v.threads = Function.update W.server.threads tid (some { t with pc })) (tid' : Nat)
    (t' : Thread) (ht' : v.threads tid' = some t') :
    Watched.Fits { W with server := v } tid' t'.pc.errand := by
  have hsame : ∀ tid errand, W.Fits tid errand → Watched.Fits { W with server := v } tid errand :=
    fun _ _ hfits ↦ fits_of_same hfits rfl rfl fun key ↦ .inl (hr.fdOf key)
  have hown := hW.fits tid t htid
  rw [ht] at ht'
  by_cases he : tid' = tid
  · rw [he, Function.update_self] at ht'
    cases ht'
    rw [he]
    cases hpc : pc.errand with
    | idle | check req | insert req => trivial
    | forward key fd =>
      rw [hpc] at herrand
      cases herrand with
      | same h => exact hsame _ _ (h ▸ hown)
      | lookup _ _ h hfd =>
        rw [hlook] at h
        cases h
    | drop key fd =>
      rw [hpc] at herrand
      cases herrand with
      | same h => exact hsame _ _ (h ▸ hown)
      | fail _ _ out next h hnext =>
        obtain rfl : l = .sendFail tid := hdrop.resolve_right fun hno ↦ hno key fd hpc
        have hforward : t.pc.errand = .forward key fd := by rw [h]; exact hnext
        rw [hforward] at hown
        apply hsame _ (.drop key fd)
        obtain hregs | hnone := hc key (by simp [htid, Pc.forwards, hforward])
        · exact .inr ⟨hregs, hown.2 hregs⟩
        · exact .inl hnone
  · rw [Function.update_of_ne he] at ht'
    exact hsame _ _ (hW.fits tid' t' ht')

theorem Watched.ran_registrations {W : Watched} {tid : Nat} {pc : Pc} {v : Server}
    (h : pc.registers = none) : (W.ran tid pc v).registrations = W.registrations := by
  simp only [ran, h]

theorem Watched.ran_seen {W : Watched} {tid tid' : Nat} {pc : Pc} {v : Server}
    (h : pc.looksUp = none ∨ tid' ≠ tid) : (W.ran tid pc v).seen tid' = W.seen tid' := by
  unfold ran
  cases hl : pc.looksUp with
  | none => rfl
  | some key =>
    have hne : tid' ≠ tid := h.resolve_left (by simp [hl])
    exact Function.update_of_ne hne ..

/-- The errand of another thread, when a thread registers an entry. -/
private theorem fits_registered {W : Watched} {v : Server} {tid tid' : Nat} {pc : Pc}
    {key : EntryKey}
    {errand : Errand} (h : W.Fits tid' errand) (hne : tid' ≠ tid) (hkey : pc.registers = some key)
    (hno : ∀ fd, errand ≠ .drop key fd)
    (hfd : ∀ key', key' ≠ key → v.registry.fdOf key' = W.server.registry.fdOf key' ∨
      v.registry.fdOf key' = none) : (W.ran tid pc v).Fits tid' errand := by
  have hseen : (W.ran tid pc v).seen tid' = W.seen tid' := Watched.ran_seen (.inr hne)
  have hregs : (W.ran tid pc v).registrations =
      Function.update W.registrations key (W.registrations key + 1) := by
    simp only [Watched.ran, hkey]
  cases errand with
  | forward key' fd =>
    obtain ⟨hle, hall⟩ := h
    by_cases he : key' = key
    · subst he
      refine ⟨by rw [hseen, hregs, Function.update_self]; omega, ?_⟩
      intro habs
      rw [hseen, hregs, Function.update_self] at habs
      omega
    · rw [Watched.Fits, hseen, hregs, Function.update_of_ne he]
      refine ⟨hle, ?_⟩
      intro heq fd' hfd'
      obtain hk | hk := hfd key' he
      · exact hall heq fd' (hk ▸ hfd')
      · change fd' ∈ v.registry.fdOf key' at hfd'
        rw [hk] at hfd'
        cases hfd'
  | drop key' fd =>
    have he : key' ≠ key := by
      rintro rfl
      exact hno fd rfl
    rw [Watched.Fits, hseen, hregs, Function.update_of_ne he]
    obtain hk | hk := hfd key' he
    · change v.registry.fdOf key' = none ∨ _ ∧ ∀ fd' ∈ v.registry.fdOf key', fd' = fd
      rw [hk]
      exact h
    · exact .inl hk
  | _ => trivial

/-- A critical section, at a place where an entry may be registered or looked up. -/
private theorem fits_ran {cfg : Config} {W : Watched} (hW : W.Inv) {v : Server} {tid : Nat}
    {now : Int}
    {t : Thread} {pc : Pc} (hc : NotReturned W (.run tid now))
    (htid : W.server.threads tid = some t)
    (hstep : EntryStep cfg t now W.server.registry v.registry pc)
    (hsend : ∀ out next, t.pc ≠ .sending out next)
    (ht : v.threads = Function.update W.server.threads tid (some { t with pc })) (tid' : Nat)
    (t' : Thread) (ht' : v.threads tid' = some t') :
    (W.ran tid t.pc v).Fits tid' t'.pc.errand := by
  rw [ht] at ht'
  by_cases he : tid' = tid
  · rw [he, Function.update_self] at ht'
    cases ht'
    rw [he]
    have hentry : t.pc.registers = none → ∀ key, v.registry.fdOf key = W.server.registry.fdOf key ∨
        v.registry.fdOf key = none := fun hreg key ↦
      (hstep.fdOf key).imp_right fun h ↦ h.resolve_right (by simp [hreg])
    have hkeep : ∀ errand, t.pc.errand = errand → t.pc.registers = none ∧ t.pc.looksUp = none →
        (W.ran tid t.pc v).Fits tid errand := fun errand h hplace ↦ by
      rw [← h]
      exact fits_of_same (hW.fits tid t htid) (Watched.ran_seen (.inl hplace.2))
        (Watched.ran_registrations hplace.1) (hentry hplace.1)
    have herrand := hstep.errand
    cases hpc : pc.errand with
    | idle | check req | insert req => trivial
    | forward key fd =>
      rw [hpc] at herrand
      cases herrand with
      | same h => exact hkeep _ h (place_of_errand (.inl h))
      | lookup _ _ h hfd =>
        have hreg := registers_of_looksUp h
        have hseen : (W.ran tid t.pc v).seen tid = W.registrations key := by
          simp only [Watched.ran, h, Function.update_self]
        rw [Watched.Fits, hseen, Watched.ran_registrations hreg]
        refine ⟨Nat.le_refl _, ?_⟩
        intro _ fd' hfd'
        change fd' ∈ v.registry.fdOf key at hfd'
        obtain hk | hk := hentry hreg key
        · rw [hk, hfd] at hfd'
          exact (Option.some.inj hfd').symm
        · rw [hk] at hfd'
          cases hfd'
    | drop key fd =>
      rw [hpc] at herrand
      cases herrand with
      | same h => exact hkeep _ h (place_of_errand (.inr h))
      | fail _ _ out next h hnext => exact absurd h (hsend out next)
  · rw [Function.update_of_ne he] at ht'
    have hfits := hW.fits tid' t' ht'
    cases hreg : t.pc.registers with
    | none =>
      refine fits_of_same hfits (Watched.ran_seen (.inr he)) (Watched.ran_registrations hreg)
        ?_
      intro key
      exact (hstep.fdOf key).imp_right fun h ↦ h.resolve_right (by simp [hreg])
    | some key =>
      apply fits_registered hfits he hreg
      · intro fd hdrop
        apply hc key (by simp [htid, hreg]) tid' (hW.numbered.lt ht') he
        simp [ht', Pc.drops, hdrop]
      · intro key' hne
        refine (hstep.fdOf key').imp_right fun h ↦ h.resolve_right ?_
        rw [hreg]
        exact fun h ↦ hne (Option.some.inj h).symm

theorem Watched.Inv.step {cfg : Config} {W V : Watched} {l : ServerLabel} (hc : NotReturned W l)
    (hW : W.Inv) (h : W.step cfg l = some V) : V.Inv := by
  obtain ⟨v, hv, rfl, hV⟩ := Watched.step_some h
  have hmove := Server.move_of_step hv
  have hquiet : ∀ tid t, W.server.threads tid = some t → t.pc.registers = none →
      t.pc.looksUp = none → (∀ tid' now, l = .run tid' now → tid' = tid) →
      V = { W with server := V.server } := fun tid t ht hreg hlook htid ↦ by
    obtain ⟨tid', now, t', hl, ht', hV⟩ | ⟨-, hV⟩ := hV
    · obtain rfl := htid tid' now hl
      cases ht.symm.trans ht'
      rw [ran_quiet hreg hlook] at hV
      exact hV
    · exact hV
  refine ⟨hmove.numbered hW.numbered, ?_⟩
  intro tid' t' ht'
  cases hmove with
  | accept fd ip hfd hr hthr hs =>
    have hV : V = { W with server := V.server } := by
      obtain ⟨tid, now, t, hl, -⟩ | ⟨-, hV⟩ := hV
      · cases hl
      · exact hV
    rw [hthr] at ht'
    by_cases he : tid' = W.server.spawned
    · rw [he, Function.update_self] at ht'
      cases ht'
      trivial
    · rw [Function.update_of_ne he] at ht'
      rw [hV]
      exact fits_of_same (hW.fits tid' t' ht') rfl rfl fun key ↦
        .inl (fdOf_eq (by rw [hr]) (by rw [hr]) key)
  | run tid now t pc ht hstep hsend hthr hs =>
    obtain ⟨tid'', now', u, hl, hu, hV⟩ | ⟨hnone, -⟩ := hV
    · cases hl
      cases ht.symm.trans hu
      rw [hV]
      exact fits_ran hW hc ht hstep hsend hthr tid' t' ht'
    · rw [hnone tid now rfl] at ht
      cases ht
  | goOn tid t pc ht hwaits hr hpc hdrop hl hthr hs =>
    obtain ⟨-, hlook, hreg⟩ := Pc.of_waits hwaits
    rw [hquiet tid t ht hreg hlook fun _ _ he ↦ by rw [he] at hl; exact Option.some.inj hl]
    exact fits_quiet hW hc ht hlook hr hpc.errand hdrop hthr tid' t' ht'
  | crash tid now t ht hwaits hr hthr hs =>
    obtain ⟨-, hlook, hreg⟩ := Pc.of_waits hwaits
    rw [hthr] at ht'
    rw [hquiet tid t ht hreg hlook fun _ _ he ↦ by cases he; rfl]
    exact fits_of_same (hW.fits tid' t' ht') rfl rfl fun key ↦ .inl (hr.fdOf key)

/-! ### Every run -/

/-- What the removal of an entry removes. -/
private theorem fdOf_of_removes {cfg : Config} {tid : Nat} {t : Thread} {now : Int}
    {r r' : Registry}
    {pc : Pc} {key : EntryKey} {fd : Nat} (hpc : t.pc.removes = some (key, fd))
    (h : t.run cfg tid now r = some (r', pc)) (key' : EntryKey) :
    r'.fdOf key' = if key' = key then none else r.fdOf key' := by
  unfold Thread.run at h
  cases hp : t.pc with
  | srtErase service provider =>
    rw [hp] at hpc
    cases hpc
    simp only [hp] at h
    cases h
    exact r.fdOf_srtErase service key'
  | requestDropProvider req =>
    rw [hp] at hpc
    cases hpc
    simp only [hp] at h
    cases (Registry.locked_some h).2
    exact r.fdOf_eraseProvider req.serviceId key'
  | _ =>
    rw [hp] at hpc
    cases hpc

private theorem errand_of_removes {pc : Pc} {key : EntryKey} {fd : Nat}
    (h : pc.removes = some (key, fd)) : pc.errand = .drop key fd := by
  cases pc with
  | srtErase service provider | requestDropProvider req =>
    cases h
    rfl
  | _ => cases h

theorem Watched.Inv.dropsLookedUp {W : Watched} (hW : W.Inv) (cfg : Config) :
    W.DropsLookedUp cfg := by
  intro tid now t key fd V ht hpc hstep
  obtain ⟨v, hv, rfl, -⟩ := Watched.step_some hstep
  have hfits := hW.fits tid t ht
  rw [errand_of_removes hpc] at hfits
  have hreceived : ∀ msg answers, t.pc ≠ .received msg answers := fun msg answers hrec ↦ by
    rw [hrec] at hpc
    cases hpc
  obtain ⟨r, pc, hrun, hV⟩ := Server.step_run_of_thread hv ht hreceived
  have hfd : ∀ key', V.server.registry.fdOf key' =
      if key' = key then none else W.server.registry.fdOf key' := by
    rw [hV]
    exact fdOf_of_removes hpc hrun
  obtain hnone | ⟨hregs, hall⟩ := hfits
  · refine ⟨fun key' hne ↦ absurd ?_ hne, fun _ ↦ by rw [hfd, if_pos rfl, hnone]⟩
    rw [hfd]
    split
    · next he => rw [he, hnone]
    · rfl
  · refine ⟨?_, fun hnew ↦ absurd hregs hnew⟩
    intro key' hne
    rw [hfd] at hne
    split at hne
    · next he =>
      rw [he] at hne ⊢
      obtain ⟨fd', hfd'⟩ := Option.ne_none_iff_exists'.mp hne.symm
      exact ⟨rfl, by rw [hfd', hall fd' hfd']⟩
    · exact absurd rfl hne

/-- In every run in which no service is registered again between a handler's look-up and the
removal that follows a failed send, each such removal removes at most the entry with the socket
that was looked up, and none that is newer. -/
theorem drops_looked_up {cfg : Config} {ls : List ServerLabel} {W : Watched}
    (hc : Always (Watched.step cfg) NotReturned .start ls)
    (hr : run (Watched.step cfg) .start ls = some W) : W.DropsLookedUp cfg :=
  have hW : W.Inv := invariant_run (Watched.step cfg) (fun _ _ _ hl hs ht ↦ hs.step hl ht) hc
    Watched.inv_start hr
  hW.dropsLookedUp cfg

/-- A camera connects and registers. -/
def cameraConnects (tid fd : Nat) : List ServerLabel :=
  [.accept fd (lit "10.0.0.1"), .run tid 0,
    .recv tid (frame (lit "type=REGISTER\nservice_id=cam\np2p_port=8554\n")) none, .run tid 0,
    .run tid 0, .run tid 0]

/-- A consumer asks for the camera, and the CONSUMER_CONNECT cannot be sent. -/
def forwardFails (tid fd : Nat) : List ServerLabel :=
  [.accept fd (lit "10.0.0.2"), .run tid 0,
    .recv tid (frame (lit "type=REQUEST\nservice_id=cam\nconsumer_sdp=v=0\n")) none, .run tid 0,
    .run tid 0, .run tid 0, .run tid 0, .run tid 0, .sendFail tid]

/-- The handler of the consumer comes to erase the camera. -/
def cameraGone : List ServerLabel := cameraConnects 1 4 ++ (forwardFails 2 5 ++ [.run 2 0])

/-- The camera connects again before it is erased. -/
def cameraBack : List ServerLabel :=
  cameraConnects 1 4 ++ (forwardFails 2 5 ++ (cameraConnects 3 6 ++ [.run 2 0]))

theorem drops_looked_up_gone :
    ∃ W, run (Watched.step .unset) .start cameraGone = some W ∧ W.DropsLookedUp .unset := by
  have hsome : (run (Watched.step .unset) .start cameraGone).isSome = true := by decide +kernel
  obtain ⟨W, hr⟩ := Option.isSome_iff_exists.mp hsome
  exact ⟨W, hr, drops_looked_up (by decide +kernel) hr⟩

/-- A handler that looked the camera up with socket 4 erases its new registration, on socket
6. -/
theorem drops_newer_back :
    ∃ W, run (Watched.step .unset) .start cameraBack = some W ∧
      ((W.server.threads 2).bind fun t ↦ t.pc.removes) = some (.provider (lit "cam"), 4) ∧
      W.server.registry.fdOf (.provider (lit "cam")) = some 6 ∧
      W.registrations (.provider (lit "cam")) = 2 ∧ W.seen 2 = 1 ∧
      ((W.step .unset (.run 2 0)).map fun V ↦ V.server.registry.fdOf (.provider (lit "cam"))) =
        some none :=
  exists_run (Watched.step .unset) (fun W ↦
    ((W.server.threads 2).bind fun t ↦ t.pc.removes) = some (.provider (lit "cam"), 4) ∧
      W.server.registry.fdOf (.provider (lit "cam")) = some 6 ∧
      W.registrations (.provider (lit "cam")) = 2 ∧ W.seen 2 = 1 ∧
      ((W.step .unset (.run 2 0)).map fun V ↦ V.server.registry.fdOf (.provider (lit "cam"))) =
        some none) (by decide +kernel)

end Kitty.Signal
