import Kitty.Base.Bytes
import Kitty.Base.Run

/-!
# A configuration that is pushed to `provider_srt`

Three programs meet at two files. Case 81 of the MQTT client
(`src/mqtt-vcamclient/HTTP.c:2040–2048`, with `save_file_from_message`, 680–701) writes
`provider_srt.conf` and then touches a sentinel; `monitor_step` of the launcher
(`deploy/ambicam.sh:233–263`) takes the sentinel away and then terminates the daemon; and the
daemon reads the configuration once, when it starts (`load_config` and `main` of
`src/provider-srt/provider_srt.c:147–219,947–949`). They run at the same time, and none
waits for another.
-/

namespace Kitty.Launcher

open Kitty.Base

/-- Where the MQTT client is in case 81. -/
inductive Writer where
  | idle
  /-- Before `fopen`, which empties the file. -/
  | opening (payload : Bytes)
  /-- Before `fclose`, with what is not in the file yet. -/
  | writing (payload rest : Bytes)
  /-- Before `touch`. -/
  | touching
  deriving DecidableEq, Repr

/-- Where the launcher is in `monitor_step`. -/
inductive Monitor where
  | idle
  /-- It has found the sentinel, before `rm`. -/
  | found
  /-- Before `killall`. -/
  | killing
  deriving DecidableEq, Repr

/-- Where a process that `start_srt` began is. -/
inductive DaemonPc where
  /-- Still a shell, which `killall` does not find. -/
  | forked
  /-- Before `fopen`. -/
  | execed
  /-- In `load_config`; whether the file was changed meanwhile. -/
  | loading (dirty : Bool)
  | running (conf : Bytes)
  | gone
  deriving DecidableEq, Repr

/-- A process; one that got `SIGTERM` is on its way out. -/
structure Daemon where
  pc : DaemonPc
  termed : Bool
  deriving DecidableEq, Repr

/-- The camera: `provider_srt.conf`, the sentinel, the three programs, and, beside what they know,
the payload that was last saved, where it was saved whole. -/
structure Device where
  file : Option Bytes
  sentinel : Bool
  writer : Writer
  monitor : Monitor
  daemons : List Daemon
  saved : Option Bytes
  deriving DecidableEq, Repr

/-- The launcher has just started. -/
def Device.boot (file : Option Bytes) (sentinel : Bool) : Device :=
  ⟨file, sentinel, .idle, .idle, [], none⟩

/-- The steps of the three programs. -/
inductive Step where
  | push (payload : Bytes)
  | opened (ok : Bool)
  | wrote (n : Nat)
  | closed
  | touched (ok : Bool)
  | poll
  | removed
  | killed
  | start
  | exec (i : Nat)
  | load (i : Nat)
  /-- `load_config` is through; what it saw, where the file was changed meanwhile. -/
  | loaded (i : Nat) (seen : Bytes)
  | exit (i : Nat)
  deriving DecidableEq, Repr

/-- The file changes under a process. -/
def Daemon.disturb (d : Daemon) : Daemon :=
  match d.pc with
  | .loading _ => { d with pc := .loading true }
  | _ => d

/-- `SIGTERM` reaches the processes that are `provider_srt` already. -/
def Daemon.terminate (d : Daemon) : Daemon :=
  match d.pc with
  | .forked => d
  | _ => { d with termed := true }

/-- A new content of the file. -/
def Device.put (s : Device) (content : Bytes) (writer : Writer) : Device :=
  { s with file := some content, writer := writer, daemons := s.daemons.map Daemon.disturb }

/-- A process goes on. -/
def Device.move (s : Device) (i : Nat) (pc : DaemonPc) : Device :=
  { s with daemons := s.daemons.modify i fun d ↦ { d with pc := pc } }

/-- A step, where its program is at it. -/
def Device.step (s : Device) : Step → Option Device
  | .push payload => if s.writer = .idle then some { s with writer := .opening payload } else none
  | .opened ok =>
    match s.writer with
    | .opening payload =>
      some (if ok then s.put [] (.writing payload payload)
        else { s with writer := .touching, saved := none })
    | _ => none
  | .wrote n =>
    match s.writer with
    | .writing payload rest =>
      some (s.put (s.file.getD [] ++ rest.take n) (.writing payload (rest.drop n)))
    | _ => none
  | .closed =>
    match s.writer with
    | .writing payload rest =>
      some { s with writer := .touching, saved := if rest = [] then some payload else none }
    | _ => none
  | .touched ok =>
    if s.writer = .touching then some { s with writer := .idle, sentinel := s.sentinel || ok }
    else none
  | .poll =>
    if s.monitor = .idle then
      some { s with monitor := if s.sentinel then .found else .idle }
    else none
  | .removed =>
    if s.monitor = .found then some { s with monitor := .killing, sentinel := false } else none
  | .killed =>
    if s.monitor = .killing then
      some { s with monitor := .idle, daemons := s.daemons.map Daemon.terminate }
    else none
  | .start =>
    if s.monitor = .idle ∧ s.file.isSome then
      some { s with daemons := s.daemons ++ [⟨.forked, false⟩] }
    else none
  | .exec i =>
    match s.daemons[i]? with
    | some ⟨.forked, _⟩ => some (s.move i .execed)
    | _ => none
  | .load i =>
    match s.daemons[i]? with
    | some ⟨.execed, _⟩ => some (s.move i (if s.file.isSome then .loading false else .gone))
    | _ => none
  | .loaded i seen =>
    match s.daemons[i]? with
    | some ⟨.loading dirty, _⟩ =>
      some (s.move i (.running (if dirty then seen else s.file.getD [])))
    | _ => none
  | .exit i => some (s.move i .gone)

/-! ### Nothing that was pushed is missed -/

/-- A process has read, or reads, or will read what the file holds. -/
def Daemon.Reads (file : Option Bytes) (d : Daemon) : Prop :=
  match d.pc with
  | .loading dirty => dirty = false ∧ file.isSome = true
  | .running conf => file = some conf
  | _ => True

/-- A termination is still to come: a sentinel is on its way, is there, or was seen. -/
def Device.Pending (s : Device) : Prop :=
  s.writer ≠ .idle ∨ s.sentinel = true ∨ s.monitor ≠ .idle

/-- Every process that is not on its way out is up to date, or a termination is to come. -/
def Device.Watched (s : Device) : Prop :=
  (∀ d ∈ s.daemons, d.termed = false → d.Reads s.file) ∨ s.Pending

/-- What was saved whole is in the file. -/
def Device.Saved (s : Device) : Prop :=
  match s.writer with
  | .idle | .touching => ∀ p, s.saved = some p → s.file = some p
  | .opening _ => True
  | .writing payload rest => ∃ done, s.file = some done ∧ done ++ rest = payload

theorem Daemon.Reads.of_forked {file : Option Bytes} {d : Daemon} (h : d.pc = .forked) :
    d.Reads file := by
  rw [Daemon.Reads, h]
  trivial

/-- After a termination there are only processes on their way out and processes that have not
read anything. -/
private theorem reads_terminate {file : Option Bytes} {d : Daemon}
    (h : d.terminate.termed = false) : d.terminate.Reads file := by
  unfold Daemon.terminate at h ⊢
  split at h
  · next hpc =>
    exact .of_forked hpc
  · cases h

/-- What a step that leaves the file alone does to the processes. -/
private theorem watched_of_daemons {s t : Device} (h : s.Watched) (hfile : t.file = s.file)
    (hpending : s.Pending → t.Pending)
    (hd : ∀ d ∈ t.daemons, d ∈ s.daemons ∨ (d.termed = false → d.Reads s.file)) :
    t.Watched := by
  rcases h with hall | hpend
  · refine .inl fun d hmem hterm ↦ ?_
    rw [hfile]
    obtain hold | hnew := hd d hmem
    · exact hall d hold hterm
    · exact hnew hterm
  · exact .inr (hpending hpend)

/-- A process that goes on where it reads what the file holds. -/
private theorem watched_move {s : Device} (h : s.Watched) {i : Nat} {pc : DaemonPc}
    (hpc : ∀ d, s.daemons[i]? = some d →
      (d.termed = false → d.Reads s.file) → d.termed = false →
        Daemon.Reads s.file { d with pc := pc }) : (s.move i pc).Watched := by
  rcases h with hall | hpend
  · refine .inl fun d hmem hterm ↦ ?_
    obtain ⟨q, hq⟩ := List.getElem?_of_mem hmem
    rcases getElem?_modify_eq_some hq with ⟨rfl, old, hold, rfl⟩ | ⟨-, hold⟩
    · exact hpc old hold (hall old (List.mem_of_getElem? hold)) hterm
    · exact hall d (List.mem_of_getElem? hold) hterm
  · exact .inr hpend

/-- Every step keeps an eye on the processes, when `touch` does not fail. -/
private theorem Device.Watched.step {s t : Device} {e : Step} (he : e ≠ .touched false)
    (h : s.Watched) (hstep : s.step e = some t) : t.Watched := by
  cases e with
  | push payload =>
    rw [Device.step] at hstep
    split at hstep
    · cases hstep
      exact .inr (.inl nofun)
    · cases hstep
  | opened ok =>
    rw [Device.step] at hstep
    split at hstep
    · cases hstep
      right
      left
      cases ok <;> nofun
    · cases hstep
  | wrote n =>
    rw [Device.step] at hstep
    split at hstep
    · cases hstep
      exact .inr (.inl nofun)
    · cases hstep
  | closed =>
    rw [Device.step] at hstep
    split at hstep
    · cases hstep
      exact .inr (.inl nofun)
    · cases hstep
  | touched ok =>
    rw [Device.step] at hstep
    split at hstep
    · cases hstep
      cases ok with
      | false => exact absurd rfl he
      | true => exact .inr (.inr (.inl (by simp)))
    · cases hstep
  | poll =>
    rw [Device.step] at hstep
    split at hstep
    · next hidle =>
      cases hstep
      refine watched_of_daemons h rfl ?_ fun d hmem ↦ .inl hmem
      rintro (hw | hs | hm)
      · exact .inl hw
      · exact .inr (.inl hs)
      · exact absurd hidle hm
    · cases hstep
  | removed =>
    rw [Device.step] at hstep
    split at hstep
    · cases hstep
      exact .inr (.inr (.inr nofun))
    · cases hstep
  | killed =>
    rw [Device.step] at hstep
    split at hstep
    · cases hstep
      refine .inl fun d hmem hterm ↦ ?_
      obtain ⟨old, -, rfl⟩ := List.mem_map.mp hmem
      exact reads_terminate hterm
    · cases hstep
  | start =>
    rw [Device.step] at hstep
    split at hstep
    · cases hstep
      refine watched_of_daemons h rfl id fun d hmem ↦ ?_
      obtain hold | hnew := List.mem_append.mp hmem
      · exact .inl hold
      · rw [List.mem_singleton.mp hnew]
        exact .inr fun _ ↦ .of_forked rfl
    · cases hstep
  | exec i =>
    rw [Device.step] at hstep
    split at hstep
    · cases hstep
      exact watched_move h fun _ _ _ _ ↦ trivial
    · cases hstep
  | load i =>
    rw [Device.step] at hstep
    split at hstep
    · cases hstep
      refine watched_move h fun d _ _ _ ↦ ?_
      cases hfile : s.file with
      | none => trivial
      | some conf => exact ⟨rfl, rfl⟩
    · cases hstep
  | loaded i seen =>
    rw [Device.step] at hstep
    split at hstep
    · next dirty termed hi =>
      cases hstep
      refine watched_move h fun d hd hreads hterm ↦ ?_
      cases hi.symm.trans hd
      obtain ⟨rfl, hsome⟩ := hreads hterm
      obtain ⟨conf, hconf⟩ := Option.isSome_iff_exists.mp hsome
      rw [hconf]
      exact rfl
    · cases hstep
  | exit i =>
    cases hstep
    exact watched_move h fun _ _ _ _ ↦ trivial

/-- What was saved whole stays in the file until the next payload comes. -/
private theorem Device.Saved.step {s t : Device} {e : Step} (h : s.Saved)
    (hstep : s.step e = some t) : t.Saved := by
  cases e with
  | push payload =>
    rw [Device.step] at hstep
    split at hstep
    · cases hstep
      trivial
    · cases hstep
  | opened ok =>
    rw [Device.step] at hstep
    split at hstep
    · cases hstep
      cases ok with
      | true => exact ⟨[], rfl, rfl⟩
      | false => exact fun p hp ↦ nomatch hp
    · cases hstep
  | wrote n =>
    rw [Device.step] at hstep
    split at hstep
    · next payload rest hw =>
      cases hstep
      rw [Device.Saved, hw] at h
      obtain ⟨done, hdone, rfl⟩ := h
      refine ⟨done ++ rest.take n, ?_, ?_⟩
      · rw [Device.put, hdone]
        rfl
      · rw [List.append_assoc, List.take_append_drop]
    · cases hstep
  | closed =>
    rw [Device.step] at hstep
    split at hstep
    · next payload rest hw =>
      cases hstep
      rw [Device.Saved, hw] at h
      obtain ⟨done, hdone, rfl⟩ := h
      intro p hp
      by_cases hrest : rest = []
      · subst hrest
        rw [if_pos rfl, List.append_nil] at hp
        exact hdone.trans hp
      · rw [if_neg hrest] at hp
        cases hp
    · cases hstep
  | touched ok =>
    rw [Device.step] at hstep
    split at hstep
    · next hw =>
      cases hstep
      rw [Device.Saved, hw] at h
      exact h
    · cases hstep
  | poll | removed | killed | start =>
    rw [Device.step] at hstep
    split at hstep
    · cases hstep
      exact h
    · cases hstep
  | exec i | load i | loaded i seen =>
    rw [Device.step] at hstep
    split at hstep
    · cases hstep
      exact h
    · cases hstep
  | exit i =>
    cases hstep
    exact h

/-- The steps of the launcher that it takes by itself. -/
def Step.ofLauncher : Step → Bool
  | .poll | .removed | .killed => true
  | _ => false

/-- When the client is done, a round of the launcher terminates what is to be terminated. -/
private theorem exists_settled {t : Device} (hw : t.writer = .idle) :
    ∃ ks u, (∀ k ∈ ks, Step.ofLauncher k = true) ∧ run Device.step t ks = some u ∧
      ¬ u.Pending := by
  obtain ⟨file, sentinel, writer, monitor, daemons, saved⟩ := t
  subst hw
  have hround (sentinel : Bool) (daemons : List Daemon) : ∃ ks u,
      (∀ k ∈ ks, Step.ofLauncher k = true) ∧
        run Device.step ⟨file, sentinel, .idle, .idle, daemons, saved⟩ ks = some u ∧
          ¬ u.Pending := by
    cases sentinel with
    | false => exact ⟨[], _, nofun, rfl, by simp [Device.Pending]⟩
    | true =>
      exact ⟨[.poll, .removed, .killed], _, by decide, rfl, by simp [Device.Pending]⟩
  cases monitor with
  | idle => exact hround sentinel daemons
  | found => exact ⟨[.removed, .killed], _, by decide, rfl, by simp [Device.Pending]⟩
  | killing =>
    obtain ⟨ks, u, hks, hrun, hu⟩ := hround sentinel (daemons.map Daemon.terminate)
    refine ⟨.killed :: ks, u, ?_, hrun, hu⟩
    intro k hk
    obtain rfl | hk := List.mem_cons.mp hk
    · rfl
    · exact hks k hk

/-- However the three programs get in each other's way: once no push is under way, no sentinel
stands and the launcher is between two rounds, every `provider_srt` that is not on its way out runs
on what the file holds, which is the last payload where that was saved whole; and as soon as
no push is under way, the launcher comes to that point by its own steps. -/
theorem running_conf_of_run {file : Option Bytes} {sentinel : Bool} {ls : List Step} {t : Device}
    (htouch : ∀ e ∈ ls, e ≠ .touched false)
    (hr : run Device.step (.boot file sentinel) ls = some t) :
    (¬ t.Pending → ∀ d ∈ t.daemons, d.termed = false → ∀ conf, d.pc = .running conf →
      t.file = some conf ∧ ∀ p, t.saved = some p → conf = p) ∧
    (t.writer = .idle → ∃ ks u, (∀ k ∈ ks, Step.ofLauncher k = true) ∧
      run Device.step t ks = some u ∧ ¬ u.Pending) := by
  have hwatched : t.Watched := by
    refine invariant_run Device.step (fun _ _ _ he hs hstep ↦ hs.step he hstep)
      (.of_forall Device.step (fun _ _ he ↦ he) htouch _) (.inl ?_) hr
    intro d hd
    cases hd
  have hsaved : t.Saved := by
    refine invariant_of_run Device.step (fun _ _ _ hs hstep ↦ hs.step hstep) ?_ hr
    intro p hp
    cases hp
  refine ⟨?_, exists_settled⟩
  intro hquiet d hd hterm conf hconf
  have hreads := (hwatched.resolve_right hquiet) d hd hterm
  rw [Daemon.Reads, hconf] at hreads
  refine ⟨hreads, ?_⟩
  intro p hp
  have hidle : t.writer = .idle := not_not.mp fun hw ↦ hquiet (.inl hw)
  rw [Device.Saved, hidle] at hsaved
  exact Option.some.inj (hreads.symm.trans (hsaved p hp))

/-- A push while a process reads the configuration. -/
def pushed : List Step :=
  [.start, .exec 0, .load 0, .push [50], .opened true, .loaded 0 [], .wrote 1, .closed,
    .touched true, .poll, .removed, .killed, .exit 0, .start, .exec 1, .load 1, .loaded 1 []]

theorem running_conf_of_run_pushed : ∃ t,
    run Device.step (.boot (some [49]) false) pushed = some t ∧
      (¬ t.Pending → ∀ d ∈ t.daemons, d.termed = false → ∀ conf, d.pc = .running conf →
        t.file = some conf ∧ ∀ p, t.saved = some p → conf = p) ∧
      (t.writer = .idle → ∃ ks u, (∀ k ∈ ks, Step.ofLauncher k = true) ∧
        run Device.step t ks = some u ∧ ¬ u.Pending) := by
  obtain ⟨t, ht, -⟩ : ∃ t, run Device.step (.boot (some [49]) false) pushed = some t ∧
      t.saved = some [50] :=
    exists_run Device.step _ (by decide)
  exact ⟨t, ht, running_conf_of_run (by decide) ht⟩

end Kitty.Launcher
