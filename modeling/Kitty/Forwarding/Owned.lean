import Kitty.Forwarding.Connections

/-!
# Connections and their forward threads

What keeps a forward thread to the connection it was started for: its place is not taken while
it has a pointer to it, and the number of its descriptor is not given out while it is in a place
that is used or in the hand of a thread. Then closing, in whatever order, does no harm;
`src/provider-srt/_legacy_libjuice_provider_configurable.c:586–723` and
`src/consumer-srt-cloud/_legacy_libjuice_consumer_api.c:559–712`.
-/

namespace Kitty.Forwarding

open Kitty.Base

variable {groups : Nat}

namespace Shared

variable (w : Shared groups)

/-- Some thread has a pointer to a place. -/
def Pointed (s : Slot groups) : Prop := ∃ th ∈ w.threads, th.pointsTo = some s

/-- A place has a connection in it, or some thread still has a pointer to it. -/
def Used (s : Slot groups) : Prop := (w.connections s).active = true ∨ w.Pointed s

/-- Neither a place that is used nor a thread has the number of a descriptor. -/
def Unused (fd : Nat) : Prop :=
  (∀ g i, w.Used (g, i) → (w.connections (g, i)).localSocket ≠ some fd) ∧
    ∀ th ∈ w.threads, th.holds ≠ some fd

instance (s : Slot groups) : Decidable (w.Pointed s) :=
  inferInstanceAs (Decidable (∃ th ∈ w.threads, th.pointsTo = some s))

instance (s : Slot groups) : Decidable (w.Used s) :=
  inferInstanceAs (Decidable ((w.connections s).active = true ∨ w.Pointed s))

instance (fd : Nat) : Decidable (w.Unused fd) :=
  inferInstanceAs (Decidable (
    (∀ g i, w.Used (g, i) → (w.connections (g, i)).localSocket ≠ some fd) ∧
      ∀ th ∈ w.threads, th.holds ≠ some fd))

/-- At most one forward thread that is not done has a place. -/
def Exclusive : Prop :=
  ∀ (p q : Nat) (th th' : Thread groups) (s : Slot groups), w.threads[p]? = some th →
    th.serves = some s → w.threads[q]? = some th' → th'.serves = some s → p = q

/-- Forward threads used only what is of the connection they were started for. -/
def OwnAccesses : Prop := ∀ a ∈ w.accesses, a.2 = .conn a.1

/-- A descriptor is of a connection, or closed. -/
def Belongs (fd n : Nat) : Prop := w.descriptors fd = none ∨ w.descriptors fd = some (.conn n)

/-- A place has the connection a forward thread was started for as long as the thread is not
done; the number in a place that is used, and the number in the hand of a thread, are of the
connection in that place. -/
structure Owned : Prop where
  serial : ∀ (s : Slot groups) (n : Nat) (pc : ForwardPc), .forward s n pc ∈ w.threads →
    pc ≠ .done → (w.connections s).serial = n
  exclusive : w.Exclusive
  socket : ∀ s, w.Used s → ∀ fd, (w.connections s).localSocket = some fd →
    w.Belongs fd (w.connections s).serial
  holds : ∀ th ∈ w.threads, ∀ s, th.pointsTo = some s → ∀ fd, th.holds = some fd →
    w.Belongs fd (w.connections s).serial
  accesses : w.OwnAccesses

/-- A forward thread that is not done has a place. -/
def Served (s : Slot groups) : Prop := ∃ th ∈ w.threads, th.serves = some s

end Shared

section Kept

variable {w : Shared groups}

/-- Every place of a forward thread that is not done is pointed to. -/
theorem pointsTo_forward {s : Slot groups} {n : Nat} {pc : ForwardPc} (hpc : pc ≠ .done) :
    (Thread.forward s n pc).pointsTo = some s := by
  cases pc with
  | done => exact absurd rfl hpc
  | _ => rfl

theorem pointed_of_served {s : Slot groups} (h : w.Served s) : w.Pointed s := by
  obtain ⟨th, hth, hs⟩ := h
  refine ⟨th, hth, ?_⟩
  cases th with
  | forward s' n pc =>
    cases pc <;> cases hs <;> rfl
  | sweep kind g todo pc => cases hs

theorem owned_start (groups : Nat) : (Shared.start groups).Owned where
  serial _ _ _ h := by cases h
  exclusive _ _ _ _ _ h := by cases h
  socket s hs := by
    obtain hactive | ⟨th, hth, -⟩ := hs
    · cases hactive
    · cases hth
  holds _ h := by cases h
  accesses _ h := by cases h

/-- The descriptors that are not unused stay whose they are. -/
theorem Shared.Owned.descriptors (h : w.Owned) {d : Nat → Option Owner}
    (hd : ∀ fd n, ¬ w.Unused fd → w.Belongs fd n → d fd = none ∨ d fd = some (.conn n)) :
    { w with descriptors := d }.Owned where
  serial := h.serial
  exclusive := h.exclusive
  socket := by
    intro s hs fd hfd
    refine hd fd _ ?_ (h.socket s hs fd hfd)
    intro hunused
    exact hunused.1 s.1 s.2 hs hfd
  holds := by
    intro th hth s hs fd hfd
    exact hd fd _ (fun hunused ↦ hunused.2 th hth hfd) (h.holds th hth s hs fd hfd)
  accesses := h.accesses

theorem Shared.Owned.closeFd (h : w.Owned) (fd : Nat) : (w.closeFd fd).Owned := by
  apply h.descriptors
  intro fd' n _ hbelongs
  by_cases hfd : fd' = fd
  · exact .inl (by rw [hfd, Function.update_self])
  · rw [Function.update_of_ne hfd]
    exact hbelongs

theorem Shared.Owned.openFd (h : w.Owned) {fd : Nat} (owner : Owner) (hfd : w.Unused fd) :
    (w.openFd fd owner).Owned := by
  apply h.descriptors
  intro fd' n hused hbelongs
  have hne : fd' ≠ fd := fun heq ↦ hused (heq ▸ hfd)
  rw [Function.update_of_ne hne]
  exact hbelongs

/-- The places change: where the number of one changes no thread points to it. -/
theorem Shared.Owned.places (h : w.Owned) {cs : Slot groups → Connection} {created : Nat}
    (hserial : ∀ s, w.Pointed s → (cs s).serial = (w.connections s).serial)
    (hsocket : ∀ s, (cs s).active = true ∨ w.Pointed s → ∀ fd, (cs s).localSocket = some fd →
      w.Belongs fd (cs s).serial) :
    { w with connections := cs, created }.Owned where
  serial := by
    intro s n pc hth hpc
    have hpointed : w.Pointed s := ⟨_, hth, pointsTo_forward hpc⟩
    exact (hserial s hpointed).trans (h.serial s n pc hth hpc)
  exclusive := h.exclusive
  socket := hsocket
  holds := by
    intro th hth s hs fd hfd
    have hbelongs := h.holds th hth s hs fd hfd
    rwa [← hserial s ⟨th, hth, hs⟩] at hbelongs
  accesses := h.accesses

/-- One place changes. -/
theorem Shared.Owned.place (h : w.Owned) {s : Slot groups} {c : Connection} {created : Nat}
    (hserial : w.Pointed s → c.serial = (w.connections s).serial)
    (hsocket : c.active = true ∨ w.Pointed s → ∀ fd, c.localSocket = some fd →
      w.Belongs fd c.serial) :
    { w with connections := Function.update w.connections s c, created }.Owned := by
  apply h.places
  · intro s' hs'
    by_cases heq : s' = s
    · subst heq
      rw [Function.update_self]
      exact hserial hs'
    · rw [Function.update_of_ne heq]
  · intro s' hs' fd hfd
    by_cases heq : s' = s
    · subst heq
      rw [Function.update_self] at hs' hfd ⊢
      exact hsocket hs' fd hfd
    · rw [Function.update_of_ne heq] at hs' hfd ⊢
      exact h.socket s' hs' fd hfd

theorem Shared.Owned.create (h : w.Owned) {s : Slot groups} (connId : BitVec 32)
    (hs : ¬ w.Pointed s) : (w.create s connId).Owned :=
  h.place (fun hpointed ↦ absurd hpointed hs) fun _ fd hfd ↦ by cases hfd

theorem Shared.Owned.reset (h : w.Owned) {s : Slot groups} (hs : ¬ w.Pointed s) :
    (w.reset s).Owned := by
  apply h.place (fun hpointed ↦ absurd hpointed hs)
  intro hused
  obtain hactive | hpointed := hused
  · cases hactive
  · exact absurd hpointed hs

theorem Shared.Owned.wipe (h : w.Owned) {g : Fin groups} (hg : ∀ i, ¬ w.Pointed (g, i)) :
    (w.wipe g).Owned := by
  apply h.places
  · intro s hs
    split
    · next heq => exact absurd (heq ▸ hs : w.Pointed (g, s.2)) (hg s.2)
    · rfl
  · intro s hs fd hfd
    by_cases heq : s.1 = g
    · simp only [if_pos heq] at hs
      obtain hactive | hpointed := hs
      · cases hactive
      · exact absurd (heq ▸ hpointed : w.Pointed (g, s.2)) (hg s.2)
    · simp only [if_neg heq] at hs hfd ⊢
      exact h.socket s hs fd hfd

/-- A connection gets a descriptor that is neither its own yet nor of another. -/
theorem Shared.Owned.attach (h : w.Owned) {s : Slot groups} {fd n : Nat}
    (hfd : w.descriptors fd = some (.pending n)) : (w.attach s fd).Owned := by
  have hdescriptors : { w with
      descriptors := Function.update w.descriptors fd
        (some (.conn (w.connections s).serial)) }.Owned := by
    apply h.descriptors
    intro fd' m _ hbelongs
    have hne : fd' ≠ fd := by
      rintro rfl
      obtain hnone | hconn := hbelongs
      · rw [hfd] at hnone
        cases hnone
      · rw [hfd] at hconn
        cases hconn
    rw [Function.update_of_ne hne]
    exact hbelongs
  refine hdescriptors.place (fun _ ↦ rfl) ?_
  intro _ fd' hfd'
  cases hfd'
  exact .inr (Function.update_self ..)

/-- Forward threads used something of their own. -/
theorem Shared.Owned.record (h : w.Owned) (n : Nat) : (w.record n (.conn n)).Owned where
  serial := h.serial
  exclusive := h.exclusive
  socket := h.socket
  holds := h.holds
  accesses := by
    intro a ha
    obtain hold | hnew := List.mem_append.mp ha
    · exact h.accesses a hold
    · rw [List.mem_singleton.mp hnew]

/-- One thread went on. -/
theorem Shared.Owned.goTo (h : w.Owned) {p : Nat} {th th' : Thread groups}
    (hp : w.threads[p]? = some th) (hpoints : ∀ s, th'.pointsTo = some s → w.Used s)
    (hholds : ∀ s, th'.pointsTo = some s → ∀ fd, th'.holds = some fd →
      w.Belongs fd (w.connections s).serial)
    (hserves : ∀ s, th'.serves = some s → th.serves = some s)
    (hserial : ∀ s n pc, th' = .forward s n pc → pc ≠ .done → (w.connections s).serial = n) :
    (w.goTo p th').Owned where
  serial := by
    intro s n pc hth hpc
    obtain hold | hnew := List.mem_or_eq_of_mem_set hth
    · exact h.serial s n pc hold hpc
    · exact hserial s n pc hnew.symm hpc
  exclusive := by
    intro q q' a b s hq ha hq' hb
    have hold : ∀ {r : Nat} {c : Thread groups}, (w.threads.set p th')[r]? = some c →
        c.serves = some s → ∃ d, w.threads[r]? = some d ∧ d.serves = some s := by
      intro r c hr hc
      obtain ⟨rfl, rfl⟩ | ⟨-, hr⟩ := getElem?_set_eq_some hr
      · exact ⟨th, hp, hserves s hc⟩
      · exact ⟨c, hr, hc⟩
    obtain ⟨a', hqa, ha'⟩ := hold hq ha
    obtain ⟨b', hqb, hb'⟩ := hold hq' hb
    exact h.exclusive q q' a' b' s hqa ha' hqb hb'
  socket := by
    intro s hs
    apply h.socket s
    obtain hactive | ⟨c, hc, hcs⟩ := hs
    · exact .inl hactive
    · obtain hold | rfl := List.mem_or_eq_of_mem_set hc
      · exact .inr ⟨c, hold, hcs⟩
      · exact hpoints s hcs
  holds := by
    intro c hc s hs fd hfd
    obtain hold | rfl := List.mem_or_eq_of_mem_set hc
    · exact h.holds c hold s hs fd hfd
    · exact hholds s hs fd hfd
  accesses := h.accesses

/-- One more thread. -/
theorem Shared.Owned.push (h : w.Owned) {th : Thread groups}
    (hpoints : ∀ s, th.pointsTo = some s → w.Used s) (hholds : th.holds = none)
    (hserves : ∀ s, th.serves = some s → ¬ w.Served s)
    (hserial : ∀ s n pc, th = .forward s n pc → pc ≠ .done → (w.connections s).serial = n) :
    { w with threads := w.threads ++ [th] }.Owned where
  serial := by
    intro s n pc hth hpc
    obtain hold | hnew := List.mem_append.mp hth
    · exact h.serial s n pc hold hpc
    · exact hserial s n pc (List.mem_singleton.mp hnew).symm hpc
  exclusive := by
    intro p q a b s hp ha hq hb
    obtain hpold | ⟨hplen, rfl⟩ := getElem?_concat_eq_some hp
    · obtain hqold | ⟨-, rfl⟩ := getElem?_concat_eq_some hq
      · exact h.exclusive p q a b s hpold ha hqold hb
      · exact absurd ⟨a, List.mem_of_getElem? hpold, ha⟩ (hserves s hb)
    · obtain hqold | ⟨hqlen, -⟩ := getElem?_concat_eq_some hq
      · exact absurd ⟨b, List.mem_of_getElem? hqold, hb⟩ (hserves s ha)
      · rw [hplen, hqlen]
  socket := by
    intro s hs
    apply h.socket s
    obtain hactive | ⟨c, hc, hcs⟩ := hs
    · exact .inl hactive
    · obtain hold | hnew := List.mem_append.mp hc
      · exact .inr ⟨c, hold, hcs⟩
      · rw [List.mem_singleton.mp hnew] at hcs
        exact hpoints s hcs
  holds := by
    intro c hc s hs fd hfd
    obtain hold | hnew := List.mem_append.mp hc
    · exact h.holds c hold s hs fd hfd
    · rw [List.mem_singleton.mp hnew, hholds] at hfd
      cases hfd
  accesses := h.accesses

theorem Shared.Owned.spawn (h : w.Owned) {s : Slot groups}
    (hactive : (w.connections s).active = true) (hs : ¬ w.Served s) : (w.spawn s).Owned := by
  refine h.push ?_ rfl ?_ ?_
  · intro s' hs'
    cases hs'
    exact .inl hactive
  · intro s' hs'
    cases hs'
    exact hs
  · intro s' n pc heq _
    cases heq
    rfl

/-- Other code begins to close connections, at its start or at a connection that is there. -/
theorem Shared.Owned.sweep (h : w.Owned) {kind : Sweep} {g : Fin groups}
    {todo : List (Fin maxConnections)} {pc : SweepPc groups}
    (hpc : ∀ s c, pc = .closing s c → (w.connections s).active = true ∧ c = .load) :
    (w.sweep kind g todo pc).Owned := by
  refine h.push ?_ ?_ (fun s hs ↦ by cases hs) fun s n c heq ↦ by cases heq
  · intro s hs
    cases pc with
    | closing s' c =>
      cases hs
      exact .inl (hpc _ _ rfl).1
    | _ => cases hs
  · cases pc with
    | closing s' c =>
      rw [(hpc _ _ rfl).2]
      rfl
    | _ => rfl

/-- Other code goes on to where it has no connection in its hand. -/
theorem Shared.Owned.goSweep (h : w.Owned) {p : Nat} {kind : Sweep} {g : Fin groups}
    {todo todo' : List (Fin maxConnections)} {pc pc' : SweepPc groups}
    (hp : w.threads[p]? = some (.sweep kind g todo pc))
    (hpc' : (Thread.sweep kind g todo' pc').pointsTo = none) :
    (w.goTo p (.sweep kind g todo' pc')).Owned := by
  refine h.goTo hp ?_ ?_ (fun s hs ↦ by cases hs)
    fun s n c heq ↦ by cases heq
  · intro s hs
    cases hpc'.symm.trans hs
  · intro s hs
    cases hpc'.symm.trans hs

/-! ### The threads that close connections -/

theorem Shared.Owned.closeStep (h : w.Owned) {s : Slot groups} (hs : w.Pointed s)
    (pc : ClosePc) : (w.closeStep s pc).1.Owned := by
  cases pc with
  | load => exact h
  | close fd => exact h.closeFd fd
  | forget => exact h.place (fun _ ↦ rfl) fun _ fd hfd ↦ by cases hfd
  | clear => exact h.place (fun _ ↦ rfl) fun _ ↦ h.socket s (.inr hs)

theorem threads_closeStep (w : Shared groups) (s : Slot groups) (pc : ClosePc) :
    (w.closeStep s pc).1.threads = w.threads := by
  cases pc <;> rfl

/-- The only number to be closed is the one that was read. -/
theorem closeStep_eq_close {w : Shared groups} {s : Slot groups} {pc : ClosePc} {fd : Nat}
    (h : (w.closeStep s pc).2 = some (.close fd)) :
    (w.closeStep s pc).1 = w ∧ (w.connections s).localSocket = some fd := by
  cases pc with
  | load =>
    simp only [Shared.closeStep] at h
    split at h
    · next fd' hfd =>
      cases h
      exact ⟨rfl, hfd⟩
    · cases h
  | _ => cases h

theorem touchClosing_eq (w : Shared groups) (s : Slot groups) (n : Nat) (c : ClosePc) :
    (w.touchClosing s n c).connections = w.connections ∧
      (w.touchClosing s n c).threads = w.threads ∧
      (w.touchClosing s n c).descriptors = w.descriptors := by
  cases c with
  | close fd =>
    simp only [Shared.touchClosing, Shared.touchFd]
    split <;> exact ⟨rfl, rfl, rfl⟩
  | _ => exact ⟨rfl, rfl, rfl⟩

/-- Other code goes on in `close_connection`, or with the next connection. -/
theorem sweepStep_closing (w : Shared groups) (p : Nat) (kind : Sweep) (g : Fin groups)
    (o : Outcome) (todo : List (Fin maxConnections)) (s : Slot groups) (c : ClosePc) :
    w.sweepStep p kind g o todo (.closing s c) =
      some ((w.closeStep s c).1.goTo p (.sweep kind g todo
        (match (w.closeStep s c).2 with | some pc => .closing s pc | none => .look))) := by
  cases todo <;> rfl

/-- A forward thread used the memory of its place. -/
theorem Shared.Owned.touch (h : w.Owned) {s : Slot groups} {n : Nat}
    (hn : (w.connections s).serial = n) : (w.touch s n).Owned := by
  unfold Shared.touch
  rw [hn]
  exact h.record n

/-- A forward thread used a descriptor of its connection. -/
theorem Shared.Owned.touchFd (h : w.Owned) {fd n : Nat} (hfd : w.Belongs fd n) :
    (w.touchFd fd n).Owned := by
  unfold Shared.touchFd
  obtain hnone | hconn := hfd
  · rw [hnone]
    exact h
  · rw [hconn]
    exact h.record n

/-- A forward thread goes on, with no descriptor in its hand or one of its connection. -/
theorem Shared.Owned.forward (h : w.Owned) {p : Nat} {s : Slot groups} {n : Nat}
    {pc pc' : ForwardPc} (hp : w.threads[p]? = some (.forward s n pc)) (hpc : pc ≠ .done)
    (hholds : ∀ fd, (Thread.forward s n pc').holds = some fd → w.Belongs fd n) :
    (w.goTo p (.forward s n pc')).Owned := by
  have hmem := List.mem_of_getElem? hp
  have hserial : (w.connections s).serial = n := h.serial s n pc hmem hpc
  have hserves : (Thread.forward s n pc).serves = some s := by
    cases pc with
    | done => exact absurd rfl hpc
    | _ => rfl
  have hslot : ∀ s', (Thread.forward s n pc').pointsTo = some s' → s' = s := by
    intro s' hs'
    cases pc' <;> cases hs' <;> rfl
  apply h.goTo hp
  · intro s' hs'
    rw [hslot s' hs']
    exact .inr ⟨_, hmem, pointsTo_forward hpc⟩
  · intro s' hs' fd hfd
    rw [hslot s' hs', hserial]
    exact hholds fd hfd
  · intro s' hs'
    have heq : s' = s := by cases pc' <;> cases hs' <;> rfl
    rw [heq]
    exact hserves
  · intro s' m c heq _
    cases heq
    exact hserial

/-- A forward thread receives from the descriptor it has in its hand. -/
private theorem Shared.Owned.recvStep (h : w.Owned) {found connected stopped : Bool} {p : Nat}
    {s : Slot groups} {n : Nat} {o : Outcome} {fd : Option Nat}
    (hp : w.threads[p]? = some (.forward s n (.recv fd))) {t : Shared groups}
    (hstep : w.forwardStep found connected stopped p s n o (.recv fd) = some t) : t.Owned := by
  have hmem := List.mem_of_getElem? hp
  have hpc : ForwardPc.recv fd ≠ .done := ForwardPc.noConfusion
  have hserial := h.serial s n _ hmem hpc
  simp only [Shared.forwardStep] at hstep
  cases hfd : fd.bind w.descriptors with
  | none =>
    rw [hfd] at hstep
    cases o <;> cases hstep
    exact h.forward hp hpc fun fd hfd ↦ by cases hfd
  | some owner =>
    obtain ⟨fd', rfl, howner⟩ := Option.bind_eq_some_iff.mp hfd
    have hown : owner = .conn n := by
      obtain hnone | hconn := h.holds _ hmem s rfl fd' rfl
      · rw [howner] at hnone
        cases hnone
      · rw [howner, hserial] at hconn
        exact Option.some.inj hconn
    subst hown
    rw [hfd] at hstep
    cases o <;> cases hstep <;>
      exact (h.record n).forward hp hpc fun fd hfd ↦ by cases hfd

/-- A forward thread goes on in `close_connection`. -/
private theorem Shared.Owned.forwardClosing (h : w.Owned) {p : Nat} {s : Slot groups} {n : Nat}
    {c : ClosePc} (hp : w.threads[p]? = some (.forward s n (.closing c))) :
    (((w.touchClosing s n c).closeStep s c).1.goTo p (.forward s n
      (match ((w.touchClosing s n c).closeStep s c).2 with
        | some c' => .closing c'
        | none => .done))).Owned := by
  have hmem := List.mem_of_getElem? hp
  have hpc : ForwardPc.closing c ≠ .done := ForwardPc.noConfusion
  have hserial := h.serial s n _ hmem hpc
  obtain ⟨hplaces, hthreads, -⟩ := touchClosing_eq w s n c
  have howned : (w.touchClosing s n c).Owned := by
    cases c with
    | close fd =>
      have hbelongs := h.holds _ hmem s rfl fd rfl
      rw [hserial] at hbelongs
      exact h.touchFd hbelongs
    | _ => exact h.touch hserial
  have hpointed : (w.touchClosing s n c).Pointed s :=
    ⟨_, hthreads ▸ hmem, pointsTo_forward hpc⟩
  have hp' : ((w.touchClosing s n c).closeStep s c).1.threads[p]? =
      some (.forward s n (.closing c)) := by
    rw [threads_closeStep, hthreads]
    exact hp
  apply (howned.closeStep hpointed c).forward hp' hpc
  intro fd hfd
  split at hfd
  · next c' hc' =>
    cases c' with
    | close fd' =>
      cases hfd
      obtain ⟨heq, hsocket⟩ := closeStep_eq_close hc'
      rw [heq]
      have hbelongs := howned.socket s (.inr hpointed) fd hsocket
      rwa [hplaces, hserial] at hbelongs
    | _ => cases hfd
  · cases hfd

/-- Forward threads keep to their connections. -/
theorem Shared.Owned.forwardStep (h : w.Owned) {found connected stopped : Bool} {p : Nat}
    {s : Slot groups} {n : Nat} {o : Outcome} {pc : ForwardPc}
    (hp : w.threads[p]? = some (.forward s n pc)) {t : Shared groups}
    (hstep : w.forwardStep found connected stopped p s n o pc = some t) : t.Owned := by
  have hmem := List.mem_of_getElem? hp
  have hpc : pc ≠ .done := by
    rintro rfl
    cases hstep
  have hserial := h.serial s n pc hmem hpc
  have htouch : (w.touch s n).Owned := h.touch hserial
  cases pc with
  | begin | connected | stop =>
    cases hstep
    apply h.forward hp hpc
    intro fd hfd
    split at hfd <;> cases hfd
  | active | socket | send =>
    cases hstep
    apply htouch.forward hp hpc
    intro fd hfd
    split at hfd <;> cases hfd
  | load =>
    cases hstep
    apply htouch.forward hp hpc
    intro fd hfd
    have hbelongs := h.socket s (.inr ⟨_, hmem, pointsTo_forward hpc⟩) fd hfd
    rwa [hserial] at hbelongs
  | recv fd => exact h.recvStep hp hstep
  | lock =>
    simp only [Shared.forwardStep] at hstep
    split at hstep
    · cases hstep
    · cases hstep
      exact h.forward hp hpc fun fd hfd ↦ by cases hfd
  | closing c =>
    cases hstep
    exact h.forwardClosing hp
  | done => exact absurd rfl hpc

/-- Other code that closes connections keeps them to their forward threads. -/
theorem Shared.Owned.sweepStep (h : w.Owned) {p : Nat} {kind : Sweep} {g : Fin groups}
    {todo : List (Fin maxConnections)} {pc : SweepPc groups} {o : Outcome}
    (hp : w.threads[p]? = some (.sweep kind g todo pc)) {t : Shared groups}
    (hstep : w.sweepStep p kind g o todo pc = some t) : t.Owned := by
  have hmem := List.mem_of_getElem? hp
  cases pc with
  | look =>
    cases todo with
    | nil =>
      cases hstep
      exact h.goSweep hp rfl
    | cons i todo =>
      cases hstep
      refine h.goTo hp ?_ ?_ (fun s hs ↦ by cases hs)
        fun s n c heq ↦ by cases heq
      · intro s hs
        split at hs
        · next hactive =>
          cases hs
          exact .inl hactive.1
        · cases hs
      · intro s hs fd hfd
        split at hfd <;> cases hfd
  | closing s c =>
    have hpointed : w.Pointed s := ⟨_, hmem, rfl⟩
    rw [sweepStep_closing] at hstep
    cases hstep
    have hpointed' : (w.closeStep s c).1.Pointed s := by
      obtain ⟨th, hth, hs⟩ := hpointed
      exact ⟨th, (threads_closeStep w s c).symm ▸ hth, hs⟩
    have hp' : (w.closeStep s c).1.threads[p]? = some (.sweep kind g todo (.closing s c)) := by
      rw [threads_closeStep]
      exact hp
    cases hnext : (w.closeStep s c).2 with
    | none =>
      exact (h.closeStep hpointed c).goSweep hp' rfl
    | some c' =>
      refine (h.closeStep hpointed c).goTo hp' ?_ ?_
        (fun s hs ↦ by cases hs) fun s n c heq ↦ by cases heq
      · intro s' hs'
        cases hs'
        exact .inr hpointed'
      · intro s' hs' fd hfd
        cases hs'
        cases c' with
        | close fd' =>
          cases hfd
          obtain ⟨heq, hsocket⟩ := closeStep_eq_close hnext
          rw [heq]
          exact h.socket s (.inr hpointed) fd hsocket
        | _ => cases hfd
  | _ => cases todo <;> cases hstep

/-! ### What they leave alone -/

/-- No place was taken, no forward thread started and no descriptor closed but of connections. -/
structure Shared.Closes (w t : Shared groups) : Prop where
  place : ∀ s, (t.connections s).active = true →
    (w.connections s).active = true ∧ (t.connections s).connId = (w.connections s).connId
  served : ∀ s, t.Served s → w.Served s
  pending : ∀ fd n, w.descriptors fd = some (.pending n) → t.descriptors fd = some (.pending n)

theorem Shared.Closes.refl (w : Shared groups) : w.Closes w :=
  ⟨fun _ h ↦ ⟨h, rfl⟩, fun _ h ↦ h, fun _ _ h ↦ h⟩

theorem Shared.Closes.trans {t u : Shared groups} (h : w.Closes t) (h' : t.Closes u) :
    w.Closes u where
  place s hs := by
    obtain ⟨ht, htid⟩ := h'.place s hs
    obtain ⟨hw, hwid⟩ := h.place s ht
    exact ⟨hw, htid.trans hwid⟩
  served s hs := h.served s (h'.served s hs)
  pending fd n hfd := h'.pending fd n (h.pending fd n hfd)

theorem closes_goTo {p : Nat} {th th' : Thread groups} (hp : w.threads[p]? = some th)
    (hserves : ∀ s, th'.serves = some s → th.serves = some s) : w.Closes (w.goTo p th') where
  place _ hs := ⟨hs, rfl⟩
  served s hs := by
    obtain ⟨c, hc, hcs⟩ := hs
    obtain hold | rfl := List.mem_or_eq_of_mem_set hc
    · exact ⟨c, hold, hcs⟩
    · exact ⟨th, List.mem_of_getElem? hp, hserves s hcs⟩
  pending _ _ hfd := hfd

theorem closes_sweep {kind : Sweep} {g : Fin groups} {todo : List (Fin maxConnections)}
    {pc : SweepPc groups} : w.Closes (w.sweep kind g todo pc) where
  place _ hs := ⟨hs, rfl⟩
  served s hs := by
    obtain ⟨c, hc, hcs⟩ := hs
    obtain hold | hnew := List.mem_append.mp hc
    · exact ⟨c, hold, hcs⟩
    · rw [List.mem_singleton.mp hnew] at hcs
      cases hcs
  pending _ _ hfd := hfd

/-- A descriptor is closed that no connection waits for. -/
theorem closes_closeFd {fd : Nat} (hfd : ∀ n, w.descriptors fd ≠ some (.pending n)) :
    w.Closes (w.closeFd fd) := by
  refine ⟨fun _ h ↦ ⟨h, rfl⟩, fun _ h ↦ h, ?_⟩
  intro fd' n hfd'
  have hne : fd' ≠ fd := by
    rintro rfl
    exact hfd n hfd'
  exact (Function.update_of_ne hne ..).trans hfd'

/-- A descriptor is opened. -/
theorem closes_openFd {fd : Nat} {owner : Owner} (hfd : w.descriptors fd = none) :
    w.Closes (w.openFd fd owner) := by
  refine ⟨fun _ h ↦ ⟨h, rfl⟩, fun _ h ↦ h, ?_⟩
  intro fd' n hfd'
  have hne : fd' ≠ fd := by
    rintro rfl
    cases hfd.symm.trans hfd'
  exact (Function.update_of_ne hne ..).trans hfd'

theorem closes_closeStep {s : Slot groups} {pc : ClosePc}
    (hpc : ∀ fd, pc = .close fd → ∃ n, w.Belongs fd n) : w.Closes (w.closeStep s pc).1 := by
  cases pc with
  | load => exact .refl w
  | close fd =>
    apply closes_closeFd
    intro n hfd
    obtain ⟨m, hnone | hconn⟩ := hpc fd rfl
    · cases hnone.symm.trans hfd
    · cases hconn.symm.trans hfd
  | forget =>
    refine ⟨?_, fun _ h ↦ h, fun _ _ h ↦ h⟩
    intro s' hs'
    by_cases heq : s' = s <;> simp_all [Shared.closeStep]
  | clear =>
    refine ⟨?_, fun _ h ↦ h, fun _ _ h ↦ h⟩
    intro s' hs'
    by_cases heq : s' = s <;> simp_all [Shared.closeStep]

/-- Taking note of an access changes nothing. -/
private theorem closes_of_eq {t : Shared groups} (hplaces : t.connections = w.connections)
    (hthreads : t.threads = w.threads) (hfds : t.descriptors = w.descriptors) : w.Closes t where
  place s hs := by
    rw [hplaces] at hs ⊢
    exact ⟨hs, rfl⟩
  served s hs := by
    obtain ⟨th, hth, hs⟩ := hs
    exact ⟨th, hthreads ▸ hth, hs⟩
  pending fd n hfd := by
    rw [hfds]
    exact hfd

/-- A forward thread that goes on serves what it served. -/
private theorem closes_forward {p : Nat} {s : Slot groups} {n : Nat} {pc pc' : ForwardPc}
    (hp : w.threads[p]? = some (.forward s n pc)) (hpc : pc ≠ .done) :
    w.Closes (w.goTo p (.forward s n pc')) := by
  apply closes_goTo hp
  intro s' hs'
  have heq : s' = s := by cases pc' <;> cases hs' <;> rfl
  subst heq
  cases pc with
  | done => exact absurd rfl hpc
  | _ => rfl

theorem Shared.Owned.closes_forwardStep (h : w.Owned) {found connected stopped : Bool} {p : Nat}
    {s : Slot groups} {n : Nat} {o : Outcome} {pc : ForwardPc}
    (hp : w.threads[p]? = some (.forward s n pc)) {t : Shared groups}
    (hstep : w.forwardStep found connected stopped p s n o pc = some t) : w.Closes t := by
  have hpc : pc ≠ .done := by
    rintro rfl
    cases hstep
  have hrecord : ∀ owner pc', w.Closes ((w.record n owner).goTo p (.forward s n pc')) := by
    intro owner pc'
    have hrec : w.Closes (w.record n owner) := closes_of_eq rfl rfl rfl
    exact hrec.trans (closes_forward hp hpc)
  cases pc with
  | begin | connected | stop =>
    cases hstep
    exact closes_forward hp hpc
  | active | socket | load | send =>
    cases hstep
    exact hrecord ..
  | recv fd =>
    simp only [Shared.forwardStep] at hstep
    split at hstep <;> cases hstep
    · exact closes_forward hp hpc
    · exact hrecord ..
    · exact hrecord ..
    · exact hrecord ..
  | lock =>
    simp only [Shared.forwardStep] at hstep
    split at hstep <;> cases hstep
    exact closes_forward hp hpc
  | closing c =>
    cases hstep
    obtain ⟨hplaces, hthreads, hfds⟩ := touchClosing_eq w s n c
    have htouch : w.Closes (w.touchClosing s n c) := closes_of_eq hplaces hthreads hfds
    have hclose : (w.touchClosing s n c).Closes ((w.touchClosing s n c).closeStep s c).1 := by
      refine closes_closeStep fun fd hfd ↦ ⟨(w.connections s).serial, ?_⟩
      subst hfd
      have hbelongs := h.holds _ (List.mem_of_getElem? hp) s rfl fd rfl
      unfold Shared.Belongs
      rw [hfds]
      exact hbelongs
    have hp' : ((w.touchClosing s n c).closeStep s c).1.threads[p]? =
        some (.forward s n (.closing c)) := by
      rw [threads_closeStep, hthreads]
      exact hp
    exact (htouch.trans hclose).trans (closes_forward hp' hpc)
  | done => exact absurd rfl hpc

theorem Shared.Owned.closes_sweepStep (h : w.Owned) {p : Nat} {kind : Sweep} {g : Fin groups}
    {todo : List (Fin maxConnections)} {pc : SweepPc groups} {o : Outcome}
    (hp : w.threads[p]? = some (.sweep kind g todo pc)) {t : Shared groups}
    (hstep : w.sweepStep p kind g o todo pc = some t) : w.Closes t := by
  cases pc with
  | look =>
    cases todo <;> cases hstep <;> exact closes_goTo hp fun s hs ↦ by cases hs
  | closing s c =>
    rw [sweepStep_closing] at hstep
    cases hstep
    have hclose : w.Closes (w.closeStep s c).1 := by
      refine closes_closeStep fun fd hfd ↦ ⟨(w.connections s).serial, ?_⟩
      subst hfd
      exact h.holds _ (List.mem_of_getElem? hp) s rfl fd rfl
    have hp' : (w.closeStep s c).1.threads[p]? = some (.sweep kind g todo (.closing s c)) := by
      rw [threads_closeStep]
      exact hp
    exact hclose.trans (closes_goTo hp' fun s hs ↦ by cases hs)
  | _ => cases todo <;> cases hstep

end Kept

end Kitty.Forwarding
