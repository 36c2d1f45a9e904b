import Kitty.Base.Frame
import Mathlib.Data.List.ReduceOption

/-!
# A byte stream that arrives in pieces

What a reader with a receive timeout sees of a stream: segments of any size, and in between the
moments at which a call that waits runs into its timeout. A call that waits for `n` bytes goes
on over the ends of segments, but a timeout ends it with the bytes it has. Frames are read whole
when every timeout falls behind whole frames.
-/

namespace Kitty.Base

/-- What comes to a socket: a segment, or a timeout of the call that waits. -/
inductive Incoming where
  | segment (bs : Bytes)
  | timeout
  deriving DecidableEq

/-- The bytes in the order of their coming, with `none` for a timeout. -/
def ticks (incoming : List Incoming) : List (Option UInt8) :=
  incoming.flatMap fun
    | .segment bs => bs.map some
    | .timeout => [none]

/-- A call that waits for `n` bytes: those it has when they are all there or its time is out, and
what is still to come. Without either it does not return. -/
def waitAll : Nat → List (Option UInt8) → Option (Bytes × List (Option UInt8))
  | 0, s => some ([], s)
  | _ + 1, [] => none
  | _ + 1, none :: s => some ([], s)
  | n + 1, some b :: s => (waitAll n s).map fun r ↦ (b :: r.1, r.2)

/-- Bytes without a timeout among them are read in one call. -/
theorem waitAll_map (bs : Bytes) (rest : List (Option UInt8)) :
    waitAll bs.length (bs.map some ++ rest) = some (bs, rest) := by
  induction bs with
  | nil => rfl
  | cons b bs ih => rw [List.length_cons, List.map_cons, List.cons_append, waitAll, ih]; rfl

/-- A call returns all its bytes, or those before a timeout. -/
theorem waitAll_spec {n : Nat} {s rest : List (Option UInt8)} {bs : Bytes}
    (h : waitAll n s = some (bs, rest)) : (bs.length = n ∧ s = bs.map some ++ rest) ∨
      (bs.length < n ∧ s = bs.map some ++ none :: rest) := by
  induction n, s using waitAll.induct generalizing bs with
  | case1 s =>
    cases h
    exact .inl ⟨rfl, rfl⟩
  | case2 n => cases h
  | case3 n s =>
    cases h
    exact .inr ⟨Nat.succ_pos n, rfl⟩
  | case4 n b s ih =>
    obtain ⟨⟨bs', rest'⟩, hr, he⟩ := Option.map_eq_some_iff.mp h
    cases he
    rcases ih hr with ⟨hn, hs⟩ | ⟨hn, hs⟩
    · exact .inl ⟨by simp [hn], by simp [hs]⟩
    · exact .inr ⟨by simpa using hn, by simp [hs]⟩

/-! ### Frames between timeouts -/

/-- Whole frames, with timeouts before, between and behind them. -/
def FramesWhole : List Bytes → List (Option UInt8) → Prop
  | [], s => ∀ a ∈ s, a = none
  | m :: ms, s => ∃ k rest,
    s = List.replicate k none ++ ((frame m).map some ++ rest) ∧ FramesWhole ms rest

/-- The bytes that have come before a timeout are always those of whole messages. -/
def BetweenFrames (messages : List Bytes) (s : List (Option UInt8)) : Prop :=
  ∀ before after, s = before ++ none :: after →
    ∃ sent, sent <+: messages ∧ before.reduceOption = sent.flatMap frame

@[simp] theorem reduceOption_map_some (bs : Bytes) : (bs.map some).reduceOption = bs := by
  induction bs with
  | nil => rfl
  | cons b bs ih => simp [ih]

@[simp] theorem reduceOption_replicate_none (k : Nat) :
    (List.replicate k (none : Option UInt8)).reduceOption = [] := by
  induction k with
  | zero => rfl
  | succ k ih => simp [List.replicate_succ, ih]

/-- Only timeouts come where no byte does. -/
theorem reduceOption_eq_nil_iff {s : List (Option UInt8)} :
    s.reduceOption = [] ↔ ∀ a ∈ s, a = none := by
  induction s with
  | nil => simp
  | cons a s ih => cases a <;> simp [ih]

/-- Bytes that are to come first come without a timeout among them, or with one behind some of
them. -/
private theorem split_bytes {s : List (Option UInt8)} {f g : Bytes}
    (h : s.reduceOption = f ++ g) :
    (∃ rest, s = f.map some ++ rest ∧ rest.reduceOption = g) ∨
      ∃ (bs : Bytes) (after : List (Option UInt8)), s = bs.map some ++ none :: after ∧
        bs.length < f.length := by
  induction f generalizing s with
  | nil => exact .inl ⟨s, rfl, h⟩
  | cons b f ih =>
    cases s with
    | nil => simp at h
    | cons a s =>
      cases a with
      | none => exact .inr ⟨[], s, rfl, Nat.succ_pos _⟩
      | some c =>
        rw [List.reduceOption_cons_of_some, List.cons_append, List.cons.injEq] at h
        obtain ⟨rfl, htail⟩ := h
        rcases ih htail with ⟨rest, rfl, hrest⟩ | ⟨bs, after, rfl, hlen⟩
        · exact .inl ⟨rest, rfl, hrest⟩
        · exact .inr ⟨c :: bs, after, rfl, by simpa using hlen⟩

/-- The timeouts before the first byte. -/
private theorem split_timeouts (s : List (Option UInt8)) :
    ∃ k t, s = List.replicate k none ++ t ∧ ∀ after, t ≠ none :: after := by
  induction s with
  | nil => exact ⟨0, [], rfl, by simp⟩
  | cons a s ih =>
    cases a with
    | none =>
      obtain ⟨k, t, rfl, ht⟩ := ih
      exact ⟨k + 1, t, rfl, ht⟩
    | some b => exact ⟨0, some b :: s, rfl, by simp⟩

/-- Whole frames have no timeout inside one of them. -/
private theorem betweenFrames_of_whole {messages : List Bytes} {s : List (Option UInt8)}
    (h : FramesWhole messages s) : BetweenFrames messages s := by
  induction messages generalizing s with
  | nil =>
    intro before after hs
    refine ⟨[], List.nil_prefix, reduceOption_eq_nil_iff.mpr fun a ha ↦ h a ?_⟩
    exact hs ▸ List.mem_append_left _ ha
  | cons m ms ih =>
    obtain ⟨k, rest, rfl, hrest⟩ := h
    intro before after hs
    rcases List.append_eq_append_iff.mp hs with ⟨mid, hbefore, hmid⟩ | ⟨mid, hk, hmid⟩
    · rcases List.append_eq_append_iff.mp hmid with ⟨last, rfl, hlast⟩ | ⟨last, hm, hlast⟩
      · obtain ⟨sent, hsent, hbytes⟩ := ih hrest last after hlast
        refine ⟨m :: sent, List.cons_prefix_cons.mpr ⟨rfl, hsent⟩, ?_⟩
        rw [hbefore, List.reduceOption_append, List.reduceOption_append,
          reduceOption_replicate_none, reduceOption_map_some, hbytes]
        rfl
      · cases last with
        | nil =>
          rw [List.append_nil] at hm
          obtain ⟨sent, hsent, hbytes⟩ := ih hrest [] after hlast.symm
          refine ⟨m :: sent, List.cons_prefix_cons.mpr ⟨rfl, hsent⟩, ?_⟩
          rw [hbefore, ← hm, List.reduceOption_append, reduceOption_replicate_none,
            reduceOption_map_some, List.flatMap_cons, ← hbytes]
          simp
        | cons a last =>
          rw [List.cons_append, List.cons.injEq] at hlast
          have hmem : none ∈ (frame m).map some := by rw [hm, ← hlast.1]; simp
          simp at hmem
    · refine ⟨[], List.nil_prefix, reduceOption_eq_nil_iff.mpr fun a ha ↦ ?_⟩
      exact List.eq_of_mem_replicate (hk ▸ List.mem_append_left _ ha)

/-- Timeouts behind whole frames leave the frames whole. -/
private theorem whole_of_betweenFrames {messages : List Bytes} {s : List (Option UInt8)}
    (hbytes : s.reduceOption = messages.flatMap frame) (h : BetweenFrames messages s) :
    FramesWhole messages s := by
  induction messages generalizing s with
  | nil => exact reduceOption_eq_nil_iff.mp hbytes
  | cons m ms ih =>
    obtain ⟨k, t, rfl, ht⟩ := split_timeouts s
    rw [List.reduceOption_append, reduceOption_replicate_none, List.nil_append,
      List.flatMap_cons] at hbytes
    rcases split_bytes hbytes with ⟨rest, rfl, hrest⟩ | ⟨bs, after, rfl, hlen⟩
    · refine ⟨k, rest, rfl, ih hrest ?_⟩
      intro before after hr
      obtain ⟨sent, hsent, hsame⟩ := h (List.replicate k none ++ ((frame m).map some ++ before))
        after (by rw [hr]; simp)
      rw [List.reduceOption_append, reduceOption_replicate_none, List.nil_append,
        List.reduceOption_append, reduceOption_map_some] at hsame
      cases sent with
      | nil =>
        have := congrArg List.length hsame
        simp at this
      | cons a sent =>
        obtain ⟨rfl, hprefix⟩ := List.cons_prefix_cons.mp hsent
        exact ⟨sent, hprefix, List.append_cancel_left hsame⟩
    · obtain ⟨sent, hsent, hsame⟩ := h (List.replicate k none ++ bs.map some) after (by simp)
      rw [List.reduceOption_append, reduceOption_replicate_none, List.nil_append,
        reduceOption_map_some] at hsame
      cases sent with
      | nil =>
        rw [show bs = [] from hsame] at ht
        exact absurd rfl (ht after)
      | cons a sent =>
        obtain ⟨rfl, -⟩ := List.cons_prefix_cons.mp hsent
        rw [hsame, List.flatMap_cons, List.length_append] at hlen
        omega

/-- Where the timeouts fall when the frames are whole. -/
theorem framesWhole_iff {messages : List Bytes} {s : List (Option UInt8)}
    (hbytes : s.reduceOption = messages.flatMap frame) :
    FramesWhole messages s ↔ BetweenFrames messages s :=
  ⟨betweenFrames_of_whole, whole_of_betweenFrames hbytes⟩

end Kitty.Base
