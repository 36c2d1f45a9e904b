import Kitty.Base.Bytes
import Mathlib.Logic.Function.Basic

/-!
# Length-prefixed frames

A message on a byte stream: four bytes of length, most significant first, and the bytes. A
reader that takes the length and then as many bytes gets back what was sent, as long as the
stream holds whole frames and at most the beginning of another one. Several writers may
share streams when each begins a frame only where no other is in the middle of one.
-/

namespace Kitty.Base

/-- A message with its length before it. -/
def frame (msg : Bytes) : Bytes := be32 msg.length ++ msg

/-- The first frame of a stream, when it is there in full, and what follows it. -/
def readFrame (stream : Bytes) : Option (Bytes × Bytes) :=
  if stream.length < 4 then none
  else
    let len := readBe32 stream 0
    if (stream.drop 4).length < len then none
    else some ((stream.drop 4).take len, (stream.drop 4).drop len)

/-- At most so many frames of a stream. -/
def readFramesUpTo : Nat → Bytes → List Bytes
  | 0, _ => []
  | fuel + 1, stream =>
    match readFrame stream with
    | some (msg, rest) => msg :: readFramesUpTo fuel rest
    | none => []

/-- The messages of a stream. A frame has at least four bytes. -/
def readFrames (stream : Bytes) : List Bytes := readFramesUpTo stream.length stream

@[simp] theorem length_frame (msg : Bytes) : (frame msg).length = 4 + msg.length := by
  simp [frame]

/-- The length is read from the first four bytes. -/
theorem readBe32_frame (msg rest : Bytes) :
    readBe32 (frame msg ++ rest) 0 = msg.length % 2 ^ 32 := by
  have h := readBe32_be32 [] (msg ++ rest) msg.length
  rwa [List.nil_append, ← List.append_assoc] at h

/-- A frame is read back. -/
theorem readFrame_frame {msg : Bytes} (h : msg.length < 2 ^ 32) (rest : Bytes) :
    readFrame (frame msg ++ rest) = some (msg, rest) := by
  have hlen : ¬ (frame msg ++ rest).length < 4 := by
    simp only [List.length_append, length_frame]
    omega
  have hdrop : (frame msg ++ rest).drop 4 = msg ++ rest := by
    rw [frame, List.append_assoc]
    exact List.drop_left' (length_be32 _)
  rw [readFrame, if_neg hlen, readBe32_frame, Nat.mod_eq_of_lt h, hdrop]
  dsimp only
  rw [if_neg (by simp), List.take_left, List.drop_left]

/-- No frame is read from the beginning of one. -/
theorem readFrame_take {msg : Bytes} (h : msg.length < 2 ^ 32) {n : Nat} (hn : n < 4 + msg.length) :
    readFrame ((frame msg).take n) = none := by
  have hlen : ((frame msg).take n).length = n := by
    rw [List.length_take, length_frame]
    omega
  unfold readFrame
  rw [hlen]
  split
  · rfl
  · next h4 =>
    have hsplit : (frame msg).take n = be32 msg.length ++ msg.take (n - 4) := by
      rw [frame, List.take_append, length_be32, List.take_of_length_le (by simp; omega)]
    have hword := readBe32_be32 [] (msg.take (n - 4)) msg.length
    rw [List.nil_append, ← hsplit, List.length_nil, Nat.mod_eq_of_lt h] at hword
    rw [hword]
    dsimp only
    rw [if_pos]
    rw [List.length_drop, hlen]
    omega

theorem readFramesUpTo_frames {msgs : List Bytes} (h : ∀ m ∈ msgs, m.length < 2 ^ 32) {part : Bytes}
    (hp : readFrame part = none) {fuel : Nat} (hf : msgs.length ≤ fuel) :
    readFramesUpTo fuel (msgs.flatMap frame ++ part) = msgs := by
  induction msgs generalizing fuel with
  | nil =>
    cases fuel with
    | zero => rfl
    | succ fuel => simp [readFramesUpTo, hp]
  | cons m msgs ih =>
    cases fuel with
    | zero => simp at hf
    | succ fuel =>
      rw [List.flatMap_cons, List.append_assoc, readFramesUpTo,
        readFrame_frame (h m (List.mem_cons_self ..))]
      exact congrArg _ (ih (fun m' hm ↦ h m' (List.mem_cons_of_mem _ hm))
        (Nat.le_of_succ_le_succ hf))

/-- Whole frames, and at most a beginning of one more, are read as the messages sent. -/
theorem readFrames_frames {msgs : List Bytes} (h : ∀ m ∈ msgs, m.length < 2 ^ 32) {part : Bytes}
    (hp : readFrame part = none) : readFrames (msgs.flatMap frame ++ part) = msgs := by
  apply readFramesUpTo_frames h hp
  have hlen : msgs.length ≤ (msgs.flatMap frame).length := by
    clear h
    induction msgs with
    | nil => simp
    | cons m msgs ih =>
      simp only [List.flatMap_cons, List.length_append, List.length_cons, length_frame]
      omega
  rw [List.length_append]
  omega

/-! ### Several writers -/

/-- A frame of which a writer has put some bytes on a stream. -/
structure InFlight (Stream : Type) where
  stream : Stream
  msg : Bytes
  sent : Nat

section Writers

variable {Writer Stream : Type}

/-- The streams hold the messages sent, and behind them what is out of the frame in flight;
there is at most one such frame for each stream. -/
structure Framed (flight : Writer → Option (InFlight Stream)) (wire : Stream → Bytes)
    (sent : Stream → List Bytes) : Prop where
  exclusive : ∀ p q a b, flight p = some a → flight q = some b → a.stream = b.stream → p = q
  short : ∀ s, ∀ m ∈ sent s, m.length < 2 ^ 32
  shortNow : ∀ p a, flight p = some a → a.msg.length < 2 ^ 32 ∧ a.sent < 4 + a.msg.length
  idle : ∀ s, (∀ p a, flight p = some a → a.stream ≠ s) → wire s = (sent s).flatMap frame
  mid : ∀ p a, flight p = some a →
    wire a.stream = (sent a.stream).flatMap frame ++ (frame a.msg).take a.sent

variable {flight : Writer → Option (InFlight Stream)} {wire : Stream → Bytes}
  {sent : Stream → List Bytes}

theorem Framed.empty : Framed (fun _ : Writer ↦ none) (fun _ : Stream ↦ []) (fun _ ↦ []) :=
  ⟨by simp, by simp, by simp, by simp, by simp⟩

/-- A reader recovers the messages sent to the end. -/
theorem Framed.readFrames_wire (h : Framed flight wire sent) (s : Stream) :
    readFrames (wire s) = sent s := by
  by_cases hs : ∃ p a, flight p = some a ∧ a.stream = s
  · obtain ⟨p, a, ha, rfl⟩ := hs
    obtain ⟨hshort, hmore⟩ := h.shortNow p a ha
    rw [h.mid p a ha]
    exact readFrames_frames (h.short _) (readFrame_take hshort hmore)
  · have hidle := h.idle s fun p a ha hst ↦ hs ⟨p, a, ha, hst⟩
    rw [hidle, ← List.append_nil ((sent s).flatMap frame)]
    exact readFrames_frames (h.short s) rfl

/-- A writer puts more bytes of its frame on a stream on which no other frame is in flight. -/
structure Framed.Writes (flight : Writer → Option (InFlight Stream)) (p : Writer)
    (a : InFlight Stream) : Prop where
  self : flight p = if 0 < a.sent then some a else none
  alone : ∀ q b, q ≠ p → flight q = some b → b.stream ≠ a.stream
  short : a.msg.length < 2 ^ 32

/-- The bytes follow those that are there. -/
theorem Framed.wire_append (h : Framed flight wire sent) {p : Writer} {a : InFlight Stream}
    (hw : Writes flight p a) (n : Nat) :
    wire a.stream ++ ((frame a.msg).drop a.sent).take n =
      (sent a.stream).flatMap frame ++ (frame a.msg).take (a.sent + n) := by
  rw [List.take_add, ← List.append_assoc]
  congr 1
  by_cases h0 : a.sent = 0
  · rw [h0, List.take_zero, List.append_nil]
    apply h.idle a.stream
    intro q b hb
    by_cases hq : q = p
    · rw [hq, hw.self, if_neg (by omega)] at hb
      cases hb
    · exact hw.alone q b hq hb
  · exact h.mid p a (by rw [hw.self, if_pos (by omega)])

/-- A stream without frames in flight but for the writer's own. -/
private theorem idle_of_ne (h : Framed flight wire sent) {p : Writer} {a : InFlight Stream}
    (hw : Framed.Writes flight p a) {s : Stream} (hs : s ≠ a.stream)
    (hidle : ∀ q b, q ≠ p → flight q = some b → b.stream ≠ s) :
    wire s = (sent s).flatMap frame := by
  apply h.idle s
  intro q b hb
  by_cases hq : q = p
  · rw [hq, hw.self] at hb
    split at hb
    · cases hb
      exact Ne.symm hs
    · cases hb
  · exact hidle q b hq hb

variable [DecidableEq Stream]

/-- A stream on which no frame is in flight starts again. -/
theorem Framed.reopen (h : Framed flight wire sent) {s : Stream}
    (hs : ∀ p a, flight p = some a → a.stream ≠ s) :
    Framed flight (Function.update wire s []) (Function.update sent s []) where
  exclusive := h.exclusive
  short s' m hm := by
    by_cases he : s' = s
    · subst he
      simp at hm
    · rw [Function.update_of_ne he] at hm
      exact h.short s' m hm
  shortNow := h.shortNow
  idle s' hidle := by
    by_cases he : s' = s
    · subst he
      simp
    · rw [Function.update_of_ne he, Function.update_of_ne he]
      exact h.idle s' hidle
  mid p a ha := by
    rw [Function.update_of_ne (hs p a ha), Function.update_of_ne (hs p a ha)]
    exact h.mid p a ha

variable [DecidableEq Writer]

/-- Part of the frame is still to come. -/
theorem Framed.more (h : Framed flight wire sent) {p : Writer} {a : InFlight Stream}
    (hw : Writes flight p a) {n : Nat} (hn : a.sent + n < 4 + a.msg.length) :
    Framed (Function.update flight p (some { a with sent := a.sent + n }))
      (Function.update wire a.stream
        (wire a.stream ++ ((frame a.msg).drop a.sent).take n)) sent where
  exclusive q r b c hb hc hst := by
    by_cases hq : q = p
    · by_cases hr : r = p
      · rw [hq, hr]
      · rw [hq, Function.update_self] at hb
        rw [Function.update_of_ne hr] at hc
        cases hb
        exact absurd hst.symm (hw.alone r c hr hc)
    · rw [Function.update_of_ne hq] at hb
      by_cases hr : r = p
      · rw [hr, Function.update_self] at hc
        cases hc
        exact absurd hst (hw.alone q b hq hb)
      · rw [Function.update_of_ne hr] at hc
        exact h.exclusive q r b c hb hc hst
  short := h.short
  shortNow q b hb := by
    by_cases hq : q = p
    · rw [hq, Function.update_self] at hb
      cases hb
      exact ⟨hw.short, hn⟩
    · rw [Function.update_of_ne hq] at hb
      exact h.shortNow q b hb
  idle s hidle := by
    have hs : s ≠ a.stream := fun he ↦
      hidle p { a with sent := a.sent + n } (Function.update_self ..) he.symm
    rw [Function.update_of_ne hs]
    exact idle_of_ne h hw hs fun q b hq hb ↦ hidle q b (by rwa [Function.update_of_ne hq])
  mid q b hb := by
    by_cases hq : q = p
    · rw [hq, Function.update_self] at hb
      cases hb
      simp only [Function.update_self]
      exact h.wire_append hw n
    · rw [Function.update_of_ne hq] at hb
      rw [Function.update_of_ne (hw.alone q b hq hb)]
      exact h.mid q b hb

/-- The last bytes of the frame are out. -/
theorem Framed.done (h : Framed flight wire sent) {p : Writer} {a : InFlight Stream}
    (hw : Writes flight p a) {n : Nat} (hn : a.sent + n = 4 + a.msg.length) :
    Framed (Function.update flight p none)
      (Function.update wire a.stream (wire a.stream ++ ((frame a.msg).drop a.sent).take n))
      (Function.update sent a.stream (sent a.stream ++ [a.msg])) where
  exclusive q r b c hb hc hst := by
    by_cases hq : q = p
    · simp [hq] at hb
    · by_cases hr : r = p
      · simp [hr] at hc
      · rw [Function.update_of_ne hq] at hb
        rw [Function.update_of_ne hr] at hc
        exact h.exclusive q r b c hb hc hst
  short s m hm := by
    by_cases hs : s = a.stream
    · rw [hs, Function.update_self] at hm
      rcases List.mem_append.mp hm with hm | hm
      · exact h.short a.stream m hm
      · rw [List.mem_singleton.mp hm]
        exact hw.short
    · rw [Function.update_of_ne hs] at hm
      exact h.short s m hm
  shortNow q b hb := by
    by_cases hq : q = p
    · simp [hq] at hb
    · rw [Function.update_of_ne hq] at hb
      exact h.shortNow q b hb
  idle s hidle := by
    by_cases hs : s = a.stream
    · rw [hs, Function.update_self, Function.update_self, h.wire_append hw, hn,
        List.take_of_length_le (Nat.le_of_eq (length_frame _))]
      simp
    · rw [Function.update_of_ne hs, Function.update_of_ne hs]
      exact idle_of_ne h hw hs fun q b hq hb ↦ hidle q b (by rwa [Function.update_of_ne hq])
  mid q b hb := by
    by_cases hq : q = p
    · simp [hq] at hb
    · rw [Function.update_of_ne hq] at hb
      have hst := hw.alone q b hq hb
      rw [Function.update_of_ne hst, Function.update_of_ne hst]
      exact h.mid q b hb

end Writers

end Kitty.Base
