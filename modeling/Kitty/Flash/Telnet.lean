import Kitty.Base.Arrivals
import Kitty.Base.Find
import Kitty.Base.Pieces

/-!
# The telnet client of the flasher

Class `Telnet` of `tools/flash-kitty.py:88–133` and the loop at the end of `telnet_login`
(136–148). Option negotiations are taken out of each block that `recv` returns, with nothing kept
from one block to the next.
-/

namespace Kitty.Flash

open Kitty.Base

/-! ### One block -/

/-- The byte that begins a negotiation. -/
def IAC : UInt8 := 0xFF

/-- The answer to a negotiation: `DONT` to `WILL`, `WONT` to `DO`. -/
def reply (cmd opt : UInt8) : Bytes :=
  if cmd = 0xFB then [0xFF, 0xFE, opt]
  else if cmd = 0xFD then [0xFF, 0xFC, opt]
  else []

/-- `Telnet._neg`: the text of a block and the replies that are sent for it. A byte with fewer than
two behind it is text, whatever it is. -/
def neg : Bytes → Bytes × Bytes
  | b :: cmd :: opt :: data =>
    if b = IAC then ((neg data).1, reply cmd opt ++ (neg data).2)
    else (b :: (neg (cmd :: opt :: data)).1, (neg (cmd :: opt :: data)).2)
  | data => (data, [])

/-! ### The client -/

/-- A client: its buffer, what it has sent in reply to negotiations, and, beside what it holds
itself, the text that `rd` has returned. -/
structure Telnet where
  buf : Bytes
  replies : Bytes
  returned : Bytes
  deriving DecidableEq, Repr

/-- A client that has just connected. -/
def Telnet.new : Telnet := ⟨[], [], []⟩

/-- All the text that a client has accumulated. -/
def Telnet.text (t : Telnet) : Bytes := t.returned ++ t.buf

/-- `self.buf += self._neg(ch)` -/
def Telnet.recv (t : Telnet) (ch : Bytes) : Telnet :=
  ⟨t.buf ++ (neg ch).1, t.replies ++ (neg ch).2, t.returned⟩

/-- The end of `rd`: the text up to the marker, or a `TimeoutError`. -/
def Telnet.upTo (marker : Bytes) (t : Telnet) : Option Bytes × Telnet :=
  match find marker t.buf with
  | some found =>
    let i := found + marker.length
    (some (t.buf.take i), ⟨t.buf.drop i, t.replies, t.returned ++ t.buf.take i⟩)
  | none => (none, t)

/-- `Telnet.rd` with a number of rounds before its deadline, and what is still to come after it. An
empty block is the end of the connection; where nothing is to come, the deadline passes. -/
def Telnet.rd (marker : Bytes) : Nat → Telnet → List Incoming →
    (Option Bytes × Telnet) × List Incoming
  | 0, t, incoming => (t.upTo marker, incoming)
  | rounds + 1, t, incoming =>
    if (find marker t.buf).isSome then (t.upTo marker, incoming)
    else
      match incoming with
      | [] => (t.upTo marker, [])
      | .timeout :: incoming => rd marker rounds t incoming
      | .segment ch :: incoming =>
        if ch = [] then (t.upTo marker, incoming) else rd marker rounds (t.recv ch) incoming

/-- The loop of `telnet_login` that takes what comes until a timeout. -/
def Telnet.drain (t : Telnet) : List Incoming → Telnet × List Incoming
  | [] => (t, [])
  | .timeout :: incoming => (t, incoming)
  | .segment ch :: incoming => if ch = [] then (t, incoming) else drain (t.recv ch) incoming

/-- A reading call of the flasher. -/
inductive Call where
  | rd (marker : Bytes) (rounds : Nat)
  | drain
  deriving DecidableEq, Repr

/-- The calls of a session, one after the other; a `TimeoutError` leaves the client as it is. -/
def Telnet.session (t : Telnet) : List Call → List Incoming → Telnet × List Incoming
  | [], incoming => (t, incoming)
  | .rd marker rounds :: calls, incoming =>
    let r := t.rd marker rounds incoming
    session r.1.2 calls r.2
  | .drain :: calls, incoming =>
    let r := t.drain incoming
    session r.1 calls r.2

/-! ### What a session accumulates -/

/-- The blocks among what comes. -/
def blocks (incoming : List Incoming) : List Bytes :=
  incoming.filterMap fun
    | .segment ch => some ch
    | .timeout => none

/-- From one state to another a client has taken blocks in, each for itself. -/
def Telnet.TookIn (t : Telnet) (pieces : List Bytes) (t' : Telnet) : Prop :=
  t'.text = t.text ++ pieces.flatMap (fun ch ↦ (neg ch).1) ∧
    t'.replies = t.replies ++ pieces.flatMap (fun ch ↦ (neg ch).2)

theorem Telnet.TookIn.refl (t : Telnet) : t.TookIn [] t := by
  simp [Telnet.TookIn]

theorem Telnet.TookIn.trans {t t' t'' : Telnet} {pieces pieces' : List Bytes}
    (h : t.TookIn pieces t') (h' : t'.TookIn pieces' t'') : t.TookIn (pieces ++ pieces') t'' := by
  constructor
  · rw [h'.1, h.1, List.flatMap_append, List.append_assoc]
  · rw [h'.2, h.2, List.flatMap_append, List.append_assoc]

theorem Telnet.tookIn_recv (t : Telnet) (ch : Bytes) : t.TookIn [ch] (t.recv ch) := by
  simp [Telnet.TookIn, Telnet.recv, Telnet.text]

/-- Returning text takes none away. -/
theorem Telnet.tookIn_upTo (t : Telnet) (marker : Bytes) : t.TookIn [] (t.upTo marker).2 := by
  rw [Telnet.upTo]
  split
  · simp [Telnet.TookIn, Telnet.text]
  · exact .refl t

/-- A call takes in the blocks that it does not leave to come. -/
theorem Telnet.tookIn_rd (marker : Bytes) (rounds : Nat) (t : Telnet) (incoming : List Incoming) :
    ∃ pieces, blocks incoming = pieces ++ blocks (t.rd marker rounds incoming).2 ∧
      t.TookIn pieces (t.rd marker rounds incoming).1.2 := by
  fun_induction Telnet.rd marker rounds t incoming with
  | case1 t incoming => exact ⟨[], rfl, t.tookIn_upTo marker⟩
  | case2 rounds t incoming hfound => exact ⟨[], rfl, t.tookIn_upTo marker⟩
  | case3 rounds t hfound => exact ⟨[], rfl, t.tookIn_upTo marker⟩
  | case4 rounds t hfound incoming ih => exact ih
  | case5 rounds t hfound incoming =>
    exact ⟨[[]], rfl, by simpa [Telnet.TookIn, neg] using t.tookIn_upTo marker⟩
  | case6 rounds t hfound ch incoming hch ih =>
    obtain ⟨pieces, hblocks, htook⟩ := ih
    exact ⟨ch :: pieces, congrArg (ch :: ·) hblocks, (t.tookIn_recv ch).trans htook⟩

theorem Telnet.tookIn_drain (t : Telnet) (incoming : List Incoming) :
    ∃ pieces, blocks incoming = pieces ++ blocks (t.drain incoming).2 ∧
      t.TookIn pieces (t.drain incoming).1 := by
  fun_induction Telnet.drain t incoming with
  | case1 t => exact ⟨[], rfl, .refl t⟩
  | case2 t incoming => exact ⟨[], rfl, .refl t⟩
  | case3 t incoming => exact ⟨[[]], rfl, by simp [Telnet.TookIn, neg]⟩
  | case4 t ch incoming hch ih =>
    obtain ⟨pieces, hblocks, htook⟩ := ih
    exact ⟨ch :: pieces, congrArg (ch :: ·) hblocks, (t.tookIn_recv ch).trans htook⟩

/-- A session takes in the blocks that it does not leave to come, whatever its calls. -/
theorem Telnet.tookIn_session (t : Telnet) (calls : List Call) (incoming : List Incoming) :
    ∃ pieces, blocks incoming = pieces ++ blocks (t.session calls incoming).2 ∧
      t.TookIn pieces (t.session calls incoming).1 := by
  induction calls generalizing t incoming with
  | nil => exact ⟨[], rfl, .refl t⟩
  | cons call calls ih =>
    cases call with
    | rd marker rounds =>
      obtain ⟨first, hfirst, htook⟩ := t.tookIn_rd marker rounds incoming
      obtain ⟨pieces, hpieces, htook'⟩ := ih (t.rd marker rounds incoming).1.2
        (t.rd marker rounds incoming).2
      refine ⟨first ++ pieces, ?_, htook.trans htook'⟩
      rw [hfirst, hpieces, List.append_assoc]
      rfl
    | drain =>
      obtain ⟨first, hfirst, htook⟩ := t.tookIn_drain incoming
      obtain ⟨pieces, hpieces, htook'⟩ := ih (t.drain incoming).1 (t.drain incoming).2
      refine ⟨first ++ pieces, ?_, htook.trans htook'⟩
      rw [hfirst, hpieces, List.append_assoc]
      rfl

/-! ### Text and negotiations -/

/-- What a server sends: a byte of text, or a negotiation. -/
inductive Item where
  | text (b : UInt8) (h : b ≠ IAC)
  | negotiation (cmd opt : UInt8)

/-- An item as it is sent. -/
def Item.wire : Item → Bytes
  | .text b _ => [b]
  | .negotiation cmd opt => [IAC, cmd, opt]

/-- The text of an item. -/
def Item.shown : Item → Bytes
  | .text b _ => [b]
  | .negotiation _ _ => []

/-- The reply that an item asks for. -/
def Item.answer : Item → Bytes
  | .text _ _ => []
  | .negotiation cmd opt => reply cmd opt

theorem Item.wire_ne_nil (item : Item) : item.wire ≠ [] := by
  cases item <;> exact List.cons_ne_nil _ _

theorem Item.iac_not_mem_shown (item : Item) : IAC ∉ item.shown := by
  cases item with
  | text b h => simpa [Item.shown] using h.symm
  | negotiation cmd opt => simp [Item.shown]

/-- Text is text, however many bytes follow it. -/
theorem neg_cons_of_ne {b : UInt8} (h : b ≠ IAC) (data : Bytes) :
    neg (b :: data) = (b :: (neg data).1, (neg data).2) := by
  match data with
  | [] => rfl
  | [c] => rfl
  | cmd :: opt :: data => rw [neg, if_neg h]

theorem neg_iac (cmd opt : UInt8) (data : Bytes) :
    neg (IAC :: cmd :: opt :: data) = ((neg data).1, reply cmd opt ++ (neg data).2) := by
  rw [neg, if_pos rfl]

/-- Whole items at the beginning of a block are read as what they are. -/
theorem neg_items_append (items : List Item) (data : Bytes) :
    neg (items.flatMap Item.wire ++ data) =
      (items.flatMap Item.shown ++ (neg data).1, items.flatMap Item.answer ++ (neg data).2) := by
  induction items with
  | nil => rfl
  | cons item items ih =>
    cases item with
    | text b h =>
      rw [List.flatMap_cons, Item.wire, List.singleton_append, List.cons_append,
        neg_cons_of_ne h, ih]
      rfl
    | negotiation cmd opt =>
      change neg (IAC :: cmd :: opt :: (items.flatMap Item.wire ++ data)) = _
      rw [neg_iac, ih]
      simp [Item.shown, Item.answer]

theorem neg_items (items : List Item) :
    neg (items.flatMap Item.wire) = (items.flatMap Item.shown, items.flatMap Item.answer) := by
  simpa [neg] using neg_items_append items []

/-- The part of a negotiation at the end of a block is text, and begins with `IAC`. -/
theorem iac_mem_neg {piece : Bytes} (h : CutsItem Item.wire piece) : IAC ∈ (neg piece).1 := by
  obtain ⟨items, item, part, rest, rfl, hwire, hpart, hrest⟩ := h
  have hshort : IAC ∈ part ∧ part.length ≤ 2 := by
    cases item with
    | text b h =>
      have := congrArg List.length hwire
      have hp := List.length_pos_of_ne_nil hpart
      have hr := List.length_pos_of_ne_nil hrest
      simp only [Item.wire, List.length_append, List.length_singleton] at this
      omega
    | negotiation cmd opt =>
      have := congrArg List.length hwire
      have hr := List.length_pos_of_ne_nil hrest
      simp only [Item.wire, List.length_append, List.length_cons, List.length_nil] at this
      cases part with
      | nil => exact absurd rfl hpart
      | cons b part =>
        rw [Item.wire, List.cons_append, List.cons.injEq] at hwire
        simp only [List.length_cons] at this ⊢
        exact ⟨by simp [hwire.1], by omega⟩
  rw [neg_items_append]
  refine List.mem_append_right _ ?_
  match part, hshort with
  | [], h => exact h.1
  | [b], h => exact h.1
  | [b, c], h => exact h.1

/-! ### Splits -/

/-- A client reads a stream of text and negotiations as it is sent exactly when every block is made
of whole items, whatever calls it reads them with. -/
theorem session_items_iff {items : List Item} {calls : List Call} {incoming : List Incoming}
    (hbytes : (blocks incoming).flatten = items.flatMap Item.wire)
    (hread : (Telnet.new.session calls incoming).2 = []) :
    ((Telnet.new.session calls incoming).1.text = items.flatMap Item.shown ∧
      (Telnet.new.session calls incoming).1.replies = items.flatMap Item.answer) ↔
    WholeItems Item.wire items (blocks incoming) := by
  obtain ⟨pieces, hpieces, htext, hreplies⟩ := Telnet.new.tookIn_session calls incoming
  have hall : blocks incoming = pieces := by
    rw [hpieces, hread]
    exact List.append_nil _
  rw [htext, hreplies, hall]
  rw [hall] at hbytes
  constructor
  · rintro ⟨hshown, -⟩
    refine wholeItems_of_not_cuts Item.wire_ne_nil hbytes fun piece hpiece hcut ↦ ?_
    have hmem : IAC ∈ items.flatMap Item.shown := by
      rw [← hshown]
      exact List.mem_append_right _ (List.mem_flatMap.mpr ⟨piece, hpiece, iac_mem_neg hcut⟩)
    obtain ⟨item, -, hitem⟩ := List.mem_flatMap.mp hmem
    exact item.iac_not_mem_shown hitem
  · intro hwhole
    exact ⟨hwhole.flatMap_eq fun items ↦ congrArg Prod.fst (neg_items items),
      hwhole.flatMap_eq fun items ↦ congrArg Prod.snd (neg_items items)⟩

/-- A server that will echo, and asks for a login. -/
def greeting : List Item :=
  [.negotiation 0xFB 1, .text 108 (by decide), .text 111 (by decide), .text 103 (by decide),
    .text 105 (by decide), .text 110 (by decide), .text 58 (by decide)]

theorem session_items_greeting :
    (Telnet.new.session [.rd (lit "login:") 8, .drain]
        [.segment [0xFF, 0xFB, 1], .timeout, .segment (lit "login:")]).1.text =
          greeting.flatMap Item.shown ∧
      (Telnet.new.session [.rd (lit "login:") 8, .drain]
        [.segment [0xFF, 0xFB, 1], .timeout, .segment (lit "login:")]).1.replies =
          greeting.flatMap Item.answer :=
  (session_items_iff (by decide) (by decide)).mpr
    ⟨[greeting.take 1, greeting.drop 1], rfl, by decide⟩

/-- With a block that ends behind the first byte of a negotiation, the negotiation is text, and
nothing is sent in reply. -/
theorem session_split_greeting :
    (blocks [.segment [0xFF], .segment ([0xFB, 1] ++ lit "login:")]).flatten =
      greeting.flatMap Item.wire ∧
    (Telnet.new.session [.rd (lit "login:") 8]
      [.segment [0xFF], .segment ([0xFB, 1] ++ lit "login:")]).2 = [] ∧
    (Telnet.new.session [.rd (lit "login:") 8]
      [.segment [0xFF], .segment ([0xFB, 1] ++ lit "login:")]).1.text =
        [0xFF, 0xFB, 1] ++ lit "login:" ∧
    (Telnet.new.session [.rd (lit "login:") 8]
      [.segment ([0xFF, 0xFB, 1] ++ lit "login:")]).1.text = lit "login:" ∧
    (Telnet.new.session [.rd (lit "login:") 8]
      [.segment [0xFF], .segment ([0xFB, 1] ++ lit "login:")]).1.replies = [] ∧
    (Telnet.new.session [.rd (lit "login:") 8]
      [.segment ([0xFF, 0xFB, 1] ++ lit "login:")]).1.replies = [0xFF, 0xFE, 1] := by
  decide

end Kitty.Flash
