import Kitty.Base.Bytes
import Kitty.Base.Stores
import Mathlib.Data.List.Flatten

/-!
# Texts appended at a running offset

`n += snprintf(buf + n, size - n, ..)` with an `int` for the offset and 32 bits for `size_t`. The
offset grows by the whole text also where not all of it fits, and then the difference wraps around.
So nothing falls outside the buffer exactly when the offset never reaches its end.
-/

namespace Kitty.Base

/-- The greatest `int`. -/
def intMax : Nat := 2 ^ 31 - 1

/-- What has been stored to the buffer, and the offset. -/
structure Appended where
  stores : List (Store UInt8)
  n : Nat
  deriving DecidableEq, Repr

/-- Nothing has been stored. -/
def Appended.start : Appended := ⟨[], 0⟩

/-- `snprintf(buf + off, size, ..)` of a text. -/
def printed (off size : Nat) (text : Bytes) : Store UInt8 :=
  ⟨off, if size = 0 then [] else text.take (size - 1) ++ [NUL]⟩

/-- `n += snprintf(buf + n, buflen - n, ..)`; `none` when the sum is not an `int`. -/
def Appended.append (buflen : BitVec 32) (p : Appended) (text : Bytes) : Option Appended :=
  if p.n + text.length ≤ intMax then
    some ⟨p.stores ++ [printed p.n (buflen - BitVec.ofNat 32 p.n).toNat text], p.n + text.length⟩
  else none

/-- Texts appended one after the other. -/
def Appended.appendAll (buflen : BitVec 32) (p : Appended) (texts : List Bytes) : Option Appended :=
  texts.foldlM (Appended.append buflen) p

/-- Texts appended one after the other while the offset is below a limit. -/
def Appended.appendBelow (buflen : BitVec 32) (limit : Int) :
    Appended → List Bytes → Option Appended
  | p, [] => some p
  | p, text :: texts =>
    if (p.n : Int) < limit then (p.append buflen text).bind fun p ↦ p.appendBelow buflen limit texts
    else some p

/-- All of the stores are inside the buffer and leave a string in it, which ends at the offset. -/
def Appended.InBuffer (buflen : Nat) (p : Appended) : Prop :=
  (∀ store ∈ p.stores, store.Inside buflen) ∧ p.n < buflen ∧
    ∀ cells, ∃ text, NUL ∉ text ∧ text.length = p.n ∧
      slice (stored cells p.stores) 0 (p.n + 1) = text ++ [NUL]

/-! ### Which texts are appended -/

/-- The texts that begin below the limit when they are laid one behind the other. -/
def below (limit : Int) : Nat → List Bytes → List Bytes
  | _, [] => []
  | n, text :: texts =>
    if (n : Int) < limit then text :: below limit (n + text.length) texts else []

/-- Laid one behind the other, what begins below the limit ends at most `slack` behind it. -/
def EndsBy (limit slack : Nat) : Nat → List Bytes → Prop
  | _, [] => True
  | n, text :: texts =>
    n < limit → n + text.length ≤ limit + slack ∧ EndsBy limit slack (n + text.length) texts

instance decidableEndsBy (limit slack : Nat) :
    (n : Nat) → (texts : List Bytes) → Decidable (EndsBy limit slack n texts)
  | _, [] => isTrue trivial
  | n, text :: texts =>
    have := decidableEndsBy limit slack (n + text.length) texts
    inferInstanceAs (Decidable
      (n < limit → n + text.length ≤ limit + slack ∧ EndsBy limit slack (n + text.length) texts))

theorem below_of_le {limit : Int} {n : Nat} (h : limit ≤ n) (texts : List Bytes) :
    below limit n texts = [] := by
  cases texts with
  | nil => rfl
  | cons text texts => rw [below, if_neg (by omega)]

theorem endsBy_of_le {limit slack n : Nat} (h : limit ≤ n) (texts : List Bytes) :
    EndsBy limit slack n texts := by
  cases texts with
  | nil => trivial
  | cons text texts => exact fun hn ↦ by omega

/-- Texts that all end in time keep the limit. -/
theorem endsBy_of_length_le {limit slack n : Nat} {texts : List Bytes}
    (h : n + texts.flatten.length ≤ limit + slack) : EndsBy limit slack n texts := by
  induction texts generalizing n with
  | nil => trivial
  | cons text texts ih =>
    rw [List.flatten_cons, List.length_append] at h
    exact fun _ ↦ ⟨by omega, ih (by omega)⟩

theorem below_sublist (limit : Int) (n : Nat) (texts : List Bytes) :
    (below limit n texts).Sublist texts := by
  induction texts generalizing n with
  | nil => exact List.Sublist.slnil
  | cons text texts ih =>
    rw [below]
    split
    · exact (ih _).cons_cons text
    · exact List.nil_sublist _

/-- Where the texts that are appended end below the limit, they are all of the texts. -/
theorem below_eq_self {limit : Int} {n : Nat} {texts : List Bytes}
    (h : (n + (below limit n texts).flatten.length : Int) < limit) :
    below limit n texts = texts := by
  induction texts generalizing n with
  | nil => rfl
  | cons text texts ih =>
    rw [below] at h ⊢
    split at h
    · next hn =>
      rw [List.flatten_cons, List.length_append] at h
      rw [if_pos hn, ih (by push_cast at h ⊢; omega)]
    · next hn =>
      rw [List.flatten_nil, List.length_nil] at h
      omega

/-- Texts that all end below the limit are all appended. -/
theorem below_of_lt {limit : Int} {n : Nat} {texts : List Bytes}
    (h : (n + texts.flatten.length : Int) < limit) : below limit n texts = texts := by
  have hle := (below_sublist limit n texts).flatten.length_le
  exact below_eq_self (by omega)

/-- The texts that are appended end in time when each of them does. -/
theorem below_le_iff_endsBy {limit slack n : Nat} (hn : n ≤ limit + slack) (texts : List Bytes) :
    n + (below limit n texts).flatten.length ≤ limit + slack ↔ EndsBy limit slack n texts := by
  induction texts generalizing n with
  | nil => simpa [below, EndsBy] using hn
  | cons text texts ih =>
    rw [below, EndsBy]
    by_cases hlt : n < limit
    · rw [if_pos (by omega), List.flatten_cons, List.length_append, ← Nat.add_assoc]
      by_cases hend : n + text.length ≤ limit + slack
      · rw [ih hend]
        exact ⟨fun h _ ↦ ⟨hend, h⟩, fun h ↦ (h hlt).2⟩
      · rw [below_of_le (by omega)]
        exact ⟨fun h ↦ absurd (by simpa using h) hend, fun h ↦ absurd (h hlt).1 hend⟩
    · rw [if_neg (by omega)]
      exact ⟨fun _ h ↦ absurd h hlt, fun _ ↦ by simpa using hn⟩

/-- Texts behind others begin below the limit only when none of the others was left out. -/
theorem endsBy_below_iff {limit slack n : Nat} (texts texts' : List Bytes) (k : Nat) :
    EndsBy limit slack (n + (below limit n texts).flatten.length + k) texts' ↔
      EndsBy limit slack (n + texts.flatten.length + k) texts' := by
  by_cases hlt : n + (below limit n texts).flatten.length < limit
  · rw [below_eq_self (by exact_mod_cast hlt)]
  · have hle := (below_sublist limit n texts).flatten.length_le
    exact ⟨fun _ ↦ endsBy_of_le (by omega) texts', fun _ ↦ endsBy_of_le (by omega) texts'⟩

theorem appendAll_cons (buflen : BitVec 32) (p : Appended) (text : Bytes) (texts : List Bytes) :
    p.appendAll buflen (text :: texts) =
      (p.append buflen text).bind fun p ↦ p.appendAll buflen texts := List.foldlM_cons

theorem appendAll_append (buflen : BitVec 32) (p : Appended) (texts texts' : List Bytes) :
    p.appendAll buflen (texts ++ texts') =
      (p.appendAll buflen texts).bind fun p ↦ p.appendAll buflen texts' := List.foldlM_append

/-! ### The offset -/

theorem n_of_append {buflen : BitVec 32} {p p' : Appended} {text : Bytes}
    (h : p.append buflen text = some p') : p'.n = p.n + text.length := by
  rw [Appended.append] at h
  split at h
  · cases h
    rfl
  · cases h

theorem le_of_append {buflen : BitVec 32} {p p' : Appended} {text : Bytes}
    (h : p.append buflen text = some p') : p'.n ≤ intMax := by
  rw [n_of_append h]
  rw [Appended.append] at h
  split at h
  · next hle => exact hle
  · cases h

/-- The offset counts every text, whether it fitted or not. -/
theorem n_of_appendAll {buflen : BitVec 32} {p p' : Appended} {texts : List Bytes}
    (h : p.appendAll buflen texts = some p') : p'.n = p.n + texts.flatten.length := by
  induction texts generalizing p with
  | nil =>
    cases h
    rfl
  | cons text texts ih =>
    rw [appendAll_cons] at h
    obtain ⟨p₁, hp₁, hrest⟩ := Option.bind_eq_some_iff.mp h
    rw [ih hrest, n_of_append hp₁, List.flatten_cons, List.length_append, Nat.add_assoc]

theorem le_of_appendAll {buflen : BitVec 32} {p p' : Appended} {texts : List Bytes}
    (hp : p.n ≤ intMax) (h : p.appendAll buflen texts = some p') : p'.n ≤ intMax := by
  induction texts generalizing p with
  | nil =>
    cases h
    exact hp
  | cons text texts ih =>
    rw [appendAll_cons] at h
    obtain ⟨p₁, hp₁, hrest⟩ := Option.bind_eq_some_iff.mp h
    exact ih (le_of_append hp₁) hrest

/-- Which texts are appended below a limit depends on their lengths alone. -/
theorem appendBelow_eq (buflen : BitVec 32) (limit : Int) (p : Appended) (texts : List Bytes) :
    p.appendBelow buflen limit texts = p.appendAll buflen (below limit p.n texts) := by
  induction texts generalizing p with
  | nil => rfl
  | cons text texts ih =>
    rw [Appended.appendBelow, below]
    split
    · rw [appendAll_cons]
      exact Option.bind_congr fun p' hp ↦ by rw [ih, n_of_append hp]
    · rfl

/-! ### Texts that fit -/

/-- The text that has been appended is in the buffer as it is. -/
structure Appended.Holds (buflen : Nat) (p : Appended) (text : Bytes) : Prop where
  n_eq : p.n = text.length
  nul_not_mem : NUL ∉ text
  inside : ∀ store ∈ p.stores, store.Inside buflen
  holds : ∀ cells, slice (stored cells p.stores) 0 p.n = text

theorem Appended.holds_start (buflen : Nat) : Appended.start.Holds buflen [] :=
  ⟨rfl, List.not_mem_nil, by simp [Appended.start], fun _ ↦ rfl⟩

/-- A text that fits is stored behind what is there, with a NUL behind it. -/
theorem Appended.Holds.append {buflen : BitVec 32} {p : Appended} {text text' : Bytes}
    (h : p.Holds buflen.toNat text) (hnul : NUL ∉ text')
    (hfits : p.n + text'.length < buflen.toNat) (hint : p.n + text'.length ≤ intMax) :
    ∃ p', p.append buflen text' = some p' ∧ p'.Holds buflen.toNat (text ++ text') ∧
      p'.InBuffer buflen.toNat := by
  have hn : (BitVec.ofNat 32 p.n).toNat = p.n := by
    rw [BitVec.toNat_ofNat]
    have := buflen.isLt
    omega
  have hsize : (buflen - BitVec.ofNat 32 p.n).toNat = buflen.toNat - p.n := by
    rw [BitVec.toNat_sub_of_le (BitVec.le_def.mpr (by omega)), hn]
  have hprinted : printed p.n (buflen - BitVec.ofNat 32 p.n).toNat text' =
      ⟨p.n, text' ++ [NUL]⟩ := by
    rw [printed, hsize, if_neg (by omega), List.take_of_length_le (by omega)]
  have hinside : ∀ store ∈ p.stores ++ [⟨p.n, text' ++ [NUL]⟩], store.Inside buflen.toNat := by
    intro store hmem
    rcases List.mem_append.mp hmem with hmem | hmem
    · exact h.inside store hmem
    · obtain rfl := List.mem_singleton.mp hmem
      simp only [Store.Inside, List.length_append, List.length_singleton]
      omega
  have hslice : ∀ cells, slice (stored cells (p.stores ++ [⟨p.n, text' ++ [NUL]⟩])) 0
      (p.n + text'.length + 1) = text ++ text' ++ [NUL] := by
    intro cells
    have hend := slice_copyAt_end (stored cells p.stores) p.n (text' ++ [NUL])
    rw [List.length_append, List.length_singleton, ← Nat.add_assoc, h.holds] at hend
    rw [stored_append, List.append_assoc]
    exact hend
  have hnul' : NUL ∉ text ++ text' := by simp [h.nul_not_mem, hnul]
  refine ⟨⟨p.stores ++ [⟨p.n, text' ++ [NUL]⟩], p.n + text'.length⟩, ?_, ?_, ?_⟩
  · rw [Appended.append, if_pos hint, hprinted]
  · refine ⟨by rw [h.n_eq, List.length_append], hnul', hinside, fun cells ↦ ?_⟩
    have hcells := hslice cells
    rw [slice_add] at hcells
    exact (List.append_inj' hcells rfl).1
  · exact ⟨hinside, hfits, fun cells ↦ ⟨text ++ text', hnul',
      by rw [h.n_eq, List.length_append], hslice cells⟩⟩

/-- So are texts that fit one after the other. -/
theorem Appended.Holds.appendAll {buflen : BitVec 32} {p : Appended} {text : Bytes}
    (h : p.Holds buflen.toNat text) {texts : List Bytes} (hnul : ∀ t ∈ texts, NUL ∉ t)
    (hfits : p.n + texts.flatten.length < buflen.toNat)
    (hint : p.n + texts.flatten.length ≤ intMax) :
    ∃ p', p.appendAll buflen texts = some p' ∧ p'.Holds buflen.toNat (text ++ texts.flatten) ∧
      (texts ≠ [] → p'.InBuffer buflen.toNat) := by
  induction texts generalizing p text with
  | nil => exact ⟨p, rfl, by simpa using h, absurd rfl⟩
  | cons t texts ih =>
    rw [List.flatten_cons, List.length_append] at hfits hint
    obtain ⟨p₁, hp₁, hholds, hbuffer⟩ := h.append (hnul t List.mem_cons_self) (by omega) (by omega)
    have hn := n_of_append hp₁
    obtain ⟨p', hp', hholds', hbuffer'⟩ := ih hholds (fun s hs ↦ hnul s (List.mem_cons_of_mem _ hs))
      (by omega) (by omega)
    refine ⟨p', ?_, by simpa using hholds', fun _ ↦ ?_⟩
    · rw [appendAll_cons, hp₁]
      exact hp'
    · by_cases hlast : texts = []
      · subst hlast
        cases hp'
        exact hbuffer
      · exact hbuffer' hlast

/-- Texts are appended inside the buffer exactly when all of them fit in it one after the other. -/
theorem appendAll_inBuffer_iff {buflen : BitVec 32} {texts : List Bytes} (hne : texts ≠ [])
    (hnul : ∀ t ∈ texts, NUL ∉ t) :
    (∃ p, Appended.start.appendAll buflen texts = some p ∧ p.InBuffer buflen.toNat) ↔
      texts.flatten.length < buflen.toNat ∧ texts.flatten.length ≤ intMax := by
  constructor
  · rintro ⟨p, hp, -, hlt, -⟩
    have hn := n_of_appendAll hp
    have hint := le_of_appendAll (Nat.zero_le _) hp
    rw [Appended.start, Nat.zero_add] at hn
    exact ⟨hn ▸ hlt, hn ▸ hint⟩
  · rintro ⟨hfits, hint⟩
    obtain ⟨p, hp, -, hbuffer⟩ := (Appended.holds_start buflen.toNat).appendAll hnul
      (by simpa [Appended.start] using hfits) (by simpa [Appended.start] using hint)
    exact ⟨p, hp, hbuffer hne⟩

end Kitty.Base
