import Kitty.Base.Bytes

/-!
# Base64

The base 64 encoding of RFC 4648: three bytes are four characters of an alphabet of 64, and the
last group of a text that is not full is filled with the padding character. The decoder takes
the characters back, and nothing but what the encoder writes: the padding stands at the end
only, and the bits that no byte needs are zero.
-/

namespace Kitty.Base.Base64

/-- The characters, in the order of their values. -/
def alphabet : Bytes := lit "ABCDEFGHIJKLMNOPQRSTUVWXYZabcdefghijklmnopqrstuvwxyz0123456789+/"

/-- The padding `=`. -/
def PAD : UInt8 := 61

/-- The character for six bits. -/
def sextet (n : Nat) : UInt8 := alphabet.getD n PAD

/-- The six bits of a character. -/
def value? (c : UInt8) : Option Nat :=
  if alphabet.idxOf c < 64 then some (alphabet.idxOf c) else none

/-- The encoding of a byte string. -/
def encode : Bytes → Bytes
  | [] => []
  | [a] => [sextet (a.toNat / 4), sextet (a.toNat % 4 * 16), PAD, PAD]
  | [a, b] =>
    [sextet (a.toNat / 4), sextet (a.toNat % 4 * 16 + b.toNat / 16), sextet (b.toNat % 16 * 4), PAD]
  | a :: b :: c :: rest =>
    sextet (a.toNat / 4) :: sextet (a.toNat % 4 * 16 + b.toNat / 16) ::
      sextet (b.toNat % 16 * 4 + c.toNat / 64) :: sextet (c.toNat % 64) :: encode rest

/-- The three bytes of a group without padding. -/
def decodeFull (c₀ c₁ c₂ c₃ : UInt8) : Option Bytes := do
  let v₀ ← value? c₀
  let v₁ ← value? c₁
  let v₂ ← value? c₂
  let v₃ ← value? c₃
  some [UInt8.ofNat (v₀ * 4 + v₁ / 16), UInt8.ofNat (v₁ % 16 * 16 + v₂ / 4),
    UInt8.ofNat (v₂ % 4 * 64 + v₃)]

/-- The bytes of the last group. -/
def decodeLast (c₀ c₁ c₂ c₃ : UInt8) : Option Bytes :=
  if c₃ = PAD then
    if c₂ = PAD then do
      let v₀ ← value? c₀
      let v₁ ← value? c₁
      if v₁ % 16 = 0 then some [UInt8.ofNat (v₀ * 4 + v₁ / 16)] else none
    else do
      let v₀ ← value? c₀
      let v₁ ← value? c₁
      let v₂ ← value? c₂
      if v₂ % 4 = 0 then
        some [UInt8.ofNat (v₀ * 4 + v₁ / 16), UInt8.ofNat (v₁ % 16 * 16 + v₂ / 4)]
      else none
  else decodeFull c₀ c₁ c₂ c₃

/-- The byte string that a text encodes. -/
def decode : Bytes → Option Bytes
  | [] => some []
  | [c₀, c₁, c₂, c₃] => decodeLast c₀ c₁ c₂ c₃
  | c₀ :: c₁ :: c₂ :: c₃ :: rest => do
    let group ← decodeFull c₀ c₁ c₂ c₃
    let bytes ← decode rest
    some (group ++ bytes)
  | _ => none

private theorem sextet_facts : ∀ n : Fin 64, value? (sextet n) = some n.val ∧
    sextet n ≠ PAD ∧ sextet n ≠ NUL := by
  decide +kernel

/-- A character is read back. -/
theorem value?_sextet {n : Nat} (h : n < 64) : value? (sextet n) = some n :=
  (sextet_facts ⟨n, h⟩).1

theorem sextet_ne_pad {n : Nat} (h : n < 64) : sextet n ≠ PAD := (sextet_facts ⟨n, h⟩).2.1

theorem sextet_ne_nul {n : Nat} (h : n < 64) : sextet n ≠ NUL := (sextet_facts ⟨n, h⟩).2.2

/-- Every three bytes begun take four characters. -/
theorem length_encode (m : Bytes) : (encode m).length = 4 * ((m.length + 2) / 3) := by
  induction m using encode.induct with
  | case1 => rfl
  | case2 a => simp only [encode, List.length_cons, List.length_nil]
  | case3 a b => simp only [encode, List.length_cons, List.length_nil]
  | case4 a b c rest ih =>
    simp only [encode, List.length_cons, ih]
    omega

/-- No NUL is written. -/
theorem nul_not_mem_encode (m : Bytes) : NUL ∉ encode m := by
  induction m using encode.induct with
  | case1 => exact List.not_mem_nil
  | case2 a =>
    have ha := a.toNat_lt
    simp only [encode, List.mem_cons, List.not_mem_nil, or_false, not_or]
    exact ⟨(sextet_ne_nul (by omega)).symm, (sextet_ne_nul (by omega)).symm, by decide, by decide⟩
  | case3 a b =>
    have ha := a.toNat_lt
    have hb := b.toNat_lt
    simp only [encode, List.mem_cons, List.not_mem_nil, or_false, not_or]
    exact ⟨(sextet_ne_nul (by omega)).symm, (sextet_ne_nul (by omega)).symm,
      (sextet_ne_nul (by omega)).symm, by decide⟩
  | case4 a b c rest ih =>
    have ha := a.toNat_lt
    have hb := b.toNat_lt
    have hc := c.toNat_lt
    simp only [encode, List.mem_cons, not_or]
    exact ⟨(sextet_ne_nul (by omega)).symm, (sextet_ne_nul (by omega)).symm,
      (sextet_ne_nul (by omega)).symm, (sextet_ne_nul (by omega)).symm, ih⟩

private theorem first_byte (a : UInt8) {n : Nat} (hn : n < 16) :
    UInt8.ofNat (a.toNat / 4 * 4 + (a.toNat % 4 * 16 + n) / 16) = a := by
  apply UInt8.toNat_inj.mp
  have ha := a.toNat_lt
  rw [UInt8.toNat_ofNat']
  omega

private theorem second_byte (b : UInt8) (m : Nat) {n : Nat} (hn : n < 4) :
    UInt8.ofNat ((m % 4 * 16 + b.toNat / 16) % 16 * 16 + (b.toNat % 16 * 4 + n) / 4) = b := by
  apply UInt8.toNat_inj.mp
  have hb := b.toNat_lt
  rw [UInt8.toNat_ofNat']
  omega

private theorem third_byte (c : UInt8) (m : Nat) :
    UInt8.ofNat ((m % 16 * 4 + c.toNat / 64) % 4 * 64 + c.toNat % 64) = c := by
  apply UInt8.toNat_inj.mp
  have hc := c.toNat_lt
  rw [UInt8.toNat_ofNat']
  omega

/-- A full group is read back. -/
theorem decodeFull_encode (a b c : UInt8) :
    decodeFull (sextet (a.toNat / 4)) (sextet (a.toNat % 4 * 16 + b.toNat / 16))
      (sextet (b.toNat % 16 * 4 + c.toNat / 64)) (sextet (c.toNat % 64)) = some [a, b, c] := by
  have ha := a.toNat_lt
  have hb := b.toNat_lt
  have hc := c.toNat_lt
  unfold decodeFull
  rw [value?_sextet (by omega), value?_sextet (by omega), value?_sextet (by omega),
    value?_sextet (by omega)]
  dsimp only [Option.bind_eq_bind, Option.bind_some]
  rw [first_byte a (by omega), second_byte b _ (by omega), third_byte]

/-- The decoder is the inverse of the encoder. -/
theorem decode_encode (m : Bytes) : decode (encode m) = some m := by
  induction m using encode.induct with
  | case1 => rfl
  | case2 a =>
    have ha := a.toNat_lt
    have hbits : a.toNat % 4 * 16 % 16 = 0 := by omega
    rw [encode, decode, decodeLast, if_pos rfl, if_pos rfl, value?_sextet (by omega),
      value?_sextet (by omega)]
    dsimp only [Option.bind_eq_bind, Option.bind_some]
    rw [if_pos hbits]
    exact congrArg (some [·]) (first_byte a (n := 0) (by omega))
  | case3 a b =>
    have ha := a.toNat_lt
    have hb := b.toNat_lt
    have hbits : b.toNat % 16 * 4 % 4 = 0 := by omega
    rw [encode, decode, decodeLast, if_pos rfl, if_neg (sextet_ne_pad (by omega)),
      value?_sextet (by omega), value?_sextet (by omega), value?_sextet (by omega)]
    dsimp only [Option.bind_eq_bind, Option.bind_some]
    rw [if_pos hbits, first_byte a (by omega)]
    exact congrArg (some [a, ·]) (second_byte b _ (n := 0) (by omega))
  | case4 a b c rest ih =>
    have hfull := decodeFull_encode a b c
    have hpad : sextet (c.toNat % 64) ≠ PAD := sextet_ne_pad (Nat.mod_lt _ (by decide))
    rw [encode]
    cases hrest : encode rest with
    | nil =>
      rw [hrest] at ih
      cases ih
      rw [decode, decodeLast, if_neg hpad, hfull]
    | cons d more =>
      rw [hrest] at ih
      rw [decode, hfull, ih]
      · rfl
      · simp

/-- Different byte strings have different encodings. -/
theorem encode_injective {m n : Bytes} (h : encode m = encode n) : m = n := by
  have hm := decode_encode m
  rw [h, decode_encode n] at hm
  exact (Option.some.inj hm).symm

end Kitty.Base.Base64
