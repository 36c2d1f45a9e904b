import Kitty.Srt.Ends

/-!
# The answer of the STUN server

The camera asks a STUN server for its public address and looks for it among the attributes of the
answer; `src/ap2p/edge_lite.h:98–178`. The lengths of the attributes come from the network, so a
read of the array is modelled with its bound: it fails at the first byte that was not received.
-/

namespace Kitty.Srt

open Kitty.Base Kitty.Signal

/-! ### The program -/

/-- `AP2P_EDGE_MAGIC_COOKIE`. -/
def magicCookie : Nat := 0x2112A442

/-- `(buf[off] << 8) | buf[off + 1]`. -/
def word16 (buf : Bytes) (off : Nat) : Option Nat := do
  let high ← buf[off]?
  let low ← buf[off + 1]?
  some (high.toNat <<< 8 ||| low.toNat)

/-- `(v[0] << 24) | (v[1] << 16) | (v[2] << 8) | v[3]` at an offset. -/
def word32 (buf : Bytes) (off : Nat) : Option Nat := do
  let a ← buf[off]?
  let b ← buf[off + 1]?
  let c ← buf[off + 2]?
  let d ← buf[off + 3]?
  some (a.toNat <<< 24 ||| b.toNat <<< 16 ||| c.toNat <<< 8 ||| d.toNat)

/-- `snprintf(out->srflx_ip, .., "%u.%u.%u.%u", ..)`. -/
def printIp (a b c d : Nat) : Bytes :=
  snprintf 64 [stdToString a, lit ".", stdToString b, lit ".", stdToString c, lit ".",
    stdToString d]

/-- `atype == type && alen >= 8 && v[1] == 0x01`: the byte is read when the rest holds. -/
def holdsIpv4 (buf : Bytes) (v atype alen type : Nat) : Option Bool :=
  if atype = type ∧ 8 ≤ alen then buf[v + 1]?.map (· == 0x01) else some false

/-- The address of an XOR-MAPPED-ADDRESS at `v`. -/
def xorMappedAddress (buf : Bytes) (v : Nat) : Option EdgeBinding := do
  let xport ← word16 buf (v + 2)
  let xaddr ← word32 buf (v + 4)
  let addr := xaddr ^^^ magicCookie
  some
    { srflxIp := printIp (addr >>> 24 &&& 0xff) (addr >>> 16 &&& 0xff) (addr >>> 8 &&& 0xff)
        (addr &&& 0xff)
      srflxPort := ↑(xport ^^^ magicCookie >>> 16) }

/-- The address of a MAPPED-ADDRESS at `v`. -/
def mappedAddress (buf : Bytes) (v : Nat) : Option EdgeBinding := do
  let mp ← word16 buf (v + 2)
  let a ← buf[v + 4]?
  let b ← buf[v + 5]?
  let c ← buf[v + 6]?
  let d ← buf[v + 7]?
  some { srflxIp := printIp a.toNat b.toNat c.toNat d.toNat, srflxPort := mp }

/-- The walk over the attributes from `off` on, with what it has written to `out`: an
XOR-MAPPED-ADDRESS ends it, a MAPPED-ADDRESS does not. Nothing when a byte was read that is not
there, or the rounds are not enough. -/
def edgeWalk (buf : Bytes) (stop : Nat) :
    Nat → Nat → Option EdgeBinding → Option (Option EdgeBinding)
  | 0, _, _ => none
  | rounds + 1, off, out =>
    if stop < off + 4 then some out
    else do
      let atype ← word16 buf off
      let alen ← word16 buf (off + 2)
      let v := off + 4
      if stop < off + 4 + alen then some out
      else
        if ← holdsIpv4 buf v atype alen 0x0020 then (xorMappedAddress buf v).map some
        else
          let out ← if ← holdsIpv4 buf v atype alen 0x0001 then (mappedAddress buf v).map some
            else some out
          let pad := (4 - (alen &&& 3)) &&& 3
          edgeWalk buf stop rounds (off + (4 + alen + pad)) out

/-- What an attempt of `ap2p_edge_get_srflx` finds in the bytes received: the binding, or nothing
when there is none in them or they are not the answer to the request. -/
def edgeParse (txn buf : Bytes) : Option (Option EdgeBinding) :=
  if buf.length < 20 then some none
  else if (buf.drop 8).take 12 ≠ txn then some none
  else do
    let mtype ← word16 buf 0
    if mtype ≠ 0x0101 then some none
    else do
      let mlen ← word16 buf 2
      edgeWalk buf (min (20 + mlen) buf.length) buf.length 20 none

/-- What `recv` puts into `buf[2048]`: the rest of a longer datagram is lost. -/
def received (datagram : Bytes) : Bytes := datagram.take 2048

/-- `ap2p_edge_get_srflx` once the server's name is resolved, with what each of its attempts
is sent: nothing when `sendto` or `recv` fails. -/
def edgeGetSrflx (txn : Bytes) : List (Option Bytes) → Option (Int × EdgeBinding)
  | [] => some (-1, { srflxIp := [], srflxPort := 0 })
  | none :: attempts => edgeGetSrflx txn attempts
  | some datagram :: attempts => do
    match ← edgeParse txn (received datagram) with
    | some out => some (0, out)
    | none => edgeGetSrflx txn attempts

/-! ### Reads in bounds -/

private theorem exists_getElem? {buf : Bytes} {i : Nat} (h : i < buf.length) :
    ∃ b, buf[i]? = some b :=
  ⟨buf[i], List.getElem?_eq_getElem h⟩

theorem exists_word16 {buf : Bytes} {off : Nat} (h : off + 1 < buf.length) :
    ∃ w, word16 buf off = some w := by
  obtain ⟨high, hhigh⟩ := exists_getElem? (Nat.lt_of_succ_lt h)
  obtain ⟨low, hlow⟩ := exists_getElem? h
  rw [word16, hhigh, hlow]
  exact ⟨_, rfl⟩

theorem exists_word32 {buf : Bytes} {off : Nat} (h : off + 3 < buf.length) :
    ∃ w, word32 buf off = some w := by
  obtain ⟨a, ha⟩ := exists_getElem? (show off < buf.length by omega)
  obtain ⟨b, hb⟩ := exists_getElem? (show off + 1 < buf.length by omega)
  obtain ⟨c, hc⟩ := exists_getElem? (show off + 2 < buf.length by omega)
  obtain ⟨d, hd⟩ := exists_getElem? h
  rw [word32, ha, hb, hc, hd]
  exact ⟨_, rfl⟩

/-- The family is read only of an attribute with eight bytes. -/
theorem exists_holdsIpv4 {buf : Bytes} {v alen : Nat} (atype type : Nat)
    (h : v + alen ≤ buf.length) :
    ∃ holds, holdsIpv4 buf v atype alen type = some holds ∧ (holds = true → 8 ≤ alen) := by
  rw [holdsIpv4]
  split
  · next hlen =>
    obtain ⟨b, hb⟩ := exists_getElem? (show v + 1 < buf.length by omega)
    rw [hb]
    exact ⟨_, rfl, fun _ ↦ hlen.2⟩
  · exact ⟨false, rfl, fun h ↦ nomatch h⟩

theorem exists_xorMappedAddress {buf : Bytes} {v : Nat} (h : v + 8 ≤ buf.length) :
    ∃ b, xorMappedAddress buf v = some b := by
  obtain ⟨xport, hport⟩ := exists_word16 (show v + 2 + 1 < buf.length by omega)
  obtain ⟨xaddr, haddr⟩ := exists_word32 (show v + 4 + 3 < buf.length by omega)
  rw [xorMappedAddress, hport, haddr]
  exact ⟨_, rfl⟩

theorem exists_mappedAddress {buf : Bytes} {v : Nat} (h : v + 8 ≤ buf.length) :
    ∃ b, mappedAddress buf v = some b := by
  obtain ⟨mp, hport⟩ := exists_word16 (show v + 2 + 1 < buf.length by omega)
  obtain ⟨a, ha⟩ := exists_getElem? (show v + 4 < buf.length by omega)
  obtain ⟨b, hb⟩ := exists_getElem? (show v + 5 < buf.length by omega)
  obtain ⟨c, hc⟩ := exists_getElem? (show v + 6 < buf.length by omega)
  obtain ⟨d, hd⟩ := exists_getElem? (show v + 7 < buf.length by omega)
  rw [mappedAddress, hport, ha, hb, hc, hd]
  exact ⟨_, rfl⟩

/-- The walk reads nothing behind its end and comes to it: every round takes four bytes. -/
theorem exists_edgeWalk {buf : Bytes} {stop : Nat} (hstop : stop ≤ buf.length) (rounds off : Nat)
    (out : Option EdgeBinding) (hrounds : stop < off + 4 * (rounds + 1)) :
    ∃ r, edgeWalk buf stop (rounds + 1) off out = some r := by
  induction rounds generalizing off out with
  | zero => exact ⟨out, by rw [edgeWalk, if_pos hrounds]⟩
  | succ rounds ih =>
    rw [edgeWalk]
    by_cases hend : stop < off + 4
    · exact ⟨out, by rw [if_pos hend]⟩
    obtain ⟨atype, htype⟩ := exists_word16 (show off + 1 < buf.length by omega)
    obtain ⟨alen, hlen⟩ := exists_word16 (show off + 2 + 1 < buf.length by omega)
    rw [if_neg hend, htype, hlen]
    dsimp only [Option.bind_eq_bind, Option.bind_some]
    by_cases hcut : stop < off + 4 + alen
    · exact ⟨out, by rw [if_pos hcut]⟩
    have hin : off + 4 + alen ≤ buf.length := (Nat.le_of_not_lt hcut).trans hstop
    obtain ⟨xor, hxor, hxorLen⟩ := exists_holdsIpv4 atype 0x0020 hin
    obtain ⟨plain, hplain, hplainLen⟩ := exists_holdsIpv4 atype 0x0001 hin
    rw [if_neg hcut, hxor, hplain]
    dsimp only [Option.bind_some]
    cases xor with
    | true =>
      have hroom := hxorLen rfl
      obtain ⟨b, hb⟩ := exists_xorMappedAddress (show off + 4 + 8 ≤ buf.length by omega)
      exact ⟨some b, by rw [if_pos rfl, hb, Option.map_some]⟩
    | false =>
      rw [if_neg Bool.false_ne_true]
      cases plain with
      | true =>
        have hroom := hplainLen rfl
        obtain ⟨b, hb⟩ := exists_mappedAddress (show off + 4 + 8 ≤ buf.length by omega)
        rw [if_pos rfl, hb]
        exact ih _ _ (by omega)
      | false => exact ih _ _ (by omega)

/-- The parse reads only bytes that were received, whatever they are. -/
theorem exists_edgeParse (txn buf : Bytes) : ∃ r, edgeParse txn buf = some r := by
  rw [edgeParse]
  by_cases hshort : buf.length < 20
  · exact ⟨none, by rw [if_pos hshort]⟩
  rw [if_neg hshort]
  by_cases hid : (buf.drop 8).take 12 ≠ txn
  · exact ⟨none, by rw [if_pos hid]⟩
  obtain ⟨mtype, htype⟩ := exists_word16 (show 0 + 1 < buf.length by omega)
  obtain ⟨mlen, hlen⟩ := exists_word16 (show 2 + 1 < buf.length by omega)
  rw [if_neg hid, htype, hlen]
  dsimp only [Option.bind_eq_bind, Option.bind_some]
  by_cases hsuccess : mtype ≠ 0x0101
  · exact ⟨none, by rw [if_pos hsuccess]⟩
  rw [if_neg hsuccess]
  obtain ⟨rounds, hrounds⟩ : ∃ rounds, buf.length = rounds + 1 := ⟨buf.length - 1, by omega⟩
  generalize hstop : min (20 + mlen) buf.length = stop
  rw [hrounds]
  exact exists_edgeWalk (by omega) rounds 20 none (by omega)

/-! ### Well-formed answers -/

/-- An attribute, with the bytes that fill it to a multiple of four. -/
structure StunAttribute where
  type : Nat
  value : Bytes
  padding : Bytes
  type_lt : type < 2 ^ 16
  length_lt : value.length < 2 ^ 16
  padding_length : padding.length = (4 - value.length % 4) % 4

/-- The two bytes of a word, the high one first. -/
def be16 (n : Nat) : Bytes := [UInt8.ofNat (n / 2 ^ 8), UInt8.ofNat n]

/-- The attribute in a message. -/
def StunAttribute.bytes (a : StunAttribute) : Bytes :=
  be16 a.type ++ be16 a.value.length ++ a.value ++ a.padding

/-- The attributes of a message. -/
def attributeBytes (attrs : List StunAttribute) : Bytes := attrs.flatMap StunAttribute.bytes

/-- A Binding success response. -/
def bindingSuccess (txn : Bytes) (attrs : List StunAttribute) : Bytes :=
  be16 0x0101 ++ be16 (attributeBytes attrs).length ++ be32 magicCookie ++ txn ++
    attributeBytes attrs

/-- An IPv4 address and a port. -/
structure Endpoint where
  a : UInt8
  b : UInt8
  c : UInt8
  d : UInt8
  port : Nat

/-- The binding of an endpoint: the address in dotted notation. -/
def Endpoint.binding (e : Endpoint) : EdgeBinding where
  srflxIp := decimal e.a.toNat ++ lit "." ++ decimal e.b.toNat ++ lit "." ++ decimal e.c.toNat ++
    lit "." ++ decimal e.d.toNat
  srflxPort := e.port

/-- The endpoint combined with the magic cookie, the port with its high half. -/
def Endpoint.unxor (e : Endpoint) : Endpoint where
  a := e.a ^^^ 0x21
  b := e.b ^^^ 0x12
  c := e.c ^^^ 0xA4
  d := e.d ^^^ 0x42
  port := e.port ^^^ 0x2112

/-- The endpoint in an attribute, when it has family 1. -/
def StunAttribute.endpoint? (attr : StunAttribute) : Option Endpoint :=
  match attr.value with
  | _ :: family :: high :: low :: a :: b :: c :: d :: _ =>
    if family = 1 then some ⟨a, b, c, d, high.toNat * 256 + low.toNat⟩ else none
  | _ => none

/-- The endpoint of an XOR-MAPPED-ADDRESS. -/
def StunAttribute.xorMapped? (attr : StunAttribute) : Option Endpoint :=
  if attr.type = 0x0020 then attr.endpoint?.map Endpoint.unxor else none

/-- The endpoint of a MAPPED-ADDRESS. -/
def StunAttribute.mapped? (attr : StunAttribute) : Option Endpoint :=
  if attr.type = 0x0001 then attr.endpoint? else none

/-- The endpoint an answer tells: that of its first XOR-MAPPED-ADDRESS, or else that of its last
MAPPED-ADDRESS. -/
def toldEndpoint (attrs : List StunAttribute) : Option Endpoint :=
  (attrs.filterMap StunAttribute.xorMapped?).head?.or
    (attrs.filterMap StunAttribute.mapped?).getLast?

/-! ### The walk over well-formed attributes -/

private theorem word16_bytes {high low : UInt8} :
    high.toNat <<< 8 ||| low.toNat = high.toNat * 256 + low.toNat := by
  rw [← Nat.shiftLeft_add_eq_or_of_lt low.toNat_lt, Nat.shiftLeft_eq]

private theorem word32_bytes {a b c d : UInt8} :
    a.toNat <<< 24 ||| b.toNat <<< 16 ||| c.toNat <<< 8 ||| d.toNat =
      a.toNat * 16777216 + b.toNat * 65536 + c.toNat * 256 + d.toNat := by
  have hsplit : a.toNat <<< 24 ||| b.toNat <<< 16 ||| c.toNat <<< 8 =
      ((a.toNat <<< 8 ||| b.toNat) <<< 8 ||| c.toNat) <<< 8 := by
    simp only [Nat.shiftLeft_or_distrib, ← Nat.shiftLeft_add]
  rw [hsplit, ← Nat.shiftLeft_add_eq_or_of_lt d.toNat_lt,
    ← Nat.shiftLeft_add_eq_or_of_lt c.toNat_lt,
    ← Nat.shiftLeft_add_eq_or_of_lt b.toNat_lt]
  simp only [Nat.shiftLeft_eq]
  omega

private theorem getElem?_of_drop {buf text : Bytes} {off : Nat} (h : buf.drop off = text)
    (k : Nat) :
    buf[off + k]? = text[k]? := by
  rw [← h, List.getElem?_drop]

/-- A word is read where it was written. -/
theorem word16_be16 {buf rest : Bytes} {off n : Nat} (h : buf.drop off = be16 n ++ rest)
    (hn : n < 2 ^ 16) : word16 buf off = some n := by
  have hhigh := getElem?_of_drop h 0
  have hlow := getElem?_of_drop h 1
  rw [Nat.add_zero] at hhigh
  rw [word16, hhigh, hlow]
  change some ((UInt8.ofNat (n / 2 ^ 8)).toNat <<< 8 ||| (UInt8.ofNat n).toNat) = some n
  rw [word16_bytes, UInt8.toNat_ofNat', UInt8.toNat_ofNat']
  congr 1
  omega

/-- An address is printed in full. -/
theorem printIp_eq (a b c d : UInt8) :
    printIp a.toNat b.toNat c.toNat d.toNat = decimal a.toNat ++ lit "." ++ decimal b.toNat ++
      lit "." ++ decimal c.toNat ++ lit "." ++ decimal d.toNat := by
  have htext : ∀ n : Nat, stdToString n = decimal n := fun n ↦ by
    rw [stdToString, if_neg (by omega), Int.natAbs_natCast]
  have hlen : ∀ x : UInt8, (decimal x.toNat).length ≤ 3 := fun x ↦ by
    have hx := x.toNat_lt
    rw [← htext]
    exact length_stdToString_le (by decide) (by omega)
  have hnul : ∀ n : Nat, NUL ∉ decimal n := fun n ↦ by
    rw [← htext]
    exact nul_not_mem_stdToString _
  have hdot : NUL ∉ lit "." := by decide
  have hone : (lit ".").length = 1 := by decide
  rw [printIp, htext, htext, htext, htext, snprintf_eq]
  · simp
  · intro part hpart
    simp only [List.mem_cons, List.not_mem_nil, or_false] at hpart
    obtain rfl | rfl | rfl | rfl | rfl | rfl | rfl := hpart <;> first | exact hnul _ | exact hdot
  · have ha := hlen a
    have hb := hlen b
    have hc := hlen c
    have hd := hlen d
    simp only [List.flatten_cons, List.flatten_nil, List.length_append, List.length_nil, hone]
    omega

section Endpoint

variable {buf more : Bytes} {v : Nat} {reserved family high low a b c d : UInt8}

private theorem read_endpoint
    (h : buf.drop v = reserved :: family :: high :: low :: a :: b :: c :: d :: more) :
    buf[v + 1]? = some family ∧ word16 buf (v + 2) = some (high.toNat * 256 + low.toNat) ∧
      buf[v + 4]? = some a ∧ buf[v + 5]? = some b ∧ buf[v + 6]? = some c ∧
        buf[v + 7]? = some d := by
  have hget := getElem?_of_drop h
  refine ⟨hget 1, ?_, hget 4, hget 5, hget 6, hget 7⟩
  rw [word16, hget 2, hget 3]
  exact congrArg some word16_bytes

/-- A MAPPED-ADDRESS is read. -/
theorem mappedAddress_eq
    (h : buf.drop v = reserved :: family :: high :: low :: a :: b :: c :: d :: more) :
    mappedAddress buf v =
      some (Endpoint.binding ⟨a, b, c, d, high.toNat * 256 + low.toNat⟩) := by
  obtain ⟨-, hport, ha, hb, hc, hd⟩ := read_endpoint h
  rw [mappedAddress, hport, ha, hb, hc, hd]
  dsimp only [Option.bind_eq_bind, Option.bind_some]
  rw [printIp_eq]
  rfl

/-- The bytes of a word that was read. -/
private theorem read_word32
    (h : buf.drop v = reserved :: family :: high :: low :: a :: b :: c :: d :: more) :
    ∃ word, word32 buf (v + 4) = some word ∧ word >>> 24 &&& 0xff = a.toNat ∧
      word >>> 16 &&& 0xff = b.toNat ∧ word >>> 8 &&& 0xff = c.toNat ∧ word &&& 0xff = d.toNat := by
  obtain ⟨-, -, ha, hb, hc, hd⟩ := read_endpoint h
  have hla := a.toNat_lt
  have hlb := b.toNat_lt
  have hlc := c.toNat_lt
  have hld := d.toNat_lt
  have hand : ∀ n, n &&& 0xff = n % 256 := fun n ↦ Nat.and_two_pow_sub_one_eq_mod n 8
  refine ⟨a.toNat * 16777216 + b.toNat * 65536 + c.toNat * 256 + d.toNat, ?_, ?_, ?_, ?_, ?_⟩
  · rw [word32, ha, hb, hc, hd]
    exact congrArg some word32_bytes
  · rw [hand, Nat.shiftRight_eq_div_pow]
    omega
  · rw [hand, Nat.shiftRight_eq_div_pow]
    omega
  · rw [hand, Nat.shiftRight_eq_div_pow]
    omega
  · rw [hand]
    omega

/-- A byte of the combined word is the combined byte. -/
private theorem xor_byte {word s : Nat} {x key : UInt8}
    (hword : word >>> s &&& 0xff = x.toNat) (hkey : magicCookie >>> s &&& 0xff = key.toNat) :
    (word ^^^ magicCookie) >>> s &&& 0xff = (x ^^^ key).toNat := by
  rw [Nat.shiftRight_xor_distrib, Nat.and_xor_distrib_right, hword, hkey, UInt8.toNat_xor]

/-- An XOR-MAPPED-ADDRESS is read and combined with the magic cookie. -/
theorem xorMappedAddress_eq
    (h : buf.drop v = reserved :: family :: high :: low :: a :: b :: c :: d :: more) :
    xorMappedAddress buf v =
      some (Endpoint.unxor ⟨a, b, c, d, high.toNat * 256 + low.toNat⟩).binding := by
  obtain ⟨-, hport, -⟩ := read_endpoint h
  obtain ⟨word, hword, ha, hb, hc, hd⟩ := read_word32 h
  have ha' : _ = (a ^^^ 0x21).toNat := xor_byte ha (by decide)
  have hb' : _ = (b ^^^ 0x12).toNat := xor_byte hb (by decide)
  have hc' : _ = (c ^^^ 0xA4).toNat := xor_byte hc (by decide)
  have hd' : (word ^^^ magicCookie) &&& 0xff = (d ^^^ 0x42).toNat :=
    xor_byte (s := 0) hd (by decide)
  rw [xorMappedAddress, hport, hword]
  dsimp only [Option.bind_eq_bind, Option.bind_some]
  rw [ha', hb', hc', hd', printIp_eq]
  rfl

end Endpoint

private theorem exists_eight {value : Bytes} (h : 8 ≤ value.length) :
    ∃ reserved family high low a b c d more,
      value = reserved :: family :: high :: low :: a :: b :: c :: d :: more := by
  match value, h with
  | x₀ :: x₁ :: x₂ :: x₃ :: x₄ :: x₅ :: x₆ :: x₇ :: more, _ =>
    exact ⟨x₀, x₁, x₂, x₃, x₄, x₅, x₆, x₇, more, rfl⟩

private theorem endpoint?_short {attr : StunAttribute} (h : attr.value.length < 8) :
    attr.endpoint? = none := by
  unfold StunAttribute.endpoint?
  split
  · next hvalue =>
    rw [hvalue] at h
    simp only [List.length_cons] at h
    omega
  · rfl

private theorem endpoint?_eq {attr : StunAttribute} {reserved family high low a b c d : UInt8}
    {more : Bytes}
    (h : attr.value = reserved :: family :: high :: low :: a :: b :: c :: d :: more) :
    attr.endpoint? =
      if family = 1 then some ⟨a, b, c, d, high.toNat * 256 + low.toNat⟩ else none := by
  rw [StunAttribute.endpoint?, h]

/-- The test for an IPv4 attribute of a type finds those with an endpoint. -/
theorem holdsIpv4_attribute {buf rest : Bytes} {v : Nat} {attr : StunAttribute}
    (h : buf.drop v = attr.value ++ rest) (type : Nat) :
    holdsIpv4 buf v attr.type attr.value.length type =
      some (decide (attr.type = type) && attr.endpoint?.isSome) := by
  rw [holdsIpv4]
  by_cases hlen : 8 ≤ attr.value.length
  · obtain ⟨reserved, family, high, low, a, b, c, d, more, hvalue⟩ := exists_eight hlen
    have hfamily := getElem?_of_drop h 1
    rw [hvalue] at hfamily
    rw [hfamily, endpoint?_eq hvalue]
    by_cases htype : attr.type = type
    · rw [if_pos ⟨htype, hlen⟩]
      by_cases hone : family = 1 <;> simp [hone, htype]
    · rw [if_neg fun hc ↦ htype hc.1, decide_eq_false htype, Bool.false_and]
  · rw [if_neg fun hc ↦ hlen hc.2, endpoint?_short (Nat.lt_of_not_le hlen)]
    simp

/-- The address of an attribute with an endpoint in it. -/
theorem address_attribute {buf rest : Bytes} {v : Nat} {attr : StunAttribute}
    (h : buf.drop v = attr.value ++ rest) {e : Endpoint} (he : attr.endpoint? = some e) :
    mappedAddress buf v = some e.binding ∧ xorMappedAddress buf v = some e.unxor.binding := by
  by_cases hlen : 8 ≤ attr.value.length
  · obtain ⟨reserved, family, high, low, a, b, c, d, more, hvalue⟩ := exists_eight hlen
    rw [endpoint?_eq hvalue] at he
    rw [hvalue] at h
    split at he
    · cases he
      exact ⟨mappedAddress_eq h, xorMappedAddress_eq h⟩
    · cases he
  · rw [endpoint?_short (Nat.lt_of_not_le hlen)] at he
    cases he

theorem length_bytes (attr : StunAttribute) :
    attr.bytes.length = 4 + attr.value.length + attr.padding.length := by
  simp only [StunAttribute.bytes, be16, List.length_append, List.length_cons, List.length_nil]

/-- A round of the walk at an attribute: an XOR-MAPPED-ADDRESS ends it, and from any other one it
goes on behind the padding. -/
theorem edgeWalk_attribute {buf rest : Bytes} {attr : StunAttribute} {off : Nat}
    (h : buf.drop off = attr.bytes ++ rest) (rounds : Nat) (out : Option EdgeBinding) :
    edgeWalk buf buf.length (rounds + 1) off out =
      match attr.xorMapped? with
      | some e => some (some e.binding)
      | none => edgeWalk buf buf.length rounds (off + attr.bytes.length)
          ((attr.mapped?.map Endpoint.binding).or out) := by
  have hlength := congrArg List.length h
  rw [List.length_drop, List.length_append, length_bytes] at hlength
  have hparts : buf.drop off =
      be16 attr.type ++ (be16 attr.value.length ++ (attr.value ++ (attr.padding ++ rest))) := by
    rw [h, StunAttribute.bytes]
    simp only [List.append_assoc]
  have hlen : buf.drop (off + 2) =
      be16 attr.value.length ++ (attr.value ++ (attr.padding ++ rest)) := by
    rw [← List.drop_drop, hparts]
    rfl
  have hvalue : buf.drop (off + 4) = attr.value ++ (attr.padding ++ rest) := by
    rw [← List.drop_drop, hparts]
    rfl
  have hpad : (4 - (attr.value.length &&& 3)) &&& 3 = attr.padding.length := by
    rw [attr.padding_length, show attr.value.length &&& 3 = attr.value.length % 4 from
      Nat.and_two_pow_sub_one_eq_mod _ 2]
    exact Nat.and_two_pow_sub_one_eq_mod _ 2
  have hnext : off + (4 + attr.value.length + attr.padding.length) =
      off + attr.bytes.length := by
    rw [length_bytes]
  rw [edgeWalk, if_neg (by omega), word16_be16 hparts attr.type_lt,
    word16_be16 hlen attr.length_lt]
  dsimp only [Option.bind_eq_bind, Option.bind_some]
  rw [if_neg (by omega), holdsIpv4_attribute hvalue, holdsIpv4_attribute hvalue, hpad, hnext]
  dsimp only [Option.bind_some]
  unfold StunAttribute.xorMapped? StunAttribute.mapped?
  cases hend : attr.endpoint? with
  | none => simp
  | some e =>
    obtain ⟨hplain, hxor⟩ := address_attribute hvalue hend
    rw [hplain, hxor]
    by_cases htype : attr.type = 0x0020
    · simp [htype]
    · by_cases htype' : attr.type = 0x0001 <;> simp [htype, htype']

/-- The walk over attributes finds the endpoint they tell, or else what was found before. -/
theorem edgeWalk_attributes {buf : Bytes} {attrs : List StunAttribute} {rounds off : Nat}
    (h : buf.drop off = attributeBytes attrs) (hrounds : attrs.length < rounds)
    (out : Option EdgeBinding) :
    edgeWalk buf buf.length rounds off out =
      some (((toldEndpoint attrs).map Endpoint.binding).or out) := by
  induction attrs generalizing rounds off out with
  | nil =>
    obtain ⟨rounds, rfl⟩ : ∃ r, rounds = r + 1 := ⟨rounds - 1, by omega⟩
    have hend : buf.length ≤ off := List.drop_eq_nil_iff.mp h
    rw [edgeWalk, if_pos (by omega)]
    rfl
  | cons attr attrs ih =>
    obtain ⟨rounds, rfl⟩ : ∃ r, rounds = r + 1 := ⟨rounds - 1, by omega⟩
    rw [List.length_cons] at hrounds
    have hsplit : buf.drop off = attr.bytes ++ attributeBytes attrs := by
      rw [h, attributeBytes, List.flatMap_cons]
      rfl
    have hrest : buf.drop (off + attr.bytes.length) = attributeBytes attrs := by
      rw [← List.drop_drop, hsplit, List.drop_left]
    rw [edgeWalk_attribute hsplit, toldEndpoint, List.filterMap_cons, List.filterMap_cons]
    cases hxor : attr.xorMapped? with
    | some e => simp
    | none =>
      dsimp only
      rw [ih hrest (by omega), toldEndpoint]
      cases attr.mapped? with
      | none => simp
      | some e =>
        dsimp only
        rw [List.getLast?_cons]
        cases (attrs.filterMap StunAttribute.xorMapped?).head? with
        | some x => simp
        | none => cases (attrs.filterMap StunAttribute.mapped?).getLast? <;> simp

private theorem length_le_attributeBytes (attrs : List StunAttribute) :
    attrs.length ≤ (attributeBytes attrs).length := by
  induction attrs with
  | nil => rfl
  | cons attr attrs ih =>
    have hattr := length_bytes attr
    rw [attributeBytes, List.flatMap_cons, List.length_append, List.length_cons]
    change _ ≤ _ + (attributeBytes attrs).length
    omega

/-! ### The parse -/

theorem length_bindingSuccess {txn : Bytes} {attrs : List StunAttribute} (htxn : txn.length = 12) :
    (bindingSuccess txn attrs).length = 20 + (attributeBytes attrs).length := by
  simp only [bindingSuccess, be16, List.length_append, List.length_cons, List.length_nil,
    length_be32, htxn]

/-- The parse of a well-formed answer finds the endpoint it tells. -/
theorem edgeParse_bindingSuccess {txn : Bytes} {attrs : List StunAttribute}
    (htxn : txn.length = 12) (hlen : (attributeBytes attrs).length < 2 ^ 16) :
    edgeParse txn (bindingSuccess txn attrs) =
      some ((toldEndpoint attrs).map Endpoint.binding) := by
  have hlength : (bindingSuccess txn attrs).length = 20 + (attributeBytes attrs).length :=
    length_bindingSuccess htxn
  have hparts : bindingSuccess txn attrs = be16 0x0101 ++ (be16 (attributeBytes attrs).length ++
      (be32 magicCookie ++ (txn ++ attributeBytes attrs))) := by
    simp only [bindingSuccess, List.append_assoc]
  have hid : ((bindingSuccess txn attrs).drop 8).take 12 = txn := by
    have hdrop : (bindingSuccess txn attrs).drop 8 = txn ++ attributeBytes attrs := by
      rw [hparts]
      rfl
    rw [hdrop, ← htxn, List.take_left]
  have hbody : (bindingSuccess txn attrs).drop 20 = attributeBytes attrs := by
    have hdrop : (bindingSuccess txn attrs).drop (8 + 12) =
        (txn ++ attributeBytes attrs).drop 12 := by
      rw [← List.drop_drop, hparts]
      rfl
    rw [hdrop, ← htxn, List.drop_left]
  have htype : word16 (bindingSuccess txn attrs) 0 = some 0x0101 :=
    word16_be16 hparts (by decide)
  have hmlen : word16 (bindingSuccess txn attrs) 2 = some (attributeBytes attrs).length := by
    apply word16_be16 _ hlen
    · exact be32 magicCookie ++ (txn ++ attributeBytes attrs)
    · rw [hparts]
      rfl
  have hrounds : attrs.length < (bindingSuccess txn attrs).length := by
    have hle := length_le_attributeBytes attrs
    omega
  rw [edgeParse, if_neg (by omega), if_neg (not_not_intro hid), htype, hmlen]
  dsimp only [Option.bind_eq_bind, Option.bind_some]
  rw [if_neg (not_not_intro rfl), ← hlength, Nat.min_self, edgeWalk_attributes hbody hrounds,
    Option.or_none]

/-- The attempts come to an end, whatever each of them receives. -/
theorem exists_edgeGetSrflx (txn : Bytes) (attempts : List (Option Bytes)) :
    ∃ r, edgeGetSrflx txn attempts = some r := by
  induction attempts with
  | nil => exact ⟨_, rfl⟩
  | cons attempt attempts ih =>
    cases attempt with
    | none => exact ih
    | some datagram =>
      obtain ⟨found, hfound⟩ := exists_edgeParse txn (received datagram)
      rw [edgeGetSrflx, hfound]
      cases found with
      | none => exact ih
      | some out => exact ⟨_, rfl⟩

/-- Two attributes of a known answer: one of an unknown type that fills what `recv` has room for,
and behind it an XOR-MAPPED-ADDRESS. -/
def wideAttributes : List StunAttribute :=
  [⟨0x8022, List.replicate 2040 0, [], by decide, by decide +kernel, by decide +kernel⟩,
    ⟨0x0020, [0, 1, 0x3E, 0x82, 0xEA, 0x12, 0xD5, 0x45], [], by decide, by decide, rfl⟩]

/-- The answer tells an address, and the request for it fails. -/
theorem wide_answer_lost :
    (toldEndpoint wideAttributes).map Endpoint.binding = some ⟨lit "203.0.113.7", 8080⟩ ∧
    (bindingSuccess (List.replicate 12 7) wideAttributes).length = 2076 ∧
    edgeGetSrflx (List.replicate 12 7)
        [some (bindingSuccess (List.replicate 12 7) wideAttributes)] = some (-1, ⟨[], 0⟩) := by
  decide +kernel

/-- Whatever was received, the parse reads only bytes of it, and the attempts come to an end. Of a
well-formed answer to the request that `recv` has room for the parse finds the first
XOR-MAPPED-ADDRESS with an IPv4 address, combined with the magic cookie, or else the last such
MAPPED-ADDRESS, or else nothing; and what it finds is what the request for the address returns. -/
theorem edge_parse (txn : Bytes) :
    (∀ datagram, ∃ r, edgeParse txn (received datagram) = some r) ∧
    (∀ attempts, ∃ r, edgeGetSrflx txn attempts = some r) ∧
    ∀ attrs, txn.length = 12 → (bindingSuccess txn attrs).length ≤ 2048 →
      edgeParse txn (received (bindingSuccess txn attrs)) =
        some (((attrs.filterMap StunAttribute.xorMapped?).head?.or
          (attrs.filterMap StunAttribute.mapped?).getLast?).map Endpoint.binding) ∧
      ∀ attempts, edgeGetSrflx txn (some (bindingSuccess txn attrs) :: attempts) =
        match toldEndpoint attrs with
        | some e => some (0, e.binding)
        | none => edgeGetSrflx txn attempts := by
  refine ⟨fun datagram ↦ exists_edgeParse txn (received datagram), exists_edgeGetSrflx txn, ?_⟩
  intro attrs htxn hroom
  have hwhole : received (bindingSuccess txn attrs) = bindingSuccess txn attrs :=
    List.take_of_length_le hroom
  have hlen : (attributeBytes attrs).length < 2 ^ 16 := by
    rw [length_bindingSuccess htxn] at hroom
    omega
  have hparse := edgeParse_bindingSuccess htxn hlen
  rw [← hwhole] at hparse
  refine ⟨hparse, fun attempts ↦ ?_⟩
  rw [edgeGetSrflx, hparse]
  dsimp only [Option.bind_eq_bind, Option.bind_some]
  cases toldEndpoint attrs <;> rfl

/-- A MAPPED-ADDRESS, an attribute of an unknown type with padding, and an XOR-MAPPED-ADDRESS. -/
def sampleAttributes : List StunAttribute :=
  [⟨0x0001, [0, 1, 0x1F, 0x90, 10, 0, 0, 7], [], by decide, by decide, rfl⟩,
    ⟨0x8022, lit "stund", [0, 0, 0], by decide, by decide, rfl⟩,
    ⟨0x0020, [0, 1, 0x3E, 0x82, 0xEA, 0x12, 0xD5, 0x45], [], by decide, by decide, rfl⟩]

/-- The address is taken from the last of them, and without it from the first. -/
theorem edge_parse_sample :
    edgeGetSrflx (List.replicate 12 7)
        [none, some (bindingSuccess (List.replicate 12 7) sampleAttributes)] =
      some (0, ⟨lit "203.0.113.7", 8080⟩) ∧
    edgeParse (List.replicate 12 7)
        (received (bindingSuccess (List.replicate 12 7) (sampleAttributes.take 2))) =
      some (some ⟨lit "10.0.0.7", 8080⟩) := by
  obtain ⟨-, -, hparse⟩ := edge_parse (List.replicate 12 7)
  have hboth := (hparse sampleAttributes (by decide) (by decide)).2 []
  have hfirst := (hparse (sampleAttributes.take 2) (by decide) (by decide)).1
  rw [edgeGetSrflx, hboth, hfirst]
  decide +kernel

end Kitty.Srt
