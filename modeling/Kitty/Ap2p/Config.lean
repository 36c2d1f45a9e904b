import Kitty.Base.Fields
import Kitty.Signal.Stoi
import Mathlib.Data.List.DropRight

/-!
# The runtime configuration

The camera's shared state and the payloads that write to it;
`src/ap2p/state.h:34–77`, `src/ap2p/state.c:15–33` and `src/ap2p/config.c:37–152`. A payload
is a text of `KEY=value` lines, which go straight into the live configuration; whether the
payload is accepted is decided after the last of them.
-/

namespace Kitty.Ap2p

open Kitty.Base
open Kitty.Signal (isSpace isDigit splitSign signedValue read_decimal digitsValue_decimal)

/-- A `char` array of a fixed size. -/
structure CharArray (size : Nat) where
  bytes : Bytes
  length_eq : bytes.length = size
  deriving DecidableEq

namespace CharArray

variable {size : Nat}

/-- `strncpy(base, val, size - 1); base[size - 1] = '\0'`: the rest is filled with NULs. -/
def strncpy (size : Nat) (val : Bytes) : CharArray size where
  bytes := val.take (size - 1) ++ List.replicate (size - (val.take (size - 1)).length) NUL
  length_eq := by
    have h := List.length_take_le (size - 1) val
    rw [List.length_append, List.length_replicate]
    omega

/-- `base[0] == '\0'`. -/
def isEmpty (base : CharArray size) : Bool := base.bytes.getD 0 NUL == NUL

/-- The C string in the array. -/
def text (base : CharArray size) : Bytes := cstr base.bytes

/-- An array of zeros. -/
def zero (size : Nat) : CharArray size := ⟨List.replicate size NUL, List.length_replicate⟩

/-- A C string copied into an array that has room for a byte is empty as it was. -/
theorem isEmpty_strncpy (hsize : 2 ≤ size) {val : Bytes} (hval : NUL ∉ val) :
    (strncpy size val).isEmpty = true ↔ val = [] := by
  cases val with
  | nil =>
    obtain ⟨n, rfl⟩ : ∃ n, size = n + 1 := ⟨size - 1, by omega⟩
    simp [isEmpty, strncpy, List.replicate_succ]
  | cons b val =>
    have hb : b ≠ NUL := fun h ↦ hval (h ▸ List.mem_cons_self ..)
    obtain ⟨n, rfl⟩ : ∃ n, size = n + 2 := ⟨size - 2, by omega⟩
    simp [isEmpty, strncpy, hb]

end CharArray

/-! ### The shared state -/

/-- The configuration fields of `ap2p_state_t`. -/
structure Ap2pConfig where
  nodeId : CharArray 64
  ctrlHost : CharArray 128
  ctrlPort : Int
  ctrlScheme : CharArray 8
  ctrlToken : CharArray 128
  edgeHost : CharArray 128
  edgePort : Int
  relayHost : CharArray 128
  relayPort : Int
  relayUser : CharArray 64
  relayPass : CharArray 64
  srcHost : CharArray 64
  srcPort : Int
  srcPath : CharArray 256
  srcAuth : CharArray 128
  latencyMs : Int
  verbose : Int
  deriving DecidableEq

/-- `ap2p_state_t`: the configuration and the flags the threads share. -/
structure Ap2pState where
  config : Ap2pConfig
  shutdownFlag : Int
  stateReady : Int
  srtReloadPending : Int
  deriving DecidableEq

/-- `ap2p_state_init`. -/
def ap2pStateInit : Ap2pState where
  config :=
    { nodeId := .zero 64
      ctrlHost := .zero 128
      ctrlPort := 80
      ctrlScheme := .zero 8
      ctrlToken := .zero 128
      edgeHost := .zero 128
      edgePort := 0
      relayHost := .zero 128
      relayPort := 0
      relayUser := .zero 64
      relayPass := .zero 64
      srcHost := .zero 64
      srcPort := 80
      srcPath := .zero 256
      srcAuth := .zero 128
      latencyMs := 300
      verbose := 0 }
  shutdownFlag := 0
  stateReady := 0
  srtReloadPending := 0

/-! ### The table of fields -/

/-- The places the entries of `kFields` point to. -/
inductive Field where
  | nodeId | ctrlHost | ctrlPort | ctrlScheme | ctrlToken | edgeHost | edgePort | relayHost
  | relayPort | relayUser | relayPass | srcHost | srcPort | srcPath | srcAuth | latencyMs | verbose
  deriving DecidableEq

/-- `kFields`: the keys of a payload. -/
def kFields : List (Bytes × Field) :=
  [(lit "NODE_ID", .nodeId), (lit "CTRL_HOST", .ctrlHost), (lit "CTRL_PORT", .ctrlPort),
    (lit "CTRL_SCHEME", .ctrlScheme), (lit "CTRL_TOKEN", .ctrlToken),
    (lit "EDGE_HOST", .edgeHost), (lit "EDGE_PORT", .edgePort), (lit "RELAY_HOST", .relayHost),
    (lit "RELAY_PORT", .relayPort), (lit "RELAY_USER", .relayUser),
    (lit "RELAY_PASS", .relayPass), (lit "SRC_HOST", .srcHost), (lit "SRC_PORT", .srcPort),
    (lit "SRC_PATH", .srcPath), (lit "SRC_AUTH", .srcAuth), (lit "LATENCY_MS", .latencyMs),
    (lit "VERBOSE", .verbose)]

/-- `atoi` where a `long` has 32 bits: a number out of range is the nearest one in it. -/
def atoi (text : Bytes) : Int :=
  let (negative, rest) := splitSign (text.dropWhile isSpace)
  max (-2 ^ 31) (min (2 ^ 31 - 1) (signedValue negative (rest.takeWhile isDigit)))

/-- `atoi` reads back the number that was printed. -/
theorem atoi_stdToString {n : Nat} (h : n < 2 ^ 31) : atoi (stdToString n) = n := by
  have htext : stdToString n = decimal n := by
    rw [stdToString, if_neg (by omega), Int.natAbs_natCast]
  obtain ⟨hsplit, hdigits⟩ := read_decimal n
  rw [atoi, htext, hsplit]
  dsimp only
  rw [hdigits, signedValue, if_neg Bool.false_ne_true, digitsValue_decimal]
  omega

/-- What follows a number does not matter when it does not go on with a digit, and with neither a
digit nor a sign after white space. -/
theorem atoi_append {text after : Bytes} (hdigit : ∀ b ∈ after.head?, isDigit b = false)
    (hrest : ∀ b ∈ (after.dropWhile isSpace).head?, isDigit b = false ∧ b ≠ 45 ∧ b ≠ 43) :
    atoi (text ++ after) = atoi text := by
  have htake : ∀ digits : Bytes, (digits ++ after).takeWhile isDigit =
      digits.takeWhile isDigit := by
    intro digits
    rw [List.takeWhile_append]
    split
    · next hall =>
      rw [(List.takeWhile_prefix isDigit).eq_of_length hall]
      cases after with
      | nil => simp
      | cons b after => simp [hdigit b rfl]
    · rfl
  have hsplit : ∀ {b signed}, splitSign (b :: signed ++ after) =
      ((splitSign (b :: signed)).1, (splitSign (b :: signed)).2 ++ after) := by
    intro b signed
    unfold splitSign
    split <;> simp_all
  simp only [atoi, List.dropWhile_append]
  split
  · next hnil =>
    rw [List.isEmpty_iff.mp hnil]
    generalize after.dropWhile isSpace = rest at hrest
    cases rest with
    | nil => rfl
    | cons b rest =>
      obtain ⟨hb, hminus, hplus⟩ := hrest b rfl
      have hsigned : splitSign (b :: rest) = (false, b :: rest) := by
        unfold splitSign
        split <;> simp_all
      rw [hsigned, List.takeWhile_cons_of_neg (by simp [hb])]
      rfl
  · next hne =>
    cases htext : text.dropWhile isSpace with
    | nil => simp [htext] at hne
    | cons b signed => rw [hsplit, htake]

/-- A number ends before a byte that is in no number. -/
theorem atoi_append_cons {b : UInt8}
    (hb : isSpace b = false ∧ isDigit b = false ∧ b ≠ 45 ∧ b ≠ 43) (text rest : Bytes) :
    atoi (text ++ b :: rest) = atoi text := by
  apply atoi_append
  · intro c hc
    cases hc
    exact hb.2.1
  · intro c hc
    rw [List.dropWhile_cons_of_neg (by simp [hb.1])] at hc
    cases hc
    exact hb.2

/-- White space before a number is skipped. -/
theorem atoi_dropWhile (text : Bytes) : atoi (text.dropWhile isSpace) = atoi text := by
  have hidem : (text.dropWhile isSpace).dropWhile isSpace = text.dropWhile isSpace := by
    cases htext : text.dropWhile isSpace with
    | nil => rfl
    | cons b rest =>
      have hb := List.head?_dropWhile_not isSpace text
      rw [htext] at hb
      exact List.dropWhile_cons_of_neg (by simpa using hb)
  rw [atoi, hidem, atoi]

/-- `apply_field`. -/
def applyField (cfg : Ap2pConfig) (f : Field) (val : Bytes) : Ap2pConfig :=
  match f with
  | .nodeId => { cfg with nodeId := .strncpy 64 val }
  | .ctrlHost => { cfg with ctrlHost := .strncpy 128 val }
  | .ctrlPort => { cfg with ctrlPort := atoi val }
  | .ctrlScheme => { cfg with ctrlScheme := .strncpy 8 val }
  | .ctrlToken => { cfg with ctrlToken := .strncpy 128 val }
  | .edgeHost => { cfg with edgeHost := .strncpy 128 val }
  | .edgePort => { cfg with edgePort := atoi val }
  | .relayHost => { cfg with relayHost := .strncpy 128 val }
  | .relayPort => { cfg with relayPort := atoi val }
  | .relayUser => { cfg with relayUser := .strncpy 64 val }
  | .relayPass => { cfg with relayPass := .strncpy 64 val }
  | .srcHost => { cfg with srcHost := .strncpy 64 val }
  | .srcPort => { cfg with srcPort := atoi val }
  | .srcPath => { cfg with srcPath := .strncpy 256 val }
  | .srcAuth => { cfg with srcAuth := .strncpy 128 val }
  | .latencyMs => { cfg with latencyMs := atoi val }
  | .verbose => { cfg with verbose := atoi val }

/-! ### Payloads -/

/-- `trim` of a C string: up to the first `#`, without the white space around it. -/
def trim (s : Bytes) : Bytes := ((s.takeWhile (· ≠ 35)).dropWhile isSpace).rdropWhile isSpace

/-- The bytes that end a line of a payload. -/
def endsLine (b : UInt8) : Bool := b == LF || b == CR

/-- The lines the loop of `apply_ap2p_conf_payload` copies to its buffer, at most one for each
byte: a line ends at a terminator, as many of them as follow are skipped, and of a line too
long for the buffer only the beginning is copied. -/
def confLines : Nat → Bytes → List Bytes
  | 0, _ => []
  | rounds + 1, payload =>
    if payload = [] then []
    else (payload.takeWhile (!endsLine ·)).take 1023 ::
      confLines rounds ((payload.dropWhile (!endsLine ·)).dropWhile endsLine)

/-- The key and the value of a line, when it is neither blank nor without `=`. -/
def lineEntry (line : Bytes) : Option (Bytes × Bytes) :=
  let p := trim (cstr line)
  if p = [] then none
  else match p.dropWhile (· ≠ EQ) with
    | [] => none
    | _ :: after => some (trim (p.takeWhile (· ≠ EQ)), trim after)

/-- The field a line sets and the value it sets it to; an unknown key sets none. -/
def lineWrite (line : Bytes) : Option (Field × Bytes) :=
  (lineEntry line).bind fun entry ↦
    (kFields.find? (·.1 = entry.1)).map fun known ↦ (known.2, entry.2)

/-- What the loop of `apply_ap2p_conf_payload` does with a line. -/
def applyLine (cfg : Ap2pConfig) (line : Bytes) : Ap2pConfig :=
  match lineWrite line with
  | some (f, val) => applyField cfg f val
  | none => cfg

/-- `apply_ap2p_conf_payload`, with its return value. -/
def applyAp2pConfPayload (state : Ap2pState) (payload : Bytes) : Int × Ap2pState :=
  if payload = [] then (-1, state)
  else
    let config := (confLines payload.length payload).foldl applyLine state.config
    if config.ctrlHost.isEmpty then (-1, { state with config })
    else
      (0, { state with
        config
        stateReady := 1
        srtReloadPending := if state.stateReady = 0 then state.srtReloadPending else 1 })

/-! ### The rounds of the loop -/

/-- Every round of the loop takes a byte. -/
theorem length_rest_lt (b : UInt8) (payload : Bytes) :
    (((b :: payload).dropWhile (!endsLine ·)).dropWhile endsLine).length ≤ payload.length := by
  cases hb : endsLine b with
  | true =>
    simp only [List.dropWhile_cons, hb, Bool.not_true, Bool.false_eq_true, if_true, if_false]
    exact (List.dropWhile_suffix _).length_le
  | false =>
    simp only [List.dropWhile_cons, hb, Bool.not_false, if_true]
    exact ((List.dropWhile_suffix _).trans (List.dropWhile_suffix _)).length_le

/-- So a round for each byte reads the whole payload. -/
theorem confLines_of_length_le (rounds : Nat) (payload : Bytes) (h : payload.length ≤ rounds) :
    confLines rounds payload = confLines payload.length payload := by
  induction hn : payload.length using Nat.strongRecOn generalizing rounds payload with
  | ind n ih =>
    cases payload with
    | nil =>
      cases rounds <;> subst hn <;> rfl
    | cons b payload =>
      rw [List.length_cons] at hn h
      obtain ⟨rounds, rfl⟩ : ∃ r, rounds = r + 1 := ⟨rounds - 1, by omega⟩
      subst hn
      have hrest := length_rest_lt b payload
      simp only [confLines, List.cons_ne_nil, if_false]
      rw [ih _ (by omega) rounds _ (by omega) rfl,
        ih _ (by omega) payload.length _ hrest rfl]

end Kitty.Ap2p
