import Kitty.Ap2p.Config
import Kitty.Base.Base64
import Kitty.Base.Trim

/-!
# The camera's credentials

The user name and the password of the camera's own web interface, and the authorization header
made of them; `src/ap2p/legacy_cases.c:77–79, 94–119, 147–156, 2038–2062`. Every operation that
changes the user name or the password makes the header anew.
-/

namespace Kitty.Ap2p

open Kitty.Base

/-! ### `base64_encode` -/

/-- The table `b64`. -/
def b64 (n : Nat) : UInt8 :=
  (lit "ABCDEFGHIJKLMNOPQRSTUVWXYZabcdefghijklmnopqrstuvwxyz0123456789+/").getD n 61

/-- The loop of `base64_encode` and the NUL after it, on the memory from `output` on: `i` is the
place in the input, `j` the place in the output, and a round for each byte is more than enough. -/
def base64Loop (input : Bytes) (outSize : Nat) : Nat → Nat → Nat → Bytes → Bytes
  | 0, _, j, output => output.set j NUL
  | rounds + 1, i, j, output =>
    if i < input.length ∧ j + 4 < outSize then
      let a := (input.getD i 0).toNat
      let b := if i + 1 < input.length then (input.getD (i + 1) 0).toNat else 0
      let c := if i + 2 < input.length then (input.getD (i + 2) 0).toNat else 0
      let triple := a <<< 16 ||| b <<< 8 ||| c
      let output := output.set j (b64 (triple >>> 18 &&& 0x3F))
      let output := output.set (j + 1) (b64 (triple >>> 12 &&& 0x3F))
      let output := output.set (j + 2)
        (if i + 1 < input.length then b64 (triple >>> 6 &&& 0x3F) else 61)
      let output := output.set (j + 3)
        (if i + 2 < input.length then b64 (triple &&& 0x3F) else 61)
      base64Loop input outSize rounds (i + 3) (j + 4) output
    else output.set j NUL

/-- `base64_encode` of the C string `input`, as the memory from `output` on is after it. -/
def base64Encode (input output : Bytes) (outSize : Nat) : Bytes :=
  base64Loop (cstr input) outSize (cstr input).length 0 0 output

private theorem triple_eq (a b c : UInt8) :
    a.toNat <<< 16 ||| b.toNat <<< 8 ||| c.toNat = a.toNat * 65536 + b.toNat * 256 + c.toNat := by
  have hsplit : a.toNat <<< 16 ||| b.toNat <<< 8 = (a.toNat <<< 8 ||| b.toNat) <<< 8 := by
    rw [Nat.shiftLeft_or_distrib, ← Nat.shiftLeft_add]
  rw [hsplit, ← Nat.shiftLeft_add_eq_or_of_lt c.toNat_lt,
    ← Nat.shiftLeft_add_eq_or_of_lt b.toNat_lt,
    Nat.shiftLeft_eq, Nat.shiftLeft_eq]
  omega

private theorem b64_and (n : Nat) : b64 (n &&& 0x3F) = Base64.sextet (n % 64) :=
  congrArg Base64.sextet (Nat.and_two_pow_sub_one_eq_mod n 6)

/-- The four characters of a group of three bytes. -/
private theorem b64_triple (a b c : UInt8) :
    b64 ((a.toNat <<< 16 ||| b.toNat <<< 8 ||| c.toNat) >>> 18 &&& 0x3F) =
        Base64.sextet (a.toNat / 4) ∧
      b64 ((a.toNat <<< 16 ||| b.toNat <<< 8 ||| c.toNat) >>> 12 &&& 0x3F) =
        Base64.sextet (a.toNat % 4 * 16 + b.toNat / 16) ∧
      b64 ((a.toNat <<< 16 ||| b.toNat <<< 8 ||| c.toNat) >>> 6 &&& 0x3F) =
        Base64.sextet (b.toNat % 16 * 4 + c.toNat / 64) ∧
      b64 ((a.toNat <<< 16 ||| b.toNat <<< 8 ||| c.toNat) &&& 0x3F) =
        Base64.sextet (c.toNat % 64) := by
  have ha := a.toNat_lt
  have hb := b.toNat_lt
  have hc := c.toNat_lt
  rw [triple_eq, b64_and, b64_and, b64_and, b64_and, Nat.shiftRight_eq_div_pow,
    Nat.shiftRight_eq_div_pow, Nat.shiftRight_eq_div_pow]
  refine ⟨congrArg _ ?_, congrArg _ ?_, congrArg _ ?_, congrArg _ ?_⟩ <;> omega

/-- Four bytes stored one after the other. -/
private theorem set_four (pre rest : Bytes) (x y z w x' y' z' w' : UInt8) :
    ((((pre ++ x :: y :: z :: w :: rest).set pre.length x').set (pre.length + 1) y').set
      (pre.length + 2) z').set (pre.length + 3) w' = pre ++ [x', y', z', w'] ++ rest := by
  simp

/-- The characters a round stores when the input has a text left. -/
private def group (text : Bytes) : Bytes :=
  let a := (text.getD 0 0).toNat
  let b := if 1 < text.length then (text.getD 1 0).toNat else 0
  let c := if 2 < text.length then (text.getD 2 0).toNat else 0
  let triple := a <<< 16 ||| b <<< 8 ||| c
  [b64 (triple >>> 18 &&& 0x3F), b64 (triple >>> 12 &&& 0x3F),
    if 1 < text.length then b64 (triple >>> 6 &&& 0x3F) else 61,
    if 2 < text.length then b64 (triple &&& 0x3F) else 61]

/-- They are the encoding of its first three bytes. -/
private theorem encode_eq_group {text : Bytes} (hne : text ≠ []) :
    Base64.encode text = group text ++ Base64.encode (text.drop 3) := by
  match text, hne with
  | [a], _ =>
    obtain ⟨h₀, h₁, -, -⟩ := b64_triple a 0 0
    change _ = [b64 _, b64 _, 61, 61] ++ Base64.encode []
    simp only [Base64.encode]
    exact congrArg₂ (fun p q ↦ [p, q, 61, 61]) h₀.symm h₁.symm
  | [a, b], _ =>
    obtain ⟨h₀, h₁, h₂, -⟩ := b64_triple a b 0
    change _ = [b64 _, b64 _, b64 _, 61] ++ Base64.encode []
    simp only [Base64.encode, ← h₀, ← h₁]
    exact congrArg (fun p ↦ [_, _, p, 61]) h₂.symm
  | a :: b :: c :: more, _ =>
    obtain ⟨h₀, h₁, h₂, h₃⟩ := b64_triple a b c
    have hb : 1 < (a :: b :: c :: more).length := by simp
    have hc : 2 < (a :: b :: c :: more).length := by simp
    rw [Base64.encode, group, if_pos hb, if_pos hb, if_pos hc, if_pos hc, ← h₀, ← h₁, ← h₂, ← h₃]
    rfl

/-- A round stores the characters of the three bytes at `i`. -/
private theorem base64Loop_round {input pre rest : Bytes} {outSize rounds i : Nat}
    {x y z w : UInt8} (hi : i < input.length) (hj : pre.length + 4 < outSize) :
    base64Loop input outSize (rounds + 1) i pre.length (pre ++ x :: y :: z :: w :: rest) =
      base64Loop input outSize rounds (i + 3) (pre ++ group (input.drop i)).length
        (pre ++ group (input.drop i) ++ rest) := by
  have hget : ∀ k, input.getD (i + k) 0 = (input.drop i).getD k 0 := by
    intro k
    simp only [List.getD_eq_getElem?_getD, List.getElem?_drop]
  have hlt : ∀ k, (i + k < input.length) = (k < (input.drop i).length) := by
    intro k
    rw [List.length_drop]
    exact propext ⟨fun h ↦ by omega, fun h ↦ by omega⟩
  have hhead := hget 0
  rw [Nat.add_zero] at hhead
  rw [base64Loop, if_pos ⟨hi, hj⟩, hhead, hget 1, hget 2]
  simp only [hlt]
  rw [set_four, List.length_append]
  rfl

/-- Nothing is left: the NUL is stored. -/
private theorem base64Loop_end {input pre rest : Bytes} {outSize rounds i : Nat}
    (hi : input.length ≤ i) (hrest : rest ≠ []) :
    base64Loop input outSize rounds i pre.length (pre ++ rest) = pre ++ NUL :: rest.drop 1 := by
  have hset : base64Loop input outSize rounds i pre.length (pre ++ rest) =
      (pre ++ rest).set pre.length NUL := by
    cases rounds with
    | zero => rfl
    | succ rounds => rw [base64Loop, if_neg fun h ↦ absurd h.1 (by omega)]
  rw [hset]
  cases rest with
  | nil => contradiction
  | cons b rest => simp

/-- The first four bytes of a text that long. -/
private theorem exists_four {rest : Bytes} (h : 4 ≤ rest.length) :
    ∃ x y z w more, rest = x :: y :: z :: w :: more := by
  rcases rest with _ | ⟨x, _ | ⟨y, _ | ⟨z, _ | ⟨w, more⟩⟩⟩⟩
  case cons.cons.cons.cons => exact ⟨x, y, z, w, more, rfl⟩
  all_goals
    simp only [List.length_cons, List.length_nil] at h
    omega

/-- The loop stores the encoding of what is left of the input and a NUL, when there is room for
them, and nothing behind it. -/
private theorem base64Loop_eq {input : Bytes} {outSize : Nat} (rounds i : Nat) {pre rest : Bytes}
    (hrounds : input.length ≤ i + rounds)
    (hroom : pre.length + (Base64.encode (input.drop i)).length < outSize)
    (hrest : (Base64.encode (input.drop i)).length < rest.length) :
    base64Loop input outSize rounds i pre.length (pre ++ rest) =
      pre ++ Base64.encode (input.drop i) ++
        NUL :: rest.drop ((Base64.encode (input.drop i)).length + 1) := by
  induction rounds generalizing i pre rest with
  | zero =>
    have hend : input.length ≤ i := hrounds
    rw [base64Loop_end hend (List.length_pos_iff.mp (Nat.zero_lt_of_lt hrest)),
      List.drop_eq_nil_iff.mpr hend, Base64.encode, List.append_nil]
    rfl
  | succ rounds ih =>
    by_cases hi : i < input.length
    · have hne : input.drop i ≠ [] := by
        rw [Ne, List.drop_eq_nil_iff]
        omega
      have hgroup := encode_eq_group hne
      rw [List.drop_drop] at hgroup
      have hlen := congrArg List.length hgroup
      rw [List.length_append] at hlen
      change _ = 4 + _ at hlen
      have hfour : 4 ≤ rest.length := by omega
      obtain ⟨x, y, z, w, rest, rfl⟩ := exists_four hfour
      have hlength : (pre ++ group (input.drop i)).length = pre.length + 4 := List.length_append
      simp only [List.length_cons] at hrest
      rw [base64Loop_round hi (by omega), ih (i + 3) (by omega) (by omega) (by omega), hgroup,
        List.append_assoc, List.append_assoc, List.append_assoc]
      rfl
    · have hend : input.length ≤ i := Nat.le_of_not_lt hi
      rw [base64Loop_end hend (List.length_pos_iff.mp (by omega)),
        List.drop_eq_nil_iff.mpr hend, Base64.encode, List.append_nil]
      rfl

/-- `base64_encode` with room for the characters and the NUL: it stores the encoding of its input
and changes no byte behind it. -/
theorem base64Encode_eq {input output : Bytes} {outSize : Nat}
    (hroom : 4 * (((cstr input).length + 2) / 3) + 1 ≤ outSize) (hsize : outSize ≤ output.length) :
    base64Encode input output outSize = Base64.encode (cstr input) ++
      NUL :: output.drop (4 * (((cstr input).length + 2) / 3) + 1) := by
  have hlen := Base64.length_encode (cstr input)
  have hloop : base64Loop (cstr input) outSize (cstr input).length 0 ([] : Bytes).length
      ([] ++ output) = [] ++ Base64.encode ((cstr input).drop 0) ++
        NUL :: output.drop ((Base64.encode ((cstr input).drop 0)).length + 1) := by
    apply base64Loop_eq
    · omega
    · rw [List.drop_zero, List.length_nil]
      omega
    · rw [List.drop_zero]
      omega
  rw [List.drop_zero, hlen] at hloop
  exact hloop

/-- The C string in the output is the encoding. -/
theorem cstr_base64Encode {input output : Bytes} {outSize : Nat}
    (hroom : 4 * (((cstr input).length + 2) / 3) + 1 ≤ outSize) (hsize : outSize ≤ output.length) :
    cstr (base64Encode input output outSize) = Base64.encode (cstr input) := by
  rw [base64Encode_eq hroom hsize]
  exact takeWhile_ne_append_cons (Base64.nul_not_mem_encode _) _

/-! ### Credentials -/

/-- The C strings in `CAM_USERNAME`, `CAM_PASSWORD` and `CAM_AUTH_BASIC`. -/
structure CamCredentials where
  username : Bytes
  password : Bytes
  authBasic : Bytes
  deriving DecidableEq

/-- What the arrays hold when the program starts. -/
def CamCredentials.start : CamCredentials where
  username := lit "admin"
  password := lit ""
  authBasic := lit "Basic YWRtaW46"

/-- `rebuild_basic_auth`; the array `encoded` holds anything before. -/
def rebuildBasicAuth (encoded : CharArray 192) (creds : CamCredentials) : CamCredentials :=
  let raw := snprintf 128 [creds.username, lit ":", creds.password]
  let encoded := base64Encode raw encoded.bytes 192
  { creds with authBasic := snprintf 256 [lit "Basic ", encoded] }

/-- `update_password` with its return value. -/
def updatePassword (encoded : CharArray 192) (creds : CamCredentials)
    (newPassword : Option Bytes) : Int × CamCredentials :=
  match newPassword with
  | none => (-1, creds)
  | some newPassword =>
    if (cstr newPassword).length = 0 then (-1, creds)
    else (0, rebuildBasicAuth encoded { creds with password := snprintf 64 [newPassword] })

/-- The items "username" and "password" of a message, when they are strings. -/
structure CredentialItems where
  user : Option Bytes
  pass : Option Bytes
  deriving DecidableEq

section Operations

variable (cJSONParse : Bytes → Option CredentialItems)

/-- `case 80` of `legacy_message_arrived`: a payload that is not JSON changes nothing. -/
def credentialSync (encoded : CharArray 192) (creds : CamCredentials) (payload : Bytes) :
    CamCredentials :=
  match cJSONParse (cstr payload) with
  | none => creds
  | some root =>
    let creds := match root.user with
      | some user => { creds with username := snprintf 64 [user] }
      | none => creds
    let creds := match root.pass with
      | some pass => { creds with password := snprintf 64 [pass] }
      | none => creds
    rebuildBasicAuth encoded creds

/-- What changes the credentials; each finds something else in the array on its stack. -/
inductive CredentialOp where
  | case80 (encoded : CharArray 192) (payload : Bytes)
  | updatePassword (encoded : CharArray 192) (newPassword : Option Bytes)

/-- The credentials after an operation. -/
def credentialStep (creds : CamCredentials) : CredentialOp → CamCredentials
  | .case80 encoded payload => credentialSync cJSONParse encoded creds payload
  | .updatePassword encoded newPassword => (updatePassword encoded creds newPassword).2

/-- The credentials after a sequence of operations. -/
def credentialsAfter (ops : List CredentialOp) : CamCredentials :=
  ops.foldl (credentialStep cJSONParse) .start

/-- The user name and the password that an operation gives, in place of those before it. -/
def givenStep (given : Bytes × Bytes) : CredentialOp → Bytes × Bytes
  | .case80 _ payload =>
    match cJSONParse (cstr payload) with
    | none => given
    | some root => (root.user.getD given.1, root.pass.getD given.2)
  | .updatePassword _ newPassword =>
    match newPassword with
    | none => given
    | some newPassword => (given.1, if newPassword = [] then given.2 else newPassword)

/-- The user name and the password given last. -/
def givenAfter (ops : List CredentialOp) : Bytes × Bytes :=
  ops.foldl (givenStep cJSONParse) (lit "admin", lit "")

/-- A C string that an array of 64 bytes has room for. -/
def FitsCredential (text : Bytes) : Prop := NUL ∉ text ∧ text.length < 64

instance (text : Bytes) : Decidable (FitsCredential text) := inferInstanceAs (Decidable (_ ∧ _))

/-- What the operation gives fits. -/
def CredentialOp.Fits : CredentialOp → Prop
  | .case80 _ payload => ∀ root ∈ cJSONParse (cstr payload),
      (∀ user ∈ root.user, FitsCredential user) ∧ ∀ pass ∈ root.pass, FitsCredential pass
  | .updatePassword _ newPassword => ∀ password ∈ newPassword, FitsCredential password

end Operations


/-- The text the header is made of. -/
def userPass (user pass : Bytes) : Bytes := user ++ lit ":" ++ pass

/-- The user name and the password are in their arrays, and the header is made of them. -/
structure CamCredentials.Consistent (creds : CamCredentials) : Prop where
  username : FitsCredential creds.username
  password : FitsCredential creds.password
  authBasic : creds.authBasic =
    lit "Basic " ++ Base64.encode (userPass creds.username creds.password)

/-- `rebuild_basic_auth` makes the header of what the arrays hold, which fits. -/
theorem consistent_rebuildBasicAuth (encoded : CharArray 192) {creds : CamCredentials}
    (hu : FitsCredential creds.username) (hp : FitsCredential creds.password) :
    (rebuildBasicAuth encoded creds).Consistent where
  username := hu
  password := hp
  authBasic := by
    have hraw : snprintf 128 [creds.username, lit ":", creds.password] =
        userPass creds.username creds.password := by
      have hparts : [creds.username, lit ":", creds.password].flatten =
          userPass creds.username creds.password := by
        rw [List.flatten_cons, List.flatten_cons, List.flatten_singleton, userPass,
          List.append_assoc]
      rw [← hparts]
      apply snprintf_eq
      · intro part hpart
        simp only [List.mem_cons, List.not_mem_nil, or_false] at hpart
        obtain rfl | rfl | rfl := hpart
        · exact hu.1
        · decide
        · exact hp.1
      · have hlu := hu.2
        have hlp := hp.2
        have hcolon : (lit ":").length = 1 := rfl
        rw [hparts, userPass, List.length_append, List.length_append]
        omega
    have hnul : NUL ∉ userPass creds.username creds.password := by
      rw [← hraw]
      exact nul_not_mem_snprintf _ _
    have hlen : (userPass creds.username creds.password).length ≤ 127 := by
      have hlu := hu.2
      have hlp := hp.2
      have hcolon : (lit ":").length = 1 := rfl
      rw [userPass, List.length_append, List.length_append]
      omega
    have hencode := Base64.length_encode (userPass creds.username creds.password)
    have hcstr : cstr (base64Encode (userPass creds.username creds.password) encoded.bytes 192) =
        Base64.encode (userPass creds.username creds.password) := by
      have h := @cstr_base64Encode (userPass creds.username creds.password) encoded.bytes 192
      rw [cstr_of_nul_not_mem hnul, encoded.length_eq] at h
      exact h (by omega) le_rfl
    have hbasic : cstr (lit "Basic ") = lit "Basic " := by decide
    have hsix : (lit "Basic ").length = 6 := by decide
    change snprintf 256 [lit "Basic ", base64Encode (snprintf 128 _) encoded.bytes 192] = _
    rw [hraw, snprintf, List.flatMap_cons, List.flatMap_singleton, hcstr, hbasic]
    apply List.take_of_length_le
    rw [List.length_append, hsix]
    omega

/-- What is printed to an array of 64 bytes fits it. -/
theorem fits_snprintf (parts : List Bytes) : FitsCredential (snprintf 64 parts) := by
  constructor
  · exact nul_not_mem_snprintf 64 parts
  · have hlen := List.length_take_le 63 (parts.flatMap cstr)
    change ((parts.flatMap cstr).take 63).length < 64
    omega

/-- A text that fits is printed as it is. -/
theorem snprintf_fits {text : Bytes} (h : FitsCredential text) : snprintf 64 [text] = text := by
  have hflat : [text].flatten = text := List.flatten_singleton
  have hprint : snprintf 64 [text] = [text].flatten := by
    apply snprintf_eq
    · intro part hpart
      rw [List.mem_singleton.mp hpart]
      exact h.1
    · rw [hflat]
      exact h.2
  rw [hprint, hflat]

/-- The credentials are consistent when the program starts. -/
theorem consistent_start : CamCredentials.start.Consistent where
  username := by decide
  password := by decide
  authBasic := by decide +kernel

/-- Every operation keeps them so. -/
theorem CamCredentials.Consistent.step (cJSONParse : Bytes → Option CredentialItems)
    {creds : CamCredentials} (h : creds.Consistent) (op : CredentialOp) :
    (credentialStep cJSONParse creds op).Consistent := by
  cases op with
  | case80 encoded payload =>
    change (credentialSync cJSONParse encoded creds payload).Consistent
    unfold credentialSync
    cases cJSONParse (cstr payload) with
    | none => exact h
    | some root =>
      obtain ⟨user, pass⟩ := root
      apply consistent_rebuildBasicAuth
      · cases user <;> cases pass <;> first | exact h.username | exact fits_snprintf _
      · cases user <;> cases pass <;> first | exact h.password | exact fits_snprintf _
  | updatePassword encoded newPassword =>
    change (updatePassword encoded creds newPassword).2.Consistent
    unfold updatePassword
    cases newPassword with
    | none => exact h
    | some newPassword =>
      dsimp only
      split
      · exact h
      · exact consistent_rebuildBasicAuth encoded h.username (fits_snprintf _)

/-- An operation whose texts fit leaves what it gives. -/
theorem given_step {cJSONParse : Bytes → Option CredentialItems} {op : CredentialOp}
    (h : op.Fits cJSONParse) (creds : CamCredentials) :
    ((credentialStep cJSONParse creds op).username,
        (credentialStep cJSONParse creds op).password) =
      givenStep cJSONParse (creds.username, creds.password) op := by
  cases op with
  | case80 encoded payload =>
    change ((credentialSync cJSONParse encoded creds payload).username,
      (credentialSync cJSONParse encoded creds payload).password) = _
    unfold credentialSync givenStep
    unfold CredentialOp.Fits at h
    dsimp only at h ⊢
    cases hroot : cJSONParse (cstr payload) with
    | none => rfl
    | some root =>
      obtain ⟨huser, hpass⟩ := h root hroot
      obtain ⟨user, pass⟩ := root
      apply Prod.ext
      · cases user with
        | none => cases pass <;> rfl
        | some user => cases pass <;> exact snprintf_fits (huser user rfl)
      · cases pass with
        | none => cases user <;> rfl
        | some pass => cases user <;> exact snprintf_fits (hpass pass rfl)
  | updatePassword encoded newPassword =>
    change ((updatePassword encoded creds newPassword).2.username,
      (updatePassword encoded creds newPassword).2.password) = _
    unfold updatePassword givenStep
    cases newPassword with
    | none => rfl
    | some newPassword =>
      have hfits : FitsCredential newPassword := h newPassword rfl
      dsimp only
      rw [cstr_of_nul_not_mem hfits.1]
      by_cases hempty : newPassword = []
      · rw [if_pos (List.length_eq_zero_iff.mpr hempty), if_pos hempty]
      · rw [if_neg (List.length_eq_zero_iff.not.mpr hempty), if_neg hempty]
        exact Prod.ext rfl (snprintf_fits hfits)

/-- The header is made of the user name and the password after any sequence of operations, these
are the ones given last when all that were given fit, and the encoder writes nothing behind the
characters and the NUL of an encoding that the decoder reads back. -/
theorem credentials_consistent (cJSONParse : Bytes → Option CredentialItems)
    (ops : List CredentialOp) :
    (credentialsAfter cJSONParse ops).authBasic = lit "Basic " ++ Base64.encode
      (userPass (credentialsAfter cJSONParse ops).username
        (credentialsAfter cJSONParse ops).password) ∧
    ((∀ op ∈ ops, op.Fits cJSONParse) →
      ((credentialsAfter cJSONParse ops).username, (credentialsAfter cJSONParse ops).password) =
        givenAfter cJSONParse ops) ∧
    ∀ (input output : Bytes) (outSize : Nat), NUL ∉ input →
      4 * ((input.length + 2) / 3) + 1 ≤ outSize → outSize ≤ output.length →
      Base64.decode (cstr (base64Encode input output outSize)) = some input ∧
      base64Encode input output outSize =
        Base64.encode input ++ NUL :: output.drop (4 * ((input.length + 2) / 3) + 1) ∧
      ∀ input' output' outSize', NUL ∉ input' →
        4 * ((input'.length + 2) / 3) + 1 ≤ outSize' → outSize' ≤ output'.length →
        cstr (base64Encode input output outSize) = cstr (base64Encode input' output' outSize') →
        input = input' := by
  have hencode : ∀ {input output : Bytes} {outSize : Nat}, NUL ∉ input →
      4 * ((input.length + 2) / 3) + 1 ≤ outSize → outSize ≤ output.length →
      cstr (base64Encode input output outSize) = Base64.encode input := by
    intro input output outSize hnul hroom hsize
    have h := @cstr_base64Encode input output outSize
    rw [cstr_of_nul_not_mem hnul] at h
    exact h hroom hsize
  have hconsistent : ∀ creds : CamCredentials, creds.Consistent →
      (ops.foldl (credentialStep cJSONParse) creds).Consistent := by
    intro creds h
    induction ops generalizing creds with
    | nil => exact h
    | cons op ops ih => exact ih _ (h.step cJSONParse op)
  have hgiven : (∀ op ∈ ops, op.Fits cJSONParse) → ∀ creds : CamCredentials,
      ((ops.foldl (credentialStep cJSONParse) creds).username,
          (ops.foldl (credentialStep cJSONParse) creds).password) =
        ops.foldl (givenStep cJSONParse) (creds.username, creds.password) := by
    intro hfits creds
    clear hconsistent
    induction ops generalizing creds with
    | nil => rfl
    | cons op ops ih =>
      rw [List.foldl_cons, List.foldl_cons, ← given_step (hfits op List.mem_cons_self)]
      exact ih (fun o ho ↦ hfits o (List.mem_cons_of_mem _ ho)) _
  refine ⟨(hconsistent _ consistent_start).authBasic, fun hfits ↦ hgiven hfits .start, ?_⟩
  intro input output outSize hnul hroom hsize
  refine ⟨?_, ?_, fun input' output' outSize' hnul' hroom' hsize' hsame ↦ ?_⟩
  · rw [hencode hnul hroom hsize, Base64.decode_encode]
  · have h := @base64Encode_eq input output outSize
    rw [cstr_of_nul_not_mem hnul] at h
    exact h hroom hsize
  · rw [hencode hnul hroom hsize, hencode hnul' hroom' hsize'] at hsame
    exact Base64.encode_injective hsame

/-- A message of the server with a password. -/
def passwordMessage : Bytes := lit "\x7b\"password\":\"s3cret\"\x7d"

/-- What `cJSON_Parse` finds in it. -/
def passwordItems (text : Bytes) : Option CredentialItems :=
  if text = passwordMessage then some ⟨none, some (lit "s3cret")⟩ else none

/-- The message, and a new password after it. -/
def passwordOps : List CredentialOp :=
  [.case80 (.zero 192) passwordMessage, .updatePassword (.zero 192) (some (lit "bob:2"))]

/-- The header after the message and the new password, and the encoder on it. -/
theorem header_of_passwordOps :
    (credentialsAfter passwordItems passwordOps).authBasic = lit "Basic YWRtaW46Ym9iOjI=" ∧
    ((credentialsAfter passwordItems passwordOps).username,
      (credentialsAfter passwordItems passwordOps).password) = (lit "admin", lit "bob:2") ∧
    Base64.decode (cstr (base64Encode (lit "admin:") (List.replicate 10 7) 9)) =
      some (lit "admin:") := by
  obtain ⟨hheader, hgiven, hencode⟩ := credentials_consistent passwordItems passwordOps
  have hfits : ∀ op ∈ passwordOps, op.Fits passwordItems := by
    have hmessage : passwordItems (cstr passwordMessage) = some ⟨none, some (lit "s3cret")⟩ := by
      decide
    intro op hop
    obtain rfl | hop := List.mem_cons.mp hop
    · intro root hroot
      rw [hmessage] at hroot
      cases hroot
      exact ⟨by decide, by decide⟩
    · rw [List.mem_singleton.mp hop]
      unfold CredentialOp.Fits
      decide
  have hlast : givenAfter passwordItems passwordOps = (lit "admin", lit "bob:2") := by decide
  have hcreds := (hgiven hfits).trans hlast
  obtain ⟨huser, hpass⟩ := Prod.mk.inj hcreds
  rw [huser, hpass] at hheader
  refine ⟨hheader.trans (by decide +kernel), hcreds, ?_⟩
  exact (hencode (lit "admin:") (List.replicate 10 7) 9 (by decide) (by decide) (by decide)).1

end Kitty.Ap2p
