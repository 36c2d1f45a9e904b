import Kitty.Ap2p.Credentials
import Kitty.CJson.Documents

/-!
# Credentials that come as JSON

Case 80 of `legacy_message_arrived`, `src/ap2p/legacy_cases.c:2038–2062`, with cJSON itself: what
the messages of the server mean as documents of JSON is what the camera logs in with.
-/

namespace Kitty.Ap2p

open Kitty.Base
open Kitty.CJson (Item CDouble HasItem cJSONParse itemOf membersOf nestingOf
  caseInsensitiveStrcmp)

variable (D : Type) [CDouble D]

/-- What `case 80` takes from the item that `cJSON_Parse` returns. -/
def credentialItems (text : Bytes) : Option CredentialItems :=
  (cJSONParse (D := D) text).map fun root ↦
    { user := (root.getObjectItem (lit "username")).bind Item.valuestring
      pass := (root.getObjectItem (lit "password")).bind Item.valuestring }

/-! ### The meaning of a message -/

/-- The text of a string, as a C string. -/
def stringText : Json.Value → Option Bytes
  | .string s => some (cstr s)
  | _ => none

/-- The text of the first member that has the name in whatever letters, when it is a string. -/
def memberText (key : Bytes) : Json.Value → Option Bytes
  | .object ms =>
    (ms.find? fun m ↦ caseInsensitiveStrcmp key m.1).bind fun m ↦ stringText m.2
  | _ => none

/-- The message is a document of JSON that cJSON has an item for, nested no deeper than its
limit. -/
def CredentialOp.IsDocument : CredentialOp → Prop
  | .case80 _ payload => ∃ v, Json.parse payload = some v ∧ HasItem D v ∧
      nestingOf v ≤ CJson.nestingLimit
  | .updatePassword .. => True

/-- The user name and the password after an operation, of each as much as its array has room
for. -/
def documentStep (given : Bytes × Bytes) : CredentialOp → Bytes × Bytes
  | .case80 _ payload =>
    match Json.parse payload with
    | none => given
    | some v => (((memberText (lit "username") v).map (·.take 63)).getD given.1,
        ((memberText (lit "password") v).map (·.take 63)).getD given.2)
  | .updatePassword _ newPassword =>
    match newPassword with
    | none => given
    | some newPassword =>
      (given.1, if cstr newPassword = [] then given.2 else (cstr newPassword).take 63)

/-! ### cJSON finds what the document says -/

variable {D}

private theorem valuestring_of_itemOf {v : Json.Value} {item : Item D}
    (h : itemOf v = some item) : item.valuestring = stringText v := by
  cases v with
  | null | bool =>
    cases h
    rfl
  | number | array | object =>
    obtain ⟨x, -, rfl⟩ := Option.map_eq_some_iff.mp h
    rfl
  | string s =>
    obtain ⟨s', hs, rfl⟩ := Option.map_eq_some_iff.mp h
    rw [(CJson.eq_of_textOf hs).1]
    rfl

/-- cJSON looks for a name as the document is looked through. -/
private theorem getObjectItem_membersOf {key : Bytes} {ms : List (Bytes × Json.Value)}
    {members : List (Bytes × Item D)} (h : membersOf ms = some members) :
    ((Item.object members).getObjectItem key).bind Item.valuestring =
      memberText key (.object ms) := by
  induction ms generalizing members with
  | nil =>
    cases h
    rfl
  | cons m ms ih =>
    obtain ⟨k, v⟩ := m
    obtain ⟨name, hname, heq⟩ := Option.bind_eq_some_iff.mp h
    obtain ⟨item, hitem, heq⟩ := Option.bind_eq_some_iff.mp heq
    obtain ⟨rest, hrest, rfl⟩ := Option.map_eq_some_iff.mp heq
    obtain ⟨rfl, -⟩ := CJson.eq_of_textOf hname
    have htail := ih hrest
    rw [Item.getObjectItem, memberText] at htail ⊢
    rw [List.find?_cons, List.find?_cons]
    cases hkey : caseInsensitiveStrcmp key name with
    | true => exact valuestring_of_itemOf hitem
    | false => exact htail

private theorem getObjectItem_of_itemOf {v : Json.Value} {item : Item D}
    (h : itemOf v = some item) (key : Bytes) :
    (item.getObjectItem key).bind Item.valuestring = memberText key v := by
  cases v with
  | null | bool =>
    cases h
    rfl
  | number | string | array =>
    obtain ⟨x, -, rfl⟩ := Option.map_eq_some_iff.mp h
    rfl
  | object ms =>
    obtain ⟨members, hmembers, rfl⟩ := Option.map_eq_some_iff.mp h
    exact getObjectItem_membersOf hmembers

/-- What case 80 takes from a document. -/
private theorem credentialItems_of_document {payload : Bytes} {v : Json.Value}
    (hparse : Json.parse payload = some v) (hhas : HasItem D v)
    (hnesting : nestingOf v ≤ CJson.nestingLimit) :
    credentialItems D (cstr payload) =
      some ⟨memberText (lit "username") v, memberText (lit "password") v⟩ := by
  obtain ⟨-, l, r, hws, hreads, hend⟩ := (Json.parse_eq_some_iff payload v).mp hparse
  obtain ⟨item, hitem, hsame⟩ := CJson.exists_itemOf hhas
  obtain ⟨parseEnd, hcjson⟩ :=
    CJson.parseWithOpts_of_reads hws hreads hend hitem (hsame ▸ hnesting) false
  rw [cstr_of_nul_not_mem (Json.nul_not_mem_document hws hreads hend), credentialItems, cJSONParse,
    hcjson]
  exact congrArg some (congrArg₂ CredentialItems.mk (getObjectItem_of_itemOf hitem _)
    (getObjectItem_of_itemOf hitem _))

/-! ### The credentials after any messages -/

/-- What is taken from a document is a C string. -/
private theorem nul_not_mem_memberText {key s : Bytes} {v : Json.Value}
    (h : memberText key v = some s) : NUL ∉ s := by
  cases v with
  | object ms =>
    obtain ⟨⟨k, w⟩, -, hw⟩ := Option.bind_eq_some_iff.mp h
    cases w with
    | string raw =>
      cases hw
      exact nul_not_mem_cstr raw
    | null | bool | number | array | object => cases hw
  | null | bool | number | string | array => cases h

private theorem snprintf_cstr (text : Bytes) : snprintf 64 [text] = (cstr text).take 63 := by
  rw [snprintf, List.flatMap_singleton]

private theorem snprintf_memberText {key s : Bytes} {v : Json.Value}
    (h : memberText key v = some s) : snprintf 64 [s] = s.take 63 := by
  rw [snprintf_cstr, cstr_of_nul_not_mem (nul_not_mem_memberText h)]

/-- An operation gives the credentials what it means. -/
private theorem credentialStep_document {op : CredentialOp} (h : op.IsDocument D)
    (creds : CamCredentials) :
    ((credentialStep (credentialItems D) creds op).username,
        (credentialStep (credentialItems D) creds op).password) =
      documentStep (creds.username, creds.password) op := by
  cases op with
  | case80 encoded payload =>
    obtain ⟨v, hparse, hhas, hnesting⟩ := h
    change ((credentialSync (credentialItems D) encoded creds payload).username,
      (credentialSync (credentialItems D) encoded creds payload).password) = _
    rw [credentialSync, credentialItems_of_document hparse hhas hnesting, documentStep, hparse]
    dsimp only
    cases huser : memberText (lit "username") v with
    | none =>
      cases hpass : memberText (lit "password") v with
      | none => rfl
      | some pass => exact Prod.ext rfl (snprintf_memberText hpass)
    | some user =>
      cases hpass : memberText (lit "password") v with
      | none => exact Prod.ext (snprintf_memberText huser) rfl
      | some pass => exact Prod.ext (snprintf_memberText huser) (snprintf_memberText hpass)
  | updatePassword encoded newPassword =>
    change ((updatePassword encoded creds newPassword).2.username,
      (updatePassword encoded creds newPassword).2.password) = _
    unfold updatePassword documentStep
    cases newPassword with
    | none => rfl
    | some newPassword =>
      dsimp only
      by_cases hempty : cstr newPassword = []
      · rw [if_pos (List.length_eq_zero_iff.mpr hempty), if_pos hempty]
      · rw [if_neg (List.length_eq_zero_iff.not.mpr hempty), if_neg hempty]
        exact Prod.ext rfl (snprintf_cstr newPassword)

/-- After any sequence of messages that are documents of JSON and of new passwords, the camera logs
in with the user name and the password that these mean, each cut to its array: the first member
named so in whatever letters, where it is a string, and otherwise what was given before. -/
theorem credentials_of_documents (ops : List CredentialOp)
    (hops : ∀ op ∈ ops, op.IsDocument D) :
    let given := ops.foldl documentStep (lit "admin", lit "")
    credentialsAfter (credentialItems D) ops =
      { username := given.1
        password := given.2
        authBasic := lit "Basic " ++ Base64.encode (userPass given.1 given.2) } := by
  intro given
  have hrun : ∀ creds : CamCredentials, creds.Consistent →
      (ops.foldl (credentialStep (credentialItems D)) creds).Consistent ∧
        ((ops.foldl (credentialStep (credentialItems D)) creds).username,
          (ops.foldl (credentialStep (credentialItems D)) creds).password) =
            ops.foldl documentStep (creds.username, creds.password) := by
    clear given
    induction ops with
    | nil => exact fun creds hcreds ↦ ⟨hcreds, rfl⟩
    | cons op ops ih =>
      intro creds hcreds
      rw [List.foldl_cons, List.foldl_cons,
        ← credentialStep_document (hops op List.mem_cons_self) creds]
      exact ih (fun o ho ↦ hops o (List.mem_cons_of_mem _ ho)) _ (hcreds.step _ op)
  obtain ⟨hconsistent, hgiven⟩ := hrun .start consistent_start
  obtain ⟨huser, hpass⟩ := Prod.mk.inj (hgiven : _ = given)
  have hheader := hconsistent.authBasic
  rw [huser, hpass] at hheader
  calc credentialsAfter (credentialItems D) ops
      = ⟨(credentialsAfter (credentialItems D) ops).username,
          (credentialsAfter (credentialItems D) ops).password,
          (credentialsAfter (credentialItems D) ops).authBasic⟩ := rfl
    _ = ⟨given.1, given.2, lit "Basic " ++ Base64.encode (userPass given.1 given.2)⟩ := by
      exact congr (congrArg₂ CamCredentials.mk huser hpass) hheader

/-- A message with a user name, in other letters and escaped, and a new password after it. -/
def documentOps : List CredentialOp :=
  [.case80 (.zero 192) (lit "\x7b\"UserName\": \"b\\u006fb\", \"n\": [1]\x7d"),
    .updatePassword (.zero 192) (some (lit "s3cret"))]

theorem credentials_of_documents_documentOps :
    credentialsAfter (credentialItems Int) documentOps =
      ⟨lit "bob", lit "s3cret", lit "Basic Ym9iOnMzY3JldA=="⟩ := by
  have hops : ∀ op ∈ documentOps, op.IsDocument Int := by
    intro op hop
    obtain rfl | hop := List.mem_cons.mp hop
    · have hutf8 : isUtf8 (lit "UserName") = true ∧ isUtf8 (lit "bob") = true ∧
          isUtf8 (lit "n") = true := by decide
      have hnumber : HasItem Int (.array [.number (lit "1")]) :=
        ⟨⟨by decide, 1, by decide⟩, trivial⟩
      exact ⟨.object [(lit "UserName", .string (lit "bob")), (lit "n", .array [.number (lit "1")])],
        by rfl, ⟨hutf8.1, hutf8.2.1, hutf8.2.2, hnumber, trivial⟩, by decide⟩
    · rw [List.mem_singleton.mp hop]
      trivial
  exact (credentials_of_documents documentOps hops).trans (by decide +kernel)

end Kitty.Ap2p
