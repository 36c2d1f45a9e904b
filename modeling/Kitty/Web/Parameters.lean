import Kitty.Base.Parameters
import Kitty.Base.Shell
import Kitty.Web.UrlDecode

/-!
# Parameters of an HTTP request

`extract_cookie` and `extract_form_field` of
`src/signaling-server/signaling_server.cpp:279–303,366–374` and `parse_path_and_verify` of
`src/consumer-srt-cloud/consumer_srt.c:463–492`. Each of them looks for a name and an equals sign
anywhere in a text, so a parameter is found whose name only ends with the one looked for.
-/

namespace Kitty.Web

open Kitty.Base

/-! ### The programs -/

/-- Where the search for a name and an equals sign, and past them, ends. -/
def valueStart (text name : Bytes) : Option Nat :=
  (find (name ++ [EQ]) text).map (· + (name.length + 1))

/-- `extract_form_field`. -/
def extractFormField (body field : Bytes) : Bytes :=
  match valueStart body field with
  | none => []
  | some start => urlDecode ((body.drop start).takeWhile (· ≠ 38))

/-- Where `extract_cookie` finds its header: at the first `Cookie:` of the request, or else at the
first `cookie:`. -/
def findCookieHeader (request : Bytes) : Option Nat :=
  (find (lit "Cookie:") request).or (find (lit "cookie:") request)

/-- What follows the name of the header on its line. -/
def cookieText (request : Bytes) (pos : Nat) : Bytes :=
  match findFrom [CR, LF] request pos with
  | none => request.drop (pos + 7)
  | some lineEnd => (request.drop (pos + 7)).take (lineEnd - pos - 7)

/-- `extract_cookie`. -/
def extractCookie (request name : Bytes) : Bytes :=
  match findCookieHeader request with
  | none => []
  | some pos =>
    match valueStart (cookieText request pos) name with
    | none => []
    | some start => trimBy isBlank (((cookieText request pos).drop start).takeWhile (· ≠ 59))

/-- Where in the request the value of the cookie begins. -/
def cookieStart (request name : Bytes) : Option Nat :=
  (findCookieHeader request).bind fun pos ↦
    (valueStart (cookieText request pos) name).map (· + (pos + 7))

/-- The result of `parse_path_and_verify`: the path it accepts, and what it writes to `verify_out`,
if anything. -/
structure PathResult where
  path : Option Bytes
  verify : Option Bytes
  deriving DecidableEq

/-- `parse_path_and_verify`. -/
def parsePathAndVerify (req : Bytes) (pathlen verifylen : Nat) : PathResult :=
  if ¬ lit "GET " <+: req then ⟨none, none⟩
  else
    let p := req.drop 4
    if 32 ∉ p then ⟨none, none⟩
    else
      let full := p.takeWhile (· ≠ 32)
      if pathlen ≤ full.length ∨ 512 ≤ full.length then ⟨none, none⟩
      else if 63 ∈ full then
        let path := full.takeWhile (· ≠ 63)
        let q := full.drop (path.length + 1)
        ⟨some (snprintf pathlen [path]), (valueStart q (lit "verify")).map fun vp ↦
          let value := (q.drop vp).takeWhile (· ≠ 38)
          value.take (if verifylen ≤ value.length then verifylen - 1 else value.length)⟩
      else ⟨some (snprintf pathlen [full]), none⟩

/-- Where in the request the value of the parameter begins. -/
def verifyStart (req : Bytes) (pathlen : Nat) : Option Nat :=
  let full := (req.drop 4).takeWhile (· ≠ 32)
  let path := full.takeWhile (· ≠ 63)
  if lit "GET " <+: req ∧ 32 ∈ req.drop 4 ∧ full.length < pathlen ∧ full.length < 512 ∧
      63 ∈ full then
    (valueStart (full.drop (path.length + 1)) (lit "verify")).map (· + (4 + path.length + 1))
  else none

/-! ### Requests -/

/-- A query string, or the body of a form. -/
def formSyntax : Syntax UInt8 where
  mark := EQ
  sep := 38
  blank _ := false
  mark_ne_sep := by decide
  blank_mark := rfl
  blank_sep := rfl

/-- The value of a Cookie header. -/
def cookieSyntax : Syntax UInt8 where
  mark := EQ
  sep := 59
  blank := isBlank
  mark_ne_sep := by decide
  blank_mark := by decide
  blank_sep := by decide

/-- A parameter of a query string or a form. -/
def plainParam (e : Bytes × Bytes) : Param UInt8 := ⟨[], e.1, e.2, []⟩

/-- The text of a query string or a form. -/
def formText (fields : List (Bytes × Bytes)) : Bytes :=
  formSyntax.paramsText (fields.map plainParam)

/-- A byte that is no separator in a query string or a form. -/
def FormWords (fields : List (Bytes × Bytes)) : Prop :=
  ∀ e ∈ fields, formSyntax.Word e.1 ∧ formSyntax.Word e.2

instance (fields : List (Bytes × Bytes)) : Decidable (FormWords fields) :=
  inferInstanceAs (Decidable (∀ e ∈ fields, _))

/-- A Cookie header, under the name it is spelled with. -/
structure CookieHeader where
  name : Bytes
  cookies : List (Param UInt8)

/-- An HTTP request, as the parts that the programs look at. -/
structure HttpRequest where
  method : Bytes
  path : Bytes
  query : Option (List (Bytes × Bytes))
  version : Bytes
  before : List (Bytes × Bytes)
  cookie : Option CookieHeader
  after : List (Bytes × Bytes)
  body : Bytes

/-- A capital letter becomes a small one. -/
def asciiLower (b : UInt8) : UInt8 := if 65 ≤ b && b ≤ 90 then b + 32 else b

/-- A header that is the Cookie header, in whatever case. -/
def isCookieName (name : Bytes) : Bool := name.map asciiLower == lit "cookie"

namespace HttpRequest

variable (r : HttpRequest)

/-- The target of the request. -/
def target : Bytes :=
  r.path ++ match r.query with
    | none => []
    | some fields => 63 :: formText fields

/-- The text of a header. -/
def headerText (h : Bytes × Bytes) : Bytes := h.1 ++ 58 :: h.2 ++ [CR, LF]

/-- The text before the Cookie header: the request line and the headers before it. -/
def textBefore : Bytes :=
  r.method ++ 32 :: (r.target ++ 32 :: r.version) ++ [CR, LF] ++ r.before.flatMap headerText

/-- The text behind it. -/
def textAfter : Bytes := r.after.flatMap headerText ++ [CR, LF] ++ r.body

/-- The request as it is sent. -/
def text : Bytes :=
  r.textBefore ++
    ((match r.cookie with
      | none => []
      | some c => c.name ++ 58 :: cookieSyntax.paramsText c.cookies ++ [CR, LF]) ++ r.textAfter)

/-- A header as it should be: one line, with a colon behind the name, and not the Cookie header
again. -/
structure GoodHeader (h : Bytes × Bytes) : Prop where
  name : 58 ∉ h.1 ∧ CR ∉ h.1 ∧ LF ∉ h.1
  value : CR ∉ h.2 ∧ LF ∉ h.2
  other : isCookieName h.1 = false

/-- A cookie as it should be: beside blanks, `;` and `=`, it has no colon and is on one line. -/
structure GoodCookie (p : Param UInt8) : Prop where
  good : cookieSyntax.Good p
  name : 58 ∉ p.name ∧ CR ∉ p.name ∧ LF ∉ p.name
  value : 58 ∉ p.value ∧ CR ∉ p.value ∧ LF ∉ p.value

instance (h : Bytes × Bytes) : Decidable (GoodHeader h) :=
  decidable_of_iff ((58 ∉ h.1 ∧ CR ∉ h.1 ∧ LF ∉ h.1) ∧ (CR ∉ h.2 ∧ LF ∉ h.2) ∧
      isCookieName h.1 = false)
    ⟨fun ⟨name, value, other⟩ ↦ ⟨name, value, other⟩,
      fun ⟨name, value, other⟩ ↦ ⟨name, value, other⟩⟩

instance (p : Param UInt8) : Decidable (GoodCookie p) :=
  decidable_of_iff (cookieSyntax.Good p ∧ (58 ∉ p.name ∧ CR ∉ p.name ∧ LF ∉ p.name) ∧
      58 ∉ p.value ∧ CR ∉ p.value ∧ LF ∉ p.value)
    ⟨fun ⟨good, name, value⟩ ↦ ⟨good, name, value⟩, fun ⟨good, name, value⟩ ↦ ⟨good, name, value⟩⟩

/-- A request as it should be. -/
structure WellFormed : Prop where
  method : 32 ∉ r.method ∧ CR ∉ r.method ∧ LF ∉ r.method
  path : 63 ∉ r.path ∧ 32 ∉ r.path ∧ CR ∉ r.path ∧ LF ∉ r.path ∧ NUL ∉ r.path
  version : CR ∉ r.version ∧ LF ∉ r.version
  query : ∀ fields ∈ r.query, FormWords fields ∧ 32 ∉ formText fields ∧ CR ∉ formText fields ∧
    LF ∉ formText fields ∧ NUL ∉ formText fields
  headers : ∀ h ∈ r.before ++ r.after, GoodHeader h
  cookie_name : ∀ c ∈ r.cookie, isCookieName c.name = true
  cookies : ∀ c ∈ r.cookie, ∀ p ∈ c.cookies, GoodCookie p

/-- Where the value of a cookie begins. -/
def cookieAt (name : Bytes) : Option Nat :=
  r.cookie.bind fun c ↦ (cookieSyntax.startWhere (fun n ↦ decide (n = name)) c.cookies).map
    (· + (r.textBefore.length + c.name.length + 1))

/-- The value of a cookie. -/
def cookieValue (name : Bytes) : Option Bytes :=
  r.cookie.bind fun c ↦ (c.cookies.find? fun p ↦ decide (p.name = name)).map Param.value

/-- Where the value of a parameter of the query begins. -/
def queryAt (name : Bytes) : Option Nat :=
  r.query.bind fun fields ↦
    (formSyntax.startWhere (fun n ↦ decide (n = name)) (fields.map plainParam)).map
      (· + (r.method.length + 1 + r.path.length + 1))

/-- The value of a parameter of the query. -/
def queryValue (name : Bytes) : Option Bytes :=
  r.query.bind fun fields ↦ (fields.find? fun e ↦ decide (e.1 = name)).map Prod.snd

end HttpRequest

/-! ### Form fields -/

/-- The form field taken is the one of that name. -/
structure FormExact (fields : List (Bytes × Bytes)) (name : Bytes) : Prop where
  start : valueStart (formText fields) name =
    formSyntax.startWhere (fun n ↦ decide (n = name)) (fields.map plainParam)
  value : extractFormField (formText fields) name =
    ((fields.find? fun e ↦ decide (e.1 = name)).map fun e ↦ urlDecode e.2).getD []

section Form

variable {fields : List (Bytes × Bytes)} {name : Bytes}

theorem good_plainParam (h : FormWords fields) :
    ∀ p ∈ fields.map plainParam, formSyntax.Good p := by
  intro p hp
  obtain ⟨e, he, rfl⟩ := List.mem_map.mp hp
  obtain ⟨hname, hvalue⟩ := h e he
  exact ⟨hname, hvalue, by simp [plainParam], by simp [plainParam]⟩

/-- The search in the text of a form finds the first field whose name ends with the name. -/
theorem valueStart_formText (h : FormWords fields) (hname : formSyntax.Word name) :
    valueStart (formText fields) name =
      formSyntax.startWhere (fun n ↦ decide (name <:+ n)) (fields.map plainParam) :=
  Syntax.find_paramsText hname (good_plainParam h)

/-- The value from a place on, up to the next separator. -/
theorem map_formText (h : FormWords fields) (looked : Bytes → Bool) :
    (formSyntax.startWhere looked (fields.map plainParam)).map
        (fun i ↦ ((formText fields).drop i).takeWhile (· ≠ 38)) =
      (fields.find? fun e ↦ looked e.1).map Prod.snd := by
  have hmap := Syntax.map_startWhere (good_plainParam h) looked
  rw [List.find?_map, Option.map_map] at hmap
  refine hmap.trans ?_
  change (fields.find? fun e ↦ looked e.1).map _ = _
  congr 1
  funext e
  exact List.append_nil _

/-- `extract_form_field` takes the field of the name exactly when the first field whose name ends
with it is that field. -/
theorem formExact_iff (h : FormWords fields) (hname : formSyntax.Word name) :
    FormExact fields name ↔ FirstEnding name (fields.map plainParam) := by
  rw [← Syntax.startWhere_eq_iff formSyntax, ← valueStart_formText h hname]
  constructor
  · exact FormExact.start
  · intro hstart
    refine ⟨hstart, ?_⟩
    have hmap := map_formText h fun n ↦ decide (n = name)
    have hdecode : (fields.find? fun e ↦ decide (e.1 = name)).map (fun e ↦ urlDecode e.2) =
        ((fields.find? fun e ↦ decide (e.1 = name)).map Prod.snd).map urlDecode := by
      rw [Option.map_map]
      rfl
    rw [← hstart] at hmap
    rw [extractFormField, hdecode, ← hmap]
    cases valueStart (formText fields) name <;> rfl

end Form

/-! ### Cookies -/

/-- The cookie taken is the one of that name. -/
structure CookieExact (r : HttpRequest) (name : Bytes) : Prop where
  start : cookieStart r.text name = r.cookieAt name
  value : extractCookie r.text name = (r.cookieValue name).getD []

/-- The Cookie header is the first place of the request where its name is looked for: it is spelled
`Cookie` and that text does not occur before it, or `cookie`, the other spelling does not occur at
all, and this one not before it. -/
def HeaderFirst (r : HttpRequest) (c : CookieHeader) : Prop :=
  c.name = lit "Cookie" ∧ find (lit "Cookie:") r.textBefore = none ∨
    c.name = lit "cookie" ∧ find (lit "Cookie:") r.text = none ∧
      find (lit "cookie:") r.textBefore = none

section Cookie

variable {r : HttpRequest} {c : CookieHeader} {word : Bytes}

/-- A word is not found over the end of a line. -/
private theorem find_lines (hne : word ≠ []) (hcr : CR ∉ word) (hlf : LF ∉ word)
    (line rest : Bytes) : find word (line ++ [CR, LF] ++ rest) =
      (find word line).or ((find word rest).map (· + (line.length + 2))) := by
  have hnil : find word ([] ++ LF :: rest) = (find word rest).map (· + 1) := by
    rw [find_append_cons hne hlf, find_nil hne, Option.none_or]
    rfl
  rw [List.append_assoc, List.cons_append, List.cons_append, List.nil_append,
    find_append_cons hne hcr]
  rw [List.nil_append] at hnil
  rw [hnil, Option.map_map]
  congr 2
  funext i
  simp only [Function.comp_apply]
  omega

/-- The text before the Cookie header ends with a line. -/
private theorem exists_textBefore (r : HttpRequest) :
    ∃ lines, r.textBefore = lines ++ [CR, LF] := by
  rw [HttpRequest.textBefore]
  obtain h | ⟨init, last, h⟩ := List.eq_nil_or_concat r.before
  · rw [h, List.flatMap_nil, List.append_nil]
    exact ⟨_, rfl⟩
  · rw [h, List.concat_eq_append, List.flatMap_append, List.flatMap_singleton,
      HttpRequest.headerText, ← List.append_assoc, ← List.append_assoc]
    exact ⟨_, rfl⟩

/-- The line of the Cookie header. -/
def CookieHeader.line (c : CookieHeader) : Bytes :=
  c.name ++ 58 :: cookieSyntax.paramsText c.cookies

private theorem text_eq (hc : r.cookie = some c) :
    r.text = r.textBefore ++ (c.line ++ [CR, LF] ++ r.textAfter) := by
  rw [HttpRequest.text, hc]
  rfl

/-- A word is found before the header, on its line, or behind it. -/
private theorem find_text (hne : word ≠ []) (hcr : CR ∉ word) (hlf : LF ∉ word)
    (hc : r.cookie = some c) : find word r.text = (find word r.textBefore).or
      (((find word c.line).or ((find word r.textAfter).map (· + (c.line.length + 2)))).map
        (· + r.textBefore.length)) := by
  obtain ⟨lines, hlines⟩ := exists_textBefore r
  have hbefore : find word r.textBefore = find word lines := by
    have happend := find_lines hne hcr hlf lines []
    rw [List.append_nil, find_nil hne, Option.map_none, Option.or_none] at happend
    rw [hlines, happend]
  rw [text_eq hc, hbefore, hlines, find_lines hne hcr hlf, find_lines hne hcr hlf,
    List.length_append]
  rfl

private theorem asciiLower_of_ne {b : UInt8} (h : b < 65) : asciiLower b = b := by
  have h65 : ¬ 65 ≤ b := UInt8.not_le.mpr h
  simp [asciiLower, h65]

/-- A byte that is no letter is not in the name of the header. -/
private theorem not_mem_cookieName (hname : isCookieName c.name = true) {b : UInt8} (hb : b < 65)
    (hnot : b ∉ lit "cookie") : b ∉ c.name := by
  intro hmem
  have hlower := List.mem_map_of_mem (f := asciiLower) hmem
  rw [beq_iff_eq.mp hname, asciiLower_of_ne hb] at hlower
  exact hnot hlower

private theorem length_cookieName (hname : isCookieName c.name = true) : c.name.length = 6 := by
  have := congrArg List.length (beq_iff_eq.mp hname)
  rwa [List.length_map] at this

/-- A byte that is no blank and no separator, and in no cookie, is not in the list. -/
private theorem not_mem_cookies {b : UInt8} (hmark : b ≠ EQ) (hsep : b ≠ 59)
    (hblank : isBlank b = false)
    (h : ∀ p ∈ c.cookies, cookieSyntax.Good p ∧ b ∉ p.name ∧ b ∉ p.value) :
    b ∉ cookieSyntax.paramsText c.cookies := by
  apply Syntax.not_mem_paramsText hmark hsep
  intro p hp
  obtain ⟨hgood, hname, hvalue⟩ := h p hp
  have hnot : ∀ w : Bytes, (∀ x ∈ w, isBlank x = true) → b ∉ w := by
    intro w hw hmem
    rw [hw b hmem] at hblank
    cases hblank
  exact ⟨hnot _ hgood.pad, hname, hvalue, hnot _ hgood.trail⟩

/-- On its own line the name of the header is found at the beginning only. -/
private theorem find_line {spelled : Bytes} (hcolon : 58 ∉ spelled) (hlength : spelled.length = 6)
    (hname : isCookieName c.name = true)
    (hcookies : ∀ p ∈ c.cookies, HttpRequest.GoodCookie p) :
    find (spelled ++ [58]) c.line = if c.name = spelled then some 0 else none := by
  have hlen := length_cookieName hname
  have hlist : 58 ∉ cookieSyntax.paramsText c.cookies := by
    apply not_mem_cookies (by decide) (by decide) (by decide)
    exact fun p hp ↦ ⟨(hcookies p hp).good, (hcookies p hp).name.1, (hcookies p hp).value.1⟩
  have hsuffix : spelled <:+ c.name ↔ c.name = spelled := by
    constructor
    · exact fun h ↦ (h.eq_of_length (hlength.trans hlen.symm)).symm
    · exact fun h ↦ h ▸ List.suffix_refl _
  rw [CookieHeader.line, find_mark hcolon (not_mem_cookieName hname (by decide) (by decide)),
    find_of_not_mem (List.mem_append_right _ (List.mem_singleton_self _)) hlist, hlen, hlength]
  simp only [hsuffix, Option.map_none, Nat.sub_self]

/-- The name of the header is found in an earlier line, or at the header, or behind it. -/
private theorem find_text_cases {spelled : Bytes} {pos : Nat} (hcolon : 58 ∉ spelled)
    (hcr : CR ∉ spelled) (hlf : LF ∉ spelled) (hlength : spelled.length = 6)
    (hr : r.WellFormed) (hc : r.cookie = some c) {lines : Bytes}
    (hlines : r.textBefore = lines ++ [CR, LF])
    (h : find (spelled ++ [58]) r.text = some pos) :
    pos + 7 ≤ lines.length ∨
      pos = r.textBefore.length ∧ c.name = spelled ∧ find (spelled ++ [58]) r.textBefore = none ∨
      r.textBefore.length + c.line.length + 2 ≤ pos := by
  have hne : spelled ++ [58] ≠ [] := by simp
  have hcr' : CR ∉ spelled ++ [58] := by simpa [hcr] using (by decide : CR ≠ 58)
  have hlf' : LF ∉ spelled ++ [58] := by simpa [hlf] using (by decide : LF ≠ 58)
  rw [find_text hne hcr' hlf' hc, find_line hcolon hlength (hr.cookie_name c hc)
    (hr.cookies c hc)] at h
  cases hbefore : find (spelled ++ [58]) r.textBefore with
  | some i =>
    rw [hbefore, Option.some_or, Option.some.injEq] at h
    subst h
    -- The word ends before the line does.
    have happend := find_lines hne hcr' hlf' lines []
    rw [List.append_nil, find_nil hne, Option.map_none, Option.or_none, ← hlines, hbefore]
      at happend
    have hle := find_add_length_le happend.symm hne
    rw [List.length_append, hlength, List.length_singleton] at hle
    exact Or.inl hle
  | none =>
    rw [hbefore, Option.none_or] at h
    obtain ⟨i, hi, rfl⟩ := Option.map_eq_some_iff.mp h
    split at hi
    · next hname =>
      rw [Option.some_or, Option.some.injEq] at hi
      subst hi
      exact Or.inr (Or.inl ⟨Nat.zero_add _, hname, rfl⟩)
    · obtain ⟨j, -, rfl⟩ := Option.map_eq_some_iff.mp hi
      apply Or.inr (Or.inr _)
      omega

private theorem lit_Cookie : lit "Cookie:" = lit "Cookie" ++ [58] := by decide

private theorem lit_cookie : lit "cookie:" = lit "cookie" ++ [58] := by decide

/-- The same for the header that the program finds. -/
private theorem findCookieHeader_cases {pos : Nat} (hr : r.WellFormed) (hc : r.cookie = some c)
    {lines : Bytes} (hlines : r.textBefore = lines ++ [CR, LF])
    (h : findCookieHeader r.text = some pos) :
    pos + 7 ≤ lines.length ∨ pos = r.textBefore.length ∧ HeaderFirst r c ∨
      r.textBefore.length + c.line.length + 2 ≤ pos := by
  rw [findCookieHeader] at h
  cases hupper : find (lit "Cookie:") r.text with
  | some i =>
    rw [hupper, Option.some_or, Option.some.injEq] at h
    subst h
    rw [lit_Cookie] at hupper
    rcases find_text_cases (by decide) (by decide) (by decide) (by decide) hr hc hlines hupper with
      hbefore | ⟨hpos, hname, hnone⟩ | hbehind
    · exact Or.inl hbefore
    · exact Or.inr (Or.inl ⟨hpos, Or.inl ⟨hname, hnone⟩⟩)
    · exact Or.inr (Or.inr hbehind)
  | none =>
    rw [hupper, Option.none_or, lit_cookie] at h
    rcases find_text_cases (by decide) (by decide) (by decide) (by decide) hr hc hlines h with
      hbefore | ⟨hpos, hname, hnone⟩ | hbehind
    · exact Or.inl hbefore
    · exact Or.inr (Or.inl ⟨hpos, Or.inr ⟨hname, hupper, hnone⟩⟩)
    · exact Or.inr (Or.inr hbehind)

/-- The header is found at its place when it is the first one. -/
private theorem findCookieHeader_of_first (hr : r.WellFormed) (hc : r.cookie = some c)
    (h : HeaderFirst r c) : findCookieHeader r.text = some r.textBefore.length := by
  have hfind : ∀ spelled : Bytes, 58 ∉ spelled → CR ∉ spelled → LF ∉ spelled →
      spelled.length = 6 → c.name = spelled → find (spelled ++ [58]) r.textBefore = none →
        find (spelled ++ [58]) r.text = some r.textBefore.length := by
    intro spelled hcolon hcr hlf hlength hname hnone
    rw [find_text (by simp) (by simpa [hcr] using (by decide : CR ≠ 58))
      (by simpa [hlf] using (by decide : LF ≠ 58)) hc, hnone,
      find_line hcolon hlength (hr.cookie_name c hc) (hr.cookies c hc), if_pos hname]
    simp
  rw [findCookieHeader]
  rcases h with ⟨hname, hnone⟩ | ⟨hname, hupper, hnone⟩
  · rw [lit_Cookie] at hnone ⊢
    rw [hfind _ (by decide) (by decide) (by decide) (by decide) hname hnone, Option.some_or]
  · rw [lit_cookie] at hnone ⊢
    rw [hupper, Option.none_or]
    exact hfind _ (by decide) (by decide) (by decide) (by decide) hname hnone

/-- At the header, the list of cookies is what follows on its line. -/
private theorem cookieText_header (hr : r.WellFormed) (hc : r.cookie = some c) :
    cookieText r.text r.textBefore.length = cookieSyntax.paramsText c.cookies := by
  have hlen := length_cookieName (hr.cookie_name c hc)
  have hcr : CR ∉ c.line := by
    have hname : CR ∉ c.name := not_mem_cookieName (hr.cookie_name c hc) (by decide) (by decide)
    have hlist : CR ∉ cookieSyntax.paramsText c.cookies := by
      apply not_mem_cookies (by decide) (by decide) (by decide)
      intro p hp
      have hcookie := hr.cookies c hc p hp
      exact ⟨hcookie.good, hcookie.name.2.1, hcookie.value.2.1⟩
    rw [CookieHeader.line, List.mem_append, List.mem_cons]
    rintro (h | h | h)
    · exact hname h
    · exact absurd h (by decide)
    · exact hlist h
  have hlineEnd : findFrom [CR, LF] r.text r.textBefore.length =
      some (c.line.length + r.textBefore.length) := by
    have hprefix : find [CR, LF] ([CR, LF] ++ r.textAfter) = some 0 :=
      find_cons_of_eq (List.prefix_append _ _)
    rw [findFrom, text_eq hc, List.drop_left, List.append_assoc, find_skip hcr, hprefix]
    simp
  have hdrop : r.text.drop (r.textBefore.length + 7) =
      cookieSyntax.paramsText c.cookies ++ ([CR, LF] ++ r.textAfter) := by
    have hsplit : c.line ++ [CR, LF] ++ r.textAfter =
        (c.name ++ [58]) ++ (cookieSyntax.paramsText c.cookies ++ ([CR, LF] ++ r.textAfter)) := by
      simp [CookieHeader.line]
    rw [text_eq hc, ← List.drop_drop, List.drop_left, hsplit]
    apply List.drop_left'
    rw [List.length_append, hlen, List.length_singleton]
  rw [cookieText, hlineEnd]
  change (r.text.drop (r.textBefore.length + 7)).take _ = _
  rw [hdrop]
  apply List.take_left'
  rw [CookieHeader.line, List.length_append, List.length_cons, hlen]
  omega

/-- The value of a cookie begins on the line where the header is looked for. -/
private theorem cookieStart_eq_some {start : Nat} {name : Bytes}
    (h : cookieStart r.text name = some start) : ∃ pos, findCookieHeader r.text = some pos ∧
      pos + 7 ≤ start ∧ start ≤ pos + 7 + (cookieText r.text pos).length := by
  obtain ⟨pos, hpos, hvalue⟩ := Option.bind_eq_some_iff.mp h
  obtain ⟨i, hi, rfl⟩ := Option.map_eq_some_iff.mp hvalue
  obtain ⟨j, hj, rfl⟩ := Option.map_eq_some_iff.mp hi
  have hle := find_add_length_le hj (by simp)
  rw [List.length_append, List.length_singleton] at hle
  refine ⟨pos, hpos, ?_, ?_⟩ <;> omega

/-- In an earlier line it begins there. -/
private theorem length_cookieText_le {lines : Bytes} {pos : Nat} (rest : Bytes)
    (hpos : pos + 7 ≤ lines.length) :
    pos + 7 + (cookieText (lines ++ [CR, LF] ++ rest) pos).length ≤ lines.length := by
  have hle : pos ≤ lines.length := by omega
  obtain ⟨i, hi, hfind⟩ := find_le [CR, LF] (lines.drop pos) rest
  have hlineEnd : findFrom [CR, LF] (lines ++ [CR, LF] ++ rest) pos = some (i + pos) := by
    rw [findFrom, List.append_assoc, List.drop_append_of_le_length hle, hfind]
    rfl
  rw [List.length_drop] at hi
  rw [cookieText, hlineEnd]
  change pos + 7 + (List.take _ _).length ≤ _
  rw [List.length_take]
  omega

private theorem cookieStart_eq_none_iff {request name : Bytes} :
    cookieStart request name = none ↔ ∀ pos, findCookieHeader request = some pos →
      find (name ++ [EQ]) (cookieText request pos) = none := by
  simp only [cookieStart, valueStart, Option.bind_eq_none_iff, Option.map_eq_none_iff]

private theorem cookieAt_eq_none_iff {name : Bytes} :
    r.cookieAt name = none ↔ ∀ c ∈ r.cookie, ∀ p ∈ c.cookies, p.name ≠ name := by
  simp only [HttpRequest.cookieAt, Option.bind_eq_none_iff, Option.map_eq_none_iff,
    Syntax.startWhere_eq_none_iff, decide_eq_false_iff_not, Option.mem_def]

/-- The search on the line of the header. -/
private theorem cookieStart_of_first {name : Bytes} (hr : r.WellFormed)
    (hname : cookieSyntax.Word name) (hc : r.cookie = some c) (h : HeaderFirst r c) :
    cookieStart r.text name =
      (cookieSyntax.startWhere (fun n ↦ decide (name <:+ n)) c.cookies).map
        (· + (r.textBefore.length + 7)) := by
  have hfind : valueStart (cookieSyntax.paramsText c.cookies) name =
      cookieSyntax.startWhere (fun n ↦ decide (name <:+ n)) c.cookies :=
    Syntax.find_paramsText hname fun p hp ↦ (hr.cookies c hc p hp).good
  rw [cookieStart, findCookieHeader_of_first hr hc h, Option.bind_some, cookieText_header hr hc,
    hfind]

private theorem cookieAt_eq {name : Bytes} (hr : r.WellFormed) (hc : r.cookie = some c) :
    r.cookieAt name = (cookieSyntax.startWhere (fun n ↦ decide (n = name)) c.cookies).map
      (· + (r.textBefore.length + 7)) := by
  rw [HttpRequest.cookieAt, hc, Option.bind_some, length_cookieName (hr.cookie_name c hc)]

/-- Where the search finds the place of a cookie, it found the header at its place. -/
private theorem headerFirst_of_start {start : Nat} {name : Bytes} (hr : r.WellFormed)
    (hc : r.cookie = some c) (hstart : cookieStart r.text name = some start)
    (hat : r.cookieAt name = some start) : HeaderFirst r c := by
  obtain ⟨lines, hlines⟩ := exists_textBefore r
  obtain ⟨pos, hpos, hge, hle⟩ := cookieStart_eq_some hstart
  rw [cookieAt_eq hr hc] at hat
  obtain ⟨i, hi, rfl⟩ := Option.map_eq_some_iff.mp hat
  have hi := Syntax.startWhere_le hi
  have hline : c.line.length = 7 + (cookieSyntax.paramsText c.cookies).length := by
    rw [CookieHeader.line, List.length_append, List.length_cons,
      length_cookieName (hr.cookie_name c hc)]
    omega
  rcases findCookieHeader_cases hr hc hlines hpos with hbefore | ⟨-, hfirst⟩ | hbehind
  · -- The value would begin in an earlier line.
    have hshort := length_cookieText_le (c.line ++ [CR, LF] ++ r.textAfter) hbefore
    rw [← hlines, ← text_eq hc] at hshort
    have hlength := congrArg List.length hlines
    rw [List.length_append] at hlength
    omega
  · exact hfirst
  · omega

/-- The value that is taken on the line of the header. -/
private theorem extractCookie_of_first {name : Bytes} (hr : r.WellFormed)
    (hname : cookieSyntax.Word name) (hc : r.cookie = some c) (h : HeaderFirst r c)
    (hfirst : FirstEnding name c.cookies) :
    extractCookie r.text name = (r.cookieValue name).getD [] := by
  have hgood : ∀ p ∈ c.cookies, cookieSyntax.Good p := fun p hp ↦ (hr.cookies c hc p hp).good
  have hstart : valueStart (cookieSyntax.paramsText c.cookies) name =
      cookieSyntax.startWhere (fun n ↦ decide (n = name)) c.cookies :=
    (Syntax.find_paramsText hname hgood).trans
      ((Syntax.startWhere_eq_iff cookieSyntax name c.cookies).mpr hfirst)
  have hmap := Syntax.map_startWhere hgood fun n ↦ decide (n = name)
  rw [← hstart] at hmap
  rw [extractCookie, findCookieHeader_of_first hr hc h, HttpRequest.cookieValue, hc]
  change (match valueStart (cookieText _ _) name with | none => [] | some start => trimBy _ _) = _
  rw [cookieText_header hr hc, Option.bind_some]
  cases hvalue : valueStart (cookieSyntax.paramsText c.cookies) name with
  | none =>
    rw [hvalue, Option.map_none, eq_comm, Option.map_eq_none_iff] at hmap
    rw [hmap]
    rfl
  | some start =>
    rw [hvalue, Option.map_some, eq_comm, Option.map_eq_some_iff] at hmap
    obtain ⟨p, hp, htext⟩ := hmap
    have hpgood := hgood p (List.mem_of_find?_eq_some hp)
    change trimBy isBlank (List.takeWhile (· ≠ cookieSyntax.sep) _) = _
    rw [← htext, hp]
    exact trimBy_word hpgood.trail hpgood.value.blank

/-- `extract_cookie` takes the cookie of the name exactly when the header is the first place where
it is looked for and the first cookie whose name ends with the name is that cookie, or when there
is no such cookie and the name and an equals sign are not on the line that is looked at. -/
theorem cookieExact_iff {name : Bytes} (hr : r.WellFormed) (hname : cookieSyntax.Word name) :
    CookieExact r name ↔
      (∃ c, r.cookie = some c ∧ HeaderFirst r c ∧ FirstEnding name c.cookies) ∨
        (∀ c ∈ r.cookie, ∀ p ∈ c.cookies, p.name ≠ name) ∧
          ∀ pos, findCookieHeader r.text = some pos →
            find (name ++ [EQ]) (cookieText r.text pos) = none := by
  rw [← cookieAt_eq_none_iff, ← cookieStart_eq_none_iff]
  constructor
  · intro hexact
    have hstart := hexact.start
    cases hat : r.cookieAt name with
    | none => exact Or.inr ⟨rfl, hstart.trans hat⟩
    | some start =>
      rw [hat] at hstart
      obtain ⟨c, hc, -⟩ := Option.bind_eq_some_iff.mp hat
      have hfirst := headerFirst_of_start hr hc hstart hat
      refine Or.inl ⟨c, hc, hfirst, ?_⟩
      rw [← hat, cookieStart_of_first hr hname hc hfirst, cookieAt_eq hr hc,
        Option.map_inj_right (by intro i j h; simpa using h)] at hstart
      exact (Syntax.startWhere_eq_iff cookieSyntax name c.cookies).mp hstart
  · rintro (⟨c, hc, hfirst, hending⟩ | ⟨hat, hstart⟩)
    · constructor
      · rw [cookieStart_of_first hr hname hc hfirst, cookieAt_eq hr hc,
          (Syntax.startWhere_eq_iff cookieSyntax name c.cookies).mpr hending]
      · exact extractCookie_of_first hr hname hc hfirst hending
    · constructor
      · exact hstart.trans hat.symm
      · have hvalue : r.cookieValue name = none := by
          rw [cookieAt_eq_none_iff] at hat
          simpa [HttpRequest.cookieValue, Option.bind_eq_none_iff] using hat
        rw [hvalue, extractCookie]
        rw [cookieStart, Option.bind_eq_none_iff] at hstart
        cases hpos : findCookieHeader r.text with
        | none => rfl
        | some pos =>
          have hnone := Option.map_eq_none_iff.mp (hstart pos hpos)
          change (match valueStart (cookieText _ _) name with | none => [] | some start => _) = _
          rw [hnone]
          rfl

end Cookie

/-! ### The query of the stream -/

/-- The parameter `verify` taken is the one of that name, in the buffers of
`http_handshake_thread`. -/
structure VerifyExact (r : HttpRequest) : Prop where
  start : verifyStart r.text 256 = r.queryAt (lit "verify")
  value : (parsePathAndVerify r.text 256 256).verify = r.queryValue (lit "verify")

/-- A request for the stream, whose target fits into the buffer. -/
def Accepted (r : HttpRequest) : Prop := r.method = lit "GET" ∧ r.target.length < 256

instance (r : HttpRequest) : Decidable (Accepted r) := inferInstanceAs (Decidable (_ ∧ _))

section Verify

variable {r : HttpRequest}

/-- A request begins with its method and its target. -/
private theorem exists_text (r : HttpRequest) :
    ∃ rest, r.text = r.method ++ 32 :: (r.target ++ 32 :: rest) := by
  simp only [HttpRequest.text, HttpRequest.textBefore, List.append_assoc, List.cons_append]
  exact ⟨_, rfl⟩

private theorem prefix_text_iff (hr : r.WellFormed) :
    lit "GET " <+: r.text ↔ r.method = lit "GET" := by
  obtain ⟨rest, htext⟩ := exists_text r
  have hget : lit "GET " = lit "GET" ++ [32] := by decide
  rw [htext, hget]
  constructor
  · rintro ⟨after, hafter⟩
    rw [List.append_assoc, List.singleton_append] at hafter
    exact (eq_of_append_mark (by decide) hr.method.1 hafter).symm
  · intro hmethod
    rw [hmethod]
    exact ⟨_, List.append_assoc _ _ _⟩

private theorem blank_not_mem_target (hr : r.WellFormed) : 32 ∉ r.target := by
  rw [HttpRequest.target, List.mem_append, not_or]
  refine ⟨hr.path.2.1, ?_⟩
  cases hquery : r.query with
  | none => exact List.not_mem_nil
  | some fields =>
    have hblank := (hr.query fields hquery).2.1
    rw [List.mem_cons, not_or]
    exact ⟨by decide, hblank⟩

private theorem drop_text (hmethod : r.method = lit "GET") :
    ∃ rest, r.text.drop 4 = r.target ++ 32 :: rest := by
  obtain ⟨rest, htext⟩ := exists_text r
  exact ⟨rest, by rw [htext, hmethod]; rfl⟩

/-- The path of the target, and the question mark in it. -/
private theorem path_of_query (hr : r.WellFormed) {fields : List (Bytes × Bytes)}
    (hquery : r.query = some fields) : 63 ∈ r.target ∧ r.target.takeWhile (· ≠ 63) = r.path ∧
      r.target.drop (r.path.length + 1) = formText fields := by
  have htarget : r.target = r.path ++ 63 :: formText fields := by
    rw [HttpRequest.target, hquery]
  rw [htarget]
  refine ⟨by simp, takeWhile_ne_append_cons hr.path.1 _, ?_⟩
  rw [← List.drop_drop, List.drop_left, List.drop_one, List.tail_cons]

private theorem target_of_no_query (hquery : r.query = none) : r.target = r.path := by
  rw [HttpRequest.target, hquery]
  exact List.append_nil _

/-- Where the search in an accepted request finds the parameter. -/
private theorem verifyStart_eq (hr : r.WellFormed) : verifyStart r.text 256 =
    if Accepted r then r.query.bind fun fields ↦ (valueStart (formText fields) (lit "verify")).map
      (· + (4 + r.path.length + 1))
    else none := by
  rw [verifyStart]
  by_cases hmethod : r.method = lit "GET"
  · obtain ⟨rest, hdrop⟩ := drop_text hmethod
    have hget := (prefix_text_iff hr).mpr hmethod
    have hblank : 32 ∈ r.text.drop 4 := by simp [hdrop]
    have hfull : (r.text.drop 4).takeWhile (· ≠ 32) = r.target := by
      rw [hdrop, takeWhile_ne_append_cons (blank_not_mem_target hr)]
    simp only [hfull, hget, hblank, true_and]
    by_cases hlen : r.target.length < 256
    · have hlen' : r.target.length < 512 := by omega
      have haccepted : Accepted r := ⟨hmethod, hlen⟩
      rw [if_pos haccepted]
      cases hquery : r.query with
      | none =>
        have hnot : 63 ∉ r.target := target_of_no_query hquery ▸ hr.path.1
        simp [hnot]
      | some fields =>
        obtain ⟨hmem, hpath, hform⟩ := path_of_query hr hquery
        rw [if_pos ⟨hlen, hlen', hmem⟩, hpath, hform, Option.bind_some]
    · rw [if_neg fun h ↦ hlen h.1, if_neg fun h : Accepted r ↦ hlen h.2]
  · rw [if_neg fun h ↦ hmethod ((prefix_text_iff hr).mp h.1),
      if_neg fun h : Accepted r ↦ hmethod h.1]

/-- What the program makes of a request. -/
theorem parsePathAndVerify_text (hr : r.WellFormed) : parsePathAndVerify r.text 256 256 =
    if Accepted r then ⟨some r.path, r.query.bind fun fields ↦
      (valueStart (formText fields) (lit "verify")).map
        fun vp ↦ ((formText fields).drop vp).takeWhile (· ≠ 38)⟩
    else ⟨none, none⟩ := by
  rw [parsePathAndVerify]
  by_cases hmethod : r.method = lit "GET"
  · obtain ⟨rest, hdrop⟩ := drop_text hmethod
    have hget := (prefix_text_iff hr).mpr hmethod
    have hblank : ¬ 32 ∉ r.text.drop 4 := by simp [hdrop]
    have hfull : (r.text.drop 4).takeWhile (· ≠ 32) = r.target := by
      rw [hdrop, takeWhile_ne_append_cons (blank_not_mem_target hr)]
    rw [if_neg (not_not.mpr hget), if_neg hblank, hfull]
    dsimp only
    by_cases hlen : r.target.length < 256
    · have hlen' : ¬ (256 ≤ r.target.length ∨ 512 ≤ r.target.length) := by omega
      have haccepted : Accepted r := ⟨hmethod, hlen⟩
      rw [if_pos haccepted, if_neg hlen']
      have hpathlen : r.path.length ≤ r.target.length := by
        rw [HttpRequest.target, List.length_append]
        exact Nat.le_add_right _ _
      have hpath : snprintf 256 [r.path] = r.path := by
        rw [snprintf_eq (by simpa using hr.path.2.2.2.2) (by simp; omega)]
        simp
      cases hquery : r.query with
      | none =>
        have htarget := target_of_no_query hquery
        rw [if_neg (htarget ▸ hr.path.1), htarget, hpath]
        rfl
      | some fields =>
        obtain ⟨hmem, hwhile, hform⟩ := path_of_query hr hquery
        rw [if_pos hmem, hwhile, hform, hpath, Option.bind_some]
        congr 2
        funext vp
        -- No value is as long as the target.
        have hvalue : (((formText fields).drop vp).takeWhile (· ≠ 38)).length < 256 := by
          have h1 := (List.takeWhile_sublist (· ≠ 38) (l := (formText fields).drop vp)).length_le
          have h2 := (List.drop_sublist vp (formText fields)).length_le
          have h3 := congrArg List.length hform
          rw [List.length_drop] at h3
          omega
        rw [if_neg (Nat.not_le.mpr hvalue), List.take_length]
    · rw [if_neg fun h : Accepted r ↦ hlen h.2, if_pos (Or.inl (Nat.not_lt.mp hlen))]
  · rw [if_pos fun h ↦ hmethod ((prefix_text_iff hr).mp h), if_neg fun h : Accepted r ↦ hmethod h.1]

/-- `parse_path_and_verify` takes the parameter `verify` exactly when the first one in an accepted
request whose name ends with that is that parameter, and no other request has one. -/
theorem verifyExact_iff (hr : r.WellFormed) : VerifyExact r ↔
    (Accepted r → ∀ fields ∈ r.query, FirstEnding (lit "verify") (fields.map plainParam)) ∧
      (¬ Accepted r → ∀ fields ∈ r.query, ∀ e ∈ fields, e.1 ≠ lit "verify") := by
  have hstart := verifyStart_eq hr
  have hvalue := congrArg PathResult.verify (parsePathAndVerify_text hr)
  cases hquery : r.query with
  | none =>
    simp only [Option.mem_def, reduceCtorEq, false_implies, implies_true, and_true, iff_true]
    rw [hquery] at hstart hvalue
    constructor
    · rw [hstart, HttpRequest.queryAt, hquery]
      exact ite_self _
    · rw [hvalue, HttpRequest.queryValue, hquery]
      split <;> rfl
  | some fields =>
    simp only [Option.mem_def, Option.some.injEq, forall_eq']
    have hat : r.queryAt (lit "verify") =
        (formSyntax.startWhere (fun n ↦ decide (n = lit "verify")) (fields.map plainParam)).map
          (· + (r.method.length + 1 + r.path.length + 1)) := by
      rw [HttpRequest.queryAt, hquery, Option.bind_some]
    have hof : r.queryValue (lit "verify") =
        (fields.find? fun e ↦ decide (e.1 = lit "verify")).map Prod.snd := by
      rw [HttpRequest.queryValue, hquery, Option.bind_some]
    have hwords := (hr.query fields hquery).1
    rw [hquery, Option.bind_some] at hstart hvalue
    by_cases haccepted : Accepted r
    · have hlength : r.method.length + 1 + r.path.length + 1 = 4 + r.path.length + 1 := by
        rw [haccepted.1]
        rfl
      simp only [haccepted, true_implies, not_true_eq_false, false_implies, and_true]
      rw [if_pos haccepted] at hstart hvalue
      rw [← Syntax.startWhere_eq_iff formSyntax,
        ← valueStart_formText hwords ⟨by decide, by decide, fun b _ ↦ rfl⟩]
      constructor
      · intro hexact
        have heq := hexact.start
        rw [hstart, hat, hlength, Option.map_inj_right (by intro i j h; simpa using h)] at heq
        exact heq
      · intro heq
        constructor
        · rw [hstart, hat, hlength, heq]
        · have hmap := map_formText hwords fun n ↦ decide (n = lit "verify")
          rw [hvalue, hof, ← hmap, ← heq]
    · simp only [haccepted, false_implies, not_false_eq_true, true_implies, true_and]
      rw [if_neg haccepted] at hstart hvalue
      constructor
      · intro hexact
        have heq := hexact.start.symm
        rw [hstart, hat, Option.map_eq_none_iff, Syntax.startWhere_eq_none_iff] at heq
        intro e he
        exact of_decide_eq_false (heq (plainParam e) (List.mem_map_of_mem he))
      · intro hnot
        constructor
        · rw [hstart, hat, eq_comm, Option.map_eq_none_iff, Syntax.startWhere_eq_none_iff]
          intro p hp
          obtain ⟨e, he, rfl⟩ := List.mem_map.mp hp
          exact decide_eq_false (hnot e he)
        · rw [hvalue, hof, eq_comm, Option.map_eq_none_iff, List.find?_eq_none]
          intro e he
          simpa using hnot e he

end Verify

/-! ### All three -/

/-- Each of the three programs takes the parameter of the name, and only that one, exactly when its
search meets that parameter first: a form field and the parameter `verify` when the first of them
whose name ends with the name is that one, a cookie when besides the Cookie header is the first
place where its name stands. -/
theorem parameters_exact_iff (r : HttpRequest) (fields : List (Bytes × Bytes)) (field name : Bytes)
    (hr : r.WellFormed) (hfields : FormWords fields) (hfield : formSyntax.Word field)
    (hname : cookieSyntax.Word name) :
    (FormExact fields field ↔ FirstEnding field (fields.map plainParam)) ∧
      (CookieExact r name ↔
        (∃ c, r.cookie = some c ∧ HeaderFirst r c ∧ FirstEnding name c.cookies) ∨
          (∀ c ∈ r.cookie, ∀ p ∈ c.cookies, p.name ≠ name) ∧
            ∀ pos, findCookieHeader r.text = some pos →
              find (name ++ [EQ]) (cookieText r.text pos) = none) ∧
      (VerifyExact r ↔
        (Accepted r → ∀ params ∈ r.query, FirstEnding (lit "verify") (params.map plainParam)) ∧
          (¬ Accepted r → ∀ params ∈ r.query, ∀ e ∈ params, e.1 ≠ lit "verify")) :=
  ⟨formExact_iff hfields hfield, cookieExact_iff hr hname, verifyExact_iff hr⟩

/-- A request for the stream. -/
def streamRequest (params : List (Bytes × Bytes)) (cookies : List (Param UInt8)) : HttpRequest where
  method := lit "GET"
  path := lit "/stream"
  query := some params
  version := lit "HTTP/1.1"
  before := [(lit "Host", lit " kitty:9443")]
  cookie := some ⟨lit "Cookie", cookies⟩
  after := []
  body := []

private theorem wellFormed_streamRequest {params : List (Bytes × Bytes)}
    {cookies : List (Param UInt8)} (hparams : FormWords params ∧ 32 ∉ formText params ∧
      CR ∉ formText params ∧ LF ∉ formText params ∧ NUL ∉ formText params)
    (hcookies : ∀ p ∈ cookies, HttpRequest.GoodCookie p) :
    (streamRequest params cookies).WellFormed where
  method := by simp only [streamRequest]; decide
  path := by simp only [streamRequest]; decide
  version := by simp only [streamRequest]; decide
  query := by
    intro fields hfields
    cases hfields
    exact hparams
  headers := by
    intro h hmem
    cases List.mem_singleton.mp hmem
    decide +kernel
  cookie_name := by
    intro c hc
    cases hc
    show isCookieName (lit "Cookie") = true
    decide +kernel
  cookies := by
    intro c hc
    cases hc
    exact hcookies

theorem parameters_exact_plain :
    FormExact [(lit "username", lit "b")] (lit "username") ∧
      CookieExact
        (streamRequest [(lit "verify", lit "k")] [⟨[32], lit "session_id", lit "new", []⟩])
        (lit "session_id") ∧
      VerifyExact
        (streamRequest [(lit "verify", lit "k")] [⟨[32], lit "session_id", lit "new", []⟩]) := by
  obtain ⟨hform, hcookie, hverify⟩ := parameters_exact_iff
    (streamRequest [(lit "verify", lit "k")] [⟨[32], lit "session_id", lit "new", []⟩])
    [(lit "username", lit "b")] (lit "username") (lit "session_id")
    (wellFormed_streamRequest (by decide +kernel) (by decide +kernel)) (by decide +kernel)
    (by decide +kernel) (by decide +kernel)
  refine ⟨hform.mpr (by decide +kernel), hcookie.mpr (Or.inl ⟨_, rfl, ?_, ?_⟩),
    hverify.mpr ⟨fun _ ↦ ?_, fun hnot ↦ ?_⟩⟩
  · exact Or.inl (by decide +kernel)
  · decide +kernel
  · decide +kernel
  · exact absurd (by decide +kernel) hnot

/-- The three searches take the parameters of longer names. -/
theorem parameters_longerNames :
    ¬ FormExact [(lit "xusername", lit "a"), (lit "username", lit "b")] (lit "username") ∧
      ∃ r : HttpRequest, r.WellFormed ∧ ¬ CookieExact r (lit "session_id") ∧ ¬ VerifyExact r := by
  constructor
  · exact fun h ↦ absurd h.start (by decide +kernel)
  · refine ⟨streamRequest [(lit "noverify", lit "1"), (lit "verify", lit "k")]
      [⟨[32], lit "my_session_id", lit "old", []⟩, ⟨[32], lit "session_id", lit "new", []⟩],
      wellFormed_streamRequest (by decide +kernel) (by decide +kernel), ?_, ?_⟩
    · exact fun h ↦ absurd h.start (by decide +kernel)
    · exact fun h ↦ absurd h.start (by decide +kernel)

end Kitty.Web
