import Kitty.Base.Json

/-!
# Items of cJSON

`src/mqtt-vcamclient/deps/include/cJSON.h` and `cJSON_GetObjectItem` of
`src/ap2p/cJSON.c:1661–1742`. An item keeps its children in the order in which they were added, with
a name as often as it occurs. What the C library does with a `double` is a parameter.
-/

namespace Kitty.CJson

open Kitty.Base

/-- `cJSON`: the types that the parser makes. A string or a name is what its pointer points to. -/
inductive Item (D : Type) where
  | null
  | bool (b : Bool)
  | number (d : D)
  | string (s : Bytes)
  | array (items : List (Item D))
  | object (members : List (Bytes × Item D))

/-- What the program does with a `double`. `strtod` of a C string is the number at its beginning and
how many bytes that has; `finite` is the test `d * 0 == 0`; the conversions are `%1.15g` and
`%1.17g`. -/
class CDouble (D : Type) where
  strtod : Bytes → Option (D × Nat)
  finite : D → Bool
  same : D → D → Bool
  print15 : D → Bytes
  print17 : D → Bytes
  strtod_le {text : Bytes} {d : D} {used : Nat} :
    strtod text = some (d, used) → 0 < used ∧ used ≤ text.length

/-- What the C standard says of `%1.15g`, `%1.17g` and `strtod`: a finite `double` is printed as a
number of at most 24 characters; 17 digits give it back, and so do 15 when what is read compares
equal to it. -/
class LawfulCDouble (D : Type) [CDouble D] : Prop where
  length_print15 {d : D} : CDouble.finite d = true → (CDouble.print15 d).length ≤ 24
  length_print17 {d : D} : CDouble.finite d = true → (CDouble.print17 d).length ≤ 24
  isNumber_print15 {d : D} : CDouble.finite d = true → Json.IsNumber (CDouble.print15 d)
  isNumber_print17 {d : D} : CDouble.finite d = true → Json.IsNumber (CDouble.print17 d)
  strtod_print15 {d test : D} {used : Nat} : CDouble.finite d = true →
    CDouble.strtod (CDouble.print15 d) = some (test, used) → CDouble.same test d = true →
    test = d ∧ used = (CDouble.print15 d).length
  strtod_print17 {d : D} : CDouble.finite d = true →
    CDouble.strtod (CDouble.print17 d) = some (d, (CDouble.print17 d).length)

variable {D : Type}

/-! ### How deep an item is -/

mutual

/-- How deep arrays and objects are nested in an item. -/
def Item.nesting : Item D → Nat
  | .array items => itemsNesting items + 1
  | .object members => membersNesting members + 1
  | _ => 0

/-- How deep they are nested in the items of an array. -/
def itemsNesting : List (Item D) → Nat
  | [] => 0
  | item :: items => max item.nesting (itemsNesting items)

/-- How deep they are nested in the members of an object. -/
def membersNesting : List (Bytes × Item D) → Nat
  | [] => 0
  | (_, item) :: members => max item.nesting (membersNesting members)

end

mutual

/-- Every number in an item has one property, every string and every name the other. -/
def Item.All (P : D → Prop) (Q : Bytes → Prop) : Item D → Prop
  | .number d => P d
  | .string s => Q s
  | .array items => itemsAll P Q items
  | .object members => membersAll P Q members
  | _ => True

/-- So it is in the items of an array. -/
def itemsAll (P : D → Prop) (Q : Bytes → Prop) : List (Item D) → Prop
  | [] => True
  | item :: items => item.All P Q ∧ itemsAll P Q items

/-- So it is in the members of an object. -/
def membersAll (P : D → Prop) (Q : Bytes → Prop) : List (Bytes × Item D) → Prop
  | [] => True
  | (name, item) :: members => Q name ∧ item.All P Q ∧ membersAll P Q members

end

/-! ### Members -/

/-- `tolower` in the C locale. -/
def tolower (b : UInt8) : UInt8 := if 65 ≤ b && b ≤ 90 then b + 32 else b

/-- `case_insensitive_strcmp` of two strings returns 0. -/
def caseInsensitiveStrcmp (string1 string2 : Bytes) : Bool :=
  (cstr string1).map tolower == (cstr string2).map tolower

/-- `cJSON_GetObjectItem` -/
def Item.getObjectItem (name : Bytes) : Item D → Option (Item D)
  | .object members =>
    (members.find? fun member ↦ caseInsensitiveStrcmp name member.1).map Prod.snd
  | _ => none

/-- `valuestring` of an item that `cJSON_IsString` accepts. -/
def Item.valuestring : Item D → Option Bytes
  | .string s => some (cstr s)
  | _ => none

end Kitty.CJson
