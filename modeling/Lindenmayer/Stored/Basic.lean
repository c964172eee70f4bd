import Lindenmayer.Json.Value
import Lindenmayer.Space.Vector

/-!
# Stored forms

Settings, snapshots and outlines can be stored as documents. `Stored` gives a type its form and the
way back; reading is strict, and yields nothing where a document is not a form of the type.

A number that is not finite has no numeral and is stored as `null`, which no number is read from;
nor is one read from a numeral beyond all singles. A record is stored as an object with its fields
in order. It is read from an object in any order, in which keys of no field are passed over and no
field stands twice, or from a list of exactly its fields. A field may be left out only where `null`
would do as well. One of several names is stored as that name, and read also from an object with the
name as its only key and `null` for its value.
-/

set_option autoImplicit false

namespace Lindenmayer

universe u

/-- A type whose values can be stored as documents. -/
class Stored (α : Type u) where
  /-- The form of a value. -/
  encode : α → Json
  /-- The value of a form. -/
  decode : Json → Option α

export Stored (encode decode)

namespace Stored

instance : Stored Bool where
  encode := .bool
  decode
    | .bool value => some value
    | _ => none

instance : Stored String where
  encode text := .string (some text)
  decode
    | .string literal => literal
    | _ => none

/-- A natural number below a bound, from a plain numeral. -/
def decodeBelow (bound : Nat) : Json → Option Nat
  | .number numeral => numeral.toNat?.filter (· < bound)
  | _ => none

instance : Stored UInt8 where
  encode number := .number (.ofNat number.toNat)
  decode json := (decodeBelow UInt8.size json).map UInt8.ofNat

instance : Stored UInt32 where
  encode number := .number (.ofNat number.toNat)
  decode json := (decodeBelow UInt32.size json).map UInt32.ofNat

instance : Stored UInt64 where
  encode number := .number (.ofNat number.toNat)
  decode json := (decodeBelow UInt64.size json).map UInt64.ofNat

instance : Stored Float32 where
  encode number :=
    match Numeral.ofSingle? number with
    | some numeral => .number numeral
    | none => .null
  decode
    | .number numeral => numeral.single?
    | _ => none

variable {α : Type u} [Stored α]

instance : Stored (Option α) where
  encode
    | none => .null
    | some value => encode value
  decode
    | .null => some none
    | json => (decode json).map some

instance : Stored (List α) where
  encode items := .array (items.map encode)
  decode
    | .array items => items.mapM decode
    | _ => none

instance : Stored (Array α) where
  encode items := encode items.toList
  decode json := (decode json : Option (List α)).map List.toArray

/-- A list of exactly `n` items. -/
instance {n : Nat} : Stored (Vector α n) where
  encode items := encode items.toArray
  decode json :=
    match (decode json : Option (Array α)) with
    | some items => if h : items.size = n then some ⟨items, h⟩ else none
    | none => none

instance : Stored (Vector3 α) where
  encode vector := encode [vector.x, vector.y, vector.z]
  decode json :=
    match (decode json : Option (List α)) with
    | some [x, y, z] => some ⟨x, y, z⟩
    | _ => none

/-! ### Names -/

/-- The name in a document: alone, or as the only key of an object with nothing for its value. -/
def name? : Json → Option String
  | .string literal => literal
  | .object [(key, .null)] => key
  | _ => none

/-- The first value with the name in a document. -/
def decodeName {β : Type} (values : List β) (name : β → String) (json : Json) : Option β :=
  (name? json).bind fun text ↦ values.find? fun value ↦ name value == text

/-! ### Records -/

/-- The fields of a record, by name. -/
abbrev Fields := List (String × Json)

/-- The object with these fields. -/
def record (fields : Fields) : Json := .object (fields.map fun field ↦ (some field.1, field.2))

/-- The fields with the given names that a document has. -/
def fields? (names : List String) : Json → Option Fields
  | .object entries => do
    let fields ← entries.mapM fun entry ↦ entry.1.map fun key ↦ (key, entry.2)
    let known := fields.filter fun field ↦ names.contains field.1
    if (known.map Prod.fst).Nodup then some known else none
  | .array items => if items.length = names.length then some (names.zip items) else none
  | _ => none

/-- The value of a field that has to be there. -/
def Fields.required (fields : Fields) (name : String) : Option α := (fields.lookup name).bind decode

/-- The value of a field that may be left out. -/
def Fields.optional (fields : Fields) (name : String) : Option (Option α) :=
  match fields.lookup name with
  | none => some none
  | some json => decode json

end Stored

end Lindenmayer
