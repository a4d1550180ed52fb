import TapeRing.Decimal.Shortest
import TapeRing.Json.Basic
import TapeRing.Text.Quoted

/-! # Decoding JSON values

A decoder turns a value into data or says what is wrong with it. `Shape` describes data with
named fields, which may be written as an object or as an array. An object is visited in the
order of its keys, so the least bad key is the one that is reported; a field that is missing is
reported only when every present one is good. -/

namespace TapeRing

/-- What is wrong with a value. -/
inductive DecodeFault
  /-- The value is of the wrong kind. -/
  | invalidType (got : Json) (expected : String)
  /-- The value is of the right kind and cannot be accepted all the same. -/
  | invalidValue (got : Json) (expected : String)
  /-- An array is too short or too long. -/
  | invalidLength (got : Nat) (expected : String)
  /-- A field without a default is missing. -/
  | missingField (name : String)
  /-- A name is none of those that are known. -/
  | unknownVariant (got : String) (known : List String)
deriving Repr

namespace Json

/-- The integer a number is taken for: one that fits into 64 bits, signed or not. -/
def integer? : JsonNumber → Option Int
  | .integer value =>
      if Int64.minValue.toInt ≤ value ∧ value < UInt64.size then some value else none
  | .decimal _ _ _ => none

/-- The text of a number that is not taken for an integer. -/
def decimalText : JsonNumber → String
  | .integer value => Decimal.floatText (Decimal.toFloat (value < 0) value.natAbs 0)
  | .decimal negative mantissa exponent =>
      Decimal.floatText (Decimal.toFloat negative mantissa exponent)

/-- A short description of a value. -/
def describe : Json → String
  | .null => "null"
  | .bool value => "boolean `" ++ (if value then "true" else "false") ++ "`"
  | .number value =>
      match integer? value with
      | some n => "integer `" ++ toString n ++ "`"
      | none => "floating point `" ++ decimalText value ++ "`"
  | .string value => "string " ++ quoted value
  | .array _ => "sequence"
  | .object _ => "map"

end Json

namespace DecodeFault

/-- The names that are known, as an enumeration. -/
def alternatives (known : List String) : String :=
  " or ".intercalate (known.map fun name => "`" ++ name ++ "`")

/-- The wording of a fault. -/
def message : DecodeFault → String
  | .invalidType got expected => "invalid type: " ++ got.describe ++ ", expected " ++ expected
  | .invalidValue got expected => "invalid value: " ++ got.describe ++ ", expected " ++ expected
  | .invalidLength got expected =>
      "invalid length " ++ toString got ++ ", expected " ++ expected
  | .missingField name => "missing field `" ++ name ++ "`"
  | .unknownVariant got known =>
      "unknown variant `" ++ got ++ "`, expected " ++ alternatives known

end DecodeFault

/-- Puts a member into a list of members in the order of their keys. A member with the same key is
    replaced. -/
def insertMember (key : String) (value : Json) : List (String × Json) → List (String × Json)
  | [] => [(key, value)]
  | (k, v) :: rest =>
      if key < k then (key, value) :: (k, v) :: rest
      else if key = k then (key, value) :: rest
      else (k, v) :: insertMember key value rest

/-- The members of an object in the order of their keys; of members with the same key the last. -/
def sortMembers (members : List (String × Json)) : List (String × Json) :=
  members.foldl (fun sorted (key, value) => insertMember key value sorted) []

/-- A way to turn a value into data. -/
abbrev Decoder (α : Type) := Json → Except DecodeFault α

namespace Decoder

/-- An integer from a range. -/
def intIn (least greatest : Int) (expected : String) : Decoder Int
  | .number value =>
      match Json.integer? value with
      | some n =>
          if least ≤ n ∧ n ≤ greatest then .ok n
          else .error (.invalidValue (.number value) expected)
      | none => .error (.invalidType (.number value) expected)
  | got => .error (.invalidType got expected)

/-- A natural number of 64 bits; `expected` is its name in messages. -/
def natural (expected : String) : Decoder Nat := fun got =>
  (intIn 0 (UInt64.size - 1) expected got).map Int.toNat

/-- A truth value. -/
def boolean : Decoder Bool
  | .bool value => .ok value
  | got => .error (.invalidType got "a boolean")

/-- A text. -/
def text : Decoder String
  | .string value => .ok value
  | got => .error (.invalidType got "a string")

/-- A list, of which the first bad item is reported. -/
def list {α : Type} (item : Decoder α) : Decoder (List α)
  | .array items => items.mapM item
  | got => .error (.invalidType got "a sequence")

/-- A value that may be null. -/
def optional {α : Type} (value : Decoder α) : Decoder (Option α)
  | .null => .ok none
  | got => (value got).map some

/-- The value that goes with a name. -/
def lookUp {α : Type} (known : List (String × α)) (name : String) : Except DecodeFault α :=
  match known.lookup name with
  | some value => .ok value
  | none => .error (.unknownVariant name (known.map (·.1)))

/-- The value that goes with a name, if what the name is the key of is null. -/
def lookUpUnit {α : Type} (known : List (String × α)) (name : String) : Decoder α := fun got =>
  match lookUp known name, got with
  | .error fault, _ => .error fault
  | .ok found, .null => .ok found
  | .ok _, got => .error (.invalidType got "unit")

/-- One of several names, written as a string or as the only key of an object whose value is
    null. The name is judged before the value. -/
def variant {α : Type} (known : List (String × α)) : Decoder α
  | .string name => lookUp known name
  | .object members =>
      match sortMembers members with
      | [(name, value)] => lookUpUnit known name value
      | _ => .error (.invalidValue (.object members) "map with a single key")
  | got => .error (.invalidType got "string or map")

end Decoder

/-- A field of data that is first gathered in a draft of type `σ`. -/
structure Field (σ : Type) where
  name : String
  /-- Decodes the value of the field into the draft. -/
  fill : Json → σ → Except DecodeFault σ
  /-- At the end of an array the field may be left out. -/
  mayEnd : Bool

/-- The field whose value is decoded on its own and then put into the draft. -/
def Field.of {σ β : Type} (name : String) (decoder : Decoder β) (put : β → σ → σ)
    (mayEnd : Bool) : Field σ where
  name := name
  fill value draft := (decoder value).map fun b => put b draft
  mayEnd := mayEnd

/-- Data of type `α` with named fields, gathered in a draft of type `σ`. -/
structure Shape (σ α : Type) where
  name : String
  fields : List (Field σ)
  blank : σ
  /-- The data of a draft, or the first field in the order of declaration that is missing. -/
  finish : σ → Except DecodeFault α

namespace Shape

variable {σ α : Type}

/-- How a shape is named in messages. -/
def title (shape : Shape σ α) : String := "struct " ++ shape.name

/-- Decodes one member into a draft. A key that is not a field is passed over. -/
def fillMember (shape : Shape σ α) (draft : σ) (member : String × Json) :
    Except DecodeFault σ :=
  match shape.fields.find? (·.name = member.1) with
  | some field => field.fill member.2 draft
  | none => .ok draft

/-- Decodes the items of an array, of which `done` went before, into a draft. -/
def fillItems (shape : Shape σ α) (length : Nat) :
    (done : Nat) → List (Field σ) → List Json → σ → Except DecodeFault σ
  | _, [], [], draft => .ok draft
  | _, [], _ :: _, _ => .error (.invalidLength length "fewer elements in array")
  | done, field :: fields, [], draft =>
      if field.mayEnd then fillItems shape length (done + 1) fields [] draft
      else .error (.invalidLength done
        (shape.title ++ " with " ++ toString shape.fields.length ++ " elements"))
  | done, field :: fields, item :: items, draft =>
      match field.fill item draft with
      | .ok draft => fillItems shape length (done + 1) fields items draft
      | .error fault => .error fault

/-- Decodes an object with the fields as members, or an array of the fields. -/
def decode (shape : Shape σ α) : Decoder α
  | .object members =>
      match (sortMembers members).foldlM shape.fillMember shape.blank with
      | .ok draft => shape.finish draft
      | .error fault => .error fault
  | .array items =>
      match shape.fillItems items.length 0 shape.fields items shape.blank with
      | .ok draft => shape.finish draft
      | .error fault => .error fault
  | got => .error (.invalidType got shape.title)

end Shape

end TapeRing
