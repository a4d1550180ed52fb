/-! # JSON values

Objects keep their members in the order in which they are written. A number is an integer, or a
decimal that keeps the digits it is written with, so that `1`, `1.0` and `-0` stay apart. -/

namespace TapeRing

/-- A JSON number. -/
inductive JsonNumber
  | integer (value : Int)
  /-- The number `mantissa * 10 ^ exponent`, or its negative. -/
  | decimal (negative : Bool) (mantissa : Nat) (exponent : Int)
deriving DecidableEq, Repr

/-- A JSON value. -/
inductive Json
  | null
  | bool (value : Bool)
  | number (value : JsonNumber)
  | string (value : String)
  | array (items : List Json)
  | object (members : List (String × Json))
deriving Repr

namespace Json

/-- The integer as a value. -/
def ofInt (value : Int) : Json := .number (.integer value)

/-- The natural number as a value. -/
def ofNat (value : Nat) : Json := .number (.integer value)

/-- The characters that may stand between any two tokens of a text. -/
def isBlank (c : Char) : Bool :=
  c = ' ' || c = '\t' || c = '\n' || c = '\r'

/-- The value of the last member with a key. -/
def member? (key : String) : Json → Option Json
  | .object members => (members.reverse.find? (·.1 = key)).map (·.2)
  | _ => none

end Json

end TapeRing
