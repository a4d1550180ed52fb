import TapeRing.Json.Basic

/-! # JSON text

A value is written in a layout, which says what blanks set its items apart. `compact` has none of
them, and `pretty` has one item a line and two blanks per level. What is written stands in front of
a given rest, so no text is copied twice. -/

namespace TapeRing.Json

/-- The hexadecimal digit of a number below 16. -/
def hexDigit (n : Nat) : Char :=
  if n < 10 then Char.ofNat ('0'.toNat + n) else Char.ofNat ('a'.toNat + (n - 10))

/-- A character as it is written inside a string. -/
def escaped (c : Char) : List Char :=
  if c = '"' then ['\\', '"']
  else if c = '\\' then ['\\', '\\']
  else if c = '\n' then ['\\', 'n']
  else if c = '\r' then ['\\', 'r']
  else if c = '\t' then ['\\', 't']
  else if c = '\x08' then ['\\', 'b']
  else if c = '\x0c' then ['\\', 'f']
  else if c.toNat < 32 then
    ['\\', 'u', '0', '0', hexDigit (c.toNat / 16), hexDigit (c.toNat % 16)]
  else [c]

/-- A string in front of a rest. -/
def writeString (text : String) (rest : List Char) : List Char :=
  '"' :: text.toList.flatMap escaped ++ '"' :: rest

/-- An integer in front of a rest. -/
def writeInt (value : Int) (rest : List Char) : List Char :=
  match value with
  | .ofNat n => Nat.toDigits 10 n ++ rest
  | .negSucc n => '-' :: Nat.toDigits 10 (n + 1) ++ rest

/-- A number in front of a rest. -/
def writeNumber (value : JsonNumber) (rest : List Char) : List Char :=
  match value with
  | .integer value => writeInt value rest
  | .decimal negative mantissa exponent =>
      let body := Nat.toDigits 10 mantissa ++ 'e' :: writeInt exponent rest
      if negative then '-' :: body else body

/-- What sets the items of a value apart. -/
structure Layout where
  /-- What stands in front of each item at a level, and in front of the end of the level below. -/
  line : (level : Nat) → List Char
  /-- What stands between the colon and the value of a member. -/
  gap : List Char
  isBlank_line : ∀ level, ∀ c ∈ line level, isBlank c = true
  isBlank_gap : ∀ c ∈ gap, isBlank c = true

namespace Layout

/-- Nothing sets the items apart. -/
def compact : Layout where
  line _ := []
  gap := []
  isBlank_line _ _ h := absurd h List.not_mem_nil
  isBlank_gap _ h := absurd h List.not_mem_nil

/-- Each item is on a line of its own, two blanks further in than what it is an item of. -/
def pretty : Layout where
  line level := '\n' :: List.replicate (2 * level) ' '
  gap := [' ']
  isBlank_line level c h := by
    rcases List.mem_cons.mp h with rfl | h
    · rfl
    · rw [List.eq_of_mem_replicate h]
      rfl
  isBlank_gap c h := by
    rw [List.mem_singleton.mp h]
    rfl

end Layout

mutual

/-- A value at a level in front of a rest. -/
def write (layout : Layout) : Json → (level : Nat) → List Char → List Char
  | .null, _, rest => 'n' :: 'u' :: 'l' :: 'l' :: rest
  | .bool true, _, rest => 't' :: 'r' :: 'u' :: 'e' :: rest
  | .bool false, _, rest => 'f' :: 'a' :: 'l' :: 's' :: 'e' :: rest
  | .number value, _, rest => writeNumber value rest
  | .string value, _, rest => writeString value rest
  | .array [], _, rest => '[' :: ']' :: rest
  | .array (item :: items), level, rest =>
      '[' :: (layout.line (level + 1) ++
        write layout item (level + 1) (writeItems layout items level rest))
  | .object [], _, rest => '{' :: '}' :: rest
  | .object ((key, value) :: members), level, rest =>
      '{' :: (layout.line (level + 1) ++ writeString key (':' :: (layout.gap ++
        write layout value (level + 1) (writeMembers layout members level rest))))

/-- The items of an array at a level after the first one, and its end. -/
def writeItems (layout : Layout) : List Json → (level : Nat) → List Char → List Char
  | [], level, rest => layout.line level ++ ']' :: rest
  | item :: items, level, rest =>
      ',' :: (layout.line (level + 1) ++
        write layout item (level + 1) (writeItems layout items level rest))

/-- The members of an object at a level after the first one, and its end. -/
def writeMembers (layout : Layout) : List (String × Json) → (level : Nat) → List Char → List Char
  | [], level, rest => layout.line level ++ '}' :: rest
  | (key, value) :: members, level, rest =>
      ',' :: (layout.line (level + 1) ++ writeString key (':' :: (layout.gap ++
        write layout value (level + 1) (writeMembers layout members level rest))))

end

/-- The text of a value in a layout. -/
def textIn (layout : Layout) (j : Json) : String :=
  String.ofList (j.write layout 0 [])

/-- The text of a value without blanks. -/
def compact (j : Json) : String := j.textIn .compact

/-- The text of a value with one item a line. -/
def pretty (j : Json) : String := j.textIn .pretty

end TapeRing.Json
