import TapeRing.Json.Basic

/-! # Reading JSON text

`parse` reads one value that fills a text up to blanks. Each reader takes the characters from
where it starts and gives what it read with the characters that are left. -/

namespace TapeRing.Json

/-- Passes over blanks. -/
def skipBlanks (cs : List Char) : List Char :=
  cs.dropWhile isBlank

/-- The number a row of decimal digits stands for. -/
def ofDigits (ds : List Char) : Nat :=
  ds.foldl (fun n d => 10 * n + (d.toNat - '0'.toNat)) 0

/-- A row of decimal digits, at least one. -/
def readDigits (cs : List Char) : Option (List Char × List Char) :=
  match cs.takeWhile Char.isDigit with
  | [] => none
  | ds => some (ds, cs.dropWhile Char.isDigit)

/-- The digits of a whole number: a zero can only stand alone. -/
def readWhole : List Char → Option (List Char × List Char)
  | '0' :: rest => some (['0'], rest)
  | cs => readDigits cs

/-- The digits after a point, or none if there is no point. -/
def readFraction : List Char → Option (Option (List Char) × List Char)
  | '.' :: rest => (readDigits rest).map fun (ds, rest) => (some ds, rest)
  | cs => some (none, cs)

/-- The power of ten after an `e`, with its sign. -/
def readPower : List Char → Option (Int × List Char)
  | '-' :: rest => (readDigits rest).map fun (ds, rest) => (-(ofDigits ds : Int), rest)
  | '+' :: rest => (readDigits rest).map fun (ds, rest) => ((ofDigits ds : Int), rest)
  | cs => (readDigits cs).map fun (ds, rest) => ((ofDigits ds : Int), rest)

/-- The power of ten of a number, or none if there is no `e`. -/
def readExponent : List Char → Option (Option Int × List Char)
  | 'e' :: rest => (readPower rest).map fun (e, rest) => (some e, rest)
  | 'E' :: rest => (readPower rest).map fun (e, rest) => (some e, rest)
  | cs => some (none, cs)

/-- The number with the given parts. It is an integer if it has neither a fraction nor an exponent,
    and is not a negative zero. -/
def assembleNumber (negative : Bool) (whole : List Char) (fraction : Option (List Char))
    (exponent : Option Int) : JsonNumber :=
  match fraction, exponent with
  | none, none =>
      if negative then
        if ofDigits whole = 0 then .decimal true 0 0 else .integer (-(ofDigits whole : Int))
      else .integer (ofDigits whole)
  | _, _ =>
      let digits := fraction.getD []
      .decimal negative (ofDigits (whole ++ digits)) (exponent.getD 0 - digits.length)

/-- A number without its sign. -/
def readUnsigned (negative : Bool) (cs : List Char) : Option (JsonNumber × List Char) :=
  match readWhole cs with
  | none => none
  | some (whole, cs) =>
      match readFraction cs with
      | none => none
      | some (fraction, cs) =>
          match readExponent cs with
          | none => none
          | some (exponent, cs) => some (assembleNumber negative whole fraction exponent, cs)

/-- A number. -/
def readNumber : List Char → Option (JsonNumber × List Char)
  | '-' :: rest => readUnsigned true rest
  | cs => readUnsigned false cs

/-- The value of a hexadecimal digit. -/
def hexValue? (c : Char) : Option Nat :=
  if '0' ≤ c ∧ c ≤ '9' then some (c.toNat - '0'.toNat)
  else if 'a' ≤ c ∧ c ≤ 'f' then some (c.toNat - 'a'.toNat + 10)
  else if 'A' ≤ c ∧ c ≤ 'F' then some (c.toNat - 'A'.toNat + 10)
  else none

/-- The value of four hexadecimal digits. -/
def hexValue4? (a b c d : Char) : Option Nat :=
  match hexValue? a, hexValue? b, hexValue? c, hexValue? d with
  | some a, some b, some c, some d => some (((a * 16 + b) * 16 + c) * 16 + d)
  | _, _, _, _ => none

/-- The character that a letter after a backslash stands for. -/
def unescaped? : Char → Option Char
  | '"' => some '"'
  | '\\' => some '\\'
  | '/' => some '/'
  | 'b' => some '\x08'
  | 'f' => some '\x0c'
  | 'n' => some '\n'
  | 'r' => some '\r'
  | 't' => some '\t'
  | _ => none

/-- The first half of a character that is written in two halves. -/
def isHighHalf (n : Nat) : Bool := 0xD800 ≤ n && n < 0xDC00

/-- The second half of a character that is written in two halves. -/
def isLowHalf (n : Nat) : Bool := 0xDC00 ≤ n && n < 0xE000

/-- The character of two halves. -/
def joinHalves (high low : Nat) : Char :=
  Char.ofNat (0x10000 + (high - 0xD800) * 0x400 + (low - 0xDC00))

/-- The characters of a string up to its closing quote. -/
def readChars : List Char → Option (List Char × List Char)
  | [] => none
  | '"' :: rest => some ([], rest)
  | '\\' :: 'u' :: a :: b :: c :: d :: rest =>
      match hexValue4? a b c d with
      | none => none
      | some n =>
          if isHighHalf n then
            match rest with
            | '\\' :: 'u' :: a :: b :: c :: d :: rest =>
                match hexValue4? a b c d with
                | none => none
                | some m =>
                    if isLowHalf m then
                      (readChars rest).map fun (cs, rest) => (joinHalves n m :: cs, rest)
                    else none
            | _ => none
          else if isLowHalf n then none
          else (readChars rest).map fun (cs, rest) => (Char.ofNat n :: cs, rest)
  | '\\' :: c :: rest =>
      match unescaped? c with
      | none => none
      | some c => (readChars rest).map fun (cs, rest) => (c :: cs, rest)
  | c :: rest =>
      if c.toNat < 32 ∨ c = '\\' then none
      else (readChars rest).map fun (cs, rest) => (c :: cs, rest)

/-- A string. -/
def readString : List Char → Option (String × List Char)
  | '"' :: rest => (readChars rest).map fun (cs, rest) => (String.ofList cs, rest)
  | _ => none

mutual

/-- A value, blanks before it passed over. -/
def readValue : (fuel : Nat) → List Char → Option (Json × List Char)
  | 0, _ => none
  | fuel + 1, cs =>
      match skipBlanks cs with
      | 'n' :: 'u' :: 'l' :: 'l' :: rest => some (.null, rest)
      | 't' :: 'r' :: 'u' :: 'e' :: rest => some (.bool true, rest)
      | 'f' :: 'a' :: 'l' :: 's' :: 'e' :: rest => some (.bool false, rest)
      | '[' :: rest =>
          match skipBlanks rest with
          | ']' :: rest => some (.array [], rest)
          | cs => (readItems fuel cs).map fun (items, rest) => (.array items, rest)
      | '{' :: rest =>
          match skipBlanks rest with
          | '}' :: rest => some (.object [], rest)
          | cs => (readMembers fuel cs).map fun (members, rest) => (.object members, rest)
      | '"' :: rest =>
          (readChars rest).map fun (cs, rest) => (.string (String.ofList cs), rest)
      | cs => (readNumber cs).map fun (n, rest) => (.number n, rest)

/-- The items of an array that is not empty, and its end. -/
def readItems : (fuel : Nat) → List Char → Option (List Json × List Char)
  | 0, _ => none
  | fuel + 1, cs =>
      match readValue fuel cs with
      | none => none
      | some (item, cs) =>
          match skipBlanks cs with
          | ']' :: rest => some ([item], rest)
          | ',' :: rest => (readItems fuel rest).map fun (items, rest) => (item :: items, rest)
          | _ => none

/-- The members of an object that is not empty, and its end. -/
def readMembers : (fuel : Nat) → List Char → Option (List (String × Json) × List Char)
  | 0, _ => none
  | fuel + 1, cs =>
      match readString (skipBlanks cs) with
      | none => none
      | some (key, cs) =>
          match skipBlanks cs with
          | ':' :: cs =>
              match readValue fuel cs with
              | none => none
              | some (value, cs) =>
                  match skipBlanks cs with
                  | '}' :: rest => some ([(key, value)], rest)
                  | ',' :: rest =>
                      (readMembers fuel rest).map fun (members, rest) =>
                        ((key, value) :: members, rest)
                  | _ => none
          | _ => none

end

/-- The value a text is written for. No value has more parts than its text has characters. -/
def parse (text : String) : Option Json :=
  match readValue (text.length + 1) text.toList with
  | some (value, rest) => if (skipBlanks rest).isEmpty then some value else none
  | none => none

end TapeRing.Json
