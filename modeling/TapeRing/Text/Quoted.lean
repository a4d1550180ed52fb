import TapeRing.Text.Glyph

/-! # Quoted text

Text between double quotes in which every character shows: quotes and backslashes are escaped,
the common control characters have a letter, and a character without a glyph is written as its
code point. -/

namespace TapeRing

/-- A character as it is written inside quotes. -/
def quotedChar (c : Char) : List Char :=
  if c = '\x00' then ['\\', '0']
  else if c = '\t' then ['\\', 't']
  else if c = '\r' then ['\\', 'r']
  else if c = '\n' then ['\\', 'n']
  else if c = '"' ∨ c = '\\' then ['\\', c]
  else if hasGlyph c then [c]
  else ['\\', 'u', '{'] ++ Nat.toDigits 16 c.toNat ++ ['}']

/-- A text between quotes. -/
def quoted (text : String) : String :=
  String.ofList ('"' :: text.toList.flatMap quotedChar ++ ['"'])

example : quoted "a\"\n" = "\"a\\\"\\n\"" := by decide +kernel

end TapeRing
