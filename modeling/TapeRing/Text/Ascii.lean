/-! # ASCII bytes

Programs read and write ASCII. A byte or character outside ASCII is replaced by a question
mark. -/

namespace TapeRing

/-- The byte that stands in for everything that is not ASCII. -/
def questionMark : UInt8 := 63

/-- An ASCII byte stays, any other becomes a question mark. -/
def toAscii (byte : UInt8) : UInt8 :=
  if byte < 128 then byte else questionMark

/-- The byte of an ASCII character, and a question mark for any other character. -/
def asciiByte (c : Char) : UInt8 :=
  if c.toNat < 128 then UInt8.ofNat c.toNat else questionMark

theorem toAscii_lt (byte : UInt8) : toAscii byte < 128 := by
  unfold toAscii
  split
  · assumption
  · decide

theorem toAscii_toAscii (byte : UInt8) : toAscii (toAscii byte) = toAscii byte :=
  if_pos (toAscii_lt byte)

end TapeRing
