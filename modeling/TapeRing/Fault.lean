/-! # Faults

Everything that can go wrong while a program is loaded or run, by cause. `Fault.message` holds
the wording. -/

namespace TapeRing

/-- One of the two brackets of a loop. -/
inductive Bracket
  | opening
  | closing
deriving DecidableEq, Repr

/-- The character a bracket is written with. -/
def Bracket.toChar : Bracket → Char
  | .opening => '['
  | .closing => ']'

/-- The reason why an operation failed. -/
inductive Fault
  /-- A cell beyond the end of a tape of the given size was addressed. -/
  | outOfBounds (index size : Nat)
  /-- A value that is not a byte was to be stored or emitted. -/
  | valueOutOfRange (value : Int)
  /-- A jump was due at a bracket that has no partner. -/
  | unmatchedBracket (processor position : Nat) (bracket : Bracket)
  /-- A program was to be dealt to no processors at all. -/
  | noProcessors
  /-- The byte source has nothing left. -/
  | inputExhausted
  /-- The byte source or the byte sink failed with a text of its own. -/
  | channel (text : String)
deriving DecidableEq, Repr

/-- The wording of a fault. -/
def Fault.message : Fault → String
  | .outOfBounds index size =>
      "tape index " ++ toString index ++ " out of bounds (tape size is " ++ toString size ++ ")"
  | .valueOutOfRange value =>
      "value " ++ toString value ++ " does not fit in a byte cell (0..=255)"
  | .unmatchedBracket processor position bracket =>
      "processor " ++ toString processor ++ ": unmatched '" ++ bracket.toChar.toString
        ++ "' at position " ++ toString position
  | .noProcessors => "invalid configuration: processor count must be at least 1"
  | .inputExhausted => "input exhausted"
  | .channel text => "io error: " ++ text

end TapeRing
