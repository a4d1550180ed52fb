/-! # Instructions

The tape language has eight instructions, each written as one character. Every other character of
a source text is a comment. `ofChar?` and `toChar` are the two directions of the alphabet;
`ofChar?_eq_some_iff` says that they undo each other. -/

namespace TapeRing

/-- One instruction of the tape language. -/
inductive Op
  | increment
  | decrement
  | left
  | right
  | loopStart
  | loopEnd
  | output
  | input
deriving DecidableEq, Repr

namespace Op

/-- The instruction a character stands for; a comment character stands for none. -/
def ofChar? : Char → Option Op
  | '+' => some .increment
  | '-' => some .decrement
  | '<' => some .left
  | '>' => some .right
  | '[' => some .loopStart
  | ']' => some .loopEnd
  | '.' => some .output
  | ',' => some .input
  | _ => none

/-- The character an instruction is written with. -/
def toChar : Op → Char
  | .increment => '+'
  | .decrement => '-'
  | .left => '<'
  | .right => '>'
  | .loopStart => '['
  | .loopEnd => ']'
  | .output => '.'
  | .input => ','

theorem ofChar?_toChar (op : Op) : ofChar? op.toChar = some op := by
  cases op <;> rfl

theorem ofChar?_eq_some_iff {c : Char} {op : Op} : ofChar? c = some op ↔ op.toChar = c := by
  constructor
  · intro h
    unfold ofChar? at h
    split at h <;> first | contradiction | (cases h; rfl)
  · rintro rfl
    exact ofChar?_toChar op

end Op

end TapeRing
