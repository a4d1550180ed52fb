import TapeRing.Text.Ascii

/-! # Keys

What a console program gets to see of a key press. A key with a character gives that character,
control turns an ASCII character into a control code, and control with `c` interrupts. Keys that
only move around give nothing. -/

namespace TapeRing

/-- A key. -/
inductive Key
  | char (c : Char)
  | enter
  | tab
  | backspace
  | escape
  | left
  | right
  | up
  | down
  | home
  | endKey
  | pageUp
  | pageDown
  | backTab
  | delete
  | insert
  | function (number : Nat)
  | null
deriving DecidableEq, Repr

/-- The modifiers held down with a key. -/
structure Modifiers where
  control : Bool := false
  shift : Bool := false
  alt : Bool := false
deriving DecidableEq, Repr

/-- What a key press comes to. -/
inductive KeyPress
  | character (c : Char)
  | interrupt
deriving DecidableEq, Repr

/-- The control code of an ASCII character: its five lowest bits. -/
def controlCode (c : Char) : Char :=
  Char.ofNat (c.toNat % 32)

/-- What a key press comes to, if to anything. -/
def Key.press? (key : Key) (modifiers : Modifiers) : Option KeyPress :=
  match key with
  | .char c =>
      if modifiers.control ∧ (c = 'c' ∨ c = 'C') then some .interrupt
      else if modifiers.control ∧ c.toNat < 128 then some (.character (controlCode c))
      else some (.character c)
  | .enter => some (.character '\r')
  | .tab => some (.character '\t')
  | .backspace => some (.character '\x08')
  | .escape => some (.character '\x1b')
  | _ => none

end TapeRing
