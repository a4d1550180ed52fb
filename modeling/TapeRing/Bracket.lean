import TapeRing.Fault
import TapeRing.Program

/-! # Bracket partners

Two ways to find the partner of a bracket. `closingOf?` and `openingOf?` search the program from
the bracket on, counting the brackets of the same kind that have to be closed first. `JumpTable`
keeps the partners of a whole program, paired in one pass with a stack of open brackets. -/

namespace TapeRing

/-- How a processor finds the partner of a bracket. -/
inductive BracketStrategy
  /-- Search the program at every jump. -/
  | scan
  /-- Look the partner up in a table that is built with the processor. -/
  | table
deriving DecidableEq, Repr

/-- The distance to the bracket `partner` that closes the one just passed, when `depth` further
    brackets `same` have been passed and not closed yet. -/
def seek (same partner : Op) : (depth : Nat) → List Op → Option Nat
  | _, [] => none
  | depth, op :: rest =>
      if op = partner then
        match depth with
        | 0 => some 0
        | depth + 1 => (seek same partner depth rest).map (· + 1)
      else if op = same then (seek same partner (depth + 1) rest).map (· + 1)
      else (seek same partner depth rest).map (· + 1)

namespace Program

/-- The `]` that closes the `[` at a position, found by searching forward. -/
def closingOf? (p : Program) (position : Nat) : Option Nat :=
  (seek .loopStart .loopEnd 0 (p.ops.drop (position + 1))).map (position + 1 + ·)

/-- The `[` that the `]` at a position closes, found by searching backward. -/
def openingOf? (p : Program) (position : Nat) : Option Nat :=
  (seek .loopEnd .loopStart 0 (p.ops.take position).reverse).map (position - 1 - ·)

end Program

/-- The pairs of partners among instructions that start at `position`, when the brackets `waiting`
    are open before them, innermost first. A `]` without an open bracket pairs with nothing. -/
def pairs : (position : Nat) → (waiting : List Nat) → List Op → List (Nat × Nat)
  | _, _, [] => []
  | position, waiting, .loopStart :: rest => pairs (position + 1) (position :: waiting) rest
  | position, start :: waiting, .loopEnd :: rest =>
      (start, position) :: pairs (position + 1) waiting rest
  | position, waiting, _ :: rest => pairs (position + 1) waiting rest

/-- The partner of every position of a program. -/
structure JumpTable where
  partners : Array (Option Nat)
deriving DecidableEq, Repr

namespace JumpTable

/-- A table without any partners for a program of the given length. -/
def blank (length : Nat) : JumpTable :=
  ⟨Array.replicate length none⟩

/-- Records two positions as each other's partners. -/
def link (table : JumpTable) (pair : Nat × Nat) : JumpTable :=
  ⟨(table.partners.setIfInBounds pair.1 (some pair.2)).setIfInBounds pair.2 (some pair.1)⟩

/-- The table of a program. -/
def build (p : Program) : JumpTable :=
  (pairs 0 [] p.ops).foldl link (blank p.length)

/-- The partner of a position, if it has one. -/
def partner (table : JumpTable) (position : Nat) : Option Nat :=
  table.partners[position]?.join

end JumpTable

end TapeRing
