import TapeRing.Bracket

/-! # Machine configurations

How many processors a machine has, when it stops, and how its processors find bracket
partners. -/

namespace TapeRing

/-- When a machine stops. -/
inductive HaltPolicy
  /-- As soon as it is the turn of a finished processor, even if others have work left. -/
  | firstFinished
  /-- When all processors are finished; finished ones are passed over. -/
  | allFinished
deriving DecidableEq, Repr

/-- What a machine is assembled from, apart from the program. -/
structure MachineConfig where
  processors : Nat
  halt : HaltPolicy := .firstFinished
  brackets : BracketStrategy := .scan
deriving DecidableEq, Repr

end TapeRing
