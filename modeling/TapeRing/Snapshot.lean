import TapeRing.Machine.Basic

/-! # Snapshots

A snapshot shows the state of a machine and of each of its processors as plain data. -/

namespace TapeRing

/-- The state of one processor. -/
structure ProcessorSnapshot where
  id : Nat
  program : String
  instructionPointer : Nat
  dataPointer : Nat
  finished : Bool
  tape : List Int
deriving DecidableEq, Repr

/-- The state of a machine. -/
structure MachineSnapshot where
  config : MachineConfig
  ticks : Nat
  processors : List ProcessorSnapshot
deriving DecidableEq, Repr

/-- The state of a processor as data. -/
def Processor.snapshot (p : Processor) : ProcessorSnapshot where
  id := p.id
  program := p.program.text
  instructionPointer := p.ip
  dataPointer := p.dp
  finished := p.isFinished
  tape := p.tape.cells

/-- The state of a machine as data. -/
def Machine.snapshot (m : Machine) : MachineSnapshot where
  config := m.config
  ticks := m.ticks
  processors := m.processors.map Processor.snapshot

end TapeRing
