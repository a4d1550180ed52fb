import TapeRing.Json.Decoder
import TapeRing.Machine.Run
import TapeRing.Snapshot

/-! # Configurations, summaries and snapshots as JSON

Each kind of data is written as an object with its fields in the order of declaration, and is
read back by its shape. The policies and strategies are written by name. -/

namespace TapeRing

namespace HaltPolicy

/-- The name of a policy. -/
def name : HaltPolicy → String
  | .firstFinished => "first-finished"
  | .allFinished => "all-finished"

/-- The policies by name. -/
def known : List (String × HaltPolicy) :=
  [("first-finished", .firstFinished), ("all-finished", .allFinished)]

/-- The policy as JSON. -/
def toJson (policy : HaltPolicy) : Json := .string policy.name

/-- The policy a value stands for. -/
def decode : Decoder HaltPolicy := Decoder.variant known

end HaltPolicy

namespace BracketStrategy

/-- The name of a strategy. -/
def name : BracketStrategy → String
  | .scan => "scan"
  | .table => "table"

/-- The strategies by name. -/
def known : List (String × BracketStrategy) :=
  [("scan", .scan), ("table", .table)]

/-- The strategy as JSON. -/
def toJson (strategy : BracketStrategy) : Json := .string strategy.name

/-- The strategy a value stands for. -/
def decode : Decoder BracketStrategy := Decoder.variant known

end BracketStrategy

/-- A value that is present, or the report that its field is missing. -/
def required {α : Type} (name : String) : Option α → Except DecodeFault α
  | some value => .ok value
  | none => .error (.missingField name)

/-- A count or an index. -/
def decodeSize : Decoder Nat := Decoder.natural "usize"

/-- A number of ticks. -/
def decodeTicks : Decoder Nat := Decoder.natural "u64"

/-- The value of a cell. -/
def decodeCell : Decoder Int := Decoder.intIn Int32.minValue.toInt Int32.maxValue.toInt "i32"

namespace MachineConfig

/-- The configuration as JSON. -/
def toJson (c : MachineConfig) : Json :=
  .object [("processors", .ofNat c.processors), ("halt", c.halt.toJson),
    ("brackets", c.brackets.toJson)]

/-- The fields of a configuration that are known so far. -/
structure Draft where
  processors : Option Nat := none
  halt : Option HaltPolicy := none
  brackets : Option BracketStrategy := none

/-- The shape of a configuration. The policy and the strategy have defaults. -/
def shape : Shape Draft MachineConfig where
  name := "MachineConfig"
  fields := [
    .of "processors" decodeSize (fun n d => { d with processors := some n }) false,
    .of "halt" HaltPolicy.decode (fun h d => { d with halt := some h }) true,
    .of "brackets" BracketStrategy.decode (fun b d => { d with brackets := some b }) true]
  blank := {}
  finish d := do
    let processors ← required "processors" d.processors
    return {
      processors := processors
      halt := d.halt.getD .firstFinished
      brackets := d.brackets.getD .scan }

/-- The configuration a value stands for. -/
def decode : Decoder MachineConfig := shape.decode

end MachineConfig

namespace RunSummary

/-- The summary as JSON. -/
def toJson (s : RunSummary) : Json :=
  .object [("ticks", .ofNat s.ticks), ("halted_on", (s.haltedOn.map Json.ofNat).getD .null)]

/-- The fields of a summary that are known so far. -/
structure Draft where
  ticks : Option Nat := none
  haltedOn : Option (Option Nat) := none

/-- The shape of a summary. In an object the processor may be left out. -/
def shape : Shape Draft RunSummary where
  name := "RunSummary"
  fields := [
    .of "ticks" decodeTicks (fun n d => { d with ticks := some n }) false,
    .of "halted_on" (Decoder.optional decodeSize)
      (fun p d => { d with haltedOn := some p }) false]
  blank := {}
  finish d := do
    let ticks ← required "ticks" d.ticks
    return { ticks := ticks, haltedOn := d.haltedOn.getD none }

/-- The summary a value stands for. -/
def decode : Decoder RunSummary := shape.decode

end RunSummary

namespace ProcessorSnapshot

/-- The snapshot as JSON. -/
def toJson (s : ProcessorSnapshot) : Json :=
  .object [("id", .ofNat s.id), ("program", .string s.program),
    ("instruction_pointer", .ofNat s.instructionPointer),
    ("data_pointer", .ofNat s.dataPointer), ("finished", .bool s.finished),
    ("tape", .array (s.tape.map Json.ofInt))]

/-- The fields of a processor's snapshot that are known so far. -/
structure Draft where
  id : Option Nat := none
  program : Option String := none
  instructionPointer : Option Nat := none
  dataPointer : Option Nat := none
  finished : Option Bool := none
  tape : Option (List Int) := none

/-- The shape of a processor's snapshot. The tape is empty by default. -/
def shape : Shape Draft ProcessorSnapshot where
  name := "ProcessorSnapshot"
  fields := [
    .of "id" decodeSize (fun n d => { d with id := some n }) false,
    .of "program" Decoder.text (fun t d => { d with program := some t }) false,
    .of "instruction_pointer" decodeSize
      (fun n d => { d with instructionPointer := some n }) false,
    .of "data_pointer" decodeSize (fun n d => { d with dataPointer := some n }) false,
    .of "finished" Decoder.boolean (fun b d => { d with finished := some b }) false,
    .of "tape" (Decoder.list decodeCell) (fun cells d => { d with tape := some cells }) true]
  blank := {}
  finish d := do
    let id ← required "id" d.id
    let program ← required "program" d.program
    let instructionPointer ← required "instruction_pointer" d.instructionPointer
    let dataPointer ← required "data_pointer" d.dataPointer
    let finished ← required "finished" d.finished
    return {
      id := id
      program := program
      instructionPointer := instructionPointer
      dataPointer := dataPointer
      finished := finished
      tape := d.tape.getD [] }

/-- The snapshot of a processor that a value stands for. -/
def decode : Decoder ProcessorSnapshot := shape.decode

end ProcessorSnapshot

namespace MachineSnapshot

/-- The snapshot as JSON. -/
def toJson (s : MachineSnapshot) : Json :=
  .object [("config", s.config.toJson), ("ticks", .ofNat s.ticks),
    ("processors", .array (s.processors.map ProcessorSnapshot.toJson))]

/-- The fields of a machine's snapshot that are known so far. -/
structure Draft where
  config : Option MachineConfig := none
  ticks : Option Nat := none
  processors : Option (List ProcessorSnapshot) := none

/-- The shape of a machine's snapshot. -/
def shape : Shape Draft MachineSnapshot where
  name := "MachineSnapshot"
  fields := [
    .of "config" MachineConfig.decode (fun c d => { d with config := some c }) false,
    .of "ticks" decodeTicks (fun n d => { d with ticks := some n }) false,
    .of "processors" (Decoder.list ProcessorSnapshot.decode)
      (fun ps d => { d with processors := some ps }) false]
  blank := {}
  finish d := do
    let config ← required "config" d.config
    let ticks ← required "ticks" d.ticks
    let processors ← required "processors" d.processors
    return { config := config, ticks := ticks, processors := processors }

/-- The snapshot of a machine that a value stands for. -/
def decode : Decoder MachineSnapshot := shape.decode

end MachineSnapshot

end TapeRing
