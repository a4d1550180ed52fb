import TapeRing.Log.Filter
import TapeRing.Machine.Attempt

/-! # Log events

The events of a run and the lines they are logged as: the level, the target, the message, and
the fields with their values. -/

namespace TapeRing.Log

/-- Something that happens in the course of a run. -/
inductive Event
  | assembled (config : MachineConfig) (lengths : List Nat)
  | tick (attempt : Attempt)
  | halted (summary : RunSummary) (allFinished : Bool)
  | complete (summary : RunSummary)
deriving DecidableEq, Repr

namespace Event

/-- How grave an event is. -/
def level : Event → Level
  | .assembled _ _ => .debug
  | .tick _ => .trace
  | .halted _ _ => .debug
  | .complete _ => .info

/-- Where an event comes from. -/
def target : Event → String
  | .assembled _ _ => "rust_mbf::scheduler"
  | .tick _ => "rust_mbf::processor"
  | .halted _ _ => "rust_mbf::scheduler"
  | .complete _ => "mbf_run"

/-- What happened, in words. -/
def message : Event → String
  | .assembled _ _ => "machine assembled"
  | .tick _ => "tick"
  | .halted _ _ => "machine halted"
  | .complete _ => "run complete"

/-- A policy as a field value. -/
def haltText : HaltPolicy → String
  | .firstFinished => "FirstFinished"
  | .allFinished => "AllFinished"

/-- A strategy as a field value. -/
def bracketsText : BracketStrategy → String
  | .scan => "Scan"
  | .table => "Table"

/-- A list of numbers as a field value. -/
def listText (ns : List Nat) : String :=
  "[" ++ ", ".intercalate (ns.map toString) ++ "]"

/-- A number that may be absent as a field value. -/
def optionText : Option Nat → String
  | none => "None"
  | some n => "Some(" ++ toString n ++ ")"

/-- The fields of an event with their values. -/
def fields : Event → List (String × String)
  | .assembled config lengths =>
      [("processors", toString lengths.length), ("lengths", listText lengths),
        ("halt", haltText config.halt), ("brackets", bracketsText config.brackets)]
  | .tick a =>
      [("processor", toString a.processor), ("ip", toString a.ip), ("op", a.op.toChar.toString),
        ("dp", toString a.dp)]
  | .halted summary allFinished =>
      [("ticks", toString summary.ticks), ("halted_on", optionText summary.haltedOn),
        ("all_finished", if allFinished then "true" else "false")]
  | .complete summary =>
      [("ticks", toString summary.ticks), ("halted_on", optionText summary.haltedOn)]

/-- The line of an event. -/
def line (e : Event) : String :=
  e.level.label ++ " " ++ e.target ++ ": " ++ e.message
    ++ String.join (e.fields.map fun (name, value) => " " ++ name ++ "=" ++ value) ++ "\n"

end Event

/-- A filter shows an event. -/
def Filter.showsEvent (f : Filter) (e : Event) : Bool :=
  f.shows e.level e.target

/-- A filter shows the ticks. -/
def Filter.showsTicks (f : Filter) : Bool :=
  f.shows .trace "rust_mbf::processor"

/-- The filter shows a tick if it shows ticks at all. -/
theorem Filter.showsEvent_tick (f : Filter) (a : Attempt) :
    f.showsEvent (.tick a) = f.showsTicks := rfl

/-- The lines of the events that a filter shows. -/
def Filter.lines (f : Filter) (events : List Event) : String :=
  String.join ((events.filter f.showsEvent).map Event.line)

end TapeRing.Log
