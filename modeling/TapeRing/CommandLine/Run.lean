import TapeRing.CommandLine.Arguments
import TapeRing.CommandLine.Files
import TapeRing.Json.Codec
import TapeRing.Json.Printer
import TapeRing.Log.Event
import TapeRing.Channel.Sink
import TapeRing.Channel.Source

/-! # A run from the command line

What a run from the command line comes to: the exit code, the bytes on standard output, the text
on standard error, and the files afterwards. A machine is assembled from the arguments, run on
standard input, and dumped if that is asked for, also after a fault. Of the two failures of a
run and its dump, that of the dump is reported. All this is over any file system. -/

namespace TapeRing.CommandLine

/-- A failure that ends a run: what was not done, and why, from the nearest cause on. -/
structure Failure where
  context : String
  causes : List String := []
deriving DecidableEq, Repr

namespace Failure

/-- The causes of a failure, one a line, numbered if there are several. -/
def causesText : List String → String
  | [] => ""
  | [cause] => "\nCaused by:\n    " ++ cause ++ "\n"
  | causes =>
      "\nCaused by:\n" ++ String.join (causes.zipIdx.map fun (cause, i) =>
        "    " ++ toString i ++ ": " ++ cause ++ "\n")

/-- The report of a failure. -/
def text (f : Failure) : String :=
  "Error: " ++ f.context ++ "\n" ++ causesText f.causes

/-- The causes of a fault: its message, and for a channel the text of the channel. -/
def causesOf : Fault → List String
  | .channel text => [Fault.message (.channel text), text]
  | fault => [fault.message]

/-- Neither a path nor a text of a program is given. -/
def noProgram : Failure where
  context := "no program given (pass a path or --eval)"

/-- The program at a path cannot be read. -/
def unreadable (path : String) (fault : FileFault) : Failure where
  context := "failed to read program " ++ path
  causes := [fault.message]

/-- No machine can be assembled. -/
def notLoaded (fault : Fault) : Failure where
  context := "failed to load program"
  causes := causesOf fault

/-- The run ended with a fault. -/
def aborted (fault : Fault) : Failure where
  context := "run aborted"
  causes := causesOf fault

/-- The dump cannot be written. -/
def notDumped (path : String) (fault : FileFault) : Failure where
  context := "failed to write state dump " ++ path
  causes := [fault.message]

end Failure

/-- The text of the program that the arguments name, read by the given means. -/
def sourceOf (readText : String → Except FileFault String) (a : Arguments) :
    Except Failure String :=
  match a.eval, a.program with
  | some source, _ => .ok source
  | none, some path =>
      match readText path with
      | .ok source => .ok source
      | .error fault => .error (.unreadable path fault)
  | none, none => .error .noProgram

/-- The machine that the arguments and the text of the program make up. -/
def machineOf (a : Arguments) (source : String) : Except Failure Machine :=
  match Machine.assemble a.config source with
  | .ok m => .ok m
  | .error fault => .error (.notLoaded fault)

/-- The text of a dump. -/
def dumpText (m : Machine) : String :=
  m.snapshot.toJson.pretty

/-- The event that a machine has been assembled. -/
def assembledEvent (m : Machine) : Log.Event :=
  .assembled m.config (m.processors.map fun p => p.program.length)

/-- The event that a machine has stopped by itself. -/
def haltedEvent (m : Machine) (result : Except Fault RunSummary) : List Log.Event :=
  match result with
  | .ok summary => [.halted summary m.allFinished]
  | .error _ => []

/-- What is left to report after the dump: the event that all is done, or a failure. -/
def verdict (result : Except Fault RunSummary) (dump : Option Failure) :
    Except Failure (List Log.Event) :=
  match dump, result with
  | some failure, _ => .error failure
  | none, .ok summary => .ok [.complete summary]
  | none, .error fault => .error (.aborted fault)

/-- What a run is given. -/
structure Environment (φ : Type := Files) where
  args : List String
  stdin : List UInt8
  files : φ
  /-- The setting of the log filter. -/
  log : Option String
deriving DecidableEq, Repr

/-- What a run comes to. -/
structure Report (φ : Type := Files) where
  code : Nat
  stdout : List UInt8
  stderr : String
  files : φ
deriving DecidableEq, Repr

variable {φ : Type}

/-- The report of a run that failed before its machine was assembled. -/
def Report.ofFailure (files : φ) (failure : Failure) : Report φ where
  code := 1
  stdout := []
  stderr := failure.text
  files := files

/-- The files after the dump, and the failure of the dump, if it failed. -/
def dump [FileSystem φ] (a : Arguments) (m : Machine) (files : φ) : φ × Option Failure :=
  match a.dumpState with
  | none => (files, none)
  | some path =>
      match FileSystem.writeText files path (dumpText m) with
      | (.ok (), files) => (files, none)
      | (.error fault, files) => (files, some (.notDumped path fault))

/-- The channels of a run: a buffer for standard output, and the bytes of standard input. -/
def Environment.channels (env : Environment φ) : Channels ByteBuffer SliceSource :=
  ⟨.empty, ⟨env.stdin⟩⟩

/-- The attempted ticks as events, if any of them is shown. -/
def tickEvents (limit : Nat) (m : Machine) (env : Environment φ) (filter : Log.Filter) :
    List Log.Event :=
  if filter.showsTicks then
    (m.attempts limit env.channels).map Log.Event.tick
  else []

/-- The report of a run that ended, from the machine `m` to the machine `last`. -/
def Report.ofRun [FileSystem φ] (limit : Nat) (env : Environment φ) (a : Arguments)
    (m last : Machine) (stdout : List UInt8) (result : Except Fault RunSummary) : Report φ :=
  let filter := Log.Filter.ofSetting env.log
  let (files, dumpFailure) := dump a last env.files
  let events := [assembledEvent m] ++ tickEvents limit m env filter ++ haltedEvent last result
  match verdict result dumpFailure with
  | .ok rest =>
      { code := 0, stdout := stdout, stderr := filter.lines (events ++ rest), files := files }
  | .error failure =>
      { code := 1, stdout := stdout, stderr := filter.lines events ++ failure.text,
        files := files }

/-- What a run of at most `limit` steps with accepted arguments comes to, if it ends. -/
def runWith [FileSystem φ] (limit : Nat) (env : Environment φ) (a : Arguments) :
    Option (Report φ) :=
  match sourceOf (FileSystem.readText env.files) a with
  | .error failure => some (.ofFailure env.files failure)
  | .ok source =>
      match machineOf a source with
      | .error failure => some (.ofFailure env.files failure)
      | .ok m =>
          match m.run limit env.channels with
          | ⟨.ok none, _, _⟩ => none
          | ⟨.ok (some summary), last, channels⟩ =>
              some (.ofRun limit env a m last channels.sink.toList (.ok summary))
          | ⟨.error fault, last, channels⟩ =>
              some (.ofRun limit env a m last channels.sink.toList (.error fault))

/-- What a run of at most `limit` steps comes to, if its arguments are accepted and it ends. -/
def run [FileSystem φ] (limit : Nat) (env : Environment φ) :
    Except ArgumentFault (Option (Report φ)) :=
  match Arguments.parse env.args with
  | .error fault => .error fault
  | .ok a => .ok (runWith limit env a)

end TapeRing.CommandLine
