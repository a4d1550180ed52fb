import TapeRing.CommandLine.Run
import TapeRing.CommandLine.Usage

/-! # The command line program

Carries out on the real standard streams and files what `CommandLine.run` says. The machine is
stepped one tick at a time: a byte that a tick asks for is read before it, a byte that it emits
is written and flushed before it, and the tick then sees how that went. -/

namespace TapeRing.CommandLine

/-- How an attempt to write went: a text says why it failed. -/
structure WriteReply where
  failure : Option String

instance : ByteSink WriteReply where
  put reply _ :=
    match reply.failure with
    | none => (.ok (), reply)
    | some text => (.error (.channel text), reply)

/-- The text of a failure of the operating system. -/
def osText (code : UInt32) (details : String) : String :=
  details ++ " (os error " ++ toString code ++ ")"

/-- The text of a failed operation on a stream or a file. -/
def errorText : IO.Error → String
  | .noFileOrDirectory _ code details => osText code details
  | .permissionDenied _ code details => osText code details
  | .inappropriateType _ code details => osText code details
  | .invalidArgument _ code details => osText code details
  | .resourceExhausted _ code details => osText code details
  | .resourceVanished code details => osText code details
  | .hardwareFault code details => osText code details
  | .otherError code details => osText code details
  | e => toString e

/-- Reads one byte; an interrupted read is repeated. -/
partial def readByte (input : IO.FS.Stream) : IO (List ReadEvent) := do
  try
    let bytes ← input.read 1
    return bytes.toList.map ReadEvent.byte
  catch
    | .interrupted .. => readByte input
    | e => return [.failure (errorText e)]

/-- Writes one byte and flushes. -/
def writeByte (output : IO.FS.Stream) (byte : UInt8) : IO WriteReply := do
  try
    output.write ⟨#[byte]⟩
    output.flush
    return ⟨none⟩
  catch e => return ⟨some (errorText e)⟩

/-- Logs an event that the filter shows. -/
def logEvent (filter : Log.Filter) (event : Log.Event) : IO Unit := do
  if filter.showsEvent event then (← IO.getStderr).putStr event.line

/-- Logs the tick that a machine is about to make. -/
def logAttempt (m : Machine) : IO Unit := do
  if let some attempt := m.attempt? then
    (← IO.getStderr).putStr (Log.Event.tick attempt).line

/-- Steps a machine until it stops or faults. -/
partial def driveStreams (showsTicks : Bool) (input output : IO.FS.Stream) (m : Machine) :
    IO (Except Fault (Option Nat) × Machine) := do
  if showsTicks then logAttempt m
  let events ← match m.action? with
    | some (.receive _) => readByte input
    | _ => pure []
  let reply ← match m.action? with
    | some (.emit byte _) => writeByte output byte
    | _ => pure ⟨none⟩
  let channels : Channels WriteReply ReaderSource := ⟨reply, ⟨events⟩⟩
  match m.step channels with
  | ⟨.ok (.ticked _), m, _⟩ => driveStreams showsTicks input output m
  | ⟨.ok (.halted on), m, _⟩ => return (.ok on, m)
  | ⟨.error fault, m, _⟩ => return (.error fault, m)

/-- What a failed operation on a file comes to. -/
def fileFault : IO.Error → FileFault
  | .noFileOrDirectory .. => .notFound
  | e => .other (errorText e)

/-- Reads the text of a file. -/
def readSource (path : String) : IO (Except FileFault String) := do
  try
    let bytes ← IO.FS.readBinFile path
    match textOf? bytes.toList with
    | some text => return .ok text
    | none => return .error .notText
  catch e => return .error (fileFault e)

/-- Writes the dump that the arguments ask for. -/
def writeDump (a : Arguments) (m : Machine) : IO (Option Failure) := do
  match a.dumpState with
  | none => return none
  | some path =>
      try
        IO.FS.writeFile path (dumpText m)
        return none
      catch e => return some (.notDumped path (fileFault e))

/-- Reports a failure. -/
def reportFailure (failure : Failure) : IO UInt32 := do
  (← IO.getStderr).putStr failure.text
  return 1

/-- Runs an assembled machine and reports. -/
def execute (filter : Log.Filter) (a : Arguments) (m : Machine) : IO UInt32 := do
  logEvent filter (assembledEvent m)
  let (stopped, last) ← driveStreams filter.showsTicks (← IO.getStdin) (← IO.getStdout) m
  let result := stopped.map fun on => RunSummary.mk (last.ticks - m.ticks) on
  for event in haltedEvent last result do logEvent filter event
  match verdict result (← writeDump a last) with
  | .error failure => reportFailure failure
  | .ok events =>
      for event in events do logEvent filter event
      return 0

/-- Runs with accepted arguments. -/
def runArguments (filter : Log.Filter) (a : Arguments) : IO UInt32 := do
  let file ← match a.eval, a.program with
    | none, some path => readSource path
    | _, _ => pure (.ok "")
  match (sourceOf (fun _ => file) a).bind (machineOf a) with
  | .error failure => reportFailure failure
  | .ok m => execute filter a m

end TapeRing.CommandLine

open TapeRing TapeRing.CommandLine

/-- Runs the command line. -/
def main (args : List String) : IO UInt32 := do
  let filter := Log.Filter.ofSetting (← IO.getEnv "RUST_LOG")
  match Arguments.parse args with
  | .ok a => runArguments filter a
  | .error fault =>
      (← IO.getStdout).putStr fault.stdout
      if fault ≠ .displayHelp then
        (← IO.getStderr).putStr ("error: " ++ fault.message ++ "\n\n" ++ helpText)
      return fault.exitCode.toUInt32
