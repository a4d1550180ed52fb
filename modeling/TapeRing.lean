import TapeRing.Json.Reader
import TapeRing.Key
import TapeRing.Main
import TapeRing.Proofs.Brackets.Matching
import TapeRing.Proofs.Brackets.Table
import TapeRing.Proofs.Machine.Steps
import TapeRing.Proofs.Transcript
import TapeRing.Proofs.Machine.Assembly
import TapeRing.Proofs.Machine.Redrawing
import TapeRing.Proofs.Processor.Partners
import TapeRing.Proofs.Strategies
import TapeRing.Proofs.Processor.Sound
import TapeRing.Proofs.Loops.Block
import TapeRing.Proofs.Processor.Drive
import TapeRing.Proofs.Loops.Simulation
import TapeRing.Proofs.Loops.Meaning
import TapeRing.Proofs.Endless.Rover
import TapeRing.Proofs.Endless.Extent
import TapeRing.Proofs.Machine.Reachable
import TapeRing.Proofs.Checked.Processor
import TapeRing.Proofs.Checked.Machine
import TapeRing.Proofs.Schedule.Places
import TapeRing.Proofs.Schedule.Rounds
import TapeRing.Proofs.Channel.Likeness
import TapeRing.Proofs.Channel.Recorded
import TapeRing.Proofs.Channel.Unfailing
import TapeRing.Proofs.Processor.Inputless
import TapeRing.Proofs.Isolation
import TapeRing.Proofs.Machine.Returns
import TapeRing.Proofs.Processor.Exhaustion
import TapeRing.Proofs.Resumption
import TapeRing.Proofs.Race.Lifetimes
import TapeRing.Proofs.Race.Abreast
import TapeRing.Proofs.Race.Outcome
import TapeRing.Proofs.InPlace.Processor
import TapeRing.Proofs.InPlace.Machine
import TapeRing.Proofs.Atomicity
import TapeRing.Proofs.Policies
import TapeRing.Proofs.Brackets.Balance
import TapeRing.Proofs.Obstacles
import TapeRing.Proofs.StraightLine
import TapeRing.Proofs.Channel.Events
import TapeRing.Proofs.Channel.Ledger
import TapeRing.Proofs.Accounting
import TapeRing.Proofs.Capacity
import TapeRing.Proofs.Retries
import TapeRing.Proofs.CommandLine.Files
import TapeRing.Proofs.CommandLine.Report
import TapeRing.Proofs.Brackets.Nesting
import TapeRing.Proofs.Brackets.Search
import TapeRing.Proofs.Dealing
import TapeRing.Proofs.Mirror.Program
import TapeRing.Proofs.Mirror.Machine
import TapeRing.Proofs.Machine.Attempts
import TapeRing.Proofs.CommandLine.Logging
import TapeRing.Proofs.Processor.Trajectory
import TapeRing.Proofs.Barriers
import TapeRing.Proofs.Tape.History
import TapeRing.Proofs.Tape.Repetition
import TapeRing.Proofs.Loops.Counted
import TapeRing.Proofs.Machine.Single
import TapeRing.Proofs.Loops.SelfClearing
import TapeRing.Proofs.Snapshot
import TapeRing.Proofs.CommandLine.Arguments
import TapeRing.Proofs.Json.Members
import TapeRing.Proofs.Json.Shape
import TapeRing.Proofs.Json.Spelling
import TapeRing.Proofs.Json.RoundTrip
import TapeRing.Proofs.Json.Acceptance
import TapeRing.Proofs.Json.Records
import TapeRing.Proofs.Json.Values
