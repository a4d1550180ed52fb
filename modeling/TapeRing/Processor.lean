import TapeRing.Bracket
import TapeRing.Channel.Basic
import TapeRing.Tape
import TapeRing.Text.Ascii

/-! # Processors

A processor runs its part of the program on a tape of its own, one instruction per tick.
`action` says what the next instruction asks for without touching the channels; `carryOut` does it,
and `tick` is the two together. A tick that faults leaves the processor as it was. -/

namespace TapeRing

/-- A program, a place in it, and a tape with a place on it. -/
structure Processor where
  id : Nat
  program : Program
  /-- The partners of the brackets, if they are looked up and not searched for. -/
  jumps : Option JumpTable
  ip : Nat
  dp : Nat
  tape : Tape
deriving DecidableEq, Repr

/-- What an instruction asks for. -/
inductive Action
  /-- Nothing: the program is finished. -/
  | idle
  /-- The instruction cannot be executed. -/
  | fail (fault : Fault)
  /-- The processor moves on by itself. -/
  | advance (next : Processor)
  /-- The processor moves on once the byte is put. -/
  | emit (byte : UInt8) (next : Processor)
  /-- The processor moves on with a byte that is got. -/
  | receive (next : UInt8 → Except Fault Processor)

/-- The byte a cell value stands for, if it stands for one. -/
def byteOfCell (value : Int) : Except Fault UInt8 :=
  if 0 ≤ value ∧ value ≤ 255 then .ok (UInt8.ofNat value.toNat)
  else .error (.valueOutOfRange value)

namespace Processor

/-- A processor at the start of its program, on a fresh tape. -/
def load (id : Nat) (program : Program) (strategy : BracketStrategy) : Processor where
  id := id
  program := program
  jumps :=
    match strategy with
    | .scan => none
    | .table => some (JumpTable.build program)
  ip := 0
  dp := 0
  tape := Tape.fresh

/-- How the processor finds the partner of a bracket. -/
def strategy (p : Processor) : BracketStrategy :=
  match p.jumps with
  | none => .scan
  | some _ => .table

/-- The whole program has been executed. -/
def isFinished (p : Processor) : Bool :=
  p.ip == p.program.length

/-- The instruction under the instruction pointer. -/
def op? (p : Processor) : Option Op :=
  p.program.get? p.ip

/-- The partner of the `[` under the instruction pointer. -/
def closing (p : Processor) : Except Fault Nat :=
  let found :=
    match p.jumps with
    | some table => table.partner p.ip
    | none => p.program.closingOf? p.ip
  match found with
  | some position => .ok position
  | none => .error (.unmatchedBracket p.id p.ip .opening)

/-- The partner of the `]` under the instruction pointer. -/
def opening (p : Processor) : Except Fault Nat :=
  let found :=
    match p.jumps with
    | some table => table.partner p.ip
    | none => p.program.openingOf? p.ip
  match found with
  | some position => .ok position
  | none => .error (.unmatchedBracket p.id p.ip .closing)

/-- One cell to the left. At the left edge the tape grows, and the new cell takes index 0. -/
def moveLeft (p : Processor) : Processor :=
  if p.dp = 0 then { p with tape := p.tape.growLeft }
  else { p with dp := p.dp - 1 }

/-- One cell to the right. At the right edge the tape grows first. -/
def moveRight (p : Processor) : Processor :=
  if p.dp + 1 = p.tape.size then { p with tape := p.tape.growRight, dp := p.dp + 1 }
  else { p with dp := p.dp + 1 }

/-- Goes on with the next instruction. -/
def next (p : Processor) : Processor :=
  { p with ip := p.ip + 1 }

/-- Puts an input byte into the cell under the data pointer and goes on. -/
def store (p : Processor) (byte : UInt8) : Except Fault Processor :=
  match p.tape.write p.dp (toAscii byte).toNat with
  | .ok tape => .ok { p with tape := tape }.next
  | .error fault => .error fault

/-- What an instruction asks for. A `[` skips its loop if the cell is zero; a `]` always goes back
    to its `[`, where the cell is looked at again. -/
def perform (p : Processor) : Op → Action
  | .increment =>
      match p.tape.increment p.dp with
      | .ok tape => .advance { p with tape := tape }.next
      | .error fault => .fail fault
  | .decrement =>
      match p.tape.decrement p.dp with
      | .ok tape => .advance { p with tape := tape }.next
      | .error fault => .fail fault
  | .left => .advance p.moveLeft.next
  | .right => .advance p.moveRight.next
  | .loopStart =>
      match p.tape.read p.dp with
      | .error fault => .fail fault
      | .ok value =>
          if value = 0 then
            match p.closing with
            | .ok position => .advance { p with ip := position + 1 }
            | .error fault => .fail fault
          else .advance p.next
  | .loopEnd =>
      match p.opening with
      | .ok position => .advance { p with ip := position }
      | .error fault => .fail fault
  | .output =>
      match p.tape.read p.dp with
      | .error fault => .fail fault
      | .ok value =>
          match byteOfCell value with
          | .ok byte => .emit (toAscii byte) p.next
          | .error fault => .fail fault
  | .input => .receive p.store

/-- What the instruction under the instruction pointer asks for. -/
def action (p : Processor) : Action :=
  match p.op? with
  | none => .idle
  | some op => p.perform op

/-- Carries out what an instruction asks for. -/
def carryOut {κ σ : Type} [ByteSink κ] [ByteSource σ] (p : Processor) (channels : Channels κ σ) :
    Action → Outcome Unit Processor κ σ
  | .idle => ⟨.ok (), p, channels⟩
  | .fail fault => ⟨.error fault, p, channels⟩
  | .advance next => ⟨.ok (), next, channels⟩
  | .emit byte next =>
      match ByteSink.put channels.sink byte with
      | (.ok (), sink) => ⟨.ok (), next, { channels with sink := sink }⟩
      | (.error fault, sink) => ⟨.error fault, p, { channels with sink := sink }⟩
  | .receive next =>
      match ByteSource.get channels.source with
      | (.error fault, source) => ⟨.error fault, p, { channels with source := source }⟩
      | (.ok byte, source) =>
          match next byte with
          | .ok next => ⟨.ok (), next, { channels with source := source }⟩
          | .error fault => ⟨.error fault, p, { channels with source := source }⟩

/-- Executes the instruction under the instruction pointer. -/
def tick {κ σ : Type} [ByteSink κ] [ByteSource σ] (p : Processor) (channels : Channels κ σ) :
    Outcome Unit Processor κ σ :=
  p.carryOut channels p.action

/-- A tick that faults leaves the processor as it was. -/
theorem state_of_tick_error {κ σ : Type} [ByteSink κ] [ByteSource σ] {p : Processor}
    {channels : Channels κ σ} {fault : Fault} (h : (p.tick channels).result = .error fault) :
    (p.tick channels).state = p := by
  unfold tick carryOut at h ⊢
  split at h
  · cases h
  · rfl
  · cases h
  · split at h
    · cases h
    · rfl
  · split at h
    · rfl
    · split at h
      · cases h
      · rfl

end Processor

end TapeRing
