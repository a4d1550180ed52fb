import TapeRing.Dealing
import TapeRing.Machine.Config
import TapeRing.Processor

/-! # Machines

A machine is a ring of processors with a cursor. `turn` says whose turn it is, by the halt
policy alone; `step` carries the turn out. A step that faults changes no processor and no count,
but it leaves the cursor at the processor that faulted. -/

namespace TapeRing

/-- A ring of processors, the place of the next turn, and the number of ticks made. -/
structure Machine where
  config : MachineConfig
  processors : List Processor
  cursor : Nat
  ticks : Nat
deriving DecidableEq, Repr

/-- Whose turn it is. -/
inductive Turn
  /-- Nobody's: the machine stops, on a processor or on all of them. -/
  | halt (on : Option Nat)
  /-- The processor at an index of the ring. -/
  | tick (index : Nat) (processor : Processor)

/-- What a step that did not fault comes to. -/
inductive Step
  | ticked (processor : Nat)
  | halted (on : Option Nat)
deriving DecidableEq, Repr

namespace Machine

/-- A machine at the start of a program that is dealt to its processors. -/
def assemble (config : MachineConfig) (source : String) : Except Fault Machine :=
  match (Program.parse source).deal config.processors with
  | .error fault => .error fault
  | .ok parts => .ok {
      config := config
      processors := parts.zipIdx.map fun (part, id) => Processor.load id part config.brackets
      cursor := 0
      ticks := 0 }

/-- All processors are finished. -/
def allFinished (m : Machine) : Bool :=
  m.processors.all Processor.isFinished

/-- The processors with their indices, in the order in which the cursor meets them. -/
def sweep (m : Machine) : List (Processor × Nat) :=
  m.processors.zipIdx.drop m.cursor ++ m.processors.zipIdx.take m.cursor

/-- Whose turn it is: that of the processor under the cursor, or that of the first processor of
    the sweep that is not finished. -/
def turn (m : Machine) : Turn :=
  match m.config.halt with
  | .firstFinished =>
      match m.sweep.head? with
      | none => .halt none
      | some (p, index) => if p.isFinished then .halt (some index) else .tick index p
  | .allFinished =>
      match m.sweep.find? (fun (p, _) => !p.isFinished) with
      | none => .halt none
      | some (p, index) => .tick index p

/-- The index after an index of the ring. -/
def after (m : Machine) (index : Nat) : Nat :=
  (index + 1) % m.processors.length

/-- What the next step asks for, if the machine does not stop. -/
def action? (m : Machine) : Option Action :=
  match m.turn with
  | .halt _ => none
  | .tick _ p => some p.action

/-- Makes one turn: ticks the processor whose turn it is, or reports that the machine stops. -/
def step {κ σ : Type} [ByteSink κ] [ByteSource σ] (m : Machine) (channels : Channels κ σ) :
    Outcome Step Machine κ σ :=
  match m.turn with
  | .halt on => ⟨.ok (.halted on), m, channels⟩
  | .tick index p =>
      match p.tick channels with
      | ⟨.ok (), p, channels⟩ =>
          ⟨.ok (.ticked index),
            { m with
                processors := m.processors.set index p
                cursor := m.after index
                ticks := m.ticks + 1 },
            channels⟩
      | ⟨.error fault, _, channels⟩ => ⟨.error fault, { m with cursor := index }, channels⟩

theorem config_step {κ σ : Type} [ByteSink κ] [ByteSource σ] (m : Machine)
    (channels : Channels κ σ) : (m.step channels).state.config = m.config := by
  unfold step
  split
  · rfl
  · split <;> rfl

/-- No step changes the number of processors. -/
theorem length_processors_step {κ σ : Type} [ByteSink κ] [ByteSource σ] (m : Machine)
    (channels : Channels κ σ) :
    (m.step channels).state.processors.length = m.processors.length := by
  unfold step
  split
  · rfl
  · split
    · exact List.length_set
    · rfl

/-- A step that faults changes no processor and no count. -/
theorem state_of_step_error {κ σ : Type} [ByteSink κ] [ByteSource σ] {m : Machine}
    {channels : Channels κ σ} {fault : Fault} (h : (m.step channels).result = .error fault) :
    (m.step channels).state = { m with cursor := (m.step channels).state.cursor } := by
  unfold step at h ⊢
  split at h
  · cases h
  · split at h
    · cases h
    · rfl

end Machine

end TapeRing
