import TapeRing.Machine.Run

/-! # Attempted ticks

The ticks that a run attempts, in order: every tick that succeeds, and the one that faults, if
any. They are read off the machine before each step. -/

namespace TapeRing

/-- A tick that is about to be made. -/
structure Attempt where
  processor : Nat
  ip : Nat
  op : Op
  dp : Nat
deriving DecidableEq, Repr

/-- The tick a processor is about to make. -/
def Processor.attempt? (p : Processor) : Option Attempt :=
  p.op?.map fun op => { processor := p.id, ip := p.ip, op := op, dp := p.dp }

namespace Machine

/-- The tick a machine is about to make. -/
def attempt? (m : Machine) : Option Attempt :=
  match m.turn with
  | .halt _ => none
  | .tick _ p => p.attempt?

/-- The attempts of a run of at most `limit` steps after those `made` before, the latest first. -/
def attemptsAfter {κ σ : Type} [ByteSink κ] [ByteSource σ] :
    (limit : Nat) → Machine → Channels κ σ → (made : List Attempt) → List Attempt
  | 0, _, _, made => made
  | limit + 1, m, channels, made =>
      let made := m.attempt?.toList ++ made
      match m.step channels with
      | ⟨.ok (.ticked _), m, channels⟩ => attemptsAfter limit m channels made
      | _ => made

/-- The attempts of a run of at most `limit` steps, in order. -/
def attempts {κ σ : Type} [ByteSink κ] [ByteSource σ] (limit : Nat) (m : Machine)
    (channels : Channels κ σ) : List Attempt :=
  (m.attemptsAfter limit channels []).reverse

end Machine

end TapeRing
