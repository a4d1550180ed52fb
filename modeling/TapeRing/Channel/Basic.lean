import TapeRing.Fault

/-! # Channels

A machine talks to the world through two channels: a byte source for `,` and a byte sink for `.`.
Both are interfaces over a state of their own, and both may fail. A failed call still gives the
state it leaves behind, because a byte can be gone, or written, although the call failed. -/

namespace TapeRing

/-- A state from which bytes can be taken. -/
class ByteSource (σ : Type) where
  /-- Takes the next byte. -/
  get : σ → Except Fault UInt8 × σ

/-- A state to which bytes can be given. -/
class ByteSink (κ : Type) where
  /-- Gives one byte. -/
  put : κ → UInt8 → Except Fault Unit × κ

/-- The sink and the source of a machine. -/
structure Channels (κ σ : Type) where
  sink : κ
  source : σ
deriving DecidableEq, Repr

/-- What an operation on a state of type `μ` leaves behind: its result or fault, the state, and
    the channels. -/
structure Outcome (ρ μ κ σ : Type) where
  result : Except Fault ρ
  state : μ
  channels : Channels κ σ

/-- A source that is one of two kinds. -/
instance {α β : Type} [ByteSource α] [ByteSource β] : ByteSource (α ⊕ β) where
  get
    | .inl a => match ByteSource.get a with
      | (result, a') => (result, .inl a')
    | .inr b => match ByteSource.get b with
      | (result, b') => (result, .inr b')

/-- A sink that is one of two kinds. -/
instance {α β : Type} [ByteSink α] [ByteSink β] : ByteSink (α ⊕ β) where
  put
    | .inl a, byte => match ByteSink.put a byte with
      | (result, a') => (result, .inl a')
    | .inr b, byte => match ByteSink.put b byte with
      | (result, b') => (result, .inr b')

end TapeRing
