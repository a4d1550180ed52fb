import TapeRing.Channel.Basic

/-! # Byte sources

Three sources: one without any bytes, one over a list of bytes, and one over a reader that can be
interrupted and can fail. An interrupted read is repeated, so it never shows. -/

namespace TapeRing

/-- The source that is always exhausted. -/
structure NullSource where
deriving DecidableEq, Repr

instance : ByteSource NullSource where
  get s := (.error .inputExhausted, s)

/-- The source that hands out the bytes of a list. -/
structure SliceSource where
  unread : List UInt8
deriving DecidableEq, Repr

namespace SliceSource

/-- The number of bytes not handed out yet. -/
def remaining (s : SliceSource) : Nat := s.unread.length

/-- Takes the first byte of the list. -/
def get : SliceSource → Except Fault UInt8 × SliceSource
  | ⟨[]⟩ => (.error .inputExhausted, ⟨[]⟩)
  | ⟨byte :: rest⟩ => (.ok byte, ⟨rest⟩)

instance : ByteSource SliceSource where
  get := get

end SliceSource

/-- What one attempt to read a byte comes to. A failure is one of any kind but the one by which a
    reader says that its input has ended: that is the end of input, which is no event. -/
inductive ReadEvent
  | byte (value : UInt8)
  | interrupt
  | failure (text : String)
deriving DecidableEq, Repr

/-- The source over a reader whose attempts come to the given events, and then to the end of the
    input. -/
structure ReaderSource where
  events : List ReadEvent
deriving DecidableEq, Repr

namespace ReaderSource

/-- The outcome of a read that is repeated after each interrupt, with the events that are left. -/
def next : List ReadEvent → Except Fault UInt8 × List ReadEvent
  | [] => (.error .inputExhausted, [])
  | .byte value :: rest => (.ok value, rest)
  | .interrupt :: rest => next rest
  | .failure text :: rest => (.error (.channel text), rest)

/-- Reads one byte. -/
def get (s : ReaderSource) : Except Fault UInt8 × ReaderSource :=
  match next s.events with
  | (result, rest) => (result, ⟨rest⟩)

instance : ByteSource ReaderSource where
  get := get

end ReaderSource

end TapeRing
