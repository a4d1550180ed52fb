import TapeRing.Channel.Basic

/-! # Byte sinks

Two sinks: a buffer that takes every byte, and a sink over a writer. The latter writes each byte
and then flushes; it fails when the writer fails, when the writer accepts nothing, and when the
flush fails, in which case the byte is written all the same. `CappedWriter` is a writer of
limited capacity. -/

namespace TapeRing

/-- The sink that keeps every byte. -/
structure ByteBuffer where
  bytes : Array UInt8
deriving DecidableEq, Repr

namespace ByteBuffer

/-- The buffer without bytes. -/
def empty : ByteBuffer := ⟨#[]⟩

/-- The bytes in the order in which they were put. -/
def toList (b : ByteBuffer) : List UInt8 := b.bytes.toList

/-- The number of bytes. -/
def size (b : ByteBuffer) : Nat := b.bytes.size

/-- Appends a byte. -/
def push (b : ByteBuffer) (byte : UInt8) : ByteBuffer := ⟨b.bytes.push byte⟩

@[simp] theorem toList_empty : empty.toList = [] := rfl

@[simp] theorem toList_push (b : ByteBuffer) (byte : UInt8) :
    (b.push byte).toList = b.toList ++ [byte] := by
  simp [push, toList]

@[simp] theorem size_push (b : ByteBuffer) (byte : UInt8) :
    (b.push byte).size = b.size + 1 := by
  simp [push, size]

theorem length_toList (b : ByteBuffer) : b.toList.length = b.size := by
  simp [toList, size]

/-- A buffer is determined by its bytes in order. -/
theorem eq_of_toList_eq {b b' : ByteBuffer} (h : b.toList = b'.toList) : b = b' := by
  cases b
  cases b'
  simpa [toList, Array.toList_inj] using h

instance : ByteSink ByteBuffer where
  put b byte := (.ok (), b.push byte)

end ByteBuffer

/-- What one attempt to write a byte comes to. -/
inductive WriteResult
  | accepted
  | refused
  | failure (text : String)
deriving DecidableEq, Repr

/-- A state to which bytes can be written, to arrive at the latest when it is flushed. -/
class Writer (ω : Type) where
  /-- Attempts to write a byte. -/
  write : ω → UInt8 → WriteResult × ω
  /-- Flushes; a text says why that failed. -/
  flush : ω → Option String × ω

/-- The sink over a writer. -/
structure WriterSink (ω : Type) where
  writer : ω
deriving DecidableEq, Repr

/-- Writes a byte and flushes. -/
def WriterSink.put {ω : Type} [Writer ω] (s : WriterSink ω) (byte : UInt8) :
    Except Fault Unit × WriterSink ω :=
  match Writer.write s.writer byte with
  | (.failure text, w) => (.error (.channel text), ⟨w⟩)
  | (.refused, w) => (.error (.channel "failed to write whole buffer"), ⟨w⟩)
  | (.accepted, w) =>
      match Writer.flush w with
      | (some text, w) => (.error (.channel text), ⟨w⟩)
      | (none, w) => (.ok (), ⟨w⟩)

instance {ω : Type} [Writer ω] : ByteSink (WriterSink ω) where
  put := WriterSink.put

/-- How a writer behaves that has reached its limit. -/
inductive Overflow
  /-- The write fails. -/
  | failWrite
  /-- The write accepts nothing. -/
  | refuse
  /-- The write works and the flush after it fails. -/
  | failFlush
deriving DecidableEq, Repr

/-- A writer that holds up to `limit` bytes, or any number without a limit. -/
structure CappedWriter where
  held : ByteBuffer
  limit : Option Nat
  overflow : Overflow
deriving DecidableEq, Repr

namespace CappedWriter

/-- Nothing more fits in. -/
def isFull (w : CappedWriter) : Bool :=
  match w.limit with
  | none => false
  | some n => n ≤ w.held.size

/-- More is held than fits in. -/
def isOverfull (w : CappedWriter) : Bool :=
  match w.limit with
  | none => false
  | some n => n < w.held.size

/-- Attempts to write a byte. -/
def write (w : CappedWriter) (byte : UInt8) : WriteResult × CappedWriter :=
  match w.isFull, w.overflow with
  | true, .failWrite => (.failure "sink full", w)
  | true, .refuse => (.refused, w)
  | _, _ => (.accepted, { w with held := w.held.push byte })

/-- Flushes. -/
def flush (w : CappedWriter) : Option String × CappedWriter :=
  match w.isOverfull, w.overflow with
  | true, .failFlush => (some "flush failed", w)
  | _, _ => (none, w)

instance : Writer CappedWriter where
  write := write
  flush := flush

end CappedWriter

end TapeRing
