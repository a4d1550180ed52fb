import TapeRing.Proofs.Channel.Events
import TapeRing.Proofs.Channel.Recorded

/-! # What channels hold

A supply is what a source has left to deliver, a holding is what a sink has taken. What has passed
through a recorded channel is missing from the one and has been added to the other
(`Supply.stable`, `Holding.stable`). A sink over a writer has no holding in this sense, because a
byte is out when the flush after it fails; so the calls of a writer are kept in a journal
(`Journaled`). -/

namespace TapeRing

/-! ## Supplies and holdings -/

/-- What a source has left. A get takes the first byte of it, and one that fails takes nothing. -/
structure Supply (σ : Type) [ByteSource σ] where
  left : σ → List UInt8
  get_ok : ∀ {s s' : σ} {byte : UInt8}, ByteSource.get s = (.ok byte, s') →
    left s = byte :: left s'
  get_error : ∀ {s s' : σ} {fault : Fault}, ByteSource.get s = (.error fault, s') →
    left s' = left s

/-- What a sink has taken. A put adds its byte, and one that fails adds nothing. -/
structure Holding (κ : Type) [ByteSink κ] where
  held : κ → List UInt8
  put_ok : ∀ {s s' : κ} {byte : UInt8}, ByteSink.put s byte = (.ok (), s') →
    held s' = held s ++ [byte]
  put_error : ∀ {s s' : κ} {byte : UInt8} {fault : Fault},
    ByteSink.put s byte = (.error fault, s') → held s' = held s

/-- A list has its unread bytes left. -/
def SliceSource.supply : Supply SliceSource where
  left s := s.unread
  get_ok := by
    rintro ⟨_ | ⟨byte, rest⟩⟩ s' value h <;> cases h
    rfl
  get_error := by
    rintro ⟨_ | ⟨byte, rest⟩⟩ s' fault h <;> cases h
    rfl

/-- A reader has the bytes among its events left. -/
def ReaderSource.supply : Supply ReaderSource where
  left s := ReadEvent.bytes s.events
  get_ok := by
    intro s s' byte h
    rcases get_cases h with ⟨taken, hevents, htakes⟩ | ⟨hend, -⟩
    · cases htakes with
      | byte hbytes _ =>
        rw [hevents, ReadEvent.bytes_append, hbytes]
        rfl
    · cases hend
  get_error := by
    intro s s' fault h
    rcases get_cases h with ⟨taken, hevents, htakes⟩ | ⟨-, hnone, hbytes, -⟩
    · cases htakes with
      | failure hbytes _ =>
        rw [hevents, ReadEvent.bytes_append, hbytes]
        rfl
    · rw [hnone, hbytes]
      rfl

/-- A buffer holds its bytes. -/
def ByteBuffer.holding : Holding ByteBuffer where
  held := toList
  put_ok := by
    rintro b _ byte ⟨⟩
    exact toList_push b byte
  put_error := nofun

section Recorded

variable {κ σ : Type} [ByteSink κ] [ByteSource σ]

/-- What has been delivered, and what is left, is what was left at first. -/
theorem Supply.stable (supply : Supply σ) (all : List UInt8) :
    Channels.Stable fun c : Channels (Recorded κ) (Recorded σ) =>
      all = c.source.bytes ++ supply.left c.source.inner where
  put h _ := h
  get := by
    rintro ⟨sink, ⟨inner, bytes⟩⟩ rfl
    simp only [ByteSource.get]
    rcases hget : ByteSource.get inner with ⟨fault | byte, inner'⟩
    · simp [supply.get_error hget]
    · simp [supply.get_ok hget]

/-- What has been put has been added to what was held at first. -/
theorem Holding.stable (holding : Holding κ) (before : List UInt8) :
    Channels.Stable fun c : Channels (Recorded κ) (Recorded σ) =>
      holding.held c.sink.inner = before ++ c.sink.bytes where
  put := by
    rintro ⟨⟨inner, bytes⟩, source⟩ h byte
    simp only [ByteSink.put] at h ⊢
    rcases hput : ByteSink.put inner byte with ⟨fault | done, inner'⟩
    · simp [holding.put_error hput, h]
    · simp [holding.put_ok hput, h]
  get h := h

end Recorded

/-! ## Journals of writers -/

/-- A writer with the bytes that it has accepted and the text of a flush that has failed. -/
structure Journaled (ω : Type) where
  inner : ω
  accepted : List UInt8 := []
  unflushed : Option String := none

variable {ω : Type} [Writer ω]

instance : Writer (Journaled ω) where
  write w byte :=
    match Writer.write w.inner byte with
    | (.accepted, inner) => (.accepted, { w with inner := inner, accepted := w.accepted ++ [byte] })
    | (answer, inner) => (answer, { w with inner := inner })
  flush w :=
    match Writer.flush w.inner with
    | (none, inner) => (none, { w with inner := inner })
    | (some text, inner) => (some text, { w with inner := inner, unflushed := some text })

namespace WriterSink

/-- The sink over the writer without its journal. -/
def plain (s : WriterSink (Journaled ω)) : WriterSink ω := ⟨s.writer.inner⟩

/-- The journal does not show in the answers. -/
theorem put_plain (s : WriterSink (Journaled ω)) (byte : UInt8) :
    s.plain.put byte = ((s.put byte).1, (s.put byte).2.plain) := by
  simp only [put, plain, Writer.write, Writer.flush]
  rcases Writer.write s.writer.inner byte with ⟨_ | _ | text, inner⟩
  · dsimp only
    rcases Writer.flush inner with ⟨_ | text, inner'⟩ <;> rfl
  · rfl
  · rfl

/-- What a put comes to in the journal, by its result: the byte is accepted, or it is not, or it is
    and the flush after it fails. -/
theorem put_cases (s : WriterSink (Journaled ω)) (byte : UInt8) :
    ((s.put byte).1 = .ok () ∧
        (s.put byte).2.writer.accepted = s.writer.accepted ++ [byte] ∧
        (s.put byte).2.writer.unflushed = s.writer.unflushed) ∨
      (∃ fault, (s.put byte).1 = .error fault ∧
        (s.put byte).2.writer.accepted = s.writer.accepted ∧
        (s.put byte).2.writer.unflushed = s.writer.unflushed) ∨
      ∃ text, (s.put byte).1 = .error (.channel text) ∧
        (s.put byte).2.writer.accepted = s.writer.accepted ++ [byte] ∧
        (s.put byte).2.writer.unflushed = some text := by
  simp only [put, Writer.write, Writer.flush]
  rcases Writer.write s.writer.inner byte with ⟨_ | _ | text, inner⟩
  · dsimp only
    rcases Writer.flush inner with ⟨_ | text, inner'⟩
    · exact Or.inl ⟨rfl, rfl, rfl⟩
    · exact Or.inr (Or.inr ⟨text, rfl, rfl, rfl⟩)
  · exact Or.inr (Or.inl ⟨_, rfl, rfl, rfl⟩)
  · exact Or.inr (Or.inl ⟨_, rfl, rfl, rfl⟩)

end WriterSink

/-- The channels to a writer, with a journal that is still empty. -/
def Channels.journaled {σ : Type} (c : Channels (WriterSink ω) σ) :
    Channels (WriterSink (Journaled ω)) σ :=
  ⟨⟨⟨c.sink.writer, [], none⟩⟩, c.source⟩

/-- A journal does not show in the answers. -/
def journaling {σ : Type} [ByteSource σ] :
    Likeness (WriterSink (Journaled ω)) σ (WriterSink ω) σ where
  Alike c c' := c' = ⟨c.sink.plain, c.source⟩
  Parts _ := False
  put := by
    rintro c _ rfl byte
    have hput := c.sink.put_plain byte
    right
    simp only [ByteSink.put, hput, and_self]
  get := by
    rintro c _ rfl
    exact Or.inr ⟨rfl, rfl⟩

end TapeRing
