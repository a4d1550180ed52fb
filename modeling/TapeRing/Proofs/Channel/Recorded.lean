import TapeRing.Channel.Sink
import TapeRing.Channel.Source
import TapeRing.Proofs.Channel.Likeness
import TapeRing.Proofs.Channel.Stable

/-! # Recorded channels

A recorded channel keeps the bytes that have passed through it, and answers like the channel that
it records. A tick that succeeded can be played again on the bytes that it got: it comes to the
same and puts the same bytes (`replay_tick`). -/

namespace TapeRing

/-- A channel with the bytes that have passed through it. -/
structure Recorded (γ : Type) where
  inner : γ
  bytes : List UInt8

variable {κ σ : Type} [ByteSink κ] [ByteSource σ]

instance : ByteSource (Recorded σ) where
  get r :=
    match ByteSource.get r.inner with
    | (.ok byte, inner) => (.ok byte, ⟨inner, r.bytes ++ [byte]⟩)
    | (.error fault, inner) => (.error fault, ⟨inner, r.bytes⟩)

instance : ByteSink (Recorded κ) where
  put r byte :=
    match ByteSink.put r.inner byte with
    | (.ok (), inner) => (.ok (), ⟨inner, r.bytes ++ [byte]⟩)
    | (.error fault, inner) => (.error fault, ⟨inner, r.bytes⟩)

namespace Recorded

variable {r r' : Recorded κ} {s s' : Recorded σ} {byte : UInt8} {fault : Fault}

omit [ByteSource σ] in
/-- A record does not show in what becomes of the sink. -/
theorem inner_of_put {answer : Except Fault Unit} (h : ByteSink.put r byte = (answer, r')) :
    ByteSink.put r.inner byte = (answer, r'.inner) := by
  simp only [ByteSink.put] at h
  split at h <;> cases h <;> assumption

omit [ByteSource σ] in
theorem bytes_of_put_ok (h : ByteSink.put r byte = (.ok (), r')) :
    r'.bytes = r.bytes ++ [byte] := by
  simp only [ByteSink.put] at h
  split at h <;> cases h
  rfl

omit [ByteSource σ] in
theorem bytes_of_put_error (h : ByteSink.put r byte = (.error fault, r')) : r'.bytes = r.bytes := by
  simp only [ByteSink.put] at h
  split at h <;> cases h
  rfl

omit [ByteSink κ] in
theorem bytes_of_get_ok (h : ByteSource.get s = (.ok byte, s')) : s'.bytes = s.bytes ++ [byte] := by
  simp only [ByteSource.get] at h
  split at h <;> cases h
  rfl

omit [ByteSink κ] in
theorem bytes_of_get_error (h : ByteSource.get s = (.error fault, s')) : s'.bytes = s.bytes := by
  simp only [ByteSource.get] at h
  split at h <;> cases h
  rfl

end Recorded

namespace Channels

/-- The channels with a record that is still empty. -/
def recorded (c : Channels κ σ) : Channels (Recorded κ) (Recorded σ) :=
  ⟨⟨c.sink, []⟩, ⟨c.source, []⟩⟩

/-- The channels without their record. -/
def plain (c : Channels (Recorded κ) (Recorded σ)) : Channels κ σ :=
  ⟨c.sink.inner, c.source.inner⟩

end Channels

/-- Recording does not show in the answers. -/
def recording : Likeness (Recorded κ) (Recorded σ) κ σ where
  Alike c c' := c.plain = c'
  Parts _ := False
  put := by
    rintro c _ rfl byte
    right
    simp only [ByteSink.put, Channels.plain]
    split <;> simp_all
  get := by
    rintro c _ rfl
    right
    simp only [ByteSource.get, Channels.plain]
    split <;> simp_all

namespace Channels

/-- What has passed through the first channels has passed through the second ones before anything
    else. -/
def Continues (c c' : Channels (Recorded κ) (Recorded σ)) : Prop :=
  c.sink.bytes <+: c'.sink.bytes ∧ c.source.bytes <+: c'.source.bytes

omit [ByteSink κ] [ByteSource σ] in
theorem Continues.refl (c : Channels (Recorded κ) (Recorded σ)) : c.Continues c :=
  ⟨List.prefix_refl _, List.prefix_refl _⟩

/-- A record is never taken back. -/
theorem stable_continues (c : Channels (Recorded κ) (Recorded σ)) : Stable c.Continues where
  put := by
    rintro ⟨⟨inner, bytes⟩, source⟩ ⟨hsink, hsource⟩ byte
    simp only [ByteSink.put]
    rcases ByteSink.put inner byte with ⟨fault | done, inner'⟩
    · exact ⟨hsink, hsource⟩
    · exact ⟨hsink.trans (List.prefix_append _ _), hsource⟩
  get := by
    rintro ⟨sink, ⟨inner, bytes⟩⟩ ⟨hsink, hsource⟩
    simp only [ByteSource.get]
    rcases ByteSource.get inner with ⟨fault | byte, inner'⟩
    · exact ⟨hsink, hsource⟩
    · exact ⟨hsink, hsource.trans (List.prefix_append _ _)⟩

end Channels

theorem tick_recorded (p : Processor) (c : Channels κ σ) :
    (p.tick c.recorded).result = (p.tick c).result ∧
      (p.tick c.recorded).state = (p.tick c).state ∧
      (p.tick c.recorded).channels.plain = (p.tick c).channels :=
  (recording.agree_tick (c := c.recorded) rfl p).resolve_left fun ⟨_, _, hparts⟩ => hparts

theorem step_recorded (m : Machine) (c : Channels κ σ) :
    (m.step c.recorded).result = (m.step c).result ∧
      (m.step c.recorded).state = (m.step c).state ∧
      (m.step c.recorded).channels.plain = (m.step c).channels :=
  (recording.agree_step (c := c.recorded) rfl m).resolve_left fun ⟨_, _, hparts⟩ => hparts

namespace ByteBuffer

/-- Appends bytes in order. -/
def pushAll (b : ByteBuffer) (bytes : List UInt8) : ByteBuffer :=
  bytes.foldl push b

theorem pushAll_append (b : ByteBuffer) (bytes more : List UInt8) :
    b.pushAll (bytes ++ more) = (b.pushAll bytes).pushAll more :=
  List.foldl_append

theorem toList_pushAll (bytes : List UInt8) : ∀ b : ByteBuffer,
    (b.pushAll bytes).toList = b.toList ++ bytes := by
  induction bytes with
  | nil => intro b; exact (List.append_nil _).symm
  | cons byte bytes ih =>
    intro b
    show ((b.push byte).pushAll bytes).toList = _
    rw [ih, toList_push, List.append_assoc, List.singleton_append]

end ByteBuffer

namespace Processor

/-- A tick that succeeded comes to the same on a list that begins with the bytes it got, and it
    leaves the rest of the list. -/
theorem replay_tick {p : Processor} {c : Channels κ σ} (h : (p.tick c).result = .ok ())
    (before : ByteBuffer) (rest : List UInt8) :
    let record := (p.tick c.recorded).channels
    p.tick ⟨before, SliceSource.mk (record.source.bytes ++ rest)⟩ =
      ⟨.ok (), (p.tick c).state, ⟨before.pushAll record.sink.bytes, SliceSource.mk rest⟩⟩ := by
  unfold tick at h ⊢
  cases haction : p.action with
  | idle => rfl
  | fail fault => rw [haction] at h; cases h
  | advance next => rfl
  | emit byte next =>
    rw [haction] at h
    simp only [carryOut, Channels.recorded, ByteSink.put] at h ⊢
    generalize ByteSink.put c.sink byte = put at h ⊢
    obtain ⟨result, sink⟩ := put
    cases result with
    | ok done => rfl
    | error fault => cases h
  | receive next =>
    rw [haction] at h
    simp only [carryOut, Channels.recorded, ByteSource.get] at h ⊢
    split at h
    · cases h
    · rename_i byte source hget
      simp only [hget]
      split at h
      · rename_i after hnext
        simp only [hnext, List.nil_append, List.singleton_append, SliceSource.get]
        rfl
      · cases h

end Processor

end TapeRing
