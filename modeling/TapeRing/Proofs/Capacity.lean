import TapeRing.Channel.Sink
import TapeRing.Channel.Source
import TapeRing.Proofs.Machine.Assembly
import TapeRing.Proofs.Machine.Returns
import TapeRing.Proofs.Transcript

/-! # Writers of limited capacity

A machine on a writer that can hold only so many bytes does the same as on a buffer, up to the tick
that would put one byte too many. That tick fails and changes nothing but the cursor, and the writer
holds as much of what the buffer comes to hold as there is room for
(`capped_writer_holds_what_fits`). -/

namespace TapeRing

/-- How a writer reports that it has reached its limit. -/
def Overflow.text : Overflow → String
  | .failWrite => "sink full"
  | .refuse => "failed to write whole buffer"
  | .failFlush => "flush failed"

/-- The number of bytes that a writer with a limit comes to hold. -/
def Overflow.room (limit : Nat) : Overflow → Nat
  | .failWrite | .refuse => limit
  | .failFlush => limit + 1

/-- What is held after an attempt to write one byte too many. -/
def Overflow.kept (held : ByteBuffer) (byte : UInt8) : Overflow → ByteBuffer
  | .failWrite | .refuse => held
  | .failFlush => held.push byte

/-- A writer with this limit can hold these bytes. -/
def Fits (limit : Option Nat) (b : ByteBuffer) : Prop :=
  ∀ n, limit = some n → b.size ≤ n

/-- The channels with a writer that holds what the buffer holds. -/
def Channels.capped {σ : Type} (limit : Option Nat) (overflow : Overflow)
    (c : Channels ByteBuffer σ) : Channels (WriterSink CappedWriter) σ :=
  ⟨⟨⟨c.sink, limit, overflow⟩⟩, c.source⟩

theorem Overflow.toList_kept (overflow : Overflow) (held : ByteBuffer) (byte : UInt8) :
    (overflow.kept held byte).toList = (held.toList ++ [byte]).take (overflow.room held.size) := by
  rw [← ByteBuffer.length_toList]
  cases overflow with
  | failWrite => exact (List.take_left).symm
  | refuse => exact (List.take_left).symm
  | failFlush =>
    rw [kept, ByteBuffer.toList_push, room]
    exact (List.take_of_length_le (by simp)).symm

theorem Fits.mono {limit : Option Nat} {b b' : ByteBuffer} (h : Fits limit b')
    (hbegins : b.toList <+: b'.toList) : Fits limit b := by
  intro n hn
  have hle := hbegins.length_le
  rw [ByteBuffer.length_toList, ByteBuffer.length_toList] at hle
  exact Nat.le_trans hle (h n hn)

theorem Overflow.room_le (limit : Nat) (overflow : Overflow) :
    overflow.room limit ≤ limit + 1 := by
  cases overflow <;> simp [room]

/-- The writer has no room for what comes after the byte that was one too many. -/
theorem Overflow.take_room {bytes later : List UInt8} {limit : Nat} (overflow : Overflow)
    (hlength : bytes.length = limit + 1) (hbegins : bytes <+: later) :
    later.take (overflow.room limit) = bytes.take (overflow.room limit) := by
  obtain ⟨more, rfl⟩ := hbegins
  apply List.take_append_of_le_length
  rw [hlength]
  exact overflow.room_le limit

/-- A put on a writer works like one on the buffer, unless the writer is full. -/
theorem put_capped {limit : Option Nat} {b : ByteBuffer} (hfits : Fits limit b)
    (overflow : Overflow) (byte : UInt8) :
    Fits limit (b.push byte) ∧
        ByteSink.put (WriterSink.mk (CappedWriter.mk b limit overflow)) byte =
          (.ok (), ⟨⟨b.push byte, limit, overflow⟩⟩) ∨
      limit = some b.size ∧
        ByteSink.put (WriterSink.mk (CappedWriter.mk b limit overflow)) byte =
          (.error (.channel overflow.text), ⟨⟨overflow.kept b byte, limit, overflow⟩⟩) := by
  cases limit with
  | none => exact Or.inl ⟨nofun, rfl⟩
  | some n =>
    have hle : b.size ≤ n := hfits n rfl
    by_cases hfull : b.size = n
    · subst hfull
      right
      cases overflow <;>
        simp [ByteSink.put, WriterSink.put, Writer.write, Writer.flush, CappedWriter.write,
          CappedWriter.flush, CappedWriter.isFull, CappedWriter.isOverfull, Overflow.text,
          Overflow.kept]
    · left
      have hfits' : Fits (some n) (b.push byte) := by
        rintro _ ⟨⟩
        rw [ByteBuffer.size_push]
        omega
      have hroom : ¬ n ≤ b.size := by omega
      have hroom' : ¬ n < b.size + 1 := by omega
      refine ⟨hfits', ?_⟩
      cases overflow <;>
        simp [ByteSink.put, WriterSink.put, Writer.write, Writer.flush, CappedWriter.write,
          CappedWriter.flush, CappedWriter.isFull, CappedWriter.isOverfull, hroom, hroom']

section Calls

variable {σ : Type} [ByteSource σ] {limit : Option Nat}

/-- A tick on the writer does what it does on the buffer, unless it puts one byte too many. -/
theorem Processor.tick_capped (p : Processor) {c : Channels ByteBuffer σ}
    (hfits : Fits limit c.sink) (overflow : Overflow) :
    Fits limit (p.tick c).channels.sink ∧
        p.tick (c.capped limit overflow) =
          ⟨(p.tick c).result, (p.tick c).state, (p.tick c).channels.capped limit overflow⟩ ∨
      ∃ byte, limit = some c.sink.size ∧ (p.tick c).result = .ok () ∧
        (p.tick c).channels = ⟨c.sink.push byte, c.source⟩ ∧
        p.tick (c.capped limit overflow) =
          ⟨.error (.channel overflow.text), p,
            Channels.capped limit overflow ⟨overflow.kept c.sink byte, c.source⟩⟩ := by
  unfold tick
  cases p.action with
  | idle => exact Or.inl ⟨hfits, rfl⟩
  | fail fault => exact Or.inl ⟨hfits, rfl⟩
  | advance next => exact Or.inl ⟨hfits, rfl⟩
  | emit byte next =>
    simp only [carryOut, Channels.capped]
    rcases put_capped hfits overflow byte with ⟨hfits', hput⟩ | ⟨hlimit, hput⟩
    · rw [hput]
      exact Or.inl ⟨hfits', rfl⟩
    · rw [hput]
      exact Or.inr ⟨byte, hlimit, rfl, rfl, rfl⟩
  | receive next =>
    left
    simp only [carryOut, Channels.capped]
    rcases ByteSource.get c.source with ⟨fault | byte, source⟩
    · exact ⟨hfits, rfl⟩
    · dsimp only
      cases next byte with
      | ok after => exact ⟨hfits, rfl⟩
      | error fault => exact ⟨hfits, rfl⟩

namespace Machine

/-- A step on the writer does what it does on the buffer, unless it puts one byte too many. -/
theorem step_capped (m : Machine) {c : Channels ByteBuffer σ} (hfits : Fits limit c.sink)
    (overflow : Overflow) :
    Fits limit (m.step c).channels.sink ∧
        m.step (c.capped limit overflow) =
          ⟨(m.step c).result, (m.step c).state, (m.step c).channels.capped limit overflow⟩ ∨
      ∃ index byte, limit = some c.sink.size ∧ (m.step c).result = .ok (.ticked index) ∧
        (m.step c).channels = ⟨c.sink.push byte, c.source⟩ ∧
        m.step (c.capped limit overflow) =
          ⟨.error (.channel overflow.text), { m with cursor := index },
            Channels.capped limit overflow ⟨overflow.kept c.sink byte, c.source⟩⟩ := by
  cases hturn : m.turn with
  | halt on =>
    rw [step_of_halt hturn, step_of_halt hturn]
    exact Or.inl ⟨hfits, rfl⟩
  | tick index p =>
    rw [step_of_tick hturn, step_of_tick hturn]
    rcases p.tick_capped hfits overflow with ⟨hfits', heq⟩ | ⟨byte, hlimit, hok, hchannels, heq⟩
    · rw [heq]
      cases (p.tick c).result with
      | ok done => exact Or.inl ⟨hfits', rfl⟩
      | error fault => exact Or.inl ⟨hfits', rfl⟩
    · rw [heq, hok]
      exact Or.inr ⟨index, byte, hlimit, rfl, hchannels, rfl⟩

/-- What a buffer holds stays the beginning of what it holds later. -/
theorem stable_begins (bytes : List UInt8) :
    Channels.Stable fun c : Channels ByteBuffer σ => bytes <+: c.sink.toList where
  put h byte := by
    simp only [ByteSink.put, ByteBuffer.toList_push]
    exact h.trans (List.prefix_append _ _)
  get h := h

/-! ## Calls of `step` -/

theorem prefix_transcript (m : Machine) (c : Channels ByteBuffer σ) (count more : Nat) :
    (transcript step count m c).channels.sink.toList <+:
      (transcript step (count + more) m c).channels.sink.toList := by
  induction more with
  | zero => exact List.prefix_refl _
  | succ more ih =>
    rw [← Nat.add_assoc, transcript_succ]
    exact (stable_begins _).step ih _

/-- As long as all bytes fit, calls of `step` come to the same on the writer. -/
theorem transcript_capped (m : Machine) (c : Channels ByteBuffer σ) (overflow : Overflow) :
    ∀ count, Fits limit (transcript step count m c).channels.sink →
      transcript step count m (c.capped limit overflow) =
        ⟨(transcript step count m c).results, (transcript step count m c).state,
          (transcript step count m c).channels.capped limit overflow⟩ := by
  intro count
  induction count with
  | zero => intro _; rfl
  | succ count ih =>
    intro hfits
    have hbefore : Fits limit (transcript step count m c).channels.sink :=
      hfits.mono (prefix_transcript m c count 1)
    have hsame := ih hbefore
    rw [transcript_succ] at hfits
    rw [transcript_succ, transcript_succ, hsame]
    dsimp only at hfits ⊢
    rcases step_capped (transcript step count m c).state hbefore overflow with
      ⟨-, heq⟩ | ⟨index, byte, hlimit, -, hchannels, -⟩
    · rw [heq]
    · rw [hchannels] at hfits
      have hle := hfits _ hlimit
      rw [ByteBuffer.size_push] at hle
      exact absurd hle (Nat.not_succ_le_self _)

/-- The call that puts one byte too many on the buffer fails on the writer. -/
theorem transcript_overflow (m : Machine) (c : Channels ByteBuffer σ) (overflow : Overflow)
    {n count : Nat} (hfits : (transcript step count m c).channels.sink.size ≤ n)
    (hmore : n < (transcript step (count + 1) m c).channels.sink.size) :
    let before := transcript step count m c
    let after := transcript step (count + 1) m (c.capped (some n) overflow)
    before.channels.sink.size = n ∧
      (transcript step (count + 1) m c).channels.sink.size = n + 1 ∧
      ∃ index, (transcript step (count + 1) m c).results = before.results ++ [.ok (.ticked index)] ∧
        after.results = before.results ++ [.error (.channel overflow.text)] ∧
        after.state = { before.state with cursor := index } ∧
        after.channels.source = before.channels.source ∧
        after.channels.sink.writer.held.toList =
          (transcript step (count + 1) m c).channels.sink.toList.take (overflow.room n) := by
  intro before after
  have hbefore : Fits (some n) before.channels.sink := by
    rintro _ ⟨⟩
    exact hfits
  have hafter : after = _ := transcript_succ _ _ _ _
  rw [transcript_capped m c overflow count hbefore] at hafter
  rw [transcript_succ] at hmore ⊢
  dsimp only at hmore hafter ⊢
  rcases step_capped before.state hbefore overflow with
    ⟨hfits', -⟩ | ⟨index, byte, hlimit, hresult, hchannels, heq⟩
  · exact absurd hmore (Nat.not_lt_of_le (hfits' n rfl))
  · obtain rfl : n = before.channels.sink.size := Option.some.inj hlimit
    rw [hafter, heq, hresult, hchannels]
    refine ⟨rfl, ByteBuffer.size_push _ _, index, rfl, rfl, rfl, rfl, ?_⟩
    rw [ByteBuffer.toList_push]
    exact overflow.toList_kept _ byte

/-! ## Runs -/

/-- A run on the writer comes to what it comes to on the buffer, or it ends before the tick that
    puts one byte too many. -/
theorem run_capped (overflow : Overflow) : ∀ (steps : Nat) (m : Machine)
    (c : Channels ByteBuffer σ), Fits limit c.sink →
    Fits limit (m.run steps c).channels.sink ∧
        m.run steps (c.capped limit overflow) =
          ⟨(m.run steps c).result, (m.run steps c).state,
            (m.run steps c).channels.capped limit overflow⟩ ∨
      ∃ n count m' c' index, limit = some n ∧ Strides count m c m' c' ∧ c'.sink.size = n ∧
        n < (m.run steps c).channels.sink.size ∧
        (m.run steps (c.capped limit overflow)).result = .error (.channel overflow.text) ∧
        (m.run steps (c.capped limit overflow)).state = { m' with cursor := index } ∧
        (m.run steps (c.capped limit overflow)).channels.source = c'.source ∧
        (m.run steps (c.capped limit overflow)).channels.sink.writer.held.toList =
          (m.run steps c).channels.sink.toList.take (overflow.room n) := by
  intro steps
  induction steps with
  | zero => intro m c hfits; exact Or.inl ⟨hfits, rfl⟩
  | succ steps ih =>
    intro m c hfits
    have hstep := step_capped m hfits overflow
    rcases step_cases m c with
      ⟨on, hturn, -⟩ | ⟨index, p, -, -, ⟨-, heq⟩ | ⟨fault, -, heq⟩⟩
    · rw [run_of_halt hturn, run_of_halt hturn]
      exact Or.inl ⟨hfits, rfl⟩
    · obtain ⟨next, d, heq⟩ : ∃ next d, m.step c = ⟨.ok (.ticked index), next, d⟩ := ⟨_, _, heq⟩
      rw [heq] at hstep
      rw [run_of_ticked heq]
      rcases hstep with ⟨hfits', heq'⟩ | ⟨_, byte, hlimit, ⟨⟩, rfl, heq'⟩
      · rw [run_of_ticked heq']
        rcases ih _ _ hfits' with
          ⟨hfits'', hrun⟩ | ⟨n, count, m', c', last, hlimit, hstrides, hsize, hmore, hresult, hrest⟩
        · rw [hrun]
          exact Or.inl ⟨hfits'', rfl⟩
        · refine Or.inr ⟨n, count + 1, m', c', last, hlimit, .stride heq hstrides, hsize, hmore, ?_,
            hrest⟩
          rw [Outcome.map, hresult]
          rfl
      · right
        rw [run_of_error heq']
        -- Only the run on the buffer goes on from here, and what the buffer holds only grows.
        have hbegins := (stable_begins (c.sink.push byte).toList).run steps next
          (c := Channels.mk (c.sink.push byte) c.source) (List.prefix_refl _)
        have hlength : (c.sink.push byte).toList.length = c.sink.size + 1 := by
          rw [ByteBuffer.length_toList, ByteBuffer.size_push]
        have hmore := hbegins.length_le
        rw [hlength, ByteBuffer.length_toList] at hmore
        refine ⟨c.sink.size, 0, m, c, index, hlimit, .rest, rfl, hmore, rfl, rfl, rfl, ?_⟩
        refine (overflow.toList_kept c.sink byte).trans ?_
        rw [← ByteBuffer.toList_push]
        exact (overflow.take_room hlength hbegins).symm
    · rw [heq] at hstep
      rw [run_of_error heq]
      rcases hstep with ⟨hfits', heq'⟩ | ⟨_, _, _, ⟨⟩, _⟩
      rw [run_of_error heq']
      exact Or.inl ⟨hfits', rfl⟩

/-- Let a machine be stepped or run, once on a buffer, and once on a writer with a limit or without
    one. Without a limit everything fits.
    - As long as what the buffer holds fits, the calls of `step` come to the same: the same results,
      machine and source, and the writer holds the same bytes.
    - The call of `step` after which it does not fit any more, by one byte, fails on the writer and
      changes nothing but the cursor. Of all that the buffer ever comes to hold, the writer holds
      the bytes that there was room for: as many as the limit, and one more if it is the flush that
      fails.
    - The same holds of `run`. -/
theorem capped_writer_holds_what_fits {σ : Type} [ByteSource σ] (m : Machine) (input : σ)
    (limit : Option Nat) (overflow : Overflow) :
    let c := Channels.mk ByteBuffer.empty input
    (∀ count, Fits limit (transcript step count m c).channels.sink →
      transcript step count m (c.capped limit overflow) =
        ⟨(transcript step count m c).results, (transcript step count m c).state,
          (transcript step count m c).channels.capped limit overflow⟩) ∧
    (∀ n count, limit = some n →
      let before := transcript step count m c
      let after := transcript step (count + 1) m (c.capped limit overflow)
      before.channels.sink.size ≤ n →
      n < (transcript step (count + 1) m c).channels.sink.size →
      before.channels.sink.size = n ∧
        (transcript step (count + 1) m c).channels.sink.size = n + 1 ∧
        ∃ index,
          (transcript step (count + 1) m c).results = before.results ++ [.ok (.ticked index)] ∧
          after.results = before.results ++ [.error (.channel overflow.text)] ∧
          after.state = { before.state with cursor := index } ∧
          after.channels.source = before.channels.source ∧
          ∀ more, after.channels.sink.writer.held.toList =
            (transcript step (count + 1 + more) m c).channels.sink.toList.take
              (overflow.room n)) ∧
    ∀ steps,
      let o := m.run steps c
      let o' := m.run steps (c.capped limit overflow)
      Fits limit o.channels.sink ∧ o' = ⟨o.result, o.state, o.channels.capped limit overflow⟩ ∨
        ∃ n count m' c' index, limit = some n ∧ Strides count m c m' c' ∧ c'.sink.size = n ∧
          n < o.channels.sink.size ∧ o'.result = .error (.channel overflow.text) ∧
          o'.state = { m' with cursor := index } ∧ o'.channels.source = c'.source ∧
          o'.channels.sink.writer.held.toList =
            o.channels.sink.toList.take (overflow.room n) := by
  intro c
  refine ⟨transcript_capped m c overflow, ?_, ?_⟩
  · rintro n count rfl before after hfits hmore
    obtain ⟨hsize, hsize', index, hresults, hresults', hstate, hsource, hheld⟩ :=
      transcript_overflow m c overflow hfits hmore
    refine ⟨hsize, hsize', index, hresults, hresults', hstate, hsource, fun more => ?_⟩
    rw [hheld]
    refine (overflow.take_room ?_ (prefix_transcript m c (count + 1) more)).symm
    rw [ByteBuffer.length_toList, hsize']
  · intro steps
    exact run_capped overflow steps m c fun n _ => Nat.zero_le n

/-- The second `.` is one too many for a writer that holds one byte. If it is the flush that fails,
    the writer holds two all the same. -/
theorem capped_writer_holds_what_fits_on_two_bytes :
    ∃ start, assemble { processors := 1 } "+.+." = .ok start ∧ ∀ overflow : Overflow,
      let c := Channels.mk ByteBuffer.empty NullSource.mk
      let after := transcript step 4 start (c.capped (some 1) overflow)
      (transcript step 4 start c).channels.sink.toList = [1, 2] ∧
        after.results = [.ok (.ticked 0), .ok (.ticked 0), .ok (.ticked 0),
          .error (.channel overflow.text)] ∧
        after.state = (transcript step 3 start c).state ∧
        after.channels.sink.writer.held.toList = [1, 2].take (overflow.room 1) := by
  refine ⟨_, assemble_of_pos (by decide) _, fun overflow => ?_⟩
  obtain ⟨-, hcall, -⟩ := capped_writer_holds_what_fits
    (fresh { processors := 1 } "+.+.") NullSource.mk (some 1) overflow
  obtain ⟨-, -, index, hresults, hresults', hstate, -, hheld⟩ :=
    hcall 1 3 rfl (Nat.le_refl 1) (Nat.lt_succ_self 1)
  obtain rfl : 0 = index := by
    cases hresults
    rfl
  exact ⟨rfl, hresults', hstate, hheld 0⟩

end Machine

end Calls

end TapeRing
