import TapeRing.Proofs.Channel.Recorded
import TapeRing.Proofs.Machine.Alike
import TapeRing.Proofs.Machine.Assembly
import TapeRing.Proofs.Machine.Cursor

/-! # Input in pieces

A machine that fails because its input is exhausted can be run again on more input. The two runs
together come to what one run on all of the input comes to (`input_in_pieces`): the failed step
leaves no trace but the cursor, and that stands where the next step looks first anyway
(`step_at_turn`). -/

namespace TapeRing

section Channels

variable {κ κ' σ : Type} [ByteSink κ] [ByteSink κ'] [ByteSource σ]

/-- A list of bytes answers like a longer one, until it is exhausted. -/
def moreInput (more : List UInt8) : Likeness κ SliceSource κ SliceSource where
  Alike c c' := c' = ⟨c.sink, SliceSource.mk (c.source.unread ++ more)⟩
  Parts fault := fault = .inputExhausted
  put := by
    rintro c _ rfl byte
    exact Or.inr ⟨rfl, rfl⟩
  get := by
    rintro ⟨sink, ⟨unread⟩⟩ _ rfl
    cases unread with
    | nil => exact Or.inl ⟨_, rfl, rfl⟩
    | cons byte unread => exact Or.inr ⟨rfl, rfl⟩

/-- All sinks that never fail answer alike, whatever has been put before. -/
def otherSink (before before' : List UInt8) : Likeness (Recorded κ) σ (Recorded κ') σ where
  Alike c c' := c.source = c'.source ∧ Unfailing c.sink.inner ∧ Unfailing c'.sink.inner ∧
    ∃ bytes, c.sink.bytes = before ++ bytes ∧ c'.sink.bytes = before' ++ bytes
  Parts _ := False
  put := by
    rintro ⟨⟨inner, bytes⟩, source⟩ ⟨⟨inner', bytes'⟩, _⟩ ⟨rfl, h, h', more, rfl, rfl⟩ byte
    obtain ⟨later, hput, hlater⟩ := h.put byte
    obtain ⟨later', hput', hlater'⟩ := h'.put byte
    right
    simp only [ByteSink.put, hput, hput']
    exact ⟨trivial, trivial, hlater, hlater', more ++ [byte], List.append_assoc _ _ _,
      List.append_assoc _ _ _⟩
  get := by
    rintro ⟨sink, source⟩ ⟨sink', _⟩ ⟨rfl, hrest⟩
    exact Or.inr ⟨rfl, rfl, hrest⟩

theorem Unfailing.recorded {sink : κ} (h : Unfailing sink) (bytes : List UInt8) :
    Unfailing (Recorded.mk sink bytes) := by
  intro more
  induction more generalizing sink bytes with
  | nil =>
    intro byte
    obtain ⟨sink', hput, -⟩ := h.put byte
    simp only [List.foldl_nil, ByteSink.put, hput]
  | cons first more ih =>
    intro byte
    obtain ⟨sink', hput, hlater⟩ := h.put first
    have hfirst : ByteSink.put (Recorded.mk sink bytes) first =
        (.ok (), Recorded.mk sink' (bytes ++ [first])) := by
      simp only [ByteSink.put, hput]
    rw [List.foldl_cons, hfirst]
    exact ih hlater _ byte

end Channels

namespace Machine

variable {κ σ : Type} [ByteSink κ] [ByteSource σ]

/-- A run that fails because its input is exhausted goes on, with more input, as the machine that
    it leaves behind does with that input alone. -/
theorem Returns.resume {κ : Type} [ByteSink κ] {m m1 : Machine} {sink : κ} {u : List UInt8}
    {c1 : Channels κ SliceSource} (hsink : Unfailing sink)
    (h : m.Returns ⟨sink, SliceSource.mk u⟩ ⟨.error .inputExhausted, m1, c1⟩) :
    c1.source.unread = [] ∧ ∃ count, m1.ticks = m.ticks + count ∧ ∀ v o,
      m.Returns ⟨sink, SliceSource.mk (u ++ v)⟩ o ↔
        ∃ o', m1.Returns ⟨c1.sink, SliceSource.mk v⟩ o' ∧ o = o'.map (RunSummary.after count) := by
  obtain ⟨count, m', c', source, index, p, hstrides, hget, rfl, hturn, rfl⟩ :=
    h.refused hsink id
  obtain ⟨hempty, rfl⟩ := SliceSource.get_inputExhausted hget
  refine ⟨hempty, count, hstrides.ticks_eq, fun v o => ?_⟩
  obtain ⟨c'', hstrides', rfl⟩ := (moreInput v).strides hstrides rfl
  rw [hempty, List.nil_append] at hstrides'
  exact (Resumes.of_strides hstrides' hturn).returns o

/-- What a run puts, and what it comes to, does not depend on the sink, if no sink fails. -/
theorem Returns.otherSink {κ κ' : Type} [ByteSink κ] [ByteSink κ'] {m : Machine}
    {start : Recorded κ} {source : σ} {o : Outcome RunSummary Machine (Recorded κ) σ}
    (h : m.Returns ⟨start, source⟩ o) (hsink : Unfailing start.inner) (start' : Recorded κ')
    (hsink' : Unfailing start'.inner) :
    Unfailing o.channels.sink.inner ∧
      ∃ d : Channels (Recorded κ') σ, m.Returns ⟨start', source⟩ ⟨o.result, o.state, d⟩ ∧
        o.channels.source = d.source ∧
        ∃ bytes, o.channels.sink.bytes = start.bytes ++ bytes ∧
          d.sink.bytes = start'.bytes ++ bytes := by
  let l : Likeness (Recorded κ) σ (Recorded κ') σ := TapeRing.otherSink start.bytes start'.bytes
  have halike : l.Alike ⟨start, source⟩ ⟨start', source⟩ :=
    ⟨rfl, hsink, hsink', [], (List.append_nil _).symm, (List.append_nil _).symm⟩
  rcases l.returns h halike with ⟨_, _, hparts⟩ | ⟨d, hreturns, hsource, hinner, -, hbytes⟩
  · exact hparts.elim
  · exact ⟨hinner, d, hreturns, hsource, hbytes⟩

/-- A sink that is recorded from now on, and a list of bytes as the source. -/
def onInput (sink : κ) (bytes : List UInt8) : Channels (Recorded κ) SliceSource :=
  ⟨⟨sink, []⟩, ⟨bytes⟩⟩

/-- Let a machine be run on the input `u` and let the sink never fail; the bytes that are put are
    recorded.
    - If the run fails because the input is exhausted, all of `u` is read. Let `count` be the ticks
      that it has made. A run on `u ++ v` returns iff a run on `v` of the machine that is left
      behind does, with any sink that never fails. It returns the same machine, the same unread
      bytes, the bytes put by both runs, one after the other, and the same fault or the same summary
      with `count` more ticks.
    - If the run returns anything else, then a run on `u ++ v` returns the same, with all of `v`
      still unread.
    - If the run never returns, then no run on `u ++ v` does. -/
theorem input_in_pieces {κ κ' : Type} [ByteSink κ] [ByteSink κ'] {sink : κ} {sink' : κ'}
    (hsink : Unfailing sink) (hsink' : Unfailing sink') (m : Machine) (u v : List UInt8) :
    (∀ m1 c1, m.Returns (onInput sink u) ⟨.error .inputExhausted, m1, c1⟩ →
      c1.source.unread = [] ∧ ∃ count, m1.ticks = m.ticks + count ∧
        (∀ o : Outcome RunSummary Machine (Recorded κ') SliceSource,
          m1.Returns (onInput sink' v) o →
            ∃ d, m.Returns (onInput sink (u ++ v))
                ⟨o.result.map (RunSummary.after count), o.state, d⟩ ∧
              d.sink.bytes = c1.sink.bytes ++ o.channels.sink.bytes ∧
              d.source = o.channels.source) ∧
        ((∃ o, m.Returns (onInput sink (u ++ v)) o) ↔
          ∃ o, m1.Returns (onInput sink' v) o)) ∧
    (∀ o, m.Returns (onInput sink u) o → o.result ≠ .error .inputExhausted →
      m.Returns (onInput sink (u ++ v))
        ⟨o.result, o.state,
          ⟨o.channels.sink, SliceSource.mk (o.channels.source.unread ++ v)⟩⟩) ∧
    ((∀ o, ¬ m.Returns (onInput sink u) o) →
      ∀ o, ¬ m.Returns (onInput sink (u ++ v)) o) := by
  refine ⟨?_, ?_, ?_⟩
  · intro m1 c1 hexhausted
    obtain ⟨hinner, -⟩ := hexhausted.otherSink hsink ⟨sink', []⟩ hsink'
    obtain ⟨hempty, count, hticks, hresume⟩ := hexhausted.resume (hsink.recorded [])
    refine ⟨hempty, count, hticks, ?_, ?_⟩
    · intro o hreturns
      obtain ⟨-, d, hreturns', hsource, bytes, hbytes, hbytes'⟩ :=
        hreturns.otherSink hsink' c1.sink hinner
      refine ⟨d, (hresume v _).mpr ⟨_, hreturns', rfl⟩, ?_, hsource.symm⟩
      rw [hbytes', hbytes]
      rfl
    · constructor
      · rintro ⟨o, hreturns⟩
        obtain ⟨o', hreturns', -⟩ := (hresume v o).mp hreturns
        obtain ⟨-, d, hreturns'', -⟩ := hreturns'.otherSink hinner ⟨sink', []⟩ hsink'
        exact ⟨_, hreturns''⟩
      · rintro ⟨o, hreturns⟩
        obtain ⟨-, d, hreturns', -⟩ := hreturns.otherSink hsink' c1.sink hinner
        exact ⟨_, (hresume v _).mpr ⟨_, hreturns', rfl⟩⟩
  · intro o hreturns hresult
    rcases (moreInput v).returns hreturns rfl with ⟨fault, hfault, hparts⟩ | ⟨d, hreturns', rfl⟩
    · rw [hfault, hparts] at hresult
      exact absurd rfl hresult
    · exact hreturns'
  · intro hnever
    rw [not_returns_iff] at hnever ⊢
    intro count
    obtain ⟨m', c', hstrides⟩ := hnever count
    obtain ⟨d, hstrides', -⟩ := (moreInput v).strides hstrides rfl
    exact ⟨m', d, hstrides'⟩

/-- The second processor asks for a second byte when the first one is finished, so the cursor has
    passed over that when the input is exhausted. -/
theorem input_in_pieces_on_echo :
    Unfailing ByteBuffer.empty ∧ ∃ start m1 m2 c1 c2 d,
      assemble { processors := 2, halt := .allFinished } "[,+.],+." = .ok start ∧
      start.Returns (onInput ByteBuffer.empty [97]) ⟨.error .inputExhausted, m1, c1⟩ ∧
      m1.cursor = 1 ∧ m1.ticks = 4 ∧ c1.sink.bytes = [97] ∧
      m1.Returns (onInput ByteBuffer.empty [98]) ⟨.ok ⟨2, none⟩, m2, c2⟩ ∧ c2.sink.bytes = [98] ∧
      start.Returns (onInput ByteBuffer.empty [97, 98]) ⟨.ok ⟨6, none⟩, m2, d⟩ ∧
      d.sink.bytes = [97, 98] ∧
      start.Returns (onInput ByteBuffer.empty [97, 98, 99])
        ⟨.ok ⟨6, none⟩, m2, ⟨d.sink, SliceSource.mk [99]⟩⟩ := by
  have hunfailing := ByteBuffer.unfailing ByteBuffer.empty
  obtain ⟨start, m1, m2, c1, c2, hstart, hfresh, hfirst, hcursor, hticks, hput, hsecond, hput',
      hunread⟩ : ∃ start m1 m2 c1 c2,
      assemble { processors := 2, halt := .allFinished } "[,+.],+." = .ok start ∧
      start.ticks = 0 ∧
      start.Returns (onInput ByteBuffer.empty [97]) ⟨.error .inputExhausted, m1, c1⟩ ∧
      m1.cursor = 1 ∧ m1.ticks = 4 ∧ c1.sink.bytes = [97] ∧
      m1.Returns (onInput ByteBuffer.empty [98]) ⟨.ok ⟨2, none⟩, m2, c2⟩ ∧ c2.sink.bytes = [98] ∧
      c2.source.unread = [] :=
    ⟨_, _, _, _, _, assemble_of_pos (by decide) _, rfl, ⟨5, rfl⟩, rfl, rfl, rfl, ⟨3, rfl⟩, rfl, rfl⟩
  obtain ⟨-, count, hcount, hresume, -⟩ :=
    (input_in_pieces hunfailing hunfailing start [97] [98]).1 _ _ hfirst
  obtain ⟨d, hreturns, hbytes, hsource⟩ := hresume _ hsecond
  obtain rfl : 4 = count := by omega
  have hmore := (input_in_pieces hunfailing hunfailing start [97, 98] [99]).2.1 _ hreturns nofun
  dsimp only at hbytes hsource hmore
  rw [hput, hput'] at hbytes
  rw [hsource, hunread] at hmore
  exact ⟨hunfailing, start, m1, m2, c1, c2, d, hstart, hfirst, hcursor, hticks, hput, hsecond,
    hput', hreturns, hbytes, hmore⟩

end Machine

end TapeRing
