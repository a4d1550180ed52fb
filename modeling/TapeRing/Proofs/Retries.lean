import TapeRing.Proofs.Channel.Ledger
import TapeRing.Proofs.Machine.Alike
import TapeRing.Proofs.Machine.Assembly
import TapeRing.Proofs.Machine.Cursor

/-! # Readers that fail

A run on a reader can be called again after every failure of the reader. All these runs together
come to what one run on the bytes of the reader comes to (`read_errors_do_not_show`): interrupts are
never seen, and a failure is seen once, at the tick that asked for the next byte, which is made
again. -/

namespace TapeRing

open ReadEvent

/-- The channels with the bytes of the reader in the place of the reader. -/
def Channels.listed {κ : Type} (c : Channels κ ReaderSource) : Channels κ SliceSource :=
  ⟨c.sink, SliceSource.mk (bytes c.source.events)⟩

/-- What has been read of a row of events, up to the events that are left. -/
def ReadUpTo (events left : List ReadEvent) (texts : List String) : Prop :=
  ∃ read, events = read ++ left ∧ failures read = texts

theorem ReadUpTo.nothing (events : List ReadEvent) : ReadUpTo events events [] :=
  ⟨[], rfl, rfl⟩

theorem ReadUpTo.trans {events left left' : List ReadEvent} {texts more : List String}
    (h : ReadUpTo events left texts) (h' : ReadUpTo left left' more) :
    ReadUpTo events left' (texts ++ more) := by
  obtain ⟨read, rfl, rfl⟩ := h
  obtain ⟨read', rfl, rfl⟩ := h'
  exact ⟨read ++ read', (List.append_assoc _ _ _).symm, failures_append _ _⟩

theorem ReadUpTo.length_le {events left : List ReadEvent} {texts : List String}
    (h : ReadUpTo events left texts) : left.length + texts.length ≤ events.length := by
  obtain ⟨read, rfl, rfl⟩ := h
  have hfailures : (failures read).length ≤ read.length := List.length_filterMap_le _ _
  rw [List.length_append]
  omega

/-- A read that fails takes the failure that it reports, and no byte. -/
theorem ReaderSource.get_failure {s s' : ReaderSource} {text : String}
    (h : ByteSource.get s = (.error (.channel text), s')) :
    bytes s'.events = bytes s.events ∧ ReadUpTo s.events s'.events [text] := by
  refine ⟨supply.get_error h, ?_⟩
  rcases get_cases h with ⟨taken, hevents, htakes⟩ | ⟨hend, -⟩
  · cases htakes with
    | failure _ hfailures => exact ⟨taken, hevents, hfailures⟩
  · cases hend

/-- A read that does not fail takes no failure, and it answers like a list of the bytes. -/
theorem ReaderSource.get_listed {s s' : ReaderSource} {answer : Except Fault UInt8}
    (h : ByteSource.get s = (answer, s')) (hother : ∀ text, answer ≠ .error (.channel text)) :
    ByteSource.get (SliceSource.mk (bytes s.events)) = (answer, ⟨bytes s'.events⟩) ∧
      ReadUpTo s.events s'.events [] := by
  rcases get_cases h with ⟨taken, hevents, htakes⟩ | ⟨rfl, hend, hbytes, hfailures⟩
  · cases htakes with
    | byte _ hfailures =>
      refine ⟨?_, taken, hevents, hfailures⟩
      have hleft : bytes s.events = _ := supply.get_ok h
      rw [hleft]
      rfl
    | failure _ _ => exact absurd rfl (hother _)
  · rw [hbytes, hend]
    exact ⟨rfl, s.events, (List.append_nil _).symm, hfailures⟩

/-- A reader answers like the list of its bytes, until it fails. -/
def untilFailure {κ : Type} [ByteSink κ] (events : List ReadEvent) :
    Likeness κ ReaderSource κ SliceSource where
  Alike c c' := c' = c.listed ∧ ReadUpTo events c.source.events []
  Parts fault := ∃ text, fault = .channel text
  put := by
    rintro c _ ⟨rfl, hread⟩ byte
    exact Or.inr ⟨rfl, rfl, hread⟩
  get := by
    rintro c _ ⟨rfl, hread⟩
    by_cases hfails : ∃ text, (ByteSource.get c.source).1 = .error (.channel text)
    · obtain ⟨text, htext⟩ := hfails
      exact Or.inl ⟨_, htext, text, rfl⟩
    · obtain ⟨hlisted, hread'⟩ := ReaderSource.get_listed (s := c.source) rfl (not_exists.mp hfails)
      right
      simp only [Channels.listed, hlisted]
      exact ⟨rfl, rfl, hread.trans hread'⟩

namespace Machine

variable {κ σ : Type} [ByteSink κ] [ByteSource σ]

/-- Runs that are called again after every failure of a channel, with the texts of the failures. -/
inductive Retries : Machine → Channels κ σ → List String → Machine → Channels κ σ → Prop
  | rest {m : Machine} {c : Channels κ σ} : Retries m c [] m c
  | retry {m m' m'' : Machine} {c c' c'' : Channels κ σ} {text : String} {texts : List String} :
      m.Returns c ⟨.error (.channel text), m', c'⟩ → Retries m' c' texts m'' c'' →
      Retries m c (text :: texts) m'' c''

section Readers

variable {κ : Type} [ByteSink κ] {m m' m'' : Machine} {c c' c'' : Channels κ ReaderSource}
  {texts : List String}

/-- After a failure of the reader the run goes on as if there had been none. -/
theorem Returns.retry {text : String} (hsink : Unfailing c.sink)
    (h : m.Returns c ⟨.error (.channel text), m', c'⟩) :
    Unfailing c'.sink ∧ ReadUpTo c.source.events c'.source.events [text] ∧
      ∃ count, m'.ticks = m.ticks + count ∧ Resumes m c.listed count m' c'.listed := by
  obtain ⟨count, before, d, source, index, p, hstrides, hget, rfl, hturn, rfl⟩ :=
    h.refused hsink id
  obtain ⟨_, hlisted, rfl, hread⟩ :=
    (untilFailure c.source.events).strides hstrides ⟨rfl, .nothing _⟩
  obtain ⟨hbytes, hfailure⟩ := ReaderSource.get_failure hget
  refine ⟨hstrides.unfailing hsink, hread.trans hfailure, count, hstrides.ticks_eq, ?_⟩
  -- The failure is not among the bytes, so on the bytes nothing has happened since these strides.
  have hsame : d.listed = Channels.listed ⟨d.sink, source⟩ := by
    simp only [Channels.listed, hbytes]
  rw [hsame] at hlisted
  exact .of_strides hlisted hturn

/-- After any number of failures the run goes on as if there had been none. -/
theorem Retries.resumes (h : Retries m c texts m' c') (hsink : Unfailing c.sink) :
    Unfailing c'.sink ∧ ReadUpTo c.source.events c'.source.events texts ∧
      ∃ count, m'.ticks = m.ticks + count ∧ Resumes m c.listed count m' c'.listed := by
  induction h with
  | rest => exact ⟨hsink, .nothing _, 0, rfl, .rest⟩
  | retry hreturns _ ih =>
    obtain ⟨hsink', hread, count, hticks, hresumes⟩ := hreturns.retry hsink
    obtain ⟨hsink'', hread', more, hticks', hresumes'⟩ := ih hsink'
    refine ⟨hsink'', hread.trans hread', count + more, ?_, hresumes.trans hresumes'⟩
    rw [hticks', hticks, Nat.add_assoc]

/-- There are only as many failures as the reader has. -/
theorem exists_retries (m : Machine) (hsink : Unfailing c.sink) :
    ∃ texts m' c', Retries m c texts m' c' ∧
      ∀ text m'' c'', ¬ m'.Returns c' ⟨.error (.channel text), m'', c''⟩ := by
  -- Each failure takes an event of the reader, so the induction is on the events that are left.
  induction hlength : c.source.events.length using Nat.strong_induction_on generalizing m c with
  | _ length ih =>
    by_cases hmore : ∃ text m' c', m.Returns c ⟨.error (.channel text), m', c'⟩
    · obtain ⟨text, m', c', hreturns⟩ := hmore
      obtain ⟨hsink', hread, -⟩ := hreturns.retry hsink
      have hle := hread.length_le
      rw [List.length_singleton, hlength] at hle
      obtain ⟨texts, m'', c'', hretries, hlast⟩ := ih _ hle m' hsink' rfl
      exact ⟨_, m'', c'', .retry hreturns hretries, hlast⟩
    · refine ⟨[], m, c, .rest, ?_⟩
      intro text m' c' hreturns
      exact hmore ⟨text, m', c', hreturns⟩

/-- A run that ends otherwise than by a failure of the reader comes to the same on the bytes. -/
theorem Returns.listed {o : Outcome RunSummary Machine κ ReaderSource} (h : m.Returns c o)
    (hother : ∀ text, o.result ≠ .error (.channel text)) :
    m.Returns c.listed ⟨o.result, o.state, o.channels.listed⟩ ∧
      ReadUpTo c.source.events o.channels.source.events [] := by
  rcases (untilFailure c.source.events).returns h ⟨rfl, .nothing _⟩ with
    ⟨fault, hfault, text, rfl⟩ | ⟨d, hreturns, rfl, hread⟩
  · exact absurd hfault (hother text)
  · exact ⟨hreturns, hread⟩

/-- A reader without failures does not fail. -/
theorem Returns.ne_failure (hsink : Unfailing c.sink) (hnone : failures c.source.events = [])
    {o : Outcome RunSummary Machine κ ReaderSource} (h : m.Returns c o) :
    ∀ text, o.result ≠ .error (.channel text) := by
  obtain ⟨result, m', c'⟩ := o
  rintro text rfl
  obtain ⟨-, ⟨read, hevents, hfailures⟩, -⟩ := h.retry hsink
  rw [hevents, failures_append, hfailures] at hnone
  cases hnone

/-- A run returns if a run on the bytes does. -/
theorem returns_of_returns_listed {o' : Outcome RunSummary Machine κ SliceSource}
    (h : m.Returns c.listed o') : ∃ o, m.Returns c o := by
  by_contra hnever
  rw [not_exists, not_returns_iff] at hnever
  refine (not_returns_iff.mpr ?_) o' h
  intro count
  obtain ⟨m', c', hstrides⟩ := hnever count
  obtain ⟨d, hlisted, -⟩ := (untilFailure c.source.events).strides hstrides ⟨rfl, .nothing _⟩
  exact ⟨m', d, hlisted⟩

/-- Let a machine be run on a reader, and be run again after every failure of the reader, with a
    sink that never fails. Compare this with one run on the bytes of the reader.
    - At every point the failures so far are those among the events read so far, each one once and
      in order, and there are finitely many of them.
    - If the last run returns anything else than a failure of the reader, then the run on the bytes
      returns the same result, with the ticks of all the runs, the same machine and sink, and it has
      the same bytes left.
    - If the last run makes a step that ticks, then so does the run on the bytes, after the ticks of
      all the runs before; and if the last run never returns, the run on the bytes does not either.
    - If the reader has no failures, the first run is the last one and returns just what the run on
      the bytes does. -/
theorem read_errors_do_not_show {sink : κ} (hsink : Unfailing sink) (m : Machine)
    (events : List ReadEvent) :
    let c := Channels.mk sink (ReaderSource.mk events)
    let onBytes := Channels.mk sink (SliceSource.mk (bytes events))
    (∀ texts m' c', Retries m c texts m' c' →
      ReadUpTo events c'.source.events texts ∧
      ∃ count, m'.ticks = m.ticks + count ∧
        (∀ o, m'.Returns c' o → (∀ text, o.result ≠ .error (.channel text)) →
          m.Returns onBytes
              ⟨o.result.map (RunSummary.after count), o.state, o.channels.listed⟩ ∧
            ReadUpTo events o.channels.source.events texts) ∧
        (∀ more m'' c'', Strides (more + 1) m' c' m'' c'' →
          Strides (count + (more + 1)) m onBytes m'' c''.listed ∧
            ReadUpTo events c''.source.events texts) ∧
        ((∀ o, ¬ m'.Returns c' o) → ∀ o, ¬ m.Returns onBytes o)) ∧
    (∃ texts m' c', Retries m c texts m' c' ∧
      ∀ text m'' c'', ¬ m'.Returns c' ⟨.error (.channel text), m'', c''⟩) ∧
    (failures events = [] → ∀ o', m.Returns onBytes o' ↔
      ∃ o, m.Returns c o ∧ o' = ⟨o.result, o.state, o.channels.listed⟩) := by
  intro c onBytes
  refine ⟨?_, exists_retries m hsink, ?_⟩
  · intro texts m' c' hretries
    obtain ⟨-, hread, count, hticks, hresumes⟩ := hretries.resumes hsink
    refine ⟨hread, count, hticks, ?_, ?_, ?_⟩
    · intro o hreturns hother
      obtain ⟨hlisted, hread'⟩ := hreturns.listed hother
      have hall := hread.trans hread'
      rw [List.append_nil] at hall
      exact ⟨(hresumes.returns _).mpr ⟨_, hlisted, rfl⟩, hall⟩
    · intro more m'' c'' hstrides
      obtain ⟨_, hlisted, rfl, hread'⟩ :=
        (untilFailure c'.source.events).strides hstrides ⟨rfl, .nothing _⟩
      have hall := hread.trans hread'
      rw [List.append_nil] at hall
      exact ⟨hresumes.strides hlisted, hall⟩
    · intro hnever o hreturns
      obtain ⟨o', hlisted, -⟩ := (hresumes.returns o).mp hreturns
      obtain ⟨o'', hreturns'⟩ := returns_of_returns_listed hlisted
      exact hnever o'' hreturns'
  · intro hnone o'
    have hother {o} (h : m.Returns c o) := h.ne_failure hsink hnone
    constructor
    · intro hreturns'
      obtain ⟨o, hreturns⟩ := returns_of_returns_listed (c := c) hreturns'
      exact ⟨o, hreturns, hreturns'.unique (hreturns.listed (hother hreturns)).1⟩
    · rintro ⟨o, hreturns, rfl⟩
      exact (hreturns.listed (hother hreturns)).1

/-- A reader fails between two bytes, and is interrupted before each of them and at the end. -/
theorem read_errors_do_not_show_on_echo :
    Unfailing ByteBuffer.empty ∧ ∃ start m' c' last d,
      assemble { processors := 1 } ",.,." = .ok start ∧
      Retries start (Channels.mk ByteBuffer.empty (ReaderSource.mk
        [.interrupt, .byte 65, .failure "disk error", .interrupt, .byte 66, .interrupt]))
        ["disk error"] m' c' ∧
      m'.ticks = 2 ∧ m'.Returns c' ⟨.ok ⟨2, some 0⟩, last, d⟩ ∧
      d.source.events = [.interrupt] ∧ d.sink.toList = [65, 66] ∧
      start.Returns (Channels.mk ByteBuffer.empty (SliceSource.mk [65, 66]))
        ⟨.ok ⟨4, some 0⟩, last, ⟨d.sink, SliceSource.mk []⟩⟩ := by
  have hunfailing := ByteBuffer.unfailing ByteBuffer.empty
  obtain ⟨start, m', c', last, d, hstart, hfresh, hfirst, hticks, hlast, hevents, hbytes⟩ :
      ∃ start m' c' last d, assemble { processors := 1 } ",.,." = .ok start ∧ start.ticks = 0 ∧
        start.Returns (Channels.mk ByteBuffer.empty (ReaderSource.mk
          [.interrupt, .byte 65, .failure "disk error", .interrupt, .byte 66, .interrupt]))
          ⟨.error (.channel "disk error"), m', c'⟩ ∧
        m'.ticks = 2 ∧ m'.Returns c' ⟨.ok ⟨2, some 0⟩, last, d⟩ ∧
        d.source.events = [.interrupt] ∧ d.sink.toList = [65, 66] :=
    ⟨_, _, _, _, _, assemble_of_pos (by decide) _, rfl, ⟨3, rfl⟩, rfl, ⟨3, rfl⟩, rfl, rfl⟩
  have hretries : Retries start _ ["disk error"] m' c' := .retry hfirst .rest
  obtain ⟨-, count, hcount, hsame, -⟩ :=
    (read_errors_do_not_show hunfailing start _).1 _ _ _ hretries
  obtain ⟨hreturns, -⟩ := hsame _ hlast nofun
  obtain rfl : 2 = count := by omega
  simp only [Channels.listed, hevents] at hreturns
  exact ⟨hunfailing, start, m', c', last, d, hstart, hretries, hticks, hlast, hevents, hbytes,
    hreturns⟩

end Readers

end Machine

end TapeRing
