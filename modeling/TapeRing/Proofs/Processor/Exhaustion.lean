import TapeRing.Channel.Source
import TapeRing.Proofs.Channel.Unfailing
import TapeRing.Proofs.Processor.Successor

/-! # Exhausted input

No instruction finds by itself that the input is exhausted, or that a channel has failed
(`faults_perform`). So with a sink that never fails, a tick that reports this has got it from its
source (`get_of_tick_error`). -/

namespace TapeRing

/-- The faults that an instruction comes to by itself, whatever the channels are. -/
def Fault.OfInstruction : Fault → Prop
  | .outOfBounds _ _ | .valueOutOfRange _ | .unmatchedBracket _ _ _ => True
  | .noProcessors | .inputExhausted | .channel _ => False

/-- A property of every fault that an action comes to by itself. -/
def Action.Faults (Holds : Fault → Prop) : Action → Prop
  | .fail fault => Holds fault
  | .receive next => ∀ byte fault, next byte = .error fault → Holds fault
  | .idle | .advance _ | .emit _ _ => True

namespace Tape

variable {t : Tape} {index : Nat} {fault : Fault}

theorem ofInstruction_of_read (h : t.read index = .error fault) : fault.OfInstruction := by
  unfold read at h
  split at h <;> cases h
  trivial

theorem ofInstruction_of_write {value : Int} (h : t.write index value = .error fault) :
    fault.OfInstruction := by
  unfold write at h
  split at h
  · cases h
    trivial
  · split at h <;> cases h
    trivial

theorem ofInstruction_of_update {f : Int → Int} (h : t.update f index = .error fault) :
    fault.OfInstruction := by
  unfold update at h
  split at h <;> cases h
  trivial

end Tape

theorem ofInstruction_of_byteOfCell {value : Int} {fault : Fault}
    (h : byteOfCell value = .error fault) : fault.OfInstruction := by
  unfold byteOfCell at h
  split at h <;> cases h
  trivial

namespace Processor

variable {p : Processor} {fault : Fault}

theorem ofInstruction_of_closing (h : p.closing = .error fault) : fault.OfInstruction := by
  unfold closing at h
  dsimp only at h
  split at h <;> cases h
  trivial

theorem ofInstruction_of_opening (h : p.opening = .error fault) : fault.OfInstruction := by
  unfold opening at h
  dsimp only at h
  split at h <;> cases h
  trivial

theorem faults_perform (p : Processor) (op : Op) :
    (p.perform op).Faults Fault.OfInstruction := by
  cases op with
  | increment =>
    simp only [perform]
    split
    · trivial
    · exact Tape.ofInstruction_of_update ‹_›
  | decrement =>
    simp only [perform]
    split
    · trivial
    · exact Tape.ofInstruction_of_update ‹_›
  | left => trivial
  | right => trivial
  | loopStart =>
    simp only [perform]
    split
    · exact Tape.ofInstruction_of_read ‹_›
    · split
      · split
        · trivial
        · exact ofInstruction_of_closing ‹_›
      · trivial
  | loopEnd =>
    simp only [perform]
    split
    · trivial
    · exact ofInstruction_of_opening ‹_›
  | output =>
    simp only [perform]
    split
    · exact Tape.ofInstruction_of_read ‹_›
    · split
      · trivial
      · exact ofInstruction_of_byteOfCell ‹_›
  | input =>
    intro byte fault hstore
    unfold store at hstore
    split at hstore
    · cases hstore
    · cases hstore
      exact Tape.ofInstruction_of_write ‹_›

theorem faults_action (p : Processor) : p.action.Faults Fault.OfInstruction := by
  unfold action
  split
  · trivial
  · exact faults_perform p _

/-- With a sink that never fails, a fault that no instruction comes to by itself is one of the
    source, and all that the tick has changed is what that call has changed. -/
theorem get_of_tick_error {κ σ : Type} [ByteSink κ] [ByteSource σ] {c : Channels κ σ}
    (hsink : Unfailing c.sink) (hfault : ¬ fault.OfInstruction)
    (h : (p.tick c).result = .error fault) :
    ∃ source, ByteSource.get c.source = (.error fault, source) ∧
      (p.tick c).channels = ⟨c.sink, source⟩ := by
  have hfaults := faults_action p
  unfold tick at h ⊢
  cases haction : p.action with
  | idle => rw [haction] at h; cases h
  | fail other =>
    rw [haction] at h hfaults
    cases h
    exact absurd hfaults hfault
  | advance next => rw [haction] at h; cases h
  | emit byte next =>
    obtain ⟨sink', hput, -⟩ := hsink.put byte
    rw [haction] at h
    simp only [carryOut, hput] at h
    cases h
  | receive next =>
    rw [haction] at h hfaults
    simp only [carryOut] at h ⊢
    rcases hget : ByteSource.get c.source with ⟨other | byte, source⟩
    · rw [hget] at h
      cases h
      exact ⟨source, rfl, rfl⟩
    · rw [hget] at h
      dsimp only at h
      cases hnext : next byte with
      | ok after => rw [hnext] at h; cases h
      | error other =>
        rw [hnext] at h
        cases h
        exact absurd (hfaults byte _ hnext) hfault

end Processor

/-- A list is exhausted if it is empty, and only then. -/
theorem SliceSource.get_inputExhausted {s s' : SliceSource}
    (h : ByteSource.get s = (.error .inputExhausted, s')) : s.unread = [] ∧ s' = s := by
  obtain ⟨_ | ⟨byte, unread⟩⟩ := s <;> cases h
  exact ⟨rfl, rfl⟩

end TapeRing
