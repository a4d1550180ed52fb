import TapeRing.Dealing
import TapeRing.Proofs.Channel.Unfailing
import TapeRing.Proofs.Processor.Successor

/-! # Programs without input

A processor whose program has no `,` never looks at the source, so with a sink that never fails its
ticks are the same whatever its channels are (`tick_inputless`). The parts of a source text without
commas are such programs. -/

namespace TapeRing

namespace Program

/-- No instruction asks for a byte. -/
def Inputless (p : Program) : Prop := Op.input ∉ p.ops

theorem inputless_parse {source : String} (h : ',' ∉ source.toList) :
    (parse source).Inputless :=
  mt mem_ops_parse_iff.mp h

theorem mem_of_mem_everyNth {α : Type} {n : Nat} {x : α} (xs : List α) :
    ∀ skip : Nat, x ∈ everyNth n skip xs → x ∈ xs := by
  induction xs with
  | nil => intro skip h; exact h
  | cons y xs ih =>
    intro skip h
    cases skip with
    | zero =>
      rcases List.mem_cons.mp h with rfl | h
      · exact List.mem_cons_self
      · exact List.mem_cons_of_mem _ (ih _ h)
    | succ skip => exact List.mem_cons_of_mem _ (ih skip h)

theorem Inputless.part {p : Program} (h : p.Inputless) (count index : Nat) :
    (p.part count index).Inputless :=
  fun hmem => h (mem_of_mem_everyNth p.ops index hmem)

end Program

namespace Processor

theorem op?_of_action_receive {p : Processor} {next : UInt8 → Except Fault Processor}
    (h : p.action = .receive next) : p.op? = some .input := by
  unfold action at h
  cases hop : p.op? with
  | none => simp [hop] at h
  | some op =>
    simp only [hop] at h
    cases op with
    | input => rfl
    | left => cases h
    | right => cases h
    | increment => simp only [perform] at h; split at h <;> cases h
    | decrement => simp only [perform] at h; split at h <;> cases h
    | loopEnd => simp only [perform] at h; split at h <;> cases h
    | loopStart => simp only [perform] at h; repeat' split at h <;> try cases h
    | output => simp only [perform] at h; repeat' split at h <;> try cases h

theorem action_ne_receive {p : Processor} (h : p.program.Inputless)
    (next : UInt8 → Except Fault Processor) : p.action ≠ .receive next :=
  fun haction => h (List.mem_of_getElem? (op?_of_action_receive haction))

section Tick

variable {κ σ κ' σ' : Type} [ByteSink κ] [ByteSource σ] [ByteSink κ'] [ByteSource σ']

theorem source_tick_inputless {p : Processor} (h : p.program.Inputless) (c : Channels κ σ) :
    (p.tick c).channels.source = c.source := by
  unfold tick
  cases haction : p.action with
  | idle => rfl
  | fail fault => rfl
  | advance next => rfl
  | emit byte next => simp only [carryOut]; split <;> rfl
  | receive next => exact absurd haction (action_ne_receive h next)

/-- The ticks of a program without input are the same on all channels whose sinks never fail. -/
theorem tick_inputless {p : Processor} (h : p.program.Inputless) {c : Channels κ σ}
    {c' : Channels κ' σ'} (hsink : Unfailing c.sink) (hsink' : Unfailing c'.sink) :
    (p.tick c).result = (p.tick c').result ∧ (p.tick c).state = (p.tick c').state := by
  unfold tick
  cases haction : p.action with
  | idle => exact ⟨rfl, rfl⟩
  | fail fault => exact ⟨rfl, rfl⟩
  | advance next => exact ⟨rfl, rfl⟩
  | emit byte next =>
    obtain ⟨sink, hput, -⟩ := hsink.put byte
    obtain ⟨sink', hput', -⟩ := hsink'.put byte
    simp only [carryOut, hput, hput', and_self]
  | receive next => exact absurd haction (action_ne_receive h next)

end Tick

end Processor

end TapeRing
