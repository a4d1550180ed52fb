import TapeRing.Proofs.Machine.Steps

/-! # Channels that answer alike

A machine knows its channels only by their answers. So if one pair of channels answers like
another, until it fails in a way that the other need not share, then the steps of a machine on the
two pairs come to the same until then (`Likeness.agree_step`). -/

namespace TapeRing

/-- A way in which two pairs of channels answer alike, until the first pair fails with a fault with
    which the two part. -/
structure Likeness (κ σ κ' σ' : Type) [ByteSink κ] [ByteSource σ] [ByteSink κ']
    [ByteSource σ'] where
  Alike : Channels κ σ → Channels κ' σ' → Prop
  Parts : Fault → Prop
  put : ∀ {c : Channels κ σ} {c' : Channels κ' σ'}, Alike c c' → ∀ byte,
    (∃ fault, (ByteSink.put c.sink byte).1 = .error fault ∧ Parts fault) ∨
      (ByteSink.put c.sink byte).1 = (ByteSink.put c'.sink byte).1 ∧
        Alike { c with sink := (ByteSink.put c.sink byte).2 }
          { c' with sink := (ByteSink.put c'.sink byte).2 }
  get : ∀ {c : Channels κ σ} {c' : Channels κ' σ'}, Alike c c' →
    (∃ fault, (ByteSource.get c.source).1 = .error fault ∧ Parts fault) ∨
      (ByteSource.get c.source).1 = (ByteSource.get c'.source).1 ∧
        Alike { c with source := (ByteSource.get c.source).2 }
          { c' with source := (ByteSource.get c'.source).2 }

namespace Likeness

variable {κ σ κ' σ' : Type} [ByteSink κ] [ByteSource σ] [ByteSink κ'] [ByteSource σ']
  (l : Likeness κ σ κ' σ') {c : Channels κ σ} {c' : Channels κ' σ'}

/-- Two outcomes are the same, up to the channels, or the first parts from the second. -/
def Agree {ρ μ : Type} (o : Outcome ρ μ κ σ) (o' : Outcome ρ μ κ' σ') : Prop :=
  (∃ fault, o.result = .error fault ∧ l.Parts fault) ∨
    o.result = o'.result ∧ o.state = o'.state ∧ l.Alike o.channels o'.channels

theorem agree_carryOut (h : l.Alike c c') (p : Processor) (action : Action) :
    l.Agree (p.carryOut c action) (p.carryOut c' action) := by
  cases action with
  | idle => exact Or.inr ⟨rfl, rfl, h⟩
  | fail fault => exact Or.inr ⟨rfl, rfl, h⟩
  | advance next => exact Or.inr ⟨rfl, rfl, h⟩
  | emit byte next =>
    have hput := l.put h byte
    simp only [Processor.carryOut]
    generalize ByteSink.put c.sink byte = put at hput ⊢
    generalize ByteSink.put c'.sink byte = put' at hput ⊢
    obtain ⟨result, sink⟩ := put
    obtain ⟨result', sink'⟩ := put'
    rcases hput with ⟨fault, hfault, hparts⟩ | ⟨hsame, halike⟩
    · obtain rfl : result = .error fault := hfault
      exact Or.inl ⟨fault, rfl, hparts⟩
    · obtain rfl : result = result' := hsame
      cases result with
      | ok done => exact Or.inr ⟨rfl, rfl, halike⟩
      | error fault => exact Or.inr ⟨rfl, rfl, halike⟩
  | receive next =>
    have hget := l.get h
    simp only [Processor.carryOut]
    generalize ByteSource.get c.source = get at hget ⊢
    generalize ByteSource.get c'.source = get' at hget ⊢
    obtain ⟨result, source⟩ := get
    obtain ⟨result', source'⟩ := get'
    rcases hget with ⟨fault, hfault, hparts⟩ | ⟨hsame, halike⟩
    · obtain rfl : result = .error fault := hfault
      exact Or.inl ⟨fault, rfl, hparts⟩
    · obtain rfl : result = result' := hsame
      cases result with
      | error fault => exact Or.inr ⟨rfl, rfl, halike⟩
      | ok byte =>
        simp only
        cases next byte with
        | ok after => exact Or.inr ⟨rfl, rfl, halike⟩
        | error fault => exact Or.inr ⟨rfl, rfl, halike⟩

/-- A tick comes to the same on channels that are alike. -/
theorem agree_tick (h : l.Alike c c') (p : Processor) : l.Agree (p.tick c) (p.tick c') :=
  l.agree_carryOut h p p.action

/-- A step comes to the same on channels that are alike. -/
theorem agree_step (h : l.Alike c c') (m : Machine) : l.Agree (m.step c) (m.step c') := by
  cases hturn : m.turn with
  | halt on =>
    rw [Machine.step_of_halt hturn, Machine.step_of_halt hturn]
    exact Or.inr ⟨rfl, rfl, h⟩
  | tick index p =>
    rw [Machine.step_of_tick hturn, Machine.step_of_tick hturn]
    rcases l.agree_tick h p with ⟨fault, hfault, hparts⟩ | ⟨hresult, hstate, halike⟩
    · rw [hfault]
      exact Or.inl ⟨fault, rfl, hparts⟩
    · rw [← hresult, ← hstate]
      cases (p.tick c).result with
      | ok done => exact Or.inr ⟨rfl, rfl, halike⟩
      | error fault => exact Or.inr ⟨rfl, rfl, halike⟩

end Likeness

end TapeRing
