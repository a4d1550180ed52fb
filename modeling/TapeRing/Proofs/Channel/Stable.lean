import TapeRing.Proofs.Machine.Steps

/-! # Properties of channels

The only things that are ever done to channels are puts and gets. So a property of channels that no
put and no get takes away is kept by ticks, by steps and by runs. -/

namespace TapeRing

/-- A property of channels that no put and no get takes away. -/
structure Channels.Stable {κ σ : Type} [ByteSink κ] [ByteSource σ] (Holds : Channels κ σ → Prop) :
    Prop where
  put : ∀ {c : Channels κ σ}, Holds c → ∀ byte,
    Holds { c with sink := (ByteSink.put c.sink byte).2 }
  get : ∀ {c : Channels κ σ}, Holds c → Holds { c with source := (ByteSource.get c.source).2 }

namespace Channels.Stable

variable {κ σ : Type} [ByteSink κ] [ByteSource σ] {Holds : Channels κ σ → Prop}
  {c : Channels κ σ}

theorem tick (h : Stable Holds) (hc : Holds c) (p : Processor) : Holds (p.tick c).channels := by
  unfold Processor.tick
  cases p.action with
  | idle => exact hc
  | fail fault => exact hc
  | advance next => exact hc
  | emit byte next =>
    have hput := h.put hc byte
    simp only [Processor.carryOut]
    generalize ByteSink.put c.sink byte = answer at hput ⊢
    obtain ⟨fault | done, sink⟩ := answer
    · exact hput
    · exact hput
  | receive next =>
    have hget := h.get hc
    simp only [Processor.carryOut]
    generalize ByteSource.get c.source = answer at hget ⊢
    obtain ⟨fault | byte, source⟩ := answer
    · exact hget
    · dsimp only
      cases next byte with
      | ok after => exact hget
      | error fault => exact hget

theorem step (h : Stable Holds) (hc : Holds c) (m : Machine) : Holds (m.step c).channels := by
  rcases m.step_cases c with
    ⟨on, -, heq⟩ | ⟨index, p, -, -, ⟨-, heq⟩ | ⟨fault, -, heq⟩⟩ <;> rw [heq]
  · exact hc
  · exact h.tick hc p
  · exact h.tick hc p

theorem drive (h : Stable Holds) : ∀ (limit : Nat) (m : Machine) {c : Channels κ σ}, Holds c →
    Holds (m.drive limit c).channels := by
  intro limit
  induction limit with
  | zero => intro m c hc; exact hc
  | succ limit ih =>
    intro m c hc
    have hnext := h.step hc m
    unfold Machine.drive
    split <;> rename_i heq <;> rw [heq] at hnext
    · exact ih _ hnext
    · exact hnext
    · exact hnext

theorem run (h : Stable Holds) (limit : Nat) (m : Machine) (hc : Holds c) :
    Holds (m.run limit c).channels := by
  have hdrive := h.drive limit m hc
  unfold Machine.run
  split <;> rename_i heq <;> rw [heq] at hdrive <;> exact hdrive

end Channels.Stable

end TapeRing
