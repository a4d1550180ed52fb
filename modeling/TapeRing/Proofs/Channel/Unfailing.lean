import TapeRing.Channel.Sink
import TapeRing.Proofs.Channel.Stable

/-! # Sinks that never fail

A sink never fails if it takes every byte, whatever bytes it has taken before. No tick and no step
changes this. -/

namespace TapeRing

variable {κ σ : Type} [ByteSink κ] [ByteSource σ]

/-- A sink that takes every byte, now and after any other bytes. -/
def Unfailing (sink : κ) : Prop :=
  ∀ (bytes : List UInt8) (byte : UInt8),
    (ByteSink.put (bytes.foldl (fun sink byte => (ByteSink.put sink byte).2) sink) byte).1 = .ok ()

theorem Unfailing.put {sink : κ} (h : Unfailing sink) (byte : UInt8) :
    ∃ sink', ByteSink.put sink byte = (.ok (), sink') ∧ Unfailing sink' :=
  ⟨(ByteSink.put sink byte).2, Prod.ext (h [] byte) rfl, fun bytes => h (byte :: bytes)⟩

theorem ByteBuffer.unfailing (b : ByteBuffer) : Unfailing b := fun _ _ => rfl

/-- No put and no get makes a sink fail that never fails. -/
theorem stable_unfailing : Channels.Stable fun c : Channels κ σ => Unfailing c.sink where
  put h byte := by
    obtain ⟨sink, hput, hlater⟩ := h.put byte
    rw [hput]
    exact hlater
  get h := h

theorem Processor.unfailing_tick {c : Channels κ σ} (h : Unfailing c.sink) (p : Processor) :
    Unfailing (p.tick c).channels.sink :=
  stable_unfailing.tick h p

theorem Machine.unfailing_step {c : Channels κ σ} (h : Unfailing c.sink) (m : Machine) :
    Unfailing (m.step c).channels.sink :=
  stable_unfailing.step h m

end TapeRing
