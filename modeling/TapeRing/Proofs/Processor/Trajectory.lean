import Mathlib.Data.Nat.Init
import TapeRing.Proofs.Processor.Partners
import TapeRing.Proofs.Transcript

/-! # Trajectories

A trajectory is what a processor is from tick to tick, when each tick may have any sink and source
and the processor is ticked on after faults. From one moment to the next the processor stays as it
is or it becomes one of its successors (`Trajectory.next_cases`), so what passes from processors to
their successors holds at every moment (`Trajectory.invariant`). -/

namespace TapeRing.Processor

/-- What a processor is when it has been ticked as many times as the argument says. -/
structure Trajectory (start : Processor) (run : Nat → Processor) : Prop where
  start_eq : run 0 = start
  ticked : ∀ time, ∃ (κ σ : Type) (_ : ByteSink κ) (_ : ByteSource σ) (channels : Channels κ σ),
    run (time + 1) = ((run time).tick channels).state

/-- The ticks on one sink and one source make a trajectory. -/
theorem trajectory_transcript {κ σ : Type} [ByteSink κ] [ByteSource σ] (p : Processor)
    (channels : Channels κ σ) :
    Trajectory p fun count => (transcript tick count p channels).state where
  start_eq := rfl
  ticked count := ⟨κ, σ, inferInstance, inferInstance, _, by rw [transcript_succ]⟩

namespace Trajectory

variable {start : Processor} {run : Nat → Processor}

theorem next_cases (h : Trajectory start run) (time : Nat) :
    run (time + 1) = run time ∨
      ∃ op, (run time).op? = some op ∧ (run time).Successor op (run (time + 1)) := by
  obtain ⟨κ, σ, _, _, channels, htick⟩ := h.ticked time
  rw [htick]
  exact tick_cases (run time) channels

/-- What passes from each processor to its successors holds from some moment on. -/
theorem invariant_from (h : Trajectory start run) (Holds : Processor → Prop)
    (hsuccessor : ∀ {p q : Processor} {op : Op}, p.op? = some op → p.Successor op q →
      Holds p → Holds q) {earlier later : Nat} (hle : earlier ≤ later)
    (hholds : Holds (run earlier)) : Holds (run later) := by
  induction later, hle using Nat.le_induction with
  | base => exact hholds
  | succ time _ ih =>
    rcases h.next_cases time with heq | ⟨op, hop, hnext⟩
    · rw [heq]
      exact ih
    · exact hsuccessor hop hnext ih

/-- What holds at the start and passes from each processor to its successors holds at any moment. -/
theorem invariant (h : Trajectory start run) (Holds : Processor → Prop)
    (hsuccessor : ∀ {p q : Processor} {op : Op}, p.op? = some op → p.Successor op q →
      Holds p → Holds q) (hstart : Holds start) (time : Nat) : Holds (run time) :=
  h.invariant_from Holds hsuccessor (Nat.zero_le time) (by rwa [h.start_eq])

theorem consistent (h : Trajectory start run) (hstart : start.Consistent) (time : Nat) :
    (run time).Consistent :=
  h.invariant Consistent (fun _ hnext hp => hp.successor hnext) hstart time

theorem fixed (h : Trajectory start run) (time : Nat) :
    (run time).id = start.id ∧ (run time).program = start.program := by
  refine h.invariant (fun p => p.id = start.id ∧ p.program = start.program) ?_ ⟨rfl, rfl⟩ time
  intro p q op _ hnext hp
  obtain ⟨hid, hprogram, -⟩ := hnext.fixed
  exact ⟨hid.trans hp.1, hprogram.trans hp.2⟩

end Trajectory

end TapeRing.Processor
