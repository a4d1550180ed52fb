import Mathlib.Data.ENat.Lattice
import TapeRing.Proofs.Processor.Inputless
import TapeRing.Proofs.Transcript

/-! # Lifetimes

How many ticks a processor takes on its own until it is finished, and how many it makes until one
faults. Either number can be infinite, and at most one of them is finite: a processor that is
finished does not fault any more (`faultTime_eq_top`). -/

namespace TapeRing

/-- The least number with a property, or infinity. -/
noncomputable def firstTime (Holds : Nat → Prop) : ℕ∞ :=
  open Classical in if h : ∃ count, Holds count then (Nat.find h : ℕ∞) else ⊤

section FirstTime

variable {Holds : Nat → Prop} {count : Nat}

theorem firstTime_le (h : Holds count) : firstTime Holds ≤ count := by
  classical
  have hexists : ∃ count, Holds count := ⟨count, h⟩
  rw [firstTime, dif_pos hexists]
  exact_mod_cast Nat.find_min' hexists h

theorem holds_of_firstTime_eq (h : firstTime Holds = count) : Holds count := by
  classical
  unfold firstTime at h
  split at h
  · rename_i hexists
    obtain rfl : Nat.find hexists = count := by exact_mod_cast h
    exact Nat.find_spec hexists
  · exact absurd h.symm (ENat.natCast_ne_top count)

/-- One more time without the property. -/
theorem succ_le_firstTime (hle : (count : ℕ∞) ≤ firstTime Holds) (h : ¬ Holds count) :
    ((count + 1 : Nat) : ℕ∞) ≤ firstTime Holds := by
  have hne : (count : ℕ∞) ≠ firstTime Holds := fun heq => h (holds_of_firstTime_eq heq.symm)
  rw [Nat.cast_succ, ENat.natCast_add_one_le_iff]
  exact lt_of_le_of_ne hle hne

end FirstTime

namespace Processor

variable {κ σ : Type} [ByteSink κ] [ByteSource σ]

/-- What a processor is after a number of ticks on its own. -/
def alone (p : Processor) (channels : Channels κ σ) (count : Nat) : Processor :=
  (transcript tick count p channels).state

/-- What the next tick comes to after a number of ticks on its own. -/
def tickAlone (p : Processor) (channels : Channels κ σ) (count : Nat) :
    Outcome Unit Processor κ σ :=
  (p.alone channels count).tick (transcript tick count p channels).channels

/-- The number of ticks on its own after which a processor is finished. -/
noncomputable def finishTime (p : Processor) (channels : Channels κ σ) : ℕ∞ :=
  firstTime fun count => (p.alone channels count).isFinished = true

/-- The number of ticks that a processor makes on its own before one faults. -/
noncomputable def faultTime (p : Processor) (channels : Channels κ σ) : ℕ∞ :=
  firstTime fun count => ∃ fault, (p.tickAlone channels count).result = .error fault

section Alone

variable {p : Processor} {channels : Channels κ σ} {count : Nat}

theorem alone_succ : p.alone channels (count + 1) = (p.tickAlone channels count).state := by
  rw [alone, transcript_succ]
  rfl

/-- Once a processor is finished it stays as it is. -/
theorem alone_of_finished (h : (p.alone channels count).isFinished = true) (more : Nat) :
    p.alone channels (count + more) = p.alone channels count := by
  induction more with
  | zero => rfl
  | succ more ih =>
    rw [← Nat.add_assoc, alone_succ, tickAlone, ih, tick_of_finished h]

theorem finished_of_finishTime_le (h : p.finishTime channels ≤ count) :
    (p.alone channels count).isFinished = true := by
  have hfinite := ne_top_of_le_ne_top (ENat.natCast_ne_top count) h
  obtain ⟨first, hfirst⟩ := ENat.ne_top_iff_exists.mp hfinite
  have hfinished := holds_of_firstTime_eq hfirst.symm
  rw [← hfirst] at h
  obtain ⟨more, rfl⟩ := Nat.exists_eq_add_of_le (ENat.natCast_le_natCast.mp h)
  rw [alone_of_finished hfinished]
  exact hfinished

theorem finishTime_le_iff :
    p.finishTime channels ≤ count ↔ (p.alone channels count).isFinished = true :=
  ⟨finished_of_finishTime_le, fun h => firstTime_le h⟩

theorem result_of_faultTime_eq (h : p.faultTime channels = count) :
    ∃ fault, (p.tickAlone channels count).result = .error fault :=
  holds_of_firstTime_eq h

/-- A processor that finishes without a fault never faults. -/
theorem faultTime_eq_top (hfinish : p.finishTime channels ≤ count)
    (hfault : (count : ℕ∞) ≤ p.faultTime channels) : p.faultTime channels = ⊤ := by
  by_contra hfinite
  obtain ⟨later, hlater⟩ := ENat.ne_top_iff_exists.mp hfinite
  obtain ⟨fault, herror⟩ := result_of_faultTime_eq hlater.symm
  have hle : p.finishTime channels ≤ later := hlater ▸ hfinish.trans hfault
  rw [tickAlone, tick_of_finished (finishTime_le_iff.mp hle)] at herror
  cases herror

theorem program_alone : (p.alone channels count).program = p.program := by
  have hkept : ∀ (q : Processor) (channels : Channels κ σ), q.program = p.program →
      (q.tick channels).state.program = p.program :=
    fun q channels h => (fixed_tick q channels).2.1.trans h
  exact transcript_invariant hkept count p channels rfl

theorem unfailing_transcript (hsink : Unfailing channels.sink) (count : Nat) :
    Unfailing (transcript tick count p channels).channels.sink := by
  induction count with
  | zero => exact hsink
  | succ count ih =>
    rw [transcript_succ]
    exact unfailing_tick ih _

end Alone

/-! ## Keeping pace -/

/-- A processor has come as far as another comes with a number of ticks on its own, and that one is
    finished no earlier and faults no earlier. -/
structure KeepsPace (own : Processor) (channels : Channels κ σ) (count : Nat) (p : Processor) :
    Prop where
  eq_alone : p = own.alone channels count
  le_finishTime : (count : ℕ∞) ≤ own.finishTime channels
  le_faultTime : (count : ℕ∞) ≤ own.faultTime channels

theorem KeepsPace.start (p : Processor) (channels : Channels κ σ) : p.KeepsPace channels 0 p :=
  ⟨rfl, zero_le, zero_le⟩

namespace KeepsPace

variable {own p : Processor} {channels : Channels κ σ} {count : Nat}

theorem finished_iff (h : own.KeepsPace channels count p) :
    p.isFinished = true ↔ own.finishTime channels = count := by
  rw [h.eq_alone, ← finishTime_le_iff]
  exact ⟨fun hle => le_antisymm hle h.le_finishTime, le_of_eq⟩

theorem faultTime_of_finished (h : own.KeepsPace channels count p)
    (hfinished : p.isFinished = true) : own.faultTime channels = ⊤ :=
  faultTime_eq_top (le_of_eq (h.finished_iff.mp hfinished)) h.le_faultTime

section Tick

variable {κ' σ' : Type} [ByteSink κ'] [ByteSource σ'] {c : Channels κ' σ'}
  (hinputless : own.program.Inputless) (hsink : Unfailing channels.sink) (hsink' : Unfailing c.sink)

include hinputless hsink hsink'

/-- Without input the next tick is that of the processor on its own. -/
theorem tick_eq (h : own.KeepsPace channels count p) :
    (p.tick c).result = (own.tickAlone channels count).result ∧
      (p.tick c).state = own.alone channels (count + 1) := by
  have hprogram : (own.alone channels count).program.Inputless := by rwa [program_alone]
  rw [h.eq_alone, alone_succ]
  exact tick_inputless hprogram hsink' (unfailing_transcript hsink count)

theorem tick (h : own.KeepsPace channels count p) (hunfinished : p.isFinished = false)
    (hok : (p.tick c).result = .ok ()) : own.KeepsPace channels (count + 1) (p.tick c).state where
  eq_alone := (h.tick_eq hinputless hsink hsink').2
  le_finishTime := by
    refine succ_le_firstTime h.le_finishTime fun hfinished => ?_
    rw [← h.eq_alone, hunfinished] at hfinished
    cases hfinished
  le_faultTime := by
    refine succ_le_firstTime h.le_faultTime ?_
    rintro ⟨fault, hfault⟩
    rw [← (h.tick_eq hinputless hsink hsink').1, hok] at hfault
    cases hfault

theorem fault (h : own.KeepsPace channels count p) {fault : Fault}
    (hfault : (p.tick c).result = .error fault) :
    own.faultTime channels = count ∧ (own.tickAlone channels count).result = .error fault := by
  rw [(h.tick_eq hinputless hsink hsink').1] at hfault
  exact ⟨le_antisymm (firstTime_le ⟨fault, hfault⟩) h.le_faultTime, hfault⟩

end Tick

end KeepsPace

end Processor

end TapeRing
