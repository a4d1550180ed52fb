import TapeRing.Proofs.Machine.Returns
import TapeRing.Proofs.Machine.Sweep
import TapeRing.Proofs.Processor.Exhaustion

/-! # Moving the cursor ahead

A step looks for the processor whose turn it is from the cursor on. So the steps and the runs of a
machine stay the same if the cursor is moved to that processor before (`step_at_turn`,
`run_at_turn`), and this is all that a step does to the machine if it faults. So the machine that a
fault leaves behind goes on as if there had been none (`Resumes.of_strides`). -/

namespace TapeRing.Machine

variable {κ σ : Type} [ByteSink κ] [ByteSource σ] {m : Machine} {index : Nat} {p : Processor}

/-- A machine makes the same step if the cursor is moved to the processor whose turn it is. -/
theorem step_at_turn (h : m.turn = .tick index p) (channels : Channels κ σ) :
    ({ m with cursor := index } : Machine).step channels = m.step channels := by
  rw [step_of_tick (turn_at_turn h), step_of_tick h]
  split <;> rfl

theorem run_at_turn (h : m.turn = .tick index p) (limit : Nat) (channels : Channels κ σ) :
    ({ m with cursor := index } : Machine).run (limit + 1) channels =
      m.run (limit + 1) channels := by
  simp only [run, drive, step_at_turn h]

theorem returns_at_turn (h : m.turn = .tick index p) (channels : Channels κ σ)
    (o : Outcome RunSummary Machine κ σ) :
    ({ m with cursor := index } : Machine).Returns channels o ↔ m.Returns channels o := by
  simp only [returns_iff_succ, run_at_turn h]

/-- A step that faults moves the cursor to the processor that faulted. -/
theorem cursor_of_step_error {channels : Channels κ σ} {fault : Fault}
    (h : (m.step channels).result = .error fault) :
    ∃ index p, m.turn = .tick index p ∧ (p.tick channels).result = .error fault ∧
      (m.step channels).state = { m with cursor := index } := by
  rcases step_cases m channels with
    ⟨on, -, heq⟩ | ⟨index, p, hturn, -, ⟨-, heq⟩ | ⟨other, htick, heq⟩⟩ <;>
    rw [heq] at h ⊢ <;> cases h
  exact ⟨index, p, hturn, htick, rfl⟩

/-! ## Going on after a fault -/

/-- One machine on its channels goes on like another one on other channels did after a number of
    ticks: it returns the same, and it makes the same steps. -/
structure Resumes (m : Machine) (c : Channels κ σ) (count : Nat) (m' : Machine)
    (c' : Channels κ σ) : Prop where
  returns : ∀ o, m.Returns c o ↔ ∃ o', m'.Returns c' o' ∧ o = o'.map (RunSummary.after count)
  strides : ∀ {more : Nat} {m'' : Machine} {c'' : Channels κ σ},
    Strides (more + 1) m' c' m'' c'' → Strides (count + (more + 1)) m c m'' c''

namespace Resumes

variable {count more : Nat} {m m' m'' : Machine} {c c' c'' : Channels κ σ}

theorem rest : Resumes m c 0 m c where
  returns o := by simp only [Outcome.map_after_zero, exists_eq_right']
  strides h := by rwa [Nat.zero_add]

theorem trans (h : Resumes m c count m' c') (h' : Resumes m' c' more m'' c'') :
    Resumes m c (count + more) m'' c'' where
  returns o := by
    rw [h.returns]
    constructor
    · rintro ⟨_, hreturns, rfl⟩
      obtain ⟨o', hreturns', rfl⟩ := (h'.returns _).mp hreturns
      exact ⟨o', hreturns', by rw [Outcome.map_map, RunSummary.after_comp_after]⟩
    · rintro ⟨o', hreturns, rfl⟩
      refine ⟨_, (h'.returns _).mpr ⟨o', hreturns, rfl⟩, ?_⟩
      rw [Outcome.map_map, RunSummary.after_comp_after]
  strides {later _ _} hstrides := by
    have hall : Strides (count + (more + later + 1)) _ _ _ _ := h.strides (h'.strides hstrides)
    rwa [Nat.add_assoc more, ← Nat.add_assoc] at hall

/-- A machine goes on like it would have if its last step had not failed. -/
theorem of_strides {index : Nat} {p : Processor} (h : Strides count m c m' c')
    (hturn : m'.turn = .tick index p) : Resumes m c count { m' with cursor := index } c' where
  returns o := by
    rw [h.returns_iff]
    simp only [returns_at_turn hturn]
  strides hstrides := by
    cases hstrides with
    | stride hstep hrest =>
      rw [step_at_turn hturn] at hstep
      exact h.trans (.stride hstep hrest)

end Resumes

/-- A run that fails because of its source has come, in steps that tick, to a machine whose turn it
    is to ask that source. It leaves behind this machine, with the cursor moved ahead. -/
theorem Returns.refused {fault : Fault} {m1 : Machine} {c c1 : Channels κ σ}
    (hsink : Unfailing c.sink) (hfault : ¬ fault.OfInstruction)
    (h : m.Returns c ⟨.error fault, m1, c1⟩) :
    ∃ count m' c' source index p, Strides count m c m' c' ∧
      ByteSource.get c'.source = (.error fault, source) ∧ c1 = ⟨c'.sink, source⟩ ∧
      m'.turn = .tick index p ∧ m1 = { m' with cursor := index } := by
  obtain ⟨count, m', c', hstrides, ⟨on, -, heq⟩ | ⟨other, hother, heq⟩⟩ := h.strides
  · cases heq
  · cases heq
    rcases step_cases m' c' with
      ⟨on, -, heq⟩ | ⟨index, p, hturn, -, ⟨-, heq⟩ | ⟨other, htick, heq⟩⟩ <;>
      rw [heq] at hother ⊢ <;> cases hother
    obtain ⟨source, hget, hchannels⟩ :=
      Processor.get_of_tick_error (hstrides.unfailing hsink) hfault htick
    exact ⟨count, m', c', source, index, p, hstrides, hget, hchannels, hturn, rfl⟩

end TapeRing.Machine
