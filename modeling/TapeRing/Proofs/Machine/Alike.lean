import TapeRing.Proofs.Channel.Likeness
import TapeRing.Proofs.Machine.Returns

/-! # Runs on channels that are alike

Runs of a machine on channels that are alike come to the same, unless the one ends with a fault with
which the channels part: with a limit of steps (`Likeness.agree_run`), as long as the steps tick
(`Likeness.strides`), and when the run returns (`Likeness.returns`). -/

namespace TapeRing

namespace Likeness

variable {κ σ κ' σ' : Type} [ByteSink κ] [ByteSource σ] [ByteSink κ'] [ByteSource σ']
  (l : Likeness κ σ κ' σ') {m m' : Machine} {c d : Channels κ σ} {c' : Channels κ' σ'}

theorem Agree.map {ρ ρ' μ : Type} {o : Outcome ρ μ κ σ} {o' : Outcome ρ μ κ' σ'}
    (h : l.Agree o o') (f : ρ → ρ') : l.Agree (o.map f) (o'.map f) := by
  rcases h with ⟨fault, hfault, hparts⟩ | ⟨hresult, hstate, halike⟩
  · exact Or.inl ⟨fault, by rw [Outcome.map, hfault]; rfl, hparts⟩
  · exact Or.inr ⟨by rw [Outcome.map, Outcome.map, hresult], hstate, halike⟩

/-- Runs with the same limit of steps come to the same. -/
theorem agree_run : ∀ (limit : Nat) (m : Machine) {c : Channels κ σ} {c' : Channels κ' σ'},
    l.Alike c c' → l.Agree (m.run limit c) (m.run limit c') := by
  intro limit
  induction limit with
  | zero => intro m c c' h; exact Or.inr ⟨rfl, rfl, h⟩
  | succ limit ih =>
    intro m c c' h
    have hagree := l.agree_step h m
    rcases Machine.step_cases m c with
      ⟨on, hturn, -⟩ | ⟨index, p, -, -, ⟨-, heq⟩ | ⟨fault, -, heq⟩⟩
    · rw [Machine.run_of_halt hturn, Machine.run_of_halt hturn]
      exact Or.inr ⟨rfl, rfl, h⟩
    · rw [heq] at hagree
      rcases hagree with ⟨fault, hfault, -⟩ | ⟨hresult, hstate, halike⟩
      · cases hfault
      · dsimp only at hresult hstate
        have heq' : m.step c' =
            ⟨.ok (.ticked index), (m.step c').state, (m.step c').channels⟩ := by rw [hresult]
        rw [Machine.run_of_ticked heq, Machine.run_of_ticked heq', ← hstate]
        exact Agree.map l (ih _ halike) _
    · rw [heq] at hagree
      rcases hagree with ⟨other, hother, hparts⟩ | ⟨hresult, hstate, halike⟩
      · cases hother
        exact Or.inl ⟨fault, by rw [Machine.run_of_error heq], hparts⟩
      · dsimp only at hresult hstate
        have heq' : m.step c' = ⟨.error fault, (m.step c').state, (m.step c').channels⟩ := by
          rw [hresult]
        rw [Machine.run_of_error heq, Machine.run_of_error heq', ← hstate]
        exact Or.inr ⟨rfl, rfl, halike⟩

/-- Steps that tick do so on channels that are alike. -/
theorem strides {count : Nat} (hstrides : Machine.Strides count m c m' d) (h : l.Alike c c') :
    ∃ d', Machine.Strides count m c' m' d' ∧ l.Alike d d' := by
  induction hstrides generalizing c' with
  | rest => exact ⟨c', .rest, h⟩
  | @stride count index m m' m'' c d d'' hstep _ ih =>
    have hagree := l.agree_step h m
    rw [hstep] at hagree
    rcases hagree with ⟨fault, hfault, -⟩ | ⟨hresult, hstate, halike⟩
    · cases hfault
    · obtain ⟨d', hstrides', halike'⟩ := ih halike
      dsimp only at hresult hstate
      rw [hstate] at hstrides'
      exact ⟨d', .stride (by rw [hresult]) hstrides', halike'⟩

/-- A run that returns does so on channels that are alike, with the same result and machine, unless
    it returns a fault with which the channels part. -/
theorem returns {o : Outcome RunSummary Machine κ σ} (hreturns : m.Returns c o)
    (h : l.Alike c c') :
    (∃ fault, o.result = .error fault ∧ l.Parts fault) ∨
      ∃ d', m.Returns c' ⟨o.result, o.state, d'⟩ ∧ l.Alike o.channels d' := by
  obtain ⟨count, m', d, hstrides, hend⟩ := hreturns.strides
  obtain ⟨d', hstrides', halike⟩ := l.strides hstrides h
  rcases hend with ⟨on, hturn, rfl⟩ | ⟨fault, hfault, rfl⟩
  · exact Or.inr ⟨d', hstrides'.returns_iff.mpr
      ⟨_, (Machine.returns_iff_of_halt hturn).mpr rfl, rfl⟩, halike⟩
  · rcases l.agree_step halike m' with ⟨fault', hfault', hparts⟩ | ⟨hresult, hstate, halike'⟩
    · rw [hfault] at hfault'
      cases hfault'
      exact Or.inl ⟨fault, rfl, hparts⟩
    · rw [hfault] at hresult
      rw [hstate]
      refine Or.inr ⟨_, hstrides'.returns_iff.mpr
        ⟨_, (Machine.returns_iff_of_error ?_).mpr rfl, rfl⟩, halike'⟩
      rw [hresult]

end Likeness

end TapeRing
