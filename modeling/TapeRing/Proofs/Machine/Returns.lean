import Mathlib.Data.Nat.Find
import TapeRing.Proofs.Channel.Unfailing

/-! # Runs that return

A run returns an outcome if it has that outcome once its limit of steps is large enough. Before it
returns it makes a number of steps that all tick (`Returns.strides`), and a run that never returns
makes such steps for ever (`not_returns_iff`). -/

namespace TapeRing

/-- The outcome with another result in the place of a result. -/
def Outcome.map {ρ ρ' μ κ σ : Type} (f : ρ → ρ') (o : Outcome ρ μ κ σ) : Outcome ρ' μ κ σ :=
  ⟨o.result.map f, o.state, o.channels⟩

theorem Outcome.map_map {ρ ρ' ρ'' μ κ σ : Type} (f : ρ' → ρ'') (g : ρ → ρ')
    (o : Outcome ρ μ κ σ) : (o.map g).map f = o.map (f ∘ g) := by
  obtain ⟨result, state, channels⟩ := o
  cases result <;> rfl

theorem Outcome.map_some_injective {ρ μ κ σ : Type} {o o' : Outcome ρ μ κ σ}
    (h : o.map some = o'.map some) : o = o' := by
  obtain ⟨result, state, channels⟩ := o
  obtain ⟨result', state', channels'⟩ := o'
  simp only [map, Outcome.mk.injEq] at h
  obtain ⟨hresult, rfl, rfl⟩ := h
  cases result <;> cases result' <;> cases hresult <;> rfl

theorem Outcome.none_ne_map_some {ρ μ κ σ : Type} {state : μ} {channels : Channels κ σ}
    {o : Outcome ρ μ κ σ} : ⟨.ok none, state, channels⟩ ≠ o.map some := by
  obtain ⟨result, state', channels'⟩ := o
  cases result <;> exact fun h => nomatch h

/-- An outcome with a result behind it comes from one with a result. -/
theorem Outcome.exists_of_map_eq_map_some {ρ ρ' μ κ σ : Type} {f : ρ → ρ'}
    {o : Outcome (Option ρ) μ κ σ} {o' : Outcome ρ' μ κ σ}
    (h : o.map (Option.map f) = o'.map some) :
    ∃ before : Outcome ρ μ κ σ, o = before.map some ∧ o' = before.map f := by
  obtain ⟨result, state, channels⟩ := o
  obtain ⟨result', state', channels'⟩ := o'
  simp only [map, Outcome.mk.injEq] at h
  obtain ⟨hresult, rfl, rfl⟩ := h
  cases result with
  | error fault =>
    refine ⟨⟨.error fault, state, channels⟩, rfl, ?_⟩
    cases result' <;> cases hresult
    rfl
  | ok value =>
    cases value with
    | none => cases result' <;> cases hresult
    | some value =>
      refine ⟨⟨.ok value, state, channels⟩, rfl, ?_⟩
      cases result' <;> cases hresult
      rfl

/-- The summary of a run that goes on from where a number of ticks have led. -/
def RunSummary.after (count : Nat) (summary : RunSummary) : RunSummary :=
  { summary with ticks := count + summary.ticks }

theorem RunSummary.after_zero : RunSummary.after 0 = id := by
  funext summary
  simp only [after, Nat.zero_add]
  rfl

theorem RunSummary.after_comp_after (count more : Nat) :
    RunSummary.after count ∘ RunSummary.after more = RunSummary.after (count + more) := by
  funext summary
  simp only [Function.comp_apply, after, Nat.add_assoc]

theorem Outcome.map_after_zero {μ κ σ : Type} (o : Outcome RunSummary μ κ σ) :
    o.map (RunSummary.after 0) = o := by
  obtain ⟨result, state, channels⟩ := o
  rw [RunSummary.after_zero]
  cases result <;> rfl

namespace Machine

variable {κ σ : Type} [ByteSink κ] [ByteSource σ] {m m' : Machine} {c c' : Channels κ σ}

/-- A run with a large enough limit of steps has this outcome. -/
def Returns (m : Machine) (channels : Channels κ σ) (o : Outcome RunSummary Machine κ σ) : Prop :=
  ∃ limit, m.run limit channels = o.map some

/-- No run returns without a step. -/
theorem returns_iff_succ {o : Outcome RunSummary Machine κ σ} :
    Returns m c o ↔ ∃ limit, m.run (limit + 1) c = o.map some := by
  constructor
  · rintro ⟨limit, hrun⟩
    cases limit with
    | zero => exact absurd hrun Outcome.none_ne_map_some
    | succ limit => exact ⟨limit, hrun⟩
  · rintro ⟨limit, hrun⟩
    exact ⟨limit + 1, hrun⟩

theorem drive_result_ne_none {limit : Nat} {o : Outcome RunSummary Machine κ σ}
    (h : m.run limit c = o.map some) : (m.drive limit c).result ≠ .ok none := by
  rcases hdrive : m.drive limit c with ⟨result, m', c'⟩
  rintro rfl
  rw [run, hdrive] at h
  exact Outcome.none_ne_map_some h

/-- Once a run has returned it does not change with larger limits. -/
theorem run_add {limit : Nat} {o : Outcome RunSummary Machine κ σ}
    (h : m.run limit c = o.map some) (more : Nat) : m.run (limit + more) c = o.map some := by
  rw [← h, run, run, drive_add more limit m c (drive_result_ne_none h)]

theorem Returns.eventually {o : Outcome RunSummary Machine κ σ} (h : Returns m c o) :
    ∃ limit, ∀ more, m.run (limit + more) c = o.map some := by
  obtain ⟨limit, hrun⟩ := h
  exact ⟨limit, run_add hrun⟩

/-- A run has returned within a limit, or it has no result yet. -/
theorem returned_or_none (m : Machine) (c : Channels κ σ) (limit : Nat) :
    (∃ o : Outcome RunSummary Machine κ σ, m.run limit c = o.map some) ∨
      (m.run limit c).result = .ok none := by
  rcases m.run limit c with ⟨fault | summary, m', c'⟩
  · exact Or.inl ⟨⟨.error fault, m', c'⟩, rfl⟩
  · cases summary with
    | none => exact Or.inr rfl
    | some summary => exact Or.inl ⟨⟨.ok summary, m', c'⟩, rfl⟩

/-! ## One step of a run -/

theorem ticks_drive_le (limit : Nat) (m : Machine) (channels : Channels κ σ) :
    m.ticks ≤ (m.drive limit channels).state.ticks := by
  have hkept : ∀ (m' : Machine) (channels' : Channels κ σ), m.ticks ≤ m'.ticks →
      m.ticks ≤ (m'.step channels').state.ticks := by
    intro m' channels' hle
    rcases step_cases m' channels' with
      ⟨on, -, heq⟩ | ⟨index, p, -, -, ⟨-, heq⟩ | ⟨fault, -, heq⟩⟩ <;> rw [heq]
    · exact hle
    · exact Nat.le_succ_of_le hle
    · exact hle
  exact drive_invariant hkept limit m channels (Nat.le_refl _)

theorem run_of_halt {on : Option Nat} (h : m.turn = .halt on) (limit : Nat) (c : Channels κ σ) :
    m.run (limit + 1) c = ⟨.ok (some ⟨0, on⟩), m, c⟩ := by
  simp only [run, drive, step_of_halt h, Nat.sub_self]

theorem step_eq_of_result_error {fault : Fault} (h : (m.step c).result = .error fault) :
    m.step c = ⟨.error fault, (m.step c).state, (m.step c).channels⟩ := by
  rw [← h]

theorem run_of_error {fault : Fault} (h : m.step c = ⟨.error fault, m', c'⟩) (limit : Nat) :
    m.run (limit + 1) c = ⟨.error fault, m', c'⟩ := by
  simp only [run, drive, h]

theorem ticks_of_step_ticked {index : Nat} (h : m.step c = ⟨.ok (.ticked index), m', c'⟩) :
    m'.ticks = m.ticks + 1 := by
  rcases step_cases m c with ⟨on, -, heq⟩ | ⟨index, p, -, -, ⟨-, heq⟩ | ⟨fault, -, heq⟩⟩ <;>
    rw [heq] at h <;> cases h
  rfl

theorem run_of_ticked {index : Nat} (h : m.step c = ⟨.ok (.ticked index), m', c'⟩) (limit : Nat) :
    m.run (limit + 1) c = (m'.run limit c').map (Option.map (RunSummary.after 1)) := by
  have hticks := ticks_of_step_ticked h
  have hle := ticks_drive_le limit m' c'
  simp only [run, drive, h]
  split
  · rfl
  · rename_i on m'' c'' heq
    rw [heq, hticks] at hle
    dsimp only at hle
    have hcount : m''.ticks - m.ticks = 1 + (m''.ticks - m'.ticks) := by omega
    simp only [Outcome.map, Except.map, Option.map, RunSummary.after, hcount]
  · rfl

/-- A run of a machine that halts returns at once. -/
theorem returns_iff_of_halt {on : Option Nat} (h : m.turn = .halt on)
    {o : Outcome RunSummary Machine κ σ} : Returns m c o ↔ o = ⟨.ok ⟨0, on⟩, m, c⟩ := by
  rw [returns_iff_succ]
  constructor
  · rintro ⟨limit, hrun⟩
    rw [run_of_halt h] at hrun
    exact Outcome.map_some_injective hrun.symm
  · rintro rfl
    exact ⟨0, run_of_halt h 0 c⟩

/-- A run whose first step faults returns with the fault. -/
theorem returns_iff_of_error {fault : Fault} (h : m.step c = ⟨.error fault, m', c'⟩)
    {o : Outcome RunSummary Machine κ σ} : Returns m c o ↔ o = ⟨.error fault, m', c'⟩ := by
  rw [returns_iff_succ]
  constructor
  · rintro ⟨limit, hrun⟩
    rw [run_of_error h] at hrun
    exact Outcome.map_some_injective hrun.symm
  · rintro rfl
    exact ⟨0, run_of_error h 0⟩

/-- A run whose first step ticks returns what the rest of it returns, with one more tick. -/
theorem returns_iff_of_ticked {index : Nat} (h : m.step c = ⟨.ok (.ticked index), m', c'⟩)
    {o : Outcome RunSummary Machine κ σ} :
    Returns m c o ↔ ∃ o', Returns m' c' o' ∧ o = o'.map (RunSummary.after 1) := by
  rw [returns_iff_succ]
  constructor
  · rintro ⟨limit, hrun⟩
    rw [run_of_ticked h] at hrun
    obtain ⟨o', hrun', rfl⟩ := Outcome.exists_of_map_eq_map_some hrun
    exact ⟨o', ⟨limit, hrun'⟩, rfl⟩
  · rintro ⟨o', ⟨limit, hrun⟩, rfl⟩
    refine ⟨limit, ?_⟩
    rw [run_of_ticked h, hrun, Outcome.map_map, Outcome.map_map]
    rfl

/-! ## Steps that tick -/

/-- A number of steps that all tick. -/
inductive Strides : Nat → Machine → Channels κ σ → Machine → Channels κ σ → Prop
  | rest {m : Machine} {c : Channels κ σ} : Strides 0 m c m c
  | stride {count index : Nat} {m m' m'' : Machine} {c c' c'' : Channels κ σ} :
      m.step c = ⟨.ok (.ticked index), m', c'⟩ → Strides count m' c' m'' c'' →
      Strides (count + 1) m c m'' c''

namespace Strides

variable {count : Nat}

theorem ticks_eq (h : Strides count m c m' c') : m'.ticks = m.ticks + count := by
  induction h with
  | rest => rfl
  | stride hstep _ ih =>
    rw [ih, ticks_of_step_ticked hstep, Nat.add_right_comm, Nat.add_assoc]

theorem trans {more : Nat} {m'' : Machine} {c'' : Channels κ σ} (h : Strides count m c m' c')
    (h' : Strides more m' c' m'' c'') : Strides (count + more) m c m'' c'' := by
  induction h with
  | rest => simpa using h'
  | stride hstep _ ih =>
    rw [Nat.add_right_comm]
    exact .stride hstep (ih h')

theorem run_eq (h : Strides count m c m' c') : m.run count c = ⟨.ok none, m', c'⟩ := by
  induction h with
  | rest => rfl
  | stride hstep _ ih =>
    rw [run_of_ticked hstep, ih]
    rfl

theorem fixed (h : Strides count m c m' c') :
    m'.config = m.config ∧ m'.processors.length = m.processors.length := by
  induction h with
  | rest => exact ⟨rfl, rfl⟩
  | @stride _ _ m _ _ c _ _ hstep _ ih =>
    have hconfig := config_step m c
    have hlength := length_processors_step m c
    rw [hstep] at hconfig hlength
    exact ⟨ih.1.trans hconfig, ih.2.trans hlength⟩

theorem unfailing (h : Strides count m c m' c') (hsink : Unfailing c.sink) :
    Unfailing c'.sink := by
  induction h with
  | rest => exact hsink
  | @stride _ _ m _ _ _ _ _ hstep _ ih =>
    have hnext := unfailing_step hsink m
    rw [hstep] at hnext
    exact ih hnext

/-- A run that begins with steps that tick returns what the rest of it returns, with these
    ticks. -/
theorem returns_iff (h : Strides count m c m' c') {o : Outcome RunSummary Machine κ σ} :
    Returns m c o ↔ ∃ o', Returns m' c' o' ∧ o = o'.map (RunSummary.after count) := by
  induction h generalizing o with
  | rest => simp only [Outcome.map_after_zero, exists_eq_right']
  | @stride count index m m' m'' c c' c'' hstep _ ih =>
    rw [returns_iff_of_ticked hstep]
    constructor
    · rintro ⟨_, hreturns, rfl⟩
      obtain ⟨o', hreturns', rfl⟩ := ih.mp hreturns
      exact ⟨o', hreturns', by rw [Outcome.map_map, RunSummary.after_comp_after, Nat.add_comm]⟩
    · rintro ⟨o', hreturns, rfl⟩
      refine ⟨o'.map (RunSummary.after count), ih.mpr ⟨o', hreturns, rfl⟩, ?_⟩
      rw [Outcome.map_map, RunSummary.after_comp_after, Nat.add_comm]

end Strides

/-! ## Whole runs -/

/-- A run that has returned within a limit has made steps that tick, and then it has halted or
    faulted. -/
theorem strides_of_run {limit : Nat} {o : Outcome RunSummary Machine κ σ}
    (hrun : m.run limit c = o.map some) :
    ∃ count rest m' c', limit = count + (rest + 1) ∧ Strides count m c m' c' ∧
      ((∃ on, m'.turn = .halt on ∧ o = ⟨.ok ⟨count, on⟩, m', c'⟩) ∨
        ∃ fault, (m'.step c').result = .error fault ∧
          o = ⟨.error fault, (m'.step c').state, (m'.step c').channels⟩) := by
  induction limit generalizing m c o with
  | zero => exact absurd hrun Outcome.none_ne_map_some
  | succ limit ih =>
    rcases step_cases m c with
      ⟨on, hturn, -⟩ | ⟨index, p, -, -, ⟨-, heq⟩ | ⟨fault, -, heq⟩⟩
    · rw [run_of_halt hturn] at hrun
      exact ⟨0, limit, m, c, (Nat.zero_add _).symm, .rest,
        Or.inl ⟨on, hturn, Outcome.map_some_injective hrun.symm⟩⟩
    · rw [run_of_ticked heq] at hrun
      obtain ⟨o', hrun', rfl⟩ := Outcome.exists_of_map_eq_map_some hrun
      obtain ⟨count, rest, m', c', rfl, hstrides, hend⟩ := ih hrun'
      refine ⟨count + 1, rest, m', c', (Nat.succ_add _ _).symm, .stride heq hstrides, ?_⟩
      rcases hend with ⟨on, hturn, rfl⟩ | ⟨fault, hfault, rfl⟩
      · refine Or.inl ⟨on, hturn, ?_⟩
        rw [Nat.add_comm]
        rfl
      · exact Or.inr ⟨fault, hfault, rfl⟩
    · rw [run_of_error heq] at hrun
      refine ⟨0, limit, m, c, (Nat.zero_add _).symm, .rest, Or.inr ⟨fault, by rw [heq], ?_⟩⟩
      rw [heq]
      exact Outcome.map_some_injective hrun.symm

/-- Before a run returns its steps tick, and then it halts or faults. -/
theorem Returns.strides {o : Outcome RunSummary Machine κ σ} (h : Returns m c o) :
    ∃ count m' c', Strides count m c m' c' ∧
      ((∃ on, m'.turn = .halt on ∧ o = ⟨.ok ⟨count, on⟩, m', c'⟩) ∨
        ∃ fault, (m'.step c').result = .error fault ∧
          o = ⟨.error fault, (m'.step c').state, (m'.step c').channels⟩) := by
  obtain ⟨limit, hrun⟩ := h
  obtain ⟨count, -, m', c', -, hstrides, hend⟩ := strides_of_run hrun
  exact ⟨count, m', c', hstrides, hend⟩

/-- A run returns at most one outcome. -/
theorem Returns.unique {o o' : Outcome RunSummary Machine κ σ} (h : Returns m c o)
    (h' : Returns m c o') : o = o' := by
  obtain ⟨count, m', c', hstrides, hend⟩ := h.strides
  obtain ⟨o'', hreturns, rfl⟩ := hstrides.returns_iff.mp h'
  rcases hend with ⟨on, hturn, rfl⟩ | ⟨fault, hfault, rfl⟩
  · rw [(returns_iff_of_halt hturn).mp hreturns]
    rfl
  · rw [(returns_iff_of_error (step_eq_of_result_error hfault)).mp hreturns]
    rfl

/-- A run that returns does so with every limit from some limit on, and with no other. -/
theorem Returns.exists_least {o : Outcome RunSummary Machine κ σ} (h : Returns m c o) :
    ∃ least, (∀ more, m.run (least + more) c = o.map some) ∧
      ∀ limit, limit < least → (m.run limit c).result = .ok none := by
  classical
  refine ⟨Nat.find h, run_add (Nat.find_spec h), ?_⟩
  intro limit hlt
  have hnot := Nat.find_min h hlt
  rcases returned_or_none m c limit with ⟨o', hrun⟩ | hnone
  · obtain rfl : o = o' := h.unique ⟨limit, hrun⟩
    exact absurd hrun hnot
  · exact hnone

/-- A run returns within a number of steps, or all those steps tick. -/
theorem returns_or_strides (count : Nat) (m : Machine) (c : Channels κ σ) :
    (∃ o, Returns m c o) ∨ ∃ m' c', Strides count m c m' c' := by
  induction count generalizing m c with
  | zero => exact Or.inr ⟨m, c, .rest⟩
  | succ count ih =>
    rcases step_cases m c with
      ⟨on, hturn, -⟩ | ⟨index, p, -, -, ⟨-, heq⟩ | ⟨fault, -, heq⟩⟩
    · exact Or.inl ⟨_, (returns_iff_of_halt hturn).mpr rfl⟩
    · rcases ih _ _ with ⟨o, hreturns⟩ | ⟨m', c', hstrides⟩
      · exact Or.inl ⟨_, (returns_iff_of_ticked heq).mpr ⟨o, hreturns, rfl⟩⟩
      · exact Or.inr ⟨m', c', .stride heq hstrides⟩
    · exact Or.inl ⟨_, (returns_iff_of_error heq).mpr rfl⟩

/-- A run that cannot make more than a number of steps that tick returns. -/
theorem exists_returns_of_bound (bound : Nat)
    (h : ∀ count m' c', Strides count m c m' c' → count ≤ bound) : ∃ o, Returns m c o := by
  refine (returns_or_strides (bound + 1) m c).resolve_right ?_
  rintro ⟨m', c', hstrides⟩
  exact absurd (h _ m' c' hstrides) (Nat.not_succ_le_self bound)

/-- A run never returns iff its steps tick for ever. -/
theorem not_returns_iff :
    (∀ o, ¬ Returns m c o) ↔ ∀ count, ∃ m' c', Strides count m c m' c' := by
  constructor
  · intro hnever count
    exact (returns_or_strides count m c).resolve_left fun ⟨o, hreturns⟩ => hnever o hreturns
  · rintro hforever o ⟨limit, hrun⟩
    obtain ⟨m', c', hstrides⟩ := hforever limit
    rw [hstrides.run_eq] at hrun
    exact Outcome.none_ne_map_some hrun

end Machine

end TapeRing
