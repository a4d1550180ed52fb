import TapeRing.Proofs.Machine.Assembly
import TapeRing.Proofs.Machine.Returns
import TapeRing.Proofs.Machine.Sweep
import TapeRing.Proofs.Processor.Drive
import TapeRing.Proofs.Transcript

/-! # Machines with one processor

A machine with one processor goes on as the processor does on its own: its steps are the ticks of
the processor (`Single.step`), until that is finished, and then it halts. -/

namespace TapeRing

/-- A single processor is dealt the whole program. -/
theorem Program.part_one (program : Program) : program.part 1 0 = program := by
  have hops : (program.part 1 0).ops = program.ops := by
    apply List.ext_getElem?
    intro k
    have hget := get?_part Nat.one_pos program 0 k
    rwa [Nat.zero_add, Nat.mul_one] at hget
  exact congrArg Program.mk hops

namespace Machine

/-- The machine has one processor, which is this one. -/
structure Single (p : Processor) (m : Machine) : Prop where
  processors_eq : m.processors = [p]
  cursor_eq : m.cursor = 0

theorem single_fresh {config : MachineConfig} (hone : config.processors = 1) (source : String) :
    Single (Processor.load 0 (Program.parse source) config.brackets) (fresh config source) where
  processors_eq := by
    rw [fresh, hone]
    simp only [List.range_one, List.map_singleton, Program.part_one]
  cursor_eq := rfl

namespace Single

variable {κ σ : Type} [ByteSink κ] [ByteSource σ] {p q : Processor} {m : Machine}
  {c c' : Channels κ σ}

theorem turn_eq (h : Single p m) (hunfinished : p.isFinished = false) : m.turn = .tick 0 p := by
  have hp : m.processors[m.cursor]? = some p := by rw [h.processors_eq, h.cursor_eq]; rfl
  rw [turn_of_unfinished hp hunfinished, h.cursor_eq]

theorem exists_halt (h : Single p m) (hfinished : p.isFinished = true) :
    ∃ on, m.turn = .halt on := by
  have hall : ∀ q ∈ m.processors, q.isFinished = true := by
    rw [h.processors_eq]
    intro q hq
    rwa [List.mem_singleton.mp hq]
  cases hhalt : m.config.halt with
  | firstFinished =>
    have hcursor : m.cursor < m.processors.length := by
      rw [h.processors_eq, h.cursor_eq]
      exact Nat.one_pos
    exact ⟨_, (turn_firstFinished_eq_halt_iff hhalt hcursor _).mpr
      ⟨rfl, p, by rw [h.processors_eq, h.cursor_eq]; rfl, hfinished⟩⟩
  | allFinished => exact ⟨none, (turn_allFinished_eq_halt_iff hhalt none).mpr ⟨rfl, hall⟩⟩

/-- A tick that succeeds is a step. -/
theorem step_ok (h : Single p m) (hunfinished : p.isFinished = false)
    (htick : p.tick c = ⟨.ok (), q, c'⟩) :
    ∃ m', m.step c = ⟨.ok (.ticked 0), m', c'⟩ ∧ Single q m' := by
  have hstep := step_of_tick (h.turn_eq hunfinished) c
  rw [htick] at hstep
  refine ⟨_, hstep, ?_, ?_⟩
  · show m.processors.set 0 q = [q]
    rw [h.processors_eq]
    rfl
  · show (0 + 1) % m.processors.length = 0
    rw [h.processors_eq]
    exact Nat.mod_one _

/-- A tick that faults is a step that faults. -/
theorem step_error (h : Single p m) (hunfinished : p.isFinished = false) {fault : Fault}
    (hfault : (p.tick c).result = .error fault) :
    m.step c = ⟨.error fault, m, (p.tick c).channels⟩ := by
  have hstep := step_of_tick (h.turn_eq hunfinished) c
  rw [hfault, ← h.cursor_eq] at hstep
  exact hstep

theorem step (h : Single p m) (c : Channels κ σ) :
    Single (p.tick c).state (m.step c).state ∧ (m.step c).channels = (p.tick c).channels := by
  cases hfinished : p.isFinished with
  | true =>
    obtain ⟨on, hturn⟩ := h.exists_halt hfinished
    rw [step_of_halt hturn, Processor.tick_of_finished hfinished]
    exact ⟨h, rfl⟩
  | false =>
    cases hresult : (p.tick c).result with
    | ok done =>
      have htick : p.tick c = ⟨.ok (), (p.tick c).state, (p.tick c).channels⟩ := by
        rw [← hresult]
      obtain ⟨m', hstep, h'⟩ := h.step_ok hfinished htick
      rw [hstep]
      exact ⟨h', rfl⟩
    | error fault =>
      rw [h.step_error hfinished hresult, Processor.state_of_tick_error hresult]
      exact ⟨h, rfl⟩

/-- After any number of calls the processor is what the same number of ticks make of it. -/
theorem transcript (calls : Nat) (p : Processor) (m : Machine) (c : Channels κ σ)
    (h : Single p m) :
    Single (transcript Processor.tick calls p c).state
      (transcript Machine.step calls m c).state := by
  induction calls generalizing p m c with
  | zero => exact h
  | succ calls ih =>
    obtain ⟨h', hchannels⟩ := h.step c
    have hrest := ih _ _ (p.tick c).channels h'
    simp only [TapeRing.transcript, hchannels]
    exact hrest

theorem strides {count : Nat} (hstrides : Processor.Strides count p c q c') (h : Single p m) :
    ∃ m', Strides count m c m' c' ∧ Single q m' := by
  induction hstrides generalizing m with
  | rest => exact ⟨m, .rest, h⟩
  | stride hunfinished htick _ ih =>
    obtain ⟨m', hstep, h'⟩ := h.step_ok hunfinished htick
    obtain ⟨m'', hstrides, h''⟩ := ih h'
    exact ⟨m'', .stride hstep hstrides, h''⟩

/-- If the processor comes to its end, the run returns with as many ticks. -/
theorem returns_of_finished {count : Nat} (hstrides : Processor.Strides count p c q c')
    (hfinished : q.isFinished = true) (h : Single p m) :
    ∃ m' on, m.Returns c ⟨.ok ⟨count, on⟩, m', c'⟩ ∧ Single q m' ∧
      m'.ticks = m.ticks + count := by
  obtain ⟨m', hstrides', h'⟩ := h.strides hstrides
  obtain ⟨on, hturn⟩ := h'.exists_halt hfinished
  exact ⟨m', on, hstrides'.returns_iff.mpr ⟨_, (returns_iff_of_halt hturn).mpr rfl, rfl⟩, h',
    hstrides'.ticks_eq⟩

/-- If a tick of the processor faults, the run returns this fault. -/
theorem returns_of_fault {count : Nat} (hstrides : Processor.Strides count p c q c')
    (hunfinished : q.isFinished = false) {fault : Fault}
    (hfault : (q.tick c').result = .error fault) (h : Single p m) :
    ∃ m', m.Returns c ⟨.error fault, m', (q.tick c').channels⟩ ∧ Single q m' ∧
      m'.ticks = m.ticks + count := by
  obtain ⟨m', hstrides', h'⟩ := h.strides hstrides
  have hstep := h'.step_error hunfinished hfault
  exact ⟨m', hstrides'.returns_iff.mpr ⟨_, (returns_iff_of_error hstep).mpr rfl, rfl⟩, h',
    hstrides'.ticks_eq⟩

end Single

end Machine

end TapeRing
