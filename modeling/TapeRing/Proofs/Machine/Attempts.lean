import TapeRing.Machine.Attempt
import TapeRing.Proofs.Machine.Reachable
import TapeRing.Proofs.Machine.Returns
import TapeRing.Proofs.Machine.Sweep

/-! # The attempts of a run

The attempts of a run that has returned are its ticks in order, each by the processor whose turn it
was and with the instruction that this one was about to execute, and after them the tick that
faulted, if the run has faulted (`attempted_of_run`). A processor that is passed over attempts
nothing. -/

namespace TapeRing.Machine

variable {κ σ : Type} [ByteSink κ] [ByteSource σ] {m m' : Machine} {c c' : Channels κ σ}

/-! ## One step of a run -/

/-- What has been attempted before stays at the end. -/
theorem attemptsAfter_append (before : List Attempt) : ∀ (limit : Nat) (m : Machine)
    (c : Channels κ σ) (made : List Attempt),
      m.attemptsAfter limit c (made ++ before) = m.attemptsAfter limit c made ++ before := by
  intro limit
  induction limit with
  | zero => intro m c made; rfl
  | succ limit ih =>
    intro m c made
    unfold attemptsAfter
    dsimp only
    rw [← List.append_assoc]
    split
    · exact ih _ _ _
    · rfl

theorem attemptsAfter_eq (limit : Nat) (m : Machine) (c : Channels κ σ) (made : List Attempt) :
    m.attemptsAfter limit c made = (m.attempts limit c).reverse ++ made := by
  rw [attempts, List.reverse_reverse, ← attemptsAfter_append, List.nil_append]

/-- A larger limit does not change what a run that has returned has attempted. -/
theorem attemptsAfter_add (more : Nat) : ∀ (limit : Nat) (m : Machine) (c : Channels κ σ)
    (made : List Attempt), (m.drive limit c).result ≠ .ok none →
      m.attemptsAfter (limit + more) c made = m.attemptsAfter limit c made := by
  intro limit
  induction limit with
  | zero => intro m c made h; exact absurd rfl h
  | succ limit ih =>
    intro m c made h
    rw [Nat.succ_add]
    unfold drive at h
    unfold attemptsAfter
    dsimp only
    split
    · rename_i hstep
      rw [hstep] at h
      exact ih _ _ _ h
    · rfl

theorem attempts_add {limit : Nat} {o : Outcome RunSummary Machine κ σ}
    (h : m.run limit c = o.map some) (more : Nat) :
    m.attempts (limit + more) c = m.attempts limit c := by
  rw [attempts, attempts, attemptsAfter_add more limit m c [] (drive_result_ne_none h)]

theorem attempts_of_halt {on : Option Nat} (h : m.turn = .halt on) (limit : Nat)
    (c : Channels κ σ) : m.attempts (limit + 1) c = [] := by
  simp only [attempts, attemptsAfter, attempt?, h, step_of_halt h]
  rfl

variable {index : Nat} {p : Processor} {attempt : Attempt}

theorem attempts_of_ticked (hturn : m.turn = .tick index p) (hattempt : p.attempt? = some attempt)
    (hstep : m.step c = ⟨.ok (.ticked index), m', c'⟩) (limit : Nat) :
    m.attempts (limit + 1) c = attempt :: m'.attempts limit c' := by
  rw [attempts]
  simp only [attemptsAfter, attempt?, hturn, hattempt, hstep]
  rw [attemptsAfter_eq]
  simp

theorem attempts_of_error {fault : Fault} (hturn : m.turn = .tick index p)
    (hattempt : p.attempt? = some attempt) (hstep : m.step c = ⟨.error fault, m', c'⟩)
    (limit : Nat) : m.attempts (limit + 1) c = [attempt] := by
  simp only [attempts, attemptsAfter, attempt?, hturn, hattempt, hstep]
  rfl

/-! ## The ticks of a run -/

/-- A tick that is attempted after a number of steps that tick: it is the turn of the processor, and
    this is the instruction that it is about to execute. The step comes to `result`. -/
inductive Tries (m : Machine) (c : Channels κ σ) (count : Nat) :
    Attempt → Except Fault Step → Prop
  | turn {m' : Machine} {c' : Channels κ σ} {index : Nat} {p : Processor} {op : Op}
      {result : Except Fault Step} : Strides count m c m' c' → m'.turn = .tick index p →
      p.id = index → p.program.get? p.ip = some op → (m'.step c').result = result →
      Tries m c count ⟨index, p.ip, op, p.dp⟩ result

/-- Ticks that are made one after the other. -/
def Ticks (m : Machine) (c : Channels κ σ) (made : List Attempt) : Prop :=
  ∀ k attempt, made[k]? = some attempt → Tries m c k attempt (.ok (.ticked attempt.processor))

/-- All that a run attempts on the way to what it returns. -/
inductive Attempted (m : Machine) (c : Channels κ σ) (o : Outcome RunSummary Machine κ σ) :
    List Attempt → Prop
  | halted {made : List Attempt} {summary : RunSummary} : o.result = .ok summary →
      summary.ticks = made.length → o.state.ticks = m.ticks + made.length → Ticks m c made →
      Attempted m c o made
  | faulted {made : List Attempt} {last : Attempt} {fault : Fault} : o.result = .error fault →
      o.state.ticks = m.ticks + made.length → Ticks m c made →
      Tries m c made.length last (.error fault) → Attempted m c o (made ++ [last])

theorem Tries.after {count : Nat} {result : Except Fault Step}
    (hstep : m.step c = ⟨.ok (.ticked index), m', c'⟩) (h : Tries m' c' count attempt result) :
    Tries m c (count + 1) attempt result := by
  cases h with
  | turn hstrides hturn hid hop hresult =>
    exact .turn (.stride hstep hstrides) hturn hid hop hresult

theorem Ticks.cons {made : List Attempt}
    (hfirst : Tries m c 0 attempt (.ok (.ticked attempt.processor)))
    (hstep : m.step c = ⟨.ok (.ticked index), m', c'⟩) (h : Ticks m' c' made) :
    Ticks m c (attempt :: made) := by
  intro k later hk
  cases k with
  | zero =>
    obtain rfl := Option.some.inj hk
    exact hfirst
  | succ k => exact (h k later hk).after hstep

section Sound

variable {config : MachineConfig} {source : String}

/-- A processor whose turn it is attempts the instruction at its instruction pointer. -/
theorem Sound.exists_attempt (h : m.Sound config source) (hturn : m.turn = .tick index p) :
    ∃ op, p.id = index ∧ p.program.get? p.ip = some op ∧
      p.attempt? = some ⟨index, p.ip, op, p.dp⟩ := by
  have hp := getElem?_of_turn hturn
  have hid := (h.dealt_of_getElem? hp).1
  have hle := (h.sound p (List.mem_of_getElem? hp)).ip_le
  have hunfinished := unfinished_of_turn hturn
  cases hop : p.program.get? p.ip with
  | none =>
    have hge := Program.get?_eq_none_iff.mp hop
    simp [Processor.isFinished, Nat.le_antisymm hle hge] at hunfinished
  | some op =>
    refine ⟨op, hid, rfl, ?_⟩
    rw [Processor.attempt?, Processor.op?, hop, Option.map_some, hid]

theorem Sound.of_step {result : Except Fault Step} (h : m.Sound config source)
    (hstep : m.step c = ⟨result, m', c'⟩) : m'.Sound config source := by
  have hnext := h.step c
  rwa [hstep] at hnext

theorem Strides.sound {count : Nat} (h : Strides count m c m' c') (hsound : m.Sound config source) :
    m'.Sound config source := by
  induction h with
  | rest => exact hsound
  | stride hstep _ ih => exact ih (hsound.of_step hstep)

/-- Steps that tick are attempted in order, before everything that follows them. -/
theorem Strides.attempts_eq {count : Nat} (h : Strides count m c m' c')
    (hsound : m.Sound config source) (limit : Nat) :
    ∃ made, m.attempts (count + limit) c = made ++ m'.attempts limit c' ∧
      made.length = count ∧ Ticks m c made := by
  induction h with
  | rest =>
    refine ⟨[], by rw [Nat.zero_add, List.nil_append], rfl, ?_⟩
    intro k attempt hk
    cases hk
  | @stride count index m m' m'' c c' c'' hstep _ ih =>
    have hresult := congrArg Outcome.result hstep
    obtain ⟨⟨p, hturn⟩, -⟩ := turn_of_result_ticked hresult
    obtain ⟨op, hid, hop, hattempt⟩ := hsound.exists_attempt hturn
    obtain ⟨made, heq, hlength, hticks⟩ := ih (hsound.of_step hstep)
    refine ⟨⟨index, p.ip, op, p.dp⟩ :: made, ?_, congrArg (· + 1) hlength, ?_⟩
    · rw [Nat.add_right_comm, attempts_of_ticked hturn hattempt hstep, heq, List.cons_append]
    · exact .cons (.turn .rest hturn hid hop hresult) hstep hticks

/-- The attempts of a run that has returned are its ticks, and the tick that faulted, if any. -/
theorem attempted_of_run (hsound : m.Sound config source) {limit : Nat}
    {o : Outcome RunSummary Machine κ σ} (hrun : m.run limit c = o.map some) :
    Attempted m c o (m.attempts limit c) := by
  obtain ⟨count, rest, m', c', rfl, hstrides, hend⟩ := strides_of_run hrun
  obtain ⟨made, heq, hlength, hticks⟩ := hstrides.attempts_eq hsound (rest + 1)
  rcases hend with ⟨on, hturn, rfl⟩ | ⟨fault, hfault, rfl⟩
  · rw [heq, attempts_of_halt hturn, List.append_nil]
    exact .halted rfl hlength.symm (by rw [hstrides.ticks_eq, hlength]) hticks
  · obtain ⟨index, p, hturn⟩ : ∃ index p, m'.turn = .tick index p := by
      cases hturn : m'.turn with
      | tick index p => exact ⟨index, p, rfl⟩
      | halt on =>
        rw [step_of_halt hturn] at hfault
        cases hfault
    obtain ⟨op, hid, hop, hattempt⟩ := (hstrides.sound hsound).exists_attempt hturn
    rw [heq, attempts_of_error hturn hattempt (step_eq_of_result_error hfault)]
    subst hlength
    refine .faulted rfl ?_ hticks (.turn hstrides hturn hid hop hfault)
    rw [state_of_step_error hfault, hstrides.ticks_eq]

end Sound

end TapeRing.Machine
