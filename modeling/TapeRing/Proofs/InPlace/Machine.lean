import TapeRing.Proofs.InPlace.Processor
import TapeRing.Proofs.Machine.Sweep

/-! # Steps in place

The steps of a machine once more, as work that moves the cursor past finished processors one by one,
ticks a processor where it stands in the ring, and only then counts the tick and moves the cursor
on. A step in place comes to what a step comes to (`on_stepInPlace`), also when the tick faults. -/

namespace TapeRing.Machine

variable {κ σ : Type}

/-- Assigns to the machine. -/
def assign (change : Machine → Machine) : Work (Machine × Channels κ σ) Unit :=
  modify fun (m, channels) => (change m, channels)

@[simp] theorem on_assign (change : Machine → Machine) (m : Machine) (channels : Channels κ σ) :
    (assign change).on (m, channels) = (.ok (), change m, channels) := rfl

/-- Works on a processor where it stands in the ring. -/
def workAt {α : Type} (index : Nat) (p : Processor) (w : Work (Processor × Channels κ σ) α) :
    Work (Machine × Channels κ σ) α := do
  let (_, channels) ← get
  let (result, p, channels) := w.on (p, channels)
  modify fun (m, _) => ({ m with processors := m.processors.set index p }, channels)
  Work.check result

@[simp] theorem on_workAt {α : Type} (index : Nat) (p : Processor)
    (w : Work (Processor × Channels κ σ) α) (m : Machine) (channels : Channels κ σ) :
    (workAt index p w).on (m, channels) =
      let worked := w.on (p, channels)
      (worked.1, { m with processors := m.processors.set index worked.2.1 }, worked.2.2) := by
  simp [workAt]

/-- Moves the cursor on while the processor under it is finished, at most `advances` times. -/
def passInPlace : (advances : Nat) → Work (Machine × Channels κ σ) Unit
  | 0 => pure ()
  | advances + 1 => do
      let (m, _) ← get
      match m.processors[m.cursor]? with
      | none => pure ()
      | some p =>
          if p.isFinished then do
            assign ({ · with cursor := m.after m.cursor })
            passInPlace advances
          else pure ()

variable {m : Machine} {p : Processor}

/-- The cursor comes to rest at the first processor that is not finished. -/
theorem on_passInPlace (channels : Channels κ σ) (hunfinished : p.isFinished = false) :
    ∀ (passed advances : Nat) (m : Machine), m.cursor < m.processors.length → passed ≤ advances →
      (∀ earlier < passed, ∃ q,
        m.processors[(m.cursor + earlier) % m.processors.length]? = some q ∧ q.isFinished = true) →
      m.processors[(m.cursor + passed) % m.processors.length]? = some p →
      (passInPlace advances).on (m, channels) =
        (.ok (), { m with cursor := (m.cursor + passed) % m.processors.length }, channels) := by
  intro passed
  induction passed with
  | zero =>
    intro advances m hcursor _ _ hp
    rw [Nat.add_zero, Nat.mod_eq_of_lt hcursor] at hp ⊢
    cases advances with
    | zero => rfl
    | succ advances => simp [passInPlace, hp, hunfinished]
  | succ passed ih =>
    intro advances m hcursor hle hpassed hp
    obtain ⟨advances, rfl⟩ := Nat.exists_eq_add_of_le' (Nat.zero_lt_of_lt hle)
    obtain ⟨q, hq, hfinished⟩ := hpassed 0 (Nat.zero_lt_succ passed)
    rw [Nat.add_zero, Nat.mod_eq_of_lt hcursor] at hq
    -- From the next place on there is one processor less to pass over.
    have hshift : ∀ more, (m.after m.cursor + more) % m.processors.length =
        (m.cursor + (more + 1)) % m.processors.length := by
      intro more
      rw [after, Nat.mod_add_mod, Nat.add_assoc, Nat.add_comm 1]
    have hcursor' : m.after m.cursor < m.processors.length :=
      Nat.mod_lt _ (Nat.zero_lt_of_lt hcursor)
    have hpassed' : ∀ earlier < passed, ∃ q,
        m.processors[(m.after m.cursor + earlier) % m.processors.length]? = some q ∧
          q.isFinished = true := by
      intro earlier hlt
      rw [hshift]
      exact hpassed (earlier + 1) (Nat.succ_lt_succ hlt)
    rw [← hshift] at hp
    have hrest := ih advances { m with cursor := m.after m.cursor } hcursor'
      (Nat.le_of_succ_le_succ hle) hpassed' hp
    simp only [hshift] at hrest
    simp [passInPlace, hq, hfinished, hrest]

variable [ByteSink κ] [ByteSource σ]

/-- Ticks the processor under the cursor. -/
def tickCursorInPlace : Work (Machine × Channels κ σ) Step := do
  let (m, _) ← get
  match m.processors[m.cursor]? with
  | none => pure (.halted none)
  | some p => do
      workAt m.cursor p Processor.tickInPlace
      assign ({ · with ticks := m.ticks + 1 })
      assign ({ · with cursor := m.after m.cursor })
      pure (.ticked m.cursor)

/-- Makes one turn. -/
def stepInPlace : Work (Machine × Channels κ σ) Step := do
  let (m, _) ← get
  match m.config.halt with
  | .firstFinished =>
      match m.processors[m.cursor]? with
      | none => pure (.halted none)
      | some p => if p.isFinished then pure (.halted (some m.cursor)) else tickCursorInPlace
  | .allFinished =>
      if m.allFinished then pure (.halted none)
      else do
        passInPlace m.processors.length
        tickCursorInPlace

theorem on_tickCursorInPlace (hp : m.processors[m.cursor]? = some p) (channels : Channels κ σ) :
    tickCursorInPlace.on (m, channels) =
      match (p.tick channels).result with
      | .ok () =>
          (.ok (.ticked m.cursor),
            { m with
                processors := m.processors.set m.cursor (p.tick channels).state
                cursor := m.after m.cursor
                ticks := m.ticks + 1 },
            (p.tick channels).channels)
      | .error fault => (.error fault, m, (p.tick channels).channels) := by
  simp only [tickCursorInPlace, Work.on_bind, Work.on_get, hp, on_workAt, Processor.on_tickInPlace]
  cases hresult : (p.tick channels).result with
  | ok done => rfl
  | error fault =>
    obtain ⟨hlt, hget⟩ := List.getElem?_eq_some_iff.mp hp
    have hsame : m.processors.set m.cursor p = m.processors := by
      rw [← hget, List.set_getElem_self]
    simp only [Processor.state_of_tick_error hresult, hsame]

theorem on_stepInPlace_of_halt (hcursor : m.cursor < m.processors.length) {on : Option Nat}
    (hturn : m.turn = .halt on) (channels : Channels κ σ) :
    stepInPlace.on (m, channels) = (.ok (.halted on), m, channels) := by
  cases hhalt : m.config.halt with
  | firstFinished =>
    obtain ⟨rfl, p, hp, hfinished⟩ := (turn_firstFinished_eq_halt_iff hhalt hcursor on).mp hturn
    simp [stepInPlace, hhalt, hp, hfinished]
  | allFinished =>
    obtain ⟨rfl, hfinished⟩ := (turn_allFinished_eq_halt_iff hhalt on).mp hturn
    have hall : m.allFinished = true := List.all_eq_true.mpr hfinished
    simp [stepInPlace, hhalt, hall]

/-- Before a processor is ticked the cursor has been moved to it. -/
theorem on_stepInPlace_of_tick (hcursor : m.cursor < m.processors.length) {index : Nat}
    (hturn : m.turn = .tick index p) (channels : Channels κ σ) :
    stepInPlace.on (m, channels) =
      tickCursorInPlace.on ({ m with cursor := index }, channels) := by
  obtain ⟨hunfinished, passed, hlt, rfl, hfirst, hpassed⟩ := turn_tick_cases hcursor hturn
  have hp := getElem?_of_turn hturn
  cases hhalt : m.config.halt with
  | firstFinished =>
    obtain rfl := hfirst hhalt
    rw [Nat.add_zero, Nat.mod_eq_of_lt hcursor] at hp ⊢
    simp [stepInPlace, hhalt, hp, hunfinished]
  | allFinished =>
    have hnot : m.allFinished = false :=
      List.all_eq_false.mpr ⟨p, List.mem_of_getElem? hp, by simp [hunfinished]⟩
    have hpass := on_passInPlace channels hunfinished passed m.processors.length m hcursor
      (Nat.le_of_lt hlt) hpassed hp
    simp [stepInPlace, hhalt, hnot, hpass]

/-- A step in place comes to what a step comes to. -/
theorem on_stepInPlace (hcursor : m.cursor < m.processors.length) (channels : Channels κ σ) :
    stepInPlace.on (m, channels) =
      ((m.step channels).result, (m.step channels).state, (m.step channels).channels) := by
  cases hturn : m.turn with
  | halt on => rw [on_stepInPlace_of_halt hcursor hturn, step_of_halt hturn]
  | tick index p =>
    have hp := getElem?_of_turn hturn
    rw [on_stepInPlace_of_tick hcursor hturn, step_of_tick hturn,
      on_tickCursorInPlace (m := { m with cursor := index }) hp]
    cases (p.tick channels).result <;> rfl

end TapeRing.Machine
