import TapeRing.Machine.Run
import TapeRing.Proofs.Processor.Successor

/-! # What a step can do

`step_cases` lists what a step of a machine comes to: it halts and changes nothing, it ticks one
processor of the ring, or that tick faults and only the cursor moves. What every tick keeps is kept
by every step (`forall_processors_step`), and what every step keeps is kept by every run
(`drive_invariant`). -/

namespace TapeRing.Machine

variable {κ σ : Type} [ByteSink κ] [ByteSource σ]

theorem mem_sweep_iff {m : Machine} {p : Processor} {index : Nat} :
    (p, index) ∈ m.sweep ↔ m.processors[index]? = some p := by
  rw [sweep, List.mem_append, or_comm, ← List.mem_append, List.take_append_drop,
    List.mem_zipIdx_iff_getElem?]

/-- A processor whose turn it is stands in the ring at its index. -/
theorem getElem?_of_turn {m : Machine} {p : Processor} {index : Nat}
    (h : m.turn = .tick index p) : m.processors[index]? = some p := by
  unfold turn at h
  split at h
  · split at h
    · cases h
    · rename_i hhead
      split at h
      · cases h
      · cases h
        exact mem_sweep_iff.mp (List.mem_of_head? hhead)
  · split at h
    · cases h
    · rename_i hfind
      cases h
      exact mem_sweep_iff.mp (List.mem_of_find?_eq_some hfind)

theorem step_of_halt {m : Machine} {on : Option Nat} (h : m.turn = .halt on)
    (channels : Channels κ σ) : m.step channels = ⟨.ok (.halted on), m, channels⟩ := by
  unfold step
  rw [h]

theorem step_of_tick {m : Machine} {p : Processor} {index : Nat} (h : m.turn = .tick index p)
    (channels : Channels κ σ) :
    m.step channels =
      match (p.tick channels).result with
      | .ok () =>
          ⟨.ok (.ticked index),
            { m with
                processors := m.processors.set index (p.tick channels).state
                cursor := m.after index
                ticks := m.ticks + 1 },
            (p.tick channels).channels⟩
      | .error fault => ⟨.error fault, { m with cursor := index }, (p.tick channels).channels⟩ := by
  unfold step
  rw [h]
  split
  · rename_i hturn
    cases hturn
  · rename_i hturn
    cases hturn
    split <;> rename_i htick <;> rw [htick]

/-- The three things that a step can come to. -/
theorem step_cases (m : Machine) (channels : Channels κ σ) :
    (∃ on, m.turn = .halt on ∧ m.step channels = ⟨.ok (.halted on), m, channels⟩) ∨
      ∃ index p, m.turn = .tick index p ∧ m.processors[index]? = some p ∧
        ((p.tick channels).result = .ok () ∧
            m.step channels =
              ⟨.ok (.ticked index),
                { m with
                    processors := m.processors.set index (p.tick channels).state
                    cursor := m.after index
                    ticks := m.ticks + 1 },
                (p.tick channels).channels⟩ ∨
          ∃ fault, (p.tick channels).result = .error fault ∧
            m.step channels =
              ⟨.error fault, { m with cursor := index }, (p.tick channels).channels⟩) := by
  cases hturn : m.turn with
  | halt on => exact Or.inl ⟨on, rfl, step_of_halt hturn channels⟩
  | tick index p =>
    refine Or.inr ⟨index, p, rfl, getElem?_of_turn hturn, ?_⟩
    have hstep := step_of_tick hturn channels
    cases hresult : (p.tick channels).result with
    | ok done =>
      rw [hresult] at hstep
      exact Or.inl ⟨rfl, hstep⟩
    | error fault =>
      rw [hresult] at hstep
      exact Or.inr ⟨fault, rfl, hstep⟩

theorem result_step_eq_halted_iff {m : Machine} {on : Option Nat} (channels : Channels κ σ) :
    (m.step channels).result = .ok (.halted on) ↔ m.turn = .halt on := by
  rcases step_cases m channels with
    ⟨on', hturn, heq⟩ | ⟨index, p, hturn, -, ⟨-, heq⟩ | ⟨fault, -, heq⟩⟩ <;>
    rw [hturn, heq] <;> simp

theorem turn_of_result_ticked {m : Machine} {channels : Channels κ σ} {index : Nat}
    (h : (m.step channels).result = .ok (.ticked index)) :
    (∃ p, m.turn = .tick index p) ∧ (m.step channels).state.ticks = m.ticks + 1 := by
  rcases step_cases m channels with
    ⟨on, -, heq⟩ | ⟨index', p, hturn, -, ⟨-, heq⟩ | ⟨fault, -, heq⟩⟩ <;> rw [heq] at h ⊢ <;> cases h
  exact ⟨⟨p, hturn⟩, rfl⟩

/-- What every tick keeps is kept by every step. -/
theorem forall_processors_step {Holds : Processor → Prop}
    (htick : ∀ p (channels : Channels κ σ), Holds p → Holds (p.tick channels).state)
    {m : Machine} (channels : Channels κ σ) (h : ∀ p ∈ m.processors, Holds p) :
    ∀ p ∈ (m.step channels).state.processors, Holds p := by
  rcases step_cases m channels with ⟨on, -, heq⟩ | ⟨index, p, -, hp, ⟨-, heq⟩ | ⟨fault, -, heq⟩⟩
  · rw [heq]
    exact h
  · rw [heq]
    intro q hq
    rcases List.mem_or_eq_of_mem_set hq with hq | rfl
    · exact h q hq
    · exact htick p channels (h p (List.mem_of_getElem? hp))
  · rw [heq]
    exact h

/-- What no tick changes stays the same throughout the ring. -/
theorem map_processors_step {α : Type} {view : Processor → α}
    (htick : ∀ p (channels : Channels κ σ), view (p.tick channels).state = view p)
    (m : Machine) (channels : Channels κ σ) :
    (m.step channels).state.processors.map view = m.processors.map view := by
  rcases step_cases m channels with ⟨on, -, heq⟩ | ⟨index, p, -, hp, ⟨-, heq⟩ | ⟨fault, -, heq⟩⟩
  · rw [heq]
  · obtain ⟨hlt, hget⟩ := List.getElem?_eq_some_iff.mp hp
    rw [heq, List.map_set, htick, ← hget, ← List.getElem_map view (h := by simpa using hlt),
      List.set_getElem_self]
  · rw [heq]

/-- What every step keeps is kept by every run. -/
theorem drive_invariant {Holds : Machine → Prop}
    (hstep : ∀ m (channels : Channels κ σ), Holds m → Holds (m.step channels).state) :
    ∀ (limit : Nat) (m : Machine) (channels : Channels κ σ),
      Holds m → Holds (m.drive limit channels).state := by
  intro limit
  induction limit with
  | zero => intro m channels h; exact h
  | succ limit ih =>
    intro m channels h
    have hnext := hstep m channels h
    unfold drive
    split <;> rename_i heq <;> rw [heq] at hnext
    · exact ih _ _ hnext
    · exact hnext
    · exact hnext

theorem state_run (limit : Nat) (m : Machine) (channels : Channels κ σ) :
    (m.run limit channels).state = (m.drive limit channels).state := by
  unfold run
  split <;> rename_i heq <;> rw [heq]

end TapeRing.Machine
