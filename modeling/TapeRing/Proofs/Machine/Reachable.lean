import TapeRing.Proofs.Machine.Assembly
import TapeRing.Proofs.Machine.Steps
import TapeRing.Proofs.Processor.Sound

/-! # Reachable machines

The machines that a machine can become by calls of `step` and `run`, each with any sink and source
and each going on from what a fault left behind. A sound machine has the processors that its program
was dealt to, all of them sound, and a cursor that points at one of them; a machine that is reached
from an assembled one is sound (`Reaches.sound`). -/

namespace TapeRing

/-- What a processor is and what it executes. -/
def Processor.dealt (p : Processor) : Nat × Program :=
  (p.id, p.program)

namespace Machine

/-- The machines that a number of calls can lead to. -/
inductive Reaches (start : Machine) : Machine → Prop
  | start : Reaches start start
  | stepped {κ σ : Type} [ByteSink κ] [ByteSource σ] {m : Machine} (channels : Channels κ σ) :
      Reaches start m → Reaches start (m.step channels).state
  | ran {κ σ : Type} [ByteSink κ] [ByteSource σ] {m : Machine} (limit : Nat)
      (channels : Channels κ σ) :
      Reaches start m → Reaches start (m.run limit channels).state

/-- What every step keeps holds of everything that is reached. -/
theorem Reaches.invariant {Holds : Machine → Prop}
    (hstep : ∀ {κ σ : Type} [ByteSink κ] [ByteSource σ] (m : Machine) (channels : Channels κ σ),
      Holds m → Holds (m.step channels).state)
    {start m : Machine} (h : Reaches start m) (hstart : Holds start) : Holds m := by
  induction h with
  | start => exact hstart
  | stepped channels _ ih => exact hstep _ channels ih
  | ran limit channels _ ih =>
    rw [state_run]
    exact drive_invariant hstep limit _ channels ih

structure Sound (config : MachineConfig) (source : String) (m : Machine) : Prop where
  config_eq : m.config = config
  dealt : m.processors.map Processor.dealt =
    (List.range config.processors).map fun index =>
      (index, (Program.parse source).part config.processors index)
  sound : ∀ p ∈ m.processors, p.Sound
  cursor_lt : m.cursor < config.processors

variable {config : MachineConfig} {source : String} {m : Machine}

theorem Sound.length_processors (h : m.Sound config source) :
    m.processors.length = config.processors := by
  have hlength := congrArg List.length h.dealt
  simpa using hlength

theorem Sound.dealt_of_getElem? (h : m.Sound config source) {p : Processor} {index : Nat}
    (hp : m.processors[index]? = some p) :
    p.id = index ∧ p.program = (Program.parse source).part config.processors index := by
  have hindex : index < config.processors := by
    rw [← h.length_processors]
    exact (List.getElem?_eq_some_iff.mp hp).1
  have hdealt := congrArg (·[index]?) h.dealt
  simp only [List.getElem?_map, hp, List.getElem?_range hindex, Option.map_some] at hdealt
  exact Prod.mk.inj (Option.some.inj hdealt)

theorem sound_fresh (hpos : 0 < config.processors) (source : String) :
    (fresh config source).Sound config source where
  config_eq := rfl
  dealt := by
    simp only [fresh, List.map_map]
    rfl
  sound := by
    intro p hp
    obtain ⟨index, -, rfl⟩ := List.mem_map.mp hp
    exact Processor.sound_load _ _ _
  cursor_lt := hpos

theorem after_lt (hpos : 0 < m.processors.length) (index : Nat) :
    m.after index < m.processors.length :=
  Nat.mod_lt _ hpos

section Step

variable {κ σ : Type} [ByteSink κ] [ByteSource σ]

/-- A step leaves the cursor at a processor. -/
theorem cursor_step_lt (h : m.cursor < m.processors.length) (channels : Channels κ σ) :
    (m.step channels).state.cursor < m.processors.length := by
  rcases step_cases m channels with ⟨on, -, heq⟩ | ⟨index, p, -, hp, ⟨-, heq⟩ | ⟨fault, -, heq⟩⟩
  · rw [heq]
    exact h
  · rw [heq]
    exact after_lt (Nat.zero_lt_of_lt h) index
  · rw [heq]
    exact (List.getElem?_eq_some_iff.mp hp).1

theorem Sound.step (h : m.Sound config source) (channels : Channels κ σ) :
    (m.step channels).state.Sound config source where
  config_eq := by rw [config_step, h.config_eq]
  dealt := by
    rw [← h.dealt]
    apply map_processors_step
    intro p channels
    obtain ⟨hid, hprogram, -⟩ := Processor.fixed_tick p channels
    rw [Processor.dealt, hid, hprogram, Processor.dealt]
  sound := forall_processors_step (fun p channels hp => hp.tick channels) channels h.sound
  cursor_lt := by
    rw [← h.length_processors]
    apply cursor_step_lt
    rw [h.length_processors]
    exact h.cursor_lt

end Step

/-- Whatever is reached from an assembled machine is sound. -/
theorem Reaches.sound {start : Machine} (hstart : assemble config source = .ok start)
    (h : Reaches start m) : m.Sound config source := by
  obtain ⟨hpos, rfl⟩ := assemble_eq_ok_iff.mp hstart
  exact h.invariant (fun m channels hm => hm.step channels) (sound_fresh hpos source)

end Machine

end TapeRing
