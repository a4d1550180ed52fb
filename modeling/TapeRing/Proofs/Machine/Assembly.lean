import TapeRing.Machine.Basic

/-! # Assembled machines

With at least one processor a machine can be assembled from every source text. Its processor `i`
holds the `i`-th part of the program and nothing has been executed yet (`assemble_eq_ok_iff`). -/

namespace TapeRing

namespace Program

theorem deal_of_pos {count : Nat} (hpos : 0 < count) (program : Program) :
    program.deal count = .ok ((List.range count).map (program.part count)) :=
  if_neg (Nat.ne_of_gt hpos)

theorem getElem?_parts {count index : Nat} (hindex : index < count) (program : Program) :
    ((List.range count).map (program.part count))[index]? = some (program.part count index) := by
  rw [List.getElem?_map, List.getElem?_range hindex, Option.map_some]

end Program

namespace Machine

/-- The machine at the start of a program. -/
def fresh (config : MachineConfig) (source : String) : Machine where
  config := config
  processors := (List.range config.processors).map fun index =>
    Processor.load index ((Program.parse source).part config.processors index) config.brackets
  cursor := 0
  ticks := 0

@[simp] theorem length_processors_fresh (config : MachineConfig) (source : String) :
    (fresh config source).processors.length = config.processors := by
  simp [fresh]

theorem getElem?_processors_fresh {config : MachineConfig} {source : String} {index : Nat}
    (h : index < config.processors) :
    (fresh config source).processors[index]? =
      some (Processor.load index ((Program.parse source).part config.processors index)
        config.brackets) := by
  simp [fresh, h]

/-- The parts that are dealt, each loaded into a processor. -/
theorem map_load_parts (config : MachineConfig) (source : String) :
    ((List.range config.processors).map
        ((Program.parse source).part config.processors)).zipIdx.map
          (fun (part, id) => Processor.load id part config.brackets) =
      (fresh config source).processors := by
  apply List.ext_getElem?
  intro index
  by_cases hindex : index < config.processors
  · rw [getElem?_processors_fresh hindex]
    simp [hindex]
  · simp [fresh, hindex]

theorem assemble_of_pos {config : MachineConfig} (h : 0 < config.processors) (source : String) :
    assemble config source = .ok (fresh config source) := by
  unfold assemble
  rw [Program.deal_of_pos h]
  simp only [map_load_parts]
  rfl

theorem assemble_of_eq_zero {config : MachineConfig} (h : config.processors = 0) (source : String) :
    assemble config source = .error .noProcessors := by
  unfold assemble
  rw [Program.deal, if_pos h]

theorem assemble_eq_ok_iff {config : MachineConfig} {source : String} {m : Machine} :
    assemble config source = .ok m ↔ 0 < config.processors ∧ m = fresh config source := by
  constructor
  · intro h
    by_cases hpos : 0 < config.processors
    · rw [assemble_of_pos hpos] at h
      cases h
      exact ⟨hpos, rfl⟩
    · rw [assemble_of_eq_zero (Nat.eq_zero_of_not_pos hpos)] at h
      cases h
  · rintro ⟨hpos, rfl⟩
    exact assemble_of_pos hpos source

end Machine

end TapeRing
