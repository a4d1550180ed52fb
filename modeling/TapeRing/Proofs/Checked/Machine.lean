import TapeRing.Channel.Sink
import TapeRing.Channel.Source
import TapeRing.Proofs.Checked.Processor
import TapeRing.Proofs.Machine.Reachable
import TapeRing.Proofs.Machine.Sweep

/-! # Checked steps

The steps of a machine once more, with checked ticks, a checked cursor, and a loop that passes over
finished processors at most once round the ring. A machine that is reached from an assembled one is
sound, and nothing fails in the checked step from it (`reaches_sound_and_checked`). -/

namespace TapeRing.Machine

/-- The index after an index of the ring. -/
def checkedAfter (limit : Nat) (m : Machine) (index : Nat) : Option Nat := do
  let next ← checkedAdd limit index 1
  checkedMod next m.processors.length

/-- The index of the first processor that is not finished, from an index on and with at most
    `advances` finished ones passed over. -/
def checkedSkip (limit : Nat) (m : Machine) : (advances index : Nat) → Option Nat
  | 0, index => do
      let p ← m.processors[index]?
      if p.isFinished then none else some index
  | advances + 1, index => do
      let p ← m.processors[index]?
      if p.isFinished then do
        let after ← m.checkedAfter limit index
        checkedSkip limit m advances after
      else some index

/-- Whose turn it is. -/
def checkedTurn (limit : Nat) (m : Machine) : Option Turn :=
  match m.config.halt with
  | .firstFinished => do
      let p ← m.processors[m.cursor]?
      if p.isFinished then some (.halt (some m.cursor)) else some (.tick m.cursor p)
  | .allFinished =>
      if m.allFinished then some (.halt none)
      else do
        let advances ← checkedSub m.processors.length 1
        let index ← m.checkedSkip limit advances m.cursor
        let p ← m.processors[index]?
        some (.tick index p)

/-- Makes one turn. -/
def checkedStep {κ σ : Type} [ByteSink κ] [ByteSource σ] (limit : Nat) (m : Machine)
    (channels : Channels κ σ) : Option (Outcome Step Machine κ σ) := do
  match ← m.checkedTurn limit with
  | .halt on => some ⟨.ok (.halted on), m, channels⟩
  | .tick index p =>
      match ← p.checkedTick limit channels with
      | ⟨.ok (), p, channels⟩ =>
          let cursor ← m.checkedAfter limit index
          some ⟨.ok (.ticked index),
            { m with
                processors := m.processors.set index p
                cursor := cursor
                ticks := m.ticks + 1 },
            channels⟩
      | ⟨.error fault, _, channels⟩ =>
          some ⟨.error fault, { m with cursor := index }, channels⟩

variable {m : Machine} {limit : Nat}

theorem checkedAfter_eq_some {index : Nat} (hindex : index < m.processors.length)
    (hlimit : m.processors.length ≤ limit) :
    m.checkedAfter limit index = some (m.after index) := by
  have hnext : checkedAdd limit index 1 = some (index + 1) := checkedAdd_eq_some (by omega)
  have hmod : checkedMod (index + 1) m.processors.length = some (m.after index) :=
    checkedMod_eq_some (Nat.zero_lt_of_lt hindex)
  simp [checkedAfter, hnext, hmod]

/-! ## The loop over finished processors -/

/-- The loop finds what the sweep finds, whatever part of the sweep is left. -/
theorem checkedSkip_eq_some (hcursor : m.cursor < m.processors.length)
    (hlimit : m.processors.length ≤ limit) {p : Processor} {index : Nat} :
    ∀ (rest : List (Processor × Nat)) (passed advances : Nat), m.sweep.drop passed = rest →
      rest.length ≤ advances + 1 → rest.find? (fun (p, _) => !p.isFinished) = some (p, index) →
      m.checkedSkip limit advances ((m.cursor + passed) % m.processors.length) = some index := by
  intro rest
  induction rest with
  | nil => intro passed advances _ _ hfind; cases hfind
  | cons first rest ih =>
    intro passed advances hrest hlength hfind
    have hfirst : m.sweep[passed]? = some first := getElem?_of_drop hrest
    have hpassed : passed < m.processors.length := by
      rw [← length_sweep hcursor]
      exact (List.getElem?_eq_some_iff.mp hfirst).1
    obtain ⟨q, hq, hsweep⟩ := getElem?_sweep hcursor hpassed
    obtain rfl : first = _ := Option.some.inj (hfirst.symm.trans hsweep)
    cases hfinished : q.isFinished with
    | false =>
      rw [List.find?_cons_of_pos (by simp [hfinished])] at hfind
      cases hfind
      cases advances <;> simp [checkedSkip, hq, hfinished]
    | true =>
      rw [List.find?_cons_of_neg (by simp [hfinished])] at hfind
      have hnonempty := List.length_pos_of_mem (List.mem_of_find?_eq_some hfind)
      rw [List.length_cons] at hlength
      cases advances with
      | zero => omega
      | succ advances =>
        have hindex := Nat.mod_lt (m.cursor + passed) (Nat.zero_lt_of_lt hcursor)
        have hafter := checkedAfter_eq_some hindex hlimit
        rw [after, Nat.mod_add_mod, Nat.add_assoc] at hafter
        have hlater : m.sweep.drop (passed + 1) = rest := drop_succ_of_drop hrest
        have hskip := ih (passed + 1) advances hlater (by omega) hfind
        simp [checkedSkip, hq, hfinished, hafter, hskip]

theorem checkedTurn_eq_some (hcursor : m.cursor < m.processors.length)
    (hlimit : m.processors.length ≤ limit) : m.checkedTurn limit = some m.turn := by
  have hmod : (m.cursor + 0) % m.processors.length = m.cursor := Nat.mod_eq_of_lt hcursor
  unfold checkedTurn turn
  cases m.config.halt with
  | firstFinished =>
    obtain ⟨p, hp, hsweep⟩ := getElem?_sweep hcursor (Nat.zero_lt_of_lt hcursor)
    rw [hmod] at hp hsweep
    simp only [List.head?_eq_getElem?, hsweep, hp]
    cases hfinished : p.isFinished <;> simp [hfinished]
  | allFinished =>
    cases hfind : m.sweep.find? (fun (p, _) => !p.isFinished) with
    | none =>
      have hall := allFinished_iff.mpr hfind
      simp [hall]
    | some found =>
      obtain ⟨p, index⟩ := found
      have hall : ¬ m.allFinished = true := by
        rw [allFinished_iff, hfind]
        simp
      have hp := mem_sweep_iff.mp (List.mem_of_find?_eq_some hfind)
      have hadvances : checkedSub m.processors.length 1 = some (m.processors.length - 1) :=
        checkedSub_eq_some (Nat.zero_lt_of_lt hcursor)
      have hskip := checkedSkip_eq_some hcursor hlimit m.sweep 0 (m.processors.length - 1) rfl
        (by rw [length_sweep hcursor]; omega) hfind
      rw [hmod] at hskip
      simp [hall, hadvances, hskip, hp]

/-! ## Steps -/

section Step

variable {κ σ : Type} [ByteSink κ] [ByteSource σ]

theorem checkedStep_eq_some (hcursor : m.cursor < m.processors.length)
    (hlimit : m.processors.length ≤ limit) (hsound : ∀ p ∈ m.processors, p.Sound)
    (hprograms : ∀ p ∈ m.processors, p.program.length ≤ limit) (channels : Channels κ σ) :
    m.checkedStep limit channels = some (m.step channels) := by
  have hturn := checkedTurn_eq_some hcursor hlimit
  rcases step_cases m channels with
    ⟨on, hhalt, heq⟩ | ⟨index, p, htick, hp, ⟨hresult, heq⟩ | ⟨fault, hresult, heq⟩⟩
  · rw [hhalt] at hturn
    simp [checkedStep, hturn, heq]
  all_goals
    have hmem := List.mem_of_getElem? hp
    have hindex := (List.getElem?_eq_some_iff.mp hp).1
    have hchecked := Processor.checkedTick_eq_some (hsound p hmem) (hprograms p hmem) channels
    have hafter := checkedAfter_eq_some hindex hlimit
    rw [htick] at hturn
    rw [heq]
    generalize p.tick channels = outcome at hresult hchecked ⊢
    obtain ⟨result, q, channels'⟩ := outcome
    cases hresult
    simp [checkedStep, hturn, hchecked, hafter]

/-- A machine with at least one processor can be assembled from every text. Whatever calls of `step`
    and `run` follow, with whatever sinks and sources:
    - there are as many processors as configured, and the cursor points at one of them;
    - processor `i` has the id `i` and the `i`-th part of the dealt program, its table, if it has
      one, is that of its program, its pointers are in range, and its cells are in 0..=256;
    - nothing fails in the next checked step, in which an index may miss the ring, a word may get
      too large or too small, a cell may leave its 32 bits, the ring may be empty, and the loop over
      finished processors may need more advances than one less than the processors; and this step is
      the step of the machine. -/
theorem reaches_sound_and_checked (config : MachineConfig) (hpos : 0 < config.processors)
    (source : String) :
    ∃ (start : Machine) (parts : List Program),
      assemble config source = .ok start ∧
      (Program.parse source).deal config.processors = .ok parts ∧
      ∀ m, Reaches start m →
        m.processors.length = config.processors ∧
        m.cursor < config.processors ∧
        (∀ index < config.processors, ∃ p, m.processors[index]? = some p ∧
          p.id = index ∧
          parts[index]? = some p.program ∧
          (∀ table, p.jumps = some table → table = JumpTable.build p.program) ∧
          p.ip ≤ p.program.length ∧
          1 ≤ p.tape.size ∧
          p.dp < p.tape.size ∧
          ∀ value ∈ p.tape.cells, 0 ≤ value ∧ value ≤ 256) ∧
        ∀ limit, config.processors ≤ limit → (Program.parse source).length ≤ limit →
          ∀ channels : Channels κ σ, m.checkedStep limit channels = some (m.step channels) := by
  refine ⟨fresh config source, _, assemble_of_pos hpos source, if_neg (Nat.ne_of_gt hpos), ?_⟩
  intro m hreaches
  have hm := hreaches.sound (assemble_of_pos hpos source)
  have hlength := hm.length_processors
  refine ⟨hlength, hm.cursor_lt, ?_, ?_⟩
  · intro index hindex
    have hp : m.processors[index]? = some m.processors[index] :=
      List.getElem?_eq_getElem (by omega)
    have hsound := hm.sound _ (List.mem_of_getElem? hp)
    obtain ⟨hid, hprogram⟩ := hm.dealt_of_getElem? hp
    refine ⟨_, hp, hid, ?_, hsound.consistent, hsound.ip_le, Nat.zero_lt_of_lt hsound.dp_lt,
      hsound.dp_lt, hsound.bounded⟩
    rw [List.getElem?_map, List.getElem?_range hindex, hprogram]
    rfl
  · intro limit hprocessors hsource channels
    refine checkedStep_eq_some (by rw [hlength]; exact hm.cursor_lt) (by omega) hm.sound ?_ channels
    intro p hp
    obtain ⟨index, hindex⟩ := List.mem_iff_getElem?.mp hp
    rw [(hm.dealt_of_getElem? hindex).2]
    exact Nat.le_trans (Program.length_part_le _ _ _) hsource

end Step

/-- After three steps the cursor is at the second processor, which has finished: the next step
    passes over it. -/
theorem reaches_sound_and_checked_on_pair :
    0 < 2 ∧ ∃ start : Machine,
      assemble { processors := 2, halt := .allFinished, brackets := .table } "+[,]." = .ok start ∧
      let m := (start.run 3 ⟨ByteBuffer.empty, SliceSource.mk [65]⟩).state
      m.cursor < 2 ∧
      (m.checkedStep 5 (Channels.mk ByteBuffer.empty (SliceSource.mk []))).map Outcome.result =
        some (.ok (.ticked 0)) := by
  obtain ⟨start, parts, hstart, -, hall⟩ :=
    @reaches_sound_and_checked ByteBuffer SliceSource _ _
      { processors := 2, halt := .allFinished, brackets := .table } (by decide) "+[,]."
  obtain ⟨-, hcursor, -, hchecked⟩ := hall _ (.ran 3 ⟨ByteBuffer.empty, SliceSource.mk [65]⟩ .start)
  obtain ⟨-, rfl⟩ := assemble_eq_ok_iff.mp hstart
  refine ⟨by decide, _, hstart, hcursor, ?_⟩
  rw [hchecked 5 (by decide) (by decide)]
  rfl

end TapeRing.Machine
