import TapeRing.Channel.Sink
import TapeRing.Channel.Source
import TapeRing.Proofs.Machine.Returns
import TapeRing.Proofs.Schedule.Rounds

/-! # Straight-line programs

Without brackets every tick goes on to the next instruction of a part, so the cursor takes the
instructions up again in the order in which they were dealt: after `k` ticks it is at processor
`k mod n`, which is about to execute instruction `k` of the program (`InLine.step_cases`). When
there are no more instructions all processors are finished and the machine stops
(`straight_line_in_order`). -/

namespace TapeRing

/-- No instruction is a bracket. -/
structure Program.Straight (program : Program) : Prop where
  noStart : .loopStart ∉ program.ops
  noEnd : .loopEnd ∉ program.ops

theorem Program.straight_parse {source : String} (hopen : '[' ∉ source.toList)
    (hclose : ']' ∉ source.toList) : (parse source).Straight where
  noStart := mt mem_ops_parse_iff.mp hopen
  noEnd := mt mem_ops_parse_iff.mp hclose

/-- What a machine stops on when its cursor is at an index and all processors are finished. -/
def HaltPolicy.stopsOn (index : Nat) : HaltPolicy → Option Nat
  | .firstFinished => some index
  | .allFinished => none

namespace Machine

/-- A machine that has executed the first `k` instructions of a program and is about to execute the
    next one. -/
structure InLine (program : Program) (k : Nat) (m : Machine) : Prop where
  nonempty : 0 < m.processors.length
  le_length : k ≤ program.length
  cursor_eq : m.cursor = k % m.processors.length
  ticks_eq : m.ticks = k
  /-- A processor has executed as many instructions as it was dealt among the first `k`. -/
  ring : ∀ {index : Nat} {p : Processor}, m.processors[index]? = some p →
    p.id = index ∧ p.program = program.part m.processors.length index ∧
      p.ip = due m.processors.length k index

theorem inLine_fresh {config : MachineConfig} (hpos : 0 < config.processors) (source : String) :
    InLine (Program.parse source) 0 (fresh config source) where
  nonempty := by rwa [length_processors_fresh]
  le_length := Nat.zero_le _
  cursor_eq := (Nat.zero_mod _).symm
  ticks_eq := rfl
  ring := by
    intro index p hp
    have hindex := (List.getElem?_eq_some_iff.mp hp).1
    rw [length_processors_fresh] at hindex ⊢
    rw [getElem?_processors_fresh hindex] at hp
    cases hp
    exact ⟨rfl, rfl, (due_zero _ _).symm⟩

namespace InLine

variable {program : Program} {k : Nat} {m : Machine}

theorem cursor_lt (h : InLine program k m) : m.cursor < m.processors.length := by
  rw [h.cursor_eq]
  exact Nat.mod_lt _ h.nonempty

/-- The processor under the cursor is about to execute instruction `k`. -/
theorem exists_processor (h : InLine program k m) :
    ∃ p, m.processors[k % m.processors.length]? = some p ∧ p.id = k % m.processors.length ∧
      p.ip = k / m.processors.length ∧ p.op? = program.get? k := by
  have hlt := Nat.mod_lt k h.nonempty
  have hp := List.getElem?_eq_getElem hlt
  obtain ⟨hid, hprogram, hip⟩ := h.ring hp
  rw [due_eq hlt, if_neg (Nat.lt_irrefl _), Nat.add_zero] at hip
  refine ⟨_, hp, hid, hip, ?_⟩
  rw [Processor.op?, hprogram, hip, Program.get?_part h.nonempty, Nat.mod_add_div']

/-- Where the program ends every processor is finished. -/
theorem forall_isFinished (h : InLine program program.length m) :
    ∀ p ∈ m.processors, p.isFinished = true := by
  intro p hmem
  obtain ⟨index, hp⟩ := List.mem_iff_getElem?.mp hmem
  obtain ⟨-, hprogram, hip⟩ := h.ring hp
  rw [Processor.isFinished, hprogram, hip,
    Program.length_part (List.getElem?_eq_some_iff.mp hp).1, beq_self_eq_true]

theorem turn_of_end (h : InLine program program.length m) :
    m.turn = .halt (m.config.halt.stopsOn (program.length % m.processors.length)) := by
  have hfinished := h.forall_isFinished
  cases hhalt : m.config.halt with
  | firstFinished =>
    obtain ⟨p, hp, -⟩ := h.exists_processor
    rw [← h.cursor_eq] at hp
    rw [turn_firstFinished_eq_halt_iff hhalt h.cursor_lt, ← h.cursor_eq]
    exact ⟨rfl, p, hp, hfinished p (List.mem_of_getElem? hp)⟩
  | allFinished =>
    rw [turn_allFinished_eq_halt_iff hhalt]
    exact ⟨rfl, hfinished⟩

variable {κ σ : Type} [ByteSink κ] [ByteSource σ]

/-- The tick of instruction `k` moves the machine on to the next one. -/
theorem tick (h : InLine program k m) (hstraight : program.Straight) {p : Processor}
    (hp : m.processors[k % m.processors.length]? = some p) {op : Op}
    (hop : program.get? k = some op) (hop' : p.op? = some op) {channels : Channels κ σ}
    (hok : (p.tick channels).result = .ok ()) :
    InLine program (k + 1)
      { m with
          processors := m.processors.set (k % m.processors.length) (p.tick channels).state
          cursor := m.after (k % m.processors.length)
          ticks := m.ticks + 1 } where
  nonempty := by
    rw [List.length_set]
    exact h.nonempty
  le_length := (List.getElem?_eq_some_iff.mp hop).1
  cursor_eq := by rw [List.length_set, after, Nat.mod_add_mod]
  ticks_eq := by rw [h.ticks_eq]
  ring := by
    intro index q hq
    have hmem : op ∈ program.ops := List.mem_of_getElem? hop
    rw [List.length_set, due_succ]
    by_cases hindex : k % m.processors.length = index
    · subst hindex
      rw [List.getElem?_set_self (List.getElem?_eq_some_iff.mp hp).1] at hq
      cases hq
      obtain ⟨hid, hprogram, hip⟩ := h.ring hp
      obtain ⟨hid', hprogram', -⟩ := Processor.fixed_tick p channels
      have hip' := (Processor.successor_of_tick_ok hop' hok).ip_eq
        (fun heq => hstraight.noStart (heq ▸ hmem)) (fun heq => hstraight.noEnd (heq ▸ hmem))
      exact ⟨hid'.trans hid, hprogram'.trans hprogram, by rw [hip', hip, if_pos rfl]⟩
    · rw [List.getElem?_set_ne hindex] at hq
      obtain ⟨hid, hprogram, hip⟩ := h.ring hq
      exact ⟨hid, hprogram, by rw [hip, if_neg hindex, Nat.add_zero]⟩

/-- What the next step of a machine in line comes to: what the tick of the processor does, to the
    processor and to the channels. A fault leaves the whole machine as it was. -/
theorem step_cases (h : InLine program k m) (hstraight : program.Straight)
    (channels : Channels κ σ) :
    (k = program.length ∧
        m.turn = .halt (m.config.halt.stopsOn (program.length % m.processors.length))) ∨
      k < program.length ∧ ∃ p, m.turn = .tick (k % m.processors.length) p ∧
        p.id = k % m.processors.length ∧ p.ip = k / m.processors.length ∧
        p.op? = program.get? k ∧
        (((p.tick channels).result = .ok () ∧ ∃ m',
            m.step channels =
              ⟨.ok (.ticked (k % m.processors.length)), m', (p.tick channels).channels⟩ ∧
            m'.processors =
              m.processors.set (k % m.processors.length) (p.tick channels).state ∧
            InLine program (k + 1) m') ∨
          ∃ fault, (p.tick channels).result = .error fault ∧
            m.step channels = ⟨.error fault, m, (p.tick channels).channels⟩) := by
  cases hop : program.get? k with
  | none =>
    left
    obtain rfl : k = program.length := Nat.le_antisymm h.le_length (Program.get?_eq_none_iff.mp hop)
    exact ⟨rfl, h.turn_of_end⟩
  | some op =>
    right
    obtain ⟨p, hp, hid, hip, hop'⟩ := h.exists_processor
    rw [hop] at hop'
    have hturn : m.turn = .tick (k % m.processors.length) p := by
      rw [← h.cursor_eq] at hp ⊢
      exact turn_of_unfinished hp (Processor.isFinished_of_op? hop')
    refine ⟨(List.getElem?_eq_some_iff.mp hop).1, p, hturn, hid, hip, hop', ?_⟩
    have hstep := step_of_tick hturn channels
    cases hresult : (p.tick channels).result with
    | ok done =>
      rw [hresult] at hstep
      exact Or.inl ⟨rfl, _, hstep, rfl, h.tick hstraight hp hop hop' hresult⟩
    | error fault =>
      rw [hresult, ← h.cursor_eq] at hstep
      exact Or.inr ⟨fault, rfl, hstep⟩

/-- Steps that tick take a machine in line to the instruction as many places further on. -/
theorem strides (hstraight : program.Straight) {count : Nat} {m' : Machine} {c c' : Channels κ σ}
    (hstrides : Strides count m c m' c') (h : InLine program k m) :
    InLine program (k + count) m' := by
  induction hstrides generalizing k with
  | rest => exact h
  | @stride count index m m' _ c c' _ hstep _ ih =>
    rcases h.step_cases hstraight c with
      ⟨-, hturn⟩ | ⟨-, p, -, -, -, -, ⟨-, _, heq, -, h'⟩ | ⟨fault, -, heq⟩⟩
    · rw [step_of_halt hturn] at hstep
      cases hstep
    · rw [heq] at hstep
      cases hstep
      rw [Nat.add_comm count, ← Nat.add_assoc]
      exact ih h'
    · rw [heq] at hstep
      cases hstep

theorem exists_returns (h : InLine program k m) (hstraight : program.Straight)
    (channels : Channels κ σ) : ∃ o, m.Returns channels o := by
  refine exists_returns_of_bound program.length ?_
  intro count m' c' hstrides
  have hline := h.strides hstraight hstrides
  exact Nat.le_trans (Nat.le_add_left count k) hline.le_length

/-- A run of a machine in line faults at an instruction, or it executes all that are left. -/
theorem of_returns (h : InLine program k m) (hstraight : program.Straight) {channels : Channels κ σ}
    {o : Outcome RunSummary Machine κ σ} (hreturns : m.Returns channels o) :
    (∃ fault, o.result = .error fault ∧ o.state.ticks < program.length) ∨
      o.result = .ok ⟨program.length - k,
          m.config.halt.stopsOn (program.length % m.processors.length)⟩ ∧
        o.state.ticks = program.length ∧ ∀ p ∈ o.state.processors, p.isFinished = true := by
  obtain ⟨count, m', c', hstrides, hend⟩ := hreturns.strides
  have hline := h.strides hstraight hstrides
  obtain ⟨hconfig, hlength⟩ := hstrides.fixed
  rw [← hconfig, ← hlength]
  rcases hend with ⟨on, hturn, rfl⟩ | ⟨fault, hfault, rfl⟩
  · right
    rcases hline.step_cases hstraight c' with ⟨hk, hturn'⟩ | ⟨-, p, hturn', -⟩
    · rw [hturn'] at hturn
      cases hturn
      obtain rfl : count = program.length - k := by omega
      rw [hk] at hline
      exact ⟨rfl, hline.ticks_eq, hline.forall_isFinished⟩
    · rw [hturn'] at hturn
      cases hturn
  · left
    refine ⟨fault, rfl, ?_⟩
    rcases hline.step_cases hstraight c' with
      ⟨-, hturn⟩ | ⟨hlt, p, -, -, -, -, ⟨-, m'', heq, -⟩ | ⟨fault', -, heq⟩⟩
    · rw [step_of_halt hturn] at hfault
      cases hfault
    · rw [heq] at hfault
      cases hfault
    · rw [heq, hline.ticks_eq]
      exact hlt

end InLine

section Runs

variable {κ σ : Type} [ByteSink κ] [ByteSource σ] {config : MachineConfig} {source : String}

theorem inLine_transcript (hpos : 0 < config.processors)
    (hstraight : (Program.parse source).Straight) (calls : Nat) (channels : Channels κ σ) :
    let run := transcript step calls (fresh config source) channels
    InLine (Program.parse source) run.state.ticks run.state ∧
      ticked run.results = (List.range run.state.ticks).map (· % config.processors) := by
  induction calls with
  | zero => exact ⟨inLine_fresh hpos source, rfl⟩
  | succ calls ih =>
    obtain ⟨hline, hmade⟩ := ih
    have hlength := length_processors_transcript config source calls channels
    rw [transcript_succ]
    simp only [ticked_append, hmade]
    generalize transcript step calls (fresh config source) channels = run at hline hlength ⊢
    rcases hline.step_cases hstraight run.channels with
      ⟨-, hturn⟩ | ⟨-, p, -, -, -, -, ⟨-, m', heq, -, hline'⟩ | ⟨fault, -, heq⟩⟩
    · rw [step_of_halt hturn, ticked_halted, List.append_nil]
      exact ⟨hline, rfl⟩
    · rw [heq, ticked_ticked, hline'.ticks_eq, List.range_succ, List.map_append, hlength]
      exact ⟨hline', rfl⟩
    · rw [heq, ticked_error, List.append_nil]
      exact ⟨hline, rfl⟩

/-- Let a source text have no brackets. Whatever the sink and the source are and however many
    processors there are:
    - At any moment, when `k` ticks have been made, they were made by the processors `0`, …,
      `(k - 1) mod n`, going round. The next tick, which may fault, is one of processor `k mod n`,
      and it executes instruction `k` of the whole program: the channels are those that this
      processor leaves behind, and it has moved on unless it has faulted, while all others stay as
      they are. If there is no such instruction the machine halts.
    - The run returns. It has faulted before the last instruction was executed, or it has made as
      many ticks as there are instructions, `l` of them, and all processors are finished. A machine
      that stops on the first finished processor then reports processor `l mod n`, and one that
      waits for all reports none. -/
theorem straight_line_in_order (config : MachineConfig) (hpos : 0 < config.processors)
    (source : String) (hopen : '[' ∉ source.toList) (hclose : ']' ∉ source.toList) :
    let program := Program.parse source
    ∃ start : Machine, assemble config source = .ok start ∧
      (∀ (calls : Nat) (channels : Channels κ σ),
        let run := transcript step calls start channels
        let k := run.state.ticks
        let next := run.state.step run.channels
        ticked run.results = (List.range k).map (· % config.processors) ∧
        (k < program.length → ∃ p, run.state.turn = .tick (k % config.processors) p ∧
          p.id = k % config.processors ∧ p.ip = k / config.processors ∧ p.op? = program.get? k ∧
          let tick := p.tick run.channels
          next.channels = tick.channels ∧
          ((tick.result = .ok () ∧ next.result = .ok (.ticked (k % config.processors)) ∧
              next.state.processors =
                run.state.processors.set (k % config.processors) tick.state) ∨
            ∃ fault, tick.result = .error fault ∧ next.result = .error fault ∧
              next.state = run.state)) ∧
        (program.length ≤ k → k = program.length ∧
          next.result =
            .ok (.halted (config.halt.stopsOn (program.length % config.processors))))) ∧
      ∀ channels : Channels κ σ,
        (∃ o, start.Returns channels o) ∧
        ∀ o, start.Returns channels o →
          (∃ fault, o.result = .error fault ∧ o.state.ticks < program.length) ∨
          o.result =
              .ok ⟨program.length, config.halt.stopsOn (program.length % config.processors)⟩ ∧
            o.state.ticks = program.length ∧ ∀ p ∈ o.state.processors, p.isFinished = true := by
  intro program
  have hstraight : program.Straight := Program.straight_parse hopen hclose
  refine ⟨fresh config source, assemble_of_pos hpos source, ?_, ?_⟩
  · intro calls channels run k next
    obtain ⟨hline, hmade⟩ := inLine_transcript hpos hstraight calls channels
    have hlength := length_processors_transcript config source calls channels
    have hconfig := (config_transcript calls (fresh config source) channels).1
    have hcases := hline.step_cases hstraight run.channels
    rw [hlength, hconfig] at hcases
    refine ⟨hmade, ?_, ?_⟩
    · intro hk
      obtain ⟨-, p, hturn, hid, hip, hop, hnext⟩ := hcases.resolve_left fun h => Nat.ne_of_lt hk h.1
      refine ⟨p, hturn, hid, hip, hop, ?_⟩
      rcases hnext with ⟨htick, m', heq, hset, -⟩ | ⟨fault, htick, heq⟩
      · have hstate : next.state = m' := congrArg Outcome.state heq
        rw [← hstate] at hset
        exact ⟨congrArg Outcome.channels heq, Or.inl ⟨htick, congrArg Outcome.result heq, hset⟩⟩
      · exact ⟨congrArg Outcome.channels heq, Or.inr ⟨fault, htick, congrArg Outcome.result heq,
          congrArg Outcome.state heq⟩⟩
    · intro hk
      obtain ⟨hend, hturn⟩ := hcases.resolve_right fun h => Nat.not_lt.mpr hk h.1
      exact ⟨hend, congrArg Outcome.result (step_of_halt hturn run.channels)⟩
  · intro channels
    have hfresh : InLine program 0 (fresh config source) := inLine_fresh hpos source
    refine ⟨hfresh.exists_returns hstraight channels, fun o hreturns => ?_⟩
    have hend := hfresh.of_returns hstraight hreturns
    rwa [length_processors_fresh, Nat.sub_zero] at hend

end Runs

/-- Five instructions for three processors: the third one is the first to have no more. -/
theorem straight_line_in_order_on_five :
    0 < 3 ∧ '[' ∉ "-.+.+".toList ∧ ']' ∉ "-.+.+".toList ∧ ∃ start : Machine,
      assemble { processors := 3 } "-.+.+" = .ok start ∧
      (∃ p, (transcript step 4 start ⟨ByteBuffer.empty, NullSource.mk⟩).state.turn = .tick 1 p ∧
        p.ip = 1 ∧ p.op? = some .increment) ∧
      ∃ o : Outcome RunSummary Machine ByteBuffer NullSource,
        start.Returns ⟨ByteBuffer.empty, NullSource.mk⟩ o ∧ o.result = .ok ⟨5, some 2⟩ ∧
        ∀ p ∈ o.state.processors, p.isFinished = true := by
  obtain ⟨start, hstart, hticks, hruns⟩ := @straight_line_in_order ByteBuffer NullSource _ _
    { processors := 3 } (by decide) "-.+.+" (by decide) (by decide)
  obtain ⟨-, rfl⟩ := assemble_eq_ok_iff.mp hstart
  obtain ⟨-, hturn, -⟩ := hticks 4 ⟨ByteBuffer.empty, NullSource.mk⟩
  obtain ⟨p, hturn, -, hip, hop, -⟩ := hturn (by decide)
  have hreturns : (fresh { processors := 3 } "-.+.+").Returns
      (Channels.mk ByteBuffer.empty NullSource.mk) ⟨.ok ⟨5, some 2⟩, _, _⟩ := ⟨6, by rfl⟩
  obtain ⟨fault, hfault, -⟩ | ⟨hresult, -, hfinished⟩ :=
    (hruns ⟨ByteBuffer.empty, NullSource.mk⟩).2 _ hreturns
  · cases hfault
  · exact ⟨by decide, by decide, by decide, _, hstart, ⟨p, hturn, hip, hop⟩, _, hreturns, hresult,
      hfinished⟩

end Machine

end TapeRing
