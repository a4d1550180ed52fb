import TapeRing.Channel.Sink
import TapeRing.Channel.Source
import TapeRing.Proofs.Brackets.Nesting
import TapeRing.Proofs.Machine.Reachable
import TapeRing.Proofs.Machine.Returns
import TapeRing.Proofs.Machine.Sweep
import TapeRing.Proofs.Obstacles
import TapeRing.Proofs.Processor.Trajectory

/-! # Unmatched brackets

The brackets inside a loop are matched inside it, so no jump leads across an unmatched bracket. A
processor comes past an unmatched `[` only by executing it on a cell that is not zero, and it never
comes back before it. It never comes past an unmatched `]` at all, where every tick faults, so it is
never finished (`unmatched_brackets_are_barriers`). -/

namespace TapeRing

/-- There is a `]` at a position that closes no loop. -/
structure Unopened (ops : List Op) (position : Nat) : Prop where
  closes : ops[position]? = some .loopEnd
  unmatched : ∀ start, ¬ Matched ops start position

/-- There is a `[` at a position that opens no loop. -/
structure Unclosed (ops : List Op) (position : Nat) : Prop where
  opens : ops[position]? = some .loopStart
  unmatched : ∀ stop, ¬ Matched ops position stop

section Loops

variable {ops : List Op} {start stop position : Nat}

/-- An unmatched `]` stands before or behind every loop. -/
theorem Unopened.outside (h : Unopened ops position) (hmatched : Matched ops start stop) :
    position < start ∨ stop < position := by
  have hstart : position ≠ start := by
    rintro rfl
    exact nomatch h.closes.symm.trans hmatched.opens
  have hstop : position ≠ stop := by
    rintro rfl
    exact h.unmatched start hmatched
  by_contra hinside
  have hafter : start < position := by omega
  obtain ⟨other, -, -, hother⟩ := hmatched.opens_inside hafter (by omega) h.closes
  exact h.unmatched other hother

/-- An unmatched `[` stands before or behind every loop. -/
theorem Unclosed.outside (h : Unclosed ops position) (hmatched : Matched ops start stop) :
    position < start ∨ stop < position := by
  have hstart : position ≠ start := by
    rintro rfl
    exact h.unmatched stop hmatched
  have hstop : position ≠ stop := by
    rintro rfl
    exact nomatch h.opens.symm.trans hmatched.closes
  by_contra hinside
  have hafter : start < position := by omega
  obtain ⟨other, -, -, hother⟩ := hmatched.closes_inside hafter (by omega) h.opens
  exact h.unmatched other hother

end Loops

namespace Processor

/-! ## One instruction -/

section Successor

variable {p q : Processor} {op : Op} {position : Nat}

/-- No instruction leads past an unmatched `]`. -/
theorem Successor.ip_le_of_unopened (hp : p.Consistent) (hop : p.op? = some op)
    (h : p.Successor op q) (hbarrier : Unopened p.program.ops position) (hle : p.ip ≤ position) :
    q.ip ≤ position := by
  rcases h.ip_cases hp hop with
    ⟨hclose, hip, -⟩ | ⟨stop, rfl, hmatched, -, rfl⟩ | ⟨start, rfl, hmatched, rfl⟩
  · have hne : p.ip ≠ position := by
      rintro rfl
      exact hclose (Option.some.inj (hop.symm.trans hbarrier.closes))
    omega
  · have hside := hbarrier.outside hmatched
    show stop + 1 ≤ position
    omega
  · have hlt := hmatched.lt
    show start ≤ position
    omega

/-- No instruction leads back past an unmatched `[`. -/
theorem Successor.lt_ip_of_unclosed (hp : p.Consistent) (hop : p.op? = some op)
    (h : p.Successor op q) (hbarrier : Unclosed p.program.ops position) (hlt : position < p.ip) :
    position < q.ip := by
  rcases h.ip_cases hp hop with
    ⟨-, hip, -⟩ | ⟨stop, rfl, hmatched, -, rfl⟩ | ⟨start, rfl, hmatched, rfl⟩
  · omega
  · have := hmatched.lt
    show position < stop + 1
    omega
  · have hside := hbarrier.outside hmatched
    show position < start
    omega

/-- The only instruction that leads past an unmatched `[` is the `[` itself, on a cell that is not
    zero. -/
theorem Successor.passes_unclosed (hp : p.Consistent) (hop : p.op? = some op)
    (h : p.Successor op q) (hbarrier : Unclosed p.program.ops position) (hle : p.ip ≤ position)
    (hlt : position < q.ip) :
    p.ip = position ∧ ∃ value, p.tape.cells[p.dp]? = some value ∧ value ≠ 0 := by
  rcases h.ip_cases hp hop with
    ⟨-, hip, hvalue⟩ | ⟨stop, rfl, hmatched, -, rfl⟩ | ⟨start, rfl, hmatched, rfl⟩
  · obtain rfl : p.ip = position := by omega
    exact ⟨rfl, hvalue (Option.some.inj (hop.symm.trans hbarrier.opens))⟩
  · have hside := hbarrier.outside hmatched
    have hlt' : position < stop + 1 := hlt
    omega
  · have := hmatched.lt
    have hlt' : position < start := hlt
    omega

end Successor

/-! ## Whole trajectories -/

/-- A processor that no unmatched `]` stands behind. -/
structure Confined (p : Processor) : Prop where
  consistent : p.Consistent
  ip_le : ∀ position, Unopened p.program.ops position → p.ip ≤ position

theorem confined_load (id : Nat) (program : Program) (strategy : BracketStrategy) :
    (load id program strategy).Confined :=
  ⟨consistent_load id program strategy, fun _ _ => Nat.zero_le _⟩

theorem Confined.successor {p q : Processor} {op : Op} (hp : p.Confined) (hop : p.op? = some op)
    (h : p.Successor op q) : q.Confined where
  consistent := hp.consistent.successor h
  ip_le := by
    obtain ⟨-, hprogram, -⟩ := h.fixed
    intro position hbarrier
    rw [hprogram] at hbarrier
    exact h.ip_le_of_unopened hp.consistent hop hbarrier (hp.ip_le position hbarrier)

theorem Confined.tick {κ σ : Type} [ByteSink κ] [ByteSource σ] {p : Processor} (h : p.Confined)
    (channels : Channels κ σ) : (p.tick channels).state.Confined :=
  tick_invariant (fun hop hnext hp => hp.successor hop hnext) p channels h

theorem Confined.isFinished {p : Processor} (h : p.Confined) {position : Nat}
    (hbarrier : Unopened p.program.ops position) : p.isFinished = false := by
  have hlt : position < p.program.length := (List.getElem?_eq_some_iff.mp hbarrier.closes).1
  have hle := h.ip_le position hbarrier
  simp only [Processor.isFinished, beq_eq_false_iff_ne]
  omega

/-- Every tick at an unmatched `]` faults. -/
theorem tick_of_unopened {p : Processor} (hp : p.Consistent)
    (hbarrier : Unopened p.program.ops p.ip) {κ σ : Type} [ByteSink κ] [ByteSource σ]
    (channels : Channels κ σ) :
    p.tick channels = ⟨.error (.unmatchedBracket p.id p.ip .closing), p, channels⟩ :=
  (Obstacle.unopened hbarrier.closes hbarrier.unmatched).tick_eq hp channels

/-- A tick leads a processor past a position. -/
def PassesAt (run : Nat → Processor) (position time : Nat) : Prop :=
  (run time).ip ≤ position ∧ position < (run (time + 1)).ip

namespace Trajectory

variable {start : Processor} {run : Nat → Processor} {position : Nat}

theorem confined (h : Trajectory start run) (hstart : start.Confined) (time : Nat) :
    (run time).Confined :=
  h.invariant Confined (fun hop hnext hp => hp.successor hop hnext) hstart time

/-- Behind an unmatched `[` a processor stays behind it. -/
theorem lt_ip_of_unclosed (h : Trajectory start run) (hstart : start.Consistent)
    (hbarrier : Unclosed start.program.ops position) {earlier later : Nat} (hle : earlier ≤ later)
    (hlt : position < (run earlier).ip) : position < (run later).ip := by
  let Behind (p : Processor) : Prop :=
    p.Consistent ∧ Unclosed p.program.ops position ∧ position < p.ip
  have hearlier : Behind (run earlier) :=
    ⟨h.consistent hstart earlier, by rwa [(h.fixed earlier).2], hlt⟩
  have hlater : Behind (run later) := by
    refine h.invariant_from Behind ?_ hle hearlier
    rintro p q op hop hnext ⟨hp, hbarrier, hlt⟩
    exact ⟨hp.successor hnext, by rwa [hnext.fixed.2.1],
      hnext.lt_ip_of_unclosed hp hop hbarrier hlt⟩
  exact hlater.2.2

theorem passesAt_unclosed (h : Trajectory start run) (hstart : start.Consistent)
    (hbarrier : Unclosed start.program.ops position) {time : Nat}
    (hpasses : PassesAt run position time) :
    (run time).ip = position ∧
      ∃ value, (run time).tape.cells[(run time).dp]? = some value ∧ value ≠ 0 := by
  obtain ⟨hle, hlt⟩ := hpasses
  rcases h.next_cases time with heq | ⟨op, hop, hnext⟩
  · rw [heq] at hlt
    omega
  · exact hnext.passes_unclosed (h.consistent hstart time) hop (by rwa [(h.fixed time).2]) hle hlt

/-- An unmatched `[` is passed at most once. -/
theorem passesAt_unique (h : Trajectory start run) (hstart : start.Consistent)
    (hbarrier : Unclosed start.program.ops position) {time time' : Nat}
    (hpasses : PassesAt run position time) (hpasses' : PassesAt run position time') :
    time = time' := by
  have hle : ∀ {a b : Nat}, PassesAt run position a → PassesAt run position b → b ≤ a := by
    intro a b ha hb
    apply Nat.le_of_not_lt
    intro hab
    exact Nat.not_lt.mpr hb.1 (h.lt_ip_of_unclosed hstart hbarrier hab ha.2)
  exact Nat.le_antisymm (hle hpasses' hpasses) (hle hpasses hpasses')

end Trajectory

end Processor

/-! ## Machines -/

namespace Machine

/-- Where a processor has an unmatched `]`, a machine that waits for all processors does not halt. -/
theorem turn_ne_halt {m : Machine} (hhalt : m.config.halt = .allFinished)
    (hconfined : ∀ p ∈ m.processors, p.Confined) {p : Processor} (hp : p ∈ m.processors)
    {position : Nat} (hbarrier : Unopened p.program.ops position) (on : Option Nat) :
    m.turn ≠ .halt on := by
  rw [Ne, turn_allFinished_eq_halt_iff hhalt]
  rintro ⟨-, hfinished⟩
  have hnot := (hconfined p hp).isFinished hbarrier
  rw [hfinished p hp] at hnot
  cases hnot

/-- No processor of a machine that is reached has come past an unmatched `]`. -/
theorem Reaches.confined {config : MachineConfig} {source : String} {m : Machine}
    (h : (fresh config source).Reaches m) : ∀ p ∈ m.processors, p.Confined := by
  have hstep : ∀ {κ σ : Type} [ByteSink κ] [ByteSource σ] (m : Machine) (channels : Channels κ σ),
      (∀ p ∈ m.processors, p.Confined) → ∀ p ∈ (m.step channels).state.processors, p.Confined :=
    fun m channels => forall_processors_step (fun p channels hp => hp.tick channels) channels
  refine h.invariant hstep ?_
  intro p hp
  obtain ⟨index, -, rfl⟩ := List.mem_map.mp hp
  exact Processor.confined_load _ _ _

/-- A run that returns a summary has come to a machine that halts. -/
theorem exists_halt_of_run {κ σ : Type} [ByteSink κ] [ByteSource σ] {m : Machine} {limit : Nat}
    {channels : Channels κ σ} {summary : RunSummary}
    (h : (m.run limit channels).result = .ok (some summary)) :
    ∃ count on, (m.run count channels).state.turn = .halt on := by
  have hreturns : m.Returns channels
      ⟨.ok summary, (m.run limit channels).state, (m.run limit channels).channels⟩ :=
    ⟨limit, by rw [Outcome.map, Except.map, ← h]⟩
  obtain ⟨count, m', c', hstrides, ⟨on, hturn, -⟩ | ⟨fault, -, heq⟩⟩ := hreturns.strides
  · exact ⟨count, on, by rw [hstrides.run_eq]; exact hturn⟩
  · cases heq

end Machine

open Processor Machine

/-- Let a processor be ticked from the start of a program on, with any sinks and sources, and also
    after faults.
    - It never comes past a `]` that closes no loop. So it is never finished, and whenever it stands
      there every tick faults.
    - Once it is past a `[` that opens no loop it stays there. It comes past this `[` at most once,
      from the `[` itself, and only if the cell is not zero.

    So a machine that waits for all its processors, and of which one has a `]` that closes no loop
    in its part of the program, never halts, whatever has been done to it and by whatever calls. -/
theorem unmatched_brackets_are_barriers :
    (∀ (id : Nat) (program : Program) (strategy : BracketStrategy) (run : Nat → Processor),
      Trajectory (load id program strategy) run →
      (∀ position, Unopened program.ops position → ∀ time,
        (run time).ip ≤ position ∧ (run time).isFinished = false ∧
        ((run time).ip = position → ∀ {κ σ : Type} [ByteSink κ] [ByteSource σ]
          (channels : Channels κ σ), (run time).tick channels =
            ⟨.error (.unmatchedBracket id position .closing), run time, channels⟩)) ∧
      ∀ position, Unclosed program.ops position →
        (∀ earlier later, earlier ≤ later → position < (run earlier).ip →
          position < (run later).ip) ∧
        (∀ time, PassesAt run position time → (run time).ip = position ∧
          ∃ value, (run time).tape.cells[(run time).dp]? = some value ∧ value ≠ 0) ∧
        ∀ time time', PassesAt run position time → PassesAt run position time' → time = time') ∧
    ∀ (config : MachineConfig) (source : String) (index position : Nat),
      config.halt = .allFinished → index < config.processors →
      Unopened ((Program.parse source).part config.processors index).ops position →
      ∃ start, assemble config source = .ok start ∧
        ∀ m, start.Reaches m → ∀ {κ σ : Type} [ByteSink κ] [ByteSource σ]
          (channels : Channels κ σ),
          (∀ on, (m.step channels).result ≠ .ok (.halted on)) ∧
          ∀ limit summary, (m.run limit channels).result ≠ .ok (some summary) := by
  refine ⟨?_, ?_⟩
  · intro id program strategy run hrun
    have hconsistent := consistent_load id program strategy
    refine ⟨?_, ?_⟩
    · intro position hbarrier time
      have hconfined := hrun.confined (confined_load id program strategy) time
      obtain ⟨hid, hprogram⟩ : (run time).id = id ∧ (run time).program = program := hrun.fixed time
      have hbarrier' : Unopened (run time).program.ops position := by rwa [hprogram]
      refine ⟨hconfined.ip_le position hbarrier', hconfined.isFinished hbarrier', ?_⟩
      rintro rfl κ σ _ _ channels
      rw [tick_of_unopened hconfined.consistent hbarrier', hid]
    · intro position hbarrier
      exact ⟨fun _ _ hle => hrun.lt_ip_of_unclosed hconsistent hbarrier hle,
        fun _ => hrun.passesAt_unclosed hconsistent hbarrier,
        fun _ _ => hrun.passesAt_unique hconsistent hbarrier⟩
  · intro config source index position hhalt hindex hbarrier
    have hpos := Nat.zero_lt_of_lt hindex
    refine ⟨fresh config source, assemble_of_pos hpos source, ?_⟩
    intro m hreaches
    have hnever : ∀ {m}, (fresh config source).Reaches m → ∀ on, m.turn ≠ .halt on := by
      intro m hreaches on
      have hsound := hreaches.sound (assemble_of_pos hpos source)
      have hlt : index < m.processors.length := by rwa [hsound.length_processors]
      have hp := List.getElem?_eq_getElem hlt
      obtain ⟨-, hprogram⟩ := hsound.dealt_of_getElem? hp
      rw [← hprogram] at hbarrier
      exact turn_ne_halt (by rw [hsound.config_eq, hhalt]) hreaches.confined
        (List.mem_of_getElem? hp) hbarrier on
    intro κ σ _ _ channels
    refine ⟨fun on hresult => ?_, fun limit summary hresult => ?_⟩
    · exact hnever hreaches on ((result_step_eq_halted_iff channels).mp hresult)
    · obtain ⟨count, on, hturn⟩ := exists_halt_of_run hresult
      exact hnever (hreaches.ran count channels) on hturn

/-- The last `]` of `+[-]]` is never passed, the `[` of `+[>` is passed by the second tick, and a
    machine on `++]` never halts whose first processor has `+]`. -/
theorem unmatched_brackets_are_barriers_on_strays :
    let channels := Channels.mk ByteBuffer.empty NullSource.mk
    let run (source : String) (time : Nat) :=
      (transcript tick time (load 0 (Program.parse source) .table) channels).state
    Unopened (Program.parse "+[-]]").ops 4 ∧
      (∀ time, (run "+[-]]" time).ip ≤ 4 ∧ (run "+[-]]" time).isFinished = false) ∧
      Unclosed (Program.parse "+[>").ops 1 ∧ PassesAt (run "+[>") 1 1 ∧
      (∀ time, PassesAt (run "+[>") 1 time → time = 1) ∧
      0 < 2 ∧ Unopened ((Program.parse "++]").part 2 0).ops 1 ∧
      ∃ start, assemble { processors := 2, halt := .allFinished } "++]" = .ok start ∧
        ∀ m, start.Reaches m → ∀ on, (m.step channels).result ≠ .ok (.halted on) := by
  intro channels run
  obtain ⟨htrajectories, hmachines⟩ := unmatched_brackets_are_barriers
  have hunopened : Unopened (Program.parse "+[-]]").ops 4 :=
    ⟨rfl, (JumpTable.not_matched_of_partner_build_eq_none (by decide)).2⟩
  have hunclosed : Unclosed (Program.parse "+[>").ops 1 :=
    ⟨rfl, (JumpTable.not_matched_of_partner_build_eq_none (by decide)).1⟩
  have hpart : Unopened ((Program.parse "++]").part 2 0).ops 1 :=
    ⟨rfl, (JumpTable.not_matched_of_partner_build_eq_none (by decide)).2⟩
  have hpasses : PassesAt (run "+[>") 1 1 := ⟨by decide, by decide⟩
  obtain ⟨hstays, -⟩ := htrajectories 0 _ .table _ (trajectory_transcript _ channels)
  obtain ⟨-, hbehind⟩ := htrajectories 0 _ .table _ (trajectory_transcript _ channels)
  obtain ⟨-, -, honce⟩ := hbehind 1 hunclosed
  obtain ⟨start, hstart, hnever⟩ := hmachines { processors := 2, halt := .allFinished } "++]" 0 1 rfl
    (by decide) hpart
  refine ⟨hunopened, fun time => ?_, hunclosed, hpasses, fun time h => honce time 1 h hpasses,
    by decide, hpart, start, hstart, fun m hm => (hnever m hm channels).1⟩
  obtain ⟨hle, hfinished, -⟩ := hstays 4 hunopened time
  exact ⟨hle, hfinished⟩

end TapeRing
