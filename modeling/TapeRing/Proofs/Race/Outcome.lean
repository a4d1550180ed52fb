import TapeRing.Channel.Source
import TapeRing.Proofs.Race.Racing

/-! # The outcome of a race

Without input, and with a sink that never fails, the run of a machine comes to what the lifetimes of
its processors say: the first to be finished or to fault stops a machine that stops on the first
finished processor, and the first to fault, or else the last to be finished, stops one that waits
for all (`first_to_end_decides`). -/

namespace TapeRing.Machine

section Race

variable {κ σ κ' σ' : Type} [ByteSink κ] [ByteSource σ] [ByteSink κ'] [ByteSource σ']

section Run

variable {config : MachineConfig} {source : String} {channels : Channels κ σ}
  {other : Channels κ' σ'} (hpos : 0 < config.processors) (hcommas : ',' ∉ source.toList)
  (hsink : Unfailing channels.sink) (hother : Unfailing other.sink)

include hpos hcommas hsink hother

theorem Returns.race_firstFinished (hhalt : config.halt = .firstFinished)
    {o : Outcome RunSummary Machine κ σ} (h : (fresh config source).Returns channels o) :
    ∃ count, IsFirst config.processors (endTimes config source other)
        (count / config.processors : Nat) (count % config.processors) ∧
      (finishTimes config source other (count % config.processors) =
            (count / config.processors : Nat) ∧
          o.result = .ok ⟨count, some (count % config.processors)⟩ ∨
        faultTimes config source other (count % config.processors) =
            (count / config.processors : Nat) ∧
          ∃ failure, FaultsAlone config source other (count % config.processors)
              (count / config.processors) failure ∧
            o.result = .error failure ∧ o.state.ticks = count) := by
  obtain ⟨count, m, c, hstrides, hend⟩ := h.strides
  have hracing := hstrides.racing hpos hcommas hsink hother
  refine ⟨count, ?_⟩
  rcases hend with ⟨on, hturn, rfl⟩ | ⟨failure, hfault, rfl⟩
  · obtain ⟨rfl, hfinish⟩ := hracing.halt_firstFinished hhalt hturn
    exact ⟨hracing.isFirst_endTimes hhalt hpos (Or.inl hfinish), Or.inl ⟨hfinish, rfl⟩⟩
  · obtain ⟨place, hplace, hfirst, hfailure, hticks, -⟩ :=
      hracing.fault hpos hcommas hother (hstrides.unfailing hsink) hfault
    obtain rfl := hplace hhalt
    exact ⟨hracing.isFirst_endTimes hhalt hpos (Or.inr hfirst.mem.2),
      Or.inr ⟨hfirst.mem.2, failure, hfailure, rfl, hticks⟩⟩

theorem Returns.race_allFinished (hhalt : config.halt = .allFinished)
    {o : Outcome RunSummary Machine κ σ} (h : (fresh config source).Returns channels o) :
    ((∀ index < config.processors, finishTimes config source other index ≠ ⊤ ∧
          faultTimes config source other index = ⊤) ∧
        ∃ count : Nat, o.result = .ok ⟨count, none⟩ ∧ (count : ℕ∞) =
          ∑ index ∈ Finset.range config.processors, finishTimes config source other index) ∨
      ∃ round index failure, IsFirst config.processors (faultTimes config source other)
          (round : Nat) index ∧
        FaultsAlone config source other index round failure ∧ o.result = .error failure ∧
        (o.state.ticks : ℕ∞) = ∑ later ∈ Finset.range config.processors,
          min (finishTimes config source other later)
            (round + if later < index then 1 else 0 : Nat) := by
  obtain ⟨count, m, c, hstrides, hend⟩ := h.strides
  have hracing := hstrides.racing hpos hcommas hsink hother
  rcases hend with ⟨on, hturn, rfl⟩ | ⟨failure, hfault, rfl⟩
  · obtain ⟨rfl, hends, hsum⟩ := hracing.halt_allFinished hhalt hturn
    exact Or.inl ⟨hends, count, rfl, hsum⟩
  · obtain ⟨place, -, hfirst, hfailure, hticks, hsum⟩ :=
      hracing.fault hpos hcommas hother (hstrides.unfailing hsink) hfault
    refine Or.inr ⟨_, _, failure, hfirst, hfailure, rfl, ?_⟩
    rw [hticks, hsum]
    refine Finset.sum_congr rfl fun later hmem => ?_
    rw [due_eq (Finset.mem_range.mp hmem)]

theorem exists_returns_firstFinished (hhalt : config.halt = .firstFinished) {round index : Nat}
    (hfirst : IsFirst config.processors (endTimes config source other) round index) :
    ∃ o, (fresh config source).Returns channels o := by
  refine exists_returns_of_bound (round * config.processors + index) ?_
  intro count m c hstrides
  have hracing := hstrides.racing hpos hcommas hsink hother
  exact hfirst.place_le (hracing.due_le_endTimes hhalt hfirst.mem.1)

theorem exists_returns_of_fault {round index : Nat}
    (hfirst : IsFirst config.processors (faultTimes config source other) round index) :
    ∃ o, (fresh config source).Returns channels o := by
  refine exists_returns_of_bound (round * config.processors + index) ?_
  intro count m c hstrides
  exact (hstrides.racing hpos hcommas hsink hother).le_of_isFirst hfirst

theorem exists_returns_of_finish
    (hfinish : ∀ index < config.processors, finishTimes config source other index ≠ ⊤) :
    ∃ o, (fresh config source).Returns channels o := by
  have hsum : ∑ index ∈ Finset.range config.processors, finishTimes config source other index ≠ ⊤ :=
    ENat.sum_ne_top.mpr fun index hmem => hfinish index (Finset.mem_range.mp hmem)
  obtain ⟨bound, hbound⟩ := ENat.ne_top_iff_exists.mp hsum
  refine exists_returns_of_bound bound ?_
  intro count m c hstrides
  have hle := (hstrides.racing hpos hcommas hsink hother).le_sum_finishTimes
  rw [← hbound] at hle
  exact_mod_cast hle

end Run

/-- Let a source text have no commas, and let the sink never fail. Each processor has a time when it
    is finished and a time when it faults, in ticks that it makes on its own, on any channels whose
    sink never fails; either can be infinite.
    - If the machine stops on the first finished processor, let `(least, index)` be the
      lexicographically least pair of the time when a processor is finished or faults, and the
      processor. The run never returns if `least` is infinite. If that is the time when the
      processor is finished, the run returns after `least * n + index` ticks, halted on this
      processor, and if it is the time when it faults, the run fails after as many ticks, with the
      fault that the processor has on its own.
    - If the machine waits for all processors and none faults, the run returns iff all are finished
      some time, after the sum of these times and not halted on any. If some fault, let
      `(round, index)` be the lexicographically least pair of a finite time of a fault, and the
      processor. The run fails with the fault that this processor has on its own, after as many
      ticks of each processor as it takes to be finished, but at most `round`, and one more for the
      processors before `index`. -/
theorem first_to_end_decides (config : MachineConfig) (hpos : 0 < config.processors)
    (source : String) (hcommas : ',' ∉ source.toList) (channels : Channels κ σ)
    (hsink : Unfailing channels.sink) (other : Channels κ' σ') (hother : Unfailing other.sink) :
    ∃ start, assemble config source = .ok start ∧
      (config.halt = .firstFinished →
        ∃ least index, IsFirst config.processors (endTimes config source other) least index ∧
          (least = ⊤ → ∀ o, ¬ start.Returns channels o) ∧
          ∀ round : Nat, least = round →
            (finishTimes config source other index = round → ∃ m c,
              start.Returns channels
                ⟨.ok ⟨round * config.processors + index, some index⟩, m, c⟩) ∧
            (faultTimes config source other index = round → ∃ failure m c,
              FaultsAlone config source other index round failure ∧
              start.Returns channels ⟨.error failure, m, c⟩ ∧
              m.ticks = round * config.processors + index)) ∧
      (config.halt = .allFinished →
        ((∀ index < config.processors, faultTimes config source other index = ⊤) →
          ((∃ o, start.Returns channels o) ↔
            ∀ index < config.processors, finishTimes config source other index ≠ ⊤) ∧
          ∀ o, start.Returns channels o → ∃ ticks : Nat, o.result = .ok ⟨ticks, none⟩ ∧
            (ticks : ℕ∞) =
              ∑ index ∈ Finset.range config.processors, finishTimes config source other index) ∧
        ((∃ index < config.processors, faultTimes config source other index ≠ ⊤) →
          ∃ round index failure m c,
            IsFirst config.processors (faultTimes config source other) (round : Nat) index ∧
            FaultsAlone config source other index round failure ∧
            start.Returns channels ⟨.error failure, m, c⟩ ∧
            (m.ticks : ℕ∞) = ∑ later ∈ Finset.range config.processors,
              min (finishTimes config source other later)
                (round + if later < index then 1 else 0 : Nat))) := by
  refine ⟨fresh config source, assemble_of_pos hpos source, ?_, ?_⟩
  · intro hhalt
    obtain ⟨least, index, hfirst⟩ := exists_isFirst hpos (endTimes config source other)
    refine ⟨least, index, hfirst, ?_, ?_⟩
    · rintro rfl o hreturns
      obtain ⟨count, hfirst', -⟩ :=
        hreturns.race_firstFinished hpos hcommas hsink hother hhalt
      exact ENat.top_ne_natCast _ (hfirst.unique hfirst').1
    · rintro round rfl
      -- That the run returns follows from a bound, and what it returns from its last step.
      obtain ⟨o, hreturns⟩ :=
        exists_returns_firstFinished hpos hcommas hsink hother hhalt hfirst
      obtain ⟨count, hfirst', hend⟩ :=
        hreturns.race_firstFinished hpos hcommas hsink hother hhalt
      obtain ⟨hround, rfl⟩ := hfirst.unique hfirst'
      obtain rfl : round = count / config.processors := by exact_mod_cast hround
      have hcount : count / config.processors * config.processors + count % config.processors =
          count := by rw [Nat.mul_comm]; exact Nat.div_add_mod _ _
      obtain ⟨result, m, c⟩ := o
      rcases hend with ⟨hfinish, rfl⟩ | ⟨hfault, failure, hfailure, rfl, hticks⟩
      · refine ⟨fun _ => ⟨m, c, ?_⟩, fun hfault => (not_finish_and_fault hfinish hfault).elim⟩
        rw [hcount]
        exact hreturns
      · refine ⟨fun hfinish => (not_finish_and_fault hfinish hfault).elim, fun _ => ?_⟩
        rw [hcount]
        exact ⟨failure, m, c, hfailure, hreturns, hticks⟩
  · intro hhalt
    have hrace := fun o (hreturns : (fresh config source).Returns channels o) =>
      hreturns.race_allFinished hpos hcommas hsink hother hhalt
    constructor
    · intro hfaultless
      have hends : ∀ o, (fresh config source).Returns channels o → _ := fun o hreturns =>
        (hrace o hreturns).resolve_right fun ⟨_, index, _, hfirst, _⟩ =>
          ENat.top_ne_natCast _ ((hfaultless index hfirst.mem.1).symm.trans hfirst.mem.2)
      refine ⟨⟨?_, exists_returns_of_finish hpos hcommas hsink hother⟩, fun o hreturns =>
        (hends o hreturns).2⟩
      rintro ⟨o, hreturns⟩ index hindex
      exact ((hends o hreturns).1 index hindex).1
    · rintro ⟨faulty, hfaulty, hfinite⟩
      obtain ⟨least, index, hfirst⟩ := exists_isFirst hpos (faultTimes config source other)
      obtain ⟨round, rfl⟩ := ENat.ne_top_iff_exists.mp (hfirst.ne_top hfaulty hfinite)
      obtain ⟨⟨result, m, c⟩, hreturns⟩ :=
        exists_returns_of_fault hpos hcommas hsink hother hfirst
      rcases hrace _ hreturns with
        ⟨hends, -⟩ | ⟨round, index, failure, hfirst, hfailure, rfl, hticks⟩
      · exact absurd (hends faulty hfaulty).2 hfinite
      · exact ⟨round, index, failure, m, c, hfirst, hfailure, hreturns, hticks⟩

end Race

/-- After one tick each, the second processor is finished and the first one faults. The first one
    comes first, whatever the machine waits for. -/
theorem first_to_end_decides_on_tie :
    0 < 2 ∧ ',' ∉ "+[]]".toList ∧ Unfailing ByteBuffer.empty ∧ ∀ halt : HaltPolicy,
      ∃ start m c, assemble { processors := 2, halt := halt } "+[]]" = .ok start ∧
        start.Returns ⟨ByteBuffer.empty, NullSource.mk⟩
          ⟨.error (.unmatchedBracket 0 1 .closing), m, c⟩ ∧
        m.ticks = 2 := by
  let config (halt : HaltPolicy) : MachineConfig := { processors := 2, halt := halt }
  let channels : Channels ByteBuffer NullSource := ⟨ByteBuffer.empty, NullSource.mk⟩
  have hsink : Unfailing channels.sink := ByteBuffer.unfailing ByteBuffer.empty
  have hfault : ∀ halt, faultTimes (config halt) "+[]]" channels 0 = (1 : Nat) := fun halt =>
    le_antisymm (firstTime_le ⟨_, rfl⟩) (succ_le_firstTime zero_le fun ⟨_, h⟩ => nomatch h)
  have hfinish : ∀ halt, ((1 : Nat) : ℕ∞) ≤ finishTimes (config halt) "+[]]" channels 0 :=
    fun halt => succ_le_firstTime zero_le Bool.false_ne_true
  have hfault' : ∀ halt, ((1 : Nat) : ℕ∞) ≤ faultTimes (config halt) "+[]]" channels 1 :=
    fun halt => succ_le_firstTime zero_le fun ⟨_, h⟩ => nomatch h
  have hfinish' : ∀ halt, ((1 : Nat) : ℕ∞) ≤ finishTimes (config halt) "+[]]" channels 1 :=
    fun halt => succ_le_firstTime zero_le Bool.false_ne_true
  have hfailure : ∀ halt failure, FaultsAlone (config halt) "+[]]" channels 0 1 failure →
      failure = .unmatchedBracket 0 1 .closing :=
    fun halt failure h => Except.error.inj (h.symm.trans rfl)
  have hfirst : ∀ time : Nat → ℕ∞, time 0 = (1 : Nat) → ((1 : Nat) : ℕ∞) ≤ time 1 →
      IsFirst 2 time (1 : Nat) 0 := by
    intro time hzero hone
    refine isFirst_place 2 Nat.two_pos hzero fun index hindex => ?_
    match index, hindex with
    | 0, _ => exact le_of_eq hzero.symm
    | 1, _ => exact hone
  refine ⟨by decide, by decide, hsink, fun halt => ?_⟩
  obtain ⟨start, hstart, hfirstFinished, hallFinished⟩ :=
    first_to_end_decides (config halt) Nat.two_pos "+[]]" (by decide) channels hsink channels hsink
  cases halt with
  | firstFinished =>
    obtain ⟨least, index, hleast, -, hrace⟩ := hfirstFinished rfl
    have hend : endTimes (config .firstFinished) "+[]]" channels 0 = (1 : Nat) := by
      rw [endTimes, hfault, min_eq_right (hfinish _)]
    obtain ⟨rfl, rfl⟩ := hleast.unique (hfirst _ hend (le_min (hfinish' _) (hfault' _)))
    obtain ⟨failure, m, c, halone, hreturns, hticks⟩ := (hrace 1 rfl).2 (hfault _)
    obtain rfl := hfailure _ failure halone
    exact ⟨start, m, c, hstart, hreturns, hticks⟩
  | allFinished =>
    obtain ⟨round, index, failure, m, c, hleast, halone, hreturns, hticks⟩ :=
      (hallFinished rfl).2 ⟨0, Nat.two_pos, by rw [hfault]; exact ENat.natCast_ne_top 1⟩
    obtain ⟨hround, rfl⟩ := hleast.unique (hfirst _ (hfault _) (hfault' _))
    obtain rfl : round = 1 := by exact_mod_cast hround
    obtain rfl := hfailure _ failure halone
    refine ⟨start, m, c, hstart, hreturns, ?_⟩
    simp only [config, Finset.sum_range_succ, Finset.sum_range_zero, zero_add, Nat.not_lt_zero,
      if_false, Nat.add_zero] at hticks
    rw [min_eq_right (hfinish _), min_eq_right (hfinish' _)] at hticks
    exact_mod_cast hticks

end TapeRing.Machine
