import TapeRing.Proofs.Channel.Unfailing
import TapeRing.Proofs.Obstacles
import TapeRing.Proofs.Processor.Drive

/-! # Arriving in time

`Arrives` says that a processor comes to a goal within a number of ticks, unless it is to put a cell
that was incremented past the greatest byte on the way. One goal can be reached from another
(`Arrives.andThen`), and each instruction but `,` and unmatched brackets arrives at the next one
within a tick. -/

namespace TapeRing.Processor

variable {κ σ : Type} [ByteSink κ] [ByteSource σ] {p q : Processor}
  {channels channels' : Channels κ σ}

/-- A sound processor with a sink that never fails. -/
structure Steady (p : Processor) (channels : Channels κ σ) : Prop where
  sound : p.Sound
  unfailing : Unfailing channels.sink

theorem Steady.strides {count : Nat} (hstrides : Strides count p channels q channels')
    (h : Steady p channels) : Steady q channels' ∧ q.program = p.program := by
  induction hstrides with
  | rest => exact ⟨h, rfl⟩
  | @stride _ p _ _ channels _ _ _ htick _ ih =>
    have hsound := h.sound.tick channels
    have hunfailing := unfailing_tick h.unfailing p
    have hprogram := (fixed_tick p channels).2.1
    rw [htick] at hsound hunfailing hprogram
    obtain ⟨hlater, hprogram'⟩ := ih ⟨hsound, hunfailing⟩
    exact ⟨hlater, hprogram'.trans hprogram⟩

/-- A processor comes to a goal within a number of ticks, or within this number one of its ticks
    faults because it is to put a 256. -/
inductive Arrives (Goal : Processor → Prop) (bound : Nat) (p : Processor)
    (channels : Channels κ σ) : Prop
  | goal {count : Nat} {q : Processor} {channels' : Channels κ σ} : count ≤ bound →
      Strides count p channels q channels' → Goal q → Arrives Goal bound p channels
  | overflow {count : Nat} {q : Processor} {channels' : Channels κ σ} : count < bound →
      Strides count p channels q channels' → q.isFinished = false →
      (q.tick channels').result = .error (.valueOutOfRange 256) → Arrives Goal bound p channels

namespace Arrives

variable {Goal Goal' : Processor → Prop} {bound bound' : Nat}

theorem mono (hle : bound ≤ bound') (h : Arrives Goal bound p channels) :
    Arrives Goal bound' p channels := by
  cases h with
  | goal hcount hstrides hgoal => exact .goal (Nat.le_trans hcount hle) hstrides hgoal
  | overflow hcount hstrides hunfinished hfault =>
    exact .overflow (Nat.lt_of_lt_of_le hcount hle) hstrides hunfinished hfault

/-- From one goal to the next. -/
theorem andThen (h : Arrives Goal bound p channels) (hsteady : Steady p channels)
    (hnext : ∀ {q : Processor} {channels' : Channels κ σ}, Steady q channels' →
      q.program = p.program → Goal q → Arrives Goal' bound' q channels') :
    Arrives Goal' (bound + bound') p channels := by
  cases h with
  | overflow hcount hstrides hunfinished hfault =>
    exact .overflow (Nat.lt_add_right bound' hcount) hstrides hunfinished hfault
  | goal hcount hstrides hgoal =>
    obtain ⟨hsteady', hprogram⟩ := hsteady.strides hstrides
    cases hnext hsteady' hprogram hgoal with
    | goal hcount' hstrides' hgoal' =>
      exact .goal (Nat.add_le_add hcount hcount') (hstrides.trans hstrides') hgoal'
    | overflow hcount' hstrides' hunfinished hfault =>
      exact .overflow (Nat.add_lt_add_of_le_of_lt hcount hcount') (hstrides.trans hstrides')
        hunfinished hfault

end Arrives

/-! ## Single instructions -/

section Ticks

variable {Goal : Processor → Prop}

/-- Unless it is `,` or an unmatched bracket, an instruction is executed or is to put a 256. -/
theorem Steady.arrives_tick (h : Steady p channels) {op : Op} (hop : p.op? = some op)
    (hinput : op ≠ .input)
    (hpaired : ∀ processor position bracket,
      ¬ p.Obstacle (.unmatchedBracket processor position bracket))
    (hgoal : ∀ q, p.Successor op q → Goal q) : Arrives Goal 1 p channels := by
  cases hresult : (p.tick channels).result with
  | ok done =>
    have htick : p.tick channels =
        ⟨.ok (), (p.tick channels).state, (p.tick channels).channels⟩ := by
      rw [← hresult]
    exact .goal (Nat.le_refl 1) (.one (isFinished_of_op? hop) htick)
      (hgoal _ (successor_of_tick_ok hop hresult))
  | error fault =>
    have hfault : fault = .valueOutOfRange 256 := by
      rcases h.sound.obstacle_or_refusal hresult with hobstacle | hrefusal
      · cases hobstacle with
        | overflow => rfl
        | unclosed hopen hcell hnone => exact absurd (.unclosed hopen hcell hnone) (hpaired _ _ _)
        | unopened hclose hnone => exact absurd (.unopened hclose hnone) (hpaired _ _ _)
      · cases hrefusal with
        | put _ _ hput =>
          obtain ⟨sink, hok, -⟩ := h.unfailing.put _
          rw [hok] at hput
          cases hput
        | get hget => exact absurd (Option.some.inj (hop.symm.trans hget)) hinput
    rw [hfault] at hresult
    exact .overflow Nat.one_pos .rest (isFinished_of_op? hop) hresult

/-- An instruction that is no bracket and not `,`. -/
theorem Steady.arrives_single (h : Steady p channels) {op : Op} {after : List Op}
    (hdrop : p.program.ops.drop p.ip = op :: after) (hinput : op ≠ .input)
    (hopen : op ≠ .loopStart) (hclose : op ≠ .loopEnd) :
    Arrives (fun q => q.ip = p.ip + 1) 1 p channels := by
  have hop : p.op? = some op := getElem?_of_drop hdrop
  refine h.arrives_tick hop hinput ?_ fun q hnext => hnext.ip_eq hopen hclose
  intro processor position bracket hobstacle
  cases hobstacle with
  | unclosed hopen' => exact hopen (Option.some.inj (hop.symm.trans hopen'))
  | unopened hclose' => exact hclose (Option.some.inj (hop.symm.trans hclose'))

/-- The `[` of a loop leads into the loop, or behind it over a zero cell. -/
theorem Steady.arrives_loopStart (h : Steady p channels) {stop : Nat}
    (hmatched : Matched p.program.ops p.ip stop) :
    Arrives (fun q => q.ip = p.ip + 1 ∧ p.tape.cells[p.dp]? ≠ some 0 ∨
      q.ip = stop + 1) 1 p channels := by
  have hop : p.op? = some .loopStart := hmatched.opens
  refine h.arrives_tick hop nofun ?_ ?_
  · intro processor position bracket hobstacle
    cases hobstacle with
    | unclosed _ _ hnone => exact hnone stop hmatched
    | unopened hclose => exact nomatch hop.symm.trans hclose
  · intro q hnext
    rcases hnext.ip_cases h.sound.consistent hop with
      ⟨-, hip, -⟩ | ⟨stop', -, hmatched', -, rfl⟩ | ⟨start, hclose, -⟩
    · exact Or.inl ⟨hip, hnext.nonzero_of_enters h.sound.consistent hmatched.opens hip⟩
    · rw [hmatched'.stop_unique hmatched]
      exact Or.inr rfl
    · cases hclose

/-- The `]` of a loop leads back to its `[` with the same cell. -/
theorem Steady.arrives_loopEnd (h : Steady p channels) {start : Nat}
    (hmatched : Matched p.program.ops start p.ip) :
    Arrives (fun q => q = { p with ip := start }) 1 p channels := by
  have hop : p.op? = some .loopEnd := hmatched.closes
  refine h.arrives_tick hop nofun ?_ ?_
  · intro processor position bracket hobstacle
    cases hobstacle with
    | unclosed hopen => exact nomatch hop.symm.trans hopen
    | unopened _ hnone => exact hnone start hmatched
  · intro q hnext
    rcases hnext.ip_cases h.sound.consistent hop with
      ⟨hne, -⟩ | ⟨stop, hopen, -⟩ | ⟨start', -, hmatched', rfl⟩
    · exact absurd rfl hne
    · cases hopen
    · rw [hmatched'.start_unique hmatched]

end Ticks

end TapeRing.Processor
