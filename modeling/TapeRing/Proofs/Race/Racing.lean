import Mathlib.Data.ENat.BigOperators
import Mathlib.Data.Finset.Max
import Mathlib.Data.Prod.Lex
import TapeRing.Proofs.Machine.Assembly
import TapeRing.Proofs.Race.Abreast

/-! # Races

The processors of a machine without input race for being the first to be finished or to fault. The
round of the event counts first, and then the place of the processor in the ring (`IsFirst`). A
machine that has only ticked so far has not got beyond the first of these events, and when it halts
or faults it is because of it (`Racing`). -/

namespace TapeRing.Machine

/-- The least of the times of some processors, and of the processors with this time the first. -/
def IsFirst (count : Nat) (time : Nat → ℕ∞) (least : ℕ∞) (index : Nat) : Prop :=
  IsLeast ((fun index => toLex (time index, index)) '' Set.Iio count) (toLex (least, index))

section IsFirst

variable {count : Nat} {time : Nat → ℕ∞}

theorem exists_isFirst (hpos : 0 < count) (time : Nat → ℕ∞) :
    ∃ least index, IsFirst count time least index := by
  obtain ⟨index, hindex, hleast⟩ := Finset.exists_min_image (Finset.range count)
    (fun index => toLex (time index, index)) ⟨0, Finset.mem_range.mpr hpos⟩
  refine ⟨time index, index, ⟨index, Finset.mem_range.mp hindex, rfl⟩, ?_⟩
  rintro _ ⟨other, hother, rfl⟩
  exact hleast other (Finset.mem_range.mpr hother)

theorem IsFirst.mem {least : ℕ∞} {index : Nat} (h : IsFirst count time least index) :
    index < count ∧ time index = least := by
  obtain ⟨other, hother, heq⟩ := h.1
  obtain ⟨rfl, rfl⟩ := Prod.mk.inj (toLex_inj.mp heq)
  exact ⟨hother, rfl⟩

theorem IsFirst.unique {least least' : ℕ∞} {index index' : Nat} (h : IsFirst count time least index)
    (h' : IsFirst count time least' index') : least = least' ∧ index = index' :=
  Prod.mk.inj (toLex_inj.mp (IsLeast.unique h h'))

theorem IsFirst.ne_top {least : ℕ∞} {index other : Nat} (h : IsFirst count time least index)
    (hother : other < count) (hfinite : time other ≠ ⊤) : least ≠ ⊤ := by
  have hle := h.2 ⟨other, hother, rfl⟩
  rintro rfl
  rcases Prod.Lex.toLex_le_toLex.mp hle with hlt | ⟨heq, -⟩
  · exact not_top_lt hlt
  · exact hfinite heq.symm

/-- The processor at a place is the first to reach its time, if no processor has more places before
    than its time. -/
theorem isFirst_place (place : Nat) (hpos : 0 < count)
    (htime : time (place % count) = (place / count : Nat))
    (hdue : ∀ index < count, (due count place index : ℕ∞) ≤ time index) :
    IsFirst count time (place / count : Nat) (place % count) := by
  refine ⟨⟨place % count, Nat.mod_lt place hpos,
    congrArg (fun least => toLex (least, place % count)) htime⟩, ?_⟩
  rintro _ ⟨index, hindex, rfl⟩
  have hle := hdue index hindex
  rw [due_eq hindex] at hle
  rw [Prod.Lex.toLex_le_toLex]
  split at hle
  · -- Before the place in the ring: it has had its turn in this round as well.
    left
    exact (ENat.natCast_add_one_le_iff).mp (by exact_mod_cast hle)
  · rcases lt_or_eq_of_le hle with hlt | heq
    · exact Or.inl hlt
    · exact Or.inr ⟨heq, by omega⟩

/-- No place after that of the first processor is reached, if this one has no more places than its
    time. -/
theorem IsFirst.place_le {place round index : Nat} (h : IsFirst count time round index)
    (hdue : (due count place index : ℕ∞) ≤ time index) : place ≤ round * count + index := by
  obtain ⟨hindex, htime⟩ := h.mem
  rw [htime] at hdue
  have hle : due count place index ≤ round := by exact_mod_cast hdue
  by_contra hlt
  exact absurd ((lt_due_iff hindex place round).mpr (not_le.mp hlt)) (Nat.not_lt_of_le hle)

end IsFirst

/-- The processor with an index, before the first step of the machine. -/
def member (config : MachineConfig) (source : String) (index : Nat) : Processor :=
  Processor.load index ((Program.parse source).part config.processors index) config.brackets

section Race

variable {κ σ κ' σ' : Type} [ByteSink κ] [ByteSource σ] [ByteSink κ'] [ByteSource σ']

/-- When each processor is finished on its own. -/
noncomputable def finishTimes (config : MachineConfig) (source : String) (other : Channels κ' σ')
    (index : Nat) : ℕ∞ :=
  (member config source index).finishTime other

/-- When each processor faults on its own. -/
noncomputable def faultTimes (config : MachineConfig) (source : String) (other : Channels κ' σ')
    (index : Nat) : ℕ∞ :=
  (member config source index).faultTime other

/-- When each processor stops on its own. -/
noncomputable def endTimes (config : MachineConfig) (source : String) (other : Channels κ' σ')
    (index : Nat) : ℕ∞ :=
  min (finishTimes config source other index) (faultTimes config source other index)

/-- After `round` ticks on its own the next tick of a processor fails with this fault. -/
def FaultsAlone (config : MachineConfig) (source : String) (other : Channels κ' σ')
    (index round : Nat) (failure : Fault) : Prop :=
  ((member config source index).tickAlone other round).result = .error failure

theorem not_finish_and_fault {config : MachineConfig} {source : String} {other : Channels κ' σ'}
    {index round : Nat} (hfinish : finishTimes config source other index = round)
    (hfault : faultTimes config source other index = round) : False := by
  have htop := Processor.faultTime_eq_top (le_of_eq hfinish) (le_of_eq hfault.symm)
  exact ENat.top_ne_natCast round (htop.symm.trans hfault)

theorem abreast_fresh {config : MachineConfig} (hpos : 0 < config.processors) (source : String)
    (other : Channels κ' σ') :
    Abreast (member config source) other 0 [] (fresh config source) where
  onCourse := onCourse_fresh hpos source
  pace := by
    intro index p hp
    have hindex := (List.getElem?_eq_some_iff.mp hp).1
    rw [length_processors_fresh] at hindex
    rw [getElem?_processors_fresh hindex] at hp
    cases hp
    exact .start _ other

/-- A machine that a run from the start has led to, by `count` steps that all ticked. -/
structure Racing (config : MachineConfig) (source : String) (other : Channels κ' σ') (count : Nat)
    (m : Machine) : Prop where
  ticks_eq : m.ticks = count
  config_eq : m.config = config
  length_eq : m.processors.length = config.processors
  abreast : ∃ place made, Abreast (member config source) other place made m

variable {config : MachineConfig} {source : String} {channels : Channels κ σ}
  {other : Channels κ' σ'} {m : Machine} {c : Channels κ σ} {count : Nat}

theorem inputless_member (hcommas : ',' ∉ source.toList) (index : Nat) :
    (member config source index).program.Inputless :=
  (Program.inputless_parse hcommas).part config.processors index

theorem Strides.racing (h : Strides count (fresh config source) channels m c)
    (hpos : 0 < config.processors) (hcommas : ',' ∉ source.toList)
    (hsink : Unfailing channels.sink) (hother : Unfailing other.sink) :
    Racing config source other count m where
  ticks_eq := by rw [h.ticks_eq]; exact Nat.zero_add count
  config_eq := h.fixed.1
  length_eq := by rw [h.fixed.2, length_processors_fresh]
  abreast := h.abreast (inputless_member hcommas) hother hsink (abreast_fresh hpos source other)

namespace Racing

section FirstFinished

variable (h : Racing config source other count m) (hhalt : config.halt = .firstFinished)

include h hhalt

theorem due_le_endTimes {index : Nat} (hindex : index < config.processors) :
    (due config.processors count index : ℕ∞) ≤ endTimes config source other index := by
  obtain ⟨place, made, habreast⟩ := h.abreast
  have hpolicy : m.config.halt = .firstFinished := by rw [h.config_eq, hhalt]
  have hplace := (habreast.onCourse.firstFinished hpolicy).1
  have hswept := habreast.onCourse.swept
  rw [← h.length_eq] at hindex ⊢
  rw [hplace] at hswept
  rw [← h.ticks_eq]
  exact le_min (habreast.due_le_finishTime hpolicy hindex) (habreast.due_le_faultTime hswept hindex)

/-- A machine that halts does so on a processor that is finished in this round. -/
theorem halt_firstFinished {on : Option Nat} (hturn : m.turn = .halt on) :
    on = some (count % config.processors) ∧
      finishTimes config source other (count % config.processors) =
        (count / config.processors : Nat) := by
  obtain ⟨place, made, habreast⟩ := h.abreast
  have hpolicy : m.config.halt = .firstFinished := by rw [h.config_eq, hhalt]
  obtain ⟨-, hcursor, -, hcount⟩ := habreast.onCourse.firstFinished hpolicy
  obtain ⟨rfl, p, hp, hfinished⟩ :=
    (turn_firstFinished_eq_halt_iff hpolicy habreast.onCourse.cursor_lt on).mp hturn
  have hfinish := (habreast.pace hp).finished_iff.mp hfinished
  rw [hcount, hcursor, h.length_eq, h.ticks_eq] at hfinish
  rw [hcursor, h.length_eq, h.ticks_eq]
  exact ⟨rfl, hfinish⟩

theorem isFirst_endTimes (hpos : 0 < config.processors)
    (hend : finishTimes config source other (count % config.processors) =
        (count / config.processors : Nat) ∨
      faultTimes config source other (count % config.processors) =
        (count / config.processors : Nat)) :
    IsFirst config.processors (endTimes config source other) (count / config.processors : Nat)
      (count % config.processors) := by
  have hindex := Nat.mod_lt count hpos
  -- The processor has been ticked in all rounds before, so it has not stopped earlier.
  have hdue := h.due_le_endTimes hhalt hindex
  rw [due_eq hindex, if_neg (Nat.lt_irrefl _), Nat.add_zero] at hdue
  refine isFirst_place count hpos (le_antisymm ?_ hdue) fun index => h.due_le_endTimes hhalt
  rcases hend with hfinish | hfault
  · exact (min_le_left _ _).trans (le_of_eq hfinish)
  · exact (min_le_right _ _).trans (le_of_eq hfault)

end FirstFinished

/-- A machine that halts once all processors are finished has made all their ticks. -/
theorem halt_allFinished (h : Racing config source other count m)
    (hhalt : config.halt = .allFinished) {on : Option Nat} (hturn : m.turn = .halt on) :
    on = none ∧
      (∀ index < config.processors, finishTimes config source other index ≠ ⊤ ∧
        faultTimes config source other index = ⊤) ∧
      (count : ℕ∞) =
        ∑ index ∈ Finset.range config.processors, finishTimes config source other index := by
  obtain ⟨place, made, habreast⟩ := h.abreast
  have hpolicy : m.config.halt = .allFinished := by rw [h.config_eq, hhalt]
  obtain ⟨rfl, hfinished⟩ := (turn_allFinished_eq_halt_iff hpolicy on).mp hturn
  have hends : ∀ index < config.processors,
      finishTimes config source other index = made.count index ∧
        faultTimes config source other index = ⊤ := by
    intro index hindex
    rw [← h.length_eq] at hindex
    have hp := List.getElem?_eq_getElem hindex
    have hpfinished := hfinished _ (List.mem_of_getElem? hp)
    exact ⟨(habreast.pace hp).finished_iff.mp hpfinished,
      (habreast.pace hp).faultTime_of_finished hpfinished⟩
  refine ⟨rfl, fun index hindex => ⟨?_, (hends index hindex).2⟩, ?_⟩
  · rw [(hends index hindex).1]
    exact ENat.natCast_ne_top _
  · rw [← h.ticks_eq, ← habreast.onCourse.sum_count, h.length_eq, Nat.cast_sum]
    exact Finset.sum_congr rfl fun index hmem => (hends index (Finset.mem_range.mp hmem)).1.symm

/-- Each processor is ticked until it is finished, at the most. -/
theorem le_sum_finishTimes (h : Racing config source other count m) :
    (count : ℕ∞) ≤
      ∑ index ∈ Finset.range config.processors, finishTimes config source other index := by
  obtain ⟨place, made, habreast⟩ := h.abreast
  rw [← h.ticks_eq, ← habreast.onCourse.sum_count, h.length_eq, Nat.cast_sum]
  refine Finset.sum_le_sum fun index hmem => ?_
  rw [Finset.mem_range, ← h.length_eq] at hmem
  exact (habreast.pace (List.getElem?_eq_getElem hmem)).le_finishTime

/-- No more ticks are made than there are places before the first fault. -/
theorem le_of_isFirst (h : Racing config source other count m) {round index : Nat}
    (hfirst : IsFirst config.processors (faultTimes config source other) round index) :
    count ≤ round * config.processors + index := by
  obtain ⟨place, made, habreast⟩ := h.abreast
  have hindex : index < m.processors.length := by
    rw [h.length_eq]
    exact hfirst.mem.1
  have hdue := habreast.due_le_faultTime habreast.onCourse.swept hindex
  rw [h.length_eq] at hdue
  calc count = made.length := by rw [← h.ticks_eq, habreast.onCourse.ticks_eq]
    _ ≤ place := habreast.onCourse.swept.length_le
    _ ≤ round * config.processors + index := hfirst.place_le hdue

/-- A step that faults is a tick of the processor that faults first, and the others have been ticked
    at all their places before, until they were finished. -/
theorem fault (h : Racing config source other count m) (hpos : 0 < config.processors)
    (hcommas : ',' ∉ source.toList) (hother : Unfailing other.sink) (hsink : Unfailing c.sink)
    {failure : Fault} (hfault : (m.step c).result = .error failure) :
    ∃ place, (config.halt = .firstFinished → place = count) ∧
      IsFirst config.processors (faultTimes config source other)
        (place / config.processors : Nat) (place % config.processors) ∧
      FaultsAlone config source other (place % config.processors) (place / config.processors)
        failure ∧
      (m.step c).state.ticks = count ∧
      (count : ℕ∞) = ∑ index ∈ Finset.range config.processors,
        min (finishTimes config source other index) (due config.processors place index) := by
  obtain ⟨place, made, habreast⟩ := h.abreast
  obtain ⟨reached, hswept, hpolicy, htime, hfailure, hticks⟩ :=
    habreast.fault (inputless_member hcommas) hother hsink hfault
  have hdue := fun index (hindex : index < m.processors.length) =>
    habreast.due_le_faultTime hswept hindex
  have hcount := fun index (hindex : index < m.processors.length) =>
    habreast.count_eq_min hswept hindex
  rw [h.length_eq] at htime hfailure hdue hcount
  refine ⟨reached, ?_, isFirst_place reached hpos htime hdue, hfailure, hticks.trans h.ticks_eq, ?_⟩
  · intro hhalt
    have hhalt' : m.config.halt = .firstFinished := by rw [h.config_eq, hhalt]
    rw [hpolicy hhalt', (habreast.onCourse.firstFinished hhalt').1, h.ticks_eq]
  · rw [← h.ticks_eq, ← habreast.onCourse.sum_count, h.length_eq, Nat.cast_sum]
    exact Finset.sum_congr rfl fun index hmem => hcount index (Finset.mem_range.mp hmem)

end Racing

end Race

end TapeRing.Machine
