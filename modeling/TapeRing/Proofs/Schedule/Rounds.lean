import Mathlib.Data.Prod.Lex
import TapeRing.Channel.Sink
import TapeRing.Channel.Source
import TapeRing.Proofs.Machine.Reachable
import TapeRing.Proofs.Schedule.Places
import TapeRing.Proofs.Transcript

/-! # The schedule of a machine

The round of a tick is the number of ticks that its processor has got before. A machine that stops
on the first finished processor ticks its processors in turn; one that waits for all ticks them in
the lexicographic order of round and processor, as long as the processor has work left in the round
(`steps_follow_schedule`). -/

namespace TapeRing.Machine

/-! ## Rounds -/

/-- The ticks of a schedule with their rounds, in order. -/
def rounds (made : List Nat) : List (Nat ×ₗ Nat) :=
  made.zipIdx.map fun (index, place) => toLex ((made.take place).count index, index)

theorem rounds_append_singleton (made : List Nat) (index : Nat) :
    rounds (made ++ [index]) = rounds made ++ [toLex (made.count index, index)] := by
  have hearlier : ∀ visit ∈ made.zipIdx, ((made ++ [index]).take visit.2).count visit.1 =
      (made.take visit.2).count visit.1 := by
    rintro ⟨other, place⟩ hmem
    have hlt := (List.mem_zipIdx' hmem).1
    rw [List.take_append_of_le_length (Nat.le_of_lt hlt)]
  simp only [rounds, List.zipIdx_append, List.map_append, List.zipIdx_singleton, List.map_cons,
    List.map_nil, Nat.zero_add, List.take_left']
  congr 1
  apply List.map_congr_left
  rintro ⟨other, place⟩ hmem
  rw [hearlier _ hmem]

theorem mem_rounds_iff {made : List Nat} {round index : Nat} :
    toLex (round, index) ∈ rounds made ↔ round < made.count index := by
  induction made using List.reverseRecOn with
  | nil => simp [rounds]
  | append_singleton made last ih =>
    rw [rounds_append_singleton, List.mem_append, ih, List.mem_singleton, List.count_append,
      List.count_singleton, toLex_inj, Prod.mk.injEq]
    by_cases hsame : last = index
    · subst hsame
      simp only [beq_self_eq_true, if_true, and_true]
      omega
    · simp [hsame, Ne.symm hsame]

/-- The lexicographic order of round and processor is that of the places. -/
theorem toLex_lt_toLex_iff_place {count round index round' index' : Nat} (h : index < count)
    (h' : index' < count) :
    toLex (round, index) < toLex (round', index') ↔
      round * count + index < round' * count + index' := by
  rw [Prod.Lex.toLex_lt_toLex]
  rcases Nat.lt_trichotomy round round' with hlt | rfl | hgt
  · have hle : (round + 1) * count ≤ round' * count := Nat.mul_le_mul_right _ hlt
    rw [Nat.succ_mul] at hle
    simp only [hlt, true_or, true_iff]
    omega
  · simp
  · have hle : (round' + 1) * count ≤ round * count := Nat.mul_le_mul_right _ hgt
    rw [Nat.succ_mul] at hle
    constructor
    · rintro (h | ⟨h, -⟩) <;> omega
    · intro; omega

/-- The rounds of the ticks made belong to places that have been gone through. -/
theorem Swept.lt_of_mem_rounds {place : Nat} {made : List Nat} {ring : List Processor}
    (h : Swept place made ring) {round index : Nat} (hmem : toLex (round, index) ∈ rounds made) :
    index < ring.length ∧ round * ring.length + index < place := by
  rw [mem_rounds_iff] at hmem
  have hindex := h.lt_length index (List.count_pos_iff.mp (Nat.zero_lt_of_lt hmem))
  have hdue := Nat.lt_of_lt_of_le hmem (h.count_le index hindex)
  exact ⟨hindex, (lt_due_iff hindex place round).mp hdue⟩

theorem rounds_tick_sorted {made : List Nat} {m : Machine} {reached place : Nat} {p : Processor}
    (hgoes : GoesOnTo place made m reached p) (hsorted : (rounds made).Pairwise (· < ·)) :
    (rounds (made ++ [reached % m.processors.length])).Pairwise (· < ·) := by
  have hlast := (List.getElem?_eq_some_iff.mp hgoes.getElem?_eq).1
  rw [rounds_append_singleton, List.pairwise_append]
  refine ⟨hsorted, List.pairwise_singleton _ _, ?_⟩
  intro visit hvisit last hmem
  obtain ⟨⟨round, index⟩, rfl⟩ := toLex.surjective visit
  obtain ⟨hindex, hplace⟩ := hgoes.swept.lt_of_mem_rounds hvisit
  rw [List.mem_singleton.mp hmem, hgoes.count_eq, toLex_lt_toLex_iff_place hindex hlast,
    Nat.mul_comm (reached / m.processors.length), Nat.div_add_mod]
  exact hplace

/-! ## The processors of a run -/

section Runs

variable {κ σ : Type} [ByteSink κ] [ByteSource σ]

/-- In a run from `start`, the processor is not finished after `round` ticks of its own. -/
def WorkLeft (start : Machine) (channels : Channels κ σ) (round index : Nat) : Prop :=
  ∃ calls p, (transcript step calls start channels).state.processors[index]? = some p ∧
    (ticked (transcript step calls start channels).results).count index = round ∧
    p.isFinished = false

variable {config : MachineConfig} {source : String}

theorem onCourse_transcript (hpos : 0 < config.processors) (source : String) (calls : Nat)
    (channels : Channels κ σ) :
    let run := transcript step calls (fresh config source) channels
    ∃ place, OnCourse place (ticked run.results) run.state ∧
      (rounds (ticked run.results)).Pairwise (· < ·) := by
  induction calls with
  | zero => exact ⟨0, onCourse_fresh hpos source, List.Pairwise.nil⟩
  | succ calls ih =>
    obtain ⟨place, hcourse, hsorted⟩ := ih
    rw [transcript_succ]
    simp only [ticked_append]
    generalize (transcript step calls (fresh config source) channels).channels = channels' at *
    rcases hcourse.step_cases channels' with
      ⟨on, -, heq⟩ |
        ⟨reached, p, hgoes, ⟨-, hresult, hcourse', -⟩ | ⟨fault, -, hresult, hcourse', -⟩⟩
    · rw [heq, ticked_halted, List.append_nil]
      exact ⟨place, hcourse, hsorted⟩
    · rw [hresult, ticked_ticked]
      exact ⟨reached + 1, hcourse', rounds_tick_sorted hgoes hsorted⟩
    · rw [hresult, ticked_error, List.append_nil]
      exact ⟨reached, hcourse', hsorted⟩

theorem config_transcript (calls : Nat) (start : Machine) (channels : Channels κ σ) :
    (transcript step calls start channels).state.config = start.config ∧
      (transcript step calls start channels).state.processors.length = start.processors.length := by
  have hkept : ∀ (m : Machine) (channels : Channels κ σ),
      m.config = start.config ∧ m.processors.length = start.processors.length →
        (m.step channels).state.config = start.config ∧
          (m.step channels).state.processors.length = start.processors.length := by
    intro m channels h
    rw [config_step, length_processors_step]
    exact h
  exact transcript_invariant hkept calls start channels ⟨rfl, rfl⟩

theorem length_processors_transcript (config : MachineConfig) (source : String) (calls : Nat)
    (channels : Channels κ σ) :
    (transcript step calls (fresh config source) channels).state.processors.length =
      config.processors := by
  rw [(config_transcript calls (fresh config source) channels).2, length_processors_fresh]

/-- In a run a processor stays as it is until it is ticked again, and a finished one stays for
    ever. -/
theorem kept_or_ticked (hpos : 0 < config.processors) (channels : Channels κ σ) {calls : Nat}
    {index : Nat} {p : Processor}
    (hp : (transcript step calls (fresh config source) channels).state.processors[index]? = some p)
    (more : Nat) :
    let before := transcript step calls (fresh config source) channels
    let now := transcript step (calls + more) (fresh config source) channels
    (now.state.processors[index]? = some p ∧
        (ticked now.results).count index = (ticked before.results).count index) ∨
      (p.isFinished = false ∧
        (ticked before.results).count index < (ticked now.results).count index) := by
  intro before now
  induction more with
  | zero => exact Or.inl ⟨hp, rfl⟩
  | succ more ih =>
    obtain ⟨place, hcourse, -⟩ := onCourse_transcript hpos source (calls + more) channels
    have hnow : now = _ := transcript_succ step (calls + more) (fresh config source) channels
    rw [hnow]
    simp only [ticked_append, List.count_append]
    generalize transcript step (calls + more) (fresh config source) channels = previous
      at ih hcourse
    rcases hcourse.step_cases previous.channels with
      ⟨on, -, heq⟩ |
        ⟨reached, q, hgoes, ⟨-, hresult, -, hring, -⟩ | ⟨fault, -, hresult, -, hring⟩⟩
    · rw [heq, ticked_halted, List.count_nil, Nat.add_zero]
      exact ih
    · rw [hresult, hring, ticked_ticked]
      rcases ih with ⟨hsame, hcount⟩ | ⟨hunfinished, hlt⟩
      · by_cases hturn : reached % previous.state.processors.length = index
        · right
          subst hturn
          rw [hgoes.getElem?_eq] at hsame
          cases hsame
          rw [List.count_singleton_self, hcount]
          exact ⟨hgoes.unfinished, Nat.lt_succ_self _⟩
        · left
          rw [List.getElem?_set_ne hturn, List.count_singleton, if_neg (by simpa using hturn)]
          exact ⟨hsame, hcount⟩
      · exact Or.inr ⟨hunfinished, Nat.lt_add_right _ hlt⟩
    · rw [hresult, hring, ticked_error, List.count_nil, Nat.add_zero]
      exact ih

theorem WorkLeft.lt {channels : Channels κ σ} {round index : Nat}
    (h : WorkLeft (fresh config source) channels round index) : index < config.processors := by
  obtain ⟨calls, p, hp, -⟩ := h
  rw [← length_processors_transcript config source calls channels]
  exact (List.getElem?_eq_some_iff.mp hp).1

/-- A processor with work left in a round has had its tick when the machine has gone through the
    place, and when the processor is finished. -/
theorem WorkLeft.mem_rounds (hpos : 0 < config.processors) {channels : Channels κ σ} {calls : Nat}
    {round index place : Nat} (hwork : WorkLeft (fresh config source) channels round index)
    (hcourse : OnCourse place
      (ticked (transcript step calls (fresh config source) channels).results)
      (transcript step calls (fresh config source) channels).state)
    (hdue : round * config.processors + index < place ∨
      ∀ p ∈ (transcript step calls (fresh config source) channels).state.processors,
        p.isFinished = true) :
    toLex (round, index) ∈
      rounds (ticked (transcript step calls (fresh config source) channels).results) := by
  have hlength := length_processors_transcript config source calls channels
  have hindex := hwork.lt
  have hcount : ∀ p, (transcript step calls (fresh config source) channels).state.processors[index]?
      = some p → p.isFinished = false → round < (ticked
        (transcript step calls (fresh config source) channels).results).count index := by
    intro p hp hunfinished
    rw [hcourse.swept.count_eq hp hunfinished, hlength, lt_due_iff hindex]
    refine hdue.resolve_right fun hall => ?_
    rw [hall p (List.mem_of_getElem? hp)] at hunfinished
    cases hunfinished
  rw [mem_rounds_iff]
  obtain ⟨moment, q, hq, hround, hunfinished⟩ := hwork
  -- The moment with work left is before or after the present one.
  rcases Nat.le_total moment calls with hle | hle
  · obtain ⟨more, rfl⟩ := Nat.exists_eq_add_of_le hle
    rcases kept_or_ticked hpos channels hq more with ⟨hsame, -⟩ | ⟨-, hlt⟩
    · exact hcount q hsame hunfinished
    · rwa [hround] at hlt
  · obtain ⟨more, rfl⟩ := Nat.exists_eq_add_of_le hle
    have hp : (transcript step calls (fresh config source) channels).state.processors[index]? =
        some _ := List.getElem?_eq_getElem (by rw [hlength]; exact hindex)
    rcases kept_or_ticked hpos channels hp more with ⟨hsame, -⟩ | ⟨hunfinished', -⟩
    · rw [hq] at hsame
      cases hsame
      exact hcount _ hp hunfinished
    · exact hcount _ hp hunfinished'

/-- Whoever is ticked in a round has work left in it. -/
theorem workLeft_of_mem_rounds (hpos : 0 < config.processors) (channels : Channels κ σ)
    {round index : Nat} : ∀ calls : Nat,
      toLex (round, index) ∈
          rounds (ticked (transcript step calls (fresh config source) channels).results) →
        WorkLeft (fresh config source) channels round index := by
  intro calls
  induction calls with
  | zero => intro hmem; cases hmem
  | succ calls ih =>
    intro hmem
    obtain ⟨place, hcourse, -⟩ := onCourse_transcript hpos source calls channels
    rw [transcript_succ, ticked_append] at hmem
    rcases hcourse.step_cases (transcript step calls (fresh config source) channels).channels with
      ⟨on, -, heq⟩ | ⟨reached, p, hgoes, ⟨-, hresult, -⟩ | ⟨fault, -, hresult, -⟩⟩
    · rw [heq, ticked_halted, List.append_nil] at hmem
      exact ih hmem
    · rw [hresult, ticked_ticked, rounds_append_singleton] at hmem
      rcases List.mem_append.mp hmem with hmem | hmem
      · exact ih hmem
      · obtain ⟨rfl, rfl⟩ := Prod.mk.inj (toLex_inj.mp (List.mem_singleton.mp hmem))
        exact ⟨calls, p, hgoes.getElem?_eq, rfl, hgoes.unfinished⟩
    · rw [hresult, ticked_error, List.append_nil] at hmem
      exact ih hmem

/-- Whatever is reached from a fresh machine is on course. -/
theorem Reaches.onCourse (hpos : 0 < config.processors) {m : Machine}
    (h : Reaches (fresh config source) m) : ∃ place made, OnCourse place made m := by
  have hkept : ∀ {κ σ : Type} [ByteSink κ] [ByteSource σ] (m : Machine) (channels : Channels κ σ),
      (∃ place made, OnCourse place made m) →
        ∃ place made, OnCourse place made (m.step channels).state := by
    rintro κ σ _ _ m channels ⟨place, made, hcourse⟩
    rcases hcourse.step_cases channels with
      ⟨on, -, heq⟩ | ⟨reached, p, -, ⟨-, -, hcourse', -⟩ | ⟨fault, -, -, hcourse', -⟩⟩
    · rw [heq]
      exact ⟨place, made, hcourse⟩
    · exact ⟨_, _, hcourse'⟩
    · exact ⟨_, _, hcourse'⟩
  exact h.invariant hkept ⟨0, [], onCourse_fresh hpos source⟩

theorem Reaches.cursor_eq (hpos : 0 < config.processors) (hhalt : config.halt = .firstFinished)
    {m : Machine} (h : Reaches (fresh config source) m) :
    m.cursor = m.ticks % config.processors := by
  obtain ⟨place, made, hcourse⟩ := h.onCourse hpos
  have hsound := h.sound (assemble_of_pos hpos source)
  have hcursor := (hcourse.firstFinished (by rw [hsound.config_eq]; exact hhalt)).2.1
  rwa [hsound.length_processors] at hcursor

/-- A machine that halts does so for ever. -/
theorem transcript_of_halt {m : Machine} {on : Option Nat} (h : m.turn = .halt on) (calls : Nat)
    (channels : Channels κ σ) :
    transcript step calls m channels = ⟨List.replicate calls (.ok (.halted on)), m, channels⟩ := by
  induction calls with
  | zero => rfl
  | succ calls ih =>
    simp only [transcript, step_of_halt h, ih]
    rfl

/-- A machine with at least one processor can be assembled from every text. After any number of
    steps, with any sink and source and whatever faults there were:
    - the machine has counted one tick for each step that ticked, it never is the turn of a finished
      processor, and once it halts it halts in the same way for ever and nothing changes;
    - a machine that stops on the first finished processor has ticked processor `k mod n` in its
      `k`-th tick, its cursor is at the ticks modulo `n`, and it halts exactly when the processor
      there, which has had the ticks divided by `n`, is finished;
    - a machine that waits for all has ticked its processors in the lexicographic order of the round
      and the processor: those with work left in the round and no others, up to the last one
      ticked, all of round `r` after `(r + 1) * n` ticks, and all there are when it halts; and it
      halts exactly when all processors are finished. -/
theorem steps_follow_schedule (config : MachineConfig) (hpos : 0 < config.processors)
    (source : String) :
    ∃ start : Machine, assemble config source = .ok start ∧
      ∀ (calls : Nat) (channels : Channels κ σ),
        let run := transcript step calls start channels
        let made := ticked run.results
        let next := run.state.step run.channels
        (run.state.ticks = made.length ∧
          (∀ index p, run.state.turn = .tick index p → p.isFinished = false) ∧
          (∀ index, next.result = .ok (.ticked index) →
            (∃ p, run.state.turn = .tick index p) ∧ next.state.ticks = run.state.ticks + 1) ∧
          ∀ on, next.result = .ok (.halted on) → ∀ (later : Nat) (channels' : Channels κ σ),
            transcript step later run.state channels' =
              ⟨List.replicate later (.ok (.halted on)), run.state, channels'⟩) ∧
        (config.halt = .firstFinished →
          made = (List.range run.state.ticks).map (· % config.processors) ∧
          (∀ m, Reaches start m → m.cursor = m.ticks % config.processors) ∧
          made.count (run.state.ticks % config.processors) =
            run.state.ticks / config.processors ∧
          ∀ on, next.result = .ok (.halted on) ↔
            on = some (run.state.ticks % config.processors) ∧
              ∃ p, run.state.processors[run.state.ticks % config.processors]? = some p ∧
                p.isFinished = true) ∧
        (config.halt = .allFinished →
          (rounds made).Pairwise (· < ·) ∧
          (∀ round index, toLex (round, index) ∈ rounds made ↔
            WorkLeft start channels round index ∧
              ∃ last ∈ rounds made, toLex (round, index) ≤ last) ∧
          (∀ round index, WorkLeft start channels round index →
            (round + 1) * config.processors ≤ run.state.ticks ∨ next.result = .ok (.halted none) →
              toLex (round, index) ∈ rounds made) ∧
          ∀ on, next.result = .ok (.halted on) ↔
            on = none ∧ ∀ p ∈ run.state.processors, p.isFinished = true) := by
  refine ⟨fresh config source, assemble_of_pos hpos source, ?_⟩
  intro calls channels run made next
  obtain ⟨place, hcourse, hsorted⟩ := onCourse_transcript hpos source calls channels
  have hconfig := (config_transcript calls (fresh config source) channels).1
  have hlength := length_processors_transcript config source calls channels
  refine ⟨⟨hcourse.ticks_eq, ?_, ?_, ?_⟩, ?_, ?_⟩
  · intro index p hturn
    exact (turn_tick_cases hcourse.cursor_lt hturn).1
  · intro index hresult
    exact turn_of_result_ticked hresult
  · intro on hresult later channels'
    exact transcript_of_halt ((result_step_eq_halted_iff _).mp hresult) later channels'
  · intro hhalt
    have hpolicy : run.state.config.halt = .firstFinished := by rw [hconfig]; exact hhalt
    obtain ⟨-, hcursor, hmade, hcount⟩ := hcourse.firstFinished hpolicy
    have hhalted := turn_firstFinished_eq_halt_iff hpolicy hcourse.cursor_lt
    rw [hcursor] at hcount hhalted
    rw [hlength] at hmade hcount hhalted
    exact ⟨hmade, fun m hm => hm.cursor_eq hpos hhalt, hcount,
      fun on => (result_step_eq_halted_iff _).trans (hhalted on)⟩
  · intro hhalt
    have hpolicy : run.state.config.halt = .allFinished := by rw [hconfig]; exact hhalt
    have hhalted : ∀ on, next.result = .ok (.halted on) ↔ _ := fun on =>
      (result_step_eq_halted_iff _).trans (turn_allFinished_eq_halt_iff hpolicy on)
    refine ⟨hsorted, ?_, ?_, hhalted⟩
    · intro round index
      constructor
      · intro hmem
        exact ⟨workLeft_of_mem_rounds hpos channels calls hmem, _, hmem, le_rfl⟩
      · rintro ⟨hwork, last, hlast, hle⟩
        refine hwork.mem_rounds hpos hcourse (Or.inl ?_)
        obtain ⟨⟨round', index'⟩, rfl⟩ := toLex.surjective last
        obtain ⟨hindex', hplace⟩ := hcourse.swept.lt_of_mem_rounds hlast
        rw [hlength] at hindex' hplace
        rw [← not_lt, toLex_lt_toLex_iff_place hindex' hwork.lt] at hle
        omega
    · intro round index hwork hdue
      refine hwork.mem_rounds hpos hcourse (hdue.imp ?_ fun h => ((hhalted none).mp h).2)
      intro hticks
      have hindex := hwork.lt
      have hplace : run.state.ticks ≤ place := by
        rw [hcourse.ticks_eq]
        exact hcourse.swept.length_le
      rw [Nat.succ_mul] at hticks
      omega

end Runs

/-- The first processor is finished after five ticks, the second after nine, so from round five on
    the first is passed over. -/
theorem steps_follow_schedule_on_pair :
    0 < 2 ∧ ∃ start : Machine,
      assemble { processors := 2, halt := .allFinished } "+++++[+-+]" = .ok start ∧
      let run := transcript step 14 start ⟨ByteBuffer.empty, SliceSource.mk []⟩
      ticked run.results = [0, 1, 0, 1, 0, 1, 0, 1, 0, 1, 1, 1, 1, 1] ∧
      (rounds (ticked run.results)).Pairwise (· < ·) ∧
      (run.state.step run.channels).result = .ok (.halted none) := by
  obtain ⟨start, hstart, hall⟩ := @steps_follow_schedule ByteBuffer SliceSource _ _
    { processors := 2, halt := .allFinished } (by decide) "+++++[+-+]"
  obtain ⟨-, -, hlaw⟩ := hall 14 ⟨ByteBuffer.empty, SliceSource.mk []⟩
  obtain ⟨hsorted, -, -, hhalted⟩ := hlaw rfl
  obtain ⟨-, rfl⟩ := assemble_eq_ok_iff.mp hstart
  exact ⟨by decide, _, hstart, by rfl, hsorted, (hhalted none).mpr ⟨rfl, by decide⟩⟩

end TapeRing.Machine
