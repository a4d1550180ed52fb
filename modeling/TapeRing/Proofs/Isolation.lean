import TapeRing.Proofs.Channel.Recorded
import TapeRing.Proofs.Processor.Inputless
import TapeRing.Proofs.Schedule.Rounds
import TapeRing.Proofs.Strategies

/-! # Processors do not interfere

The processors of a machine share nothing but the channels. So each of them is what it would be if
it were ticked as often on its own, on the bytes that its own ticks got, and it puts the same bytes
(`processors_do_not_interfere`). -/

namespace TapeRing

/-- What a step came to, with the bytes that it got and put. -/
structure Passage where
  step : Step
  got : List UInt8
  put : List UInt8

variable {κ σ : Type} [ByteSink κ] [ByteSource σ]

/-! ## Ticks played again -/

namespace Processor

/-- A number of ticks lead from one processor to another, on any list that begins with the bytes
    `got`, of which they leave the rest, and with the bytes `put` going to the sink. -/
def Replays (count : Nat) (p : Processor) (got put : List UInt8) (q : Processor) : Prop :=
  ∀ (before : ByteBuffer) (rest : List UInt8),
    transcript tick count p ⟨before, SliceSource.mk (got ++ rest)⟩ =
      ⟨List.replicate count (.ok ()), q, ⟨before.pushAll put, SliceSource.mk rest⟩⟩

theorem Replays.start (p : Processor) : Replays 0 p [] [] p := fun _ _ => rfl

theorem Replays.tick {count : Nat} {p q : Processor} {got put : List UInt8}
    (h : Replays count p got put q) {c : Channels κ σ} (hok : (q.tick c).result = .ok ()) :
    Replays (count + 1) p (got ++ (q.tick c.recorded).channels.source.bytes)
      (put ++ (q.tick c.recorded).channels.sink.bytes) (q.tick c).state := by
  intro before rest
  rw [transcript_succ, List.append_assoc, h before]
  simp only [replay_tick hok, List.replicate_succ', ByteBuffer.pushAll_append]

theorem source_transcript_inputless : ∀ (count : Nat) (p : Processor) (c : Channels κ σ),
    p.program.Inputless → (transcript tick count p c).channels.source = c.source := by
  intro count
  induction count with
  | zero => intro p c _; rfl
  | succ count ih =>
    intro p c h
    have hprogram : (p.tick c).state.program = p.program := (fixed_tick p c).2.1
    rw [transcript, ih _ _ (by rwa [hprogram]), source_tick_inputless h]

/-- The ticks of a program without input get nothing. -/
theorem Replays.got_eq_nil {count : Nat} {p q : Processor} {got put : List UInt8}
    (h : Replays count p got put q) (hinputless : p.program.Inputless) : got = [] := by
  have hsource := source_transcript_inputless count p
    ⟨ByteBuffer.empty, SliceSource.mk (got ++ [])⟩ hinputless
  rw [h ByteBuffer.empty] at hsource
  simpa using (SliceSource.mk.inj hsource).symm

/-- Where a processor stands, on its program and on its tape. -/
def standing (p : Processor) : Nat × Nat × Tape × Bool :=
  (p.ip, p.dp, p.tape, p.isFinished)

/-- Where ticks lead does not depend on the way brackets are found. -/
theorem standing_transcript_load (id : Nat) (program : Program) (strategy : BracketStrategy)
    (count : Nat) (c : Channels κ σ) :
    (transcript tick count (load id program strategy) c).state.standing =
      (transcript tick count (load id program .scan) c).state.standing := by
  let Related (p q : Processor) : Prop := p.Consistent ∧ p.under .scan = q
  have hcall : ∀ (p q : Processor) (c : Channels κ σ), Related p q →
      (p.tick c).result = (q.tick c).result ∧ (p.tick c).channels = (q.tick c).channels ∧
        Related (p.tick c).state (q.tick c).state := by
    rintro p _ c ⟨hp, rfl⟩
    have hsame : (p.under .scan).tick c =
        ⟨(p.tick c).result, (p.tick c).state.under .scan, (p.tick c).channels⟩ :=
      (underRedrawing .scan).tick_redraw hp c
    have hp' := tick_invariant (fun _ hnext hp => hp.successor hnext) p c hp
    exact ⟨by rw [hsame], by rw [hsame], hp', by rw [hsame]⟩
  obtain ⟨-, -, -, hstate⟩ := transcript_related hcall count (load id program strategy) _ c
    ⟨consistent_load id program strategy, rfl⟩
  show _ = (transcript tick count ((load id program strategy).under .scan) c).state.standing
  rw [← hstate]
  rfl

end Processor

namespace Machine

/-! ## Observed steps -/

/-- Makes one turn and keeps the bytes that pass through the channels. -/
def observedStep (m : Machine) (channels : Channels κ σ) : Outcome Passage Machine κ σ :=
  let o := m.step channels.recorded
  ⟨o.result.map fun step => ⟨step, o.channels.source.bytes, o.channels.sink.bytes⟩, o.state,
    o.channels.plain⟩

/-- The ticks of one processor. -/
def passagesOf (index : Nat) (results : List (Except Fault Passage)) : List Passage :=
  results.filterMap fun
    | .ok passage => if passage.step = .ticked index then some passage else none
    | .error _ => none

theorem passagesOf_append (index : Nat) (results later : List (Except Fault Passage)) :
    passagesOf index (results ++ later) = passagesOf index results ++ passagesOf index later :=
  List.filterMap_append

theorem passagesOf_ok (index : Nat) (passage : Passage) :
    passagesOf index [.ok passage] = if passage.step = .ticked index then [passage] else [] := by
  by_cases h : passage.step = .ticked index <;> simp [passagesOf, h]

theorem passagesOf_error (index : Nat) (fault : Fault) : passagesOf index [.error fault] = [] := rfl

/-- Observing a run does not change it. -/
theorem transcript_observedStep : ∀ (calls : Nat) (m : Machine) (channels : Channels κ σ),
    (transcript observedStep calls m channels).results.map (Except.map Passage.step) =
        (transcript step calls m channels).results ∧
      (transcript observedStep calls m channels).state = (transcript step calls m channels).state ∧
      (transcript observedStep calls m channels).channels =
        (transcript step calls m channels).channels := by
  intro calls
  induction calls with
  | zero => intro m channels; exact ⟨rfl, rfl, rfl⟩
  | succ calls ih =>
    intro m channels
    obtain ⟨hresult, hstate, hchannels⟩ := step_recorded m channels
    have hmap : (m.observedStep channels).result.map Passage.step = (m.step channels).result := by
      rw [← hresult, observedStep]
      cases (m.step channels.recorded).result <;> rfl
    simp only [transcript, List.map_cons, hmap]
    simp only [observedStep, hstate, hchannels]
    obtain ⟨hresults, hrest⟩ := ih (m.step channels).state (m.step channels).channels
    exact ⟨by rw [hresults], hrest⟩

theorem length_passagesOf (index : Nat) (results : List (Except Fault Passage)) :
    (passagesOf index results).length =
      (ticked (results.map (Except.map Passage.step))).count index := by
  induction results with
  | nil => rfl
  | cons result results ih =>
    rw [← List.singleton_append, passagesOf_append, List.map_append, ticked_append,
      List.length_append, List.count_append, ih]
    congr 1
    cases result with
    | error fault => rfl
    | ok passage =>
      obtain ⟨step, got, put⟩ := passage
      rw [passagesOf_ok, List.map_singleton, Except.map]
      cases step with
      | ticked other =>
        rw [ticked_ticked, List.count_singleton]
        simp only [Step.ticked.injEq, beq_iff_eq]
        split <;> rfl
      | halted on =>
        rw [ticked_halted, if_neg (by simp)]
        rfl

/-- What the ticks of a processor in a run come to when they are played again. -/
theorem replays_transcript (config : MachineConfig) (source : String) (calls : Nat)
    (channels : Channels κ σ) :
    ∀ (index : Nat) (p : Processor),
      (transcript observedStep calls (fresh config source) channels).state.processors[index]? =
          some p →
        let mine :=
          passagesOf index (transcript observedStep calls (fresh config source) channels).results
        Processor.Replays mine.length
          (Processor.load index ((Program.parse source).part config.processors index)
            config.brackets)
          (mine.flatMap Passage.got) (mine.flatMap Passage.put) p := by
  induction calls with
  | zero =>
    intro index p hp
    have hindex := (List.getElem?_eq_some_iff.mp hp).1
    rw [transcript, length_processors_fresh] at hindex
    rw [transcript, getElem?_processors_fresh hindex] at hp
    cases hp
    exact .start _
  | succ calls ih =>
    intro index p hp
    rw [transcript_succ] at hp ⊢
    generalize transcript observedStep calls (fresh config source) channels = previous at ih hp ⊢
    simp only [passagesOf_append]
    rcases step_cases previous.state previous.channels.recorded with
      ⟨on, -, heq⟩ | ⟨other, q, -, hq, ⟨hresult, heq⟩ | ⟨fault, -, heq⟩⟩ <;>
      simp only [observedStep, heq, Except.map] at hp ⊢
    · rw [passagesOf_ok, if_neg (by simp), List.append_nil]
      exact ih index p hp
    · obtain ⟨hplain, hstate, -⟩ := tick_recorded q previous.channels
      rw [passagesOf_ok]
      by_cases hturn : other = index
      · subst hturn
        rw [List.getElem?_set_self (List.getElem?_eq_some_iff.mp hq).1, hstate] at hp
        cases hp
        have hreplay := (ih other q hq).tick (c := previous.channels) (by rw [← hplain, hresult])
        simpa using hreplay
      · -- The tick of another processor is none of its passages.
        rw [List.getElem?_set_ne hturn] at hp
        rw [if_neg (by simpa using hturn), List.append_nil]
        exact ih index p hp
    · rw [passagesOf_error, List.append_nil]
      exact ih index p hp

theorem sum_length_passagesOf {config : MachineConfig} (hpos : 0 < config.processors)
    (source : String) (calls : Nat) (channels : Channels κ σ) :
    ∑ index ∈ Finset.range config.processors, (passagesOf index
        (transcript observedStep calls (fresh config source) channels).results).length =
      (transcript step calls (fresh config source) channels).state.ticks := by
  obtain ⟨place, hcourse, -⟩ := onCourse_transcript hpos source calls channels
  simp only [length_passagesOf, (transcript_observedStep calls _ channels).1, ← hcourse.sum_count,
    length_processors_transcript]

theorem exists_processor_transcript {config : MachineConfig} {index : Nat}
    (hindex : index < config.processors) (source : String) (calls : Nat)
    (channels : Channels κ σ) :
    ∃ p, (transcript step calls (fresh config source) channels).state.processors[index]? =
      some p := by
  rw [← length_processors_transcript config source calls channels] at hindex
  exact ⟨_, List.getElem?_eq_getElem hindex⟩

/-- Let a machine be assembled, and let it make any number of steps with any sink and source. Let
    the passages of a processor be the steps that ticked it, each with the bytes that it got from
    the source and put to the sink.
    - The passages are those of the run, which being observed does not change, and their number over
      all processors is the number of ticks.
    - Each processor is what it becomes if it is loaded with its part of the program alone and is
      ticked as often as it has passages, on the bytes that its passages got; these ticks do not
      fault, they get all those bytes, and they put the bytes that its passages put.
    - If the source text has no commas, then where a processor stands depends only on its part of
      the program and on the number of its ticks. -/
theorem processors_do_not_interfere :
    (∀ (κ σ : Type) [ByteSink κ] [ByteSource σ] (config : MachineConfig) (source : String),
      0 < config.processors →
      ∃ start parts, assemble config source = .ok start ∧
        (Program.parse source).deal config.processors = .ok parts ∧
        ∀ (calls : Nat) (channels : Channels κ σ),
          let run := transcript step calls start channels
          let observed := transcript observedStep calls start channels
          (observed.results.map (Except.map Passage.step) = run.results ∧
            observed.state = run.state ∧ observed.channels = run.channels) ∧
          ∑ index ∈ Finset.range config.processors, (passagesOf index observed.results).length =
            run.state.ticks ∧
          ∀ index < config.processors, ∃ part p,
            parts[index]? = some part ∧ run.state.processors[index]? = some p ∧
            let mine := passagesOf index observed.results
            transcript Processor.tick mine.length (Processor.load index part config.brackets)
                ⟨ByteBuffer.empty, SliceSource.mk (mine.flatMap Passage.got)⟩ =
              ⟨List.replicate mine.length (.ok ()), p,
                ⟨ByteBuffer.mk (mine.flatMap Passage.put).toArray, SliceSource.mk []⟩⟩) ∧
    (∀ index, ∃ alone : Program → Nat → Nat × Nat × Tape × Bool,
      ∀ (κ σ : Type) [ByteSink κ] [ByteSource σ] (config : MachineConfig) (source : String),
        index < config.processors → ',' ∉ source.toList →
        ∃ start parts part, assemble config source = .ok start ∧
          (Program.parse source).deal config.processors = .ok parts ∧ parts[index]? = some part ∧
          ∀ (calls : Nat) (channels : Channels κ σ),
            let run := transcript step calls start channels
            ∃ p, run.state.processors[index]? = some p ∧
              (p.ip, p.dp, p.tape, p.isFinished) =
                alone part ((ticked run.results).count index)) := by
  constructor
  · intro κ σ _ _ config source hpos
    refine ⟨fresh config source, _, assemble_of_pos hpos source, Program.deal_of_pos hpos _, ?_⟩
    intro calls channels run observed
    have hsame := transcript_observedStep calls (fresh config source) channels
    refine ⟨hsame, sum_length_passagesOf hpos source calls channels, ?_⟩
    intro index hindex
    obtain ⟨p, hp⟩ := exists_processor_transcript hindex source calls channels
    refine ⟨_, p, Program.getElem?_parts hindex _, hp, ?_⟩
    rw [← hsame.2.1] at hp
    have hreplay := replays_transcript config source calls channels index p hp ByteBuffer.empty []
    rw [List.append_nil] at hreplay
    refine hreplay.trans ?_
    congr 2
    apply ByteBuffer.eq_of_toList_eq
    rw [ByteBuffer.toList_pushAll]
    rfl
  · intro index
    refine ⟨fun program count => (transcript Processor.tick count
      (Processor.load index program .scan)
        ⟨ByteBuffer.empty, SliceSource.mk []⟩).state.standing, ?_⟩
    intro κ σ _ _ config source hindex hcommas
    have hpos := Nat.zero_lt_of_lt hindex
    refine ⟨fresh config source, _, _, assemble_of_pos hpos source, Program.deal_of_pos hpos _,
      Program.getElem?_parts hindex _, ?_⟩
    intro calls channels run
    obtain ⟨p, hp⟩ := exists_processor_transcript hindex source calls channels
    refine ⟨p, hp, ?_⟩
    obtain ⟨hresults, hstate, -⟩ := transcript_observedStep calls (fresh config source) channels
    rw [← hstate] at hp
    have hreplay : Processor.Replays _ _ _ _ p :=
      replays_transcript config source calls channels index p hp
    have hgot := hreplay.got_eq_nil ((Program.inputless_parse hcommas).part _ _)
    rw [hgot, length_passagesOf, hresults] at hreplay
    show p.standing = Processor.standing (transcript _ _ _ _).state
    rw [← Processor.standing_transcript_load _ _ config.brackets, ← List.append_nil [], hreplay]

/-- The second processor of two gets the second byte of the input and puts it. And the second
    processor stands at the same place after two ticks in two machines that have nothing but its
    part of the program in common. -/
theorem processors_do_not_interfere_on_echo :
    (0 < 2 ∧ ∃ start, assemble { processors := 2 } ",,.." = .ok start ∧
      let observed := transcript observedStep 4 start ⟨ByteBuffer.empty, SliceSource.mk [97, 98]⟩
      let mine := passagesOf 1 observed.results
      mine = [⟨.ticked 1, [98], []⟩, ⟨.ticked 1, [], [98]⟩] ∧
      ∃ p, observed.state.processors[1]? = some p ∧
        transcript Processor.tick 2 (Processor.load 1 ⟨[.input, .output]⟩ .scan)
            ⟨ByteBuffer.empty, SliceSource.mk [98]⟩ =
          ⟨[.ok (), .ok ()], p, ⟨ByteBuffer.mk #[98], SliceSource.mk []⟩⟩) ∧
    (1 < 2 ∧ ',' ∉ "-+-+".toList ∧ 1 < 3 ∧ ',' ∉ "-+--+-".toList ∧
      ∃ two three, assemble { processors := 2 } "-+-+" = .ok two ∧
        assemble { processors := 3, halt := .allFinished, brackets := .table } "-+--+-" =
          .ok three ∧
        let channels : Channels ByteBuffer SliceSource := ⟨ByteBuffer.empty, SliceSource.mk []⟩
        ∃ p q, (transcript step 4 two channels).state.processors[1]? = some p ∧
          (transcript step 5 three channels).state.processors[1]? = some q ∧
          p.standing = q.standing) := by
  constructor
  · obtain ⟨start, parts, hstart, hdeal, hall⟩ :=
      processors_do_not_interfere.1 ByteBuffer SliceSource { processors := 2 } ",,.." (by decide)
    obtain ⟨hsame, -, heach⟩ := hall 4 ⟨ByteBuffer.empty, SliceSource.mk [97, 98]⟩
    obtain ⟨part, p, hpart, hp, hreplay⟩ := heach 1 (by decide)
    obtain ⟨-, rfl⟩ := assemble_eq_ok_iff.mp hstart
    rw [Program.deal_of_pos (by decide)] at hdeal
    cases hdeal
    cases hpart
    rw [← hsame.2.1] at hp
    exact ⟨by decide, _, hstart, rfl, p, hp, hreplay⟩
  · obtain ⟨alone, halone⟩ := processors_do_not_interfere.2 1
    obtain ⟨two, parts, part, htwo, hdeal, hpart, hrun⟩ :=
      halone ByteBuffer SliceSource { processors := 2 } "-+-+" (by decide) (by decide)
    obtain ⟨three, parts', part', hthree, hdeal', hpart', hrun'⟩ :=
      halone ByteBuffer SliceSource { processors := 3, halt := .allFinished, brackets := .table }
        "-+--+-" (by decide) (by decide)
    obtain ⟨p, hp, hstanding⟩ := hrun 4 ⟨ByteBuffer.empty, SliceSource.mk []⟩
    obtain ⟨q, hq, hstanding'⟩ := hrun' 5 ⟨ByteBuffer.empty, SliceSource.mk []⟩
    obtain ⟨-, rfl⟩ := assemble_eq_ok_iff.mp htwo
    obtain ⟨-, rfl⟩ := assemble_eq_ok_iff.mp hthree
    rw [Program.deal_of_pos (by decide)] at hdeal hdeal'
    cases hdeal
    cases hdeal'
    cases hpart
    cases hpart'
    exact ⟨by decide, by decide, by decide, by decide, _, _, htwo, hthree, p, q, hp, hq,
      hstanding.trans hstanding'.symm⟩

end Machine

end TapeRing
