import TapeRing.Channel.Sink
import TapeRing.Channel.Source
import TapeRing.Proofs.Dealing
import TapeRing.Proofs.Schedule.Rounds
import TapeRing.Snapshot

/-! # What a snapshot determines

A snapshot shows neither the cursor of a machine nor the tables of its processors. The tables are
those of the programs, which never change, and the cursor of a machine that stops on the first
finished processor follows the number of ticks; so such a machine can be restored from its snapshot
(`Reaches.ofSnapshot_snapshot`). Of every machine a snapshot shows what it was assembled from, but
for the comments in the source text (`snapshot_determines_machine`). -/

namespace TapeRing

/-! ## Source texts -/

/-- Reads texts in rounds: the first character of each, then the second of each, and so on. Texts
    that have come to their end are passed over. -/
def roundRobin (texts : List String) : String :=
  String.ofList ((List.range ((texts.map String.length).foldr max 0)).flatMap fun round =>
    texts.filterMap fun text => text.toList[round]?)

namespace Program

@[simp] theorem length_text (p : Program) : p.text.length = p.length := by
  simp [text, length, ← String.length_toList]

theorem getElem?_toList_text (p : Program) (index : Nat) :
    p.text.toList[index]? = (p.get? index).map Op.toChar := by
  rw [text, String.toList_ofList, List.getElem?_map, get?]

/-- Reading the texts of programs in rounds is reading the programs in rounds. -/
theorem roundRobin_map_text (parts : List Program) :
    roundRobin (parts.map text) = (gather parts).text := by
  have hlengths : (parts.map text).map String.length = parts.map length := by
    rw [List.map_map]
    exact List.map_congr_left fun p _ => length_text p
  have hround (round : Nat) : (parts.map text).filterMap (fun text => text.toList[round]?) =
      (parts.filterMap fun part => part.get? round).map Op.toChar := by
    rw [List.filterMap_map, List.map_filterMap]
    exact List.filterMap_congr fun p _ => getElem?_toList_text p round
  rw [roundRobin, gather, text, List.map_flatMap, hlengths]
  simp only [hround]

end Program

/-! ## Processors -/

namespace Processor

/-- The processor that a snapshot shows. -/
def ofSnapshot (strategy : BracketStrategy) (s : ProcessorSnapshot) : Processor :=
  { load s.id (Program.parse s.program) strategy with
    ip := s.instructionPointer
    dp := s.dataPointer
    tape := ⟨s.tape⟩ }

theorem strategy_load (id : Nat) (program : Program) (strategy : BracketStrategy) :
    (load id program strategy).strategy = strategy := by
  cases strategy <;> rfl

theorem Consistent.jumps_load {p : Processor} (hp : p.Consistent) :
    (load p.id p.program p.strategy).jumps = p.jumps := by
  cases hjumps : p.jumps with
  | none => simp only [load, strategy, hjumps]
  | some table => simp only [load, strategy, hjumps, hp table hjumps]

/-- Nothing but its strategy has to be known of a processor besides its snapshot. -/
theorem Consistent.ofSnapshot_snapshot {p : Processor} (hp : p.Consistent) :
    ofSnapshot p.strategy p.snapshot = p := by
  simp only [ofSnapshot, snapshot, Program.parse_text]
  rw [hp.jumps_load]
  rfl

theorem strategy_tick {κ σ : Type} [ByteSink κ] [ByteSource σ] (p : Processor)
    (channels : Channels κ σ) : (p.tick channels).state.strategy = p.strategy := by
  obtain ⟨-, -, hjumps⟩ := fixed_tick p channels
  simp only [strategy, hjumps]

end Processor

/-! ## Machines -/

namespace Machine

/-- The machine that a snapshot shows, if the machine stops on the first finished processor. -/
def ofSnapshot (s : MachineSnapshot) : Machine where
  config := s.config
  processors := s.processors.map (Processor.ofSnapshot s.config.brackets)
  cursor := s.ticks % s.config.processors
  ticks := s.ticks

variable {config : MachineConfig} {source : String} {start m : Machine}

theorem Reaches.strategy_eq (hstart : assemble config source = .ok start) (h : Reaches start m) :
    ∀ p ∈ m.processors, p.strategy = config.brackets := by
  obtain ⟨-, rfl⟩ := assemble_eq_ok_iff.mp hstart
  refine @Reaches.invariant (fun m => ∀ p ∈ m.processors, p.strategy = config.brackets) ?_ _ _ h ?_
  · intro κ σ _ _ m channels
    apply forall_processors_step
    intro p channels hp
    rw [Processor.strategy_tick, hp]
  · intro p hp
    obtain ⟨index, -, rfl⟩ := List.mem_map.mp hp
    exact Processor.strategy_load _ _ _

theorem Reaches.map_ofSnapshot (hstart : assemble config source = .ok start)
    (h : Reaches start m) :
    m.snapshot.processors.map (Processor.ofSnapshot config.brackets) = m.processors := by
  rw [snapshot, List.map_map]
  conv_rhs => rw [← List.map_id m.processors]
  apply List.map_congr_left
  intro p hp
  have hsound := (h.sound hstart).sound p hp
  rw [Function.comp_apply, ← h.strategy_eq hstart p hp]
  exact hsound.consistent.ofSnapshot_snapshot

/-- A machine that stops on the first finished processor is restored from its snapshot. -/
theorem Reaches.ofSnapshot_snapshot (hstart : assemble config source = .ok start)
    (hhalt : config.halt = .firstFinished) (h : Reaches start m) :
    ofSnapshot m.snapshot = m := by
  have hconfig := (h.sound hstart).config_eq
  have hprocessors := h.map_ofSnapshot hstart
  obtain ⟨hpos, rfl⟩ := assemble_eq_ok_iff.mp hstart
  have hcursor := h.cursor_eq hpos hhalt
  rw [← hconfig] at hprocessors hcursor
  show Machine.mk m.config (m.snapshot.processors.map (Processor.ofSnapshot m.config.brackets))
    (m.ticks % m.config.processors) m.ticks = m
  rw [hprocessors, ← hcursor]

/-- The texts in a snapshot are those of the parts of the program. -/
theorem Sound.texts_eq (h : m.Sound config source) :
    m.snapshot.processors.map ProcessorSnapshot.program =
      ((List.range config.processors).map
        ((Program.parse source).part config.processors)).map Program.text := by
  have hprograms := congrArg (List.map Prod.snd) h.dealt
  rw [List.map_map, List.map_map] at hprograms
  rw [snapshot, List.map_map]
  have hall := congrArg (List.map Program.text) hprograms
  rw [List.map_map] at hall
  exact hall

/-- Read in rounds, the texts in a snapshot are a source text of the program. -/
theorem Sound.parse_roundRobin (hpos : 0 < config.processors) (h : m.Sound config source) :
    Program.parse (roundRobin (m.snapshot.processors.map ProcessorSnapshot.program)) =
      Program.parse source := by
  rw [h.texts_eq, Program.roundRobin_map_text, Program.parse_text, Program.gather_parts hpos]

/-- What is assembled depends on the program alone. -/
theorem assemble_congr {source' : String} (h : Program.parse source' = Program.parse source)
    (config : MachineConfig) : assemble config source' = assemble config source := by
  rw [assemble, assemble, h]

/-- Of every machine that is reached from an assembled one, with whatever sinks, sources and faults
    on the way:
    - the snapshot shows the processors in the order of their numbers, each finished iff its
      instruction pointer is at the end of its program;
    - the texts of the programs, read in rounds, are a source text from which the configuration in
      the snapshot gives the machine at the start.
    If the machine stops on the first finished processor, the snapshot determines all of it, the
    cursor and the tables included: any other machine with this snapshot, reached from whatever
    source text in whatever way, is the same, so that all further steps have the same results, leave
    the same channels behind, and show the same snapshots. -/
theorem snapshot_determines_machine (hstart : assemble config source = .ok start)
    (h : Reaches start m) :
    let s := m.snapshot
    s.processors.map ProcessorSnapshot.id = List.range config.processors ∧
    (∀ p ∈ s.processors, p.finished = decide (p.instructionPointer = p.program.length)) ∧
    assemble s.config (roundRobin (s.processors.map ProcessorSnapshot.program)) = .ok start ∧
    (config.halt = .firstFinished →
      ofSnapshot s = m ∧
      ∀ (config' : MachineConfig) (source' : String) (start' m' : Machine),
        assemble config' source' = .ok start' → Reaches start' m' → m'.snapshot = s →
          m'.cursor = m.cursor ∧ m'.processors = m.processors ∧
          ∀ {κ σ : Type} [ByteSink κ] [ByteSource σ] (calls : Nat) (channels : Channels κ σ),
            let run := transcript step calls m channels
            let run' := transcript step calls m' channels
            run'.results = run.results ∧ run'.channels = run.channels ∧
              run'.state.snapshot = run.state.snapshot) := by
  intro s
  have hsound := h.sound hstart
  obtain ⟨hpos, hfresh⟩ := assemble_eq_ok_iff.mp hstart
  refine ⟨?_, ?_, ?_, ?_⟩
  · have hids := congrArg (List.map Prod.fst) hsound.dealt
    rw [List.map_map, List.map_map] at hids
    rw [show s = m.snapshot from rfl, snapshot, List.map_map]
    exact hids.trans (List.map_id _)
  · intro p hp
    obtain ⟨q, -, rfl⟩ := List.mem_map.mp hp
    show (q.ip == q.program.length) = decide (q.ip = q.program.text.length)
    rw [Program.length_text]
    rfl
  · rw [show s.config = config from hsound.config_eq,
      assemble_congr (hsound.parse_roundRobin hpos), hstart]
  · intro hhalt
    have hrestored := h.ofSnapshot_snapshot hstart hhalt
    refine ⟨hrestored, ?_⟩
    intro config' source' start' m' hstart' h' hsame
    have hconfig : config' = config := by
      rw [← (h'.sound hstart').config_eq, ← hsound.config_eq]
      exact congrArg MachineSnapshot.config hsame
    have heq : m' = m := by
      rw [← h'.ofSnapshot_snapshot hstart' (by rw [hconfig, hhalt]), hsame]
      exact hrestored
    subst heq
    exact ⟨rfl, rfl, fun calls channels => ⟨rfl, rfl, rfl⟩⟩

/-- Two machines of two texts with the same instructions. The second one has first tried to read
    from a source without bytes. -/
theorem snapshot_determines_machine_on_retry :
    let config : MachineConfig := { processors := 2, brackets := .table }
    let full : Channels ByteBuffer SliceSource := ⟨ByteBuffer.empty, ⟨[7]⟩⟩
    let exhausted : Channels ByteBuffer NullSource := ⟨ByteBuffer.empty, ⟨⟩⟩
    ∃ start m m', assemble config ",+." = .ok start ∧ Reaches start m ∧
      assemble config "read , and add + then ." = .ok start ∧ Reaches start m' ∧
      m = (start.step full).state ∧ m' = ((start.step exhausted).state.step full).state ∧
      config.halt = .firstFinished ∧ m'.snapshot = m.snapshot ∧
      roundRobin (m.snapshot.processors.map ProcessorSnapshot.program) = ",+." ∧
      m'.cursor = m.cursor := by
  intro config full exhausted
  have hstart : assemble config ",+." = .ok (fresh config ",+.") :=
    assemble_of_pos (by decide) _
  have hstart' : assemble config "read , and add + then ." = .ok (fresh config ",+.") := by
    rw [← hstart]
    exact assemble_congr (by decide) config
  have hstarted : Reaches (fresh config ",+.") (fresh config ",+.") := .start
  have hreached := hstarted.stepped full
  have hreached' := (hstarted.stepped exhausted).stepped full
  obtain ⟨-, -, -, hdetermined⟩ := snapshot_determines_machine hstart hreached
  obtain ⟨-, hsame⟩ := hdetermined rfl
  have hsnapshot : (((fresh config ",+.").step exhausted).state.step full).state.snapshot =
      ((fresh config ",+.").step full).state.snapshot := by
    rfl
  exact ⟨_, _, _, hstart, hreached, hstart', hreached', rfl, rfl, rfl, hsnapshot, by decide,
    (hsame _ _ _ _ hstart' hreached' hsnapshot).1⟩

end Machine

end TapeRing
