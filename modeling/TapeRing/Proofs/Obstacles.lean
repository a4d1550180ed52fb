import TapeRing.Channel.Sink
import TapeRing.Channel.Source
import TapeRing.Proofs.Brackets.Balance
import TapeRing.Proofs.InPlace.Processor
import TapeRing.Proofs.Processor.Sound

/-! # Ticks that fault

A tick faults for one of two reasons: the processor cannot execute its instruction (`Obstacle`), or
the channel that the instruction needs fails (`Refusal`). A processor that has been ticked from the
start of its program faults for exactly these reasons and with their faults
(`tick_faults_iff_obstacle_or_refusal`). -/

namespace TapeRing

theorem byteOfCell_toNat (byte : UInt8) : byteOfCell byte.toNat = .ok byte := by
  have hbyte : (0 : Int) ≤ byte.toNat ∧ (byte.toNat : Int) ≤ 255 :=
    ⟨Int.natCast_nonneg _, toNat_le_cellMax byte⟩
  rw [byteOfCell, if_pos hbyte, Int.toNat_natCast, UInt8.ofNat_toNat]

namespace Processor

/-- The processors that a number of ticks can lead to, each with any sink and source. -/
inductive Reaches (start : Processor) : Processor → Prop
  | start : Reaches start start
  | ticked {κ σ : Type} [ByteSink κ] [ByteSource σ] {p : Processor} (channels : Channels κ σ) :
      Reaches start p → Reaches start (p.tick channels).state

/-- Why a processor cannot execute its next instruction, whatever its channels are. -/
inductive Obstacle (p : Processor) : Fault → Prop
  /-- It is to put a cell that was incremented past the greatest byte. -/
  | overflow : p.op? = some .output → p.tape.cells[p.dp]? = some 256 →
      Obstacle p (.valueOutOfRange 256)
  /-- It is to skip a loop that no `]` closes. -/
  | unclosed : p.op? = some .loopStart → p.tape.cells[p.dp]? = some 0 →
      (∀ stop, ¬ Matched p.program.ops p.ip stop) →
      Obstacle p (.unmatchedBracket p.id p.ip .opening)
  /-- It is to go back to the start of a loop that no `[` opens. -/
  | unopened : p.op? = some .loopEnd → (∀ start, ¬ Matched p.program.ops start p.ip) →
      Obstacle p (.unmatchedBracket p.id p.ip .closing)

/-- How the channel fails that the next instruction of a processor needs. -/
inductive Refusal {κ σ : Type} [ByteSink κ] [ByteSource σ] (p : Processor)
    (channels : Channels κ σ) : Fault → Prop
  | put {byte : UInt8} {fault : Fault} : p.op? = some .output →
      p.tape.cells[p.dp]? = some (byte.toNat : Int) →
      (ByteSink.put channels.sink (toAscii byte)).1 = .error fault → Refusal p channels fault
  | get {fault : Fault} : p.op? = some .input →
      (ByteSource.get channels.source).1 = .error fault → Refusal p channels fault

variable {p : Processor} {κ σ : Type} [ByteSink κ] [ByteSource σ] {channels : Channels κ σ}
  {fault : Fault}

theorem Reaches.sound {start : Processor} (h : Reaches start p) (hstart : start.Sound) :
    p.Sound := by
  induction h with
  | start => exact hstart
  | ticked channels _ ih => exact ih.tick channels

theorem Reaches.fixed {start : Processor} (h : Reaches start p) :
    p.id = start.id ∧ p.program = start.program := by
  induction h with
  | start => exact ⟨rfl, rfl⟩
  | @ticked κ σ _ _ p channels _ ih =>
    obtain ⟨hid, hprogram, -⟩ := fixed_tick p channels
    exact ⟨hid.trans ih.1, hprogram.trans ih.2⟩

/-- An obstacle is met before anything is changed, put or got. -/
theorem Obstacle.tick_eq (h : p.Obstacle fault) (hp : p.Consistent) (channels : Channels κ σ) :
    p.tick channels = ⟨.error fault, p, channels⟩ := by
  cases h with
  | overflow hop hcell =>
    rw [tick, action_of_op? hop, perform, Tape.read_eq_ok_iff.mpr hcell]
    rfl
  | unclosed hop hcell hnone =>
    rw [tick, action_of_op? hop, perform, Tape.read_eq_ok_iff.mpr hcell,
      (closing_eq_error_iff hp hop).mpr ⟨hnone, rfl⟩]
    rfl
  | unopened hop hnone =>
    rw [tick, action_of_op? hop, perform, (opening_eq_error_iff hp hop).mpr ⟨hnone, rfl⟩]
    rfl

theorem action_of_output {value : UInt8} (hop : p.op? = some .output)
    (hcell : p.tape.cells[p.dp]? = some (value.toNat : Int)) :
    p.action = .emit (toAscii value) p.next := by
  simp only [action_of_op? hop, perform, Tape.read_eq_ok_iff.mpr hcell, byteOfCell_toNat]

theorem action_of_input (hop : p.op? = some .input) : p.action = .receive p.store :=
  action_of_op? hop

/-- The channel that refuses is left as it is after the call, and nothing else is changed. -/
theorem Refusal.tick_eq (h : p.Refusal channels fault) :
    (∃ (value : UInt8) (sink : κ), p.op? = some .output ∧
        p.tape.cells[p.dp]? = some (value.toNat : Int) ∧
        ByteSink.put channels.sink (toAscii value) = (.error fault, sink) ∧
        p.tick channels = ⟨.error fault, p, { channels with sink := sink }⟩) ∨
      ∃ source : σ, p.op? = some .input ∧ ByteSource.get channels.source = (.error fault, source) ∧
        p.tick channels = ⟨.error fault, p, { channels with source := source }⟩ := by
  cases h with
  | @put value _ hop hcell hput =>
    have hanswer : ByteSink.put channels.sink (toAscii value) = (.error fault, _) :=
      Prod.ext hput rfl
    exact Or.inl ⟨value, _, hop, hcell, hanswer,
      tick_emit_error (action_of_output hop hcell) hanswer⟩
  | get hop hget =>
    have hanswer : ByteSource.get channels.source = (.error fault, _) := Prod.ext hget rfl
    exact Or.inr ⟨_, hop, hanswer, tick_receive_error (action_of_input hop) hanswer⟩

theorem Refusal.result_tick (h : p.Refusal channels fault) :
    (p.tick channels).result = .error fault := by
  rcases h.tick_eq with ⟨value, sink, -, -, -, heq⟩ | ⟨source, -, -, heq⟩ <;> rw [heq]

/-- Once a byte has been got it is stored. -/
theorem Sound.store (hp : p.Sound) (byte : UInt8) : ∃ q, p.store byte = .ok q := by
  have hwrite : p.tape.write p.dp (toAscii byte).toNat = .ok _ :=
    Tape.write_eq_ok_iff.mpr ⟨hp.dp_lt, toNat_le_cellMax _, rfl⟩
  exact ⟨_, by rw [Processor.store, hwrite]⟩

/-- What passes through the channels in a tick that succeeds, by its instruction. -/
theorem Sound.tick_ok_cases (hp : p.Sound) (hok : (p.tick channels).result = .ok ()) :
    p.op? ≠ some .output ∧ p.op? ≠ some .input ∧ (p.tick channels).channels = channels ∨
      (∃ (value : UInt8) (sink : κ), p.op? = some .output ∧
        p.tape.cells[p.dp]? = some (value.toNat : Int) ∧
        ByteSink.put channels.sink (toAscii value) = (.ok (), sink) ∧
        p.tick channels = ⟨.ok (), p.next, { channels with sink := sink }⟩) ∨
      ∃ (byte : UInt8) (source : σ) (q : Processor), p.op? = some .input ∧
        ByteSource.get channels.source = (.ok byte, source) ∧ p.store byte = .ok q ∧
        p.tick channels = ⟨.ok (), q, { channels with source := source }⟩ := by
  by_cases hput : p.op? = some .output
  · right
    left
    obtain ⟨value, hcell, hvalue⟩ := hp.cell
    rcases hvalue.eq_or_byte with rfl | ⟨byte, rfl⟩
    · rw [(Obstacle.overflow hput hcell).tick_eq hp.consistent] at hok
      cases hok
    · have haction := action_of_output hput hcell
      rcases hanswer : ByteSink.put channels.sink (toAscii byte) with ⟨fault | done, sink⟩
      · rw [tick_emit_error haction hanswer] at hok
        cases hok
      · exact ⟨byte, sink, hput, hcell, hanswer, tick_emit_ok haction hanswer⟩
  · by_cases hget : p.op? = some .input
    · right
      right
      have haction := action_of_input hget
      rcases hanswer : ByteSource.get channels.source with ⟨fault | byte, source⟩
      · rw [tick_receive_error haction hanswer] at hok
        cases hok
      · obtain ⟨q, hstore⟩ := hp.store byte
        exact ⟨byte, source, q, hget, rfl, hstore, tick_receive_ok haction hanswer hstore⟩
    · exact Or.inl ⟨hput, hget, channels_tick hput hget channels⟩

theorem Sound.obstacle_or_refusal (hp : p.Sound) (h : (p.tick channels).result = .error fault) :
    p.Obstacle fault ∨ p.Refusal channels fault := by
  cases hop : p.op? with
  | none =>
    rw [Processor.tick, action, hop] at h
    cases h
  | some op =>
    rw [Processor.tick, action_of_op? hop] at h
    obtain ⟨value, hcell, hvalue⟩ := hp.cell
    have hread := Tape.read_eq_ok_iff.mpr hcell
    cases op with
    | increment =>
      obtain ⟨tape, htape⟩ := Tape.exists_update hp.dp_lt cellUp
      rw [perform, Tape.increment, htape] at h
      cases h
    | decrement =>
      obtain ⟨tape, htape⟩ := Tape.exists_update hp.dp_lt cellDown
      rw [perform, Tape.decrement, htape] at h
      cases h
    | left => cases h
    | right => cases h
    | loopStart =>
      left
      rw [perform, hread] at h
      by_cases hzero : value = 0
      · subst hzero
        cases hclosing : p.closing with
        | ok stop =>
          rw [hclosing] at h
          cases h
        | error other =>
          rw [hclosing] at h
          cases h
          obtain ⟨hnone, rfl⟩ := (closing_eq_error_iff hp.consistent hop).mp hclosing
          exact .unclosed hop hcell hnone
      · simp only [hzero, if_false] at h
        cases h
    | loopEnd =>
      left
      rw [perform] at h
      cases hopening : p.opening with
      | ok start =>
        rw [hopening] at h
        cases h
      | error other =>
        rw [hopening] at h
        cases h
        obtain ⟨hnone, rfl⟩ := (opening_eq_error_iff hp.consistent hop).mp hopening
        exact .unopened hop hnone
    | output =>
      rcases hvalue.eq_or_byte with rfl | ⟨byte, rfl⟩
      · rw [perform, hread] at h
        cases h
        exact Or.inl (.overflow hop hcell)
      · right
        rw [← action_of_op? hop, ← Processor.tick] at h
        have haction := action_of_output hop hcell
        rcases hput : ByteSink.put channels.sink (toAscii byte) with ⟨other | done, sink⟩
        · rw [tick_emit_error haction hput] at h
          cases h
          exact .put hop hcell (by rw [hput])
        · rw [tick_emit_ok haction hput] at h
          cases h
    | input =>
      right
      rw [← action_of_op? hop, ← Processor.tick] at h
      have haction := action_of_input hop
      rcases hget : ByteSource.get channels.source with ⟨other | byte, source⟩
      · rw [tick_receive_error haction hget] at h
        cases h
        exact .get hop (by rw [hget])
      · obtain ⟨q, hstore⟩ := hp.store byte
        rw [tick_receive_ok haction hget hstore] at h
        cases h

/-- Let a processor be reached by ticks from the start of its program, with any sinks and sources,
    and let it be ticked once more.
    - The tick faults exactly if there is an obstacle, or the channel refuses that the instruction
      needs, and with that fault. An obstacle is met before any channel is used.
    - If the tick faults, the processor is as before, also if the tick is made in place and nothing
      is taken back.
    - No cell beyond the tape is addressed, a `,` that has got its byte does not fault, and if the
      brackets of the program are balanced none of them is unmatched. A fault of this kind is always
      one of a channel. -/
theorem tick_faults_iff_obstacle_or_refusal {id : Nat} {program : Program}
    {strategy : BracketStrategy} (h : Reaches (load id program strategy) p)
    (channels : Channels κ σ) :
    (p.id = id ∧ p.program = program) ∧
    (∀ fault, (p.tick channels).result = .error fault ↔
      p.Obstacle fault ∨ p.Refusal channels fault) ∧
    (∀ fault, p.Obstacle fault → p.tick channels = ⟨.error fault, p, channels⟩) ∧
    (∀ fault, (p.tick channels).result = .error fault →
      (p.tick channels).state = p ∧
        tickInPlace.on (p, channels) = (.error fault, p, (p.tick channels).channels)) ∧
    (∀ index size, (p.tick channels).result = .error (.outOfBounds index size) →
      p.Refusal channels (.outOfBounds index size)) ∧
    (∀ byte, p.op? = some .input → (ByteSource.get channels.source).1 = .ok byte →
      (p.tick channels).result = .ok ()) ∧
    (program.Balanced → ∀ processor position bracket,
      (p.tick channels).result = .error (.unmatchedBracket processor position bracket) →
        p.Refusal channels (.unmatchedBracket processor position bracket)) := by
  have hp := h.sound (sound_load id program strategy)
  have hfixed : p.id = id ∧ p.program = program := h.fixed
  have hiff : ∀ fault, (p.tick channels).result = .error fault ↔
      p.Obstacle fault ∨ p.Refusal channels fault := by
    intro fault
    constructor
    · exact hp.obstacle_or_refusal
    · rintro (hobstacle | hrefusal)
      · rw [hobstacle.tick_eq hp.consistent]
      · exact hrefusal.result_tick
  refine ⟨hfixed, hiff, fun fault hobstacle => hobstacle.tick_eq hp.consistent channels,
    ?_, ?_, ?_, ?_⟩
  · intro fault hfault
    have hstate := state_of_tick_error hfault
    refine ⟨hstate, ?_⟩
    rw [on_tickInPlace, hfault, hstate]
  · intro index size hfault
    exact ((hiff _).mp hfault).resolve_left nofun
  · intro byte hop hget
    cases hresult : (p.tick channels).result with
    | ok done => rfl
    | error fault =>
      rcases (hiff fault).mp hresult with hobstacle | hrefusal
      · cases hobstacle <;> simp_all
      · cases hrefusal <;> simp_all
  · intro hbalanced processor position bracket hfault
    refine ((hiff _).mp hfault).resolve_left fun hobstacle => ?_
    rw [← hfixed.2] at hbalanced
    cases hobstacle with
    | unclosed hop _ hnone =>
      obtain ⟨stop, hmatched⟩ := hbalanced.closes hop
      exact hnone stop hmatched
    | unopened hop hnone =>
      obtain ⟨start, hmatched⟩ := hbalanced.opens hop
      exact hnone start hmatched

/-- A cell that was decremented and then incremented holds 256, which cannot be put. -/
theorem tick_faults_iff_obstacle_or_refusal_on_overflow :
    ∃ p, Reaches (load 3 (Program.parse "-+.") .table) p ∧ p.ip = 2 ∧
      p.tick (Channels.mk ByteBuffer.empty NullSource.mk) =
        ⟨.error (.valueOutOfRange 256), p, ⟨ByteBuffer.empty, NullSource.mk⟩⟩ := by
  let channels : Channels ByteBuffer NullSource := ⟨ByteBuffer.empty, NullSource.mk⟩
  have hreaches : Reaches (load 3 (Program.parse "-+.") .table) _ :=
    .ticked channels (.ticked channels .start)
  obtain ⟨-, -, hobstacle, -⟩ := tick_faults_iff_obstacle_or_refusal hreaches channels
  exact ⟨_, hreaches, by rfl, hobstacle _ (.overflow (by rfl) (by rfl))⟩

end Processor

end TapeRing
