import Mathlib.Data.List.Forall2
import TapeRing.Channel.Sink
import TapeRing.Channel.Source
import TapeRing.Proofs.Machine.Assembly
import TapeRing.Proofs.Machine.Redrawing
import TapeRing.Proofs.Mirror.Program
import TapeRing.Proofs.Processor.Sound

/-! # Mirrored machines

The two edges of a tape are handled differently: on the left the tape grows under the data pointer,
and on the right it grows before the data pointer moves. Seen from the other end of the tape the two
come to the same (`moveLeft_mirror`, `moveRight_mirror`). So a processor with the mirrored program
on the mirrored tape does what the original does, mirrored (`action_mirror`), and the machine of a
mirrored source text makes the same steps (`mirrored_machines_agree`). -/

namespace TapeRing

namespace Tape

/-- The tape seen from its right end. -/
def mirror (t : Tape) : Tape :=
  ⟨t.cells.reverse⟩

/-- The index of a cell, counted from the right end of the tape. -/
def opposite (t : Tape) (index : Nat) : Nat :=
  t.size - 1 - index

variable {t : Tape} {index : Nat}

@[simp] theorem size_mirror (t : Tape) : t.mirror.size = t.size :=
  List.length_reverse

theorem opposite_lt (h : index < t.size) : t.opposite index < t.size := by
  unfold opposite
  omega

theorem getElem?_mirror (h : index < t.size) :
    t.mirror.cells[t.opposite index]? = t.cells[index]? := by
  have hopposite := opposite_lt h
  simp only [size] at h hopposite
  rw [mirror, List.getElem?_reverse hopposite, opposite, size, Nat.sub_sub_self (by omega)]

theorem mirror_set (h : index < t.size) (value : Int) :
    mirror ⟨t.cells.set index value⟩ = ⟨t.mirror.cells.set (t.opposite index) value⟩ := by
  simp only [size] at h
  apply congrArg Tape.mk
  apply List.ext_getElem?
  intro k
  by_cases hk : k < t.cells.length
  · rw [List.getElem?_reverse (by simpa using hk), List.length_set, List.getElem?_set,
      List.getElem?_set, mirror, List.length_reverse, List.getElem?_reverse hk, opposite, size]
    by_cases hindex : index = t.cells.length - 1 - k
    · rw [if_pos hindex, if_pos (by omega), if_pos (by omega), if_pos (by omega)]
    · rw [if_neg hindex, if_neg (by omega)]
  · rw [List.getElem?_eq_none (by simpa using hk),
      List.getElem?_eq_none (by simpa [mirror] using hk)]

theorem read_mirror (h : index < t.size) : t.mirror.read (t.opposite index) = t.read index := by
  have hcell : t.cells[index]? = some t.cells[index] := List.getElem?_eq_getElem h
  rw [read, read, getElem?_mirror h, hcell]

theorem update_mirror (h : index < t.size) (f : Int → Int) :
    t.mirror.update f (t.opposite index) = (t.update f index).map mirror := by
  have hcell : t.cells[index]? = some t.cells[index] := List.getElem?_eq_getElem h
  rw [update, update, getElem?_mirror h, hcell]
  exact congrArg Except.ok (mirror_set h _).symm

theorem write_mirror (h : index < t.size) (value : Int) :
    t.mirror.write (t.opposite index) value = (t.write index value).map mirror := by
  have hopposite := opposite_lt h
  rw [write, write, size_mirror, if_neg (Nat.not_le.mpr h), if_neg (Nat.not_le.mpr hopposite)]
  by_cases hvalue : cellMax < value
  · rw [if_pos hvalue, if_pos hvalue]
    rfl
  · rw [if_neg hvalue, if_neg hvalue]
    exact congrArg Except.ok (mirror_set h value).symm

theorem growRight_mirror (t : Tape) : t.mirror.growRight = t.growLeft.mirror := by
  simp [growRight, growLeft, mirror]

theorem growLeft_mirror (t : Tape) : t.mirror.growLeft = t.growRight.mirror := by
  simp [growRight, growLeft, mirror]

end Tape

namespace Processor

/-- The processor with the mirrored program, on its tape seen from the right end. -/
def mirror (p : Processor) : Processor :=
  { p with program := p.program.mirror, dp := p.tape.opposite p.dp, tape := p.tape.mirror }

variable {p : Processor}

theorem isFinished_mirror (p : Processor) : p.mirror.isFinished = p.isFinished := by
  simp only [isFinished, mirror, Program.length_mirror]

theorem op?_mirror (p : Processor) : p.mirror.op? = p.op?.map Op.mirror :=
  Program.get?_mirror p.program p.ip

theorem next_mirror (p : Processor) : p.mirror.next = p.next.mirror := rfl

theorem mirror_load (id : Nat) (program : Program) (strategy : BracketStrategy) :
    (load id program strategy).mirror = load id program.mirror strategy := by
  cases strategy with
  | scan => rfl
  | table =>
    simp only [load, mirror, Program.build_mirror]
    rfl

theorem moveRight_mirror (h : p.dp < p.tape.size) : p.mirror.moveRight = p.moveLeft.mirror := by
  unfold moveRight moveLeft
  by_cases hedge : p.dp = 0
  · -- The pointer stays at the left end of a longer tape, so it is one cell further from the
    -- right.
    have hlast : p.mirror.dp + 1 = p.mirror.tape.size := by
      simp only [mirror, Tape.size_mirror, Tape.opposite]
      omega
    rw [if_pos hlast, if_pos hedge]
    simp only [mirror, Tape.growRight_mirror, Tape.opposite, Tape.size_growLeft]
    congr 1
    omega
  · have hinside : p.mirror.dp + 1 ≠ p.mirror.tape.size := by
      simp only [mirror, Tape.size_mirror, Tape.opposite]
      omega
    rw [if_neg hinside, if_neg hedge]
    simp only [mirror, Tape.opposite]
    congr 1
    omega

theorem moveLeft_mirror (h : p.dp < p.tape.size) : p.mirror.moveLeft = p.moveRight.mirror := by
  unfold moveRight moveLeft
  by_cases hedge : p.dp + 1 = p.tape.size
  · -- The pointer moves with the right end, and so it stays there.
    have hfirst : p.mirror.dp = 0 := by
      simp only [mirror, Tape.opposite]
      omega
    rw [if_pos hfirst, if_pos hedge]
    simp only [mirror, Tape.growLeft_mirror, Tape.opposite, Tape.size_growRight]
    congr 1
    omega
  · have hinside : p.mirror.dp ≠ 0 := by
      simp only [mirror, Tape.opposite]
      omega
    rw [if_neg hinside, if_neg hedge]
    rfl

theorem closing_mirror (p : Processor) : p.mirror.closing = p.closing := by
  simp only [closing, mirror, Program.closingOf?_mirror]

theorem opening_mirror (p : Processor) : p.mirror.opening = p.opening := by
  simp only [opening, mirror, Program.openingOf?_mirror]

theorem read_mirror (h : p.dp < p.tape.size) :
    p.mirror.tape.read p.mirror.dp = p.tape.read p.dp :=
  Tape.read_mirror h

theorem store_mirror (h : p.dp < p.tape.size) (byte : UInt8) :
    p.mirror.store byte = (p.store byte).map mirror := by
  have hwrite : p.mirror.tape.write p.mirror.dp (toAscii byte).toNat =
      (p.tape.write p.dp (toAscii byte).toNat).map Tape.mirror :=
    Tape.write_mirror h _
  rw [store, store, hwrite]
  cases htape : p.tape.write p.dp (toAscii byte).toNat with
  | error fault => rfl
  | ok tape =>
    have hsize := Tape.size_of_write_eq_ok htape
    simp only [Except.map, mirror, next, Tape.opposite, hsize]

/-- An update of the cell under the data pointer. -/
theorem perform_update_mirror (h : p.dp < p.tape.size) (f : Int → Int) :
    (match p.mirror.tape.update f p.mirror.dp with
      | .ok tape => Action.advance { p.mirror with tape := tape }.next
      | .error fault => .fail fault) =
    (match p.tape.update f p.dp with
      | .ok tape => Action.advance { p with tape := tape }.next
      | .error fault => .fail fault).map mirror := by
  have hupdate : p.mirror.tape.update f p.mirror.dp = (p.tape.update f p.dp).map Tape.mirror :=
    Tape.update_mirror h f
  rw [hupdate]
  cases htape : p.tape.update f p.dp with
  | error fault => rfl
  | ok tape =>
    have hsize := Tape.size_of_update_eq_ok htape
    simp only [Except.map, Action.map, mirror, next, Tape.opposite, hsize]

theorem perform_mirror (h : p.dp < p.tape.size) (op : Op) :
    p.mirror.perform op.mirror = (p.perform op).map mirror := by
  cases op with
  | increment => exact perform_update_mirror h cellUp
  | decrement => exact perform_update_mirror h cellDown
  | left =>
    show Action.advance p.mirror.moveRight.next = .advance p.moveLeft.next.mirror
    rw [moveRight_mirror h, next_mirror]
  | right =>
    show Action.advance p.mirror.moveLeft.next = .advance p.moveRight.next.mirror
    rw [moveLeft_mirror h, next_mirror]
  | loopStart =>
    simp only [Op.mirror, perform, read_mirror h, closing_mirror]
    cases p.tape.read p.dp with
    | error fault => rfl
    | ok value =>
      by_cases hzero : value = 0
      · simp only [hzero, if_true]
        cases p.closing <;> rfl
      · simp only [hzero, if_false]
        rfl
  | loopEnd =>
    simp only [Op.mirror, perform, opening_mirror]
    cases p.opening <;> rfl
  | output =>
    simp only [Op.mirror, perform, read_mirror h]
    cases p.tape.read p.dp with
    | error fault => rfl
    | ok value =>
      dsimp only
      cases byteOfCell value <;> rfl
  | input =>
    apply congrArg Action.receive
    funext byte
    exact store_mirror h byte

theorem action_mirror (h : p.dp < p.tape.size) : p.mirror.action = p.action.map mirror := by
  unfold action
  rw [op?_mirror]
  cases p.op? with
  | none => rfl
  | some op => exact perform_mirror h op

/-- No instruction can tell the mirror image of a sound processor. -/
def mirrorRedrawing : Redrawing where
  Fits := Sound
  redraw := mirror
  isFinished_redraw := isFinished_mirror
  action_redraw _ h := action_mirror h.dp_lt
  fits_successor hop h hp := hp.successor hop h

end Processor

namespace Machine

theorem machine_mirrorRedrawing_fresh (config : MachineConfig) (source : String) :
    Processor.mirrorRedrawing.machine config.brackets (fresh config source) =
      fresh config (mirrorText source) := by
  simp only [Redrawing.machine, fresh, List.map_map, Program.parse_mirrorText, Program.part_mirror]
  congr 1
  apply List.map_congr_left
  intro index _
  exact Processor.mirror_load _ _ _

theorem sound_of_mem_fresh {config : MachineConfig} {source : String} {p : Processor}
    (h : p ∈ (fresh config source).processors) : p.Sound := by
  obtain ⟨index, -, rfl⟩ := List.mem_map.mp h
  exact Processor.sound_load _ _ _

variable {κ σ : Type} [ByteSink κ] [ByteSource σ]

/-- The machines of a source text and of its mirror image make the same steps: call by call they
    give the same result and leave the same sink and source, and they have the same cursor and
    ticks. Each processor is at the same instruction, of the mirrored program. Its tape is the tape
    of the original processor, reversed, and its data pointer is as far from the right end of it as
    that of the original is from the left end. -/
theorem mirrored_machines_agree (config : MachineConfig) (hpos : 0 < config.processors)
    (source : String) :
    ∃ original mirrored : Machine,
      assemble config source = .ok original ∧ assemble config (mirrorText source) = .ok mirrored ∧
      ∀ (calls : Nat) (channels : Channels κ σ),
        let run := transcript step calls original channels
        let run' := transcript step calls mirrored channels
        run'.results = run.results ∧
        run'.channels = run.channels ∧
        run'.state.cursor = run.state.cursor ∧
        run'.state.ticks = run.state.ticks ∧
        List.Forall₂ (fun p q => q.id = p.id ∧ q.program = p.program.mirror ∧ q.ip = p.ip ∧
            q.tape.cells = p.tape.cells.reverse ∧ p.dp < p.tape.size ∧
            q.dp = p.tape.size - 1 - p.dp)
          run.state.processors run'.state.processors := by
  refine ⟨fresh config source, fresh config (mirrorText source), assemble_of_pos hpos source,
    assemble_of_pos hpos _, ?_⟩
  intro calls channels run run'
  have hsound : ∀ p ∈ (fresh config source).processors, p.Sound := fun p => sound_of_mem_fresh
  obtain ⟨hresults, hchannels, hstate⟩ :=
    Processor.mirrorRedrawing.transcript_redraw config.brackets hsound calls channels
  rw [machine_mirrorRedrawing_fresh] at hresults hchannels hstate
  have hkept : ∀ (m : Machine) (c : Channels κ σ), (∀ p ∈ m.processors, p.Sound) →
      ∀ p ∈ (m.step c).state.processors, p.Sound :=
    fun m c h => forall_processors_step (fun p c hp => hp.tick c) c h
  have hsound' : ∀ p ∈ run.state.processors, p.Sound :=
    transcript_invariant hkept calls _ channels hsound
  refine ⟨hresults.symm, hchannels.symm, ?_, ?_, ?_⟩
  · exact (congrArg Machine.cursor hstate).symm
  · exact (congrArg Machine.ticks hstate).symm
  · have hring : run'.state.processors = run.state.processors.map Processor.mirror :=
      (congrArg Machine.processors hstate).symm
    rw [hring]
    refine List.forall₂_map_right_iff.mpr (List.forall₂_same.mpr fun p hp => ?_)
    exact ⟨rfl, rfl, rfl, rfl, (hsound' p hp).dp_lt, rfl⟩

/-- Two processors that grow their tapes on different sides. -/
theorem mirrored_machines_agree_on_growth :
    0 < 2 ∧ mirrorText "<>+-<>,." = "><+-><,." ∧ ∃ original mirrored : Machine,
      assemble { processors := 2 } "<>+-<>,." = .ok original ∧
      assemble { processors := 2 } "><+-><,." = .ok mirrored ∧
      (transcript step 9 original ⟨ByteBuffer.empty, SliceSource.mk [65]⟩).state.processors.map
        (fun p => (p.dp, p.tape.cells)) = [(0, [65, 1, 0]), (2, [0, 255, 0])] ∧
      (transcript step 9 mirrored ⟨ByteBuffer.empty, SliceSource.mk [65]⟩).results =
        (transcript step 9 original ⟨ByteBuffer.empty, SliceSource.mk [65]⟩).results := by
  have htext : mirrorText "<>+-<>,." = "><+-><,." := by decide
  obtain ⟨original, mirrored, horiginal, hmirrored, hagree⟩ := @mirrored_machines_agree ByteBuffer
    SliceSource _ _ { processors := 2 } (by decide) "<>+-<>,."
  rw [htext] at hmirrored
  obtain ⟨-, rfl⟩ := assemble_eq_ok_iff.mp horiginal
  exact ⟨by decide, htext, _, mirrored, horiginal, hmirrored, by rfl, (hagree 9 _).1⟩

end Machine

end TapeRing
