import TapeRing.Proofs.Brackets.Balance
import TapeRing.Proofs.Loops.Block
import TapeRing.Proofs.Processor.Drive
import TapeRing.Proofs.Processor.Partners

/-! # Loops by jumps

A processor that stands at the beginning of a block anywhere in its program does what `exec` says
of the block (`follows_exec`): it comes out behind the block after as many ticks as the tally says,
or it faults in the same way, or it goes on for at least as many ticks as there is fuel. As both
sides are deterministic, a run of a block's program ends iff its execution does, and they end in
the same way (`drive_flatten_iff_exec`). -/

namespace TapeRing

/-! ## The brackets of a block -/

theorem rise_toOp (op : Basic) : op.toOp.rise = 0 := by
  cases op <;> rfl

theorem balanced_flatten (b : Block) : Program.Balanced ⟨b.flatten⟩ := by
  induction b with
  | done => exact .nil
  | basic op rest ih => exact .append (.single (rise_toOp op)) ih
  | loop body rest ihbody ihrest =>
    have hloop := ihbody.loop.append ihrest
    rwa [List.cons_append, List.append_assoc] at hloop

/-! ## Single ticks -/

namespace Processor

/-- A processor moved to a place in its program, with other memory. -/
def place (p : Processor) (ip : Nat) (m : Memory) : Processor :=
  { p with ip := ip, dp := m.dp, tape := m.tape }

/-- The tape of a processor and its place on it. -/
def memory (p : Processor) : Memory := ⟨p.dp, p.tape⟩

variable {κ σ : Type} [ByteSink κ] [ByteSource σ]
variable {p : Processor} {ip : Nat} {m : Memory} (channels : Channels κ σ)

/-- A basic instruction does to the memory what `exec` says, and the processor moves on unless it
    faults. -/
theorem tick_place_basic {op : Basic} (hop : (p.place ip m).op? = some op.toOp) :
    (p.place ip m).tick channels =
      match op.exec m channels with
      | ⟨.ok (), m', channels'⟩ => ⟨.ok (), p.place (ip + 1) m', channels'⟩
      | ⟨.error fault, _, channels'⟩ => ⟨.error fault, p.place ip m, channels'⟩ := by
  rw [tick, action_of_op? hop]
  cases op with
  | increment =>
    simp only [Basic.toOp, perform, Basic.exec, Memory.changed, place]
    cases m.tape.increment m.dp <;> rfl
  | decrement =>
    simp only [Basic.toOp, perform, Basic.exec, Memory.changed, place]
    cases m.tape.decrement m.dp <;> rfl
  | left =>
    by_cases h : m.dp = 0 <;>
      simp only [Basic.toOp, perform, Basic.exec, moveLeft, place, carryOut, next, h, if_true,
        if_false]
  | right =>
    by_cases h : m.dp + 1 = m.tape.size <;>
      simp only [Basic.toOp, perform, Basic.exec, moveRight, place, carryOut, next, h, if_true,
        if_false]
  | output =>
    simp only [Basic.toOp, perform, Basic.exec, place]
    cases m.tape.read m.dp with
    | error fault => rfl
    | ok value =>
      simp only
      cases byteOfCell value with
      | error fault => rfl
      | ok byte =>
        simp only [carryOut]
        obtain ⟨result, sink⟩ := ByteSink.put channels.sink (toAscii byte)
        cases result <;> rfl
  | input =>
    simp only [Basic.toOp, perform, Basic.exec, carryOut, store, Memory.changed, place]
    obtain ⟨result, source⟩ := ByteSource.get channels.source
    cases result with
    | error fault => rfl
    | ok byte =>
      simp only
      cases m.tape.write m.dp (toAscii byte).toNat <;> rfl

theorem tick_place_loopStart_zero {stop : Nat} (hp : p.Consistent)
    (hop : (p.place ip m).op? = some .loopStart) (hmatched : Matched p.program.ops ip stop)
    (hread : m.tape.read m.dp = .ok 0) :
    (p.place ip m).tick channels = ⟨.ok (), p.place (stop + 1) m, channels⟩ := by
  have hclosing : (p.place ip m).closing = .ok stop :=
    (closing_eq_ok_iff (p := p.place ip m) hp hop).mpr hmatched
  have hread' : (p.place ip m).tape.read (p.place ip m).dp = .ok 0 := hread
  rw [tick, action_of_op? hop]
  simp only [perform, hread', hclosing, if_true, carryOut]
  rfl

theorem tick_place_loopStart_nonzero {value : Int} (hop : (p.place ip m).op? = some .loopStart)
    (hread : m.tape.read m.dp = .ok value) (hvalue : value ≠ 0) :
    (p.place ip m).tick channels = ⟨.ok (), p.place (ip + 1) m, channels⟩ := by
  have hread' : (p.place ip m).tape.read (p.place ip m).dp = .ok value := hread
  rw [tick, action_of_op? hop]
  simp only [perform, hread', hvalue, if_false, carryOut]
  rfl

theorem tick_place_loopStart_error {fault : Fault} (hop : (p.place ip m).op? = some .loopStart)
    (hread : m.tape.read m.dp = .error fault) :
    (p.place ip m).tick channels = ⟨.error fault, p.place ip m, channels⟩ := by
  have hread' : (p.place ip m).tape.read (p.place ip m).dp = .error fault := hread
  rw [tick, action_of_op? hop]
  simp only [perform, hread', carryOut]

theorem tick_place_loopEnd {start : Nat} (hp : p.Consistent)
    (hop : (p.place ip m).op? = some .loopEnd) (hmatched : Matched p.program.ops start ip) :
    (p.place ip m).tick channels = ⟨.ok (), p.place start m, channels⟩ := by
  have hopening : (p.place ip m).opening = .ok start :=
    (opening_eq_ok_iff (p := p.place ip m) hp hop).mpr hmatched
  rw [tick, action_of_op? hop]
  simp only [perform, hopening, carryOut]
  rfl

end Processor

/-! ## Simulation of blocks -/

open Processor

variable {κ σ : Type} [ByteSink κ] [ByteSource σ]

/-- A run of a processor from one place to another follows an outcome. Of the ticks in the tally
    `paid` have been made before; a run follows an outcome without fuel if it goes on for at least
    `fuel` ticks. -/
inductive Follows (p : Processor) (start stop : Nat) (m : Memory) (channels : Channels κ σ)
    (fuel paid : Nat) : Outcome (Option Tally) Memory κ σ → Prop
  | finished {count : Nat} {tally : Tally} {m' : Memory} {channels' : Channels κ σ} :
      tally.ticks = count + paid →
      Strides count (p.place start m) channels (p.place stop m') channels' →
      Follows p start stop m channels fuel paid ⟨.ok (some tally), m', channels'⟩
  | faulted {count ip : Nat} {fault : Fault} {m' : Memory} {channels' channels'' : Channels κ σ} :
      Strides count (p.place start m) channels (p.place ip m') channels' →
      (p.place ip m').isFinished = false →
      (p.place ip m').tick channels' = ⟨.error fault, p.place ip m', channels''⟩ →
      Follows p start stop m channels fuel paid ⟨.error fault, m', channels''⟩
  | exhausted {count : Nat} {q : Processor} {m' : Memory} {channels' channels'' : Channels κ σ} :
      fuel ≤ count → Strides count (p.place start m) channels q channels' →
      Follows p start stop m channels fuel paid ⟨.ok none, m', channels''⟩

namespace Follows

variable {p : Processor} {start middle stop fuel paid : Nat} {m m' : Memory}
  {channels channels' : Channels κ σ} {o : Outcome (Option Tally) Memory κ σ}

theorem mono {less : Nat} (hless : less ≤ fuel) (h : Follows p start stop m channels fuel paid o) :
    Follows p start stop m channels less paid o := by
  cases h with
  | finished hticks hstrides => exact .finished hticks hstrides
  | faulted hstrides hfinished htick => exact .faulted hstrides hfinished htick
  | exhausted hfuel hstrides => exact .exhausted (Nat.le_trans hless hfuel) hstrides

/-- A tick before a run pays for itself. -/
theorem of_tick (hfinished : (p.place start m).isFinished = false)
    (htick : (p.place start m).tick channels = ⟨.ok (), p.place middle m', channels'⟩)
    (h : Follows p middle stop m' channels' fuel (paid + 1) o) :
    Follows p start stop m channels (fuel + 1) paid o := by
  cases h with
  | finished hticks hstrides =>
    exact .finished (by omega) (.stride hfinished htick hstrides)
  | faulted hstrides hfinished' htick' =>
    exact .faulted (.stride hfinished htick hstrides) hfinished' htick'
  | exhausted hfuel hstrides =>
    exact .exhausted (Nat.succ_le_succ hfuel) (.stride hfinished htick hstrides)

/-- One run after another follows one outcome after another. -/
theorem andThen {paid' : Nat}
    {second : Memory → Channels κ σ → Outcome (Option Tally) Memory κ σ}
    (h : Follows p start middle m channels fuel paid o)
    (h' : ∀ m' channels', Follows p middle stop m' channels' fuel paid' (second m' channels')) :
    Follows p start stop m channels fuel (paid + paid') (o.andThen second) := by
  cases h with
  | faulted hstrides hfinished htick => exact .faulted hstrides hfinished htick
  | exhausted hfuel hstrides => exact .exhausted hfuel hstrides
  | @finished count tally m' channels' hticks hstrides =>
    have hsecond := h' m' channels'
    simp only [Outcome.andThen]
    cases hlater : second m' channels' with
    | mk result m'' channels'' =>
      rw [hlater] at hsecond
      cases hsecond with
      | finished hticks' hstrides' =>
        refine .finished ?_ (hstrides.trans hstrides')
        rw [Tally.ticks_add]
        omega
      | faulted hstrides' hfinished htick =>
        exact .faulted (hstrides.trans hstrides') hfinished htick
      | exhausted hfuel hstrides' =>
        exact .exhausted (by omega) (hstrides.trans hstrides')

end Follows

section Simulation

variable {p : Processor} {m : Memory} {channels : Channels κ σ}

theorem follows_counted {op : Basic} {start fuel : Nat}
    (hop : p.program.get? start = some op.toOp) :
    Follows p start (start + 1) m channels fuel 0 (op.counted m channels) := by
  have hop' : (p.place start m).op? = some op.toOp := hop
  have htick := tick_place_basic channels hop'
  have hunchanged := op.memory_of_exec_error m channels
  unfold Basic.counted
  cases hexec : op.exec m channels with
  | mk result m' channels' =>
    rw [hexec] at htick hunchanged
    cases result with
    | ok done => exact .finished rfl (.one (isFinished_of_op? hop') htick)
    | error fault =>
      obtain rfl := hunchanged fault rfl
      exact .faulted .rest (isFinished_of_op? hop') htick

/-- A loop that cannot read its cell faults on `[`. -/
theorem follows_of_read_error {start stop fuel paid : Nat} {fault : Fault}
    (hopen : (p.place start m).op? = some .loopStart) (hread : m.tape.read m.dp = .error fault) :
    Follows p start stop m channels fuel paid ⟨.error fault, m, channels⟩ :=
  .faulted .rest (isFinished_of_op? hopen) (tick_place_loopStart_error channels hopen hread)

/-- A loop on a zero cell is left with one tick. -/
theorem follows_of_read_zero (hp : p.Consistent) {start stop : Nat}
    (hmatched : Matched p.program.ops start stop) (hread : m.tape.read m.dp = .ok 0)
    (fuel rounds : Nat) :
    Follows p start (stop + 1) m channels fuel (2 * rounds)
      ⟨.ok (some ⟨0, [rounds]⟩), m, channels⟩ := by
  have hopen : (p.place start m).op? = some .loopStart := hmatched.opens
  have htick := tick_place_loopStart_zero channels hp hopen hmatched hread
  have hticks : (⟨0, [rounds]⟩ : Tally).ticks = 1 + 2 * rounds := by
    simp [Tally.ticks]
    omega
  exact .finished hticks (.one (isFinished_of_op? hopen) htick)

/-- A loop whose body is followed from any memory is followed itself. Of its ticks those of the
    `rounds` already made are paid. -/
theorem follows_whileNonzero (hp : p.Consistent) {start length fuel : Nat}
    {body : Memory → Channels κ σ → Outcome (Option Tally) Memory κ σ}
    (hmatched : Matched p.program.ops start (start + 1 + length))
    (hbody : ∀ m channels,
      Follows p (start + 1) (start + 1 + length) m channels fuel 0 (body m channels)) :
    ∀ (left rounds : Nat) (m : Memory) (channels : Channels κ σ), left ≤ fuel →
      Follows p start (start + 1 + length + 1) m channels left (2 * rounds)
        (whileNonzero body left rounds m channels) := by
  have hopen : ∀ m, (p.place start m).op? = some .loopStart := fun _ => hmatched.opens
  have hclose : ∀ m, (p.place (start + 1 + length) m).op? = some .loopEnd :=
    fun _ => hmatched.closes
  intro left
  induction left with
  | zero =>
    intro rounds m channels _
    cases hread : m.tape.read m.dp with
    | error fault =>
      rw [whileNonzero_of_read_error hread]
      exact follows_of_read_error (hopen m) hread
    | ok value =>
      by_cases hvalue : value = 0
      · subst hvalue
        rw [whileNonzero_of_read_zero hread]
        exact follows_of_read_zero hp hmatched hread 0 rounds
      · simp only [whileNonzero, hread, hvalue, if_false]
        exact .exhausted (Nat.le_refl 0) .rest
  | succ left ih =>
    intro rounds m channels hleft
    cases hread : m.tape.read m.dp with
    | error fault =>
      rw [whileNonzero_of_read_error hread]
      exact follows_of_read_error (hopen m) hread
    | ok value =>
      by_cases hvalue : value = 0
      · subst hvalue
        rw [whileNonzero_of_read_zero hread]
        exact follows_of_read_zero hp hmatched hread (left + 1) rounds
      · simp only [whileNonzero, hread, hvalue, if_false]
        -- The tick on `[`, the body, the tick on `]`, and the rest of the loop.
        have hagain : ∀ m' channels', Follows p (start + 1 + length) (start + 1 + length + 1) m'
            channels' (left + 1) (2 * rounds + 1)
            (whileNonzero body left (rounds + 1) m' channels') := by
          intro m' channels'
          have htick := tick_place_loopEnd channels' hp (hclose m') hmatched
          refine .of_tick (isFinished_of_op? (hclose m')) htick ?_
          exact ih (rounds + 1) m' channels' (by omega)
        have hround := ((hbody m channels).mono hleft).andThen hagain
        rw [Nat.zero_add] at hround
        have htick := tick_place_loopStart_nonzero channels (hopen m) hread hvalue
        have hloop := Follows.of_tick (isFinished_of_op? (hopen m)) htick hround
        exact hloop.mono (Nat.le_succ _)

/-- A run from the beginning of a block follows the execution of the block, whatever stands around
    it. -/
theorem follows_exec (hp : p.Consistent) (fuel : Nat) :
    ∀ (b : Block) (start : Nat) (after : List Op) (m : Memory) (channels : Channels κ σ),
      p.program.ops.drop start = b.flatten ++ after →
      Follows p start (start + b.flatten.length) m channels fuel 0 (b.exec fuel m channels) := by
  intro b
  induction b with
  | done =>
    intro start after m channels _
    exact .finished rfl .rest
  | basic op rest ih =>
    intro start after m channels hdrop
    have hop : p.program.get? start = some op.toOp := getElem?_of_drop hdrop
    have hrest : p.program.ops.drop (start + 1) = rest.flatten ++ after := drop_succ_of_drop hdrop
    have hlater := fun m' channels' => ih (start + 1) after m' channels' hrest
    have hlength : start + (Block.basic op rest).flatten.length =
        start + 1 + rest.flatten.length := by
      simp only [Block.flatten, List.length_cons]
      omega
    rw [hlength]
    exact (follows_counted hop).andThen hlater
  | loop body rest ihbody ihrest =>
    intro start after m channels hdrop
    rw [Block.flatten, List.cons_append, List.append_assoc, List.cons_append] at hdrop
    have hmatched := matched_of_drop (balanced_flatten body) hdrop
    have hinside : p.program.ops.drop (start + 1) =
        body.flatten ++ .loopEnd :: (rest.flatten ++ after) := drop_succ_of_drop hdrop
    have hrest : p.program.ops.drop (start + 1 + body.flatten.length + 1) =
        rest.flatten ++ after := by
      rw [← List.drop_drop, ← List.drop_drop, hinside, List.drop_left]
      rfl
    have hbody := fun m' channels' => ihbody (start + 1) _ m' channels' hinside
    have hlater := fun m' channels' => ihrest _ after m' channels' hrest
    have hlength : start + (Block.loop body rest).flatten.length =
        start + 1 + body.flatten.length + 1 + rest.flatten.length := by
      simp only [Block.flatten, List.length_cons, List.length_append]
      omega
    rw [hlength]
    have hloop := follows_whileNonzero hp hmatched hbody fuel 0 m channels (Nat.le_refl fuel)
    exact hloop.andThen hlater

/-- An execution that finishes is a run from the beginning of the block to behind it, with as many
    ticks as its tally says. -/
theorem strides_of_exec (hp : p.Consistent) {b : Block} {start fuel : Nat} {after : List Op}
    {tally : Tally} {m' : Memory} {channels' : Channels κ σ}
    (hdrop : p.program.ops.drop start = b.flatten ++ after)
    (hexec : b.exec fuel m channels = ⟨.ok (some tally), m', channels'⟩) :
    Strides tally.ticks (p.place start m) channels (p.place (start + b.flatten.length) m')
      channels' := by
  have hfollows := follows_exec hp fuel b start after m channels hdrop
  rw [hexec] at hfollows
  cases hfollows with
  | finished hticks hstrides => rwa [hticks]

end Simulation

end TapeRing
