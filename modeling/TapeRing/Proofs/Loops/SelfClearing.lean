import TapeRing.Proofs.Loops.Counted
import TapeRing.Proofs.Machine.Single
import TapeRing.Proofs.Processor.Arrival
import TapeRing.Proofs.Processor.Trajectory

/-! # Self-clearing loops

Where every loop ends by clearing a cell with `[-]`, no body is run twice in a row, because a `]` is
only come to over a zero cell. So such a program ends, or it faults on the way
(`self_clearing_programs_end`). -/

namespace TapeRing

/-- The programs without `,` of which every loop ends by clearing a cell with `[-]`. -/
inductive SelfClearing : List Op → Prop
  | increment : SelfClearing [.increment]
  | decrement : SelfClearing [.decrement]
  | right : SelfClearing [.right]
  | left : SelfClearing [.left]
  | output : SelfClearing [.output]
  | append {ops more : List Op} : SelfClearing ops → SelfClearing more →
      SelfClearing (ops ++ more)
  | loop {body : List Op} : SelfClearing body →
      SelfClearing (.loopStart :: (body ++ [.loopStart, .decrement, .loopEnd, .loopEnd]))

theorem SelfClearing.balanced {ops : List Op} (h : SelfClearing ops) : Program.Balanced ⟨ops⟩ := by
  induction h with
  | append _ _ ih ih' => exact ih.append ih'
  | @loop body _ ih =>
    have hloop := (ih.append (balanced_flatten clearLoop)).loop
    rwa [List.append_assoc] at hloop
  | _ => exact .single rfl

/-- A loop that ends by clearing a cell, as a loop on what stands between its brackets. -/
theorem loop_append (body after : List Op) :
    .loopStart :: (body ++ [.loopStart, .decrement, .loopEnd, .loopEnd]) ++ after =
      .loopStart :: ((body ++ clearLoop.flatten) ++ .loopEnd :: after) := by
  rw [List.cons_append, List.append_assoc, List.append_assoc]
  rfl

theorem SelfClearing.matched {ops body after : List Op} {start : Nat} (hbody : SelfClearing body)
    (hdrop : ops.drop start =
      .loopStart :: (body ++ [.loopStart, .decrement, .loopEnd, .loopEnd]) ++ after) :
    Matched ops start (start + body.length + 4) := by
  rw [loop_append] at hdrop
  have hmatched := matched_of_drop (hbody.balanced.append (balanced_flatten clearLoop)) hdrop
  have hlength : start + 1 + (body ++ clearLoop.flatten).length = start + body.length + 4 := by
    rw [List.length_append, show clearLoop.flatten.length = 3 from rfl]
    omega
  rwa [hlength] at hmatched

namespace Processor

variable {κ σ : Type} [ByteSink κ] [ByteSource σ] {p q : Processor} {channels : Channels κ σ}

/-! ## Programs -/

/-- The loop `[-]` leaves a zero cell behind. -/
theorem Steady.arrives_clear (h : Steady p channels) {after : List Op}
    (hdrop : p.program.ops.drop p.ip = clearLoop.flatten ++ after) :
    Arrives (fun q => q.ip = p.ip + 3 ∧ q.tape.cells[q.dp]? = some 0) 769 p channels := by
  have hdp := h.sound.dp_lt
  obtain ⟨hnonneg, hle⟩ := h.sound.bounded.spread p.dp
  obtain ⟨k, hk⟩ := Int.eq_ofNat_of_zero_le hnonneg
  obtain ⟨t, hexec, hsize, hzero⟩ := exec_clearLoop hdp hk channels
  have hstrides := strides_of_exec h.sound.consistent hdrop hexec
  have hticks : (⟨k, [k]⟩ : Tally).ticks ≤ 769 := by
    unfold cellMax at hle
    simp only [Tally.ticks, List.map_cons, List.map_nil, List.sum_cons, List.sum_nil]
    omega
  have hcell := Tape.spread_of_lt (hsize ▸ hdp)
  rw [hzero] at hcell
  exact .goal hticks hstrides ⟨rfl, hcell⟩

/-- Once `[-]` has come at the end of its body, a loop is left. -/
theorem Steady.arrives_end (h : Steady p channels) {start : Nat} {after : List Op}
    (hmatched : Matched p.program.ops start (p.ip + 3))
    (hdrop : p.program.ops.drop p.ip = clearLoop.flatten ++ after) :
    Arrives (fun q => q.ip = p.ip + 4) 771 p channels := by
  show Arrives _ (769 + 2) p channels
  refine (h.arrives_clear hdrop).andThen h ?_
  rintro q c hq hprogram ⟨hip, hzero⟩
  rw [← hprogram, ← hip] at hmatched
  show Arrives _ (1 + 1) q c
  refine (hq.arrives_loopEnd hmatched).andThen hq ?_
  rintro _ c hagain - rfl
  -- Back at the `[` the cell is still zero.
  show Arrives _ (1 + 0) _ c
  refine (hagain.arrives_loopStart hmatched).andThen hagain ?_
  rintro r c - - (⟨-, hnonzero⟩ | hout)
  · exact absurd hzero hnonzero
  · exact .goal (Nat.le_refl 0) .rest (by omega)

/-- A loop that ends by clearing a cell is left within 772 ticks more than its body may take. -/
theorem Steady.arrives_loop (h : Steady p channels) {body after : List Op}
    (hbody : SelfClearing body)
    (hdrop : p.program.ops.drop p.ip =
      .loopStart :: (body ++ [.loopStart, .decrement, .loopEnd, .loopEnd]) ++ after)
    {bound : Nat}
    (harrives : ∀ {q : Processor} {c : Channels κ σ}, Steady q c →
      q.program.ops.drop q.ip = body ++ (clearLoop.flatten ++ .loopEnd :: after) →
      Arrives (fun r => r.ip = q.ip + body.length) bound q c) :
    Arrives (fun q => q.ip = p.ip + body.length + 5) (bound + 772) p channels := by
  have hmatched := hbody.matched hdrop
  rw [loop_append] at hdrop
  have hinside : p.program.ops.drop (p.ip + 1) =
      body ++ (clearLoop.flatten ++ .loopEnd :: after) := by
    rw [drop_succ_of_drop hdrop, List.append_assoc]
  have hend : p.program.ops.drop (p.ip + 1 + body.length) =
      clearLoop.flatten ++ .loopEnd :: after := by
    rw [← List.drop_drop, hinside, List.drop_left]
  suffices hloop : Arrives _ (1 + (bound + 771)) p channels from hloop.mono (by omega)
  refine (h.arrives_loopStart hmatched).andThen h ?_
  rintro q c hq hprogram (⟨hip, -⟩ | hout)
  · have hinside' : q.program.ops.drop q.ip =
        body ++ (clearLoop.flatten ++ .loopEnd :: after) := by
      rw [hprogram, hip, hinside]
    refine (harrives hq hinside').andThen hq ?_
    intro r c hr hprogram' hip'
    have hplace : r.ip = p.ip + 1 + body.length := by rw [hip', hip]
    have hend' : r.program.ops.drop r.ip = clearLoop.flatten ++ .loopEnd :: after := by
      rw [hprogram', hprogram, hplace, hend]
    have hstop : r.ip + 3 = p.ip + body.length + 4 := by omega
    have hmatched' : Matched r.program.ops p.ip (r.ip + 3) := by
      rwa [hprogram', hprogram, hstop]
    have hout := hr.arrives_end hmatched' hend'
    rwa [show r.ip + 4 = p.ip + body.length + 5 by omega] at hout
  · exact .goal (Nat.zero_le _) .rest hout

/-- A self-clearing program is passed within 772 ticks for each instruction, whatever stands around
    it. -/
theorem Steady.arrives_selfClearing {ops : List Op} (hclearing : SelfClearing ops) :
    ∀ {p : Processor} {channels : Channels κ σ} {after : List Op}, Steady p channels →
      p.program.ops.drop p.ip = ops ++ after →
      Arrives (fun q => q.ip = p.ip + ops.length) (772 * ops.length) p channels := by
  induction hclearing with
  | @append ops more _ _ ih ih' =>
    intro p channels after h hdrop
    rw [List.append_assoc] at hdrop
    rw [List.length_append, Nat.mul_add, ← Nat.add_assoc]
    refine (ih h hdrop).andThen h ?_
    intro q channels' hq hprogram hip
    have hdrop' : q.program.ops.drop q.ip = more ++ after := by
      rw [hprogram, hip, ← List.drop_drop, hdrop, List.drop_left]
    rw [← hip]
    exact ih' hq hdrop'
  | @loop body hbody ih =>
    intro p channels after h hdrop
    have hlength : (.loopStart :: (body ++ [.loopStart, .decrement, .loopEnd, .loopEnd])
        : List Op).length = body.length + 5 := by
      rw [List.length_cons, List.length_append]
      rfl
    rw [hlength, ← Nat.add_assoc]
    exact (h.arrives_loop hbody hdrop ih).mono (by omega)
  | _ =>
    intro p channels after h hdrop
    exact (h.arrives_single hdrop nofun nofun nofun).mono (by decide)

/-! ## Runs of a body -/

/-- A tick leads from a `[` into its loop. -/
def EntersAt (run : Nat → Processor) (start time : Nat) : Prop :=
  (run time).ip = start ∧ (run (time + 1)).ip = start + 1

/-- A tick leads to a position from one before it. -/
def ComesTo (run : Nat → Processor) (position time : Nat) : Prop :=
  (run time).ip < position ∧ (run (time + 1)).ip = position

/-- A `]` behind another `]` is only come to over a zero cell: from the other `]` no instruction
    leads on, so it is the loop before it that has been left. -/
theorem Successor.zero_at_loopEnd {op : Op} (hp : p.Consistent) (hop : p.op? = some op)
    (h : p.Successor op q) {position : Nat}
    (hbefore : p.program.ops[position]? = some .loopEnd)
    (hclose : p.program.ops[position + 1]? = some .loopEnd) (hip : q.ip = position + 1) :
    q.tape.cells[q.dp]? = some 0 := by
  rcases h.ip_cases hp hop with
    ⟨hne, hnext, -⟩ | ⟨stop, -, -, hzero, rfl⟩ | ⟨start, -, hmatched, rfl⟩
  · obtain rfl : p.ip = position := by omega
    exact absurd (Option.some.inj (hop.symm.trans hbefore)) hne
  · exact hzero
  · obtain rfl : start = position + 1 := hip
    exact nomatch hclose.symm.trans hmatched.opens

namespace Trajectory

variable {start : Processor} {run : Nat → Processor} {first last : Nat}

theorem zero_at_loopEnd (h : Trajectory start run) (hstart : start.Consistent) {position : Nat}
    (hip : start.ip ≠ position + 1) (hbefore : start.program.ops[position]? = some .loopEnd)
    (hclose : start.program.ops[position + 1]? = some .loopEnd) (time : Nat)
    (hat : (run time).ip = position + 1) :
    (run time).tape.cells[(run time).dp]? = some 0 := by
  let Zero (p : Processor) : Prop :=
    p.Consistent ∧ p.program = start.program ∧
      (p.ip = position + 1 → p.tape.cells[p.dp]? = some 0)
  have hzero : Zero (run time) := by
    refine h.invariant Zero ?_ ⟨hstart, rfl, fun hat => absurd hat hip⟩ time
    rintro p q op hop hnext ⟨hp, hprogram, -⟩
    refine ⟨hp.successor hnext, hnext.fixed.2.1.trans hprogram, ?_⟩
    rw [← hprogram] at hbefore hclose
    exact hnext.zero_at_loopEnd hp hop hbefore hclose
  exact hzero.2.2 hat

/-- Between two runs of the body of a loop whose `]` is only come to over a zero cell, the `[` is
    come to from before it. -/
theorem comesTo_of_entersAt (h : Trajectory start run) (hstart : start.Consistent)
    (hmatched : Matched start.program.ops first last)
    (hzero : ∀ time, (run time).ip = last → (run time).tape.cells[(run time).dp]? = some 0)
    {time time' : Nat} (hlt : time < time') (henters : EntersAt run first time)
    (henters' : EntersAt run first time') :
    ∃ between, time < between ∧ between < time' ∧ ComesTo run first between := by
  by_contra hnever
  have hspent : ∀ later, time + 1 ≤ later → later ≤ time' → (run later).ip = first →
      (run later).tape.cells[(run later).dp]? = some 0 := by
    intro later hle
    induction later, hle using Nat.le_induction with
    | base =>
      intro _ hip
      have := henters.2
      omega
    | succ later hle ih =>
      intro hle' hip
      rcases h.next_cases later with heq | ⟨op, hop, hnext⟩
      · rw [heq] at hip ⊢
        exact ih (by omega) hip
      · have hmatched' : Matched (run later).program.ops first last := by rwa [(h.fixed later).2]
        rcases hnext.comes_to_loopStart (h.consistent hstart later) hop hmatched' hip with
          hbefore | ⟨hlast, heq⟩
        · exact absurd ⟨later, by omega, by omega, hbefore, hip⟩ hnever
        · rw [heq]
          exact hzero later hlast
  obtain ⟨hat, hinside⟩ := henters'
  rcases h.next_cases time' with heq | ⟨op, hop, hnext⟩
  · rw [heq] at hinside
    omega
  · have hopen : (run time').program.ops[(run time').ip]? = some .loopStart := by
      rw [(h.fixed time').2, hat]
      exact hmatched.opens
    obtain rfl : op = .loopStart := Option.some.inj (hop.symm.trans hopen)
    exact hnext.nonzero_of_enters (h.consistent hstart time') hopen (by omega)
      (hspent time' hlt (Nat.le_refl _) hat)

end Trajectory

end Processor

open Processor

namespace Machine

variable {κ σ : Type} [ByteSink κ] [ByteSource σ]

/-- Let every loop of a program end by clearing a cell with `[-]`, let there be one processor, and
    let the sink never fail.
    - The run returns. Either the processor is finished, after at most 772 ticks for each
      instruction, or a tick before that faults because it is to put a 256.
    - Let `run` be what the processor is after any number of calls. When the body of a loop is run
      once more, its `[` has been come to from before it in the meantime. -/
theorem self_clearing_programs_end {config : MachineConfig} (hone : config.processors = 1)
    {source : String} (hclearing : SelfClearing (Program.parse source).ops)
    {channels : Channels κ σ} (hsink : Unfailing channels.sink) :
    let program := Program.parse source
    ∃ start : Machine, assemble config source = .ok start ∧
      (∃ o, start.Returns channels o ∧
        ((∃ summary p, o.result = .ok summary ∧ summary.ticks = o.state.ticks ∧
            o.state.ticks ≤ 772 * program.length ∧ o.state.processors = [p] ∧
            p.isFinished = true) ∨
          o.result = .error (.valueOutOfRange 256) ∧ o.state.ticks < 772 * program.length)) ∧
      ∃ run : Nat → Processor,
        (∀ calls, (transcript step calls start channels).state.processors = [run calls]) ∧
        ∀ before body after, SelfClearing body →
          program.ops = before ++
            .loopStart :: (body ++ [.loopStart, .decrement, .loopEnd, .loopEnd]) ++ after →
          ∀ time time', time < time' → EntersAt run before.length time →
            EntersAt run before.length time' →
            ∃ between, time < between ∧ between < time' ∧ ComesTo run before.length between := by
  intro program
  have hpos : 0 < config.processors := by omega
  have hfresh := single_fresh hone source
  generalize hp : load 0 (Program.parse source) config.brackets = p at hfresh
  have hsound : p.Sound := hp ▸ sound_load _ _ _
  have hprogram : p.program = program := by rw [← hp]; rfl
  have hip : p.ip = 0 := by rw [← hp]; rfl
  refine ⟨fresh config source, assemble_of_pos hpos source, ?_,
    fun calls => (transcript Processor.tick calls p channels).state,
    fun calls => (hfresh.transcript calls _ _ channels).processors_eq, ?_⟩
  · have hdrop : p.program.ops.drop p.ip = (Program.parse source).ops ++ [] := by
      rw [hprogram, hip, List.drop_zero, List.append_nil]
    have hsteady : Steady p channels := ⟨hsound, hsink⟩
    cases hsteady.arrives_selfClearing hclearing hdrop with
    | @goal count q channels' hcount hstrides hgoal =>
      have hprogram' := (hsteady.strides hstrides).2.trans hprogram
      have hfinished : q.isFinished = true := by
        rw [Processor.isFinished, beq_iff_eq, hgoal, hip, Nat.zero_add, hprogram']
        rfl
      obtain ⟨m', on, hreturns, hsingle, hticks⟩ := hfresh.returns_of_finished hstrides hfinished
      have hticks : m'.ticks = count := hticks.trans (Nat.zero_add count)
      exact ⟨_, hreturns, Or.inl ⟨_, q, rfl, hticks.symm, hticks ▸ hcount, hsingle.processors_eq,
        hfinished⟩⟩
    | @overflow count q channels' hcount hstrides hunfinished hfault =>
      obtain ⟨m', hreturns, -, hticks⟩ := hfresh.returns_of_fault hstrides hunfinished hfault
      have hticks : m'.ticks = count := hticks.trans (Nat.zero_add count)
      exact ⟨_, hreturns, Or.inr ⟨rfl, hticks ▸ hcount⟩⟩
  · intro before body after hbody hops time time' hlt henters henters'
    have hrun := trajectory_transcript p channels
    have hdrop : p.program.ops.drop before.length =
        .loopStart :: (body ++ [.loopStart, .decrement, .loopEnd, .loopEnd]) ++ after := by
      rw [hprogram, hops, List.append_assoc, List.drop_left]
    have hmatched := hbody.matched hdrop
    have hinner : p.program.ops[before.length + body.length + 3]? = some .loopEnd := by
      rw [Nat.add_assoc, ← List.getElem?_drop, hdrop, loop_append, List.getElem?_cons_succ,
        List.append_assoc, List.getElem?_append_right (Nat.le_add_right _ 2),
        Nat.add_sub_cancel_left]
      rfl
    refine hrun.comesTo_of_entersAt hsound.consistent hmatched ?_ hlt henters henters'
    intro calls hat
    exact hrun.zero_at_loopEnd hsound.consistent (by omega) hinner hmatched.closes calls hat

/-- Each of two nested loops is run once, and a 1 is put in each of them and behind them. -/
theorem self_clearing_programs_end_on_nested :
    let channels := Channels.mk ByteBuffer.empty NullSource.mk
    SelfClearing (Program.parse "-[>+[.[-]][-]]+.").ops ∧ Unfailing channels.sink ∧
      ∃ start : Machine, assemble { processors := 1 } "-[>+[.[-]][-]]+." = .ok start ∧
        (∃ o p, start.Returns channels o ∧ o.result = .ok ⟨17, some 0⟩ ∧
          o.state.processors = [p] ∧ p.isFinished = true) ∧
        ∃ run : Nat → Processor,
          (∀ calls, (transcript step calls start channels).state.processors = [run calls]) ∧
          EntersAt run 1 1 ∧ ∀ time, 1 < time → EntersAt run 1 time →
            ∃ between, 1 < between ∧ between < time ∧ ComesTo run 1 between := by
  intro channels
  have hinner : SelfClearing (Program.parse ">+[.[-]]").ops :=
    .append .right (.append .increment (.loop .output))
  have hclearing : SelfClearing (Program.parse "-[>+[.[-]][-]]+.").ops :=
    .append .decrement (.append (.loop hinner) (.append .increment .output))
  have hsink : Unfailing channels.sink := ByteBuffer.empty.unfailing
  obtain ⟨start, hstart, ⟨o, hreturns, hend⟩, run, hrun, honce⟩ :=
    @self_clearing_programs_end ByteBuffer NullSource _ _ { processors := 1 } rfl _ hclearing
      channels hsink
  obtain ⟨-, rfl⟩ := assemble_eq_ok_iff.mp hstart
  have hreturns' : (fresh { processors := 1 } "-[>+[.[-]][-]]+.").Returns channels
      ⟨.ok ⟨17, some 0⟩, _, _⟩ := ⟨18, by rfl⟩
  obtain rfl := hreturns.unique hreturns'
  have hips : ∀ calls ip, ((transcript step calls (fresh { processors := 1 } "-[>+[.[-]][-]]+.")
      channels).state.processors.map fun p => p.ip) = [ip] → (run calls).ip = ip := by
    intro calls ip h
    rw [hrun] at h
    exact List.singleton_inj.mp h
  have henters : EntersAt run 1 1 := ⟨hips 1 1 (by rfl), hips 2 2 (by rfl)⟩
  refine ⟨hclearing, hsink, _, hstart, ?_, run, hrun, henters, ?_⟩
  · rcases hend with ⟨summary, p, -, -, -, hp, hfinished⟩ | ⟨hfault, -⟩
    · exact ⟨_, p, hreturns, rfl, hp, hfinished⟩
    · cases hfault
  · intro time hlt
    exact honce [.decrement] _ [.increment, .output] hinner (by decide) 1 time hlt henters

end Machine

end TapeRing
