import Mathlib.Data.List.Forall2
import TapeRing.Channel.Sink
import TapeRing.Channel.Source
import TapeRing.Proofs.Machine.Assembly
import TapeRing.Proofs.Machine.Redrawing
import TapeRing.Proofs.Processor.Partners

/-! # The two ways to find a bracket

Searching for a partner and looking it up come to the same, so a machine that searches and a
machine that looks up cannot be told apart by their steps, whether the brackets of the program
match or not. -/

namespace TapeRing

namespace Processor

/-- The same processor with another way to find the partner of a bracket. -/
def under (strategy : BracketStrategy) (p : Processor) : Processor :=
  { p with jumps := (load p.id p.program strategy).jumps }

theorem consistent_under (strategy : BracketStrategy) (p : Processor) :
    (p.under strategy).Consistent :=
  consistent_load p.id p.program strategy

theorem next_under (strategy : BracketStrategy) (p : Processor) :
    (p.under strategy).next = p.next.under strategy := rfl

theorem moveLeft_under (strategy : BracketStrategy) (p : Processor) :
    (p.under strategy).moveLeft = p.moveLeft.under strategy := by
  by_cases h : p.dp = 0 <;> simp only [moveLeft, under, h, if_true, if_false]

theorem moveRight_under (strategy : BracketStrategy) (p : Processor) :
    (p.under strategy).moveRight = p.moveRight.under strategy := by
  by_cases h : p.dp + 1 = p.tape.size <;> simp only [moveRight, under, h, if_true, if_false]

theorem action_under (strategy : BracketStrategy) {p : Processor} (hp : p.Consistent) :
    (p.under strategy).action = p.action.map (under strategy) := by
  have hsame : (p.under strategy).op? = p.op? := rfl
  unfold action
  rw [hsame]
  cases hop : p.op? with
  | none => rfl
  | some op =>
    have hop' : (p.under strategy).op? = some op := hop
    cases op with
    | increment =>
      simp only [perform, under]
      split <;> rfl
    | decrement =>
      simp only [perform, under]
      split <;> rfl
    | left => simp only [perform, Action.map, moveLeft_under, next_under]
    | right => simp only [perform, Action.map, moveRight_under, next_under]
    | loopStart =>
      have hclosing : (p.under strategy).closing = p.closing := by
        rw [closing_eq_target hp hop, closing_eq_target (consistent_under strategy p) hop']
        rfl
      simp only [perform, hclosing]
      have htape : (p.under strategy).tape.read (p.under strategy).dp = p.tape.read p.dp := rfl
      rw [htape]
      cases p.tape.read p.dp with
      | error fault => rfl
      | ok value =>
        by_cases hzero : value = 0
        · simp only [hzero, if_true]
          cases p.closing <;> rfl
        · simp only [hzero, if_false]
          rfl
    | loopEnd =>
      have hopening : (p.under strategy).opening = p.opening := by
        rw [opening_eq_target hp hop, opening_eq_target (consistent_under strategy p) hop']
        rfl
      simp only [perform, hopening]
      cases p.opening <;> rfl
    | output =>
      have htape : (p.under strategy).tape.read (p.under strategy).dp = p.tape.read p.dp := rfl
      simp only [perform, htape]
      cases p.tape.read p.dp with
      | error fault => rfl
      | ok value =>
        simp only
        cases byteOfCell value <;> rfl
    | input =>
      refine congrArg Action.receive (funext fun byte => ?_)
      simp only [store]
      have htape : (p.under strategy).tape.write (p.under strategy).dp (toAscii byte).toNat =
          p.tape.write p.dp (toAscii byte).toNat := rfl
      rw [htape]
      cases p.tape.write p.dp (toAscii byte).toNat <;> rfl

/-- Another way to find the partner of a bracket cannot be told by any instruction. -/
def underRedrawing (strategy : BracketStrategy) : Redrawing where
  Fits := Consistent
  redraw := under strategy
  isFinished_redraw _ := rfl
  action_redraw _ := action_under strategy
  fits_successor _ h hp := hp.successor h

end Processor

namespace Machine

theorem machine_underRedrawing_fresh (config : MachineConfig) (source : String)
    (strategy : BracketStrategy) :
    (Processor.underRedrawing strategy).machine strategy (fresh config source) =
      fresh { config with brackets := strategy } source := by
  simp only [Redrawing.machine, fresh, List.map_map]
  rfl

theorem consistent_of_mem_fresh {config : MachineConfig} {source : String} {p : Processor}
    (h : p ∈ (fresh config source).processors) : p.Consistent := by
  obtain ⟨index, -, rfl⟩ := List.mem_map.mp h
  exact Processor.consistent_load _ _ _

variable {κ σ : Type} [ByteSink κ] [ByteSource σ]

/-- Two machines that differ only in how they find brackets can be assembled from every text, and
    they give the same result call by call, leave the same sink and source, and have the same
    cursor, ticks and processors, apart from the tables. Sink and source are arbitrary, so their
    states tell which bytes were put and got. -/
theorem scanning_and_tabled_machines_agree (count : Nat) (hcount : 0 < count) (halt : HaltPolicy)
    (source : String) :
    ∃ scanning tabled : Machine,
      assemble { processors := count, halt := halt, brackets := .scan } source = .ok scanning ∧
      assemble { processors := count, halt := halt, brackets := .table } source = .ok tabled ∧
      ∀ (calls : Nat) (channels : Channels κ σ),
        let scanned := transcript step calls scanning channels
        let lookedUp := transcript step calls tabled channels
        scanned.results = lookedUp.results ∧
        scanned.channels = lookedUp.channels ∧
        scanned.state.cursor = lookedUp.state.cursor ∧
        scanned.state.ticks = lookedUp.state.ticks ∧
        List.Forall₂ (fun p q => p.id = q.id ∧ p.program = q.program ∧ p.ip = q.ip ∧ p.dp = q.dp ∧
            p.tape = q.tape)
          scanned.state.processors lookedUp.state.processors := by
  let config : MachineConfig := { processors := count, halt := halt, brackets := .scan }
  refine ⟨fresh config source, fresh { config with brackets := .table } source,
    assemble_of_pos hcount source, assemble_of_pos hcount source, ?_⟩
  intro calls channels
  obtain ⟨hresults, hchannels, hstate⟩ := (Processor.underRedrawing .table).transcript_redraw .table
    (fun p hp => consistent_of_mem_fresh hp) calls (m := fresh config source) channels
  rw [machine_underRedrawing_fresh] at hresults hchannels hstate
  refine ⟨hresults, hchannels, ?_, ?_, ?_⟩
  · rw [← hstate]
    rfl
  · rw [← hstate]
    rfl
  · rw [← hstate]
    refine List.forall₂_map_right_iff.mpr (List.forall₂_same.mpr fun p _ => ?_)
    exact ⟨rfl, rfl, rfl, rfl, rfl⟩

/-- The second processor stands on a stray `]`: both machines make one step and then fault. -/
theorem scanning_and_tabled_machines_agree_on_stray :
    0 < 2 ∧ ∃ scanning tabled : Machine,
      assemble { processors := 2, halt := .allFinished, brackets := .scan } "+][" = .ok scanning ∧
      assemble { processors := 2, halt := .allFinished, brackets := .table } "+][" = .ok tabled ∧
      (transcript step 6 scanning ⟨ByteBuffer.empty, SliceSource.mk [65]⟩).results =
        .ok (.ticked 0) :: List.replicate 5 (.error (.unmatchedBracket 1 0 .closing)) ∧
      (transcript step 6 tabled ⟨ByteBuffer.empty, SliceSource.mk [65]⟩).results =
        .ok (.ticked 0) :: List.replicate 5 (.error (.unmatchedBracket 1 0 .closing)) := by
  obtain ⟨scanning, tabled, hscanning, htabled, hagree⟩ :=
    @scanning_and_tabled_machines_agree ByteBuffer SliceSource _ _ 2 (by decide) .allFinished "+]["
  have hresults := (hagree 6 ⟨ByteBuffer.empty, SliceSource.mk [65]⟩).1
  obtain ⟨-, rfl⟩ := assemble_eq_ok_iff.mp hscanning
  refine ⟨by decide, _, tabled, hscanning, htabled, ?_, ?_⟩
  · rfl
  · rw [← hresults]
    rfl

end Machine

end TapeRing
