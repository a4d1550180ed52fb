import TapeRing.Proofs.Machine.Steps
import TapeRing.Proofs.Transcript

/-! # Redrawn machines

A redrawing changes how processors look in a way that no instruction can tell: what a redrawn
processor does next is what the original does next, redrawn. A machine of redrawn processors then
makes the same steps as the original machine, for ever (`transcript_redraw`). -/

namespace TapeRing

/-- An action that leads to redrawn processors. -/
def Action.map (redraw : Processor → Processor) : Action → Action
  | .idle => .idle
  | .fail fault => .fail fault
  | .advance next => .advance (redraw next)
  | .emit byte next => .emit byte (redraw next)
  | .receive next => .receive fun byte => (next byte).map redraw

/-- A way to redraw the processors of a kind that no instruction can tell. -/
structure Redrawing where
  /-- The processors that can be redrawn. -/
  Fits : Processor → Prop
  redraw : Processor → Processor
  isFinished_redraw : ∀ p, (redraw p).isFinished = p.isFinished
  action_redraw : ∀ p, Fits p → (redraw p).action = p.action.map redraw
  fits_successor : ∀ {p q : Processor} {op : Op}, p.op? = some op → p.Successor op q →
    Fits p → Fits q

variable {κ σ : Type} [ByteSink κ] [ByteSource σ] (r : Redrawing)

namespace Redrawing

theorem tick_redraw {p : Processor} (hfits : r.Fits p) (channels : Channels κ σ) :
    (r.redraw p).tick channels =
      ⟨(p.tick channels).result, r.redraw (p.tick channels).state, (p.tick channels).channels⟩ := by
  unfold Processor.tick
  rw [r.action_redraw p hfits]
  cases p.action with
  | idle => rfl
  | fail fault => rfl
  | advance next => rfl
  | emit byte next =>
    simp only [Action.map, Processor.carryOut]
    split <;> rfl
  | receive next =>
    simp only [Action.map, Processor.carryOut]
    split
    · rfl
    · rename_i byte source hget
      cases next byte <;> rfl

/-- The machine of the redrawn processors; the brackets may be found in another way. -/
def machine (brackets : BracketStrategy) (m : Machine) : Machine :=
  { m with
      config := { m.config with brackets := brackets }
      processors := m.processors.map r.redraw }

/-- The turn of a redrawn processor. -/
def turn : Turn → Turn
  | .halt on => .halt on
  | .tick index p => .tick index (r.redraw p)

theorem sweep_machine (brackets : BracketStrategy) (m : Machine) :
    (r.machine brackets m).sweep = m.sweep.map (Prod.map r.redraw id) := by
  simp only [Machine.sweep, machine, List.zipIdx_map, List.map_append, List.map_drop, List.map_take]

theorem unfinished_comp_redraw :
    (fun (p, _) => !p.isFinished : Processor × Nat → Bool) ∘ Prod.map r.redraw id =
      fun (p, _) => !p.isFinished := by
  funext ⟨p, index⟩
  simp [r.isFinished_redraw]

theorem turn_machine (brackets : BracketStrategy) (m : Machine) :
    (r.machine brackets m).turn = r.turn m.turn := by
  have hhalt : (r.machine brackets m).config.halt = m.config.halt := rfl
  unfold Machine.turn
  rw [hhalt, sweep_machine]
  cases m.config.halt with
  | firstFinished =>
    rw [List.head?_map]
    cases m.sweep.head? with
    | none => rfl
    | some first =>
      obtain ⟨p, index⟩ := first
      simp only [Option.map_some, Prod.map, id, r.isFinished_redraw]
      split <;> rfl
  | allFinished =>
    rw [List.find?_map, r.unfinished_comp_redraw]
    cases m.sweep.find? (fun (p, _) => !p.isFinished) with
    | none => rfl
    | some found => rfl

theorem step_machine (brackets : BracketStrategy) {m : Machine}
    (hfits : ∀ p ∈ m.processors, r.Fits p) (channels : Channels κ σ) :
    (r.machine brackets m).step channels =
      ⟨(m.step channels).result, r.machine brackets (m.step channels).state,
        (m.step channels).channels⟩ := by
  have hlength : (r.machine brackets m).processors.length = m.processors.length := by
    simp [machine]
  have hturn := r.turn_machine brackets m
  rcases Machine.step_cases m channels with
    ⟨on, hhalt, heq⟩ | ⟨index, p, htick, hp, ⟨hresult, heq⟩ | ⟨fault, hresult, heq⟩⟩
  · rw [hhalt] at hturn
    rw [heq, Machine.step_of_halt hturn]
  · rw [htick] at hturn
    rw [heq, Machine.step_of_tick hturn, r.tick_redraw (hfits p (List.mem_of_getElem? hp)), hresult]
    simp only [machine, Machine.after, List.length_map, List.map_set]
  · rw [htick] at hturn
    rw [heq, Machine.step_of_tick hturn, r.tick_redraw (hfits p (List.mem_of_getElem? hp)), hresult]
    rfl

/-- A machine of redrawn processors makes the same calls as the original. -/
theorem transcript_redraw (brackets : BracketStrategy) {m : Machine}
    (hfits : ∀ p ∈ m.processors, r.Fits p) (count : Nat) (channels : Channels κ σ) :
    (transcript Machine.step count m channels).results =
        (transcript Machine.step count (r.machine brackets m) channels).results ∧
      (transcript Machine.step count m channels).channels =
        (transcript Machine.step count (r.machine brackets m) channels).channels ∧
      r.machine brackets (transcript Machine.step count m channels).state =
        (transcript Machine.step count (r.machine brackets m) channels).state := by
  let Related (m m' : Machine) : Prop :=
    (∀ p ∈ m.processors, r.Fits p) ∧ r.machine brackets m = m'
  have hstep : ∀ (m m' : Machine) (channels : Channels κ σ), Related m m' →
      (m.step channels).result = (m'.step channels).result ∧
        (m.step channels).channels = (m'.step channels).channels ∧
        Related (m.step channels).state (m'.step channels).state := by
    rintro m m' channels ⟨hfits, rfl⟩
    have hsame := r.step_machine brackets hfits channels
    have hfits' := Machine.forall_processors_step
      (fun p channels h => Processor.tick_invariant r.fits_successor p channels h) channels hfits
    rw [hsame]
    exact ⟨rfl, rfl, hfits', rfl⟩
  obtain ⟨hresults, hchannels, -, hstate⟩ :=
    transcript_related hstep count m _ channels ⟨hfits, rfl⟩
  exact ⟨hresults, hchannels, hstate⟩

end Redrawing

end TapeRing
