import Mathlib.Order.Bounds.Basic
import TapeRing.Channel.Sink
import TapeRing.Channel.Source
import TapeRing.Proofs.Endless.Rover
import TapeRing.Proofs.Transcript

/-! # The extent of a tape

A tape grows where its processor moves beyond an edge, so it reaches from the leftmost to the
rightmost place that the head of the rover has visited. With that a processor refines a rover in
every respect (`ticks_refine_rover`). -/

namespace TapeRing

variable {κ σ : Type} [ByteSink κ] [ByteSource σ]

/-- The places where the head of a rover has been when it has made a number of ticks. -/
def Rover.visited (count : Nat) (r : Rover) (channels : Channels κ σ) : Set Int :=
  {place | ∃ made ≤ count, place = (transcript Rover.tick made r channels).state.head}

theorem Rover.visited_zero (r : Rover) (channels : Channels κ σ) :
    r.visited 0 channels = {r.head} := by
  ext place
  simp [visited, transcript]

theorem Rover.visited_succ (count : Nat) (r : Rover) (channels : Channels κ σ) :
    r.visited (count + 1) channels =
      insert (transcript Rover.tick (count + 1) r channels).state.head
        (r.visited count channels) := by
  ext place
  rw [Set.mem_insert_iff]
  constructor
  · rintro ⟨made, hmade, rfl⟩
    rcases Nat.lt_or_eq_of_le hmade with hlt | rfl
    · exact Or.inr ⟨made, Nat.le_of_lt_succ hlt, rfl⟩
    · exact Or.inl rfl
  · rintro (rfl | ⟨made, hmade, rfl⟩)
    · exact ⟨count + 1, Nat.le_refl _, rfl⟩
    · exact ⟨made, Nat.le_succ_of_le hmade, rfl⟩

namespace Processor

/-- How often a tape has grown on the left when its processor has made a number of ticks. -/
def leftGrowths (count : Nat) (p : Processor) (channels : Channels κ σ) : Nat :=
  (List.range count).countP fun made => (transcript tick made p channels).state.growsLeft

theorem leftGrowths_succ (count : Nat) (p : Processor) (channels : Channels κ σ) :
    p.leftGrowths (count + 1) channels =
      p.leftGrowths count channels +
        (transcript tick count p channels).state.growsLeft.toNat := by
  rw [leftGrowths, List.range_succ, List.countP_append, List.countP_singleton, leftGrowths]
  cases (transcript tick count p channels).state.growsLeft <;> rfl

/-- A tape grows by a cell on the left or by one on the right, and the processor is then on the new
    cell; or it keeps its size. -/
theorem extent_tick (p : Processor) (channels : Channels κ σ) :
    p.growsLeft.toNat = 1 ∧ (p.tick channels).state.dp = 0 ∧
        (p.tick channels).state.tape.size = p.tape.size + 1 ∨
      p.growsLeft.toNat = 0 ∧ (p.tick channels).state.dp = p.tape.size ∧
        (p.tick channels).state.tape.size = p.tape.size + 1 ∨
      p.growsLeft.toNat = 0 ∧ (p.tick channels).state.tape.size = p.tape.size := by
  cases hop : p.op? with
  | none =>
    have hidle : p.action = .idle := by rw [action, hop]
    rw [tick, hidle]
    exact Or.inr (Or.inr ⟨by simp [growsLeft, hop], rfl⟩)
  | some op =>
    rw [growsLeft_of_op? hop]
    by_cases hleft : op = .left
    · subst hleft
      rw [tick, action_of_op? hop]
      by_cases hdp : p.dp = 0
      · left
        simp [perform, carryOut, moveLeft, next, hdp]
      · right; right
        simp [perform, carryOut, moveLeft, next, hdp]
    rcases tick_cases p channels with heq | ⟨op', hop', hnext⟩
    · rw [heq]
      exact Or.inr (Or.inr ⟨by simp [hleft], rfl⟩)
    · obtain rfl : op = op' := Option.some.inj (hop.symm.trans hop')
      right
      rw [if_neg (by simp [hleft])]
      generalize (p.tick channels).state = q at hnext ⊢
      cases hnext with
      | increment htape => exact Or.inr ⟨rfl, Tape.size_of_update_eq_ok htape⟩
      | decrement htape => exact Or.inr ⟨rfl, Tape.size_of_update_eq_ok htape⟩
      | left => exact absurd rfl hleft
      | right =>
        by_cases hdp : p.dp + 1 = p.tape.size
        · left
          simp [moveRight, next, hdp]
        · right
          simp [moveRight, next, hdp]
      | enter hread hvalue => exact Or.inr ⟨rfl, rfl⟩
      | skip hread hclosing => exact Or.inr ⟨rfl, rfl⟩
      | back hopening => exact Or.inr ⟨rfl, rfl⟩
      | emit hread hbyte => exact Or.inr ⟨rfl, rfl⟩
      | store htape => exact Or.inr ⟨rfl, Tape.size_of_write_eq_ok htape⟩

theorem sound_transcript {p : Processor} (hp : p.Sound) (count : Nat) (channels : Channels κ σ) :
    (transcript tick count p channels).state.Sound :=
  transcript_invariant (fun _ channels h => h.tick channels) count p channels hp

/-- The ticks of a processor are those of a rover. -/
theorem transcript_rover {p : Processor} (hp : p.Sound) (count : Nat) (channels : Channels κ σ) :
    transcript Rover.tick count (p.rover 0) channels =
      ⟨(transcript tick count p channels).results,
        (transcript tick count p channels).state.rover (p.leftGrowths count channels),
        (transcript tick count p channels).channels⟩ := by
  induction count with
  | zero => rfl
  | succ count ih =>
    have hsound := sound_transcript hp count channels
    rw [transcript_succ, transcript_succ, ih, leftGrowths_succ]
    simp only [tick_rover hsound]

/-- The tape reaches from the leftmost to the rightmost place visited. -/
theorem extent_visited {p : Processor} (hp : p.Sound) (hsize : p.tape.size = 1) (count : Nat)
    (channels : Channels κ σ) :
    IsLeast ((p.rover 0).visited count channels) (-(p.leftGrowths count channels : Int)) ∧
      IsGreatest ((p.rover 0).visited count channels)
        ((transcript tick count p channels).state.tape.size - 1 -
          p.leftGrowths count channels) := by
  induction count with
  | zero =>
    have hdp := hp.dp_lt
    have hhead : (p.rover 0).head = 0 := by
      simp only [rover]
      omega
    have hleast : (-(p.leftGrowths 0 channels : Int)) = 0 := rfl
    have hgreatest : ((transcript tick 0 p channels).state.tape.size : Int) - 1 -
        p.leftGrowths 0 channels = 0 := by
      simp only [transcript, hsize]
      rfl
    rw [Rover.visited_zero, hhead, hleast, hgreatest]
    exact ⟨isLeast_singleton, isGreatest_singleton⟩
  | succ count ih =>
    obtain ⟨hleast, hgreatest⟩ := ih
    have hdp := (sound_transcript hp (count + 1) channels).dp_lt
    have hhead : (transcript Rover.tick (count + 1) (p.rover 0) channels).state.head =
        (transcript tick (count + 1) p channels).state.dp -
          p.leftGrowths (count + 1) channels := by
      rw [transcript_rover hp]
      rfl
    have hlast : (transcript tick (count + 1) p channels).state =
        ((transcript tick count p channels).state.tick
          (transcript tick count p channels).channels).state := by
      rw [transcript_succ]
    have hextent := extent_tick (transcript tick count p channels).state
      (transcript tick count p channels).channels
    rw [← hlast] at hextent
    have hgrown := leftGrowths_succ count p channels
    rw [Rover.visited_succ, hhead]
    generalize (transcript tick (count + 1) p channels).state = q at *
    generalize p.leftGrowths (count + 1) channels = grown at *
    -- The head is beyond one of the old extremes iff the tape has just grown there.
    constructor
    · have hmin : min ((q.dp : Int) - grown) (-(p.leftGrowths count channels : Int)) = -grown := by
        omega
      rw [← hmin]
      exact hleast.insert _
    · have hmax : max ((q.dp : Int) - grown)
          ((transcript tick count p channels).state.tape.size - 1 -
            p.leftGrowths count channels) = q.tape.size - 1 - grown := by
        omega
      rw [← hmax]
      exact hgreatest.insert _

/-- A fresh processor, on any program and with any sink and source, gives the same result as a rover
    tick by tick, puts and gets the same bytes, and has the same instruction pointer. If its tape
    has grown on the left by `grown` cells, its cells are those of the rover from the place `-grown`
    on and all other cells of the rover are zero; and its tape reaches exactly from the least to the
    greatest place that the head of the rover has visited. -/
theorem ticks_refine_rover (id : Nat) (program : Program) (strategy : BracketStrategy) (count : Nat)
    (channels : Channels κ σ) :
    let p := load id program strategy
    let bounded := transcript tick count p channels
    let endless := transcript Rover.tick count (Rover.start id program) channels
    let grown := p.leftGrowths count channels
    bounded.results = endless.results ∧
    bounded.channels = endless.channels ∧
    bounded.state.ip = endless.state.ip ∧
    endless.state.head = bounded.state.dp - grown ∧
    (∀ index < bounded.state.tape.size,
      bounded.state.tape.cells[index]? = some (endless.state.cells (index - grown))) ∧
    (∀ place : Int, (∀ index < bounded.state.tape.size, place ≠ index - grown) →
      endless.state.cells place = 0) ∧
    ∃ least greatest : Int,
      IsLeast ((Rover.start id program).visited count channels) least ∧
      IsGreatest ((Rover.start id program).visited count channels) greatest ∧
      grown = -least ∧
      bounded.state.tape.size = greatest - least + 1 := by
  intro p bounded endless grown
  have hp : p.Sound := sound_load id program strategy
  have hendless : endless = ⟨bounded.results, bounded.state.rover grown, bounded.channels⟩ := by
    have h := transcript_rover hp count channels
    rwa [rover_load] at h
  obtain ⟨hleast, hgreatest⟩ := extent_visited hp rfl count channels
  rw [rover_load] at hleast hgreatest
  rw [hendless]
  refine ⟨rfl, rfl, rfl, rfl, ?_, ?_, _, _, hleast, hgreatest, (Int.neg_neg _).symm, ?_⟩
  · intro index hindex
    simp only [rover, Int.sub_add_cancel]
    exact Tape.spread_of_lt hindex
  · intro place hplace
    apply Tape.spread_eq_zero
    intro index hindex heq
    exact hplace index hindex (by omega)
  · show (bounded.state.tape.size : Int) = bounded.state.tape.size - 1 - grown - -grown + 1
    omega

/-- Two cells to the left and one to the right of the start: the cell at `-1` holds 1, and the tape
    has grown on the left twice. -/
example :
    let bounded := transcript tick 8 (load 0 (Program.parse "<+<>>>--") .scan)
      (Channels.mk ByteBuffer.empty (SliceSource.mk []))
    bounded.state.tape = ⟨[0, 1, 0, 254]⟩ ∧ bounded.state.dp = 3 := by
  decide

end Processor

end TapeRing
