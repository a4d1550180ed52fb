import TapeRing.Proofs.Processor.Sound

/-! # Tapes without edges

A rover executes programs on a tape that has a cell at every integer, all zero at first. It has no
edges to mind: `<` and `>` only move its head. Seen with zeros on both sides and from the place
where it started, a processor is a rover, and it moves like one (`tick_rover`). -/

namespace TapeRing

/-! ## Cells beyond the edges -/

namespace Tape

/-- The cells of a tape with zeros on both sides of it. -/
def spread (t : Tape) : Int → Int
  | .ofNat index => t.cells[index]?.getD 0
  | .negSucc _ => 0

variable {t : Tape}

theorem spread_natCast (t : Tape) (index : Nat) : t.spread index = t.cells[index]?.getD 0 := rfl

theorem spread_of_lt {index : Nat} (h : index < t.size) :
    t.cells[index]? = some (t.spread index) := by
  have hget : t.cells[index]? = some t.cells[index] := List.getElem?_eq_getElem h
  rw [spread_natCast, hget, Option.getD_some]

theorem spread_eq_zero {position : Int} (h : ∀ index < t.size, position ≠ index) :
    t.spread position = 0 := by
  cases position with
  | ofNat index =>
    have hsize : t.size ≤ index := by
      apply Nat.le_of_not_lt
      intro hlt
      exact h index hlt rfl
    rw [spread, List.getElem?_eq_none hsize]
    rfl
  | negSucc index => rfl

theorem spread_fresh (position : Int) : fresh.spread position = 0 := by
  cases position with
  | ofNat index => cases index <;> rfl
  | negSucc index => rfl

theorem spread_growLeft (t : Tape) (position : Int) :
    t.growLeft.spread (position + 1) = t.spread position := by
  cases position with
  | ofNat index =>
    show t.growLeft.spread ((index + 1 : Nat) : Int) = t.spread (index : Nat)
    rw [spread_natCast, spread_natCast, growLeft, List.getElem?_cons_succ]
  | negSucc index =>
    cases index with
    | zero => rfl
    | succ index => rfl

theorem spread_growRight (t : Tape) (position : Int) :
    t.growRight.spread position = t.spread position := by
  cases position with
  | ofNat index =>
    show t.growRight.spread (index : Nat) = t.spread (index : Nat)
    rw [spread_natCast, spread_natCast, growRight]
    rcases Nat.lt_trichotomy index t.cells.length with hlt | rfl | hgt
    · rw [List.getElem?_append_left hlt]
    · simp
    · have hlength : (t.cells ++ [0]).length ≤ index := by
        rw [List.length_append]
        exact hgt
      rw [List.getElem?_eq_none hlength, List.getElem?_eq_none (Nat.le_of_lt hgt)]
  | negSucc index => rfl

theorem spread_set {index : Nat} (h : index < t.size) (value position : Int) :
    (⟨t.cells.set index value⟩ : Tape).spread position =
      if position = index then value else t.spread position := by
  cases position with
  | ofNat place =>
    show (⟨t.cells.set index value⟩ : Tape).spread (place : Nat) =
      if (place : Int) = (index : Int) then value else t.spread (place : Nat)
    rw [spread_natCast, spread_natCast]
    by_cases hplace : place = index
    · subst hplace
      rw [List.getElem?_set_self h, if_pos rfl]
      rfl
    · rw [List.getElem?_set_ne (Ne.symm hplace), if_neg (by omega)]
  | negSucc place => exact (if_neg (by omega)).symm

/-- An update changes the value of one cell. -/
theorem update_of_lt {index : Nat} (h : index < t.size) (f : Int → Int) :
    ∃ t', t.update f index = .ok t' ∧ t'.size = t.size ∧ ∀ position : Int,
      t'.spread position = if position = index then f (t.spread index) else t.spread position :=
  ⟨⟨t.cells.set index (f (t.spread index))⟩, by rw [update, spread_of_lt h], List.length_set,
    spread_set h (f (t.spread index))⟩

theorem Bounded.spread (h : t.Bounded) (position : Int) : CellValue (t.spread position) := by
  by_cases hcell : ∃ index < t.size, position = index
  · obtain ⟨index, hlt, rfl⟩ := hcell
    exact h _ (List.mem_of_getElem? (spread_of_lt hlt))
  · rw [spread_eq_zero fun index hlt heq => hcell ⟨index, hlt, heq⟩]
    exact bounded_fresh 0 (List.mem_singleton.mpr rfl)

end Tape

/-! ## Rovers -/

/-- A program with a place in it, and a tape without edges with a place on it. -/
structure Rover where
  id : Nat
  program : Program
  ip : Nat
  head : Int
  cells : Int → Int

namespace Rover

/-- A rover at the start of its program, on cells that are all zero. -/
def start (id : Nat) (program : Program) : Rover where
  id := id
  program := program
  ip := 0
  head := 0
  cells := fun _ => 0

/-- The value under the head. -/
def value (r : Rover) : Int := r.cells r.head

/-- Puts a value under the head. -/
def write (r : Rover) (value : Int) : Rover :=
  { r with cells := fun position => if position = r.head then value else r.cells position }

def next (r : Rover) : Rover :=
  { r with ip := r.ip + 1 }

variable {κ σ : Type} [ByteSink κ] [ByteSource σ]

/-- Executes the instruction under the instruction pointer. -/
def tick (r : Rover) (channels : Channels κ σ) : Outcome Unit Rover κ σ :=
  match r.program.get? r.ip with
  | none => ⟨.ok (), r, channels⟩
  | some .increment => ⟨.ok (), (r.write (cellUp r.value)).next, channels⟩
  | some .decrement => ⟨.ok (), (r.write (cellDown r.value)).next, channels⟩
  | some .left => ⟨.ok (), { r with head := r.head - 1 }.next, channels⟩
  | some .right => ⟨.ok (), { r with head := r.head + 1 }.next, channels⟩
  | some .loopStart =>
      if r.value = 0 then
        match r.program.closingOf? r.ip with
        | some stop => ⟨.ok (), { r with ip := stop + 1 }, channels⟩
        | none => ⟨.error (.unmatchedBracket r.id r.ip .opening), r, channels⟩
      else ⟨.ok (), r.next, channels⟩
  | some .loopEnd =>
      match r.program.openingOf? r.ip with
      | some start => ⟨.ok (), { r with ip := start }, channels⟩
      | none => ⟨.error (.unmatchedBracket r.id r.ip .closing), r, channels⟩
  | some .output =>
      match byteOfCell r.value with
      | .error fault => ⟨.error fault, r, channels⟩
      | .ok byte =>
          match ByteSink.put channels.sink (toAscii byte) with
          | (.ok (), sink) => ⟨.ok (), r.next, { channels with sink := sink }⟩
          | (.error fault, sink) => ⟨.error fault, r, { channels with sink := sink }⟩
  | some .input =>
      match ByteSource.get channels.source with
      | (.ok byte, source) =>
          ⟨.ok (), (r.write (toAscii byte).toNat).next, { channels with source := source }⟩
      | (.error fault, source) => ⟨.error fault, r, { channels with source := source }⟩

end Rover

/-! ## Processors as rovers -/

namespace Processor

/-- The processor is about to add a cell on the left of its tape. -/
def growsLeft (p : Processor) : Bool :=
  p.op? == some .left && p.dp == 0

/-- A processor as a rover, when its tape has grown on the left by `grown` cells. -/
def rover (p : Processor) (grown : Nat) : Rover where
  id := p.id
  program := p.program
  ip := p.ip
  head := p.dp - grown
  cells := fun position => p.tape.spread (position + grown)

theorem rover_load (id : Nat) (program : Program) (strategy : BracketStrategy) :
    (load id program strategy).rover 0 = Rover.start id program := by
  simp only [rover, load, Rover.start, Tape.spread_fresh]
  rfl

variable {p : Processor}

theorem value_rover (hdp : p.dp < p.tape.size) (grown : Nat) :
    p.tape.read p.dp = .ok (p.rover grown).value := by
  rw [Tape.read_eq_ok_iff, Tape.spread_of_lt hdp]
  simp only [Rover.value, rover, Int.sub_add_cancel]

theorem rover_next (p : Processor) (grown : Nat) : p.next.rover grown = (p.rover grown).next := rfl

theorem rover_set (hdp : p.dp < p.tape.size) (value : Int) (grown : Nat) :
    { p with tape := ⟨p.tape.cells.set p.dp value⟩ }.rover grown = (p.rover grown).write value := by
  simp only [rover, Rover.write, Rover.mk.injEq, true_and]
  funext position
  show Tape.spread ⟨p.tape.cells.set p.dp value⟩ (position + grown) =
    if position = (p.dp : Int) - grown then value else p.tape.spread (position + grown)
  rw [Tape.spread_set hdp]
  by_cases hposition : position = (p.dp : Int) - grown
  · rw [if_pos hposition, if_pos (by omega)]
  · rw [if_neg hposition, if_neg (by omega)]

/-- At the left edge the head of the rover moves because its tape is seen from one cell further
    left. -/
theorem rover_moveLeft (p : Processor) (grown : Nat) :
    p.moveLeft.rover (grown + if p.dp = 0 then 1 else 0) =
      { p.rover grown with head := (p.rover grown).head - 1 } := by
  by_cases hdp : p.dp = 0
  · simp only [moveLeft, rover, hdp, if_true, Rover.mk.injEq, true_and]
    refine ⟨by omega, funext fun position => ?_⟩
    have hshift : position + ((grown + 1 : Nat) : Int) = position + grown + 1 := by omega
    rw [hshift, Tape.spread_growLeft]
  · simp only [moveLeft, rover, hdp, if_false, Rover.mk.injEq, true_and, and_true, Nat.add_zero]
    omega

theorem rover_moveRight (p : Processor) (grown : Nat) :
    p.moveRight.rover grown = { p.rover grown with head := (p.rover grown).head + 1 } := by
  by_cases hdp : p.dp + 1 = p.tape.size
  · simp only [moveRight, rover, hdp, if_true, Tape.spread_growRight, Rover.mk.injEq, true_and,
      and_true]
    omega
  · simp only [moveRight, rover, hdp, if_false, Rover.mk.injEq, true_and, and_true]
    omega

theorem growsLeft_of_op? {op : Op} (hop : p.op? = some op) :
    p.growsLeft.toNat = if op = .left ∧ p.dp = 0 then 1 else 0 := by
  unfold growsLeft
  rw [hop]
  by_cases hleft : op = .left
  · by_cases hdp : p.dp = 0 <;> simp [hleft, hdp]
  · simp [hleft]

/-- An update of the cell under the data pointer, seen from the rover. -/
theorem tape_update_eq_ok (hdp : p.dp < p.tape.size) (f : Int → Int) (grown : Nat) :
    p.tape.update f p.dp = .ok ⟨p.tape.cells.set p.dp (f (p.rover grown).value)⟩ := by
  rw [Tape.update_eq_ok_iff]
  exact ⟨_, Tape.read_eq_ok_iff.mp (value_rover hdp grown), rfl⟩

variable {κ σ : Type} [ByteSink κ] [ByteSource σ]

/-- A tick of a processor, seen without the edges of its tape, is a tick of a rover. -/
theorem tick_rover (hp : p.Sound) (grown : Nat) (channels : Channels κ σ) :
    (p.rover grown).tick channels =
      ⟨(p.tick channels).result, (p.tick channels).state.rover (grown + p.growsLeft.toNat),
        (p.tick channels).channels⟩ := by
  have hget : (p.rover grown).program.get? (p.rover grown).ip = p.op? := rfl
  have hdp := hp.dp_lt
  have hread := value_rover hdp grown
  unfold Rover.tick
  rw [hget]
  cases hop : p.op? with
  | none =>
    have hgrows : p.growsLeft.toNat = 0 := by simp [growsLeft, hop]
    have hidle : p.action = .idle := by rw [action, hop]
    rw [hgrows, tick, hidle]
    rfl
  | some op =>
    rw [growsLeft_of_op? hop, tick, action_of_op? hop]
    cases op with
    | increment =>
      simp only [perform, Tape.increment, tape_update_eq_ok hdp cellUp grown, carryOut,
        rover_next, rover_set hdp]
      rfl
    | decrement =>
      simp only [perform, Tape.decrement, tape_update_eq_ok hdp cellDown grown, carryOut,
        rover_next, rover_set hdp]
      rfl
    | left =>
      simp only [perform, carryOut, rover_next, true_and, rover_moveLeft]
    | right =>
      have hmove := rover_moveRight p grown
      simp only [perform, carryOut, rover_next, reduceCtorEq, false_and, if_false, Nat.add_zero,
        hmove]
    | loopStart =>
      have hclosing := closing_eq_target hp.consistent hop
      simp only [perform, hread]
      by_cases hzero : (p.rover grown).value = 0
      · simp only [hzero, if_true]
        have hsame : (p.rover grown).program.closingOf? (p.rover grown).ip =
            p.program.closingOf? p.ip := rfl
        rw [hclosing, hsame]
        cases p.program.closingOf? p.ip <;> rfl
      · simp only [hzero, if_false]
        rfl
    | loopEnd =>
      have hopening := opening_eq_target hp.consistent hop
      have hsame : (p.rover grown).program.openingOf? (p.rover grown).ip =
          p.program.openingOf? p.ip := rfl
      simp only [perform]
      rw [hopening, hsame]
      cases p.program.openingOf? p.ip <;> rfl
    | output =>
      simp only [perform, hread]
      cases byteOfCell (p.rover grown).value with
      | error fault => rfl
      | ok byte =>
        simp only [carryOut]
        cases ByteSink.put channels.sink (toAscii byte) with
        | mk result sink => cases result <;> rfl
    | input =>
      simp only [perform, carryOut]
      cases ByteSource.get channels.source with
      | mk result source =>
        cases result with
        | error fault => rfl
        | ok byte =>
          have hwrite : p.tape.write p.dp (toAscii byte).toNat =
              .ok ⟨p.tape.cells.set p.dp (toAscii byte).toNat⟩ :=
            Tape.write_eq_ok_iff.mpr ⟨hdp, toNat_le_cellMax _, rfl⟩
          simp only [store, hwrite, rover_next, rover_set hdp]
          rfl

end Processor

end TapeRing
