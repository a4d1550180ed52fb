import Mathlib.Algebra.Group.Int.Defs
import TapeRing.Proofs.Processor.Sound

/-! # Checked ticks

The instructions once more, in machine words and 32-bit cells. A word may not exceed a limit, no
word is taken from a smaller one, and a cell may not leave its 32 bits: where such an operation
fails, the checked instruction comes to `none`. On a sound processor none fails
(`checkedTick_eq_some`). -/

namespace TapeRing

/-! ## Words and cells -/

/-- The sum of two words. -/
def checkedAdd (limit a b : Nat) : Option Nat :=
  if a + b ≤ limit then some (a + b) else none

/-- The difference of two words. -/
def checkedSub (a b : Nat) : Option Nat :=
  if b ≤ a then some (a - b) else none

/-- The remainder of two words. -/
def checkedMod (a b : Nat) : Option Nat :=
  if b = 0 then none else some (a % b)

/-- A value that a cell is to hold. -/
def checkedCell (value : Int) : Option Int :=
  if -2 ^ 31 ≤ value ∧ value < 2 ^ 31 then some value else none

theorem checkedAdd_eq_some {limit a b : Nat} (h : a + b ≤ limit) :
    checkedAdd limit a b = some (a + b) :=
  if_pos h

theorem checkedSub_eq_some {a b : Nat} (h : b ≤ a) : checkedSub a b = some (a - b) :=
  if_pos h

theorem checkedMod_eq_some {a b : Nat} (h : 0 < b) : checkedMod a b = some (a % b) :=
  if_neg (Nat.ne_of_gt h)

/-- The value after one increment. -/
def checkedUp (value : Int) : Option Int :=
  if cellMax < value then some 0 else checkedCell (value + 1)

/-- The value after one decrement. -/
def checkedDown (value : Int) : Option Int :=
  if value ≤ 0 then some cellMax else checkedCell (value - 1)

theorem checkedCell_eq_some_iff {value : Int} :
    checkedCell value = some value ↔ -2 ^ 31 ≤ value ∧ value < 2 ^ 31 := by
  unfold checkedCell
  split <;> simp_all

theorem checkedCell_eq_some {value : Int} (h : -2 ^ 31 ≤ value ∧ value ≤ cellMax + 2) :
    checkedCell value = some value := by
  apply checkedCell_eq_some_iff.mpr
  unfold cellMax at h
  omega

theorem checkedUp_eq_some {value : Int} (h : -2 ^ 31 ≤ value ∧ value ≤ cellMax + 1) :
    checkedUp value = some (cellUp value) := by
  unfold checkedUp cellUp
  split
  · rfl
  · exact checkedCell_eq_some (by omega)

theorem checkedDown_eq_some {value : Int} (h : -2 ^ 31 ≤ value ∧ value ≤ cellMax + 1) :
    checkedDown value = some (cellDown value) := by
  unfold checkedDown cellDown
  split
  · rfl
  · exact checkedCell_eq_some (by omega)

theorem CellValue.ranged {value : Int} (h : CellValue value) :
    -2 ^ 31 ≤ value ∧ value ≤ cellMax + 1 :=
  ⟨Int.le_trans (by decide) h.1, h.2⟩

/-- Applies a checked function to the value of a cell. -/
def Tape.checkedUpdate (f : Int → Option Int) (t : Tape) (index : Nat) :
    Option (Except Fault Tape) :=
  match t.cells[index]? with
  | some value => (f value).map fun value => .ok ⟨t.cells.set index value⟩
  | none => some (.error (.outOfBounds index t.size))

theorem Tape.checkedUpdate_eq_some {t : Tape} {f : Int → Option Int} {g : Int → Int}
    (h : ∀ value ∈ t.cells, f value = some (g value)) (index : Nat) :
    t.checkedUpdate f index = some (t.update g index) := by
  unfold Tape.checkedUpdate Tape.update
  cases hget : t.cells[index]? with
  | none => rfl
  | some value => simp only [h value (List.mem_of_getElem? hget), Option.map_some]

/-! ## Searching for brackets -/

/-- The search for a `]` that goes on behind `position`, where the instructions `rest` are left and
    `depth` brackets are open. There may be none, and an operation may fail before it is found. -/
def scanForward (limit : Nat) : (depth position : Nat) → (rest : List Op) → Option (Option Nat)
  | _, position, [] => (checkedAdd limit position 1).map fun _ => none
  | depth, position, op :: rest => do
      let position ← checkedAdd limit position 1
      match op with
      | .loopStart =>
          let depth ← checkedAdd limit depth 1
          scanForward limit depth position rest
      | .loopEnd =>
          let depth ← checkedSub depth 1
          if depth = 0 then some (some position) else scanForward limit depth position rest
      | _ => scanForward limit depth position rest

/-- The search for a `[` that goes on before a position, when `depth` brackets are open. -/
def scanBackward (limit : Nat) (program : Program) :
    (depth position : Nat) → Option (Option Nat)
  | _, 0 => some none
  | depth, position + 1 =>
      match program.get? position with
      | some .loopEnd => do
          let depth ← checkedAdd limit depth 1
          scanBackward limit program depth position
      | some .loopStart => do
          let depth ← checkedSub depth 1
          if depth = 0 then some (some position) else scanBackward limit program depth position
      | _ => scanBackward limit program depth position

/-- The counter of a search never exceeds the number of instructions that it has passed by more than
    it started with, and it never falls below one. -/
theorem scanForward_eq_some {limit : Nat} :
    ∀ (rest : List Op) (depth position : Nat),
      position + rest.length + 1 ≤ limit → depth + 1 + rest.length ≤ limit →
      scanForward limit (depth + 1) position rest =
        some ((seek .loopStart .loopEnd depth rest).map (position + 1 + ·)) := by
  intro rest
  induction rest with
  | nil =>
    intro depth position hposition _
    have hnext : checkedAdd limit position 1 = some (position + 1) :=
      checkedAdd_eq_some (by simpa using hposition)
    simp only [scanForward, hnext, seek, Option.map_some, Option.map_none]
  | cons op rest ih =>
    intro depth position hposition hdepth
    rw [List.length_cons] at hposition hdepth
    have hnext : checkedAdd limit position 1 = some (position + 1) :=
      checkedAdd_eq_some (by omega)
    have hshift : ∀ found : Option Nat,
        (found.map (· + 1)).map (position + 1 + ·) = found.map (position + 1 + 1 + ·) :=
      map_map_succ (by intro distance; omega)
    by_cases hclose : op = .loopEnd
    · subst hclose
      have hless : checkedSub (depth + 1) 1 = some depth := checkedSub_eq_some (by omega)
      cases depth with
      | zero =>
        rw [seek_partner_zero]
        simp [scanForward, hnext, hless]
      | succ depth =>
        have hrest := ih depth (position + 1) (by omega) (by omega)
        rw [seek_partner_succ, hshift]
        simp [scanForward, hnext, hless, hrest]
    by_cases hopen : op = .loopStart
    · subst hopen
      have hmore : checkedAdd limit (depth + 1) 1 = some (depth + 1 + 1) :=
        checkedAdd_eq_some (by omega)
      have hrest := ih (depth + 1) (position + 1) (by omega) (by omega)
      rw [seek_same _ _ (by decide), hshift]
      simp [scanForward, hnext, hmore, hrest]
    · have hrest := ih depth (position + 1) (by omega) (by omega)
      rw [seek_other _ _ hclose hopen, hshift]
      cases op <;> first | contradiction | simp [scanForward, hnext, hrest]

theorem scanBackward_eq_some {limit : Nat} {program : Program} :
    ∀ (position depth : Nat), position ≤ program.length → depth + 1 + position ≤ limit →
      scanBackward limit program (depth + 1) position =
        some ((seek .loopEnd .loopStart depth (program.ops.take position).reverse).map
          (position - 1 - ·)) := by
  intro position
  induction position with
  | zero =>
    intro depth _ _
    rfl
  | succ position ih =>
    intro depth hposition hdepth
    obtain ⟨op, hop⟩ : ∃ op, program.ops[position]? = some op :=
      ⟨_, List.getElem?_eq_getElem hposition⟩
    have hget : program.get? position = some op := hop
    have hshift : ∀ found : Option Nat,
        (found.map (· + 1)).map (position + 1 - 1 - ·) = found.map (position - 1 - ·) :=
      map_map_succ (by intro distance; omega)
    rw [reverse_take_succ hop]
    by_cases hopen : op = .loopStart
    · subst hopen
      have hless : checkedSub (depth + 1) 1 = some depth := checkedSub_eq_some (by omega)
      cases depth with
      | zero =>
        rw [seek_partner_zero]
        simp [scanBackward, hget, hless]
      | succ depth =>
        have hrest := ih depth (by omega) (by omega)
        rw [seek_partner_succ, hshift]
        simp [scanBackward, hget, hless, hrest]
    by_cases hclose : op = .loopEnd
    · subst hclose
      have hmore : checkedAdd limit (depth + 1) 1 = some (depth + 1 + 1) :=
        checkedAdd_eq_some (by omega)
      have hrest := ih (depth + 1) (by omega) (by omega)
      rw [seek_same _ _ (by decide), hshift]
      simp [scanBackward, hget, hmore, hrest]
    · have hrest := ih depth (by omega) (by omega)
      rw [seek_other _ _ hopen hclose, hshift]
      cases op <;> first | contradiction | simp [scanBackward, hget, hrest]

/-! ## Instructions -/

namespace Processor

/-- The partner of the `[` under the instruction pointer. -/
def checkedClosing (limit : Nat) (p : Processor) : Option (Except Fault Nat) :=
  match p.jumps with
  | some table => some (p.target .opening (table.partner p.ip))
  | none =>
      (scanForward limit 1 p.ip (p.program.ops.drop (p.ip + 1))).map (p.target .opening)

/-- The partner of the `]` under the instruction pointer. -/
def checkedOpening (limit : Nat) (p : Processor) : Option (Except Fault Nat) :=
  match p.jumps with
  | some table => some (p.target .closing (table.partner p.ip))
  | none => (scanBackward limit p.program 1 p.ip).map (p.target .closing)

/-- Goes on at an instruction with another tape, unless that could not be made. -/
def proceed (p : Processor) (ip : Nat) : Except Fault Tape → Action
  | .ok tape => .advance { p with tape := tape, ip := ip }
  | .error fault => .fail fault

/-- What an instruction asks for, when `after` is the place of the next one. -/
def checkedPerform (limit : Nat) (p : Processor) (after : Nat) : Op → Option Action
  | .increment => (p.tape.checkedUpdate checkedUp p.dp).map (p.proceed after)
  | .decrement => (p.tape.checkedUpdate checkedDown p.dp).map (p.proceed after)
  | .left =>
      if p.dp = 0 then some (.advance { p with tape := p.tape.growLeft, ip := after })
      else do
        let dp ← checkedSub p.dp 1
        some (.advance { p with dp := dp, ip := after })
  | .right => do
      -- Only memory bounds the data pointer, which stays on the tape.
      let last ← checkedSub p.tape.size 1
      let tape := if p.dp = last then p.tape.growRight else p.tape
      some (.advance { p with tape := tape, dp := p.dp + 1, ip := after })
  | .loopStart =>
      match p.tape.read p.dp with
      | .error fault => some (.fail fault)
      | .ok value =>
          if value = 0 then do
            match ← p.checkedClosing limit with
            | .ok position =>
                let after ← checkedAdd limit position 1
                some (.advance { p with ip := after })
            | .error fault => some (.fail fault)
          else some (.advance { p with ip := after })
  | .loopEnd => do
      match ← p.checkedOpening limit with
      | .ok position => some (.advance { p with ip := position })
      | .error fault => some (.fail fault)
  | .output =>
      match p.tape.read p.dp with
      | .error fault => some (.fail fault)
      | .ok value =>
          match byteOfCell value with
          | .ok byte => some (.emit (toAscii byte) { p with ip := after })
          | .error fault => some (.fail fault)
  | .input =>
      some (.receive fun byte =>
        (p.tape.write p.dp (toAscii byte).toNat).map fun tape =>
          { p with tape := tape, ip := after })

/-- What the instruction under the instruction pointer asks for. -/
def checkedAction (limit : Nat) (p : Processor) : Option Action :=
  match p.op? with
  | none => some .idle
  | some op => do
      let after ← checkedAdd limit p.ip 1
      p.checkedPerform limit after op

variable {p : Processor} {limit : Nat}

theorem checkedClosing_eq_some (hop : p.op? = some .loopStart) (hlimit : p.program.length ≤ limit) :
    p.checkedClosing limit = some p.closing := by
  have hip := ip_lt_of_op? hop
  have hlength : (p.program.ops.drop (p.ip + 1)).length = p.program.length - (p.ip + 1) :=
    List.length_drop
  unfold checkedClosing closing
  cases p.jumps with
  | some table => rfl
  | none =>
    simp only
    rw [scanForward_eq_some _ 0 p.ip (by omega) (by omega)]
    rfl

theorem checkedOpening_eq_some (hop : p.op? = some .loopEnd) (hlimit : p.program.length ≤ limit) :
    p.checkedOpening limit = some p.opening := by
  have hip := ip_lt_of_op? hop
  unfold checkedOpening opening
  cases p.jumps with
  | some table => rfl
  | none =>
    simp only
    rw [scanBackward_eq_some p.ip 0 (by omega) (by omega)]
    rfl

/-- No operation of an instruction fails. -/
theorem checkedPerform_eq_some (hp : p.Sound) {op : Op} (hop : p.op? = some op)
    (hlimit : p.program.length ≤ limit) :
    p.checkedPerform limit (p.ip + 1) op = some (p.perform op) := by
  have hdp := hp.dp_lt
  cases op with
  | increment =>
    have hupdate := Tape.checkedUpdate_eq_some
      (fun value hmem => checkedUp_eq_some (hp.bounded value hmem).ranged) p.dp
    simp only [checkedPerform, hupdate, perform, Tape.increment, Option.map_some]
    cases p.tape.update cellUp p.dp <;> rfl
  | decrement =>
    have hupdate := Tape.checkedUpdate_eq_some
      (fun value hmem => checkedDown_eq_some (hp.bounded value hmem).ranged) p.dp
    simp only [checkedPerform, hupdate, perform, Tape.decrement, Option.map_some]
    cases p.tape.update cellDown p.dp <;> rfl
  | left =>
    simp only [checkedPerform, perform, moveLeft, next]
    by_cases hzero : p.dp = 0
    · simp only [hzero, if_true]
    · have hless : checkedSub p.dp 1 = some (p.dp - 1) := checkedSub_eq_some (by omega)
      simp only [hzero, if_false, hless]
      rfl
  | right =>
    have hless : checkedSub p.tape.size 1 = some (p.tape.size - 1) := checkedSub_eq_some (by omega)
    simp only [checkedPerform, hless, perform, moveRight, next]
    by_cases hlast : p.dp + 1 = p.tape.size
    · have hlast' : p.dp = p.tape.size - 1 := by omega
      simp [hlast, ← hlast']
    · have hlast' : ¬ p.dp = p.tape.size - 1 := by omega
      simp [hlast, hlast']
  | loopStart =>
    simp only [checkedPerform, perform, checkedClosing_eq_some hop hlimit]
    cases p.tape.read p.dp with
    | error fault => rfl
    | ok value =>
      by_cases hzero : value = 0
      · simp only [hzero, if_true]
        cases hclosing : p.closing with
        | error fault => rfl
        | ok position =>
          have hmatched := (closing_eq_ok_iff hp.consistent hop).mp hclosing
          have hposition := lt_length_of_matched hmatched
          have hmore : checkedAdd limit position 1 = some (position + 1) :=
            checkedAdd_eq_some (by omega)
          simp [hmore]
      · simp only [hzero, if_false]
        rfl
  | loopEnd =>
    simp only [checkedPerform, perform, checkedOpening_eq_some hop hlimit]
    cases p.opening <;> rfl
  | output =>
    simp only [checkedPerform, perform]
    cases p.tape.read p.dp with
    | error fault => rfl
    | ok value =>
      simp only
      cases byteOfCell value <;> rfl
  | input =>
    simp only [checkedPerform, perform, Option.some.injEq, Action.receive.injEq]
    funext byte
    unfold store
    cases p.tape.write p.dp (toAscii byte).toNat <;> rfl

theorem checkedAction_eq_some (hp : p.Sound) (hlimit : p.program.length ≤ limit) :
    p.checkedAction limit = some p.action := by
  unfold checkedAction
  cases hop : p.op? with
  | none => rw [action, hop]
  | some op =>
    have hip := ip_lt_of_op? hop
    have hafter : checkedAdd limit p.ip 1 = some (p.ip + 1) := checkedAdd_eq_some (by omega)
    have hperform := checkedPerform_eq_some hp hop hlimit
    simp only [hafter, action_of_op? hop]
    exact hperform

variable {κ σ : Type} [ByteSink κ] [ByteSource σ]

/-- Executes the instruction under the instruction pointer. -/
def checkedTick (limit : Nat) (p : Processor) (channels : Channels κ σ) :
    Option (Outcome Unit Processor κ σ) :=
  (p.checkedAction limit).map (p.carryOut channels)

theorem checkedTick_eq_some (hp : p.Sound) (hlimit : p.program.length ≤ limit)
    (channels : Channels κ σ) : p.checkedTick limit channels = some (p.tick channels) := by
  rw [checkedTick, checkedAction_eq_some hp hlimit, Option.map_some, tick]

end Processor

end TapeRing
