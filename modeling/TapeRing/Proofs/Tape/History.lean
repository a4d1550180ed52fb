import TapeRing.Proofs.Checked.Processor
import TapeRing.Proofs.Endless.Rover
import TapeRing.Proofs.InPlace.Processor

/-! # Histories of a tape

A history is a list of calls on a tape, some of which may fail. The address of a cell is its index
less the number of times that the tape has grown on the left, so it stays the same while the index
goes up. At each address there is what the changes made there have come to, whatever was done at
other addresses (`spread_after`), and so what the changes keep holds of all cells
(`forall_mem_cells_after`). -/

namespace TapeRing

/-- A change of the value of one cell. -/
inductive CellChange
  | write (value : Int)
  | increment
  | decrement
deriving DecidableEq, Repr

namespace CellChange

/-- The new value of a cell, from the old one. -/
def value : CellChange → Int → Int
  | .write value, _ => value
  | .increment, old => cellUp old
  | .decrement, old => cellDown old

/-- A change by which no value above 255 is written leads to no value above 256. -/
theorem value_le {change : CellChange} (hwrite : ∀ value, change = .write value → value ≤ cellMax)
    {old : Int} (h : old ≤ cellMax + 1) : change.value old ≤ cellMax + 1 := by
  cases change with
  | write value => exact Int.le_trans (hwrite value rfl) (by decide)
  | increment =>
    simp only [CellChange.value, cellUp]
    unfold cellMax at *
    split <;> omega
  | decrement =>
    simp only [CellChange.value, cellDown]
    unfold cellMax at *
    split <;> omega

/-- A change by which no value below `least` is written leads to none that is less. -/
theorem le_value {least : Int} (hleast : least ≤ 0) {change : CellChange}
    (hwrite : ∀ value, change = .write value → least ≤ value) {old : Int} (h : least ≤ old) :
    least ≤ change.value old := by
  cases change with
  | write value => exact hwrite value rfl
  | increment =>
    simp only [CellChange.value, cellUp]
    split <;> omega
  | decrement =>
    simp only [CellChange.value, cellDown]
    unfold cellMax
    split <;> omega

end CellChange

/-- A call on a tape. -/
inductive TapeCall
  | read (index : Nat)
  | change (index : Nat) (change : CellChange)
  | growLeft
  | growRight
deriving DecidableEq, Repr

/-- The index of the cell that a call addresses, if it addresses one. -/
def TapeCall.index? : TapeCall → Option Nat
  | .read index => some index
  | .change index _ => some index
  | .growLeft => none
  | .growRight => none

namespace Tape

/-- Changes a cell. -/
def change (t : Tape) (index : Nat) : CellChange → Except Fault Tape
  | .write value => t.write index value
  | .increment => t.increment index
  | .decrement => t.decrement index

/-- What a call gives back, and the tape after it. -/
def call (t : Tape) : TapeCall → Except Fault (Option Int) × Tape
  | .read index => ((t.read index).map some, t)
  | .change index change =>
      match t.change index change with
      | .ok t' => (.ok none, t')
      | .error fault => (.error fault, t)
  | .growLeft => (.ok none, t.growLeft)
  | .growRight => (.ok none, t.growRight)

/-- The tape after a number of calls. -/
def after (t : Tape) (calls : List TapeCall) : Tape :=
  calls.foldl (fun t call => (t.call call).2) t

/-- The changes that were made in a number of calls on a tape, without those that failed, each with
    the address where it was made. Before the calls the tape has grown on the left `grown` times. -/
def changes : (t : Tape) → (grown : Nat) → List TapeCall → List (Int × CellChange)
  | _, _, [] => []
  | t, grown, .read _ :: rest => changes t grown rest
  | t, grown, .change index change :: rest =>
      match t.change index change with
      | .ok t' => (index - grown, change) :: changes t' grown rest
      | .error _ => changes t grown rest
  | t, grown, .growLeft :: rest => changes t.growLeft (grown + 1) rest
  | t, grown, .growRight :: rest => changes t.growRight grown rest

/-- What a number of changes at one address come to. -/
def valueAt (address : Int) (changes : List (Int × CellChange)) (value : Int) : Int :=
  (changes.filter (·.1 = address)).foldl (fun value change => change.2.value value) value

/-! ## One call -/

variable {t : Tape}

theorem read_cases (t : Tape) (index : Nat) :
    t.size ≤ index ∧ t.read index = .error (.outOfBounds index t.size) ∨
      index < t.size ∧ t.read index = .ok (t.spread index) := by
  rcases Nat.lt_or_ge index t.size with hlt | hge
  · exact Or.inr ⟨hlt, read_eq_ok_iff.mpr (spread_of_lt hlt)⟩
  · have hnone : t.cells[index]? = none := List.getElem?_eq_none hge
    exact Or.inl ⟨hge, by simp only [read, hnone]⟩

/-- A change fails beyond the end of the tape and if too great a value is to be written, and it is
    made otherwise. -/
theorem change_cases (t : Tape) (index : Nat) (change : CellChange) :
    t.size ≤ index ∧ t.change index change = .error (.outOfBounds index t.size) ∨
      (∃ value, change = .write value ∧ index < t.size ∧ cellMax < value ∧
        t.change index change = .error (.valueOutOfRange value)) ∨
      index < t.size ∧ (∀ value, change = .write value → value ≤ cellMax) ∧
        t.change index change = .ok ⟨t.cells.set index (change.value (t.spread index))⟩ := by
  rcases Nat.lt_or_ge index t.size with hlt | hge
  · right
    have hcell := spread_of_lt hlt
    cases change with
    | write value =>
      by_cases hvalue : cellMax < value
      · refine Or.inl ⟨value, rfl, hlt, hvalue, ?_⟩
        simp only [Tape.change, write, if_neg (Nat.not_le.mpr hlt), if_pos hvalue]
      · have hle := Int.not_lt.mp hvalue
        refine Or.inr ⟨hlt, ?_, write_eq_ok_iff.mpr ⟨hlt, hle, rfl⟩⟩
        rintro _ ⟨⟩
        exact hle
    | increment => exact Or.inr ⟨hlt, nofun, update_eq_ok_iff.mpr ⟨_, hcell, rfl⟩⟩
    | decrement => exact Or.inr ⟨hlt, nofun, update_eq_ok_iff.mpr ⟨_, hcell, rfl⟩⟩
  · left
    have hnone : t.cells[index]? = none := List.getElem?_eq_none hge
    refine ⟨hge, ?_⟩
    cases change with
    | write value => simp only [Tape.change, write, if_pos hge]
    | increment => simp only [Tape.change, increment, update, hnone]
    | decrement => simp only [Tape.change, decrement, update, hnone]

/-- A call fails beyond the end of the tape and if too great a value is to be written, and it
    leaves the tape as it was then. -/
theorem call_cases (t : Tape) (call : TapeCall) :
    (∃ index, call.index? = some index ∧ t.size ≤ index ∧
        t.call call = (.error (.outOfBounds index t.size), t)) ∨
      (∃ index value, call = .change index (.write value) ∧ index < t.size ∧ cellMax < value ∧
        t.call call = (.error (.valueOutOfRange value), t)) ∨
      (∀ index, call.index? = some index → index < t.size) ∧
        (∀ index value, call = .change index (.write value) → value ≤ cellMax) ∧
        ∃ result t', t.call call = (.ok result, t') := by
  cases call with
  | read index =>
    rcases t.read_cases index with ⟨hge, heq⟩ | ⟨hlt, heq⟩
    · exact Or.inl ⟨index, rfl, hge, by rw [Tape.call, heq]; rfl⟩
    · refine Or.inr (Or.inr ⟨?_, nofun, _, t, by rw [Tape.call, heq]; rfl⟩)
      rintro _ ⟨⟩
      exact hlt
  | change index change =>
    rcases t.change_cases index change with
      ⟨hge, heq⟩ | ⟨value, rfl, hlt, hvalue, heq⟩ | ⟨hlt, hwrite, heq⟩
    · exact Or.inl ⟨index, rfl, hge, by rw [Tape.call, heq]⟩
    · exact Or.inr (Or.inl ⟨index, value, rfl, hlt, hvalue, by rw [Tape.call, heq]⟩)
    · refine Or.inr (Or.inr ⟨?_, ?_, none, _, by rw [Tape.call, heq]⟩)
      · rintro _ ⟨⟩
        exact hlt
      · rintro _ value ⟨⟩
        exact hwrite value rfl
  | growLeft => exact Or.inr (Or.inr ⟨nofun, nofun, none, t.growLeft, rfl⟩)
  | growRight => exact Or.inr (Or.inr ⟨nofun, nofun, none, t.growRight, rfl⟩)

theorem call_eq_error_iff (t : Tape) (call : TapeCall) (fault : Fault) :
    (t.call call).1 = .error fault ↔
      (∃ index, call.index? = some index ∧ t.size ≤ index ∧ fault = .outOfBounds index t.size) ∨
        ∃ index value, call = .change index (.write value) ∧ index < t.size ∧ cellMax < value ∧
          fault = .valueOutOfRange value := by
  constructor
  · intro hfails
    rcases t.call_cases call with
      ⟨index, hindex, hge, heq⟩ | ⟨index, value, hcall, hlt, hvalue, heq⟩ | ⟨-, -, _, _, heq⟩ <;>
      rw [heq] at hfails <;> cases hfails
    · exact Or.inl ⟨index, hindex, hge, rfl⟩
    · exact Or.inr ⟨index, value, hcall, hlt, hvalue, rfl⟩
  · rintro (⟨index, hindex, hge, rfl⟩ | ⟨index, value, rfl, hlt, hvalue, rfl⟩)
    · rcases t.call_cases call with
        ⟨other, hother, -, heq⟩ | ⟨other, _, rfl, hlt, -⟩ | ⟨hbelow, -⟩
      · obtain rfl := Option.some.inj (hindex.symm.trans hother)
        rw [heq]
      · obtain rfl := Option.some.inj hindex
        exact absurd hge (Nat.not_le.mpr hlt)
      · exact absurd hge (Nat.not_le.mpr (hbelow index hindex))
    · rcases t.call_cases (.change index (.write value)) with
        ⟨_, ⟨⟩, hge, -⟩ | ⟨_, _, ⟨⟩, -, -, heq⟩ | ⟨-, hle, -⟩
      · exact absurd hlt (Nat.not_lt.mpr hge)
      · rw [heq]
      · exact absurd hvalue (Int.not_lt.mpr (hle index value rfl))

theorem call_unchanged {call : TapeCall} {fault : Fault} (h : (t.call call).1 = .error fault) :
    (t.call call).2 = t := by
  rcases t.call_cases call with
    ⟨_, -, -, heq⟩ | ⟨_, _, -, -, -, heq⟩ | ⟨-, -, _, _, heq⟩ <;> rw [heq] at h ⊢
  cases h

/-! ## Calls in place -/

/-- The value of a cell that may be assigned to. -/
def slot (index : Nat) : Work Tape Int := do
  let t ← get
  Work.check (t.read index)

/-- Assigns to a cell. -/
def assign (index : Nat) (value : Int) : Work Tape Unit :=
  modify fun t => ⟨t.cells.set index value⟩

/-- Makes a call on a tape that is changed in place. -/
def callInPlace : TapeCall → Work Tape (Option Int)
  | .read index => do
      let value ← slot index
      pure (some value)
  | .change index (.write value) => do
      let _ ← slot index
      if cellMax < value then Work.check (.error (.valueOutOfRange value))
      assign index value
      pure none
  | .change index .increment => do
      let value ← slot index
      if cellMax < value then assign index 0 else assign index (value + 1)
      pure none
  | .change index .decrement => do
      let value ← slot index
      if value ≤ 0 then assign index cellMax else assign index (value - 1)
      pure none
  | .growLeft => do
      modify growLeft
      pure none
  | .growRight => do
      modify growRight
      pure none

@[simp] theorem on_slot (index : Nat) (t : Tape) : (slot index).on t = (t.read index, t) := by
  simp [slot]

@[simp] theorem on_assign (index : Nat) (value : Int) (t : Tape) :
    (assign index value).on t = (.ok (), ⟨t.cells.set index value⟩) := rfl

/-- No call assigns to the tape before the last of its checks. -/
theorem on_callInPlace (call : TapeCall) (t : Tape) : (callInPlace call).on t = t.call call := by
  cases call with
  | read index =>
    simp only [callInPlace, Work.on_bind, on_slot, Tape.call]
    cases t.read index <;> rfl
  | change index change =>
    rcases t.read_cases index with ⟨hge, hread⟩ | ⟨hlt, hread⟩
    · rcases t.change_cases index change with
        ⟨-, hchange⟩ | ⟨value, -, hlt, -⟩ | ⟨hlt, -⟩
      · cases change <;>
          simp only [callInPlace, Work.on_bind, on_slot, hread, Tape.call, hchange]
      · exact absurd hge (Nat.not_le.mpr hlt)
      · exact absurd hge (Nat.not_le.mpr hlt)
    · have hcell := spread_of_lt hlt
      cases change with
      | write value =>
        simp only [callInPlace, Work.on_bind, on_slot, hread, Tape.call, Tape.change, write,
          if_neg (Nat.not_le.mpr hlt)]
        by_cases hvalue : cellMax < value
        · rw [if_pos hvalue, if_pos hvalue]
          rfl
        · rw [if_neg hvalue, if_neg hvalue]
          rfl
      | increment =>
        simp only [callInPlace, Work.on_bind, on_slot, hread, Tape.call, Tape.change, increment,
          update, hcell, cellUp]
        by_cases hvalue : cellMax < t.spread index
        · rw [if_pos hvalue, if_pos hvalue]
          rfl
        · rw [if_neg hvalue, if_neg hvalue]
          rfl
      | decrement =>
        simp only [callInPlace, Work.on_bind, on_slot, hread, Tape.call, Tape.change, decrement,
          update, hcell, cellDown]
        by_cases hvalue : t.spread index ≤ 0
        · rw [if_pos hvalue, if_pos hvalue]
          rfl
        · rw [if_neg hvalue, if_neg hvalue]
          rfl
  | growLeft => rfl
  | growRight => rfl

/-! ## Whole histories -/

theorem size_after (calls : List TapeCall) : ∀ t : Tape,
    (t.after calls).size = t.size + calls.count .growLeft + calls.count .growRight := by
  induction calls with
  | nil => intro t; rfl
  | cons call calls ih =>
    intro t
    rw [after, List.foldl_cons, ← after, ih]
    cases call with
    | read index => simp [Tape.call]
    | change index change =>
      rcases t.change_cases index change with
        ⟨-, heq⟩ | ⟨value, -, -, -, heq⟩ | ⟨-, -, heq⟩ <;> simp [Tape.call, heq, size]
    | growLeft =>
      rw [Tape.call, size_growLeft, List.count_cons_self, List.count_cons_of_ne (by decide)]
      omega
    | growRight =>
      rw [Tape.call, size_growRight, List.count_cons_self, List.count_cons_of_ne (by decide)]
      omega

theorem valueAt_cons_self (address : Int) (change : CellChange)
    (changes : List (Int × CellChange)) (value : Int) :
    valueAt address ((address, change) :: changes) value =
      valueAt address changes (change.value value) := by
  simp [valueAt]

theorem valueAt_cons_of_ne {address other : Int} (h : other ≠ address) (change : CellChange)
    (changes : List (Int × CellChange)) (value : Int) :
    valueAt address ((other, change) :: changes) value = valueAt address changes value := by
  simp [valueAt, h]

/-- At every address, what there was at first and the changes made there decide what there is. -/
theorem spread_after (address : Int) (calls : List TapeCall) : ∀ (t : Tape) (grown : Nat),
    (t.after calls).spread (address + (grown + calls.count .growLeft : Nat)) =
      valueAt address (t.changes grown calls) (t.spread (address + grown)) := by
  induction calls with
  | nil => intro t grown; rfl
  | cons call calls ih =>
    intro t grown
    rw [after, List.foldl_cons, ← after]
    cases call with
    | read index => exact ih t grown
    | change index change =>
      simp only [Tape.call, changes]
      rcases t.change_cases index change with
        ⟨-, heq⟩ | ⟨value, -, -, -, heq⟩ | ⟨hlt, -, heq⟩ <;> simp only [heq]
      · exact ih t grown
      · exact ih t grown
      · have hrest := ih ⟨t.cells.set index (change.value (t.spread index))⟩ grown
        rw [spread_set hlt] at hrest
        by_cases haddress : address + grown = index
        · obtain rfl : address = index - grown := by omega
          rw [if_pos haddress] at hrest
          rw [valueAt_cons_self, haddress]
          exact hrest
        · rw [if_neg haddress] at hrest
          rw [valueAt_cons_of_ne (by omega)]
          exact hrest
    | growLeft =>
      have hrest := ih t.growLeft (grown + 1)
      have hshift : address + ((grown + 1 : Nat) : Int) = address + grown + 1 := by omega
      rw [hshift, spread_growLeft] at hrest
      rw [List.count_cons_self, ← Nat.add_assoc, Nat.add_right_comm]
      exact hrest
    | growRight =>
      have hrest := ih t.growRight grown
      rw [spread_growRight] at hrest
      exact hrest

/-- A tape that was fresh holds at every address what the changes there make of zero. -/
theorem cell_after_fresh (calls : List TapeCall) {index : Nat}
    (h : index < (fresh.after calls).size) :
    (fresh.after calls).cells[index]? =
      some (valueAt (index - (calls.count .growLeft : Nat)) (fresh.changes 0 calls) 0) := by
  have hspread := spread_after (index - (calls.count .growLeft : Nat)) calls fresh 0
  rw [Nat.zero_add, Int.sub_add_cancel, spread_fresh] at hspread
  rw [spread_of_lt h, hspread]

/-! ## Values in the cells -/

/-- What holds of a value, and is kept by each of some changes, holds of what they come to. -/
theorem valueAt_of (Holds : Int → Prop) (address : Int) :
    ∀ (changes : List (Int × CellChange)) (value : Int), Holds value →
      (∀ made ∈ changes, ∀ value, Holds value → Holds (made.2.value value)) →
      Holds (valueAt address changes value) := by
  intro changes
  induction changes with
  | nil => intro value hvalue _; exact hvalue
  | cons made changes ih =>
    intro value hvalue hkept
    obtain ⟨other, change⟩ := made
    have hrest := fun made hmem => hkept made (List.mem_cons_of_mem _ hmem)
    by_cases haddress : other = address
    · subst haddress
      rw [valueAt_cons_self]
      exact ih _ (hkept _ List.mem_cons_self value hvalue) hrest
    · rw [valueAt_cons_of_ne haddress]
      exact ih _ hvalue hrest

/-- Only values up to 255 have been written. -/
theorem le_of_write_mem_changes {address value : Int} (calls : List TapeCall) :
    ∀ (t : Tape) (grown : Nat), (address, .write value) ∈ t.changes grown calls →
      value ≤ cellMax := by
  induction calls with
  | nil => intro t grown hmem; cases hmem
  | cons call calls ih =>
    intro t grown hmem
    cases call with
    | read index => exact ih t grown hmem
    | change index change =>
      simp only [changes] at hmem
      rcases t.change_cases index change with
        ⟨-, heq⟩ | ⟨_, -, -, -, heq⟩ | ⟨-, hwrite, heq⟩ <;> simp only [heq] at hmem
      · exact ih t grown hmem
      · exact ih t grown hmem
      · rcases List.mem_cons.mp hmem with hhere | hlater
        · obtain ⟨-, rfl⟩ := Prod.mk.inj hhere
          exact hwrite value rfl
        · exact ih _ grown hlater
    | growLeft => exact ih _ _ hmem
    | growRight => exact ih _ _ hmem

/-- What holds of zero, and is kept by every change that has been made, holds of all cells. -/
theorem forall_mem_cells_after {Holds : Int → Prop} (calls : List TapeCall) (hzero : Holds 0)
    (hkept : ∀ made ∈ fresh.changes 0 calls, ∀ value, Holds value → Holds (made.2.value value)) :
    ∀ value ∈ (fresh.after calls).cells, Holds value := by
  intro value hmem
  obtain ⟨index, hlt, hget⟩ := List.mem_iff_getElem.mp hmem
  have hcell := cell_after_fresh calls hlt
  rw [List.getElem?_eq_getElem hlt, hget, Option.some.injEq] at hcell
  rw [hcell]
  exact valueAt_of Holds _ _ 0 hzero hkept

theorem le_of_mem_cells_after (calls : List TapeCall) :
    ∀ value ∈ (fresh.after calls).cells, value ≤ cellMax + 1 := by
  refine forall_mem_cells_after calls (by decide) ?_
  rintro ⟨address, change⟩ hmade old hold
  refine CellChange.value_le ?_ hold
  rintro value rfl
  exact le_of_write_mem_changes calls fresh 0 hmade

theorem ge_of_mem_cells_after {least : Int} (hleast : least ≤ 0) (calls : List TapeCall)
    (hwritten : ∀ address value, (address, .write value) ∈ fresh.changes 0 calls → least ≤ value) :
    ∀ value ∈ (fresh.after calls).cells, least ≤ value := by
  refine forall_mem_cells_after calls hleast ?_
  rintro ⟨address, change⟩ hmade old hold
  refine CellChange.le_value hleast ?_ hold
  rintro value rfl
  exact hwritten address value hmade

/-- Calls on a fresh tape, with any indices, in any order. At every moment the next call fails
    beyond the end of the tape and where a value above 255 is to be written, and never otherwise;
    when it fails, nothing has been assigned to the tape. There are as many cells as the tape has
    grown by, and one. Their values go up to 256, and they go below zero only if such a value has
    been written; while all that has been written has 32 bits, so has the outcome of the next
    increment or decrement. At each address there is what the changes that were made at that address
    come to, from zero. -/
theorem calls_on_fresh_tape (calls : List TapeCall) :
    let t := fresh.after calls
    let made := fresh.changes 0 calls
    (∀ call fault, (t.call call).1 = .error fault ↔
      (∃ index, call.index? = some index ∧ t.size ≤ index ∧ fault = .outOfBounds index t.size) ∨
        ∃ index value, call = .change index (.write value) ∧ index < t.size ∧ cellMax < value ∧
          fault = .valueOutOfRange value) ∧
    (∀ call, (callInPlace call).on t = t.call call) ∧
    (∀ call fault, (t.call call).1 = .error fault → ((callInPlace call).on t).2 = t) ∧
    t.size = 1 + calls.count .growLeft + calls.count .growRight ∧
    (∀ value ∈ t.cells, value ≤ cellMax + 1) ∧
    ((∀ address value, (address, .write value) ∈ made → 0 ≤ value) →
      ∀ value ∈ t.cells, 0 ≤ value) ∧
    ((∀ address value, (address, .write value) ∈ made → checkedCell value = some value) →
      ∀ index, t.checkedUpdate checkedUp index = some (t.increment index) ∧
        t.checkedUpdate checkedDown index = some (t.decrement index)) ∧
    ∀ index < t.size,
      t.read index = .ok (valueAt (index - (calls.count .growLeft : Nat)) made 0) := by
  intro t made
  refine ⟨t.call_eq_error_iff, fun call => on_callInPlace call t, ?_, size_after calls fresh,
    le_of_mem_cells_after calls, ge_of_mem_cells_after (Int.le_refl 0) calls, ?_, ?_⟩
  · intro call fault hfails
    rw [on_callInPlace]
    exact call_unchanged hfails
  · intro hwritten index
    have hleast := ge_of_mem_cells_after (by decide) calls fun address value hmade =>
      (checkedCell_eq_some_iff.mp (hwritten address value hmade)).1
    have hrange := fun value hmem =>
      And.intro (hleast value hmem) (le_of_mem_cells_after calls value hmem)
    exact ⟨checkedUpdate_eq_some (fun value hmem => checkedUp_eq_some (hrange value hmem)) index,
      checkedUpdate_eq_some (fun value hmem => checkedDown_eq_some (hrange value hmem)) index⟩
  · intro index hlt
    exact read_eq_ok_iff.mpr (cell_after_fresh calls hlt)

/-- The cell with the address 0 stands at index 1 in the end, and the writing of 256 has no part in
    what the other one holds. -/
example :
    let calls : List TapeCall := [.change 0 (.write (-5)), .growLeft, .change 0 (.write 255),
      .change 0 (.write 256), .change 0 .increment, .change 1 .increment]
    fresh.changes 0 calls =
        [(0, .write (-5)), (-1, .write 255), (-1, .increment), (0, .increment)] ∧
      (fresh.after calls).cells = [256, -4] := by
  decide

end Tape

end TapeRing
