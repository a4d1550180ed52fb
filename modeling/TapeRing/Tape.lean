import TapeRing.Fault

/-! # Tapes

A tape is a row of cells that starts as one zero cell and grows by zero cells on either side.
Cells are addressed from the left end, so growing on the left moves every cell one index up.

Incrementing wraps only above 255, so a cell can hold 256; decrementing wraps at 0 to 255.
Writing refuses values above 255 and lets negative ones through. -/

namespace TapeRing

/-- The greatest value that can be written to a cell. -/
def cellMax : Int := 255

/-- The value after one increment: one more, or 0 for a value above 255. -/
def cellUp (value : Int) : Int :=
  if cellMax < value then 0 else value + 1

/-- The value after one decrement: one less, or 255 for a value that is not positive. -/
def cellDown (value : Int) : Int :=
  if value ≤ 0 then cellMax else value - 1

/-- A row of cells. -/
structure Tape where
  cells : List Int
deriving DecidableEq, Repr

namespace Tape

/-- The tape every processor starts with. -/
def fresh : Tape := ⟨[0]⟩

/-- The number of cells. -/
def size (t : Tape) : Nat := t.cells.length

/-- The value of a cell. -/
def read (t : Tape) (index : Nat) : Except Fault Int :=
  match t.cells[index]? with
  | some value => .ok value
  | none => .error (.outOfBounds index t.size)

/-- Replaces the value of a cell. The cell is looked for before the value is judged. -/
def write (t : Tape) (index : Nat) (value : Int) : Except Fault Tape :=
  if t.size ≤ index then .error (.outOfBounds index t.size)
  else if cellMax < value then .error (.valueOutOfRange value)
  else .ok ⟨t.cells.set index value⟩

/-- Applies a function to the value of a cell. -/
def update (f : Int → Int) (t : Tape) (index : Nat) : Except Fault Tape :=
  match t.cells[index]? with
  | some value => .ok ⟨t.cells.set index (f value)⟩
  | none => .error (.outOfBounds index t.size)

/-- Increments a cell. -/
def increment : Tape → Nat → Except Fault Tape := update cellUp

/-- Decrements a cell. -/
def decrement : Tape → Nat → Except Fault Tape := update cellDown

/-- Adds a zero cell on the left. -/
def growLeft (t : Tape) : Tape := ⟨0 :: t.cells⟩

/-- Adds a zero cell on the right. -/
def growRight (t : Tape) : Tape := ⟨t.cells ++ [0]⟩

@[simp] theorem size_growLeft (t : Tape) : t.growLeft.size = t.size + 1 := by
  simp [growLeft, size]

@[simp] theorem size_growRight (t : Tape) : t.growRight.size = t.size + 1 := by
  simp [growRight, size]

theorem read_eq_ok_iff {t : Tape} {index : Nat} {value : Int} :
    t.read index = .ok value ↔ t.cells[index]? = some value := by
  unfold read
  split <;> simp_all

theorem size_of_write_eq_ok {t t' : Tape} {index : Nat} {value : Int}
    (h : t.write index value = .ok t') : t'.size = t.size := by
  unfold write at h
  split at h
  · cases h
  · split at h
    · cases h
    · cases h; simp [size]

theorem size_of_update_eq_ok {f : Int → Int} {t t' : Tape} {index : Nat}
    (h : t.update f index = .ok t') : t'.size = t.size := by
  unfold update at h
  split at h
  · cases h; simp [size]
  · cases h

end Tape

end TapeRing
