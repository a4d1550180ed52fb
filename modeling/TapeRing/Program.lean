import TapeRing.Op

/-! # Programs

A program is the sequence of instructions of a source text, comments left out. The text of a
program is the sequence of its instruction characters, and reading that text gives the program
back (`parse_text`). -/

namespace TapeRing

/-- A sequence of instructions. -/
structure Program where
  ops : List Op
deriving DecidableEq, Repr

namespace Program

/-- The instructions among the characters of a source text, in order. -/
def parse (source : String) : Program :=
  ⟨source.toList.filterMap Op.ofChar?⟩

/-- The number of instructions. -/
def length (p : Program) : Nat := p.ops.length

/-- The instruction at an index, if the program reaches that far. -/
def get? (p : Program) (index : Nat) : Option Op := p.ops[index]?

/-- The instruction characters of a program. -/
def text (p : Program) : String :=
  String.ofList (p.ops.map Op.toChar)

theorem filterMap_ofChar?_map_toChar (ops : List Op) :
    (ops.map Op.toChar).filterMap Op.ofChar? = ops := by
  induction ops with
  | nil => rfl
  | cons op ops ih => simp [Op.ofChar?_toChar, ih]

/-- Reading the text of a program gives the program back. -/
theorem parse_text (p : Program) : parse p.text = p := by
  simp only [parse, text, String.toList_ofList, filterMap_ofChar?_map_toChar]

/-- A source text has an instruction iff it has its character. -/
theorem mem_ops_parse_iff {source : String} {op : Op} :
    op ∈ (parse source).ops ↔ op.toChar ∈ source.toList := by
  simp only [parse, List.mem_filterMap, Op.ofChar?_eq_some_iff, exists_eq_right']

theorem get?_eq_none_iff {p : Program} {index : Nat} :
    p.get? index = none ↔ p.length ≤ index := by
  simp [get?, length]

end Program

/-! ## Walking along a list -/

section Walk

variable {α : Type} {xs rest : List α} {x : α} {index : Nat}

theorem getElem?_of_drop (h : xs.drop index = x :: rest) : xs[index]? = some x := by
  rw [← List.head?_drop, h, List.head?_cons]

theorem drop_succ_of_drop (h : xs.drop index = x :: rest) : xs.drop (index + 1) = rest := by
  rw [← List.drop_drop, h, List.drop_one, List.tail_cons]

theorem reverse_take_succ (h : xs[index]? = some x) :
    (xs.take (index + 1)).reverse = x :: (xs.take index).reverse := by
  rw [List.take_add_one, h, Option.toList_some, List.reverse_append, List.reverse_singleton,
    List.singleton_append]

end Walk

end TapeRing
