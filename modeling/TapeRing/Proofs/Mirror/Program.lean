import TapeRing.Bracket
import TapeRing.Dealing

/-! # Mirrored programs

The mirror image of a source text has a `<` for every `>` and a `>` for every `<`. It stands for the
mirrored instructions (`parse_mirrorText`), which are dealt in the same way (`part_mirror`) and
whose brackets have the same partners, found by searching or in a table (`closingOf?_mirror`,
`openingOf?_mirror`, `build_mirror`). -/

namespace TapeRing

/-- Left and right exchanged. -/
def mirrorChar (c : Char) : Char :=
  if c = '<' then '>' else if c = '>' then '<' else c

/-- Every `<` of a text replaced by `>` and every `>` by `<`. -/
def mirrorText (source : String) : String :=
  String.ofList (source.toList.map mirrorChar)

/-- Left and right exchanged. -/
def Op.mirror : Op → Op
  | .left => .right
  | .right => .left
  | op => op

theorem Op.ofChar?_mirrorChar (c : Char) : ofChar? (mirrorChar c) = (ofChar? c).map mirror := by
  by_cases hleft : c = '<'
  · subst hleft
    rfl
  · by_cases hright : c = '>'
    · subst hright
      rfl
    · rw [mirrorChar, if_neg hleft, if_neg hright]
      cases hop : ofChar? c with
      | none => rfl
      | some op =>
        have hchar := ofChar?_eq_some_iff.mp hop
        cases op with
        | left => exact absurd hchar.symm hleft
        | right => exact absurd hchar.symm hright
        | _ => rfl

theorem Op.mirror_eq_loopStart_iff (op : Op) : op.mirror = .loopStart ↔ op = .loopStart := by
  cases op <;> simp [mirror]

theorem Op.mirror_eq_loopEnd_iff (op : Op) : op.mirror = .loopEnd ↔ op = .loopEnd := by
  cases op <;> simp [mirror]

theorem everyNth_map {α β : Type} (f : α → β) (n : Nat) (xs : List α) :
    ∀ skip : Nat, everyNth n skip (xs.map f) = (everyNth n skip xs).map f := by
  induction xs with
  | nil => intro skip; simp [everyNth]
  | cons x xs ih =>
    intro skip
    cases skip with
    | zero => simp [everyNth, ih]
    | succ skip => simp [everyNth, ih]

/-- A search does not see instructions of other kinds. -/
theorem seek_map_mirror {same partner : Op} (hsame : ∀ op : Op, op.mirror = same ↔ op = same)
    (hpartner : ∀ op : Op, op.mirror = partner ↔ op = partner) (ops : List Op) :
    ∀ depth : Nat, seek same partner depth (ops.map Op.mirror) = seek same partner depth ops := by
  induction ops with
  | nil => intro depth; rfl
  | cons op ops ih =>
    intro depth
    rw [List.map_cons]
    unfold seek
    simp only [hsame, hpartner, ih]

theorem pairs_map_mirror (ops : List Op) : ∀ (position : Nat) (waiting : List Nat),
    pairs position waiting (ops.map Op.mirror) = pairs position waiting ops := by
  induction ops with
  | nil => intro position waiting; rfl
  | cons op ops ih =>
    intro position waiting
    cases op with
    | loopEnd => cases waiting <;> simp [Op.mirror, pairs, ih]
    | _ => simp [Op.mirror, pairs, ih]

namespace Program

/-- The program with left and right exchanged. -/
def mirror (p : Program) : Program :=
  ⟨p.ops.map Op.mirror⟩

theorem parse_mirrorText (source : String) : parse (mirrorText source) = (parse source).mirror := by
  simp only [parse, mirror, mirrorText, String.toList_ofList, List.filterMap_map,
    List.map_filterMap]
  congr 2
  funext c
  exact Op.ofChar?_mirrorChar c

@[simp] theorem length_mirror (p : Program) : p.mirror.length = p.length :=
  List.length_map _

theorem get?_mirror (p : Program) (index : Nat) :
    p.mirror.get? index = (p.get? index).map Op.mirror :=
  List.getElem?_map

theorem part_mirror (p : Program) (count index : Nat) :
    p.mirror.part count index = (p.part count index).mirror := by
  rw [part, mirror, everyNth_map]
  rfl

theorem closingOf?_mirror (p : Program) (position : Nat) :
    p.mirror.closingOf? position = p.closingOf? position := by
  rw [closingOf?, mirror, ← List.map_drop,
    seek_map_mirror Op.mirror_eq_loopStart_iff Op.mirror_eq_loopEnd_iff]
  rfl

theorem openingOf?_mirror (p : Program) (position : Nat) :
    p.mirror.openingOf? position = p.openingOf? position := by
  rw [openingOf?, mirror, ← List.map_take, ← List.map_reverse,
    seek_map_mirror Op.mirror_eq_loopEnd_iff Op.mirror_eq_loopStart_iff]
  rfl

theorem build_mirror (p : Program) : JumpTable.build p.mirror = JumpTable.build p := by
  rw [JumpTable.build, length_mirror, mirror, pairs_map_mirror]
  rfl

end Program

end TapeRing
