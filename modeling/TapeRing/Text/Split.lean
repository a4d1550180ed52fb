/-! # Splitting text

A text is split at every occurrence of a character. The parts, joined by that character, give the
text back (`join_splitChars`). -/

namespace TapeRing

/-- The parts of a row of characters between the occurrences of a separator. -/
def splitChars (separator : Char) : List Char → List (List Char)
  | [] => [[]]
  | c :: cs =>
      if c = separator then [] :: splitChars separator cs
      else
        match splitChars separator cs with
        | [] => [[c]]
        | part :: parts => (c :: part) :: parts

/-- The parts of a text between the occurrences of a separator, empty parts left out. -/
def splitParts (separator : Char) (text : String) : List String :=
  ((splitChars separator text.toList).filter (fun part => !part.isEmpty)).map String.ofList

theorem splitChars_ne_nil (separator : Char) (cs : List Char) : splitChars separator cs ≠ [] := by
  cases cs with
  | nil => simp [splitChars]
  | cons c cs =>
    unfold splitChars
    split
    · simp
    · split <;> simp

/-- The parts, joined by the separator, give the text back. -/
theorem join_splitChars (separator : Char) (cs : List Char) :
    [separator].intercalate (splitChars separator cs) = cs := by
  induction cs with
  | nil => rfl
  | cons c cs ih =>
    have hne := splitChars_ne_nil separator cs
    unfold splitChars
    cases hparts : splitChars separator cs with
    | nil => exact absurd hparts hne
    | cons part parts =>
      rw [hparts] at ih
      split
      · rename_i h
        cases parts <;> simp_all [List.intercalate, List.intersperse]
      · cases parts <;> simp_all [List.intercalate, List.intersperse]

end TapeRing
