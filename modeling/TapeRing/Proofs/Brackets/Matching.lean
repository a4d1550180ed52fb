import TapeRing.Bracket

/-! # Matching brackets

The level at a position is the number of `[` before it less the number of `]` before it. A `[` and
a later `]` match when the level between them does not fall below the level inside the `[` and has
come back to it at the `]`. The two searches find exactly the matching brackets
(`closingOf?_eq_some_iff`, `openingOf?_eq_some_iff`). -/

namespace TapeRing

/-- The number of `[` less the number of `]`. -/
def level (ops : List Op) : Int :=
  (ops.count .loopStart : Int) - ops.count .loopEnd

/-- The level at a position of a list of instructions. -/
def levelAt (ops : List Op) (position : Nat) : Int :=
  level (ops.take position)

@[simp] theorem level_nil : level [] = 0 := rfl

theorem level_append (ops more : List Op) : level (ops ++ more) = level ops + level more := by
  simp only [level, List.count_append]
  omega

/-- How much an instruction raises the level. -/
def Op.rise : Op → Int
  | .loopStart => 1
  | .loopEnd => -1
  | _ => 0

theorem level_cons (op : Op) (ops : List Op) : level (op :: ops) = op.rise + level ops := by
  cases op <;> simp [level, Op.rise] <;> omega

theorem levelAt_succ {ops : List Op} {position : Nat} {op : Op} (h : ops[position]? = some op) :
    levelAt ops (position + 1) = levelAt ops position + op.rise := by
  have hop : level [op] = op.rise := by rw [level_cons, level_nil]; omega
  rw [levelAt, List.take_add_one, h, level_append]
  simp only [Option.toList_some, hop, levelAt]

theorem levelAt_add (ops : List Op) (position count : Nat) :
    levelAt ops (position + count) =
      levelAt ops position + level ((ops.drop position).take count) := by
  rw [levelAt, List.take_add, level_append, levelAt]

/-- The `[` at `start` opens the innermost loop around a later position. -/
structure InsideLoop (ops : List Op) (start position : Nat) : Prop where
  lt : start < position
  opens : ops[start]? = some .loopStart
  level_eq : levelAt ops position = levelAt ops (start + 1)
  le_level : ∀ k, start < k → k ≤ position → levelAt ops (start + 1) ≤ levelAt ops k

/-- The brackets at two positions belong to each other. -/
structure Matched (ops : List Op) (start stop : Nat) : Prop extends InsideLoop ops start stop where
  closes : ops[stop]? = some .loopEnd

namespace Matched

variable {ops : List Op} {start start' stop stop' : Nat}

/-- No bracket opens two loops. -/
theorem stop_unique (h : Matched ops start stop) (h' : Matched ops start stop') :
    stop = stop' := by
  -- After the earlier `]` the level is below that inside the `[`.
  have hle : ∀ {a b : Nat}, Matched ops start a → Matched ops start b → b ≤ a := by
    intro a b ha hb
    apply Nat.le_of_not_lt
    intro hlt
    have hdown : levelAt ops (a + 1) = levelAt ops a - 1 := by
      rw [levelAt_succ ha.closes]; rfl
    have hup := hb.le_level (a + 1) (by have := ha.lt; omega) (by omega)
    rw [hdown, ha.level_eq] at hup
    omega
  exact Nat.le_antisymm (hle h' h) (hle h h')

/-- No bracket closes two loops. -/
theorem start_unique (h : Matched ops start stop) (h' : Matched ops start' stop) :
    start = start' := by
  -- Before the later `[` the level is below that inside it.
  have hle : ∀ {a b : Nat}, Matched ops a stop → Matched ops b stop → b ≤ a := by
    intro a b ha hb
    apply Nat.le_of_not_lt
    intro hlt
    have hup : levelAt ops (b + 1) = levelAt ops b + 1 := levelAt_succ hb.opens
    have hlow := ha.le_level b (by omega) (by have := hb.lt; omega)
    rw [← ha.level_eq, hb.level_eq, hup] at hlow
    omega
  exact Nat.le_antisymm (hle h' h) (hle h h')

end Matched

section Seek

variable {same partner : Op} (depth : Nat) (rest : List Op)

theorem seek_partner_zero : seek same partner 0 (partner :: rest) = some 0 := by
  simp [seek]

theorem seek_partner_succ :
    seek same partner (depth + 1) (partner :: rest) =
      (seek same partner depth rest).map (· + 1) := by
  simp [seek]

theorem seek_same (hne : same ≠ partner) :
    seek same partner depth (same :: rest) = (seek same partner (depth + 1) rest).map (· + 1) := by
  simp [seek, hne]

theorem seek_other {op : Op} (hpartner : op ≠ partner) (hsame : op ≠ same) :
    seek same partner depth (op :: rest) = (seek same partner depth rest).map (· + 1) := by
  simp [seek, hpartner, hsame]

end Seek

/-- A distance that is counted from the next place instead. -/
theorem map_map_succ {f g : Nat → Nat} (h : ∀ distance, f (distance + 1) = g distance)
    (found : Option Nat) : (found.map (· + 1)).map f = found.map g := by
  rw [Option.map_map]
  congr 1
  funext distance
  exact h distance

/-- What a search finds: the first bracket `partner` before which as many brackets `partner` as
    brackets `same` have been passed, `depth` of the latter having been passed in advance. -/
theorem seek_eq_some_iff {same partner : Op} (hne : same ≠ partner) :
    ∀ (ops : List Op) (depth found : Nat),
      seek same partner depth ops = some found ↔
        ops[found]? = some partner ∧
          (ops.take found).count partner = depth + (ops.take found).count same ∧
          ∀ k < found + 1, (ops.take k).count partner ≤ depth + (ops.take k).count same := by
  intro ops
  induction ops with
  | nil => intro depth found; simp [seek]
  | cons op rest ih =>
    intro depth found
    rw [Nat.forall_lt_succ_left]
    unfold seek
    by_cases hpartner : op = partner
    · subst hpartner
      cases depth with
      | zero =>
        cases found with
        | zero => simp
        | succ found =>
          -- The search ends here, and further on there is one `partner` too many.
          simp only [if_true, Option.some.injEq, Nat.zero_ne_add_one, false_iff]
          rintro ⟨-, -, -, hle⟩
          have := hle 0 (Nat.succ_pos found)
          simp [hne.symm] at this
      | succ depth =>
        cases found with
        | zero => simp
        | succ found => simp [ih, hne.symm, Nat.add_right_comm depth 1]
    · by_cases hsame : op = same
      · subst hsame
        cases found with
        | zero => simp [hne]
        | succ found => simp [ih, hne, Nat.add_right_comm depth 1, Nat.add_assoc]
      · cases found with
        | zero => simp [hpartner, hsame]
        | succ found => simp [ih, hpartner, hsame]

/-- The search forward from a `[` finds the `]` that matches it, and nothing if there is none. -/
theorem closingOf?_eq_some_iff {p : Program} {start stop : Nat}
    (hopen : p.ops[start]? = some .loopStart) :
    p.closingOf? start = some stop ↔ Matched p.ops start stop := by
  -- Where the search stands is the level, seen from inside the `[`.
  have hpassed : ∀ k, levelAt p.ops (start + 1 + k) - levelAt p.ops (start + 1) =
      ((p.ops.drop (start + 1)).take k).count Op.loopStart -
        ((p.ops.drop (start + 1)).take k).count Op.loopEnd := by
    intro k
    rw [levelAt_add, level]
    omega
  simp only [Program.closingOf?, Option.map_eq_some_iff,
    seek_eq_some_iff (show Op.loopStart ≠ Op.loopEnd by decide), List.getElem?_drop, Nat.zero_add]
  constructor
  · rintro ⟨found, ⟨hclose, hlevel, hle⟩, rfl⟩
    refine ⟨⟨by omega, hopen, ?_, ?_⟩, hclose⟩
    · have := hpassed found
      omega
    · intro position hlt hposition
      have hk := hpassed (position - (start + 1))
      have := hle (position - (start + 1)) (by omega)
      rw [Nat.add_sub_cancel' (by omega)] at hk
      omega
  · intro h
    have hlt := h.lt
    refine ⟨stop - (start + 1), ⟨?_, ?_, ?_⟩, by omega⟩
    · rw [Nat.add_sub_cancel' (by omega)]
      exact h.closes
    · have hk := hpassed (stop - (start + 1))
      rw [Nat.add_sub_cancel' (by omega), h.level_eq] at hk
      omega
    · intro k hk
      have := hpassed k
      have := h.le_level (start + 1 + k) (by omega) (by omega)
      omega

/-- The search backward from a `]` finds the `[` that matches it, and nothing if there is none. -/
theorem openingOf?_eq_some_iff {p : Program} {start stop : Nat}
    (hclose : p.ops[stop]? = some .loopEnd) :
    p.openingOf? stop = some start ↔ Matched p.ops start stop := by
  have hstop : stop < p.ops.length := (List.getElem?_eq_some_iff.mp hclose).1
  have hpassed : ∀ k ≤ stop, levelAt p.ops stop - levelAt p.ops (stop - k) =
      ((p.ops.take stop).reverse.take k).count Op.loopStart -
        ((p.ops.take stop).reverse.take k).count Op.loopEnd := by
    intro k hk
    have hlevel := levelAt_add p.ops (stop - k) k
    rw [Nat.sub_add_cancel hk, List.take_drop, Nat.sub_add_cancel hk] at hlevel
    rw [List.take_reverse, List.length_take_of_le (Nat.le_of_lt hstop), List.count_reverse,
      List.count_reverse, hlevel, level]
    omega
  have hlength : (p.ops.take stop).reverse.length = stop := by
    rw [List.length_reverse, List.length_take_of_le (Nat.le_of_lt hstop)]
  have hat : ∀ k < stop, (p.ops.take stop).reverse[k]? = p.ops[stop - 1 - k]? := by
    intro k hk
    rw [List.length_reverse] at hlength
    rw [List.getElem?_reverse (by omega), hlength, List.getElem?_take_of_lt (by omega)]
  simp only [Program.openingOf?, Option.map_eq_some_iff,
    seek_eq_some_iff (show Op.loopEnd ≠ Op.loopStart by decide), Nat.zero_add]
  constructor
  · rintro ⟨found, ⟨hopen, hlevel, hle⟩, rfl⟩
    have hfound : found < stop := by
      have := (List.getElem?_eq_some_iff.mp hopen).1
      omega
    rw [hat found hfound] at hopen
    have hinside : stop - 1 - found + 1 = stop - found := by omega
    refine ⟨⟨by omega, hopen, ?_, ?_⟩, hclose⟩
    · have := hpassed found (by omega)
      rw [hinside]
      omega
    · intro position hlt hposition
      have hk := hpassed (stop - position) (by omega)
      have := hpassed found (by omega)
      have := hle (stop - position) (by omega)
      rw [Nat.sub_sub_self hposition] at hk
      rw [hinside]
      omega
  · intro h
    have hlt := h.lt
    have hinside : stop - (stop - 1 - start) = start + 1 := by omega
    refine ⟨stop - 1 - start, ⟨?_, ?_, ?_⟩, by omega⟩
    · rw [hat _ (by omega), Nat.sub_sub_self (by omega)]
      exact h.opens
    · have hk := hpassed (stop - 1 - start) (by omega)
      rw [hinside, h.level_eq] at hk
      omega
    · intro k hk
      have := hpassed k (by omega)
      have := h.le_level (stop - k) (by omega) (by omega)
      have := h.level_eq
      omega

end TapeRing
