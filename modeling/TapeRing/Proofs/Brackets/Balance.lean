import Mathlib.Data.Nat.Find
import TapeRing.Proofs.Brackets.Matching

/-! # Balanced programs

A `[` has a partner if the level falls below that inside it some time after it, and a `]` has one if
the level was below that at the `]` some time before it. In a balanced program, of which the level
is never negative and ends at zero, this is so at every bracket (`Balanced.closes`,
`Balanced.opens`), and the brackets that are put around it match in any larger program
(`matched_of_drop`). -/

namespace TapeRing

variable {ops : List Op} {start stop position : Nat}

theorem levelAt_succ_of_length_le (h : ops.length ≤ position) :
    levelAt ops (position + 1) = levelAt ops position := by
  rw [levelAt, levelAt, List.take_of_length_le h, List.take_of_length_le (Nat.le_succ_of_le h)]

theorem levelAt_of_length_le (h : ops.length ≤ position) : levelAt ops position = level ops := by
  rw [levelAt, List.take_of_length_le h]

@[simp] theorem levelAt_zero (ops : List Op) : levelAt ops 0 = 0 := rfl

/-- Where the level falls, it falls by one and there is a `]`. -/
theorem loopEnd_of_levelAt_lt (h : levelAt ops (position + 1) < levelAt ops position) :
    ops[position]? = some .loopEnd ∧ levelAt ops (position + 1) = levelAt ops position - 1 := by
  cases hop : ops[position]? with
  | none =>
    rw [levelAt_succ_of_length_le (List.getElem?_eq_none_iff.mp hop)] at h
    omega
  | some op =>
    have hrise := levelAt_succ hop
    cases op with
    | loopEnd => exact ⟨rfl, hrise⟩
    | _ => simp only [Op.rise] at hrise; omega

/-- Where the level rises, it rises by one and there is a `[`. -/
theorem loopStart_of_levelAt_lt (h : levelAt ops position < levelAt ops (position + 1)) :
    ops[position]? = some .loopStart ∧ levelAt ops (position + 1) = levelAt ops position + 1 := by
  cases hop : ops[position]? with
  | none =>
    rw [levelAt_succ_of_length_le (List.getElem?_eq_none_iff.mp hop)] at h
    omega
  | some op =>
    have hrise := levelAt_succ hop
    cases op with
    | loopStart => exact ⟨rfl, hrise⟩
    | _ => simp only [Op.rise] at hrise; omega

/-- A `[` is closed where the level first falls below its inside. -/
theorem exists_matched_of_loopStart (hopen : ops[start]? = some .loopStart)
    (hfall : ∃ later, start < later ∧ levelAt ops later < levelAt ops (start + 1)) :
    ∃ stop, Matched ops start stop := by
  obtain ⟨hlt, hbelow⟩ := Nat.find_spec hfall
  have hbefore : ∀ k, start < k → k < Nat.find hfall → levelAt ops (start + 1) ≤ levelAt ops k :=
    fun k hstart hk => Int.not_lt.mp fun h => Nat.find_min hfall hk ⟨hstart, h⟩
  generalize Nat.find hfall = later at hlt hbelow hbefore
  obtain ⟨stop, rfl⟩ := Nat.exists_eq_add_one_of_ne_zero (Nat.ne_zero_of_lt hlt)
  have hinside : start < stop := by
    refine Nat.lt_of_le_of_ne (Nat.le_of_lt_succ hlt) ?_
    rintro rfl
    exact absurd hbelow (Int.lt_irrefl _)
  have hstop := hbefore stop hinside (Nat.lt_succ_self stop)
  obtain ⟨hclose, hdown⟩ := loopEnd_of_levelAt_lt (Int.lt_of_lt_of_le hbelow hstop)
  refine ⟨stop, ⟨hinside, hopen, by omega, ?_⟩, hclose⟩
  intro k hk hle
  exact hbefore k hk (Nat.lt_succ_of_le hle)

/-- A `]` is opened where the level was last below that at the `]`. -/
theorem exists_matched_of_loopEnd (hclose : ops[stop]? = some .loopEnd)
    (hrise : ∃ earlier ≤ stop, levelAt ops earlier < levelAt ops stop) :
    ∃ start, Matched ops start stop := by
  obtain ⟨earlier, hearlier, hbelow⟩ := hrise
  let Below (k : Nat) : Prop := levelAt ops k < levelAt ops stop
  have hbelow : Below (Nat.findGreatest Below stop) := Nat.findGreatest_spec hearlier hbelow
  have hafter : ∀ k, Nat.findGreatest Below stop < k → k ≤ stop →
      levelAt ops stop ≤ levelAt ops k :=
    fun k hk hle => Int.not_lt.mp (Nat.findGreatest_is_greatest hk hle)
  have hle : Nat.findGreatest Below stop ≤ stop := Nat.findGreatest_le stop
  generalize Nat.findGreatest Below stop = start at hbelow hafter hle
  have hlt : start < stop := by
    refine Nat.lt_of_le_of_ne hle ?_
    rintro rfl
    exact absurd hbelow (Int.lt_irrefl _)
  have hinside := hafter (start + 1) (Nat.lt_succ_self start) hlt
  obtain ⟨hopen, hup⟩ := loopStart_of_levelAt_lt (Int.lt_of_lt_of_le hbelow hinside)
  have hlevel : levelAt ops stop = levelAt ops (start + 1) := by
    have : levelAt ops start < levelAt ops stop := hbelow
    omega
  refine ⟨start, ⟨hlt, hopen, hlevel, ?_⟩, hclose⟩
  intro k hk hle
  rw [← hlevel]
  exact hafter k hk hle

/-- The level of the program is never negative and ends at zero. -/
structure Program.Balanced (p : Program) : Prop where
  level_eq : level p.ops = 0
  nonneg : ∀ position ≤ p.length, 0 ≤ levelAt p.ops position

namespace Program.Balanced

variable {p : Program}

/-- Behind the last instruction the level is zero too. -/
theorem levelAt_nonneg (h : p.Balanced) (position : Nat) : 0 ≤ levelAt p.ops position := by
  rcases Nat.le_total position p.length with hle | hge
  · exact h.nonneg position hle
  · have hzero : levelAt p.ops position = 0 := (levelAt_of_length_le hge).trans h.level_eq
    exact Int.le_of_eq hzero.symm

theorem nil : Balanced ⟨[]⟩ where
  level_eq := rfl
  nonneg position _ := by simp [levelAt]

/-- An instruction that is no bracket. -/
theorem single {op : Op} (h : op.rise = 0) : Balanced ⟨[op]⟩ where
  level_eq := by rw [level_cons, h]; rfl
  nonneg position _ := by
    cases position with
    | zero => exact Int.le_refl 0
    | succ position => rw [levelAt, List.take_succ_cons, level_cons, h]; simp

theorem append {ops more : List Op} (h : Balanced ⟨ops⟩) (h' : Balanced ⟨more⟩) :
    Balanced ⟨ops ++ more⟩ where
  level_eq := by
    have hops : level ops = 0 := h.level_eq
    have hmore : level more = 0 := h'.level_eq
    rw [level_append, hops, hmore, Int.add_zero]
  nonneg position _ := by
    have hops := h.levelAt_nonneg position
    have hmore := h'.levelAt_nonneg (position - ops.length)
    rw [levelAt, List.take_append, level_append]
    exact Int.add_nonneg hops hmore

theorem loop {body : List Op} (h : Balanced ⟨body⟩) :
    Balanced ⟨.loopStart :: (body ++ [.loopEnd])⟩ where
  level_eq := by
    have hbody : level body = 0 := h.level_eq
    rw [level_cons, level_append, hbody]
    rfl
  nonneg position _ := by
    cases position with
    | zero => exact Int.le_refl 0
    | succ position =>
      have hbody : 0 ≤ level (body.take position) := h.levelAt_nonneg position
      have hopen : Op.loopStart.rise = 1 := rfl
      have hclose : -1 ≤ level ([Op.loopEnd].take (position - body.length)) := by
        cases position - body.length with
        | zero => decide
        | succ later => rw [List.take_succ_cons, List.take_nil]; decide
      rw [levelAt, List.take_succ_cons, level_cons, List.take_append, level_append, hopen]
      omega

/-- Every `[` of a balanced program has a partner. -/
theorem closes (h : p.Balanced) (hopen : p.ops[start]? = some .loopStart) :
    ∃ stop, Matched p.ops start stop := by
  have hlt : start < p.length := (List.getElem?_eq_some_iff.mp hopen).1
  refine exists_matched_of_loopStart hopen ⟨p.length, hlt, ?_⟩
  have hstart := h.nonneg start (Nat.le_of_lt hlt)
  have hup : levelAt p.ops (start + 1) = levelAt p.ops start + 1 := levelAt_succ hopen
  have hend : levelAt p.ops p.length = level p.ops := levelAt_of_length_le (Nat.le_refl _)
  rw [hend, h.level_eq]
  omega

/-- Every `]` of a balanced program has a partner. -/
theorem opens (h : p.Balanced) (hclose : p.ops[stop]? = some .loopEnd) :
    ∃ start, Matched p.ops start stop := by
  have hlt : stop < p.length := (List.getElem?_eq_some_iff.mp hclose).1
  refine exists_matched_of_loopEnd hclose ⟨0, Nat.zero_le _, ?_⟩
  have hafter := h.nonneg (stop + 1) hlt
  have hdown : levelAt p.ops (stop + 1) = levelAt p.ops stop - 1 := levelAt_succ hclose
  rw [levelAt_zero]
  omega

end Program.Balanced

/-- The brackets around a balanced body match, whatever stands before and after. -/
theorem matched_of_drop {body after : List Op} (hbody : Program.Balanced ⟨body⟩)
    (h : ops.drop start = .loopStart :: (body ++ .loopEnd :: after)) :
    Matched ops start (start + 1 + body.length) := by
  have hinside : ops.drop (start + 1) = body ++ .loopEnd :: after := drop_succ_of_drop h
  have hlevel : ∀ k ≤ body.length,
      levelAt ops (start + 1 + k) = levelAt ops (start + 1) + levelAt body k := by
    intro k hk
    rw [levelAt_add, hinside, List.take_append_of_le_length hk]
    rfl
  refine ⟨⟨by omega, ?_, ?_, ?_⟩, ?_⟩
  · exact getElem?_of_drop h
  · have hend : levelAt body body.length = 0 :=
      (levelAt_of_length_le (Nat.le_refl _)).trans hbody.level_eq
    rw [hlevel _ (Nat.le_refl _), hend, Int.add_zero]
  · intro k hlt hk
    have hinner := hlevel (k - (start + 1)) (by omega)
    rw [Nat.add_sub_cancel' (by omega)] at hinner
    have hnonneg : 0 ≤ levelAt body (k - (start + 1)) := hbody.levelAt_nonneg _
    omega
  · rw [← List.getElem?_drop, hinside, List.getElem?_append_right (Nat.le_refl _), Nat.sub_self,
      List.getElem?_cons_zero]

end TapeRing
