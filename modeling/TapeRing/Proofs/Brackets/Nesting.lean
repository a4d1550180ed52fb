import TapeRing.Proofs.Brackets.Balance
import TapeRing.Proofs.Brackets.Table

/-! # The nesting of brackets

Partners are well nested when the brackets between two of them are partners of each other. The table
of a program gives each bracket the partner that it has in any well-nested pairing in which it has
one at all, and the brackets that it leaves alone are some `]` and, after all of them, some `[`
(`build_is_greatest_nesting`). So the table cannot be extended. -/

namespace TapeRing

variable {ops : List Op} {start stop position : Nat}

/-- The instructions strictly between two positions. -/
def between (ops : List Op) (start stop : Nat) : List Op :=
  (ops.drop (start + 1)).take (stop - (start + 1))

/-- The level between two positions, seen from the instruction after the first. -/
theorem level_take_between (ops : List Op) {count : Nat} (h : count ≤ stop - (start + 1)) :
    level ((between ops start stop).take count) =
      levelAt ops (start + 1 + count) - levelAt ops (start + 1) := by
  rw [between, List.take_take, Nat.min_eq_left h, levelAt_add]
  omega

theorem level_between (ops : List Op) (h : start < stop) :
    level (between ops start stop) = levelAt ops stop - levelAt ops (start + 1) := by
  have hwhole := level_take_between ops (Nat.le_refl (stop - (start + 1)))
  rwa [between, List.take_take, Nat.min_self, Nat.add_sub_cancel' h] at hwhole

/-- Two brackets match if the instructions between them have as many `[` as `]` and no beginning of
    them has more `]` than `[`. -/
theorem matched_iff_between (h : start < stop) :
    Matched ops start stop ↔
      ops[start]? = some .loopStart ∧ ops[stop]? = some .loopEnd ∧
        (between ops start stop).count .loopStart = (between ops start stop).count .loopEnd ∧
        ∀ front, front <+: between ops start stop →
          front.count .loopEnd ≤ front.count .loopStart := by
  have hlevel := level_between ops h
  constructor
  · intro hmatched
    rw [hmatched.level_eq, level] at hlevel
    refine ⟨hmatched.opens, hmatched.closes, by omega, ?_⟩
    intro front hfront
    have hlength : front.length ≤ stop - (start + 1) :=
      Nat.le_trans hfront.length_le (List.length_take_le _ _)
    have hfall := level_take_between ops hlength
    have hlow := hmatched.le_level (start + 1 + front.length) (by omega) (by omega)
    rw [← List.prefix_iff_eq_take.mp hfront, level] at hfall
    omega
  · rintro ⟨hopen, hclose, hcount, hfront⟩
    rw [level, hcount] at hlevel
    refine ⟨⟨h, hopen, by omega, ?_⟩, hclose⟩
    intro k hlt hle
    have hlow := hfront _ (List.take_prefix (k - (start + 1)) _)
    have hcount : k - (start + 1) ≤ stop - (start + 1) := by omega
    have hfall := level_take_between ops hcount
    rw [Nat.add_sub_cancel' hlt, level] at hfall
    omega

/-! ## Brackets inside a loop -/

/-- A `[` inside a loop is closed inside it. -/
theorem Matched.closes_inside (h : Matched ops start stop) (hlt : start < position)
    (hposition : position < stop) (hopen : ops[position]? = some .loopStart) :
    ∃ partner, start < partner ∧ partner < stop ∧ Matched ops position partner := by
  have hup : levelAt ops (position + 1) = levelAt ops position + 1 := levelAt_succ hopen
  have hdown : levelAt ops (stop + 1) = levelAt ops stop - 1 := levelAt_succ h.closes
  have hlow := h.le_level position hlt (Nat.le_of_lt hposition)
  have hlevel := h.level_eq
  obtain ⟨partner, hpartner⟩ := exists_matched_of_loopStart hopen
    ⟨stop + 1, by omega, by omega⟩
  refine ⟨partner, Nat.lt_trans hlt hpartner.lt, ?_, hpartner⟩
  rcases Nat.lt_trichotomy partner stop with hinside | rfl | houtside
  · exact hinside
  · exact absurd (h.start_unique hpartner) (Nat.ne_of_lt hlt)
  · -- The level after the loop is below that inside its `[`.
    have := hpartner.le_level (stop + 1) (by omega) houtside
    omega

/-- A `]` inside a loop is opened inside it. -/
theorem Matched.opens_inside (h : Matched ops start stop) (hlt : start < position)
    (hposition : position < stop) (hclose : ops[position]? = some .loopEnd) :
    ∃ partner, start < partner ∧ partner < stop ∧ Matched ops partner position := by
  have hup : levelAt ops (start + 1) = levelAt ops start + 1 := levelAt_succ h.opens
  have hlow := h.le_level position hlt (Nat.le_of_lt hposition)
  obtain ⟨partner, hpartner⟩ := exists_matched_of_loopEnd hclose
    ⟨start, Nat.le_of_lt hlt, by omega⟩
  refine ⟨partner, ?_, Nat.lt_trans hpartner.lt hposition, hpartner⟩
  rcases Nat.lt_trichotomy start partner with hinside | rfl | houtside
  · exact hinside
  · exact absurd (h.stop_unique hpartner) (Nat.ne_of_gt hposition)
  · -- The level at the `[` of the loop is below that inside it.
    have := hpartner.le_level start houtside (Nat.le_of_lt hlt)
    have := hpartner.level_eq
    omega

/-- Between a `[` and a later `]` the level rises above that before the `[` or falls back to it, so
    one of them has a partner. -/
theorem lt_of_unmatched (hclose : ops[stop]? = some .loopEnd)
    (hopen : ops[start]? = some .loopStart) (hstop : ∀ other, ¬ Matched ops other stop)
    (hstart : ∀ other, ¬ Matched ops start other) : stop < start := by
  apply Nat.lt_of_not_le
  intro hle
  have hne : start ≠ stop := by
    rintro rfl
    rw [hopen] at hclose
    cases hclose
  have hup : levelAt ops (start + 1) = levelAt ops start + 1 := levelAt_succ hopen
  by_cases hrise : levelAt ops start < levelAt ops stop
  · obtain ⟨other, hmatched⟩ := exists_matched_of_loopEnd hclose ⟨start, hle, hrise⟩
    exact hstop other hmatched
  · obtain ⟨other, hmatched⟩ := exists_matched_of_loopStart hopen
      ⟨stop, Nat.lt_of_le_of_ne hle hne, by omega⟩
    exact hstart other hmatched

/-! ## Well-nested partners -/

/-- There is a bracket at a position. -/
def Program.HasBracket (p : Program) (position : Nat) : Prop :=
  p.get? position = some .loopStart ∨ p.get? position = some .loopEnd

/-- Partners of brackets that belong to each other in pairs which do not cross. -/
structure WellNested (p : Program) (partner : Nat → Option Nat) : Prop where
  symm : ∀ i j, partner i = some j ↔ partner j = some i
  irrefl : ∀ i, partner i ≠ some i
  /-- A pair is a `[` and a later `]`. -/
  brackets : ∀ i j, partner i = some j → i < j →
    p.get? i = some .loopStart ∧ p.get? j = some .loopEnd
  /-- There are as many `[` as `]` between the two, -/
  balanced : ∀ i j, partner i = some j → i < j →
    (between p.ops i j).count .loopStart = (between p.ops i j).count .loopEnd
  /-- and never more `]` than `[` on the way. -/
  climbs : ∀ i j, partner i = some j → i < j → ∀ front, front <+: between p.ops i j →
    front.count .loopEnd ≤ front.count .loopStart
  /-- The partners of the brackets between the two are between them, too. -/
  nested : ∀ i j, partner i = some j → i < j → ∀ k, i < k → k < j → p.HasBracket k →
    ∃ l, i < l ∧ l < j ∧ partner k = some l
  /-- Only brackets have partners. -/
  bare : ∀ k, ¬ p.HasBracket k → partner k = none

namespace WellNested

variable {p : Program} {partner : Nat → Option Nat} {i j : Nat}

/-- The partners in a well-nested pairing match. -/
theorem matched (h : WellNested p partner) (hpartner : partner i = some j) :
    Matched p.ops i j ∨ Matched p.ops j i := by
  have hordered {i j : Nat} (hpartner : partner i = some j) (hlt : i < j) : Matched p.ops i j := by
    obtain ⟨hopen, hclose⟩ := h.brackets i j hpartner hlt
    exact (matched_iff_between hlt).mpr
      ⟨hopen, hclose, h.balanced i j hpartner hlt, h.climbs i j hpartner hlt⟩
  rcases Nat.lt_trichotomy i j with hlt | rfl | hlt
  · exact Or.inl (hordered hpartner hlt)
  · exact absurd hpartner (h.irrefl i)
  · exact Or.inr (hordered ((h.symm i j).mp hpartner) hlt)

end WellNested

namespace JumpTable

variable {p : Program} {i j : Nat}

/-- Of two partners in the table the earlier one is the `[`. -/
theorem matched_of_partner_build (hpartner : (build p).partner i = some j) (hlt : i < j) :
    Matched p.ops i j := by
  rcases partner_build.mp hpartner with h | h
  · exact h
  · exact absurd h.lt (Nat.lt_asymm hlt)

theorem wellNested_build (p : Program) : WellNested p (build p).partner where
  symm i j := by rw [partner_build, partner_build, or_comm]
  irrefl i := by
    rw [Ne, partner_build, or_self]
    intro h
    exact absurd h.lt (Nat.lt_irrefl i)
  brackets i j hpartner hlt := by
    have h := matched_of_partner_build hpartner hlt
    exact ⟨h.opens, h.closes⟩
  balanced i j hpartner hlt :=
    ((matched_iff_between hlt).mp (matched_of_partner_build hpartner hlt)).2.2.1
  climbs i j hpartner hlt :=
    ((matched_iff_between hlt).mp (matched_of_partner_build hpartner hlt)).2.2.2
  nested i j hpartner hlt k hk hkj hbracket := by
    have h := matched_of_partner_build hpartner hlt
    rcases hbracket with hopen | hclose
    · obtain ⟨l, hil, hlj, hl⟩ := h.closes_inside hk hkj hopen
      exact ⟨l, hil, hlj, partner_build.mpr (Or.inl hl)⟩
    · obtain ⟨l, hil, hlj, hl⟩ := h.opens_inside hk hkj hclose
      exact ⟨l, hil, hlj, partner_build.mpr (Or.inr hl)⟩
  bare k hbare := by
    rw [Option.eq_none_iff_forall_ne_some]
    intro l hpartner
    rcases partner_build.mp hpartner with h | h
    · exact hbare (Or.inl h.opens)
    · exact hbare (Or.inr h.closes)

theorem not_matched_of_partner_build_eq_none (h : (build p).partner i = none) :
    (∀ other, ¬ Matched p.ops i other) ∧ ∀ other, ¬ Matched p.ops other i := by
  constructor <;> intro other hmatched
  · rw [partner_build.mpr (Or.inl hmatched)] at h
    cases h
  · rw [partner_build.mpr (Or.inr hmatched)] at h
    cases h

/-- The partners in the table of a program are well nested. They are the most that can be paired:
    - Partners in any well-nested pairing are partners in the table. So a well-nested pairing that
      has all pairs of the table has no others.
    - Each `]` without a partner stands before each `[` without one.
    - In a balanced program every bracket has a partner.

    Nothing else in the program, and nothing after its end, has a partner. -/
theorem build_is_greatest_nesting (p : Program) :
    WellNested p (build p).partner ∧
    (∀ partner, WellNested p partner →
      (∀ i j, partner i = some j → (build p).partner i = some j) ∧
        ((∀ i j, (build p).partner i = some j → partner i = some j) →
          partner = (build p).partner)) ∧
    (∀ i j, p.get? i = some .loopEnd → (build p).partner i = none →
      p.get? j = some .loopStart → (build p).partner j = none → i < j) ∧
    (∀ i, p.length ≤ i → (build p).partner i = none) ∧
    (p.Balanced → ∀ i, p.HasBracket i → ∃ j, (build p).partner i = some j) := by
  have hnested := wellNested_build p
  refine ⟨hnested, ?_, ?_, ?_, ?_⟩
  · intro partner hother
    have hle : ∀ i j, partner i = some j → (build p).partner i = some j :=
      fun i j hpartner => partner_build.mpr (hother.matched hpartner)
    refine ⟨hle, fun hge => ?_⟩
    funext i
    apply Option.ext
    intro j
    exact ⟨hle i j, hge i j⟩
  · intro i j hclose hi hopen hj
    exact lt_of_unmatched hclose hopen (not_matched_of_partner_build_eq_none hi).2
      (not_matched_of_partner_build_eq_none hj).1
  · intro i hlength
    apply hnested.bare
    have hnone : p.get? i = none := Program.get?_eq_none_iff.mpr hlength
    simp [Program.HasBracket, hnone]
  · rintro hbalanced i (hopen | hclose)
    · obtain ⟨j, hmatched⟩ := hbalanced.closes hopen
      exact ⟨j, partner_build.mpr (Or.inl hmatched)⟩
    · obtain ⟨j, hmatched⟩ := hbalanced.opens hclose
      exact ⟨j, partner_build.mpr (Or.inr hmatched)⟩

/-- The first `]` and the first `[` have no partners. The brackets `[[]-]` are balanced. -/
theorem build_is_greatest_nesting_on_strays :
    let strays := Program.parse "][[]"
    let loops := Program.parse "[[]-]"
    strays.get? 0 = some .loopEnd ∧ (build strays).partner 0 = none ∧
      strays.get? 1 = some .loopStart ∧ (build strays).partner 1 = none ∧ 0 < 1 ∧
      (∃ l, 0 < l ∧ l < 4 ∧ (build loops).partner 1 = some l) ∧
      loops.Balanced ∧ ∃ j, (build loops).partner 0 = some j := by
  intro strays loops
  obtain ⟨-, -, hunmatched, -, -⟩ := build_is_greatest_nesting strays
  obtain ⟨hnested, -, -, -, hpaired⟩ := build_is_greatest_nesting loops
  have hbalanced : loops.Balanced := ⟨by decide, by decide⟩
  have hclose : (build strays).partner 0 = none := by decide
  have hopen : (build strays).partner 1 = none := by decide
  exact ⟨rfl, hclose, rfl, hopen, hunmatched 0 1 rfl hclose rfl hopen,
    hnested.nested 0 4 (by decide) (by decide) 1 (by decide) (by decide) (Or.inl rfl),
    hbalanced, hpaired hbalanced 0 (Or.inl rfl)⟩

end JumpTable

end TapeRing
