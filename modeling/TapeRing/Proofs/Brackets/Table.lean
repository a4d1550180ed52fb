import TapeRing.Proofs.Brackets.Matching

/-! # The table of a program

The pass over a program keeps a stack of the `[` that are still open. `Pending` says what is on the
stack: each entry opens the innermost loop around the place of the entry above it. So the pass pairs
exactly the matching brackets (`mem_pairs_iff`), and the table that is built from the pairs holds
exactly the matching brackets (`partner_build`). -/

namespace TapeRing

variable {ops : List Op} {start position stop : Nat}

/-- A `[` opens the innermost loop around the place after it. -/
theorem InsideLoop.of_loopStart (h : ops[start]? = some .loopStart) :
    InsideLoop ops start (start + 1) := by
  refine ⟨by omega, h, rfl, ?_⟩
  intro k hlt hk
  obtain rfl : k = start + 1 := by omega
  exact Int.le_refl _

/-- An instruction that is no bracket leaves the innermost loop as it is. -/
theorem InsideLoop.succ {op : Op} (h : InsideLoop ops start position)
    (hop : ops[position]? = some op) (hrise : op.rise = 0) :
    InsideLoop ops start (position + 1) := by
  have hlevel : levelAt ops (position + 1) = levelAt ops (start + 1) := by
    rw [levelAt_succ hop, hrise, h.level_eq, Int.add_zero]
  refine ⟨Nat.lt_succ_of_lt h.lt, h.opens, hlevel, ?_⟩
  intro k hlt hk
  rcases Nat.lt_or_eq_of_le hk with hk | rfl
  · exact h.le_level k hlt (by omega)
  · omega

/-- After a `]` the innermost loop is the one around the matching `[`. -/
theorem InsideLoop.trans {outer : Nat} (h : InsideLoop ops outer start)
    (hmatched : Matched ops start stop) : InsideLoop ops outer (stop + 1) := by
  have hup : levelAt ops (start + 1) = levelAt ops start + 1 := levelAt_succ hmatched.opens
  have hdown : levelAt ops (stop + 1) = levelAt ops stop - 1 := levelAt_succ hmatched.closes
  have hlevel : levelAt ops (stop + 1) = levelAt ops (outer + 1) := by
    rw [hdown, hmatched.level_eq, hup, h.level_eq]
    omega
  refine ⟨by have := h.lt; have := hmatched.lt; omega, h.opens, hlevel, ?_⟩
  intro k hlt hk
  rcases Nat.lt_or_ge start k with hstart | hstart
  · rcases Nat.lt_or_eq_of_le hk with hk | rfl
    · have := hmatched.le_level k hstart (by omega)
      have := h.level_eq
      omega
    · omega
  · exact h.le_level k hlt hstart

/-- No loop is open at a position: after each `[` before it the level has come down again. -/
def OutsideLoops (ops : List Op) (position : Nat) : Prop :=
  ∀ start < position, ops[start]? = some .loopStart →
    ∃ k, start < k ∧ k ≤ position ∧ levelAt ops k ≤ levelAt ops start

theorem OutsideLoops.zero : OutsideLoops ops 0 := by
  intro start hlt
  omega

/-- Only a `[` leads into a loop. -/
theorem OutsideLoops.succ (h : OutsideLoops ops position)
    (hop : ops[position]? ≠ some .loopStart) : OutsideLoops ops (position + 1) := by
  intro start hlt hopen
  rcases Nat.lt_or_eq_of_le (Nat.le_of_lt_succ hlt) with hstart | rfl
  · obtain ⟨k, hk, hle, hlevel⟩ := h start hstart hopen
    exact ⟨k, hk, by omega, hlevel⟩
  · exact absurd hopen hop

/-- The end of an outermost loop leads outside. -/
theorem OutsideLoops.after_matched (h : OutsideLoops ops start)
    (hmatched : Matched ops start stop) : OutsideLoops ops (stop + 1) := by
  have hup : levelAt ops (start + 1) = levelAt ops start + 1 := levelAt_succ hmatched.opens
  have hdown : levelAt ops (stop + 1) = levelAt ops stop - 1 := levelAt_succ hmatched.closes
  have hlt := hmatched.lt
  have hlevel := hmatched.level_eq
  intro k hk hopen
  rcases Nat.lt_trichotomy k start with hbefore | rfl | hafter
  · obtain ⟨j, hj, hle, hdeep⟩ := h k hbefore hopen
    exact ⟨j, hj, by omega, hdeep⟩
  · exact ⟨stop + 1, by omega, by omega, by omega⟩
  · rcases Nat.lt_or_ge k stop with hk | hk
    · have := hmatched.le_level k hafter (by omega)
      exact ⟨stop + 1, by omega, by omega, by omega⟩
    · obtain rfl : k = stop := by omega
      rw [hmatched.closes] at hopen
      cases hopen

/-- A `]` outside all loops matches nothing. -/
theorem OutsideLoops.not_matched (h : OutsideLoops ops stop) : ¬ Matched ops start stop := by
  intro hmatched
  obtain ⟨k, hk, hle, hlevel⟩ := h start hmatched.lt hmatched.opens
  have hup : levelAt ops (start + 1) = levelAt ops start + 1 := levelAt_succ hmatched.opens
  have := hmatched.le_level k hk hle
  omega

/-- The stack at a position: the top opens the innermost loop around the position, the rest is the
    stack at the top. -/
def Pending (ops : List Op) : (position : Nat) → (waiting : List Nat) → Prop
  | position, [] => OutsideLoops ops position
  | position, start :: waiting => InsideLoop ops start position ∧ Pending ops start waiting

theorem Pending.succ {waiting : List Nat} {op : Op} (h : Pending ops position waiting)
    (hop : ops[position]? = some op) (hrise : op.rise = 0) :
    Pending ops (position + 1) waiting := by
  cases waiting with
  | nil =>
    apply OutsideLoops.succ h
    intro hopen
    rw [hop] at hopen
    cases hopen
    cases hrise
  | cons start waiting => exact ⟨h.1.succ hop hrise, h.2⟩

/-- A `[` goes on the stack. -/
theorem Pending.push {waiting : List Nat} (h : Pending ops position waiting)
    (hop : ops[position]? = some .loopStart) : Pending ops (position + 1) (position :: waiting) :=
  ⟨InsideLoop.of_loopStart hop, h⟩

/-- A `]` without an open `[` leaves the stack empty. -/
theorem Pending.stray (h : Pending ops position []) (hop : ops[position]? = some .loopEnd) :
    Pending ops (position + 1) [] :=
  OutsideLoops.succ h (by rw [hop]; decide)

/-- A `]` takes the top off the stack. -/
theorem Pending.pop {waiting : List Nat} (h : Pending ops start waiting)
    (hmatched : Matched ops start stop) : Pending ops (stop + 1) waiting := by
  cases waiting with
  | nil => exact OutsideLoops.after_matched h hmatched
  | cons outer waiting => exact ⟨h.1.trans hmatched, h.2⟩

theorem pairs_cons_of_rise_eq_zero {op : Op} {waiting : List Nat} {rest : List Op}
    (hrise : op.rise = 0) :
    pairs position waiting (op :: rest) = pairs (position + 1) waiting rest := by
  cases op <;> first | rfl | cases hrise

/-- From a position on, the pass pairs the brackets that match. -/
theorem mem_pairs_iff :
    ∀ (rest : List Op) (position : Nat) (waiting : List Nat), ops.drop position = rest →
      Pending ops position waiting → ∀ start stop,
        (start, stop) ∈ pairs position waiting rest ↔ position ≤ stop ∧ Matched ops start stop := by
  intro rest
  induction rest with
  | nil =>
    intro position waiting hrest _ start stop
    have hlength := List.drop_eq_nil_iff.mp hrest
    simp only [pairs, List.not_mem_nil, false_iff, not_and]
    intro hle hmatched
    have := (List.getElem?_eq_some_iff.mp hmatched.closes).1
    omega
  | cons op rest ih =>
    intro position waiting hrest hpending start stop
    have hop : ops[position]? = some op := getElem?_of_drop hrest
    have hnext : ops.drop (position + 1) = rest := drop_succ_of_drop hrest
    -- Only a `]` here can be the end of a pair.
    have hlater : op ≠ .loopEnd →
        (position + 1 ≤ stop ∧ Matched ops start stop ↔
          position ≤ stop ∧ Matched ops start stop) := by
      intro hne
      constructor
      · rintro ⟨hle, hmatched⟩
        exact ⟨by omega, hmatched⟩
      · rintro ⟨hle, hmatched⟩
        refine ⟨Nat.lt_of_le_of_ne hle ?_, hmatched⟩
        rintro rfl
        rw [hmatched.closes] at hop
        exact hne (Option.some.inj hop).symm
    by_cases hopen : op = .loopStart
    · subst hopen
      rw [pairs, ih _ _ hnext (hpending.push hop)]
      exact hlater (by decide)
    by_cases hclose : op = .loopEnd
    · subst hclose
      cases waiting with
      | nil =>
        rw [show pairs position [] (.loopEnd :: rest) = pairs (position + 1) [] rest from rfl,
          ih _ _ hnext (hpending.stray hop)]
        constructor
        · rintro ⟨hle, hmatched⟩
          exact ⟨by omega, hmatched⟩
        · rintro ⟨hle, hmatched⟩
          refine ⟨Nat.lt_of_le_of_ne hle ?_, hmatched⟩
          rintro rfl
          exact OutsideLoops.not_matched hpending hmatched
      | cons top waiting =>
        have htop : Matched ops top position := ⟨hpending.1, hop⟩
        rw [pairs, List.mem_cons, ih _ _ hnext (hpending.2.pop htop), Prod.mk.injEq]
        constructor
        · rintro (⟨rfl, rfl⟩ | ⟨hle, hmatched⟩)
          · exact ⟨Nat.le_refl _, htop⟩
          · exact ⟨by omega, hmatched⟩
        · rintro ⟨hle, hmatched⟩
          rcases Nat.lt_or_eq_of_le hle with hlt | rfl
          · exact Or.inr ⟨hlt, hmatched⟩
          · exact Or.inl ⟨hmatched.start_unique htop, rfl⟩
    · have hrise : op.rise = 0 := by cases op <;> first | rfl | contradiction
      rw [pairs_cons_of_rise_eq_zero hrise, ih _ _ hnext (hpending.succ hop hrise)]
      exact hlater hclose

theorem mem_pairs_zero_iff : (start, stop) ∈ pairs 0 [] ops ↔ Matched ops start stop := by
  rw [mem_pairs_iff ops 0 [] rfl OutsideLoops.zero]
  simp

namespace JumpTable

@[simp] theorem partner_blank (length position : Nat) :
    (blank length).partner position = none := by
  simp only [partner, blank, Array.getElem?_replicate]
  split <;> rfl

@[simp] theorem size_partners_link (table : JumpTable) (pair : Nat × Nat) :
    (table.link pair).partners.size = table.partners.size := by
  simp [link]

theorem partner_link {table : JumpTable} {pair : Nat × Nat} (h₁ : pair.1 < table.partners.size)
    (h₂ : pair.2 < table.partners.size) (position : Nat) :
    (table.link pair).partner position =
      if pair.2 = position then some pair.1
      else if pair.1 = position then some pair.2
      else table.partner position := by
  simp only [partner, link, Array.getElem?_setIfInBounds, Array.size_setIfInBounds, h₁, h₂, if_true]
  by_cases hsecond : pair.2 = position
  · simp [hsecond]
  · by_cases hfirst : pair.1 = position <;> simp [hsecond, hfirst]

/-- Linking pairs leaves the positions alone that are in none of them. -/
theorem partner_foldl_link_of_forall_ne :
    ∀ (linked : List (Nat × Nat)) (table : JumpTable) (position : Nat),
      (∀ pair ∈ linked, pair.1 < table.partners.size ∧ pair.2 < table.partners.size) →
      (∀ pair ∈ linked, pair.1 ≠ position ∧ pair.2 ≠ position) →
      (linked.foldl link table).partner position = table.partner position := by
  intro linked
  induction linked with
  | nil => intros; rfl
  | cons pair linked ih =>
    intro table position hbound hne
    obtain ⟨h₁, h₂⟩ := hbound pair (by simp)
    obtain ⟨hne₁, hne₂⟩ := hne pair (by simp)
    rw [List.foldl_cons, ih, partner_link h₁ h₂, if_neg hne₂, if_neg hne₁]
    · intro other hother
      simpa using hbound other (List.mem_cons_of_mem _ hother)
    · intro other hother
      exact hne other (List.mem_cons_of_mem _ hother)

/-- Linking matching brackets makes them partners. -/
theorem partner_foldl_link_of_mem :
    ∀ (linked : List (Nat × Nat)) (table : JumpTable),
      (∀ pair ∈ linked, pair.1 < table.partners.size ∧ pair.2 < table.partners.size) →
      (∀ pair ∈ linked, Matched ops pair.1 pair.2) → ∀ pair ∈ linked,
        (linked.foldl link table).partner pair.1 = some pair.2 ∧
          (linked.foldl link table).partner pair.2 = some pair.1 := by
  intro linked
  induction linked with
  | nil => simp
  | cons first linked ih =>
    intro table hbound hmatched pair hpair
    have hbound' : ∀ other ∈ linked, other.1 < (table.link first).partners.size ∧
        other.2 < (table.link first).partners.size := by
      intro other hother
      simpa using hbound other (List.mem_cons_of_mem _ hother)
    rw [List.foldl_cons]
    by_cases hlater : pair ∈ linked
    · exact ih _ hbound' (fun other hother => hmatched other (List.mem_cons_of_mem _ hother))
        pair hlater
    · obtain rfl : pair = first := by
        rcases List.mem_cons.mp hpair with h | h
        · exact h
        · exact absurd h hlater
      have hpairs := hmatched pair hpair
      -- A later pair that shared a position with this one would be this one.
      have hother : ∀ other ∈ linked,
          (other.1 ≠ pair.1 ∧ other.2 ≠ pair.1) ∧ other.1 ≠ pair.2 ∧ other.2 ≠ pair.2 := by
        intro other hmem
        have h := hmatched other (List.mem_cons_of_mem _ hmem)
        refine ⟨⟨?_, ?_⟩, ?_, ?_⟩ <;> intro heq
        · have hstop := hpairs.stop_unique (heq ▸ h)
          exact hlater (Prod.ext heq hstop.symm ▸ hmem)
        · have := hpairs.opens
          rw [← heq, h.closes] at this
          cases this
        · have := h.opens
          rw [heq, hpairs.closes] at this
          cases this
        · have hstart := hpairs.start_unique (heq ▸ h)
          exact hlater (Prod.ext hstart.symm heq ▸ hmem)
      obtain ⟨h₁, h₂⟩ := hbound pair (by simp)
      have hlt := hpairs.lt
      constructor
      · have hlater := partner_foldl_link_of_forall_ne linked _ pair.1 hbound'
          fun other hmem => (hother other hmem).1
        rw [hlater, partner_link h₁ h₂, if_neg (by omega), if_pos rfl]
      · have hlater := partner_foldl_link_of_forall_ne linked _ pair.2 hbound'
          fun other hmem => (hother other hmem).2
        rw [hlater, partner_link h₁ h₂, if_pos rfl]

/-- The partners in the table of a program are the matching brackets. -/
theorem partner_build {p : Program} {position other : Nat} :
    (build p).partner position = some other ↔
      Matched p.ops position other ∨ Matched p.ops other position := by
  have hmatched : ∀ pair ∈ pairs 0 [] p.ops, Matched p.ops pair.1 pair.2 := by
    rintro ⟨start, stop⟩ hpair
    exact mem_pairs_zero_iff.mp hpair
  have hbound : ∀ pair ∈ pairs 0 [] p.ops, pair.1 < (blank p.length).partners.size ∧
      pair.2 < (blank p.length).partners.size := by
    intro pair hpair
    have hlt := (hmatched pair hpair).lt
    have hstop := (List.getElem?_eq_some_iff.mp (hmatched pair hpair).closes).1
    simp only [blank, Array.size_replicate, Program.length]
    omega
  have hlinked := partner_foldl_link_of_mem _ _ hbound hmatched
  constructor
  · intro h
    by_cases hin : ∃ pair ∈ pairs 0 [] p.ops, pair.1 = position ∨ pair.2 = position
    · obtain ⟨pair, hpair, rfl | rfl⟩ := hin
      · have := (hlinked pair hpair).1.symm.trans h
        exact Or.inl (Option.some.inj this ▸ hmatched pair hpair)
      · have := (hlinked pair hpair).2.symm.trans h
        exact Or.inr (Option.some.inj this ▸ hmatched pair hpair)
    · have hnone : ∀ pair ∈ pairs 0 [] p.ops, pair.1 ≠ position ∧ pair.2 ≠ position := by
        intro pair hpair
        exact ⟨fun h => hin ⟨pair, hpair, Or.inl h⟩, fun h => hin ⟨pair, hpair, Or.inr h⟩⟩
      rw [build, partner_foldl_link_of_forall_ne _ _ _ hbound hnone, partner_blank] at h
      cases h
  · rintro (h | h)
    · exact (hlinked _ (mem_pairs_zero_iff.mpr h)).1
    · exact (hlinked _ (mem_pairs_zero_iff.mpr h)).2

theorem partner_build_of_loopStart {p : Program} {position : Nat}
    (hopen : p.ops[position]? = some .loopStart) :
    (build p).partner position = p.closingOf? position := by
  apply Option.ext
  intro other
  rw [partner_build, closingOf?_eq_some_iff hopen]
  constructor
  · rintro (h | h)
    · exact h
    · have := h.closes
      rw [hopen] at this
      cases this
  · exact Or.inl

theorem partner_build_of_loopEnd {p : Program} {position : Nat}
    (hclose : p.ops[position]? = some .loopEnd) :
    (build p).partner position = p.openingOf? position := by
  apply Option.ext
  intro other
  rw [partner_build, openingOf?_eq_some_iff hclose]
  constructor
  · rintro (h | h)
    · have := h.opens
      rw [hclose] at this
      cases this
    · exact h
  · exact Or.inr

end JumpTable

end TapeRing
