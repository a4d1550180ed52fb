import Mathlib.Order.Bounds.Basic
import TapeRing.Proofs.Brackets.Balance
import TapeRing.Proofs.Processor.Partners

/-! # Searching for a bracket

A search looks at one instruction after another and counts the brackets that are open, until none
is left or there are no more instructions. It comes to an end from every place, and the count stays
positive on the way (`closes_forward`, `closes_backward`). From a `[` it stops at the first place
up to which there are as many `[` as `]`, from a `]` at the last one, so that the two searches lead
back to each other (`searches_stop_where_brackets_even_out`). -/

namespace TapeRing

/-! ## Searches in rounds -/

/-- Where a search stands: the place of the instruction that it has looked at last, and the number
    of brackets that are open there. Nothing about an integer keeps this number from falling below
    zero. -/
structure Search where
  position : Nat
  depth : Int
deriving DecidableEq, Repr

namespace Search

/-- What one round of a search comes to. -/
inductive Round
  /-- The search goes on. -/
  | onward (next : Search)
  /-- The search is over, with a bracket or without. -/
  | over (found : Option Nat)
deriving DecidableEq, Repr

/-- Looks at an instruction. A bracket `same` is one more to be closed by a bracket `partner`. -/
def look (same partner : Op) (s : Search) (position : Nat) (op : Op) : Round :=
  if op = same then .onward ⟨position, s.depth + 1⟩
  else if op = partner then
    if s.depth - 1 = 0 then .over (some position) else .onward ⟨position, s.depth - 1⟩
  else .onward ⟨position, s.depth⟩

/-- One round of the search for a `]`. -/
def forward (program : Program) (s : Search) : Round :=
  match program.get? (s.position + 1) with
  | none => .over none
  | some op => s.look .loopStart .loopEnd (s.position + 1) op

/-- One round of the search for a `[`. -/
def backward (program : Program) (s : Search) : Round :=
  match s.position with
  | 0 => .over none
  | position + 1 =>
      match program.get? position with
      | none => .onward ⟨position, s.depth⟩
      | some op => s.look .loopEnd .loopStart position op

/-- The rounds of a search come to an end after the given places. -/
inductive Ends (round : Search → Round) : Search → List Search → Option Nat → Prop
  | over {s : Search} {found : Option Nat} : round s = .over found → Ends round s [s] found
  | onward {s next : Search} {trail : List Search} {found : Option Nat} :
      round s = .onward next → Ends round next trail found → Ends round s (s :: trail) found

/-- The rounds of a search come to an end, and some bracket is open until then. -/
def Closes (round : Search → Round) (s : Search) (found : Option Nat) : Prop :=
  ∃ trail, Ends round s trail found ∧ ∀ place ∈ trail, 0 < place.depth

section Closes

variable {round : Search → Round} {s next : Search} {found : Option Nat}

theorem Closes.over (hdepth : 0 < s.depth) (h : round s = .over found) : Closes round s found :=
  ⟨[s], .over h, by simpa using hdepth⟩

theorem Closes.onward (hdepth : 0 < s.depth) (h : round s = .onward next)
    (hnext : Closes round next found) : Closes round s found := by
  obtain ⟨trail, hends, hpositive⟩ := hnext
  exact ⟨s :: trail, .onward h hends, List.forall_mem_cons.mpr ⟨hdepth, hpositive⟩⟩

/-- One round in front of a search, if it looks at an instruction as `seek` does. The distance to
    what is found is counted by `far`, and by `near` from the next place. -/
theorem closes_of_look {same partner op : Op} (hne : same ≠ partner) {depth position place : Nat}
    {rest : List Op} {far near : Nat → Nat} (hfar : far 0 = position)
    (hshift : ∀ distance, far (distance + 1) = near distance)
    (hround : round ⟨place, (depth + 1 : Nat)⟩ =
      look same partner ⟨place, (depth + 1 : Nat)⟩ position op)
    (hrest : ∀ depth : Nat, Closes round ⟨position, (depth + 1 : Nat)⟩
      ((seek same partner depth rest).map near)) :
    Closes round ⟨place, (depth + 1 : Nat)⟩ ((seek same partner depth (op :: rest)).map far) := by
  -- the search counts the bracket that it started from too, `seek` only the ones met since
  have hdepth : (0 : Int) < (depth + 1 : Nat) := by omega
  by_cases hsame : op = same
  · subst hsame
    rw [look, if_pos rfl] at hround
    rw [seek_same _ _ hne, map_map_succ hshift]
    exact .onward hdepth hround (hrest (depth + 1))
  by_cases hpartner : op = partner
  · subst hpartner
    rw [look, if_neg hsame, if_pos rfl] at hround
    cases depth with
    | zero =>
      rw [seek_partner_zero, Option.map_some, hfar]
      exact .over hdepth hround
    | succ depth =>
      rw [if_neg (by simp only; omega)] at hround
      have hless : ((depth + 1 + 1 : Nat) : Int) - 1 = (depth + 1 : Nat) := by omega
      rw [seek_partner_succ, map_map_succ hshift]
      exact .onward hdepth (hround.trans (by rw [hless])) (hrest depth)
  · rw [look, if_neg hsame, if_neg hpartner] at hround
    rw [seek_other _ _ hpartner hsame, map_map_succ hshift]
    exact .onward hdepth hround (hrest depth)

end Closes

/-- The search forward ends with what `seek` finds among the instructions behind its place. -/
theorem closes_forward {program : Program} :
    ∀ (rest : List Op) (position depth : Nat), program.ops.drop (position + 1) = rest →
      Closes (forward program) ⟨position, (depth + 1 : Nat)⟩
        ((seek .loopStart .loopEnd depth rest).map (position + 1 + ·)) := by
  intro rest
  induction rest with
  | nil =>
    intro position depth hrest
    have hnone : program.get? (position + 1) = none :=
      Program.get?_eq_none_iff.mpr (List.drop_eq_nil_iff.mp hrest)
    refine .over (by simp only; omega) ?_
    simp only [forward, hnone, seek, Option.map_none]
  | cons op rest ih =>
    intro position depth hrest
    have hop : program.get? (position + 1) = some op := getElem?_of_drop hrest
    have hlater : program.ops.drop (position + 1 + 1) = rest := drop_succ_of_drop hrest
    refine closes_of_look (by decide) (Nat.add_zero _) (fun distance => ?_) ?_
      (fun depth => ih (position + 1) depth hlater)
    · omega
    · simp only [forward, hop]

/-- The search backward ends with what `seek` finds among the instructions before its place. -/
theorem closes_backward {program : Program} :
    ∀ (position depth : Nat), position ≤ program.length →
      Closes (backward program) ⟨position, (depth + 1 : Nat)⟩
        ((seek .loopEnd .loopStart depth (program.ops.take position).reverse).map
          (position - 1 - ·)) := by
  intro position
  induction position with
  | zero =>
    intro depth _
    exact .over (by simp only; omega) rfl
  | succ position ih =>
    intro depth hposition
    obtain ⟨op, hop⟩ : ∃ op, program.ops[position]? = some op :=
      ⟨_, List.getElem?_eq_getElem hposition⟩
    have hget : program.get? position = some op := hop
    have hnearest : position + 1 - 1 - 0 = position := by omega
    rw [reverse_take_succ hop]
    refine closes_of_look (by decide) hnearest (fun distance => ?_) ?_
      (fun depth => ih depth (Nat.le_of_succ_le hposition))
    · omega
    · simp only [backward, hget]

theorem closes_forward_start (program : Program) (start : Nat) :
    Closes (forward program) ⟨start, 1⟩ (program.closingOf? start) :=
  closes_forward _ start 0 rfl

theorem closes_backward_start {program : Program} {stop : Nat} (h : stop ≤ program.length) :
    Closes (backward program) ⟨stop, 1⟩ (program.openingOf? stop) :=
  closes_backward stop 0 h

end Search

/-! ## Where the brackets are even -/

/-- The instructions from one position to another, both included. -/
def stretch (ops : List Op) (first last : Nat) : List Op :=
  (ops.drop first).take (last + 1 - first)

/-- From one position to another there are as many `[` as `]`. -/
def EvenStretch (p : Program) (first last : Nat) : Prop :=
  (stretch p.ops first last).count .loopStart = (stretch p.ops first last).count .loopEnd

/-- The positions behind another one up to which the brackets are even. -/
def evenStops (p : Program) (start : Nat) : Set Nat :=
  {stop | start < stop ∧ stop < p.length ∧ EvenStretch p start stop}

/-- The positions before another one from which on the brackets are even. -/
def evenStarts (p : Program) (stop : Nat) : Set Nat :=
  {start | start < stop ∧ EvenStretch p start stop}

variable {p : Program} {start stop : Nat}

theorem evenStretch_iff_levelAt (h : start ≤ stop + 1) :
    EvenStretch p start stop ↔ levelAt p.ops (stop + 1) = levelAt p.ops start := by
  have hlevel := levelAt_add p.ops start (stop + 1 - start)
  rw [Nat.add_sub_cancel' h, level] at hlevel
  unfold EvenStretch stretch
  omega

/-- Inside a loop the level is above that before its `[`, and its `]` comes back to that. -/
theorem Matched.isLeast_evenStops (h : Matched p.ops start stop) :
    IsLeast (evenStops p start) stop := by
  have hlt := h.lt
  have hup : levelAt p.ops (start + 1) = levelAt p.ops start + 1 := levelAt_succ h.opens
  have hdown : levelAt p.ops (stop + 1) = levelAt p.ops stop - 1 := levelAt_succ h.closes
  have hlevel := h.level_eq
  refine ⟨⟨hlt, (List.getElem?_eq_some_iff.mp h.closes).1, ?_⟩, ?_⟩
  · rw [evenStretch_iff_levelAt (by omega)]
    omega
  · rintro earlier ⟨hstart, -, heven⟩
    rw [evenStretch_iff_levelAt (by omega)] at heven
    apply Nat.le_of_not_lt
    intro hinside
    have := h.le_level (earlier + 1) (by omega) hinside
    omega

theorem Matched.isGreatest_evenStarts (h : Matched p.ops start stop) :
    IsGreatest (evenStarts p stop) start := by
  have hlt := h.lt
  have hup : levelAt p.ops (start + 1) = levelAt p.ops start + 1 := levelAt_succ h.opens
  have hdown : levelAt p.ops (stop + 1) = levelAt p.ops stop - 1 := levelAt_succ h.closes
  have hlevel := h.level_eq
  refine ⟨⟨hlt, ?_⟩, ?_⟩
  · rw [evenStretch_iff_levelAt (by omega)]
    omega
  · rintro later ⟨hstop, heven⟩
    rw [evenStretch_iff_levelAt (by omega)] at heven
    apply Nat.le_of_not_lt
    intro hinside
    have := h.le_level later hinside (Nat.le_of_lt hstop)
    omega

/-- A `[` up to which the brackets get even has a partner. -/
theorem exists_matched_of_mem_evenStops (hopen : p.ops[start]? = some .loopStart)
    (h : stop ∈ evenStops p start) : ∃ partner, Matched p.ops start partner := by
  obtain ⟨hlt, -, heven⟩ := h
  rw [evenStretch_iff_levelAt (by omega)] at heven
  have hup : levelAt p.ops (start + 1) = levelAt p.ops start + 1 := levelAt_succ hopen
  exact exists_matched_of_loopStart hopen ⟨stop + 1, by omega, by omega⟩

theorem exists_matched_of_mem_evenStarts (hclose : p.ops[stop]? = some .loopEnd)
    (h : start ∈ evenStarts p stop) : ∃ partner, Matched p.ops partner stop := by
  obtain ⟨hlt, heven⟩ := h
  rw [evenStretch_iff_levelAt (by omega)] at heven
  have hdown : levelAt p.ops (stop + 1) = levelAt p.ops stop - 1 := levelAt_succ hclose
  exact exists_matched_of_loopEnd hclose ⟨start, Nat.le_of_lt hlt, by omega⟩

/-- The search from a `[` finds the first position up to which the brackets are even. -/
theorem Program.closingOf?_cases (hopen : p.get? start = some .loopStart) :
    (∃ stop, IsLeast (evenStops p start) stop ∧ p.closingOf? start = some stop) ∨
      evenStops p start = ∅ ∧ p.closingOf? start = none := by
  cases hfound : p.closingOf? start with
  | some stop =>
    have h := (closingOf?_eq_some_iff hopen).mp hfound
    exact Or.inl ⟨stop, h.isLeast_evenStops, rfl⟩
  | none =>
    refine Or.inr ⟨Set.eq_empty_of_forall_notMem fun stop hstop => ?_, rfl⟩
    obtain ⟨partner, h⟩ := exists_matched_of_mem_evenStops hopen hstop
    rw [(closingOf?_eq_some_iff hopen).mpr h] at hfound
    cases hfound

/-- The search from a `]` finds the last position from which on the brackets are even. -/
theorem Program.openingOf?_cases (hclose : p.get? stop = some .loopEnd) :
    (∃ start, IsGreatest (evenStarts p stop) start ∧ p.openingOf? stop = some start) ∨
      evenStarts p stop = ∅ ∧ p.openingOf? stop = none := by
  cases hfound : p.openingOf? stop with
  | some start =>
    have h := (openingOf?_eq_some_iff hclose).mp hfound
    exact Or.inl ⟨start, h.isGreatest_evenStarts, rfl⟩
  | none =>
    refine Or.inr ⟨Set.eq_empty_of_forall_notMem fun start hstart => ?_, rfl⟩
    obtain ⟨partner, h⟩ := exists_matched_of_mem_evenStarts hclose hstart
    rw [(openingOf?_eq_some_iff hclose).mpr h] at hfound
    cases hfound

/-! ## Processors that search -/

namespace Processor

variable {p : Processor} {start stop : Nat}

theorem jumps_of_scan (hscan : p.strategy = .scan) : p.jumps = none := by
  unfold strategy at hscan
  split at hscan
  · assumption
  · cases hscan

theorem consistent_of_scan (hscan : p.strategy = .scan) : p.Consistent := by
  intro table htable
  rw [jumps_of_scan hscan] at htable
  cases htable

/-- From each `[` that has a partner its search leads there, and from no other. -/
theorem closing_eq_ok_iff_matched (hscan : p.strategy = .scan) :
    p.program.get? start = some .loopStart ∧ { p with ip := start }.closing = .ok stop ↔
      Matched p.program.ops start stop := by
  have hp : { p with ip := start }.Consistent := consistent_of_scan hscan
  constructor
  · rintro ⟨hopen, hclosing⟩
    exact (closing_eq_ok_iff hp hopen).mp hclosing
  · intro h
    exact ⟨h.opens, (closing_eq_ok_iff hp h.opens).mpr h⟩

theorem opening_eq_ok_iff_matched (hscan : p.strategy = .scan) :
    p.program.get? stop = some .loopEnd ∧ { p with ip := stop }.opening = .ok start ↔
      Matched p.program.ops start stop := by
  have hp : { p with ip := stop }.Consistent := consistent_of_scan hscan
  constructor
  · rintro ⟨hclose, hopening⟩
    exact (opening_eq_ok_iff hp hclose).mp hopening
  · intro h
    exact ⟨h.closes, (opening_eq_ok_iff hp h.closes).mpr h⟩

/-- Let a processor search for its brackets. In any program, with balanced brackets or not:
    - From a `[` the search goes forward, and it comes to an end. The count of open brackets is
      positive in every round, so that taking one from it does not lead below zero. It is the first
      position up to which there are as many `[` as `]` that is found, and if there is none the
      fault names the processor and the `[`.
    - From a `]` the search goes backward in the same way, to the last position from which on there
      are as many `[` as `]`.
    - The search from a `[` leads to a position iff there is a `]` from which the search leads
      back. -/
theorem searches_stop_where_brackets_even_out {p : Processor} (hscan : p.strategy = .scan) :
    (∀ start, p.program.get? start = some .loopStart →
      let q := { p with ip := start }
      let round := Search.forward p.program
      (∃ stop, IsLeast (evenStops p.program start) stop ∧ q.closing = .ok stop ∧
          Search.Closes round ⟨start, 1⟩ (some stop)) ∨
        evenStops p.program start = ∅ ∧
          q.closing = .error (.unmatchedBracket p.id start .opening) ∧
          Search.Closes round ⟨start, 1⟩ none) ∧
    (∀ stop, p.program.get? stop = some .loopEnd →
      let q := { p with ip := stop }
      let round := Search.backward p.program
      (∃ start, IsGreatest (evenStarts p.program stop) start ∧ q.opening = .ok start ∧
          Search.Closes round ⟨stop, 1⟩ (some start)) ∨
        evenStarts p.program stop = ∅ ∧
          q.opening = .error (.unmatchedBracket p.id stop .closing) ∧
          Search.Closes round ⟨stop, 1⟩ none) ∧
    ∀ start stop,
      p.program.get? start = some .loopStart ∧ { p with ip := start }.closing = .ok stop ↔
        p.program.get? stop = some .loopEnd ∧ { p with ip := stop }.opening = .ok start := by
  refine ⟨?_, ?_, ?_⟩
  · intro start hopen q round
    have hq : q.Consistent := consistent_of_scan hscan
    have hcloses := Search.closes_forward_start p.program start
    rw [closing_eq_target hq hopen]
    rcases Program.closingOf?_cases hopen with ⟨stop, hleast, hfound⟩ | ⟨hnone, hfound⟩ <;>
      rw [hfound] at hcloses
    · exact Or.inl ⟨stop, hleast, target_eq_ok_iff.mpr hfound, hcloses⟩
    · exact Or.inr ⟨hnone, target_eq_error_iff.mpr ⟨hfound, rfl⟩, hcloses⟩
  · intro stop hclose q round
    have hq : q.Consistent := consistent_of_scan hscan
    have hstop := (List.getElem?_eq_some_iff.mp hclose).1
    have hcloses := Search.closes_backward_start (Nat.le_of_lt hstop)
    rw [opening_eq_target hq hclose]
    rcases Program.openingOf?_cases hclose with ⟨start, hgreatest, hfound⟩ | ⟨hnone, hfound⟩ <;>
      rw [hfound] at hcloses
    · exact Or.inl ⟨start, hgreatest, target_eq_ok_iff.mpr hfound, hcloses⟩
    · exact Or.inr ⟨hnone, target_eq_error_iff.mpr ⟨hfound, rfl⟩, hcloses⟩
  · intro start stop
    rw [closing_eq_ok_iff_matched hscan, opening_eq_ok_iff_matched hscan]

/-- Between a stray `]` and a stray `[` the search from the outer `[` passes over the inner loop. -/
theorem searches_stop_where_brackets_even_out_on_strays :
    let p := load 4 (Program.parse "][[+]-][") .scan
    p.strategy = .scan ∧ p.program.get? 1 = some .loopStart ∧ p.program.get? 0 = some .loopEnd ∧
      IsLeast (evenStops p.program 1) 6 ∧ { p with ip := 6 }.opening = .ok 1 ∧
      evenStarts p.program 0 = ∅ ∧ Search.Closes (Search.backward p.program) ⟨0, 1⟩ none := by
  intro p
  obtain ⟨hforward, hbackward, hinverse⟩ :=
    searches_stop_where_brackets_even_out (p := p) rfl
  have hclosing : { p with ip := 1 }.closing = .ok 6 := by rfl
  refine ⟨rfl, rfl, rfl, ?_, ((hinverse 1 6).mp ⟨rfl, hclosing⟩).2, ?_⟩
  · rcases hforward 1 rfl with ⟨stop, hleast, hstop, -⟩ | ⟨-, hfault, -⟩
    · rw [hclosing] at hstop
      cases hstop
      exact hleast
    · rw [hclosing] at hfault
      cases hfault
  · rcases hbackward 0 rfl with ⟨start, -, hopening, -⟩ | ⟨hnone, -, hcloses⟩
    · cases hopening
    · exact ⟨hnone, hcloses⟩

end Processor

end TapeRing
