import TapeRing.Proofs.Brackets.Table
import TapeRing.Proofs.Processor.Successor

/-! # Where jumps lead

A processor whose table, if it has one, is that of its program jumps between matching brackets, and
it does so in the same way with and without the table. -/

namespace TapeRing.Processor

/-- The table of a processor, if it has one, is that of its program. -/
def Consistent (p : Processor) : Prop :=
  ∀ table, p.jumps = some table → table = JumpTable.build p.program

theorem consistent_load (id : Nat) (program : Program) (strategy : BracketStrategy) :
    (load id program strategy).Consistent := by
  intro table htable
  cases strategy with
  | scan => cases htable
  | table => exact (Option.some.inj htable).symm

theorem Consistent.successor {p q : Processor} {op : Op} (hp : p.Consistent)
    (h : p.Successor op q) : q.Consistent := by
  obtain ⟨-, hprogram, hjumps⟩ := h.fixed
  intro table htable
  rw [hjumps] at htable
  rw [hprogram]
  exact hp table htable

/-- The target of a jump, or the fault of a bracket without a partner. -/
def target (p : Processor) (bracket : Bracket) : Option Nat → Except Fault Nat
  | some position => .ok position
  | none => .error (.unmatchedBracket p.id p.ip bracket)

theorem closing_eq_target {p : Processor} (hp : p.Consistent) (hop : p.op? = some .loopStart) :
    p.closing = p.target .opening (p.program.closingOf? p.ip) := by
  unfold closing
  cases hjumps : p.jumps with
  | none => rfl
  | some table =>
    rw [hp table hjumps, ← JumpTable.partner_build_of_loopStart hop]
    rfl

theorem opening_eq_target {p : Processor} (hp : p.Consistent) (hop : p.op? = some .loopEnd) :
    p.opening = p.target .closing (p.program.openingOf? p.ip) := by
  unfold opening
  cases hjumps : p.jumps with
  | none => rfl
  | some table =>
    rw [hp table hjumps, ← JumpTable.partner_build_of_loopEnd hop]
    rfl

theorem target_eq_ok_iff {p : Processor} {bracket : Bracket} {found : Option Nat} {position : Nat} :
    p.target bracket found = .ok position ↔ found = some position := by
  cases found <;> simp [target]

theorem target_eq_error_iff {p : Processor} {bracket : Bracket} {found : Option Nat}
    {fault : Fault} : p.target bracket found = .error fault ↔
      found = none ∧ fault = .unmatchedBracket p.id p.ip bracket := by
  cases found <;> simp [target, eq_comm]

theorem closing_eq_ok_iff {p : Processor} (hp : p.Consistent) (hop : p.op? = some .loopStart)
    {stop : Nat} : p.closing = .ok stop ↔ Matched p.program.ops p.ip stop := by
  rw [closing_eq_target hp hop, target_eq_ok_iff, closingOf?_eq_some_iff hop]

theorem closing_eq_error_iff {p : Processor} (hp : p.Consistent) (hop : p.op? = some .loopStart)
    {fault : Fault} : p.closing = .error fault ↔
      (∀ stop, ¬ Matched p.program.ops p.ip stop) ∧
        fault = .unmatchedBracket p.id p.ip .opening := by
  rw [closing_eq_target hp hop, target_eq_error_iff, Option.eq_none_iff_forall_ne_some]
  simp only [ne_eq, closingOf?_eq_some_iff hop]

theorem opening_eq_ok_iff {p : Processor} (hp : p.Consistent) (hop : p.op? = some .loopEnd)
    {start : Nat} : p.opening = .ok start ↔ Matched p.program.ops start p.ip := by
  rw [opening_eq_target hp hop, target_eq_ok_iff, openingOf?_eq_some_iff hop]

theorem opening_eq_error_iff {p : Processor} (hp : p.Consistent) (hop : p.op? = some .loopEnd)
    {fault : Fault} : p.opening = .error fault ↔
      (∀ start, ¬ Matched p.program.ops start p.ip) ∧
        fault = .unmatchedBracket p.id p.ip .closing := by
  rw [opening_eq_target hp hop, target_eq_error_iff, Option.eq_none_iff_forall_ne_some]
  simp only [ne_eq, openingOf?_eq_some_iff hop]

/-- Where an instruction leads: to the next one, from the `[` of a loop on a zero cell to the
    instruction behind the loop, or from the `]` of a loop to its `[`. -/
theorem Successor.ip_cases {p q : Processor} {op : Op} (hp : p.Consistent) (hop : p.op? = some op)
    (h : p.Successor op q) :
    op ≠ .loopEnd ∧ q.ip = p.ip + 1 ∧
        (op = .loopStart → ∃ value, p.tape.cells[p.dp]? = some value ∧ value ≠ 0) ∨
      (∃ stop, op = .loopStart ∧ Matched p.program.ops p.ip stop ∧
        p.tape.cells[p.dp]? = some 0 ∧ q = { p with ip := stop + 1 }) ∨
      ∃ start, op = .loopEnd ∧ Matched p.program.ops start p.ip ∧ q = { p with ip := start } := by
  by_cases hopen : op = .loopStart
  · subst hopen
    cases h with
    | enter hread hvalue =>
      exact Or.inl ⟨nofun, rfl, fun _ => ⟨_, Tape.read_eq_ok_iff.mp hread, hvalue⟩⟩
    | skip hread hclosing =>
      exact Or.inr (Or.inl ⟨_, rfl, (closing_eq_ok_iff hp hop).mp hclosing,
        Tape.read_eq_ok_iff.mp hread, rfl⟩)
  · by_cases hclose : op = .loopEnd
    · subst hclose
      cases h with
      | back hopening => exact Or.inr (Or.inr ⟨_, rfl, (opening_eq_ok_iff hp hop).mp hopening, rfl⟩)
    · exact Or.inl ⟨hclose, h.ip_eq hopen hclose, fun heq => absurd heq hopen⟩

/-- The `[` of a loop is come to from before it, or from its `]`. -/
theorem Successor.comes_to_loopStart {p q : Processor} {op : Op} (hp : p.Consistent) (hop : p.op? = some op)
    (h : p.Successor op q) {first last : Nat} (hmatched : Matched p.program.ops first last)
    (hip : q.ip = first) : p.ip < first ∨ p.ip = last ∧ q = { p with ip := first } := by
  rcases h.ip_cases hp hop with
    ⟨-, hnext, -⟩ | ⟨stop, -, hskipped, -, rfl⟩ | ⟨start, -, hback, rfl⟩
  · exact Or.inl (by omega)
  · have hlt := hskipped.lt
    have hip : stop + 1 = first := hip
    exact Or.inl (by omega)
  · obtain rfl : start = first := hip
    exact Or.inr ⟨hback.stop_unique hmatched, rfl⟩

/-- Over a zero cell no loop is entered. -/
theorem Successor.nonzero_of_enters {p q : Processor} (hp : p.Consistent)
    (h : p.Successor .loopStart q) (hop : p.program.ops[p.ip]? = some .loopStart)
    (hip : q.ip = p.ip + 1) : p.tape.cells[p.dp]? ≠ some 0 := by
  rcases h.ip_cases hp hop with ⟨-, -, hvalue⟩ | ⟨stop, -, hmatched, -, rfl⟩ | ⟨_, hclose, -⟩
  · obtain ⟨value, hcell, hne⟩ := hvalue rfl
    rw [hcell]
    exact fun heq => hne (Option.some.inj heq)
  · have hlt := hmatched.lt
    have hip : stop + 1 = p.ip + 1 := hip
    omega
  · cases hclose

end TapeRing.Processor
