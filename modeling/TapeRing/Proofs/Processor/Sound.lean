import TapeRing.Proofs.Processor.Partners
import TapeRing.Proofs.Tape

/-! # Sound processors

The invariant of a processor: its pointers are in range, its cells hold bytes or 256, and its table
is that of its program. A fresh processor is sound and every tick keeps it so (`Sound.tick`). -/

namespace TapeRing.Processor

structure Sound (p : Processor) : Prop where
  consistent : p.Consistent
  ip_le : p.ip ≤ p.program.length
  dp_lt : p.dp < p.tape.size
  bounded : p.tape.Bounded

theorem sound_load (id : Nat) (program : Program) (strategy : BracketStrategy) :
    (load id program strategy).Sound :=
  ⟨consistent_load id program strategy, Nat.zero_le _, Nat.zero_lt_one, Tape.bounded_fresh⟩

/-- A sound processor has a cell under its data pointer. -/
theorem Sound.cell {p : Processor} (h : p.Sound) :
    ∃ value, p.tape.cells[p.dp]? = some value ∧ CellValue value :=
  ⟨_, List.getElem?_eq_getElem h.dp_lt, h.bounded _ (List.getElem_mem _)⟩

/-- The brackets of a match stand before the end of their program. -/
theorem lt_length_of_matched {program : Program} {start stop : Nat}
    (h : Matched program.ops start stop) : stop < program.length :=
  (List.getElem?_eq_some_iff.mp h.closes).1

theorem Sound.moveLeft {p : Processor} (h : p.Sound) :
    p.moveLeft.dp < p.moveLeft.tape.size ∧ p.moveLeft.tape.Bounded := by
  have hdp := h.dp_lt
  unfold Processor.moveLeft
  split
  · exact ⟨by simp only [Tape.size_growLeft]; omega, h.bounded.growLeft⟩
  · exact ⟨by simp only; omega, h.bounded⟩

theorem Sound.moveRight {p : Processor} (h : p.Sound) :
    p.moveRight.dp < p.moveRight.tape.size ∧ p.moveRight.tape.Bounded := by
  have hdp := h.dp_lt
  unfold Processor.moveRight
  split
  · exact ⟨by simp only [Tape.size_growRight]; omega, h.bounded.growRight⟩
  · exact ⟨by simp only; omega, h.bounded⟩

/-- Each instruction keeps a processor sound. -/
theorem Sound.successor {p q : Processor} {op : Op} (hp : p.Sound) (hop : p.op? = some op)
    (h : p.Successor op q) : q.Sound := by
  have hip := ip_lt_of_op? hop
  have hconsistent := hp.consistent.successor h
  obtain ⟨-, hprogram, -⟩ := h.fixed
  have hip' : p.ip + 1 ≤ q.program.length := by rw [hprogram]; exact hip
  cases h with
  | increment htape =>
    exact ⟨hconsistent, hip', Tape.size_of_update_eq_ok htape ▸ hp.dp_lt,
      hp.bounded.update (fun _ => CellValue.up) htape⟩
  | decrement htape =>
    exact ⟨hconsistent, hip', Tape.size_of_update_eq_ok htape ▸ hp.dp_lt,
      hp.bounded.update (fun _ => CellValue.down) htape⟩
  | left =>
    refine ⟨hconsistent, ?_, hp.moveLeft.1, hp.moveLeft.2⟩
    simpa only [next, ip_moveLeft] using hip'
  | right =>
    refine ⟨hconsistent, ?_, hp.moveRight.1, hp.moveRight.2⟩
    simpa only [next, ip_moveRight] using hip'
  | enter hread hvalue => exact ⟨hconsistent, hip', hp.dp_lt, hp.bounded⟩
  | skip hread hclosing =>
    have hmatched := (closing_eq_ok_iff hp.consistent hop).mp hclosing
    exact ⟨hconsistent, lt_length_of_matched hmatched, hp.dp_lt, hp.bounded⟩
  | back hopening =>
    have hmatched := (opening_eq_ok_iff hp.consistent hop).mp hopening
    have hlt := hmatched.lt
    have hlength := lt_length_of_matched hmatched
    exact ⟨hconsistent, by simp only; omega, hp.dp_lt, hp.bounded⟩
  | emit hread hbyte => exact ⟨hconsistent, hip', hp.dp_lt, hp.bounded⟩
  | store htape =>
    exact ⟨hconsistent, hip', Tape.size_of_write_eq_ok htape ▸ hp.dp_lt,
      hp.bounded.write (cellValue_toNat _) htape⟩

theorem Sound.tick {κ σ : Type} [ByteSink κ] [ByteSource σ] {p : Processor} (h : p.Sound)
    (channels : Channels κ σ) : (p.tick channels).state.Sound :=
  tick_invariant (fun hop hnext hp => hp.successor hop hnext) p channels h

end TapeRing.Processor
