import TapeRing.Processor

/-! # What a tick can do

`Successor` lists, instruction by instruction, the processors that a successful tick can lead to,
with everything that was checked on the way. A tick leads to such a processor or to none
(`tick_cases`), so a property is kept by ticks if it is kept from each processor to its
successors. -/

namespace TapeRing

/-- A property of every processor that an action can lead to. -/
def Action.Leads (Holds : Processor → Prop) : Action → Prop
  | .idle => True
  | .fail _ => True
  | .advance next => Holds next
  | .emit _ next => Holds next
  | .receive next => ∀ byte after, next byte = .ok after → Holds after

namespace Processor

/-- What a processor can be after it has executed an instruction. -/
inductive Successor (p : Processor) : Op → Processor → Prop
  | increment {tape : Tape} : p.tape.increment p.dp = .ok tape →
      Successor p .increment { p with tape := tape }.next
  | decrement {tape : Tape} : p.tape.decrement p.dp = .ok tape →
      Successor p .decrement { p with tape := tape }.next
  | left : Successor p .left p.moveLeft.next
  | right : Successor p .right p.moveRight.next
  | enter {value : Int} : p.tape.read p.dp = .ok value → value ≠ 0 → Successor p .loopStart p.next
  | skip {stop : Nat} : p.tape.read p.dp = .ok 0 → p.closing = .ok stop →
      Successor p .loopStart { p with ip := stop + 1 }
  | back {start : Nat} : p.opening = .ok start → Successor p .loopEnd { p with ip := start }
  | emit {value : Int} {byte : UInt8} : p.tape.read p.dp = .ok value → byteOfCell value = .ok byte →
      Successor p .output p.next
  | store {byte : UInt8} {tape : Tape} : p.tape.write p.dp (toAscii byte).toNat = .ok tape →
      Successor p .input { p with tape := tape }.next

theorem leads_perform (p : Processor) (op : Op) : (p.perform op).Leads (p.Successor op) := by
  cases op with
  | increment =>
    simp only [perform]
    split
    · exact .increment ‹_›
    · trivial
  | decrement =>
    simp only [perform]
    split
    · exact .decrement ‹_›
    · trivial
  | left => exact .left
  | right => exact .right
  | loopStart =>
    simp only [perform]
    split
    · trivial
    · rename_i value hread
      split
      · rename_i hzero
        subst hzero
        split
        · exact .skip hread ‹_›
        · trivial
      · exact .enter hread ‹_›
  | loopEnd =>
    simp only [perform]
    split
    · exact .back ‹_›
    · trivial
  | output =>
    simp only [perform]
    split
    · trivial
    · split
      · exact .emit ‹_› ‹_›
      · trivial
  | input =>
    intro byte after hstore
    unfold store at hstore
    split at hstore
    · cases hstore
      exact .store ‹_›
    · cases hstore

/-- Every instruction asks for something. -/
theorem perform_ne_idle (p : Processor) (op : Op) : p.perform op ≠ .idle := by
  cases op with
  | increment => simp only [perform]; split <;> nofun
  | decrement => simp only [perform]; split <;> nofun
  | left => nofun
  | right => nofun
  | loopStart =>
    simp only [perform]
    split
    · nofun
    · split
      · split <;> nofun
      · nofun
  | loopEnd => simp only [perform]; split <;> nofun
  | output =>
    simp only [perform]
    split
    · nofun
    · split <;> nofun
  | input => nofun

/-- An instruction stands before the end of its program. -/
theorem ip_lt_of_op? {p : Processor} {op : Op} (hop : p.op? = some op) :
    p.ip < p.program.length :=
  (List.getElem?_eq_some_iff.mp hop).1

theorem isFinished_of_op? {p : Processor} {op : Op} (hop : p.op? = some op) :
    p.isFinished = false := by
  have := ip_lt_of_op? hop
  simp only [isFinished, beq_eq_false_iff_ne]
  omega

theorem action_of_op? {p : Processor} {op : Op} (hop : p.op? = some op) :
    p.action = p.perform op := by
  rw [action, hop]

theorem leads_action {p : Processor} {op : Op} (hop : p.op? = some op) :
    p.action.Leads (p.Successor op) := by
  rw [action_of_op? hop]
  exact leads_perform p op

variable {κ σ : Type} [ByteSink κ] [ByteSource σ]

/-! ## Ticks that use the channels -/

section Channels

variable {p next after : Processor} {c : Channels κ σ} {sink : κ} {source : σ} {byte : UInt8}
  {fault : Fault} {receive : UInt8 → Except Fault Processor}

theorem tick_emit_ok (h : p.action = .emit byte next)
    (hput : ByteSink.put c.sink byte = (.ok (), sink)) :
    p.tick c = ⟨.ok (), next, { c with sink := sink }⟩ := by
  simp only [tick, h, carryOut, hput]

theorem tick_emit_error (h : p.action = .emit byte next)
    (hput : ByteSink.put c.sink byte = (.error fault, sink)) :
    p.tick c = ⟨.error fault, p, { c with sink := sink }⟩ := by
  simp only [tick, h, carryOut, hput]

theorem tick_receive_ok (h : p.action = .receive receive)
    (hget : ByteSource.get c.source = (.ok byte, source)) (hafter : receive byte = .ok after) :
    p.tick c = ⟨.ok (), after, { c with source := source }⟩ := by
  simp only [tick, h, carryOut, hget, hafter]

theorem tick_receive_error (h : p.action = .receive receive)
    (hget : ByteSource.get c.source = (.error fault, source)) :
    p.tick c = ⟨.error fault, p, { c with source := source }⟩ := by
  simp only [tick, h, carryOut, hget]

/-- The only instructions that use the channels are `.` and `,`. -/
theorem channels_tick (hput : p.op? ≠ some .output) (hget : p.op? ≠ some .input)
    (c : Channels κ σ) : (p.tick c).channels = c := by
  cases hop : p.op? with
  | none => simp only [tick, action, hop, carryOut]
  | some op =>
    rw [tick, action_of_op? hop]
    cases op with
    | output => exact absurd hop hput
    | input => exact absurd hop hget
    | left => rfl
    | right => rfl
    | increment => rw [perform]; split <;> rfl
    | decrement => rw [perform]; split <;> rfl
    | loopEnd => rw [perform]; split <;> rfl
    | loopStart =>
      rw [perform]
      split
      · rfl
      · split
        · split <;> rfl
        · rfl

end Channels

/-! ## Where ticks lead -/

/-- An action that succeeds leads where actions lead, unless there was nothing to do. -/
theorem leads_of_carryOut_ok {Holds : Processor → Prop} {action : Action} (h : action.Leads Holds)
    (hidle : action ≠ .idle) {p : Processor} {channels : Channels κ σ}
    (hok : (p.carryOut channels action).result = .ok ()) :
    Holds (p.carryOut channels action).state := by
  cases action with
  | idle => exact absurd rfl hidle
  | fail fault => cases hok
  | advance next => exact h
  | emit byte next =>
    simp only [carryOut] at hok ⊢
    split at hok
    · exact h
    · cases hok
  | receive next =>
    simp only [carryOut] at hok ⊢
    split at hok
    · cases hok
    · split at hok
      · exact h _ _ ‹_›
      · cases hok

/-- A tick that succeeds leads to a successor. -/
theorem successor_of_tick_ok {p : Processor} {op : Op} (hop : p.op? = some op)
    {channels : Channels κ σ} (hok : (p.tick channels).result = .ok ()) :
    p.Successor op (p.tick channels).state := by
  have hidle : p.action ≠ .idle := by
    rw [action_of_op? hop]
    exact perform_ne_idle p op
  exact leads_of_carryOut_ok (leads_action hop) hidle hok

theorem tick_of_finished {p : Processor} (h : p.isFinished = true) (channels : Channels κ σ) :
    p.tick channels = ⟨.ok (), p, channels⟩ := by
  have hop : p.op? = none :=
    Program.get?_eq_none_iff.mpr (Nat.le_of_eq (beq_iff_eq.mp h).symm)
  rw [tick, action, hop]
  rfl

/-- A tick leaves a processor as it was or leads to a successor of it. -/
theorem tick_cases (p : Processor) (channels : Channels κ σ) :
    (p.tick channels).state = p ∨
      ∃ op, p.op? = some op ∧ p.Successor op (p.tick channels).state := by
  cases hresult : (p.tick channels).result with
  | error fault => exact Or.inl (state_of_tick_error hresult)
  | ok done =>
    cases hop : p.op? with
    | none =>
      left
      simp only [tick, action, hop, carryOut]
    | some op => exact Or.inr ⟨op, rfl, successor_of_tick_ok hop hresult⟩

/-- What passes from each processor to its successors passes through every tick. -/
theorem tick_invariant {Holds : Processor → Prop}
    (hsuccessor : ∀ {p q : Processor} {op : Op}, p.op? = some op → p.Successor op q →
      Holds p → Holds q) (p : Processor) (channels : Channels κ σ) (h : Holds p) :
    Holds (p.tick channels).state := by
  rcases tick_cases p channels with heq | ⟨op, hop, hnext⟩
  · rw [heq]
    exact h
  · exact hsuccessor hop hnext h

@[simp] theorem ip_moveLeft (p : Processor) : p.moveLeft.ip = p.ip := by
  unfold moveLeft
  split <;> rfl

@[simp] theorem ip_moveRight (p : Processor) : p.moveRight.ip = p.ip := by
  unfold moveRight
  split <;> rfl

/-- After every instruction but a bracket comes the next one. -/
theorem Successor.ip_eq {p q : Processor} {op : Op} (h : p.Successor op q)
    (hopen : op ≠ .loopStart) (hclose : op ≠ .loopEnd) : q.ip = p.ip + 1 := by
  cases h with
  | left => rw [next, ip_moveLeft]
  | right => rw [next, ip_moveRight]
  | enter => exact absurd rfl hopen
  | skip => exact absurd rfl hopen
  | back => exact absurd rfl hclose
  | _ => rfl

/-- The parts of a processor that no instruction changes. -/
theorem Successor.fixed {p q : Processor} {op : Op} (h : p.Successor op q) :
    q.id = p.id ∧ q.program = p.program ∧ q.jumps = p.jumps := by
  cases h with
  | left => unfold moveLeft; split <;> exact ⟨rfl, rfl, rfl⟩
  | right => unfold moveRight; split <;> exact ⟨rfl, rfl, rfl⟩
  | _ => exact ⟨rfl, rfl, rfl⟩

theorem fixed_tick (p : Processor) (channels : Channels κ σ) :
    (p.tick channels).state.id = p.id ∧ (p.tick channels).state.program = p.program ∧
      (p.tick channels).state.jumps = p.jumps := by
  rcases tick_cases p channels with heq | ⟨op, hop, hnext⟩
  · rw [heq]
    exact ⟨rfl, rfl, rfl⟩
  · exact hnext.fixed

end Processor

end TapeRing
