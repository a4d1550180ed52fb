import Mathlib.Algebra.GroupWithZero.Nat
import TapeRing.Processor

/-! # Structured programs

A block is a sequence of basic instructions and loops. Its flattening is the program in which a
loop is written as its body in brackets. `exec` gives blocks their meaning without an instruction
pointer: a loop runs its body while the cell under the data pointer is not zero. -/

namespace TapeRing

/-- The instructions that are no brackets. -/
inductive Basic
  | increment
  | decrement
  | left
  | right
  | output
  | input
deriving DecidableEq, Repr

def Basic.toOp : Basic → Op
  | .increment => .increment
  | .decrement => .decrement
  | .left => .left
  | .right => .right
  | .output => .output
  | .input => .input

/-- A structured program: nothing, or a basic instruction or a loop and what follows it. -/
inductive Block
  | done
  | basic (op : Basic) (rest : Block)
  | loop (body rest : Block)
deriving DecidableEq, Repr

/-- The program of a block. -/
def Block.flatten : Block → List Op
  | .done => []
  | .basic op rest => op.toOp :: rest.flatten
  | .loop body rest => .loopStart :: (body.flatten ++ .loopEnd :: rest.flatten)

/-- A tape with a place on it. -/
structure Memory where
  dp : Nat
  tape : Tape
deriving DecidableEq, Repr

def Memory.fresh : Memory := ⟨0, Tape.fresh⟩

/-- How much was executed: the number of basic instructions, and for each execution of a loop the
    number of times its body was run. -/
structure Tally where
  basics : Nat
  rounds : List Nat
deriving DecidableEq, Repr

namespace Tally

instance : Add Tally where
  add t t' := ⟨t.basics + t'.basics, t.rounds ++ t'.rounds⟩

/-- One tick for each basic instruction, and `2k + 1` for each execution of a loop that runs its
    body `k` times. -/
def ticks (t : Tally) : Nat :=
  t.basics + (t.rounds.map fun k => 2 * k + 1).sum

theorem ticks_add (t t' : Tally) : (t + t').ticks = t.ticks + t'.ticks := by
  show t.basics + t'.basics + ((t.rounds ++ t'.rounds).map fun k => 2 * k + 1).sum = _
  rw [List.map_append, List.sum_append]
  simp only [ticks]
  omega

end Tally

variable {κ σ : Type}

/-- Goes on after an outcome unless that is a fault or the fuel is used up. -/
def Outcome.andThen (first : Outcome (Option Tally) Memory κ σ)
    (second : Memory → Channels κ σ → Outcome (Option Tally) Memory κ σ) :
    Outcome (Option Tally) Memory κ σ :=
  match first with
  | ⟨.error fault, m, channels⟩ => ⟨.error fault, m, channels⟩
  | ⟨.ok none, m, channels⟩ => ⟨.ok none, m, channels⟩
  | ⟨.ok (some tally), m, channels⟩ =>
      let later := second m channels
      { later with result := later.result.map (Option.map (tally + ·)) }

/-- The outcome of an operation on the tape, which leaves the tape alone if it faults. -/
def Memory.changed (m : Memory) (channels : Channels κ σ) :
    Except Fault Tape → Outcome Unit Memory κ σ
  | .ok tape => ⟨.ok (), { m with tape := tape }, channels⟩
  | .error fault => ⟨.error fault, m, channels⟩

theorem Memory.result_changed_error {m : Memory} {channels : Channels κ σ}
    {changed : Except Fault Tape} {fault : Fault}
    (h : (m.changed channels changed).result = .error fault) : changed = .error fault := by
  cases changed with
  | ok tape => cases h
  | error other => exact congrArg Except.error (Except.error.inj h)

theorem Outcome.result_andThen_error {first : Outcome (Option Tally) Memory κ σ}
    {second : Memory → Channels κ σ → Outcome (Option Tally) Memory κ σ} {fault : Fault}
    (h : (first.andThen second).result = .error fault) :
    first.result = .error fault ∨ ∃ m channels, (second m channels).result = .error fault := by
  obtain ⟨result, m, channels⟩ := first
  cases result with
  | error other => exact Or.inl h
  | ok tally =>
    cases tally with
    | none => cases h
    | some tally =>
      refine Or.inr ⟨m, channels, ?_⟩
      simp only [Outcome.andThen] at h
      cases hlater : (second m channels).result with
      | error other => rw [hlater] at h; exact h
      | ok tally' => rw [hlater] at h; cases h

/-- Runs a body while the cell under the data pointer is not zero, at most `fuel` times. The body
    has been run `rounds` times before. -/
def whileNonzero (body : Memory → Channels κ σ → Outcome (Option Tally) Memory κ σ) :
    (fuel rounds : Nat) → Memory → Channels κ σ → Outcome (Option Tally) Memory κ σ
  | 0, rounds, m, channels =>
      match m.tape.read m.dp with
      | .error fault => ⟨.error fault, m, channels⟩
      | .ok value => ⟨.ok (if value = 0 then some ⟨0, [rounds]⟩ else none), m, channels⟩
  | fuel + 1, rounds, m, channels =>
      match m.tape.read m.dp with
      | .error fault => ⟨.error fault, m, channels⟩
      | .ok value =>
          if value = 0 then ⟨.ok (some ⟨0, [rounds]⟩), m, channels⟩
          else (body m channels).andThen (whileNonzero body fuel (rounds + 1))

theorem whileNonzero_of_read_error
    {body : Memory → Channels κ σ → Outcome (Option Tally) Memory κ σ} {m : Memory} {fault : Fault}
    (hread : m.tape.read m.dp = .error fault) (fuel rounds : Nat) (channels : Channels κ σ) :
    whileNonzero body fuel rounds m channels = ⟨.error fault, m, channels⟩ := by
  cases fuel <;> simp [whileNonzero, hread]

theorem whileNonzero_of_read_zero
    {body : Memory → Channels κ σ → Outcome (Option Tally) Memory κ σ} {m : Memory}
    (hread : m.tape.read m.dp = .ok 0) (fuel rounds : Nat) (channels : Channels κ σ) :
    whileNonzero body fuel rounds m channels = ⟨.ok (some ⟨0, [rounds]⟩), m, channels⟩ := by
  cases fuel <;> simp [whileNonzero, hread]

/-- A loop whose body comes back to its cell and has taken one from it is run as many times as the
    cell says. What holds of the tape may depend on how much is left in the cell. -/
theorem whileNonzero_counted {body : Memory → Channels κ σ → Outcome (Option Tally) Memory κ σ}
    {channels : Channels κ σ} {dp basics : Nat} {Holds : Nat → Tape → Prop}
    (hread : ∀ left t, Holds left t → t.read dp = .ok (left : Int))
    (hbody : ∀ left t, Holds (left + 1) t → ∃ t',
      body ⟨dp, t⟩ channels = ⟨.ok (some ⟨basics, []⟩), ⟨dp, t'⟩, channels⟩ ∧ Holds left t') :
    ∀ (left fuel rounds : Nat) (t : Tape), left ≤ fuel → Holds left t →
      ∃ t', whileNonzero body fuel rounds ⟨dp, t⟩ channels =
          ⟨.ok (some ⟨basics * left, [rounds + left]⟩), ⟨dp, t'⟩, channels⟩ ∧ Holds 0 t' := by
  intro left
  induction left with
  | zero =>
    intro fuel rounds t _ ht
    exact ⟨t, whileNonzero_of_read_zero (hread 0 t ht) fuel rounds channels, ht⟩
  | succ left ih =>
    intro fuel rounds t hfuel ht
    cases fuel with
    | zero => cases hfuel
    | succ fuel =>
      have hvalue := hread (left + 1) t ht
      have hne : ((left + 1 : Nat) : Int) ≠ 0 := by omega
      obtain ⟨t', hround, ht'⟩ := hbody left t ht
      obtain ⟨t'', hrest, ht''⟩ := ih fuel (rounds + 1) t' (Nat.le_of_succ_le_succ hfuel) ht'
      have htally : (⟨basics, []⟩ + ⟨basics * left, [rounds + 1 + left]⟩ : Tally) =
          ⟨basics * (left + 1), [rounds + (left + 1)]⟩ := by
        rw [Nat.mul_succ, Nat.add_comm (basics * left), Nat.add_comm left, ← Nat.add_assoc]
        rfl
      refine ⟨t'', ?_, ht''⟩
      simp only [whileNonzero, hvalue, if_neg hne, hround, Outcome.andThen, hrest, Except.map,
        Option.map_some, htally]

variable [ByteSink κ] [ByteSource σ]

/-- Executes a basic instruction. -/
def Basic.exec (op : Basic) (m : Memory) (channels : Channels κ σ) : Outcome Unit Memory κ σ :=
  match op with
  | .increment => m.changed channels (m.tape.increment m.dp)
  | .decrement => m.changed channels (m.tape.decrement m.dp)
  | .left =>
      if m.dp = 0 then ⟨.ok (), { m with tape := m.tape.growLeft }, channels⟩
      else ⟨.ok (), { m with dp := m.dp - 1 }, channels⟩
  | .right =>
      if m.dp + 1 = m.tape.size then ⟨.ok (), ⟨m.dp + 1, m.tape.growRight⟩, channels⟩
      else ⟨.ok (), { m with dp := m.dp + 1 }, channels⟩
  | .output =>
      match m.tape.read m.dp with
      | .error fault => ⟨.error fault, m, channels⟩
      | .ok value =>
          match byteOfCell value with
          | .error fault => ⟨.error fault, m, channels⟩
          | .ok byte =>
              match ByteSink.put channels.sink (toAscii byte) with
              | (result, sink) => ⟨result, m, { channels with sink := sink }⟩
  | .input =>
      match ByteSource.get channels.source with
      | (.error fault, source) => ⟨.error fault, m, { channels with source := source }⟩
      | (.ok byte, source) =>
          m.changed { channels with source := source } (m.tape.write m.dp (toAscii byte).toNat)

/-- A basic instruction that faults leaves the memory as it was. -/
theorem Basic.memory_of_exec_error (op : Basic) (m : Memory) (channels : Channels κ σ) :
    ∀ fault, (op.exec m channels).result = .error fault → (op.exec m channels).state = m := by
  have hchanged : ∀ (channels : Channels κ σ) (result : Except Fault Tape) (fault : Fault),
      (m.changed channels result).result = .error fault →
        (m.changed channels result).state = m := by
    intro channels result fault h
    cases result with
    | ok tape => cases h
    | error fault => rfl
  intro fault h
  unfold Basic.exec at h ⊢
  cases op with
  | increment => exact hchanged _ _ _ h
  | decrement => exact hchanged _ _ _ h
  | left => by_cases hdp : m.dp = 0 <;> simp [hdp] at h
  | right => by_cases hdp : m.dp + 1 = m.tape.size <;> simp [hdp] at h
  | output =>
    simp only
    cases m.tape.read m.dp with
    | error fault => rfl
    | ok value =>
      simp only
      cases byteOfCell value <;> rfl
  | input =>
    simp only at h ⊢
    split at h
    · rfl
    · exact hchanged _ _ _ h

/-- A basic instruction as a block, which counts as one. -/
def Basic.counted (op : Basic) (m : Memory) (channels : Channels κ σ) :
    Outcome (Option Tally) Memory κ σ :=
  let outcome := op.exec m channels
  { outcome with result := outcome.result.map fun _ => some ⟨1, []⟩ }

/-- Executes a block in which no loop runs its body more than `fuel` times at a stretch. The result
    is what was executed, or nothing if a loop would have gone on. -/
def Block.exec (fuel : Nat) : Block → Memory → Channels κ σ → Outcome (Option Tally) Memory κ σ
  | .done, m, channels => ⟨.ok (some ⟨0, []⟩), m, channels⟩
  | .basic op rest, m, channels => (op.counted m channels).andThen (rest.exec fuel)
  | .loop body rest, m, channels =>
      (whileNonzero (body.exec fuel) fuel 0 m channels).andThen (rest.exec fuel)

theorem Block.exec_basic_of_ok {op : Basic} {rest : Block} {fuel : Nat} {tally : Tally}
    {m m' m'' : Memory} {channels channels' channels'' : Channels κ σ}
    (hop : op.exec m channels = ⟨.ok (), m', channels'⟩)
    (hrest : rest.exec fuel m' channels' = ⟨.ok (some tally), m'', channels''⟩) :
    (Block.basic op rest).exec fuel m channels =
      ⟨.ok (some (⟨1, []⟩ + tally)), m'', channels''⟩ := by
  simp only [Block.exec, Basic.counted, hop, Except.map, Outcome.andThen, hrest, Option.map_some]

end TapeRing
