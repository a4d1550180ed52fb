import Mathlib.Data.List.Forall2
import TapeRing.Proofs.Channel.Ledger
import TapeRing.Proofs.Machine.Alike
import TapeRing.Proofs.Machine.Reachable
import TapeRing.Proofs.Obstacles

/-! # Accounts of input and output

The ticks of a run that succeeded account for every byte that passed through its channels: one `.`
for each byte that was put, and one `,` for each byte that was got (`Machine.accounted_run`). The
only byte that is not accounted for is one that a writer accepted before its flush failed, which
ends the run (`Machine.journal_run`). -/

namespace TapeRing

/-! ## Accounts -/

/-- A tick that succeeded, by the processor before it and after it. -/
structure Move where
  before : Processor
  after : Processor

namespace Move

/-- The ticks that executed an instruction. -/
def executing (op : Op) (moves : List Move) : List Move :=
  moves.filter fun move => move.before.op? = some op

/-- The byte is what the cell under the data pointer stands for. -/
def Puts (move : Move) (byte : UInt8) : Prop :=
  ∃ value : UInt8, move.before.tape.cells[move.before.dp]? = some (value.toNat : Int) ∧
    byte = toAscii value

/-- The byte is stored in the cell under the data pointer, and no other cell is changed. -/
def Stores (move : Move) (byte : UInt8) : Prop :=
  move.after.dp = move.before.dp ∧
    move.after.tape.cells = move.before.tape.cells.set move.before.dp (toAscii byte).toNat ∧
    move.after.tape.cells[move.after.dp]? = some ((toAscii byte).toNat : Int)

theorem lt_of_puts {moves : List Move} {put : List UInt8} (h : List.Forall₂ Puts moves put) :
    ∀ byte ∈ put, byte < 128 := by
  induction h with
  | nil => simp
  | cons hmove _ ih =>
    obtain ⟨value, -, rfl⟩ := hmove
    intro byte hbyte
    rcases List.mem_cons.mp hbyte with rfl | hbyte
    · exact toAscii_lt value
    · exact ih byte hbyte

theorem lt_of_stores {moves : List Move} {got : List UInt8} (h : List.Forall₂ Stores moves got) :
    ∀ move ∈ moves, ∃ value : Int, move.after.tape.cells[move.after.dp]? = some value ∧
      0 ≤ value ∧ value < 128 := by
  induction h with
  | nil => simp
  | @cons first byte _ _ hmove _ ih =>
    intro move hmem
    rcases List.mem_cons.mp hmem with rfl | hmem
    · have hlt : (toAscii byte).toNat < 128 := toAscii_lt byte
      exact ⟨_, hmove.2.2, Int.natCast_nonneg _, by omega⟩
    · exact ih move hmem

end Move

/-- Ticks that account for the bytes that were put and got. -/
structure Accounted (moves : List Move) (put got : List UInt8) : Prop where
  puts : List.Forall₂ Move.Puts (Move.executing .output moves) put
  stores : List.Forall₂ Move.Stores (Move.executing .input moves) got

namespace Accounted

variable {moves moves' : List Move} {put put' got got' : List UInt8}

theorem nil : Accounted [] [] [] := ⟨.nil, .nil⟩

theorem append (h : Accounted moves put got) (h' : Accounted moves' put' got') :
    Accounted (moves ++ moves') (put ++ put') (got ++ got') where
  puts := by
    rw [Move.executing, List.filter_append]
    exact List.rel_append h.puts h'.puts
  stores := by
    rw [Move.executing, List.filter_append]
    exact List.rel_append h.stores h'.stores

end Accounted

namespace Processor

variable {κ σ : Type} [ByteSink κ] [ByteSource σ] {p : Processor}

theorem accounted_of_other (hput : p.op? ≠ some .output) (hget : p.op? ≠ some .input)
    (q : Processor) : Accounted [⟨p, q⟩] [] [] := by
  constructor <;> simp [Move.executing, hput, hget]

theorem accounted_output {q : Processor} {value : UInt8} (hop : p.op? = some .output)
    (hcell : p.tape.cells[p.dp]? = some (value.toNat : Int)) :
    Accounted [⟨p, q⟩] [toAscii value] [] := by
  constructor
  · simpa [Move.executing, hop] using ⟨value, hcell, rfl⟩
  · simp [Move.executing, hop]

theorem accounted_input {q : Processor} {byte : UInt8} (hop : p.op? = some .input)
    (hstore : p.store byte = .ok q) : Accounted [⟨p, q⟩] [] [byte] := by
  constructor
  · simp [Move.executing, hop]
  · have hstores : Move.Stores ⟨p, q⟩ byte := by
      unfold store at hstore
      split at hstore
      · cases hstore
        obtain ⟨hdp, -, rfl⟩ := Tape.write_eq_ok_iff.mp ‹_›
        exact ⟨rfl, rfl, List.getElem?_set_self hdp⟩
      · cases hstore
    simpa [Move.executing, hop] using hstores

/-- A tick that succeeds accounts for what passed through the channels. -/
theorem Sound.accounted_tick (hp : p.Sound) {c : Channels (Recorded κ) (Recorded σ)}
    (hok : (p.tick c).result = .ok ()) :
    ∃ put got, (p.tick c).channels.sink.bytes = c.sink.bytes ++ put ∧
      (p.tick c).channels.source.bytes = c.source.bytes ++ got ∧
      Accounted [⟨p, (p.tick c).state⟩] put got := by
  rcases hp.tick_ok_cases hok with
    ⟨hput, hget, heq⟩ | ⟨value, sink, hop, hcell, hput, heq⟩ |
      ⟨byte, source, q, hop, hget, hstore, heq⟩
  · rw [heq]
    exact ⟨[], [], (List.append_nil _).symm, (List.append_nil _).symm,
      accounted_of_other hput hget _⟩
  · rw [heq]
    exact ⟨[toAscii value], [], Recorded.bytes_of_put_ok hput, (List.append_nil _).symm,
      accounted_output hop hcell⟩
  · rw [heq]
    exact ⟨[], [byte], (List.append_nil _).symm, Recorded.bytes_of_get_ok hget,
      accounted_input hop hstore⟩

/-- A tick that faults lets nothing pass. -/
theorem Sound.bytes_of_tick_error (hp : p.Sound) {c : Channels (Recorded κ) (Recorded σ)}
    {fault : Fault} (h : (p.tick c).result = .error fault) :
    (p.tick c).channels.sink.bytes = c.sink.bytes ∧
      (p.tick c).channels.source.bytes = c.source.bytes := by
  rcases hp.obstacle_or_refusal h with hobstacle | hrefusal
  · rw [hobstacle.tick_eq hp.consistent]
    exact ⟨rfl, rfl⟩
  · rcases hrefusal.tick_eq with ⟨value, sink, -, -, hput, heq⟩ | ⟨source, -, hget, heq⟩
    · rw [heq]
      exact ⟨Recorded.bytes_of_put_error hput, rfl⟩
    · rw [heq]
      exact ⟨rfl, Recorded.bytes_of_get_error hget⟩

end Processor

/-! ## Runs -/

namespace Machine

section Moves

variable {κ σ : Type} [ByteSink κ] [ByteSource σ] {m m' : Machine} {c c' : Channels κ σ}

/-- The ticks of a run of at most `limit` steps that succeeded, in order. -/
def moves : (limit : Nat) → Machine → Channels κ σ → List Move
  | 0, _, _ => []
  | limit + 1, m, c =>
      match m.step c with
      | ⟨.ok (.ticked index), m', c'⟩ =>
          match m.processors[index]?, m'.processors[index]? with
          | some before, some after => ⟨before, after⟩ :: moves limit m' c'
          | _, _ => moves limit m' c'
      | _ => []

theorem moves_of_halt {on : Option Nat} (h : m.turn = .halt on) (limit : Nat) (c : Channels κ σ) :
    m.moves limit c = [] := by
  cases limit with
  | zero => rfl
  | succ limit => simp only [moves, step_of_halt h]

theorem moves_of_error {fault : Fault} (h : m.step c = ⟨.error fault, m', c'⟩) (limit : Nat) :
    m.moves limit c = [] := by
  cases limit with
  | zero => rfl
  | succ limit => simp only [moves, h]

theorem moves_of_ticked {index : Nat} {p q : Processor}
    (h : m.step c = ⟨.ok (.ticked index), m', c'⟩) (hp : m.processors[index]? = some p)
    (hq : m'.processors[index]? = some q) (limit : Nat) :
    m.moves (limit + 1) c = ⟨p, q⟩ :: m'.moves limit c' := by
  simp only [moves, h, hp, hq]

/-- The same ticks succeed on channels that are alike and never part. -/
theorem moves_of_alike {κ' σ' : Type} [ByteSink κ'] [ByteSource σ'] (l : Likeness κ σ κ' σ')
    (hnever : ∀ fault, ¬ l.Parts fault) : ∀ (limit : Nat) (m : Machine) {c : Channels κ σ}
    {c' : Channels κ' σ'}, l.Alike c c' → m.moves limit c = m.moves limit c' := by
  intro limit
  induction limit with
  | zero => intro m c c' _; rfl
  | succ limit ih =>
    intro m c c' h
    obtain ⟨hresult, hstate, halike⟩ :=
      (l.agree_step h m).resolve_left fun ⟨fault, _, hparts⟩ => hnever fault hparts
    have heq' : m.step c' = ⟨(m.step c).result, (m.step c).state, (m.step c').channels⟩ := by
      rw [hresult, hstate]
    rcases step_cases m c with
      ⟨on, hturn, -⟩ | ⟨index, p, -, hp, ⟨-, heq⟩ | ⟨fault, -, heq⟩⟩
    · rw [moves_of_halt hturn, moves_of_halt hturn]
    · rw [heq] at heq' halike
      have hq := List.getElem?_set_self (a := (p.tick c).state) (List.getElem?_eq_some_iff.mp hp).1
      rw [moves_of_ticked heq hp hq, moves_of_ticked heq' hp hq, ih _ halike]
    · rw [heq] at heq'
      rw [moves_of_error heq, moves_of_error heq']

end Moves

section Accounts

variable {κ σ : Type} [ByteSink κ] [ByteSource σ]

/-- The ticks of a run account for all that passes through the channels. -/
theorem accounted_run : ∀ (limit : Nat) (m : Machine) (c : Channels (Recorded κ) (Recorded σ)),
    (∀ p ∈ m.processors, p.Sound) →
    (m.run limit c).state.ticks = m.ticks + (m.moves limit c).length ∧
      ∃ put got, (m.run limit c).channels.sink.bytes = c.sink.bytes ++ put ∧
        (m.run limit c).channels.source.bytes = c.source.bytes ++ got ∧
        Accounted (m.moves limit c) put got := by
  intro limit
  induction limit with
  | zero =>
    intro m c _
    exact ⟨rfl, [], [], (List.append_nil _).symm, (List.append_nil _).symm, .nil⟩
  | succ limit ih =>
    intro m c hsound
    have hsound' := forall_processors_step (fun p c hp => hp.tick c) c hsound
    rcases step_cases m c with
      ⟨on, hturn, -⟩ | ⟨index, p, hturn, hp, ⟨hresult, heq⟩ | ⟨fault, hresult, heq⟩⟩
    · rw [run_of_halt hturn, moves_of_halt hturn]
      exact ⟨rfl, [], [], (List.append_nil _).symm, (List.append_nil _).symm, .nil⟩
    · -- The account of this tick stands before that of the run which the limit leaves for.
      obtain ⟨put, got, hput, hgot, hmove⟩ :=
        (hsound p (List.mem_of_getElem? hp)).accounted_tick hresult
      rw [heq] at hsound'
      obtain ⟨hticks, put', got', hput', hgot', hmoves⟩ := ih _ (p.tick c).channels hsound'
      rw [run_of_ticked heq, moves_of_ticked heq hp
        (List.getElem?_set_self (List.getElem?_eq_some_iff.mp hp).1)]
      refine ⟨?_, put ++ put', got ++ got', ?_, ?_, hmove.append hmoves⟩
      · simp only [Outcome.map, hticks, List.length_cons]
        omega
      · simp only [Outcome.map, hput', hput, List.append_assoc]
      · simp only [Outcome.map, hgot', hgot, List.append_assoc]
    · obtain ⟨hput, hgot⟩ := (hsound p (List.mem_of_getElem? hp)).bytes_of_tick_error hresult
      rw [run_of_error heq, moves_of_error heq]
      exact ⟨rfl, [], [], by simpa using hput, by simpa using hgot, .nil⟩

end Accounts

/-! ## Writers -/

section Journals

variable {ω σ : Type} [Writer ω] [ByteSource σ]

/-- All that the writer has accepted has been put. -/
def Settled (s : Recorded (WriterSink (Journaled ω))) : Prop :=
  s.inner.writer.accepted = s.bytes ∧ s.inner.writer.unflushed = none

/-- The writer has accepted one byte more than has been put, because the flush after it failed. -/
def Late (s : Recorded (WriterSink (Journaled ω))) (byte : UInt8) (text : String) : Prop :=
  s.inner.writer.accepted = s.bytes ++ [byte] ∧ s.inner.writer.unflushed = some text

variable {s s' : Recorded (WriterSink (Journaled ω))} {byte : UInt8} {fault : Fault}

theorem Settled.put_ok (h : Settled s) (hput : ByteSink.put s byte = (.ok (), s')) :
    Settled s' := by
  have hinner : s.inner.put byte = (.ok (), s'.inner) := Recorded.inner_of_put hput
  unfold Settled
  rw [Recorded.bytes_of_put_ok hput, ← h.1, ← h.2]
  rcases s.inner.put_cases byte with
    ⟨-, haccepted, hunflushed⟩ | ⟨fault, hresult, -⟩ | ⟨text, hresult, -⟩
  · rw [hinner] at haccepted hunflushed
    exact ⟨haccepted, hunflushed⟩
  · rw [hinner] at hresult
    cases hresult
  · rw [hinner] at hresult
    cases hresult

theorem Settled.put_error (h : Settled s) (hput : ByteSink.put s byte = (.error fault, s')) :
    Settled s' ∨ ∃ text, fault = .channel text ∧ Late s' byte text := by
  have hinner : s.inner.put byte = (.error fault, s'.inner) := Recorded.inner_of_put hput
  unfold Settled Late
  rw [Recorded.bytes_of_put_error hput, ← h.1, ← h.2]
  rcases s.inner.put_cases byte with
    ⟨hresult, -⟩ | ⟨other, -, haccepted, hunflushed⟩ | ⟨text, hresult, haccepted, hunflushed⟩
  · rw [hinner] at hresult
    cases hresult
  · rw [hinner] at haccepted hunflushed
    exact Or.inl ⟨haccepted, hunflushed⟩
  · rw [hinner] at hresult haccepted hunflushed
    cases hresult
    exact Or.inr ⟨text, rfl, haccepted, hunflushed⟩

variable {c : Channels (Recorded (WriterSink (Journaled ω))) σ} {p : Processor}

theorem Settled.tick_ok (h : Settled c.sink) (hp : p.Sound) (hok : (p.tick c).result = .ok ()) :
    Settled (p.tick c).channels.sink := by
  rcases hp.tick_ok_cases hok with
    ⟨-, -, heq⟩ | ⟨value, sink, -, -, hput, heq⟩ | ⟨byte, source, q, -, -, -, heq⟩ <;> rw [heq]
  · exact h
  · exact h.put_ok hput
  · exact h

theorem Settled.tick_error (h : Settled c.sink) (hp : p.Sound)
    (hfault : (p.tick c).result = .error fault) :
    Settled (p.tick c).channels.sink ∨
      ∃ (value : UInt8) (text : String), p.op? = some .output ∧
        p.tape.cells[p.dp]? = some (value.toNat : Int) ∧ fault = .channel text ∧
        Late (p.tick c).channels.sink (toAscii value) text := by
  -- An obstacle is met before the writer is asked, so only a refused put can have written a byte.
  rcases hp.obstacle_or_refusal hfault with hobstacle | hrefusal
  · rw [hobstacle.tick_eq hp.consistent]
    exact Or.inl h
  · rcases hrefusal.tick_eq with ⟨value, sink, hop, hcell, hput, heq⟩ | ⟨source, -, -, heq⟩
    · rw [heq]
      rcases h.put_error hput with hsettled | ⟨text, htext, hlate⟩
      · exact Or.inl hsettled
      · exact Or.inr ⟨value, text, hop, hcell, htext, hlate⟩
    · rw [heq]
      exact Or.inl h

/-- A run has ended with a `.` whose byte the writer has accepted after all that had been put, but
    whose flush failed. -/
def EndsLate {ρ : Type} (result : Except Fault ρ) (m : Machine) (writer : Journaled ω)
    (put : List UInt8) : Prop :=
  ∃ (p : Processor) (value : UInt8) (text : String),
    m.processors[m.cursor]? = some p ∧ p.op? = some .output ∧
      p.tape.cells[p.dp]? = some (value.toNat : Int) ∧ result = .error (.channel text) ∧
      writer.accepted = put ++ [toAscii value] ∧ writer.unflushed = some text

/-- A run leaves the journal settled, unless it ends with a byte that could not be flushed. -/
theorem journal_run : ∀ (limit : Nat) (m : Machine)
    (c : Channels (Recorded (WriterSink (Journaled ω))) σ), (∀ p ∈ m.processors, p.Sound) →
    Settled c.sink →
    Settled (m.run limit c).channels.sink ∨
      EndsLate (m.run limit c).result (m.run limit c).state
        (m.run limit c).channels.sink.inner.writer (m.run limit c).channels.sink.bytes := by
  intro limit
  induction limit with
  | zero => intro m c _ h; exact Or.inl h
  | succ limit ih =>
    intro m c hsound h
    have hsound' := forall_processors_step (fun p c hp => hp.tick c) c hsound
    rcases step_cases m c with
      ⟨on, hturn, -⟩ | ⟨index, p, hturn, hp, ⟨hresult, heq⟩ | ⟨fault, hresult, heq⟩⟩
    · rw [run_of_halt hturn]
      exact Or.inl h
    · have hsettled := h.tick_ok (hsound p (List.mem_of_getElem? hp)) hresult
      rw [heq] at hsound'
      rw [run_of_ticked heq]
      rcases ih _ (p.tick c).channels hsound' hsettled with
        hlater | ⟨q, value, text, hq, hop, hcell, hfault, hlate⟩
      · exact Or.inl hlater
      · refine Or.inr ⟨q, value, text, hq, hop, hcell, ?_, hlate⟩
        rw [Outcome.map, hfault]
        rfl
    · rw [run_of_error heq]
      rcases h.tick_error (hsound p (List.mem_of_getElem? hp)) hresult with
        hsettled | ⟨value, text, hop, hcell, rfl, hlate⟩
      · exact Or.inl hsettled
      · exact Or.inr ⟨p, value, text, hp, hop, hcell, rfl, hlate⟩

end Journals

/-! ## Runs on any channels -/

section Passage

variable {m : Machine}

/-- The record of a run adds the bytes to what the run comes to. -/
theorem run_recorded {κ σ : Type} [ByteSink κ] [ByteSource σ] (limit : Nat) (m : Machine)
    (c : Channels κ σ) :
    m.run limit c.recorded = ⟨(m.run limit c).result, (m.run limit c).state,
      ⟨⟨(m.run limit c).channels.sink, (m.run limit c.recorded).channels.sink.bytes⟩,
        ⟨(m.run limit c).channels.source, (m.run limit c.recorded).channels.source.bytes⟩⟩⟩ := by
  obtain ⟨hresult, hstate, hplain⟩ : (m.run limit c.recorded).result = (m.run limit c).result ∧
      (m.run limit c.recorded).state = (m.run limit c).state ∧
      (m.run limit c.recorded).channels.plain = (m.run limit c).channels :=
    (recording.agree_run limit m (c := c.recorded) rfl).resolve_left fun ⟨_, _, hparts⟩ => hparts
  rw [← hresult, ← hstate, ← hplain]
  rfl

/-- What a run has put and got, with what is left of the source and what the sink has taken. -/
theorem account_of_run {κ σ : Type} [ByteSink κ] [ByteSource σ]
    (hsound : ∀ p ∈ m.processors, p.Sound) (limit : Nat) (c : Channels κ σ) :
    (m.run limit c).state.ticks = m.ticks + (m.moves limit c).length ∧
      ∃ put got, Accounted (m.moves limit c) put got ∧
        m.run limit c.recorded = ⟨(m.run limit c).result, (m.run limit c).state,
          ⟨⟨(m.run limit c).channels.sink, put⟩, ⟨(m.run limit c).channels.source, got⟩⟩⟩ ∧
        (∀ supply : Supply σ,
          supply.left c.source = got ++ supply.left (m.run limit c).channels.source) ∧
        ∀ holding : Holding κ,
          holding.held (m.run limit c).channels.sink = holding.held c.sink ++ put := by
  obtain ⟨hticks, put, got, hput, hgot, haccount⟩ := accounted_run limit m c.recorded hsound
  have hleft (supply : Supply σ) :=
    (supply.stable (supply.left c.source)).run limit m (c := c.recorded) rfl
  have hheld (holding : Holding κ) :=
    (holding.stable (holding.held c.sink)).run limit m (c := c.recorded) (List.append_nil _).symm
  have hrecord := run_recorded limit m c
  rw [hput, hgot] at hrecord
  rw [moves_of_alike recording (fun _ => id) limit m (c := c.recorded) rfl] at hticks haccount
  rw [hrecord] at hticks hleft hheld
  exact ⟨hticks, put, got, haccount, hrecord, hleft, hheld⟩

/-- The journal of a run adds to what the run comes to. -/
theorem run_journaled {ω σ : Type} [Writer ω] [ByteSource σ] (limit : Nat) (m : Machine)
    (c : Channels (WriterSink ω) σ) :
    m.run limit c = ⟨(m.run limit c.journaled).result, (m.run limit c.journaled).state,
      ⟨(m.run limit c.journaled).channels.sink.plain,
        (m.run limit c.journaled).channels.source⟩⟩ := by
  obtain ⟨hresult, hstate, hplain⟩ : (m.run limit c.journaled).result = (m.run limit c).result ∧
      (m.run limit c.journaled).state = (m.run limit c).state ∧
      (m.run limit c).channels = ⟨(m.run limit c.journaled).channels.sink.plain,
        (m.run limit c.journaled).channels.source⟩ :=
    (journaling.agree_run limit m (c := c.journaled) rfl).resolve_left
      fun ⟨_, _, hparts⟩ => hparts
  rw [hresult, hstate, ← hplain]

/-- What a writer has accepted in a run, by its journal. -/
theorem journal_of_run {ω σ : Type} [Writer ω] [ByteSource σ]
    (hsound : ∀ p ∈ m.processors, p.Sound) (limit : Nat) (c : Channels (WriterSink ω) σ) :
    let o := m.run limit c.journaled
    ∃ put, List.Forall₂ Move.Puts (Move.executing .output (m.moves limit c)) put ∧
      (o.channels.sink.writer.accepted = put ∧ o.channels.sink.writer.unflushed = none ∨
        EndsLate o.result o.state o.channels.sink.writer put) := by
  obtain ⟨-, put, got, haccount, hrecord, -⟩ := account_of_run hsound limit c.journaled
  have hjournal := journal_run limit m c.journaled.recorded hsound ⟨rfl, rfl⟩
  rw [hrecord] at hjournal
  rw [moves_of_alike journaling (fun _ => id) limit m (c := c.journaled) rfl] at haccount
  exact ⟨put, haccount.puts, hjournal⟩

/-- Let a fresh machine be run, for any number of steps.
    - The ticks that succeeded account for all that passed through the channels, which is what a
      record of them would show: the byte that each `.` put is what its cell stands for, the byte
      that each `,` got is in its cell, in order and none of them twice, and nothing else was put or
      got. All these bytes and cells are below 128.
    - What was left in the source is what was got and what is left now, and what the sink holds is
      what it held before and what was put.
    - A writer has accepted what was put, or the run has ended with a `.` whose flush failed, and
      the writer has accepted the byte of that `.` besides. -/
theorem bytes_are_accounted_for {config : MachineConfig} (hpos : 0 < config.processors)
    (source : String) :
    ∃ start, assemble config source = .ok start ∧
      (∀ {κ σ : Type} [ByteSink κ] [ByteSource σ] (limit : Nat) (c : Channels κ σ),
        let o := start.run limit c
        let moves := start.moves limit c
        o.state.ticks = moves.length ∧
        ∃ put got, start.run limit c.recorded =
            ⟨o.result, o.state, ⟨⟨o.channels.sink, put⟩, ⟨o.channels.source, got⟩⟩⟩ ∧
          List.Forall₂ Move.Puts (Move.executing .output moves) put ∧
          (∀ byte ∈ put, byte < 128) ∧
          List.Forall₂ Move.Stores (Move.executing .input moves) got ∧
          (∀ move ∈ Move.executing .input moves, ∃ value : Int,
            move.after.tape.cells[move.after.dp]? = some value ∧ 0 ≤ value ∧ value < 128) ∧
          (∀ supply : Supply σ,
            supply.left c.source = got ++ supply.left o.channels.source) ∧
          ∀ holding : Holding κ,
            holding.held o.channels.sink = holding.held c.sink ++ put) ∧
      ∀ {ω σ : Type} [Writer ω] [ByteSource σ] (limit : Nat) (c : Channels (WriterSink ω) σ),
        let o := start.run limit c.journaled
        start.run limit c = ⟨o.result, o.state, ⟨o.channels.sink.plain, o.channels.source⟩⟩ ∧
          (∀ byte ∈ o.channels.sink.writer.accepted, byte < 128) ∧
          ∃ put, List.Forall₂ Move.Puts (Move.executing .output (start.moves limit c)) put ∧
            (o.channels.sink.writer.accepted = put ∧ o.channels.sink.writer.unflushed = none ∨
              EndsLate o.result o.state o.channels.sink.writer put) := by
  have hsound := (sound_fresh hpos source).sound
  refine ⟨_, assemble_of_pos hpos source, ?_, ?_⟩
  · intro κ σ _ _ limit c o moves
    obtain ⟨hticks, put, got, haccount, hrecord, hleft, hheld⟩ := account_of_run hsound limit c
    refine ⟨hticks.trans (Nat.zero_add _), put, got, hrecord, haccount.puts,
      Move.lt_of_puts haccount.puts, haccount.stores, Move.lt_of_stores haccount.stores, hleft,
      hheld⟩
  · intro ω σ _ _ limit c o
    obtain ⟨put, hputs, hjournal⟩ := journal_of_run hsound limit c
    refine ⟨run_journaled limit _ c, ?_, put, hputs, hjournal⟩
    have hlt := Move.lt_of_puts hputs
    rcases hjournal with ⟨haccepted, -⟩ | ⟨p, value, text, -, -, -, -, haccepted, -⟩
    · rw [haccepted]
      exact hlt
    · rw [haccepted]
      intro byte hbyte
      rcases List.mem_append.mp hbyte with hbyte | hbyte
      · exact hlt byte hbyte
      · rw [List.mem_singleton.mp hbyte]
        exact toAscii_lt value

/-- Each of two processors echoes a byte, the second one as `?`, and a byte is left in the list. A
    writer that holds no more than one byte accepts both all the same before it fails, and two
    events are left in the reader. -/
theorem bytes_are_accounted_for_on_echoes :
    0 < MachineConfig.processors { processors := 2 } ∧
      ∃ start, assemble { processors := 2 } ",,.." = .ok start ∧
        let c := Channels.mk ByteBuffer.empty (SliceSource.mk [65, 200, 66])
        let c' := Channels.mk (WriterSink.mk (CappedWriter.mk ByteBuffer.empty (some 1) .failFlush))
          (ReaderSource.mk [.byte 65, .interrupt, .byte 200, .interrupt, .byte 66])
        ((start.moves 5 c).length = 4 ∧
          List.Forall₂ Move.Puts (Move.executing .output (start.moves 5 c)) [65, 63] ∧
          List.Forall₂ Move.Stores (Move.executing .input (start.moves 5 c)) [65, 200] ∧
          (start.run 5 c).channels.sink.toList = [] ++ [65, 63] ∧
          [65, 200, 66] = [65, 200] ++ (start.run 5 c).channels.source.unread) ∧
        List.Forall₂ Move.Puts (Move.executing .output (start.moves 5 c')) [65] ∧
          (start.run 5 c').result = .error (.channel "flush failed") ∧
          (start.run 5 c').channels.sink.writer.held.toList = [65, 63] ∧
          (start.run 5 c'.journaled).channels.sink.writer.accepted = [65, 63] ∧
          [65, 200, 66] = [65, 200] ++ ReadEvent.bytes (start.run 5 c').channels.source.events := by
  have hpos : 0 < MachineConfig.processors { processors := 2 } := by decide
  obtain ⟨start, hstart, haccount, hjournal⟩ := bytes_are_accounted_for hpos ",,.."
  obtain rfl : fresh { processors := 2 } ",,.." = start :=
    Except.ok.inj ((assemble_of_pos hpos _).symm.trans hstart)
  refine ⟨hpos, _, hstart, ?_⟩
  intro c c'
  constructor
  · obtain ⟨-, put, got, hrecord, hputs, -, hstores, -, hleft, hheld⟩ := haccount 5 c
    obtain rfl : [65, 63] = put := congrArg (·.channels.sink.bytes) hrecord
    obtain rfl : [65, 200] = got := congrArg (·.channels.source.bytes) hrecord
    exact ⟨rfl, hputs, hstores, hheld ByteBuffer.holding, hleft SliceSource.supply⟩
  · obtain ⟨-, put, got, hrecord, -, -, -, -, hleft, -⟩ := haccount 5 c'
    obtain rfl : [65, 200] = got := congrArg (·.channels.source.bytes) hrecord
    obtain ⟨-, -, put, hputs, hjournal⟩ := hjournal 5 c'
    rcases hjournal with ⟨-, hsettled⟩ | ⟨p, value, text, -, -, -, -, haccepted, -⟩
    · cases hsettled
    · have hlate : [65] ++ [63] = put ++ [toAscii value] := haccepted
      obtain rfl : [65] = put := (List.append_inj' hlate rfl).1
      exact ⟨hputs, rfl, rfl, rfl, hleft ReaderSource.supply⟩

end Passage

end Machine

end TapeRing
