import TapeRing.Proofs.Processor.Successor

/-! # Ticks in place

The ticks of a processor once more, as work that assigns to one part of the processor or its
channels after another. What has been assigned before a fault stays assigned. All the same a tick in
place comes to what a tick comes to (`on_tickInPlace`), because no instruction assigns to the
processor before the last of its checks. -/

namespace TapeRing

/-! ## Work in place -/

/-- Work on a state that is changed in place: a fault does not take back what has been changed. -/
abbrev Work (μ α : Type) := ExceptT Fault (StateM μ) α

namespace Work

variable {μ α β : Type}

/-- What work on a state comes to, and the state that it leaves. -/
def on (w : Work μ α) (state : μ) : Except Fault α × μ :=
  (ExceptT.run w).run state

/-- Goes on with a value that was computed, or faults. -/
def check : Except Fault α → Work μ α
  | .ok value => pure value
  | .error fault => throw fault

@[simp] theorem on_pure (value : α) (state : μ) :
    (pure value : Work μ α).on state = (.ok value, state) := rfl

@[simp] theorem on_get (state : μ) : (get : Work μ μ).on state = (.ok state, state) := rfl

@[simp] theorem on_modify (f : μ → μ) (state : μ) :
    (modify f : Work μ PUnit).on state = (.ok ⟨⟩, f state) := rfl

@[simp] theorem on_check (checked : Except Fault α) (state : μ) :
    (check checked : Work μ α).on state = (checked, state) := by
  cases checked <;> rfl

@[simp] theorem on_bind (w : Work μ α) (next : α → Work μ β) (state : μ) :
    (w >>= next).on state =
      match w.on state with
      | (.ok value, state) => (next value).on state
      | (.error fault, state) => (.error fault, state) := by
  rw [on, ExceptT.run_bind, StateT.run_bind]
  rcases hw : w.on state with ⟨fault | value, later⟩ <;> rw [on] at hw <;> rw [hw] <;> rfl

end Work

/-! ## Ticks -/

namespace Processor

variable {κ σ : Type}

/-- Assigns to the processor. -/
def assign (change : Processor → Processor) : Work (Processor × Channels κ σ) Unit :=
  modify fun (p, channels) => (change p, channels)

@[simp] theorem on_assign (change : Processor → Processor) (p : Processor)
    (channels : Channels κ σ) : (assign change).on (p, channels) = (.ok (), change p, channels) :=
  rfl

/-- Puts a byte, and keeps what becomes of the sink even if it fails. -/
def putInPlace [ByteSink κ] (byte : UInt8) : Work (Processor × Channels κ σ) Unit := do
  let (_, channels) ← get
  let (result, sink) := ByteSink.put channels.sink byte
  modify fun (p, channels) => (p, { channels with sink := sink })
  Work.check result

@[simp] theorem on_putInPlace [ByteSink κ] (byte : UInt8) (p : Processor)
    (channels : Channels κ σ) :
    (putInPlace byte).on (p, channels) =
      ((ByteSink.put channels.sink byte).1, p,
        { channels with sink := (ByteSink.put channels.sink byte).2 }) := by
  simp [putInPlace]

/-- Gets a byte, and keeps what becomes of the source even if it fails. -/
def getInPlace [ByteSource σ] : Work (Processor × Channels κ σ) UInt8 := do
  let (_, channels) ← get
  let (result, source) := ByteSource.get channels.source
  modify fun (p, channels) => (p, { channels with source := source })
  Work.check result

@[simp] theorem on_getInPlace [ByteSource σ] (p : Processor) (channels : Channels κ σ) :
    getInPlace.on (p, channels) =
      ((ByteSource.get channels.source).1, p,
        { channels with source := (ByteSource.get channels.source).2 }) := by
  simp [getInPlace]

variable [ByteSink κ] [ByteSource σ]

/-- Executes an instruction, apart from the instruction pointer: the result is where that goes. -/
def performInPlace (p : Processor) : Op → Work (Processor × Channels κ σ) Nat
  | .increment => do
      let tape ← Work.check (p.tape.increment p.dp)
      assign ({ · with tape := tape })
      pure (p.ip + 1)
  | .decrement => do
      let tape ← Work.check (p.tape.decrement p.dp)
      assign ({ · with tape := tape })
      pure (p.ip + 1)
  | .left => do
      if p.dp = 0 then assign ({ · with tape := p.tape.growLeft })
      else assign ({ · with dp := p.dp - 1 })
      pure (p.ip + 1)
  | .right => do
      if p.dp + 1 = p.tape.size then assign ({ · with tape := p.tape.growRight })
      assign ({ · with dp := p.dp + 1 })
      pure (p.ip + 1)
  | .loopStart => do
      let value ← Work.check (p.tape.read p.dp)
      if value = 0 then do
        let stop ← Work.check p.closing
        pure (stop + 1)
      else pure (p.ip + 1)
  | .loopEnd => Work.check p.opening
  | .output => do
      let value ← Work.check (p.tape.read p.dp)
      let byte ← Work.check (byteOfCell value)
      putInPlace (toAscii byte)
      pure (p.ip + 1)
  | .input => do
      let byte ← getInPlace
      let tape ← Work.check (p.tape.write p.dp (toAscii byte).toNat)
      assign ({ · with tape := tape })
      pure (p.ip + 1)

/-- Executes the instruction under the instruction pointer, which is assigned last. -/
def tickInPlace : Work (Processor × Channels κ σ) Unit := do
  let (p, _) ← get
  match p.op? with
  | none => pure ()
  | some op => do
      let ip ← p.performInPlace op
      assign ({ · with ip := ip })

/-- No instruction assigns to the processor before the last of its checks. -/
theorem on_tickInPlace (p : Processor) (channels : Channels κ σ) :
    tickInPlace.on (p, channels) =
      ((p.tick channels).result, (p.tick channels).state, (p.tick channels).channels) := by
  cases hop : p.op? with
  | none => simp [tickInPlace, tick, action, hop, carryOut]
  | some op =>
    rw [tick, action_of_op? hop]
    simp only [tickInPlace, Work.on_bind, Work.on_get, hop]
    cases op with
    | increment =>
      simp only [performInPlace, perform, Work.on_bind, Work.on_check]
      cases p.tape.increment p.dp <;> rfl
    | decrement =>
      simp only [performInPlace, perform, Work.on_bind, Work.on_check]
      cases p.tape.decrement p.dp <;> rfl
    | left =>
      by_cases hfirst : p.dp = 0
      · simp only [performInPlace, perform, moveLeft, if_pos hfirst]
        rfl
      · simp only [performInPlace, perform, moveLeft, if_neg hfirst]
        rfl
    | right =>
      by_cases hlast : p.dp + 1 = p.tape.size
      · simp only [performInPlace, perform, moveRight, if_pos hlast]
        rfl
      · simp only [performInPlace, perform, moveRight, if_neg hlast]
        rfl
    | loopStart =>
      simp only [performInPlace, perform, Work.on_bind, Work.on_check]
      cases p.tape.read p.dp with
      | error fault => rfl
      | ok value =>
        by_cases hzero : value = 0 <;> simp only [hzero, if_true, if_false]
        · cases p.closing <;> rfl
        · rfl
    | loopEnd =>
      simp only [performInPlace, perform, Work.on_check]
      cases p.opening <;> rfl
    | output =>
      simp only [performInPlace, perform, Work.on_bind, Work.on_check]
      cases p.tape.read p.dp with
      | error fault => rfl
      | ok value =>
        simp only
        cases byteOfCell value with
        | error fault => rfl
        | ok byte =>
          simp only [on_putInPlace, carryOut]
          generalize ByteSink.put channels.sink (toAscii byte) = put
          obtain ⟨result, sink⟩ := put
          cases result <;> rfl
    | input =>
      simp only [performInPlace, perform, Work.on_bind, on_getInPlace, carryOut]
      generalize ByteSource.get channels.source = got
      obtain ⟨result, source⟩ := got
      cases result with
      | error fault => rfl
      | ok byte =>
        simp only [Work.on_check, store]
        cases p.tape.write p.dp (toAscii byte).toNat <;> rfl

end Processor

end TapeRing
