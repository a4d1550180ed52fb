import TapeRing.Machine.Basic

/-! # Runs

A run makes steps until the machine stops or faults. A program need not stop, so a run is given
a limit of steps and has no summary when it reaches the limit; a larger limit does not change a
run that ended (`drive_add`). -/

namespace TapeRing

/-- What a run that stopped reports. -/
structure RunSummary where
  /-- The ticks made by the run. -/
  ticks : Nat
  /-- The finished processor on which the machine stopped, if it was a single one. -/
  haltedOn : Option Nat
deriving DecidableEq, Repr

namespace Machine

/-- Makes steps until the machine stops or faults, but at most `limit` many. The result is what the
    machine stopped on, or nothing at the limit. -/
def drive {κ σ : Type} [ByteSink κ] [ByteSource σ] :
    (limit : Nat) → Machine → Channels κ σ → Outcome (Option (Option Nat)) Machine κ σ
  | 0, m, channels => ⟨.ok none, m, channels⟩
  | limit + 1, m, channels =>
      match m.step channels with
      | ⟨.ok (.ticked _), m, channels⟩ => drive limit m channels
      | ⟨.ok (.halted on), m, channels⟩ => ⟨.ok (some on), m, channels⟩
      | ⟨.error fault, m, channels⟩ => ⟨.error fault, m, channels⟩

/-- Runs a machine for at most `limit` steps. -/
def run {κ σ : Type} [ByteSink κ] [ByteSource σ] (limit : Nat) (m : Machine)
    (channels : Channels κ σ) : Outcome (Option RunSummary) Machine κ σ :=
  match m.drive limit channels with
  | ⟨.ok none, m', channels⟩ => ⟨.ok none, m', channels⟩
  | ⟨.ok (some on), m', channels⟩ => ⟨.ok (some ⟨m'.ticks - m.ticks, on⟩), m', channels⟩
  | ⟨.error fault, m', channels⟩ => ⟨.error fault, m', channels⟩

/-- A larger limit does not change a run that ended. -/
theorem drive_add {κ σ : Type} [ByteSink κ] [ByteSource σ] (more : Nat) :
    ∀ (limit : Nat) (m : Machine) (channels : Channels κ σ),
      (m.drive limit channels).result ≠ .ok none →
        m.drive (limit + more) channels = m.drive limit channels := by
  intro limit
  induction limit with
  | zero => intro m channels h; exact absurd rfl h
  | succ limit ih =>
    intro m channels h
    rw [Nat.succ_add]
    unfold drive at h ⊢
    split
    · rename_i hstep
      rw [hstep] at h
      exact ih _ _ h
    · rfl
    · rfl

end Machine

end TapeRing
