import TapeRing.Processor

/-! # A processor on its own

`drive` ticks a processor until it is finished or faults. A program need not end, so there is a
limit of ticks; a larger limit does not change a run that ended (`drive_eq_of_ended`). `Strides`
are the ticks of such a run that do not fault. -/

namespace TapeRing

variable {κ σ : Type}

/-- The outcome of a run that is the end of another, with the ticks made before. -/
def Outcome.after (count : Nat) (o : Outcome (Option Nat) Processor κ σ) :
    Outcome (Option Nat) Processor κ σ :=
  { o with result := o.result.map (Option.map (count + ·)) }

theorem Outcome.after_zero (o : Outcome (Option Nat) Processor κ σ) : o.after 0 = o := by
  obtain ⟨result, state, channels⟩ := o
  cases result with
  | error fault => rfl
  | ok ticks => cases ticks <;> simp [after, Except.map]

theorem Outcome.after_after (count more : Nat) (o : Outcome (Option Nat) Processor κ σ) :
    (o.after more).after count = o.after (count + more) := by
  obtain ⟨result, state, channels⟩ := o
  cases result with
  | error fault => rfl
  | ok ticks => cases ticks <;> simp [after, Except.map, Nat.add_assoc]

namespace Processor

variable [ByteSink κ] [ByteSource σ]

/-- Ticks a processor until it is finished or faults, but at most `limit` times. The result is the
    number of ticks, or nothing at the limit. -/
def drive : (limit : Nat) → Processor → Channels κ σ → Outcome (Option Nat) Processor κ σ
  | 0, p, channels => ⟨.ok (if p.isFinished then some 0 else none), p, channels⟩
  | limit + 1, p, channels =>
      if p.isFinished then ⟨.ok (some 0), p, channels⟩
      else
        match p.tick channels with
        | ⟨.ok (), p, channels⟩ => (drive limit p channels).after 1
        | ⟨.error fault, p, channels⟩ => ⟨.error fault, p, channels⟩

/-- A number of ticks without a fault, none of them on a finished processor. -/
inductive Strides : Nat → Processor → Channels κ σ → Processor → Channels κ σ → Prop
  | rest {p : Processor} {channels : Channels κ σ} : Strides 0 p channels p channels
  | stride {count : Nat} {p q r : Processor} {channels channels' channels'' : Channels κ σ} :
      p.isFinished = false → p.tick channels = ⟨.ok (), q, channels'⟩ →
      Strides count q channels' r channels'' → Strides (count + 1) p channels r channels''

namespace Strides

variable {count more : Nat} {p q r : Processor} {channels channels' channels'' : Channels κ σ}

theorem one (hfinished : p.isFinished = false) (htick : p.tick channels = ⟨.ok (), q, channels'⟩) :
    Strides 1 p channels q channels' :=
  .stride hfinished htick .rest

theorem trans (h : Strides count p channels q channels')
    (h' : Strides more q channels' r channels'') :
    Strides (count + more) p channels r channels'' := by
  induction h with
  | rest => rw [Nat.zero_add]; exact h'
  | stride hfinished htick _ ih =>
    rw [Nat.succ_add]
    exact .stride hfinished htick (ih h')

end Strides

theorem drive_of_finished {p : Processor} (h : p.isFinished = true) (limit : Nat)
    (channels : Channels κ σ) : p.drive limit channels = ⟨.ok (some 0), p, channels⟩ := by
  cases limit <;> simp [drive, h]

theorem drive_of_tick_ok {p q : Processor} {channels channels' : Channels κ σ}
    (hfinished : p.isFinished = false) (htick : p.tick channels = ⟨.ok (), q, channels'⟩)
    (limit : Nat) : p.drive (limit + 1) channels = (q.drive limit channels').after 1 := by
  simp [drive, hfinished, htick]

theorem drive_of_tick_error {p q : Processor} {channels channels' : Channels κ σ} {fault : Fault}
    (hfinished : p.isFinished = false) (htick : p.tick channels = ⟨.error fault, q, channels'⟩)
    (limit : Nat) : p.drive (limit + 1) channels = ⟨.error fault, q, channels'⟩ := by
  simp [drive, hfinished, htick]

/-- A run begins with its strides. -/
theorem drive_of_strides {count : Nat} {p q : Processor} {channels channels' : Channels κ σ}
    (h : Strides count p channels q channels') (limit : Nat) :
    p.drive (count + limit) channels = (q.drive limit channels').after count := by
  induction h with
  | rest => rw [Nat.zero_add, Outcome.after_zero]
  | @stride count p q r channels channels' channels'' hfinished htick _ ih =>
    rw [Nat.succ_add, drive_of_tick_ok hfinished htick, ih, Outcome.after_after, Nat.add_comm 1]

/-- A limit within the strides is reached. -/
theorem drive_of_strides_of_lt {count : Nat} {p q : Processor} {channels channels' : Channels κ σ}
    (h : Strides count p channels q channels') :
    ∀ limit < count, (p.drive limit channels).result = .ok none := by
  induction h with
  | rest => intro limit hlt; omega
  | @stride count p q r channels channels' channels'' hfinished htick _ ih =>
    intro limit hlt
    cases limit with
    | zero => simp [drive, hfinished]
    | succ limit =>
      rw [drive_of_tick_ok hfinished htick]
      simp [Outcome.after, ih limit (by omega), Except.map]

/-- A larger limit does not change a run that ended. -/
theorem drive_add (more : Nat) : ∀ (limit : Nat) (p : Processor) (channels : Channels κ σ),
    (p.drive limit channels).result ≠ .ok none →
      p.drive (limit + more) channels = p.drive limit channels := by
  intro limit
  induction limit with
  | zero =>
    intro p channels h
    cases hfinished : p.isFinished with
    | true => rw [drive_of_finished hfinished, drive_of_finished hfinished]
    | false => simp [drive, hfinished] at h
  | succ limit ih =>
    intro p channels h
    rw [Nat.succ_add]
    cases hfinished : p.isFinished with
    | true => rw [drive_of_finished hfinished, drive_of_finished hfinished]
    | false =>
      obtain ⟨result, q, channels', htick⟩ :
          ∃ result q channels', p.tick channels = ⟨result, q, channels'⟩ := ⟨_, _, _, rfl⟩
      cases result with
      | error fault =>
        rw [drive_of_tick_error hfinished htick, drive_of_tick_error hfinished htick]
      | ok done =>
        rw [drive_of_tick_ok hfinished htick] at h ⊢
        rw [drive_of_tick_ok hfinished htick, ih]
        intro hnone
        exact h (by simp [Outcome.after, hnone, Except.map])

/-- Two runs that ended came to the same. -/
theorem drive_eq_of_ended {p : Processor} {channels : Channels κ σ} {limit limit' : Nat}
    (h : (p.drive limit channels).result ≠ .ok none)
    (h' : (p.drive limit' channels).result ≠ .ok none) :
    p.drive limit channels = p.drive limit' channels := by
  rw [← drive_add limit' limit p channels h, Nat.add_comm, drive_add limit limit' p channels h']

end Processor

end TapeRing
