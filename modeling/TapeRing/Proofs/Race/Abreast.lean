import TapeRing.Proofs.Machine.Returns
import TapeRing.Proofs.Race.Lifetimes
import TapeRing.Proofs.Schedule.Places

/-! # Processors abreast

Without input the processors of a machine run abreast: each keeps pace with itself on its own
(`Abreast`). Steps that tick keep this up (`Strides.abreast`), and with it a step that faults tells
when its processor faults on its own (`Abreast.fault`). -/

namespace TapeRing.Machine

variable {κ σ κ' σ' : Type} [ByteSink κ] [ByteSource σ] [ByteSink κ'] [ByteSource σ']

/-- A machine on course whose processors keep pace with those in `own`. -/
structure Abreast (own : Nat → Processor) (other : Channels κ' σ') (place : Nat) (made : List Nat)
    (m : Machine) : Prop where
  onCourse : OnCourse place made m
  pace : ∀ {index p}, m.processors[index]? = some p →
    (own index).KeepsPace other (made.count index) p

variable {own : Nat → Processor} {other : Channels κ' σ'} {place : Nat} {made : List Nat}
  {m m' : Machine} {index reached : Nat}

namespace Abreast

/-- The number of ticks of a processor, by the places that the machine has gone through. -/
theorem count_eq_min (h : Abreast own other place made m) (hswept : Swept reached made m.processors)
    (hindex : index < m.processors.length) :
    (made.count index : ℕ∞) =
      min ((own index).finishTime other) (due m.processors.length reached index) := by
  have hp := List.getElem?_eq_getElem hindex
  cases hfinished : (m.processors[index]).isFinished with
  | true =>
    rw [(h.pace hp).finished_iff.mp hfinished, min_eq_left]
    exact_mod_cast hswept.count_le index hindex
  | false =>
    rw [← hswept.count_eq hp hfinished, min_eq_right (h.pace hp).le_finishTime]

/-- A processor that faults some time has been ticked at all of its places. -/
theorem due_le_faultTime (h : Abreast own other place made m)
    (hswept : Swept reached made m.processors) (hindex : index < m.processors.length) :
    (due m.processors.length reached index : ℕ∞) ≤ (own index).faultTime other := by
  have hp := List.getElem?_eq_getElem hindex
  cases hfinished : (m.processors[index]).isFinished with
  | true =>
    rw [(h.pace hp).faultTime_of_finished hfinished]
    exact le_top
  | false =>
    rw [← hswept.count_eq hp hfinished]
    exact (h.pace hp).le_faultTime

/-- If the machine stops on the first finished processor, all have been ticked at all of their
    places. -/
theorem due_le_finishTime (h : Abreast own other place made m)
    (hhalt : m.config.halt = .firstFinished) (hindex : index < m.processors.length) :
    (due m.processors.length m.ticks index : ℕ∞) ≤ (own index).finishTime other := by
  have hmade := (h.onCourse.firstFinished hhalt).2.2.1
  rw [← count_map_range, ← hmade]
  exact (h.pace (List.getElem?_eq_getElem hindex)).le_finishTime

section Inputless

variable {c : Channels κ σ} (hown : ∀ index, (own index).program.Inputless)
  (hother : Unfailing other.sink) (hsink : Unfailing c.sink)

include hown hother hsink

theorem stride (h : Abreast own other place made m) {c' : Channels κ σ}
    (hstep : m.step c = ⟨.ok (.ticked index), m', c'⟩) :
    ∃ place' made', Abreast own other place' made' m' := by
  rcases h.onCourse.step_cases c with
    ⟨on, -, heq⟩ | ⟨reached, p, hgoes, ⟨htick, -, hcourse, hring, -⟩ | ⟨fault, -, hresult, -⟩⟩
  · rw [hstep] at heq
    cases heq
  · rw [hstep] at hcourse hring
    refine ⟨_, _, hcourse, ?_⟩
    intro index q hq
    have hlt := (List.getElem?_eq_some_iff.mp hgoes.getElem?_eq).1
    rw [hring] at hq
    rw [List.count_append, List.count_singleton]
    by_cases hturn : reached % m.processors.length = index
    · subst hturn
      rw [List.getElem?_set_self hlt] at hq
      cases hq
      rw [beq_self_eq_true, if_pos rfl]
      exact (h.pace hgoes.getElem?_eq).tick (hown _) hother hsink hgoes.unfinished htick
    · rw [List.getElem?_set_ne hturn] at hq
      rw [if_neg (by simpa using hturn)]
      exact h.pace hq
  · rw [hstep] at hresult
    cases hresult

/-- A step that faults does so when its processor faults on its own, and then none has faulted
    earlier. -/
theorem fault (h : Abreast own other place made m) {failure : Fault}
    (hfault : (m.step c).result = .error failure) :
    ∃ reached, Swept reached made m.processors ∧
      (m.config.halt = .firstFinished → reached = place) ∧
      (own (reached % m.processors.length)).faultTime other =
        (reached / m.processors.length : Nat) ∧
      ((own (reached % m.processors.length)).tickAlone other
        (reached / m.processors.length)).result = .error failure ∧
      (m.step c).state.ticks = m.ticks := by
  rcases h.onCourse.step_cases c with
    ⟨on, -, heq⟩ | ⟨reached, p, hgoes, ⟨-, hresult, -⟩ | ⟨failure', htick, hresult, hcourse, -⟩⟩
  · rw [heq] at hfault
    cases hfault
  · rw [hresult] at hfault
    cases hfault
  · rw [hresult] at hfault
    cases hfault
    have hpace := (h.pace hgoes.getElem?_eq).fault (hown _) hother hsink htick
    rw [hgoes.count_eq] at hpace
    exact ⟨reached, hgoes.swept, hgoes.inStep, hpace.1, hpace.2,
      hcourse.ticks_eq.trans h.onCourse.ticks_eq.symm⟩

end Inputless

end Abreast

theorem Strides.abreast {count : Nat} {c c' : Channels κ σ} (hstrides : Strides count m c m' c')
    (hown : ∀ index, (own index).program.Inputless) (hother : Unfailing other.sink)
    (hsink : Unfailing c.sink) (h : Abreast own other place made m) :
    ∃ place' made', Abreast own other place' made' m' := by
  induction hstrides generalizing place made with
  | rest => exact ⟨place, made, h⟩
  | @stride _ _ m _ _ c _ _ hstep _ ih =>
    obtain ⟨place', made', h'⟩ := h.stride hown hother hsink hstep
    have hsink' := unfailing_step hsink m
    rw [hstep] at hsink'
    exact ih hsink' h'

end TapeRing.Machine
