import Mathlib.Data.List.Rotate
import TapeRing.Proofs.Machine.Steps

/-! # The sweep of the cursor

The sweep of a machine is the ring once round from the cursor (`getElem?_sweep`). So the machine
stops on the processor under the cursor or on all of them, by its policy, and otherwise it is the
turn of the first processor of the sweep that is not finished (`turn_tick_cases`). -/

namespace TapeRing.Machine

variable {m : Machine}

/-- The processor that the cursor meets after a number of advances. -/
theorem getElem?_sweep (hcursor : m.cursor < m.processors.length) {passed : Nat}
    (hpassed : passed < m.processors.length) :
    ∃ p, m.processors[(m.cursor + passed) % m.processors.length]? = some p ∧
      m.sweep[passed]? = some (p, (m.cursor + passed) % m.processors.length) := by
  have hlength : m.processors.zipIdx.length = m.processors.length := List.length_zipIdx
  have hrotate : m.sweep = m.processors.zipIdx.rotate m.cursor :=
    (List.rotate_eq_drop_append_take (by omega)).symm
  have hindex := Nat.mod_lt (m.cursor + passed) (Nat.zero_lt_of_lt hcursor)
  refine ⟨_, List.getElem?_eq_getElem hindex, ?_⟩
  rw [hrotate, List.getElem?_rotate (by omega), hlength, Nat.add_comm passed,
    List.getElem?_zipIdx, List.getElem?_eq_getElem hindex, Option.map_some, Nat.zero_add]

theorem length_sweep (hcursor : m.cursor < m.processors.length) :
    m.sweep.length = m.processors.length := by
  simp only [sweep, List.length_append, List.length_drop, List.length_take, List.length_zipIdx]
  omega

theorem allFinished_iff :
    m.allFinished = true ↔ m.sweep.find? (fun (p, _) => !p.isFinished) = none := by
  rw [allFinished, List.all_eq_true, List.find?_eq_none]
  constructor
  · rintro h ⟨p, index⟩ hmem
    have hp := h p (List.mem_of_getElem? (mem_sweep_iff.mp hmem))
    simp [hp]
  · intro h p hp
    obtain ⟨index, hindex⟩ := List.mem_iff_getElem?.mp hp
    have hfinished := h (p, index) (mem_sweep_iff.mpr hindex)
    simpa using hfinished

theorem head?_sweep (hcursor : m.cursor < m.processors.length) :
    ∃ p, m.processors[m.cursor]? = some p ∧ m.sweep.head? = some (p, m.cursor) := by
  obtain ⟨p, hp, hsweep⟩ := getElem?_sweep hcursor (Nat.zero_lt_of_lt hcursor)
  rw [Nat.add_zero, Nat.mod_eq_of_lt hcursor] at hp hsweep
  exact ⟨p, hp, by rw [List.head?_eq_getElem?, hsweep]⟩

theorem turn_firstFinished_eq_halt_iff (hhalt : m.config.halt = .firstFinished)
    (hcursor : m.cursor < m.processors.length) (on : Option Nat) :
    m.turn = .halt on ↔
      on = some m.cursor ∧ ∃ p, m.processors[m.cursor]? = some p ∧ p.isFinished = true := by
  obtain ⟨p, hp, hhead⟩ := head?_sweep hcursor
  unfold turn
  rw [hhalt]
  simp only [hhead, hp]
  cases hfinished : p.isFinished with
  | true =>
    simp only [if_true, Turn.halt.injEq, Option.some.injEq, exists_eq_left', hfinished, and_true]
    exact eq_comm
  | false => simp [hfinished]

theorem turn_allFinished_eq_halt_iff (hhalt : m.config.halt = .allFinished) (on : Option Nat) :
    m.turn = .halt on ↔ on = none ∧ ∀ p ∈ m.processors, p.isFinished = true := by
  have hall : (∀ p ∈ m.processors, p.isFinished = true) ↔
      m.sweep.find? (fun (p, _) => !p.isFinished) = none := by
    rw [← allFinished_iff, allFinished, List.all_eq_true]
  rw [hall]
  unfold turn
  rw [hhalt]
  cases m.sweep.find? (fun (p, _) => !p.isFinished) <;> simp [eq_comm]

theorem unfinished_of_turn {index : Nat} {p : Processor} (h : m.turn = .tick index p) :
    p.isFinished = false := by
  unfold turn at h
  split at h
  · split at h
    · cases h
    · split at h
      · cases h
      · cases h
        exact eq_false_of_ne_true ‹_›
  · split at h
    · cases h
    · rename_i hfind
      cases h
      have hunfinished := List.find?_some hfind
      dsimp only at hunfinished
      simpa using hunfinished

/-- It is the turn of the processor under the cursor if that is not finished, by either policy. -/
theorem turn_of_unfinished {p : Processor} (hp : m.processors[m.cursor]? = some p)
    (hunfinished : p.isFinished = false) : m.turn = .tick m.cursor p := by
  obtain ⟨q, hq, hhead⟩ := head?_sweep (List.getElem?_eq_some_iff.mp hp).1
  obtain rfl : p = q := Option.some.inj (hp.symm.trans hq)
  obtain ⟨rest, hsweep⟩ := List.head?_eq_some_iff.mp hhead
  unfold turn
  cases m.config.halt with
  | firstFinished => simp only [hhead, hunfinished, Bool.false_eq_true, if_false]
  | allFinished => simp only [hsweep, List.find?_cons, hunfinished, Bool.not_false]

/-- It is still the turn of a processor if the cursor is moved to it. -/
theorem turn_at_turn {index : Nat} {p : Processor} (h : m.turn = .tick index p) :
    ({ m with cursor := index } : Machine).turn = .tick index p := by
  have hp := getElem?_of_turn h
  exact turn_of_unfinished (m := { m with cursor := index }) hp (unfinished_of_turn h)

/-- A processor whose turn it is is not finished, and those that the cursor passes over on the way
    to it are. Only the policy that waits for all processors passes over any. -/
theorem turn_tick_cases (hcursor : m.cursor < m.processors.length) {index : Nat} {p : Processor}
    (h : m.turn = .tick index p) :
    p.isFinished = false ∧
      ∃ passed < m.processors.length, index = (m.cursor + passed) % m.processors.length ∧
        (m.config.halt = .firstFinished → passed = 0) ∧
        ∀ earlier < passed, ∃ q,
          m.processors[(m.cursor + earlier) % m.processors.length]? = some q ∧
            q.isFinished = true := by
  refine ⟨unfinished_of_turn h, ?_⟩
  cases hhalt : m.config.halt with
  | firstFinished =>
    obtain ⟨q, -, hhead⟩ := head?_sweep hcursor
    unfold turn at h
    rw [hhalt] at h
    simp only [hhead] at h
    split at h <;> cases h
    refine ⟨0, Nat.zero_lt_of_lt hcursor, ?_, fun _ => rfl,
      fun earlier hlt => absurd hlt (Nat.not_lt_zero _)⟩
    rw [Nat.add_zero, Nat.mod_eq_of_lt hcursor]
  | allFinished =>
    unfold turn at h
    rw [hhalt] at h
    cases hfind : m.sweep.find? (fun (p, _) => !p.isFinished) with
    | none => simp [hfind] at h
    | some found =>
      simp only [hfind] at h
      cases h
      obtain ⟨-, passed, hlt, hat, hbefore⟩ := List.find?_eq_some_iff_getElem.mp hfind
      rw [length_sweep hcursor] at hlt
      obtain ⟨q, -, hsweep⟩ := getElem?_sweep hcursor hlt
      rw [List.getElem?_eq_getElem (by rwa [length_sweep hcursor]), hat] at hsweep
      cases hsweep
      refine ⟨passed, hlt, rfl, nofun, ?_⟩
      intro earlier hearlier
      obtain ⟨r, hr, hsweep⟩ := getElem?_sweep hcursor (Nat.lt_trans hearlier hlt)
      rw [List.getElem?_eq_getElem (by rw [length_sweep hcursor]; omega)] at hsweep
      have hfinished := hbefore earlier hearlier
      rw [Option.some.inj hsweep] at hfinished
      exact ⟨r, hr, by simpa using hfinished⟩

end TapeRing.Machine
