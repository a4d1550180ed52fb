import Mathlib.Algebra.BigOperators.Group.Finset.Basic
import Mathlib.Data.Int.CardIntervalMod
import TapeRing.Proofs.Machine.Assembly
import TapeRing.Proofs.Machine.Sweep

/-! # The places of an endless sweep

Number the places of an endless sweep of a ring: place `k` is that of processor `k mod n`, in the
round `k div n`. A machine goes through the places in order. At each it ticks the processor, or it
passes over a finished one; so a processor that is not finished has been ticked once for each of its
places that the machine has gone through (`Swept`), and every step keeps this up
(`OnCourse.step_cases`). -/

namespace TapeRing

/-- How many of the places before `place` are those of the processor `index`, in a ring of `count`
    processors. -/
def due (count place index : Nat) : Nat :=
  Nat.count (· % count = index) place

theorem due_zero (count index : Nat) : due count 0 index = 0 :=
  Nat.count_zero _

theorem due_succ (count place index : Nat) :
    due count (place + 1) index = due count place index + if place % count = index then 1 else 0 :=
  Nat.count_succ _ _

theorem due_eq {count index : Nat} (hindex : index < count) (place : Nat) :
    due count place index = place / count + if index < place % count then 1 else 0 := by
  have hcount := Nat.count_modEq_card place (Nat.zero_lt_of_lt hindex) index
  simpa only [due, Nat.ModEq, Nat.mod_eq_of_lt hindex] using hcount

/-- A processor has had its turn in a round iff that place has been gone through. -/
theorem lt_due_iff {count index : Nat} (hindex : index < count) (place round : Nat) :
    round < due count place index ↔ round * count + index < place := by
  have hplace : place / count * count + place % count = place := by
    rw [Nat.mul_comm]
    exact Nat.div_add_mod place count
  have hmod := Nat.mod_lt place (Nat.zero_lt_of_lt hindex)
  rw [due_eq hindex]
  rcases Nat.lt_trichotomy round (place / count) with hlt | heq | hgt
  · have hround : (round + 1) * count ≤ place / count * count := Nat.mul_le_mul_right _ hlt
    rw [Nat.succ_mul] at hround
    omega
  · rw [← heq] at hplace ⊢
    split <;> omega
  · have hround : (place / count + 1) * count ≤ round * count := Nat.mul_le_mul_right _ hgt
    rw [Nat.succ_mul] at hround
    split <;> omega

/-- The places before `place` by the processors they belong to. -/
theorem count_map_range (count place index : Nat) :
    ((List.range place).map (· % count)).count index = due count place index := by
  induction place with
  | zero => rw [due_zero]; rfl
  | succ place ih =>
    rw [List.range_succ, List.map_append, List.count_append, ih, due_succ, List.map_singleton,
      List.count_singleton]
    simp only [beq_iff_eq]

/-- The part of a processor is as long as the number of its places before the end of the program. -/
theorem Program.length_part {count index : Nat} (hindex : index < count) (program : Program) :
    (program.part count index).length = due count program.length index := by
  refine eq_of_forall_lt_iff fun round => ?_
  rw [lt_due_iff hindex, ← not_le, ← not_le, ← get?_eq_none_iff, ← get?_eq_none_iff,
    get?_part (Nat.zero_lt_of_lt hindex), Nat.add_comm]

namespace Machine

/-- The processors that were ticked, in order. -/
def ticked (results : List (Except Fault Step)) : List Nat :=
  results.filterMap fun
    | .ok (.ticked index) => some index
    | .ok (.halted _) => none
    | .error _ => none

@[simp] theorem ticked_append (results later : List (Except Fault Step)) :
    ticked (results ++ later) = ticked results ++ ticked later :=
  List.filterMap_append

@[simp] theorem ticked_ticked (index : Nat) : ticked [.ok (.ticked index)] = [index] := rfl

@[simp] theorem ticked_halted (on : Option Nat) : ticked [.ok (.halted on)] = [] := rfl

@[simp] theorem ticked_error (fault : Fault) : ticked [.error fault] = [] := rfl

/-! ## Going through the places -/

/-- The ticks made when all places before `place` have been gone through. A finished processor may
    have had fewer ticks than places. -/
structure Swept (place : Nat) (made : List Nat) (ring : List Processor) : Prop where
  lt_length : ∀ index ∈ made, index < ring.length
  length_le : made.length ≤ place
  count_le : ∀ index < ring.length, made.count index ≤ due ring.length place index
  count_eq : ∀ {index : Nat} {p : Processor}, ring[index]? = some p → p.isFinished = false →
    made.count index = due ring.length place index

namespace Swept

variable {place : Nat} {made : List Nat} {ring : List Processor}

theorem start (ring : List Processor) : Swept 0 [] ring where
  lt_length _ h := absurd h List.not_mem_nil
  length_le := Nat.le_refl 0
  count_le index _ := by rw [due_zero]; rfl
  count_eq _ _ := by rw [due_zero]; rfl

/-- A finished processor is passed over. -/
theorem pass (h : Swept place made ring) {p : Processor}
    (hp : ring[place % ring.length]? = some p) (hfinished : p.isFinished = true) :
    Swept (place + 1) made ring where
  lt_length := h.lt_length
  length_le := Nat.le_succ_of_le h.length_le
  count_le index hindex := by
    rw [due_succ]
    exact Nat.le_add_right_of_le (h.count_le index hindex)
  count_eq := by
    intro index q hq hunfinished
    have hother : place % ring.length ≠ index := by
      rintro rfl
      rw [hp] at hq
      cases hq
      rw [hfinished] at hunfinished
      cases hunfinished
    rw [due_succ, if_neg hother]
    exact h.count_eq hq hunfinished

theorem passAll (h : Swept place made ring) : ∀ passed : Nat,
    (∀ earlier < passed, ∃ p, ring[(place + earlier) % ring.length]? = some p ∧
      p.isFinished = true) →
    Swept (place + passed) made ring := by
  intro passed
  induction passed with
  | zero => intro _; exact h
  | succ passed ih =>
    intro hfinished
    obtain ⟨p, hp, hpfinished⟩ := hfinished passed (Nat.lt_succ_self passed)
    exact (ih fun earlier hlt => hfinished earlier (Nat.lt_succ_of_lt hlt)).pass hp hpfinished

/-- A processor that is not finished is ticked. -/
theorem tick (h : Swept place made ring) {p : Processor}
    (hp : ring[place % ring.length]? = some p) (hunfinished : p.isFinished = false)
    (q : Processor) :
    Swept (place + 1) (made ++ [place % ring.length]) (ring.set (place % ring.length) q) where
  lt_length := by
    intro index hmem
    rw [List.length_set]
    rcases List.mem_append.mp hmem with hmem | hmem
    · exact h.lt_length index hmem
    · rw [List.mem_singleton.mp hmem]
      exact (List.getElem?_eq_some_iff.mp hp).1
  length_le := by
    rw [List.length_append, List.length_singleton]
    exact Nat.succ_le_succ h.length_le
  count_le := by
    intro index hindex
    rw [List.length_set] at hindex ⊢
    rw [due_succ, List.count_append, List.count_singleton]
    simp only [beq_iff_eq]
    exact Nat.add_le_add_right (h.count_le index hindex) _
  count_eq := by
    intro index r hr hr'
    rw [List.length_set, due_succ, List.count_append, List.count_singleton]
    simp only [beq_iff_eq]
    by_cases hsame : place % ring.length = index
    · subst hsame
      rw [h.count_eq hp hunfinished]
    · rw [List.getElem?_set_ne hsame] at hr
      rw [h.count_eq hr hr']

end Swept

/-- A machine that has made these ticks on its way through all places before `place`. -/
structure OnCourse (place : Nat) (made : List Nat) (m : Machine) : Prop where
  swept : Swept place made m.processors
  nonempty : 0 < m.processors.length
  cursor_eq : m.cursor = place % m.processors.length
  ticks_eq : m.ticks = made.length
  /-- No place is passed over by a machine that stops on the first finished processor. -/
  inStep : m.config.halt = .firstFinished →
    made = (List.range place).map (· % m.processors.length)

theorem onCourse_fresh {config : MachineConfig} (hpos : 0 < config.processors) (source : String) :
    OnCourse 0 [] (fresh config source) where
  swept := Swept.start _
  nonempty := by rwa [length_processors_fresh]
  cursor_eq := (Nat.zero_mod _).symm
  ticks_eq := rfl
  inStep _ := rfl

/-- Where a machine on course goes on: it passes over the finished processors on the way to the
    place `reached`, where it is the turn of a processor that has been ticked once in each round
    before. -/
structure GoesOnTo (place : Nat) (made : List Nat) (m : Machine) (reached : Nat) (p : Processor) :
    Prop where
  turn_eq : m.turn = .tick (reached % m.processors.length) p
  getElem?_eq : m.processors[reached % m.processors.length]? = some p
  unfinished : p.isFinished = false
  place_le : place ≤ reached
  passed : ∀ earlier, place ≤ earlier → earlier < reached →
    ∃ q, m.processors[earlier % m.processors.length]? = some q ∧ q.isFinished = true
  inStep : m.config.halt = .firstFinished → reached = place
  swept : Swept reached made m.processors
  count_eq : made.count (reached % m.processors.length) = reached / m.processors.length

namespace OnCourse

variable {place : Nat} {made : List Nat} {m : Machine}

theorem cursor_lt (h : OnCourse place made m) : m.cursor < m.processors.length := by
  rw [h.cursor_eq]
  exact Nat.mod_lt _ h.nonempty

/-- Every tick made is one of a processor of the ring. -/
theorem sum_count (h : OnCourse place made m) :
    ∑ index ∈ Finset.range m.processors.length, made.count index = m.ticks := by
  have hmade : ∀ index ∈ made, index ∈ Finset.range m.processors.length :=
    fun index hmem => Finset.mem_range.mpr (h.swept.lt_length index hmem)
  have hsum := Multiset.sum_count_eq_card (m := Multiset.ofList made) hmade
  simpa only [Multiset.coe_count, Multiset.coe_card, h.ticks_eq] using hsum

theorem goesOnTo (h : OnCourse place made m) {index : Nat} {p : Processor}
    (hturn : m.turn = .tick index p) :
    ∃ reached, index = reached % m.processors.length ∧ GoesOnTo place made m reached p := by
  obtain ⟨hunfinished, passed, -, hindex, hfirst, hpassed⟩ := turn_tick_cases h.cursor_lt hturn
  simp only [h.cursor_eq, Nat.mod_add_mod] at hindex hpassed
  have hp := getElem?_of_turn hturn
  have hswept := h.swept.passAll passed hpassed
  refine ⟨place + passed, hindex, ?_⟩
  rw [hindex] at hturn hp
  refine ⟨hturn, hp, hunfinished, Nat.le_add_right _ _, ?_, ?_, hswept, ?_⟩
  · intro earlier hle hlt
    obtain ⟨more, rfl⟩ := Nat.exists_eq_add_of_le hle
    exact hpassed more (by omega)
  · intro hhalt
    rw [hfirst hhalt, Nat.add_zero]
  · rw [hswept.count_eq hp hunfinished, due_eq (List.getElem?_eq_some_iff.mp hp).1,
      if_neg (Nat.lt_irrefl _), Nat.add_zero]

/-- A machine that stops on the first finished processor ticks at every place. -/
theorem firstFinished (h : OnCourse place made m) (hhalt : m.config.halt = .firstFinished) :
    place = m.ticks ∧ m.cursor = m.ticks % m.processors.length ∧
      made = (List.range m.ticks).map (· % m.processors.length) ∧
      made.count m.cursor = m.ticks / m.processors.length := by
  have hmade := h.inStep hhalt
  have hplace : place = m.ticks := by
    rw [h.ticks_eq, hmade, List.length_map, List.length_range]
  have hcursor := h.cursor_eq
  rw [hplace] at hmade hcursor
  refine ⟨hplace, hcursor, hmade, ?_⟩
  rw [hmade, count_map_range, due_eq h.cursor_lt, ← hcursor, if_neg (Nat.lt_irrefl _), Nat.add_zero]

section Step

variable {κ σ : Type} [ByteSink κ] [ByteSource σ] {channels : Channels κ σ} {reached : Nat}
  {p : Processor}

theorem tick (h : OnCourse place made m) (hgoes : GoesOnTo place made m reached p) :
    OnCourse (reached + 1) (made ++ [reached % m.processors.length])
      { m with
          processors := m.processors.set (reached % m.processors.length) (p.tick channels).state
          cursor := m.after (reached % m.processors.length)
          ticks := m.ticks + 1 } where
  swept := hgoes.swept.tick hgoes.getElem?_eq hgoes.unfinished _
  nonempty := by
    rw [List.length_set]
    exact h.nonempty
  cursor_eq := by
    rw [List.length_set, after, Nat.mod_add_mod]
  ticks_eq := by
    rw [List.length_append, List.length_singleton, h.ticks_eq]
  inStep := by
    intro hhalt
    rw [List.length_set, hgoes.inStep hhalt, List.range_succ, List.map_append, ← h.inStep hhalt]
    rfl

theorem fault (h : OnCourse place made m) (hgoes : GoesOnTo place made m reached p) :
    OnCourse reached made { m with cursor := reached % m.processors.length } where
  swept := hgoes.swept
  nonempty := h.nonempty
  cursor_eq := rfl
  ticks_eq := h.ticks_eq
  inStep := by
    intro hhalt
    rw [hgoes.inStep hhalt]
    exact h.inStep hhalt

/-- What the next step of a machine on course comes to. -/
theorem step_cases (h : OnCourse place made m) (channels : Channels κ σ) :
    (∃ on, m.turn = .halt on ∧ m.step channels = ⟨.ok (.halted on), m, channels⟩) ∨
      ∃ reached p, GoesOnTo place made m reached p ∧
        ((p.tick channels).result = .ok () ∧
            (m.step channels).result = .ok (.ticked (reached % m.processors.length)) ∧
            OnCourse (reached + 1) (made ++ [reached % m.processors.length])
              (m.step channels).state ∧
            (m.step channels).state.processors =
              m.processors.set (reached % m.processors.length) (p.tick channels).state ∧
            (m.step channels).channels = (p.tick channels).channels ∨
          ∃ fault, (p.tick channels).result = .error fault ∧
            (m.step channels).result = .error fault ∧
            OnCourse reached made (m.step channels).state ∧
            (m.step channels).state.processors = m.processors) := by
  rcases Machine.step_cases m channels with
    hhalt | ⟨index, p, hturn, -, ⟨hresult, heq⟩ | ⟨fault, hresult, heq⟩⟩
  · exact Or.inl hhalt
  · obtain ⟨reached, rfl, hgoes⟩ := h.goesOnTo hturn
    rw [heq]
    exact Or.inr ⟨reached, p, hgoes, Or.inl ⟨hresult, rfl, h.tick hgoes, rfl, rfl⟩⟩
  · obtain ⟨reached, rfl, hgoes⟩ := h.goesOnTo hturn
    rw [heq]
    exact Or.inr ⟨reached, p, hgoes, Or.inr ⟨fault, hresult, rfl, h.fault hgoes, rfl⟩⟩

end Step

end OnCourse

end Machine

end TapeRing
