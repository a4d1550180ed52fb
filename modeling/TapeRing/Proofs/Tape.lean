import TapeRing.Tape

/-! # Cells after an operation

What each operation of a tape does to its cells, and which values it can put there: from values in
0..=256, the values that a tape starts with and that bytes have, the operations lead to such values
again. -/

namespace TapeRing

/-- The values that a processor finds in its cells: a byte, or 256 after an increment of 255. -/
def CellValue (value : Int) : Prop := 0 ≤ value ∧ value ≤ cellMax + 1

theorem CellValue.up {value : Int} (h : CellValue value) : CellValue (cellUp value) := by
  unfold CellValue cellUp cellMax at *
  split <;> omega

theorem CellValue.down {value : Int} (h : CellValue value) : CellValue (cellDown value) := by
  unfold CellValue cellDown cellMax at *
  split <;> omega

theorem cellUp_emod (value count : Int) :
    cellUp ((value + count) % 257) = (value + (count + 1)) % 257 := by
  unfold cellUp cellMax
  split <;> omega

theorem cellDown_succ (left : Nat) : cellDown ((left + 1 : Nat) : Int) = left := by
  rw [cellDown, if_neg (by omega)]
  omega

theorem toNat_le_cellMax (byte : UInt8) : (byte.toNat : Int) ≤ cellMax := by
  have := byte.toNat_lt
  unfold cellMax
  omega

/-- The only value in a cell that is no byte is 256. -/
theorem CellValue.eq_or_byte {value : Int} (h : CellValue value) :
    value = cellMax + 1 ∨ ∃ byte : UInt8, value = byte.toNat := by
  obtain ⟨hnonneg, hle⟩ := h
  rcases Int.lt_or_eq_of_le hle with hlt | rfl
  · right
    refine ⟨UInt8.ofNat value.toNat, ?_⟩
    rw [UInt8.toNat_ofNat']
    unfold cellMax at hlt
    omega
  · exact Or.inl rfl

theorem cellValue_toNat (byte : UInt8) : CellValue byte.toNat := by
  have := toNat_le_cellMax byte
  unfold CellValue
  omega

namespace Tape

variable {t t' : Tape} {index : Nat} {value : Int}

theorem update_eq_ok_iff {f : Int → Int} :
    t.update f index = .ok t' ↔
      ∃ value, t.cells[index]? = some value ∧ t' = ⟨t.cells.set index (f value)⟩ := by
  unfold update
  cases t.cells[index]? with
  | none => simp
  | some value => simp [eq_comm]

theorem write_eq_ok_iff :
    t.write index value = .ok t' ↔
      index < t.size ∧ value ≤ cellMax ∧ t' = ⟨t.cells.set index value⟩ := by
  unfold write
  by_cases hindex : t.size ≤ index
  · simp [hindex, Nat.not_lt.mpr hindex]
  · by_cases hvalue : cellMax < value
    · simp [hindex, hvalue, Int.not_le.mpr hvalue]
    · simp [hindex, hvalue, Nat.lt_of_not_le hindex, Int.not_lt.mp hvalue, eq_comm]

/-- A cell of the tape can be changed. -/
theorem exists_update (h : index < t.size) (f : Int → Int) : ∃ t', t.update f index = .ok t' :=
  ⟨_, update_eq_ok_iff.mpr ⟨_, List.getElem?_eq_getElem h, rfl⟩⟩

/-- All cells of a tape hold values that a processor finds in its cells. -/
def Bounded (t : Tape) : Prop := ∀ value ∈ t.cells, CellValue value

theorem bounded_fresh : fresh.Bounded := by
  intro value hvalue
  obtain rfl := List.mem_singleton.mp hvalue
  exact ⟨Int.le_refl 0, by decide⟩

theorem Bounded.set (h : t.Bounded) (index : Nat) (hvalue : CellValue value) :
    Bounded ⟨t.cells.set index value⟩ := by
  intro other hother
  rcases List.mem_or_eq_of_mem_set hother with hmem | rfl
  · exact h other hmem
  · exact hvalue

theorem Bounded.growLeft (h : t.Bounded) : t.growLeft.Bounded := by
  intro value hvalue
  rcases List.mem_cons.mp hvalue with rfl | hmem
  · exact bounded_fresh 0 (List.mem_singleton.mpr rfl)
  · exact h value hmem

theorem Bounded.growRight (h : t.Bounded) : t.growRight.Bounded := by
  intro value hvalue
  rcases List.mem_append.mp hvalue with hmem | hmem
  · exact h value hmem
  · exact bounded_fresh value hmem

theorem Bounded.update {f : Int → Int} (h : t.Bounded)
    (hf : ∀ value, CellValue value → CellValue (f value)) (hupdate : t.update f index = .ok t') :
    t'.Bounded := by
  obtain ⟨value, hget, rfl⟩ := update_eq_ok_iff.mp hupdate
  exact h.set index (hf value (h value (List.mem_of_getElem? hget)))

theorem Bounded.write (h : t.Bounded) (hvalue : CellValue value)
    (hwrite : t.write index value = .ok t') : t'.Bounded := by
  obtain ⟨-, -, rfl⟩ := write_eq_ok_iff.mp hwrite
  exact h.set index hvalue

end Tape

end TapeRing
