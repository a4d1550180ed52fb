import TapeRing.Channel.Sink
import TapeRing.Channel.Source
import TapeRing.Proofs.Endless.Rover
import TapeRing.Proofs.Loops.Simulation

/-! # Counted loops

A loop whose body takes one from its cell each time is run as many times as the cell says. Such
loops are `[-]`, which clears its cell, and `[->+<]`, which transfers it to the cell on the right
(`transfer_loop_moves_cell`). -/

namespace TapeRing

variable {κ σ : Type} [ByteSink κ] [ByteSource σ]

/-! ## Basic instructions on the tape -/

theorem Basic.exec_increment {t : Tape} {dp : Nat} (h : dp < t.size) (channels : Channels κ σ) :
    ∃ t', Basic.increment.exec ⟨dp, t⟩ channels = ⟨.ok (), ⟨dp, t'⟩, channels⟩ ∧
      t'.size = t.size ∧ ∀ position : Int,
        t'.spread position = if position = dp then cellUp (t.spread dp) else t.spread position := by
  obtain ⟨t', hupdate, hrest⟩ := Tape.update_of_lt h cellUp
  exact ⟨t', by rw [Basic.exec, Tape.increment, hupdate]; rfl, hrest⟩

theorem Basic.exec_decrement {t : Tape} {dp : Nat} (h : dp < t.size) (channels : Channels κ σ) :
    ∃ t', Basic.decrement.exec ⟨dp, t⟩ channels = ⟨.ok (), ⟨dp, t'⟩, channels⟩ ∧
      t'.size = t.size ∧ ∀ position : Int,
        t'.spread position = if position = dp then cellDown (t.spread dp) else t.spread position := by
  obtain ⟨t', hupdate, hrest⟩ := Tape.update_of_lt h cellDown
  exact ⟨t', by rw [Basic.exec, Tape.decrement, hupdate]; rfl, hrest⟩

theorem Basic.exec_right {t : Tape} {dp : Nat} (h : dp < t.size) (channels : Channels κ σ) :
    ∃ t' : Tape, Basic.right.exec ⟨dp, t⟩ channels = ⟨.ok (), ⟨dp + 1, t'⟩, channels⟩ ∧
      t'.size = max t.size (dp + 2) ∧ t'.spread = t.spread := by
  by_cases hlast : dp + 1 = t.size
  · refine ⟨t.growRight, if_pos hlast, ?_, funext t.spread_growRight⟩
    rw [Tape.size_growRight]
    omega
  · exact ⟨t, if_neg hlast, by omega, rfl⟩

theorem Basic.exec_left_succ (t : Tape) (dp : Nat) (channels : Channels κ σ) :
    Basic.left.exec ⟨dp + 1, t⟩ channels = ⟨.ok (), ⟨dp, t⟩, channels⟩ := by
  rw [Basic.exec, if_neg (Nat.succ_ne_zero dp), Nat.add_sub_cancel]

/-! ## Clearing a cell -/

/-- The loop `[-]`. -/
def clearLoop : Block := .loop (.basic .decrement .done) .done

theorem exec_clearLoop {t : Tape} {dp k : Nat} (hdp : dp < t.size) (hk : t.spread dp = k)
    (channels : Channels κ σ) :
    ∃ t', clearLoop.exec k ⟨dp, t⟩ channels =
        ⟨.ok (some ⟨k, [k]⟩), ⟨dp, t'⟩, channels⟩ ∧ t'.size = t.size ∧ t'.spread dp = 0 := by
  have hread : ∀ (left : Nat) (t' : Tape), t'.size = t.size ∧ t'.spread dp = left →
      t'.read dp = .ok (left : Int) := by
    rintro left t' ⟨hsize, hvalue⟩
    rw [Tape.read_eq_ok_iff, Tape.spread_of_lt (hsize ▸ hdp), hvalue]
  have hbody : ∀ (left : Nat) (t' : Tape), t'.size = t.size ∧ t'.spread dp = (left + 1 : Nat) →
      ∃ t'', (Block.basic .decrement .done).exec k ⟨dp, t'⟩ channels =
          ⟨.ok (some ⟨1, []⟩), ⟨dp, t''⟩, channels⟩ ∧
        t''.size = t.size ∧ t''.spread dp = left := by
    rintro left t' ⟨hsize, hvalue⟩
    obtain ⟨t'', hdecrement, hsize', hspread⟩ := Basic.exec_decrement (hsize ▸ hdp) channels
    have hdone : Block.done.exec k ⟨dp, t''⟩ channels =
        ⟨.ok (some ⟨0, []⟩), ⟨dp, t''⟩, channels⟩ := rfl
    refine ⟨t'', Block.exec_basic_of_ok hdecrement hdone, hsize'.trans hsize, ?_⟩
    rw [hspread, if_pos rfl, hvalue, cellDown_succ]
  obtain ⟨t', hloop, hsize, hvalue⟩ :=
    whileNonzero_counted hread hbody k k 0 t (Nat.le_refl k) ⟨rfl, hk⟩
  rw [Nat.zero_add, Nat.one_mul] at hloop
  refine ⟨t', ?_, hsize, hvalue⟩
  rw [clearLoop, Block.exec, hloop]
  rfl

/-! ## Transferring a cell -/

/-- The instructions `->+<`. -/
def transferBody : Block :=
  .basic .decrement (.basic .right (.basic .increment (.basic .left .done)))

/-- The loop `[->+<]`. -/
def transferLoop : Block := .loop transferBody .done

theorem exec_transferBody {t : Tape} {dp : Nat} (h : dp < t.size) (fuel : Nat)
    (channels : Channels κ σ) :
    ∃ t' : Tape, transferBody.exec fuel ⟨dp, t⟩ channels =
        ⟨.ok (some ⟨4, []⟩), ⟨dp, t'⟩, channels⟩ ∧
      t'.size = max t.size (dp + 2) ∧
      t'.spread dp = cellDown (t.spread dp) ∧
      t'.spread (dp + 1) = cellUp (t.spread (dp + 1)) ∧
      ∀ position : Int, position ≠ dp → position ≠ dp + 1 →
        t'.spread position = t.spread position := by
  obtain ⟨t₁, hdecrement, hsize₁, hspread₁⟩ := Basic.exec_decrement h channels
  obtain ⟨t₂, hright, hsize₂, hspread₂⟩ := Basic.exec_right (hsize₁ ▸ h) channels
  have hlt : dp + 1 < t₂.size := by omega
  obtain ⟨t₃, hincrement, hsize₃, hspread₃⟩ := Basic.exec_increment hlt channels
  have hdone : Block.done.exec fuel ⟨dp, t₃⟩ channels =
      ⟨.ok (some ⟨0, []⟩), ⟨dp, t₃⟩, channels⟩ := rfl
  have hbody := Block.exec_basic_of_ok hdecrement (Block.exec_basic_of_ok hright
    (Block.exec_basic_of_ok hincrement
      (Block.exec_basic_of_ok (Basic.exec_left_succ t₃ dp channels) hdone)))
  rw [hspread₂] at hspread₃
  refine ⟨t₃, hbody, by omega, ?_, ?_, ?_⟩
  · rw [hspread₃, if_neg (by omega), hspread₁, if_pos rfl]
  · have hcell := hspread₃ (dp + 1 : Nat)
    rw [if_pos rfl, hspread₁, if_neg (by omega)] at hcell
    exact hcell
  · intro position hhere hright
    rw [hspread₃, if_neg (by omega), hspread₁, if_neg hhere]

/-- What has become of a tape when, of the `k` units in one of its cells, `left` are still there and
    the others have gone into the cell on its right. -/
structure Transferred (t : Tape) (dp k left : Nat) (t' : Tape) : Prop where
  le : left ≤ k
  size : t'.size = if left < k then max t.size (dp + 2) else t.size
  here : t'.spread dp = left
  right : t'.spread (dp + 1) = (t.spread (dp + 1) + (k - left)) % 257
  elsewhere : ∀ position : Int, position ≠ dp → position ≠ dp + 1 →
    t'.spread position = t.spread position

section Transfer

variable {t t' : Tape} {dp k left : Nat}

theorem transferred_start (hk : t.spread dp = k) (hright : CellValue (t.spread (dp + 1))) :
    Transferred t dp k k t := by
  refine ⟨Nat.le_refl k, (if_neg (Nat.lt_irrefl k)).symm, hk, ?_, fun _ _ _ => rfl⟩
  obtain ⟨hnonneg, hle⟩ := hright
  unfold cellMax at hle
  omega

theorem Transferred.lt_size (h : Transferred t dp k left t') (hdp : dp < t.size) :
    dp < t'.size := by
  rw [h.size]
  split <;> omega

/-- The body transfers one unit. -/
theorem Transferred.body (h : Transferred t dp k (left + 1) t') (hdp : dp < t.size) (fuel : Nat)
    (channels : Channels κ σ) :
    ∃ t'', transferBody.exec fuel ⟨dp, t'⟩ channels =
        ⟨.ok (some ⟨4, []⟩), ⟨dp, t''⟩, channels⟩ ∧ Transferred t dp k left t'' := by
  have hleft := h.le
  obtain ⟨t'', hexec, hsize, hhere, hright, helsewhere⟩ :=
    exec_transferBody (h.lt_size hdp) fuel channels
  refine ⟨t'', hexec, Nat.le_of_lt hleft, ?_, ?_, ?_, ?_⟩
  · rw [hsize, h.size, if_pos (Nat.lt_of_succ_le hleft)]
    split <;> omega
  · rw [hhere, h.here, cellDown_succ]
  · rw [hright, h.right, cellUp_emod]
    congr 2
    omega
  · intro position hne hne'
    rw [helsewhere position hne hne', h.elsewhere position hne hne']

theorem exec_transferLoop (hdp : dp < t.size) (hk : t.spread dp = k)
    (hright : CellValue (t.spread (dp + 1))) (channels : Channels κ σ) :
    ∃ t', transferLoop.exec k ⟨dp, t⟩ channels =
        ⟨.ok (some ⟨4 * k, [k]⟩), ⟨dp, t'⟩, channels⟩ ∧ Transferred t dp k 0 t' := by
  have hread : ∀ left t', Transferred t dp k left t' → t'.read dp = .ok (left : Int) := by
    intro left t' h
    have hcell := Tape.spread_of_lt (h.lt_size hdp)
    rw [h.here] at hcell
    exact Tape.read_eq_ok_iff.mpr hcell
  obtain ⟨t', hloop, h⟩ := whileNonzero_counted hread (fun _ _ h => h.body hdp k channels) k k 0 t
    (Nat.le_refl k) (transferred_start hk hright)
  rw [Nat.zero_add] at hloop
  refine ⟨t', ?_, h⟩
  rw [transferLoop, Block.exec, hloop]
  rfl

end Transfer

namespace Processor

/-- Let a processor stand at the `[` of `[->+<]` in any program, with balanced brackets or not, and
    let its cells hold values up to 256. Let `k` be the value under its data pointer and `m` the one
    on the right of that, or 0 if there is no cell. It makes `6 k + 1` ticks without a fault,
    whatever its channels are, and it leaves these alone. It then stands behind the loop with its
    data pointer where it was. The cell there is zero, the one on the right of it, if there is one,
    is `(m + k) mod 257`, and the others are as they were. The tape has grown by one cell iff there
    was none on the right and there was something to transfer. -/
theorem transfer_loop_moves_cell {p : Processor} (hp : p.Consistent) (hdp : p.dp < p.tape.size)
    (hbounded : p.tape.Bounded) {before after : List Op}
    (hprogram : p.program.ops =
      before ++ [.loopStart, .decrement, .right, .increment, .left, .loopEnd] ++ after)
    (hip : p.ip = before.length) (channels : Channels κ σ) :
    ∃ (k m : Nat) (t : Tape),
      p.tape.cells[p.dp]? = some (k : Int) ∧ p.tape.cells[p.dp + 1]?.getD 0 = m ∧
      Strides (6 * k + 1) p channels { p with ip := p.ip + 6, tape := t } channels ∧
      t.cells[p.dp]? = some 0 ∧
      (p.dp + 1 < t.size → t.cells[p.dp + 1]? = some (((m + k) % 257 : Nat) : Int)) ∧
      (∀ index, index ≠ p.dp → index ≠ p.dp + 1 → t.cells[index]? = p.tape.cells[index]?) ∧
      t.size = if p.dp + 1 = p.tape.size ∧ 0 < k then p.tape.size + 1 else p.tape.size := by
  obtain ⟨k, hk⟩ := Int.eq_ofNat_of_zero_le (hbounded.spread p.dp).1
  obtain ⟨m, hm⟩ := Int.eq_ofNat_of_zero_le (hbounded.spread (p.dp + 1 : Nat)).1
  obtain ⟨t, hexec, htransferred⟩ := exec_transferLoop hdp hk (hbounded.spread _) channels
  have hdrop : p.program.ops.drop p.ip = transferLoop.flatten ++ after := by
    rw [hprogram, hip, List.append_assoc, List.drop_left]
    rfl
  have hstrides := strides_of_exec hp hdrop hexec
  have hticks : (⟨4 * k, [k]⟩ : Tally).ticks = 6 * k + 1 := by
    simp only [Tally.ticks, List.map_cons, List.map_nil, List.sum_cons, List.sum_nil]
    omega
  rw [hticks] at hstrides
  have hcell := Tape.spread_of_lt (htransferred.lt_size hdp)
  rw [htransferred.here] at hcell
  refine ⟨k, m, t, by rw [Tape.spread_of_lt hdp, hk], hm, hstrides, hcell, ?_, ?_, ?_⟩
  · intro hright
    have hnew : t.spread (p.dp + 1 : Nat) = ((m + k) % 257 : Nat) := by
      have hmoved := htransferred.right
      rw [show p.tape.spread ((p.dp : Int) + 1) = m from hm] at hmoved
      exact hmoved.trans (by omega)
    rw [Tape.spread_of_lt hright, hnew]
  · intro index hne hne'
    have hsize := htransferred.size
    by_cases hindex : index < p.tape.size
    · have hindex' : index < t.size := by
        rw [hsize]
        split <;> omega
      rw [Tape.spread_of_lt hindex, Tape.spread_of_lt hindex',
        htransferred.elsewhere index (by omega) (by omega)]
    · have hindex' : t.size ≤ index := by
        rw [hsize]
        split <;> omega
      rw [List.getElem?_eq_none hindex', List.getElem?_eq_none (Nat.le_of_not_lt hindex)]
  · rw [htransferred.size]
    split <;> split <;> omega

/-- Between unmatched brackets the last cell is moved to a new one, and nothing of the 256 in it is
    lost. -/
theorem transfer_loop_moves_cell_on_last :
    let p : Processor :=
      { load 3 (Program.parse "]+[->+<][") .table with ip := 2, dp := 1, tape := ⟨[7, 256]⟩ }
    p.Consistent ∧ p.tape.Bounded ∧ ∃ t : Tape,
      Strides 1537 p (Channels.mk ByteBuffer.empty NullSource.mk)
        { p with ip := 8, tape := t } (Channels.mk ByteBuffer.empty NullSource.mk) ∧
      t.cells[0]? = some 7 ∧ t.cells[1]? = some 0 ∧ t.cells[2]? = some 256 ∧ t.size = 3 := by
  intro p
  have hp : p.Consistent := consistent_load 3 (Program.parse "]+[->+<][") .table
  have hbounded : p.tape.Bounded := by
    show ∀ value ∈ [7, 256], 0 ≤ value ∧ value ≤ cellMax + 1
    decide
  have hprogram : p.program.ops = [.loopEnd, .increment] ++
      [.loopStart, .decrement, .right, .increment, .left, .loopEnd] ++ [.loopStart] := by
    decide
  obtain ⟨k, m, t, hk, hm, hstrides, hhere, hright, helsewhere, hsize⟩ :=
    transfer_loop_moves_cell hp (by decide) hbounded hprogram rfl
      (Channels.mk ByteBuffer.empty NullSource.mk)
  obtain rfl : k = 256 := Int.ofNat.inj (Option.some.inj hk).symm
  obtain rfl : m = 0 := Int.ofNat.inj hm.symm
  have hsize : t.size = 3 := hsize
  exact ⟨hp, hbounded, t, hstrides, helsewhere 0 (by decide) (by decide), hhere,
    hright (by rw [hsize]; decide), hsize⟩

end Processor

end TapeRing
