import Mathlib.Logic.Function.Iterate
import TapeRing.Proofs.Channel.Unfailing
import TapeRing.Proofs.Obstacles
import TapeRing.Proofs.Processor.Drive

/-! # Repeated updates of a cell

Incrementing a cell again and again goes round through the 257 values from 0 to 256, and
decrementing it goes round through the 256 values from 255 to 0 (`iterate_cellUp`,
`iterate_cellDown`). So the two undo each other only as long as the cell does not pass zero, and
what a program prints that counts up to a number has the longer period
(`repeated_updates_have_two_periods`). -/

namespace TapeRing

/-! ## Values -/

theorem iterate_cellUp {value : Int} (h : CellValue value) (count : Nat) :
    cellUp^[count] value = (value + count) % 257 := by
  induction count with
  | zero =>
    obtain ⟨hnonneg, hle⟩ := h
    unfold cellMax at hle
    rw [Function.iterate_zero_apply]
    omega
  | succ count ih =>
    rw [Function.iterate_succ_apply', ih, cellUp_emod, Int.natCast_succ]

/-- Down to zero each decrement takes one, and the next one begins a round from 255. -/
theorem iterate_cellDown {value : Int} (h : CellValue value) (count : Nat) :
    cellDown^[count] value =
      if count ≤ value then value - count else 255 - (count - value - 1) % 256 := by
  induction count with
  | zero =>
    have hnonneg := h.1
    rw [Function.iterate_zero_apply, if_pos (by omega)]
    omega
  | succ count ih =>
    have hnonneg := h.1
    rw [Function.iterate_succ_apply', ih]
    unfold cellDown cellMax
    split <;> split <;> split <;> omega

theorem iterate_cellUp_iterate_cellDown {value : Int} (h : CellValue value) {count : Nat}
    (hcount : count ≤ value) : cellUp^[count] (cellDown^[count] value) = value := by
  obtain ⟨hnonneg, hle⟩ := h
  rw [iterate_cellDown ⟨hnonneg, hle⟩, if_pos hcount,
    iterate_cellUp ⟨by omega, by omega⟩, Int.sub_add_cancel]
  unfold cellMax at hle
  omega

/-! ## Tapes -/

namespace Tape

/-- Makes the same update of a cell a number of times, up to the first time that it fails. -/
def repeated (operation : Tape → Nat → Except Fault Tape) (index : Nat) :
    (count : Nat) → Tape → Except Fault Tape
  | 0, t => .ok t
  | count + 1, t =>
      match operation t index with
      | .ok t => repeated operation index count t
      | .error fault => .error fault

/-- No update of a cell fails, and no other cell is changed. -/
theorem repeated_update (f : Int → Int) {index : Nat} (count : Nat) {t : Tape} {value : Int}
    (h : t.cells[index]? = some value) :
    repeated (update f) index count t = .ok ⟨t.cells.set index (f^[count] value)⟩ := by
  induction count generalizing t value with
  | zero =>
    obtain ⟨hindex, rfl⟩ := List.getElem?_eq_some_iff.mp h
    rw [repeated, Function.iterate_zero_apply, List.set_getElem_self]
  | succ count ih =>
    have hindex := (List.getElem?_eq_some_iff.mp h).1
    have hupdate : t.update f index = .ok ⟨t.cells.set index (f value)⟩ :=
      update_eq_ok_iff.mpr ⟨value, h, rfl⟩
    have hcell : (t.cells.set index (f value))[index]? = some (f value) :=
      List.getElem?_set_self hindex
    simp only [repeated, hupdate]
    rw [ih hcell, List.set_set, Function.iterate_succ_apply]

end Tape

/-! ## Counting programs -/

theorem toAscii_ofNat {value : Nat} (h : value < 256) :
    toAscii (UInt8.ofNat value) = if value ≤ 127 then UInt8.ofNat value else questionMark := by
  have hlt : UInt8.ofNat value < 128 ↔ value ≤ 127 := by
    rw [UInt8.lt_iff_toNat_lt, UInt8.toNat_ofNat', Nat.mod_eq_of_lt h]
    exact Nat.lt_succ_iff
  simp only [toAscii, hlt]

/-- The text of `count` times `+` and a `.`. -/
def countingText (count : Nat) : String :=
  String.ofList (List.replicate count '+' ++ ['.'])

theorem parse_countingText (count : Nat) :
    Program.parse (countingText count) = ⟨List.replicate count .increment ++ [.output]⟩ := by
  have htext : countingText count =
      Program.text ⟨List.replicate count .increment ++ [.output]⟩ := by
    rw [Program.text, List.map_append, List.map_replicate]
    rfl
  rw [htext, Program.parse_text]

namespace Processor

variable {κ σ : Type} [ByteSink κ] [ByteSource σ]

theorem tick_increment {p : Processor} {t : Tape} (hop : p.op? = some .increment)
    (h : p.tape.increment p.dp = .ok t) (channels : Channels κ σ) :
    p.tick channels = ⟨.ok (), { p with tape := t, ip := p.ip + 1 }, channels⟩ := by
  simp only [tick, action_of_op? hop, perform, h, carryOut, next]

/-- A row of `+` in any program makes as many increments of the cell under the data pointer. -/
theorem strides_of_repeated (count : Nat) {p : Processor} {t : Tape} {after : List Op}
    (hdrop : p.program.ops.drop p.ip = List.replicate count .increment ++ after)
    (h : Tape.repeated Tape.increment p.dp count p.tape = .ok t) (channels : Channels κ σ) :
    Strides count p channels { p with tape := t, ip := p.ip + count } channels := by
  induction count generalizing p with
  | zero =>
    cases h
    exact .rest
  | succ count ih =>
    rw [List.replicate_succ, List.cons_append] at hdrop
    have hop : p.op? = some .increment := getElem?_of_drop hdrop
    have hlater : p.program.ops.drop (p.ip + 1) = List.replicate count .increment ++ after :=
      drop_succ_of_drop hdrop
    unfold Tape.repeated at h
    split at h
    · rename_i t' hincrement
      have hrest := ih (p := { p with tape := t', ip := p.ip + 1 }) hlater h
      rw [Nat.add_right_comm] at hrest
      exact .stride (isFinished_of_op? hop) (tick_increment hop hincrement channels) hrest
    · cases h

/-- A processor that has counted and is about to put its cell. -/
def counted (id : Nat) (strategy : BracketStrategy) (count : Nat) : Processor :=
  { load id (Program.parse (countingText count)) strategy with
      ip := count
      tape := ⟨[(count : Int) % 257]⟩ }

theorem op?_counted (id : Nat) (strategy : BracketStrategy) (count : Nat) :
    (counted id strategy count).op? = some .output := by
  show (Program.parse (countingText count)).get? count = some .output
  rw [parse_countingText, Program.get?, List.getElem?_append_right (by simp)]
  simp

/-- A processor that is loaded with a counting text comes to its `.` with the count in its cell. -/
theorem strides_counted (id : Nat) (strategy : BracketStrategy) (count : Nat)
    (channels : Channels κ σ) :
    Strides count (load id (Program.parse (countingText count)) strategy) channels
      (counted id strategy count) channels := by
  let p := load id (Program.parse (countingText count)) strategy
  have hdrop : p.program.ops.drop p.ip = List.replicate count .increment ++ [.output] := by
    show (Program.parse (countingText count)).ops.drop 0 = _
    rw [parse_countingText, List.drop_zero]
  have hrepeated : Tape.repeated Tape.increment p.dp count p.tape = .ok _ :=
    Tape.repeated_update cellUp count (show Tape.fresh.cells[0]? = some 0 from rfl)
  rw [iterate_cellUp (Tape.bounded_fresh 0 (List.mem_singleton.mpr rfl)), Int.zero_add]
    at hrepeated
  have hstrides := strides_of_repeated count hdrop hrepeated channels
  rwa [show p.ip + count = count from Nat.zero_add count] at hstrides

/-- At a count that leaves 256 the run faults before anything is put. -/
theorem drive_counting_of_overflow (id : Nat) (strategy : BracketStrategy) {count : Nat}
    (hcount : count % 257 = 256) (channels : Channels κ σ) {limit : Nat} (hlimit : count < limit) :
    (load id (Program.parse (countingText count)) strategy).drive limit channels =
      ⟨.error (.valueOutOfRange 256), counted id strategy count, channels⟩ := by
  obtain ⟨more, rfl⟩ := Nat.exists_eq_add_of_lt hlimit
  have hop := op?_counted id strategy count
  have hcell : (counted id strategy count).tape.cells[0]? = some 256 := by
    show some ((count : Int) % 257) = some 256
    rw [show (count : Int) % 257 = 256 by omega]
  have htick := (Obstacle.overflow hop hcell).tick_eq
    (consistent_load id (Program.parse (countingText count)) strategy) channels
  rw [Nat.add_assoc, drive_of_strides (strides_counted id strategy count channels),
    drive_of_tick_error (isFinished_of_op? hop) htick]
  rfl

/-- At every other count the run ends with the putting of what the count leaves, which is up to the
    sink. -/
theorem drive_counting_of_byte (id : Nat) (strategy : BracketStrategy) {count : Nat} {byte : UInt8}
    (hbyte : byte.toNat = count % 257) (channels : Channels κ σ) {limit : Nat}
    (hlimit : count < limit) :
    let run := (load id (Program.parse (countingText count)) strategy).drive limit channels
    let put := ByteSink.put channels.sink (toAscii byte)
    run.result = put.1.map (fun _ => some (count + 1)) ∧
      run.channels = { channels with sink := put.2 } := by
  intro run put
  obtain ⟨more, rfl⟩ := Nat.exists_eq_add_of_lt hlimit
  have hop := op?_counted id strategy count
  have hcell : (counted id strategy count).tape.cells[0]? = some (byte.toNat : Int) := by
    show some ((count : Int) % 257) = some (byte.toNat : Int)
    rw [hbyte, Int.natCast_emod]
    rfl
  have haction := action_of_output hop hcell
  have hrun : run = ((counted id strategy count).drive (more + 1) channels).after count := by
    show Processor.drive (count + more + 1) _ _ = _
    rw [Nat.add_assoc, drive_of_strides (strides_counted id strategy count channels)]
  rw [hrun]
  rcases hput : put with ⟨fault | done, sink⟩
  · have htick := tick_emit_error haction hput
    rw [drive_of_tick_error (isFinished_of_op? hop) htick]
    exact ⟨rfl, rfl⟩
  · have htick := tick_emit_ok haction hput
    have hfinished : (counted id strategy count).next.isFinished = true := by
      show (count + 1 == (Program.parse (countingText count)).length) = true
      rw [parse_countingText, Program.length, List.length_append, List.length_replicate]
      exact beq_self_eq_true _
    rw [drive_of_tick_ok (isFinished_of_op? hop) htick, drive_of_finished hfinished]
    exact ⟨rfl, rfl⟩

end Processor

variable {κ σ : Type} [ByteSink κ] [ByteSource σ]

/-- Let a cell of any tape hold a value `v` in 0..=256, and let it be updated `n` times. No update
    fails and no other cell is changed.
    - After `n` increments the cell holds `(v + n) mod 257`.
    - After `n` decrements it holds `v - n`, or `255 - (n - v - 1) mod 256` if `n` is greater than
      `v`.
    - If `n` is not greater than `v`, the increments undo the decrements.

    Let a fresh processor run on `n` times `+` and a `.`. If `n mod 257` is 256 it faults on that
    value, and nothing is put. Otherwise it puts one byte, `n mod 257` or a question mark for a
    value above 127, and it comes to its end if the sink takes the byte. So with a sink that never
    fails there is a fault on 256 in the first case only. -/
theorem repeated_updates_have_two_periods :
    (∀ (t : Tape) (index : Nat) (v : Int), t.cells[index]? = some v → 0 ≤ v → v ≤ 256 →
      ∀ n : Nat,
        Tape.repeated Tape.increment index n t = .ok ⟨t.cells.set index ((v + n) % 257)⟩ ∧
        Tape.repeated Tape.decrement index n t =
          .ok ⟨t.cells.set index (if n ≤ v then v - n else 255 - (n - v - 1) % 256)⟩ ∧
        (n ≤ v → ∃ t', Tape.repeated Tape.decrement index n t = .ok t' ∧
          Tape.repeated Tape.increment index n t' = .ok t)) ∧
    ∀ (n id : Nat) (strategy : BracketStrategy) (channels : Channels κ σ) (limit : Nat), n < limit →
      let run := (Processor.load id (Program.parse (countingText n)) strategy).drive limit channels
      let byte := if n % 257 ≤ 127 then UInt8.ofNat (n % 257) else questionMark
      let put := ByteSink.put channels.sink byte
      (n % 257 = 256 → run.result = .error (.valueOutOfRange 256) ∧ run.channels = channels) ∧
      (n % 257 ≠ 256 → run.result = put.1.map (fun _ => some (n + 1)) ∧
        run.channels = { channels with sink := put.2 }) ∧
      (Unfailing channels.sink →
        (run.result = .error (.valueOutOfRange 256) ↔ n % 257 = 256)) := by
  refine ⟨?_, ?_⟩
  · intro t index v hcell hnonneg hle n
    have hv : CellValue v := ⟨hnonneg, hle⟩
    have hdown := Tape.repeated_update cellDown n hcell
    refine ⟨?_, ?_, fun hn => ⟨_, hdown, ?_⟩⟩
    · rw [← iterate_cellUp hv]
      exact Tape.repeated_update cellUp n hcell
    · rw [← iterate_cellDown hv]
      exact hdown
    · obtain ⟨hindex, rfl⟩ := List.getElem?_eq_some_iff.mp hcell
      have hlowered := Tape.repeated_update cellUp n
        (t := ⟨t.cells.set index (cellDown^[n] t.cells[index])⟩) (List.getElem?_set_self hindex)
      rw [List.set_set, iterate_cellUp_iterate_cellDown hv hn, List.set_getElem_self] at hlowered
      exact hlowered
  · intro n id strategy channels limit hlimit run byte put
    by_cases hn : n % 257 = 256
    · have hrun : run = _ := Processor.drive_counting_of_overflow id strategy hn channels hlimit
      rw [hrun]
      exact ⟨fun _ => ⟨rfl, rfl⟩, fun h => absurd hn h, fun _ => iff_of_true rfl hn⟩
    · have hlt : n % 257 < 256 := by omega
      have hbyte : (UInt8.ofNat (n % 257)).toNat = n % 257 := by
        rw [UInt8.toNat_ofNat', Nat.mod_eq_of_lt hlt]
      have hrun := Processor.drive_counting_of_byte id strategy hbyte channels hlimit
      rw [toAscii_ofNat hlt] at hrun
      refine ⟨fun h => absurd h hn, fun _ => hrun, fun hsink => iff_of_false ?_ hn⟩
      obtain ⟨sink, hput, -⟩ := hsink.put byte
      have hresult : run.result = put.1.map (fun _ => some (n + 1)) := hrun.1
      rw [hresult, show put = (.ok (), sink) from hput]
      nofun

/-- A cell that holds 256 is brought to 254 by 258 decrements, and it does not come back: as many
    increments lead to 255. After 513 times `+` a cell holds 256, and after 385 times 128. -/
theorem repeated_updates_have_two_periods_past_zero :
    let t : Tape := ⟨[7, 256]⟩
    let channels := Channels.mk ByteBuffer.empty NullSource.mk
    t.cells[1]? = some 256 ∧ Unfailing channels.sink ∧
      Tape.repeated Tape.decrement 1 258 t = .ok ⟨[7, 254]⟩ ∧
      Tape.repeated Tape.increment 1 258 ⟨[7, 254]⟩ = .ok ⟨[7, 255]⟩ ∧
      (∃ t', Tape.repeated Tape.decrement 1 256 t = .ok t' ∧
        Tape.repeated Tape.increment 1 256 t' = .ok t) ∧
      ((Processor.load 0 (Program.parse (countingText 513)) .table).drive 514 channels).result =
        .error (.valueOutOfRange 256) ∧
      ((Processor.load 0 (Program.parse (countingText 385)) .table).drive 386 channels).result =
        .ok (some 386) ∧
      ((Processor.load 0 (Program.parse (countingText 385)) .table).drive 386 channels).channels =
        ⟨ByteBuffer.empty.push questionMark, NullSource.mk⟩ := by
  intro t channels
  obtain ⟨hcells, hruns⟩ := @repeated_updates_have_two_periods ByteBuffer NullSource _ _
  have hsink : Unfailing channels.sink := ByteBuffer.unfailing _
  have hcell : t.cells[1]? = some 256 := rfl
  obtain ⟨-, hdown, -⟩ := hcells t 1 256 hcell (by decide) (by decide) 258
  obtain ⟨hup, -, -⟩ := hcells ⟨[7, 254]⟩ 1 254 rfl (by decide) (by decide) 258
  obtain ⟨-, -, hback⟩ := hcells t 1 256 hcell (by decide) (by decide) 256
  obtain ⟨-, -, hfault⟩ := hruns 513 0 .table channels 514 (by decide)
  obtain ⟨-, hputs, -⟩ := hruns 385 0 .table channels 386 (by decide)
  obtain ⟨hresult, hchannels⟩ := hputs (by decide)
  exact ⟨hcell, hsink, hdown, hup, hback (by decide), (hfault hsink).mpr (by decide), hresult,
    hchannels⟩

end TapeRing
