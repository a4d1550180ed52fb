import TapeRing.Channel.Sink
import TapeRing.Channel.Source
import TapeRing.Proofs.InPlace.Machine
import TapeRing.Proofs.Machine.Cursor
import TapeRing.Proofs.Machine.Reachable

/-! # Steps that fault can be made again

A step that faults leaves the machine as it was, apart from the cursor, which has been moved to the
processor that faulted. No later step or run can tell the difference
(`faulted_step_can_be_made_again`). -/

namespace TapeRing.Machine

/-- Let a machine that is reached from an assembled one make a step that faults.
    - Made in place, with nothing taken back, the step comes to the same.
    - The configuration, the ticks and all processors are as before.
    - The cursor is at the processor that faulted. That is the first one from the old cursor on that
      is not finished, and if the machine stops on the first finished processor, the cursor has not
      been moved at all.
    - With any sink and source, every step and every run of the machine that is left behind comes to
      the same result, the same channels and the same machine as if it were made by the machine
      before. -/
theorem faulted_step_can_be_made_again {κ σ : Type} [ByteSink κ] [ByteSource σ]
    {config : MachineConfig} {source : String} {start m : Machine}
    (hstart : assemble config source = .ok start) (hm : Reaches start m) {channels : Channels κ σ}
    {fault : Fault} (hfault : (m.step channels).result = .error fault) :
    let left := (m.step channels).state
    stepInPlace.on (m, channels) = (.error fault, left, (m.step channels).channels) ∧
    (left.config = m.config ∧ left.ticks = m.ticks ∧ left.processors = m.processors) ∧
    (∃ passed < config.processors, ∃ p,
      left.cursor = (m.cursor + passed) % config.processors ∧
      m.processors[left.cursor]? = some p ∧ p.isFinished = false ∧
      (p.tick channels).result = .error fault ∧
      ∀ earlier < passed, ∃ q,
        m.processors[(m.cursor + earlier) % config.processors]? = some q ∧ q.isFinished = true) ∧
    (config.halt = .firstFinished → left.cursor = m.cursor) ∧
    ∀ (κ' σ' : Type) [ByteSink κ'] [ByteSource σ'] (again : Channels κ' σ'),
      left.step again = m.step again ∧
      (∀ limit, left.run (limit + 1) again = m.run (limit + 1) again) ∧
      ∀ o, left.Returns again o ↔ m.Returns again o := by
  intro left
  have hsound := hm.sound hstart
  have hlength := hsound.length_processors
  have hcursor : m.cursor < m.processors.length := hlength ▸ hsound.cursor_lt
  obtain ⟨index, p, hturn, htick, hleft⟩ := cursor_of_step_error hfault
  obtain ⟨hunfinished, passed, hlt, hindex, hfirst, hpassed⟩ := turn_tick_cases hcursor hturn
  have hplace : left.cursor = (m.cursor + passed) % m.processors.length := by
    rw [← hindex]
    exact congrArg cursor hleft
  have hleft' : left = { m with cursor := index } := hleft
  refine ⟨?_, ?_, ⟨passed, hlength ▸ hlt, p, ?_⟩, ?_, ?_⟩
  · rw [on_stepInPlace hcursor, hfault]
  · rw [hleft']
    exact ⟨rfl, rfl, rfl⟩
  · rw [← hlength]
    refine ⟨hplace, ?_, hunfinished, htick, hpassed⟩
    rw [hplace, ← hindex]
    exact getElem?_of_turn hturn
  · intro hhalt
    rw [hplace, hfirst (by rw [hsound.config_eq, hhalt]), Nat.add_zero, Nat.mod_eq_of_lt hcursor]
  · intro κ' σ' _ _ again
    rw [hleft']
    exact ⟨step_at_turn hturn again, fun limit => run_at_turn hturn limit again,
      fun o => returns_at_turn hturn again o⟩

/-- The first processor is finished and the second asks for a second byte. So the step passes over
    the first one and then faults, and the cursor stays behind at the second one. -/
theorem faulted_step_can_be_made_again_on_echo :
    ∃ start m : Machine,
      assemble { processors := 2, halt := .allFinished } "[,+.],+." = .ok start ∧
      Reaches start m ∧
      let fail := m.step (Channels.mk ByteBuffer.empty (SliceSource.mk []))
      let again : Channels ByteBuffer SliceSource := ⟨ByteBuffer.empty, SliceSource.mk [98]⟩
      fail.result = .error .inputExhausted ∧ m.cursor = 0 ∧ fail.state.cursor = 1 ∧
      fail.state.processors = m.processors ∧
      fail.state.step again = m.step again ∧ (m.step again).result = .ok (.ticked 1) := by
  obtain ⟨start, m, hstart, hm, hfault, hcursor, hmoved, hticked⟩ : ∃ start m : Machine,
      assemble { processors := 2, halt := .allFinished } "[,+.],+." = .ok start ∧
      Reaches start m ∧
      (m.step (Channels.mk ByteBuffer.empty (SliceSource.mk []))).result =
        .error .inputExhausted ∧
      m.cursor = 0 ∧
      (m.step (Channels.mk ByteBuffer.empty (SliceSource.mk []))).state.cursor = 1 ∧
      (m.step (Channels.mk ByteBuffer.empty (SliceSource.mk [98]))).result = .ok (.ticked 1) :=
    ⟨_, _, assemble_of_pos (by decide) _,
      .ran 4 (Channels.mk ByteBuffer.empty (SliceSource.mk [97])) .start, rfl, rfl, rfl, rfl⟩
  obtain ⟨-, ⟨-, -, hprocessors⟩, -, -, hagain⟩ := faulted_step_can_be_made_again hstart hm hfault
  obtain ⟨hstep, -⟩ := hagain _ _ (Channels.mk ByteBuffer.empty (SliceSource.mk [98]))
  exact ⟨start, m, hstart, hm, hfault, hcursor, hmoved, hprocessors, hstep, hticked⟩

end TapeRing.Machine
