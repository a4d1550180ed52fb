import TapeRing.Channel.Sink
import TapeRing.Channel.Source
import TapeRing.Proofs.Loops.Simulation

/-! # The meaning of structured programs

A processor on the program of a block computes what `exec` computes: it finishes iff the execution
finishes, and faults iff it faults, with the same memory and channels (`drive_flatten_iff_exec`).
Execution knows no brackets, so an unmatched bracket can only be reported by a channel. -/

namespace TapeRing

variable {κ σ : Type} [ByteSink κ] [ByteSource σ]

/-! ## Faults of an execution -/

/-- A fault with which a sink of one type or a source of another can fail. -/
def ChannelFault (κ σ : Type) [ByteSink κ] [ByteSource σ] (fault : Fault) : Prop :=
  (∃ (sink : κ) (byte : UInt8), (ByteSink.put sink byte).1 = .error fault) ∨
    ∃ source : σ, (ByteSource.get source).1 = .error fault

def Fault.isUnmatched : Fault → Bool
  | .unmatchedBracket _ _ _ => true
  | _ => false

namespace Tape

variable {t : Tape} {index : Nat} {fault : Fault}

theorem isUnmatched_of_read (h : t.read index = .error fault) : fault.isUnmatched = false := by
  unfold read at h
  split at h <;> cases h
  rfl

theorem isUnmatched_of_update {f : Int → Int} (h : t.update f index = .error fault) :
    fault.isUnmatched = false := by
  unfold update at h
  split at h <;> cases h
  rfl

theorem isUnmatched_of_write {value : Int} (h : t.write index value = .error fault) :
    fault.isUnmatched = false := by
  unfold write at h
  split at h
  · cases h; rfl
  · split at h <;> cases h
    rfl

end Tape

theorem isUnmatched_of_byteOfCell {value : Int} {fault : Fault}
    (h : byteOfCell value = .error fault) : fault.isUnmatched = false := by
  unfold byteOfCell at h
  split at h <;> cases h
  rfl

theorem Basic.channelFault_of_exec_error {op : Basic} {m : Memory} {channels : Channels κ σ}
    {fault : Fault} (h : (op.exec m channels).result = .error fault)
    (hfault : fault.isUnmatched = true) : ChannelFault κ σ fault := by
  have habsurd : fault.isUnmatched = false → ChannelFault κ σ fault := by
    intro hnot
    rw [hnot] at hfault
    cases hfault
  unfold Basic.exec at h
  cases op with
  | increment => exact habsurd (Tape.isUnmatched_of_update (Memory.result_changed_error h))
  | decrement => exact habsurd (Tape.isUnmatched_of_update (Memory.result_changed_error h))
  | left => by_cases hdp : m.dp = 0 <;> simp [hdp] at h
  | right => by_cases hdp : m.dp + 1 = m.tape.size <;> simp [hdp] at h
  | output =>
    simp only at h
    split at h
    · rename_i hread
      cases h
      exact habsurd (Tape.isUnmatched_of_read hread)
    · split at h
      · rename_i hbyte
        cases h
        exact habsurd (isUnmatched_of_byteOfCell hbyte)
      · exact Or.inl ⟨channels.sink, _, h⟩
  | input =>
    simp only at h
    split at h
    · rename_i hget
      cases h
      exact Or.inr ⟨channels.source, by rw [hget]⟩
    · exact habsurd (Tape.isUnmatched_of_write (Memory.result_changed_error h))

theorem channelFault_of_whileNonzero_error
    {body : Memory → Channels κ σ → Outcome (Option Tally) Memory κ σ} {fault : Fault}
    (hfault : fault.isUnmatched = true)
    (hbody : ∀ m channels, (body m channels).result = .error fault → ChannelFault κ σ fault) :
    ∀ (fuel rounds : Nat) (m : Memory) (channels : Channels κ σ),
      (whileNonzero body fuel rounds m channels).result = .error fault →
        ChannelFault κ σ fault := by
  intro fuel
  induction fuel with
  | zero =>
    intro rounds m channels h
    unfold whileNonzero at h
    split at h
    · rename_i hread
      cases h
      rw [Tape.isUnmatched_of_read hread] at hfault
      cases hfault
    · cases h
  | succ fuel ih =>
    intro rounds m channels h
    unfold whileNonzero at h
    split at h
    · rename_i hread
      cases h
      rw [Tape.isUnmatched_of_read hread] at hfault
      cases hfault
    · split at h
      · cases h
      · rcases Outcome.result_andThen_error h with hfirst | ⟨m', channels', hlater⟩
        · exact hbody m channels hfirst
        · exact ih (rounds + 1) m' channels' hlater

theorem Block.channelFault_of_exec_error {fuel : Nat} {fault : Fault}
    (hfault : fault.isUnmatched = true) (b : Block) :
    ∀ (m : Memory) (channels : Channels κ σ),
      (b.exec fuel m channels).result = .error fault → ChannelFault κ σ fault := by
  induction b with
  | done => intro m channels h; cases h
  | basic op rest ih =>
    intro m channels h
    rcases Outcome.result_andThen_error h with hfirst | ⟨m', channels', hlater⟩
    · cases hexec : (op.exec m channels).result with
      | ok done => simp [Basic.counted, hexec, Except.map] at hfirst
      | error other =>
        simp only [Basic.counted, hexec, Except.map, Except.error.injEq] at hfirst
        subst hfirst
        exact Basic.channelFault_of_exec_error hexec hfault
    · exact ih m' channels' hlater
  | loop body rest ihbody ihrest =>
    intro m channels h
    rcases Outcome.result_andThen_error h with hfirst | ⟨m', channels', hlater⟩
    · exact channelFault_of_whileNonzero_error hfault ihbody fuel 0 m channels hfirst
    · exact ihrest m' channels' hlater

/-! ## Runs and executions -/

open Processor

section Runs

variable {b : Block} {fuel : Nat} {m : Memory} {channels channels' : Channels κ σ}

theorem follows_exec_load (b : Block) (id fuel : Nat) (strategy : BracketStrategy)
    (channels : Channels κ σ) :
    Follows (load id ⟨b.flatten⟩ strategy) 0 b.flatten.length Memory.fresh channels fuel 0
      (b.exec fuel Memory.fresh channels) := by
  have h := follows_exec (consistent_load id ⟨b.flatten⟩ strategy) fuel b 0 [] Memory.fresh channels
    (by rw [List.append_nil]; rfl)
  rwa [Nat.zero_add] at h

theorem drive_of_exec_finished (id : Nat) (strategy : BracketStrategy) {tally : Tally}
    (h : b.exec fuel Memory.fresh channels = ⟨.ok (some tally), m, channels'⟩) :
    (load id ⟨b.flatten⟩ strategy).drive tally.ticks channels =
      ⟨.ok (some tally.ticks), (load id ⟨b.flatten⟩ strategy).place b.flatten.length m,
        channels'⟩ := by
  have hfollows := follows_exec_load b id fuel strategy channels
  rw [h] at hfollows
  cases hfollows with
  | @finished count _ _ _ hticks hstrides =>
    have hfinished : ((load id ⟨b.flatten⟩ strategy).place b.flatten.length m).isFinished = true :=
      beq_self_eq_true _
    have hdrive := drive_of_strides hstrides 0
    rw [drive_of_finished hfinished] at hdrive
    rw [hticks]
    exact hdrive

theorem drive_of_exec_faulted (id : Nat) (strategy : BracketStrategy) {fault : Fault}
    (h : b.exec fuel Memory.fresh channels = ⟨.error fault, m, channels'⟩) :
    ∃ limit ip, (load id ⟨b.flatten⟩ strategy).drive limit channels =
      ⟨.error fault, (load id ⟨b.flatten⟩ strategy).place ip m, channels'⟩ := by
  have hfollows := follows_exec_load b id fuel strategy channels
  rw [h] at hfollows
  cases hfollows with
  | @faulted count ip _ _ _ _ hstrides hfinished htick =>
    have hdrive := drive_of_strides hstrides 1
    rw [drive_of_tick_error hfinished htick] at hdrive
    exact ⟨count + 1, ip, hdrive⟩

theorem drive_of_exec_exhausted (id : Nat) (strategy : BracketStrategy) {limit : Nat}
    (h : (b.exec fuel Memory.fresh channels).result = .ok none) (hlimit : limit < fuel) :
    ((load id ⟨b.flatten⟩ strategy).drive limit channels).result = .ok none := by
  have hfollows := follows_exec_load b id fuel strategy channels
  cases hexec : b.exec fuel Memory.fresh channels with
  | mk result m channels' =>
    rw [hexec] at h hfollows
    obtain rfl : result = .ok none := h
    cases hfollows with
    | exhausted hfuel hstrides =>
      exact drive_of_strides_of_lt hstrides limit (Nat.lt_of_lt_of_le hlimit hfuel)

/-- An execution with more fuel than a run took ticks ends as the run ended. -/
theorem exec_of_drive (id : Nat) (strategy : BracketStrategy) {limit : Nat}
    {result : Except Fault (Option Nat)} {q : Processor}
    (hdrive : (load id ⟨b.flatten⟩ strategy).drive limit channels = ⟨result, q, channels'⟩)
    (hresult : result ≠ .ok none) :
    (∃ tally, result = .ok (some tally.ticks) ∧
        b.exec (limit + 1) Memory.fresh channels = ⟨.ok (some tally), q.memory, channels'⟩) ∨
      ∃ fault, result = .error fault ∧
        b.exec (limit + 1) Memory.fresh channels = ⟨.error fault, q.memory, channels'⟩ := by
  have hlimit : ((load id ⟨b.flatten⟩ strategy).drive limit channels).result ≠ .ok none := by
    rw [hdrive]
    exact hresult
  cases hexec : b.exec (limit + 1) Memory.fresh channels with
  | mk executed m channels'' =>
    cases executed with
    | error fault =>
      obtain ⟨limit', ip, hfault⟩ := drive_of_exec_faulted id strategy hexec
      have hsame := drive_eq_of_ended hlimit (by rw [hfault]; simp)
      rw [hdrive, hfault] at hsame
      cases hsame
      exact Or.inr ⟨fault, rfl, rfl⟩
    | ok tally =>
      cases tally with
      | none =>
        have hnone := drive_of_exec_exhausted id strategy (by rw [hexec]) (Nat.lt_succ_self limit)
        exact absurd hnone hlimit
      | some tally =>
        have hfinish := drive_of_exec_finished id strategy hexec
        have hsame := drive_eq_of_ended hlimit (by rw [hfinish]; simp)
        rw [hdrive, hfinish] at hsame
        cases hsame
        exact Or.inl ⟨tally, rfl, rfl⟩

end Runs

/-- A processor on the program of a block, in either way of finding brackets, with any sink and
    source:
    - it finishes iff the execution of the block finishes, with the same memory and channels and
      after as many ticks as the tally of the execution says;
    - it faults iff the execution faults, with the same fault, memory and channels;
    - it reports an unmatched bracket only if the sink or the source does so. -/
theorem drive_flatten_iff_exec (b : Block) (id : Nat) (strategy : BracketStrategy)
    (channels : Channels κ σ) :
    let p := load id ⟨b.flatten⟩ strategy
    (∀ ticks m channels',
      (∃ limit q, p.drive limit channels = ⟨.ok (some ticks), q, channels'⟩ ∧ q.memory = m) ↔
        ∃ fuel tally, b.exec fuel Memory.fresh channels = ⟨.ok (some tally), m, channels'⟩ ∧
          tally.ticks = ticks) ∧
    (∀ fault m channels',
      (∃ limit q, p.drive limit channels = ⟨.error fault, q, channels'⟩ ∧ q.memory = m) ↔
        ∃ fuel, b.exec fuel Memory.fresh channels = ⟨.error fault, m, channels'⟩) ∧
    (∀ limit fault, (p.drive limit channels).result = .error fault → fault.isUnmatched = true →
      ChannelFault κ σ fault) := by
  intro p
  refine ⟨?_, ?_, ?_⟩
  · intro ticks m channels'
    constructor
    · rintro ⟨limit, q, hdrive, rfl⟩
      rcases exec_of_drive id strategy hdrive (by simp) with
        ⟨tally, hresult, hexec⟩ | ⟨fault, hresult, -⟩
      · cases hresult
        exact ⟨limit + 1, tally, hexec, rfl⟩
      · cases hresult
    · rintro ⟨fuel, tally, hexec, rfl⟩
      exact ⟨tally.ticks, _, drive_of_exec_finished id strategy hexec, rfl⟩
  · intro fault m channels'
    constructor
    · rintro ⟨limit, q, hdrive, rfl⟩
      rcases exec_of_drive id strategy hdrive (by simp) with
        ⟨tally, hresult, -⟩ | ⟨fault', hresult, hexec⟩
      · cases hresult
      · cases hresult
        exact ⟨limit + 1, hexec⟩
    · rintro ⟨fuel, hexec⟩
      obtain ⟨limit, ip, hdrive⟩ := drive_of_exec_faulted id strategy hexec
      exact ⟨limit, _, hdrive, rfl⟩
  · intro limit fault hresult hunmatched
    have hended : (p.drive limit channels).result ≠ .ok none := by
      rw [hresult]
      simp
    rcases exec_of_drive id strategy rfl hended with
      ⟨tally, hok, -⟩ | ⟨fault', herror, hexec⟩
    · rw [hresult] at hok
      cases hok
    · rw [hresult] at herror
      cases herror
      exact Block.channelFault_of_exec_error hunmatched b Memory.fresh channels (by rw [hexec])

/-- `++[.-]` emits 2 and 1 and finishes after eleven ticks: six basic instructions and one loop that
    runs twice. -/
theorem drive_flatten_iff_exec_countdown :
    let countdown : Block :=
      .basic .increment (.basic .increment
        (.loop (.basic .output (.basic .decrement .done)) .done))
    ∃ limit q, (load 0 ⟨countdown.flatten⟩ .table).drive limit
        (Channels.mk ByteBuffer.empty (SliceSource.mk [])) =
      ⟨.ok (some 11), q, Channels.mk ⟨#[2, 1]⟩ (SliceSource.mk [])⟩ ∧ q.memory = ⟨0, ⟨[0]⟩⟩ := by
  intro countdown
  have hagree := drive_flatten_iff_exec countdown 0 .table
    (Channels.mk ByteBuffer.empty (SliceSource.mk []))
  exact (hagree.1 11 ⟨0, ⟨[0]⟩⟩ _).mpr ⟨2, ⟨6, [2]⟩, rfl, rfl⟩

end TapeRing
