import TapeRing.Channel.Sink
import TapeRing.Channel.Source
import TapeRing.Proofs.Channel.Recorded
import TapeRing.Proofs.Machine.Reachable
import TapeRing.Proofs.Machine.Returns
import TapeRing.Proofs.Machine.Sweep
import TapeRing.Proofs.Transcript

/-! # The two halt policies

A machine that stops on the first finished processor makes the same steps as one that waits for all,
until it stops (`Hasty.step_cases`). So it gets and puts a prefix of what the other one does, and
with a single processor there is nothing to wait for (`hasty_run_begins_patient_run`). -/

namespace TapeRing

/-- The summary without the processor on which the machine stopped. -/
def RunSummary.anonymous (summary : RunSummary) : RunSummary :=
  { summary with haltedOn := none }

namespace Machine

/-- The same machine, but it waits for all its processors. -/
def patient (m : Machine) : Machine :=
  { m with config := { m.config with halt := .allFinished } }

/-- The machine stops on the first finished processor, and its cursor is at a processor. -/
structure Hasty (m : Machine) : Prop where
  halt_eq : m.config.halt = .firstFinished
  cursor_lt : m.cursor < m.processors.length

theorem hasty_fresh {config : MachineConfig} (hpos : 0 < config.processors)
    (hhalt : config.halt = .firstFinished) (source : String) : (fresh config source).Hasty where
  halt_eq := hhalt
  cursor_lt := by rwa [length_processors_fresh]

/-! ## Steps -/

section Steps

variable {κ σ : Type} [ByteSink κ] [ByteSource σ] {m : Machine}

theorem Hasty.step (h : m.Hasty) (c : Channels κ σ) : (m.step c).state.Hasty where
  halt_eq := by rw [config_step, h.halt_eq]
  cursor_lt := by
    rw [length_processors_step]
    exact cursor_step_lt h.cursor_lt c

/-- The machine that waits passes over nobody while the other one does not stop. -/
theorem Hasty.turn_patient (h : m.Hasty) {index : Nat} {p : Processor}
    (hturn : m.turn = .tick index p) : m.patient.turn = .tick index p := by
  obtain ⟨hunfinished, passed, -, hindex, hfirst, -⟩ := turn_tick_cases h.cursor_lt hturn
  have hplace : index = m.cursor := by
    rw [hindex, hfirst h.halt_eq, Nat.add_zero, Nat.mod_eq_of_lt h.cursor_lt]
  have hp := getElem?_of_turn hturn
  rw [hplace] at hp ⊢
  exact turn_of_unfinished (m := m.patient) hp hunfinished

/-- The machine that stops on the first finished processor stops, or its step is the same as that of
    the one that waits. -/
theorem Hasty.step_cases (h : m.Hasty) (c : Channels κ σ) :
    (∃ on, m.turn = .halt on) ∨
      (m.step c).state.Hasty ∧
        ((∃ index m' c', m.step c = ⟨.ok (.ticked index), m', c'⟩ ∧
            m.patient.step c = ⟨.ok (.ticked index), m'.patient, c'⟩) ∨
          ∃ fault m' c', m.step c = ⟨.error fault, m', c'⟩ ∧
            m.patient.step c = ⟨.error fault, m'.patient, c'⟩) := by
  rcases Machine.step_cases m c with
    ⟨on, hturn, -⟩ | ⟨index, p, hturn, -, ⟨hresult, heq⟩ | ⟨fault, hresult, heq⟩⟩
  · exact Or.inl ⟨on, hturn⟩
  · refine Or.inr ⟨h.step c, Or.inl ⟨index, _, _, heq, ?_⟩⟩
    rw [step_of_tick (h.turn_patient hturn), hresult]
    rfl
  · refine Or.inr ⟨h.step c, Or.inr ⟨fault, _, _, heq, ?_⟩⟩
    rw [step_of_tick (h.turn_patient hturn), hresult]
    rfl

/-- Step by step the two machines come to the same until the one stops. -/
theorem transcript_patient : ∀ (calls : Nat) (m : Machine) (c : Channels κ σ), m.Hasty →
    (∀ on, .ok (.halted on) ∉ (transcript Machine.step calls m c).results) →
    let hasty := transcript Machine.step calls m c
    transcript Machine.step calls m.patient c =
      ⟨hasty.results, hasty.state.patient, hasty.channels⟩ := by
  intro calls
  induction calls with
  | zero => intro m c _ _; rfl
  | succ calls ih =>
    intro m c h hgoes
    simp only [transcript, List.mem_cons, not_or] at hgoes ⊢
    rcases h.step_cases c with
      ⟨on, hturn⟩ | ⟨h', ⟨index, m', c', heq, heq'⟩ | ⟨fault, m', c', heq, heq'⟩⟩
    · exact absurd (by rw [step_of_halt hturn]) (hgoes on).1
    · rw [heq] at h' hgoes
      rw [heq, heq', ih m' c' h' fun on => (hgoes on).2]
    · rw [heq] at h' hgoes
      rw [heq, heq', ih m' c' h' fun on => (hgoes on).2]

end Steps

/-! ## Runs -/

section Runs

variable {κ σ : Type} [ByteSink κ] [ByteSource σ] {m : Machine}

/-- The runs of the two machines come to the same as long as that of the one does not stop. -/
theorem run_patient : ∀ (limit : Nat) (m : Machine) (c : Channels κ σ), m.Hasty →
    (∀ summary, (m.run limit c).result ≠ .ok (some summary)) →
    m.patient.run limit c =
      ⟨(m.run limit c).result, (m.run limit c).state.patient, (m.run limit c).channels⟩ := by
  intro limit
  induction limit with
  | zero => intro m c _ _; rfl
  | succ limit ih =>
    intro m c h hgoes
    rcases h.step_cases c with
      ⟨on, hturn⟩ | ⟨h', ⟨index, m', c', heq, heq'⟩ | ⟨fault, m', c', heq, heq'⟩⟩
    · exact absurd (by rw [run_of_halt hturn]) (hgoes ⟨0, on⟩)
    · rw [heq] at h'
      rw [run_of_ticked heq] at hgoes
      rw [run_of_ticked heq, run_of_ticked heq', ih m' c' h' ?_]
      · rfl
      · intro summary hsummary
        refine hgoes (summary.after 1) ?_
        simp only [Outcome.map, hsummary]
        rfl
    · rw [run_of_error heq, run_of_error heq']

theorem Returns.patient_of_error (h : m.Hasty) {c c' : Channels κ σ} {m' : Machine} {fault : Fault}
    (hreturns : m.Returns c ⟨.error fault, m', c'⟩) :
    m.patient.Returns c ⟨.error fault, m'.patient, c'⟩ := by
  obtain ⟨limit, hrun⟩ := hreturns
  refine ⟨limit, ?_⟩
  rw [run_patient limit m c h (by rw [hrun]; exact fun _ => nofun), hrun]
  rfl

theorem not_returns_patient (h : m.Hasty) {c : Channels κ σ} (hnever : ∀ o, ¬ m.Returns c o)
    (o : Outcome RunSummary Machine κ σ) : ¬ m.patient.Returns c o := by
  rw [not_returns_iff] at hnever
  rintro ⟨limit, hrun⟩
  obtain ⟨m', c', hstrides⟩ := hnever limit
  have hgoes := hstrides.run_eq
  rw [run_patient limit m c h (by rw [hgoes]; exact fun _ => nofun), hgoes] at hrun
  exact Outcome.none_ne_map_some hrun

/-! ## What passes through the channels -/

theorem continues_run (limit : Nat) (m : Machine) (c : Channels (Recorded κ) (Recorded σ)) :
    c.Continues (m.run limit c).channels :=
  (Channels.stable_continues c).run limit m (.refl c)

/-- What has passed in a run of the machine that does not wait has passed, at that time or later, in
    a run of the one that waits. -/
theorem continues_run_patient : ∀ (limit more : Nat) (m : Machine)
    (c : Channels (Recorded κ) (Recorded σ)), m.Hasty →
    (m.run limit c).channels.Continues (m.patient.run (limit + more) c).channels := by
  intro limit
  induction limit with
  | zero => intro more m c _; exact continues_run _ _ c
  | succ limit ih =>
    intro more m c h
    rw [Nat.succ_add]
    rcases h.step_cases c with
      ⟨on, hturn⟩ | ⟨h', ⟨index, m', c', heq, heq'⟩ | ⟨fault, m', c', heq, heq'⟩⟩
    · rw [run_of_halt hturn]
      exact continues_run _ _ c
    · rw [heq] at h'
      rw [run_of_ticked heq, run_of_ticked heq']
      exact ih more m' c' h'
    · rw [run_of_error heq, run_of_error heq']
      exact .refl c'

/-! ## A single processor -/

/-- A single processor that is finished stops both machines. -/
theorem Hasty.halt_of_single (h : m.Hasty) (hsingle : m.processors.length = 1) {on : Option Nat}
    (hturn : m.turn = .halt on) : on = some 0 ∧ m.patient.turn = .halt none := by
  obtain ⟨rfl, p, hp, hfinished⟩ :=
    (turn_firstFinished_eq_halt_iff h.halt_eq h.cursor_lt on).mp hturn
  have hcursor := h.cursor_lt
  obtain hzero : m.cursor = 0 := by omega
  obtain ⟨q, hq⟩ := List.length_eq_one_iff.mp hsingle
  rw [hzero, hq] at hp
  obtain rfl : q = p := Option.some.inj hp
  refine ⟨by rw [hzero], (turn_allFinished_eq_halt_iff (m := m.patient) rfl none).mpr ⟨rfl, ?_⟩⟩
  intro r hr
  have hr' : r ∈ m.processors := hr
  rw [hq, List.mem_singleton] at hr'
  rw [hr', hfinished]

theorem run_patient_of_single : ∀ (limit : Nat) (m : Machine) (c : Channels κ σ), m.Hasty →
    m.processors.length = 1 →
    m.patient.run limit c =
        ⟨(m.run limit c).result.map (Option.map RunSummary.anonymous),
          (m.run limit c).state.patient, (m.run limit c).channels⟩ ∧
      ∀ summary, (m.run limit c).result = .ok (some summary) → summary.haltedOn = some 0 := by
  intro limit
  induction limit with
  | zero => intro m c _ _; exact ⟨rfl, nofun⟩
  | succ limit ih =>
    intro m c h hsingle
    have hlength := length_processors_step m c
    rcases h.step_cases c with
      ⟨on, hturn⟩ | ⟨h', ⟨index, m', c', heq, heq'⟩ | ⟨fault, m', c', heq, heq'⟩⟩
    · obtain ⟨rfl, hturn'⟩ := h.halt_of_single hsingle hturn
      rw [run_of_halt hturn, run_of_halt hturn']
      refine ⟨rfl, ?_⟩
      rintro summary ⟨⟩
      rfl
    · rw [heq] at h' hlength
      obtain ⟨hrun, hon⟩ := ih m' c' h' (hlength.trans hsingle)
      rw [run_of_ticked heq, run_of_ticked heq', hrun]
      generalize m'.run limit c' = later at hon ⊢
      obtain ⟨fault | _ | summary, state, channels⟩ := later
      · exact ⟨rfl, nofun⟩
      · exact ⟨rfl, nofun⟩
      · refine ⟨rfl, ?_⟩
        rintro _ ⟨⟩
        exact hon summary rfl
    · rw [run_of_error heq, run_of_error heq']
      exact ⟨rfl, nofun⟩

end Runs

section Policies

variable {κ σ : Type} [ByteSink κ] [ByteSource σ]

/-- Two machines that differ only in what they wait for can be assembled from every text. Let
    `hasty` be the one that stops on the first finished processor, and `patient` the one that waits
    for all.
    - In any number of steps, as long as `hasty` has not stopped, the two give the same result call
      by call, faults included, leave the same sink and source, and have the same cursor, ticks and
      processors.
    - If a run of `hasty` faults so does that of `patient`, in the same way, and if `hasty` runs for
      ever so does `patient`.
    - The bytes that have been put and got in a run of `hasty` are at any time a prefix of those of
      `patient` at that time or later, and so it is when both runs have ended.
    - If there is one processor the runs are the same, except that `hasty` stops on processor 0 and
      `patient` on none in particular. -/
theorem hasty_run_begins_patient_run (count : Nat) (hcount : 0 < count) (brackets : BracketStrategy)
    (source : String) :
    ∃ hasty patient : Machine,
      assemble { processors := count, halt := .firstFinished, brackets := brackets } source =
        .ok hasty ∧
      assemble { processors := count, halt := .allFinished, brackets := brackets } source =
        .ok patient ∧
      ∀ channels : Channels κ σ,
        (∀ calls : Nat,
          let first := transcript step calls hasty channels
          let all := transcript step calls patient channels
          (∀ on, .ok (.halted on) ∉ first.results) →
            all.results = first.results ∧ all.channels = first.channels ∧
              all.state = first.state.patient) ∧
        ((∀ fault m c, hasty.Returns channels ⟨.error fault, m, c⟩ →
            patient.Returns channels ⟨.error fault, m.patient, c⟩) ∧
          ((∀ o, ¬ hasty.Returns channels o) → ∀ o, ¬ patient.Returns channels o)) ∧
        ((∀ limit more : Nat,
            (hasty.run limit channels.recorded).channels.Continues
              (patient.run (limit + more) channels.recorded).channels) ∧
          ∀ o o', hasty.Returns channels.recorded o → patient.Returns channels.recorded o' →
            o.channels.Continues o'.channels) ∧
        (count = 1 → ∀ limit : Nat,
          let alone := hasty.run limit channels
          patient.run limit channels =
            ⟨alone.result.map (Option.map RunSummary.anonymous), alone.state.patient,
              alone.channels⟩ ∧
          ∀ summary, alone.result = .ok (some summary) → summary.haltedOn = some 0) := by
  let config : MachineConfig :=
    { processors := count, halt := .firstFinished, brackets := brackets }
  have hhasty : (fresh config source).Hasty := hasty_fresh hcount rfl source
  refine ⟨fresh config source, (fresh config source).patient, assemble_of_pos hcount source,
    assemble_of_pos hcount source, fun channels => ⟨?_, ⟨?_, ?_⟩, ⟨?_, ?_⟩, ?_⟩⟩
  · intro calls first all hgoes
    have hall : all = _ := transcript_patient calls (fresh config source) channels hhasty hgoes
    rw [hall]
    exact ⟨rfl, rfl, rfl⟩
  · intro fault m c hreturns
    exact hreturns.patient_of_error hhasty
  · exact not_returns_patient hhasty
  · intro limit more
    exact continues_run_patient limit more (fresh config source) channels.recorded hhasty
  · rintro o o' ⟨limit, hrun⟩ hreturns
    obtain ⟨limit', hrun'⟩ := hreturns.eventually
    have hcontinues :=
      continues_run_patient limit limit' (fresh config source) channels.recorded hhasty
    rw [hrun, Nat.add_comm, hrun' limit] at hcontinues
    exact hcontinues
  · rintro rfl limit
    exact run_patient_of_single limit (fresh config source) channels hhasty
      (length_processors_fresh config source)

end Policies

/-- The first processor is finished after five ticks, when the second one is still in its loop and
    has one of two bytes to put. -/
theorem hasty_run_begins_patient_run_on_loop :
    0 < 2 ∧ ∃ hasty patient : Machine, ∃ o o',
      assemble { processors := 2, halt := .firstFinished } ",,.[+.+-+]" = .ok hasty ∧
      assemble { processors := 2, halt := .allFinished } ",,.[+.+-+]" = .ok patient ∧
      let channels := (Channels.mk ByteBuffer.empty (SliceSource.mk [65, 2, 3])).recorded
      hasty.Returns channels o ∧ o.result = .ok ⟨10, some 0⟩ ∧
      patient.Returns channels o' ∧ o'.result = .ok ⟨15, none⟩ ∧
      o.channels.sink.bytes = [65, 2] ∧ o'.channels.sink.bytes = [65, 2, 1] ∧
      o.channels.Continues o'.channels := by
  obtain ⟨hasty, patient, hhasty, hpatient, hprefix⟩ :=
    @hasty_run_begins_patient_run ByteBuffer SliceSource _ _ 2 (by decide) .scan ",,.[+.+-+]"
  obtain ⟨-, rfl⟩ := assemble_eq_ok_iff.mp hhasty
  obtain ⟨-, rfl⟩ := assemble_eq_ok_iff.mp hpatient
  obtain ⟨-, -, ⟨-, hcontinues⟩, -⟩ := hprefix ⟨ByteBuffer.empty, SliceSource.mk [65, 2, 3]⟩
  exact ⟨by decide, _, _, ⟨.ok ⟨10, some 0⟩, _, _⟩, ⟨.ok ⟨15, none⟩, _, _⟩, hhasty, hpatient,
    ⟨11, rfl⟩, rfl, ⟨16, rfl⟩, rfl, rfl, rfl, hcontinues _ _ ⟨11, rfl⟩ ⟨16, rfl⟩⟩

end Machine

end TapeRing
