import TapeRing.CommandLine.Run
import TapeRing.Proofs.Capacity
import TapeRing.Proofs.CommandLine.Files
import TapeRing.Proofs.Json.RoundTrip
import TapeRing.Proofs.Retries

/-! # What a run from the command line reports

A run from the command line either fails before its machine is assembled, and then it has no other
effect (`runWith_of_early`), or it reports what the run of its machine comes to
(`run_reports_machine_run`): the bytes that it put, a dump of the machine that it left behind, and
of the failures of the run and of the dump the one that counts. The dump can be read back
(`holdsSnapshot_dumpText`). Nothing is assumed of the file system. -/

namespace TapeRing.CommandLine

open Machine ReadEvent

variable {φ : Type} [FileSystem φ] {env : Environment φ} {a : Arguments} {source : String}

/-! ## Failures -/

namespace Failure

theorem text_of_cause (context cause : String) :
    text ⟨context, [cause]⟩ = "Error: " ++ context ++ "\n\nCaused by:\n    " ++ cause ++ "\n" := by
  -- The literals are kept apart from the regrouping, which would otherwise take them to pieces.
  have hbreak : "\n" ++ "\nCaused by:\n    " = "\n\nCaused by:\n    " := by decide
  have hgroup (a b c d : String) : a ++ b ++ "\n" ++ (c ++ d ++ "\n") =
      a ++ b ++ ("\n" ++ c) ++ d ++ "\n" := by
    generalize "\n" = newline
    simp only [String.append_assoc]
  rw [← hbreak]
  exact hgroup "Error: " context "\nCaused by:\n    " cause

/-- The text of a failure to do something with the file at a path. -/
theorem text_of_path {context head : String} (hhead : "Error: " ++ context = head) (path : String)
    (fault : FileFault) :
    text ⟨context ++ path, [fault.message]⟩ =
      head ++ path ++ "\n\nCaused by:\n    " ++ fault.message ++ "\n" := by
  rw [text_of_cause, ← String.append_assoc, hhead]

theorem text_unreadable (path : String) (fault : FileFault) :
    (unreadable path fault).text =
      "Error: failed to read program " ++ path ++ "\n\nCaused by:\n    " ++ fault.message ++ "\n" :=
  text_of_path (by decide) path fault

theorem text_notDumped (path : String) (fault : FileFault) :
    (notDumped path fault).text =
      "Error: failed to write state dump " ++ path ++ "\n\nCaused by:\n    " ++ fault.message ++
        "\n" :=
  text_of_path (by decide) path fault

/-- A fault of the machine itself is its own and only cause. -/
theorem causesOf_of_ne {fault : Fault} (h : ∀ text, fault ≠ .channel text) :
    causesOf fault = [fault.message] := by
  cases fault with
  | channel text => exact absurd rfl (h text)
  | _ => rfl

theorem text_aborted {fault : Fault} (h : ∀ text, fault ≠ .channel text) :
    (aborted fault).text = "Error: run aborted\n\nCaused by:\n    " ++ fault.message ++ "\n" := by
  have hcontext : "Error: " ++ "run aborted" ++ "\n\nCaused by:\n    " =
      "Error: run aborted\n\nCaused by:\n    " := by decide
  rw [aborted, causesOf_of_ne h, text_of_cause, hcontext]

end Failure

/-! ## Before the run -/

/-- The text of the program is given, or it can be read. -/
inductive Names (a : Arguments) (files : φ) : String → Prop
  | eval {source : String} : a.eval = some source → Names a files source
  | file {path source : String} : a.eval = none → a.program = some path →
      FileSystem.readText files path = .ok source → Names a files source

/-- What a run says that fails before its machine is assembled. -/
inductive Early (a : Arguments) (files : φ) : String → Prop
  | noProgram : a.eval = none → a.program = none →
      Early a files "Error: no program given (pass a path or --eval)\n"
  | unreadable {path : String} {fault : FileFault} : a.eval = none → a.program = some path →
      FileSystem.readText files path = .error fault →
      Early a files ("Error: failed to read program " ++ path ++ "\n\nCaused by:\n    " ++
        fault.message ++ "\n")
  | noProcessors {source : String} : Names a files source → a.processors = 0 →
      Early a files ("Error: failed to load program\n\nCaused by:\n    " ++
        "invalid configuration: processor count must be at least 1\n")

theorem sourceOf_of_names {files : φ} (h : Names a files source) :
    sourceOf (FileSystem.readText files) a = .ok source := by
  cases h with
  | eval heval => rw [sourceOf, heval]
  | file heval hprogram hread => simp only [sourceOf, heval, hprogram, hread]

theorem machineOf_of_pos (h : 0 < a.processors) (source : String) :
    machineOf a source = .ok (fresh a.config source) := by
  have hassemble : assemble a.config source = .ok (fresh a.config source) :=
    assemble_of_pos h source
  rw [machineOf, hassemble]

/-- A run that fails before its machine is assembled does nothing but report that. -/
theorem runWith_of_early {text : String} (h : Early a env.files text) (limit : Nat) :
    runWith limit env a = some ⟨1, [], text, env.files⟩ := by
  cases h with
  | noProgram heval hprogram =>
    simp only [runWith, sourceOf, heval, hprogram]
    rfl
  | unreadable heval hprogram hread =>
    simp only [runWith, sourceOf, heval, hprogram, hread, Report.ofFailure,
      Failure.text_unreadable]
  | noProcessors hnames hzero =>
    have hassemble (source : String) : assemble a.config source = .error .noProcessors :=
      assemble_of_eq_zero hzero source
    simp only [runWith, sourceOf_of_names hnames, machineOf, hassemble]
    rfl

/-- A run fails early, or its machine can be assembled. -/
theorem early_or_names (a : Arguments) (files : φ) :
    (∃ text, Early a files text) ∨ ∃ source, Names a files source ∧ 0 < a.processors := by
  have hprocessors {source : String} (h : Names a files source) :
      (∃ text, Early a files text) ∨ ∃ source, Names a files source ∧ 0 < a.processors := by
    by_cases hzero : a.processors = 0
    · exact Or.inl ⟨_, .noProcessors h hzero⟩
    · exact Or.inr ⟨source, h, Nat.pos_of_ne_zero hzero⟩
  cases heval : a.eval with
  | some source => exact hprocessors (.eval heval)
  | none =>
    cases hprogram : a.program with
    | none => exact Or.inl ⟨_, .noProgram heval hprogram⟩
    | some path =>
      cases hread : FileSystem.readText files path with
      | error fault => exact Or.inl ⟨_, .unreadable heval hprogram hread⟩
      | ok source => exact hprocessors (.file heval hprogram hread)

/-- A run whose machine returns reports what the machine has come to. -/
theorem runWith_of_returned (hnames : Names a env.files source) (hpos : 0 < a.processors)
    {limit : Nat} {o : Outcome RunSummary Machine ByteBuffer SliceSource}
    (hrun : (fresh a.config source).run limit env.channels = o.map some) :
    runWith limit env a = some (.ofRun limit env a (fresh a.config source) o.state
      o.channels.sink.toList o.result) := by
  simp only [runWith, sourceOf_of_names hnames, machineOf_of_pos hpos, hrun]
  rcases o with ⟨fault | summary, last, channels⟩ <;> rfl

/-- A run whose machine has not come to an end reports nothing. -/
theorem runWith_of_unended (hnames : Names a env.files source) (hpos : 0 < a.processors)
    {limit : Nat}
    (hnone : ((fresh a.config source).run limit env.channels).result = .ok none) :
    runWith limit env a = none := by
  simp only [runWith, sourceOf_of_names hnames, machineOf_of_pos hpos]
  generalize (fresh a.config source).run limit env.channels = o at hnone ⊢
  obtain ⟨result, last, channels⟩ := o
  cases hnone
  rfl

/-- A run with a machine ends when the run of the machine does, and reports that. -/
theorem runWith_eq_some_iff (hnames : Names a env.files source) (hpos : 0 < a.processors)
    {limit : Nat} {report : Report φ} :
    runWith limit env a = some report ↔
      ∃ o : Outcome RunSummary Machine ByteBuffer SliceSource,
        (fresh a.config source).run limit env.channels = o.map some ∧
        report = .ofRun limit env a (fresh a.config source) o.state o.channels.sink.toList
          o.result := by
  constructor
  · intro hreport
    rcases returned_or_none (fresh a.config source) env.channels limit with ⟨o, hrun⟩ | hnone
    · rw [runWith_of_returned hnames hpos hrun] at hreport
      exact ⟨o, hrun, (Option.some.inj hreport).symm⟩
    · rw [runWith_of_unended hnames hpos hnone] at hreport
      cases hreport
  · rintro ⟨o, hrun, rfl⟩
    exact runWith_of_returned hnames hpos hrun

/-! ## After the run -/

/-- A text holds the JSON of a snapshot, which is decoded from it if its numbers fit. -/
structure HoldsSnapshot (text : String) (snapshot : MachineSnapshot) : Prop where
  parse_eq : Json.parse text = some snapshot.toJson
  decode_eq : snapshot.Fits → (Json.parse text).map MachineSnapshot.decode = some (.ok snapshot)

theorem holdsSnapshot_dumpText (m : Machine) : HoldsSnapshot (dumpText m) m.snapshot := by
  have hparse : Json.parse (dumpText m) = some m.snapshot.toJson := Json.parse_textIn _ _
  refine ⟨hparse, ?_⟩
  intro hfits
  rw [hparse, Option.map_some, MachineSnapshot.decode_toJson hfits]

/-- No dump of a machine is asked for, or it is written. At a path that keeps what is written to it
    the dump can be read. -/
inductive Dumps (a : Arguments) (m : Machine) (files : φ) : φ → Prop
  | unasked : a.dumpState = none → Dumps a m files files
  | written {path : String} {files' : φ} : a.dumpState = some path →
      HoldsSnapshot (dumpText m) m.snapshot →
      FileSystem.writeText files path (dumpText m) = (.ok (), files') →
      (Keeps files path → FileSystem.readText files' path = .ok (dumpText m)) →
      Dumps a m files files'

/-- The reports of a run if `o` is what the run of the machine has returned. The lines of the log
    stand before anything else on the standard error. -/
inductive Describes (env : Environment φ) (a : Arguments)
    (o : Outcome RunSummary Machine ByteBuffer SliceSource) : Report φ → Prop
  | complete {summary : RunSummary} {files : φ} (events : List Log.Event) :
      o.result = .ok summary → Dumps a o.state env.files files →
      Describes env a o ⟨0, o.channels.sink.toList, (Log.Filter.ofSetting env.log).lines events,
        files⟩
  | aborted {fault : Fault} {files : φ} (events : List Log.Event) :
      o.result = .error fault → Dumps a o.state env.files files →
      Describes env a o ⟨1, o.channels.sink.toList, (Log.Filter.ofSetting env.log).lines events ++
        ("Error: run aborted\n\nCaused by:\n    " ++ fault.message ++ "\n"), files⟩
  | notDumped {path : String} {fault : FileFault} {files : φ} (events : List Log.Event) :
      a.dumpState = some path →
      FileSystem.writeText env.files path (dumpText o.state) = (.error fault, files) →
      Describes env a o ⟨1, o.channels.sink.toList, (Log.Filter.ofSetting env.log).lines events ++
        ("Error: failed to write state dump " ++ path ++ "\n\nCaused by:\n    " ++ fault.message ++
          "\n"), files⟩

/-- Without a setting nothing is logged that a run has to say. -/
theorem lines_default (events : List Log.Event) : Log.Filter.default.lines events = "" := by
  have hnone : events.filter Log.Filter.default.showsEvent = [] := by
    rw [List.filter_eq_nil_iff]
    intro event _
    cases event <;> exact Bool.false_ne_true
  rw [Log.Filter.lines, hnone]
  rfl

theorem dump_cases (a : Arguments) (m : Machine) (files : φ) :
    (∃ files', Dumps a m files files' ∧ dump a m files = (files', none)) ∨
      ∃ path fault files', a.dumpState = some path ∧
        FileSystem.writeText files path (dumpText m) = (.error fault, files') ∧
        dump a m files = (files', some (.notDumped path fault)) := by
  cases hdump : a.dumpState with
  | none => exact Or.inl ⟨files, .unasked hdump, by simp only [dump, hdump]⟩
  | some path =>
    rcases hwrite : FileSystem.writeText files path (dumpText m) with ⟨fault | done, files'⟩
    · exact Or.inr ⟨path, fault, files', rfl, hwrite, by simp only [dump, hdump, hwrite]⟩
    · exact Or.inl ⟨files', .written hdump (holdsSnapshot_dumpText m) hwrite
        fun hkeeps => hkeeps.readText hwrite, by simp only [dump, hdump, hwrite]⟩

/-- A dump that fails does not work. -/
theorem Dumps.not_failed {m : Machine} {files files' : φ} {path : String} {fault : FileFault}
    (h : Dumps a m files files') (hpath : a.dumpState = some path) :
    (FileSystem.writeText files path (dumpText m)).1 ≠ .error fault := by
  intro hfailed
  cases h with
  | unasked hnone =>
    rw [hpath] at hnone
    cases hnone
  | written hpath' _ hwrite _ =>
    obtain rfl : path = _ := Option.some.inj (hpath.symm.trans hpath')
    rw [hwrite] at hfailed
    cases hfailed

theorem describes_ofRun (env : Environment φ) (a : Arguments) (limit : Nat) (start : Machine)
    {o : Outcome RunSummary Machine ByteBuffer SliceSource}
    (hchannel : ∀ text, o.result ≠ .error (.channel text)) :
    Describes env a o
      (.ofRun limit env a start o.state o.channels.sink.toList o.result) := by
  rcases dump_cases a o.state env.files with
    ⟨files, hdumps, heq⟩ | ⟨path, fault, files, hpath, hwrite, heq⟩
  · cases hresult : o.result with
    | ok summary =>
      simp only [Report.ofRun, heq, verdict]
      exact .complete _ hresult hdumps
    | error fault =>
      have hother : ∀ text, fault ≠ .channel text := by
        rintro text rfl
        exact hchannel text hresult
      simp only [Report.ofRun, heq, verdict, Failure.text_aborted hother]
      exact .aborted _ hresult hdumps
  · simp only [Report.ofRun, heq, verdict, Failure.text_notDumped]
    exact .notDumped _ hpath hwrite

/-- The exit code says whether the run has returned and the dump, if asked for, has worked. -/
theorem Describes.code {o : Outcome RunSummary Machine ByteBuffer SliceSource} {report : Report φ}
    (h : Describes env a o report) :
    report.stdout = o.channels.sink.toList ∧ (report.code = 0 ∨ report.code = 1) ∧
      (report.code = 0 ↔
        (∃ summary, o.result = .ok summary) ∧ ∃ files, Dumps a o.state env.files files) := by
  refine ⟨?_, ?_, ?_⟩
  · cases h <;> rfl
  · cases h <;> simp
  · cases h with
    | complete _ hresult hdumps => simpa using ⟨⟨_, hresult⟩, _, hdumps⟩
    | aborted _ hresult _ => simp [hresult]
    | notDumped _ hpath hwrite =>
      constructor
      · intro hcode
        cases hcode
      · rintro ⟨-, files, hdumps⟩
        exact absurd (congrArg Prod.fst hwrite) (hdumps.not_failed hpath)

/-! ## The run -/

section Machines

variable {m : Machine} {stdin : List UInt8} {o : Outcome RunSummary Machine ByteBuffer SliceSource}

/-- A buffer and a list do not fail by themselves. -/
theorem ne_channel_of_returns {b : ByteBuffer} (h : m.Returns ⟨b, ⟨stdin⟩⟩ o) :
    ∀ text, o.result ≠ .error (.channel text) := by
  obtain ⟨result, m', c'⟩ := o
  rintro text rfl
  obtain ⟨_, _, ⟨_, ⟨unread⟩⟩, _, _, _, -, hget, -⟩ := h.refused (ByteBuffer.unfailing b) id
  cases unread <;> cases hget

/-- A writer without a limit and a reader that is at most interrupted come to the same as a buffer
    and a list. -/
theorem returns_on_writer_and_reader (h : m.Returns ⟨.empty, ⟨stdin⟩⟩ o) (overflow : Overflow)
    {events : List ReadEvent} (hbytes : bytes events = stdin) (hnone : failures events = []) :
    ∃ left, bytes left = o.channels.source.unread ∧
      m.Returns
        (Channels.mk (WriterSink.mk (CappedWriter.mk .empty none overflow))
          (ReaderSource.mk events))
        ⟨o.result, o.state,
          ⟨⟨⟨o.channels.sink, none, overflow⟩⟩, ⟨left⟩⟩⟩ := by
  subst hbytes
  let c := Channels.mk ByteBuffer.empty (ReaderSource.mk events)
  obtain ⟨o', hreader⟩ := returns_of_returns_listed (c := c) h
  have hother := hreader.ne_failure (ByteBuffer.unfailing _) hnone
  obtain rfl : o = _ := h.unique (hreader.listed hother).1
  obtain ⟨steps, hrun⟩ := hreader
  have hfits : Fits none c.sink := nofun
  rcases run_capped overflow steps m c hfits with ⟨-, heq⟩ | ⟨n, _, _, _, _, hlimit, -⟩
  · refine ⟨o'.channels.source.events, rfl, steps, heq.trans ?_⟩
    rw [hrun]
    rfl
  · cases hlimit

/-- The snapshot of the machine that a run leaves behind has numbers that fit, if those that the
    machine is assembled from and the count of its ticks do. -/
theorem fits_of_returns {config : MachineConfig} {source : String}
    (hstart : assemble config source = .ok m) {c : Channels ByteBuffer SliceSource}
    (h : m.Returns c o) (hprocessors : FitsSize config.processors)
    (hsource : FitsSize source.length) (hticks : FitsSize o.state.ticks) :
    o.state.snapshot.Fits := by
  obtain ⟨limit, hrun⟩ := h
  have hreached : Reaches m (m.run limit c).state := .ran limit c .start
  rw [hrun] at hreached
  exact hreached.fits_snapshot hstart hprocessors hsource hticks

end Machines

/-- Of its arguments a run needs the text of the program, the configuration and the path of the
    dump. -/
theorem runWith_of_same_text {a' : Arguments} (hconfig : a'.config = a.config)
    (hdump : a'.dumpState = a.dumpState) (hnames : Names a env.files source)
    (hnames' : Names a' env.files source) (limit : Nat) (args : List String) :
    runWith limit { env with args := args } a' = runWith limit env a := by
  have hmachine : machineOf a' source = machineOf a source := by simp only [machineOf, hconfig]
  have hreport : Report.ofRun limit { env with args := args } a' = Report.ofRun limit env a := by
    funext m last stdout result
    simp only [Report.ofRun, dump, hdump]
    rfl
  have htext : sourceOf (FileSystem.readText ({ env with args := args } : Environment φ).files) a' =
      .ok source := sourceOf_of_names hnames'
  simp only [runWith, htext, sourceOf_of_names hnames, hmachine, hreport]
  rfl

/-- Let the arguments be accepted, on any file system.
    - No text of a program is given, or it cannot be read, or there are to be no processors: then
      the run reports that at once, with exit code 1, and nothing is put or written.
    - Otherwise the run ends when the run of the machine does that has the text, the count, the
      policy and the strategy that the arguments give, and standard output is what that run puts,
      also when it faults. It comes to the same on a writer that takes everything and a reader that
      is at most interrupted.
    - The dump, if it can be written, holds the snapshot of the machine as the run has left it. The
      exit code is 0 if the run has returned and the dump, if asked for, works; if the dump fails
      that is reported, and otherwise the fault of the run. Without a log there is nothing else on
      the standard error.
    - It does not matter whether the text is given or read from a file. -/
theorem run_reports_machine_run (hargs : Arguments.parse env.args = .ok a) :
    ((∃ text, Early a env.files text) ∨
      ∃ source, Names a env.files source ∧ 0 < a.processors) ∧
    (∀ text, Early a env.files text → ∀ limit,
      run limit env = .ok (some ⟨1, [], text, env.files⟩)) ∧
    (∀ source, Names a env.files source → 0 < a.processors →
      ∃ start, assemble {
          processors := a.processors
          halt := a.halt
          brackets := if a.jumpTable then .table else .scan } source = .ok start ∧
        (∀ limit report, run limit env = .ok (some report) →
          ∃ o, start.Returns (Channels.mk ByteBuffer.empty (SliceSource.mk env.stdin)) o ∧
            Describes env a o report ∧
            report.stdout = o.channels.sink.toList ∧ (report.code = 0 ∨ report.code = 1) ∧
            (report.code = 0 ↔
              (∃ summary, o.result = .ok summary) ∧ ∃ files, Dumps a o.state env.files files)) ∧
        (∀ o, start.Returns (Channels.mk ByteBuffer.empty (SliceSource.mk env.stdin)) o →
          (∃ limit report, run limit env = .ok (some report)) ∧
          (FitsSize a.processors → FitsSize source.length → FitsSize o.state.ticks →
            o.state.snapshot.Fits) ∧
          ∀ overflow events, bytes events = env.stdin → failures events = [] →
            ∃ left, start.Returns
              (Channels.mk (WriterSink.mk (CappedWriter.mk .empty none overflow))
                (ReaderSource.mk events))
              ⟨o.result, o.state, ⟨⟨⟨o.channels.sink, none, overflow⟩⟩, left⟩⟩)) ∧
    (env.log = none → ∀ events, (Log.Filter.ofSetting env.log).lines events = "") ∧
    ∀ args' a', Arguments.parse args' = .ok a' → a'.processors = a.processors →
      a'.halt = a.halt → a'.jumpTable = a.jumpTable → a'.dumpState = a.dumpState →
        ∀ source, Names a env.files source → Names a' env.files source →
          ∀ limit, run limit { env with args := args' } = run limit env := by
  refine ⟨early_or_names a env.files, ?_, ?_, ?_, ?_⟩
  · intro text hearly limit
    simp only [run, hargs, runWith_of_early hearly]
  · intro source hnames hpos
    have hstart : assemble a.config source = .ok (fresh a.config source) :=
      assemble_of_pos hpos source
    refine ⟨_, hstart, ?_, ?_⟩
    · intro limit report hrun
      simp only [run, hargs] at hrun
      obtain ⟨o, hreturns, rfl⟩ := (runWith_eq_some_iff hnames hpos).mp (Except.ok.inj hrun)
      have hdescribes := describes_ofRun env a limit (fresh a.config source)
        (ne_channel_of_returns ⟨limit, hreturns⟩)
      exact ⟨o, ⟨limit, hreturns⟩, hdescribes, hdescribes.code⟩
    · intro o hreturns
      refine ⟨?_, fits_of_returns hstart hreturns, ?_⟩
      · obtain ⟨limit, hrun⟩ := hreturns
        refine ⟨limit, .ofRun limit env a (fresh a.config source) o.state
          o.channels.sink.toList o.result, ?_⟩
        simp only [run, hargs]
        exact congrArg _ (runWith_of_returned hnames hpos hrun)
      · intro overflow events hbytes hnone
        obtain ⟨left, -, hreturns'⟩ := returns_on_writer_and_reader hreturns overflow hbytes hnone
        exact ⟨_, hreturns'⟩
  · intro hlog events
    rw [hlog]
    exact lines_default events
  · intro args' a' hargs' hprocessors hhalt hjumpTable hdump source hnames hnames' limit
    have hconfig : a'.config = a.config := by
      simp only [Arguments.config, hprocessors, hhalt, hjumpTable]
    have hsame := runWith_of_same_text hconfig hdump hnames hnames' limit args'
    simp only [run, hargs, hargs', hsame]

/-- The second `,` finds no byte. The machine is dumped as it is then, above the working
    directory. -/
theorem run_reports_machine_run_on_echo :
    let env : Environment := ⟨["--eval", ",.,.", "--processors", "2", "--halt", "all-finished",
      "--jump-table", "--dump-state", "../state.json"], [65], .ofList [], none⟩
    let last := ((fresh { processors := 2, halt := .allFinished, brackets := .table } ",.,.").run 3
      (Channels.mk ByteBuffer.empty (SliceSource.mk [65]))).state
    ∃ (a : Arguments) (limit : Nat) (report : Report),
      Arguments.parse env.args = .ok a ∧ run limit env = .ok (some report) ∧
      report.code = 1 ∧ report.stdout = [0] ∧
      report.stderr = "Error: run aborted\n\nCaused by:\n    input exhausted\n" ∧
      report.files.readText "../state.json" = .ok (dumpText last) ∧
      Json.parse (dumpText last) = some (.object [
        ("config", .object [("processors", .ofNat 2), ("halt", .string "all-finished"),
          ("brackets", .string "table")]),
        ("ticks", .ofNat 2),
        ("processors", .array [
          .object [("id", .ofNat 0), ("program", .string ",,"), ("instruction_pointer", .ofNat 1),
            ("data_pointer", .ofNat 0), ("finished", .bool false), ("tape", .array [.ofInt 65])],
          .object [("id", .ofNat 1), ("program", .string ".."), ("instruction_pointer", .ofNat 1),
            ("data_pointer", .ofNat 0), ("finished", .bool false),
            ("tape", .array [.ofInt 0])]])]) ∧
      (Json.parse (dumpText last)).map MachineSnapshot.decode = some (.ok last.snapshot) := by
  intro env last
  have hargs : Arguments.parse env.args =
      .ok { eval := some ",.,.", processors := 2, halt := .allFinished, jumpTable := true,
            dumpState := some "../state.json" } := by rfl
  obtain ⟨-, -, hrun, hquiet, -⟩ := run_reports_machine_run hargs
  obtain ⟨start, hstart, hreports, hends⟩ := hrun ",.,." (.eval rfl) (by decide)
  obtain rfl : fresh { processors := 2, halt := .allFinished, brackets := .table } ",.,." = start :=
    Except.ok.inj ((assemble_of_pos (by decide) ",.,.").symm.trans hstart)
  obtain ⟨c, hreturns, hput⟩ : ∃ c,
      (fresh { processors := 2, halt := .allFinished, brackets := .table } ",.,.").Returns
        (Channels.mk ByteBuffer.empty (SliceSource.mk [65])) ⟨.error .inputExhausted, last, c⟩ ∧
      c.sink.toList = [0] := ⟨_, ⟨3, rfl⟩, rfl⟩
  obtain ⟨⟨limit, report, hreport⟩, hfits, -⟩ := hends _ hreturns
  obtain ⟨_, hreturns', hdescribes, -⟩ := hreports limit report hreport
  obtain rfl := hreturns.unique hreturns'
  refine ⟨_, limit, report, hargs, hreport, ?_⟩
  cases hdescribes with
  | complete events hresult hdumps => cases hresult
  | notDumped events hpath hwrite =>
    obtain rfl := Option.some.inj hpath
    cases hwrite
  | aborted events hresult hdumps =>
    obtain rfl := Except.error.inj hresult
    cases hdumps with
    | unasked hnone => cases hnone
    | written hpath hholds hwrite hread =>
      obtain rfl := Option.some.inj hpath
      refine ⟨rfl, hput, ?_, hread (Files.keeps _ _), hholds.parse_eq, hholds.decode_eq ?_⟩
      · rw [hquiet rfl events, String.empty_append]
        rfl
      · exact hfits (by decide) (by decide) (show FitsSize 2 by decide)

end TapeRing.CommandLine
