import TapeRing.Proofs.CommandLine.Report
import TapeRing.Proofs.Machine.Attempts

/-! # What a log shows of a run

The setting of the log decides only how much of a run is shown: behind the reports of all settings
there is one account of the run, and the lines of a log are those events of the account that the
setting shows (`log_observes_run`). Between its opening and its closing events, these are the ticks
that the run has attempted. -/

namespace TapeRing.Log

/-! ## Lines -/

namespace Filter

theorem lines_append (filter : Filter) (before events : List Event) :
    filter.lines (before ++ events) = filter.lines before ++ filter.lines events := by
  simp only [lines, List.filter_append, List.map_append, String.join_append]

theorem shows_upTo (level level' : Level) (target : String) :
    (upTo level).shows level' target = decide (level'.rank ≤ level.rank) := rfl

/-- The setting `trace` shows every event. -/
theorem lines_trace (events : List Event) :
    (ofSetting (some "trace")).lines events = String.join (events.map Event.line) := by
  have htrace : ofSetting (some "trace") = upTo .trace := by decide +kernel
  have hall : events.filter (upTo .trace).showsEvent = events := by
    rw [List.filter_eq_self]
    intro event _
    rw [showsEvent, shows_upTo, decide_eq_true_iff]
    cases event.level <;> decide
  rw [htrace, lines, hall]

end Filter

namespace Event

/-- An event is a tick. -/
def isTick : Event → Bool
  | .tick _ => true
  | _ => false

/-- The lines of the events, written out. -/
theorem line_eq (event : Event) :
    event.line = match event with
      | assembled config lengths =>
          "DEBUG rust_mbf::scheduler: machine assembled processors=" ++ toString lengths.length ++
            " lengths=[" ++ ", ".intercalate (lengths.map toString) ++ "]" ++ " halt=" ++
            haltText config.halt ++ " brackets=" ++ bracketsText config.brackets ++ "\n"
      | tick attempt =>
          "TRACE rust_mbf::processor: tick processor=" ++ toString attempt.processor ++ " ip=" ++
            toString attempt.ip ++ " op=" ++ attempt.op.toChar.toString ++ " dp=" ++
            toString attempt.dp ++ "\n"
      | halted summary allFinished =>
          "DEBUG rust_mbf::scheduler: machine halted ticks=" ++ toString summary.ticks ++
            " halted_on=" ++ optionText summary.haltedOn ++ " all_finished=" ++
            toString allFinished ++ "\n"
      | complete summary =>
          " INFO mbf_run: run complete ticks=" ++ toString summary.ticks ++ " halted_on=" ++
            optionText summary.haltedOn ++ "\n" := by
  have hflag (flag : Bool) : (if flag then "true" else "false") = toString flag := by
    cases flag <;> rfl
  -- To the left all is in one row, in which the literals that meet are put together.
  cases event <;>
    simp only [line, level, Level.label, target, message, fields, listText, hflag, List.map_cons,
      List.map_nil, String.join_cons, String.join_nil, String.append_empty,
      ← String.append_assoc, String.reduceAppend]

end Event

end TapeRing.Log

namespace TapeRing.CommandLine

open Machine

variable {φ : Type} {env : Environment φ} {a : Arguments} {source : String}

/-! ## The account of a run -/

/-- What a run from the command line comes to, apart from how much of its events is shown. -/
structure Account (φ : Type) where
  code : Nat
  stdout : List UInt8
  events : List Log.Event
  /-- The text of the failure, if the run fails. -/
  block : String
  files : φ

/-- The report of a run with a setting of the log. -/
def Account.report (account : Account φ) (log : Option String) : Report φ where
  code := account.code
  stdout := account.stdout
  stderr := (Log.Filter.ofSetting log).lines account.events ++ account.block
  files := account.files

theorem lines_tickEvents (filter : Log.Filter) (limit : Nat) (m : Machine) (env : Environment φ) :
    filter.lines (tickEvents limit m env filter) =
      filter.lines ((m.attempts limit env.channels).map .tick) := by
  unfold tickEvents
  split
  · rfl
  · rename_i hhidden
    have hnone : ((m.attempts limit env.channels).map Log.Event.tick).filter filter.showsEvent =
        [] := by
      rw [List.filter_eq_nil_iff]
      intro event hevent
      obtain ⟨attempt, -, rfl⟩ := List.mem_map.mp hevent
      rwa [Log.Filter.showsEvent_tick]
    rw [Log.Filter.lines, Log.Filter.lines, hnone]
    rfl

variable [FileSystem φ]

/-- How a run ends that has left behind the machine `m` with this result: the exit code, the last
    events, the text of the failure and the files. -/
inductive Closes (a : Arguments) (files : φ) (m : Machine) :
    Except Fault RunSummary → Nat → List Log.Event → String → φ → Prop
  | complete {summary : RunSummary} {files' : φ} : Dumps a m files files' →
      Closes a files m (.ok summary) 0 [.halted summary m.allFinished, .complete summary] "" files'
  | undumped {summary : RunSummary} {path : String} {fault : FileFault} {files' : φ} :
      a.dumpState = some path →
      FileSystem.writeText files path (dumpText m) = (.error fault, files') →
      Closes a files m (.ok summary) 1 [.halted summary m.allFinished]
        (Failure.notDumped path fault).text files'
  | aborted {fault : Fault} {files' : φ} : Dumps a m files files' →
      Closes a files m (.error fault) 1 [] (Failure.aborted fault).text files'
  | abortedUndumped {cause : Fault} {path : String} {fault : FileFault} {files' : φ} :
      a.dumpState = some path →
      FileSystem.writeText files path (dumpText m) = (.error fault, files') →
      Closes a files m (.error cause) 1 [] (Failure.notDumped path fault).text files'

section Closes

variable {files files' : φ} {m : Machine} {result : Except Fault RunSummary} {code : Nat}
  {closing : List Log.Event} {block : String}

/-- The last events report what the run has returned. -/
theorem Closes.eq_ok_of_mem (h : Closes a files m result code closing block files')
    {summary : RunSummary} (finished : Bool)
    (hmem : .halted summary finished ∈ closing ∨ .complete summary ∈ closing) :
    result = .ok summary := by
  cases h with
  | @complete summary' _ _ =>
    have hsame : (summary = summary' ∧ finished = m.allFinished) ∨ summary = summary' := by
      simpa using hmem
    rcases hsame with ⟨rfl, -⟩ | rfl <;> rfl
  | @undumped summary' _ _ _ _ _ =>
    have hsame : summary = summary' ∧ finished = m.allFinished := by simpa using hmem
    rw [hsame.1]
  | aborted _ => rcases hmem with hmem | hmem <;> cases hmem
  | abortedUndumped _ _ => rcases hmem with hmem | hmem <;> cases hmem

theorem Closes.countP_isTick (h : Closes a files m result code closing block files') :
    closing.countP Log.Event.isTick = 0 := by
  cases h <;> rfl

/-- That the machine has halted is an event of the runs that do not fault, and that all is done one
    of those among them whose dump, if asked for, works. -/
theorem Closes.mem_iff (h : Closes a files m result code closing block files') :
    ((∃ summary finished, .halted summary finished ∈ closing) ↔ ∃ summary, result = .ok summary) ∧
      ((∃ summary, .complete summary ∈ closing) ↔
        (∃ summary, result = .ok summary) ∧ ∃ files', Dumps a m files files') := by
  cases h with
  | complete hdumps => simpa using ⟨_, hdumps⟩
  | undumped hpath hwrite =>
    have hnever : ¬ ∃ files', Dumps a m files files' := by
      rintro ⟨files', hdumps⟩
      exact hdumps.not_failed hpath (congrArg Prod.fst hwrite)
    simpa using hnever
  | aborted hdumps => simp
  | abortedUndumped hpath hwrite => simp

end Closes

/-- The accounts of a run that ends. If no machine is assembled there are no events. Otherwise the
    first event is that the machine has been assembled, and what the run of it attempts follows. -/
inductive Explains (env : Environment φ) : Account φ → Prop
  | failed {a : Arguments} {text : String} : Arguments.parse env.args = .ok a →
      Early a env.files text → Explains env ⟨1, [], [], text, env.files⟩
  | ran {a : Arguments} {source : String} {start : Machine}
      {o : Outcome RunSummary Machine ByteBuffer SliceSource} {attempts : List Attempt}
      {code : Nat} {closing : List Log.Event} {block : String} {files : φ} :
      Arguments.parse env.args = .ok a → Names a env.files source →
      assemble {
          processors := a.processors
          halt := a.halt
          brackets := if a.jumpTable then .table else .scan } source = .ok start →
      start.Returns env.channels o → Attempted start env.channels o attempts →
      Closes a env.files o.state o.result code closing block files →
      Explains env ⟨code, o.channels.sink.toList,
        assembledEvent start :: (attempts.map .tick ++ closing), block, files⟩

/-- The ticks of a run that has returned are as many as the events that are ticks. -/
theorem Explains.ticks_eq {account : Account φ} (h : Explains env account) {summary : RunSummary}
    {finished : Bool}
    (hmem : .halted summary finished ∈ account.events ∨ .complete summary ∈ account.events) :
    summary.ticks = account.events.countP Log.Event.isTick := by
  cases h with
  | failed => rcases hmem with hmem | hmem <;> cases hmem
  | @ran a source start o attempts code closing block files _ _ _ _ hattempted hcloses =>
    have hresult : o.result = .ok summary :=
      hcloses.eq_ok_of_mem finished (by simpa [assembledEvent] using hmem)
    have hcount : (assembledEvent start :: (attempts.map .tick ++ closing)).countP
        Log.Event.isTick = attempts.length := by
      have hticks : (attempts.map Log.Event.tick).countP Log.Event.isTick = attempts.length := by
        rw [List.countP_map]
        exact List.countP_eq_length.mpr fun _ _ => rfl
      rw [List.countP_cons_of_neg Bool.false_ne_true, List.countP_append, hticks,
        hcloses.countP_isTick, Nat.add_zero]
    rw [hcount]
    cases hattempted with
    | halted hresult' hticks =>
      obtain rfl : summary = _ := Except.ok.inj (hresult.symm.trans hresult')
      exact hticks
    | faulted hfault =>
      rw [hresult] at hfault
      cases hfault

/-- The setting of the log is no part of what the report of a run is made of but for its lines. -/
theorem closes_ofRun (env : Environment φ) (a : Arguments) (start last : Machine)
    (stdout : List UInt8) (result : Except Fault RunSummary) :
    ∃ code closing block files, Closes a env.files last result code closing block files ∧
      ∀ log limit, Report.ofRun limit { env with log := log } a start last stdout result =
        Account.report ⟨code, stdout, assembledEvent start ::
          ((start.attempts limit env.channels).map .tick ++ closing), block, files⟩ log := by
  have hlines (log : Option String) (limit : Nat) (closing : List Log.Event) :
      (Log.Filter.ofSetting log).lines ([assembledEvent start] ++ tickEvents limit start
          { env with log := log } (Log.Filter.ofSetting log) ++ closing) =
        (Log.Filter.ofSetting log).lines (assembledEvent start ::
          ((start.attempts limit env.channels).map .tick ++ closing)) := by
    rw [Log.Filter.lines_append, Log.Filter.lines_append, lines_tickEvents,
      ← Log.Filter.lines_append, ← Log.Filter.lines_append, List.append_assoc]
    rfl
  rcases dump_cases a last env.files with
    ⟨files, hdumps, heq⟩ | ⟨path, fault, files, hpath, hwrite, heq⟩ <;> cases result
  case inl.error cause =>
    refine ⟨1, [], _, files, .aborted hdumps, ?_⟩
    intro log limit
    rw [Account.report, ← hlines]
    simp only [Report.ofRun, heq, verdict, haltedEvent]
  case inl.ok summary =>
    refine ⟨0, _, "", files, .complete hdumps, ?_⟩
    intro log limit
    rw [Account.report, ← hlines, String.append_empty]
    simp only [Report.ofRun, heq, verdict, haltedEvent, List.append_assoc, List.singleton_append]
  case inr.error cause =>
    refine ⟨1, [], _, files, .abortedUndumped hpath hwrite, ?_⟩
    intro log limit
    rw [Account.report, ← hlines]
    simp only [Report.ofRun, heq, verdict, haltedEvent]
  case inr.ok summary =>
    refine ⟨1, _, _, files, .undumped hpath hwrite, ?_⟩
    intro log limit
    rw [Account.report, ← hlines]
    simp only [Report.ofRun, heq, verdict, haltedEvent]

/-! ## The reports of a run -/

/-- Behind the reports of a run that returns there is one account. -/
theorem account_of_returns (hargs : Arguments.parse env.args = .ok a)
    (hnames : Names a env.files source) (hpos : 0 < a.processors)
    {o : Outcome RunSummary Machine ByteBuffer SliceSource}
    (hreturns : (fresh a.config source).Returns env.channels o) :
    ∃ least account, Explains env account ∧
      ∀ log limit, run limit { env with log := log } =
        .ok (if least ≤ limit then some (account.report log) else none) := by
  obtain ⟨least, hended, hunended⟩ := hreturns.exists_least
  obtain ⟨code, closing, block, files, hcloses, hreport⟩ :=
    closes_ofRun env a (fresh a.config source) o.state o.channels.sink.toList o.result
  have hattempted := attempted_of_run (sound_fresh hpos source) (hended 0)
  refine ⟨least, _, .ran hargs hnames (assemble_of_pos hpos source) hreturns hattempted hcloses, ?_⟩
  intro log limit
  have hnames' : Names a ({ env with log := log } : Environment φ).files source := hnames
  simp only [run, hargs]
  congr 1
  split
  · rename_i hle
    obtain ⟨more, rfl⟩ := Nat.exists_eq_add_of_le hle
    have hsame := attempts_add (hended 0) more
    rw [Nat.add_zero] at hsame
    rw [runWith_of_returned hnames' hpos (hended more), hreport, hsame]
    rfl
  · rename_i hlt
    exact runWith_of_unended hnames' hpos (hunended limit (Nat.lt_of_not_le hlt))

/-- What a run comes to is read off its account. -/
theorem Account.report_eq {account : Account φ} {least : Nat}
    (h : ∀ log limit, run limit { env with log := log } =
      .ok (if least ≤ limit then some (account.report log) else none))
    {log : Option String} (limit : Nat) {report : Report φ}
    (hrun : run limit { env with log := log } = .ok (some report)) :
    account.report log = report := by
  have heq := Except.ok.inj ((h log limit).symm.trans hrun)
  split at heq
  · exact Option.some.inj heq
  · cases heq

/-- Let a run be given its arguments, standard input and files, whatever the setting of the log is.
    - The arguments are rejected in the same way with all settings, or the run never ends with any,
      or it ends with all of them, and within the same limits of steps. Then there is one account of
      it: the exit code, standard output, the files and the text of a failure are the same, and the
      lines before this text are those of the events of the account that the setting shows.
    - The events of a run whose machine has been assembled are, in order, that it has been, each
      tick that the run of the machine attempts, and how this ends (`Attempted`, `Closes`).
    - With the setting `trace` there is a line for every event. That of a tick shows the processor,
      its pointers before the tick and the character of the instruction, and those of the end show
      as many ticks as there are lines of ticks.
    - The machine is said to have halted if the run has not faulted, and all is said to be done if
      besides this the dump, if asked for, works. -/
theorem log_observes_run (env : Environment φ) :
    ((∃ fault, ∀ log limit, run limit { env with log := log } = .error fault) ∨
      (∀ log limit, run limit { env with log := log } = .ok none) ∨
      ∃ least account, Explains env account ∧
        ∀ log limit, run limit { env with log := log } =
          .ok (if least ≤ limit then some (account.report log) else none)) ∧
    (∀ account : Account φ, (account.report (some "trace")).stderr =
      String.join (account.events.map Log.Event.line) ++ account.block) ∧
    (∀ event : Log.Event, event.line = match event with
      | .assembled config lengths =>
          "DEBUG rust_mbf::scheduler: machine assembled processors=" ++ toString lengths.length ++
            " lengths=[" ++ ", ".intercalate (lengths.map toString) ++ "]" ++ " halt=" ++
            Log.Event.haltText config.halt ++ " brackets=" ++
            Log.Event.bracketsText config.brackets ++ "\n"
      | .tick attempt =>
          "TRACE rust_mbf::processor: tick processor=" ++ toString attempt.processor ++ " ip=" ++
            toString attempt.ip ++ " op=" ++ attempt.op.toChar.toString ++ " dp=" ++
            toString attempt.dp ++ "\n"
      | .halted summary allFinished =>
          "DEBUG rust_mbf::scheduler: machine halted ticks=" ++ toString summary.ticks ++
            " halted_on=" ++ Log.Event.optionText summary.haltedOn ++ " all_finished=" ++
            toString allFinished ++ "\n"
      | .complete summary =>
          " INFO mbf_run: run complete ticks=" ++ toString summary.ticks ++ " halted_on=" ++
            Log.Event.optionText summary.haltedOn ++ "\n") ∧
    (∀ account, Explains env account → ∀ summary finished,
      .halted summary finished ∈ account.events ∨ .complete summary ∈ account.events →
        summary.ticks = account.events.countP Log.Event.isTick) ∧
    ∀ a m result code closing block files, Closes a env.files m result code closing block files →
      ((∃ summary finished, .halted summary finished ∈ closing) ↔
        ∃ summary, result = .ok summary) ∧
      ((∃ summary, .complete summary ∈ closing) ↔
        (∃ summary, result = .ok summary) ∧ ∃ files', Dumps a m env.files files') := by
  refine ⟨?_, ?_, Log.Event.line_eq, fun account h summary finished => h.ticks_eq, ?_⟩
  · cases hargs : Arguments.parse env.args with
    | error fault =>
      refine Or.inl ⟨fault, ?_⟩
      intro log limit
      simp only [run, hargs]
    | ok a =>
      right
      rcases early_or_names a env.files with ⟨text, hearly⟩ | ⟨source, hnames, hpos⟩
      · refine Or.inr ⟨0, _, .failed hargs hearly, ?_⟩
        intro log limit
        have hearly' : Early a ({ env with log := log } : Environment φ).files text := hearly
        simp only [run, hargs, runWith_of_early hearly', if_pos (Nat.zero_le limit)]
        rfl
      · by_cases hreturns : ∃ o, (fresh a.config source).Returns env.channels o
        · obtain ⟨o, hreturns⟩ := hreturns
          exact Or.inr (account_of_returns hargs hnames hpos hreturns)
        · left
          intro log limit
          rcases returned_or_none (fresh a.config source) env.channels limit with
            ⟨o, hrun⟩ | hnone
          · exact absurd ⟨o, limit, hrun⟩ hreturns
          · have hnames' : Names a ({ env with log := log } : Environment φ).files source := hnames
            simp only [run, hargs, runWith_of_unended hnames' hpos hnone]
  · intro account
    rw [Account.report, Log.Filter.lines_trace]
  · intro a m result code closing block files hcloses
    exact hcloses.mem_iff

/-- The second `,` finds no byte. It is attempted, and the machine does not halt. With an output in
    its place the machine halts, and after the dump all is done. -/
theorem log_observes_run_on_echo :
    let faulting : Environment :=
      ⟨["--eval", ",.,", "--halt", "all-finished", "--jump-table"], [65], .ofList [], none⟩
    let returning : Environment :=
      ⟨["--eval", ",..", "-n2", "--dump-state", "state.json"], [65], .ofList [], none⟩
    (∃ account, Explains faulting account ∧
      (account.report (some "trace")).stderr =
        "DEBUG rust_mbf::scheduler: machine assembled processors=1 lengths=[3] " ++
          "halt=AllFinished brackets=Table\n" ++
        "TRACE rust_mbf::processor: tick processor=0 ip=0 op=, dp=0\n" ++
        "TRACE rust_mbf::processor: tick processor=0 ip=1 op=. dp=0\n" ++
        "TRACE rust_mbf::processor: tick processor=0 ip=2 op=, dp=0\n" ++
        "Error: run aborted\n\nCaused by:\n    input exhausted\n" ∧
      (account.report none).stderr =
        "Error: run aborted\n\nCaused by:\n    input exhausted\n") ∧
    ∃ account, Explains returning account ∧
      (account.report (some "trace")).stderr =
        "DEBUG rust_mbf::scheduler: machine assembled processors=2 lengths=[2, 1] " ++
          "halt=FirstFinished brackets=Scan\n" ++
        "TRACE rust_mbf::processor: tick processor=0 ip=0 op=, dp=0\n" ++
        "TRACE rust_mbf::processor: tick processor=1 ip=0 op=. dp=0\n" ++
        "TRACE rust_mbf::processor: tick processor=0 ip=1 op=. dp=0\n" ++
        "DEBUG rust_mbf::scheduler: machine halted ticks=3 halted_on=Some(1) all_finished=true\n" ++
        " INFO mbf_run: run complete ticks=3 halted_on=Some(1)\n" ∧
      (account.report none).stderr = "" := by
  intro faulting returning
  constructor
  · obtain ⟨hreports, -⟩ := log_observes_run faulting
    rcases hreports with ⟨fault, hrejected⟩ | hendless | ⟨least, account, hexplains, hends⟩
    · cases hrejected none 0
    · cases hendless none 3
    · refine ⟨account, hexplains, ?_, ?_⟩
      · rw [Account.report_eq hends 3 rfl]
        rfl
      · rw [Account.report_eq hends 3 rfl]
        rfl
  · obtain ⟨hreports, -⟩ := log_observes_run returning
    rcases hreports with ⟨fault, hrejected⟩ | hendless | ⟨least, account, hexplains, hends⟩
    · cases hrejected none 0
    · cases hendless none 4
    · refine ⟨account, hexplains, ?_, ?_⟩
      · rw [Account.report_eq hends 4 rfl]
        rfl
      · rw [Account.report_eq hends 4 rfl]
        rfl

end TapeRing.CommandLine
