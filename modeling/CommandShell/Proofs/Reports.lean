import CommandShell.Proofs.Commands
import CommandShell.Proofs.Decoding
import CommandShell.Proofs.FailedCommands
import CommandShell.Proofs.Failures
import CommandShell.Proofs.FaultTexts
import CommandShell.Proofs.Rebuilding
import CommandShell.Proofs.Reliable

/-!
# The reports of a session

A session whose standard error works writes one line there for each command that fails, and nothing
else. What a command quotes of the line that was typed is a word of it, so it has no delimiter
(`Shell.clean_of_fails`); the other texts of a report are known. So the lines on standard error
are the reports, whatever was typed (`Session.run_reports`).
-/

namespace CommandShell

/-! ## Streams with faults of one line -/

namespace Sink

/-- No fault of the stream has a text of more than one line. -/
structure OneLineFaults (s : Sink) : Prop where
  refusal : s.refusal.toFault.OneLine
  flushed : ∀ count f, s.failingFlush count = some f → f.OneLine

variable {s : Sink}

theorem OneLineFaults.accept (h : s.OneLineFaults) (offered : Nat) :
    (s.accept offered).2.OneLineFaults ∧
      ∀ f, (s.accept offered).1 = .refused f → f.OneLine := by
  unfold Sink.accept
  split
  · exact ⟨h, nofun⟩
  · next g lasting hroom hrefusal =>
    refine ⟨h, fun f hf => ?_⟩
    cases hf
    have hg := h.refusal
    rwa [hrefusal] at hg
  · exact ⟨h, nofun⟩
  · exact ⟨⟨h.refusal, h.flushed⟩, nofun⟩

theorem OneLineFaults.offer (h : s.OneLineFaults) (offered : Nat) :
    (s.offer offered).2.OneLineFaults ∧
      ∀ f, (s.offer offered).1 = .refused f → f.OneLine := by
  unfold Sink.offer
  split
  · exact ⟨⟨h.refusal, h.flushed⟩, nofun⟩
  · have hnext : { s with interruptNext := true }.OneLineFaults := ⟨h.refusal, h.flushed⟩
    exact hnext.accept offered

/-- The fault that ends a text has a text of one line, and so have those of later ones. -/
theorem OneLineFaults.write (h : s.OneLineFaults) (bytes : List UInt8) :
    (s.write bytes).sink.OneLineFaults ∧
      ∀ f, (s.write bytes).fault? = some f → f.OneLine := by
  fun_induction Sink.write s bytes with
  | case1 => exact ⟨h, fun f hf => by cases hf⟩
  | case2 s bytes hne after ho ih =>
    have hafter := (h.offer bytes.length).1
    rw [ho] at hafter
    exact ih hafter
  | case3 s bytes hne g after ho =>
    obtain ⟨hafter, hrefused⟩ := h.offer bytes.length
    rw [ho] at hafter hrefused
    exact ⟨hafter, fun f hf => hrefused f (congrArg Answer.refused (Option.some.inj hf))⟩
  | case4 s bytes hne after ho =>
    have hafter := (h.offer bytes.length).1
    rw [ho] at hafter
    refine ⟨hafter, fun f hf => ?_⟩
    obtain rfl : Fault.takesNothing = f := Option.some.inj hf
    exact Fault.oneLine_takesNothing
  | case5 s bytes hne count after ho later ih =>
    have hafter := (h.offer bytes.length).1
    rw [ho] at hafter
    exact ih hafter

theorem OneLineFaults.flush (h : s.OneLineFaults) :
    s.flush.2.OneLineFaults ∧ ∀ f, s.flush.1 = some f → f.OneLine := by
  exact ⟨⟨h.refusal, h.flushed⟩, fun f hf => h.flushed (s.flushes + 1) f hf⟩

end Sink

variable {σ : Type}

/-! ## Worlds in which reports arrive -/

/-- Standard error works, and no fault of standard output has a text of more than one line. -/
structure World.Reporting (w : World σ) : Prop where
  out : w.out.OneLineFaults
  err : w.err.Reliable

namespace Action

variable {ε ε' α β : Type}

/-- Reports still arrive after the action. -/
def KeepsReporting (act : Action σ ε α) : Prop := ∀ w, w.Reporting → (act w).world.Reporting

theorem keepsReporting_writeBytes (stream : Stream) (bytes : List UInt8) :
    KeepsReporting (writeBytes stream bytes : Action σ Fault Unit) := by
  intro w hw
  rw [writeBytes_world]
  cases stream with
  | out => exact ⟨(hw.out.write bytes).1, hw.err⟩
  | err =>
    obtain ⟨s', hs', hreliable⟩ := hw.err.write bytes
    refine ⟨hw.out, ?_⟩
    show (w.err.write bytes).sink.Reliable
    rwa [hs']

theorem keepsReporting_flush (stream : Stream) :
    KeepsReporting (flush stream : Action σ Fault Unit) := by
  intro w hw
  cases stream with
  | out => exact ⟨hw.out.flush.1, hw.err⟩
  | err =>
    obtain ⟨s', hs', hreliable⟩ := hw.err.flush
    refine ⟨hw.out, ?_⟩
    show w.err.flush.2.Reliable
    rwa [hs']

theorem keepsReporting_changeDirectory (sys : System σ) (path : String) :
    KeepsReporting (changeDirectory sys path) := by
  intro w hw
  rw [changeDirectory]
  split
  · exact hw
  · exact ⟨hw.out, hw.err⟩

/-- Nothing that a shell does keeps reports from arriving. -/
theorem compositional_keepsReporting (sys : System σ) :
    Compositional sys fun act => KeepsReporting act where
  pure _ _ hw := hw
  fail _ _ hw := hw
  follow hfirst hnext w hw := hnext _ _ (hfirst w hw)
  prompting _ hw := hw
  read _ _ hw := hw
  entered _ _ hw := hw
  writeBytes := keepsReporting_writeBytes
  flush := keepsReporting_flush
  changeDirectory := keepsReporting_changeDirectory sys
  launch _ _ hw := ⟨hw.out, hw.err⟩

/-- Where reports arrive, a report is taken as a whole. -/
theorem writeLine_err_of_reporting {w : World σ} (hw : w.Reporting) (text : String) :
    (writeLine .err text w).answer = .ok () := by
  obtain ⟨s', hs', -⟩ := hw.err.write (Utf8.encode (text ++ "\n"))
  have hsink : (w.sink .err).write (Utf8.encode (text ++ "\n"))
      = ⟨Utf8.encode (text ++ "\n"), none, s'⟩ := hs'
  rw [writeLine, write, writeBytes, hsink]

end Action

/-! ## Errors that quote no delimiter -/

/-- A word of a line has no delimiter in it. -/
theorem not_mem_delimiters_of_mem_words {line token : String} (h : token ∈ words line) :
    ∀ c ∈ token.toList, c ∉ delimiters := by
  obtain ⟨_, _, -, hspacing, -⟩ := Word.rows_scan 0 .between line.toList trivial
  exact (hspacing.solid token h).2

namespace CommandError

/-- The error quotes no delimiter, and the fault underneath has a text of one line. -/
structure Clean (e : CommandError) : Prop where
  quoted : ∀ c ∈ e.quoted.toList, c ∉ delimiters
  cause : ∀ f, e.cause? = some f → f.OneLine

variable {e : CommandError}

theorem OfProcess.clean {program : String} (h : e.OfProcess program)
    (hprogram : ∀ c ∈ program.toList, c ∉ delimiters)
    (hcause : ∀ f, e.cause? = some f → f.OneLine) : e.Clean := by
  refine ⟨?_, hcause⟩
  cases h <;> exact hprogram

theorem clean_stream {f : Fault} (h : f.OneLine) : (stream f).Clean := by
  refine ⟨nofun, fun g hg => ?_⟩
  obtain rfl : f = g := Option.some.inj hg
  exact h

/-- A delimiter other than the space comes into the message only by the text of the fault. -/
theorem Clean.count_message (h : e.Clean) {c : Char} (hc : c ∈ delimiters) (hspace : c ≠ ' ') :
    e.message.toList.count c = e.causeText.toList.count c := by
  have hquoted : e.quoted.toList.count c = 0 :=
    List.count_eq_zero.2 fun hmem => h.quoted c hmem hc
  rw [e.count_message hc hspace, hquoted, Nat.zero_add]

theorem Clean.newline_not_mem_causeText (h : e.Clean) : '\n' ∉ e.causeText.toList := by
  rw [causeText]
  split
  · next f hf => exact h.cause f hf
  · exact List.not_mem_nil

end CommandError

namespace Shell

variable {sys : System σ} {settings : Settings} {w : World σ} {e : CommandError}

theorem count_report (settings : Settings) (h : e.Clean) {c : Char} (hc : c ∈ delimiters)
    (hspace : c ≠ ' ') :
    (report settings e).toList.count c
      = settings.name.toList.count c + e.causeText.toList.count c := by
  have hcolon : ": ".toList.count c = 0 :=
    CommandError.count_ownWords ": " (by decide) c hc hspace
  simp only [report, String.toList_append, List.count_append, h.count_message hc hspace, hcolon,
    Nat.add_zero]

theorem newline_not_mem_report (hname : '\n' ∉ settings.name.toList) (h : e.Clean) :
    '\n' ∉ (report settings e).toList := by
  have hcount := count_report settings h (c := '\n') (by decide) (by decide)
  rw [List.count_eq_zero.2 hname, List.count_eq_zero.2 h.newline_not_mem_causeText] at hcount
  exact List.count_eq_zero.1 hcount

/-- Whatever makes a command fail, its error quotes no delimiter if the command has none. -/
theorem clean_of_fails {args : List String} (hsys : sys.OneLineFaults)
    (hprocesses : sys.LaunchesProcesses) (hw : w.Reporting)
    (hargs : ∀ arg ∈ args, ∀ c ∈ arg.toList, c ∉ delimiters)
    (h : Fails sys settings w args e) : e.Clean := by
  cases h with
  | cdNowhere => exact ⟨by simp [CommandError.quoted, delimiters], nofun⟩
  | @cdRefused _ path _ f _ refused =>
    refine ⟨hargs path (by simp), fun g hg => ?_⟩
    obtain rfl : f = g := Option.some.inj hg
    exact hsys.changeDirectory path _ f refused
  | helpCut _ cut => exact CommandError.clean_stream ((hw.out.write _).2 _ cut)
  | unflushed _ failed => exact CommandError.clean_stream (hw.out.flush.2 _ failed)
  | @launchFailed program others _ _ _ failed =>
    have hprogram := hargs program List.mem_cons_self
    exact (hprocesses program others _ e failed).clean hprogram fun f =>
      hsys.launch (program :: others) _ e f failed

end Shell

namespace Session

open Input (Item)
open CommandShell.Action (lineWritten)

variable {sys : System σ} {settings : Settings}

/-! ## The commands of a session and their answers -/

/-- What is asked for, if it is a command, and the answer of that. -/
def Asked.answers (sys : System σ) (settings : Settings) (asked : Asked σ) :
    List (List String × Except CommandError Flow) :=
  match asked.request with
  | .command line =>
    [(words line, (Shell.dispatch sys settings (words line) asked.world).answer)]
  | .endOfInput => []
  | .failed _ => []

/-- The arguments on the lines of a session and what became of them, in order. A blank line has no
arguments, and so it is no command. -/
def answers (sys : System σ) (settings : Settings) (input : List Item) (w : World σ) :
    List (List String × Except CommandError Flow) :=
  let here := (ask settings input w).answers sys settings
  if _h : (turn sys settings input w).verdict = .goOn then
    here ++ answers sys settings (turn sys settings input w).unread
      (turn sys settings input w).world
  else here
termination_by input.length
decreasing_by exact length_unread_lt _h

/-- The errors among some answers. -/
def failures (answers : List (List String × Except CommandError Flow)) : List CommandError :=
  answers.filterMap fun answer =>
    match answer.2 with
    | .error e => some e
    | .ok _ => none

theorem failures_append (first second : List (List String × Except CommandError Flow)) :
    failures (first ++ second) = failures first ++ failures second :=
  List.filterMap_append

/-- The reports of some errors, each on a line of its own. -/
def reports (settings : Settings) (errors : List CommandError) : List UInt8 :=
  errors.flatMap fun e => Utf8.encode (Shell.report settings e ++ "\n")

/-! ## One report for each failure -/

/-- A trace in which the commands run, and in which standard error gets the reports of those that
fail and nothing else. -/
structure Tells (settings : Settings) (answers : List (List String × Except CommandError Flow))
    (trace : Trace) : Prop where
  commands : trace.commands = proper (answers.map Prod.fst)
  written : trace.written .err = reports settings (failures answers)
  clean : ∀ e ∈ failures answers, e.Clean

theorem Tells.append {first second : List (List String × Except CommandError Flow)}
    {before after : Trace} (hfirst : Tells settings first before)
    (hsecond : Tells settings second after) :
    Tells settings (first ++ second) (before ++ after) where
  commands := by
    rw [Trace.commands_append, hfirst.commands, hsecond.commands, List.map_append, proper_append]
  written := by
    rw [Trace.written_append, hfirst.written, hsecond.written, failures_append, reports, reports,
      reports, List.flatMap_append]
  clean := by
    rw [failures_append]
    exact List.forall_mem_append.2 ⟨hfirst.clean, hsecond.clean⟩

/-- Where no command runs, nothing is told. -/
theorem tells_nil {trace : Trace} (hcommands : trace.commands = [])
    (hwritten : trace.written .err = []) : Tells settings [] trace :=
  ⟨hcommands, hwritten, nofun⟩

theorem tells_greet (settings : Settings) (w : World σ) :
    Tells settings [] (greet settings w).trace := by
  refine tells_nil (commands_greet settings w) ?_
  rcases greet_cases settings w with ⟨w', hg⟩ | ⟨events, e, w', hcourse, hg⟩
  · rw [hg]
    rfl
  · rw [hg]
    cases hcourse <;> rfl

/-- A command that fails is told of by its report, another one by nothing. -/
theorem written_obey (sys : System σ) (settings : Settings) (line : String) {w : World σ}
    (hw : w.Reporting) :
    (obey sys settings line w).trace.written .err
      = reports settings
          (failures [(words line, (Shell.dispatch sys settings (words line) w).answer)]) := by
  have hquiet := written_err_course (Shell.dispatch_course sys settings (words line) w)
  rcases hd : Shell.dispatch sys settings (words line) w with ⟨events, answer, w₁⟩
  rw [hd] at hquiet
  cases answer with
  | ok flow =>
    have hexec : Shell.execute sys settings (words line) w = ⟨events, .ok flow, w₁⟩ := by
      rw [Shell.execute, Action.recover_of_ok (a := flow) (by rw [hd]), hd]
    rw [obey, Action.bind_eq, Action.bind_of_eq_ok (Action.mapError_of_eq_ok hexec)]
    simp only [Action.bind_eq, Action.pure_eq]
    rcases Action.flush_cases .out w₁ with ⟨w₂, hf⟩ | ⟨f, w₂, hf⟩
    · rw [Action.bind_of_eq_ok (Action.mapError_of_eq_ok hf), Trace.written_append, hquiet]
      rfl
    · rw [Action.bind_of_eq_error (Action.mapError_of_eq_error hf), Trace.written_append, hquiet]
      rfl
  | error e =>
    have hw₁ : w₁.Reporting := by
      have hkeeps := (Action.compositional_keepsReporting sys).dispatch settings (words line) w hw
      rwa [hd] at hkeeps
    have htold := Action.writeLine_of_ok
      (Action.writeLine_err_of_reporting hw₁ (Shell.report settings e))
    have hreport : ∀ fault?, Trace.written .err
        [lineWritten .err (Shell.report settings e), .flushed .out fault?]
          = reports settings [e] := by
      intro fault?
      rfl
    rcases Action.flush_cases .out
      (Action.writeLine .err (Shell.report settings e) w₁).world with ⟨w₂, hf⟩ | ⟨f, w₂, hf⟩
    · rw [obey_of_dispatch_error hd htold hf, Trace.written_append, hquiet, hreport]
      rfl
    · rw [obey_of_dispatch_error hd htold hf, Trace.written_append, hquiet, hreport]
      rfl

theorem tells_obey {line : String} {w : World σ} (hsys : sys.OneLineFaults)
    (hprocesses : sys.LaunchesProcesses) (hw : w.Reporting) :
    Tells settings [(words line, (Shell.dispatch sys settings (words line) w).answer)]
      (obey sys settings line w).trace where
  commands := commands_obey sys settings line w
  written := written_obey sys settings line hw
  clean := by
    intro e he
    obtain ⟨answer, hanswer, heq⟩ := List.mem_filterMap.1 he
    obtain rfl := List.mem_singleton.1 hanswer
    cases hd : (Shell.dispatch sys settings (words line) w).answer with
    | ok flow =>
      rw [hd] at heq
      cases heq
    | error e' =>
      rw [hd] at heq
      cases heq
      exact Shell.clean_of_fails hsys hprocesses hw
        (fun _ => not_mem_delimiters_of_mem_words) (Shell.dispatch_error_iff.1 hd)

theorem tells_farewell (w : World σ) : Tells settings [] (farewell w).trace := by
  rcases farewell_cases w with ⟨w', hw⟩ | ⟨taken, f, w', -, hw⟩
  · rw [hw]
    exact tells_nil rfl rfl
  · rw [hw]
    exact tells_nil rfl rfl

/-- A turn tells of its command, if it has one. -/
theorem tells_turn (hsys : sys.OneLineFaults) (hprocesses : sys.LaunchesProcesses)
    (settings : Settings) (input : List Item) {w : World σ} (hw : w.Reporting) :
    Tells settings ((ask settings input w).answers sys settings)
      (turn sys settings input w).trace := by
  have hgreet := tells_greet settings w
  have hkeeps := (Action.compositional_keepsReporting sys).greet settings w hw
  rcases hg : greet settings w with ⟨events, answer, w'⟩
  rw [hg] at hgreet hkeeps
  cases answer with
  | error e =>
    rw [turn, ask_of_greet_error hg]
    exact hgreet
  | ok u =>
    have hread : Tells settings [] (events ++ [.read (Input.readLine input).taken]) :=
      hgreet.append (tells_nil rfl rfl)
    rw [turn, ask_of_greet_ok hg]
    cases (Input.readLine input).reading with
    | line text => exact hread.append (tells_obey hsys hprocesses hkeeps)
    | endOfInput => exact hread.append (tells_farewell w')
    | fault f => exact hread

/-- After a turn reports still arrive. -/
theorem reporting_turn (sys : System σ) (settings : Settings) (input : List Item) {w : World σ}
    (hw : w.Reporting) : (turn sys settings input w).world.Reporting := by
  have hkeeps := (Action.compositional_keepsReporting sys).turnAction settings
    (Input.readLine input) w hw
  rwa [turn_eq]

/-- A session tells of its commands, in order. -/
theorem tells_run (hsys : sys.OneLineFaults) (hprocesses : sys.LaunchesProcesses)
    (settings : Settings) (input : List Item) {w : World σ} (hw : w.Reporting) :
    Tells settings (answers sys settings input w) (run sys settings input w).trace := by
  induction input, w using run_induction sys settings with
  | last input w hgo =>
    obtain ⟨answer, hrun⟩ := run_of_not_goOn hgo
    rw [answers, dif_neg hgo, hrun]
    exact tells_turn hsys hprocesses settings input hw
  | next input w hgo ih =>
    rw [answers, dif_pos hgo, run_of_goOn hgo]
    exact (tells_turn hsys hprocesses settings input hw).append
      (ih (reporting_turn sys settings input hw))

/-! ## The lines on standard error -/

theorem encode_report (settings : Settings) (e : CommandError) :
    Utf8.encode (Shell.report settings e ++ "\n")
      = Utf8.encode (Shell.report settings e) ++ [Input.newline] := by
  rw [Utf8.encode_append]
  rfl

/-- Reports without newlines are the lines of their bytes. -/
theorem splitOn_reports {errors : List CommandError}
    (h : ∀ e ∈ errors, '\n' ∉ (Shell.report settings e).toList) :
    (reports settings errors).splitOn Input.newline
      = errors.map (fun e => Utf8.encode (Shell.report settings e)) ++ [[]] := by
  have hlines : ∀ line ∈ errors.map (Shell.report settings), '\n' ∉ line.toList :=
    List.forall_mem_map.2 h
  have hwritten : reports settings errors
      = Input.written (errors.map (Shell.report settings)) := by
    rw [reports, Input.written, List.flatMap_map]
  rw [hwritten, Input.splitOn_written hlines, List.map_map]
  rfl

theorem count_newline_reports {errors : List CommandError}
    (h : ∀ e ∈ errors, '\n' ∉ (Shell.report settings e).toList) :
    (reports settings errors).count Input.newline = errors.length := by
  induction errors with
  | nil => rfl
  | cons e errors ih =>
    obtain ⟨he, herrors⟩ := List.forall_mem_cons.1 h
    rw [reports, List.flatMap_cons, List.count_append, encode_report, List.count_append,
      List.count_eq_zero.2 (Input.newline_not_mem_encode he), ← reports, ih herrors,
      List.length_cons, List.count_singleton_self]
    omega

/-- Standard error gets one line for each command that fails, in the order of the commands, and
nothing else: the name of the shell and the message of the error. Each has one newline, at its end,
and no carriage return or bell but those of the name and of the text of a fault, whatever was
typed. -/
theorem run_reports (sys : System σ) (settings : Settings) (input : List Item) (w : World σ)
    (hname : '\n' ∉ settings.name.toList) (hout : w.out.OneLineFaults) (herr : w.err.Reliable)
    (hprocesses : sys.LaunchesProcesses) (hsys : sys.OneLineFaults) :
    let trace := (run sys settings input w).trace
    let answers := answers sys settings input w
    let failed := failures answers
    let line := fun e : CommandError => settings.name ++ ": " ++ e.message
    trace.commands = proper (answers.map Prod.fst) ∧
      trace.written .err = failed.flatMap (fun e => Utf8.encode (line e ++ "\n")) ∧
      (trace.written .err).splitOn Input.newline
        = failed.map (fun e => Utf8.encode (line e)) ++ [[]] ∧
      (trace.written .err).count Input.newline = failed.length ∧
      ∀ e ∈ failed, (line e ++ "\n").toList.count '\n' = 1 ∧
        ∀ c, c = '\r' ∨ c = '\x07' →
          (line e).toList.count c
            = settings.name.toList.count c + e.causeText.toList.count c := by
  intro trace answers failed line
  have htells := tells_run hsys hprocesses settings input ⟨hout, herr⟩
  have hlines : ∀ e ∈ failed, '\n' ∉ (Shell.report settings e).toList := fun e he =>
    Shell.newline_not_mem_report hname (htells.clean e he)
  refine ⟨htells.commands, htells.written, ?_, ?_, fun e he => ⟨?_, fun c hc => ?_⟩⟩
  · exact (congrArg _ htells.written).trans (splitOn_reports hlines)
  · exact (congrArg _ htells.written).trans (count_newline_reports hlines)
  · rw [String.toList_append, List.count_append]
    exact congrArg (· + 1) (List.count_eq_zero.2 (hlines e he))
  · rcases hc with rfl | rfl
    · exact Shell.count_report settings (htells.clean e he) (by decide) (by decide)
    · exact Shell.count_report settings (htells.clean e he) (by decide) (by decide)

/-- A `cd` without an argument, a program with a NUL in its name, a blank line, and a directory with
a NUL and a stray byte in its name, with carriage returns and bells between them. -/
def mistakes : List Item :=
  (Utf8.encode "cd\r\nno\x00pe \r\n\t\ncd \x07gone\x00" ++ [0xFF, 0x0A]).map .byte

/-- A machine without any file, and streams that always work. -/
def bareMachine : World Machine := ⟨{}, {}, ⟨⟨⟨[]⟩, []⟩, [], [], true⟩⟩

theorem run_reports_mistakes :
    '\n' ∉ ({} : Settings).name.toList ∧ bareMachine.out.OneLineFaults ∧
      bareMachine.err.Reliable ∧ Machine.system.LaunchesProcesses ∧
      Machine.system.OneLineFaults ∧
      ((run Machine.system {} mistakes bareMachine).trace.written .err).splitOn Input.newline
        = ["kpsh: expected argument to \"cd\"",
            "kpsh: no\x00pe: nul byte found in provided data",
            "kpsh: gone\x00\uFFFD: file name contained an unexpected NUL byte",
            ""].map Utf8.encode := by
  have hname : '\n' ∉ ({} : Settings).name.toList := by decide
  have hout : bareMachine.out.OneLineFaults := ⟨Fault.oneLine_takesNothing, nofun⟩
  have herr : bareMachine.err.Reliable := Sink.reliable_default
  obtain ⟨-, -, hlines, -⟩ := run_reports Machine.system {} mistakes bareMachine hname hout herr
    Machine.launchesProcesses Machine.oneLineFaults
  have hfailed : failures (answers Machine.system {} mistakes bareMachine)
      = [.missingArgument "cd", .spawn "no\x00pe" Machine.nulInArguments,
          .changeDirectory "gone\x00\uFFFD" Standing.nulInPath] := by
    decide +kernel
  refine ⟨hname, hout, herr, Machine.launchesProcesses, Machine.oneLineFaults, ?_⟩
  rw [hlines, hfailed]
  decide +kernel

end Session
end CommandShell
