import CommandShell.Proofs.Buffering
import CommandShell.Proofs.Compositional
import CommandShell.Rehearsal

/-!
# What a successful session leaves unflushed

A session succeeds in two ways, and they differ in their last flush. The command that ends a
session is followed by a flush of standard output, like every other command, and the greeting
before it has flushed both streams, so nothing is left. At the end of the input the last thing
written is a newline, and no flush comes after it. `Ended` says this once for both ways, and a run
ends in one of them (`run_ended`); so a session that succeeds has flushed everything exactly if a
command ended it, and otherwise all but that newline (`unflushed_of_run_ok`).
-/

namespace CommandShell

namespace Shell

/-- A command that ends the session does nothing else, and was found as `exit`. -/
theorem Told.of_stop {settings : Settings} {args : List String} {events : Trace}
    (h : Told settings args events (.ok .stop)) :
    ∃ name rest, args = name :: rest ∧ events = [.entered (name :: rest)] ∧
      settings.registry.lookup name = some .exit := by
  cases h with
  | done course =>
    cases course with
    | exit found => exact ⟨_, _, rfl, rfl, found⟩

end Shell

namespace Session

open Input (Item)

variable {σ : Type} {sys : System σ} {settings : Settings} {input : List Item} {w : World σ}

/-- How a session that succeeds has ended, and which of its bytes were flushed by then. -/
inductive Ended (settings : Settings) : Trace → Prop
  | byExit {before : Trace} {name : String} {args : List String}
    (found : settings.registry.lookup name = some .exit)
    (settled : ∀ stream,
      Trace.Settled stream (before ++ [.entered (name :: args), .flushed .out none])) :
    Ended settings (before ++ [.entered (name :: args), .flushed .out none])
  | atEndOfInput {before : Trace} {items : List Item}
    (met : (Input.readLine items).reading = .endOfInput)
    (settled : ∀ stream, Trace.Settled stream before) :
    Ended settings (before ++ [.read items, .wrote .out (Utf8.encode "\n")])

/-! ## The last turn -/

/-- A greeting leaves both streams settled, so a command that ends the session does so too. -/
theorem ended_obey {line : String} {w' : World σ} (before : Trace) (items : List Item)
    (h : (obey sys settings line w').answer = .ok .stop) :
    Ended settings
      (before ++ (greeting settings ++ .read items :: (obey sys settings line w').trace)) := by
  rcases obey_cases sys settings line w' with
    ⟨events, f, w₂, -, hobey⟩ | ⟨events, flow, htold, ⟨f, w₂, hobey⟩ | ⟨w₂, hobey⟩⟩
  · rw [hobey] at h
    cases h
  · rw [hobey] at h
    cases h
  · rw [hobey] at h ⊢
    obtain rfl : flow = .stop := Except.ok.inj h
    obtain ⟨name, rest, -, rfl, hfound⟩ := htold.of_stop
    have hsplit : before ++ (greeting settings
          ++ .read items :: ([.entered (name :: rest)] ++ [.flushed .out none]))
        = (before ++ greeting settings ++ [.read items])
          ++ [.entered (name :: rest), .flushed .out none] := by
      simp
    rw [hsplit]
    apply Ended.byExit hfound
    intro stream
    have hgreeted := settled_greeting settings before stream
    have hread : Trace.Settled stream (before ++ greeting settings ++ [.read items]) :=
      hgreeted.concat (by simp)
    exact hread.append (by simp)

/-- The farewell is not flushed; what comes before it is. -/
theorem ended_farewell {w' : World σ} (before : Trace) {items : List Item}
    (hmet : (Input.readLine items).reading = .endOfInput)
    (h : (afterRead sys settings .endOfInput w').answer = .ok .stop) :
    Ended settings (before ++ (greeting settings
      ++ .read items :: (afterRead sys settings .endOfInput w').trace)) := by
  rw [afterRead] at h ⊢
  rcases farewell_cases w' with ⟨w₂, hlast⟩ | ⟨taken, f, w₂, -, hlast⟩
  · rw [Action.bind_of_eq_ok hlast, ← List.append_assoc]
    exact .atEndOfInput hmet fun stream => settled_greeting settings before stream
  · rw [Action.bind_of_eq_error hlast] at h
    cases h

theorem Verdict.ofFlow_eq_ended {answer : Except SessionError Flow}
    (h : Verdict.ofFlow answer = .ended) : answer = .ok .stop := by
  cases answer with
  | error e => cases h
  | ok flow =>
    cases flow with
    | goOn => cases h
    | stop => rfl

/-- A turn that ends the session well ends it in one of the two ways. -/
theorem turn_ended (h : (turn sys settings input w).verdict = .ended) (before : Trace) :
    Ended settings (before ++ (turn sys settings input w).trace) := by
  rcases turn_cases sys settings input w with ⟨events, e, w', -, hturn⟩ | ⟨w', hturn⟩
  · rw [hturn] at h
    cases h
  · rw [hturn] at h ⊢
    -- the items that were read say what was read
    have hanswer := Verdict.ofFlow_eq_ended h
    have hitems := Input.reading_readLine_taken input
    show Ended settings (before ++ (greeting settings
      ++ .read (Input.readLine input).taken
        :: (afterRead sys settings (Input.readLine input).reading w').trace))
    cases hreading : (Input.readLine input).reading with
    | line text =>
      rw [hreading] at hanswer
      exact ended_obey before _ hanswer
    | endOfInput =>
      rw [hreading] at hanswer hitems
      exact ended_farewell before hitems hanswer
    | fault f =>
      rw [hreading] at hanswer
      cases hanswer

/-- Nothing flushes the newline of a farewell. -/
theorem not_settled_farewell (before : Trace) (items : List Item) :
    ¬Trace.Settled .out (before ++ [.read items, .wrote .out (Utf8.encode "\n")]) := by
  have hnewline : Utf8.encode "\n" ≠ [] := by decide
  rw [List.append_cons]
  exact Trace.not_settled_wrote hnewline

/-! ## The session -/

/-- A session that succeeds ends in one of the two ways, whatever was written before it. -/
theorem run_ended (h : (run sys settings input w).answer = .ok ()) (before : Trace) :
    Ended settings (before ++ (run sys settings input w).trace) := by
  induction input, w using run_induction sys settings generalizing before with
  | last input w hlast =>
    cases hverdict : (turn sys settings input w).verdict with
    | goOn => exact absurd hverdict hlast
    | ended =>
      rw [run_of_ended hverdict]
      exact turn_ended hverdict before
    | failed e =>
      rw [run_of_failed hverdict] at h
      cases h
  | next input w hgo ih =>
    rw [run_of_goOn hgo] at h ⊢
    rw [Ending.after, ← List.append_assoc]
    exact ih h _

/-- When a session has succeeded, every byte on standard error was followed by a flush of it that
worked. The same is true of standard output exactly if a command has ended the session. Otherwise
the session has met the end of its input, and everything but the newline that it then wrote was
flushed. -/
theorem unflushed_of_run_ok (sys : System σ) (settings : Settings) (input : List Item)
    (w : World σ) (h : (run sys settings input w).answer = .ok ()) :
    let trace := (run sys settings input w).trace
    Trace.Settled .err trace ∧
      (Trace.Settled .out trace ↔ ∃ before name args,
        trace = before ++ [.entered (name :: args), .flushed .out none] ∧
          settings.registry.lookup name = some .exit) ∧
      (¬Trace.Settled .out trace → ∃ before items,
        trace = before ++ [.read items, .wrote .out (Utf8.encode "\n")] ∧
          (Input.readLine items).reading = .endOfInput ∧ Trace.Settled .out before) := by
  intro trace
  have hended : Ended settings trace := run_ended h []
  generalize trace = events at hended
  cases hended with
  | @byExit before name args found settled =>
    refine ⟨settled .err, ⟨fun _ => ?_, fun _ => settled .out⟩, fun hnot => ?_⟩
    · exact ⟨before, name, args, rfl, found⟩
    · exact absurd (settled .out) hnot
  | @atEndOfInput before items met settled =>
    have hpending := not_settled_farewell before items
    refine ⟨(settled .err).append (by simp), ⟨fun hout => absurd hout hpending, ?_⟩, fun _ => ?_⟩
    · -- the newline is no flush
      rintro ⟨before', name, args, htrace, -⟩
      have hlast := congrArg List.getLast? htrace
      simp at hlast
    · exact ⟨before, items, rfl, met, settled .out⟩

/-- A help text, and the command that ends the session. -/
def helpThenExit : List Item := (Utf8.encode "help\nexit\n").map .byte

theorem unflushed_of_run_ok_exit :
    let ending := run Rehearsal.system {} helpThenExit ⟨{}, {}, (⟨⟨[]⟩, []⟩, [])⟩
    ending.answer = .ok () ∧ ∀ stream, Trace.Settled stream ending.trace := by
  intro ending
  have hok : ending.answer = .ok () := by decide +kernel
  have hlast : ending.trace = ending.trace.dropLast.dropLast
      ++ [.entered ["exit"], .flushed .out none] := by decide +kernel
  obtain ⟨herr, hout, -⟩ := unflushed_of_run_ok Rehearsal.system {} helpThenExit
    ⟨{}, {}, (⟨⟨[]⟩, []⟩, [])⟩ hok
  refine ⟨hok, fun stream => ?_⟩
  cases stream with
  | out => exact hout.2 ⟨_, "exit", [], hlast, rfl⟩
  | err => exact herr

/-- A session that meets the end of its input at once succeeds, although its newline was not
flushed and the next flush would fail. -/
theorem run_ok_with_unflushed_newline :
    let ending := run Rehearsal.system {} [] brittleWorld
    ending.answer = .ok () ∧
      ending.trace = greeting {} ++ [.read [], .wrote .out (Utf8.encode "\n")] ∧
      ending.world.out.flush.1 = some (.classified .brokenPipe) ∧
      ¬Trace.Settled .out ending.trace := by
  intro ending
  have htrace : ending.trace
      = greeting {} ++ [.read [], .wrote .out (Utf8.encode "\n")] := by decide +kernel
  refine ⟨by decide +kernel, htrace, by decide +kernel, ?_⟩
  rw [htrace]
  exact not_settled_farewell _ _

end Session
end CommandShell
