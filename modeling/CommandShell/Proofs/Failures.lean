import CommandShell.Proofs.Answers
import CommandShell.Proofs.FailedCommands
import CommandShell.Proofs.Histories

/-!
# Failures that end a session and failures that are reported

The same fault of standard output is the end of a session in its prompt, after a command and in
its last newline, and only a failure of the command inside `help` and before a launch. Which it
is depends on what came before: `Place` follows the events of a session as far as that is needed,
and `Place.fatal?` gives the error chain of those that the session does not survive. A session
has such an event exactly if it answers with an error, and it is its last. A command that fails
(`Shell.Fails`) is reported once, and the session goes on (`failures_separated`).
-/

namespace CommandShell

open CommandShell.Action (lineWritten)

namespace Session

/-! ## Places -/

/-- Where a session stands among its events. -/
inductive Place where
  /-- Between a prompt and the read after it. -/
  | prompt
  /-- Outside of a command. -/
  | loop
  /-- In a command that has to flush standard output before it launches a program. -/
  | launch
  /-- In any other command, or behind that flush. -/
  | command

/-- Where an event leads. -/
def Place.next (settings : Settings) : Place → Event → Place
  | _, .prompting => .prompt
  | _, .read _ => .loop
  | _, .entered args =>
    match args.head?.bind settings.registry.lookup with
    | some _ => .command
    | none => .launch
  | .launch, .flushed .out _ => .command
  | place, _ => place

/-- Where a session stands after some events. -/
def place (settings : Settings) (before : Trace) : Place :=
  before.foldl (Place.next settings) .loop

/-- The error chain of an event in which an operation of the session itself fails. -/
def Place.fatal? : Place → Event → Option (List String)
  | .prompt, .refused .out f => some ["Unable to write the prompt", f.text]
  | .prompt, .flushed .out (some f) => some ["Unable to write the prompt", f.text]
  | .loop, .refused .out f => some [f.text]
  | .loop, .flushed .out (some f) => some [f.text]
  | .command, .flushed .out (some f) => some [f.text]
  | _, .refused .err f => some [f.text]
  | _, .flushed .err (some f) => some [f.text]
  | _, .read items =>
    (Input.failure? items).map fun f => ["Io Error <" ++ f.text ++ ">", f.text]
  | _, _ => none

/-- Where some events lead, if the session survives them all. -/
def Place.after? (settings : Settings) : Place → Trace → Option Place
  | p, [] => some p
  | p, e :: rest =>
    match p.fatal? e with
    | none => Place.after? settings (p.next settings e) rest
    | some _ => none

theorem Place.after?_cons {settings : Settings} {p : Place} {e : Event} (rest : Trace)
    (h : p.fatal? e = none) :
    Place.after? settings p (e :: rest) = Place.after? settings (p.next settings e) rest := by
  rw [Place.after?, h]

theorem Place.after?_append (settings : Settings) (p : Place) (first second : Trace) :
    Place.after? settings p (first ++ second)
      = (Place.after? settings p first).bind fun q => Place.after? settings q second := by
  induction first generalizing p with
  | nil => rfl
  | cons e rest ih =>
    rw [List.cons_append, Place.after?, Place.after?]
    cases p.fatal? e with
    | none => exact ih _
    | some chain => rfl

/-- Survived events lead to the place after them, whether or not they are survived. -/
theorem Place.foldl_of_after? {settings : Settings} {p q : Place} {events : Trace}
    (h : Place.after? settings p events = some q) :
    events.foldl (Place.next settings) p = q := by
  induction events generalizing p with
  | nil => exact Option.some.inj h
  | cons e rest ih =>
    rw [Place.after?] at h
    cases hf : p.fatal? e with
    | none =>
      rw [hf] at h
      exact ih h
    | some chain =>
      rw [hf] at h
      cases h

/-- Among survived events there is none in which an operation of the session fails. -/
theorem fatal?_of_after? {settings : Settings} {q : Place} {before after : Trace} {e : Event}
    (h : Place.after? settings .loop (before ++ e :: after) = some q) :
    (place settings before).fatal? e = none := by
  rw [Place.after?_append] at h
  obtain ⟨p, hp, hrest⟩ := Option.bind_eq_some_iff.1 h
  rw [place, Place.foldl_of_after? hp]
  cases hf : p.fatal? e with
  | none => rfl
  | some chain =>
    rw [Place.after?, hf] at hrest
    cases hrest

/-! ## Commands -/

/-- Outside of a command, and in one that has not to flush before a launch, a flush of standard
output is one of the session. -/
def Place.Own (p : Place) : Prop := p = .loop ∨ p = .command

theorem Place.Own.fatal?_flushed {p : Place} (h : p.Own) (f : Fault) :
    p.fatal? (.flushed .out (some f)) = some (SessionError.stream f).chain := by
  rcases h with rfl | rfl <;> rfl

theorem Place.Own.after?_flushed {p : Place} (h : p.Own) (settings : Settings) :
    Place.after? settings p [.flushed .out none] = some p := by
  rcases h with rfl | rfl <;> rfl

/-- Writing lines is survived everywhere, and leads nowhere. -/
theorem Place.after?_lines (settings : Settings) (p : Place) (stream : Stream)
    (lines : List String) :
    Place.after? settings p (lines.map (lineWritten stream)) = some p := by
  induction lines with
  | nil => rfl
  | cons line rest ih => cases p <;> exact ih

theorem Place.next_entered {settings : Settings} {name : String} {args : List String}
    {builtin : Builtin} (h : settings.registry.lookup name = some builtin) (p : Place) :
    p.next settings (.entered (name :: args)) = .command := by
  cases p <;> simp [Place.next, h]

theorem Place.next_entered_launch {settings : Settings} {name : String} {args : List String}
    (h : settings.registry.lookup name = none) (p : Place) :
    p.next settings (.entered (name :: args)) = .launch := by
  cases p <;> simp [Place.next, h]

/-- Whatever a command does, the session survives it, and stands where flushes are its own. -/
theorem survived_course {settings : Settings} {args : List String} {events : Trace}
    {answer : Except CommandError Flow} (h : Shell.Course settings args events answer) :
    ∃ q : Place, q.Own ∧ Place.after? settings .loop events = some q := by
  cases h with
  | blank => exact ⟨.loop, Or.inl rfl, rfl⟩
  | help found =>
    refine ⟨.command, Or.inr rfl, ?_⟩
    rw [Place.after?_cons _ rfl, Place.next_entered found, Place.after?_lines]
  | helpCut found =>
    refine ⟨.command, Or.inr rfl, ?_⟩
    rw [Place.after?_cons _ rfl, Place.next_entered found, Place.after?_append,
      Place.after?_lines]
    rfl
  | exit found | cd found | cdFailed found =>
    refine ⟨.command, Or.inr rfl, ?_⟩
    rw [Place.after?_cons _ rfl, Place.next_entered found]
    rfl
  | unflushed missing | launched missing | launchFailed missing =>
    refine ⟨.command, Or.inr rfl, ?_⟩
    rw [Place.after?_cons _ rfl, Place.next_entered_launch missing]
    rfl

/-- The session survives a command whose failure, if it fails, is reported. -/
theorem survived_told {settings : Settings} {args : List String} {events : Trace} {flow : Flow}
    (h : Shell.Told settings args events (.ok flow)) :
    ∃ q : Place, q.Own ∧ Place.after? settings .loop events = some q := by
  cases h with
  | done course => exact survived_course course
  | reported course =>
    obtain ⟨q, hq, hafter⟩ := survived_course course
    refine ⟨q, hq, ?_⟩
    rw [Place.after?_append, hafter]
    exact Place.after?_lines settings q .err [_]

/-! ## Turns -/

/-- The events of a stretch are survived; or there is an error, and they are survived but for the
last one, which is its reason. -/
def Decided (settings : Settings) (p : Place) (events : Trace) : Option SessionError → Prop
  | none => ∃ q, Place.after? settings p events = some q
  | some e => ∃ init last q, events = init ++ [last] ∧
      Place.after? settings p init = some q ∧ q.fatal? last = some e.chain

/-- Survived events before a stretch change nothing but the place where it starts. -/
theorem Decided.append {settings : Settings} {p q : Place} {first second : Trace}
    {e? : Option SessionError} (hfirst : Place.after? settings p first = some q)
    (hsecond : Decided settings q second e?) : Decided settings p (first ++ second) e? := by
  cases e? with
  | none =>
    obtain ⟨r, hr⟩ := hsecond
    exact ⟨r, by rw [Place.after?_append, hfirst]; exact hr⟩
  | some e =>
    obtain ⟨init, last, r, rfl, hr, hlast⟩ := hsecond
    refine ⟨first ++ init, last, r, (List.append_assoc _ _ _).symm, ?_, hlast⟩
    rw [Place.after?_append, hfirst]
    exact hr

/-- An event that the session does not survive. -/
theorem decided_last {settings : Settings} {p : Place} {last : Event} {e : SessionError}
    (h : p.fatal? last = some e.chain) : Decided settings p [last] (some e) :=
  ⟨[], last, p, rfl, rfl, h⟩

/-- A report that cannot be written ends the session. -/
theorem decided_told {settings : Settings} {args : List String} {events : Trace} {f : Fault}
    (h : Shell.Told settings args events (.error f)) :
    Decided settings .loop events (some (.stream f)) := by
  cases h with
  | unreported course =>
    obtain ⟨q, -, hafter⟩ := survived_course course
    refine Decided.append hafter ⟨[.wrote .err _], .refused .err f, q, rfl, ?_, ?_⟩
    · cases q <;> rfl
    · cases q <;> rfl

theorem after?_greeting (settings : Settings) (p : Place) :
    Place.after? settings p (greeting settings) = some .prompt := by
  cases p <;> rfl

/-- After a greeting and a read without a fault, the session stands outside of a command. -/
theorem decided_greeting {settings : Settings} {items : List Input.Item} {events : Trace}
    {e? : Option SessionError} (p : Place) (sound : Input.failure? items = none)
    (h : Decided settings .loop events e?) :
    Decided settings p (greeting settings ++ .read items :: events) e? := by
  have hread : Place.after? settings .prompt [.read items] = some .loop := by
    rw [Place.after?_cons _ (by rw [Place.fatal?, sound]; rfl)]
    rfl
  exact Decided.append (after?_greeting settings p) (Decided.append hread h)

/-- The error of a turn that fails. -/
def Verdict.error? : Verdict → Option SessionError
  | .failed e => some e
  | _ => none

theorem Course.decided {settings : Settings} {events : Trace} {verdict : Verdict}
    (h : Course settings events verdict) (p : Place) :
    Decided settings p events verdict.error? := by
  -- in each course that fails, its last event is the reason
  cases h with
  | ungreeted course =>
    cases course with
    | @promptCut taken f _ =>
      exact ⟨[.prompting, .wrote .out taken], .refused .out f, .prompt, rfl,
        by cases p <;> rfl, rfl⟩
    | @promptUnflushed f =>
      exact ⟨[.prompting, .wrote .out (Utf8.encode settings.prompt)], .flushed .out (some f),
        .prompt, rfl, by cases p <;> rfl, rfl⟩
    | @reportsUnflushed f =>
      exact ⟨[.prompting, .wrote .out (Utf8.encode settings.prompt), .flushed .out none],
        .flushed .err (some f), .prompt, rfl, by cases p <;> rfl, rfl⟩
  | @unread items f failure =>
    refine Decided.append (after?_greeting settings p) (decided_last ?_)
    rw [Place.fatal?, failure]
    rfl
  | farewell sound => exact decided_greeting p sound ⟨.loop, rfl⟩
  | @farewellCut items taken f sound =>
    exact decided_greeting p sound ⟨[.wrote .out taken], .refused .out f, .loop, rfl, rfl, rfl⟩
  | untold sound told => exact decided_greeting p sound (decided_told told)
  | @unflushed _ _ _ _ f sound told =>
    obtain ⟨q, hq, hafter⟩ := survived_told told
    exact decided_greeting p sound
      (Decided.append hafter (decided_last (hq.fatal?_flushed f)))
  | @obeyed _ _ _ flow sound told =>
    obtain ⟨q, hq, hafter⟩ := survived_told told
    have hflush : Decided settings .loop _ none :=
      Decided.append hafter ⟨q, hq.after?_flushed settings⟩
    cases flow <;> exact decided_greeting p sound hflush

/-! ## Sessions -/

variable {σ : Type}

/-- The error of an answer. -/
def error? : Except SessionError Unit → Option SessionError
  | .ok () => none
  | .error e => some e

/-- A session survives its events up to the one that is the reason of its error. -/
theorem run_decided (sys : System σ) (settings : Settings) (input : List Input.Item)
    (w : World σ) (p : Place) :
    Decided settings p (run sys settings input w).trace
      (error? (run sys settings input w).answer) := by
  induction input, w using run_induction sys settings generalizing p with
  | last input w hgo =>
    have hturn := (turn_course sys settings input w).decided p
    cases hv : (turn sys settings input w).verdict with
    | goOn => exact absurd hv hgo
    | ended =>
      rw [hv] at hturn
      rw [run_of_ended hv]
      exact hturn
    | failed e =>
      rw [hv] at hturn
      rw [run_of_failed hv]
      exact hturn
  | next input w hgo ih =>
    have hturn := (turn_course sys settings input w).decided p
    rw [hgo] at hturn
    obtain ⟨q, hq⟩ := hturn
    rw [run_of_goOn hgo]
    exact Decided.append hq (ih q)

/-- The reason of an error is the last event, and no event that is survived is one. -/
theorem Decided.last_of_fatal {settings : Settings} {before after : Trace} {e : Event}
    {answer : Except SessionError Unit} {chain : List String} {events : Trace}
    (h : Decided settings .loop events (error? answer)) (heq : events = before ++ e :: after)
    (hfatal : (place settings before).fatal? e = some chain) :
    after = [] ∧ ∃ error, answer = .error error ∧ error.chain = chain := by
  rw [heq] at h
  cases answer with
  | ok u =>
    -- a session without an error would have survived the event
    obtain ⟨q, hq⟩ := h
    rw [fatal?_of_after? hq] at hfatal
    cases hfatal
  | error error =>
    obtain ⟨init, last, q, hsplit, hq, hlast⟩ := h
    rcases List.eq_nil_or_concat after with rfl | ⟨more, last', rfl⟩
    · obtain ⟨hinit, hcons⟩ := List.append_inj' hsplit rfl
      have hplace : place settings init = q := Place.foldl_of_after? hq
      rw [hinit, (List.cons.inj hcons).1, hplace, hlast] at hfatal
      exact ⟨rfl, error, rfl, Option.some.inj hfatal⟩
    · -- the event would be one of those that are survived
      rw [List.concat_eq_append, ← List.cons_append, ← List.append_assoc] at hsplit
      obtain ⟨hinit, -⟩ := List.append_inj' hsplit rfl
      rw [← hinit] at hq
      rw [fatal?_of_after? hq] at hfatal
      cases hfatal

/-- No command writes to standard error. -/
theorem written_err_course {settings : Settings} {args : List String} {events : Trace}
    {answer : Except CommandError Flow} (h : Shell.Course settings args events answer) :
    events.written .err = [] := by
  have hlines : ∀ lines : List String,
      Trace.written .err (lines.map (lineWritten .out)) = [] := by
    intro lines
    simp [Trace.written, lineWritten, List.flatMap_eq_nil_iff]
  cases h with
  | help =>
    rw [Trace.written, List.flatMap_cons, ← Trace.written, hlines]
    rfl
  | helpCut =>
    rw [Trace.written, List.flatMap_cons, List.flatMap_append, ← Trace.written, hlines]
    rfl
  | _ => rfl

/-- After a command that fails comes its report, and nothing else. -/
theorem execute_of_dispatch_error {sys : System σ} {settings : Settings} {args : List String}
    {w w₁ w₂ : World σ} {events reports : Trace} {e : CommandError} {answer : Except Fault Unit}
    (hdone : Shell.dispatch sys settings args w = ⟨events, .error e, w₁⟩)
    (htold : Action.writeLine .err (Shell.report settings e) w₁ = ⟨reports, answer, w₂⟩) :
    Shell.execute sys settings args w
      = ⟨events ++ reports, answer.map fun _ => .goOn, w₂⟩ := by
  rw [Shell.execute, Action.recover_of_error (e := e) (by rw [hdone]), hdone]
  simp only [Action.bind_eq, Action.pure_eq]
  cases answer with
  | ok u =>
    rw [Action.bind_of_eq_ok htold]
    simp only [Action.pure, List.append_nil]
    rfl
  | error f =>
    rw [Action.bind_of_eq_error htold]
    rfl

/-- A command that fails is reported, and standard output is flushed after the report. -/
theorem obey_of_dispatch_error {sys : System σ} {settings : Settings} {line : String}
    {w w₁ w₂ w₃ : World σ} {events : Trace} {e : CommandError} {fault? : Option Fault}
    {answer : Except Fault Unit}
    (hdone : Shell.dispatch sys settings (words line) w = ⟨events, .error e, w₁⟩)
    (htold : Action.writeLine .err (Shell.report settings e) w₁
      = ⟨[lineWritten .err (Shell.report settings e)], .ok (), w₂⟩)
    (hflushed : Action.flush .out w₂ = ⟨[.flushed .out fault?], answer, w₃⟩) :
    obey sys settings line w
      = ⟨events ++ [lineWritten .err (Shell.report settings e), .flushed .out fault?],
          (answer.mapError .stream).map fun _ => .goOn, w₃⟩ := by
  have hexec := execute_of_dispatch_error hdone htold
  rw [obey, Action.bind_eq, Action.bind_of_eq_ok (Action.mapError_of_eq_ok hexec)]
  simp only [Action.bind_eq, Action.pure_eq]
  cases answer with
  | ok u =>
    rw [Action.bind_of_eq_ok (Action.mapError_of_eq_ok hflushed)]
    simp only [List.append_assoc]
    rfl
  | error f =>
    rw [Action.bind_of_eq_error (Action.mapError_of_eq_error hflushed)]
    simp only [List.append_assoc]
    rfl

/-- A turn whose command fails and is reported goes on exactly if the flush after the report
works. -/
theorem turn_of_dispatch_error {sys : System σ} {settings : Settings} {rest : List Input.Item}
    {w w₁ w₂ w₃ : World σ} {line : String} {events : Trace} {e : CommandError}
    {fault? : Option Fault} {answer : Except Fault Unit}
    (hask : (ask settings rest w).request = .command line)
    (hdone : Shell.dispatch sys settings (words line) (ask settings rest w).world
      = ⟨events, .error e, w₁⟩)
    (htold : Action.writeLine .err (Shell.report settings e) w₁
      = ⟨[lineWritten .err (Shell.report settings e)], .ok (), w₂⟩)
    (hflushed : Action.flush .out w₂ = ⟨[.flushed .out fault?], answer, w₃⟩) :
    turn sys settings rest w =
      ⟨(ask settings rest w).trace
          ++ (events ++ [lineWritten .err (Shell.report settings e), .flushed .out fault?]),
        .ofFlow ((answer.mapError .stream).map fun _ => .goOn), (ask settings rest w).unread,
        w₃⟩ := by
  rw [turn_of_command sys hask, obey_of_dispatch_error hdone htold hflushed]

/-- A turn whose command fails and whose report is cut off is the last one. -/
theorem turn_of_untold {sys : System σ} {settings : Settings} {rest : List Input.Item}
    {w w₁ w₂ : World σ} {line : String} {events : Trace} {e : CommandError}
    {taken : List UInt8} {f : Fault}
    (hask : (ask settings rest w).request = .command line)
    (hdone : Shell.dispatch sys settings (words line) (ask settings rest w).world
      = ⟨events, .error e, w₁⟩)
    (htold : Action.writeLine .err (Shell.report settings e) w₁
      = ⟨[.wrote .err taken, .refused .err f], .error f, w₂⟩) :
    turn sys settings rest w =
      ⟨(ask settings rest w).trace ++ (events ++ [.wrote .err taken, .refused .err f]),
        .failed (.stream f), (ask settings rest w).unread, w₂⟩ := by
  have hexec := execute_of_dispatch_error hdone htold
  have hobey : obey sys settings line (ask settings rest w).world = _ :=
    Action.bind_of_eq_error (Action.mapError_of_eq_error hexec)
  rw [turn_of_command sys hask, hobey]
  rfl

/-- The events of a session are what its streams and its input answer. An event in which an
operation of the session itself fails is its last one, and gives the chain of the error with which
it ends; and a session that ends with an error has such an event. The commands that are run are
those of the lines that were read without a fault. A command fails exactly for the reasons of
`Shell.Fails`, and does not end the session: it writes nothing to standard error, and if its report
is taken, this is exactly one line, and if standard output can be flushed after it, the session goes
on with the next turn. Only these two operations, which are the session's own, may end it. -/
theorem failures_separated (sys : System σ) (settings : Settings) (input : List Input.Item)
    (w : World σ) :
    let ending := run sys settings input w
    (∀ stream, Trace.Answers stream (w.sink stream) ending.trace (ending.world.sink stream)) ∧
    ending.trace.itemsRead ++ ending.unread = input ∧
    (∀ before e after chain, ending.trace = before ++ e :: after →
      (place settings before).fatal? e = some chain →
      after = [] ∧ ∃ error, ending.answer = .error error ∧ error.chain = chain) ∧
    (∀ error, ending.answer = .error error →
      ∃ before last, ending.trace = before ++ [last] ∧
        (place settings before).fatal? last = some error.chain) ∧
    ending.trace.commands = proper (ending.trace.lines.map words) ∧
    (∀ args (w' : World σ) e,
      (Shell.dispatch sys settings args w').answer = .error e ↔
        Shell.Fails sys settings w' args e) ∧
    ∀ before rest w' line e,
      Reaches sys settings input w before rest w' →
      (ask settings rest w').request = .command line →
      let asked := ask settings rest w'
      let done := Shell.dispatch sys settings (words line) asked.world
      Shell.Fails sys settings asked.world (words line) e →
      let text := settings.name ++ ": " ++ e.message
      let told := Action.writeLine .err text done.world
      let flushed := Action.flush .out told.world
      let events := before ++ asked.trace ++ done.trace
      let report := Event.wrote .err (Utf8.encode (text ++ "\n"))
      done.answer = .error e ∧ done.trace.written .err = [] ∧
      (told.answer = .ok () →
        (flushed.answer = .ok () →
          ending = (run sys settings asked.unread flushed.world).after
            (events ++ [report, .flushed .out none])) ∧
        ∀ f, flushed.answer = .error f →
          ending = ⟨events ++ [report, .flushed .out (some f)], .error (.stream f), asked.unread,
            flushed.world⟩) ∧
      ∀ f, told.answer = .error f →
        ∃ taken, ending = ⟨events ++ [.wrote .err taken, .refused .err f], .error (.stream f),
          asked.unread, told.world⟩ := by
  intro ending
  have hrun : Decided settings .loop ending.trace (error? ending.answer) :=
    run_decided sys settings input w .loop
  refine ⟨run_answers sys settings input w, run_itemsRead sys settings input w, ?_, ?_,
    run_commands sys settings input w, fun _ _ _ => Shell.dispatch_error_iff, ?_⟩
  · intro before e after chain heq hfatal
    exact hrun.last_of_fatal heq hfatal
  · intro error ha
    rw [ha] at hrun
    obtain ⟨init, last, q, hsplit, hq, hlast⟩ := hrun
    have hplace : place settings init = q := Place.foldl_of_after? hq
    exact ⟨init, last, hsplit, by rw [hplace]; exact hlast⟩
  · intro before rest w' line e hreach hask asked done hfails text told flushed events report
    have hdone : done.answer = .error e := Shell.dispatch_error_iff.2 hfails
    have hcourse := Shell.dispatch_course sys settings (words line) asked.world
    have hdispatch : Shell.dispatch sys settings (words line) (ask settings rest w').world
        = ⟨done.trace, .error e, done.world⟩ := by
      rw [← hdone]
    have hevents : ∀ last : Trace,
        events ++ last = before ++ (asked.trace ++ (done.trace ++ last)) := by
      intro last
      simp only [events, List.append_assoc]
    refine ⟨hdone, written_err_course hcourse,
      fun htold => ⟨fun hflushed => ?_, fun f hflushed => ?_⟩, fun f htold => ?_⟩
    · rw [hevents]
      exact hreach.run_of_turn_goOn (turn_of_dispatch_error hask hdispatch
        (Action.writeLine_of_ok htold) (Action.flush_of_ok hflushed))
    · rw [hevents]
      exact hreach.run_of_turn_failed (turn_of_dispatch_error hask hdispatch
        (Action.writeLine_of_ok htold) (Action.flush_of_error hflushed))
    · -- the report was cut off
      obtain ⟨taken, hcut⟩ := Action.writeLine_of_error htold
      refine ⟨taken, ?_⟩
      rw [hevents]
      exact hreach.run_of_turn_failed (turn_of_untold hask hdispatch hcut)

/-- A command for each reason to fail. -/
def mishaps : List Input.Item := (Utf8.encode "cd\ncd gone\x00\nmissing x\nls\nhelp\n").map .byte

/-- Standard output takes 40 bytes, and its ninth flush fails, which is the one before the launch of
`ls`. The launches of one program fail. -/
def clumsyWorld : World Rehearsal :=
  let ninth : Option (Nat × Fault) := some (9, .classified .brokenPipe)
  let rule : LaunchRule := ⟨"missing", .spawn "missing" .missing, false⟩
  ⟨{ room := some 40, failingFlush := ninth }, {}, (⟨⟨[]⟩, []⟩, [rule])⟩

/-- Every one of the commands fails and is reported, and after its report the session goes on. When
it cannot write its prompt any more, it ends. -/
theorem failures_separated_mishaps :
    let ending := run Rehearsal.system {} mishaps clumsyWorld
    (∀ command ∈ [("cd", .missingArgument "cd"), ("cd gone\x00", .changeDirectory "gone\x00" Standing.nulInPath),
        ("missing x", .spawn "missing" .missing), ("ls", .stream (.classified .brokenPipe)),
        ("help", .stream .takesNothing)],
      ∃ before rest w', Reaches Rehearsal.system {} mishaps clumsyWorld before rest w' ∧
        let asked := ask {} rest w'
        let done := Shell.dispatch Rehearsal.system {} (words command.1) asked.world
        asked.request = .command command.1 ∧ done.answer = .error command.2 ∧
          ∃ later : Ending Rehearsal, ending = later.after
            (before ++ asked.trace ++ done.trace ++
              [.wrote .err (Utf8.encode ("kpsh: " ++ CommandError.message command.2 ++ "\n")),
                .flushed .out none])) ∧
      ∃ error, ending.answer = .error error ∧
        error.chain = ["Unable to write the prompt", "failed to write whole buffer"] := by
  intro ending
  obtain ⟨-, -, hfatal, -, -, -, hreported⟩ :=
    failures_separated Rehearsal.system {} mishaps clumsyWorld
  have hlast : ending.trace = ending.trace.dropLast ++ [.refused .out .takesNothing] ∧
      (place {} ending.trace.dropLast).fatal? (.refused .out .takesNothing)
        = some ["Unable to write the prompt", "failed to write whole buffer"] := by decide +kernel
  obtain ⟨-, error, hanswer, hchain⟩ := hfatal _ _ _ _ hlast.1 hlast.2
  -- neither a report nor the flush after it has ended the session
  have hends : ∀ f, ending.answer ≠ .error (.stream f) := by
    intro f h
    rw [hanswer] at h
    cases h
    have hlength : 1 = 2 := congrArg List.length hchain
    omega
  have each : ∀ before rest w' line args e,
      Reaches Rehearsal.system {} mishaps clumsyWorld before rest w' →
      (ask {} rest w').request = .command line → words line = args →
      Shell.Fails Rehearsal.system {} (ask {} rest w').world args e →
      ∃ before rest w', Reaches Rehearsal.system {} mishaps clumsyWorld before rest w' ∧
        let asked := ask {} rest w'
        let done := Shell.dispatch Rehearsal.system {} (words line) asked.world
        asked.request = .command line ∧ done.answer = .error e ∧
          ∃ later : Ending Rehearsal, ending = later.after
            (before ++ asked.trace ++ done.trace ++
              [.wrote .err (Utf8.encode ("kpsh: " ++ CommandError.message e ++ "\n")),
                .flushed .out none]) := by
    rintro before rest w' line - e hreach hask rfl hfails
    obtain ⟨hdone, -, htaken, hcut⟩ := hreported before rest w' line e hreach hask hfails
    refine ⟨before, rest, w', hreach, hask, hdone, ?_⟩
    cases htold : (Action.writeLine .err ("kpsh: " ++ e.message)
      (Shell.dispatch Rehearsal.system {} (words line) (ask {} rest w').world).world).answer with
    | error f =>
      obtain ⟨taken, hending⟩ := hcut f htold
      exact absurd (congrArg Ending.answer hending) (hends f)
    | ok u =>
      cases hflushed : (Action.flush .out (Action.writeLine .err ("kpsh: " ++ e.message)
        (Shell.dispatch Rehearsal.system {} (words line) (ask {} rest w').world).world).world
          ).answer with
      | error f =>
        exact absurd (congrArg Ending.answer ((htaken htold).2 f hflushed)) (hends f)
      | ok u => exact ⟨_, (htaken htold).1 hflushed⟩
  let t₁ := turn Rehearsal.system {} mishaps clumsyWorld
  let t₂ := turn Rehearsal.system {} t₁.unread t₁.world
  let t₃ := turn Rehearsal.system {} t₂.unread t₂.world
  let t₄ := turn Rehearsal.system {} t₃.unread t₃.world
  have hgo : t₁.verdict = .goOn ∧ t₂.verdict = .goOn ∧ t₃.verdict = .goOn ∧
      t₄.verdict = .goOn := by decide +kernel
  have hask : (ask {} mishaps clumsyWorld).request = .command "cd" ∧
      (ask {} t₁.unread t₁.world).request = .command "cd gone\x00" ∧
      (ask {} t₂.unread t₂.world).request = .command "missing x" ∧
      (ask {} t₃.unread t₃.world).request = .command "ls" ∧
      (ask {} t₄.unread t₄.world).request = .command "help" := by decide +kernel
  have hrefused : ∀ s, Rehearsal.system.changeDirectory "gone\x00" s = .error Standing.nulInPath :=
    fun s => rfl
  have hworlds : (ask {} t₂.unread t₂.world).world.out.flush.1 = none ∧
      (Rehearsal.system.launch ["missing", "x"] (ask {} t₂.unread t₂.world).world.system).answer
        = .error (.spawn "missing" .missing) ∧
      (ask {} t₃.unread t₃.world).world.out.flush.1 = some (.classified .brokenPipe) ∧
      ((ask {} t₄.unread t₄.world).world.out.write
        (Input.written (Builtin.helpLines .standard))).fault? = some .takesNothing := by
    decide +kernel
  have hreach₁ : Reaches Rehearsal.system {} mishaps clumsyWorld _ t₁.unread t₁.world :=
    .later hgo.1 (.here _ _)
  have hreach₂ : Reaches Rehearsal.system {} mishaps clumsyWorld _ t₂.unread t₂.world :=
    .later hgo.1 (.later hgo.2.1 (.here _ _))
  have hreach₃ : Reaches Rehearsal.system {} mishaps clumsyWorld _ t₃.unread t₃.world :=
    .later hgo.1 (.later hgo.2.1 (.later hgo.2.2.1 (.here _ _)))
  have hreach₄ : Reaches Rehearsal.system {} mishaps clumsyWorld _ t₄.unread t₄.world :=
    .later hgo.1 (.later hgo.2.1 (.later hgo.2.2.1 (.later hgo.2.2.2 (.here _ _))))
  refine ⟨fun command hcommand => ?_, error, hanswer, hchain⟩
  simp only [List.mem_cons, List.not_mem_nil, or_false] at hcommand
  rcases hcommand with rfl | rfl | rfl | rfl | rfl
  · exact each _ _ _ _ ["cd"] _ (.here _ _) hask.1 (by decide +kernel)
      (.cdNowhere (by decide))
  · exact each _ _ _ _ ["cd", "gone\x00"] _ hreach₁ hask.2.1 (by decide +kernel)
      (.cdRefused (by decide) (hrefused _))
  · exact each _ _ _ _ ["missing", "x"] _ hreach₂ hask.2.2.1 (by decide +kernel)
      (.launchFailed (by decide) hworlds.1 hworlds.2.1)
  · exact each _ _ _ _ ["ls"] _ hreach₃ hask.2.2.2.1 (by decide +kernel)
      (.unflushed (by decide) hworlds.2.2.1)
  · exact each _ _ _ _ ["help"] _ hreach₄ hask.2.2.2.2 (by decide +kernel)
      (.helpCut (by decide) hworlds.2.2.2)

end Session
end CommandShell
