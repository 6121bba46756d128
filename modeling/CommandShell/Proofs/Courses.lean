import CommandShell.Proofs.Actions
import CommandShell.Proofs.Runs

/-!
# The courses of commands and turns

Everything that a command or a turn can do, said once: the events it leaves, and how it ends. Every
fault of a stream is a constructor of its own. `dispatch_course` and `turn_course` tie the
relations to the functions that run, and properties of the events of a session are proved by
cases on them.
-/

namespace CommandShell

open CommandShell.Action (lineWritten)

variable {σ : Type}

namespace Shell

/-! ## Commands -/

/-- The course of a command with some arguments: its events and its answer. -/
inductive Course (settings : Settings) : List String → Trace → Except CommandError Flow → Prop
  | blank : Course settings [] [] (.ok .goOn)
  | exit {name : String} {args : List String}
    (found : settings.registry.lookup name = some .exit) :
    Course settings (name :: args) [.entered (name :: args)] (.ok .stop)
  | cd {name : String} {args : List String}
    (found : settings.registry.lookup name = some .cd) :
    Course settings (name :: args) [.entered (name :: args)] (.ok .goOn)
  | cdFailed {name : String} {args : List String} {e : CommandError}
    (found : settings.registry.lookup name = some .cd) :
    Course settings (name :: args) [.entered (name :: args)] (.error e)
  | help {name : String} {args : List String}
    (found : settings.registry.lookup name = some .help) :
    Course settings (name :: args)
      (.entered (name :: args) :: (Builtin.helpLines settings.registry).map (lineWritten .out))
      (.ok .goOn)
  | helpCut {name : String} {args done todo : List String} {line : String}
    {taken : List UInt8} {f : Fault}
    (found : settings.registry.lookup name = some .help)
    (lines : Builtin.helpLines settings.registry = done ++ line :: todo)
    (part : taken <+: Utf8.encode (line ++ "\n")) :
    Course settings (name :: args)
      (.entered (name :: args) :: (done.map (lineWritten .out)
        ++ [.wrote .out taken, .refused .out f]))
      (.error (.stream f))
  | unflushed {name : String} {args : List String} {f : Fault}
    (missing : settings.registry.lookup name = none) :
    Course settings (name :: args) [.entered (name :: args), .flushed .out (some f)]
      (.error (.stream f))
  | launched {name : String} {args : List String} {directory : String}
    {output : List (Stream × List UInt8)}
    (missing : settings.registry.lookup name = none) :
    Course settings (name :: args)
      [.entered (name :: args), .flushed .out none, .launched (name :: args) directory output]
      (.ok .goOn)
  | launchFailed {name : String} {args : List String} {directory : String}
    {output : List (Stream × List UInt8)} {e : CommandError}
    (missing : settings.registry.lookup name = none) :
    Course settings (name :: args)
      [.entered (name :: args), .flushed .out none, .launched (name :: args) directory output]
      (.error e)

/-- An outcome follows the course of a command. -/
def Follows (settings : Settings) (args : List String) (o : Outcome σ CommandError Flow) : Prop :=
  Course settings args o.trace o.answer

theorem dispatch_builtin {sys : System σ} {settings : Settings} {name : String}
    {args : List String} {builtin : Builtin}
    (h : settings.registry.lookup name = some builtin) (w : World σ) :
    dispatch sys settings (name :: args) w =
      ⟨.entered (name :: args) :: (builtin.run sys settings.registry (name :: args) w).trace,
        (builtin.run sys settings.registry (name :: args) w).answer,
        (builtin.run sys settings.registry (name :: args) w).world⟩ := by
  rw [dispatch, h]
  rfl

theorem dispatch_launch {sys : System σ} {settings : Settings} {name : String}
    {args : List String} (h : settings.registry.lookup name = none) (w : World σ) :
    dispatch sys settings (name :: args) w =
      ⟨.entered (name :: args) :: (launch sys (name :: args) w).trace,
        (launch sys (name :: args) w).answer, (launch sys (name :: args) w).world⟩ := by
  rw [dispatch, h]
  rfl

theorem cd_course {settings : Settings} {name : String} {args : List String}
    (sys : System σ) (h : settings.registry.lookup name = some .cd) (w : World σ) :
    Follows settings (name :: args) (dispatch sys settings (name :: args) w) := by
  rw [Follows, dispatch_builtin h]
  cases args with
  | nil => exact .cdFailed h
  | cons path others =>
    simp only [Builtin.run, Builtin.runCd, Action.bind_eq, Action.pure_eq]
    cases hc : sys.changeDirectory path w.system with
    | ok s =>
      have hd : Action.changeDirectory sys path w = ⟨[], .ok (), { w with system := s }⟩ := by
        rw [Action.changeDirectory, hc]
      rw [Action.bind_of_eq_ok (Action.mapError_of_eq_ok hd)]
      exact .cd h
    | error f =>
      have hd : Action.changeDirectory sys path w = ⟨[], .error f, w⟩ := by
        rw [Action.changeDirectory, hc]
      rw [Action.bind_of_eq_error (Action.mapError_of_eq_error hd)]
      exact .cdFailed h

theorem help_course {settings : Settings} {name : String} {args : List String}
    (sys : System σ) (h : settings.registry.lookup name = some .help) (w : World σ) :
    Follows settings (name :: args) (dispatch sys settings (name :: args) w) := by
  rw [Follows, dispatch_builtin h]
  simp only [Builtin.run, Builtin.runHelp, Action.bind_eq, Action.pure_eq]
  rcases Action.writeLines_cases .out (Builtin.helpLines settings.registry) w with
    ⟨w', hw⟩ | ⟨done, line, todo, taken, f, w', hl, hpart, hw⟩
  · rw [Action.bind_of_eq_ok (Action.mapError_of_eq_ok hw)]
    simp only [Action.pure, List.append_nil]
    exact .help h
  · rw [Action.bind_of_eq_error (Action.mapError_of_eq_error hw)]
    exact .helpCut h hl hpart

theorem launch_course {settings : Settings} {name : String} {args : List String}
    (sys : System σ) (h : settings.registry.lookup name = none) (w : World σ) :
    Follows settings (name :: args) (dispatch sys settings (name :: args) w) := by
  rw [Follows, dispatch_launch h]
  simp only [launch, Action.bind_eq, Action.pure_eq]
  rcases Action.flush_cases .out w with ⟨w₁, hf⟩ | ⟨f, w₁, hf⟩
  · rw [Action.bind_of_eq_ok (Action.mapError_of_eq_ok hf)]
    cases ha : (sys.launch (name :: args) w₁.system).answer with
    | ok u =>
      have hl : (Action.launch sys (name :: args) w₁).answer = .ok u := ha
      rw [Action.bind_of_ok hl]
      exact .launched h
    | error e =>
      have hl : (Action.launch sys (name :: args) w₁).answer = .error e := ha
      rw [Action.bind_of_error hl]
      exact .launchFailed h
  · rw [Action.bind_of_eq_error (Action.mapError_of_eq_error hf)]
    exact .unflushed h

/-- Every command takes one of the courses. -/
theorem dispatch_course (sys : System σ) (settings : Settings) (args : List String)
    (w : World σ) : Follows settings args (dispatch sys settings args w) := by
  cases args with
  | nil => exact .blank
  | cons name rest =>
    cases h : settings.registry.lookup name with
    | none => exact launch_course sys h w
    | some builtin =>
      cases builtin with
      | cd => exact cd_course sys h w
      | help => exact help_course sys h w
      | exit =>
        rw [Follows, dispatch_builtin h]
        exact .exit h

/-! ## Reports -/

/-- The course of a command whose failure is reported. -/
inductive Told (settings : Settings) : List String → Trace → Except Fault Flow → Prop
  | done {args : List String} {events : Trace} {flow : Flow}
    (course : Course settings args events (.ok flow)) : Told settings args events (.ok flow)
  | reported {args : List String} {events : Trace} {e : CommandError}
    (course : Course settings args events (.error e)) :
    Told settings args (events ++ [lineWritten .err (report settings e)]) (.ok .goOn)
  | unreported {args : List String} {events : Trace} {e : CommandError} {taken : List UInt8}
    {f : Fault} (course : Course settings args events (.error e))
    (part : taken <+: Utf8.encode (report settings e ++ "\n"))
    (short : taken.length < (Utf8.encode (report settings e ++ "\n")).length) :
    Told settings args (events ++ [.wrote .err taken, .refused .err f]) (.error f)

theorem execute_told (sys : System σ) (settings : Settings) (args : List String) (w : World σ) :
    Told settings args (execute sys settings args w).trace
      (execute sys settings args w).answer := by
  have hc := dispatch_course sys settings args w
  unfold Follows at hc
  cases ha : (dispatch sys settings args w).answer with
  | ok flow =>
    rw [execute, Action.recover_of_ok ha]
    rw [ha] at hc
    exact .done hc
  | error e =>
    rw [execute, Action.recover_of_error ha]
    rw [ha] at hc
    simp only [Action.bind_eq, Action.pure_eq]
    -- the report itself may be cut off
    rcases Action.writeLine_cases .err (report settings e) (dispatch sys settings args w).world
      with ⟨w', hw⟩ | ⟨taken, f, w', hpart, hshort, hw⟩
    · rw [Action.bind_of_eq_ok hw]
      exact .reported hc
    · rw [Action.bind_of_eq_error hw]
      exact .unreported hc hpart hshort

end Shell

namespace Session

open Input (Item)

/-! ## Turns -/

/-- The events before a line is read, if every one of them succeeds. -/
def greeting (settings : Settings) : Trace :=
  [.prompting, .wrote .out (Utf8.encode settings.prompt), .flushed .out none, .flushed .err none]

/-- The course of a greeting that fails. -/
inductive Ungreeted (settings : Settings) : Trace → SessionError → Prop
  | promptCut {taken : List UInt8} {f : Fault}
    (part : taken <+: Utf8.encode settings.prompt) :
    Ungreeted settings [.prompting, .wrote .out taken, .refused .out f] (.prompt f)
  | promptUnflushed {f : Fault} :
    Ungreeted settings
      [.prompting, .wrote .out (Utf8.encode settings.prompt), .flushed .out (some f)] (.prompt f)
  | reportsUnflushed {f : Fault} :
    Ungreeted settings
      [.prompting, .wrote .out (Utf8.encode settings.prompt), .flushed .out none,
        .flushed .err (some f)]
      (.stream f)

/-- The course of a turn: its events, and what it means for the session. -/
inductive Course (settings : Settings) : Trace → Verdict → Prop
  | ungreeted {events : Trace} {e : SessionError} (course : Ungreeted settings events e) :
    Course settings events (.failed e)
  | unread {items : List Item} {f : Fault} (failure : Input.failure? items = some f) :
    Course settings (greeting settings ++ [.read items]) (.failed (.reading f))
  | farewell {items : List Item} (sound : Input.failure? items = none) :
    Course settings (greeting settings ++ [.read items, .wrote .out (Utf8.encode "\n")]) .ended
  | farewellCut {items : List Item} {taken : List UInt8} {f : Fault}
    (sound : Input.failure? items = none) (part : taken <+: Utf8.encode "\n") :
    Course settings (greeting settings ++ [.read items, .wrote .out taken, .refused .out f])
      (.failed (.stream f))
  | untold {items : List Item} {args : List String} {events : Trace} {f : Fault}
    (sound : Input.failure? items = none) (told : Shell.Told settings args events (.error f)) :
    Course settings (greeting settings ++ .read items :: events) (.failed (.stream f))
  | unflushed {items : List Item} {args : List String} {events : Trace} {flow : Flow} {f : Fault}
    (sound : Input.failure? items = none) (told : Shell.Told settings args events (.ok flow)) :
    Course settings (greeting settings ++ .read items :: (events ++ [.flushed .out (some f)]))
      (.failed (.stream f))
  | obeyed {items : List Item} {args : List String} {events : Trace} {flow : Flow}
    (sound : Input.failure? items = none) (told : Shell.Told settings args events (.ok flow)) :
    Course settings (greeting settings ++ .read items :: (events ++ [.flushed .out none]))
      (.ofFlow (.ok flow))

theorem greet_cases (settings : Settings) (w : World σ) :
    (∃ w', greet settings w = ⟨greeting settings, .ok (), w'⟩) ∨
      ∃ events e w', Ungreeted settings events e ∧ greet settings w = ⟨events, .error e, w'⟩ := by
  have hprompt : ∀ {o : Outcome σ Fault Unit},
      (Action.write .out settings.prompt).bind (fun _ => Action.flush .out) w = o →
      Shell.prompt settings.prompt w = ⟨.prompting :: o.trace, o.answer, o.world⟩ := by
    rintro o rfl
    rfl
  rw [greet, Action.bind_eq]
  -- the first of the three steps that fails ends the greeting
  rcases Action.write_cases .out settings.prompt w with
    ⟨w₁, hw⟩ | ⟨taken, f, w₁, hpart, -, hw⟩
  · rcases Action.flush_cases .out w₁ with ⟨w₂, hf⟩ | ⟨f, w₂, hf⟩
    · have hp := hprompt (Action.bind_of_eq_ok hw)
      rw [hf] at hp
      rw [Action.bind_of_eq_ok (Action.mapError_of_eq_ok hp)]
      rcases Action.flush_cases .err w₂ with ⟨w₃, he⟩ | ⟨f, w₃, he⟩
      · rw [Action.mapError_of_eq_ok he]
        exact Or.inl ⟨w₃, rfl⟩
      · rw [Action.mapError_of_eq_error he]
        exact Or.inr ⟨_, _, w₃, .reportsUnflushed, rfl⟩
    · have hp := hprompt (Action.bind_of_eq_ok hw)
      rw [hf] at hp
      rw [Action.bind_of_eq_error (Action.mapError_of_eq_error hp)]
      exact Or.inr ⟨_, _, w₂, .promptUnflushed, rfl⟩
  · have hp := hprompt (Action.bind_of_eq_error hw)
    rw [Action.bind_of_eq_error (Action.mapError_of_eq_error hp)]
    exact Or.inr ⟨_, _, w₁, .promptCut hpart, rfl⟩

/-- What a session has to do after a read. -/
def Request.ofReading : Input.Reading String → Request
  | .line text => .command text
  | .endOfInput => .endOfInput
  | .fault f => .failed (.reading f)

/-- After a greeting that fails nothing is read. -/
theorem ask_of_greet_error {settings : Settings} {input : List Item} {w w' : World σ}
    {events : Trace} {e : SessionError} (h : greet settings w = ⟨events, .error e, w'⟩) :
    ask settings input w = ⟨events, .failed e, input, w'⟩ := by
  rw [ask, h]

/-- After a greeting one line is read. -/
theorem ask_of_greet_ok {settings : Settings} {input : List Item} {w w' : World σ}
    {events : Trace} (h : greet settings w = ⟨events, .ok (), w'⟩) :
    ask settings input w =
      ⟨events ++ [.read (Input.readLine input).taken],
        .ofReading (Input.readLine input).reading, (Input.readLine input).rest, w'⟩ := by
  rw [ask, h]
  cases hr : (Input.readLine input).reading <;> simp only [hr] <;> rfl

theorem farewell_cases (w : World σ) :
    (∃ w', farewell w = ⟨[.wrote .out (Utf8.encode "\n")], .ok (), w'⟩) ∨
      ∃ taken f w', taken <+: Utf8.encode "\n" ∧
        farewell w = ⟨[.wrote .out taken, .refused .out f], .error (.stream f), w'⟩ := by
  rcases Action.write_cases .out "\n" w with ⟨w', hw⟩ | ⟨taken, f, w', hpart, -, hw⟩
  · exact Or.inl ⟨w', Action.mapError_of_eq_ok hw⟩
  · exact Or.inr ⟨taken, f, w', hpart, Action.mapError_of_eq_error hw⟩

/-- The events and the answer of the command on a line. -/
theorem obey_cases (sys : System σ) (settings : Settings) (line : String) (w : World σ) :
    (∃ events f w', Shell.Told settings (words line) events (.error f) ∧
        obey sys settings line w = ⟨events, .error (.stream f), w'⟩) ∨
      ∃ events flow, Shell.Told settings (words line) events (.ok flow) ∧
        ((∃ f w', obey sys settings line w
            = ⟨events ++ [.flushed .out (some f)], .error (.stream f), w'⟩) ∨
          ∃ w', obey sys settings line w = ⟨events ++ [.flushed .out none], .ok flow, w'⟩) := by
  have ht := Shell.execute_told sys settings (words line) w
  rcases he : Shell.execute sys settings (words line) w with ⟨events, answer, w₁⟩
  rw [he] at ht
  rw [obey, Action.bind_eq]
  cases answer with
  | error f =>
    rw [Action.bind_of_eq_error (Action.mapError_of_eq_error he)]
    exact Or.inl ⟨events, f, w₁, ht, rfl⟩
  | ok flow =>
    rw [Action.bind_of_eq_ok (Action.mapError_of_eq_ok he)]
    refine Or.inr ⟨events, flow, ht, ?_⟩
    simp only [Action.bind_eq, Action.pure_eq]
    rcases Action.flush_cases .out w₁ with ⟨w₂, hf⟩ | ⟨f, w₂, hf⟩
    · rw [Action.bind_of_eq_ok (Action.mapError_of_eq_ok hf)]
      exact Or.inr ⟨w₂, rfl⟩
    · rw [Action.bind_of_eq_error (Action.mapError_of_eq_error hf)]
      exact Or.inl ⟨f, w₂, rfl⟩

/-- Every turn takes one of the courses. -/
theorem turn_course (sys : System σ) (settings : Settings) (input : List Item) (w : World σ) :
    Course settings (turn sys settings input w).trace (turn sys settings input w).verdict := by
  rcases greet_cases settings w with ⟨w₁, hg⟩ | ⟨events, e, w₁, hfail, hg⟩
  · have hask : ask settings input w = _ := ask_of_greet_ok hg
    -- what the read answered is seen in the items that it took
    have hfault := Input.failure?_readLine input
    cases hr : (Input.readLine input).reading with
    | line text =>
      rw [hr] at hask hfault
      have hreq : (ask settings input w).request = .command text := by rw [hask]; rfl
      rw [turn_of_command sys hreq, hask]
      simp only [List.append_assoc, List.singleton_append]
      rcases obey_cases sys settings text w₁ with
        ⟨events, f, w₂, ht, ho⟩ | ⟨events, flow, ht, ⟨f, w₂, ho⟩ | ⟨w₂, ho⟩⟩
      · rw [ho]
        exact .untold hfault ht
      · rw [ho]
        exact .unflushed hfault ht
      · rw [ho]
        exact .obeyed hfault ht
    | endOfInput =>
      rw [hr] at hask hfault
      rw [turn, hask]
      simp only [Asked.finish, Request.ofReading, List.append_assoc, List.singleton_append]
      rcases farewell_cases w₁ with ⟨w₂, hw⟩ | ⟨taken, f, w₂, hpart, hw⟩
      · rw [hw]
        exact .farewell hfault
      · rw [hw]
        exact .farewellCut hfault hpart
    | fault f =>
      rw [hr] at hask hfault
      rw [turn, hask]
      exact .unread hfault
  · rw [turn, ask_of_greet_error hg]
    exact .ungreeted hfail

end Session
end CommandShell
