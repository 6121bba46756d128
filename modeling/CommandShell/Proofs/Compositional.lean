import CommandShell.Proofs.Courses

/-!
# What holds of every action of the shell

The shell does nothing but what it puts together from notes, writes, flushes, changes of directory
and launches, and it puts actions together in one way: one after the other, the second chosen by
the answer of the first (`Action.follow`). A property that the basic actions have and that is kept
by `follow` therefore holds of every command and of every turn (`Compositional.turnAction`). Two
worlds may occur in it, so this serves comparisons of sessions as well.
-/

namespace CommandShell

variable {σ : Type}

namespace Action

variable {ε ε' α β : Type}

/-- Does `first`, and then what `next` makes of its answer, be it an error or not. -/
def follow (first : Action σ ε α) (next : Except ε α → Action σ ε' β) : Action σ ε' β := fun w =>
  let done := first w
  let later := next done.answer done.world
  ⟨done.trace ++ later.trace, later.answer, later.world⟩

/-- Ends with an answer that is known. -/
def conclude : Except ε α → Action σ ε α
  | .ok a => Action.pure a
  | .error e => Action.fail e

theorem conclude_apply (answer : Except ε α) (w : World σ) :
    conclude answer w = ⟨[], answer, w⟩ := by
  cases answer <;> rfl

theorem bind_eq_follow (first : Action σ ε α) (next : α → Action σ ε β) :
    first.bind next = first.follow fun
      | .ok a => next a
      | .error e => Action.fail e := by
  funext w
  cases ha : (first w).answer with
  | ok a => simp only [bind_of_ok ha, follow, ha]
  | error e => simp only [bind_of_error ha, follow, ha, Action.fail, List.append_nil]

theorem recover_eq_follow (first : Action σ ε α) (next : ε → Action σ ε' α) :
    first.recover next = first.follow fun
      | .ok a => Action.pure a
      | .error e => next e := by
  funext w
  cases ha : (first w).answer with
  | ok a => simp only [recover_of_ok ha, follow, ha, Action.pure, List.append_nil]
  | error e => simp only [recover_of_error ha, follow, ha]

theorem mapError_eq_follow (f : ε → ε') (first : Action σ ε α) :
    first.mapError f = first.follow fun answer => conclude (answer.mapError f) := by
  funext w
  simp only [mapError, follow, conclude_apply, List.append_nil]

end Action

namespace Session

open Input (Item)

/-! ## Turns as actions -/

/-- What a turn does when it knows the answer of its read. -/
def afterRead (sys : System σ) (settings : Settings) :
    Input.Reading String → Action σ SessionError Flow
  | .line text => obey sys settings text
  | .endOfInput => farewell.bind fun _ => Action.pure .stop
  | .fault f => Action.fail (.reading f)

/-- A turn that is given the outcome of its read. -/
def turnAction (sys : System σ) (settings : Settings) (read : Input.Read String) :
    Action σ SessionError Flow :=
  (greet settings).bind fun _ =>
    (Action.note (.read read.taken)).bind fun _ => afterRead sys settings read.reading

variable {sys : System σ} {settings : Settings} {input : List Item} {w w' : World σ}
  {events : Trace}

/-- A turn is over if its greeting fails. -/
theorem turn_of_greet_error {e : SessionError} (h : greet settings w = ⟨events, .error e, w'⟩) :
    turn sys settings input w = ⟨events, .failed e, input, w'⟩ := by
  rw [turn, ask_of_greet_error h, Asked.finish]

/-- After a greeting a turn reads, and does what the answer asks for. -/
theorem turn_of_greet_ok (h : greet settings w = ⟨events, .ok (), w'⟩) :
    turn sys settings input w =
      ⟨events ++ .read (Input.readLine input).taken
          :: (afterRead sys settings (Input.readLine input).reading w').trace,
        .ofFlow (afterRead sys settings (Input.readLine input).reading w').answer,
        (Input.readLine input).rest,
        (afterRead sys settings (Input.readLine input).reading w').world⟩ := by
  rw [turn, ask_of_greet_ok h]
  cases (Input.readLine input).reading with
  | line text => simp only [Request.ofReading, Asked.finish, afterRead, List.append_assoc,
      List.singleton_append]
  | endOfInput =>
    simp only [Request.ofReading, Asked.finish, afterRead]
    rcases farewell_cases w' with ⟨w₁, hw⟩ | ⟨taken, f, w₁, -, hw⟩
    · rw [hw, Action.bind_of_eq_ok hw]
      simp only [Action.pure, List.append_nil, List.append_assoc, List.singleton_append]
      rfl
    · rw [hw, Action.bind_of_eq_error hw]
      simp only [List.append_assoc, List.singleton_append]
      rfl
  | fault f => rfl

/-- A turn is an action, but for the input that it leaves. -/
theorem turn_eq (sys : System σ) (settings : Settings) (input : List Item) (w : World σ) :
    turn sys settings input w =
      ⟨(turnAction sys settings (Input.readLine input) w).trace,
        .ofFlow (turnAction sys settings (Input.readLine input) w).answer,
        (turn sys settings input w).unread,
        (turnAction sys settings (Input.readLine input) w).world⟩ := by
  rcases hg : greet settings w with ⟨events, answer, w'⟩
  cases answer with
  | error e =>
    have hact : turnAction sys settings (Input.readLine input) w = ⟨events, .error e, w'⟩ :=
      Action.bind_of_eq_error hg
    rw [hact, turn_of_greet_error hg]
    rfl
  | ok u =>
    have hact : turnAction sys settings (Input.readLine input) w = _ := Action.bind_of_eq_ok hg
    rw [hact, turn_of_greet_ok hg]
    rfl

/-- What a turn is that was greeted and has read. -/
def Turn.afterRead (sys : System σ) (settings : Settings) (read : Input.Read String)
    (w : World σ) : Turn σ :=
  let later := Session.afterRead sys settings read.reading w
  ⟨greeting settings ++ .read read.taken :: later.trace, .ofFlow later.answer, read.rest,
    later.world⟩

/-- A turn ends with its greeting, or it reads and does what is to be done after that read. -/
theorem turn_cases (sys : System σ) (settings : Settings) (input : List Item) (w : World σ) :
    (∃ events e w', Ungreeted settings events e ∧
        turn sys settings input w = ⟨events, .failed e, input, w'⟩) ∨
      ∃ w', turn sys settings input w = .afterRead sys settings (Input.readLine input) w' := by
  rcases greet_cases settings w with ⟨w', hg⟩ | ⟨events, e, w', hfail, hg⟩
  · exact Or.inr ⟨w', turn_of_greet_ok hg⟩
  · exact Or.inl ⟨events, e, w', hfail, turn_of_greet_error hg⟩

/-- Only after a line does a session go on. -/
theorem exists_line_of_goOn (h : (turn sys settings input w).verdict = .goOn) :
    ∃ line, (Input.readLine input).reading = .line line := by
  obtain ⟨line, hcommand⟩ := Asked.exists_command_of_finish h
  rcases greet_cases settings w with ⟨w', hg⟩ | ⟨events, e, w', -, hg⟩
  · rw [ask_of_greet_ok hg] at hcommand
    cases hr : (Input.readLine input).reading with
    | line text => exact ⟨text, rfl⟩
    | endOfInput =>
      rw [hr] at hcommand
      cases hcommand
    | fault f =>
      rw [hr] at hcommand
      cases hcommand
  · rw [ask_of_greet_error hg] at hcommand
    cases hcommand

/-- A turn after which the session goes on was greeted and has read. -/
theorem exists_afterRead_of_goOn (h : (turn sys settings input w).verdict = .goOn) :
    ∃ w', turn sys settings input w = .afterRead sys settings (Input.readLine input) w' := by
  rcases turn_cases sys settings input w with ⟨events, e, w', -, ht⟩ | hread
  · rw [ht] at h
    cases h
  · exact hread

/-- A turn after which the session goes on has left what its read left. -/
theorem unread_of_goOn (h : (turn sys settings input w).verdict = .goOn) :
    (turn sys settings input w).unread = (Input.readLine input).rest := by
  obtain ⟨w', ht⟩ := exists_afterRead_of_goOn h
  rw [ht]
  rfl

end Session

/-! ## Two shells side by side -/

/-- A relation between the actions of two shells that everything is in which both do without the
system below them, and that is kept by doing one thing after the other. -/
structure Parallel {σ σ' : Type} (R : ∀ {ε α : Type}, Action σ ε α → Action σ' ε α → Prop) :
    Prop where
  pure : ∀ {ε α : Type} (a : α), R (Action.pure a : Action σ ε α) (Action.pure a)
  fail : ∀ {ε α : Type} (e : ε), R (Action.fail e : Action σ ε α) (Action.fail e)
  follow : ∀ {ε ε' α β : Type} {first : Action σ ε α} {first' : Action σ' ε α}
    {next : Except ε α → Action σ ε' β} {next' : Except ε α → Action σ' ε' β},
    R first first' → (∀ answer, R (next answer) (next' answer)) →
      R (first.follow next) (first'.follow next')
  prompting : ∀ {ε : Type}, R (Action.note .prompting : Action σ ε Unit) (Action.note .prompting)
  read : ∀ {ε : Type} (items : List Input.Item),
    R (Action.note (.read items) : Action σ ε Unit) (Action.note (.read items))
  writeBytes : ∀ (stream : Stream) (bytes : List UInt8),
    R (Action.writeBytes stream bytes) (Action.writeBytes stream bytes)
  flush : ∀ (stream : Stream), R (Action.flush stream) (Action.flush stream)

namespace Parallel

variable {σ' : Type} {R : ∀ {ε α : Type}, Action σ ε α → Action σ' ε α → Prop}
  {ε ε' α β : Type}

theorem bind (h : Parallel R) {first : Action σ ε α} {first' : Action σ' ε α}
    {next : α → Action σ ε β} {next' : α → Action σ' ε β} (hfirst : R first first')
    (hnext : ∀ a, R (next a) (next' a)) : R (first.bind next) (first'.bind next') := by
  rw [Action.bind_eq_follow, Action.bind_eq_follow]
  refine h.follow hfirst fun answer => ?_
  cases answer with
  | ok a => exact hnext a
  | error e => exact h.fail e

theorem recover (h : Parallel R) {first : Action σ ε α} {first' : Action σ' ε α}
    {next : ε → Action σ ε' α} {next' : ε → Action σ' ε' α} (hfirst : R first first')
    (hnext : ∀ e, R (next e) (next' e)) : R (first.recover next) (first'.recover next') := by
  rw [Action.recover_eq_follow, Action.recover_eq_follow]
  refine h.follow hfirst fun answer => ?_
  cases answer with
  | ok a => exact h.pure a
  | error e => exact hnext e

theorem mapError (h : Parallel R) {first : Action σ ε α} {first' : Action σ' ε α} (f : ε → ε')
    (hfirst : R first first') : R (first.mapError f) (first'.mapError f) := by
  rw [Action.mapError_eq_follow, Action.mapError_eq_follow]
  refine h.follow hfirst fun answer => ?_
  cases answer with
  | ok a => exact h.pure a
  | error e => exact h.fail (f e)

theorem writeLines (h : Parallel R) (stream : Stream) (lines : List String) :
    R (Action.writeLines stream lines : Action σ Fault Unit) (Action.writeLines stream lines) := by
  induction lines with
  | nil => exact h.pure ()
  | cons line rest ih => exact h.bind (h.writeBytes stream _) fun _ => ih

/-! ### Commands -/

section Systems

variable (sys : System σ) (sys' : System σ') {settings : Settings}

theorem builtin (h : Parallel R) (registry : Registry) (args : List String) (command : Builtin)
    (hcd : command = .cd → ∀ path,
      R (Action.changeDirectory sys path) (Action.changeDirectory sys' path)) :
    R (command.run sys registry args) (command.run sys' registry args) := by
  cases command with
  | cd =>
    match args with
    | [] => exact h.fail _
    | [name] => exact h.fail _
    | name :: path :: rest => exact h.bind (h.mapError _ (hcd rfl path)) fun _ => h.pure _
  | help => exact h.bind (h.mapError _ (h.writeLines .out _)) fun _ => h.pure _
  | exit => exact h.pure _

/-- A command uses the system only if it is a `cd` or no builtin. -/
theorem dispatch (h : Parallel R) {name : String} {rest : List String}
    (hentered : R (Action.note (.entered (name :: rest)) : Action σ CommandError Unit)
      (Action.note (.entered (name :: rest))))
    (hcd : settings.registry.lookup name = some .cd → ∀ path,
      R (Action.changeDirectory sys path) (Action.changeDirectory sys' path))
    (hlaunch : settings.registry.lookup name = none →
      R (Action.launch sys (name :: rest)) (Action.launch sys' (name :: rest))) :
    R (Shell.dispatch sys settings (name :: rest))
      (Shell.dispatch sys' settings (name :: rest)) := by
  rw [Shell.dispatch, Shell.dispatch]
  refine h.bind hentered fun _ => ?_
  cases hl : settings.registry.lookup name with
  | some command =>
    refine h.builtin sys sys' settings.registry (name :: rest) command fun heq => hcd ?_
    rw [hl, heq]
  | none =>
    refine h.bind (h.mapError _ (h.flush .out)) fun _ => ?_
    exact h.bind (hlaunch hl) fun _ => h.pure _

/-- A failure is reported in the same way. -/
theorem execute (h : Parallel R) {args : List String}
    (hdispatch : R (Shell.dispatch sys settings args) (Shell.dispatch sys' settings args)) :
    R (Shell.execute sys settings args) (Shell.execute sys' settings args) :=
  h.recover hdispatch fun e =>
    h.bind (h.writeBytes .err (Utf8.encode (Shell.report settings e ++ "\n"))) fun _ => h.pure _

/-! ### Turns -/

theorem greet (h : Parallel R) (settings : Settings) :
    R (Session.greet settings : Action σ SessionError Unit) (Session.greet settings) := by
  have hprompt : R (Shell.prompt settings.prompt : Action σ Fault Unit)
      (Shell.prompt settings.prompt) :=
    h.bind h.prompting fun _ =>
      h.bind (h.writeBytes .out (Utf8.encode settings.prompt)) fun _ => h.flush .out
  exact h.bind (h.mapError _ hprompt) fun _ => h.mapError _ (h.flush .err)

theorem afterRead (h : Parallel R)
    (hexecute : ∀ args, R (Shell.execute sys settings args) (Shell.execute sys' settings args))
    (reading : Input.Reading String) :
    R (Session.afterRead sys settings reading) (Session.afterRead sys' settings reading) := by
  cases reading with
  | line text =>
    exact h.bind (h.mapError _ (hexecute (words text))) fun _ =>
      h.bind (h.mapError _ (h.flush .out)) fun _ => h.pure _
  | endOfInput =>
    have hfarewell : R (Session.farewell : Action σ SessionError Unit) Session.farewell :=
      h.mapError _ (h.writeBytes .out (Utf8.encode "\n"))
    exact h.bind hfarewell fun _ => h.pure _
  | fault f => exact h.fail _

theorem turnAction (h : Parallel R)
    (hexecute : ∀ args, R (Shell.execute sys settings args) (Shell.execute sys' settings args))
    (read : Input.Read String) :
    R (Session.turnAction sys settings read) (Session.turnAction sys' settings read) :=
  h.bind (h.greet settings) fun _ =>
    h.bind (h.read read.taken) fun _ => h.afterRead sys sys' hexecute read.reading

end Systems
end Parallel

/-! ## Properties of all actions -/

/-- A property of actions that everything has which a shell on the system `sys` is put together
from, and that is kept by doing one thing after the other. -/
structure Compositional (sys : System σ) (P : ∀ {ε α : Type}, Action σ ε α → Prop) : Prop where
  pure : ∀ {ε α : Type} (a : α), P (Action.pure a : Action σ ε α)
  fail : ∀ {ε α : Type} (e : ε), P (Action.fail e : Action σ ε α)
  follow : ∀ {ε ε' α β : Type} {first : Action σ ε α} {next : Except ε α → Action σ ε' β},
    P first → (∀ answer, P (next answer)) → P (first.follow next)
  prompting : ∀ {ε : Type}, P (Action.note .prompting : Action σ ε Unit)
  read : ∀ {ε : Type} (items : List Input.Item), P (Action.note (.read items) : Action σ ε Unit)
  entered : ∀ {ε : Type} (args : List String),
    P (Action.note (.entered args) : Action σ ε Unit)
  writeBytes : ∀ (stream : Stream) (bytes : List UInt8),
    P (Action.writeBytes stream bytes : Action σ Fault Unit)
  flush : ∀ (stream : Stream), P (Action.flush stream : Action σ Fault Unit)
  changeDirectory : ∀ (path : String), P (Action.changeDirectory sys path)
  launch : ∀ (args : List String), P (Action.launch sys args)

namespace Compositional

variable {sys : System σ} {P : ∀ {ε α : Type}, Action σ ε α → Prop}

/-- A property of one shell is a relation that does not look at a second one. -/
theorem parallel (h : Compositional sys P) :
    Parallel fun {ε α : Type} (act : Action σ ε α) (_ : Action σ ε α) => P act where
  pure := h.pure
  fail := h.fail
  follow := h.follow
  prompting := h.prompting
  read := h.read
  writeBytes := h.writeBytes
  flush := h.flush

theorem dispatch (h : Compositional sys P) (settings : Settings) (args : List String) :
    P (Shell.dispatch sys settings args) := by
  cases args with
  | nil => exact h.pure _
  | cons name rest =>
    exact h.parallel.dispatch sys sys (h.entered _) (fun _ => h.changeDirectory)
      fun _ => h.launch _

theorem execute (h : Compositional sys P) (settings : Settings) (args : List String) :
    P (Shell.execute sys settings args) :=
  h.parallel.execute sys sys (h.dispatch settings args)

theorem greet (h : Compositional sys P) (settings : Settings) :
    P (Session.greet settings : Action σ SessionError Unit) := h.parallel.greet settings

theorem afterRead (h : Compositional sys P) (settings : Settings)
    (reading : Input.Reading String) : P (Session.afterRead sys settings reading) :=
  h.parallel.afterRead sys sys (h.execute settings) reading

theorem turnAction (h : Compositional sys P) (settings : Settings) (read : Input.Read String) :
    P (Session.turnAction sys settings read) :=
  h.parallel.turnAction sys sys (h.execute settings) read

end Compositional
end CommandShell
