import CommandShell.Shell

/-!
# Sessions

A session takes turns: a prompt, a line of input, the command on that line. It ends with a
command that says so, at the end of the input, or with the first failure of its own streams;
failures of commands are reported and do not end it. A turn that goes on has taken a line, so a
session over a finite input ends (`length_unread_lt`).
-/

namespace CommandShell

/-- Why a session cannot go on. -/
inductive SessionError where
  /-- The prompt could not be written. -/
  | prompt (cause : Fault)
  /-- No line could be read. -/
  | reading (cause : Fault)
  /-- Another write or flush of the session itself failed. -/
  | stream (cause : Fault)
deriving DecidableEq

namespace SessionError

/-- The text of the error, followed by those of its causes. -/
def chain : SessionError → List String
  | prompt cause => ["Unable to write the prompt", cause.text]
  | reading cause => [Input.faultMessage cause, cause.text]
  | stream cause => [cause.text]

/-- The text of the error. -/
def message : SessionError → String
  | prompt _ => "Unable to write the prompt"
  | reading cause => Input.faultMessage cause
  | stream cause => cause.text

end SessionError

namespace Session

variable {σ : Type}

/-- Asks for a command: everything that was reported before is flushed as well. -/
def greet (settings : Settings) : Action σ SessionError Unit := do
  (Shell.prompt settings.prompt).mapError .prompt
  (Action.flush .err).mapError .stream

/-- Runs the command on a line. -/
def obey (sys : System σ) (settings : Settings) (line : String) : Action σ SessionError Flow := do
  let flow ← (Shell.execute sys settings (words line)).mapError .stream
  (Action.flush .out).mapError .stream
  return flow

/-- Ends the line on which the last prompt stands. -/
def farewell : Action σ SessionError Unit := (Action.write .out "\n").mapError .stream

/-- What a session has to do next. -/
inductive Request where
  | command (line : String)
  | endOfInput
  | failed (e : SessionError)
deriving DecidableEq

/-- The first half of a turn: the prompt was written and a line was read. -/
structure Asked (σ : Type) where
  trace : Trace
  request : Request
  unread : List Input.Item
  world : World σ

/-- Writes the prompt and reads a line. -/
def ask (settings : Settings) (input : List Input.Item) (w : World σ) : Asked σ :=
  match greet settings w with
  | ⟨trace, .error e, w'⟩ => ⟨trace, .failed e, input, w'⟩
  | ⟨trace, .ok (), w'⟩ =>
    let read := Input.readLine input
    let request := match read.reading with
      | .line text => .command text
      | .endOfInput => .endOfInput
      | .fault f => .failed (.reading f)
    ⟨trace ++ [.read read.taken], request, read.rest, w'⟩

/-- How a turn ends. -/
inductive Verdict where
  | goOn
  | ended
  | failed (e : SessionError)
deriving DecidableEq

/-- What the answer of a command means for the session. -/
def Verdict.ofFlow : Except SessionError Flow → Verdict
  | .ok .goOn => goOn
  | .ok .stop => ended
  | .error e => failed e

/-- What the answer of the farewell means for the session. -/
def Verdict.ofFarewell : Except SessionError Unit → Verdict
  | .ok () => ended
  | .error e => failed e

/-- A turn of a session. -/
structure Turn (σ : Type) where
  trace : Trace
  verdict : Verdict
  unread : List Input.Item
  world : World σ

/-- The second half of a turn: the command is run, or the end of the input is met. -/
def Asked.finish (sys : System σ) (settings : Settings) (asked : Asked σ) : Turn σ :=
  match asked.request with
  | .failed e => ⟨asked.trace, .failed e, asked.unread, asked.world⟩
  | .endOfInput =>
    let last := farewell asked.world
    ⟨asked.trace ++ last.trace, .ofFarewell last.answer, asked.unread, last.world⟩
  | .command line =>
    let done := obey sys settings line asked.world
    ⟨asked.trace ++ done.trace, .ofFlow done.answer, asked.unread, done.world⟩

/-- Takes one turn. -/
def turn (sys : System σ) (settings : Settings) (input : List Input.Item) (w : World σ) :
    Turn σ :=
  (ask settings input w).finish sys settings

theorem ask_length_unread_lt {settings : Settings} {input : List Input.Item} {w : World σ}
    {line : String} (h : (ask settings input w).request = .command line) :
    (ask settings input w).unread.length < input.length := by
  unfold ask at h ⊢
  split at h
  · simp at h
  · dsimp only at h ⊢
    split at h
    · next hr => exact Input.length_rest_lt_of_line hr
    · simp at h
    · simp at h

/-- The second half of a turn reads nothing. -/
theorem Asked.finish_unread (sys : System σ) (settings : Settings) (asked : Asked σ) :
    (asked.finish sys settings).unread = asked.unread := by
  unfold Asked.finish
  split <;> rfl

/-- Only after a command does a session go on. -/
theorem Asked.exists_command_of_finish {sys : System σ} {settings : Settings} {asked : Asked σ}
    (h : (asked.finish sys settings).verdict = .goOn) : ∃ line, asked.request = .command line := by
  unfold Asked.finish at h
  split at h
  · simp at h
  · cases hl : (farewell asked.world).answer <;> simp [hl, Verdict.ofFarewell] at h
  · next line hr => exact ⟨line, hr⟩

/-- A turn after which the session goes on has taken a part of the input. -/
theorem length_unread_lt {sys : System σ} {settings : Settings} {input : List Input.Item}
    {w : World σ} (h : (turn sys settings input w).verdict = .goOn) :
    (turn sys settings input w).unread.length < input.length := by
  obtain ⟨line, hr⟩ := Asked.exists_command_of_finish h
  rw [turn, Asked.finish_unread]
  exact ask_length_unread_lt hr

/-- A session from its first prompt to its end. -/
structure Ending (σ : Type) where
  trace : Trace
  answer : Except SessionError Unit
  unread : List Input.Item
  world : World σ

/-- Takes turns until the session ends. -/
def run (sys : System σ) (settings : Settings) (input : List Input.Item) (w : World σ) :
    Ending σ :=
  let t := turn sys settings input w
  match _h : t.verdict with
  | .ended => ⟨t.trace, .ok (), t.unread, t.world⟩
  | .failed e => ⟨t.trace, .error e, t.unread, t.world⟩
  | .goOn =>
    let later := run sys settings t.unread t.world
    ⟨t.trace ++ later.trace, later.answer, later.unread, later.world⟩
termination_by input.length
decreasing_by exact length_unread_lt _h

end Session
end CommandShell
