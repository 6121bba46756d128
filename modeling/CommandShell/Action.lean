import CommandShell.Sink
import CommandShell.System
import CommandShell.Text.Utf8

/-!
# Actions

The shell acts on a world: its two output streams and the system below it. An action gives an
answer or an error, a changed world, and its own part of the trace. Running one action after the
other concatenates their parts (`bind_of_ok`); after an error nothing further is done
(`bind_of_error`).
-/

namespace CommandShell

/-- The output streams of a shell and the state of the system below it. -/
structure World (σ : Type) where
  out : Sink
  err : Sink
  system : σ

namespace World

variable {σ : Type}

/-- One of the two output streams. -/
def sink (w : World σ) : Stream → Sink
  | .out => w.out
  | .err => w.err

/-- Puts another sink in the place of an output stream. -/
def setSink (w : World σ) (stream : Stream) (s : Sink) : World σ :=
  match stream with
  | .out => { w with out := s }
  | .err => { w with err := s }

end World

/-- What an action leads to. -/
structure Outcome (σ ε α : Type) where
  trace : Trace
  answer : Except ε α
  world : World σ

/-- Something done to a world with states `σ` below it, with errors in `ε` and answers in `α`. -/
def Action (σ ε α : Type) := World σ → Outcome σ ε α

namespace Action

variable {σ ε ε' α β : Type}

/-- Does nothing and answers `a`. -/
def pure (a : α) : Action σ ε α := fun w => ⟨[], .ok a, w⟩

/-- Does nothing but fail. -/
def fail (e : ε) : Action σ ε α := fun w => ⟨[], .error e, w⟩

/-- Does `first`, and if it succeeds, what `next` makes of its answer. -/
def bind (first : Action σ ε α) (next : α → Action σ ε β) : Action σ ε β := fun w =>
  match first w with
  | ⟨trace, .error e, w'⟩ => ⟨trace, .error e, w'⟩
  | ⟨trace, .ok a, w'⟩ =>
    let later := next a w'
    ⟨trace ++ later.trace, later.answer, later.world⟩

instance : Monad (Action σ ε) where
  pure := Action.pure
  bind := Action.bind

/-- Does `first`, and if it fails, what `next` makes of its error. -/
def recover (first : Action σ ε α) (next : ε → Action σ ε' α) : Action σ ε' α := fun w =>
  match first w with
  | ⟨trace, .ok a, w'⟩ => ⟨trace, .ok a, w'⟩
  | ⟨trace, .error e, w'⟩ =>
    let later := next e w'
    ⟨trace ++ later.trace, later.answer, later.world⟩

/-- Gives the errors of an action another meaning. -/
def mapError (f : ε → ε') (first : Action σ ε α) : Action σ ε' α := fun w =>
  let done := first w
  ⟨done.trace, done.answer.mapError f, done.world⟩

theorem bind_of_ok {first : Action σ ε α} {next : α → Action σ ε β} {w : World σ} {a : α}
    (h : (first w).answer = .ok a) :
    bind first next w =
      ⟨(first w).trace ++ (next a (first w).world).trace, (next a (first w).world).answer,
        (next a (first w).world).world⟩ := by
  rcases hf : first w with ⟨trace, answer, w'⟩
  rw [hf] at h
  obtain rfl : answer = .ok a := h
  simp [bind, hf]

theorem bind_of_error {first : Action σ ε α} {next : α → Action σ ε β} {w : World σ} {e : ε}
    (h : (first w).answer = .error e) :
    bind first next w = ⟨(first w).trace, .error e, (first w).world⟩ := by
  rcases hf : first w with ⟨trace, answer, w'⟩
  rw [hf] at h
  obtain rfl : answer = .error e := h
  simp [bind, hf]

theorem recover_of_ok {first : Action σ ε α} {next : ε → Action σ ε' α} {w : World σ} {a : α}
    (h : (first w).answer = .ok a) :
    recover first next w = ⟨(first w).trace, .ok a, (first w).world⟩ := by
  rcases hf : first w with ⟨trace, answer, w'⟩
  rw [hf] at h
  obtain rfl : answer = .ok a := h
  simp [recover, hf]

theorem recover_of_error {first : Action σ ε α} {next : ε → Action σ ε' α} {w : World σ} {e : ε}
    (h : (first w).answer = .error e) :
    recover first next w =
      ⟨(first w).trace ++ (next e (first w).world).trace, (next e (first w).world).answer,
        (next e (first w).world).world⟩ := by
  rcases hf : first w with ⟨trace, answer, w'⟩
  rw [hf] at h
  obtain rfl : answer = .error e := h
  simp [recover, hf]

/-- Notes an event that changes nothing. -/
def note (e : Event) : Action σ ε Unit := fun w => ⟨[e], .ok (), w⟩

/-- Writes bytes to a stream, as a whole. -/
def writeBytes (stream : Stream) (bytes : List UInt8) : Action σ Fault Unit := fun w =>
  let done := (w.sink stream).write bytes
  let w := w.setSink stream done.sink
  match done.fault? with
  | none => ⟨[.wrote stream done.bytes], .ok (), w⟩
  | some f => ⟨[.wrote stream done.bytes, .refused stream f], .error f, w⟩

/-- Writes a text to a stream. -/
def write (stream : Stream) (text : String) : Action σ Fault Unit :=
  writeBytes stream (Utf8.encode text)

/-- Writes a text and a newline after it to a stream. -/
def writeLine (stream : Stream) (text : String) : Action σ Fault Unit :=
  write stream (text ++ "\n")

/-- Writes some lines to a stream, until one fails. -/
def writeLines (stream : Stream) : List String → Action σ Fault Unit
  | [] => Action.pure ()
  | text :: rest => (writeLine stream text).bind fun _ => writeLines stream rest

/-- Flushes a stream. -/
def flush (stream : Stream) : Action σ Fault Unit := fun w =>
  let (fault?, s) := (w.sink stream).flush
  let answer := match fault? with
    | none => .ok ()
    | some f => .error f
  ⟨[.flushed stream fault?], answer, w.setSink stream s⟩

/-- Changes the working directory. -/
def changeDirectory (sys : System σ) (path : String) : Action σ Fault Unit := fun w =>
  match sys.changeDirectory path w.system with
  | .error f => ⟨[], .error f, w⟩
  | .ok s => ⟨[], .ok (), { w with system := s }⟩

/-- Launches a program and waits for its end. -/
def launch (sys : System σ) (args : List String) : Action σ CommandError Unit := fun w =>
  let done := sys.launch args w.system
  ⟨[.launched args (sys.workingDirectory w.system) done.output], done.answer,
    { w with system := done.after }⟩

end Action
end CommandShell
