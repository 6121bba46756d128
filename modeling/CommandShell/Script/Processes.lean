import CommandShell.Script.Environment
import CommandShell.Script.Grammar

/-!
# Processes of a script

A subshell works on a copy of a part of the environment and comes to an end of its own. Commands
in the background are kept and run later: before the next command that the script waits for,
unless they sleep, or when the script asks for their end. Signals for the process of the script
take effect when a command that it waits for is over.
-/

namespace CommandShell
namespace Script

/-- How a command is run. -/
structure Mode where
  /-- Nothing comes after the command in its process, which a program can replace. -/
  isLast : Bool := false
  /-- The status of the command is looked at, so that a failure does not end the script. -/
  isTested : Bool := false

/-- Runs a command. -/
abbrev Runner := Mode → Command → Act Unit

/-! ## Texts of scripts -/

/-- The line up to which the tokens go that come before the last ones, with the texts that
commands read. -/
def lineAfter (tokens rest : List Token) : Nat :=
  let taken := tokens.take (tokens.length - rest.length)
  let isDocument (t : Token) : Bool := match t.kind with
    | .redirection _ (.document _ _) => true
    | _ => false
  match taken.getLast? with
  | some ⟨line, .lineEnd⟩ => if taken.any isDocument then Grammar.lineOf rest else line
  | _ => Grammar.lineOf rest

/-- Runs at most `most` lines of a script one after the other. What is to be done before each is
told the tokens of the line and those after it. The answer says whether there was any command. -/
def runLines (run : Runner) (before : List Token → List Token → Act Unit) :
    (most : Nat) → List Token → Act Bool
  | 0, _ => return false
  | most + 1, tokens =>
    if tokens.isEmpty || Grammar.next tokens = .scriptEnd then return false
    else
      match Grammar.firstLine tokens with
      | .error m => do
        modify fun env => { env with line := m.line }
        fail ("Syntax error: " ++ m.text)
      | .ok (command, rest) => do
        modify fun env => { env with readUpTo := lineAfter tokens rest }
        before tokens rest
        if !(← get).has 'n' then run {} command
        return (← runLines run before most rest) || command != .nothing

/-- Runs the text of a script that begins at a line. -/
def runText (run : Runner) (line : Nat) (text : List Char) : Act Bool :=
  let tokens := Token.ofScript line text
  fun env =>
    afterwards (fun after => { after with readUpTo := env.readUpTo })
      (runLines run (fun _ _ => pure ()) (tokens.length + 1) tokens) env

/-! ## Ends of processes -/

/-- Runs the command that is set for the end. The status of the process stays as it is, unless the
command ends with another one. -/
def runExitTrap (run : Runner) : Act Unit := do
  let env ← get
  match env.trap? 0 with
  | none | some "" => pure ()
  | some action =>
    modify fun env => { env with
      traps := env.traps.filter fun entry => entry.1 != 0
      interrupted? := some env.status }
    let act : Act Bool := runText run 1 action.toList
    fun env =>
      match act env with
      | .error (.gone ending) env => .error (.gone ending) env
      | .error .exits env => .ok () env
      | .ok _ after | .error _ after => .ok () { after with status := env.status }

/-- Does something as a process of its own, up to its end. -/
def asProcess (run : Runner) (act : Act Unit) : Act Child.Ending := fun env =>
  let ended (env : Env) : EStateM.Result Jump Env Child.Ending :=
    match runExitTrap run env with
    | .error (.gone ending) env => .ok ending env
    | .ok _ env | .error _ env => .ok (.exit env.status) env
  match act env with
  | .error (.gone ending) env => .ok ending env
  | .ok _ env | .error _ env => ended env

/-- A number for a new process. -/
def newProcess : Act Nat := do
  let process := (← get).nextProcess
  modify fun env => { env with nextProcess := process + 1 }
  return process

/-! ## Commands in the background -/

/-- A command may wait for some time. -/
def Command.sleeps : Command → Bool
  | .nothing => false
  | .simple _ words _ => words.any fun word => Word.plain? word = some "sleep"
  | .inOrder first next | .ifSucceeds first next | .ifFails first next | .piped first next =>
    first.sleeps || next.sleeps
  | .negated body | .background body | .subshell _ body _ | .redirected _ body _
  | .forEach _ _ _ body | .define _ body => body.sleeps
  | .branch condition first otherwise =>
    condition.sleeps || first.sleeps || otherwise.sleeps
  | .loop _ condition body => condition.sleeps || body.sleeps
  | .select _ _ clauses => clauses.sleeps
  | .clause _ body next => body.sleeps || next.sleeps

/-- Changes the record of a command in the background. -/
def updateJob (process : Nat) (change : Job → Job) : Act Unit := modify fun env =>
  { env with jobs := env.jobs.map fun job => if job.process = process then change job else job }

/-- The commands in the background that the present process has started. -/
def ownJobs : Act (List Job) := do
  let env ← get
  return env.jobs.filter fun job => job.owner = env.process

/-- Does something in another scope, and comes back to the present one. -/
def inScope {α : Type} (scope : Scope) (act : Act α) : Act α := do
  let saved := (← get).toScope
  afterwards (fun env => { env with toScope := saved }) do
    modify fun env => { env with toScope := scope }
    act

/-- Runs commands in the background to their ends, and so those that they start themselves, to a
depth of at most `depth`. -/
def runJobs (run : Runner) : (depth : Nat) → List Job → Act Unit
  | 0, _ => pure ()
  | _, [] => pure ()
  | depth + 1, job :: rest => do
    let isOpen := (← get).jobs.any fun j => j.process = job.process && j.ending?.isNone
    if isOpen then
      updateJob job.process fun j => { j with ending? := some (.exit 0) }
      let ending ← inScope job.scope do
        let ending ← asProcess run (run { isLast := true } job.command)
        runJobs run depth (← ownJobs)
        return ending
      updateJob job.process fun j => { j with ending? := some ending }
    runJobs run depth rest

/-- The most commands in the background that are run in one go. -/
def mostJobs : Nat := 1000

/-- Runs all commands in the background of the present process. -/
def finishJobs (run : Runner) : Act Unit := do runJobs run mostJobs (← ownJobs)

/-- Runs those commands in the background that have had time to run. -/
def settleJobs (run : Runner) : Act Unit := do
  runJobs run mostJobs ((← ownJobs).filter fun job => !job.command.sleeps)

/-- The signals that a command in the background does not notice. -/
def deafInBackground : List Nat := [2, 3]

/-- Starts a command in the background, with nothing to read. -/
def startJob (command : Command) : Act Unit := do
  let process ← newProcess
  let nothing ← newChannel (.device false)
  let env ← get
  let scope := env.toScope.inSubshell process
  let scope : Scope := { scope with
    deaf := scope.deaf ++ deafInBackground
    streams := (0, nothing) :: scope.streams.filter fun entry => entry.1 != 0 }
  let job : Job := { process, owner := env.process, command, scope }
  set { env with
    jobs := env.jobs ++ [job]
    background? := some process
    status := 0 }

/-! ## Signals -/

/-- A signal that no process can hide from. -/
def isInescapable (signal : Nat) : Bool := signal == Signal.kill || signal == Signal.stop

/-- What becomes of a signal in a process: it is not noticed, it is kept until its command is run,
or it has its usual effect. -/
inductive Reaction where
  | none
  | caught
  | usual (effect : Signal.Effect)

/-- What becomes of a signal. -/
def Scope.reaction (s : Scope) (signal : Nat) : Reaction :=
  if isInescapable signal then .usual (Signal.effect signal)
  else if s.deaf.contains signal then .none
  else match s.trap? signal with
    | some "" => .none
    | some _ => .caught
    | none => .usual (Signal.effect signal)

/-- Keeps a signal until its command is run. -/
def catchSignal (signal : Nat) : Act Unit := modify fun env =>
  if env.caught.contains signal then env else { env with caught := env.caught ++ [signal] }

/-- Lets the signals that have arrived take effect on a process that has stopped, until one makes
it go on or ends it. If none does, it loses the line that controls it. -/
def whileStopped : List Nat → Act Unit
  | [] => do
    modify fun env => { env with arrived := [] }
    throw (.gone (.signal Signal.hangup))
  | signal :: rest => do
    if signal = Signal.proceed then modify fun env => { env with arrived := rest }
    else match (← get).reaction signal with
      | .usual .ends => throw (.gone (.signal signal))
      | .caught =>
        catchSignal signal
        whileStopped rest
      | _ => whileStopped rest

/-- Lets a signal take effect on the present process. -/
def receive (run : Runner) (signal : Nat) : Act Unit := do
  if signal = 0 then return
  match (← get).reaction signal with
  | .none | .usual .ignored => pure ()
  | .caught => catchSignal signal
  | .usual .ends => throw (.gone (.signal signal))
  | .usual .stops =>
    finishJobs run
    whileStopped (← get).arrived

/-- Lets the signals take effect that have arrived for the process of the script. -/
def receiveAll (run : Runner) : Act Unit := do
  let env ← get
  if env.isSubshell then return
  modify fun env => { env with arrived := [] }
  env.arrived.forM (receive run)

/-- Sends a signal to a process, and says whether there is such a process. -/
def send (run : Runner) (signal process : Nat) : Act Bool := do
  let env ← get
  if process = env.script then
    if env.isSubshell then modify fun env => { env with arrived := env.arrived ++ [signal] }
    else receive run signal
    return true
  else if env.outer.contains process then
    modify fun env => { env with sent := env.sent ++ [(process, signal)] }
    return true
  else match env.jobs.find? fun job => job.process = process with
    | none => return false
    | some job =>
      if job.ending?.isNone then
        match job.scope.reaction signal with
        | .usual .ends =>
          if signal ≠ 0 then
            updateJob process fun job => { job with ending? := some (.signal signal) }
        | _ => pure ()
      return !job.isKnown

/-- Runs the commands of the signals that were caught. Afterwards the status is what it was,
unless such a command leaves a function. -/
def runTraps (run : Runner) : Act Unit := do
  let env ← get
  if env.caught.isEmpty then return
  modify fun env => { env with caught := [] }
  for signal in env.caught.mergeSort do
    match env.trap? signal with
    | none | some "" => pure ()
    | some action =>
      let before := (← get).status
      let interrupted? := (← get).interrupted?
      modify fun env => { env with interrupted? := some (interrupted?.getD before) }
      let act : Act Bool := runText run 1 action.toList
      let restored (env : Env) : Env := { env with status := before, interrupted? }
      fun env =>
        match act env with
        | .ok _ env => .ok () (restored env)
        | .error (.breaks loops) env => .error (.breaks loops) (restored env)
        | .error (.continues loops) env => .error (.continues loops) (restored env)
        | .error jump env => .error jump { env with interrupted? }

/-! ## Waiting for processes -/

/-- Says what ended a process, if that is worth saying. -/
def tellEnding : Child.Ending → Act Unit
  | .exit _ => pure ()
  | .signal number =>
    match Signal.sentence? number with
    | some text => tell (text ++ "\n")
    | none => pure ()

/-- The status of a process that has ended. -/
def statusOf : Child.Ending → Nat
  | .exit code => code
  | .signal number => 128 + number

/-- Does something in a subshell, up to its end. -/
def inSubshell (run : Runner) (change : Scope → Scope) (act : Act Unit) : Act Child.Ending := do
  let process ← newProcess
  inScope (change ((← get).toScope.inSubshell process)) do
    let ending ← asProcess run act
    finishJobs run
    return ending

/-- Waits for a subshell, and goes on with its status. -/
def waitFor (run : Runner) (change : Scope → Scope) (act : Act Unit) : Act Unit := do
  settleJobs run
  let ending ← inSubshell run change act
  tellEnding ending
  setStatus (statusOf ending)
  receiveAll run

end Script
end CommandShell
