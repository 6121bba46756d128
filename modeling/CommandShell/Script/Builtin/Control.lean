import CommandShell.Script.Builtin.Places
import CommandShell.Script.Builtin.Signals
import CommandShell.Script.Builtin.Texts
import CommandShell.Script.Builtin.Variables
import CommandShell.Script.Programs
import CommandShell.Script.Token

/-!
# Commands that control a script

Commands of the script language that run further commands, leave loops, functions and the script,
wait for other processes or send signals to them.
-/

namespace CommandShell
namespace Script
namespace Builtin

/-! ## Leaving -/

/-- Ends the script. -/
def exit : Builtin := fun operands => do
  let env ← get
  let status ← match operands with
    | [] => pure (env.interrupted?.getD env.status)
    | text :: _ => number text
  setStatus (status % 256)
  throw .exits

/-- Ends a function or a script that was read in. -/
def leaveFunction : Builtin := fun operands => do
  let status ← match operands with
    | [] => pure (← get).status
    | text :: _ => number text
  setStatus (status % 256)
  throw .returns

/-- Leaves some loops, or goes on with the next turn of the last of them. -/
def leaveLoops (jump : Nat → Jump) : Builtin := fun operands => do
  let count ← match operands with
    | [] => pure 1
    | text :: _ => number text
  if count = 0 then fail ("Illegal number: " ++ operands.headD "")
  let count := min count (← get).loops
  if count = 0 then return {}
  setStatus 0
  throw (jump count)

/-! ## Running further commands -/

/-- Runs its operands as a script. -/
def eval (run : Runner) : Builtin := fun operands => do
  let ran ← runText run 1 (String.intercalate " " operands).toList
  let env ← get
  return .ofStatus (if ran then env.status else 0)

/-- The path of a script that is to be read in. -/
def scriptPath (name : String) : Act String := do
  let env ← get
  let isFile (path : String) : Bool :=
    match env.tree.resolve env.here path with
    | .ok ⟨_, .file _ _⟩ | .ok ⟨_, .program _⟩ => true
    | _ => false
  if name.toList.contains '/' then return name
  match (Programs.paths (env.value? "PATH") name).find? isFile with
  | some path => return path
  | none => fail (name ++ ": not found")

/-- Reads a script in. -/
def readIn (run : Runner) : Builtin := fun operands => do
  let g ← readOptions [] operands
  match g.operands with
  | [] => return {}
  | name :: _ =>
    let path ← scriptPath name
    match (← get).standing.read path with
    | .error f =>
      let reason := if f = .missing ∨ f = .notDirectory then "No such file" else f.sentence
      fail ("cannot open " ++ path ++ ": " ++ reason)
    | .ok bytes =>
      modify fun env => { env with speaker? := some path }
      let act : Act Bool := runText run 1 (Utf8.decodeChars bytes)
      let ran ← fun env =>
        match act env with
        | .error .returns env => .ok true env
        | result => result
      let env ← get
      return .ofStatus (if ran then env.status else 0)

/-- Runs a program in the place of the script, if there is one to be run. -/
def exec (starter : Starter) : Builtin := fun operands => do
  let g ← readOptions [] operands
  if !g.operands.isEmpty then Programs.replace starter g.operands
  return {}

/-! ## Other processes -/

/-- The command in the background that a number or a job number stands for. -/
def findJob (text : String) : Act (Option Job) := do
  let jobs ← ownJobs
  match text.toList with
  | '%' :: digits =>
    let place := Signal.numberOf (String.ofList digits)
    match if digits.all Char.isDigit ∧ 0 < place then jobs[place - 1]? else none with
    | some job => return some job
    | none => fail ("No such job: " ++ text)
  | _ =>
    let process ← number text
    return jobs.find? fun job => job.process = process

/-- A signal that has come while the script waits and has a command; then its status. -/
def interruption (run : Runner) : Act (Option Nat) := do
  receiveAll run
  return (← get).caught.head?.map fun signal => 128 + signal

/-- Waits for commands in the background. The status is that of the last. -/
def waitEach (run : Runner) (status : Nat) : List String → Act Answer
  | [] => return .ofStatus status
  | text :: rest => do
    match ← findJob text with
    | none => waitEach run 127 rest
    | some job =>
      runJobs run mostJobs [job]
      if let some status ← interruption run then return .ofStatus status
      let ended := ((← get).jobs.find? fun j => j.process = job.process).bind Job.ending?
      let ending := ended.getD (.exit 0)
      if !job.isKnown then tellEnding ending
      updateJob job.process fun j => { j with isKnown := true }
      waitEach run (statusOf ending) rest

/-- Waits for commands in the background. -/
def wait (run : Runner) : Builtin := fun operands => do
  let g ← readOptions [] operands
  match g.operands with
  | [] =>
    finishJobs run
    if let some status ← interruption run then return .ofStatus status
    for job in ← ownJobs do
      updateJob job.process fun j => { j with isKnown := true }
    return {}
  | texts =>
    settleJobs run
    waitEach run 0 texts

/-- Sends a signal to the process that a text stands for. -/
def sendTo (run : Runner) (signal : Nat) (text : String) : Act Bool := do
  match text.toList with
  | '%' :: _ =>
    match ← findJob text with
    | some job => send run signal job.process
    | none => return false
  | '-' :: digits =>
    let _ ← number (String.ofList digits)
    return false
  | _ => send run signal (← number text)

/-- Sends signals to processes, or names signals. -/
def kill (run : Runner) : Builtin := fun operands => do
  match ← readKilling operands with
  | .list numbers => listSignals numbers
  | .send signal processes =>
    let mut status := 0
    for process in processes do
      if !(← sendTo run signal process) then
        complain "No such process\n"
        status := 1
    return .ofStatus status

/-! ## Further commands -/

/-- The shelf that a name is kept on; names are listed shelf by shelf. -/
def shelf (name : String) : Nat :=
  let bytes := (Utf8.encode name).map UInt8.toNat
  bytes.foldl (· + ·) (bytes.headD 0 * 16) % 31

/-- Lists or forgets where programs were found, or looks for some. -/
def hash : Builtin := fun operands => do
  let g ← readOptions [('r', false)] operands
  if g.has 'r' then
    modify fun env => { env with found := [] }
    return {}
  if g.operands.isEmpty then
    let listed := (← get).found.reverse.mergeSort fun a b => shelf a.1 ≤ shelf b.1
    return .text (String.join (listed.map fun entry => entry.2 ++ "\n"))
  let mut status := 0
  for name in g.operands do
    match Meaning.ofName (← get) true ((← get).value? "PATH") name with
    | .absent f =>
      complain (name ++ ": " ++ Programs.reason f)
      status := 1
    | .program path => remember name path
    | _ => pure ()
  return .ofStatus status

/-- Says which other names commands have; there are none. -/
def aliasCommand : Builtin := fun operands => do
  let mut status := 0
  for name in operands do
    if !name.toList.contains '=' then
      tell ("alias: " ++ name ++ " not found\n")
      status := 1
  return .ofStatus status

/-- Takes other names of commands away. -/
def unalias : Builtin := fun operands => do
  let g ← readOptions [('a', false)] operands
  for name in g.operands do
    tell ("unalias: " ++ name ++ " not found\n")
  return .ofStatus (if g.operands.isEmpty then 0 else 1)

/-- Says how long the script and its programs have run. -/
def times : Builtin := fun _ =>
  let line := "0m0.000000s 0m0.000000s\n"
  return .text (line ++ line)

/-- Runs the command of the script language of a name. -/
def run (starter : Starter) (runner : Runner) (name : String) : Builtin :=
  match name with
  | ":" | "true" => fun _ => return {}
  | "false" => fun _ => return .ofStatus 1
  | "." => readIn runner
  | "[" => bracket
  | "alias" => aliasCommand
  | "bg" | "fg" => fun _ => fail "No current job"
  | "break" => leaveLoops .breaks
  | "cd" | "chdir" => cd
  | "continue" => leaveLoops .continues
  | "echo" => echo
  | "eval" => eval runner
  | "exec" => exec starter
  | "exit" => exit
  | "export" => exportCommand
  | "getopts" => getopts
  | "hash" => hash
  | "kill" => kill runner
  | "local" => localCommand
  | "printf" => printf
  | "pwd" => pwd
  | "read" => read
  | "readonly" => readOnlyCommand
  | "return" => leaveFunction
  | "set" => set
  | "shift" => shift
  | "test" => test
  | "times" => times
  | "trap" => trap
  | "type" => type
  | "ulimit" => fun _ => return .text "unlimited\n"
  | "umask" => umask
  | "unalias" => unalias
  | "unset" => unset
  | "wait" => wait runner
  | _ => fun _ => return {}

end Builtin
end Script
end CommandShell
