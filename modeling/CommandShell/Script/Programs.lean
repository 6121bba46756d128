import CommandShell.Script.Lookup
import CommandShell.Script.Processes

/-!
# Programs started by a script

A script starts a program with its streams, its place and the variables that it passes on, and
runs it to its end. A file that is executable and in no known format is taken for a script.
-/

namespace CommandShell
namespace Script

/-- Starts another program and runs it to its end. -/
abbrev Starter := Start → Except Fault Done

namespace Programs

/-- The path of the program that runs scripts. -/
def interpreter : String := "/bin/sh"

/-- Starts the program at a path. -/
def startAt (starter : Starter) (env : Env) (path : String) (args : List String) :
    Except Fault Done :=
  let start (path : String) (args : List String) : Except Fault Done :=
    starter {
      target := .placed path
      args
      standing := env.standing
      input := available env 0
      environment := env.environment
      ignored := env.ignored
      mask := env.mask
      inputFault? := (streamFault? env 0).filter fun f => f = .closedStream
      outputFault? := streamFault? env 1 }
  match start path args with
  | .error f =>
    if f = .noFormat then start interpreter (interpreter :: path :: args.drop 1) else .error f
  | .ok d => .ok d

/-- Starts the first program that can be started of those at some paths. -/
def startFirst (starter : Starter) (env : Env) (args : List String) (last : Fault) :
    List String → Except Fault Done
  | [] => .error last
  | path :: rest =>
    match startAt starter env path args with
    | .ok d => .ok d
    | .error f =>
      startFirst starter env args (if f = .missing ∨ f = .notDirectory then last else f) rest

/-- The paths at which a program may be: the path itself if it is one, or a path in each directory
of the search path. -/
def paths (searchPath? : Option String) (name : String) : List String :=
  if name.toList.contains '/' then [name]
  else match searchPath? with
    | none => []
    | some list => (partsOf ':' list).map fun directory => Meaning.inDirectory directory name

/-- What is said about a fault that kept a program from being started. -/
def reason (f : Fault) : String :=
  if f = .missing ∨ f = .notDirectory then "not found" else f.sentence

/-- The status after such a fault. -/
def statusAfter (f : Fault) : Nat :=
  if f = .missing ∨ f = .notDirectory ∨ f = .tooManyLinks ∨ f = .nameTooLong then 127 else 126

/-- Takes over what a program left behind. -/
def absorb (d : Done) : Act Unit := do
  modify fun env => { env with tree := d.tree }
  leave 0 d.input
  for (stream, bytes) in d.output do
    let _ ← put (match stream with | .out => 1 | .err => 2) bytes
  let script := (← get).script
  let (own, others) := d.sent.partition fun entry => entry.1 = script
  modify fun env => { env with
    arrived := env.arrived ++ own.map Prod.snd
    sent := env.sent ++ others }

/-- Complains that a program could not be started. -/
def refuse (name : String) (f : Fault) : Act Unit := do
  complain (name ++ ": " ++ reason f)
  setStatus (statusAfter f)

/-- Runs a program and waits for its end. Where nothing comes after it in its process, it takes the
place of that. -/
def run (starter : Starter) (runner : Runner) (mode : Mode) (paths : List String)
    (args : List String) : Act Unit := do
  settleJobs runner
  let env ← get
  match startFirst starter env args .missing paths with
  | .error f => refuse (args.headD "") f
  | .ok d =>
    absorb d
    if mode.isLast && !env.hasTraps then throw (.gone d.ending)
    tellEnding d.ending
    setStatus (statusOf d.ending)
    receiveAll runner

/-- Runs a program in the place of the present process. -/
def replace (starter : Starter) (args : List String) : Act Unit := do
  let env ← get
  match startFirst starter env args .missing (paths (env.value? "PATH") (args.headD "")) with
  | .error f =>
    refuse (args.headD "") f
    throw .exits
  | .ok d =>
    absorb d
    throw (.gone d.ending)

end Programs
end Script
end CommandShell
