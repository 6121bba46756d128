import CommandShell.Action
import CommandShell.Registry
import CommandShell.Words

/-!
# Running a command

A command is a list of arguments, the first of which names it. A name in the registry runs a
builtin command; any other name launches a program. `dispatch` runs a command, and `execute` also
reports its failure, after which the session goes on.
-/

namespace CommandShell

/-- Whether the session goes on after a command. -/
inductive Flow where
  | goOn
  | stop
deriving DecidableEq

/-- The settings of a shell: the name in its reports, its prompt, and its builtin commands. -/
structure Settings where
  name : String := "kpsh"
  prompt : String := "> "
  registry : Registry := .standard

variable {σ : Type}

namespace Builtin

/-- The name under which a missing directory is asked for, whatever the entry is called. -/
def cdName : String := "cd"

/-- Changes to the directory that the first argument after the name gives. Further arguments are
not looked at. -/
def runCd (sys : System σ) : List String → Action σ CommandError Flow
  | _ :: path :: _ => do
    (Action.changeDirectory sys path).mapError (.changeDirectory path)
    return .goOn
  | _ => Action.fail (.missingArgument cdName)

/-- The help text, by lines: a banner, the name of every entry of the registry, and a last line. -/
def helpLines (registry : Registry) : List String :=
  ["KPSH",
    "Type program names and arguments, and hit enter.",
    "The following are built in:"]
  ++ registry.names.map ("  " ++ ·)
  ++ ["Use the man command for information on other programs."]

/-- Writes the help text. -/
def runHelp (registry : Registry) : Action σ CommandError Flow := do
  (Action.writeLines .out (helpLines registry)).mapError .stream
  return .goOn

/-- Runs a builtin command on its arguments, the first of which is the name it was called by. -/
def run (sys : System σ) (registry : Registry) (args : List String) :
    Builtin → Action σ CommandError Flow
  | cd => runCd sys args
  | help => runHelp registry
  | exit => return .stop

end Builtin

namespace Shell

/-- Launches a program on the whole list of arguments. What was written so far is flushed first,
so that it comes before the output of the program. -/
def launch (sys : System σ) (args : List String) : Action σ CommandError Flow := do
  (Action.flush .out).mapError .stream
  Action.launch sys args
  return .goOn

/-- Runs a command. An empty list of arguments is no command. -/
def dispatch (sys : System σ) (settings : Settings) : List String → Action σ CommandError Flow
  | [] => return .goOn
  | name :: rest => do
    Action.note (.entered (name :: rest))
    match settings.registry.lookup name with
    | some builtin => builtin.run sys settings.registry (name :: rest)
    | none => launch sys (name :: rest)

/-- The report of a failed command. -/
def report (settings : Settings) (e : CommandError) : String :=
  settings.name ++ ": " ++ e.message

/-- Runs a command and reports its failure. It is an error only if the report cannot be
written. -/
def execute (sys : System σ) (settings : Settings) (args : List String) : Action σ Fault Flow :=
  (dispatch sys settings args).recover fun e => do
    Action.writeLine .err (report settings e)
    return .goOn

/-- Writes a prompt, and flushes it. -/
def prompt (text : String) : Action σ Fault Unit := do
  Action.note .prompting
  Action.write .out text
  Action.flush .out

end Shell
end CommandShell
