import CommandShell.Action
import CommandShell.Machine.Search
import CommandShell.Machine.Utility
import CommandShell.Script.Run

/-!
# Machines

A machine is a system of its own: a file tree, the programs in it, and one standard input that
they share. Programs are utilities and scripts; a script starts further programs on the same
machine.
-/

namespace CommandShell

/-- The state of a machine. -/
structure Machine where
  standing : Standing
  /-- What a program can read on its standard input. -/
  input : List UInt8
  environment : Environment
  /-- A child that has ended is kept until it was waited for. -/
  keepsChildren : Bool := true

namespace Machine

/-- Programs start programs to this depth. -/
def deepest : Nat := 64

/-- No process has a smaller number. -/
def firstProcess : Nat := 1000

/-- The processes above one at some number of levels, the one that started it first. -/
def processesAbove (levels : Nat) : List Nat :=
  (List.range (deepest - 1 - levels)).map fun n => firstProcess + levels + 1 + n

/-- Starts a program and runs it to its end. The programs that it starts are one level deeper. -/
def start : (levels : Nat) → Start → Except Fault Done
  | 0, _ => .error .exhausted
  | levels + 1, s =>
    match search s with
    | .error f => .error f
    | .ok image =>
      let s := { s with args := image.args }
      if image.program = "sh" then
        .ok (Script.run (start levels) (firstProcess + levels) (processesAbove levels) s)
      else .ok (Utility.run image.program s)

/-- An argument cannot hold a NUL character. -/
def nulInArguments : Fault := .described "nul byte found in provided data"

/-- Starts the program that arguments name. -/
def startAll (m : Machine) (args : List String) : Except Fault Done :=
  if args.any fun arg => arg.toList.contains '\x00' then .error nulInArguments
  else
    start deepest {
      target := .named (args.headD "")
      args
      standing := m.standing
      input := m.input
      environment := m.environment
      ignored := [] }

/-- What a machine reports about a child that has ended. -/
def reports (m : Machine) (d : Done) : List Child.Report :=
  if m.keepsChildren then [.status d.ending.word] else []

/-- Launches a program and waits for its end. -/
def launch (args : List String) (m : Machine) : Launch Machine :=
  match args with
  | [] => ⟨[], .ok (), m⟩
  | program :: _ =>
    match m.startAll args with
    | .error f => ⟨[], (Child.conclude program (.error f) []).answer, m⟩
    | .ok d =>
      ⟨d.output, (Child.conclude program (.ok ()) (m.reports d)).answer,
        { m with standing := { m.standing with tree := d.tree }, input := d.input }⟩

/-- Goes to another directory. -/
def changeDirectory (path : String) (m : Machine) : Except Fault Machine :=
  (m.standing.changeDirectory path).map fun standing => { m with standing }

/-- A machine as the system below a shell. -/
def system : System Machine where
  workingDirectory m := m.standing.workingDirectory
  changeDirectory := changeDirectory
  launch := launch

end Machine
end CommandShell
