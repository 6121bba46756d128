import CommandShell.Child
import CommandShell.FileTree
import CommandShell.Text.Utf8
import CommandShell.Trace

/-!
# Processes

What a program is started with and what it leaves behind. A program is then a function from the
one to the other: it runs to its end in one go.
-/

namespace CommandShell

/-- Which program is started: the one that a search finds under a name, or the one at a path. -/
inductive Target where
  | named (name : String)
  | placed (path : String)
deriving DecidableEq

/-- The variables that a process passes on to the programs it starts. -/
abbrev Environment := List (String × String)

/-- What a program is started with. -/
structure Start where
  target : Target
  /-- The arguments; the first is the name it was started by. -/
  args : List String
  standing : Standing
  /-- What is left to read on its standard input. -/
  input : List UInt8
  environment : Environment
  /-- The signals that it does not notice. -/
  ignored : List Nat
  /-- The permissions that the files which it makes do not get. -/
  mask : Nat := 0o022
  /-- Why it cannot read its standard input. -/
  inputFault? : Option Fault := none
  /-- Why it cannot write to its standard output. -/
  outputFault? : Option Fault := none

/-- What a program leaves behind. -/
structure Done where
  output : List (Stream × List UInt8)
  tree : FileTree
  input : List UInt8
  ending : Child.Ending
  /-- Signals for other processes: the number of the process and that of the signal. -/
  sent : List (Nat × Nat) := []

namespace Start

/-- The arguments after the name. -/
def operands (s : Start) : List String := s.args.drop 1

/-- Where programs are looked for. -/
def searchPath (s : Start) : String := (s.environment.lookup "PATH").getD ""

/-- Ends with an exit code and some output. -/
def leave (s : Start) (code : Nat) (output : List (Stream × List UInt8)) : Done :=
  { output, tree := s.standing.tree, input := s.input, ending := .exit code }

/-- What stands where a written path leads to. -/
def find (s : Start) (path : String) : Except Fault FileTree.Found :=
  s.standing.tree.resolve s.standing.here path

/-- The bytes of the file at a path. Directories cannot be opened for reading. -/
def read (s : Start) (path : String) : Except Fault (List UInt8) := s.standing.read path

end Start

/-- A text on the standard error stream, with its newline. -/
def complaint (text : String) : Stream × List UInt8 := (.err, Utf8.encode (text ++ "\n"))

/-- What utilities say about a fault: the system's sentence without its number. -/
def Fault.sentence : Fault → String
  | .numbered code => systemText code
  | f => f.text

end CommandShell
