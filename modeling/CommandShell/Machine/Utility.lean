import CommandShell.Machine.Utility.Cat
import CommandShell.Machine.Utility.Directories
import CommandShell.Machine.Utility.Echo

/-!
# Utilities

The small programs that every system has: they write texts and files, make and remove
directories, wait, or only succeed or fail.
-/

namespace CommandShell
namespace Utility

/-- A length of time: a number, and perhaps a letter for its unit. -/
def isInterval (text : String) : Bool :=
  let withoutUnit := match text.toList.reverse with
    | c :: rest => if "smhd".toList.contains c then String.ofList rest.reverse else text
    | [] => text
  match Numeral.readReal ⟨64, 16383⟩ withoutUnit with
  | (.finite negative numerator _, .whole) => withoutUnit != "" && (!negative || numerator = 0)
  | (.infinite negative, .whole) => !negative
  | _ => false

/-- Waits, which takes no time here, unless an operand is no length of time. -/
def sleep (s : Start) : Done :=
  s.withOperands [] fun split =>
    match split.operands.filter fun operand => !isInterval operand with
    | [] => s.leave 0 []
    | bad =>
      let messages := bad.map fun operand =>
        s.message ("invalid time interval " ++ Quotation.escaped operand)
      s.leave 1 (messages ++ [complaint ("Try '" ++ s.name ++ " --help' for more information.")])

/-- What is left of the work of a utility that cannot write to its standard output. -/
def withoutOutput (s : Start) (f : Fault) (d : Done) : Done :=
  let isWritten (part : Stream × List UInt8) : Bool := part.1 = .out && !part.2.isEmpty
  if d.output.any isWritten then
    { d with
      output := (d.output.filter fun part => part.1 ≠ .out)
        ++ [s.message ("write error: " ++ f.sentence)]
      ending := .exit 1 }
  else d

/-- Does the work of the utility of a name. -/
def work (name : String) (s : Start) : Done :=
  match name with
  | "true" => s.leave 0 []
  | "false" => s.leave 1 []
  | "sleep" => sleep s
  | "echo" => s.leave 0 [(.out, echo true false s.operands)]
  | "printf" => printf s
  | "pwd" => pwd s
  | "cat" => cat s
  | "rmdir" => rmdir s
  | "mkdir" => mkdir s
  | _ => s.leave 127 []

/-- Runs the utility of a name. -/
def run (name : String) (s : Start) : Done :=
  match s.outputFault? with
  | none => work name s
  | some f => withoutOutput s f (work name s)

end Utility
end CommandShell
