import CommandShell.Machine.Process

/-!
# Finding programs

A program is found by a path, or by its name in the directories of a search path. A file is a
program if it is marked as executable and its first line names an interpreter; then the
interpreter is started on it.

The first line is looked for in the beginning of the file, which is filled up with zeros where the
file is shorter. If it ends there, it is taken without the blanks at its end. Otherwise it is taken
as far as it was seen, but only if the name of the interpreter ends in that part.
-/

namespace CommandShell
namespace Machine

/-! ## First lines -/

/-- An interpreter, and its own argument if it has one. -/
structure Interpreter where
  path : String
  operand? : Option String

namespace Interpreter

/-- The number of bytes in which a first line is looked for. -/
def seenBytes : Nat := 256

/-- A space or a tabulator. -/
def isBlank (b : UInt8) : Bool := b == 0x20 || b == 0x09

/-- The bytes up to a zero. -/
def untilZero (bytes : List UInt8) : List UInt8 := bytes.takeWhile (· ≠ 0)

/-- Cuts a line into an interpreter and its argument. Everything between the blanks after the
interpreter and the end of the line is one argument. -/
def ofLine? (line : List UInt8) : Option Interpreter :=
  let line := (line.reverse.dropWhile isBlank).reverse
  match line.dropWhile isBlank with
  | [] => none
  | line =>
    let isName (b : UInt8) : Bool := !isBlank b && b != 0
    let operand? := match line.dropWhile isName with
      | 0 :: _ => none
      | rest =>
        match rest.dropWhile isBlank with
        | [] => none
        | operand => some (Utf8.decode (untilZero operand))
    some ⟨Utf8.decode (line.takeWhile isName), operand?⟩

/-- The interpreter that the beginning of a file names after its mark `#!`. -/
def ofBeginning? (bytes : List UInt8) : Option Interpreter :=
  let seen := (bytes ++ List.replicate seenBytes 0).take seenBytes
  match seen with
  | 0x23 :: 0x21 :: rest =>
    if (untilZero rest).contains 0x0A then ofLine? (rest.takeWhile (· ≠ 0x0A))
    else
      let named := rest.dropWhile isBlank
      if named.any fun b => isBlank b || b == 0 then ofLine? rest.dropLast else none
  | _ => none

end Interpreter

/-! ## Programs -/

/-- An installed program and the arguments it is started with. -/
structure Image where
  program : String
  args : List String

/-- The most files that are looked into for one program. -/
def mostFiles : Nat := 6

/-- The program at a path, or the one that its interpreters lead to. -/
def load (standing : Standing) : (files : Nat) → String → List String → Except Fault Image
  | files, path, args =>
    match standing.tree.resolve standing.here path, files with
    | .error f, _ => .error f
    | .ok ⟨_, .program _⟩, 0 | .ok ⟨_, .file _ true⟩, 0 => .error .tooManyLinks
    | .ok ⟨_, .program name⟩, _ + 1 => .ok ⟨name, args⟩
    | .ok ⟨_, .file bytes true⟩, fewer + 1 =>
      match Interpreter.ofBeginning? bytes with
      | none => .error .noFormat
      | some interpreter =>
        -- A name without any character stands for the directory itself.
        if interpreter.path = "" then .error .denied
        else
          load standing fewer interpreter.path
            (interpreter.path :: interpreter.operand?.toList ++ path :: args.drop 1)
    | .ok _, _ => .error .denied

/-- Looks for a program in directories, one after the other; an empty one stands for the place of
the search. Where the program is not there, the next is tried; a refusal is kept in mind, and any
other fault ends the search. -/
def searchIn (standing : Standing) (name : String) (args : List String) (refused : Bool)
    (last : Fault) : List String → Except Fault Image
  | [] => .error (if refused then .denied else last)
  | directory :: rest =>
    let path := if directory = "" then name else directory ++ "/" ++ name
    match load standing mostFiles path args with
    | .ok image => .ok image
    | .error f =>
      if f = .denied then searchIn standing name args true f rest
      else if f = .missing ∨ f = .notDirectory then searchIn standing name args refused f rest
      else .error f

/-- The part of a name that is looked for: of a name that is longer than any in a directory, so
much that it still is. -/
def considered (name : String) : String := String.ofList (name.toList.take (Path.longestName + 1))

/-- Finds the program that is to be started. A name with a slash is a path. -/
def search (s : Start) : Except Fault Image :=
  match s.target with
  | .placed path => load s.standing mostFiles path s.args
  | .named name =>
    if name = "" then .error .missing
    else if name.toList.contains '/' then load s.standing mostFiles name s.args
    else
      let directories := (partsOf ':' s.searchPath).filter fun directory =>
        directory.utf8ByteSize < Path.longestText
      searchIn s.standing (considered name) s.args false .missing directories

end Machine
end CommandShell
