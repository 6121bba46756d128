import CommandShell.Script.Builtin.Answer
import CommandShell.Script.Grammar

/-!
# What a command name means

A name stands for a command of the script language, for a function, or for a program that is
looked for on the search path. Functions come before the commands of the script language that are
not special.
-/

namespace CommandShell
namespace Script

/-- What a command name stands for. -/
inductive Meaning where
  | special
  | function (body : Command)
  | ordinary
  | program (path : String)
  | absent (f : Fault)

namespace Meaning

/-- The commands of the script language that a function can replace. -/
def ordinaryCommands : List String :=
  ["[", "alias", "bg", "cd", "chdir", "command", "echo", "false", "fg", "getopts", "hash", "jobs",
    "kill", "printf", "pwd", "read", "test", "true", "type", "ulimit", "umask", "unalias", "wait"]

/-- The search path where none is set to be used. -/
def standardPath : String := "/usr/bin:/bin:/usr/sbin:/sbin"

/-- The path of a program in a directory; an empty one is the place of the search. -/
def inDirectory (directory name : String) : String :=
  if directory = "" then name else directory ++ "/" ++ name

/-- Looks for a program in directories. What keeps it from being found is said by the last of them
that is more than a missing file. -/
def search (s : Standing) (name : String) (last : Fault) : List String → Meaning
  | [] => .absent last
  | directory :: rest =>
    let path := inDirectory directory name
    match s.tree.resolve s.here path with
    | .ok ⟨_, .program _⟩ | .ok ⟨_, .file _ true⟩ => .program path
    | .ok _ => search s name .denied rest
    | .error f =>
      search s name (if f = .missing ∨ f = .notDirectory then last else f) rest

/-- Looks for a program on the search path. -/
def program? (env : Env) (searchPath : Option String) (name : String) : Meaning :=
  match searchPath with
  | none => .absent .missing
  | some path => search env.standing name .missing (partsOf ':' path)

/-- What a name stands for; functions may be left out. -/
def ofName (env : Env) (withFunctions : Bool) (searchPath : Option String) (name : String) :
    Meaning :=
  if name.toList.contains '/' then .program name
  else if Grammar.specialCommands.contains name then .special
  else match (env.functions.lookup name).filter fun _ => withFunctions with
    | some body => .function body
    | none =>
      if ordinaryCommands.contains name then .ordinary
      else program? env searchPath name

end Meaning

namespace Builtin

/-- Describes what a name stands for: in a sentence, or as it could be called. -/
def describe (inSentence : Bool) (searchPath : Option String) (name : String) :
    Act (String × Nat) := do
  let say (kind : String) : Act (String × Nat) :=
    return (name ++ (if inSentence then " is a" ++ kind else "") ++ "\n", 0)
  let atPath (path : String) (isKnown : Bool) : Act (String × Nat) :=
    let before := name ++ if isKnown then " is a tracked alias for " else " is "
    return ((if inSentence then before else "") ++ path ++ "\n", 0)
  let absent : Act (String × Nat) :=
    return (if inSentence then name ++ ": not found\n" else "", 127)
  let env ← get
  if Grammar.keywords.contains name then say " shell keyword"
  else match Meaning.ofName env true searchPath name with
    | .special => say " special shell builtin"
    | .function _ => say " shell function"
    | .ordinary => say " shell builtin"
    | .absent _ => absent
    | .program path =>
      if name.toList.contains '/' then
        match env.tree.resolve env.here path with
        | .ok _ => atPath path false
        | .error _ => absent
      else
        let isKnown := (env.found.lookup name).isSome
        remember name path
        atPath path isKnown

/-- Describes what some names stand for. -/
def type : Builtin := fun operands => do
  let mut output := ""
  let mut status := 0
  for name in operands do
    let (text, code) ← describe true ((← get).value? "PATH") name
    output := output ++ text
    status := max status code
  return { output := Utf8.encode output, status }

end Builtin
end Script
end CommandShell
