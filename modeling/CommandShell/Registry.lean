/-!
# The registry of builtin commands

A registry names the commands that the shell runs itself. It is a list in which order counts and
names may repeat: of several entries with one name the first is found, and all are listed.
-/

namespace CommandShell

/-- The commands that the shell runs itself. -/
inductive Builtin where
  | cd
  | help
  | exit
deriving DecidableEq

/-- The names under which builtin commands are called. -/
structure Registry where
  entries : List (String × Builtin)
deriving DecidableEq

namespace Registry

/-- Every builtin command under its usual name. -/
def standard : Registry := ⟨[("cd", .cd), ("help", .help), ("exit", .exit)]⟩

/-- The builtin command that a name calls: that of the first entry with exactly this name. -/
def lookup (r : Registry) (name : String) : Option Builtin :=
  (r.entries.find? fun entry => entry.1 == name).map Prod.snd

/-- All names, in order. -/
def names (r : Registry) : List String := r.entries.map Prod.fst

end Registry
end CommandShell
