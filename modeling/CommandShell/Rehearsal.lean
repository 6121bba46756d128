import CommandShell.FileTree
import CommandShell.System

/-!
# Rehearsed launches

A launcher that runs no program: rules say which launches fail, and how. All others succeed and
write nothing. Together with a place in a file tree it makes a system in which a session can be
rehearsed.
-/

namespace CommandShell

/-- The launch of a program fails with an error; a rule for one time is used up by that. -/
structure LaunchRule where
  program : String
  error : CommandError
  once : Bool

namespace LaunchRule

/-- The answer to the launch of a program by the first rule for it, and the rules afterwards. -/
def decide (program : String) : List LaunchRule → Except CommandError Unit × List LaunchRule
  | [] => (.ok (), [])
  | rule :: rest =>
    if rule.program = program then
      (.error rule.error, if rule.once then rest else rule :: rest)
    else
      let (answer, rest) := decide program rest
      (answer, rule :: rest)

/-- The launcher that answers by rules. -/
def launcher : Launcher (List LaunchRule) where
  launch args _ rules :=
    let (answer, after) := decide (args.headD "") rules
    ⟨[], answer, after⟩

end LaunchRule

/-- A place in a file tree, and rules for launches. -/
abbrev Rehearsal := Standing × List LaunchRule

/-- The system with rehearsed launches. -/
def Rehearsal.system : System Rehearsal := .ofParts Standing.directories LaunchRule.launcher

end CommandShell
