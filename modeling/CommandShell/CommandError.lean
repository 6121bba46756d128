import CommandShell.Fault

/-!
# Errors of commands

Why a command that was typed did not do what it should. None of these ends a session: each is
reported, and the next line is read.
-/

namespace CommandShell

/-- The ways in which a command fails. -/
inductive CommandError where
  | missingArgument (name : String)
  | changeDirectory (path : String) (cause : Fault)
  | spawn (program : String) (cause : Fault)
  | wait (program : String) (cause : Fault)
  | terminated (program : String) (signal : Int)
  | stream (cause : Fault)
deriving DecidableEq

namespace CommandError

/-- The text by which a failed command is reported. -/
def message : CommandError → String
  | missingArgument name => "expected argument to \"" ++ name ++ "\""
  | changeDirectory path cause => path ++ ": " ++ cause.text
  | spawn program cause => program ++ ": " ++ cause.text
  | wait program cause => program ++ ": waiting for the child failed: " ++ cause.text
  | terminated program signal => program ++ ": terminated by signal " ++ toString signal
  | stream cause => "Io Error <" ++ cause.text ++ ">"

/-- The fault underneath, if there is one. -/
def cause? : CommandError → Option Fault
  | missingArgument _ => none
  | changeDirectory _ cause => some cause
  | spawn _ cause => some cause
  | wait _ cause => some cause
  | terminated _ _ => none
  | stream cause => some cause

end CommandError
end CommandShell
