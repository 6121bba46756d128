import CommandShell.ErrorNumbers

/-!
# Faults

A fault is a failure of a stream or of the operating system below the shell. It is known by its
own text, by the system's error number, or only by its kind.
-/

namespace CommandShell

/-- The kinds of fault that carry no text and no number of their own. -/
inductive FaultKind where
  | notFound
  | permissionDenied
  | brokenPipe
  | interrupted
  | wouldBlock
  | unexpectedEnd
  | outOfMemory
  | other
deriving DecidableEq

/-- What is said about a fault of which only the kind is known. -/
def FaultKind.text : FaultKind → String
  | notFound => "entity not found"
  | permissionDenied => "permission denied"
  | brokenPipe => "broken pipe"
  | interrupted => "operation interrupted"
  | wouldBlock => "operation would block"
  | unexpectedEnd => "unexpected end of file"
  | outOfMemory => "out of memory"
  | other => "other error"

/-- A failure of a stream or of the operating system. -/
inductive Fault where
  | described (text : String)
  | numbered (code : Int)
  | classified (kind : FaultKind)
deriving DecidableEq

namespace Fault

/-- The text by which a fault is reported. -/
def text : Fault → String
  | described text => text
  | numbered code => systemText code ++ " (os error " ++ toString code ++ ")"
  | classified kind => kind.text

/-- An interruption is no failure of the operation: reading and writing are tried again after
one, and it goes no further. -/
def isInterruption : Fault → Bool
  | numbered code => code == 4
  | classified kind => kind == .interrupted
  | described _ => false

/-! ## The system's error numbers -/

/-- No such file or directory. -/
def missing : Fault := numbered 2

/-- The stream is not open. -/
def closedStream : Fault := numbered 9

/-- The children of the process are not kept to be waited for. -/
def noChild : Fault := numbered 10

/-- The system can start no further process. -/
def exhausted : Fault := numbered 11

/-- Permission denied. -/
def denied : Fault := numbered 13

/-- The place is in use. -/
def busy : Fault := numbered 16

/-- Something is already there. -/
def present : Fault := numbered 17

/-- Not a directory. -/
def notDirectory : Fault := numbered 20

/-- Is a directory. -/
def isDirectory : Fault := numbered 21

/-- The argument makes no sense. -/
def invalid : Fault := numbered 22

/-- No space left on the device. -/
def noSpace : Fault := numbered 28

/-- A path or one of its names is too long. -/
def nameTooLong : Fault := numbered 36

/-- The directory still has entries. -/
def notEmpty : Fault := numbered 39

/-- Too many symbolic links on the way. -/
def tooManyLinks : Fault := numbered 40

/-- The file is executable and in no known format. -/
def noFormat : Fault := numbered 8

end Fault
end CommandShell
