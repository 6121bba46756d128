/-!
# Signals

The numbers and names of signals, and what a process does that has made no arrangement for one.
-/

namespace CommandShell
namespace Signal

/-- The names of the signals from one on. Those without a name are written as numbers. -/
def names : List String :=
  ["HUP", "INT", "QUIT", "ILL", "TRAP", "ABRT", "BUS", "FPE", "KILL", "USR1", "SEGV", "USR2",
    "PIPE", "ALRM", "TERM", "16", "CHLD", "CONT", "STOP", "TSTP", "TTIN", "TTOU", "URG",
    "XCPU", "XFSZ", "VTALRM", "PROF", "WINCH", "IO", "PWR", "SYS", "32", "33"]

/-- The largest signal number. -/
def largest : Nat := 64

/-- The first of the signals that have no fixed use. -/
def firstFree : Nat := 34

/-- The signals above this one are named by their distance from the last. -/
def middleFree : Nat := 49

/-- The line that controls a process was lost. -/
def hangup : Nat := 1

/-- A process ends without being asked. -/
def kill : Nat := 9

/-- A process is asked to end. -/
def terminate : Nat := 15

/-- A stopped process goes on. -/
def proceed : Nat := 18

/-- A process is stopped, whatever it has arranged. -/
def stop : Nat := 19

/-- The signals that no program notices that was started in the usual way: the two that threads
use among themselves. -/
def reserved : List Nat := [32, 33]

/-- The name of a signal; zero stands for none. -/
def name (number : Nat) : String :=
  if number < firstFree then (names[number - 1]?).getD ""
  else if number = firstFree then "RTMIN"
  else if number = largest then "RTMAX"
  else if number ≤ middleFree then "RTMIN+" ++ toString (number - firstFree)
  else "RTMAX-" ++ toString (largest - number)

/-- The signal of a name, in capital or small letters. -/
def ofName? (text : String) : Option Nat :=
  let capital (c : Char) : Char := if 'a' ≤ c ∧ c ≤ 'z' then Char.ofNat (c.toNat - 32) else c
  let text := String.ofList (text.toList.map capital)
  ((List.range largest).map (· + 1)).find? fun number => name number = text

/-- A text of digits. -/
def isNumber (text : String) : Bool :=
  !text.isEmpty && text.toList.all Char.isDigit

/-- The value of a text of digits. -/
def numberOf (text : String) : Nat :=
  text.toList.foldl (fun value c => value * 10 + (c.toNat - '0'.toNat)) 0

/-- The signal of a name or number. -/
def ofText? (text : String) : Option Nat :=
  if isNumber text then
    if numberOf text ≤ largest then some (numberOf text) else none
  else ofName? text

/-- What a signal does to a process. -/
inductive Effect where
  | ignored
  | stops
  | ends
deriving DecidableEq

/-- What a signal does to a process that has made no arrangement for it. Signal zero only asks
whether the process is there. -/
def effect (number : Nat) : Effect :=
  if [0, 17, proceed, 23, 28].contains number || reserved.contains number then .ignored
  else if stop ≤ number ∧ number ≤ 22 then .stops
  else .ends

/-- What is said about a process that a signal ended. Of an interrupt and of a broken pipe nothing
is said. -/
def sentence? : Nat → Option String
  | 1 => some "Hangup"
  | 2 => none
  | 3 => some "Quit"
  | 4 => some "Illegal instruction"
  | 5 => some "Trace/breakpoint trap"
  | 6 => some "Aborted"
  | 7 => some "Bus error"
  | 8 => some "Floating point exception"
  | 9 => some "Killed"
  | 10 => some "User defined signal 1"
  | 11 => some "Segmentation fault"
  | 12 => some "User defined signal 2"
  | 13 => none
  | 14 => some "Alarm clock"
  | 15 => some "Terminated"
  | 16 => some "Stack fault"
  | 24 => some "CPU time limit exceeded"
  | 25 => some "File size limit exceeded"
  | 26 => some "Virtual timer expired"
  | 27 => some "Profiling timer expired"
  | 29 => some "I/O possible"
  | 30 => some "Power failure"
  | 31 => some "Bad system call"
  | number =>
    some (if number < firstFree then "Unknown signal " ++ toString number
      else "Real-time signal " ++ toString (number - firstFree))

end Signal
end CommandShell
