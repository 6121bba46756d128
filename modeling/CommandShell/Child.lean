import CommandShell.CommandError

/-!
# The end of a child

A program that was started is a child, and the system reports about it in status words of 32
bits. A report may say that the child only stopped or went on again; the first other report, or
the first failure of waiting, decides how the launch ended. An exit is a success whatever its
code.
-/

namespace CommandShell
namespace Child

/-- The exit code, if the word says that the child has exited: then its low seven bits are zero,
and the code is in the second eight. -/
def exitCode? (word : UInt32) : Option Nat :=
  if word &&& 0x7F = 0 then some ((word >>> 8) &&& 0xFF).toNat else none

/-- The signal that ended the child, if the word says that one did: it is in the low seven bits,
which are all ones for a child that has only stopped or gone on. The eighth bit tells of a memory
dump. -/
def endingSignal? (word : UInt32) : Option Nat :=
  let low := word &&& 0x7F
  if low = 0 ∨ low = 0x7F then none else some low.toNat

/-- The child has come to its end. -/
def hasEnded (word : UInt32) : Bool := (exitCode? word).isSome || (endingSignal? word).isSome

/-- The answer of waiting for a child once. -/
inductive Report where
  | status (word : UInt32)
  | failed (f : Fault)
deriving DecidableEq

/-- Waits until the child has ended or waiting fails. The answer is the last status word, or the
fault, and the reports that were not looked at. When no report is left, there is no child to wait
for. -/
def waitForEnd : List Report → Except Fault UInt32 × List Report
  | [] => (.error .noChild, [])
  | .failed f :: rest => if f.isInterruption then waitForEnd rest else (.error f, rest)
  | .status word :: rest => if hasEnded word then (.ok word, rest) else waitForEnd rest

/-- How a launch ended, and the reports that were not looked at. -/
structure Conclusion where
  answer : Except CommandError Unit
  unread : List Report

/-- What it means for the launch of `program` that its child ended with a status word. -/
def judge (program : String) (word : UInt32) : Except CommandError Unit :=
  match endingSignal? word with
  | some signal => .error (.terminated program signal)
  | none => .ok ()

/-- Waits for the end of a child that was started as `program`. -/
def await (program : String) (reports : List Report) : Conclusion :=
  match waitForEnd reports with
  | (.error f, unread) => ⟨.error (.wait program f), unread⟩
  | (.ok word, unread) => ⟨judge program word, unread⟩

/-- How the launch of `program` ends: it is waited for only if it could be started. -/
def conclude (program : String) (started : Except Fault Unit) (reports : List Report) :
    Conclusion :=
  match started with
  | .error f => ⟨.error (.spawn program f), reports⟩
  | .ok () => await program reports

/-- How a program comes to its end. -/
inductive Ending where
  | exit (code : Nat)
  | signal (number : Nat)
deriving DecidableEq

/-- The status word that reports an ending. -/
def Ending.word : Ending → UInt32
  | exit code => (UInt32.ofNat code &&& 0xFF) <<< 8
  | signal number => UInt32.ofNat number &&& 0x7F

end Child
end CommandShell
